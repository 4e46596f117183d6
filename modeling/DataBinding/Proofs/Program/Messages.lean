import DataBinding.Proofs.Expr.Wording
import DataBinding.Proofs.Program.Respacing

/-!
# Messages point at the place

The message of an error consists of rows: a heading, and the line of the error with its neighbours,
each with its number. Which line that is has been told by counting line feeds, but the lines that
are shown leave out their ends, and there is none behind the last line feed. The two agree wherever
an error can lie, since errors lie in front of characters that are no blanks, or at the end.

## Main definitions

* `lineRow`, `caretRow` — the row of a line, and the one with the caret
* `isMarked`, `isCaret` — tests for the row of the error, and for the one below it
* `SyntaxError.rows` — the rows of a message

## Main results

* `SyntaxError.exists_shown` — among the lines that are shown, one has the number of the error
* `SyntaxError.caretOffset_append` — the caret stands below the place
* `compile_message` — the message of an error points at its place
-/

namespace DataBinding

open Decimal

/-! ### The rows of a message -/

/-- The row of a line: a mark, the number of the line, and the line. -/
def lineRow (mark : String) (number : Nat) (line : List Char) : List Char :=
  mark.toList ++ Nat.toDigits 10 number ++ ' ' :: line

/-- The row below a marked line, with the caret below a column of the line. -/
def caretRow (number column : Nat) : List Char :=
  List.replicate ((lineRow "-> " number []).length + column) ' ' ++ ['^']

/-- Whether the row has a mark in front. -/
def isMarked (row : List Char) : Bool := "-> ".toList.isPrefixOf row

/-- Whether the row has only spaces and one caret behind them. -/
def isCaret (row : List Char) : Bool := row.dropWhile (· == ' ') == ['^']

@[simp] theorem isMarked_lineRow (number : Nat) (line : List Char) :
    isMarked (lineRow "-> " number line) = true := rfl

@[simp] theorem isMarked_lineRow_plain (number : Nat) (line : List Char) :
    isMarked (lineRow "   " number line) = false := rfl

@[simp] theorem isMarked_caretRow (number column : Nat) :
    isMarked (caretRow number column) = false := by
  have indent : (lineRow "-> " number []).length + column =
      (Nat.toDigits 10 number).length + 3 + column + 1 := by
    simp [lineRow]
    omega
  rw [caretRow, indent, List.replicate_succ]
  rfl

@[simp] theorem isCaret_lineRow (number : Nat) (line : List Char) :
    isCaret (lineRow "-> " number line) = false := rfl

/-- Behind the spaces in front of it there comes the number. -/
@[simp] theorem isCaret_lineRow_plain (number : Nat) (line : List Char) :
    isCaret (lineRow "   " number line) = false := by
  have digits := digits_toDigits number
  have some : Nat.toDigits 10 number ≠ [] := Nat.toDigits_ne_nil
  cases eq : Nat.toDigits 10 number with
  | nil => exact absurd eq some
  | cons d ds =>
    have digit := digits d (eq ▸ List.mem_cons_self)
    have space : d ≠ ' ' := by
      rintro rfl
      exact absurd digit (by decide)
    have caret : d ≠ '^' := by
      rintro rfl
      exact absurd digit (by decide)
    simp [isCaret, lineRow, eq, space, caret]

@[simp] theorem isCaret_caretRow (number column : Nat) :
    isCaret (caretRow number column) = true := by
  have spaces : ∀ n, (List.replicate n ' ' ++ ['^']).dropWhile (· == ' ') = ['^'] := fun n => by
    rw [List.dropWhile_append_of_pos (by simp)]
    rfl
  rw [isCaret, caretRow, spaces]
  rfl

namespace SyntaxError

variable (width : List Char → Nat) (e : SyntaxError)

/-- The first row of the message. -/
def heading : List Char :=
  "error on line ".toList ++ Nat.toDigits 10 e.position.line ++ ": ".toList ++ e.fault.chars

/-- The rows for a line of the source. -/
def lineRows (shown : Nat × List Char) : List (List Char) :=
  if shown.1 = e.position.line then
    [lineRow "-> " shown.1 shown.2,
      caretRow shown.1 (caretOffset width shown.2 e.position.col)]
  else [lineRow "   " shown.1 shown.2]

/-- The rows of the message. -/
def rows : List (List Char) := e.heading :: e.shown.flatMap (e.lineRows width)

theorem lineChars_eq (number : Nat) (line : List Char) :
    e.lineChars width number line = ofRows (e.lineRows width (number, line)) := by
  unfold lineChars lineRows
  by_cases marked : number = e.position.line
  · simp [marked, lineRow, caretRow]
  · simp [marked, lineRow]

/-- The message consists of its rows. -/
theorem charsBy_eq : e.charsBy width = ofRows (e.rows width) := by
  have flat : ofRows (e.shown.flatMap (e.lineRows width)) =
      e.shown.flatMap fun shown => e.lineChars width shown.1 shown.2 := by
    simp only [ofRows, List.flatMap_assoc, lineChars_eq]
  rw [rows, ofRows_cons, flat]
  rfl

/-! ### The lines that are shown -/

variable {e}

theorem mem_shown {number : Nat} {line : List Char} (h : (number, line) ∈ e.shown) :
    number ≤ (lines e.source.toList).length ∧ line ∈ lines e.source.toList := by
  obtain ⟨i, lt, eq⟩ := List.mem_mapIdx.1 h
  cases eq
  rw [List.length_take, List.length_drop] at lt
  exact ⟨by omega, List.mem_of_mem_drop (List.mem_of_mem_take (List.getElem_mem _))⟩

/-- The line of the error is shown under its number, and no other line is. -/
theorem exists_shown {front back : List (List Char)} {line : List Char}
    (split : lines e.source.toList = front ++ line :: back)
    (number : e.position.line = front.length + 1) :
    ∃ pre post, e.shown = pre ++ (e.position.line, line) :: post ∧
      (∀ shown ∈ pre, shown.1 ≠ e.position.line) ∧ ∀ shown ∈ post, shown.1 ≠ e.position.line := by
  have skipped : e.position.line - 2 = front.length - 1 := by omega
  -- One line comes in front, unless the line is the first one.
  generalize eq : front.drop (front.length - 1) = near
  have size : near.length = front.length - (front.length - 1) := by rw [← eq, List.length_drop]
  have drop : (front ++ line :: back).drop (front.length - 1) = near ++ line :: back := by
    rw [List.drop_append_of_le_length (Nat.sub_le _ _), eq]
  have take : (near ++ line :: back).take 3 = near ++ line :: back.take (2 - near.length) := by
    rw [List.take_append, List.take_of_length_le (by omega),
      show 3 - near.length = 2 - near.length + 1 by omega, List.take_succ_cons]
  -- Numbers go up by one from line to line, so it is enough to number one of them.
  have middle : front.length - 1 + (0 + near.length) + 1 = e.position.line := by omega
  rw [shown, split, skipped, drop, take, List.mapIdx_append, List.mapIdx_cons, middle]
  refine ⟨_, _, rfl, fun shown mem => ?_, fun shown mem => ?_⟩
  · obtain ⟨i, lt, rfl⟩ := List.mem_mapIdx.1 mem
    change front.length - 1 + i + 1 ≠ _
    omega
  · obtain ⟨i, lt, rfl⟩ := List.mem_mapIdx.1 mem
    change front.length - 1 + (i + 1 + near.length) + 1 ≠ _
    omega

theorem feed_notMem_of_mem_rows (one : '\n' ∉ e.fault.chars) {row : List Char}
    (h : row ∈ e.rows width) : '\n' ∉ row := by
  have digits : ∀ number, '\n' ∉ Nat.toDigits 10 number := fun number =>
    (digits_toDigits number).feed_notMem
  rcases List.mem_cons.1 h with rfl | mem
  · exact List.not_mem_append (List.not_mem_append
      (List.not_mem_append (by decide) (digits e.position.line)) (by decide)) one
  · obtain ⟨⟨number, line⟩, shown, mem⟩ := List.mem_flatMap.1 mem
    have solid := feed_notMem_of_mem_lines (mem_shown shown).2
    have plain : ∀ mark ∈ ["-> ", "   "], '\n' ∉ lineRow mark number line := by
      simp [lineRow, digits, solid]
    have caret : ∀ column, '\n' ∉ caretRow number column := by
      simp [caretRow]
    unfold lineRows at mem
    split at mem
    · rcases List.mem_pair.1 mem with rfl | rfl
      · exact plain _ (by simp)
      · exact caret _
    · cases List.mem_singleton.1 mem
      exact plain _ (by simp)

/-- Lines other than that of the error have no mark. -/
theorem flatMap_lineRows {shown : List (Nat × List Char)}
    (other : ∀ line ∈ shown, line.1 ≠ e.position.line) :
    shown.flatMap (e.lineRows width) = shown.map fun line => lineRow "   " line.1 line.2 := by
  rw [List.map_eq_flatMap]
  refine List.flatMap_congr fun line mem => ?_
  rw [lineRows, if_neg (other line mem)]

theorem filter_plain (shown : List (Nat × List Char)) :
    (shown.map fun line => lineRow "   " line.1 line.2).filter isMarked = [] ∧
      (shown.map fun line => lineRow "   " line.1 line.2).filter isCaret = [] := by
  simp [List.filter_map, Function.comp_def]

theorem isMarked_heading (e : SyntaxError) : isMarked e.heading = false := rfl

theorem isCaret_heading (e : SyntaxError) : isCaret e.heading = false := rfl

/-- Where no line has the number of the error, no row is marked. -/
theorem filter_rows_of_length_lt (h : (lines e.source.toList).length < e.position.line) :
    (e.rows width).filter isMarked = [] ∧ (e.rows width).filter isCaret = [] := by
  have other : ∀ line ∈ e.shown, line.1 ≠ e.position.line := fun line mem =>
    Nat.ne_of_lt (Nat.lt_of_le_of_lt (mem_shown mem).1 h)
  rw [rows, flatMap_lineRows width other, List.filter_cons, List.filter_cons, isMarked_heading,
    isCaret_heading]
  exact filter_plain e.shown

/-- The row of the line of the error is the only one that is marked, and the caret is below it. -/
theorem filter_rows {front back : List (List Char)} {line : List Char}
    (split : lines e.source.toList = front ++ line :: back)
    (number : e.position.line = front.length + 1) :
    let marked := lineRow "-> " e.position.line line
    let caret := caretRow e.position.line (caretOffset width line e.position.col)
    (e.rows width).filter isMarked = [marked] ∧ (e.rows width).filter isCaret = [caret] ∧
      [marked, caret] <:+: e.rows width := by
  intro marked caret
  obtain ⟨pre, post, eq, before, after⟩ := exists_shown split number
  have here : e.lineRows width (e.position.line, line) = [marked, caret] := if_pos rfl
  rw [rows, eq, List.flatMap_append, List.flatMap_cons, here, flatMap_lineRows width before,
    flatMap_lineRows width after]
  refine ⟨?_, ?_, ?_⟩
  · simp [List.filter_cons, isMarked_heading, filter_plain, marked, caret]
  · simp [isCaret_heading, filter_plain, marked, caret]
  · exact ⟨e.heading :: pre.map fun line => lineRow "   " line.1 line.2, _, by simp; rfl⟩

/-! ### The caret -/

theorem takeBytes?_append (left right : List Char) :
    takeBytes? (left ++ right) (byteSize left) = some left := by
  induction left with
  | nil => rw [byteSize, takeBytes?]
  | cons c left ih =>
    rw [List.cons_append, byteSize, takeBytes?, if_pos (Nat.le_add_right _ _),
      Nat.add_sub_cancel_left, ih]
    · rfl
    · have := c.utf8Size_pos
      omega

/-- The caret stands as far from the beginning of the line as what comes before it is wide. -/
theorem caretOffset_append (left right : List Char) :
    caretOffset width (left ++ right) (byteSize left + 1) = width left := by
  have size : min (byteSize left) (byteSize (left ++ right)) = byteSize left := by simp
  simp only [caretOffset, Nat.add_sub_cancel, size, takeBytes?_append]

end SyntaxError

open SyntaxError

theorem ofSource_of_compile {source : String} {e : SyntaxError} (h : compile source = .error e) :
    Expr.ofSource source = .error e := by
  have read := Program.compile_program source
  rw [h] at read
  cases parsed : Expr.ofSource source with
  | ok expr =>
    rw [parsed] at read
    cases read
  | error e' =>
    rw [parsed] at read
    cases read
    rfl

/-- The message of a source that is not compiled, cut into rows at its line feeds, points at the
place of the error. One row is marked, and it shows the number of the line and the line itself; and
the row below, which no other row is like, has the caret below the place, as far from the beginning
of the line as what comes before it on the line is wide. Nothing is marked only if the source ends
at the place, and is empty or ends with a line feed. -/
theorem compile_message {source : String} {e : SyntaxError} (h : compile source = .error e) :
    e.message.toList = e.charsBy Width.ofText ∧
    ∃ before after, source.toList = before ++ after ∧
      e = ofFault source (e.fault, byteSize before) ∧ e.fault.LiesAt source before after ∧
      ∀ width : List Char → Nat, ∃ rows, (e.charsBy width).splitOn '\n' = rows ++ [[]] ∧
        (Lineless before after → rows.filter isMarked = [] ∧ rows.filter isCaret = []) ∧
        (¬Lineless before after → ∃ left right, OnLine before after left right ∧
          let marked := lineRow "-> " e.position.line (left ++ right)
          let caret := caretRow e.position.line (width left)
          rows.filter isMarked = [marked] ∧ rows.filter isCaret = [caret] ∧
            [marked, caret] <:+: rows) := by
  have failed := ofSource_of_compile h
  have one := Expr.feed_notMem_of_ofSource failed
  obtain ⟨before, after, text, eq, lies⟩ := Expr.exists_liesAt_of_ofSource failed
  refine ⟨String.toList_ofList, before, after, text, eq, lies, fun width => ?_⟩
  have unbroken : ∀ row ∈ e.rows width, '\n' ∉ row := fun row mem =>
    feed_notMem_of_mem_rows width one mem
  have cut := splitOn_ofRows unbroken []
  rw [List.append_nil, ← charsBy_eq] at cut
  -- Line and column count the rows in front of the place, and what is left of its own row.
  obtain ⟨rows, left, rfl, free, last⟩ := exists_rows before
  have sourced : e.source.toList = ofRows rows ++ left ++ after := by
    rw [eq]
    exact text
  have position : e.position = ⟨rows.length + 1, byteSize left + 1⟩ := by
    rw [← Position.ofOffset_ofRows free last after, ← text, eq]
    rfl
  refine ⟨e.rows width, cut, fun none => ?_, fun some => ?_⟩
  -- Only the rows in front are lines, which are too few.
  · refine filter_rows_of_length_lt width ?_
    have empty := (lineless_iff last).1 none
    rw [sourced, position, List.append_assoc, empty, lines_ofRows free, List.length_append,
      List.length_map]
    exact Nat.lt_succ_self _
  -- The line of the place comes behind as many lines as there are rows in front.
  · rw [lineless_iff last] at some
    have solid : ∀ rest, after ≠ '\n' :: rest := by
      rintro rest rfl
      exact absurd (lies.isBlank_head text) (by decide)
    obtain ⟨right, more, on, split⟩ := exists_onLine free last solid some
    rw [← sourced] at split
    have found := filter_rows width split (by rw [position, List.length_map])
    rw [position, caretOffset_append] at found
    refine ⟨left, right, on, ?_⟩
    rw [position]
    exact found

/-- A place behind a blank of two bytes, on a line that ends with two characters. -/
theorem compile_message_blank :
    let source := "[\r\n\u00A0#\r\n]"
    let e : SyntaxError := ⟨.unexpectedChar '#', ⟨2, 3⟩, source⟩
    compile source = .error e ∧ ∃ rows, (e.charsBy List.length).splitOn '\n' = rows ++ [[]] ∧
      rows.filter isMarked = ["-> 2 \u00A0#".toList] ∧
      rows.filter isCaret = ["      ^".toList] := by
  intro source e
  have bracket : (Cursor.ofSource "[\r\n\u00A0#\r\n]").next? =
      some (.ok ⟨.mark .openBracket, 0⟩, ⟨1, ['\r', '\n', '\u00A0', '#', '\r', '\n', ']']⟩) := rfl
  have sharp : (Cursor.mk 1 ['\r', '\n', '\u00A0', '#', '\r', '\n', ']']).next? =
      some (.error (.unexpectedChar '#', 5), ⟨6, ['\r', '\n', ']']⟩) := rfl
  have lexed : tokenize "[\r\n\u00A0#\r\n]" =
      .error ⟨.unexpectedChar '#', ⟨2, 3⟩, "[\r\n\u00A0#\r\n]"⟩ := by
    rw [tokenize, Cursor.tokens_eq_cons bracket, Cursor.tokens_eq_error sharp]
    rfl
  have failed : compile source = .error e := by
    unfold compile compileLogged
    rw [lexed]
  obtain ⟨-, before, after, text, eq, -, message⟩ := compile_message failed
  have chars : "[\r\n\u00A0#\r\n]".toList =
      ['[', '\r', '\n', '\u00A0'] ++ ['#', '\r', '\n', ']'] := rfl
  have place : before = ['[', '\r', '\n', '\u00A0'] := by
    have here : e.Behind before := eq ▸ behind_ofFault text e.fault
    exact here.unique ⟨['#', '\r', '\n', ']'], chars, by decide⟩
  subst place
  obtain rfl := List.append_cancel_left (text.symm.trans chars)
  obtain ⟨rows, cut, -, points⟩ := message List.length
  obtain ⟨left, right, line, marked, caret, -⟩ := points (by simp [Lineless])
  have here : OnLine ['[', '\r', '\n', '\u00A0'] ['#', '\r', '\n', ']'] ['\u00A0'] ['#'] :=
    ⟨by decide, ⟨['[', '\r', '\n'], rfl, .inr rfl⟩, .inr (.inl ⟨[']'], rfl⟩)⟩
  obtain ⟨rfl, rfl⟩ := line.unique here
  exact ⟨failed, rows, cut, marked.trans (by decide), caret.trans (by decide)⟩

end DataBinding
