import DataBinding.Proofs.Text.Position
import Mathlib.Data.List.Basic

/-!
# Lines, rows and positions

A text is cut at its line feeds into rows, and what is left behind the last line feed. From these
the position of a place is read off, and the offset of a position; and so are the lines that a text
is shown with. A row is the line that it is shown as, up to a carriage return at its end, but what
is left is a line only if it is not empty.

## Main definitions

* `ofRows` — rows, each with a line feed behind it
* `Position.toOffset` — the offset of a position in a text
* `dropReturn` — a row as it is shown
* `OnLine` — the parts of a line on both sides of a place
* `Lineless` — a place that is on no line

## Main results

* `exists_rows` — every text consists of rows and what is left
* `Position.ofOffset_ofRows` — line and column, by the rows in front of a place
* `Position.toOffset_ofOffset` — the position of a place leads back to its offset
* `lines_ofRows` — the lines of a text, by its rows
* `OnLine.unique`, `exists_onLine` — which of the lines a place lies on
-/

namespace DataBinding

/-- Rows of a text, each with a line feed behind it. -/
def ofRows (rows : List (List Char)) : List Char := rows.flatMap (· ++ ['\n'])

variable {rows : List (List Char)} {row left : List Char}

@[simp] theorem ofRows_nil : ofRows [] = [] := rfl

@[simp] theorem ofRows_cons (row : List Char) (rows : List (List Char)) :
    ofRows (row :: rows) = row ++ '\n' :: ofRows rows := by
  simp [ofRows]

theorem ofRows_append (rows rows' : List (List Char)) :
    ofRows (rows ++ rows') = ofRows rows ++ ofRows rows' :=
  List.flatMap_append

/-- Every text consists of rows and what is left behind them. -/
theorem exists_rows (text : List Char) :
    ∃ rows left, text = ofRows rows ++ left ∧ (∀ row ∈ rows, '\n' ∉ row) ∧ '\n' ∉ left := by
  induction text with
  | nil => exact ⟨[], [], rfl, by simp, by simp⟩
  | cons c text ih =>
    obtain ⟨rows, left, rfl, unbroken, last⟩ := ih
    by_cases feed : c = '\n'
    · exact ⟨[] :: rows, left, by simp [feed], by simpa using unbroken, last⟩
    · -- The character belongs to the first row, if there is one.
      cases rows with
      | nil => exact ⟨[], c :: left, rfl, by simp, by simp [Ne.symm feed, last]⟩
      | cons row rows =>
        obtain ⟨first, others⟩ := List.forall_mem_cons.1 unbroken
        exact ⟨(c :: row) :: rows, left, by simp,
          List.forall_mem_cons.2 ⟨by simp [Ne.symm feed, first], others⟩, last⟩

theorem count_ofRows (unbroken : ∀ row ∈ rows, '\n' ∉ row) :
    (ofRows rows).count '\n' = rows.length := by
  induction rows with
  | nil => rfl
  | cons row rows ih =>
    obtain ⟨first, others⟩ := List.forall_mem_cons.1 unbroken
    simp [List.count_eq_zero.2 first, ih others]

/-- The rows of a text are found by cutting it at its line feeds. -/
theorem splitOn_ofRows (unbroken : ∀ row ∈ rows, '\n' ∉ row) (rest : List Char) :
    (ofRows rows ++ rest).splitOn '\n' = rows ++ rest.splitOn '\n' := by
  induction rows with
  | nil => rfl
  | cons row rows ih =>
    obtain ⟨first, others⟩ := List.forall_mem_cons.1 unbroken
    have solid : ∀ c ∈ row, (c == '\n') = false := fun c mem =>
      beq_eq_false_iff_ne.2 fun feed => first (feed ▸ mem)
    rw [ofRows_cons, List.append_assoc, List.cons_append, List.splitOn_eq_splitOnP,
      List.splitOnP_append_cons_of_forall_mem solid '\n' rfl, ← List.splitOn_eq_splitOnP,
      ih others, List.cons_append]

/-! ### Positions -/

namespace Position

/-- On a line the column grows with the bytes that are passed. -/
theorem foldl_after_of_notMem (h : '\n' ∉ left) (p : Position) :
    left.foldl after p = ⟨p.line, p.col + byteSize left⟩ := by
  induction left generalizing p with
  | nil => rfl
  | cons c left ih =>
    obtain ⟨first, others⟩ := not_or.1 (mt List.mem_cons.2 h)
    rw [List.foldl_cons, ih others, after, if_neg (Ne.symm first), byteSize, Nat.add_assoc]

/-- Behind each row a line begins. -/
theorem foldl_after_ofRows (unbroken : ∀ row ∈ rows, '\n' ∉ row) (line : Nat) :
    (ofRows rows).foldl after ⟨line, 1⟩ = ⟨line + rows.length, 1⟩ := by
  induction rows generalizing line with
  | nil => rfl
  | cons row rows ih =>
    obtain ⟨first, others⟩ := List.forall_mem_cons.1 unbroken
    rw [ofRows_cons, List.foldl_append, foldl_after_of_notMem first, List.foldl_cons, after,
      if_pos rfl, ih others, List.length_cons, Nat.add_comm rows.length, Nat.add_assoc]

/-- The line of a place is one more than the rows in front of it, and the column one more than the
bytes that are left behind these rows. -/
theorem ofOffset_ofRows (unbroken : ∀ row ∈ rows, '\n' ∉ row) (last : '\n' ∉ left)
    (after : List Char) :
    ofOffset (ofRows rows ++ left ++ after) (byteSize (ofRows rows ++ left)) =
      ⟨rows.length + 1, byteSize left + 1⟩ := by
  rw [ofOffset_eq, List.foldl_append, start, foldl_after_ofRows unbroken,
    foldl_after_of_notMem last, Nat.add_comm 1, Nat.add_comm 1]

/-- The offset of a position in a text: the bytes of the lines in front of its line, each with the
line feed that ends it, and of the columns in front of its column. -/
def toOffset (p : Position) (cs : List Char) : Nat :=
  byteSize (ofRows ((cs.splitOn '\n').take (p.line - 1))) + (p.col - 1)

/-- The position of a place leads back to its offset. -/
theorem toOffset_ofOffset (before after : List Char) :
    (ofOffset (before ++ after) (byteSize before)).toOffset (before ++ after) =
      byteSize before := by
  obtain ⟨rows, left, rfl, unbroken, last⟩ := exists_rows before
  rw [ofOffset_ofRows unbroken last, toOffset, List.append_assoc, splitOn_ofRows unbroken,
    Nat.add_sub_cancel, List.take_left, Nat.add_sub_cancel, byteSize_append]

end Position

/-! ### Lines as they are shown -/

/-- A row as it is shown: without a carriage return right before the line feed. -/
def dropReturn (row : List Char) : List Char :=
  if row.getLast? = some '\r' then row.dropLast else row

theorem dropReturn_cons (c : Char) (ne : row ≠ []) :
    dropReturn (c :: row) = c :: dropReturn row := by
  obtain ⟨d, row, rfl⟩ := List.exists_cons_of_ne_nil ne
  simp only [dropReturn, List.getLast?_cons_cons, List.dropLast_cons_cons]
  split <;> rfl

theorem dropReturn_append (cs : List Char) (ne : row ≠ []) :
    dropReturn (cs ++ row) = cs ++ dropReturn row := by
  induction cs with
  | nil => rfl
  | cons c cs ih =>
    rw [List.cons_append, dropReturn_cons c (List.append_ne_nil_of_right_ne_nil cs ne), ih,
      List.cons_append]

theorem dropReturn_subset (row : List Char) : dropReturn row ⊆ row := by
  unfold dropReturn
  split
  · exact row.dropLast_subset
  · exact List.Subset.refl row

/-- A character that ends no row stands on the first line of what follows. -/
theorem lines_cons {c : Char} {rest line : List Char} {more : List (List Char)} (feed : c ≠ '\n')
    (split : ∀ tail, c = '\r' → rest ≠ '\n' :: tail) (h : lines rest = line :: more) :
    lines (c :: rest) = (c :: line) :: more := by
  rewrite [lines]
  · simp only [h]
  · exact feed
  · exact split

/-- A row is the first line of a text that begins with it. -/
theorem lines_row (h : '\n' ∉ row) (rest : List Char) :
    lines (row ++ '\n' :: rest) = dropReturn row :: lines rest := by
  induction row with
  | nil => rfl
  | cons c row ih =>
    obtain ⟨first, others⟩ := not_or.1 (mt List.mem_cons.2 h)
    cases row with
    | nil =>
      by_cases returns : c = '\r'
      · subst returns
        rfl
      · have last : dropReturn [c] = [c] := if_neg (by simpa using returns)
        have empty : lines ('\n' :: rest) = [] :: lines rest := rfl
        rw [last]
        exact lines_cons (Ne.symm first) (fun _ eq => absurd eq returns) empty
    | cons d row =>
      have next : ∀ tail, (d :: row) ++ '\n' :: rest ≠ '\n' :: tail := fun tail eq =>
        others ((List.cons.inj eq).1 ▸ List.mem_cons_self)
      rw [dropReturn_cons c (List.cons_ne_nil d row)]
      exact lines_cons (Ne.symm first) (fun tail _ => next tail) (ih others)

/-- What is left behind the last line feed is one line, with a carriage return at its end. -/
theorem lines_of_notMem (ne : row ≠ []) (h : '\n' ∉ row) : lines row = [row] := by
  induction row with
  | nil => exact absurd rfl ne
  | cons c row ih =>
    obtain ⟨first, others⟩ := not_or.1 (mt List.mem_cons.2 h)
    cases row with
    | nil =>
      rewrite [lines]
      · rfl
      · exact Ne.symm first
      · exact fun _ _ eq => List.cons_ne_nil _ _ eq.symm
    | cons d row =>
      have next : ∀ tail, d :: row ≠ '\n' :: tail := fun tail eq =>
        others ((List.cons.inj eq).1 ▸ List.mem_cons_self)
      exact lines_cons (Ne.symm first) (fun tail _ => next tail)
        (ih (List.cons_ne_nil d row) others)

/-- The lines of a text are its rows, and those of what is left. -/
theorem lines_ofRows (unbroken : ∀ row ∈ rows, '\n' ∉ row) (rest : List Char) :
    lines (ofRows rows ++ rest) = rows.map dropReturn ++ lines rest := by
  induction rows with
  | nil => rfl
  | cons row rows ih =>
    obtain ⟨first, others⟩ := List.forall_mem_cons.1 unbroken
    rw [ofRows_cons, List.append_assoc, List.cons_append, lines_row first, ih others,
      List.map_cons, List.cons_append]

theorem feed_notMem_of_mem_lines {text line : List Char} (h : line ∈ lines text) :
    '\n' ∉ line := by
  obtain ⟨rows, left, rfl, unbroken, last⟩ := exists_rows text
  rw [lines_ofRows unbroken] at h
  rcases List.mem_append.1 h with mem | mem
  · obtain ⟨row, member, rfl⟩ := List.mem_map.1 mem
    exact fun feed => unbroken row member (dropReturn_subset row feed)
  · by_cases empty : left = []
    · subst empty
      cases mem
    · rw [lines_of_notMem empty last] at mem
      cases List.mem_singleton.1 mem
      exact last

/-! ### The line of a place -/

/-- The line on which the place between two parts of a text lies consists of `left`, in front of the
place, and `right`, behind it. The line begins behind a line feed or with the text; and it ends with
the text, or where a line feed comes, or a carriage return and a line feed. -/
structure OnLine (before after left right : List Char) : Prop where
  unbroken : '\n' ∉ left ++ right
  begins : ∃ front, before = front ++ left ∧ (front = [] ∨ front.getLast? = some '\n')
  ends : after = right ∨ (∃ rest, after = right ++ '\r' :: '\n' :: rest) ∨
    (left ++ right).getLast? ≠ some '\r' ∧ ∃ rest, after = right ++ '\n' :: rest

/-- A row ends where the first line feed comes. -/
theorem eq_of_append_feed {row row' rest rest' : List Char} (h : '\n' ∉ row) (h' : '\n' ∉ row')
    (eq : row ++ '\n' :: rest = row' ++ '\n' :: rest') : row = row' := by
  have first : ∀ {row rest : List Char}, '\n' ∉ row →
      (row ++ '\n' :: rest).splitOn '\n' = row :: rest.splitOn '\n' := by
    intro row rest free
    have cut := splitOn_ofRows (List.forall_mem_singleton.2 free) rest
    rwa [ofRows_cons, ofRows_nil, List.append_assoc, List.singleton_append] at cut
  have rows := congrArg (List.splitOn '\n') eq
  rw [first h, first h'] at rows
  exact (List.cons.inj rows).1

namespace OnLine

variable {before after left right left' right' : List Char}

/-- A line begins where the last line feed ends, or the text. -/
theorem left_unique (h : OnLine before after left right) (h' : OnLine before after left' right') :
    left = left' := by
  have same : ∀ {front more rest : List Char}, '\n' ∉ more ++ rest →
      front ++ more = [] ∨ (front ++ more).getLast? = some '\n' → more = [] := by
    intro front more rest unbroken begins
    refine Decidable.byContradiction fun ne => ?_
    rcases begins with empty | feed
    · exact ne (List.append_eq_nil_iff.1 empty).2
    · rw [List.getLast?_append_of_ne_nil _ ne] at feed
      exact unbroken (List.mem_append_left _ (List.mem_of_getLast? feed))
  obtain ⟨front, split, begins⟩ := h.begins
  obtain ⟨front', split', begins'⟩ := h'.begins
  have solid := fun mem => h.unbroken (List.mem_append_left right mem)
  have solid' := fun mem => h'.unbroken (List.mem_append_left right' mem)
  -- What lies between the two beginnings is part of one of the lines, and ends with a line feed.
  rcases List.append_eq_append_iff.1 (split.symm.trans split') with
    ⟨more, rfl, rfl⟩ | ⟨more, rfl, rfl⟩
  · rw [same solid begins', List.nil_append]
  · rw [same solid' begins, List.nil_append]

/-- The line ends with the text, or it is a row as it is shown. -/
theorem exists_row (h : OnLine before after left right) :
    after = right ∨ ∃ row rest, '\n' ∉ row ∧ after = row ++ '\n' :: rest ∧
      left ++ right = dropReturn (left ++ row) := by
  have solid := fun mem => h.unbroken (List.mem_append_right left mem)
  rcases h.ends with ends | ⟨rest, ends⟩ | ⟨last, rest, ends⟩
  · exact .inl ends
  · exact .inr ⟨right ++ ['\r'], rest, by simpa using solid, by simpa using ends,
      by simp [dropReturn]⟩
  · exact .inr ⟨right, rest, solid, ends, (if_neg last).symm⟩

/-- A line ends where the next line feed comes, or the text ends. -/
theorem right_unique (h : OnLine before after left right) (h' : OnLine before after left right') :
    right = right' := by
  have solid := fun mem => h.unbroken (List.mem_append_right left mem)
  have solid' := fun mem => h'.unbroken (List.mem_append_right left mem)
  rcases h.exists_row with rfl | ⟨row, rest, free, rfl, whole⟩
  · rcases h'.exists_row with eq | ⟨row', rest', -, rfl, -⟩
    · exact eq
    -- A line that ends with the text has no line feed behind the place.
    · exact absurd (by simp) solid
  · rcases h'.exists_row with rfl | ⟨row', rest', free', eq, whole'⟩
    · exact absurd (by simp) solid'
    · cases eq_of_append_feed free free' eq
      exact List.append_cancel_left (whole.trans whole'.symm)

/-- A place lies on one line at most. -/
theorem unique (h : OnLine before after left right) (h' : OnLine before after left' right') :
    left = left' ∧ right = right' := by
  cases h.left_unique h'
  exact ⟨rfl, h.right_unique h'⟩

end OnLine

/-- There is no line at the place: the text ends there, and is empty or ends with a line feed. -/
def Lineless (before after : List Char) : Prop :=
  after = [] ∧ (before = [] ∨ before.getLast? = some '\n')

theorem getLast?_ofRows (rows : List (List Char)) :
    ofRows rows = [] ∨ (ofRows rows).getLast? = some '\n' := by
  rcases rows.eq_nil_or_concat with rfl | ⟨rows, row, rfl⟩
  · exact .inl rfl
  · exact .inr (by simp [ofRows_append])

theorem lineless_iff {after : List Char} (last : '\n' ∉ left) :
    Lineless (ofRows rows ++ left) after ↔ left ++ after = [] := by
  have ends : (ofRows rows ++ left = [] ∨ (ofRows rows ++ left).getLast? = some '\n') ↔
      left = [] := by
    by_cases empty : left = []
    · simpa [empty] using getLast?_ofRows rows
    · have feed : left.getLast? ≠ some '\n' := fun eq => last (List.mem_of_getLast? eq)
      simp [empty, List.getLast?_append_of_ne_nil _ empty, feed]
  rw [Lineless, ends, List.append_eq_nil_iff, and_comm]

/-- In front of a character other than a line feed there is a line, unless the text ends there, and
this line comes behind those of the rows in front. -/
theorem exists_onLine {after : List Char} (unbroken : ∀ row ∈ rows, '\n' ∉ row)
    (last : '\n' ∉ left) (solid : ∀ rest, after ≠ '\n' :: rest) (ne : left ++ after ≠ []) :
    ∃ right more, OnLine (ofRows rows ++ left) after left right ∧
      lines (ofRows rows ++ left ++ after) = rows.map dropReturn ++ (left ++ right) :: more := by
  have begins : ∃ front, ofRows rows ++ left = front ++ left ∧
      (front = [] ∨ front.getLast? = some '\n') := ⟨_, rfl, getLast?_ofRows rows⟩
  rw [List.append_assoc, lines_ofRows unbroken]
  by_cases feed : '\n' ∈ after
  -- The line goes up to the first line feed, and what is shown of it at least up to the place.
  · obtain ⟨row, rest, rfl, free⟩ := List.eq_append_cons_of_mem feed
    have filled : row ≠ [] := by
      rintro rfl
      exact solid rest rfl
    have whole := List.not_mem_append last free
    refine ⟨dropReturn row, lines rest, ⟨?_, begins, .inr ?_⟩, ?_⟩
    · exact List.not_mem_append last fun mem => free (dropReturn_subset row mem)
    · by_cases returns : row.getLast? = some '\r'
      · obtain ⟨line, rfl⟩ := List.getLast?_eq_some_iff.1 returns
        exact .inl ⟨rest, by simp [dropReturn]⟩
      · rw [dropReturn, if_neg returns, List.getLast?_append_of_ne_nil _ filled]
        exact .inr ⟨returns, rest, rfl⟩
    · rw [← List.append_assoc, lines_row whole, dropReturn_append left filled]
  -- What is left of the text is the line.
  · have whole := List.not_mem_append last feed
    exact ⟨after, [], ⟨whole, begins, .inl rfl⟩, by rw [lines_of_notMem ne whole]⟩

end DataBinding
