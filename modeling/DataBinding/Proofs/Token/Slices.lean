import DataBinding.Proofs.Text.Position
import DataBinding.Proofs.Token.Lexemes

/-!
# Tokens as slices of the source

The tokens of a source are slices of it, one behind the other, with nothing but blanks between
them: no character is lost, invented or moved. How a slice spells its lexeme can depend on what
follows it, since a word goes on as long as it can and a point in front of a digit begins a number.

## Main definitions

* `Piece` — a token with its slice and the gap in front of it
* `Lexeme.SpelledBy` — a slice spells a lexeme in front of a text
* `Recognized.Spelled` — what is recognized is spelled by the characters that it takes
* `Tiling` — the pieces of a text, one behind the other

## Main results

* `recognize_spelled` — whatever is recognized is spelled
* `tokenize_tiling` — the tokens of a source tile it
-/

namespace DataBinding

open Decimal Recognized

/-! ### Spellings -/

/-- The characters between tokens: blank, tab, carriage return, line feed, vertical tab and
no-break space. -/
def blanks : List Char := [' ', '\t', '\r', '\n', '\x0B', '\u00A0']

theorem mem_blanks_iff {c : Char} : c ∈ blanks ↔ isBlank c = true := by
  simp only [blanks, isBlank, List.mem_cons, List.not_mem_nil, Bool.or_eq_true, beq_iff_eq]
  tauto

/-- The slice spells the lexeme in front of `rest`. It is the text of the lexeme, but the text of a
string is its value, which the slice spells between two quotes of one kind. -/
def Lexeme.SpelledBy (slice rest : List Char) : Lexeme → Prop
  | mark m =>
    slice = (mark m).text.toList ∧ slice = [m.char] ∧ (m = .dot → startsWithDigit rest = false)
  | word name =>
    slice = (word name).text.toList ∧ isWord slice = true ∧
      ∀ c more, rest = c :: more → isWordChar c = false
  | number spelling value =>
    slice = (number spelling value).text.toList ∧ Number.ofNumeral? slice = some value ∧
      ∃ c more, slice = c :: more ∧ (c.isDigit = true ∨ c = '.' ∧ startsWithDigit more = true)
  | str value =>
    (str value).text = value ∧ ∃ quote body, (quote = '"' ∨ quote = '\'') ∧
      slice = quote :: (body ++ [quote]) ∧
      StringBody.scan quote (body ++ [quote]) = .closed value.toList (body.length + 1)

namespace Lexeme.SpelledBy

variable {slice rest : List Char} {l : Lexeme}

theorem ne_nil (h : l.SpelledBy slice rest) : slice ≠ [] := by
  rintro rfl
  cases l with
  | mark m => exact absurd h.2.1 (List.cons_ne_nil _ _).symm
  | word name => cases h.2.1
  | number spelling value =>
    obtain ⟨-, -, c, more, eq, -⟩ := h
    cases eq
  | str value =>
    obtain ⟨-, quote, body, -, eq, -⟩ := h
    cases eq

end Lexeme.SpelledBy

/-- A lexeme that is recognized in front of the text is spelled by the characters that it takes. -/
def Recognized.Spelled (cs : List Char) (r : Recognized) : Prop :=
  ∀ lexeme, r.outcome = .ok lexeme → ∃ slice behind,
    cs = slice ++ behind ∧ slice.length = r.size ∧ lexeme.SpelledBy slice behind

/-- A number has been accepted as a numeral, which tells how it begins. -/
theorem number_spelled (c : Char) (rest : List Char) : (number c rest).Spelled (c :: rest) := by
  intro lexeme h
  obtain ⟨d, numeral, rfl⟩ := number_eq_ok h
  obtain ⟨behind, eq, -, -⟩ := numberTail_eq false rest
  have value : Number.ofNumeral? (c :: (numberTail false rest).1) = _ :=
    congrArg (Option.map _) numeral.ofNumeral?
  refine ⟨_, behind, congrArg (c :: ·) eq, (number_size c rest).symm,
    String.toList_ofList.symm, value, ?_⟩
  obtain ⟨c, more, eq, start⟩ := numeral.start
  refine ⟨c, more, eq, start.imp_right ?_⟩
  rintro ⟨rfl, d, more, rfl, digit⟩
  exact ⟨rfl, digit⟩

theorem string_spelled {quote : Char} (h : quote = '"' ∨ quote = '\'') (rest : List Char) :
    (string quote rest).Spelled (quote :: rest) := by
  intro lexeme ok
  unfold string at ok ⊢
  split at ok
  · rename_i value size scanned
    cases ok
    obtain ⟨body, behind, rfl, rfl, again⟩ := StringBody.scan_local scanned
    refine ⟨quote :: (body ++ [quote]), behind, by simp, by simp, rfl, quote, body, h, rfl, ?_⟩
    rw [again, String.toList_ofList]
  · cases ok
  · cases ok

theorem mark_spelled (m : Mark) {rest : List Char} (h : m = .dot → startsWithDigit rest = false) :
    (Recognized.mk (.ok (.mark m)) 1).Spelled (m.char :: rest) := by
  intro lexeme ok
  cases ok
  exact ⟨[m.char], rest, rfl, rfl, by simp [Lexeme.text], rfl, h⟩

/-- A word ends where none of its characters follows. -/
theorem word_spelled {c : Char} (h : isWordStart c = true) (rest : List Char) :
    (word c rest).Spelled (c :: rest) := by
  intro lexeme ok
  cases ok
  have all := List.all_takeWhile (l := rest) (p := isWordChar)
  refine ⟨_, rest.dropWhile isWordChar, ?_, rfl, String.toList_ofList.symm, by simp [isWord, h, all],
    fun d more left => ?_⟩
  · rw [List.cons_append, List.takeWhile_append_dropWhile]
  · have stop := List.head?_dropWhile_not isWordChar rest
    simpa [left] using stop

theorem recognize_spelled (c : Char) (rest : List Char) :
    (recognize c rest).Spelled (c :: rest) := by
  unfold recognize
  split
  · exact number_spelled c rest
  rename_i begins
  split
  · rename_i quoted
    exact string_spelled (by simpa using quoted) rest
  split
  · rename_i m found
    cases Mark.eq_char_of_ofChar? found
    refine mark_spelled m ?_
    rintro rfl
    simpa [Mark.char] using begins
  split
  · rename_i start
    exact word_spelled start rest
  · intro lexeme ok
    cases ok

/-! ### Pieces -/

/-- A token, the slice that spells it, and the gap in front of the slice. -/
structure Piece where
  gap : List Char
  slice : List Char
  token : Token

/-- The characters that the piece takes up. -/
def Piece.chars (p : Piece) : List Char := p.gap ++ p.slice

/-- The text, which begins at the offset `start`, is what the pieces take up one behind the other,
and a last gap. Gaps consist of blanks, tokens stand where their slices begin, and each slice spells
its lexeme in front of what follows. -/
structure Tiling (start : Nat) (text : List Char) (pieces : List Piece) (last : List Char) :
    Prop where
  text_eq : text = pieces.flatMap Piece.chars ++ last
  last_blank : last ⊆ blanks
  gap_blank : ∀ p ∈ pieces, p.gap ⊆ blanks
  slice_ne_nil : ∀ p ∈ pieces, p.slice ≠ []
  pos_eq : ∀ before p after, pieces = before ++ p :: after →
    p.token.pos = start + byteSize (before.flatMap Piece.chars ++ p.gap)
  spelled : ∀ before p after, pieces = before ++ p :: after →
    p.token.lexeme.SpelledBy p.slice (after.flatMap Piece.chars ++ last)
  ascending : (pieces.map fun p => p.token.pos).Pairwise (· < ·)

namespace Tiling

variable {start : Nat} {text last : List Char} {pieces : List Piece}

theorem nil (h : last ⊆ blanks) : Tiling start last [] last where
  text_eq := rfl
  last_blank := h
  gap_blank := by simp
  slice_ne_nil := by simp
  pos_eq := by simp
  spelled := by simp
  ascending := .nil

/-- No token stands before the text begins. -/
theorem start_le (h : Tiling start text pieces last) {p : Piece} (mem : p ∈ pieces) :
    start ≤ p.token.pos := by
  obtain ⟨before, after, split⟩ := List.append_of_mem mem
  rw [h.pos_eq before p after split]
  exact Nat.le_add_right _ _

/-- A token stands behind a part of the text, and in front of what is left. -/
theorem exists_front (h : Tiling start text pieces last) {p : Piece} (mem : p ∈ pieces) :
    ∃ front back, text = front ++ back ∧ back ≠ [] ∧ p.token.pos = start + byteSize front := by
  obtain ⟨before, after, split⟩ := List.append_of_mem mem
  refine ⟨before.flatMap Piece.chars ++ p.gap, p.slice ++ (after.flatMap Piece.chars ++ last), ?_,
    List.append_ne_nil_of_left_ne_nil (h.slice_ne_nil p mem) _, h.pos_eq before p after split⟩
  rw [h.text_eq, split, List.flatMap_append, List.flatMap_cons, Piece.chars]
  simp only [List.append_assoc]

/-- One more piece in front. -/
theorem cons {p : Piece} (more : Tiling (start + byteSize p.chars) text pieces last)
    (blank : p.gap ⊆ blanks) (pos : p.token.pos = start + byteSize p.gap)
    (spelled : p.token.lexeme.SpelledBy p.slice text) :
    Tiling start (p.chars ++ text) (p :: pieces) last where
  text_eq := by rw [more.text_eq, List.flatMap_cons, List.append_assoc]
  last_blank := more.last_blank
  gap_blank := List.forall_mem_cons.2 ⟨blank, more.gap_blank⟩
  slice_ne_nil := List.forall_mem_cons.2 ⟨spelled.ne_nil, more.slice_ne_nil⟩
  pos_eq := by
    intro before q after split
    rcases List.cons_eq_append_iff.1 split with ⟨rfl, eq⟩ | ⟨before, rfl, rest⟩
    · cases eq
      exact pos
    -- Behind the new piece all offsets are those of the tiling that was there, moved by its size.
    · rw [more.pos_eq before q after rest, List.flatMap_cons, List.append_assoc,
        byteSize_append p.chars, Nat.add_assoc]
  spelled := by
    intro before q after split
    rcases List.cons_eq_append_iff.1 split with ⟨rfl, eq⟩ | ⟨before, rfl, rest⟩
    · cases eq
      rwa [← more.text_eq]
    · exact more.spelled before q after rest
  ascending := by
    refine List.pairwise_cons.2 ⟨List.forall_mem_map.2 fun q mem => ?_, more.ascending⟩
    change p.token.pos < q.token.pos
    -- A slice is not empty, so what follows it begins further on.
    have later := more.start_le mem
    have size := byteSize_pos spelled.ne_nil
    rw [Piece.chars, byteSize_append] at later
    omega

/-- The first piece taken off. -/
theorem tail {p : Piece} (h : Tiling start text (p :: pieces) last) :
    Tiling (start + byteSize p.chars) (pieces.flatMap Piece.chars ++ last) pieces last where
  text_eq := rfl
  last_blank := h.last_blank
  gap_blank := (List.forall_mem_cons.1 h.gap_blank).2
  slice_ne_nil := (List.forall_mem_cons.1 h.slice_ne_nil).2
  pos_eq := by
    intro before q after split
    rw [h.pos_eq (p :: before) q after (congrArg (p :: ·) split), List.flatMap_cons,
      List.append_assoc, byteSize_append p.chars, Nat.add_assoc]
  spelled := fun before q after split => h.spelled (p :: before) q after (congrArg (p :: ·) split)
  ascending := (List.pairwise_cons.1 h.ascending).2

end Tiling

theorem map_eq_ok {ε α β : Type} {f : α → β} {x : Except ε α} {b : β} (h : x.map f = .ok b) :
    ∃ a, x = .ok a ∧ b = f a := by
  cases x <;> cases h
  exact ⟨_, rfl, rfl⟩

namespace Cursor

variable {cur next : Cursor}

theorem advance_append (pos : Nat) (cs rest : List Char) :
    (Cursor.mk pos (cs ++ rest)).advance cs.length = ⟨pos + byteSize cs, rest⟩ := by
  rw [advance, List.take_left, List.drop_left]

theorem skipBlanks_split (cur : Cursor) :
    ∃ gap rest, cur.rest = gap ++ rest ∧ gap ⊆ blanks ∧
      cur.skipBlanks = ⟨cur.pos + byteSize gap, rest⟩ := by
  refine ⟨cur.rest.takeWhile isBlank, cur.rest.dropWhile isBlank,
    List.takeWhile_append_dropWhile.symm, fun c mem => ?_, ?_⟩
  · exact mem_blanks_iff.2 (List.mem_takeWhile_imp mem)
  · have skip := advance_append cur.pos (cur.rest.takeWhile isBlank) (cur.rest.dropWhile isBlank)
    rwa [List.takeWhile_append_dropWhile] at skip

/-- Where no token comes there are only blanks. -/
theorem next?_eq_none (h : cur.next? = none) : cur.rest ⊆ blanks := by
  obtain ⟨gap, rest, eq, blank, skip⟩ := cur.skipBlanks_split
  cases rest with
  | nil => rwa [eq, List.append_nil]
  | cons c rest =>
    simp only [next?, skip] at h
    cases h

/-- A token that comes next is a piece of what follows, and reading goes on right behind it. -/
theorem next?_eq_ok {token : Token} (h : cur.next? = some (.ok token, next)) :
    ∃ p : Piece, p.token = token ∧ cur.rest = p.chars ++ next.rest ∧
      next.pos = cur.pos + byteSize p.chars ∧ p.gap ⊆ blanks ∧
      p.token.pos = cur.pos + byteSize p.gap ∧ p.token.lexeme.SpelledBy p.slice next.rest := by
  obtain ⟨gap, rest, eq, blank, skip⟩ := cur.skipBlanks_split
  cases rest with
  | nil =>
    simp only [next?, skip] at h
    cases h
  | cons c rest =>
    simp only [next?, skip] at h
    cases outcome : (recognize c rest).outcome with
    | error e =>
      rw [outcome] at h
      cases h
    | ok lexeme =>
      obtain ⟨slice, behind, split, size, spelled⟩ := recognize_spelled c rest lexeme outcome
      rw [outcome, split, ← size, advance_append] at h
      cases h
      refine ⟨⟨gap, slice, ⟨lexeme, _⟩⟩, rfl, ?_, ?_, blank, rfl, spelled⟩
      · rw [eq, split, Piece.chars, List.append_assoc]
      · rw [Piece.chars, byteSize_append, Nat.add_assoc]

/-- The tokens from a place on tile what follows there. -/
theorem tokens_tiling (cur : Cursor) {tokens : List Token} (h : cur.tokens = .ok tokens) :
    ∃ pieces last, tokens = pieces.map Piece.token ∧ Tiling cur.pos cur.rest pieces last := by
  cases found : cur.next? with
  | none =>
    rw [tokens_eq_nil found] at h
    cases h
    exact ⟨[], cur.rest, rfl, .nil (next?_eq_none found)⟩
  | some step =>
    obtain ⟨item, next⟩ := step
    cases item with
    | error e =>
      rw [tokens_eq_error found] at h
      cases h
    | ok token =>
      rw [tokens_eq_cons found] at h
      obtain ⟨others, read, rfl⟩ := map_eq_ok h
      obtain ⟨p, rfl, text, pos, blank, place, spelled⟩ := next?_eq_ok found
      -- By induction on what is left to read.
      obtain ⟨pieces, last, rfl, more⟩ := tokens_tiling next read
      rw [pos] at more
      rw [text]
      exact ⟨p :: pieces, last, rfl, more.cons blank place spelled⟩
termination_by cur.rest.length
decreasing_by exact next?_length_lt found

end Cursor

theorem tokenize_eq_ok_iff {source : String} {tokens : List Token} :
    tokenize source = .ok tokens ↔ (Cursor.ofSource source).tokens = .ok tokens := by
  unfold tokenize
  cases (Cursor.ofSource source).tokens with
  | error e => exact ⟨nofun, nofun⟩
  | ok found => constructor <;> intro h <;> cases h <;> rfl

/-- The tokens of a source are slices of it, in the order of the source, and all else in the source
is blanks. -/
theorem tokenize_tiling {source : String} {tokens : List Token} (h : tokenize source = .ok tokens) :
    ∃ pieces last, tokens = pieces.map Piece.token ∧ Tiling 0 source.toList pieces last :=
  (Cursor.ofSource source).tokens_tiling (tokenize_eq_ok_iff.1 h)

/-- A string with a character of two bytes, a no-break space of two bytes, and a point in front of a
name. -/
theorem tokenize_tiling_offsets :
    let tokens : List Token := [⟨.str "é", 1⟩, ⟨.mark .dot, 7⟩, ⟨.word "a", 8⟩]
    tokenize " 'é'\u00A0.a" = .ok tokens ∧
      ∃ pieces last, tokens = pieces.map Piece.token ∧
        Tiling 0 " 'é'\u00A0.a".toList pieces last := by
  have scanned : StringBody.scan '\'' ['é', '\'', '\u00A0', '.', 'a'] = .closed ['é'] 2 := by
    simp [StringBody.scan_plain, StringBody.cons]
  have string : (Cursor.ofSource " 'é'\u00A0.a").next? =
      some (.ok ⟨.str "é", 1⟩, ⟨5, ['\u00A0', '.', 'a']⟩) := by
    have found : recognize '\'' ['é', '\'', '\u00A0', '.', 'a'] = ⟨.ok (.str "é"), 3⟩ := by
      simp [recognize, Recognized.string, startsWithDigit, scanned]
    have skip : (Cursor.ofSource " 'é'\u00A0.a").skipBlanks =
        ⟨1, ['\'', 'é', '\'', '\u00A0', '.', 'a']⟩ := rfl
    simp only [Cursor.next?, skip, found]
    rfl
  have dot : (Cursor.mk 5 ['\u00A0', '.', 'a']).next? = some (.ok ⟨.mark .dot, 7⟩, ⟨8, ['a']⟩) := rfl
  have name : (Cursor.mk 8 ['a']).next? = some (.ok ⟨.word "a", 8⟩, ⟨9, []⟩) := rfl
  have read : tokenize " 'é'\u00A0.a" =
      .ok [⟨.str "é", 1⟩, ⟨.mark .dot, 7⟩, ⟨.word "a", 8⟩] := by
    rw [tokenize_eq_ok_iff, Cursor.tokens_eq_cons string, Cursor.tokens_eq_cons dot,
      Cursor.tokens_eq_cons name, Cursor.tokens_eq_nil rfl]
    rfl
  exact ⟨read, tokenize_tiling read⟩

end DataBinding
