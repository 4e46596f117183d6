import DataBinding.Proofs.Token.Strings

/-!
# Other gaps between the tokens

Between two tokens there can be more blanks, or fewer as long as some are left, and where there are
none some can be put in. The same lexemes are read then: what follows a token tells where the token
ends only by its characters up to the first blank, and a token that ends in front of a character
also ends in front of a blank.

## Main definitions

* `respace` — the slices of a source with other gaps
* `Respacing` — the other gaps consist of blanks, and none is closed
* `Loosened` — a text agrees with another one up to its first blank
* `Lexeme.EndsBefore` — what follows does not go on with a token

## Main results

* `Lexeme.SpelledBy.endsBefore`, `Lexeme.SpelledBy.lexemes?_append` — where a slice is read as its
  lexeme
* `Respacing.lexemes?_respace` — with other gaps the same lexemes are read
-/

namespace DataBinding

open Decimal Recognized

/-- The slices of the pieces with other gaps in front of them, and another last gap. -/
def respace : List Piece → List (List Char) → List Char → List Char
  | p :: pieces, gap :: gaps, last => gap ++ (p.slice ++ respace pieces gaps last)
  | _, _, last => last

/-- There is another gap of blanks for each piece, and one for the end. A gap between two pieces is
not closed. -/
structure Respacing (pieces : List Piece) (gaps : List (List Char)) (last : List Char) : Prop where
  length_eq : gaps.length = pieces.length
  gap_blank : ∀ gap ∈ gaps, gap ⊆ blanks
  last_blank : last ⊆ blanks
  gap_ne_nil : ∀ i p gap, 0 < i → pieces[i]? = some p → gaps[i]? = some gap → p.gap ≠ [] → gap ≠ []

theorem Respacing.tail {p : Piece} {pieces : List Piece} {gap last : List Char}
    {gaps : List (List Char)} (h : Respacing (p :: pieces) (gap :: gaps) last) :
    Respacing pieces gaps last where
  length_eq := Nat.succ.inj h.length_eq
  gap_blank := fun gap mem => h.gap_blank gap (List.mem_cons_of_mem _ mem)
  last_blank := h.last_blank
  gap_ne_nil := fun i q gap _ piece found => h.gap_ne_nil (i + 1) q gap (Nat.succ_pos i) piece found

/-! ### What tells where a token ends -/

/-- The second text is the first one up to its end or its first blank. -/
inductive Loosened : List Char → List Char → Prop where
  | nil (rest : List Char) : Loosened rest []
  | blank {c : Char} (h : isBlank c = true) (rest more : List Char) : Loosened rest (c :: more)
  | cons (c : Char) {rest rest' : List Char} (h : Loosened rest rest') :
    Loosened (c :: rest) (c :: rest')

theorem Loosened.append (cs : List Char) {rest rest' : List Char} (h : Loosened rest rest') :
    Loosened (cs ++ rest) (cs ++ rest') := by
  induction cs with
  | nil => exact h
  | cons c cs ih => exact ih.cons c

theorem loosened_blanks {gap : List Char} (blank : gap ⊆ blanks) (ne : gap ≠ [])
    (rest more : List Char) : Loosened rest (gap ++ more) := by
  obtain ⟨c, gap, rfl⟩ := List.exists_cons_of_ne_nil ne
  exact .blank (mem_blanks_iff.1 (blank List.mem_cons_self)) rest (gap ++ more)

/-- The text does not go on with a token of the lexeme. -/
def Lexeme.EndsBefore (rest : List Char) : Lexeme → Prop
  | mark m => m = .dot → startsWithDigit rest = false
  | word _ => rest.takeWhile isWordChar = []
  | number _ _ => (numberTail false rest).1 = []
  | str _ => True

theorem Lexeme.endsBefore_nil (l : Lexeme) : l.EndsBefore [] := by
  cases l with
  | mark m => exact fun _ => rfl
  | word name => rfl
  | number spelling value => rfl
  | str value => trivial

/-- A blank is none of the characters that a test is for if it is no such blank. -/
theorem eq_false_of_isBlank {test : Char → Bool} {c : Char} (h : isBlank c = true)
    (none : [' ', '\r', '\t', '\n', '\x0B', '\u00A0'].any test = false) : test c = false := by
  cases passed : test c with
  | false => rfl
  | true =>
    rw [isBlank_eq_false passed none] at h
    cases h

namespace Loosened

variable {rest rest' : List Char}

theorem startsWithDigit (h : Loosened rest rest')
    (none : Recognized.startsWithDigit rest = false) :
    Recognized.startsWithDigit rest' = false := by
  cases h with
  | nil => rfl
  | blank h => exact @eq_false_of_isBlank Char.isDigit _ h rfl
  | cons => exact none

theorem startsExponent (h : Loosened rest rest') (none : Recognized.startsExponent rest = false) :
    Recognized.startsExponent rest' = false := by
  cases h with
  | nil => rfl
  | blank h => exact @eq_false_of_isBlank (fun c => c.isDigit || isSign c) _ h rfl
  | cons => exact none

/-- A token that ends in front of a text also ends in front of the text with other gaps. -/
theorem endsBefore (h : Loosened rest rest') {l : Lexeme} (ends : l.EndsBefore rest) :
    l.EndsBefore rest' := by
  cases l with
  | mark m => exact fun dot => h.startsWithDigit (ends dot)
  | word name =>
    cases h with
    | nil => rfl
    | blank h => simp [Lexeme.EndsBefore, @eq_false_of_isBlank isWordChar _ h rfl]
    | cons c h =>
      cases goes : isWordChar c with
      | false => simp [Lexeme.EndsBefore, goes]
      | true => simp [Lexeme.EndsBefore, goes] at ends
  | number spelling value =>
    cases h with
    | nil => rfl
    | blank h =>
      have none := @eq_false_of_isBlank isNumberChar _ h rfl
      simp only [isNumberChar, Bool.or_eq_false_iff, beq_eq_false_iff_ne] at none
      exact numberTail_eq_nil_iff.2 ⟨none.1.1.1, none.1.1.2, by simp [none.1.2]⟩
    | cons c h =>
      obtain ⟨digit, dot, exponent⟩ := numberTail_eq_nil_iff.1 ends
      exact numberTail_eq_nil_iff.2 ⟨digit, dot, fun mark => h.startsExponent (exponent mark)⟩
  | str value => trivial

end Loosened

/-! ### Slices are read as their lexemes -/

namespace Lexeme.SpelledBy

variable {slice behind rest : List Char} {l : Lexeme}

theorem numeral {spelling : String} {value : Number}
    (h : (number spelling value).SpelledBy slice behind) :
    ∃ d, Numeral slice d ∧ value = .ofMagnitude? false d.round? ∧
      spelling = String.ofList slice := by
  obtain ⟨rfl, read, -⟩ := h
  obtain ⟨d, denoted, rfl⟩ := Option.map_eq_some_iff.1 read
  exact ⟨d, ofNumeral?_eq_some_iff.1 denoted, rfl, String.ofList_toList.symm⟩

/-- A slice is recognized as its lexeme in front of any text that does not go on with the token. -/
theorem recognized (h : l.SpelledBy slice behind) (ends : l.EndsBefore rest) :
    ∃ c cs, slice = c :: cs ∧ isBlank c = false ∧
      recognize c (cs ++ rest) = ⟨.ok l, slice.length⟩ := by
  cases l with
  | mark m =>
    obtain ⟨-, rfl, -⟩ := h
    exact ⟨m.char, [], rfl, recognize_mark m ends⟩
  | word name =>
    obtain ⟨rfl, word, -⟩ := h
    cases eq : (Lexeme.word name).text.toList with
    | nil =>
      rw [eq] at word
      cases word
    | cons c cs =>
      rw [eq] at word
      have name' : name = String.ofList (c :: cs) := by rw [← eq]; exact String.ofList_toList.symm
      rw [name']
      exact ⟨c, cs, rfl, recognize_isWord word ends⟩
  | number spelling value =>
    obtain ⟨d, numeral, rfl, rfl⟩ := h.numeral
    obtain ⟨c, cs, rfl, -⟩ := numeral.start
    exact ⟨c, cs, rfl, (recognize_numeral numeral rest).1,
      recognize_numeral_whole numeral (numberTail_eq_of_nil ends)⟩
  | str value =>
    obtain ⟨-, quote, body, quoted, rfl, scanned⟩ := h
    -- What the scanner reads up to the closing quote does not depend on what follows.
    obtain ⟨body', after, eq, size, again⟩ := StringBody.scan_local scanned
    obtain ⟨rfl, -⟩ := List.append_inj eq (Nat.succ.inj size)
    obtain ⟨solid, found⟩ := recognize_quote quoted (body ++ [quote] ++ rest)
    refine ⟨quote, body ++ [quote], rfl, solid, ?_⟩
    rw [found, string, List.append_assoc, List.singleton_append, again]
    simp

/-- A slice that is recognized as its lexeme ends where the token ends. -/
theorem endsBefore_of_recognize {c : Char} {cs : List Char} (h : l.SpelledBy (c :: cs) behind)
    (found : (recognize c (cs ++ behind)).outcome = .ok l) : l.EndsBefore behind := by
  cases l with
  | mark m => exact h.2.2
  | word name =>
    obtain ⟨-, -, stop⟩ := h
    cases behind with
    | nil => rfl
    | cons c behind => simp [EndsBefore, stop c behind rfl]
  | number spelling value =>
    obtain ⟨d, numeral, -, rfl⟩ := h.numeral
    rw [(recognize_numeral numeral behind).2] at found
    obtain ⟨d', -, eq⟩ := number_eq_ok found
    -- The scanner has taken the slice, and then as much as it would take from a fresh start.
    have taken := congrArg Prod.fst (numeral.takes behind)
    have same := congrArg String.toList (Lexeme.number.inj eq).1
    have left : (numberTail false behind).1 = [] := by simpa [taken] using same
    exact left
  | str value => trivial

/-- A slice that has been read as its lexeme ends where the token ends. -/
theorem endsBefore (h : l.SpelledBy slice behind) {ls : List Lexeme}
    (read : lexemes? (slice ++ behind) = some (l :: ls)) : l.EndsBefore behind := by
  obtain ⟨c, cs, rfl, solid, -⟩ := h.recognized l.endsBefore_nil
  have skip : (c :: cs ++ behind).dropWhile isBlank = c :: (cs ++ behind) := by simp [solid]
  rw [lexemes?_eq_cons skip] at read
  cases found : (recognize c (cs ++ behind)).outcome with
  | error e =>
    rw [found] at read
    cases read
  | ok lexeme =>
    rw [found] at read
    obtain ⟨others, -, eq⟩ := Option.map_eq_some_iff.1 read
    cases eq
    exact h.endsBefore_of_recognize found

/-- A slice is read as its lexeme in front of any text that does not go on with the token. -/
theorem lexemes?_append (h : l.SpelledBy slice behind) (ends : l.EndsBefore rest) :
    lexemes? (slice ++ rest) = (lexemes? rest).map (l :: ·) := by
  obtain ⟨c, cs, rfl, solid, found⟩ := h.recognized ends
  exact lexemes?_token solid found

end Lexeme.SpelledBy

/-! ### The whole text -/

/-- Blanks in front make no difference. -/
theorem lexemes?_blanks {gap : List Char} (h : gap ⊆ blanks) (rest : List Char) :
    lexemes? (gap ++ rest) = lexemes? rest := by
  induction gap with
  | nil => rfl
  | cons c gap ih =>
    obtain ⟨first, more⟩ := List.cons_subset.1 h
    rw [List.cons_append, lexemes?_blank (mem_blanks_iff.1 first), ih more]

namespace Respacing

variable {pieces : List Piece} {gaps : List (List Char)} {last last' : List Char}

/-- Behind a token the text is the same up to the first blank. -/
theorem loosened {p : Piece} {gap : List Char}
    (h : Respacing (p :: pieces) (gap :: gaps) last') :
    Loosened (pieces.flatMap Piece.chars ++ last) (respace pieces gaps last') := by
  induction pieces generalizing p gap gaps with
  | nil =>
    cases last' with
    | nil => cases gaps <;> exact .nil _
    | cons c last' =>
      have blank := mem_blanks_iff.1 (h.last_blank List.mem_cons_self)
      cases gaps <;> exact .blank blank _ last'
  | cons q pieces ih =>
    cases gaps with
    | nil => cases h.length_eq
    | cons gap' gaps =>
      rw [List.flatMap_cons, Piece.chars, List.append_assoc, List.append_assoc, respace]
      by_cases closed : gap' = []
      · have none : q.gap = [] := by
          refine Decidable.byContradiction fun ne => ?_
          exact h.gap_ne_nil 1 q gap' Nat.one_pos rfl rfl ne closed
        rw [closed, none]
        exact (ih h.tail).append q.slice
      · exact loosened_blanks (h.gap_blank gap' (by simp)) closed _ _

/-- With other gaps the same lexemes are read. -/
theorem lexemes?_respace (h : Respacing pieces gaps last') {start : Nat} {text : List Char}
    (tiling : Tiling start text pieces last)
    (read : lexemes? text = some (pieces.map fun p => p.token.lexeme)) :
    lexemes? (respace pieces gaps last') = some (pieces.map fun p => p.token.lexeme) := by
  rw [tiling.text_eq] at read
  induction pieces generalizing start text gaps with
  | nil =>
    have none := lexemes?_blanks h.last_blank []
    cases gaps <;> simpa [respace, lexemes?_nil] using none
  | cons p pieces ih =>
    cases gaps with
    | nil => cases h.length_eq
    | cons gap gaps =>
      obtain ⟨blank, -⟩ := List.forall_mem_cons.1 h.gap_blank
      obtain ⟨blank', -⟩ := List.forall_mem_cons.1 tiling.gap_blank
      have spelled := tiling.spelled [] p pieces rfl
      rw [List.flatMap_cons, Piece.chars, List.append_assoc, List.append_assoc,
        lexemes?_blanks blank', List.map_cons] at read
      -- The token ends where its slice ends, both in the text and in the other one.
      have ends := spelled.endsBefore read
      rw [spelled.lexemes?_append ends] at read
      obtain ⟨others, behind, eq⟩ := Option.map_eq_some_iff.1 read
      cases eq
      have loosened : Loosened (pieces.flatMap Piece.chars ++ last) (respace pieces gaps last') :=
        h.loosened
      rw [respace, lexemes?_blanks blank, spelled.lexemes?_append (loosened.endsBefore ends),
        ih h.tail tiling.tail behind]
      rfl

end Respacing

/-- The lexemes of a source are those of its tokens. -/
theorem lexemes?_eq_some_iff {source : String} {ls : List Lexeme} :
    lexemes? source.toList = some ls ↔
      ∃ tokens, tokenize source = .ok tokens ∧ tokens.map Token.lexeme = ls := by
  have lexed : (Cursor.ofSource source).tokens.toOption.map (·.map Token.lexeme) =
      lexemes? source.toList := Cursor.tokens_lexemes _
  simp only [tokenize_eq_ok_iff, ← lexed]
  cases (Cursor.ofSource source).tokens <;> simp [Except.toOption]

end DataBinding
