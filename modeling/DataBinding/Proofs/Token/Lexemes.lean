import DataBinding.Proofs.Token.Number
import DataBinding.Proofs.Token.StringBody

/-!
# Lexemes, one after the other

What the tokens of a source are, apart from their places, depends only on the characters that are
left to be read. So a source can be taken apart at the seams between its tokens: each of these
results is about the token in front and says that the lexemes of what follows come behind it.

## Main definitions

* `lexemes?` — the lexemes of a text without faults
* `Seam`, `Border` — nothing follows, or a mark, which may be a point or must not be one

## Main results

* `Cursor.tokens_lexemes` — the tokens from any place on have these lexemes
* `lexemes?_mark`, `lexemes?_word`, `lexemes?_quoted`, `lexemes?_numeral` — a token in front
-/

namespace DataBinding

open Decimal Recognized

/-- Behind a token there is less left to read. -/
theorem length_behind_lt {cs rest : List Char} {c : Char}
    (h : cs.dropWhile isBlank = c :: rest) :
    ((c :: rest).drop (recognize c rest).size).length < cs.length := by
  have shorter := List.length_dropWhile_le isBlank cs
  have size := recognize_size_pos c rest
  rw [h, List.length_cons] at shorter
  simp only [List.length_drop, List.length_cons]
  omega

/-- The lexemes of a text, or nothing if there is a fault in it. -/
def lexemes? (cs : List Char) : Option (List Lexeme) :=
  match _h : cs.dropWhile isBlank with
  | [] => some []
  | c :: rest =>
    match (recognize c rest).outcome with
    | .ok lexeme => (lexemes? ((c :: rest).drop (recognize c rest).size)).map (lexeme :: ·)
    | .error _ => none
termination_by cs.length
decreasing_by exact length_behind_lt _h

theorem lexemes?_eq_nil {cs : List Char} (h : cs.dropWhile isBlank = []) :
    lexemes? cs = some [] := by
  rw [lexemes?]
  split
  · rfl
  · simp_all

theorem lexemes?_eq_cons {cs rest : List Char} {c : Char}
    (h : cs.dropWhile isBlank = c :: rest) :
    lexemes? cs = match (recognize c rest).outcome with
      | .ok lexeme => (lexemes? ((c :: rest).drop (recognize c rest).size)).map (lexeme :: ·)
      | .error _ => none := by
  rw [lexemes?]
  split
  · simp_all
  · rename_i c' rest' eq
    rw [h] at eq
    cases eq
    rfl

namespace Cursor

theorem skipBlanks_rest (cur : Cursor) : cur.skipBlanks.rest = cur.rest.dropWhile isBlank := by
  have split := List.takeWhile_append_dropWhile (p := isBlank) (l := cur.rest)
  calc cur.skipBlanks.rest
      = (cur.rest.takeWhile isBlank ++ cur.rest.dropWhile isBlank).drop
          (cur.rest.takeWhile isBlank).length := by rw [split]; rfl
    _ = cur.rest.dropWhile isBlank := List.drop_left

theorem tokens_eq_nil {cur : Cursor} (h : cur.next? = none) : cur.tokens = .ok [] := by
  rw [tokens]
  split <;> simp_all

theorem tokens_eq_error {cur next : Cursor} {e : Fault × Nat}
    (h : cur.next? = some (.error e, next)) : cur.tokens = .error e := by
  rw [tokens]
  split <;> simp_all

theorem tokens_eq_cons {cur next : Cursor} {token : Token}
    (h : cur.next? = some (.ok token, next)) : cur.tokens = next.tokens.map (token :: ·) := by
  rw [tokens]
  split <;> simp_all

/-- The tokens from a place on have the lexemes of what follows there. -/
theorem tokens_lexemes (cur : Cursor) :
    cur.tokens.toOption.map (·.map Token.lexeme) = lexemes? cur.rest := by
  have skip := cur.skipBlanks_rest
  cases found : cur.rest.dropWhile isBlank with
  | nil =>
    have none : cur.next? = none := by simp only [next?, skip, found]
    rw [tokens_eq_nil none, lexemes?_eq_nil found]
    rfl
  | cons c rest =>
    rw [lexemes?_eq_cons found]
    cases outcome : (recognize c rest).outcome with
    | error e =>
      have step : ∃ e' next, cur.next? = some (.error e', next) := by
        simp only [next?, skip, found, outcome]
        exact ⟨_, _, rfl⟩
      obtain ⟨e', next, step⟩ := step
      rw [tokens_eq_error step]
      rfl
    | ok lexeme =>
      have step : ∃ pos next, cur.next? = some (.ok ⟨lexeme, pos⟩, next) ∧
          next.rest = (c :: rest).drop (recognize c rest).size := by
        simp only [next?, skip, found, outcome]
        exact ⟨_, _, rfl, by rw [advance, skip, found]⟩
      obtain ⟨pos, next, step, left⟩ := step
      -- By induction on what is left to read.
      have ih := tokens_lexemes next
      rw [tokens_eq_cons step]
      simp only [← left, ← ih]
      cases next.tokens <;> rfl
termination_by cur.rest.length
decreasing_by exact next?_length_lt step

end Cursor

theorem lexemes?_nil : lexemes? [] = some [] := lexemes?_eq_nil rfl

/-- Blanks in front make no difference. -/
theorem lexemes?_blank {c : Char} (h : isBlank c = true) (rest : List Char) :
    lexemes? (c :: rest) = lexemes? rest := by
  have skip : (c :: rest).dropWhile isBlank = rest.dropWhile isBlank :=
    List.dropWhile_cons_of_pos h
  cases found : rest.dropWhile isBlank with
  | nil => rw [lexemes?_eq_nil (skip.trans found), lexemes?_eq_nil found]
  | cons c rest => rw [lexemes?_eq_cons (skip.trans found), lexemes?_eq_cons found]

/-- A token that begins with `c` and goes on with `cs` stands in front. -/
theorem lexemes?_token {c : Char} {cs rest : List Char} {lexeme : Lexeme}
    (solid : isBlank c = false)
    (h : recognize c (cs ++ rest) = ⟨.ok lexeme, (c :: cs).length⟩) :
    lexemes? (c :: cs ++ rest) = (lexemes? rest).map (lexeme :: ·) := by
  have skip : (c :: cs ++ rest).dropWhile isBlank = c :: (cs ++ rest) := by simp [solid]
  rw [lexemes?_eq_cons skip, h]
  simp

/-- Nothing follows, or a mark. -/
inductive Seam : List Char → Prop where
  | nil : Seam []
  | mark (m : Mark) (rest : List Char) : Seam (m.char :: rest)

/-- Nothing follows, or a mark that is not a point. -/
inductive Border : List Char → Prop where
  | nil : Border []
  | mark (m : Mark) (h : m ≠ .dot) (rest : List Char) : Border (m.char :: rest)

theorem Border.seam {rest : List Char} (h : Border rest) : Seam rest := by
  cases h with
  | nil => exact .nil
  | mark m h rest => exact .mark m rest

/-- A mark is recognized as itself. A point must not be read as the beginning of a number. -/
theorem recognize_mark (m : Mark) {rest : List Char}
    (h : m = .dot → startsWithDigit rest = false) :
    isBlank m.char = false ∧ recognize m.char rest = ⟨.ok (.mark m), 1⟩ := by
  cases m with
  | dot => exact ⟨rfl, by simp [recognize, Mark.char, h rfl, Mark.ofChar?]⟩
  | _ => exact ⟨rfl, rfl⟩

/-- A mark stands in front. -/
theorem lexemes?_mark (m : Mark) {rest : List Char}
    (h : m = .dot → startsWithDigit rest = false) :
    lexemes? (m.char :: rest) = (lexemes? rest).map (.mark m :: ·) := by
  obtain ⟨solid, found⟩ := recognize_mark m h
  exact @lexemes?_token m.char [] rest _ solid found

theorem Seam.takeWhile_isWordChar {rest : List Char} (h : Seam rest) :
    rest.takeWhile isWordChar = [] := by
  cases h with
  | nil => rfl
  | mark m rest => cases m <;> rfl

theorem Mark.eq_char_of_ofChar? {c : Char} {m : Mark} (h : Mark.ofChar? c = some m) :
    c = m.char := by
  unfold Mark.ofChar? at h
  split at h <;> cases h <;> rfl

theorem isDigit_of_isAlpha {c : Char} (h : c.isAlpha = true) : c.isDigit = false := by
  have bounds : 'A'.val ≤ c.val ∧ c.val ≤ 'Z'.val ∨ 'a'.val ≤ c.val ∧ c.val ≤ 'z'.val := by
    rcases Bool.or_eq_true_iff.1 h with upper | lower
    · exact .inl (of_decide_eq_true upper)
    · obtain ⟨ge, le⟩ := Bool.and_eq_true_iff.1 (show (_ && _) = true from lower)
      exact .inr ⟨of_decide_eq_true ge, of_decide_eq_true le⟩
  simp [Char.isDigit, UInt32.le_iff_toNat_le] at bounds ⊢
  omega

theorem isDigit_of_isWordStart {c : Char} (h : isWordStart c = true) : c.isDigit = false := by
  rcases (by simpa [isWordStart, or_assoc] using h : c.isAlpha = true ∨ c = '_' ∨ c = '$')
    with alpha | rfl | rfl
  · exact isDigit_of_isAlpha alpha
  · rfl
  · rfl

/-- A test that no blank passes shows that a character is none. -/
theorem isBlank_eq_false {test : Char → Bool} {c : Char} (h : test c = true)
    (none : [' ', '\r', '\t', '\n', '\x0B', '\u00A0'].any test = false) : isBlank c = false := by
  cases blank : isBlank c with
  | false => rfl
  | true =>
    have mem : c ∈ [' ', '\r', '\t', '\n', '\x0B', '\u00A0'] := by
      simpa [isBlank, or_assoc] using blank
    exact absurd h (List.any_eq_false.1 none c mem)

/-- What words begin with begins nothing else. -/
theorem recognize_word {c : Char} (h : isWordStart c = true) (rest : List Char) :
    isBlank c = false ∧ recognize c rest = word c rest := by
  have ne : ∀ d, isWordStart d = false → c ≠ d := by
    rintro d none rfl
    rw [h] at none
    cases none
  refine ⟨isBlank_eq_false h rfl, ?_⟩
  have mark : Mark.ofChar? c = none := by
    cases found : Mark.ofChar? c with
    | none => rfl
    | some m => exact absurd (Mark.eq_char_of_ofChar? found) (ne _ (by cases m <;> rfl))
  simp [recognize, isDigit_of_isWordStart h, ne '.' rfl, ne '"' rfl, ne '\'' rfl, mark, h]

/-- A word is recognized whole. What follows must not go on with it. -/
theorem recognize_isWord {c : Char} {cs rest : List Char} (h : isWord (c :: cs) = true)
    (stop : rest.takeWhile isWordChar = []) :
    isBlank c = false ∧
      recognize c (cs ++ rest) = ⟨.ok (.word (String.ofList (c :: cs))), (c :: cs).length⟩ := by
  obtain ⟨start, all⟩ : isWordStart c = true ∧ ∀ c' ∈ cs, isWordChar c' = true := by
    simpa [isWord] using h
  have taken : (cs ++ rest).takeWhile isWordChar = cs := by
    rw [List.takeWhile_append_of_pos all, stop, List.append_nil]
  -- The scanner takes as many characters as it can, and none of those that follow.
  obtain ⟨solid, found⟩ := recognize_word start (cs ++ rest)
  refine ⟨solid, ?_⟩
  rw [found, word, taken]

/-- A word stands in front. -/
theorem lexemes?_isWord {cs rest : List Char} (h : isWord cs = true)
    (stop : rest.takeWhile isWordChar = []) :
    lexemes? (cs ++ rest) = (lexemes? rest).map (.word (String.ofList cs) :: ·) := by
  cases cs with
  | nil => cases h
  | cons c cs =>
    obtain ⟨solid, found⟩ := recognize_isWord h stop
    exact lexemes?_token solid found

/-- A word stands in front of a mark, or at the end. -/
theorem lexemes?_word {cs rest : List Char} (h : isWord cs = true) (seam : Seam rest) :
    lexemes? (cs ++ rest) = (lexemes? rest).map (.word (String.ofList cs) :: ·) :=
  lexemes?_isWord h seam.takeWhile_isWordChar

theorem isWordChar_of_isWord {cs : List Char} (h : isWord cs = true) :
    ∀ c ∈ cs, isWordChar c = true := by
  intro c mem
  cases cs with
  | nil => cases mem
  | cons first others =>
    simp only [isWord, Bool.and_eq_true, List.all_eq_true] at h
    rcases List.mem_cons.1 mem with rfl | mem
    · simp [isWordChar, h.1]
    · exact h.2 c mem

/-- What is left of a word is a word if it does not begin with a digit. -/
theorem isWord_of_append {cs more : List Char} {c : Char} (h : isWord (cs ++ c :: more) = true)
    (digit : c.isDigit = false) : isWord (c :: more) = true := by
  have all := isWordChar_of_isWord h
  -- A character that goes on with a word and is no digit can also begin one.
  have start : isWordStart c = true := by simpa [isWordChar, digit] using all c (by simp)
  simp only [isWord, start, Bool.true_and, List.all_eq_true]
  exact fun d mem => all d (by simp [mem])

theorem scan_quotedChar (c : Char) (rest : List Char) :
    StringBody.scan '\'' (Literal.quotedChar c ++ rest) =
      (StringBody.scan '\'' rest).cons c (Literal.quotedChar c).length := by
  unfold Literal.quotedChar
  split
  -- A character that is written as it is: neither the quote nor a backslash.
  case h_6 quote backslash _ _ _ =>
    rw [List.singleton_append, StringBody.scan_plain backslash, if_neg quote]
    rfl
  all_goals simp [StringBody.scan, escapedChar]

/-- A string stands in front, written character by character. -/
theorem lexemes?_string {write : Char → List Char}
    (spells : ∀ c rest, StringBody.scan '\'' (write c ++ rest) =
      (StringBody.scan '\'' rest).cons c (write c).length) (s : String) (rest : List Char) :
    lexemes? ('\'' :: (s.toList.flatMap write ++ ['\'']) ++ rest) =
      (lexemes? rest).map (.str s :: ·) := by
  refine lexemes?_token rfl ?_
  have scanned := StringBody.scan_flatMap (by decide) spells s.toList rest
  rw [List.append_assoc, List.singleton_append]
  simp [recognize, string, scanned, startsWithDigit]

/-- A string between quotes stands in front. -/
theorem lexemes?_quoted (s : String) (rest : List Char) :
    lexemes? (Literal.quoted s ++ rest) = (lexemes? rest).map (.str s :: ·) :=
  lexemes?_string scan_quotedChar s rest

theorem Border.numberTail {rest : List Char} (h : Border rest) :
    Recognized.numberTail false rest = ([], false) := by
  cases h with
  | nil => rfl
  | mark m h rest =>
    cases m with
    | dot => exact absurd rfl h
    | _ => rfl

/-- What a numeral begins with begins a number. -/
theorem recognize_numeral {c : Char} {cs : List Char} {d : Decimal} (h : Numeral (c :: cs) d)
    (rest : List Char) :
    isBlank c = false ∧ recognize c (cs ++ rest) = number c (cs ++ rest) := by
  obtain ⟨c, cs, eq, start⟩ := h.start
  cases eq
  have first : (c.isDigit || c == '.' && startsWithDigit (cs ++ rest)) = true := by
    rcases start with digit | ⟨rfl, c', cs', rfl, digit⟩
    · simp [digit]
    · simp [startsWithDigit, digit]
  have solid : (c.isDigit || c == '.') = true := by
    rcases start with digit | ⟨rfl, -⟩
    · simp [digit]
    · rfl
  refine ⟨@isBlank_eq_false (fun c => c.isDigit || c == '.') c solid rfl, ?_⟩
  rw [recognize, if_pos first]

/-- A numeral is recognized whole. What follows must not go on with it. -/
theorem recognize_numeral_whole {c : Char} {cs rest : List Char} {d : Decimal}
    (h : Numeral (c :: cs) d) (stop : Recognized.numberTail false rest = ([], false)) :
    recognize c (cs ++ rest) =
      ⟨.ok (.number (String.ofList (c :: cs)) (.ofMagnitude? false d.round?)),
        (c :: cs).length⟩ := by
  rw [(recognize_numeral h rest).2, number, h.takes rest, stop, List.append_nil]
  simp [Number.ofNumeral?, h.ofNumeral?]

/-- A number stands in front. -/
theorem lexemes?_numeral {cs rest : List Char} {d : Decimal} (h : Numeral cs d)
    (stop : Recognized.numberTail false rest = ([], false)) :
    lexemes? (cs ++ rest) = (lexemes? rest).map
      (.number (String.ofList cs) (.ofMagnitude? false d.round?) :: ·) := by
  obtain ⟨c, cs, rfl, -⟩ := h.start
  exact lexemes?_token (recognize_numeral h rest).1 (recognize_numeral_whole h stop)

/-- A numeral in front belongs to the first number, which goes on as far as the scanner gets. -/
theorem lexemes?_numeral_front {c : Char} {cs rest : List Char} {d : Decimal} {ls : List Lexeme}
    (h : Numeral (c :: cs) d) (read : lexemes? (c :: cs ++ rest) = some ls) :
    ∃ spelling value back d', ls = .number spelling value :: back ∧
      Numeral (c :: cs ++ (Recognized.numberTail false rest).1) d' ∧
      lexemes? (rest.drop (Recognized.numberTail false rest).1.length) = some back := by
  obtain ⟨solid, found⟩ := recognize_numeral h rest
  have skip : (c :: cs ++ rest).dropWhile isBlank = c :: (cs ++ rest) := by simp [solid]
  rw [lexemes?_eq_cons skip, found] at read
  cases outcome : (number c (cs ++ rest)).outcome with
  | error e =>
    rw [outcome] at read
    cases read
  | ok lexeme =>
    rw [outcome, number_size, h.takes rest] at read
    obtain ⟨back, left, rfl⟩ := Option.map_eq_some_iff.1 read
    obtain ⟨d', numeral, rfl⟩ := number_eq_ok outcome
    rw [h.takes rest] at numeral
    refine ⟨_, _, back, d', rfl, numeral, ?_⟩
    rwa [← List.cons_append, ← List.cons_append, List.length_append,
      List.drop_length_add_append] at left

end DataBinding
