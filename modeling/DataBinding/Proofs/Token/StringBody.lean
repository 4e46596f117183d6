import DataBinding.Token.StringBody

/-!
# Where a string ends

What is read between quotes is decided by the characters up to the closing quote and by none behind
it: an escape reads no further than the characters that it takes, and each of them is taken once.

## Main results

* `unicodeEscape_local` — the characters that an escape takes
* `StringBody.scan_local` — the characters up to the closing quote
* `StringBody.scan_flatMap` — strings that are written character by character
-/

namespace DataBinding

theorem hexCode?_local {cs : List Char} {code : Nat} (h : hexCode? cs = some code) :
    ∃ digits rest, cs = digits ++ rest ∧ digits.length = 4 ∧
      ∀ more, hexCode? (digits ++ more) = some code := by
  match cs, h with
  | a :: b :: c :: d :: rest, h => exact ⟨[a, b, c, d], rest, rfl, rfl, fun _ => h⟩

/-- An escape takes as many characters as it says, and gives the same in front of any others. -/
theorem unicodeEscape_local {cs : List Char} {c : Char} {size : Nat}
    (h : unicodeEscape cs = .ok (c, size)) :
    ∃ code rest, cs = code ++ rest ∧ code.length = size ∧
      ∀ more, unicodeEscape (code ++ more) = .ok (c, size) := by
  unfold unicodeEscape at h
  split at h
  · cases h
  rename_i code first
  obtain ⟨digits, rest, rfl, length, read⟩ := hexCode?_local first
  have drop : ∀ more, (digits ++ more).drop 4 = more := fun more => List.drop_left' length
  split at h
  · -- A pair: the second escape follows at once.
    rename_i high
    rw [drop] at h
    split at h
    · split at h
      · cases h
      rename_i low second
      split at h
      · rename_i isLow
        obtain ⟨rfl, rfl⟩ := Prod.mk.inj (Except.ok.inj h)
        obtain ⟨digits', rest, rfl, length', read'⟩ := hexCode?_local second
        refine ⟨digits ++ '\\' :: 'u' :: digits', rest, by simp, by simp [length, length'],
          fun more => ?_⟩
        simp [unicodeEscape, read, high, drop, read', isLow]
      · cases h
    · cases h
  · rename_i high
    split at h
    · cases h
    rename_i low
    obtain ⟨rfl, rfl⟩ := Prod.mk.inj (Except.ok.inj h)
    refine ⟨digits, rest, rfl, length, fun more => ?_⟩
    simp [unicodeEscape, read, high, low]

namespace StringBody

theorem cons_eq_closed {c : Char} {size total : Nat} {b : StringBody} {value : List Char}
    (h : b.cons c size = .closed value total) :
    ∃ value' more, b = .closed value' more ∧ value = c :: value' ∧ total = size + more := by
  cases b <;> cases h
  exact ⟨_, _, rfl, rfl, rfl⟩

/-- A character other than a backslash stands for itself, unless it is the closing quote. -/
theorem scan_plain {c : Char} (h : c ≠ '\\') (quote : Char) (rest : List Char) :
    scan quote (c :: rest) = if c = quote then closed [] 1 else (scan quote rest).cons c 1 := by
  rw [scan]
  all_goals
    intros
    contradiction

/-- A string that is closed has been read up to its closing quote, and whatever stands behind that,
the same is read. -/
theorem scan_local {quote : Char} {cs value : List Char} {size : Nat}
    (h : scan quote cs = .closed value size) :
    ∃ body rest, cs = body ++ quote :: rest ∧ size = body.length + 1 ∧
      ∀ more, scan quote (body ++ quote :: more) = .closed value size := by
  fun_induction scan quote cs generalizing value size with
  | case1 => cases h
  | case2 => cases h
  | case3 code c used escape ih =>
    obtain ⟨value, more, scanned, rfl, rfl⟩ := cons_eq_closed h
    obtain ⟨digits, rest, rfl, length, read⟩ := unicodeEscape_local escape
    rw [List.drop_left' length] at ih scanned
    obtain ⟨body, rest, rfl, rfl, again⟩ := ih scanned
    refine ⟨'\\' :: 'u' :: digits ++ body, rest, by simp, by simp [length]; omega, fun more => ?_⟩
    simp [scan, read, List.drop_left' length, again, cons]
  | case4 => cases h
  | case5 c rest notCode ih =>
    obtain ⟨value, more, scanned, rfl, rfl⟩ := cons_eq_closed h
    obtain ⟨body, rest, rfl, rfl, again⟩ := ih scanned
    refine ⟨'\\' :: c :: body, rest, rfl, by simp; omega, fun more => ?_⟩
    simp [scan, again, cons]
  | case6 rest alone code escape =>
    cases h
    have plain : quote ≠ '\\' := by
      rintro rfl
      cases rest with
      | nil => exact alone rfl rfl
      | cons c rest => exact escape c rest rfl rfl
    refine ⟨[], rest, rfl, rfl, fun more => ?_⟩
    rw [List.nil_append, scan_plain plain, if_pos rfl]
  | case7 c rest alone code escape ne ih =>
    obtain ⟨value, more, scanned, rfl, rfl⟩ := cons_eq_closed h
    obtain ⟨body, rest, rfl, rfl, again⟩ := ih scanned
    have plain : c ≠ '\\' := by
      rintro rfl
      cases body <;> simp_all
    refine ⟨c :: body, rest, rfl, by simp; omega, fun more => ?_⟩
    rw [List.cons_append, scan_plain plain, if_neg ne, again]
    rfl

/-- If what is written for each character is read as the character, what is written for a string is
read as the string. -/
theorem scan_flatMap {quote : Char} (h : quote ≠ '\\') {write : Char → List Char}
    (spells : ∀ c rest, scan quote (write c ++ rest) = (scan quote rest).cons c (write c).length)
    (cs rest : List Char) :
    scan quote (cs.flatMap write ++ quote :: rest) =
      .closed cs ((cs.flatMap write).length + 1) := by
  induction cs with
  | nil => rw [List.flatMap_nil, List.nil_append, scan_plain h, if_pos rfl, List.length_nil]
  | cons c cs ih =>
    rw [List.flatMap_cons, List.append_assoc, spells, ih, cons, List.length_append, Nat.add_assoc]

end StringBody

end DataBinding
