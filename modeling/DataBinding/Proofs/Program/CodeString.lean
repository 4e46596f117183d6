import DataBinding.Program.Text
import DataBinding.Proofs.Token.Lexemes

/-!
# Strings in the text of a program

The text of a program writes strings with more escapes than the text of an expression does. The
scanner of strings reads every such escape as the character that it was written for: one of the
first 65536 from its own code, and any other from the pair of surrogates that stand for it.

## Main results

* `StringBody.scan_codeChar` — what is written for a character is read as the character
* `lexemes?_codeString` — what is written for a string is read as the string
-/

namespace DataBinding

theorem hexDigit?_digitChar {n : Nat} (h : n < 16) : hexDigit? (Nat.digitChar n) = some n := by
  have all : ∀ n : Fin 16, hexDigit? (Nat.digitChar n) = some n.val := by decide
  exact all ⟨n, h⟩

/-- The four digits of a UTF-16 unit are read as the unit. -/
theorem hexCode?_unit {unit : Nat} (h : unit < 0x10000) (rest : List Char) :
    ∃ digits, unitEscape unit = '\\' :: 'u' :: digits ∧ digits.length = 4 ∧
      hexCode? (digits ++ rest) = some unit := by
  refine ⟨_, rfl, rfl, ?_⟩
  simp only [List.cons_append, hexCode?, hexDigit?_digitChar (Nat.mod_lt _ (by decide : 0 < 16)),
    Option.bind_eq_bind, Option.bind_some]
  congr 1
  omega

namespace StringBody

/-- An escape that is no surrogate is read as the character of its code. -/
theorem scan_unitEscape {unit : Nat} (h : unit < 0x10000) (high : isHighSurrogate unit = false)
    (low : isLowSurrogate unit = false) (quote : Char) (rest : List Char) :
    scan quote (unitEscape unit ++ rest) = (scan quote rest).cons (Char.ofNat unit) 6 := by
  obtain ⟨digits, eq, length, read⟩ := hexCode?_unit h rest
  have escape : unicodeEscape (digits ++ rest) = .ok (Char.ofNat unit, 4) := by
    simp [unicodeEscape, read, high, low]
  rw [eq, List.cons_append, List.cons_append, scan]
  simp only [escape, List.drop_left' length]

/-- Two escapes that are a pair of surrogates are read as the character of the pair. -/
theorem scan_pairEscape {high low : Nat} (isHigh : isHighSurrogate high = true)
    (isLow : isLowSurrogate low = true) (quote : Char) (rest : List Char) :
    scan quote (unitEscape high ++ (unitEscape low ++ rest)) =
      (scan quote rest).cons (ofSurrogates high low) 12 := by
  have below : high < 0x10000 ∧ low < 0x10000 := by
    simp [isHighSurrogate, isLowSurrogate] at isHigh isLow
    omega
  -- The scanner looks for the second escape right behind the digits of the first one.
  obtain ⟨second, eq', length', read'⟩ := hexCode?_unit below.2 rest
  obtain ⟨first, eq, length, read⟩ := hexCode?_unit below.1 (unitEscape low ++ rest)
  have escape : unicodeEscape (first ++ (unitEscape low ++ rest)) =
      .ok (ofSurrogates high low, 10) := by
    have drop : (first ++ (unitEscape low ++ rest)).drop 4 = '\\' :: 'u' :: (second ++ rest) := by
      rw [List.drop_left' length, eq']
      rfl
    simp only [unicodeEscape, read, isHigh, drop, read', isLow, if_true]
  have drop : (first ++ (unitEscape low ++ rest)).drop 10 = rest := by
    rw [← List.append_assoc]
    exact List.drop_left' (by simp [length, unitEscape])
  rw [eq, List.cons_append, List.cons_append, scan]
  simp only [escape, drop]

/-- What is written for a character is read as the character. -/
theorem scan_codeChar (c : Char) (rest : List Char) :
    scan '\'' (codeChar c ++ rest) = (scan '\'' rest).cons c (codeChar c).length := by
  unfold codeChar
  split
  · rename_i plain
    have backslash : c ≠ '\\' := by rintro rfl; cases plain
    have quote : c ≠ '\'' := by rintro rfl; cases plain
    rw [List.singleton_append, scan_plain backslash, if_neg quote]
    rfl
  -- No character is a surrogate, so a unit that is one is half of a pair.
  have valid : c.toNat < 0xD800 ∨ 0xDFFF < c.toNat ∧ c.toNat < 0x110000 := c.valid
  unfold utf16Units
  split
  · rename_i small
    have high : isHighSurrogate c.toNat = false := by
      simp [isHighSurrogate]
      omega
    have low : isLowSurrogate c.toNat = false := by
      simp [isLowSurrogate]
      omega
    have read := scan_unitEscape small high low '\'' rest
    rw [Char.ofNat_toNat] at read
    rwa [List.flatMap_singleton]
  · rename_i large
    have isHigh : isHighSurrogate (0xD800 + (c.toNat - 0x10000) / 0x400) = true := by
      simp [isHighSurrogate]
      omega
    have isLow : isLowSurrogate (0xDC00 + (c.toNat - 0x10000) % 0x400) = true := by
      simp [isLowSurrogate]
      omega
    have pair : ofSurrogates (0xD800 + (c.toNat - 0x10000) / 0x400)
        (0xDC00 + (c.toNat - 0x10000) % 0x400) = c := by
      rw [ofSurrogates, show 0x10000 + (0xD800 + (c.toNat - 0x10000) / 0x400 - 0xD800) * 0x400 +
        (0xDC00 + (c.toNat - 0x10000) % 0x400 - 0xDC00) = c.toNat by omega, Char.ofNat_toNat]
    have read := scan_pairEscape isHigh isLow '\'' rest
    rw [pair] at read
    simpa [unitEscape] using read

end StringBody

/-- A string of the text of a program stands in front. -/
theorem lexemes?_codeString (s : String) (rest : List Char) :
    lexemes? (codeString s ++ rest) = (lexemes? rest).map (.str s :: ·) :=
  lexemes?_string StringBody.scan_codeChar s rest

end DataBinding
