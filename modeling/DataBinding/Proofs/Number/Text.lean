import DataBinding.Number.Text
import DataBinding.Proofs.Number.Numeral
import DataBinding.Proofs.Number.Shortest

/-!
# Numbers read back

The text of a number spells its shortest decimal in one of two forms. Both are numerals, and they
denote the value of the decimal, although zeros may have moved from the exponent into the digits.

## Main results

* `Decimal.chars_numeral` — the text of a decimal denotes a decimal of the same value
* `Number.ofNumeral?_chars` — the text of a magnitude denotes the magnitude
* `Number.exists_numeral_chars` — and is a numeral
-/

namespace DataBinding

namespace Decimal

theorem digits_spelling (d : Decimal) : Digits d.spelling := digits_toDigits d.digits

theorem ofDigitChars_zeros (n : Nat) (cs : List Char) :
    Nat.ofDigitChars 10 (List.replicate n '0' ++ cs) 0 = Nat.ofDigitChars 10 cs 0 := by
  rw [Nat.ofDigitChars_append, Nat.ofDigitChars_replicate_zero, Nat.mul_zero]

/-- The positional form denotes a decimal of the same value. -/
theorem positional_numeral (d : Decimal) :
    ∃ d', Numeral d.positional d' ∧ d'.round? = d.round? := by
  have digits := d.digits_spelling
  have value := d.ofDigitChars_spelling
  simp only [positional]
  split
  · -- Zeros are written up to the place of the point.
    rename_i nonneg
    have whole := Numeral.whole (by simp [d.spelling_ne_nil])
      (digits.append (digits_replicate_zero d.exponent.toNat)) .none
    rw [List.append_nil] at whole
    refine ⟨_, whole, ?_⟩
    rw [Nat.ofDigitChars_append, Nat.ofDigitChars_replicate_zero, value, Nat.mul_comm, round?_shift]
    rw [show (0 : Int) + d.exponent.toNat = d.exponent by omega]
  split
  · -- The point stands among the digits.
    rename_i neg within
    have parts := List.take_append_drop (d.spelling.length + d.exponent).toNat d.spelling
    have point := Numeral.point (parts ▸ d.spelling_ne_nil)
      (fun c mem => digits c (List.mem_of_mem_take mem))
      (fun c mem => digits c (List.mem_of_mem_drop mem)) .none
    rw [List.append_nil, parts, value, List.length_drop] at point
    refine ⟨_, point, congrArg round? ?_⟩
    rw [show (0 : Int) - (d.spelling.length - (d.spelling.length + d.exponent).toNat : Nat) =
      d.exponent by omega]
  · -- The point stands in front of the digits, perhaps with zeros between.
    rename_i neg below
    have zeros := digits_replicate_zero (-(d.spelling.length + d.exponent)).toNat
    have zero : Digits ['0'] := digits_replicate_zero 1
    have point := Numeral.point (by simp) zero (zeros.append digits) .none
    rw [List.append_nil, ← List.replicate_one, ofDigitChars_zeros, ofDigitChars_zeros, value]
      at point
    refine ⟨_, point, congrArg round? ?_⟩
    rw [List.length_append, List.length_replicate]
    rw [show (0 : Int) - ((-(d.spelling.length + d.exponent)).toNat + d.spelling.length : Nat) =
      d.exponent by omega]

/-- The form with an exponent denotes the decimal itself. -/
theorem scientific_numeral (d : Decimal) : Numeral d.scientific d := by
  have digits := d.digits_spelling
  have value := d.ofDigitChars_spelling
  have mark : isMark 'e' = true := rfl
  have exponent : Exponent ('e' :: (if d.leading < 0 then '-' else '+') ::
      Nat.toDigits 10 d.leading.natAbs) d.leading := by
    split
    · have minus := Exponent.minus mark Nat.toDigits_ne_nil (digits_toDigits d.leading.natAbs)
      rwa [Nat.ofDigitChars_ten_toDigits,
        show -(d.leading.natAbs : Int) = d.leading by omega] at minus
    · have plus := Exponent.plus mark Nat.toDigits_ne_nil (digits_toDigits d.leading.natAbs)
      rwa [Nat.ofDigitChars_ten_toDigits,
        show (d.leading.natAbs : Int) = d.leading by omega] at plus
  have same : Decimal.mk d.digits (d.leading - (d.spelling.length - 1 : Nat)) = d := by
    have := List.length_pos_iff.2 d.spelling_ne_nil
    rw [show d.leading - (d.spelling.length - 1 : Nat) = d.exponent by
      rw [Decimal.leading]
      omega]
  cases spelled : d.spelling with
  | nil => exact absurd spelled d.spelling_ne_nil
  | cons first others =>
    rw [spelled] at digits value same
    rw [scientific, spelled]
    cases others with
    | nil =>
      have whole := Numeral.whole (List.cons_ne_nil first []) digits exponent
      rw [List.length_singleton, Nat.sub_self, Int.natCast_zero, Int.sub_zero] at same
      rwa [value, same] at whole
    | cons second rest =>
      have one : Digits [first] := fun c mem => digits c (List.mem_append_left _ mem)
      have places : Digits (second :: rest) := fun c mem => digits c (List.mem_cons_of_mem _ mem)
      have point := Numeral.point (by simp) one places exponent
      simp only [List.singleton_append, value] at point
      rw [List.length_cons, Nat.add_sub_cancel] at same
      rwa [same] at point

/-- What is written denotes a decimal of the same value. -/
theorem chars_numeral (d : Decimal) : ∃ d', Numeral d.chars d' ∧ d'.round? = d.round? := by
  unfold chars
  split
  · exact d.positional_numeral
  · exact ⟨d, d.scientific_numeral, rfl⟩

end Decimal

namespace Number

/-- The text of a magnitude denotes the magnitude. -/
theorem ofNumeral?_chars (x : Magnitude) :
    ofNumeral? (finite false x).chars = some (finite false x) := by
  by_cases zero : x.significand = 0
  · -- Zero is written apart, and only the least shift goes with it.
    have shift : x.shift = 0 := by
      have := x.normal
      omega
    rw [chars, if_pos zero]
    have read : Decimal.ofNumeral? ['0'] = some ⟨0, 0⟩ := by decide
    rw [ofNumeral?, read, Option.map_some, Decimal.round?, if_pos rfl]
    obtain ⟨significand, shift', lt, le, normal⟩ := x
    subst zero shift
    rfl
  · rw [chars, if_neg zero]
    obtain ⟨d, numeral, round⟩ := x.shortest.chars_numeral
    rw [x.shortest_round?] at round
    rw [ofNumeral?, signChars, if_neg Bool.false_ne_true, List.nil_append, numeral.ofNumeral?,
      Option.map_some, round]
    rfl

/-- So it is a numeral, from end to end. -/
theorem exists_numeral_chars (x : Magnitude) :
    ∃ d, Decimal.Numeral (finite false x).chars d ∧
      ofMagnitude? false d.round? = finite false x := by
  obtain ⟨d, read, value⟩ := Option.map_eq_some_iff.1 (ofNumeral?_chars x)
  exact ⟨d, Decimal.ofNumeral?_eq_some_iff.1 read, value⟩

end Number

end DataBinding
