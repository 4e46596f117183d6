import DataBinding.Number.Decimal
import Mathlib.Algebra.Group.Nat.Defs

/-!
# What rounding gives

The nearest magnitude depends on the quotient alone, not on how it is written as a fraction, and a
quotient that is a magnitude already is not changed. So decimals of one value round alike. The
cutoffs of `Decimal.round?`, which spare it the work on huge powers of ten, change no result.

## Main definitions

* `Magnitude.nearestIndex` — the position of the nearest magnitude

## Main results

* `Magnitude.round?_congr`, `Magnitude.round?_units` — fractions of one value, and exact ones
* `Decimal.round?_eq` — rounding without the cutoffs
* `Decimal.round?_shift` — digits moved into the exponent
-/

namespace DataBinding

theorem roundHalfEven_mul {num den k : Nat} (pos : 0 < k) :
    roundHalfEven (num * k) (den * k) = roundHalfEven num den := by
  have twice : 2 * (num % den * k) = 2 * (num % den) * k := by rw [Nat.mul_assoc]
  simp only [roundHalfEven, Nat.mul_div_mul_right _ _ pos, Nat.mul_mod_mul_right, twice,
    Nat.mul_lt_mul_right pos, Nat.mul_left_inj (Nat.ne_of_gt pos)]

theorem roundHalfEven_mul_self {q den : Nat} (pos : 0 < den) :
    roundHalfEven (q * den) den = q := by
  have : 0 ≠ den := by omega
  simp [roundHalfEven, Nat.mul_div_cancel _ pos, this]

/-- Less than a half is rounded to nothing. -/
theorem roundHalfEven_eq_zero {num den : Nat} (h : 2 * num < den) : roundHalfEven num den = 0 := by
  have small : num < den := by omega
  rw [roundHalfEven, Nat.div_eq_of_lt small, Nat.mod_eq_of_lt small, if_neg (by omega)]

namespace Magnitude

theorem index_lt_count (x : Magnitude) : x.index < count := by
  have := x.significand_lt
  have := x.shift_le
  simp only [index, count]
  omega

/-- A magnitude is the one at its position. -/
theorem ofIndex?_index (x : Magnitude) : ofIndex? x.index = some x := by
  obtain ⟨significand, shift, lt, le, normal⟩ := x
  by_cases low : index ⟨significand, shift, lt, le, normal⟩ < 1 <<< 53
  · rw [ofIndex?, dif_pos low]
    simp only [index] at low
    -- Two positions stand for one shift only where the significand has its leading bit.
    have : shift = 0 := by omega
    simp [index, this]
  · -- Here the leading bit of the significand counts as one step more of the shift.
    have high := index_lt_count ⟨significand, shift, lt, le, normal⟩
    rw [ofIndex?, dif_neg low, dif_pos high]
    simp only [index] at low
    simp only [index, Nat.one_shiftLeft, Option.some.injEq, mk.injEq]
    omega

theorem ofIndex?_eq_none {i : Nat} (h : count ≤ i) : ofIndex? i = none := by
  have low : ¬i < 1 <<< 53 := by
    simp only [count] at h
    omega
  rw [ofIndex?, dif_neg low, dif_neg (Nat.not_lt.2 h)]

/-- The position of the magnitude nearest to `num / den` units, or a position behind all of them. -/
def nearestIndex (num den : Nat) : Nat :=
  let shift := (num / den).log2 - 52
  shift <<< 52 + roundHalfEven num (den <<< shift)

theorem round?_eq_ofIndex? (num den : Nat) : round? num den = ofIndex? (nearestIndex num den) := rfl

theorem nearestIndex_mul {num den k : Nat} (pos : 0 < k) :
    nearestIndex (num * k) (den * k) = nearestIndex num den := by
  simp only [nearestIndex, Nat.mul_div_mul_right _ _ pos, Nat.shiftLeft_eq,
    Nat.mul_right_comm den k, roundHalfEven_mul pos]

/-- Fractions of one value have one nearest magnitude. -/
theorem round?_congr {num den num' den' : Nat} (pos : 0 < den) (pos' : 0 < den')
    (eq : num * den' = num' * den) : round? num den = round? num' den' := by
  -- Both fractions are scaled to one denominator, which changes neither.
  have same : nearestIndex num den = nearestIndex num' den' := by
    calc nearestIndex num den = nearestIndex (num * den') (den * den') :=
          (nearestIndex_mul pos').symm
      _ = nearestIndex (num' * den) (den' * den) := by rw [eq, Nat.mul_comm den]
      _ = nearestIndex num' den' := nearestIndex_mul pos
  rw [round?_eq_ofIndex?, round?_eq_ofIndex?, same]

theorem units_eq (x : Magnitude) : x.units = x.significand * 2 ^ x.shift := Nat.shiftLeft_eq _ _

theorem round?_zero (den : Nat) : round? 0 den = some zero := by
  have half : roundHalfEven 0 den = 0 := by
    simp [roundHalfEven]
  simp [round?, half, ofIndex?, zero]

/-- What is a magnitude already is not changed. -/
theorem round?_units (x : Magnitude) : round? x.units 1 = some x := by
  have shift : (x.units / 1).log2 - 52 = x.shift := by
    have := x.significand_lt
    rcases x.normal with low | normal
    · by_cases zero : x.significand = 0
      · simp [units_eq, low, zero]
      · have := (Nat.log2_lt zero (k := 53)).2 x.significand_lt
        simp only [units, low, Nat.shiftLeft_zero, Nat.div_one]
        omega
    · have pos : x.units ≠ 0 := by
        have : x.significand ≠ 0 := by omega
        rw [units_eq]
        exact Nat.mul_ne_zero this (Nat.ne_of_gt (Nat.two_pow_pos _))
      -- The leading bit of the significand is moved up by the shift.
      have log : x.units.log2 = 52 + x.shift := by
        rw [Nat.log2_eq_iff pos, units_eq, Nat.pow_add, Nat.add_right_comm, Nat.pow_add]
        exact ⟨Nat.mul_le_mul_right _ normal,
          Nat.mul_lt_mul_of_pos_right x.significand_lt (Nat.two_pow_pos _)⟩
      rw [Nat.div_one, log, Nat.add_sub_cancel_left]
  rw [round?, shift, units_eq, Nat.one_shiftLeft, roundHalfEven_mul_self (Nat.two_pow_pos _)]
  exact ofIndex?_index x

/-- What is far beyond all magnitudes is rounded to the infinity. -/
theorem round?_eq_none {num k : Nat} (large : 2100 ≤ k) (h : 2 ^ k ≤ num) :
    round? num 1 = none := by
  have pos : num ≠ 0 := Nat.ne_of_gt (Nat.lt_of_lt_of_le (Nat.two_pow_pos k) h)
  have log : k ≤ (num / 1).log2 := by
    rw [Nat.div_one]
    exact (Nat.le_log2 pos).2 h
  apply ofIndex?_eq_none
  simp only [count]
  omega

theorem round?_eq_zero {num den : Nat} (h : 2 * num < den) : round? num den = some zero := by
  have small : num / den = 0 := Nat.div_eq_of_lt (by omega)
  rw [round?, small]
  simp [roundHalfEven_eq_zero h, ofIndex?, zero]

end Magnitude

namespace Decimal

/-- The cutoffs change no result. -/
theorem round?_eq (d : Decimal) :
    d.round? =
      Magnitude.round? (d.digits * 10 ^ d.exponent.toNat * 2 ^ 1074)
        (10 ^ (-d.exponent).toNat) := by
  rw [round?, Nat.shiftLeft_eq]
  split
  · rename_i none
    simp only [none, Nat.zero_mul, Magnitude.round?_zero]
  rename_i some
  split
  · -- Without a denominator, the numerator alone is beyond all magnitudes.
    rename_i large
    have den : (-d.exponent).toNat = 0 := by omega
    rw [den, Nat.pow_zero]
    have bits : 2100 ≤ 3 * d.exponent.toNat + 1074 := by omega
    refine (Magnitude.round?_eq_none bits ?_).symm
    calc 2 ^ (3 * d.exponent.toNat + 1074)
        = 1 * 8 ^ d.exponent.toNat * 2 ^ 1074 := by rw [Nat.pow_add, Nat.pow_mul, Nat.one_mul]
      _ ≤ d.digits * 10 ^ d.exponent.toNat * 2 ^ 1074 :=
          Nat.mul_le_mul_right _ (Nat.mul_le_mul (Nat.pos_of_ne_zero some)
            (Nat.pow_le_pow_left (by decide) _))
  split
  · -- The denominator has a bit more than twice the numerator.
    rename_i small
    have num : d.exponent.toNat = 0 := by omega
    have bits : 2 * d.digits < 2 ^ (d.digits.log2 + 2) := by
      have := Nat.lt_log2_self (n := d.digits)
      rw [Nat.pow_succ]
      omega
    refine (Magnitude.round?_eq_zero ?_).symm
    rw [num, Nat.pow_zero, Nat.mul_one, ← Nat.mul_assoc]
    calc 2 * d.digits * 2 ^ 1074 < 2 ^ (d.digits.log2 + 2) * 2 ^ 1074 :=
          Nat.mul_lt_mul_of_pos_right bits (Nat.two_pow_pos _)
      _ = 2 ^ (d.digits.log2 + 2 + 1074) := (Nat.pow_add _ _ _).symm
      _ ≤ 2 ^ (-d.exponent).toNat := Nat.pow_le_pow_right (by decide) (by omega)
      _ ≤ 10 ^ (-d.exponent).toNat := Nat.pow_le_pow_left (by decide) _
  · rfl

/-- Zeros at the end of the digits can be moved into the exponent. -/
theorem round?_shift (n k : Nat) (e : Int) :
    (Decimal.mk (n * 10 ^ k) e).round? = (Decimal.mk n (e + k)).round? := by
  have powers : 10 ^ k * 10 ^ e.toNat * 10 ^ (-(e + k)).toNat =
      10 ^ (e + k).toNat * 10 ^ (-e).toNat := by
    rw [← Nat.pow_add, ← Nat.pow_add, ← Nat.pow_add]
    congr 1
    omega
  rw [round?_eq, round?_eq]
  refine Magnitude.round?_congr (Nat.pow_pos (by decide)) (Nat.pow_pos (by decide)) ?_
  generalize 2 ^ 1074 = unit
  calc n * 10 ^ k * 10 ^ e.toNat * unit * 10 ^ (-(e + k)).toNat
      = n * (10 ^ k * 10 ^ e.toNat * 10 ^ (-(e + k)).toNat) * unit := by ac_rfl
    _ = n * 10 ^ (e + k).toNat * unit * 10 ^ (-e).toNat := by rw [powers]; ac_rfl

end Decimal

end DataBinding
