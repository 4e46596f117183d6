import DataBinding.Number.Text
import DataBinding.Proofs.Number.Order
import DataBinding.Proofs.Number.Shortest
import Mathlib.Algebra.Order.Field.Power
import Mathlib.Algebra.Order.Ring.Rat
import Mathlib.Tactic.Linarith
import Mathlib.Tactic.NormNum
import Mathlib.Tactic.Positivity
import Mathlib.Tactic.Ring

/-!
# The values of decimals and magnitudes

Decimals of any exponents are compared by the rational numbers that they stand for, and so are the
magnitudes. Rounding keeps the order of the values, so that the decimals that round to one magnitude
are an interval.

## Main definitions

* `Decimal.value`, `Magnitude.value` — the rational number

## Main results

* `Decimal.value_le_of_round?` — a larger decimal is not rounded to a smaller magnitude
* `Decimal.round?_between` — what lies between decimals of one magnitude rounds to it
* `Decimal.value_le_or_le` — no decimal of as many digits lies between neighbours
* `Decimal.le_leading_iff` — the place of the leading digit
-/

namespace DataBinding

namespace Decimal

/-- The number that the decimal stands for. -/
def value (d : Decimal) : ℚ := d.digits * 10 ^ d.exponent

theorem ten_zpow_pos (e : ℤ) : (0 : ℚ) < 10 ^ e := zpow_pos (by norm_num) e

/-- A fraction of natural numbers with the value of the decimal. -/
theorem value_eq_div (d : Decimal) :
    d.value = (d.digits * 10 ^ d.exponent.toNat : ℕ) / (10 ^ (-d.exponent).toNat : ℕ) := by
  have exponent : d.exponent = (d.exponent.toNat : ℤ) - ((-d.exponent).toNat : ℤ) := by omega
  calc d.value = d.digits * 10 ^ ((d.exponent.toNat : ℤ) - ((-d.exponent).toNat : ℤ)) := by
        rw [value, ← exponent]
    _ = (d.digits * 10 ^ d.exponent.toNat : ℕ) / (10 ^ (-d.exponent).toNat : ℕ) := by
        rw [zpow_sub₀ (by norm_num), zpow_natCast, zpow_natCast, ← mul_div_assoc]
        push_cast
        rfl

end Decimal

namespace Magnitude

/-- The number that the magnitude stands for. -/
def value (x : Magnitude) : ℚ := x.units * 2 ^ (-1074 : ℤ)

theorem two_zpow_pos (e : ℤ) : (0 : ℚ) < 2 ^ e := zpow_pos (by norm_num) e

theorem value_le_iff {x y : Magnitude} : x.value ≤ y.value ↔ x.units ≤ y.units := by
  rw [value, value, mul_le_mul_iff_left₀ (two_zpow_pos _), Nat.cast_le]

theorem value_injective {x y : Magnitude} (h : x.value = y.value) : x = y := by
  have le := value_le_iff.1 h.le
  have ge := value_le_iff.1 h.ge
  exact index_injective (Nat.le_antisymm (index_le_iff.2 le) (index_le_iff.2 ge))

/-- A magnitude of so many whole units has a natural number as its value. -/
theorem value_of_units {x : Magnitude} {n : ℕ} (h : x.units = n * 2 ^ 1074) : x.value = n := by
  have whole : ∀ k : ℕ, ((n * 2 ^ k : ℕ) : ℚ) * 2 ^ (-k : ℤ) = n := by
    intro k
    rw [Nat.cast_mul, Nat.cast_pow, Nat.cast_ofNat, zpow_neg, zpow_natCast,
      mul_inv_cancel_right₀ (pow_ne_zero k two_ne_zero)]
  rw [value, h]
  exact whole 1074

/-- Units of a power of two, written with as many decimal places. -/
theorem mul_five_pow (n k : ℕ) : ((n * 5 ^ k : ℕ) : ℚ) * 10 ^ (-k : ℤ) = n * 2 ^ (-k : ℤ) := by
  have five : (5 : ℚ) ^ k ≠ 0 := pow_ne_zero k (by norm_num)
  rw [show (10 : ℚ) = 5 * 2 by norm_num, mul_zpow, zpow_neg, zpow_natCast]
  push_cast
  rw [← mul_assoc, mul_inv_cancel_right₀ five]

/-- The exact decimal has the value of the magnitude. -/
theorem value_toDecimal (x : Magnitude) : x.toDecimal.value = x.value :=
  mul_five_pow x.units 1074

end Magnitude

namespace Decimal

variable {d d' d'' : Decimal} {x y : Magnitude}

/-- The position of the magnitude nearest to the decimal. -/
def nearestIndex (d : Decimal) : ℕ :=
  Magnitude.nearestIndex (d.digits * 10 ^ d.exponent.toNat * 2 ^ 1074) (10 ^ (-d.exponent).toNat)

theorem round?_eq_some_iff : d.round? = some x ↔ d.nearestIndex = x.index := by
  rw [round?_eq]
  exact Magnitude.round?_eq_some_iff

/-- A larger decimal does not have a smaller position. -/
theorem nearestIndex_mono (le : d.value ≤ d'.value) : d.nearestIndex ≤ d'.nearestIndex := by
  have pos : ∀ k, 0 < 10 ^ k := fun k => Nat.pow_pos (by decide)
  rw [value_eq_div, value_eq_div, div_le_div_iff₀ (Nat.cast_pos.2 (pos _)) (Nat.cast_pos.2 (pos _)),
    ← Nat.cast_mul, ← Nat.cast_mul, Nat.cast_le] at le
  refine Magnitude.nearestIndex_mono (pos _) (pos _) ?_
  generalize 2 ^ 1074 = unit
  rw [Nat.mul_right_comm, Nat.mul_right_comm _ unit]
  exact Nat.mul_le_mul_right unit le

/-- A larger decimal is not rounded to a smaller magnitude. -/
theorem value_le_of_round? (le : d.value ≤ d'.value) (h : d.round? = some x)
    (h' : d'.round? = some y) : x.value ≤ y.value := by
  rw [Magnitude.value_le_iff, ← Magnitude.index_le_iff, ← round?_eq_some_iff.1 h,
    ← round?_eq_some_iff.1 h']
  exact nearestIndex_mono le

/-- What lies between decimals of one magnitude rounds to it. -/
theorem round?_between (le : d.value ≤ d'.value) (le' : d'.value ≤ d''.value)
    (h : d.round? = some x) (h'' : d''.round? = some x) : d'.round? = some x := by
  rw [round?_eq_some_iff] at h h'' ⊢
  exact Nat.le_antisymm (h'' ▸ nearestIndex_mono le') (h ▸ nearestIndex_mono le)

theorem value_mk_le_iff {a b : ℕ} {e : ℤ} : (mk a e).value ≤ (mk b e).value ↔ a ≤ b := by
  rw [value, value, mul_le_mul_iff_left₀ (ten_zpow_pos e), Nat.cast_le]

/-- Digits and zeros behind them have the value of the digits, moved up. -/
theorem value_shift (n k : ℕ) (e : ℤ) : (mk (n * 10 ^ k) e).value = (mk n (e + k)).value := by
  rw [value, value, zpow_add₀ (by norm_num), zpow_natCast]
  push_cast
  ring

/-- No decimal of at most `n + 1` digits lies between neighbours on a grid on which they have that
many. -/
theorem value_le_or_le {a n : ℕ} {e : ℤ} (leading : 10 ^ n ≤ a) (digits : d.digits < 10 ^ (n + 1)) :
    d.value ≤ (mk a e).value ∨ (mk (a + 1) e).value ≤ d.value := by
  obtain ⟨m, f⟩ := d
  rcases le_or_gt e f with coarse | fine
  · -- The decimal is on the grid.
    obtain ⟨k, rfl⟩ := Int.le.dest coarse
    rw [← value_shift, value_mk_le_iff, value_mk_le_iff]
    exact (Nat.lt_or_ge a _).symm
  · -- The last place of the decimal is too low for its first one to reach the grid.
    obtain ⟨k, rfl⟩ := Int.le.dest (Int.add_one_le_of_lt fine)
    left
    rw [show f + 1 + k = f + (k + 1 : ℕ) by push_cast; ring, ← value_shift, value_mk_le_iff]
    calc m ≤ 10 ^ (n + 1) := Nat.le_of_lt digits
      _ = 10 ^ n * 10 ^ 1 := Nat.pow_add 10 n 1
      _ ≤ a * 10 ^ (k + 1) := Nat.mul_le_mul leading (Nat.pow_le_pow_right (by decide) (by omega))

/-! ### The leading digit -/

theorem length_le_iff {k : ℕ} : d.spelling.length ≤ k + 1 ↔ d.digits < 10 ^ (k + 1) :=
  Nat.length_toDigits_le_iff (by decide) k.succ_pos

/-- The digits of a number reach the place of a power of ten that is not larger. -/
theorem pow_le_digits_iff {k : ℕ} (some : d.digits ≠ 0) :
    10 ^ k ≤ d.digits ↔ k < d.spelling.length := by
  cases k with
  | zero => exact ⟨fun _ => List.length_pos_iff.2 d.spelling_ne_nil, fun _ => Nat.pos_of_ne_zero some⟩
  | succ k => rw [← Nat.not_lt, ← length_le_iff, Nat.not_le]

/-- The first `n + 1` digits of a number are a number of that many digits. -/
theorem div_pow_digits {n : ℕ} (some : d.digits ≠ 0) (lt : n < d.spelling.length) :
    10 ^ n ≤ d.digits / 10 ^ (d.spelling.length - (n + 1)) ∧
      d.digits / 10 ^ (d.spelling.length - (n + 1)) < 10 ^ (n + 1) := by
  have low := (pow_le_digits_iff (k := d.spelling.length - 1) some).2 (by omega)
  have high : d.digits < 10 ^ d.spelling.length :=
    Nat.not_le.1 fun le => Nat.lt_irrefl _ ((pow_le_digits_iff some).1 le)
  have pos : 0 < 10 ^ (d.spelling.length - (n + 1)) := Nat.pow_pos (by decide)
  rw [Nat.le_div_iff_mul_le pos, Nat.div_lt_iff_lt_mul pos, ← Nat.pow_add, ← Nat.pow_add,
    show n + (d.spelling.length - (n + 1)) = d.spelling.length - 1 by omega,
    show n + 1 + (d.spelling.length - (n + 1)) = d.spelling.length by omega]
  exact ⟨low, high⟩

/-- The leading digit reaches the place of a power of ten that is not larger. -/
theorem le_leading_iff {e : ℤ} (some : d.digits ≠ 0) :
    e ≤ d.leading ↔ (mk 1 e).value ≤ d.value := by
  have first := List.length_pos_iff.2 d.spelling_ne_nil
  have reach := fun k => pow_le_digits_iff (k := k) some
  rw [leading]
  generalize d.spelling.length = length at first reach
  obtain ⟨m, f⟩ := d
  simp only at reach ⊢
  rcases le_total f e with above | below
  · obtain ⟨k, rfl⟩ := Int.le.dest above
    rw [← value_shift, value_mk_le_iff, Nat.one_mul, reach]
    omega
  · -- The power of ten has its place behind the last digit.
    obtain ⟨k, rfl⟩ := Int.le.dest below
    rw [← value_shift, value_mk_le_iff]
    have pos : 0 < m * 10 ^ k := Nat.mul_pos (Nat.pos_of_ne_zero some) (Nat.pow_pos (by decide))
    omega

end Decimal

end DataBinding
