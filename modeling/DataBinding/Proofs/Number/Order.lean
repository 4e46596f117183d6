import DataBinding.Proofs.Number.Rounding
import Mathlib.Data.Nat.Log

/-!
# Rounding keeps order

The magnitudes are numbered in the order of their values, and a larger quotient is rounded to a
position that is not smaller: within the steps of one shift because a quotient is rounded to the
nearest step, and from one shift to the next because the steps of a shift end where those of the next
one begin. What is less than half a step away from a magnitude is rounded to it.

## Main results

* `Magnitude.index_le_iff` — the order of positions is the order of values
* `Magnitude.round?_of_near` — what is near a magnitude is rounded to it
* `Magnitude.nearestIndex_mono` — a larger quotient does not have a smaller position
* `Magnitude.units_le_of_round?` — a larger quotient is not rounded to a smaller magnitude
-/

namespace DataBinding

/-- A larger numerator is not rounded to less. -/
theorem roundHalfEven_mono {num num' den : Nat} (le : num ≤ num') :
    roundHalfEven num den ≤ roundHalfEven num' den := by
  have quotients := Nat.div_le_div_right (c := den) le
  rcases Nat.lt_or_eq_of_le quotients with lt | eq
  · simp only [roundHalfEven]
    split <;> split <;> omega
  · -- With one whole part, the remainders are in order.
    have rest : num % den ≤ num' % den := by
      have split := Nat.div_add_mod num den
      have split' := Nat.div_add_mod num' den
      rw [eq] at split
      omega
    simp only [roundHalfEven, eq]
    split <;> split <;> omega

/-- Rounding a quotient does not lead below its whole part. -/
theorem div_le_roundHalfEven (num den : Nat) : num / den ≤ roundHalfEven num den := by
  simp only [roundHalfEven]
  split <;> omega

theorem roundHalfEven_le (num den : Nat) : roundHalfEven num den ≤ num / den + 1 := by
  simp only [roundHalfEven]
  split <;> omega

/-- Rounding a quotient moves it by at most a half. -/
theorem roundHalfEven_near (num : Nat) {den : Nat} (pos : 0 < den) :
    2 * (roundHalfEven num den * den) ≤ 2 * num + den ∧
      2 * num ≤ 2 * (roundHalfEven num den * den) + den := by
  have split := Nat.div_add_mod num den
  have rest := Nat.mod_lt num pos
  rw [Nat.mul_comm] at split
  simp only [roundHalfEven]
  split
  · rw [Nat.add_mul, Nat.one_mul]
    omega
  · omega

/-- A quotient is rounded to the number that it is less than a half away from. -/
theorem roundHalfEven_eq {num den r : Nat} (upper : 2 * num < 2 * (r * den) + den)
    (lower : 2 * (r * den) < 2 * num + den) : roundHalfEven num den = r := by
  have pos : 0 < den := by omega
  obtain ⟨low, high⟩ := roundHalfEven_near num pos
  generalize roundHalfEven num den = found at low high
  have above : found * den < (r + 1) * den := by
    rw [Nat.add_mul, Nat.one_mul]
    omega
  have below : r * den < (found + 1) * den := by
    rw [Nat.add_mul, Nat.one_mul]
    omega
  have := Nat.lt_of_mul_lt_mul_right above
  have := Nat.lt_of_mul_lt_mul_right below
  omega

namespace Magnitude

variable {x y : Magnitude} {num num' den den' : Nat}

/-- A position is that of the magnitude there. -/
theorem index_of_ofIndex? {i : Nat} (h : ofIndex? i = some x) : x.index = i := by
  simp only [ofIndex?] at h
  split at h
  · cases h
    simp [index]
  split at h
  · cases h
    simp only [index, Nat.one_shiftLeft]
    omega
  · cases h

theorem index_injective (h : x.index = y.index) : x = y := by
  have same := x.ofIndex?_index
  rw [h, ofIndex?_index] at same
  exact (Option.some.inj same).symm

/-- A magnitude further up has more units. -/
theorem units_lt_of_index_lt (h : x.index < y.index) : x.units < y.units := by
  have hx := x.significand_lt
  have hy := y.significand_lt
  have normal := y.normal
  simp only [index] at h
  rw [units_eq, units_eq]
  rcases Nat.lt_trichotomy x.shift y.shift with lt | eq | gt
  · -- The leading bit of the one is above all bits of the other.
    have leading : 2 ^ 52 ≤ y.significand := by
      have := normal.resolve_left (by omega)
      omega
    calc x.significand * 2 ^ x.shift < 2 ^ 53 * 2 ^ x.shift :=
          Nat.mul_lt_mul_of_pos_right hx (Nat.two_pow_pos _)
      _ = 2 ^ 52 * 2 ^ (x.shift + 1) := by
          rw [Nat.pow_succ 2 x.shift]
          omega
      _ ≤ y.significand * 2 ^ y.shift :=
          Nat.mul_le_mul leading (Nat.pow_le_pow_right (by decide) lt)
  · rw [eq] at h ⊢
    exact Nat.mul_lt_mul_of_pos_right (by omega) (Nat.two_pow_pos _)
  · have := x.normal.resolve_left (by omega)
    omega

/-- The order of positions is the order of values. -/
theorem index_le_iff : x.index ≤ y.index ↔ x.units ≤ y.units := by
  constructor
  · intro h
    rcases Nat.lt_or_eq_of_le h with lt | eq
    · exact Nat.le_of_lt (units_lt_of_index_lt lt)
    · exact Nat.le_of_eq (congrArg units (index_injective eq))
  · intro h
    exact Nat.not_lt.1 fun lt => Nat.not_lt.2 h (units_lt_of_index_lt lt)

theorem round?_eq_some_iff : round? num den = some x ↔ nearestIndex num den = x.index := by
  rw [round?_eq_ofIndex?]
  exact ⟨fun h => (index_of_ofIndex? h).symm, fun h => h ▸ x.ofIndex?_index⟩

/-- A quotient is rounded to the magnitude that it is less than half a step away from, unless it is
below the leading bit of that magnitude. -/
theorem round?_of_near
    (upper : 2 * num < 2 * (x.units * den) + 2 ^ x.shift * den)
    (lower : 2 * (x.units * den) < 2 * num + 2 ^ x.shift * den)
    (leading : x.shift = 0 ∨ 2 ^ 52 * (2 ^ x.shift * den) ≤ num) : round? num den = some x := by
  have lt := x.significand_lt
  rw [units_eq, Nat.mul_assoc] at upper lower
  have pos : 0 < den := by
    refine Nat.pos_of_ne_zero fun none => ?_
    simp only [none, Nat.mul_zero] at upper lower
    omega
  -- The shift of the quotient is that of the magnitude.
  have below : num / den < 2 ^ (53 + x.shift) := by
    have most := Nat.mul_le_mul_right (2 ^ x.shift * den) (show x.significand ≤ 2 ^ 53 - 1 by omega)
    rw [Nat.div_lt_iff_lt_mul pos, Nat.pow_add, Nat.mul_assoc]
    generalize 2 ^ x.shift * den = step at *
    omega
  have shift : (num / den).log2 - 52 = x.shift := by
    have high : (num / den).log2 < 53 + x.shift := by
      by_cases none : num / den = 0
      · rw [none, Nat.log2_zero]
        omega
      · exact (Nat.log2_lt none).2 below
    rcases leading with low | leading
    · omega
    · have above : 2 ^ (52 + x.shift) ≤ num / den := by
        rwa [Nat.le_div_iff_mul_le pos, Nat.pow_add, Nat.mul_assoc]
      have some : num / den ≠ 0 := Nat.ne_of_gt (Nat.lt_of_lt_of_le (Nat.two_pow_pos _) above)
      have := (Nat.le_log2 some).2 above
      omega
  have steps : roundHalfEven num (den <<< x.shift) = x.significand := by
    rw [Nat.shiftLeft_eq, Nat.mul_comm den]
    exact roundHalfEven_eq upper lower
  rw [round?_eq_some_iff, nearestIndex, shift, steps, index]

/-- The steps of a shift begin with the leading bit, unless it is the lowest one. -/
theorem two_pow_le_roundHalfEven {shift : Nat} (h : shift = (num / den).log2 - 52)
    (pos : 0 < shift) : 2 ^ 52 ≤ roundHalfEven num (den <<< shift) := by
  have some : num / den ≠ 0 := by
    intro none
    rw [none] at h
    simp at h
    omega
  refine Nat.le_trans ?_ (div_le_roundHalfEven _ _)
  rw [Nat.shiftLeft_eq, ← Nat.div_div_eq_div_mul, Nat.le_div_iff_mul_le (Nat.two_pow_pos _),
    ← Nat.pow_add, show 52 + shift = (num / den).log2 by omega]
  exact Nat.log2_self_le some

/-- They end where the next bit would be needed. -/
theorem roundHalfEven_le_two_pow {shift : Nat} (h : shift = (num / den).log2 - 52) :
    roundHalfEven num (den <<< shift) ≤ 2 ^ 53 := by
  refine Nat.le_trans (roundHalfEven_le _ _) ?_
  rw [Nat.shiftLeft_eq, ← Nat.div_div_eq_div_mul]
  have bits : num / den < 2 ^ 53 * 2 ^ shift := by
    rw [← Nat.pow_add]
    exact Nat.lt_of_lt_of_le Nat.lt_log2_self (Nat.pow_le_pow_right (by decide) (by omega))
  exact (Nat.div_lt_iff_lt_mul (Nat.two_pow_pos _)).2 bits

/-- Of two quotients with one denominator, the larger one does not have the smaller position. -/
theorem nearestIndex_mono_num (le : num ≤ num') : nearestIndex num den ≤ nearestIndex num' den := by
  have shifts : (num / den).log2 ≤ (num' / den).log2 := by
    rw [Nat.log2_eq_log_two, Nat.log2_eq_log_two]
    exact Nat.log_mono_right (Nat.div_le_div_right le)
  simp only [nearestIndex]
  generalize eq : (num / den).log2 - 52 = shift
  generalize eq' : (num' / den).log2 - 52 = shift'
  rcases Nat.lt_or_eq_of_le (show shift ≤ shift' by omega) with lt | rfl
  · have upper := roundHalfEven_le_two_pow eq.symm
    have lower := two_pow_le_roundHalfEven eq'.symm (by omega)
    omega
  · exact Nat.add_le_add_left (roundHalfEven_mono le) _

/-- A larger quotient does not have a smaller position. -/
theorem nearestIndex_mono (pos : 0 < den) (pos' : 0 < den') (le : num * den' ≤ num' * den) :
    nearestIndex num den ≤ nearestIndex num' den' := by
  calc nearestIndex num den = nearestIndex (num * den') (den * den') := (nearestIndex_mul pos').symm
    _ ≤ nearestIndex (num' * den) (den * den') := nearestIndex_mono_num le
    _ = nearestIndex (num' * den) (den' * den) := by rw [Nat.mul_comm den]
    _ = nearestIndex num' den' := nearestIndex_mul pos

/-- A larger quotient is not rounded to a smaller magnitude. -/
theorem units_le_of_round? (pos : 0 < den) (pos' : 0 < den') (le : num * den' ≤ num' * den)
    (h : round? num den = some x) (h' : round? num' den' = some y) : x.units ≤ y.units := by
  rw [← index_le_iff, ← round?_eq_some_iff.1 h, ← round?_eq_some_iff.1 h']
  exact nearestIndex_mono pos pos' le

end Magnitude

end DataBinding
