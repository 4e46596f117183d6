import DataBinding.Proofs.Number.Equality
import DataBinding.Proofs.Number.Value

/-!
# Where numbers are written with an exponent

The form of a text is chosen by the place of the leading digit of the shortest decimal. This is the
choice by the value of the number: the leading digit reaches the place of a power of ten exactly
where the number is not below the one that this power is read as. For this the power has to be the
shortest decimal of that number, as `1e-6` and `1e21` are.

## Main definitions

* `Magnitude.millionth`, `Magnitude.sextillion` — the numbers `1e-6` and `1e21`

## Main results

* `Magnitude.le_leading_shortest_iff` — the leading digit of the shortest decimal, by the value
* `Number.chars_eq_form` — the form of the text of a number, by its value
-/

namespace DataBinding

namespace Magnitude

variable {x : Magnitude}

theorem digits_shortest_ne_zero (some : x.significand ≠ 0) : x.shortest.digits ≠ 0 := by
  intro none
  have round := x.shortest_round?
  rw [Decimal.round?, if_pos none] at round
  cases round
  exact some rfl

/-- The leading digit reaches the place of a power of ten where the number is not below that power,
if it is the shortest decimal of the number it is read as. -/
theorem le_leading_shortest_iff {e : ℤ} {power : Magnitude}
    (round : (Decimal.mk 1 e).round? = .some power) (shortest : power.shortest = ⟨1, e⟩)
    (some : x.significand ≠ 0) : e ≤ x.shortest.leading ↔ power.value ≤ x.value := by
  rw [Decimal.le_leading_iff (digits_shortest_ne_zero some)]
  constructor
  · intro le
    exact Decimal.value_le_of_round? le round x.shortest_round?
  · intro le
    refine not_lt.1 fun lt => ?_
    have ge := Decimal.value_le_of_round? lt.le x.shortest_round? round
    have same : x = power := value_injective (le_antisymm ge le)
    rw [same, shortest] at lt
    exact lt_irrefl _ lt

/-- The number nearest to `1e-6`. -/
def millionth : Magnitude :=
  ⟨0x10C6F7A0B5ED8D, 1002, by decide, by decide, .inr (by decide)⟩

/-- The number `1e21`. -/
def sextillion : Magnitude :=
  ⟨0x1B1AE4D6E2EF50, 1091, by decide, by decide, .inr (by decide)⟩

theorem round?_millionth : (Decimal.mk 1 (-6)).round? = some millionth := by decide +kernel

theorem shortest_millionth : millionth.shortest = ⟨1, -6⟩ := by decide +kernel

theorem round?_sextillion : (Decimal.mk 1 21).round? = some sextillion := by decide +kernel

theorem shortest_sextillion : sextillion.shortest = ⟨1, 21⟩ := by decide +kernel

theorem value_sextillion : sextillion.value = 10 ^ 21 := by
  rw [value_of_units (n := 10 ^ 21) (by decide +kernel), Nat.cast_pow, Nat.cast_ofNat]

end Magnitude

namespace Number

open Magnitude

/-- From `1e-6` up to, but not including, `1e21`, magnitudes are written without an exponent, and
outside of that range with one. -/
theorem chars_eq_form {x : Magnitude} (some : x ≠ .zero) :
    (finite false x).chars =
      if millionth.value ≤ x.value ∧ x.value < 10 ^ 21 then x.shortest.positional
      else x.shortest.scientific := by
  have some' : x.significand ≠ 0 := fun zero => some (Magnitude.eq_zero zero)
  have low := le_leading_shortest_iff round?_millionth shortest_millionth some'
  have high := le_leading_shortest_iff round?_sextillion shortest_sextillion some'
  rw [value_sextillion] at high
  rw [chars, if_neg some', signChars, if_neg Bool.false_ne_true, List.nil_append, Decimal.chars]
  simp only [low, ← not_le, high]

end Number

end DataBinding
