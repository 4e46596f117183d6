import DataBinding.Number.Shortest
import Mathlib.Data.List.TakeWhile
import DataBinding.Proofs.Number.Rounding

/-!
# What the shortest decimal denotes

Every decimal that is a candidate for the text of a magnitude has been tried out, but for the exact
one, which rounds to the magnitude because nothing is lost in it. Taking zeros off at the end of the
digits does not change the value.

## Main results

* `Decimal.strip_round?` — taking off zeros does not change the magnitude
* `Magnitude.shortest_round?` — the shortest decimal of a magnitude rounds to it
-/

namespace DataBinding

namespace Decimal

theorem ofDigitChars_spelling (d : Decimal) : Nat.ofDigitChars 10 d.spelling 0 = d.digits :=
  Nat.ofDigitChars_ten_toDigits

theorem spelling_ne_nil (d : Decimal) : d.spelling ≠ [] := Nat.toDigits_ne_nil

/-- The digits end with the zeros that are counted. -/
theorem spelling_eq_append (d : Decimal) :
    ∃ front, d.spelling = front ++ List.replicate d.trailingZeros '0' := by
  refine ⟨(d.spelling.reverse.dropWhile (· == '0')).reverse, ?_⟩
  have zeros : d.spelling.reverse.takeWhile (· == '0') = List.replicate d.trailingZeros '0' := by
    rw [List.eq_replicate_iff]
    refine ⟨rfl, fun c mem => ?_⟩
    simpa using List.mem_takeWhile_imp mem
  rw [← List.reverse_replicate, ← List.reverse_append, ← zeros, List.takeWhile_append_dropWhile,
    List.reverse_reverse]

/-- The digits are those that are left, moved up by the zeros that are taken off. -/
theorem strip_digits_mul (d : Decimal) : d.strip.digits * 10 ^ d.trailingZeros = d.digits := by
  obtain ⟨front, eq⟩ := d.spelling_eq_append
  have value := d.ofDigitChars_spelling
  rw [eq, Nat.ofDigitChars_append, Nat.ofDigitChars_replicate_zero] at value
  exact Nat.div_mul_cancel ⟨_, value.symm⟩

theorem strip_round? (d : Decimal) : d.strip.round? = d.round? := by
  have shift := round?_shift d.strip.digits d.trailingZeros d.exponent
  rw [strip_digits_mul] at shift
  exact shift.symm

end Decimal

namespace Magnitude

/-- Nothing is lost in the exact decimal. -/
theorem toDecimal_round? (x : Magnitude) : x.toDecimal.round? = some x := by
  rw [Decimal.round?_eq, ← x.round?_units]
  have num : (-1074 : Int).toNat = 0 := rfl
  have den : (-(-1074) : Int).toNat = 1074 := rfl
  have pos : ∀ k, 0 < 10 ^ k := fun k => Nat.pow_pos (by decide)
  rw [toDecimal, num, den]
  refine round?_congr (pos 1074) Nat.one_pos ?_
  rw [Nat.pow_zero, Nat.mul_one, Nat.mul_one, Nat.mul_assoc, Nat.pow_eq, ← Nat.mul_pow]

/-- A neighbour on a grid is given only if it rounds to the magnitude. -/
theorem nearest?_round? {x : Magnitude} {dropped : Nat} {d : Decimal}
    (h : x.nearest? dropped = some d) : d.round? = some x := by
  simp only [nearest?] at h
  split at h
  · rename_i below
    split at h
    · rename_i above
      cases h
      exact above.1
    · cases h
      exact below
  · split at h
    · rename_i above
      cases h
      exact above
    · cases h

/-- The shortest decimal of a magnitude rounds to it. -/
theorem shortest_round? (x : Magnitude) : x.shortest.round? = some x := by
  rw [shortest, Decimal.strip_round?]
  cases found : (List.range 17).findSome? fun n =>
      x.nearest? (x.toDecimal.spelling.length - (n + 1)) with
  | none => exact x.toDecimal_round?
  | some d =>
    obtain ⟨n, -, near⟩ := List.exists_of_findSome?_eq_some found
    exact nearest?_round? near

end Magnitude

end DataBinding
