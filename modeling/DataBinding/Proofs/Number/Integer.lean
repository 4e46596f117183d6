import DataBinding.Proofs.Number.Rounding

/-!
# Natural numbers as numbers

A natural number below `2 ^ 53` is a number without rounding, and can be told from the number again.

## Main results

* `Magnitude.exists_units_eq` — the magnitude of a natural number
* `Number.ofInt_natCast` — the number of a natural number
* `Number.toNat?_ofInt` — a natural number and its number stand for each other
-/

namespace DataBinding

namespace Magnitude

/-- A natural number below `2 ^ 53` is a magnitude: its bits are moved up until they fill the
significand. -/
theorem exists_units_eq {n : Nat} (h : n < 2 ^ 53) : ∃ x : Magnitude, x.units = n <<< 1074 := by
  by_cases zero : n = 0
  · exact ⟨.zero, by rw [zero]; rfl⟩
  obtain ⟨low, high⟩ := (Nat.log2_eq_iff zero).1 (rfl : n.log2 = n.log2)
  have bits : n.log2 < 53 := (Nat.log2_lt zero).2 h
  generalize n.log2 = k at low high bits
  have lt : n * 2 ^ (52 - k) < 1 <<< 53 := by
    calc n * 2 ^ (52 - k) < 2 ^ (k + 1) * 2 ^ (52 - k) :=
          Nat.mul_lt_mul_of_pos_right high (Nat.two_pow_pos _)
      _ = 1 <<< 53 := by rw [← Nat.pow_add, Nat.one_shiftLeft]; congr 1; omega
  have normal : 1 <<< 52 ≤ n * 2 ^ (52 - k) := by
    calc 1 <<< 52 = 2 ^ k * 2 ^ (52 - k) := by
          rw [← Nat.pow_add, Nat.one_shiftLeft]; congr 1; omega
      _ ≤ n * 2 ^ (52 - k) := Nat.mul_le_mul_right _ low
  have value : n * 2 ^ (52 - k) * 2 ^ (1022 + k) = n <<< 1074 := by
    rw [Nat.shiftLeft_eq, Nat.mul_assoc, ← Nat.pow_add]
    congr 2
    omega
  exact ⟨⟨n * 2 ^ (52 - k), 1022 + k, lt, by omega, .inr normal⟩, (units_eq _).trans value⟩

end Magnitude

namespace Number

/-- The number of a natural number below `2 ^ 53` has that value. -/
theorem ofInt_natCast {n : Nat} (h : n < 2 ^ 53) :
    ∃ x : Magnitude, ofInt n = finite false x ∧ x.units = n <<< 1074 := by
  obtain ⟨x, units⟩ := Magnitude.exists_units_eq h
  refine ⟨x, ?_, units⟩
  have round := x.round?_units
  rw [units] at round
  rw [ofInt, Int.natAbs_natCast, round]
  simp [ofMagnitude?]

/-- A natural number below `2 ^ 53` is told from its number. -/
theorem toNat?_ofInt {n : Nat} (h : n < 2 ^ 53) : (ofInt n).toNat? = some n := by
  obtain ⟨x, eq, units⟩ := ofInt_natCast h
  have whole : n <<< 1074 % 1 <<< 1074 = 0 := by
    rw [Nat.shiftLeft_eq, Nat.one_shiftLeft, Nat.mul_mod_left]
  rw [eq, toNat?, units, Bool.false_and, if_neg Bool.false_ne_true, if_pos whole,
    Nat.shiftLeft_shiftRight]

/-- A natural number below `2 ^ 53` is an index. -/
theorem toIndex?_ofInt {n : Nat} (h : n < 2 ^ 53) : (ofInt n).toIndex? = some n := by
  have range : n ≤ maxIndex := by
    simp only [maxIndex]
    omega
  rw [toIndex?, toNat?_ofInt h, Option.bind_some, if_pos (Nat.le_succ_of_le range),
    Nat.min_eq_left range]

end Number

end DataBinding
