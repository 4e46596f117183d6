import DataBinding.Proofs.Number.Value
import DataBinding.Proofs.Number.Whole

/-!
# The fewest digits

The text of a magnitude is found by trying out the two neighbours of the magnitude on one grid after
the other, from one digit up to 17. No decimal with as many digits lies between the neighbours, and
rounding keeps order, so that a grid on which neither of them rounds to the magnitude has no decimal
that does; and where there are several, one of the neighbours is the nearest of them. On the grid of
17 digits there always is one, since it is finer than the magnitudes are.

## Main definitions

* `Magnitude.below`, `Magnitude.above` — the two neighbours on a grid
* `Magnitude.Prefers` — a decimal is nearer than another, or as near and not below it

## Main results

* `Magnitude.nearest?_spec` — the neighbour that is chosen is preferred to all decimals of a grid
* `Magnitude.exists_nearest?_of_pow_le` — 17 digits are enough
* `Magnitude.shortest_fewest` — the shortest decimal has the fewest digits, and is the nearest
-/

namespace DataBinding

variable {x : Magnitude} {dropped n : ℕ} {d d' : Decimal}

namespace Magnitude

/-! ### The two neighbours on a grid -/

/-- The largest decimal that is not above the magnitude, with nothing in the last places. -/
def below (x : Magnitude) (dropped : ℕ) : Decimal :=
  ⟨x.toDecimal.digits / 10 ^ dropped, -1074 + dropped⟩

/-- The decimal one step further up. -/
def above (x : Magnitude) (dropped : ℕ) : Decimal :=
  ⟨x.toDecimal.digits / 10 ^ dropped + 1, -1074 + dropped⟩

theorem nearest?_eq (x : Magnitude) (dropped : ℕ) :
    x.nearest? dropped =
      if (x.below dropped).round? = some x then
        if (x.above dropped).round? = some x ∧
            10 ^ dropped ≤ 2 * (x.toDecimal.digits % 10 ^ dropped) then some (x.above dropped)
        else some (x.below dropped)
      else if (x.above dropped).round? = some x then some (x.above dropped)
      else none := rfl

/-- The digits that are dropped are the distance to the neighbour below. -/
theorem value_below_add (x : Magnitude) (dropped : ℕ) :
    (x.below dropped).value + (x.toDecimal.digits % 10 ^ dropped : ℕ) * 10 ^ (-1074 : ℤ) =
      x.value := by
  have split := Nat.div_add_mod' x.toDecimal.digits (10 ^ dropped)
  rw [below, ← Decimal.value_shift, ← value_toDecimal, Decimal.value, Decimal.value, ← add_mul,
    ← Nat.cast_add, split]
  rfl

/-- The neighbours are a step of the grid apart. -/
theorem value_above (x : Magnitude) (dropped : ℕ) :
    (x.above dropped).value =
      (x.below dropped).value + (10 ^ dropped : ℕ) * 10 ^ (-1074 : ℤ) := by
  rw [above, below, ← Decimal.value_shift, ← Decimal.value_shift, Decimal.value, Decimal.value,
    ← add_mul, ← Nat.cast_add, Nat.add_mul, Nat.one_mul]

theorem value_below_le (x : Magnitude) (dropped : ℕ) : (x.below dropped).value ≤ x.value := by
  rw [← value_below_add x dropped, le_add_iff_nonneg_right]
  positivity

theorem value_lt_above (x : Magnitude) (dropped : ℕ) : x.value < (x.above dropped).value := by
  have rest := Nat.mod_lt x.toDecimal.digits (Nat.pow_pos (n := dropped) (by decide : 0 < 10))
  rw [value_above, ← value_below_add x dropped, add_lt_add_iff_left,
    mul_lt_mul_iff_left₀ (Decimal.ten_zpow_pos _), Nat.cast_lt]
  exact rest

/-- The first decimal is nearer to the magnitude than the other one, or is as near and not below
it. -/
def Prefers (x : Magnitude) (d d' : Decimal) : Prop :=
  |x.value - d.value| < |x.value - d'.value| ∨
    |x.value - d.value| = |x.value - d'.value| ∧ d'.value ≤ d.value

theorem Prefers.trans {d'' : Decimal} (h : x.Prefers d d') (h' : x.Prefers d' d'') :
    x.Prefers d d'' := by
  rcases h with lt | ⟨eq, le⟩ <;> rcases h' with lt' | ⟨eq', le'⟩
  · exact .inl (lt.trans lt')
  · exact .inl (eq' ▸ lt)
  · exact .inl (eq ▸ lt')
  · exact .inr ⟨eq.trans eq', le'.trans le⟩

theorem prefers_of_le_value (le : d'.value ≤ d.value) (value : d.value ≤ x.value) :
    x.Prefers d d' := by
  rw [Prefers, abs_of_nonneg (sub_nonneg.2 value), abs_of_nonneg (sub_nonneg.2 (le.trans value))]
  rcases le.lt_or_eq with lt | eq
  · exact .inl (sub_lt_sub_left lt _)
  · exact .inr ⟨by rw [eq], le⟩

theorem prefers_of_value_le (le : d.value ≤ d'.value) (value : x.value ≤ d.value) :
    x.Prefers d d' := by
  rw [Prefers, abs_of_nonpos (sub_nonpos.2 value), abs_of_nonpos (sub_nonpos.2 (value.trans le))]
  rcases le.lt_or_eq with lt | eq
  · exact .inl (by linarith)
  · exact .inr ⟨by rw [eq], eq.ge⟩

/-- It is decided by the digits that are dropped which neighbour is nearer. -/
theorem half_le_iff (x : Magnitude) (dropped : ℕ) :
    10 ^ dropped ≤ 2 * (x.toDecimal.digits % 10 ^ dropped) ↔
      (x.above dropped).value - x.value ≤ x.value - (x.below dropped).value := by
  rw [value_above, ← value_below_add x dropped, ← @Nat.cast_le ℚ,
    ← mul_le_mul_iff_left₀ (Decimal.ten_zpow_pos (-1074))]
  generalize (10 : ℚ) ^ (-1074 : ℤ) = unit
  push_cast
  constructor <;> intro h <;> linarith

theorem prefers_above (half : 10 ^ dropped ≤ 2 * (x.toDecimal.digits % 10 ^ dropped)) :
    x.Prefers (x.above dropped) (x.below dropped) := by
  have low := x.value_below_le dropped
  have high := x.value_lt_above dropped
  have nearer := (x.half_le_iff dropped).1 half
  rw [Prefers, abs_of_nonpos (sub_nonpos.2 high.le), abs_of_nonneg (sub_nonneg.2 low), neg_sub]
  exact nearer.lt_or_eq.imp_right fun eq => ⟨eq, (low.trans high.le)⟩

theorem prefers_below (half : ¬10 ^ dropped ≤ 2 * (x.toDecimal.digits % 10 ^ dropped)) :
    x.Prefers (x.below dropped) (x.above dropped) := by
  have low := x.value_below_le dropped
  have high := x.value_lt_above dropped
  have nearer := not_le.1 (mt (x.half_le_iff dropped).2 half)
  rw [Prefers, abs_of_nonpos (sub_nonpos.2 high.le), abs_of_nonneg (sub_nonneg.2 low), neg_sub]
  exact .inl nearer

/-- If a decimal rounds to the magnitude, and the neighbours have as many digits, then one of them
rounds to it too and is preferred. -/
theorem nearest?_spec (leading : 10 ^ n ≤ x.toDecimal.digits / 10 ^ dropped)
    (h : d.round? = some x) (digits : d.digits < 10 ^ (n + 1)) :
    ∃ d', x.nearest? dropped = some d' ∧ x.Prefers d' d := by
  have exact := x.toDecimal_round?
  have low := x.value_below_le dropped
  have high := (x.value_lt_above dropped).le
  rw [nearest?_eq]
  rcases Decimal.value_le_or_le leading digits with le | le
  · have reads : (x.below dropped).round? = some x :=
      Decimal.round?_between le (by rwa [value_toDecimal]) h exact
    have prefers : x.Prefers (x.below dropped) d := prefers_of_le_value le low
    rw [if_pos reads]
    split
    · rename_i nearer
      exact ⟨_, rfl, (prefers_above nearer.2).trans prefers⟩
    · exact ⟨_, rfl, prefers⟩
  · have reads : (x.above dropped).round? = some x :=
      Decimal.round?_between (by rwa [value_toDecimal]) le exact h
    have prefers : x.Prefers (x.above dropped) d := prefers_of_value_le le high
    by_cases both : (x.below dropped).round? = some x
    · rw [if_pos both]
      split
      · exact ⟨_, rfl, prefers⟩
      · rename_i farther
        exact ⟨_, rfl, (prefers_below fun half => farther ⟨reads, half⟩).trans prefers⟩
    · rw [if_neg both, if_pos reads]
      exact ⟨_, rfl, prefers⟩

/-! ### Seventeen digits are enough -/

theorem digits_toDecimal_pos (some : x.significand ≠ 0) : 5 ^ 1074 ≤ x.toDecimal.digits := by
  have pos : 0 < x.units := by
    rw [units_eq]
    exact Nat.mul_pos (Nat.pos_of_ne_zero some) (Nat.two_pow_pos _)
  exact Nat.le_mul_of_pos_left _ pos

theorem digits_toDecimal_ne_zero (some : x.significand ≠ 0) : x.toDecimal.digits ≠ 0 :=
  Nat.ne_of_gt (Nat.lt_of_lt_of_le (Nat.pow_pos (by decide)) (digits_toDecimal_pos some))

/-- The exact decimal has more digits than any candidate. -/
theorem lt_length_spelling_toDecimal (some : x.significand ≠ 0) :
    17 < x.toDecimal.spelling.length := by
  have many : 10 ^ 17 ≤ 5 ^ 1074 := by decide +kernel
  exact (Decimal.pow_le_digits_iff (digits_toDecimal_ne_zero some)).1
    (Nat.le_trans many (digits_toDecimal_pos some))

/-- How far the next magnitude is, in places of the exact decimal. -/
def step (x : Magnitude) : ℕ := 2 ^ x.shift * 5 ^ 1074

theorem digits_toDecimal (x : Magnitude) : x.toDecimal.digits = x.significand * x.step := by
  rw [step, ← Nat.mul_assoc, ← units_eq]
  rfl

/-- What is less than half a step away rounds to the magnitude, said of decimals with the places of
the exact one. -/
theorem round?_of_near_digits (upper : 2 * n < 2 * x.toDecimal.digits + x.step)
    (lower : 2 * x.toDecimal.digits < 2 * n + x.step)
    (leading : x.shift = 0 ∨ 2 ^ 52 * x.step ≤ n) :
    (Decimal.mk n (-1074)).round? = some x := by
  have pos : ∀ k, 0 < 10 ^ k := fun k => Nat.pow_pos (by decide)
  have num : (-1074 : ℤ).toNat = 0 := rfl
  have den : (-(-1074) : ℤ).toNat = 1074 := rfl
  have near : round? n (5 ^ 1074) = some x := round?_of_near upper lower leading
  rw [← near, Decimal.round?_eq, num, den]
  refine round?_congr (pos 1074) (Nat.pow_pos (by decide)) ?_
  rw [Nat.pow_zero, Nat.mul_one, Nat.mul_assoc, ← Nat.mul_pow]

theorem round?_below (near : 2 * (x.toDecimal.digits % 10 ^ dropped) < x.step)
    (leading : x.shift = 0 ∨ 2 ^ 52 < x.significand) : (x.below dropped).round? = some x := by
  have split := Nat.div_add_mod' x.toDecimal.digits (10 ^ dropped)
  rw [below, ← Decimal.round?_shift]
  refine round?_of_near_digits (by omega) (by omega) (leading.imp_right fun more => ?_)
  have above := Nat.mul_le_mul_right x.step (Nat.succ_le_of_lt more)
  rw [← digits_toDecimal] at above
  omega

theorem round?_above (near : 2 * (10 ^ dropped - x.toDecimal.digits % 10 ^ dropped) < x.step) :
    (x.above dropped).round? = some x := by
  have split := Nat.div_add_mod' x.toDecimal.digits (10 ^ dropped)
  have rest := Nat.mod_lt x.toDecimal.digits (Nat.pow_pos (n := dropped) (by decide : 0 < 10))
  rw [above, ← Decimal.round?_shift, Nat.add_mul, Nat.one_mul]
  refine round?_of_near_digits (by omega) (by omega) (x.normal.imp_right fun normal => ?_)
  have leading := Nat.mul_le_mul_right x.step normal
  rw [← digits_toDecimal] at leading
  omega

/-- One of the neighbours with 17 digits rounds to the magnitude: they are less than a step of the
magnitudes apart, so that one of them is less than half a step away. -/
theorem exists_nearest?_of_pow_le (leading : 10 ^ 16 ≤ x.toDecimal.digits / 10 ^ dropped) :
    ∃ d, x.nearest? dropped = some d := by
  have lt := x.significand_lt
  have grid : 10 ^ 16 * 10 ^ dropped ≤ x.significand * x.step := by
    rw [← digits_toDecimal]
    exact (Nat.le_div_iff_mul_le (Nat.pow_pos (by decide))).1 leading
  have below_or_above : (x.below dropped).round? = some x ∨ (x.above dropped).round? = some x := by
    by_cases edge : x.significand = 2 ^ 52
    · -- Below a power of two the steps are half as long, but the other neighbour is near enough.
      rw [edge] at grid
      exact .inr (round?_above (by omega))
    · have most := Nat.mul_le_mul_right x.step (show x.significand ≤ 2 ^ 53 - 1 by omega)
      by_cases half : 2 * (x.toDecimal.digits % 10 ^ dropped) < 10 ^ dropped
      · exact .inl (round?_below (by omega) (by have := x.normal; omega))
      · exact .inr (round?_above (by omega))
  rw [nearest?_eq]
  split
  · split <;> exact ⟨_, rfl⟩
  · rename_i none
    rw [if_pos (below_or_above.resolve_left none)]
    exact ⟨_, rfl⟩

end Magnitude

/-! ### The shortest decimal -/

namespace Decimal

theorem value_strip (d : Decimal) : d.strip.value = d.value := by
  have value := value_shift d.strip.digits d.trailingZeros d.exponent
  rw [strip_digits_mul] at value
  exact value.symm

/-- Without zeros at the end, a power of ten has a single digit. -/
theorem length_strip_le {d : Decimal} {n : ℕ} (h : d.digits ≤ 10 ^ (n + 1)) :
    d.strip.spelling.length ≤ n + 1 := by
  rcases Nat.lt_or_eq_of_le h with lt | eq
  · exact length_le_iff.2 (Nat.lt_of_le_of_lt (Nat.div_le_self _ _) lt)
  · have power : d = ⟨1 * 10 ^ (n + 1), d.exponent⟩ := by rw [Nat.one_mul, ← eq]
    rw [power, strip_mul_pow Nat.one_pos]
    have one : (mk 1 (d.exponent + (n + 1 : ℕ))).strip.digits < 10 ^ 1 :=
      Nat.lt_of_le_of_lt (Nat.div_le_self _ _) (by decide : 1 < 10 ^ 1)
    exact Nat.le_trans (length_le_iff.2 one) (by omega)

end Decimal

namespace Magnitude

/-- The shortest decimal is found on a grid that is not finer than any on which there is one. -/
theorem exists_shortest_eq (lt : n < 17)
    (found : x.nearest? (x.toDecimal.spelling.length - (n + 1)) = some d) :
    ∃ m ≤ n, ∃ d', x.nearest? (x.toDecimal.spelling.length - (m + 1)) = some d' ∧
      x.shortest = d'.strip := by
  have some : ((List.range 17).findSome? fun m =>
      x.nearest? (x.toDecimal.spelling.length - (m + 1))).isSome = true :=
    List.findSome?_isSome_iff.2 ⟨n, List.mem_range.2 lt, by rw [found]; rfl⟩
  obtain ⟨d', first⟩ := Option.isSome_iff_exists.1 some
  obtain ⟨front, m, back, split, near, passed⟩ := List.findSome?_eq_some_iff.1 first
  refine ⟨m, Nat.not_lt.1 fun less => ?_, d', near, ?_⟩
  · -- Otherwise the grid would have been passed, with nothing found on it.
    have sorted := split ▸ List.pairwise_lt_range (n := 17)
    have mem : n ∈ front := by
      have member := split ▸ List.mem_range.2 lt
      rcases List.mem_append.1 member with mem | mem
      · exact mem
      · have later := List.pairwise_cons.1 (List.pairwise_append.1 sorted).2.1
        rcases List.mem_cons.1 mem with rfl | mem
        · exact absurd less (Nat.lt_irrefl _)
        · exact absurd (later.1 n mem) (Nat.lt_asymm less)
    rw [passed n mem] at found
    cases found
  · simp only [shortest, first, Option.getD_some]

theorem digits_nearest?_le (near : x.nearest? dropped = some d) :
    d.digits ≤ x.toDecimal.digits / 10 ^ dropped + 1 := by
  rw [nearest?_eq] at near
  split at near
  · split at near <;> cases near
    · exact Nat.le_refl _
    · exact Nat.le_succ _
  · split at near <;> cases near
    exact Nat.le_refl _

/-- Neighbours are tried with not more digits than any decimal has that rounds to the magnitude. -/
theorem exists_nearest? (some : x.significand ≠ 0) (h : d.round? = .some x) :
    ∃ n < 17, n < d.spelling.length ∧
      ∃ d', x.nearest? (x.toDecimal.spelling.length - (n + 1)) = .some d' := by
  have leading := fun n (lt : n < 17) =>
    (x.toDecimal.div_pow_digits (digits_toDecimal_ne_zero some)
      (Nat.lt_trans lt (lt_length_spelling_toDecimal some))).1
  have length := List.length_pos_iff.2 d.spelling_ne_nil
  rcases Nat.lt_or_ge 17 d.spelling.length with long | short
  · exact ⟨16, by decide, by omega, exists_nearest?_of_pow_le (leading 16 (by decide))⟩
  · obtain ⟨n, eq⟩ := Nat.exists_eq_add_of_lt length
    have lt : n < 17 := by omega
    have digits : d.digits < 10 ^ (n + 1) := Decimal.length_le_iff.1 (by omega)
    obtain ⟨d', near, -⟩ := nearest?_spec (leading n lt) h digits
    exact ⟨n, lt, by omega, d', near⟩

/-- No decimal that rounds to the magnitude has fewer digits than the shortest one. Of those with as
many, the shortest one is the nearest, and the larger of two that are as near. -/
theorem shortest_fewest (some : x.significand ≠ 0) (h : d.round? = .some x) :
    x.shortest.spelling.length ≤ d.spelling.length ∧
      (d.spelling.length = x.shortest.spelling.length → x.Prefers x.shortest d) := by
  obtain ⟨n, lt, fits, _, found⟩ := exists_nearest? some h
  obtain ⟨m, le, d', near, shortest⟩ := exists_shortest_eq lt found
  obtain ⟨leading, bound⟩ := x.toDecimal.div_pow_digits (n := m) (digits_toDecimal_ne_zero some)
    (Nat.lt_trans (Nat.lt_of_le_of_lt le lt) (lt_length_spelling_toDecimal some))
  have length : x.shortest.spelling.length ≤ m + 1 := by
    rw [shortest]
    exact Decimal.length_strip_le (Nat.le_trans (digits_nearest?_le near) bound)
  refine ⟨by omega, fun same => ?_⟩
  -- A decimal with as many digits is compared with the neighbours on the same grid.
  have digits : d.digits < 10 ^ (m + 1) := Decimal.length_le_iff.1 (by omega)
  obtain ⟨d'', near', prefers⟩ := nearest?_spec leading h digits
  rw [near] at near'
  cases near'
  rw [shortest, Prefers, Decimal.value_strip]
  exact prefers

end Magnitude

end DataBinding
