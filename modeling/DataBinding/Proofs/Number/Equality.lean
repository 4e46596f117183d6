import DataBinding.Number.Text

/-!
# Equality of numbers

Two numbers are equal if they are the same but for the sign of zero, and NaN is not equal to
anything, not even to itself. So each number has a form that all equal numbers share, and everything
that is done with a number is done alike with that form: the guard, the text, the index.

## Main definitions

* `Number.canonical` — the number without the sign of zero

## Main results

* `Number.beq_iff` — equal numbers have the same form and are not NaN
* `Number.canonical_eq_iff` — which numbers have the same form
-/

namespace DataBinding

/-- There is one magnitude whose value is zero. -/
theorem Magnitude.eq_zero {x : Magnitude} (h : x.significand = 0) : x = zero := by
  obtain ⟨significand, shift, lt, le, normal⟩ := x
  subst h
  rcases normal with rfl | high
  · rfl
  · cases high

namespace Number

/-- The number without the sign of zero: `-0` becomes `0`. -/
def canonical : Number → Number
  | finite negative x => if x.significand = 0 then finite false x else finite negative x
  | n => n

theorem isNaN_eq_false_iff {n : Number} : n.isNaN = false ↔ nan ≠ n := by
  cases n <;> simp [isNaN]

/-- Numbers have the same form if they are the same or both zeros. -/
theorem canonical_eq_iff {a b : Number} :
    a.canonical = b.canonical ↔ a = b ∨ a.isZero = true ∧ b.isZero = true := by
  constructor
  · intro h
    cases a with
    | finite s x =>
      cases b with
      | finite t y =>
        by_cases zero : x.significand = 0 <;> by_cases zero' : y.significand = 0 <;>
          simp_all [canonical, isZero]
      | _ => by_cases zero : x.significand = 0 <;> simp [canonical, zero] at h
    | _ =>
      cases b with
      | finite t y => by_cases zero : y.significand = 0 <;> simp [canonical, zero] at h
      | _ => exact .inl h
  · rintro (rfl | ⟨zero, zero'⟩)
    · rfl
    · cases a with
      | finite s x =>
        cases b with
        | finite t y =>
          have left : x = .zero := Magnitude.eq_zero (by simpa [isZero] using zero)
          have right : y = .zero := Magnitude.eq_zero (by simpa [isZero] using zero')
          rw [left, right]
          rfl
        | _ => cases zero'
      | _ => cases zero

/-- Equal numbers have the same form and are not NaN. -/
theorem beq_iff {a b : Number} :
    (a == b) = true ↔ a.canonical = b.canonical ∧ a.isNaN = false := by
  rw [canonical_eq_iff]
  change equal a b = true ↔ _
  cases a with
  | nan => simp [equal, isNaN]
  | infinity s => cases b <;> simp [equal, isNaN, isZero]
  | finite s x =>
    cases b with
    | finite t y =>
      simp only [equal, isNaN, isZero, finite.injEq, Bool.and_eq_true, beq_iff_eq,
        Bool.or_eq_true, and_true]
      constructor
      · rintro ⟨rfl, rfl | zero⟩
        · exact .inl ⟨rfl, rfl⟩
        · exact .inr ⟨zero, zero⟩
      · rintro (⟨rfl, rfl⟩ | ⟨zero, zero'⟩)
        · exact ⟨rfl, .inl rfl⟩
        · exact ⟨(Magnitude.eq_zero zero).trans (Magnitude.eq_zero zero').symm, .inr zero⟩
    | _ => simp [equal, isZero]

@[simp] theorem isNaN_canonical (n : Number) : n.canonical.isNaN = n.isNaN := by
  cases n with
  | finite s x => by_cases zero : x.significand = 0 <;> simp [canonical, isNaN, zero]
  | _ => rfl

@[simp] theorem isZero_canonical (n : Number) : n.canonical.isZero = n.isZero := by
  cases n with
  | finite s x => by_cases zero : x.significand = 0 <;> simp [canonical, isZero, zero]
  | _ => rfl

/-- Both zeros are written without a sign. -/
@[simp] theorem chars_canonical (n : Number) : n.canonical.chars = n.chars := by
  cases n with
  | finite s x => by_cases zero : x.significand = 0 <;> simp [canonical, chars, zero]
  | _ => rfl

@[simp] theorem text_canonical (n : Number) : n.canonical.text = n.text :=
  congrArg String.ofList n.chars_canonical

/-- Both zeros are the index `0`. -/
@[simp] theorem toIndex?_canonical (n : Number) : n.canonical.toIndex? = n.toIndex? := by
  have natural : n.canonical.toNat? = n.toNat? := by
    cases n with
    | finite s x => by_cases zero : x.significand = 0 <;> simp [canonical, toNat?, zero]
    | _ => rfl
  rw [toIndex?, toIndex?, natural]

/-- A natural number has no sign to be dropped. -/
theorem canonical_ofInt_natCast (n : Nat) : (ofInt n).canonical = ofInt n := by
  have sign : decide ((n : Int) < 0) = false := by simp
  rw [ofInt, sign]
  cases Magnitude.round? _ 1 with
  | none => rfl
  | some x => by_cases zero : x.significand = 0 <;> simp [ofMagnitude?, canonical, zero]

end Number

end DataBinding
