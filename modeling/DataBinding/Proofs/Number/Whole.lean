import DataBinding.Proofs.Number.Integer
import DataBinding.Proofs.Number.Order
import DataBinding.Proofs.Number.Text

/-!
# Whole numbers as they are written

A natural number below `2 ^ 53` is written with its own digits, since no shorter decimal rounds to
it: the decimals that drop places are natural numbers too, and no other natural number rounds to it.
From `2 ^ 53` on a natural number may be written with the digits of another one, but rounding does
not lead back below `2 ^ 53`.

## Main results

* `Magnitude.eq_of_round?_whole` — no other natural number rounds to one below `2 ^ 53`
* `Magnitude.nearest?_whole` — all candidates for the text of a natural number are exact
* `Number.chars_eq_toDigits` — a natural number below `2 ^ 53` is written with its digits
* `Number.eq_of_chars_eq_toDigits` — its digits are the text of no other natural number
-/

namespace DataBinding

/-- A number is known from what it is shifted to. -/
theorem eq_of_shiftLeft_eq {n m k : Nat} (h : n <<< k = m <<< k) : n = m := by
  rw [Nat.shiftLeft_eq, Nat.shiftLeft_eq] at h
  exact Nat.eq_of_mul_eq_mul_right (Nat.two_pow_pos k) h

namespace Magnitude

/-- A natural number below `2 ^ 53` is not changed by rounding. -/
theorem units_of_round?_whole {n : Nat} {x : Magnitude} (small : n < 2 ^ 53)
    (h : round? (n <<< 1074) 1 = some x) : x.units = n <<< 1074 := by
  obtain ⟨y, units⟩ := exists_units_eq small
  have exact := y.round?_units
  rw [units, h] at exact
  cases exact
  exact units

/-- The number `2 ^ 53`. -/
def twoPow53 : Magnitude := ⟨1 <<< 52, 1075, by decide, by decide, .inr (Nat.le_refl _)⟩

theorem units_twoPow53 : twoPow53.units = 2 ^ 53 * 2 ^ 1074 := by decide +kernel

/-- No natural number but itself rounds to a natural number below `2 ^ 53`. -/
theorem eq_of_round?_whole {n m : Nat} {x : Magnitude} (units : x.units = n <<< 1074)
    (small : n < 2 ^ 53) (h : round? (m <<< 1074) 1 = some x) : m = n := by
  by_cases low : m < 2 ^ 53
  · exact eq_of_shiftLeft_eq ((units_of_round?_whole low h).symm.trans units)
  · -- What is not below `2 ^ 53`, which is a magnitude, is not rounded to less.
    have bound : twoPow53.units * 1 ≤ m <<< 1074 * 1 := by
      rw [Nat.mul_one, Nat.mul_one, units_twoPow53, Nat.shiftLeft_eq]
      exact Nat.mul_le_mul_right _ (Nat.not_lt.1 low)
    have above := units_le_of_round? Nat.one_pos Nat.one_pos bound twoPow53.round?_units h
    rw [units, units_twoPow53, Nat.shiftLeft_eq] at above
    exact absurd (Nat.le_of_mul_le_mul_right above (Nat.two_pow_pos 1074)) (Nat.not_le.2 small)

end Magnitude

namespace Decimal

/-- A decimal without places after the point is rounded as a natural number. -/
theorem round?_whole (m k : Nat) :
    (Decimal.mk m k).round? = Magnitude.round? ((m * 10 ^ k) <<< 1074) 1 := by
  have den : (-(k : Int)).toNat = 0 := by omega
  rw [round?_eq, den, Int.toNat_natCast, Nat.shiftLeft_eq, Nat.pow_zero]

/-- The digits of a number times a power of ten end with zeros. -/
theorem toDigits_mul_pow {m : Nat} (pos : 0 < m) (k : Nat) :
    Nat.toDigits 10 (m * 10 ^ k) = Nat.toDigits 10 m ++ List.replicate k '0' := by
  induction k with
  | zero => simp
  | succ k ih =>
    have more : 0 < m * 10 ^ k := Nat.mul_pos pos (Nat.pow_pos (by decide))
    calc Nat.toDigits 10 (m * 10 ^ (k + 1))
        = Nat.toDigits 10 (10 * (m * 10 ^ k) + 0) := by
          rw [Nat.pow_succ, Nat.add_zero, ← Nat.mul_assoc, Nat.mul_comm 10]
      _ = Nat.toDigits 10 (m * 10 ^ k) ++ Nat.toDigits 10 0 :=
          (Nat.toDigits_append_toDigits (by decide) more (by decide)).symm
      _ = Nat.toDigits 10 m ++ List.replicate (k + 1) '0' := by
          rw [ih, Nat.toDigits_zero, List.append_assoc, List.replicate_succ']

theorem trailingZeros_mul_pow {m : Nat} (pos : 0 < m) (k : Nat) (e e' : Int) :
    (Decimal.mk (m * 10 ^ k) e).trailingZeros = k + (Decimal.mk m e').trailingZeros := by
  rw [trailingZeros, trailingZeros, spelling, spelling, toDigits_mul_pow pos,
    List.reverse_append, List.reverse_replicate, List.takeWhile_append_of_pos (by simp),
    List.length_append, List.length_replicate]

/-- Zeros moved from the digits into the exponent come off all the same. -/
theorem strip_mul_pow {m : Nat} (pos : 0 < m) (k : Nat) (e : Int) :
    (Decimal.mk (m * 10 ^ k) e).strip = (Decimal.mk m (e + k)).strip := by
  have zeros := trailingZeros_mul_pow pos k e (e + k)
  rw [strip, strip, zeros]
  simp only [mk.injEq, Nat.pow_eq, Nat.pow_add]
  refine ⟨?_, by omega⟩
  rw [Nat.mul_comm m, Nat.mul_div_mul_left _ _ (Nat.pow_pos (by decide))]

/-- A natural number whose zeros at the end have been taken off is written with all its digits, if
there are not too many of them. -/
theorem chars_strip_whole {n : Nat} (pos : 0 < n) (small : n < 10 ^ 21) :
    (Decimal.mk n 0).strip.chars = Nat.toDigits 10 n := by
  generalize eq : (Decimal.mk n 0).strip = d
  have value : d.digits * 10 ^ (Decimal.mk n 0).trailingZeros = n :=
    eq ▸ (Decimal.mk n 0).strip_digits_mul
  have exponent : d.exponent = (Decimal.mk n 0).trailingZeros := by
    rw [← eq, strip, Int.zero_add]
  generalize (Decimal.mk n 0).trailingZeros = k at value exponent
  have some : 0 < d.digits := by
    refine Nat.pos_of_ne_zero fun zero => ?_
    rw [zero, Nat.zero_mul] at value
    omega
  have digits : Nat.toDigits 10 n = d.spelling ++ List.replicate k '0' := by
    rw [spelling, ← toDigits_mul_pow some, value]
  have length : d.spelling.length + k ≤ 21 := by
    have bound := (Nat.length_toDigits_le_iff (b := 10) (by decide) (by decide)).2 small
    rwa [digits, List.length_append, List.length_replicate] at bound
  have first := List.length_pos_iff.2 d.spelling_ne_nil
  have range : -6 ≤ d.leading ∧ d.leading < 21 := by
    rw [leading, exponent]
    omega
  have whole : 0 ≤ d.exponent := by omega
  rw [chars, if_pos range, positional, if_pos whole, digits, exponent, Int.toNat_natCast]

end Decimal

namespace Magnitude

variable {x : Magnitude} {n : Nat}

/-- The exact decimal of a natural number. -/
theorem toDecimal_whole (units : x.units = n <<< 1074) :
    x.toDecimal = ⟨n * 10 ^ 1074, -1074⟩ := by
  rw [toDecimal, units, Nat.shiftLeft_eq, Nat.pow_eq, Nat.mul_assoc, ← Nat.mul_pow]

theorem nearest?_exponent {dropped : Nat} {d : Decimal} (h : x.nearest? dropped = some d) :
    d.exponent = -1074 + dropped := by
  simp only [nearest?] at h
  split at h
  · split at h <;> cases h <;> rfl
  · split at h <;> cases h
    rfl

/-- On a grid that is fine enough for the exact decimal, it is the candidate itself. -/
theorem nearest?_of_dvd {dropped : Nat} (dvd : 10 ^ dropped ∣ x.toDecimal.digits) :
    x.nearest? dropped = some ⟨x.toDecimal.digits / 10 ^ dropped, -1074 + dropped⟩ := by
  have below : (Decimal.mk (x.toDecimal.digits / 10 ^ dropped) (-1074 + dropped)).round? = some x := by
    rw [← Decimal.round?_shift, Nat.div_mul_cancel dvd]
    exact x.toDecimal_round?
  have pos : 0 < 10 ^ dropped := Nat.pow_pos (by decide)
  have left : x.toDecimal.digits % 10 ^ dropped = 0 := Nat.mod_eq_zero_of_dvd dvd
  have exponent : x.toDecimal.exponent = -1074 := rfl
  simp only [nearest?, Nat.pow_eq, exponent, left]
  rw [if_pos below, if_neg fun above => by omega]

/-- A candidate for the text of a natural number below `2 ^ 53` has the value of the number. -/
theorem nearest?_whole (units : x.units = n <<< 1074) (small : n < 2 ^ 53) {dropped : Nat}
    {d : Decimal} (h : x.nearest? dropped = some d) :
    d.digits * 10 ^ dropped = x.toDecimal.digits := by
  rcases Nat.le_total dropped 1074 with fine | coarse
  · have dvd : 10 ^ dropped ∣ x.toDecimal.digits := by
      rw [toDecimal_whole units]
      exact Nat.dvd_mul_left_of_dvd (Nat.pow_dvd_pow 10 fine) n
    rw [nearest?_of_dvd dvd] at h
    cases h
    exact Nat.div_mul_cancel dvd
  · -- What drops places in front of the point is a natural number, and rounds to this one.
    obtain ⟨k, rfl⟩ := Nat.exists_eq_add_of_le coarse
    have exponent : d.exponent = k := by
      rw [nearest?_exponent h]
      omega
    have rounds := nearest?_round? h
    rw [show d = ⟨d.digits, k⟩ from exponent ▸ rfl, Decimal.round?_whole] at rounds
    rw [toDecimal_whole units, Nat.add_comm, Nat.pow_add, ← Nat.mul_assoc,
      eq_of_round?_whole units small rounds]

/-- The shortest decimal of a natural number below `2 ^ 53` is the number without its zeros at the
end. -/
theorem shortest_whole (units : x.units = n <<< 1074) (small : n < 2 ^ 53) (pos : 0 < n) :
    x.shortest = (Decimal.mk n 0).strip := by
  have exact : x.toDecimal.strip = (Decimal.mk n 0).strip := by
    rw [toDecimal_whole units, Decimal.strip_mul_pow pos]
    rfl
  rw [shortest]
  cases found : (List.range 17).findSome? fun i =>
      x.nearest? (x.toDecimal.spelling.length - (i + 1)) with
  | none => exact exact
  | some d =>
    obtain ⟨i, -, near⟩ := List.exists_of_findSome?_eq_some found
    generalize x.toDecimal.spelling.length - (i + 1) = dropped at near
    have digits := nearest?_whole units small near
    have some : 0 < d.digits := by
      refine Nat.pos_of_ne_zero fun zero => ?_
      rw [zero, Nat.zero_mul, toDecimal_whole units] at digits
      exact absurd digits.symm (Nat.ne_of_gt (Nat.mul_pos pos (Nat.pow_pos (by decide))))
    have same : x.toDecimal = ⟨d.digits * 10 ^ dropped, -1074⟩ := by
      rw [digits]
      rfl
    rw [Option.getD_some, ← exact, same, Decimal.strip_mul_pow some, ← nearest?_exponent near]

end Magnitude

namespace Number

/-- A number that is a natural number has its value; only zero may have a sign. -/
theorem toNat?_eq_some {v : Number} {n : Nat} (h : v.toNat? = some n) :
    ∃ negative x, v = finite negative x ∧ x.units = n <<< 1074 ∧
      (negative = true → x.significand = 0) := by
  cases v with
  | nan => cases h
  | infinity negative => cases h
  | finite negative x =>
    simp only [toNat?] at h
    split at h
    · cases h
    rename_i sign
    split at h
    · rename_i whole
      have value : x.units >>> 1074 = n := Option.some.inj h
      refine ⟨negative, x, rfl, ?_, fun minus => by simpa [minus] using sign⟩
      rw [Nat.one_shiftLeft] at whole
      rw [← value, Nat.shiftLeft_eq, Nat.shiftRight_eq_div_pow,
        Nat.div_mul_cancel (Nat.dvd_of_mod_eq_zero whole)]
    · cases h

/-- A natural number below `2 ^ 53` is written with its digits. -/
theorem chars_eq_toDigits {v : Number} {n : Nat} (h : v.toNat? = some n) (small : n < 2 ^ 53) :
    v.chars = Nat.toDigits 10 n := by
  obtain ⟨negative, x, rfl, units, sign⟩ := toNat?_eq_some h
  have unit := Nat.two_pow_pos 1074
  by_cases zero : x.significand = 0
  · rw [Magnitude.units_eq, zero, Nat.zero_mul, Nat.shiftLeft_eq] at units
    have none : n = 0 := (Nat.mul_eq_zero.1 units.symm).resolve_right (Nat.ne_of_gt unit)
    rw [chars, if_pos zero, none, Nat.toDigits_zero]
  · have plus : negative = false := Bool.eq_false_iff.2 fun minus => zero (sign minus)
    have pos : 0 < n := by
      refine Nat.pos_of_ne_zero fun none => ?_
      rw [none, Nat.zero_shiftLeft, Magnitude.units_eq, Nat.mul_eq_zero] at units
      exact units.elim zero (Nat.ne_of_gt (Nat.two_pow_pos _))
    rw [chars, if_neg zero, plus, x.shortest_whole units small pos,
      Decimal.chars_strip_whole pos (Nat.lt_trans small (by decide))]
    rfl

/-- The text of a natural number denotes its magnitude. -/
theorem exists_ofNumeral?_chars {v : Number} {n : Nat} (h : v.toNat? = some n) :
    ∃ x : Magnitude, ofNumeral? v.chars = some (finite false x) ∧ x.units = n <<< 1074 := by
  obtain ⟨negative, x, rfl, units, sign⟩ := toNat?_eq_some h
  refine ⟨x, ?_, units⟩
  cases negative with
  | false => exact ofNumeral?_chars x
  | true =>
    -- A negative zero is written like the other one.
    rw [← ofNumeral?_chars x, chars, chars, if_pos (sign rfl), if_pos (sign rfl)]

/-- Digits denote the natural number that they spell, rounded. -/
theorem ofNumeral?_toDigits (n : Nat) :
    ofNumeral? (Nat.toDigits 10 n) =
      some (ofMagnitude? false (Magnitude.round? (n <<< 1074) 1)) := by
  have numeral := Decimal.Numeral.whole Nat.toDigits_ne_nil (Decimal.digits_toDigits n) .none
  have round := Decimal.round?_whole n 0
  rw [List.append_nil, Nat.ofDigitChars_ten_toDigits] at numeral
  rw [Nat.pow_zero, Nat.mul_one] at round
  rw [numeral.number, ← round]
  rfl

/-- The digits of a natural number below `2 ^ 53` are the text of no other natural number. -/
theorem eq_of_chars_eq_toDigits {v : Number} {n m : Nat} (h : v.toNat? = some n)
    (text : v.chars = Nat.toDigits 10 m) (small : m < 2 ^ 53) : n = m := by
  obtain ⟨x, read, units⟩ := exists_ofNumeral?_chars h
  rw [text, ofNumeral?_toDigits] at read
  cases round : Magnitude.round? (m <<< 1074) 1 with
  | none =>
    rw [round] at read
    cases read
  | some y =>
    rw [round] at read
    cases read
    exact eq_of_shiftLeft_eq (units.symm.trans (Magnitude.units_of_round?_whole small round))

end Number

end DataBinding
