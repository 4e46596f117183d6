import DataBinding.Number.Decimal
import Mathlib.Data.List.TakeWhile

/-!
# Numerals

The texts that denote a decimal are digits with at most one point among or around them, and an
optional exponent behind them. They are described here without a reader, and the reader accepts
them and no others.

## Main definitions

* `Decimal.Exponent` — the texts of exponents
* `Decimal.Numeral` — the texts of decimals

## Main results

* `Decimal.ofNumeral?_eq_some_iff` — the reader of numerals accepts these texts
* `Decimal.Numeral.start`, `Decimal.Numeral.count_dot` — how they begin, and that there is one point
-/

namespace DataBinding

namespace Decimal

/-- The text has digits only. -/
def Digits (cs : List Char) : Prop := ∀ c ∈ cs, c.isDigit = true

/-- The text has no digit in front. -/
def DigitFree (cs : List Char) : Prop := ∀ c rest, cs = c :: rest → c.isDigit = false

theorem Digits.append {cs ds : List Char} (hc : Digits cs) (hd : Digits ds) : Digits (cs ++ ds) :=
  fun c mem => (List.mem_append.1 mem).elim (hc c) (hd c)

theorem digits_replicate_zero (n : Nat) : Digits (List.replicate n '0') := by
  intro c mem
  rw [List.eq_of_mem_replicate mem]
  rfl

theorem digits_toDigits (n : Nat) : Digits (Nat.toDigits 10 n) :=
  fun _ mem => Nat.isDigit_of_mem_toDigits (by decide) (by decide) mem

theorem digits_takeWhile (cs : List Char) : Digits (cs.takeWhile Char.isDigit) :=
  fun _ mem => List.mem_takeWhile_imp mem

theorem takeWhile_digits {cs rest : List Char} (digits : Digits cs) (free : DigitFree rest) :
    (cs ++ rest).takeWhile Char.isDigit = cs := by
  rw [List.takeWhile_append_of_pos digits]
  cases rest with
  | nil => simp
  | cons c rest => simp [free c rest rfl]

theorem dropWhile_digits {cs rest : List Char} (digits : Digits cs) (free : DigitFree rest) :
    (cs ++ rest).dropWhile Char.isDigit = rest := by
  rw [List.dropWhile_append_of_pos digits]
  cases rest with
  | nil => rfl
  | cons c rest => simp [free c rest rfl]

theorem digits?_eq_some_iff {cs : List Char} {n : Nat} :
    digits? cs = some n ↔ cs ≠ [] ∧ Digits cs ∧ Nat.ofDigitChars 10 cs 0 = n := by
  simp [digits?, Digits, and_assoc]

/-- The text of an exponent, which may be empty, and its value. -/
inductive Exponent : List Char → Int → Prop where
  | none : Exponent [] 0
  | unsigned {mark : Char} {ds : List Char} (h : isMark mark = true) (ne : ds ≠ [])
    (digits : Digits ds) : Exponent (mark :: ds) (Nat.ofDigitChars 10 ds 0)
  | plus {mark : Char} {ds : List Char} (h : isMark mark = true) (ne : ds ≠ [])
    (digits : Digits ds) : Exponent (mark :: '+' :: ds) (Nat.ofDigitChars 10 ds 0)
  | minus {mark : Char} {ds : List Char} (h : isMark mark = true) (ne : ds ≠ [])
    (digits : Digits ds) : Exponent (mark :: '-' :: ds) (-(Nat.ofDigitChars 10 ds 0 : Nat))

/-- The text of a decimal, and what it denotes. -/
inductive Numeral : List Char → Decimal → Prop where
  | whole {ds tail : List Char} {e : Int} (ne : ds ≠ []) (digits : Digits ds)
    (h : Exponent tail e) : Numeral (ds ++ tail) ⟨Nat.ofDigitChars 10 ds 0, e⟩
  | point {ds places tail : List Char} {e : Int} (ne : ds ++ places ≠ []) (digits : Digits ds)
    (decimals : Digits places) (h : Exponent tail e) :
    Numeral (ds ++ '.' :: (places ++ tail))
      ⟨Nat.ofDigitChars 10 (ds ++ places) 0, e - places.length⟩

theorem isMark_iff {c : Char} : isMark c = true ↔ c = 'e' ∨ c = 'E' := by
  simp [isMark]

theorem isDigit_of_isMark {c : Char} (h : isMark c = true) : c.isDigit = false := by
  rcases isMark_iff.1 h with rfl | rfl <;> rfl

theorem exponent?_eq_some_iff {cs : List Char} {e : Int} :
    exponent? cs = some e ↔ Exponent cs e := by
  constructor
  · intro h
    cases cs with
    | nil =>
      cases h
      exact .none
    | cons c cs =>
      rw [exponent?] at h
      split at h
      · rename_i mark
        unfold signedDigits? at h
        split at h
        all_goals
          obtain ⟨n, read, rfl⟩ := Option.map_eq_some_iff.1 h
          obtain ⟨ne, digits, rfl⟩ := digits?_eq_some_iff.1 read
        · exact .plus mark ne digits
        · exact .minus mark ne digits
        · exact .unsigned mark ne digits
      · cases h
  · intro h
    cases h with
    | none => rfl
    | unsigned h ne digits =>
      rw [exponent?, if_pos h, signedDigits?, digits?_eq_some_iff.2 ⟨ne, digits, rfl⟩]
      · rfl
      -- Neither sign is a digit.
      · rintro ds rfl
        exact absurd (digits '+' (by simp)) (by decide)
      · rintro ds rfl
        exact absurd (digits '-' (by simp)) (by decide)
    | plus h ne digits =>
      rw [exponent?, if_pos h, signedDigits?, digits?_eq_some_iff.2 ⟨ne, digits, rfl⟩]
      rfl
    | minus h ne digits =>
      rw [exponent?, if_pos h, signedDigits?, digits?_eq_some_iff.2 ⟨ne, digits, rfl⟩]
      rfl

theorem Exponent.digitFree {cs : List Char} {e : Int} (h : Exponent cs e) : DigitFree cs := by
  rintro c rest rfl
  cases h with
  | unsigned h => exact isDigit_of_isMark h
  | plus h => exact isDigit_of_isMark h
  | minus h => exact isDigit_of_isMark h

theorem fraction_dot (cs : List Char) :
    fraction ('.' :: cs) = (cs.takeWhile Char.isDigit, cs.dropWhile Char.isDigit) := rfl

theorem fraction_eq_nil {cs : List Char} (h : ∀ rest, cs ≠ '.' :: rest) :
    fraction cs = ([], cs) := by
  unfold fraction
  split
  · exact absurd rfl (h _)
  · rfl

theorem Exponent.ne_dot {cs : List Char} {e : Int} (h : Exponent cs e) (rest : List Char) :
    cs ≠ '.' :: rest := by
  rintro rfl
  cases h <;> contradiction

theorem Numeral.ofNumeral? {cs : List Char} {d : Decimal} (h : Numeral cs d) :
    ofNumeral? cs = some d := by
  cases h with
  | whole ne digits h =>
    have free := h.digitFree
    rw [Decimal.ofNumeral?, takeWhile_digits digits free, dropWhile_digits digits free]
    simp only [fraction_eq_nil h.ne_dot, List.append_nil, digits?_eq_some_iff.2 ⟨ne, digits, rfl⟩,
      exponent?_eq_some_iff.2 h]
    simp
  | point ne digits decimals h =>
    have free := h.digitFree
    -- The digits in front end at the point, those behind it where the exponent begins.
    have dot : ∀ cs, DigitFree ('.' :: cs) := by
      rintro cs c rest eq
      cases eq
      rfl
    rw [Decimal.ofNumeral?, takeWhile_digits digits (dot _), dropWhile_digits digits (dot _)]
    simp only [fraction_dot, takeWhile_digits decimals free, dropWhile_digits decimals free,
      digits?_eq_some_iff.2 ⟨ne, digits.append decimals, rfl⟩, exponent?_eq_some_iff.2 h]

/-- A numeral is read as the number that is nearest to its decimal. -/
theorem Numeral.number {cs : List Char} {d : Decimal} (h : Numeral cs d) :
    Number.ofNumeral? cs = some (.ofMagnitude? false d.round?) := by
  rw [Number.ofNumeral?, h.ofNumeral?, Option.map_some]

/-- The reader of numerals accepts these texts, and no others. -/
theorem ofNumeral?_eq_some_iff {cs : List Char} {d : Decimal} :
    ofNumeral? cs = some d ↔ Numeral cs d := by
  refine ⟨fun h => ?_, Numeral.ofNumeral?⟩
  -- What is taken in front is the digits before a point, if there is one.
  have split := List.takeWhile_append_dropWhile (p := Char.isDigit) (l := cs)
  have digits := digits_takeWhile cs
  rw [← split]
  unfold ofNumeral? at h
  generalize cs.takeWhile Char.isDigit = ds at h digits
  generalize cs.dropWhile Char.isDigit = rest at h
  simp only at h
  split at h
  · rename_i n e value exponent
    cases h
    obtain ⟨ne, -, rfl⟩ := digits?_eq_some_iff.1 value
    have tail := exponent?_eq_some_iff.1 exponent
    by_cases dot : ∃ cs, rest = '.' :: cs
    · obtain ⟨cs, rfl⟩ := dot
      rw [fraction_dot] at ne tail ⊢
      have point := Numeral.point ne digits (digits_takeWhile cs) tail
      rwa [List.takeWhile_append_dropWhile] at point
    · rw [fraction_eq_nil (not_exists.1 dot)] at ne tail ⊢
      simpa using Numeral.whole (by simpa using ne) digits tail
  · cases h

/-- A numeral begins with a digit, or with a point and a digit. -/
theorem Numeral.start {cs : List Char} {d : Decimal} (h : Numeral cs d) :
    ∃ c rest, cs = c :: rest ∧
      (c.isDigit = true ∨ c = '.' ∧ ∃ c' rest', rest = c' :: rest' ∧ c'.isDigit = true) := by
  cases h with
  | @whole ds _ _ ne digits =>
    cases ds with
    | nil => exact absurd rfl ne
    | cons c ds => exact ⟨c, _, rfl, .inl (digits c List.mem_cons_self)⟩
  | @point ds places _ _ ne digits decimals =>
    cases ds with
    | cons c ds => exact ⟨c, _, rfl, .inl (digits c List.mem_cons_self)⟩
    | nil =>
      cases places with
      | nil => exact absurd rfl ne
      | cons c places =>
        exact ⟨'.', _, rfl, .inr ⟨rfl, c, _, rfl, decimals c List.mem_cons_self⟩⟩

theorem Digits.count_dot {cs : List Char} (h : Digits cs) : cs.count '.' = 0 :=
  List.count_eq_zero.2 fun mem => absurd (h '.' mem) (by decide)

theorem Exponent.count_dot {cs : List Char} {e : Int} (h : Exponent cs e) :
    cs.count '.' = 0 := by
  have mark : ∀ {c}, isMark c = true → c ≠ '.' := by
    rintro c h rfl
    exact absurd h (by decide)
  cases h with
  | none => rfl
  | unsigned h ne digits => simp [mark h, digits.count_dot]
  | plus h ne digits => simp [mark h, digits.count_dot]
  | minus h ne digits => simp [mark h, digits.count_dot]

/-- There is at most one point in a numeral. -/
theorem Numeral.count_dot {cs : List Char} {d : Decimal} (h : Numeral cs d) :
    cs.count '.' ≤ 1 := by
  cases h with
  | whole ne digits h => simp [digits.count_dot, h.count_dot]
  | point ne digits decimals h =>
    simp [digits.count_dot, decimals.count_dot, h.count_dot]

end Decimal

end DataBinding
