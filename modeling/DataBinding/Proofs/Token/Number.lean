import DataBinding.Proofs.Number.Numeral
import DataBinding.Token.Scanner
import Mathlib.Tactic.Tauto

/-!
# Where a number ends

The scanner of numbers takes characters greedily and asks only afterwards whether they are a
numeral. It takes the whole of every numeral that it comes upon, and then goes on as from a fresh
start; it stops in front of neither a digit nor a point.

## Main definitions

* `Recognized.Takes` — the scanner gets over a text and goes on behind it

## Main results

* `Decimal.Numeral.takes` — the scanner gets over what is left of a numeral
* `Recognized.numberTail_eq` — what the scanner takes, and where it stops
* `Recognized.numberTail_eq_nil_iff` — in front of what it takes nothing
-/

namespace DataBinding

open Decimal

namespace Recognized

/-- Whatever follows, the scanner takes all of the text, and then what it takes of the rest. -/
def Takes (marked : Bool) (cs : List Char) : Prop :=
  ∀ rest, numberTail marked (cs ++ rest) =
    (cs ++ (numberTail false rest).1, (numberTail false rest).2)

theorem takes_nil : Takes false [] := fun _ => rfl

theorem isMark_of_isDigit {c : Char} (h : c.isDigit = true) : isMark c = false := by
  cases mark : isMark c with
  | false => rfl
  | true => rw [isDigit_of_isMark mark] at h; cases h

theorem numberTail_cons {marked : Bool} {c : Char} {rest : List Char}
    (h : (c.isDigit || c == '.' || isMark c && startsExponent rest ||
      marked && isSign c && startsWithDigit rest) = true) :
    numberTail marked (c :: rest) =
      (c :: (numberTail (isMark c) rest).1, (numberTail (isMark c) rest).2) := by
  rw [numberTail]
  simp only [h, if_true]

theorem Takes.digit {marked : Bool} {c : Char} {cs : List Char} (h : c.isDigit = true)
    (more : Takes false cs) : Takes marked (c :: cs) := by
  intro rest
  rw [List.cons_append, numberTail_cons (by simp [h]), isMark_of_isDigit h, more rest]
  rfl

theorem Takes.digits {cs ds : List Char} (h : Digits ds) (more : Takes false cs) :
    Takes false (ds ++ cs) := by
  induction ds with
  | nil => exact more
  | cons c ds ih =>
    exact (ih fun c mem => h c (List.mem_cons_of_mem _ mem)).digit (h c List.mem_cons_self)

theorem Takes.dot {marked : Bool} {cs : List Char} (more : Takes false cs) :
    Takes marked ('.' :: cs) := by
  intro rest
  rw [List.cons_append, numberTail_cons rfl, show isMark '.' = false from rfl, more rest]
  rfl

theorem Takes.sign {c d : Char} {cs : List Char} (h : isSign c = true) (digit : d.isDigit = true)
    (more : Takes false (d :: cs)) : Takes true (c :: d :: cs) := by
  intro rest
  have mark : isMark c = false := by
    rcases (by simpa [isSign] using h : c = '+' ∨ c = '-') with rfl | rfl <;> rfl
  rw [List.cons_append, numberTail_cons (by simp [startsWithDigit, h, digit]), mark, more rest]
  rfl

theorem Takes.mark {c d : Char} {cs : List Char} (h : isMark c = true)
    (start : d.isDigit = true ∨ isSign d = true) (more : Takes true (d :: cs)) :
    Takes false (c :: d :: cs) := by
  intro rest
  rw [List.cons_append, numberTail_cons (by simp [startsExponent, h, start]), h, more rest]
  rfl

end Recognized

open Recognized

theorem Decimal.Exponent.takes {cs : List Char} {e : Int} (h : Exponent cs e) :
    Takes false cs := by
  have digits : ∀ {ds}, Digits ds → Takes false ds := by
    intro ds digits
    simpa using takes_nil.digits digits
  cases h with
  | none => exact takes_nil
  | @unsigned mark ds h ne all =>
    obtain ⟨d, ds, rfl⟩ := List.exists_cons_of_ne_nil ne
    have more : Digits ds := fun c mem => all c (List.mem_cons_of_mem _ mem)
    have first := all d List.mem_cons_self
    exact ((digits more).digit first).mark h (.inl first)
  | @plus mark ds h ne all =>
    obtain ⟨d, ds, rfl⟩ := List.exists_cons_of_ne_nil ne
    exact ((digits all).sign rfl (all d List.mem_cons_self)).mark h (.inr rfl)
  | @minus mark ds h ne all =>
    obtain ⟨d, ds, rfl⟩ := List.exists_cons_of_ne_nil ne
    exact ((digits all).sign rfl (all d List.mem_cons_self)).mark h (.inr rfl)

/-- The scanner gets over what is left of a numeral behind its first character. -/
theorem Decimal.Numeral.takes {c : Char} {cs : List Char} {d : Decimal}
    (h : Numeral (c :: cs) d) : Takes false cs := by
  generalize eq : c :: cs = text at h
  cases h with
  | @whole ds tail _ ne digits h =>
    obtain ⟨d, ds, rfl⟩ := List.exists_cons_of_ne_nil ne
    cases eq
    exact h.takes.digits fun c mem => digits c (List.mem_cons_of_mem _ mem)
  | @point ds places tail _ ne digits decimals h =>
    have fraction := h.takes.digits decimals
    cases ds with
    | nil =>
      cases eq
      exact fraction
    | cons d ds =>
      cases eq
      exact fraction.dot.digits fun c mem => digits c (List.mem_cons_of_mem _ mem)

namespace Recognized

/-- The characters that numbers are made of. -/
def isNumberChar (c : Char) : Bool := c.isDigit || c == '.' || isMark c || isSign c

/-- What the scanner takes are characters of numbers from the front, and behind them comes neither
a digit nor a point. -/
theorem numberTail_eq (marked : Bool) (cs : List Char) :
    ∃ rest, cs = (numberTail marked cs).1 ++ rest ∧
      (∀ c ∈ (numberTail marked cs).1, isNumberChar c = true) ∧
      ∀ c more, rest = c :: more → c.isDigit = false ∧ c ≠ '.' := by
  induction cs generalizing marked with
  | nil => exact ⟨[], rfl, by simp [numberTail], by simp⟩
  | cons c cs ih =>
    -- The scanner takes the character, or it stops in front of it.
    by_cases goes : (c.isDigit || c == '.' || isMark c && startsExponent cs ||
        marked && isSign c && startsWithDigit cs) = true
    · obtain ⟨rest, eq, chars, stop⟩ := ih (isMark c)
      rw [numberTail_cons goes]
      refine ⟨rest, congrArg (c :: ·) eq, ?_, stop⟩
      have first : isNumberChar c = true := by
        simp only [isNumberChar, Bool.or_eq_true, Bool.and_eq_true] at goes ⊢
        tauto
      exact List.forall_mem_cons.2 ⟨first, chars⟩
    · rw [numberTail]
      simp only [goes]
      refine ⟨c :: cs, rfl, by simp, ?_⟩
      rintro c' more eq
      cases eq
      simp only [Bool.or_eq_true, not_or] at goes
      simpa using goes.1.1

/-- A number ends in front of a character that goes on with no number, or only with an exponent
that does not follow. -/
theorem numberTail_eq_nil_iff {c : Char} {rest : List Char} :
    (numberTail false (c :: rest)).1 = [] ↔
      c.isDigit = false ∧ c ≠ '.' ∧ (isMark c = true → startsExponent rest = false) := by
  rw [numberTail]
  simp only [Bool.false_and, Bool.or_false]
  split
  · rename_i goes
    simp only [Bool.or_eq_true, Bool.and_eq_true, beq_iff_eq] at goes
    simp only [List.cons_ne_nil, false_iff]
    rintro ⟨digit, dot, exponent⟩
    simp_all
  · rename_i stops
    simp_all

theorem numberTail_eq_of_nil {rest : List Char} (h : (numberTail false rest).1 = []) :
    numberTail false rest = ([], false) := by
  cases rest with
  | nil => rfl
  | cons c rest =>
    rw [numberTail] at h ⊢
    split at h
    · cases h
    · rw [if_neg ‹_›, Bool.false_and]

theorem number_size (c : Char) (rest : List Char) :
    (number c rest).size = (c :: (numberTail false rest).1).length := by
  unfold number
  simp only
  split
  · rfl
  · split <;> rfl

/-- A number that is recognized has the value of the numeral that the scanner takes. -/
theorem number_eq_ok {c : Char} {rest : List Char} {lexeme : Lexeme}
    (h : (number c rest).outcome = .ok lexeme) :
    ∃ d, Numeral (c :: (numberTail false rest).1) d ∧
      lexeme = .number (String.ofList (c :: (numberTail false rest).1))
        (.ofMagnitude? false d.round?) := by
  unfold number at h
  simp only at h
  split at h
  · cases h
  split at h
  · rename_i value read
    obtain ⟨d, denoted, rfl⟩ := Option.map_eq_some_iff.1 read
    cases h
    exact ⟨d, ofNumeral?_eq_some_iff.1 denoted, rfl⟩
  · cases h

end Recognized

end DataBinding
