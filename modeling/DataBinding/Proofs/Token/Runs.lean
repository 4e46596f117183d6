import DataBinding.Proofs.Token.Number
import Mathlib.Data.List.Pairwise

/-!
# Runs of the characters of a number

What the scanner of numbers takes is described here without the scanner: digits, points, exponent
marks and signs, each with what must stand beside it. Not every such run is a numeral, since points
and marks can be too many. Where they are not, nothing else is missing.

## Main definitions

* `StartsNumber`, `EndsNumber` — the text begins with a number, or does not go on with one
* `NumberRun` — the characters follow each other as those of a number
* `Decimal.Clash`, `Decimal.Orderly` — two characters are too many for a numeral, and no two are

## Main results

* `NumberRun.numberTail`, `exists_run` — the scanner takes a run, as long as it can be
* `Decimal.Numeral.orderly` — no characters of a numeral clash
* `NumberRun.numeral` — a run without clashes is a numeral
-/

namespace DataBinding

open Decimal Recognized

/-- The text does not go on with a number: there comes nothing, or neither a digit nor a point nor
an exponent mark with a digit or a sign behind it. -/
def EndsNumber (rest : List Char) : Prop :=
  ∀ c more, rest = c :: more →
    c.isDigit = false ∧ c ≠ '.' ∧ (isMark c = true → startsExponent more = false)

/-- The text begins with a digit, or with a point and a digit. -/
def StartsNumber (text : List Char) : Prop :=
  ∃ c more, text = c :: more ∧ (c.isDigit = true ∨ c = '.' ∧ startsWithDigit more = true)

/-- The text begins with a sign and no digit behind it. -/
def LacksDigit (rest : List Char) : Prop :=
  ∃ sign more, rest = sign :: more ∧ isSign sign = true ∧ startsWithDigit more = false

/-- The characters follow each other as those of a number do, in front of `rest`; `marked` says
whether an exponent mark comes before them. -/
inductive NumberRun (rest : List Char) : Bool → List Char → Prop where
  | nil (marked : Bool) : NumberRun rest marked []
  /-- Digits and points may stand anywhere. -/
  | plain {marked : Bool} {c : Char} {run : List Char} (h : c.isDigit = true ∨ c = '.')
    (more : NumberRun rest false run) : NumberRun rest marked (c :: run)
  /-- An exponent mark stands in front of a digit or a sign. -/
  | mark {marked : Bool} {c : Char} {run : List Char} (h : isMark c = true)
    (next : startsExponent (run ++ rest) = true) (more : NumberRun rest true run) :
    NumberRun rest marked (c :: run)
  /-- A sign stands between an exponent mark and a digit. -/
  | sign {c : Char} {run : List Char} (h : isSign c = true)
    (next : startsWithDigit (run ++ rest) = true) (more : NumberRun rest false run) :
    NumberRun rest true (c :: run)

/-- Whether an exponent mark comes last, where `marked` says whether one comes before. -/
def endsMarked (marked : Bool) (run : List Char) : Bool := run.foldl (fun _ c => isMark c) marked

/-- Two characters, in this order, are too many for a numeral: the second point, or a point or
another mark behind an exponent mark. -/
def Decimal.Clash (c c' : Char) : Prop :=
  (c = '.' ∧ c' = '.') ∨ (isMark c = true ∧ (c' = '.' ∨ isMark c' = true))

/-! ### What the scanner takes -/

theorem endsNumber_iff {rest : List Char} :
    EndsNumber rest ↔ numberTail false rest = ([], false) := by
  cases rest with
  | nil => simp [EndsNumber, Recognized.numberTail]
  | cons c rest =>
    refine Iff.trans ?_ ⟨numberTail_eq_of_nil, congrArg Prod.fst⟩
    rw [numberTail_eq_nil_iff]
    exact ⟨fun h => h c rest rfl, fun h d more eq => by cases eq; exact h⟩

theorem endsNumber_nil : EndsNumber [] := by simp [EndsNumber]

theorem isMark_of_isSign {c : Char} (h : isSign c = true) : isMark c = false := by
  rcases (by simpa [isSign] using h : c = '+' ∨ c = '-') with rfl | rfl <;> rfl

theorem isMark_of_plain {c : Char} (h : c.isDigit = true ∨ c = '.') : isMark c = false := by
  rcases h with digit | rfl
  · exact isMark_of_isDigit digit
  · rfl

namespace NumberRun

variable {rest run : List Char} {marked : Bool}

/-- The scanner takes a run, and then goes on from where the run has led. -/
theorem numberTail (h : NumberRun rest marked run) :
    Recognized.numberTail marked (run ++ rest) =
      (run ++ (Recognized.numberTail (endsMarked marked run) rest).1,
        (Recognized.numberTail (endsMarked marked run) rest).2) := by
  induction h with
  | nil marked => rfl
  | @plain marked c run h more ih =>
    have goes : (c.isDigit || c == '.') = true := by simpa using h
    rw [List.cons_append, numberTail_cons (by simp [goes]), isMark_of_plain h, ih, endsMarked,
      endsMarked, List.foldl_cons, isMark_of_plain h, List.cons_append]
  | @mark marked c run h next more ih =>
    rw [List.cons_append, numberTail_cons (by simp [h, next]), h, ih, endsMarked, endsMarked,
      List.foldl_cons, h, List.cons_append]
  | @sign c run h next more ih =>
    have mark := isMark_of_isSign h
    rw [List.cons_append, numberTail_cons (by simp [h, next]), mark, ih, endsMarked, endsMarked,
      List.foldl_cons, mark, List.cons_append]

/-- A character that the scanner takes stands in front of a run. -/
theorem cons {c : Char} (goes : (c.isDigit || c == '.' || isMark c && startsExponent (run ++ rest) ||
      marked && isSign c && startsWithDigit (run ++ rest)) = true)
    (more : NumberRun rest (isMark c) run) : NumberRun rest marked (c :: run) := by
  simp only [Bool.or_eq_true, Bool.and_eq_true, beq_iff_eq] at goes
  rcases goes with (plain | ⟨mark, next⟩) | ⟨⟨rfl, sign⟩, next⟩
  · rw [isMark_of_plain plain] at more
    exact .plain plain more
  · rw [mark] at more
    exact .mark mark next more
  · rw [isMark_of_isSign sign] at more
    exact .sign sign next more

end NumberRun

/-- The scanner takes a run. It stops between an exponent mark and a sign that has no digit, or
where no number goes on. -/
theorem exists_run (marked : Bool) (cs : List Char)
    (ready : marked = true → startsExponent cs = true) :
    ∃ run rest, cs = run ++ rest ∧ NumberRun rest marked run ∧
      (numberTail marked cs = (run, true) ∧ endsMarked marked run = true ∧ LacksDigit rest ∨
        numberTail marked cs = (run, false) ∧ endsMarked marked run = false ∧ EndsNumber rest) := by
  induction cs generalizing marked with
  | nil =>
    have unmarked : marked = false := Bool.eq_false_iff.2 fun h => by cases ready h
    exact ⟨[], [], rfl, .nil marked, .inr ⟨rfl, unmarked, by simp [EndsNumber]⟩⟩
  | cons c cs ih =>
    by_cases goes : (c.isDigit || c == '.' || isMark c && startsExponent cs ||
        marked && isSign c && startsWithDigit cs) = true
    · have next : isMark c = true → startsExponent cs = true := by
        intro mark
        have digit := isDigit_of_isMark mark
        rcases isMark_iff.1 mark with rfl | rfl <;> simpa [isMark, isSign] using goes
      obtain ⟨run, rest, rfl, taken, stop⟩ := ih (isMark c) next
      rw [numberTail_cons goes]
      refine ⟨c :: run, rest, rfl, taken.cons goes, ?_⟩
      -- Where the run stops is decided behind the character.
      rcases stop with ⟨tail, marked', stop⟩ | ⟨tail, marked', stop⟩
      · exact .inl ⟨by rw [tail], marked', stop⟩
      · exact .inr ⟨by rw [tail], marked', stop⟩
    · have tail : numberTail marked (c :: cs) = ([], marked && isSign c) := by
        rw [numberTail, if_neg goes]
      refine ⟨[], c :: cs, rfl, .nil marked, ?_⟩
      rw [tail]
      cases marked with
      | false => exact .inr ⟨rfl, rfl, endsNumber_iff.2 tail⟩
      | true =>
        simp only [Bool.or_eq_true, Bool.and_eq_true, not_or, not_and, Bool.not_eq_true] at goes
        have sign : isSign c = true := by simpa [startsExponent, goes.1.1.1] using ready rfl
        exact .inl ⟨by rw [sign]; rfl, rfl, c, cs, rfl, sign, goes.2 ⟨trivial, sign⟩⟩

/-! ### Runs and numerals -/

/-- The characters are neither points nor exponent marks. -/
def Decimal.Light (cs : List Char) : Prop := ∀ c ∈ cs, c ≠ '.' ∧ isMark c = false

/-- No two characters clash. -/
def Decimal.Orderly (cs : List Char) : Prop := cs.Pairwise fun c c' => ¬Clash c c'

theorem Decimal.Digits.light {cs : List Char} (h : Digits cs) : Light cs := by
  intro c mem
  have digit := h c mem
  refine ⟨?_, isMark_of_isDigit digit⟩
  rintro rfl
  cases digit

theorem light_cons_of_isSign {c : Char} {cs : List Char} (h : isSign c = true) (more : Light cs) :
    Light (c :: cs) := by
  refine List.forall_mem_cons.2 ⟨⟨?_, isMark_of_isSign h⟩, more⟩
  rintro rfl
  cases h

theorem orderly_append_light {cs ds : List Char} (h : Light cs) :
    Orderly (cs ++ ds) ↔ Orderly ds := by
  have free : ∀ c ∈ cs, ∀ c', ¬Clash c c' := by
    rintro c mem c' (⟨dot, -⟩ | ⟨mark, -⟩)
    · exact (h c mem).1 dot
    · exact Bool.false_ne_true ((h c mem).2.symm.trans mark)
  induction cs with
  | nil => rfl
  | cons c cs ih =>
    obtain ⟨-, more⟩ := List.forall_mem_cons.1 h
    obtain ⟨first, others⟩ := List.forall_mem_cons.1 free
    rw [Orderly, List.cons_append, List.pairwise_cons]
    exact ⟨fun parts => (ih more others).1 parts.2,
      fun tail => ⟨fun c' _ => first c', (ih more others).2 tail⟩⟩

theorem Decimal.Light.orderly {cs : List Char} (h : Light cs) : Orderly cs := by
  have tail : Orderly (cs ++ []) := (orderly_append_light h).2 List.Pairwise.nil
  rwa [List.append_nil] at tail

/-- Behind an exponent mark every point and every other mark is too many. -/
theorem orderly_cons_mark_iff {c : Char} {cs : List Char} (h : isMark c = true) :
    Orderly (c :: cs) ↔ Light cs := by
  rw [Orderly, List.pairwise_cons]
  constructor
  · rintro ⟨first, -⟩ c' mem
    have free := first c' mem
    exact ⟨fun dot => free (.inr ⟨h, .inl dot⟩),
      Bool.eq_false_iff.2 fun mark => free (.inr ⟨h, .inr mark⟩)⟩
  · intro light
    refine ⟨?_, light.orderly⟩
    rintro c' mem (⟨-, dot⟩ | ⟨-, dot | mark⟩)
    · exact (light c' mem).1 dot
    · exact (light c' mem).1 dot
    · exact Bool.false_ne_true ((light c' mem).2.symm.trans mark)

/-- Behind a point only another point is too many. -/
theorem orderly_cons_dot_iff {cs : List Char} :
    Orderly ('.' :: cs) ↔ '.' ∉ cs ∧ Orderly cs := by
  rw [Orderly, List.pairwise_cons]
  refine and_congr_left fun _ => ⟨fun first mem => first '.' mem (.inl ⟨rfl, rfl⟩), ?_⟩
  rintro free c' mem (⟨-, dot⟩ | ⟨mark, -⟩)
  · exact free (dot ▸ mem)
  · cases mark

/-- No characters of an exponent clash. -/
theorem Decimal.Exponent.orderly {cs : List Char} {e : Int} (h : Exponent cs e) : Orderly cs := by
  cases h with
  | none => exact List.Pairwise.nil
  | unsigned h ne digits => exact (orderly_cons_mark_iff h).2 digits.light
  | plus h ne digits => exact (orderly_cons_mark_iff h).2 (light_cons_of_isSign rfl digits.light)
  | minus h ne digits => exact (orderly_cons_mark_iff h).2 (light_cons_of_isSign rfl digits.light)

/-- No characters of a numeral clash. -/
theorem Decimal.Numeral.orderly {cs : List Char} {d : Decimal} (h : Numeral cs d) :
    Orderly cs := by
  cases h with
  | whole ne digits h => exact (orderly_append_light digits.light).2 h.orderly
  | @point ds places tail _ ne digits decimals h =>
    have dot : '.' ∉ places ++ tail := by
      rw [← List.count_eq_zero, List.count_append, decimals.count_dot, h.count_dot]
    exact (orderly_append_light digits.light).2
      (orderly_cons_dot_iff.2 ⟨dot, (orderly_append_light decimals.light).2 h.orderly⟩)

namespace NumberRun

variable {rest run : List Char} {marked : Bool}

/-- Without points and marks, and with no mark in front, only digits are left. -/
theorem digits_of_light (h : NumberRun rest false run) (light : Light run) : Digits run := by
  induction run with
  | nil => exact fun c mem => absurd mem List.not_mem_nil
  | cons c run ih =>
    obtain ⟨⟨dot, mark⟩, more⟩ := List.forall_mem_cons.1 light
    cases h with
    | plain h tail => exact List.forall_mem_cons.2 ⟨h.resolve_right dot, ih tail more⟩
    | mark h => exact absurd h (Bool.eq_false_iff.1 mark)

/-- The digits in front of a run taken off. -/
theorem exists_digits (run : List Char) :
    ∃ ds tail, run = ds ++ tail ∧ Digits ds ∧ DigitFree tail := by
  refine ⟨_, _, List.takeWhile_append_dropWhile.symm, digits_takeWhile run, ?_⟩
  intro c tail eq
  have stop := List.head?_dropWhile_not Char.isDigit run
  simpa [eq] using stop

/-- What stands behind the digits in front of a run is a run. -/
theorem of_digits_append {ds : List Char} (h : NumberRun rest false (ds ++ run)) (digits : Digits ds) :
    NumberRun rest false run := by
  induction ds with
  | nil => exact h
  | cons c ds ih =>
    obtain ⟨first, more⟩ := List.forall_mem_cons.1 digits
    cases h with
    | plain _ tail => exact ih tail more
    | mark h => exact absurd h (Bool.eq_false_iff.1 (isMark_of_isDigit first))

theorem endsMarked_digits_append {ds : List Char} (digits : Digits ds) :
    endsMarked false (ds ++ run) = endsMarked false run := by
  induction ds with
  | nil => rfl
  | cons c ds ih =>
    obtain ⟨first, more⟩ := List.forall_mem_cons.1 digits
    rw [← ih more, List.cons_append, endsMarked, List.foldl_cons, isMark_of_isDigit first]
    rfl

/-- An exponent mark with a light run behind it is an exponent, if the run does not end with the
mark and is not cut off in front of a digit. -/
theorem exponent {c : Char} (mark : isMark c = true) (h : NumberRun rest true run) (light : Light run)
    (unmarked : endsMarked true run = false) (ends : EndsNumber rest) :
    ∃ e, Exponent (c :: run) e := by
  cases h with
  | nil => cases unmarked
  | @plain _ d run plain tail =>
    obtain ⟨⟨dot, -⟩, more⟩ := List.forall_mem_cons.1 light
    have digits : Digits (d :: run) :=
      List.forall_mem_cons.2 ⟨plain.resolve_right dot, tail.digits_of_light more⟩
    exact ⟨_, .unsigned mark (List.cons_ne_nil d run) digits⟩
  | mark again =>
    exact absurd again (Bool.eq_false_iff.1 (light _ List.mem_cons_self).2)
  | @sign s run sign next tail =>
    obtain ⟨-, more⟩ := List.forall_mem_cons.1 light
    have digits := tail.digits_of_light more
    -- The digit that the sign needs belongs to the run, since no digit comes behind it.
    have ne : run ≠ [] := by
      rintro rfl
      cases rest with
      | nil => cases next
      | cons d rest => exact Bool.false_ne_true ((ends d rest rfl).1.symm.trans next)
    rcases (by simpa [isSign] using sign : s = '+' ∨ s = '-') with rfl | rfl
    · exact ⟨_, .plus mark ne digits⟩
    · exact ⟨_, .minus mark ne digits⟩

/-- What stands behind the digits and the point of a numeral. -/
theorem exponent_of_orderly (h : NumberRun rest false run) (free : DigitFree run)
    (dot : ∀ more, run ≠ '.' :: more) (orderly : Orderly run)
    (unmarked : endsMarked false run = false) (ends : EndsNumber rest) :
    ∃ e, Exponent run e := by
  cases h with
  | nil => exact ⟨0, .none⟩
  | @plain _ c run plain tail =>
    rcases plain with digit | rfl
    · exact absurd digit (Bool.eq_false_iff.1 (free c run rfl))
    · exact absurd rfl (dot run)
  | @mark _ c run mark next tail =>
    have light := (orderly_cons_mark_iff mark).1 orderly
    refine exponent mark tail light ?_ ends
    rwa [endsMarked, List.foldl_cons, mark] at unmarked

/-- Where neither a run nor what comes behind it goes on with digits, there comes no digit. -/
theorem startsWithDigit_append (free : DigitFree run) (ends : EndsNumber rest) :
    startsWithDigit (run ++ rest) = false := by
  cases run with
  | cons c run => exact free c run rfl
  | nil =>
    cases rest with
    | nil => rfl
    | cons c rest => exact (ends c rest rfl).1

/-- A run without clashes is a numeral, if it begins like one and nothing is cut off. -/
theorem numeral (h : NumberRun rest false run) (starts : StartsNumber (run ++ rest))
    (orderly : Orderly run) (unmarked : endsMarked false run = false) (ends : EndsNumber rest) :
    ∃ d, Numeral run d := by
  obtain ⟨c, more, begins, start⟩ := starts
  obtain ⟨ds, tail, rfl, digits, free⟩ := exists_digits run
  have behind := h.of_digits_append digits
  rw [endsMarked_digits_append digits] at unmarked
  rw [orderly_append_light digits.light] at orderly
  by_cases dot : ∃ tail', tail = '.' :: tail'
  · obtain ⟨tail, rfl⟩ := dot
    obtain ⟨places, tail, rfl, decimals, free'⟩ := exists_digits tail
    have fraction : NumberRun rest false (places ++ tail) := by
      cases behind with
      | plain _ more => exact more
      | mark mark => cases mark
    rw [orderly_cons_dot_iff, orderly_append_light decimals.light] at orderly
    have unmarked' : endsMarked false tail = false :=
      (endsMarked_digits_append decimals).symm.trans unmarked
    have one : ∀ more, tail ≠ '.' :: more := by
      rintro more rfl
      exact orderly.1 (by simp)
    obtain ⟨e, exponent⟩ := (fraction.of_digits_append decimals).exponent_of_orderly free' one
      orderly.2 unmarked' ends
    refine ⟨_, .point (fun none => ?_) digits decimals exponent⟩
    obtain ⟨rfl, rfl⟩ := List.append_eq_nil_iff.1 none
    cases begins
    -- A point in front needs a digit, and none comes behind it.
    have digit := (start.resolve_left (by decide)).2
    exact Bool.false_ne_true ((startsWithDigit_append free' ends).symm.trans digit)
  · obtain ⟨e, exponent⟩ := behind.exponent_of_orderly free (not_exists.1 dot) orderly unmarked ends
    refine ⟨_, .whole ?_ digits exponent⟩
    rintro rfl
    have first := startsWithDigit_append free ends
    rw [← List.nil_append tail, begins] at first
    rcases start with digit | ⟨rfl, -⟩
    · exact Bool.false_ne_true (first.symm.trans digit)
    · cases tail with
      | nil => exact (ends '.' more begins).2.1 rfl
      | cons d tail =>
        cases begins
        exact dot ⟨tail, rfl⟩

end NumberRun

end DataBinding
