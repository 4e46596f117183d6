import DataBinding.Proofs.Number.Equality
import DataBinding.Proofs.Number.Text
import DataBinding.Proofs.Token.Numbers

/-!
# Numbers written and read

The text of a magnitude is a numeral from end to end, whichever form it has, and so it is one token
of a source. What is negative is written like its opposite, with a minus sign in front, and what is
no magnitude is written as a word. So the sign and the rest of a text are told apart by the first
character, and the text gives back the number, but for the sign of zero.

## Main definitions

* `Number.isMinus`, `Number.abs` — whether a minus sign is written, and the number without its sign

## Main results

* `Cursor.next?_magnitude` — the text of a magnitude is one token of a source
* `Number.chars_eq_append` — the text of a number is a sign and the text of the number without it
* `Number.chars_eq_iff` — numbers of one text are the same but for the sign of zero
* `Number.text_reads_back` — all of this for texts
-/

namespace DataBinding

open Decimal

/-- The text of a magnitude is read as that magnitude, and reading goes on behind it. -/
theorem Cursor.next?_magnitude (x : Magnitude) {cur : Cursor} {gap rest : List Char}
    (h : cur.rest = gap ++ ((Number.finite false x).chars ++ rest)) (blank : gap ⊆ blanks)
    (ends : EndsNumber rest) :
    cur.next? = some
      (.ok ⟨.number (Number.finite false x).text (.finite false x), cur.pos + byteSize gap⟩,
      ⟨cur.pos + byteSize gap + byteSize (Number.finite false x).chars, rest⟩) := by
  obtain ⟨d, numeral, value⟩ := Number.exists_numeral_chars x
  rw [next?_numeral h blank numeral ends, value]
  rfl

namespace Number

/-- The text of a magnitude is a source of one token, with nothing in front of it or behind. -/
theorem next?_ofSource_text (x : Magnitude) :
    ∃ pos, (Cursor.ofSource (finite false x).text).next? = some
      (.ok ⟨.number (finite false x).text (finite false x), 0⟩, ⟨pos, []⟩) := by
  have source : (Cursor.ofSource (finite false x).text).rest =
      [] ++ ((finite false x).chars ++ []) := by
    rw [List.append_nil, List.nil_append]
    exact String.toList_ofList
  exact ⟨_, Cursor.next?_magnitude x source (List.nil_subset _) endsNumber_nil⟩

/-! ### The sign apart -/

theorem chars_infinity (negative : Bool) :
    (infinity negative).chars = signChars negative ++ (infinity false).chars := by
  rw [chars, chars, signChars, signChars, if_neg Bool.false_ne_true, List.nil_append]

/-- What is not zero is written with its sign. -/
theorem chars_finite {x : Magnitude} (some : x.significand ≠ 0) (negative : Bool) :
    (finite negative x).chars = signChars negative ++ (finite false x).chars := by
  rw [chars, chars, if_neg some, if_neg some, signChars, signChars, if_neg Bool.false_ne_true,
    List.nil_append]

/-- Whether the number is written with a minus sign; zero never is. -/
def isMinus : Number → Bool
  | nan => false
  | infinity negative => negative
  | finite negative x => negative && x.significand != 0

/-- The number without its sign. -/
def abs : Number → Number
  | nan => nan
  | infinity _ => infinity false
  | finite _ x => finite false x

theorem isMinus_finite {x : Magnitude} (some : x.significand ≠ 0) (negative : Bool) :
    (finite negative x).isMinus = negative := by
  simp [isMinus, some]

/-- The text of a number is a sign and the text of the number without it. -/
theorem chars_eq_append (n : Number) : n.chars = signChars n.isMinus ++ n.abs.chars := by
  cases n with
  | nan => exact (List.nil_append _).symm
  | infinity negative => exact chars_infinity negative
  | finite negative x =>
    by_cases zero : x.significand = 0
    · have plus : (finite negative x).isMinus = false := by simp [isMinus, zero]
      rw [plus, abs, chars, chars, if_pos zero, if_pos zero]
      rfl
    · rw [isMinus_finite zero]
      exact chars_finite zero negative

/-- A number is known from its sign and the number without it, but for the sign of zero. -/
theorem canonical_eq_of_abs_eq {a b : Number} (sign : a.isMinus = b.isMinus)
    (value : a.abs = b.abs) : a.canonical = b.canonical := by
  cases a with
  | nan => cases b <;> simp_all [abs]
  | infinity s => cases b <;> simp_all [abs, isMinus]
  | finite s x =>
    cases b with
    | finite t y =>
      cases value
      by_cases zero : x.significand = 0
      · simp [canonical, zero]
      · rw [isMinus_finite zero, isMinus_finite zero] at sign
        rw [sign]
    | _ => cases value

/-! ### Numbers of one text -/

/-- No sign stands in front of the text of a number without one. -/
theorem head?_chars_abs (n : Number) : n.abs.chars.head? ≠ some '-' := by
  cases n with
  | nan => decide
  | infinity _ => exact (by decide : (infinity false).chars.head? ≠ some '-')
  | finite _ x =>
    obtain ⟨d, numeral, -⟩ := exists_numeral_chars x
    obtain ⟨c, rest, eq, start⟩ := numeral.start
    rw [abs, eq, List.head?_cons]
    rintro ⟨⟩
    rcases start with digit | ⟨dot, -⟩
    · cases digit
    · cases dot

theorem sign_eq_of_append_eq {s t : Bool} {cs ds : List Char} (hc : cs.head? ≠ some '-')
    (hd : ds.head? ≠ some '-') (h : signChars s ++ cs = signChars t ++ ds) : s = t ∧ cs = ds := by
  cases s <;> cases t
  · exact ⟨rfl, h⟩
  · exact absurd (congrArg List.head? h) hc
  · exact absurd (congrArg List.head? h).symm hd
  · exact ⟨rfl, List.cons.inj h |>.2⟩

/-- The numbers without signs have different texts: magnitudes are read back, and the words of the
others are no numerals. -/
theorem abs_eq_of_chars_eq {a b : Number} (h : a.abs.chars = b.abs.chars) : a.abs = b.abs := by
  have numeral_ne : ∀ {x cs}, ofNumeral? cs = none → (finite false x).chars ≠ cs := by
    rintro x _ none rfl
    rw [ofNumeral?_chars] at none
    cases none
  have nan_ne : nan.chars ≠ (infinity false).chars := by decide
  cases a with
  | nan =>
    cases b with
    | nan => rfl
    | infinity _ => exact absurd h nan_ne
    | finite _ y => exact absurd h.symm (numeral_ne rfl)
  | infinity _ =>
    cases b with
    | nan => exact absurd h.symm nan_ne
    | infinity _ => rfl
    | finite _ y => exact absurd h.symm (numeral_ne rfl)
  | finite _ x =>
    cases b with
    | nan => exact absurd h (numeral_ne rfl)
    | infinity _ => exact absurd h (numeral_ne rfl)
    | finite _ y =>
      have read := congrArg ofNumeral? h
      rw [abs, abs, ofNumeral?_chars, ofNumeral?_chars] at read
      exact Option.some.inj read

/-- Numbers of one text are the same but for the sign of zero. -/
theorem chars_eq_iff {a b : Number} : a.chars = b.chars ↔ a.canonical = b.canonical := by
  constructor
  · intro h
    rw [a.chars_eq_append, b.chars_eq_append] at h
    obtain ⟨sign, value⟩ := sign_eq_of_append_eq a.head?_chars_abs b.head?_chars_abs h
    exact canonical_eq_of_abs_eq sign (abs_eq_of_chars_eq value)
  · intro h
    rw [← a.chars_canonical, h, chars_canonical]

theorem text_eq_iff {a b : Number} : a.text = b.text ↔ a.canonical = b.canonical := by
  rw [text, text, String.ofList_inj, chars_eq_iff]

/-- The text of a magnitude is one token, whose text is the whole of it and whose value is the
magnitude; nothing else is found in it. The text of a negative number is a minus sign and the text
of its opposite. Two numbers, neither of them NaN, have the same text only if they are equal. -/
theorem text_reads_back :
    (∀ x : Magnitude,
      let text := (finite false x).text
      tokenize text = .ok [⟨.number text (finite false x), 0⟩] ∧
        scan text = [.ok ⟨.number text (finite false x), 0⟩]) ∧
    (∀ x : Magnitude, x ≠ .zero →
      (finite true x).text = "-" ++ (finite false x).text) ∧
    ∀ a b : Number, a.isNaN = false → b.isNaN = false → (a.text = b.text ↔ (a == b) = true) := by
  refine ⟨fun x => ?_, fun x some => ?_, fun a b number _ => ?_⟩
  · obtain ⟨pos, read⟩ := next?_ofSource_text x
    refine ⟨?_, ?_⟩
    · rw [tokenize_eq_ok_iff, Cursor.tokens_eq_cons read, Cursor.tokens_eq_nil rfl]
      rfl
    · rw [scan, Cursor.items_eq_cons read, Cursor.items_eq_nil rfl]
      rfl
  · have minus := chars_finite (fun zero => some (Magnitude.eq_zero zero)) true
    rw [text, minus, String.ofList_append]
    rfl
  · rw [text_eq_iff, beq_iff]
    exact (and_iff_left number).symm

/-- The least and the greatest magnitude are read back, the one from a text with a single digit. The
opposite of the least one has a text of its own, and the two zeros share one. -/
theorem text_reads_back_extremes :
    let least : Magnitude := ⟨1, 0, by decide, by decide, .inl rfl⟩
    let greatest : Magnitude := ⟨2 ^ 53 - 1, 2045, by decide, by decide, .inr (by decide)⟩
    tokenize "5e-324" = .ok [⟨.number "5e-324" (finite false least), 0⟩] ∧
      scan "1.7976931348623157e+308" =
        [.ok ⟨.number "1.7976931348623157e+308" (finite false greatest), 0⟩] ∧
      (least ≠ .zero ∧ (finite true least).text = "-5e-324") ∧
      ((finite true least).isNaN = false ∧ (finite false least).isNaN = false ∧
        (finite true least).text ≠ (finite false least).text) ∧
      (finite true .zero).isNaN = false ∧ (finite false .zero).isNaN = false ∧
        (finite true .zero).text = (finite false .zero).text := by
  intro least greatest
  obtain ⟨reads, minus, equal⟩ := text_reads_back
  have low : (finite false least).text = "5e-324" := by decide +kernel
  have high : (finite false greatest).text = "1.7976931348623157e+308" := by decide +kernel
  have some : least ≠ .zero := by decide
  have opposite := minus least some
  have tokens := (reads least).1
  have found := (reads greatest).2
  rw [low] at tokens opposite
  rw [high] at found
  refine ⟨tokens, found, ⟨some, opposite⟩, ⟨rfl, rfl, fun same => ?_⟩, rfl, rfl, ?_⟩
  · have signs := (equal (finite true least) (finite false least) rfl rfl).1 same
    cases signs
  · exact (equal (finite true .zero) (finite false .zero) rfl rfl).2 rfl

end Number

end DataBinding
