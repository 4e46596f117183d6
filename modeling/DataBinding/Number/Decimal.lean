import DataBinding.Number.Rounding

/-!
# Decimals

A decimal is a string of digits scaled by a power of ten. It is what a numeral in a text denotes,
before rounding, and what the text of a number spells out.

A numeral is `D+ [. D*]` or `. D+`, with an optional exponent `(e|E) [+|-] D+`.

## Main definitions

* `Decimal.round?` — the nearest magnitude
* `Decimal.ofNumeral?` — the decimal that a numeral denotes
* `Number.ofNumeral?` — the number that a numeral denotes
-/

namespace DataBinding

/-- The value `digits * 10 ^ exponent`. -/
structure Decimal where
  digits : Nat
  exponent : Int
deriving DecidableEq, Repr

namespace Decimal

/-- The nearest magnitude, or `none` where that is the infinity. Far outside the range of the
magnitudes the answer is known without working out the power of ten. -/
def round? (d : Decimal) : Option Magnitude :=
  if d.digits = 0 then some .zero
  else if 400 < d.exponent then none
  else if d.exponent + d.digits.log2 + 1100 < 0 then some .zero
  else
    Magnitude.round? ((d.digits * Nat.pow 10 d.exponent.toNat) <<< 1074)
      (Nat.pow 10 (-d.exponent).toNat)

/-- The value of a nonempty string of digits. -/
def digits? (cs : List Char) : Option Nat :=
  if !cs.isEmpty && cs.all Char.isDigit then some (Nat.ofDigitChars 10 cs 0) else none

/-- The value of the part of a numeral after the exponent mark. -/
def signedDigits? : List Char → Option Int
  | '+' :: cs => (digits? cs).map Int.ofNat
  | '-' :: cs => (digits? cs).map fun n => -Int.ofNat n
  | cs => (digits? cs).map Int.ofNat

/-- Whether the character is the exponent mark, in either case. -/
def isMark (c : Char) : Bool := c == 'e' || c == 'E'

/-- The value of what follows the digits and the point of a numeral: nothing, or an exponent. -/
def exponent? : List Char → Option Int
  | [] => some 0
  | c :: cs => if isMark c then signedDigits? cs else none

/-- The digits after the point, and what follows them; none where no point is next. -/
def fraction : List Char → List Char × List Char
  | '.' :: cs => (cs.takeWhile Char.isDigit, cs.dropWhile Char.isDigit)
  | cs => ([], cs)

/-- The decimal that a numeral denotes; `none` for any other text. -/
def ofNumeral? (cs : List Char) : Option Decimal :=
  let whole := cs.takeWhile Char.isDigit
  let (places, rest) := fraction (cs.dropWhile Char.isDigit)
  match digits? (whole ++ places), exponent? rest with
  | some n, some e => some ⟨n, e - places.length⟩
  | _, _ => none

end Decimal

/-- The number that a numeral denotes; `none` for any other text. -/
def Number.ofNumeral? (cs : List Char) : Option Number :=
  (Decimal.ofNumeral? cs).map fun d => .ofMagnitude? false d.round?

end DataBinding
