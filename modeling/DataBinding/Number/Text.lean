import DataBinding.Number.Shortest

/-!
# The text of a number

A number is written with the shortest digits that read back. From `1e-6` up to, but not including,
`1e21` they are written with a point where one is needed; outside of that range with an exponent,
which always has a sign. Both zeros are written `0`.

## Main definitions

* `Decimal.positional`, `Decimal.scientific` — the two forms
* `Number.chars`, `Number.text` — the text of a number
-/

namespace DataBinding

namespace Decimal

/-- The exponent of the leading digit. -/
def leading (d : Decimal) : Int := d.exponent + d.spelling.length - 1

/-- The digits with a point, or with zeros up to the point. -/
def positional (d : Decimal) : List Char :=
  let digits := d.spelling
  let whole := digits.length + d.exponent
  if 0 ≤ d.exponent then digits ++ List.replicate d.exponent.toNat '0'
  else if 0 < whole then digits.take whole.toNat ++ '.' :: digits.drop whole.toNat
  else '0' :: '.' :: (List.replicate (-whole).toNat '0' ++ digits)

/-- One digit before the point, and the exponent of that digit. -/
def scientific (d : Decimal) : List Char :=
  let point := match d.spelling with
    | first :: second :: rest => first :: '.' :: second :: rest
    | digits => digits
  let sign := if d.leading < 0 then '-' else '+'
  point ++ 'e' :: sign :: Nat.toDigits 10 d.leading.natAbs

/-- The form that is written: positional from `1e-6` to below `1e21`. -/
def chars (d : Decimal) : List Char :=
  if -6 ≤ d.leading ∧ d.leading < 21 then d.positional else d.scientific

end Decimal

namespace Number

/-- The sign as it is written. -/
def signChars (negative : Bool) : List Char := if negative then ['-'] else []

/-- The text of the number. -/
def chars : Number → List Char
  | nan => "NaN".toList
  | infinity negative => signChars negative ++ "Infinity".toList
  | finite negative x =>
    if x.significand = 0 then ['0'] else signChars negative ++ x.shortest.chars

/-- The text of the number, as a string. -/
def text (n : Number) : String := String.ofList n.chars

end Number

end DataBinding
