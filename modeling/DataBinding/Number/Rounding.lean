import DataBinding.Number.Basic

/-!
# Rounding to binary64

An exact nonnegative quotient is rounded to the nearest magnitude, a half going to the neighbour
with an even significand. The magnitudes are numbered in ascending order without gaps, so it is
enough to round the quotient to a whole number of steps of the right size: a carry out of the
significand moves on to the next larger step by itself.

## Main definitions

* `roundHalfEven` — a quotient rounded to a whole number
* `Magnitude.round?` — a quotient rounded to a magnitude
* `Number.ofInt`, `Number.ofSingleBits` — integers and binary32 numbers as numbers
-/

namespace DataBinding

/-- The quotient rounded to a whole number, a half going to the even neighbour. -/
def roundHalfEven (num den : Nat) : Nat :=
  let q := num / den
  let twice := 2 * (num % den)
  if den < twice ∨ twice = den ∧ q % 2 = 1 then q + 1 else q

/-- The magnitude nearest to `num / den` units, or `none` where that is the infinity. -/
def Magnitude.round? (num den : Nat) : Option Magnitude :=
  -- The shift of a quotient that keeps its 53 leading bits; below `2 ^ 53` units nothing is lost.
  let shift := (num / den).log2 - 52
  ofIndex? (shift <<< 52 + roundHalfEven num (den <<< shift))

namespace Number

/-- The number nearest to an integer. -/
def ofInt (n : Int) : Number :=
  ofMagnitude? (n < 0) (Magnitude.round? (n.natAbs <<< 1074) 1)

/-- The value of a binary32 number, given in its interchange format. -/
def ofSingleBits (bits : UInt32) : Number :=
  let negative : Bool := bits.toNat ≥ 1 <<< 31
  let exponent := bits.toNat >>> 23 % 1 <<< 8
  let fraction := bits.toNat % 1 <<< 23
  if exponent = 255 then
    if fraction = 0 then infinity negative else nan
  else
    -- A unit of binary32 is `2 ^ -149`, which is `2 ^ 925` units of `2 ^ -1074`.
    let units := if exponent = 0 then fraction else (1 <<< 23 + fraction) <<< (exponent - 1)
    ofMagnitude? negative (Magnitude.round? (units <<< 925) 1)

end Number

end DataBinding
