import DataBinding.Number.Decimal

/-!
# Shortest decimals

A magnitude has many decimals that round to it. The one written for it has the fewest digits, and
among those with equally many it is the nearest, a tie going up. A unit of `2 ^ -1074` is
`5 ^ 1074` units of `10 ^ -1074`, so every magnitude is a decimal without rounding; cutting that
decimal off after `n` digits gives one neighbour of the magnitude on the grid of `n` digits, and
one more in the last place gives the other. Whether a neighbour rounds to the magnitude is tried
out.

## Main definitions

* `Magnitude.toDecimal` — the exact decimal
* `Magnitude.nearest?` — the nearest decimal on a grid, if it reads back
* `Magnitude.shortest` — the shortest decimal that reads back
-/

namespace DataBinding

namespace Decimal

/-- The digits as they are written, without leading zeros. -/
def spelling (d : Decimal) : List Char := Nat.toDigits 10 d.digits

/-- The number of zeros at the end of the digits. -/
def trailingZeros (d : Decimal) : Nat := (d.spelling.reverse.takeWhile (· == '0')).length

/-- The same value without zeros at the end of the digits. -/
def strip (d : Decimal) : Decimal :=
  ⟨d.digits / Nat.pow 10 d.trailingZeros, d.exponent + d.trailingZeros⟩

end Decimal

namespace Magnitude

/-- The value as a decimal, without rounding. -/
def toDecimal (x : Magnitude) : Decimal := ⟨x.units * Nat.pow 5 1074, -1074⟩

/-- The decimal nearest to the magnitude among those that have nothing in the last `dropped` places
of the exact one, if one of the two neighbours rounds to the magnitude; a tie goes up. -/
def nearest? (x : Magnitude) (dropped : Nat) : Option Decimal :=
  let grid := Nat.pow 10 dropped
  let exact := x.toDecimal
  let below : Decimal := ⟨exact.digits / grid, exact.exponent + dropped⟩
  let above : Decimal := ⟨below.digits + 1, below.exponent⟩
  if below.round? = some x then
    if above.round? = some x ∧ grid ≤ 2 * (exact.digits % grid) then some above else some below
  else if above.round? = some x then some above
  else none

/-- The decimal with the fewest digits that rounds to the magnitude, the nearest of those. -/
def shortest (x : Magnitude) : Decimal :=
  let exact := x.toDecimal
  let size := exact.spelling.length
  (((List.range 17).findSome? fun n => x.nearest? (size - (n + 1))).getD exact).strip

end Magnitude

end DataBinding
