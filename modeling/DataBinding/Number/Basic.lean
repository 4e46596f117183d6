/-!
# Binary64 numbers

The numbers of expressions are the IEEE 754 binary64 numbers with a single NaN. A finite magnitude
is kept as a significand and a shift, that is, as a whole number of units of `2 ^ -1074`, the least
positive magnitude. The two fields determine the number and the number determines them, so equality
of magnitudes is equality of values. Expressions do no arithmetic; all that is computed on numbers
(reading, writing, comparing, indexing) is exact arithmetic on natural numbers.

## Main definitions

* `Magnitude` — a finite nonnegative number, with `Magnitude.units` as its value
* `Magnitude.index`, `Magnitude.ofIndex?` — the position of a magnitude in the order of all
* `Number` — a magnitude with a sign, an infinity, or NaN
* `Number.ofBits`, `Number.toBits` — the interchange format
* `Number.equal` — numeric equality, under which NaN differs from itself and `0` equals `-0`
* `Number.toNat?`, `Number.toIndex?` — the natural number and the index that a number is
-/

namespace DataBinding

/-- A finite nonnegative binary64 number: `significand * 2 ^ shift` units of `2 ^ -1074`. -/
structure Magnitude where
  /-- The significant bits, at most 53 of them. -/
  significand : Nat
  /-- How far the significand is moved up from the lowest place. -/
  shift : Nat
  significand_lt : significand < 1 <<< 53
  shift_le : shift ≤ 2045
  /-- Only at the lowest place may the leading bit be missing. -/
  normal : shift = 0 ∨ 1 <<< 52 ≤ significand
deriving DecidableEq

namespace Magnitude

/-- The value, as a number of units of `2 ^ -1074`. -/
def units (x : Magnitude) : Nat := x.significand <<< x.shift

def zero : Magnitude where
  significand := 0
  shift := 0
  significand_lt := by decide
  shift_le := by decide
  normal := .inl rfl

/-- The position among the magnitudes in ascending order, counted from `0`. -/
def index (x : Magnitude) : Nat := x.shift <<< 52 + x.significand

/-- The number of finite magnitudes; as a position it is that of the infinity. -/
def count : Nat := 2047 <<< 52

/-- The magnitude at a position, or `none` from the position of the infinity on. -/
def ofIndex? (i : Nat) : Option Magnitude :=
  -- Up to here the significand is the position: no magnitude below is moved up.
  if low : i < 1 <<< 53 then
    some ⟨i, 0, low, by decide, .inl rfl⟩
  else if high : i < count then
    have rest : i % 1 <<< 52 < 1 <<< 52 := Nat.mod_lt _ (by decide)
    some
      { significand := i % 1 <<< 52 + 1 <<< 52
        shift := i >>> 52 - 1
        significand_lt := by omega
        shift_le := by simp only [count] at high; omega
        normal := .inr (by omega) }
  else none

end Magnitude

/-- A binary64 number. -/
inductive Number where
  | nan
  | infinity (negative : Bool)
  | finite (negative : Bool) (magnitude : Magnitude)

namespace Number

/-- The number of a magnitude, an overflown one being the infinity. -/
def ofMagnitude? (negative : Bool) : Option Magnitude → Number
  | some x => finite negative x
  | none => infinity negative

/-- Decodes the interchange format: a sign bit above the position of the magnitude. -/
def ofBits (bits : UInt64) : Number :=
  let negative : Bool := bits.toNat ≥ 1 <<< 63
  let i := bits.toNat % 1 <<< 63
  if i ≤ Magnitude.count then ofMagnitude? negative (Magnitude.ofIndex? i) else nan

/-- Encodes into the interchange format, NaN as the quiet one without payload. -/
def toBits : Number → UInt64
  | nan => 0x7FF8000000000000
  | infinity negative => sign negative + Magnitude.count.toUInt64
  | finite negative x => sign negative + x.index.toUInt64
where
  /-- The sign bit. -/
  sign (negative : Bool) : UInt64 := if negative then 0x8000000000000000 else 0

def isNaN : Number → Bool
  | nan => true
  | _ => false

/-- Whether the number is `0` or `-0`. -/
def isZero : Number → Bool
  | finite _ x => x.significand == 0
  | _ => false

/-- Numeric equality: NaN differs from every number, and the two zeros are equal. -/
def equal : Number → Number → Bool
  | infinity a, infinity b => a == b
  | finite a x, finite b y => x == y && (a == b || x.significand == 0)
  | _, _ => false

instance : BEq Number := ⟨equal⟩

/-- The natural number that a number is, if it is one; `-0` is `0`. -/
def toNat? : Number → Option Nat
  | finite negative x =>
    if negative && x.significand != 0 then none
    else if x.units % 1 <<< 1074 = 0 then some (x.units >>> 1074)
    else none
  | _ => none

/-- The largest index: the largest natural number in a word of 64 bits. -/
def maxIndex : Nat := (1 <<< 64) - 1

/-- The index that a number is, if it is a natural number in range. The bound is the largest index
rounded to a number, which is one more; that number stands for the largest index. -/
def toIndex? (n : Number) : Option Nat :=
  n.toNat?.bind fun i => if i ≤ maxIndex + 1 then some (min i maxIndex) else none

end Number

end DataBinding
