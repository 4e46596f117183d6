import DataBinding.Fields
import DataBinding.Literal

/-!
# Values

What expressions are evaluated against and what they evaluate to. A map keeps its fields in order
(`Fields`). A function is known by its name alone; what a call of it does is up to the host.

## Main definitions

* `Function`, `Value` — the values
* `Value.ofLiteral`, `Value.ofInt`, `Value.ofEntries` and others — values of other data
* `Value.beq` — equality, under which NaN differs from itself and `0` equals `-0`
* `Value.truthy` — whether a guard lets the value pass
* `Value.WellFormed` — the fields of every map within the value are in order
-/

namespace DataBinding

/-- A function of the host. Functions are equal only if they are the same. -/
structure Function where
  name : String
deriving DecidableEq, Repr

/-- How a function is shown on its own. -/
def Function.label (_f : Function) : String := "<fun>"

/-- A value. -/
inductive Value where
  | undefined
  | null
  | bool (value : Bool)
  | number (value : Number)
  | str (value : String)
  | list (elements : List Value)
  /-- A map; its fields are ascending. -/
  | map (fields : List (String × Value))
  | function (f : Function)

namespace Value

instance : Inhabited Value := ⟨undefined⟩

/-- The value of a literal. -/
def ofLiteral : Literal → Value
  | .null => null
  | .bool b => bool b
  | .number n => number n
  | .str s => str s

/-- An integer as a value, rounded to the nearest number. -/
def ofInt (n : Int) : Value := number (.ofInt n)

/-- A character as a value: the string of it alone. -/
def ofChar (c : Char) : Value := str c.toString

/-- The map with the entries; of several with one key the last counts. -/
def ofEntries (entries : List (String × Value)) : Value := map (Fields.ofList entries)

/-- A value that may be missing; it is null if it is. -/
def ofOption : Option Value → Value
  | some v => v
  | none => null

def isUndefined : Value → Bool
  | undefined => true
  | _ => false

def isNull : Value → Bool
  | null => true
  | _ => false

/-- Whether the value is undefined or null. -/
def isNullish (v : Value) : Bool := v.isUndefined || v.isNull

/-- Whether a guard lets the value pass: not undefined, null, `false`, a zero, NaN or the empty
string. -/
def truthy : Value → Bool
  | undefined => false
  | null => false
  | bool b => b
  | number n => !n.isZero && !n.isNaN
  | str s => !s.isEmpty
  | _ => true

mutual

/-- Equality of values. -/
def beq : Value → Value → Bool
  | undefined, undefined => true
  | null, null => true
  | bool a, bool b => a == b
  | number a, number b => a == b
  | str a, str b => a == b
  | list a, list b => beqList a b
  | map a, map b => beqFields a b
  | function f, function g => f == g
  | _, _ => false

def beqList : List Value → List Value → Bool
  | [], [] => true
  | a :: as, b :: bs => beq a b && beqList as bs
  | _, _ => false

def beqFields : List (String × Value) → List (String × Value) → Bool
  | [], [] => true
  | (k, a) :: as, (l, b) :: bs => k == l && beq a b && beqFields as bs
  | _, _ => false

end

instance : BEq Value := ⟨beq⟩

mutual

/-- The fields of every map within the value are in order. -/
def WellFormed : Value → Prop
  | list elements => WellFormedList elements
  | map fields => Fields.Ascending fields ∧ WellFormedFields fields
  | _ => True

def WellFormedList : List Value → Prop
  | [] => True
  | v :: rest => WellFormed v ∧ WellFormedList rest

def WellFormedFields : List (String × Value) → Prop
  | [] => True
  | (_, v) :: rest => WellFormed v ∧ WellFormedFields rest

end

end Value

end DataBinding
