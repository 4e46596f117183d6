import DataBinding.Value.Text

/-!
# Properties

A map has the properties that its fields give. A list and a string have a `length` and one property
for each element or character, its key being the decimal spelling of the index. No other value has
properties, and a property that a value does not have is undefined.

## Main definitions

* `Value.hasOwn` — whether a value is a map with the key
* `Value.get` — the property of a key given as text
* `Value.getProperty` — the property of a key given as a value
-/

namespace DataBinding.Value

/-- Whether the value is a map with the key. -/
def hasOwn : Value → String → Bool
  | map fields, key => Fields.contains fields key
  | _, _ => false

/-- The value of a text as an index: digits, perhaps with a plus sign in front, whose value is not
above the largest index. -/
def parseIndex? (cs : List Char) : Option Nat :=
  let digits := match cs with
    | '+' :: ds => ds
    | ds => ds
  (Decimal.digits? digits).filter fun i => i ≤ Number.maxIndex

/-- The index whose decimal spelling the key is, without a sign and without leading zeros. -/
def index? (key : String) : Option Nat :=
  (parseIndex? key.toList).filter fun i => Nat.toDigits 10 i = key.toList

/-- What a value consists of in a row: the elements of a list, the characters of a string. -/
def elements? : Value → Option (List Value)
  | list elements => some elements
  | str s => some (s.toList.map ofChar)
  | _ => none

/-- The element at an index, or undefined. -/
def element (elements : List Value) (index : Nat) : Value := elements[index]?.getD undefined

/-- The property of a key given as text. -/
def get (v : Value) (key : String) : Value :=
  match v with
  | map fields => (Fields.find? fields key).getD undefined
  | v =>
    match v.elements? with
    | none => undefined
    | some elements =>
      if key = "length" then ofInt elements.length
      else
        match index? key with
        | some i => element elements i
        | none => undefined

/-- The property of a key given as a value. A key that is no string stands for its text; a number
that is an index is one without being spelled first. -/
def getProperty (v key : Value) : Value :=
  match key with
  | number n =>
    match v.elements?, n.toIndex? with
    | some elements, some i => element elements i
    | _, _ => v.get n.text
  | key => v.get key.text

end DataBinding.Value
