import DataBinding.Value.Basic

/-!
# The text of a value

The text of a value is also the key that it stands for when it is used as one. A string is its own
text, the elements of a list stand between commas, undefined and null among them leaving their
place empty, and a map is written with braces, its fields in the order of their keys.

## Main definitions

* `Value.chars`, `Value.text` — the text of a value
-/

namespace DataBinding.Value

mutual

/-- The text of a value. -/
def chars : Value → List Char
  | undefined => "undefined".toList
  | null => "null".toList
  | bool b => boolChars b
  | number n => n.chars
  | str s => s.toList
  | list elements => [','].intercalate (elementChars elements)
  | map fields => '\x7b' :: [',', ' '].intercalate (fieldChars fields) ++ ['\x7d']
  | function _ => "<function>".toList

/-- The texts of the elements of a list. -/
def elementChars : List Value → List (List Char)
  | [] => []
  | v :: rest => (if v.isNullish then [] else chars v) :: elementChars rest

/-- The texts of the fields of a map. -/
def fieldChars : List (String × Value) → List (List Char)
  | [] => []
  | (key, v) :: rest => (key.toList ++ ':' :: ' ' :: chars v) :: fieldChars rest

end

/-- The text of a value, as a string. -/
def text (v : Value) : String := String.ofList v.chars

end DataBinding.Value
