import DataBinding.Number.Text

/-!
# Literals

The values that an expression spells out: numbers, strings, booleans and `null`.

## Main definitions

* `Literal` — the literals, compared as values: numbers by `Number.equal`
* `Literal.toKey` — the key that a literal stands for in an object
* `Literal.chars`, `Literal.text` — the text of a literal, which reads back
-/

namespace DataBinding

/-- The text of a boolean. -/
def boolChars (b : Bool) : List Char := if b then "true".toList else "false".toList

/-- A value that an expression spells out. -/
inductive Literal where
  | null
  | bool (value : Bool)
  | number (value : Number)
  | str (value : String)
deriving BEq

namespace Literal

/-- How a character is written between single quotes. -/
def quotedChar (c : Char) : List Char :=
  match c with
  | '\'' => ['\\', '\'']
  | '\\' => ['\\', '\\']
  | '\n' => ['\\', 'n']
  | '\r' => ['\\', 'r']
  | '\t' => ['\\', 't']
  | c => [c]

/-- A string between single quotes. -/
def quoted (s : String) : List Char := '\'' :: (s.toList.flatMap quotedChar ++ ['\''])

/-- The key that a literal stands for in an object. -/
def toKey : Literal → String
  | null => "null"
  | bool b => String.ofList (boolChars b)
  | number n => n.text
  | str s => s

/-- The text of a literal: its key, but for strings, which are quoted. -/
def chars : Literal → List Char
  | null => "null".toList
  | bool b => boolChars b
  | number n => n.chars
  | str s => quoted s

/-- The text of a literal, as a string. -/
def text (l : Literal) : String := String.ofList l.chars

end Literal

end DataBinding
