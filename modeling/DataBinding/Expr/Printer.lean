import DataBinding.Expr.Basic

/-!
# Writing expressions

An expression is written on one line, with a blank after every comma and every colon and none
elsewhere.

## Main definitions

* `Expr.chars`, `Expr.text` — the text of an expression
-/

namespace DataBinding.Expr

/-- The pieces with a comma and a blank between them. -/
def separated (pieces : List (List Char)) : List Char := [',', ' '].intercalate pieces

mutual

/-- The text of an expression. -/
def chars : Expr → List Char
  | program body => chars body
  | literal value => value.chars
  | array elements => '[' :: separated (listChars elements) ++ [']']
  | object properties => '\x7b' :: separated (propertyChars properties) ++ ['\x7d']
  | ident name => name.toList
  | this => "this".toList
  | locals => "$locals".toList
  | member e name => chars e ++ '.' :: name.toList
  | index e key => chars e ++ '[' :: chars key ++ [']']
  | call callee args => chars callee ++ '(' :: separated (listChars args) ++ [')']

/-- The texts of several expressions. -/
def listChars : List Expr → List (List Char)
  | [] => []
  | e :: rest => chars e :: listChars rest

/-- The texts of the properties of an object. -/
def propertyChars : List (Key × Expr) → List (List Char)
  | [] => []
  | (key, value) :: rest => (key.chars ++ ':' :: ' ' :: chars value) :: propertyChars rest

end

/-- The text of an expression, as a string. -/
def text (e : Expr) : String := String.ofList e.chars

end DataBinding.Expr
