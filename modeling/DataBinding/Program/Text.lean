import DataBinding.Program.Basic
import DataBinding.Token
import DataBinding.Value.Text

/-!
# The text of a program

A program is written as the body of a function of the context `s` and the locals `l`. Guards are
spelled out as conditions. In strings only ASCII letters, digits and blanks are written as they are,
and everything else as the codes of its UTF-16 units, so that no string can be taken for code.

## Main definitions

* `codeString` — a string as the text of a program shows it
* `Operand.chars`, `Statement.chars`, `Program.chars` — the texts
-/

namespace DataBinding

/-- The UTF-16 units of a character. -/
def utf16Units (c : Char) : List Nat :=
  if c.toNat < 0x10000 then [c.toNat]
  else [0xD800 + (c.toNat - 0x10000) / 0x400, 0xDC00 + (c.toNat - 0x10000) % 0x400]

/-- A UTF-16 unit as `\u` with four hexadecimal digits. -/
def unitEscape (unit : Nat) : List Char :=
  ['\\', 'u', Nat.digitChar (unit / 0x1000 % 16), Nat.digitChar (unit / 0x100 % 16),
    Nat.digitChar (unit / 0x10 % 16), Nat.digitChar (unit % 16)]

/-- Whether the character is written as it is between the quotes. -/
def isPlain (c : Char) : Bool := c.isAlphanum || c == ' '

/-- How a character is written between the quotes. -/
def codeChar (c : Char) : List Char :=
  if isPlain c then [c] else (utf16Units c).flatMap unitEscape

/-- A string between quotes. -/
def codeString (s : String) : List Char := '\'' :: (s.toList.flatMap codeChar ++ ['\''])

/-- The pieces with commas between them. -/
def commas (pieces : List (List Char)) : List Char := [','].intercalate pieces

namespace Value

mutual

/-- The text of a value in a program. -/
def codeChars : Value → List Char
  | str s => codeString s
  | list elements => '[' :: commas (codeElements elements) ++ [']']
  | map fields => '\x7b' :: commas (codeFields fields) ++ ['\x7d']
  | v => v.chars

def codeElements : List Value → List (List Char)
  | [] => []
  | v :: rest => codeChars v :: codeElements rest

def codeFields : List (String × Value) → List (List Char)
  | [] => []
  | (key, v) :: rest => (codeString key ++ ':' :: codeChars v) :: codeFields rest

end

end Value

/-- The text of a temporary. -/
def tempChars (id : Nat) : List Char := 'v' :: Nat.toDigits 10 id

namespace Operand

/-- The key of an entry: a word as it is, and any other key as a string. -/
def keyChars (key : String) : List Char := if isWord key.toList then key.toList else codeString key

mutual

/-- The text of an operand. -/
def chars : Operand → List Char
  | literal value => value.codeChars
  | temp id => tempChars id
  | context => ['s']
  | locals => ['l']
  | list elements => '[' :: commas (elementChars elements) ++ [']']
  | map entries => '\x7b' :: commas (entryChars entries) ++ ['\x7d']

def elementChars : List Operand → List (List Char)
  | [] => []
  | o :: rest => chars o :: elementChars rest

def entryChars : List (String × Operand) → List (List Char)
  | [] => []
  | (key, o) :: rest => (keyChars key ++ ':' :: chars o) :: entryChars rest

end

/-- The text of an operand, as a string. -/
def text (o : Operand) : String := String.ofList o.chars

end Operand

/-- An assignment to a temporary under a condition. -/
def guardedChars (condition : List Char) (into : Nat) (value : List Char) : List Char :=
  "if(".toList ++ condition ++ ')' :: '\x7b' :: tempChars into ++ '=' :: value ++ [';', '\x7d']

/-- The text of a statement. -/
def Statement.chars : Statement → List Char
  | load into name =>
    let isLocal := "l&&(".toList ++ codeString name ++ " in l)".toList
    guardedChars isLocal into ('l' :: '.' :: name.toList) ++
      guardedChars ("!(".toList ++ isLocal ++ ")&&s".toList) into ('s' :: '.' :: name.toList)
  | member into object name =>
    guardedChars object.chars into ('(' :: object.chars ++ ')' :: '.' :: name.toList)
  | index into object key =>
    guardedChars object.chars into ('(' :: object.chars ++ ')' :: '[' :: key.chars ++ [']'])
  | call into callee args =>
    guardedChars callee.chars into
      ('(' :: callee.chars ++ ')' :: '(' :: commas (Operand.elementChars args) ++ [')'])
  | ret value => "return ".toList ++ value.chars ++ [';']

namespace Program

/-- The declaration of the temporaries, if there are any. -/
def varsChars (vars : List Nat) : List Char :=
  if vars.isEmpty then [] else "var ".toList ++ commas (vars.map tempChars) ++ [';']

/-- The text of a program. -/
def chars (p : Program) : List Char := varsChars p.vars ++ p.body.flatMap Statement.chars

/-- The text of a program, as a string. -/
def text (p : Program) : String := String.ofList p.chars

end Program

end DataBinding
