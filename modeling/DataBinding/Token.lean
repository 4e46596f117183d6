import DataBinding.Literal

/-!
# Tokens

The source of an expression is a sequence of tokens: punctuation marks, words, numbers and strings.
A word is a name or a keyword; which of the two depends on where it stands.

## Main definitions

* `Mark` — the punctuation marks
* `Lexeme` — a token without its place
* `Token` — a lexeme and the offset at which it begins
* `isWordStart`, `isWordChar` — the characters of words
-/

namespace DataBinding

/-- A punctuation mark. -/
inductive Mark where
  | openBracket | closeBracket | openBrace | closeBrace | openParen | closeParen
  | colon | dot | comma
deriving DecidableEq, Repr

namespace Mark

/-- The mark as it is written. -/
def char : Mark → Char
  | openBracket => '['
  | closeBracket => ']'
  | openBrace => '{'
  | closeBrace => '}'
  | openParen => '('
  | closeParen => ')'
  | colon => ':'
  | dot => '.'
  | comma => ','

/-- The mark that a character is. -/
def ofChar? : Char → Option Mark
  | '[' => some openBracket
  | ']' => some closeBracket
  | '{' => some openBrace
  | '}' => some closeBrace
  | '(' => some openParen
  | ')' => some closeParen
  | ':' => some colon
  | '.' => some dot
  | ',' => some comma
  | _ => none

end Mark

/-- Whether a word can begin with the character: an ASCII letter, `_` or `$`. -/
def isWordStart (c : Char) : Bool := c.isAlpha || c == '_' || c == '$'

/-- Whether a word can go on with the character. -/
def isWordChar (c : Char) : Bool := isWordStart c || c.isDigit

/-- Whether the text is a word. -/
def isWord : List Char → Bool
  | [] => false
  | c :: rest => isWordStart c && rest.all isWordChar

/-- A token without its place. A number keeps its spelling, since several spell the same value. -/
inductive Lexeme where
  | mark (m : Mark)
  | word (name : String)
  | number (spelling : String) (value : Number)
  | str (value : String)
deriving BEq

namespace Lexeme

/-- The literal that the lexeme is, if it is one. -/
def literal? : Lexeme → Option Literal
  | number _ value => some (.number value)
  | str value => some (.str value)
  | _ => none

/-- The text of the lexeme: its spelling, but for a string its value. -/
def text : Lexeme → String
  | mark m => m.char.toString
  | word name => name
  | number spelling _ => spelling
  | str value => value

/-- The lexeme as messages show it: literals as values, all else as it is spelled. -/
def shown (l : Lexeme) : String :=
  match l.literal? with
  | some value => value.text
  | none => l.text

end Lexeme

/-- A lexeme and the offset in bytes at which it begins. -/
structure Token where
  lexeme : Lexeme
  pos : Nat
deriving BEq

end DataBinding
