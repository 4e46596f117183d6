import DataBinding.Text.Lines
import DataBinding.Text.Width

/-!
# Syntax errors

What can be wrong with the source of an expression, where it is, and the message that says so. The
message shows the line of the error between its neighbours, with a caret below the place.

## Main definitions

* `Fault` — what is wrong; `Fault.chars` is its wording
* `SyntaxError` — a fault with its place in a source
* `SyntaxError.ofFault` — the error that a fault at an offset of a source is
* `SyntaxError.charsBy` — the message, given how wide texts are
* `SyntaxError.chars`, `SyntaxError.message` — the message as a terminal shows it
-/

namespace DataBinding

/-- What is wrong with a source. The first five faults concern the spelling of a token, the others
a token that cannot stand where it stands. -/
inductive Fault where
  | unexpectedChar (c : Char)
  | invalidExponent
  | invalidNumber
  | invalidUnicodeEscape
  | unmatchedQuote
  | unexpectedToken (expected found : String)
  | unexpectedEnd (expected : String)
  | trailingToken (found : String)
deriving DecidableEq, Repr

namespace Fault

/-- The wording of a fault. -/
def chars : Fault → List Char
  | unexpectedChar c => "unexpected next character: ".toList ++ [c]
  | invalidExponent => "invalid exponent".toList
  | invalidNumber => "invalid number".toList
  | invalidUnicodeEscape => "invalid unicode escape".toList
  | unmatchedQuote => "unmatched quote".toList
  | unexpectedToken expected found =>
    "unexpected token `".toList ++ found.toList ++ "`, expecting: ".toList ++ expected.toList
  | unexpectedEnd expected => "unexpected end of input, expecting: ".toList ++ expected.toList
  | trailingToken found =>
    "unexpected token `".toList ++ found.toList ++ "` after expression".toList

/-- The wording of a fault, as a string. -/
def text (f : Fault) : String := String.ofList f.chars

end Fault

/-- A fault with its place in a source. -/
structure SyntaxError where
  fault : Fault
  position : Position
  source : String
deriving DecidableEq, Repr

namespace SyntaxError

/-- The error that a fault at an offset of a source is; an offset past the end stands for the
end. -/
def ofFault (source : String) (located : Fault × Nat) : SyntaxError :=
  ⟨located.1, .ofOffset source.toList located.2, source⟩

/-- The first characters of a text that take exactly `size` bytes, if there are such. -/
def takeBytes? : List Char → Nat → Option (List Char)
  | _, 0 => some []
  | [], _ => none
  | c :: rest, size =>
    if c.utf8Size ≤ size then (takeBytes? rest (size - c.utf8Size)).map (c :: ·) else none

/-- How far a caret stands from the beginning of a line: as far as the text before the column is
wide, and a column within a character counts in bytes. -/
def caretOffset (width : List Char → Nat) (line : List Char) (col : Nat) : Nat :=
  let size := min (col - 1) (byteSize line)
  match takeBytes? line size with
  | some before => width before
  | none => size

/-- A line of the source as it is shown, with the caret below it if it is the line of the error. -/
def lineChars (width : List Char → Nat) (e : SyntaxError) (number : Nat) (line : List Char) :
    List Char :=
  let marked := number = e.position.line
  let margin := (if marked then "-> ".toList else "   ".toList) ++ Nat.toDigits 10 number
  let caret :=
    if marked then
      let offset := caretOffset width line e.position.col
      List.replicate (margin.length + 1 + offset) ' ' ++ ['^', '\n']
    else []
  margin ++ ' ' :: (line ++ '\n' :: caret)

/-- The lines that are shown, with their numbers: the line of the error and its neighbours. -/
def shown (e : SyntaxError) : List (Nat × List Char) :=
  let skipped := e.position.line - 2
  let window := ((lines e.source.toList).drop skipped).take 3
  window.mapIdx fun i line => (skipped + i + 1, line)

/-- The message of the error, where `width` tells how many columns a text takes. -/
def charsBy (width : List Char → Nat) (e : SyntaxError) : List Char :=
  "error on line ".toList ++ Nat.toDigits 10 e.position.line ++ ": ".toList ++ e.fault.chars ++
    '\n' :: e.shown.flatMap fun (number, line) => e.lineChars width number line

/-- The message of the error, in the columns of a terminal. -/
def chars (e : SyntaxError) : List Char := e.charsBy Width.ofText

/-- The message of the error, as a string. -/
def message (e : SyntaxError) : String := String.ofList e.chars

end SyntaxError

end DataBinding
