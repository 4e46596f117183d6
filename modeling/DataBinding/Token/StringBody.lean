/-!
# Strings between quotes

Between quotes a character stands for itself, unless it is a backslash. After a backslash, the
letters `n f r t v` stand for control characters, `u` with four hexadecimal digits for a character
given by its UTF-16 code, and every other character for itself. A character beyond the first 65536
takes two such codes, a high surrogate and a low one, and a surrogate cannot stand alone.

## Main definitions

* `hexCode?` — the value of four hexadecimal digits
* `unicodeEscape` — the character that a code, or two, stand for
* `StringBody.scan` — what follows an opening quote, up to the closing one
-/

namespace DataBinding

/-- The value of a hexadecimal digit, in either case. -/
def hexDigit? (c : Char) : Option Nat :=
  if c.isDigit then some (c.toNat - '0'.toNat)
  else if 'a' ≤ c ∧ c ≤ 'f' then some (c.toNat - 'a'.toNat + 10)
  else if 'A' ≤ c ∧ c ≤ 'F' then some (c.toNat - 'A'.toNat + 10)
  else none

/-- The value of the first four characters, if they are hexadecimal digits. -/
def hexCode? : List Char → Option Nat
  | a :: b :: c :: d :: _ => do
    let a ← hexDigit? a
    let b ← hexDigit? b
    let c ← hexDigit? c
    let d ← hexDigit? d
    some (((a * 16 + b) * 16 + c) * 16 + d)
  | _ => none

/-- Whether the code is the first half of a pair. -/
def isHighSurrogate (code : Nat) : Bool := 0xD800 ≤ code && code < 0xDC00

/-- Whether the code is the second half of a pair. -/
def isLowSurrogate (code : Nat) : Bool := 0xDC00 ≤ code && code < 0xE000

/-- The character of a pair of surrogates. -/
def ofSurrogates (high low : Nat) : Char :=
  Char.ofNat (0x10000 + (high - 0xD800) * 0x400 + (low - 0xDC00))

/-- The character given by what follows `\u`, and how many characters give it. If none is given,
the error is the number of characters that were looked at and are passed over: digits only where
there were four, and a second `\u` with them. -/
def unicodeEscape (cs : List Char) : Except Nat (Char × Nat) :=
  match hexCode? cs with
  | none => .error 0
  | some code =>
    if isHighSurrogate code then
      match cs.drop 4 with
      | '\\' :: 'u' :: second =>
        match hexCode? second with
        | none => .error 6
        | some low => if isLowSurrogate low then .ok (ofSurrogates code low, 10) else .error 10
      | _ => .error 4
    else if isLowSurrogate code then .error 4
    else .ok (Char.ofNat code, 4)

/-- The character that a backslash before a character other than `u` stands for. -/
def escapedChar : Char → Char
  | 'n' => '\n'
  | 'f' => '\x0C'
  | 'r' => '\r'
  | 't' => '\t'
  | 'v' => '\x0B'
  | c => c

/-- What follows an opening quote. Sizes count characters. -/
inductive StringBody where
  /-- A string of this value; the size includes the closing quote. -/
  | closed (value : List Char) (size : Nat)
  /-- The source ends within the string. -/
  | unclosed (size : Nat)
  /-- A malformed `\u` escape, whose backslash is at `offset`; `size` characters are passed over. -/
  | malformed (offset size : Nat)
deriving DecidableEq, Repr

namespace StringBody

/-- The body with a character in front, spelled by `size` characters. -/
def cons (c : Char) (size : Nat) : StringBody → StringBody
  | closed value more => closed (c :: value) (size + more)
  | unclosed more => unclosed (size + more)
  | malformed offset more => malformed (size + offset) (size + more)

/-- Reads what follows an opening quote, up to the closing one or to what is wrong. -/
def scan (quote : Char) (cs : List Char) : StringBody :=
  match cs with
  | [] => unclosed 0
  | '\\' :: [] => unclosed 1
  | '\\' :: 'u' :: code =>
    match unicodeEscape code with
    | .ok (c, size) => (scan quote (code.drop size)).cons c (size + 2)
    | .error size => malformed 0 (size + 2)
  | '\\' :: c :: rest => (scan quote rest).cons (escapedChar c) 2
  | c :: rest => if c = quote then closed [] 1 else (scan quote rest).cons c 1
termination_by cs.length
decreasing_by all_goals simp only [List.length_drop, List.length_cons]; omega

end StringBody

end DataBinding
