import DataBinding.SyntaxError
import DataBinding.Token
import DataBinding.Token.StringBody

/-!
# From source to tokens

The source is read from left to right. Blanks are skipped; the next character decides what kind of
token begins there, and the token takes as many characters as it can. Where no token can be made,
there is a fault, and reading may go on behind what was looked at.

## Main definitions

* `Recognized`, `recognize` — what begins with a character, and how much of the source it takes
* `Cursor` — a place in the source; `Cursor.next?` reads on from there
* `scan` — all tokens and faults of a source
* `tokenize` — the tokens of a source without faults
-/

namespace DataBinding

/-- The characters that may stand between tokens. -/
def isBlank (c : Char) : Bool :=
  c == ' ' || c == '\r' || c == '\t' || c == '\n' || c == '\x0B' || c == '\u00A0'

/-- What begins at some place. The place of a fault, and the size, count characters from there. -/
structure Recognized where
  outcome : Except (Fault × Nat) Lexeme
  size : Nat

namespace Recognized

/-- Whether the character is a sign. -/
def isSign (c : Char) : Bool := c == '+' || c == '-'

/-- Whether a digit comes first. -/
def startsWithDigit : List Char → Bool
  | c :: _ => c.isDigit
  | [] => false

/-- Whether a digit or a sign comes first. -/
def startsExponent : List Char → Bool
  | c :: _ => c.isDigit || isSign c
  | [] => false

/-- The characters that go on with a number, where `marked` says whether an exponent mark comes
before them. Digits and points always do, an exponent mark before a digit or a sign, and a sign
between an exponent mark and a digit. The second result says whether they end before a sign that
has the mark but not the digit. -/
def numberTail (marked : Bool) : List Char → List Char × Bool
  | [] => ([], false)
  | c :: rest =>
    let sign := marked && isSign c
    if c.isDigit || c == '.' || Decimal.isMark c && startsExponent rest
        || sign && startsWithDigit rest then
      let (taken, dangling) := numberTail (Decimal.isMark c) rest
      (c :: taken, dangling)
    else ([], sign)

/-- The number that begins with a character. -/
def number (c : Char) (rest : List Char) : Recognized :=
  let (tail, dangling) := numberTail false rest
  let spelling := c :: tail
  if dangling then ⟨.error (.invalidExponent, spelling.length), spelling.length⟩
  else
    match Number.ofNumeral? spelling with
    | some value => ⟨.ok (.number (String.ofList spelling) value), spelling.length⟩
    | none => ⟨.error (.invalidNumber, 0), spelling.length⟩

/-- The string that begins with a quote. -/
def string (quote : Char) (rest : List Char) : Recognized :=
  match StringBody.scan quote rest with
  | .closed value size => ⟨.ok (.str (String.ofList value)), size + 1⟩
  | .unclosed size => ⟨.error (.unmatchedQuote, 0), size + 1⟩
  | .malformed offset size => ⟨.error (.invalidUnicodeEscape, offset + 1), size + 1⟩

/-- The word that begins with a character. -/
def word (c : Char) (rest : List Char) : Recognized :=
  let spelling := c :: rest.takeWhile isWordChar
  ⟨.ok (.word (String.ofList spelling)), spelling.length⟩

end Recognized

open Recognized in
/-- What begins with the character `c`, where `rest` comes after it. -/
def recognize (c : Char) (rest : List Char) : Recognized :=
  if c.isDigit || c == '.' && startsWithDigit rest then number c rest
  else if c == '"' || c == '\'' then string c rest
  else
    match Mark.ofChar? c with
    | some m => ⟨.ok (.mark m), 1⟩
    | none => if isWordStart c then word c rest else ⟨.error (.unexpectedChar c, 0), 1⟩

theorem recognize_size_pos (c : Char) (rest : List Char) : 0 < (recognize c rest).size := by
  unfold recognize
  repeat' split
  · simp only [Recognized.number]
    split
    · exact Nat.succ_pos _
    · split <;> exact Nat.succ_pos _
  · unfold Recognized.string
    split <;> exact Nat.succ_pos _
  · exact Nat.one_pos
  · exact Nat.succ_pos _
  · exact Nat.one_pos

/-- A place in a source: its offset in bytes, and what follows. -/
structure Cursor where
  pos : Nat
  rest : List Char

namespace Cursor

/-- The beginning of a source. -/
def ofSource (source : String) : Cursor := ⟨0, source.toList⟩

/-- The place `count` characters further on. -/
def advance (cur : Cursor) (count : Nat) : Cursor :=
  ⟨cur.pos + byteSize (cur.rest.take count), cur.rest.drop count⟩

/-- The place behind the blanks that come first. -/
def skipBlanks (cur : Cursor) : Cursor := cur.advance (cur.rest.takeWhile isBlank).length

/-- What begins first after the blanks, a token or a fault with its offset, and the place behind
it; nothing at the end of the source. -/
def next? (cur : Cursor) : Option (Except (Fault × Nat) Token × Cursor) :=
  let cur := cur.skipBlanks
  match cur.rest with
  | [] => none
  | c :: rest =>
    let found := recognize c rest
    let item := match found.outcome with
      | .ok lexeme => .ok ⟨lexeme, cur.pos⟩
      | .error (fault, count) => .error (fault, (cur.advance count).pos)
    some (item, cur.advance found.size)

theorem next?_length_lt {cur next : Cursor} {item : Except (Fault × Nat) Token}
    (h : cur.next? = some (item, next)) : next.rest.length < cur.rest.length := by
  have skip : cur.skipBlanks.rest.length ≤ cur.rest.length := by
    simp [skipBlanks, advance]
  unfold next? at h
  simp only at h
  split at h
  · cases h
  · rename_i c rest eq
    have size := recognize_size_pos c rest
    rw [eq, List.length_cons] at skip
    cases h
    simp only [advance, eq, List.length_drop, List.length_cons]
    omega

/-- All tokens and faults from a place on; after a fault, reading goes on behind it. -/
def items (cur : Cursor) : List (Except (Fault × Nat) Token) :=
  match _h : cur.next? with
  | none => []
  | some (item, next) => item :: items next
termination_by cur.rest.length
decreasing_by exact next?_length_lt _h

/-- The tokens from a place on, or the first fault, at which reading stops. -/
def tokens (cur : Cursor) : Except (Fault × Nat) (List Token) :=
  match _h : cur.next? with
  | none => .ok []
  | some (.error e, _) => .error e
  | some (.ok token, next) => (tokens next).map (token :: ·)
termination_by cur.rest.length
decreasing_by exact next?_length_lt _h

end Cursor

/-- All tokens and syntax errors of a source, in order. -/
def scan (source : String) : List (Except SyntaxError Token) :=
  (Cursor.ofSource source).items.map fun item => item.mapError (.ofFault source)

/-- The tokens of a source, or the first error in it. -/
def tokenize (source : String) : Except SyntaxError (List Token) :=
  (Cursor.ofSource source).tokens.mapError (.ofFault source)

end DataBinding
