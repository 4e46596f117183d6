/-!
# Lines and positions

A place in a text is given by its offset in bytes of UTF-8, or by the number of its line and the
number of bytes before it on that line. A line feed ends a line. In the content of a line the line
feed is left out, with a carriage return that stands right before it, and what follows the last
line feed is a line only if it is not empty.

## Main definitions

* `byteSize` — the size of a text
* `Position.ofOffset` — line and column of an offset
* `lines` — the contents of the lines
-/

namespace DataBinding

/-- The number of bytes of the text in UTF-8. -/
def byteSize : List Char → Nat
  | [] => 0
  | c :: cs => c.utf8Size + byteSize cs

/-- A place in a text; lines and columns count from `1`, columns in bytes. -/
structure Position where
  line : Nat
  col : Nat
deriving DecidableEq, Repr

namespace Position

/-- Where a text begins. -/
def start : Position := ⟨1, 1⟩

/-- The place after a character. -/
def after (p : Position) (c : Char) : Position :=
  if c = '\n' then ⟨p.line + 1, 1⟩ else ⟨p.line, p.col + c.utf8Size⟩

/-- The place that lies `offset` bytes after `p`, where the text `cs` begins, and at most at the
end of it. -/
def advance (p : Position) (cs : List Char) (offset : Nat) : Position :=
  match cs with
  | [] => p
  | c :: rest => if offset = 0 then p else advance (p.after c) rest (offset - c.utf8Size)

/-- The place of an offset in a text, and the end for an offset past it. -/
def ofOffset (cs : List Char) (offset : Nat) : Position := start.advance cs offset

end Position

/-- The contents of the lines of a text. -/
def lines : List Char → List (List Char)
  | [] => []
  | '\n' :: rest => [] :: lines rest
  | '\r' :: '\n' :: rest => [] :: lines rest
  | c :: rest =>
    -- The character belongs to the first line of the rest, and begins one if there is none.
    match lines rest with
    | [] => [[c]]
    | line :: more => (c :: line) :: more

end DataBinding
