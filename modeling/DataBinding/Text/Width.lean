import DataBinding.Text.Width.Ranges

/-!
# Display width

How many columns of a terminal a text within a line takes. A wide character takes two, a combining
or ignorable one none, and every other one, control characters included, takes one. What stands to
the right of a character may change that: a selector or a skin tone that applies to it, a joiner
that makes one picture of two emoji, or a letter that fuses with it. So the text is read from its
end, and what has just been passed is remembered.

## Main definitions

* `Width.ofChar` — the columns of a character on its own
* `Width.Context`, `Width.Ahead` — what stands to the right of a character, as far as it matters
* `Width.step` — the columns that a character adds before what stands ahead
* `Width.ofText` — the columns of a text
-/

namespace DataBinding.Width

/-- The columns of a character on its own. -/
def ofChar (c : Char) : Nat :=
  if c ≤ '\u00A0' then 1
  else if inRanges zeroRanges c then 0
  else if c = '\u17D8' then 3
  else if inRanges wideRanges c then 2
  else 1

/-! ## Classes of characters -/

/-- The joiner, which fuses emoji and also letters. -/
def joiner : Char := '\u200D'

/-- The selector that asks for the picture of a character. -/
def emojiSelector : Char := '\uFE0F'

/-- The selector that asks for the text symbol of a character. -/
def textSelector : Char := '\uFE0E'

/-- Whether the character sets a skin tone. -/
def isModifier (c : Char) : Bool := inRanges [(0x1F3FB, 0x1F3FF)] c

/-- Whether the character is one half of a flag. -/
def isIndicator (c : Char) : Bool := inRanges [(0x1F1E6, 0x1F1FF)] c

/-- Whether the character is a small letter of the code of a regional flag. -/
def isTagLetter (c : Char) : Bool := inRanges [(0xE0061, 0xE007A)] c

/-- Whether the character is a digit of the code of a regional flag. -/
def isTagDigit (c : Char) : Bool := inRanges [(0xE0030, 0xE0039)] c

/-- The black flag, which begins a regional flag. -/
def blackFlag : Char := Char.ofNat 0x1F3F4

/-- The end of the code of a regional flag. -/
def tagEnd : Char := Char.ofNat 0xE007F

/-- Whether the character is a Tifinagh consonant. -/
def isTifinagh (c : Char) : Bool := inRanges [(0x2D31, 0x2D65), (0x2D6F, 0x2D6F)] c

/-- The mark that joins two Tifinagh consonants. -/
def tifinaghJoiner : Char := '\u2D7F'

/-- Whether the character can stand below a Khmer letter. -/
def isKhmer (c : Char) : Bool :=
  inRanges [(0x1780, 0x1782), (0x1784, 0x1787), (0x1789, 0x178C), (0x178E, 0x1793),
    (0x1795, 0x1798), (0x179B, 0x179D), (0x17A0, 0x17A0), (0x17A2, 0x17A2), (0x17A7, 0x17A7),
    (0x17AB, 0x17AC), (0x17AF, 0x17AF)] c

/-! ## What stands ahead -/

/-- A letter that can fuse with what comes before it. -/
inductive Letter where
  /-- The Hebrew lamed, which fuses with an alef. -/
  | lamed
  /-- The Buginese ya, which fuses with a vowelled a. -/
  | ya
  /-- The same with the vowel sign of the a. -/
  | vowelYa
  /-- A Tifinagh consonant, which fuses with another one. -/
  | tifinagh
  /-- The same with the mark that joins them. -/
  | markedTifinagh
  /-- The second of two Lisu tone letters. -/
  | lisuTone
  /-- The Old Turkic i, which fuses with an ec. -/
  | orkhonI
  /-- A Khmer letter, which the sign before it moves below another one. -/
  | khmer
deriving DecidableEq

/-- What is joined to an emoji on its right. -/
inductive Joined where
  /-- Nothing yet. -/
  | start
  /-- The frame of a key. -/
  | keycap
  /-- The second half of a flag. -/
  | indicator
  /-- A flag, with half a flag before it if `odd`. -/
  | flags (odd : Bool)
  /-- The end of the code of a regional flag, with letters before it. -/
  | tagLetters (count : Nat)
  /-- The end of the code of a regional flag, with digits at its beginning. -/
  | tagDigits (count : Nat)
deriving DecidableEq

/-- What stands to the right of a character, without the selectors. -/
inductive Context where
  /-- Nothing that matters. -/
  | plain
  /-- A skin tone. -/
  | modifier
  /-- Half a flag. -/
  | indicator
  /-- Several halves of flags. -/
  | indicators
  /-- An emoji that is shown as a picture. -/
  | picture
  /-- Parts of an emoji that a joiner fuses with the emoji on the right. -/
  | joined (part : Joined)
  /-- An Arabic letter that fuses with a lam. -/
  | alef
  /-- A letter that fuses; `joined` if a joiner has been passed since. -/
  | letter (l : Letter) (joined : Bool)
deriving DecidableEq

namespace Context

/-- Whether it is a letter that fuses. Selectors do not keep letters apart. -/
def isLetter : Context → Bool
  | alef => true
  | letter _ _ => true
  | _ => false

/-- Whether a picture on the left is fused with the emoji on the right. -/
def isJoined : Context → Bool
  | joined .start => true
  | joined .keycap => true
  | _ => false

/-- What a character is for the one on its left, taken on its own. -/
def ofChar (c : Char) : Context :=
  if isModifier c then modifier
  else if isIndicator c then indicator
  else if inRanges pictureRanges c then picture
  else if inRanges alefRanges c then alef
  else if c = '\u05DC' then letter .lamed false
  else if c = '\u1A10' then letter .ya false
  else if isTifinagh c then letter .tifinagh false
  else if inRanges [(0xA4FC, 0xA4FD)] c then letter .lisuTone false
  else if c = Char.ofNat 0x10C03 then letter .orkhonI false
  else if isKhmer c then letter .khmer false
  else plain

end Context

/-- What stands to the right of a character: the context, and the selectors before it. -/
structure Ahead where
  context : Context
  emojiStyle : Bool
  textStyle : Bool
deriving DecidableEq

namespace Ahead

/-- A context without selectors. -/
def of (context : Context) : Ahead := ⟨context, false, false⟩

/-- What is ahead once the selector for pictures has come before it. -/
def addEmojiStyle (a : Ahead) : Ahead :=
  if a.context.isLetter || a.context.isJoined then { a with emojiStyle := true }
  else ⟨.plain, true, false⟩

/-- What is ahead once the selector for text has come before it. -/
def addTextStyle (a : Ahead) : Ahead :=
  if a.context.isLetter then { a with textStyle := true } else ⟨.plain, false, true⟩

/-- What is ahead if the selector for pictures selects nothing. -/
def dropEmojiStyle (a : Ahead) : Ahead :=
  if a.emojiStyle && !a.context.isLetter then of .plain else { a with emojiStyle := false }

end Ahead

/-! ## How a character and what stands ahead act on each other -/

/-- The columns that a character adds before a letter, and what the two are together. A fused pair
takes one column, and a Khmer letter below another one takes none. -/
def beforeLetter? (c : Char) (l : Letter) (joined : Bool) : Option (Int × Context) :=
  if c = joiner then some (0, .letter l true)
  else if inRanges unseenRanges c then some (0, .letter l joined)
  else
    match l with
    | .lamed => if joined && c == '\u05D0' then some (0, .plain) else none
    | .ya => if joined && c == '\u1A17' then some (0, .letter .vowelYa true) else none
    | .vowelYa => if c = '\u1A15' then some (0, .plain) else none
    | .tifinagh =>
      if c = tifinaghJoiner then some (1, .letter .markedTifinagh true)
      else if joined && isTifinagh c then some (0, .plain)
      else none
    -- The mark has been counted on its own and is part of the pair after all.
    | .markedTifinagh => if isTifinagh c then some (-1, .plain) else none
    | .lisuTone => if inRanges [(0xA4F8, 0xA4FB)] c then some (0, .plain) else none
    | .orkhonI => if joined && c == Char.ofNat 0x10C32 then some (0, .plain) else none
    | .khmer => if c = '\u17D2' then some (-1, .plain) else none

/-- The columns that a character adds before parts of an emoji that are joined to another one, and
what they are together. Only the last emoji counts, and a flag that is joined to it takes nothing,
but its halves are counted before it is known to be one. -/
def beforeJoined? (c : Char) : Joined → Option (Int × Context)
  | .start =>
    if c = '\u20E3' then some (0, .joined .keycap)
    else if isIndicator c then some (1, .joined .indicator)
    else if isModifier c then some (0, .modifier)
    else if c = tagEnd then some (0, .joined (.tagLetters 0))
    else if inRanges pictureRanges c then some (0, .picture)
    else none
  | .keycap => none
  | .indicator => if isIndicator c then some (-1, .joined (.flags false)) else none
  | .flags odd =>
    if c = joiner then some (0, .joined .start)
    else if isIndicator c then some (if odd then -1 else 3, .joined (.flags !odd))
    else none
  | .tagLetters count =>
    if isTagLetter c && count < 6 then some (0, .joined (.tagLetters (count + 1)))
    else if isTagDigit c && count < 5 then some (0, .joined (.tagDigits 1))
    else if c == blackFlag && 3 ≤ count then some (0, .picture)
    else none
  | .tagDigits count =>
    if isTagDigit c && count < 3 then some (0, .joined (.tagDigits (count + 1)))
    else if c == blackFlag && count == 3 then some (0, .picture)
    else none

/-- The columns that a character adds before a context, and what they are together; `none` where
the two do not act on each other. -/
def before? (c : Char) : Context → Option (Int × Context)
  | .plain => none
  | .modifier =>
    if c = joiner then some (0, .joined .start)
    else if inRanges modifierBaseRanges c then some (0, .picture)
    else none
  | .indicator => if isIndicator c then some (1, .indicators) else none
  | .indicators =>
    if c = joiner then some (0, .joined .start)
    else if isIndicator c then some (1, .indicators)
    else none
  | .picture => if c = joiner then some (0, .joined .start) else none
  | .joined part => beforeJoined? c part
  | .alef =>
    if inRanges lamRanges c then some (0, .plain)
    else if inRanges zeroRanges c && !inRanges opaqueRanges c then some (0, .alef)
    else none
  | .letter l joined => beforeLetter? c l joined

/-- The columns that a character adds before what stands ahead, and what the two are together for
the next character to the left. -/
def step (c : Char) (ahead : Ahead) : Int × Ahead :=
  if ahead.emojiStyle && inRanges emojiRanges c then
    (if ahead.context.isJoined then 0 else 2, .of .picture)
  else
    let ahead := ahead.dropEmojiStyle
    if c ≤ '\u00A0' then (1, .of .plain)
    else if c = emojiSelector then (0, ahead.addEmojiStyle)
    else if c = textSelector then (0, ahead.addTextStyle)
    else if ahead.textStyle && inRanges textFormRanges c then (1, .of .plain)
    else
      let (columns, context) := (before? c ahead.context).getD (ofChar c, .ofChar c)
      (columns, .of context)

/-- The columns of a text, and what the text is for a character before it. -/
def scan : List Char → Int × Ahead
  | [] => (0, .of .plain)
  | c :: rest =>
    let (columns, ahead) := scan rest
    let (more, ahead) := step c ahead
    (columns + more, ahead)

/-- The columns of a text. -/
def ofText (cs : List Char) : Nat := (scan cs).1.toNat

end DataBinding.Width
