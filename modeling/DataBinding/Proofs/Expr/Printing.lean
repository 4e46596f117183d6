import DataBinding.Expr.Printer
import DataBinding.Proofs.Expr.Readable
import DataBinding.Proofs.Number.Text

/-!
# Lexemes of what is written

The text of an expression is meant to be cut into certain lexemes, and these derive the expression.
The texts of names, of marks and of literals are cut so, with two exceptions: the text of an
infinite number is a word, and a number swallows a point that follows it.

## Main definitions

* `Expr.lexemes` — the lexemes that are meant by the text of an expression
* `Expr.holdsInfinity`, `Expr.isNumberMember` — the nodes whose texts are cut differently
* `Reads` — the lexemes of a text in front of another

## Main results

* `Expr.derives_lexemes` — the lexemes that are meant derive the expression
* `reads_number`, `reads_word`, `reads_member` — the texts of numbers, of words, and of suffixes
  with a name
-/

namespace DataBinding

/-! ### The lexemes that are meant -/

/-- The lexeme that is meant by the text of a literal. -/
def Literal.lexeme : Literal → Lexeme
  | null => .word "null"
  | bool b => .word (String.ofList (boolChars b))
  | number n => .number n.text n
  | str s => .str s

/-- The lexeme that is meant by the text of a key. -/
def Key.lexeme : Key → Lexeme
  | name word => .word word
  | literal value => value.lexeme

namespace Expr

/-- The pieces with a comma between them. -/
def joined (pieces : List (List Lexeme)) : List Lexeme := [.mark .comma].intercalate pieces

mutual

/-- The lexemes that are meant by the text of an expression. -/
def lexemes : Expr → List Lexeme
  | program body => lexemes body
  | literal value => [value.lexeme]
  | array elements =>
    .mark .openBracket :: joined (listLexemes elements) ++ [.mark .closeBracket]
  | object properties =>
    .mark .openBrace :: joined (propertyLexemes properties) ++ [.mark .closeBrace]
  | ident name => [.word name]
  | this => [.word "this"]
  | locals => [.word "$locals"]
  | member e name => lexemes e ++ [.mark .dot, .word name]
  | index e key => lexemes e ++ .mark .openBracket :: lexemes key ++ [.mark .closeBracket]
  | call callee args =>
    lexemes callee ++ .mark .openParen :: joined (listLexemes args) ++ [.mark .closeParen]

/-- The lexemes that are meant by the texts of several expressions. -/
def listLexemes : List Expr → List (List Lexeme)
  | [] => []
  | e :: rest => lexemes e :: listLexemes rest

/-- The lexemes that are meant by the texts of the properties of an object. -/
def propertyLexemes : List (Key × Expr) → List (List Lexeme)
  | [] => []
  | (key, value) :: rest => (key.lexeme :: .mark .colon :: lexemes value) :: propertyLexemes rest

end

theorem joined_cons_cons (p q : List Lexeme) (rest : List (List Lexeme)) :
    joined (p :: q :: rest) = p ++ .mark .comma :: joined (q :: rest) := by
  simp [joined, List.intercalate]

theorem separated_cons_cons (p q : List Char) (rest : List (List Char)) :
    separated (p :: q :: rest) = p ++ ',' :: ' ' :: separated (q :: rest) := by
  simp [separated, List.intercalate]

theorem chars_index (e key : Expr) :
    (index e key).chars = e.chars ++ '[' :: (key.chars ++ [']']) :=
  List.append_assoc _ _ _

theorem chars_call (callee : Expr) (args : List Expr) :
    (call callee args).chars = callee.chars ++ '(' :: (separated (listChars args) ++ [')']) :=
  List.append_assoc _ _ _

theorem lexemes_index (e key : Expr) :
    (index e key).lexemes =
      e.lexemes ++ .mark .openBracket :: (key.lexemes ++ [.mark .closeBracket]) :=
  List.append_assoc _ _ _

theorem lexemes_call (callee : Expr) (args : List Expr) :
    (call callee args).lexemes =
      callee.lexemes ++ .mark .openParen :: (joined (listLexemes args) ++ [.mark .closeParen]) :=
  List.append_assoc _ _ _

end Expr

theorem Key.spelled_lexeme {key : Key} (ok : key.Readable) : Key.Spelled key.lexeme key := by
  cases key with
  | name word => exact .name word
  | literal value =>
    cases value with
    | null => exact absurd ok not_false
    | bool b => exact absurd ok not_false
    | number n => exact .number _ n
    | str s => exact .str s

namespace Expr

mutual

/-- The lexemes that are meant derive the expression. -/
theorem derives_lexemes (e : Expr) (ok : AllReadable e.nodes) : Derives e.lexemes e := by
  cases e with
  | program body => exact absurd (allReadable_cons.1 ok).1 not_false
  | literal value =>
    cases value with
    | null => exact .keyword .null
    | bool b =>
      cases b with
      | false => exact .keyword .false
      | true => exact .keyword .true
    | number n => exact .number _ n
    | str s => exact .str s
  | array elements =>
    simp only [nodes, allReadable_cons] at ok
    cases elements with
    | nil => exact .emptyArray
    | cons e rest => exact .array (derivesList_lexemes _ (List.cons_ne_nil e rest) ok.2)
  | object properties =>
    simp only [nodes, allReadable_cons] at ok
    cases properties with
    | nil => exact .emptyObject
    | cons p rest =>
      exact .object (derivesProperties_lexemes _ (List.cons_ne_nil p rest) ok.1 ok.2)
  | ident name => exact .ident (allReadable_cons.1 ok).1.2
  | this => exact .keyword .this
  | locals => exact .keyword .locals
  | member e name =>
    simp only [nodes, allReadable_cons] at ok
    exact (derives_lexemes e ok.2).member name
  | index e key =>
    simp only [nodes, allReadable_cons, allReadable_append] at ok
    exact (derives_lexemes e ok.2.1).index (derives_lexemes key ok.2.2)
  | call callee args =>
    simp only [nodes, allReadable_cons, allReadable_append] at ok
    have function := derives_lexemes callee ok.2.1
    cases args with
    | nil => simpa [lexemes, listLexemes, joined] using function.emptyCall
    | cons e rest =>
      exact function.call (derivesList_lexemes _ (List.cons_ne_nil e rest) ok.2.2)

theorem derivesList_lexemes (es : List Expr) (ne : es ≠ []) (ok : AllReadable (nodesList es)) :
    DerivesList (joined (listLexemes es)) es := by
  cases es with
  | nil => exact absurd rfl ne
  | cons e rest =>
    simp only [nodesList, allReadable_append] at ok
    have first := derives_lexemes e ok.1
    cases rest with
    | nil => simpa [listLexemes, joined] using DerivesList.single first
    | cons e' rest =>
      have others := derivesList_lexemes (e' :: rest) (List.cons_ne_nil e' rest) ok.2
      rw [listLexemes, listLexemes, joined_cons_cons]
      exact .cons first others

theorem derivesProperties_lexemes (ps : List (Key × Expr)) (ne : ps ≠ [])
    (keys : ∀ p ∈ ps, p.1.Readable) (ok : AllReadable (nodesProperties ps)) :
    DerivesProperties (joined (propertyLexemes ps)) ps := by
  cases ps with
  | nil => exact absurd rfl ne
  | cons p rest =>
    obtain ⟨key, value⟩ := p
    obtain ⟨key_ok, keys_ok⟩ := List.forall_mem_cons.1 keys
    simp only [nodesProperties, allReadable_append] at ok
    have spelled := Key.spelled_lexeme key_ok
    have first := derives_lexemes value ok.1
    cases rest with
    | nil => simpa [propertyLexemes, joined] using DerivesProperties.single spelled first
    | cons q rest =>
      have others := derivesProperties_lexemes (q :: rest) (List.cons_ne_nil q rest) keys_ok ok.2
      rw [propertyLexemes, propertyLexemes, joined_cons_cons]
      exact .cons spelled first others

end

end Expr

/-! ### The nodes whose texts are cut differently -/

def Number.isInfinite : Number → Bool
  | .infinity _ => true
  | _ => false

def Literal.isInfinite : Literal → Bool
  | number n => n.isInfinite
  | _ => false

def Key.isInfinite : Key → Bool
  | name _ => false
  | literal value => value.isInfinite

/-- What a numeral can denote is a magnitude, or the infinity. -/
theorem Number.eq_infinity_or_finite {n : Number} (ok : n.isUnsigned = true) :
    n = .infinity false ∨ ∃ x, n = .finite false x := by
  cases n with
  | nan => cases ok
  | infinity negative => simpa [Number.isUnsigned] using ok
  | finite negative x => simpa [Number.isUnsigned] using ok

namespace Expr

/-- Whether the node is an infinite number, or an object with one as a key. -/
def holdsInfinity : Expr → Bool
  | literal value => value.isInfinite
  | object properties => properties.any fun p => p.1.isInfinite
  | _ => false

/-- Whether the expression is a number. -/
def isNumber : Expr → Bool
  | literal (.number _) => true
  | _ => false

/-- Whether the node is a property of fixed name of a number. -/
def isNumberMember : Expr → Bool
  | member e _ => e.isNumber
  | _ => false

/-- Whether the text of the node is cut into the lexemes that are meant. -/
def Plain (e : Expr) : Prop := e.holdsInfinity = false ∧ e.isNumberMember = false

end Expr

/-! ### Cutting the text -/

/-- In front of `rest`, the lexemes of the text are `ls`. -/
def Reads (cs rest : List Char) (ls : List Lexeme) : Prop :=
  lexemes? (cs ++ rest) = (lexemes? rest).map (ls ++ ·)

namespace Reads

theorem nil (rest : List Char) : Reads [] rest [] := by
  simp [Reads]

theorem append {cs cs' rest : List Char} {ls ls' : List Lexeme} (h : Reads cs (cs' ++ rest) ls)
    (h' : Reads cs' rest ls') : Reads (cs ++ cs') rest (ls ++ ls') := by
  rw [Reads, List.append_assoc, h, h', Option.map_map]
  congr 1
  funext more
  simp

theorem blank {cs rest : List Char} {ls : List Lexeme} (h : Reads cs rest ls) :
    Reads (' ' :: cs) rest ls :=
  (lexemes?_blank rfl _).trans h

theorem mark (m : Mark) {cs rest : List Char} {ls : List Lexeme} (dot : m ≠ .dot)
    (h : Reads cs rest ls) : Reads (m.char :: cs) rest (.mark m :: ls) := by
  have first : lexemes? (m.char :: (cs ++ rest)) = _ := lexemes?_mark m fun eq => absurd eq dot
  rw [h, Option.map_map] at first
  exact first

/-- At the end nothing is left to be read. -/
theorem lexemes?_eq {cs : List Char} {ls : List Lexeme} (h : Reads cs [] ls) :
    lexemes? cs = some ls := by
  rwa [Reads, List.append_nil, lexemes?_nil, Option.map_some, List.append_nil] at h

end Reads

/-- The text of a magnitude is read as the magnitude. What follows must not go on with it. -/
theorem reads_magnitude (x : Magnitude) {rest : List Char}
    (stop : Recognized.numberTail false rest = ([], false)) :
    Reads (Number.finite false x).chars rest
      [.number (Number.finite false x).text (.finite false x)] := by
  obtain ⟨d, numeral, value⟩ := Number.exists_numeral_chars x
  rw [Reads, lexemes?_numeral numeral stop, value]
  rfl

theorem reads_number (x : Magnitude) {rest : List Char} (border : Border rest) :
    Reads (Number.finite false x).chars rest
      [.number (Number.finite false x).text (.finite false x)] :=
  reads_magnitude x border.numberTail

theorem reads_word {cs rest : List Char} (h : isWord cs = true) (seam : Seam rest) :
    Reads cs rest [.word (String.ofList cs)] :=
  lexemes?_word h seam

/-- A point and a name behind it, which begins with no digit. -/
theorem reads_member {word : String} (ok : isWord word.toList = true) {rest : List Char}
    (seam : Seam rest) : Reads ('.' :: word.toList) rest [.mark .dot, .word word] := by
  have digit : Recognized.startsWithDigit (word.toList ++ rest) = false := by
    cases eq : word.toList with
    | nil => simp [eq, isWord] at ok
    | cons c cs =>
      simp only [eq, isWord, Bool.and_eq_true] at ok
      exact isDigit_of_isWordStart ok.1
  have name : Reads word.toList rest [.word word] := by simpa using reads_word ok seam
  have first : lexemes? ('.' :: (word.toList ++ rest)) = _ := lexemes?_mark .dot fun _ => digit
  rw [name, Option.map_map] at first
  exact first

end DataBinding
