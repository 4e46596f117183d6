import DataBinding.Expr.Basic
import DataBinding.Token

/-!
# The grammar of expressions

Which expressions a list of lexemes spells, said without a parser. An operand is a literal, a name,
a keyword, an array or an object, and any number of suffixes follow it. Only an array that is not
empty may have a comma behind its last element.

## Main definitions

* `Keyword` — the words that are no names where an operand stands
* `Expr.Derives` — the lexemes spell the expression
* `Expr.DerivesList`, `Expr.DerivesProperties` — lists with commas between the items
-/

namespace DataBinding

/-- The words that are no names where an operand stands, with what they mean there. -/
inductive Keyword : String → Expr → Prop where
  | null : Keyword "null" (.literal .null)
  | true : Keyword "true" (.literal (.bool true))
  | false : Keyword "false" (.literal (.bool false))
  | this : Keyword "this" .this
  | locals : Keyword "$locals" .locals

/-- The lexeme spells the key of a property. -/
inductive Key.Spelled : Lexeme → Key → Prop where
  | name (name : String) : Key.Spelled (.word name) (.name name)
  | number (spelling : String) (value : Number) :
    Key.Spelled (.number spelling value) (.literal (.number value))
  | str (value : String) : Key.Spelled (.str value) (.literal (.str value))

namespace Expr

mutual

/-- The lexemes spell the expression: an operand with suffixes, of which the last is split off. -/
inductive Derives : List Lexeme → Expr → Prop where
  | number (spelling : String) (value : Number) :
    Derives [.number spelling value] (.literal (.number value))
  | str (value : String) : Derives [.str value] (.literal (.str value))
  | keyword {word : String} {e : Expr} (h : Keyword word e) : Derives [.word word] e
  | ident {name : String} (h : ∀ e, ¬Keyword name e) : Derives [.word name] (.ident name)
  | emptyArray : Derives [.mark .openBracket, .mark .closeBracket] (.array [])
  | array {ls : List Lexeme} {es : List Expr} (h : DerivesList ls es) :
    Derives (.mark .openBracket :: ls ++ [.mark .closeBracket]) (.array es)
  | arrayComma {ls : List Lexeme} {es : List Expr} (h : DerivesList ls es) :
    Derives (.mark .openBracket :: ls ++ [.mark .comma, .mark .closeBracket]) (.array es)
  | emptyObject : Derives [.mark .openBrace, .mark .closeBrace] (.object [])
  | object {ls : List Lexeme} {ps : List (Key × Expr)} (h : DerivesProperties ls ps) :
    Derives (.mark .openBrace :: ls ++ [.mark .closeBrace]) (.object ps)
  | member {ls : List Lexeme} {e : Expr} (h : Derives ls e) (name : String) :
    Derives (ls ++ [.mark .dot, .word name]) (.member e name)
  | index {ls ks : List Lexeme} {e key : Expr} (h : Derives ls e) (k : Derives ks key) :
    Derives (ls ++ .mark .openBracket :: ks ++ [.mark .closeBracket]) (.index e key)
  | emptyCall {ls : List Lexeme} {e : Expr} (h : Derives ls e) :
    Derives (ls ++ [.mark .openParen, .mark .closeParen]) (.call e [])
  | call {ls as : List Lexeme} {e : Expr} {args : List Expr} (h : Derives ls e)
    (a : DerivesList as args) :
    Derives (ls ++ .mark .openParen :: as ++ [.mark .closeParen]) (.call e args)

/-- The lexemes spell one or more expressions with commas between them. -/
inductive DerivesList : List Lexeme → List Expr → Prop where
  | single {ls : List Lexeme} {e : Expr} (h : Derives ls e) : DerivesList ls [e]
  | cons {ls rest : List Lexeme} {e : Expr} {es : List Expr} (h : Derives ls e)
    (t : DerivesList rest es) : DerivesList (ls ++ .mark .comma :: rest) (e :: es)

/-- The lexemes spell one or more properties with commas between them. -/
inductive DerivesProperties : List Lexeme → List (Key × Expr) → Prop where
  | single {k : Lexeme} {key : Key} {ls : List Lexeme} {e : Expr} (s : Key.Spelled k key)
    (h : Derives ls e) : DerivesProperties (k :: .mark .colon :: ls) [(key, e)]
  | cons {k : Lexeme} {key : Key} {ls rest : List Lexeme} {e : Expr} {ps : List (Key × Expr)}
    (s : Key.Spelled k key) (h : Derives ls e) (t : DerivesProperties rest ps) :
    DerivesProperties (k :: .mark .colon :: ls ++ .mark .comma :: rest) ((key, e) :: ps)

end

end Expr

end DataBinding
