import DataBinding.Literal

/-!
# Expressions

An expression looks up a name, reads a property, calls a function, or puts a list or a map
together. A program is an expression in the place where its value is the answer; what is read from
a source is always one program around one expression that holds no other.

## Main definitions

* `Key` — a key of an object, and `Key.toKey`, the text that it stands for
* `Expr` — the expressions
* `Expr.beq` — equality of expressions, literals being compared as values
-/

namespace DataBinding

/-- A key of an object: a bare name or a literal. -/
inductive Key where
  | name (name : String)
  | literal (value : Literal)
deriving BEq

namespace Key

/-- The text under which the property is stored. -/
def toKey : Key → String
  | name n => n
  | literal l => l.toKey

/-- The key as it is written. -/
def chars : Key → List Char
  | name n => n.toList
  | literal l => l.chars

/-- The key as it is written, as a string. -/
def text (k : Key) : String := String.ofList k.chars

end Key

/-- An expression. -/
inductive Expr where
  /-- The expression whose value is the answer. -/
  | program (body : Expr)
  | literal (value : Literal)
  | array (elements : List Expr)
  | object (properties : List (Key × Expr))
  /-- A name, looked up in the locals and then in the context. -/
  | ident (name : String)
  /-- The context. -/
  | this
  /-- The locals. -/
  | locals
  /-- The property of a fixed name. -/
  | member (object : Expr) (name : String)
  /-- The property of a computed key. -/
  | index (object key : Expr)
  | call (callee : Expr) (args : List Expr)

namespace Expr

mutual

/-- Equality, literals being compared as values. -/
def beq : Expr → Expr → Bool
  | program a, program b => beq a b
  | literal a, literal b => a == b
  | array a, array b => beqList a b
  | object a, object b => beqProperties a b
  | ident a, ident b => a == b
  | this, this => true
  | locals, locals => true
  | member a x, member b y => beq a b && x == y
  | index a x, index b y => beq a b && beq x y
  | call a xs, call b ys => beq a b && beqList xs ys
  | _, _ => false

def beqList : List Expr → List Expr → Bool
  | [], [] => true
  | a :: as, b :: bs => beq a b && beqList as bs
  | _, _ => false

def beqProperties : List (Key × Expr) → List (Key × Expr) → Bool
  | [], [] => true
  | (k, a) :: as, (l, b) :: bs => k == l && beq a b && beqProperties as bs
  | _, _ => false

end

instance : BEq Expr := ⟨beq⟩

end Expr

end DataBinding
