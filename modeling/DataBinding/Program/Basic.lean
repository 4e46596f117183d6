import DataBinding.Value.Basic

/-!
# Programs

A program is a list of statements over numbered temporaries. Every lookup and every call is a
statement of its own, which stores its result in a temporary; everything else is put together in
operands.

## Main definitions

* `Operand`, `Statement`, `Program` — the programs
* `Program.beq` — equality of programs, literals being compared as values
* `Program.isConstant` — whether a program does nothing but return literals
-/

namespace DataBinding

/-- An expression without lookups. -/
inductive Operand where
  | literal (value : Value)
  /-- The temporary of a number. -/
  | temp (id : Nat)
  | context
  | locals
  | list (elements : List Operand)
  | map (entries : List (String × Operand))

/-- A step of a program; `into` is the temporary for the result. -/
inductive Statement where
  /-- Looks a name up in the scope. -/
  | load (into : Nat) (name : String)
  /-- Reads the property of a fixed name, if the object is truthy. -/
  | member (into : Nat) (object : Operand) (name : String)
  /-- Reads the property of a computed key, if the object is truthy. -/
  | index (into : Nat) (object key : Operand)
  /-- Calls a function, if the callee is truthy. -/
  | call (into : Nat) (callee : Operand) (args : List Operand)
  /-- Ends the program with a value. -/
  | ret (value : Operand)

/-- A list of statements, with the temporaries that they use. -/
structure Program where
  vars : List Nat
  body : List Statement

/-- The program that does nothing. -/
def Program.empty : Program := ⟨[], []⟩

namespace Operand

mutual

/-- Equality of operands, literals being compared as values. -/
def beq : Operand → Operand → Bool
  | literal a, literal b => a == b
  | temp i, temp j => i == j
  | context, context => true
  | locals, locals => true
  | list a, list b => beqList a b
  | map a, map b => beqEntries a b
  | _, _ => false

def beqList : List Operand → List Operand → Bool
  | [], [] => true
  | a :: as, b :: bs => beq a b && beqList as bs
  | _, _ => false

def beqEntries : List (String × Operand) → List (String × Operand) → Bool
  | [], [] => true
  | (k, a) :: as, (l, b) :: bs => k == l && beq a b && beqEntries as bs
  | _, _ => false

end

instance : BEq Operand := ⟨beq⟩

mutual

/-- Whether the operand is put together from literals only. -/
def isConstant : Operand → Bool
  | literal _ => true
  | temp _ => false
  | context => false
  | locals => false
  | list elements => isConstantList elements
  | map entries => isConstantEntries entries

def isConstantList : List Operand → Bool
  | [] => true
  | o :: rest => isConstant o && isConstantList rest

def isConstantEntries : List (String × Operand) → Bool
  | [] => true
  | (_, o) :: rest => isConstant o && isConstantEntries rest

end

end Operand

deriving instance BEq for Statement
deriving instance BEq for Program

namespace Program

/-- Whether the program returns a constant operand at once, and so does not depend on the scope. -/
def isConstant (p : Program) : Bool :=
  p.body.all fun
    | .ret value => value.isConstant
    | _ => false

end Program

end DataBinding
