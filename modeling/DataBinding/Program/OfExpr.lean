import DataBinding.Expr.Basic
import DataBinding.Program.Basic

/-!
# Programs of expressions

An expression becomes a list of statements and an operand that holds its value once they have run.
The statements of the parts come in the order of the source, and the temporary of a lookup or a
call is the next one after those of its parts.

## Main definitions

* `Lowered` — statements with what they leave behind
* `Expr.lower` — the statements and the operand of an expression
* `Program.ofExpr` — the program of an expression
-/

namespace DataBinding

/-- Statements, the first temporary that they leave unused, and what holds their result. -/
structure Lowered (α : Type) where
  code : List Statement
  next : Nat
  result : α

namespace Expr

mutual

/-- The statements and the operand of an expression, `n` being the first unused temporary. -/
def lower (n : Nat) : Expr → Lowered Operand
  | program body =>
    let b := lower n body
    ⟨b.code ++ [.ret b.result], b.next, b.result⟩
  | literal value => ⟨[], n, .literal (.ofLiteral value)⟩
  | array elements =>
    let es := lowerList n elements
    ⟨es.code, es.next, .list es.result⟩
  | object properties =>
    let ps := lowerProperties n properties
    ⟨ps.code, ps.next, .map ps.result⟩
  | ident name => ⟨[.load n name], n + 1, .temp n⟩
  | this => ⟨[], n, .context⟩
  | locals => ⟨[], n, .locals⟩
  | member e name =>
    let o := lower n e
    ⟨o.code ++ [.member o.next o.result name], o.next + 1, .temp o.next⟩
  | index e key =>
    let o := lower n e
    let k := lower o.next key
    ⟨o.code ++ k.code ++ [.index k.next o.result k.result], k.next + 1, .temp k.next⟩
  | call callee args =>
    let f := lower n callee
    let as := lowerList f.next args
    ⟨f.code ++ as.code ++ [.call as.next f.result as.result], as.next + 1, .temp as.next⟩

/-- The statements and the operands of several expressions. -/
def lowerList (n : Nat) : List Expr → Lowered (List Operand)
  | [] => ⟨[], n, []⟩
  | e :: rest =>
    let o := lower n e
    let os := lowerList o.next rest
    ⟨o.code ++ os.code, os.next, o.result :: os.result⟩

/-- The statements and the entries of the properties of an object. -/
def lowerProperties (n : Nat) : List (Key × Expr) → Lowered (List (String × Operand))
  | [] => ⟨[], n, []⟩
  | (key, e) :: rest =>
    let o := lower n e
    let os := lowerProperties o.next rest
    ⟨o.code ++ os.code, os.next, (key.toKey, o.result) :: os.result⟩

end

/-- Whether the expression is a program, which returns its value itself. -/
def isProgram : Expr → Bool
  | program _ => true
  | _ => false

end Expr

/-- The program that evaluates an expression and returns its value. -/
def Program.ofExpr (e : Expr) : Program :=
  let r := e.lower 0
  ⟨List.range r.next, if e.isProgram then r.code else r.code ++ [.ret r.result]⟩

end DataBinding
