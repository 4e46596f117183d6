import DataBinding.Expr.Basic
import DataBinding.Scope
import DataBinding.Value.Call

/-!
# Evaluating expressions directly

The value of an expression by recursion on it, without a program. Parts are evaluated from left to
right, each once. The key of a property and the arguments of a call are evaluated even if the object
or the callee is falsy, but then no property is read and no function is called. A program inside an
expression ends the whole evaluation with its value.

## Main definitions

* `Expr.evalParts` — the value of an expression, or the value that ends the evaluation
* `Expr.eval` — the value of an expression as a whole
-/

namespace DataBinding.Expr

variable {m : Type → Type} [Monad m]

mutual

/-- The value of an expression. The exception is a value that ends the evaluation. -/
def evalParts (host : Host m) (scope : Scope) : Expr → ExceptT Value m Value
  | program body => do
    let v ← evalParts host scope body
    throw v
  | literal value => pure (.ofLiteral value)
  | array elements => do
    let vs ← evalList host scope elements
    pure (.list vs)
  | object properties => do
    let entries ← evalProperties host scope properties
    pure (.ofEntries entries)
  | ident name => pure (scope.lookup name)
  | this => pure scope.context
  | locals => pure scope.locals
  | member e name => do
    let o ← evalParts host scope e
    pure (if o.truthy then o.get name else .undefined)
  | index e key => do
    let o ← evalParts host scope e
    let k ← evalParts host scope key
    pure (if o.truthy then o.getProperty k else .undefined)
  | call callee args => do
    let f ← evalParts host scope callee
    let vs ← evalList host scope args
    if f.truthy then ExceptT.lift (f.call host vs) else pure .undefined

/-- The values of several expressions. -/
def evalList (host : Host m) (scope : Scope) : List Expr → ExceptT Value m (List Value)
  | [] => pure []
  | e :: rest => do
    let v ← evalParts host scope e
    let vs ← evalList host scope rest
    pure (v :: vs)

/-- The entries of an object. -/
def evalProperties (host : Host m) (scope : Scope) :
    List (Key × Expr) → ExceptT Value m (List (String × Value))
  | [] => pure []
  | (key, e) :: rest => do
    let v ← evalParts host scope e
    let entries ← evalProperties host scope rest
    pure ((key.toKey, v) :: entries)

end

/-- The value of an expression as a whole. -/
def eval (host : Host m) (scope : Scope) (e : Expr) : m Value := do
  match ← (evalParts host scope e).run with
  | .ok v => pure v
  | .error v => pure v

end DataBinding.Expr
