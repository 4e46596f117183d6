import DataBinding.Program.Basic
import DataBinding.Scope
import DataBinding.Value.Call

/-!
# Running programs

The temporaries begin undefined. A property is read and a function called only where the guard lets
the object or the callee pass; otherwise the temporary stays as it is. A program that returns
nothing gives undefined.

## Main definitions

* `Operand.eval` — the value of an operand
* `Program.run` — the value of a program, with the effects of the calls
-/

namespace DataBinding

/-- The values of the temporaries. -/
abbrev Frame := List Value

/-- The value of a temporary. -/
def Frame.load (frame : Frame) (id : Nat) : Value := frame[id]?.getD .undefined

namespace Operand

variable (scope : Scope) (frame : Frame)

mutual

/-- The value of an operand. -/
def eval : Operand → Value
  | literal value => value
  | temp id => frame.load id
  | context => scope.context
  | locals => scope.locals
  | list elements => .list (evalList elements)
  | map entries => .ofEntries (evalEntries entries)

/-- The values of several operands. -/
def evalList : List Operand → List Value
  | [] => []
  | o :: rest => eval o :: evalList rest

/-- The entries of a map. -/
def evalEntries : List (String × Operand) → List (String × Value)
  | [] => []
  | (key, o) :: rest => (key, eval o) :: evalEntries rest

end

end Operand

namespace Program

variable {m : Type → Type} [Monad m]

/-- Runs statements on the values that the temporaries have. -/
def runFrom (host : Host m) (scope : Scope) (frame : Frame) : List Statement → m Value
  | [] => pure .undefined
  | .load into name :: rest => runFrom host scope (frame.set into (scope.lookup name)) rest
  | .member into object name :: rest =>
    let object := object.eval scope frame
    let frame := if object.truthy then frame.set into (object.get name) else frame
    runFrom host scope frame rest
  | .index into object key :: rest =>
    let object := object.eval scope frame
    let key := key.eval scope frame
    let frame := if object.truthy then frame.set into (object.getProperty key) else frame
    runFrom host scope frame rest
  | .call into callee args :: rest => do
    let callee := callee.eval scope frame
    -- Operands look nothing up and call nothing, so those of a skipped call need not be evaluated.
    if callee.truthy then
      let value ← callee.call host (Operand.evalList scope frame args)
      runFrom host scope (frame.set into value) rest
    else runFrom host scope frame rest
  | .ret value :: _ => pure (value.eval scope frame)

/-- Runs a program in a scope. -/
def run (p : Program) (host : Host m) (scope : Scope) : m Value :=
  runFrom host scope (List.replicate p.vars.length .undefined) p.body

end Program

end DataBinding
