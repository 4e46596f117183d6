import DataBinding.Value.Basic

/-!
# Calls

What a function does when it is called is up to the host, in whatever monad the host works: it may
keep a state between calls, and it may fail.

## Main definitions

* `Host` — what calls do
* `Value.call` — the call of a value
-/

namespace DataBinding

/-- What the call of a function with some arguments does. -/
abbrev Host (m : Type → Type) := Function → List Value → m Value

/-- The call of a value; of one that is no function it does nothing and gives undefined. -/
def Value.call {m : Type → Type} [Monad m] (host : Host m) (callee : Value) (args : List Value) :
    m Value :=
  match callee with
  | .function f => host f args
  | _ => pure .undefined

end DataBinding
