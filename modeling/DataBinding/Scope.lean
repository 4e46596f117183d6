import DataBinding.Value.Property

/-!
# Scopes

An expression is evaluated against a context and, if there are any, locals. A name is looked up in
the locals if they are a map with that key, whatever its value, and in the context otherwise.

## Main definitions

* `Scope` — a context with locals
* `Scope.lookup` — the value of a name
-/

namespace DataBinding

/-- What an expression is evaluated against. -/
structure Scope where
  context : Value
  locals? : Option Value

namespace Scope

/-- No context and no locals. -/
def empty : Scope := ⟨.undefined, none⟩

/-- The locals, undefined if there are none. -/
def locals (s : Scope) : Value := s.locals?.getD .undefined

/-- Whether the locals are a map with the name as a key. -/
def isLocal (s : Scope) (name : String) : Bool := s.locals.hasOwn name

/-- The value of a name. -/
def lookup (s : Scope) (name : String) : Value :=
  if s.isLocal name then s.locals.get name
  else if s.context.truthy then s.context.get name
  else .undefined

end Scope

end DataBinding
