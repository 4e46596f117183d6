import DataBinding.Proofs.Program.Simulation
import DataBinding.Proofs.Value.WellFormed
import Mathlib

/-!
# Runs keep maps in order

If maps are in order in what a run gets, in its scope and in what the host answers, they are in
order in all that it computes: in the arguments of each call, in a value that ends an evaluation
early and in the answer. This holds in every monad in which a host may work, for the values that
come out of it.

## Main definitions

* `Host.WellFormed` — maps are in order in the answers of the host
* `Expr.Yields` — what an evaluation gives has a property, unless it ends early

## Main results

* `Expr.evalParts_yields` — evaluations keep maps in order
* `Program.run_satisfies`, `Program.run_ofDocument_satisfies` — so do runs of programs, and they
  can be run against any documents
-/

namespace DataBinding

variable {m : Type → Type} [Monad m]

/-- Called with arguments in which maps are in order, the host answers with such a value. -/
def Host.WellFormed (host : Host m) : Prop :=
  ∀ f args, Value.WellFormedList args → SatisfiesM Value.WellFormed (host f args)

namespace Expr

/-- What the evaluation gives has the property, and in a value that ends it maps are in order. -/
def Yields {α : Type} (P : α → Prop) (x : ExceptT Value m α) : Prop :=
  SatisfiesM (fun r => match r with
    | .ok a => P a
    | .error v => v.WellFormed) x.run

variable [LawfulMonad m]

section Yields

variable {α β : Type} {P : α → Prop} {Q : β → Prop}

theorem yields_pure {a : α} (h : P a) : Yields (m := m) P (pure a) := .pure h

theorem yields_throw {v : Value} (h : v.WellFormed) :
    Yields (m := m) P (throw v : ExceptT Value m α) := .pure h

theorem yields_lift {x : m α} (h : SatisfiesM P x) : Yields P (ExceptT.lift x) := by
  rw [Yields, ExceptT.run_lift]
  exact h.map id

/-- What comes next may use what the evaluation before it has given. -/
theorem Yields.bind {x : ExceptT Value m α} {f : α → ExceptT Value m β} (h : Yields P x)
    (next : ∀ a, P a → Yields Q (f a)) : Yields Q (x >>= f) := by
  rw [Yields, ExceptT.run_bind]
  refine SatisfiesM.bind h fun r given => ?_
  cases r with
  | ok a => exact next a given
  | error v => exact .pure given

/-- So does what goes on with the value, unless the evaluation has ended. -/
theorem Yields.resume {x : ExceptT Value m α} {k : α → m Value} (h : Yields P x)
    (next : ∀ a, P a → SatisfiesM Value.WellFormed (k a)) :
    SatisfiesM Value.WellFormed (Expr.resume x k) := by
  refine SatisfiesM.bind h fun r given => ?_
  cases r with
  | ok a => exact next a given
  | error v => exact .pure given

end Yields

variable {host : Host m} {s : Scope}

mutual

/-- Evaluations keep maps in order. -/
theorem evalParts_yields (answers : host.WellFormed) (given : s.WellFormed) :
    ∀ e : Expr, Yields Value.WellFormed (evalParts host s e)
  | program body => by
    rw [evalParts]
    exact (evalParts_yields answers given body).bind fun v h => yields_throw h
  | literal value => yields_pure (Value.wellFormed_ofLiteral value)
  | array elements => by
    rw [evalParts]
    exact (evalList_yields answers given elements).bind fun vs h => yields_pure h
  | object properties => by
    rw [evalParts]
    exact (evalProperties_yields answers given properties).bind fun entries h =>
      yields_pure (Value.wellFormed_ofEntries h)
  | ident name => yields_pure (given.lookup name)
  | this => yields_pure given.context
  | locals => yields_pure given.locals
  | member e name => by
    rw [evalParts]
    refine (evalParts_yields answers given e).bind fun o h => yields_pure ?_
    split
    · exact h.get name
    · exact trivial
  | index e key => by
    rw [evalParts]
    refine (evalParts_yields answers given e).bind fun o h =>
      (evalParts_yields answers given key).bind fun k _ => yields_pure ?_
    split
    · exact h.getProperty k
    · exact trivial
  | call callee args => by
    rw [evalParts]
    refine (evalParts_yields answers given callee).bind fun f _ =>
      (evalList_yields answers given args).bind fun vs h => ?_
    split
    · refine yields_lift ?_
      cases f with
      | function f => exact answers f vs h
      | _ => exact .pure trivial
    · exact yields_pure trivial

theorem evalList_yields (answers : host.WellFormed) (given : s.WellFormed) :
    ∀ es : List Expr, Yields Value.WellFormedList (evalList host s es)
  | [] => yields_pure trivial
  | e :: rest => by
    rw [evalList]
    exact (evalParts_yields answers given e).bind fun v first =>
      (evalList_yields answers given rest).bind fun vs more => yields_pure ⟨first, more⟩

theorem evalProperties_yields (answers : host.WellFormed) (given : s.WellFormed) :
    ∀ ps : List (Key × Expr), Yields Value.WellFormedFields (evalProperties host s ps)
  | [] => yields_pure trivial
  | (key, e) :: rest => by
    rw [evalProperties]
    exact (evalParts_yields answers given e).bind fun v first =>
      (evalProperties_yields answers given rest).bind fun entries more =>
        yields_pure ⟨first, more⟩

end

end Expr

namespace Program

variable [LawfulMonad m] {host : Host m}

/-- Runs of the programs of expressions keep maps in order. -/
theorem run_satisfies (answers : host.WellFormed) {s : Scope} (given : s.WellFormed) (e : Expr) :
    SatisfiesM Value.WellFormed ((Program.ofExpr e).run host s) := by
  rw [run_eq_resume]
  exact (Expr.evalParts_yields answers given e.answer).resume fun v h => .pure h

/-- Against documents, in which fields may stand in any order, answers have their maps in order. -/
theorem run_ofDocument_satisfies (answers : host.WellFormed) (d : Document)
    (locals? : Option Document) (e : Expr) :
    SatisfiesM Value.WellFormed
      ((Program.ofExpr e).run host ⟨.ofDocument d, locals?.map .ofDocument⟩) :=
  run_satisfies answers (Scope.wellFormed_ofDocument d locals?) e

end Program

end DataBinding
