import DataBinding.Evaluator
import DataBinding.Proofs.Expr.Nodes

/-!
# Programs that do not depend on the scope

Whether a program is constant is decided on its statements and their operands. On the programs of
expressions the decision is exact: such a program is constant if and only if no node of the
expression looks something up, calls, or stands for the context or the locals. It is also sound, and
this for every program: a constant program gives one value in every scope, whatever the host does,
and nothing is called.

## Main definitions

* `Expr.isOpen`, `Expr.Closed` — the nodes that ask for something from outside of the expression,
  and lists without them
* `Lowered.Constant` — statements that only return constants, with a constant result
* `Program.constant` — the value of a constant program

## Main results

* `Expr.lower_constant_iff` — which expressions are lowered to constants
* `Program.run_constant` — what a constant program gives
* `Program.isConstant_iff_and_run_eq_pure` — the decision is exact on expressions, and sound on all
  programs
-/

namespace DataBinding

/-! ### Which programs are constant -/

namespace Expr

/-- Whether the node looks a name or a property up, calls, or is the context or the locals. -/
def isOpen : Expr → Bool
  | ident _ => true
  | this => true
  | locals => true
  | member _ _ => true
  | index _ _ => true
  | call _ _ => true
  | _ => false

/-- No node of the list is open. -/
def Closed (nodes : List Expr) : Prop := ∀ e ∈ nodes, e.isOpen = false

@[simp] theorem closed_nil : Closed [] := List.forall_mem_nil _

@[simp] theorem closed_append {l l' : List Expr} : Closed (l ++ l') ↔ Closed l ∧ Closed l' :=
  List.forall_mem_append

theorem closed_cons_iff {e : Expr} {rest : List Expr} (h : e.isOpen = false) :
    Closed (e :: rest) ↔ Closed rest := by
  simp [Closed, h]

theorem not_closed_cons {e : Expr} {rest : List Expr} (h : e.isOpen = true) :
    ¬Closed (e :: rest) := by
  simp [Closed, h]

end Expr

/-- Whether the statement returns a constant operand. -/
def Statement.isConstant : Statement → Bool
  | ret value => value.isConstant
  | _ => false

namespace Lowered

variable {α β γ : Type} {isConstant : α → Bool} {isConstant' : β → Bool} {isConstant'' : γ → Bool}

/-- The statements do nothing but return constant operands, and the result is constant. -/
def Constant (isConstant : α → Bool) (r : Lowered α) : Prop :=
  (∀ s ∈ r.code, s.isConstant = true) ∧ isConstant r.result = true

/-- Two parts after each other are constant if both are. -/
theorem constant_append_iff {r : Lowered α} {r' : Lowered β} {next : Nat} {both : γ}
    (h : isConstant'' both = (isConstant r.result && isConstant' r'.result)) :
    (Lowered.mk (r.code ++ r'.code) next both).Constant isConstant'' ↔
      r.Constant isConstant ∧ r'.Constant isConstant' := by
  simp only [Constant, List.forall_mem_append, h, Bool.and_eq_true]
  exact and_and_and_comm

/-- What ends with an assignment is not constant. -/
theorem not_constant_snoc {code : List Statement} {s : Statement} {next : Nat} {result : α}
    (h : s.isConstant = false) :
    ¬(Lowered.mk (code ++ [s]) next result).Constant isConstant := by
  rintro ⟨constant, -⟩
  rw [constant s (by simp)] at h
  cases h

end Lowered

namespace Expr

mutual

/-- An expression is lowered to a constant if and only if no node of it is open. -/
theorem lower_constant_iff (n : Nat) : ∀ e : Expr,
    (e.lower n).Constant Operand.isConstant ↔ Closed e.nodes
  | program body => by
    -- What the return of a program inside hands on is also the result.
    have b := lower_constant_iff n body
    rw [nodes, closed_cons_iff rfl, ← b, lower]
    simp [Lowered.Constant, or_imp, forall_and, Statement.isConstant]
  | literal value => by
    rw [nodes, closed_cons_iff rfl]
    simp [lower, Lowered.Constant, Operand.isConstant]
  | array elements => (lowerList_constant_iff n elements).trans (closed_cons_iff rfl).symm
  | object properties =>
    (lowerProperties_constant_iff n properties).trans (closed_cons_iff rfl).symm
  -- Lookups and calls leave an assignment behind, while the context and the locals are operands
  -- that are not constant.
  | ident name =>
    iff_of_false (fun h => Bool.false_ne_true (h.1 _ List.mem_cons_self)) (not_closed_cons rfl)
  | this => iff_of_false (fun h => Bool.false_ne_true h.2) (not_closed_cons rfl)
  | locals => iff_of_false (fun h => Bool.false_ne_true h.2) (not_closed_cons rfl)
  | member e name => iff_of_false (Lowered.not_constant_snoc rfl) (not_closed_cons rfl)
  | index e key => iff_of_false (Lowered.not_constant_snoc rfl) (not_closed_cons rfl)
  | call callee args => iff_of_false (Lowered.not_constant_snoc rfl) (not_closed_cons rfl)

theorem lowerList_constant_iff (n : Nat) : ∀ es : List Expr,
    (lowerList n es).Constant Operand.isConstantList ↔ Closed (nodesList es)
  | [] => by simp [lowerList, Lowered.Constant, Operand.isConstantList, nodesList]
  | e :: rest => by
    have first := lower_constant_iff n e
    have more := lowerList_constant_iff (e.lower n).next rest
    rw [nodesList, closed_append, ← first, ← more]
    exact Lowered.constant_append_iff rfl

theorem lowerProperties_constant_iff (n : Nat) : ∀ ps : List (Key × Expr),
    (lowerProperties n ps).Constant Operand.isConstantEntries ↔ Closed (nodesProperties ps)
  | [] => by simp [lowerProperties, Lowered.Constant, Operand.isConstantEntries, nodesProperties]
  | (key, e) :: rest => by
    have first := lower_constant_iff n e
    have more := lowerProperties_constant_iff (e.lower n).next rest
    rw [nodesProperties, closed_append, ← first, ← more]
    exact Lowered.constant_append_iff rfl

end

end Expr

namespace Program

theorem isConstant_iff {p : Program} :
    p.isConstant = true ↔ ∀ s ∈ p.body, s.isConstant = true := by
  unfold isConstant
  rw [List.all_eq_true]
  refine forall₂_congr fun s _ => ?_
  cases s <;> rfl

/-- The program of an expression is constant if and only if no node of the expression is open. -/
theorem ofExpr_isConstant_iff (e : Expr) :
    (Program.ofExpr e).isConstant = true ↔ Expr.Closed e.nodes := by
  rw [isConstant_iff, ← Expr.lower_constant_iff 0 e]
  cases e with
  | program body =>
    -- The result is returned by the last statement of the program inside.
    refine ⟨fun h => ⟨h, ?_⟩, fun h => h.1⟩
    exact h (.ret _) (by simp [ofExpr, Expr.isProgram, Expr.lower])
  | _ => simp [ofExpr, Expr.isProgram, Lowered.Constant, or_imp, forall_and, Statement.isConstant]

end Program

/-! ### Running constant programs -/

namespace Operand

variable {s s' : Scope} {f f' : Frame}

mutual

/-- The value of a constant operand depends on nothing. -/
theorem eval_constant : ∀ o : Operand, o.isConstant = true → o.eval s f = o.eval s' f'
  | literal _, _ => rfl
  | list elements, h => congrArg Value.list (evalList_constant elements h)
  | map entries, h => congrArg Value.ofEntries (evalEntries_constant entries h)

theorem evalList_constant : ∀ os : List Operand, isConstantList os = true →
    evalList s f os = evalList s' f' os
  | [], _ => rfl
  | o :: rest, h => by
    obtain ⟨first, more⟩ := Bool.and_eq_true_iff.1 h
    rw [evalList, evalList, eval_constant o first, evalList_constant rest more]

theorem evalEntries_constant : ∀ os : List (String × Operand), isConstantEntries os = true →
    evalEntries s f os = evalEntries s' f' os
  | [], _ => rfl
  | (key, o) :: rest, h => by
    obtain ⟨first, more⟩ := Bool.and_eq_true_iff.1 h
    rw [evalEntries, evalEntries, eval_constant o first, evalEntries_constant rest more]

end

end Operand

namespace Program

/-- What a program gives that returns a constant operand at once, or does nothing. -/
def constant (p : Program) : Value :=
  match p.body with
  | .ret value :: _ => value.eval .empty []
  | _ => .undefined

/-- A constant program gives its value in every scope and calls nothing. -/
theorem run_constant {m : Type → Type} [Monad m] {p : Program} (h : p.isConstant = true)
    (host : Host m) (s : Scope) : p.run host s = pure p.constant := by
  obtain ⟨vars, body⟩ := p
  cases body with
  | nil => rfl
  | cons first rest =>
    -- The first statement is a return, and the statements behind it are not reached.
    have returns := isConstant_iff.1 h first List.mem_cons_self
    cases first with
    | ret value => exact congrArg pure (Operand.eval_constant value returns)
    | _ => cases returns

/-- Whether a program is constant is exact for the programs of expressions: no node may look
anything up, call, or stand for the context or the locals. And a constant program has one value,
which is what it gives in every scope and without any, whatever the host does; being all that the
run does, it leaves no room for a call. -/
theorem isConstant_iff_and_run_eq_pure :
    (∀ e : Expr, (Program.ofExpr e).isConstant = true ↔ ∀ x ∈ e.nodes, x.isOpen = false) ∧
    ∀ p : Program, p.isConstant = true → ∃ v : Value,
      ∀ {m : Type → Type} [Monad m] (host : Host m),
        (∀ s : Scope, p.run host s = pure v) ∧
        ∀ source : String, (Evaluator.mk source p).evalConstant host = pure v :=
  ⟨ofExpr_isConstant_iff, fun p h => ⟨p.constant, fun host =>
    ⟨run_constant h host, fun _ => run_constant h host .empty⟩⟩⟩

/-- A program inside `['a', null]` returns before the list is put together: the whole is constant,
and its value is what is inside. -/
theorem isConstant_iff_and_run_eq_pure_inside :
    let e : Expr := .array [.program (.literal (.str "a")), .literal .null]
    let p := Program.ofExpr e
    p.body.length = 2 ∧ (∀ x ∈ e.nodes, x.isOpen = false) ∧ p.isConstant = true ∧
      ∀ {m : Type → Type} [Monad m] (host : Host m) (s : Scope),
        p.run host s = pure (.str "a") := by
  intro e p
  obtain ⟨exact, sound⟩ := isConstant_iff_and_run_eq_pure
  obtain ⟨v, gives⟩ := sound p rfl
  -- Where nothing is called, the value can be read off a run without effects.
  have value : Value.str "a" = v := (gives (m := Id) fun _ _ => .undefined).1 .empty
  refine ⟨rfl, (exact e).1 rfl, rfl, fun host s => ?_⟩
  rw [value]
  exact (gives host).1 s

end Program

end DataBinding
