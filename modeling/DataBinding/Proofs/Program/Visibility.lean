import DataBinding.Proofs.Program.Simulation

/-!
# What evaluation sees of its scope

An expression sees its scope only through the names that it looks up, and through `this` and
`$locals` where it mentions them. Two scopes that agree in these cannot be told apart by running
its program: the calls and the answer are the same, whatever else the scopes hold.

So locals are nothing but entries laid over the context: an expression that mentions neither the
context nor the locals as a whole is evaluated as in one context that holds the entries of both.

## Main definitions

* `Scope.AgreesOn` — two scopes are the same as far as some nodes can see
* `Fields.overlay` — the entries of a map over those of another

## Main results

* `Expr.evalParts_congr` — scopes that agree on the nodes give the same evaluation
* `Fields.find?_overlay` — the entries that are laid over others hide them
* `Program.run_sees_mentioned` — what the run of a program depends on
-/

namespace DataBinding

/-! ### Entries over others -/

namespace Fields

variable {α : Type}

/-- The entries `above` laid over those of `fields`: where a key is in both, the one above counts. -/
def overlay (fields : Fields α) : Fields α → Fields α
  | [] => fields
  | (key, value) :: above => (overlay fields above).insert key value

theorem find?_overlay (fields above : Fields α) (key : String) :
    (fields.overlay above).find? key = (above.find? key).or (fields.find? key) := by
  induction above with
  | nil => rfl
  | cons entry above ih =>
    obtain ⟨k, v⟩ := entry
    rw [overlay, find?_insert, find?, ih]
    split <;> rfl

end Fields

/-! ### Scopes that agree -/

namespace Scope

/-- The scopes give the same values to the names among the nodes, and have the same context, or the
same locals, where a node stands for it. -/
structure AgreesOn (s s' : Scope) (nodes : List Expr) : Prop where
  lookup_eq : ∀ name, .ident name ∈ nodes → s.lookup name = s'.lookup name
  context_eq : .this ∈ nodes → s.context = s'.context
  locals_eq : .locals ∈ nodes → s.locals = s'.locals

variable {nodes nodes' : List Expr} {s s' : Scope}

theorem AgreesOn.mono (h : AgreesOn s s' nodes) (sub : nodes' ⊆ nodes) : AgreesOn s s' nodes' where
  lookup_eq name mem := h.lookup_eq name (sub mem)
  context_eq mem := h.context_eq (sub mem)
  locals_eq mem := h.locals_eq (sub mem)

/-- Locals that are a map are entries over the context. -/
theorem lookup_overlay (context locals : Fields Value) (name : String) :
    (Scope.mk (.map context) (some (.map locals))).lookup name =
      (Scope.mk (.map (context.overlay locals)) none).lookup name := by
  have found := Fields.find?_overlay context locals name
  cases local? : locals.find? name with
  | some value =>
    -- Whatever the value is, that the locals have the name is enough.
    rw [local?, Option.some_or] at found
    simp [lookup, isLocal, Scope.locals, Value.hasOwn, Fields.contains, Value.truthy, Value.get,
      local?, found]
  | none =>
    rw [local?, Option.none_or] at found
    simp [lookup, isLocal, Scope.locals, Value.hasOwn, Fields.contains, Value.truthy, Value.get,
      local?, found]

/-- Where neither the context nor the locals are mentioned as a whole, locals that are a map can be
laid over the context. -/
theorem agreesOn_overlay (noThis : .this ∉ nodes) (noLocals : .locals ∉ nodes)
    (context locals : Fields Value) :
    AgreesOn ⟨.map context, some (.map locals)⟩ ⟨.map (context.overlay locals), none⟩ nodes where
  lookup_eq name _ := lookup_overlay context locals name
  context_eq mem := absurd mem noThis
  locals_eq mem := absurd mem noLocals

end Scope

/-! ### Evaluations in scopes that agree -/

variable {m : Type → Type} [Monad m] {host : Host m} {s s' : Scope}

namespace Expr

mutual

/-- An evaluation depends on what the nodes of the expression see of the scope. -/
theorem evalParts_congr : ∀ e : Expr, s.AgreesOn s' e.nodes →
    evalParts host s e = evalParts host s' e
  | program body, h => by
    rw [evalParts, evalParts, evalParts_congr body (h.mono (List.subset_cons_self _ _))]
  | literal value, _ => rfl
  | array elements, h => by
    rw [evalParts, evalParts, evalList_congr elements (h.mono (List.subset_cons_self _ _))]
  | object properties, h => by
    rw [evalParts, evalParts,
      evalProperties_congr properties (h.mono (List.subset_cons_self _ _))]
  | ident name, h => congrArg pure (h.lookup_eq name List.mem_cons_self)
  | this, h => congrArg pure (h.context_eq List.mem_cons_self)
  | locals, h => congrArg pure (h.locals_eq List.mem_cons_self)
  | member e name, h => by
    rw [evalParts, evalParts, evalParts_congr e (h.mono (List.subset_cons_self _ _))]
  | index e key, h => by
    have parts := h.mono (List.subset_cons_self _ _)
    rw [evalParts, evalParts, evalParts_congr e (parts.mono (List.subset_append_left _ _)),
      evalParts_congr key (parts.mono (List.subset_append_right _ _))]
  | call callee args, h => by
    have parts := h.mono (List.subset_cons_self _ _)
    rw [evalParts, evalParts, evalParts_congr callee (parts.mono (List.subset_append_left _ _)),
      evalList_congr args (parts.mono (List.subset_append_right _ _))]

theorem evalList_congr : ∀ es : List Expr, s.AgreesOn s' (nodesList es) →
    evalList host s es = evalList host s' es
  | [], _ => rfl
  | e :: rest, h => by
    rw [evalList, evalList, evalParts_congr e (h.mono (List.subset_append_left _ _)),
      evalList_congr rest (h.mono (List.subset_append_right _ _))]

theorem evalProperties_congr : ∀ ps : List (Key × Expr), s.AgreesOn s' (nodesProperties ps) →
    evalProperties host s ps = evalProperties host s' ps
  | [], _ => rfl
  | (key, e) :: rest, h => by
    rw [evalProperties, evalProperties,
      evalParts_congr e (h.mono (List.subset_append_left _ _)),
      evalProperties_congr rest (h.mono (List.subset_append_right _ _))]

end

end Expr

namespace Program

variable [LawfulMonad m]

/-- Scopes that agree on the nodes cannot be told apart. -/
theorem run_congr {e : Expr} (h : s.AgreesOn s' e.nodes) :
    (Program.ofExpr e).run host s = (Program.ofExpr e).run host s' := by
  rw [run_eq_resume, run_eq_resume, Expr.evalParts_congr e.answer (h.mono e.nodes_answer_subset)]

/-- A run depends on its scope only as far as the nodes of the expression see it, in every monad in
which calls can have effects. In particular, where neither the context nor the locals are mentioned
as a whole, locals that are a map make no difference to being laid over the context. -/
theorem run_sees_mentioned (host : Host m) (e : Expr) :
    (∀ s s' : Scope, s.AgreesOn s' e.nodes →
      (Program.ofExpr e).run host s = (Program.ofExpr e).run host s') ∧
    (.this ∉ e.nodes → .locals ∉ e.nodes → ∀ context locals : Fields Value,
      (Program.ofExpr e).run host ⟨.map context, some (.map locals)⟩ =
        (Program.ofExpr e).run host ⟨.map (context.overlay locals), none⟩) :=
  ⟨fun _ _ agree => run_congr agree, fun noThis noLocals context locals =>
    run_congr (Scope.agreesOn_overlay noThis noLocals context locals)⟩

/-- In `f(a, b)` a local `a` that is undefined hides the one of the context. A context without `a`,
with something else in it, cannot be told apart from that, and neither can the one context that
holds the entries of both. -/
theorem run_sees_mentioned_undefined :
    let e : Expr := .program (.call (.ident "f") [.ident "a", .ident "b"])
    let f : String × Value := ("f", .function ⟨"f"⟩)
    let context : Fields Value := [("a", .ofInt 1), ("b", .ofInt 2), f]
    let locals : Fields Value := [("a", .undefined)]
    let host : Host (Recorded String) := Host.recorded fun _ _ _ => .ok .null
    let run (s : Scope) := (Program.ofExpr e).run host s
    let s : Scope := ⟨.map context, some (.map locals)⟩
    let s' : Scope := ⟨.map [("b", .ofInt 2), f, ("secret", .null)], none⟩
    s.AgreesOn s' e.nodes ∧ .this ∉ e.nodes ∧ .locals ∉ e.nodes ∧
      (run s).run.run [] = (.ok .null, [(⟨"f"⟩, [.undefined, .ofInt 2])]) ∧
      run s = run s' ∧ run s = run ⟨.map (context.overlay locals), none⟩ := by
  intro e f context locals host run s s'
  have agree : s.AgreesOn s' e.nodes := by
    constructor
    · intro name mem
      have names : name = "f" ∨ name = "a" ∨ name = "b" := by
        simpa [e, Expr.nodes, Expr.nodesList] using mem
      rcases names with rfl | rfl | rfl <;> rfl
    · simp [e, Expr.nodes, Expr.nodesList]
    · simp [e, Expr.nodes, Expr.nodesList]
  have noThis : .this ∉ e.nodes := by simp [e, Expr.nodes, Expr.nodesList]
  have noLocals : .locals ∉ e.nodes := by simp [e, Expr.nodes, Expr.nodesList]
  -- The answer and the calls are computed for one scope and carried over to the others.
  obtain ⟨sees, overlaid⟩ := run_sees_mentioned host e
  exact ⟨agree, noThis, noLocals, rfl, sees s s' agree, overlaid noThis noLocals context locals⟩

end Program

end DataBinding
