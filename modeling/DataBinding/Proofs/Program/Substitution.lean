import DataBinding.Proofs.Program.Visibility

/-!
# Names for parts of an expression

A part of an expression that calls nothing can be given a name: it makes no difference whether the
part stands in every place of the name, or whether the name is bound to the value of the part in the
locals. The programs of the two expressions have little in common, since the part may be looked up
or put together wherever it stands, or not be there at all. But evaluating the expressions
themselves goes hand in hand, and that is what their programs do.

## Main definitions

* `Expr.subst` — an expression in the place of a name
* `Scope.bind` — a scope in which a name has a value

## Main results

* `Scope.lookup_bind` — only the name that is bound is looked up differently
* `Expr.exists_value` — without calls there is a value, whatever the host does
* `Expr.evalParts_subst` — substituting an expression is binding its value
* `Program.run_subst` — the same for the programs of expressions
-/

namespace DataBinding

/-! ### Binding a name -/

namespace Scope

/-- The entries that the locals bind: none, unless they are a map. -/
def entries (s : Scope) : Fields Value :=
  match s.locals? with
  | some (.map fields) => fields
  | _ => []

/-- The scope with the name bound to the value in the locals, where all else that they bind stays as
it is. -/
def bind (s : Scope) (name : String) (value : Value) : Scope :=
  ⟨s.context, some (.map (s.entries.insert name value))⟩

/-- A name is looked up among the entries of the locals first. -/
theorem lookup_eq (s : Scope) (name : String) :
    s.lookup name = (s.entries.find? name).getD
      (if s.context.truthy then s.context.get name else .undefined) := by
  obtain ⟨context, locals?⟩ := s
  cases locals? with
  | none => rfl
  | some value =>
    cases value with
    | map fields =>
      simp only [lookup, isLocal, entries, Scope.locals, Option.getD_some, Value.hasOwn,
        Fields.contains]
      cases found : Fields.find? fields name with
      | none => rfl
      | some v => simp [Value.get, found]
    | _ => rfl

/-- Only the name that is bound is looked up differently. -/
theorem lookup_bind (s : Scope) (name name' : String) (value : Value) :
    (s.bind name value).lookup name' = if name' = name then value else s.lookup name' := by
  rw [lookup_eq, lookup_eq s]
  change ((s.entries.insert name value).find? name').getD _ = _
  rw [Fields.find?_insert]
  split <;> rfl

end Scope

/-! ### Expressions without calls -/

namespace Expr

/-- Whether the node is a call. -/
def isCall : Expr → Bool
  | call _ _ => true
  | _ => false

/-- No node of the list is a call. -/
def CallFree (nodes : List Expr) : Prop := ∀ e ∈ nodes, e.isCall = false

@[simp] theorem callFree_nil : CallFree [] := List.forall_mem_nil _

@[simp] theorem callFree_cons {e : Expr} {rest : List Expr} :
    CallFree (e :: rest) ↔ e.isCall = false ∧ CallFree rest :=
  List.forall_mem_cons

@[simp] theorem callFree_append {l l' : List Expr} :
    CallFree (l ++ l') ↔ CallFree l ∧ CallFree l' :=
  List.forall_mem_append

variable (s : Scope)

mutual

/-- An expression without calls and without programs inside has a value, which does not depend on
the host. -/
theorem exists_value : ∀ e : Expr, CallFree e.nodes → ProgramFree e.nodes →
    ∃ v, ∀ {m : Type → Type} [Monad m] [LawfulMonad m] (host : Host m),
      evalParts host s e = pure v
  | program body, _, free => by simp [nodes, isProgram] at free
  | literal value, _, _ => ⟨_, fun _ => rfl⟩
  | array elements, quiet, free => by
    obtain ⟨vs, es⟩ := exists_valueList elements (callFree_cons.1 quiet).2
      (programFree_cons.1 free).2
    exact ⟨.list vs, fun host => by rw [evalParts, es host, pure_bind]⟩
  | object properties, quiet, free => by
    obtain ⟨entries, ps⟩ := exists_valueProperties properties (callFree_cons.1 quiet).2
      (programFree_cons.1 free).2
    exact ⟨.ofEntries entries, fun host => by rw [evalParts, ps host, pure_bind]⟩
  | ident name, _, _ => ⟨_, fun _ => rfl⟩
  | this, _, _ => ⟨_, fun _ => rfl⟩
  | locals, _, _ => ⟨_, fun _ => rfl⟩
  | member e name, quiet, free => by
    obtain ⟨o, object⟩ := exists_value e (callFree_cons.1 quiet).2 (programFree_cons.1 free).2
    exact ⟨_, fun host => by rw [evalParts, object host, pure_bind]⟩
  | index e key, quiet, free => by
    simp only [nodes, callFree_cons, callFree_append, programFree_cons, programFree_append]
      at quiet free
    obtain ⟨o, object⟩ := exists_value e quiet.2.1 free.2.1
    obtain ⟨k, key⟩ := exists_value key quiet.2.2 free.2.2
    exact ⟨_, fun host => by rw [evalParts, object host, pure_bind, key host, pure_bind]⟩
  | call callee args, quiet, _ => by simp [nodes, isCall] at quiet

theorem exists_valueList : ∀ es : List Expr, CallFree (nodesList es) →
    ProgramFree (nodesList es) →
    ∃ vs, ∀ {m : Type → Type} [Monad m] [LawfulMonad m] (host : Host m),
      evalList host s es = pure vs
  | [], _, _ => ⟨[], fun _ => rfl⟩
  | e :: rest, quiet, free => by
    simp only [nodesList, callFree_append, programFree_append] at quiet free
    obtain ⟨v, first⟩ := exists_value e quiet.1 free.1
    obtain ⟨vs, more⟩ := exists_valueList rest quiet.2 free.2
    exact ⟨v :: vs, fun host => by rw [evalList, first host, pure_bind, more host, pure_bind]⟩

theorem exists_valueProperties : ∀ ps : List (Key × Expr), CallFree (nodesProperties ps) →
    ProgramFree (nodesProperties ps) →
    ∃ entries, ∀ {m : Type → Type} [Monad m] [LawfulMonad m] (host : Host m),
      evalProperties host s ps = pure entries
  | [], _, _ => ⟨[], fun _ => rfl⟩
  | (key, e) :: rest, quiet, free => by
    simp only [nodesProperties, callFree_append, programFree_append] at quiet free
    obtain ⟨v, first⟩ := exists_value e quiet.1 free.1
    obtain ⟨entries, more⟩ := exists_valueProperties rest quiet.2 free.2
    exact ⟨(key.toKey, v) :: entries,
      fun host => by rw [evalProperties, first host, pure_bind, more host, pure_bind]⟩

end

end Expr

/-! ### Substituting for a name -/

namespace Expr

mutual

/-- The expression with `f` in every place where the name is looked up. -/
def subst (name : String) (f : Expr) : Expr → Expr
  | program body => program (subst name f body)
  | literal value => literal value
  | array elements => array (substList name f elements)
  | object properties => object (substProperties name f properties)
  | ident other => if other = name then f else ident other
  | this => this
  | locals => locals
  | member e key => member (subst name f e) key
  | index e key => index (subst name f e) (subst name f key)
  | call callee args => call (subst name f callee) (substList name f args)

/-- The expressions with `f` in every place where the name is looked up. -/
def substList (name : String) (f : Expr) : List Expr → List Expr
  | [] => []
  | e :: rest => subst name f e :: substList name f rest

/-- The properties with `f` in every place where the name is looked up; keys are no lookups. -/
def substProperties (name : String) (f : Expr) : List (Key × Expr) → List (Key × Expr)
  | [] => []
  | (key, e) :: rest => (key, subst name f e) :: substProperties name f rest

end

section Subst

variable {m : Type → Type} [Monad m] {host : Host m} {s : Scope} {f : Expr} {v : Value}

mutual

/-- Substituting an expression that has a value is binding the name to the value. -/
theorem evalParts_subst (given : evalParts host s f = pure v) (name : String) : ∀ e : Expr,
    .locals ∉ e.nodes → evalParts host s (subst name f e) = evalParts host (s.bind name v) e
  | program body, h => by
    have inner := evalParts_subst given name body (List.not_mem_of_not_mem_cons h)
    rw [subst, evalParts, evalParts, inner]
  | literal value, _ => rfl
  | array elements, h => by
    have inner := evalList_subst given name elements (List.not_mem_of_not_mem_cons h)
    rw [subst, evalParts, evalParts, inner]
  | object properties, h => by
    have inner := evalProperties_subst given name properties (List.not_mem_of_not_mem_cons h)
    rw [subst, evalParts, evalParts, inner]
  | ident other, _ => by
    -- Nothing inside of an expression binds names: everywhere `f` has the value that is bound.
    rw [evalParts, Scope.lookup_bind, subst]
    split
    · exact given
    · rfl
  | this, _ => rfl
  | locals, h => absurd List.mem_cons_self h
  | member e key, h => by
    have object := evalParts_subst given name e (List.not_mem_of_not_mem_cons h)
    rw [subst, evalParts, evalParts, object]
  | index e key, h => by
    simp only [nodes, List.mem_cons, List.mem_append, not_or] at h
    have object := evalParts_subst given name e h.2.1
    have inner := evalParts_subst given name key h.2.2
    rw [subst, evalParts, evalParts, object, inner]
  | call callee args, h => by
    simp only [nodes, List.mem_cons, List.mem_append, not_or] at h
    have function := evalParts_subst given name callee h.2.1
    have inner := evalList_subst given name args h.2.2
    rw [subst, evalParts, evalParts, function, inner]

theorem evalList_subst (given : evalParts host s f = pure v) (name : String) : ∀ es : List Expr,
    .locals ∉ nodesList es →
    evalList host s (substList name f es) = evalList host (s.bind name v) es
  | [], _ => rfl
  | e :: rest, h => by
    simp only [nodesList, List.mem_append, not_or] at h
    have first := evalParts_subst given name e h.1
    have more := evalList_subst given name rest h.2
    rw [substList, evalList, evalList, first, more]

theorem evalProperties_subst (given : evalParts host s f = pure v) (name : String) :
    ∀ ps : List (Key × Expr), .locals ∉ nodesProperties ps →
    evalProperties host s (substProperties name f ps) = evalProperties host (s.bind name v) ps
  | [], _ => rfl
  | (key, e) :: rest, h => by
    simp only [nodesProperties, List.mem_append, not_or] at h
    have first := evalParts_subst given name e h.1
    have more := evalProperties_subst given name rest h.2
    rw [substProperties, evalProperties, evalProperties, first, more]

end

end Subst

/-- A program at the root stays there. -/
theorem answer_subst {f : Expr} (h : f.isProgram = false) (name : String) (e : Expr) :
    (subst name f e).answer = subst name f e.answer := by
  cases e with
  | ident other =>
    -- In the place of the whole expression, `f` must not bring a program to the root.
    have self : (ident other).answer = ident other := rfl
    rw [self, subst]
    split
    · exact answer_eq_self h
    · rfl
  | _ => rfl

end Expr

namespace Program

/-- Of an expression `f` without calls and without programs inside, running the program gives one
value, whatever the host does. In an expression that does not mention the locals as a whole, `f` can
then be put in every place of a name, or the name be bound to the value: the calls and the answer
are the same, in every monad in which calls can have effects. -/
theorem run_subst (s : Scope) {e f : Expr} (name : String) (noLocals : .locals ∉ e.nodes)
    (noCalls : Expr.CallFree f.nodes) (noPrograms : Expr.ProgramFree f.nodes) :
    ∃ v, ∀ {m : Type → Type} [Monad m] [LawfulMonad m] (host : Host m),
      (Program.ofExpr f).run host s = pure v ∧
      (Program.ofExpr (.subst name f e)).run host s =
        (Program.ofExpr e).run host (s.bind name v) := by
  obtain ⟨v, gives⟩ := Expr.exists_value s f noCalls noPrograms
  have noProgram := noPrograms f (Expr.mem_nodes f)
  have parts : .locals ∉ e.answer.nodes := fun mem => noLocals (e.nodes_answer_subset mem)
  refine ⟨v, fun host => ⟨?_, ?_⟩⟩
  · rw [run_eq_resume, Expr.answer_eq_self noProgram, gives host, Expr.resume_pure]
  · rw [run_eq_resume, run_eq_resume, Expr.answer_subst noProgram,
      Expr.evalParts_subst (gives host) name e.answer parts]

/-- In `f({x: x}, x)` the local `x` is shadowed by the value of `a.b`, or `a.b` is put in its
place, once in an object and once as an argument, but not as a key. -/
theorem run_subst_argument :
    let part : Expr := .member (.ident "a") "b"
    let e : Expr := .call (.ident "f") [.object [(.name "x", .ident "x")], .ident "x"]
    let f : String × Value := ("f", .function ⟨"f"⟩)
    let s : Scope := ⟨.map [("a", .map [("b", .bool true)]), f], some (.map [("x", .null)])⟩
    let host : Host (Recorded String) := Host.recorded fun _ _ _ => .ok .null
    let run (s : Scope) (e : Expr) := ((Program.ofExpr e).run host s).run.run []
    let calls : List (Function × List Value) :=
      [(⟨"f"⟩, [.map [("x", .bool true)], .bool true])]
    .locals ∉ e.nodes ∧ Expr.CallFree part.nodes ∧ Expr.ProgramFree part.nodes ∧
      (Program.ofExpr (.subst "x" part e)).vars.length = 6 ∧
      (Program.ofExpr e).vars.length = 4 ∧
      run s (.subst "x" part e) = (.ok .null, calls) ∧
      run (s.bind "x" (.bool true)) e = (.ok .null, calls) := by
  intro part e f s host run calls
  have noLocals : .locals ∉ e.nodes := by
    simp [e, Expr.nodes, Expr.nodesList, Expr.nodesProperties]
  have noCalls : Expr.CallFree part.nodes := by simp [part, Expr.nodes, Expr.isCall]
  have noPrograms : Expr.ProgramFree part.nodes := by simp [part, Expr.nodes, Expr.isProgram]
  obtain ⟨v, same⟩ := run_subst s "x" noLocals noCalls noPrograms
  -- The value of the part is what a run of it without effects gives.
  have value : Value.bool true = v := (same (m := Id) fun _ _ => .undefined).1
  subst value
  have bound : run (s.bind "x" (.bool true)) e = (.ok .null, calls) := rfl
  refine ⟨noLocals, noCalls, noPrograms, rfl, rfl, ?_, bound⟩
  change ((Program.ofExpr (.subst "x" part e)).run host s).run.run [] = _
  rw [(same host).2]
  exact bound

end Program

end DataBinding
