import DataBinding.Proofs.Program.Visibility

/-!
# Chains

A chain is an expression with any number of links behind it: properties of fixed names, properties
of computed keys, and calls. Each link works on the value of all that stands in front of it.

Behind a falsy value a chain is safe: its first link reads no property and calls nothing, and leaves
undefined to the next, which does the same. All that still happens are the evaluations of the keys
and of the arguments, one after the other.

## Main definitions

* `Link` — a link, and `Link.parts`, the expressions inside of it
* `Expr.chain` — an expression with links behind it
* `Link.follow` — what a link does with the value in front of it
* `Value.Falsy` — the values that no guard lets pass
* `Expr.Lifts` — an evaluation that does not end early

## Main results

* `Expr.evalParts_chain` — a chain is evaluated link by link
* `Link.foldlM_follow_falsy` — what links do behind a falsy value
* `Program.run_chain` — the program of a chain, in terms of the program of what stands in front
* `Program.run_chain_falsy` — chains behind falsy values
-/

namespace DataBinding

/-! ### Falsy values -/

namespace Value

/-- The values that no guard lets pass. -/
inductive Falsy : Value → Prop where
  | undefined : Falsy undefined
  | null : Falsy null
  | bool : Falsy (bool false)
  | zero (negative : Bool) : Falsy (number (.finite negative .zero))
  | nan : Falsy (number .nan)
  | str : Falsy (str "")

theorem Falsy.truthy_eq_false {v : Value} (h : v.Falsy) : v.truthy = false := by
  cases h <;> rfl

end Value

/-! ### Links -/

/-- What may stand behind an expression. -/
inductive Link where
  | member (name : String)
  | index (key : Expr)
  | call (args : List Expr)

namespace Link

/-- The expression with the link behind it. -/
def attach (e : Expr) : Link → Expr
  | member name => .member e name
  | index key => .index e key
  | call args => .call e args

/-- The expressions inside of the link: its key, or its arguments. -/
def parts : Link → List Expr
  | member _ => []
  | index key => [key]
  | call args => args

variable {m : Type → Type} [Monad m]

/-- What the link does with the value in front of it. -/
def follow (host : Host m) (s : Scope) (v : Value) : Link → ExceptT Value m Value
  | member name => pure (if v.truthy then v.get name else .undefined)
  | index key => do
    let k ← Expr.evalParts host s key
    pure (if v.truthy then v.getProperty k else .undefined)
  | call args => do
    let vs ← Expr.evalList host s args
    if v.truthy then ExceptT.lift (v.call host vs) else pure .undefined

end Link

namespace Expr

/-- The expression with the links behind it, one after the other. -/
def chain (e : Expr) (links : List Link) : Expr := links.foldl Link.attach e

variable {m : Type → Type} [Monad m] {host : Host m} {s : Scope}

theorem evalParts_attach (e : Expr) (l : Link) :
    evalParts host s (l.attach e) = evalParts host s e >>= fun v => l.follow host s v := by
  cases l <;> rw [Link.attach, evalParts] <;> rfl

variable [LawfulMonad m]

/-- A chain is evaluated link by link. -/
theorem evalParts_chain (e : Expr) (links : List Link) :
    evalParts host s (e.chain links) =
      evalParts host s e >>= fun v => links.foldlM (fun v l => l.follow host s v) v := by
  induction links generalizing e with
  | nil => simp [chain]
  | cons l rest ih =>
    change evalParts host s ((l.attach e).chain rest) = _
    simp only [ih, evalParts_attach, bind_assoc, List.foldlM_cons]

theorem evalList_append (es es' : List Expr) :
    evalList host s (es ++ es') =
      evalList host s es >>= fun vs => (vs ++ ·) <$> evalList host s es' := by
  induction es with
  | nil => simp [evalList]
  | cons e rest ih => simp [evalList, ih]

end Expr

namespace Link

variable {m : Type → Type} [Monad m] [LawfulMonad m] {host : Host m} {s : Scope} {v : Value}

/-- Behind a falsy value only the parts of the link are evaluated, and undefined is left. -/
theorem follow_falsy (h : v.truthy = false) (l : Link) :
    l.follow host s v = Expr.evalList host s l.parts >>= fun _ => pure .undefined := by
  cases l <;> simp [follow, parts, Expr.evalList, h]

/-- Behind a falsy value the parts of all links are evaluated in order, and nothing else is done. -/
theorem foldlM_follow_falsy (h : v.truthy = false) {links : List Link} (ne : links ≠ []) :
    links.foldlM (fun v l => l.follow host s v) v =
      Expr.evalList host s (links.flatMap parts) >>= fun _ => pure .undefined := by
  induction links generalizing v with
  | nil => exact absurd rfl ne
  | cons l rest ih =>
    rw [List.foldlM_cons, follow_falsy h, List.flatMap_cons, Expr.evalList_append]
    simp only [bind_assoc, pure_bind, bind_map_left]
    -- What the first link leaves is falsy again, whatever stood in front of it.
    cases rest with
    | nil => simp [Expr.evalList]
    | cons l' rest => rw [ih (v := .undefined) rfl (List.cons_ne_nil l' rest)]

end Link

/-! ### Evaluations that do not end early -/

namespace Expr

/-- The nodes of a chain are those of what stands in front, the links, and the nodes of their parts;
no link is a program. -/
theorem programFree_chain {e : Expr} {links : List Link} :
    ProgramFree (e.chain links).nodes ↔
      ProgramFree e.nodes ∧ ProgramFree (nodesList (links.flatMap Link.parts)) := by
  induction links generalizing e with
  | nil => simp [chain, nodesList]
  | cons l rest ih =>
    have first : ProgramFree (l.attach e).nodes ↔
        ProgramFree e.nodes ∧ ProgramFree (nodesList l.parts) := by
      cases l <;> simp [Link.attach, Link.parts, nodes, nodesList, isProgram]
    change ProgramFree ((l.attach e).chain rest).nodes ↔ _
    rw [ih, first, List.flatMap_cons, nodesList_append, programFree_append, and_assoc]

variable {m : Type → Type} [Monad m] [LawfulMonad m] {α β : Type}

/-- The evaluation does not end early, so that it works in the host's monad alone. -/
def Lifts (x : ExceptT Value m α) : Prop := ∃ y : m α, x = ExceptT.lift y

theorem Lifts.pure (v : α) : Lifts (Pure.pure v : ExceptT Value m α) :=
  ⟨_, (ExceptT.lift_pure v).symm⟩

theorem Lifts.bind {x : ExceptT Value m α} {f : α → ExceptT Value m β} (h : Lifts x)
    (h' : ∀ v, Lifts (f v)) : Lifts (x >>= f) := by
  obtain ⟨y, rfl⟩ := h
  choose g eq using h'
  exact ⟨y >>= g, by rw [ExceptT.lift_bind, funext eq]⟩

variable (host : Host m) (s : Scope)

mutual

/-- Where no program is inside an expression, its evaluation does not end early. -/
theorem evalParts_lifts : ∀ e : Expr, ProgramFree e.nodes → Lifts (evalParts host s e)
  | program body, free => by simp [nodes, isProgram] at free
  | literal value, _ => .pure _
  | array elements, free =>
    (evalList_lifts elements (programFree_cons.1 free).2).bind fun _ => .pure _
  | object properties, free =>
    (evalProperties_lifts properties (programFree_cons.1 free).2).bind fun _ => .pure _
  | ident name, _ => .pure _
  | this, _ => .pure _
  | locals, _ => .pure _
  | member e name, free =>
    (evalParts_lifts e (programFree_cons.1 free).2).bind fun _ => .pure _
  | index e key, free => by
    simp only [nodes, programFree_cons, programFree_append] at free
    exact (evalParts_lifts e free.2.1).bind fun _ =>
      (evalParts_lifts key free.2.2).bind fun _ => .pure _
  | call callee args, free => by
    simp only [nodes, programFree_cons, programFree_append] at free
    refine (evalParts_lifts callee free.2.1).bind fun f =>
      (evalList_lifts args free.2.2).bind fun vs => ?_
    -- Either the host answers the call, or the guard stops it.
    split
    · exact ⟨_, rfl⟩
    · exact .pure _

theorem evalList_lifts : ∀ es : List Expr, ProgramFree (nodesList es) →
    Lifts (evalList host s es)
  | [], _ => .pure _
  | e :: rest, free =>
    (evalParts_lifts e (programFree_append.1 free).1).bind fun _ =>
      (evalList_lifts rest (programFree_append.1 free).2).bind fun _ => .pure _

theorem evalProperties_lifts : ∀ ps : List (Key × Expr), ProgramFree (nodesProperties ps) →
    Lifts (evalProperties host s ps)
  | [], _ => .pure _
  | (_, e) :: rest, free =>
    (evalParts_lifts e (programFree_append.1 free).1).bind fun _ =>
      (evalProperties_lifts rest (programFree_append.1 free).2).bind fun _ => .pure _

end

end Expr

namespace Program

variable {m : Type → Type} [Monad m] [LawfulMonad m] (host : Host m) (s : Scope)

/-- Evaluating an expression without programs inside is running its program. -/
theorem evalParts_eq_lift {e : Expr} (free : Expr.ProgramFree e.nodes) :
    Expr.evalParts host s e = ExceptT.lift ((Program.ofExpr e).run host s) := by
  have self : e.answer = e := Expr.answer_eq_self (free e (Expr.mem_nodes e))
  obtain ⟨x, eq⟩ := Expr.evalParts_lifts host s e free
  rw [run_eq_resume, self, eq, Expr.resume_lift, bind_pure]

theorem evalList_eq_lift {es : List Expr} (free : Expr.ProgramFree (Expr.nodesList es)) :
    Expr.evalList host s es =
      ExceptT.lift (es.mapM fun e => (Program.ofExpr e).run host s) := by
  induction es with
  | nil => simp [Expr.evalList]
  | cons e rest ih =>
    obtain ⟨first, more⟩ := Expr.programFree_append.1 free
    simp only [Expr.evalList, evalParts_eq_lift host s first, ih more, List.mapM_cons,
      ExceptT.lift_bind, ExceptT.lift_pure]

/-- The program of a chain runs what stands in front of the links. Behind a falsy value all that
runs then are the keys and the arguments, and undefined is the answer. -/
theorem run_chain {e : Expr} {links : List Link} (ne : links ≠ [])
    (free : Expr.ProgramFree (e.chain links).nodes) :
    (Program.ofExpr (e.chain links)).run host s =
      (Program.ofExpr e).run host s >>= fun v =>
        if v.truthy then Expr.resume (links.foldlM (fun v l => l.follow host s v) v) pure
        else (links.flatMap Link.parts).mapM (fun part => (Program.ofExpr part).run host s) >>=
          fun _ => pure .undefined := by
  obtain ⟨front, parts⟩ := Expr.programFree_chain.1 free
  have self : (e.chain links).answer = e.chain links :=
    Expr.answer_eq_self (free _ (Expr.mem_nodes _))
  rw [run_eq_resume, self, Expr.evalParts_chain, evalParts_eq_lift host s front,
    Expr.resume_bind, Expr.resume_lift]
  refine bind_congr fun v => ?_
  cases truthy : v.truthy with
  | true => rfl
  | false =>
    rw [Link.foldlM_follow_falsy truthy ne, evalList_eq_lift host s parts, Expr.resume_bind,
      Expr.resume_lift]
    simp

/-- Where the evaluation of `e` comes to a falsy value, with `calls` as all calls up to then, a
chain behind `e` goes on from there with the evaluations of its keys and arguments, in the order of
the source, and its value is undefined; the links themselves have no part in it. What the functions
answer, or whether they fail, may depend on all earlier calls. -/
theorem run_chain_falsy {ε : Type}
    (answer : List (Function × List Value) → Function → List Value → Except ε Value) (s : Scope)
    {e : Expr} {links : List Link} (ne : links ≠ [])
    (free : Expr.ProgramFree (e.chain links).nodes) {earlier calls : List (Function × List Value)}
    {v : Value} (falsy : v.Falsy)
    (gives : ((Program.ofExpr e).run (Host.recorded answer) s).run.run earlier = (.ok v, calls)) :
    ((Program.ofExpr (e.chain links)).run (Host.recorded answer) s).run.run earlier =
      ((links.flatMap Link.parts).mapM (fun part =>
        (Program.ofExpr part).run (Host.recorded answer) s) >>= fun _ =>
          pure .undefined).run.run calls := by
  rw [run_chain (Host.recorded answer) s ne free, ExceptT.run_bind, StateT.run_bind, gives]
  -- The evaluation of `e` is over, and what it came to decides how to go on.
  change (ite (v.truthy = true) _ _ : Recorded ε Value).run.run calls = _
  rw [falsy.truthy_eq_false, if_neg Bool.false_ne_true]

/-- In `f().length[g()](h())` the first call answers with the empty string. Its length is not read,
but `g` and `h` are called. -/
theorem run_chain_falsy_empty :
    let call (name : String) : Expr := .call (.ident name) []
    let links : List Link := [.member "length", .index (call "g"), .call [call "h"]]
    let named (name : String) : String × Value := (name, .function ⟨name⟩)
    let s : Scope := ⟨.map [named "f", named "g", named "h"], none⟩
    let host : Host (Recorded String) := Host.recorded fun _ _ _ => .ok (.str "")
    let run (e : Expr) (earlier : List (Function × List Value)) :=
      ((Program.ofExpr e).run host s).run.run earlier
    links ≠ [] ∧ Expr.ProgramFree ((call "f").chain links).nodes ∧ Value.Falsy (.str "") ∧
      run (call "f") [] = (.ok (.str ""), [(⟨"f"⟩, [])]) ∧
      run ((call "f").chain links) [] =
        (.ok .undefined, [(⟨"f"⟩, []), (⟨"g"⟩, []), (⟨"h"⟩, [])]) := by
  intro call links named s host run
  have ne : links ≠ [] := List.cons_ne_nil _ _
  have free : Expr.ProgramFree ((call "f").chain links).nodes := by
    simp [call, links, Expr.chain, Link.attach, Expr.nodes, Expr.nodesList, Expr.isProgram]
  have gives : run (call "f") [] = (.ok (.str ""), [(⟨"f"⟩, [])]) := rfl
  refine ⟨ne, free, .str, gives, ?_⟩
  exact (run_chain_falsy _ s ne free .str gives).trans rfl

end Program

end DataBinding
