import DataBinding.Expr.Eval
import DataBinding.Program.Run
import DataBinding.Proofs.Program.SingleAssignment

/-!
# The meaning of the programs of expressions

Running the program of an expression is evaluating the expression: the same calls are made, with the
same arguments and in the same order, and the answer is the same. This holds in every monad in which
a host may work, so whatever the functions do: they may keep a state, answer differently each time,
or fail and thereby end the run.

The statements of an expression run from a frame in which the temporaries they assign are still
undefined. When they have run, the operand holds the value of the expression, and goes on to hold it
while later statements assign later temporaries. What comes after the statements is a continuation
of that value.

## Main definitions

* `Frame.Extends` — one frame comes after another in a run
* `Expr.resume` — goes on with the value of an evaluation, unless the evaluation has ended
* `Lowered.Computes` — what it means for statements to compute a value

## Main results

* `Expr.lower_computes` — the statements of an expression compute its value
* `Program.run_eq_resume` — running the program of an expression evaluates the expression
* `Program.run_ofExpr` — the program of an expression means what the expression means
-/

namespace DataBinding

namespace Frame

theorem load_set {f : Frame} {i : Nat} (lt : i < f.length) (v : Value) (j : Nat) :
    Frame.load (f.set i v) j = if j = i then v else f.load j := by
  unfold Frame.load
  rw [List.getElem?_set]
  by_cases eq : i = j
  · subst eq
    simp [lt]
  · rw [if_neg eq, if_neg (Ne.symm eq)]

theorem load_replicate (size i : Nat) :
    Frame.load (List.replicate size .undefined) i = .undefined := by
  unfold Frame.load
  rw [List.getElem?_replicate]
  split <;> rfl

/-- The frame `f'` comes after `f` in a run that has assigned temporaries from `n` on, but none from
`next` on. -/
structure Extends (n next : Nat) (f f' : Frame) : Prop where
  length_eq : f'.length = f.length
  load_eq : ∀ i < n, f'.load i = f.load i
  undefined : ∀ i, next ≤ i → f'.load i = .undefined

variable {n next next' : Nat} {f f' f'' : Frame}

theorem Extends.refl (h : ∀ i, n ≤ i → f.load i = .undefined) : Extends n n f f :=
  ⟨rfl, fun _ _ => rfl, h⟩

theorem Extends.trans (h : Extends n next f f') (h' : Extends next next' f' f'')
    (le : n ≤ next) : Extends n next' f f'' where
  length_eq := h'.length_eq.trans h.length_eq
  load_eq i lt := (h'.load_eq i (Nat.lt_of_lt_of_le lt le)).trans (h.load_eq i lt)
  undefined := h'.undefined

/-- A guarded assignment of the next temporary goes one step further, whether it is made or not. -/
theorem Extends.store (h : Extends n next f f') (le : n ≤ next) (lt : next < f'.length)
    (guard : Bool) (v : Value) :
    Extends n (next + 1) f (if guard then f'.set next v else f') ∧
      Frame.load (if guard then f'.set next v else f') next = if guard then v else .undefined := by
  cases guard with
  | false => exact ⟨⟨h.length_eq, h.load_eq, fun i above => h.undefined i (by omega)⟩,
      h.undefined next (Nat.le_refl _)⟩
  | true =>
    refine ⟨⟨?_, fun i below => ?_, fun i above => ?_⟩, ?_⟩
    · simp [h.length_eq]
    · rw [if_pos rfl, load_set lt, if_neg (by omega)]
      exact h.load_eq i below
    · rw [if_pos rfl, load_set lt, if_neg (by omega)]
      exact h.undefined i (by omega)
    · rw [if_pos rfl, load_set lt, if_pos rfl, if_pos rfl]

end Frame

namespace Operand

variable {scope : Scope} {f f' : Frame}

mutual

/-- The value of an operand depends only on the temporaries that occur in it. -/
theorem eval_congr : ∀ o : Operand, (∀ t ∈ o.temps, f'.load t = f.load t) →
    o.eval scope f' = o.eval scope f
  | literal _, _ => rfl
  | temp _, h => h _ (List.mem_singleton_self _)
  | context, _ => rfl
  | locals, _ => rfl
  | list elements, h => congrArg Value.list (evalList_congr elements h)
  | map entries, h => congrArg Value.ofEntries (evalEntries_congr entries h)

theorem evalList_congr : ∀ os : List Operand, (∀ t ∈ tempsList os, f'.load t = f.load t) →
    evalList scope f' os = evalList scope f os
  | [], _ => rfl
  | o :: rest, h => by
    have first := eval_congr o fun t mem => h t (List.mem_append_left _ mem)
    have more := evalList_congr rest fun t mem => h t (List.mem_append_right _ mem)
    rw [evalList, evalList, first, more]

theorem evalEntries_congr : ∀ os : List (String × Operand),
    (∀ t ∈ tempsEntries os, f'.load t = f.load t) →
    evalEntries scope f' os = evalEntries scope f os
  | [], _ => rfl
  | (key, o) :: rest, h => by
    have first := eval_congr o fun t mem => h t (List.mem_append_left _ mem)
    have more := evalEntries_congr rest fun t mem => h t (List.mem_append_right _ mem)
    rw [evalEntries, evalEntries, first, more]

end

end Operand

variable {m : Type → Type} [Monad m]

/-- Goes on with the value of an evaluation, unless the evaluation has ended with a value. -/
def Expr.resume {α : Type} (x : ExceptT Value m α) (k : α → m Value) : m Value := do
  match ← x.run with
  | .ok v => k v
  | .error v => pure v

section Resume

variable [LawfulMonad m] {α β : Type}

@[simp] theorem Expr.resume_pure (v : α) (k : α → m Value) :
    Expr.resume (pure v : ExceptT Value m α) k = k v := by
  simp [Expr.resume]

@[simp] theorem Expr.resume_throw (v : Value) (k : α → m Value) :
    Expr.resume (throw v : ExceptT Value m α) k = pure v := by
  simp [Expr.resume]

@[simp] theorem Expr.resume_lift (x : m α) (k : α → m Value) :
    Expr.resume (ExceptT.lift x) k = x >>= k := by
  simp [Expr.resume]

@[simp] theorem Expr.resume_bind (x : ExceptT Value m α) (f : α → ExceptT Value m β)
    (k : β → m Value) : Expr.resume (x >>= f) k = Expr.resume x fun v => Expr.resume (f v) k := by
  simp only [Expr.resume, ExceptT.run_bind, bind_assoc]
  congr 1
  funext r
  cases r with
  | ok v => rfl
  | error e => simp

end Resume

variable (host : Host m) (scope : Scope)

/-- Run from a frame without values from `n` on, the statements do what the evaluation `x` does.
Unless it ends there, the run goes on in a later frame, in which the result has the value of `x`. -/
def Lowered.Computes {α β : Type} (eval : Frame → α → β) (n : Nat) (r : Lowered α)
    (x : ExceptT Value m β) : Prop :=
  ∀ f : Frame, (∀ i, n ≤ i → f.load i = .undefined) → r.next ≤ f.length →
    ∀ (rest : List Statement) (k : β → m Value),
      (∀ f', Frame.Extends n r.next f f' →
        Program.runFrom host scope f' rest = k (eval f' r.result)) →
      Program.runFrom host scope f (r.code ++ rest) = Expr.resume x k

variable {host scope}

/-- Two parts after each other: the value of the first is still there when the second is done. -/
theorem Lowered.Computes.append {α α' β β' : Type} {eval : Frame → α → β}
    {eval' : Frame → α' → β'} {temps : α → List Nat} {temps' : α' → List Nat}
    {n count count' : Nat} {r : Lowered α} {r' : Lowered α'} {x : ExceptT Value m β}
    {x' : ExceptT Value m β'} (h : r.Computes host scope eval n x)
    (h' : r'.Computes host scope eval' r.next x') (fits : r.Fits temps n count)
    (fits' : r'.Fits temps' r.next count')
    (stable : ∀ f f' : Frame, (∀ t ∈ temps r.result, f'.load t = f.load t) →
      eval f' r.result = eval f r.result)
    {f : Frame} (undefined : ∀ i, n ≤ i → f.load i = .undefined) (room : r'.next ≤ f.length)
    {rest : List Statement} {k : β → β' → m Value}
    (go : ∀ f', Frame.Extends n r'.next f f' →
      Program.runFrom host scope f' rest = k (eval f' r.result) (eval' f' r'.result)) :
    Program.runFrom host scope f (r.code ++ (r'.code ++ rest)) =
      Expr.resume x fun v => Expr.resume x' (k v) := by
  -- The statements of the second part are the rest of the first.
  refine h f undefined (Nat.le_trans fits'.le_next room) _ _ fun f₁ first => ?_
  refine h' f₁ first.undefined (first.length_eq ▸ room) _ _ fun f₂ second => ?_
  have kept : eval f₂ r.result = eval f₁ r.result :=
    stable f₁ f₂ fun t mem => second.load_eq t (fits.mem_result mem).2
  rw [go f₂ (first.trans second fits.le_next), kept]

namespace Expr

variable [LawfulMonad m]

mutual

/-- The statements of an expression compute its value. -/
theorem lower_computes (n : Nat) : ∀ e : Expr,
    (e.lower n).Computes host scope (fun f o => o.eval scope f) n (evalParts host scope e)
  | program body => by
    intro f undefined room rest k go
    -- The return ends the run here, so neither `rest` nor `k` has any part in it.
    have b := lower_computes n body f undefined room (.ret (body.lower n).result :: rest) pure
    simpa [lower, evalParts] using b fun f' _ => rfl
  | literal value => by
    intro f undefined room rest k go
    rw [evalParts, resume_pure]
    exact go f (.refl undefined)
  | array elements => by
    intro f undefined room rest k go
    simp only [evalParts, resume_bind, resume_pure]
    exact lowerList_computes n elements f undefined room rest (fun vs => k (.list vs)) go
  | object properties => by
    intro f undefined room rest k go
    simp only [evalParts, resume_bind, resume_pure]
    exact lowerProperties_computes n properties f undefined room rest
      (fun entries => k (.ofEntries entries)) go
  | ident name => by
    intro f undefined room rest k go
    obtain ⟨later, load⟩ :=
      (Frame.Extends.refl undefined).store (Nat.le_refl n) room true (scope.lookup name)
    have run : _ = k (Frame.load _ n) := go _ later
    rw [load] at run
    rw [evalParts, resume_pure]
    exact run
  | this => by
    intro f undefined room rest k go
    rw [evalParts, resume_pure]
    exact go f (.refl undefined)
  | locals => by
    intro f undefined room rest k go
    rw [evalParts, resume_pure]
    exact go f (.refl undefined)
  | member e name => by
    intro f undefined room rest k go
    have fits := lower_fits n e
    simp only [lower, evalParts, resume_bind, resume_pure, List.append_assoc]
    refine lower_computes n e f undefined (Nat.le_of_succ_le room) _ _ fun f' before => ?_
    let object := (e.lower n).result.eval scope f'
    -- The temporary keeps its first value, which is undefined, where nothing is read.
    obtain ⟨later, load⟩ := before.store fits.le_next (before.length_eq ▸ room) object.truthy
      (object.get name)
    have run : _ = k (Frame.load _ (e.lower n).next) := go _ later
    rw [load] at run
    exact run
  | index e key => by
    intro f undefined room rest k go
    have fits := lower_fits n e
    have fits' := lower_fits (e.lower n).next key
    simp only [lower, evalParts, resume_bind, resume_pure, List.append_assoc]
    refine (lower_computes n e).append (lower_computes _ key) fits fits'
      (fun _ _ same => Operand.eval_congr _ same) undefined (Nat.le_of_succ_le room)
      fun f' before => ?_
    let r := key.lower (e.lower n).next
    let object := (e.lower n).result.eval scope f'
    obtain ⟨later, load⟩ := before.store (Nat.le_trans fits.le_next fits'.le_next)
      (before.length_eq ▸ room) object.truthy (object.getProperty (r.result.eval scope f'))
    have run : _ = k (Frame.load _ r.next) := go _ later
    rw [load] at run
    exact run
  | call callee args => by
    intro f undefined room rest k go
    have fits := lower_fits n callee
    have fits' := lowerList_fits (callee.lower n).next args
    simp only [lower, evalParts, resume_bind, List.append_assoc]
    refine (lower_computes n callee).append (lowerList_computes _ args) fits fits'
      (fun _ _ same => Operand.eval_congr _ same) undefined (Nat.le_of_succ_le room)
      fun f' before => ?_
    let r := lowerList (callee.lower n).next args
    let function := (callee.lower n).result.eval scope f'
    -- What the run goes on with after the call, given whether it was made and what it gave.
    have after (made : Bool) (v : Value) :
        Program.runFrom host scope (if made then f'.set r.next v else f') rest =
          k (if made then v else .undefined) := by
      obtain ⟨later, load⟩ := before.store (Nat.le_trans fits.le_next fits'.le_next)
        (before.length_eq ▸ room) made v
      have run : _ = k (Frame.load _ r.next) := go _ later
      rwa [load] at run
    -- Only here can the host do something; both sides do it under the same condition.
    change (if function.truthy then _ else _) = _
    by_cases truthy : function.truthy
    · rw [if_pos truthy, if_pos truthy, resume_lift]
      exact bind_congr fun v => after true v
    · rw [if_neg truthy, if_neg truthy, resume_pure]
      exact after false .undefined

theorem lowerList_computes (n : Nat) : ∀ es : List Expr,
    (lowerList n es).Computes host scope (fun f os => Operand.evalList scope f os) n
      (evalList host scope es)
  | [] => by
    intro f undefined room rest k go
    rw [evalList, resume_pure]
    exact go f (.refl undefined)
  | e :: rest => by
    intro f undefined room more k go
    simp only [lowerList, evalList, resume_bind, resume_pure, List.append_assoc]
    exact (lower_computes n e).append (lowerList_computes _ rest) (lower_fits n e)
      (lowerList_fits _ rest) (fun _ _ same => Operand.eval_congr _ same) undefined room go

theorem lowerProperties_computes (n : Nat) : ∀ ps : List (Key × Expr),
    (lowerProperties n ps).Computes host scope (fun f os => Operand.evalEntries scope f os) n
      (evalProperties host scope ps)
  | [] => by
    intro f undefined room rest k go
    rw [evalProperties, resume_pure]
    exact go f (.refl undefined)
  | (key, e) :: rest => by
    intro f undefined room more k go
    simp only [lowerProperties, evalProperties, resume_bind, resume_pure, List.append_assoc]
    exact (lower_computes n e).append (lowerProperties_computes _ rest) (lower_fits n e)
      (lowerProperties_fits _ rest) (fun _ _ same => Operand.eval_congr _ same) undefined room go

end

/-- A program at the root ends the evaluation with the value that it would have anyway. -/
theorem eval_eq_resume (e : Expr) :
    e.eval host scope = resume (evalParts host scope e.answer) pure := by
  have caught : e.eval host scope = resume (evalParts host scope e) pure := by
    unfold eval resume
    congr 1
    funext r
    cases r <;> rfl
  rw [caught]
  cases e with
  | program body => simp only [evalParts, answer, resume_bind, resume_throw]
  | _ => rfl

end Expr

namespace Program

variable [LawfulMonad m]

/-- Running the program of an expression evaluates what it answers. -/
theorem run_eq_resume (host : Host m) (s : Scope) (e : Expr) :
    (Program.ofExpr e).run host s = Expr.resume (Expr.evalParts host s e.answer) pure := by
  rw [ofExpr_eq]
  -- The temporaries begin undefined, and nothing but the return follows.
  refine Expr.lower_computes 0 e.answer _ (fun i _ => Frame.load_replicate _ i) ?_ _ _
    fun f' _ => rfl
  simp

/-- The program of an expression does what evaluating the expression does, in every monad in which
calls can have effects: the calls and the answer are the same. -/
theorem run_ofExpr (host : Host m) (scope : Scope) (e : Expr) :
    (Program.ofExpr e).run host scope = e.eval host scope := by
  rw [Expr.eval_eq_resume, run_eq_resume]

end Program

/-! ### Recorded calls

Recording every call, and failing, are effects among others. -/

/-- Evaluations that record their calls, the one that fails included. -/
abbrev Recorded (ε : Type) := ExceptT ε (StateM (List (Function × List Value)))

/-- The host whose functions answer, or fail, depending on all earlier calls and on this one. -/
def Host.recorded {ε : Type}
    (answer : List (Function × List Value) → Function → List Value → Except ε Value) :
    Host (Recorded ε) := fun f args => do
  let earlier ← get
  set (earlier ++ [(f, args)])
  MonadExcept.ofExcept (answer earlier f args)

namespace Program

/-- In `f(g(), boom(), g())` the second argument fails: it is the last call, and `f` is not called.
The first call of `g` answers with the number of calls before it. -/
theorem run_ofExpr_recorded :
    let answer (earlier : List (Function × List Value)) (f : Function) (_ : List Value) :
        Except String Value :=
      if f.name = "boom" then .error "boom" else .ok (.ofInt earlier.length)
    let named (name : String) : String × Value := (name, .function ⟨name⟩)
    let scope : Scope := ⟨.map [named "boom", named "f", named "g"], none⟩
    let call (name : String) (args : List Expr) : Expr := .call (.ident name) args
    let e : Expr := .program (call "f" [call "g" [], call "boom" [], call "g" []])
    ((Program.ofExpr e).run (Host.recorded answer) scope).run.run [] =
        (.error "boom", [(⟨"g"⟩, []), (⟨"boom"⟩, [])]) ∧
      (Program.ofExpr e).run (Host.recorded answer) scope =
        e.eval (Host.recorded answer) scope :=
  ⟨rfl, run_ofExpr _ _ _⟩

end Program

end DataBinding
