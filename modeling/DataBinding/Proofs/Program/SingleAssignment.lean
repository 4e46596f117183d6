import DataBinding.Proofs.Program.Temporaries

/-!
# Programs in single-assignment form

The temporaries of the program of an expression are numbered without gaps, each is assigned by one
statement, in order, and none is read before that. An expression without a program inside it returns
once, at the end, and hands every temporary on to exactly one place.

## Main definitions

* `Program.SingleAssignment` — the form of every program of an expression
* `Program.ReadsOnce` — the form where no program is inside another

## Main results

* `Program.ofExpr_singleAssignment` — the programs of expressions have these forms
-/

namespace DataBinding

/-- The program declares `n` temporaries and assigns each of them once, in order, and no statement
reaches for a temporary that has not been assigned or is not there. -/
structure Program.SingleAssignment (p : Program) (n : Nat) : Prop where
  vars_eq : p.vars = List.range n
  assigned_eq : assigned p.body = List.range n
  reads_assigned : ∀ before s after, p.body = before ++ s :: after → s.temps ⊆ assigned before
  in_range : ∀ s ∈ p.body, ∀ t ∈ s.temps ++ s.into?.toList, t < p.vars.length

/-- The program returns at its end and nowhere else, and each of its `n` temporaries occurs once in
all operands together. -/
structure Program.ReadsOnce (p : Program) (n : Nat) : Prop where
  returns_last : ∃ init value, p.body = init ++ [.ret value] ∧ ∀ s ∈ init, s.into?.isSome
  count_temps : ∀ t < n, (p.body.flatMap Statement.temps).count t = 1

/-- Of the temporaries from `n` on, each of the `count` occurs once in the statements and the result
together, and no statement returns. -/
structure Lowered.Linear {α : Type} (temps : α → List Nat) (n count : Nat) (r : Lowered α) :
    Prop where
  reads : (r.code.flatMap Statement.temps ++ temps r.result).Perm (List.range' n count)
  assigns : ∀ s ∈ r.code, s.into?.isSome

namespace Lowered.Linear

variable {α β : Type} {temps : α → List Nat} {temps' : β → List Nat} {n count count' : Nat}
  {r : Lowered α} {r' : Lowered β}

theorem append_reads (h : r.Linear temps n count) (next : r.next = n + count)
    (h' : r'.Linear temps' r.next count') :
    ((r.code ++ r'.code).flatMap Statement.temps ++ (temps r.result ++ temps' r'.result)).Perm
      (List.range' n (count + count')) := by
  rw [← List.range'_append_1, ← next, List.flatMap_append]
  refine List.Perm.trans ?_ (h.reads.append h'.reads)
  -- The result of the first part changes places with the statements of the second.
  simp only [List.append_assoc]
  refine List.Perm.append_left _ ?_
  simp only [← List.append_assoc]
  exact List.Perm.append_right _ List.perm_append_comm

theorem append_assigns (h : r.Linear temps n count) (h' : r'.Linear temps' r.next count') :
    ∀ s ∈ r.code ++ r'.code, s.into?.isSome := by
  intro s mem
  rcases List.mem_append.1 mem with mem | mem
  · exact h.assigns s mem
  · exact h'.assigns s mem

end Lowered.Linear

/-- A statement that takes up all that is left and assigns the next temporary leaves that one. -/
theorem Lowered.linear_snoc {code : List Statement} {s : Statement} {n count id : Nat}
    (reads : (code.flatMap Statement.temps ++ s.temps).Perm (List.range' n count))
    (assigns : ∀ s ∈ code, s.into?.isSome) (into : s.into? = some id) (next : id = n + count) :
    (Lowered.mk (code ++ [s]) (id + 1) (.temp id)).Linear Operand.temps n (count + 1) where
  reads := by
    rw [← List.range'_append_1, List.flatMap_append, ← next]
    simpa [Operand.temps] using reads.append_right [id]
  assigns := by
    intro s' mem
    rcases List.mem_append.1 mem with mem | mem
    · exact assigns s' mem
    · rw [List.mem_singleton.1 mem, into]
      rfl

namespace Expr

mutual

/-- Where no program is inside an expression, lowering uses every temporary once. -/
theorem lower_linear (n : Nat) : ∀ e : Expr, ProgramFree e.nodes →
    (e.lower n).Linear Operand.temps n (lookups e.nodes)
  | program body, free => by simp [nodes, isProgram] at free
  | literal value, _ => ⟨.nil, by simp [lower]⟩
  | array elements, free => by
    have es := lowerList_linear n elements (programFree_cons.1 free).2
    exact ⟨es.reads, es.assigns⟩
  | object properties, free => by
    have ps := lowerProperties_linear n properties (programFree_cons.1 free).2
    exact ⟨ps.reads, ps.assigns⟩
  | ident name, _ => by
    have reads : (([] : List Statement).flatMap Statement.temps ++
        (Statement.load n name).temps).Perm (List.range' n 0) := .nil
    exact Lowered.linear_snoc reads (by simp) rfl rfl
  | this, _ => ⟨.nil, by simp [lower]⟩
  | locals, _ => ⟨.nil, by simp [lower]⟩
  | member e name, free => by
    have o := lower_linear n e (programFree_cons.1 free).2
    simp only [nodes, lookups_cons, isLookup, if_true]
    exact Lowered.linear_snoc o.reads o.assigns rfl (lower_fits n e).next_eq
  | index e key, free => by
    obtain ⟨freeObject, freeKey⟩ := programFree_append.1 (programFree_cons.1 free).2
    have o := lower_linear n e freeObject
    have k := lower_linear (e.lower n).next key freeKey
    have fits := lower_fits n e
    simp only [nodes, lookups_cons, lookups_append, isLookup, if_true]
    exact Lowered.linear_snoc (o.append_reads fits.next_eq k) (o.append_assigns k) rfl
      (fits.append_next (lower_fits _ key))
  | call callee args, free => by
    obtain ⟨freeCallee, freeArgs⟩ := programFree_append.1 (programFree_cons.1 free).2
    have f := lower_linear n callee freeCallee
    have as := lowerList_linear (callee.lower n).next args freeArgs
    have fits := lower_fits n callee
    simp only [nodes, lookups_cons, lookups_append, isLookup, if_true]
    exact Lowered.linear_snoc (f.append_reads fits.next_eq as) (f.append_assigns as) rfl
      (fits.append_next (lowerList_fits _ args))

theorem lowerList_linear (n : Nat) : ∀ es : List Expr, ProgramFree (nodesList es) →
    (lowerList n es).Linear Operand.tempsList n (lookups (nodesList es))
  | [], _ => ⟨.nil, by simp [lowerList]⟩
  | e :: rest, free => by
    obtain ⟨freeFirst, freeRest⟩ := programFree_append.1 free
    have o := lower_linear n e freeFirst
    have os := lowerList_linear (e.lower n).next rest freeRest
    rw [nodesList, lookups_append]
    exact ⟨o.append_reads (lower_fits n e).next_eq os, o.append_assigns os⟩

theorem lowerProperties_linear (n : Nat) : ∀ ps : List (Key × Expr),
    ProgramFree (nodesProperties ps) →
    (lowerProperties n ps).Linear Operand.tempsEntries n (lookups (nodesProperties ps))
  | [], _ => ⟨.nil, by simp [lowerProperties]⟩
  | (key, e) :: rest, free => by
    obtain ⟨freeFirst, freeRest⟩ := programFree_append.1 free
    have o := lower_linear n e freeFirst
    have os := lowerProperties_linear (e.lower n).next rest freeRest
    rw [nodesProperties, lookups_append]
    exact ⟨o.append_reads (lower_fits n e).next_eq os, o.append_assigns os⟩

end

end Expr

namespace Program

/-- The program of an expression runs the statements of what it returns, and returns that. -/
theorem ofExpr_eq (e : Expr) : Program.ofExpr e =
    ⟨List.range (e.answer.lower 0).next,
      (e.answer.lower 0).code ++ [.ret (e.answer.lower 0).result]⟩ := by
  cases e <;> rfl

theorem lookups_answer (e : Expr) : Expr.lookups e.answer.nodes = Expr.lookups e.nodes := by
  cases e <;> simp [Expr.answer, Expr.nodes, Expr.isLookup]

/-- All statements of the program of an expression together keep the invariant of lowering. -/
theorem ofExpr_numbered (e : Expr) :
    Numbered 0 (Expr.lookups e.nodes) (Program.ofExpr e).body := by
  have fits := Expr.lower_fits 0 e.answer
  rw [ofExpr_eq, ← lookups_answer]
  exact fits.code.ret fits.result

theorem ofExpr_vars (e : Expr) :
    (Program.ofExpr e).vars = List.range (Expr.lookups e.nodes) := by
  rw [ofExpr_eq, (Expr.lower_fits 0 e.answer).next_eq, lookups_answer, Nat.zero_add]

theorem ofExpr_readsOnce {e : Expr} (free : Expr.ProgramFree e.nodes.tail) :
    (Program.ofExpr e).ReadsOnce (Expr.lookups e.nodes) := by
  have linear := Expr.lower_linear 0 e.answer (Expr.programFree_answer free)
  rw [lookups_answer] at linear
  rw [ofExpr_eq]
  -- The return at the end reads the result, so the operands are those that are counted.
  refine ⟨⟨_, _, rfl, linear.assigns⟩, fun t lt => ?_⟩
  have once := linear.reads.count_eq t
  rw [List.flatMap_append]
  simpa [Statement.temps, List.range'_eq_map_range, List.count_range, lt] using once

/-- Every program of an expression is in single-assignment form over one temporary for each name,
member access and call. Without a program below the root it also returns once and reads each
temporary once. -/
theorem ofExpr_singleAssignment (e : Expr) :
    (Program.ofExpr e).SingleAssignment (Expr.lookups e.nodes) ∧
      (Expr.ProgramFree e.nodes.tail → (Program.ofExpr e).ReadsOnce (Expr.lookups e.nodes)) := by
  have numbered := ofExpr_numbered e
  refine ⟨⟨ofExpr_vars e, ?_, fun before s after split => numbered.reads.of_split split, ?_⟩,
    ofExpr_readsOnce⟩
  · rw [numbered.assigned_eq, List.range_eq_range']
  · intro s mem t uses
    rw [ofExpr_vars, List.length_range]
    exact numbered.temp_lt mem uses

/-- The program of `a(b, c.d)` has five temporaries and no program inside it. -/
theorem ofExpr_singleAssignment_call :
    let e : Expr := .program (.call (.ident "a") [.ident "b", .member (.ident "c") "d"])
    Expr.ProgramFree e.nodes.tail ∧ (Program.ofExpr e).ReadsOnce 5 := by
  have free : Expr.ProgramFree (Expr.program
      (.call (.ident "a") [.ident "b", .member (.ident "c") "d"])).nodes.tail := by
    simp [Expr.nodes, Expr.nodesList, Expr.isProgram]
  exact ⟨free, (ofExpr_singleAssignment _).2 free⟩

end Program

end DataBinding
