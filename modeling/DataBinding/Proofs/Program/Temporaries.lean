import Mathlib.Data.List.Basic
import DataBinding.Proofs.Expr.Nodes

/-!
# The temporaries of lowered expressions

Lowering hands out the temporaries in order: an expression with `count` lookups, lowered from the
first unused temporary `n` on, assigns `n`, `n + 1` and so on, each once, and reads only what it has
assigned before. This is the invariant behind both the shape of programs and their meaning.

## Main definitions

* `Operand.temps`, `Statement.temps` — the temporaries that are read
* `Statement.into?` — the temporary that is assigned
* `ReadsAssigned` — what is read has been assigned before
* `Numbered`, `Lowered.Fits` — the invariant, of statements and of lowered expressions

## Main results

* `Expr.lower_fits` — lowering keeps the invariant
-/

namespace DataBinding

namespace Operand

mutual

/-- The temporaries that occur in the operand, from left to right. -/
def temps : Operand → List Nat
  | literal _ => []
  | temp id => [id]
  | context => []
  | locals => []
  | list elements => tempsList elements
  | map entries => tempsEntries entries

/-- The temporaries that occur in several operands. -/
def tempsList : List Operand → List Nat
  | [] => []
  | o :: rest => temps o ++ tempsList rest

/-- The temporaries that occur in the entries of a map. -/
def tempsEntries : List (String × Operand) → List Nat
  | [] => []
  | (_, o) :: rest => temps o ++ tempsEntries rest

end

end Operand

namespace Statement

/-- The temporary that the statement assigns; a return assigns none. -/
def into? : Statement → Option Nat
  | load into _ => some into
  | member into _ _ => some into
  | index into _ _ => some into
  | call into _ _ => some into
  | ret _ => none

/-- The temporaries that occur in the operands of the statement. -/
def temps : Statement → List Nat
  | load _ _ => []
  | member _ object _ => object.temps
  | index _ object key => object.temps ++ key.temps
  | call _ callee args => callee.temps ++ Operand.tempsList args
  | ret value => value.temps

end Statement

/-- The temporaries that the statements assign, in order. -/
def assigned (code : List Statement) : List Nat := code.filterMap Statement.into?

theorem assigned_cons (s : Statement) (rest : List Statement) :
    assigned (s :: rest) = s.into?.toList ++ assigned rest := by
  cases into : s.into? <;> simp [assigned, into]

@[simp] theorem assigned_append (code code' : List Statement) :
    assigned (code ++ code') = assigned code ++ assigned code' := List.filterMap_append

/-- Every statement reads only temporaries that are among the given ones or that an earlier
statement assigns. -/
def ReadsAssigned (given : List Nat) : List Statement → Prop
  | [] => True
  | s :: rest => s.temps ⊆ given ∧ ReadsAssigned (given ++ s.into?.toList) rest

theorem ReadsAssigned.mono {given given' : List Nat} {code : List Statement}
    (h : ReadsAssigned given code) (sub : given ⊆ given') : ReadsAssigned given' code := by
  induction code generalizing given given' with
  | nil => trivial
  | cons s rest ih =>
    obtain ⟨first, more⟩ := h
    refine ⟨List.Subset.trans first sub, ih more ?_⟩
    exact List.append_subset.2 ⟨List.subset_append_of_subset_left _ sub,
      List.subset_append_right _ _⟩

theorem readsAssigned_append {given : List Nat} {code code' : List Statement} :
    ReadsAssigned given (code ++ code') ↔
      ReadsAssigned given code ∧ ReadsAssigned (given ++ assigned code) code' := by
  induction code generalizing given with
  | nil => simp [ReadsAssigned, assigned]
  | cons s rest ih =>
    simp only [List.cons_append, ReadsAssigned, ih, assigned_cons, and_assoc, List.append_assoc]

/-- Where statements read only what was assigned before, any one of them does. -/
theorem ReadsAssigned.of_split {code before after : List Statement} {s : Statement}
    (h : ReadsAssigned [] code) (split : code = before ++ s :: after) :
    s.temps ⊆ assigned before := by
  rw [split, readsAssigned_append] at h
  simpa using h.2.1

/-- The statements assign `count` temporaries from `n` on, each once and in order, and read only
what they have assigned before. -/
structure Numbered (n count : Nat) (code : List Statement) : Prop where
  assigned_eq : assigned code = List.range' n count
  reads : ReadsAssigned [] code

namespace Numbered

variable {n count count' : Nat} {code code' : List Statement} {s : Statement}

theorem nil (n : Nat) : Numbered n 0 [] := ⟨rfl, trivial⟩

theorem append (h : Numbered n count code) (h' : Numbered (n + count) count' code') :
    Numbered n (count + count') (code ++ code') where
  assigned_eq := by
    rw [assigned_append, h.assigned_eq, h'.assigned_eq, List.range'_append_1]
  reads := readsAssigned_append.2 ⟨h.reads, h'.reads.mono (List.nil_subset _)⟩

/-- A statement that assigns the next temporary may read all those before. -/
theorem snoc (h : Numbered n count code) (next : s.into? = some (n + count))
    (reads : s.temps ⊆ List.range' n count) : Numbered n (count + 1) (code ++ [s]) where
  assigned_eq := by
    rw [assigned_append, h.assigned_eq, ← List.range'_append_1]
    simp [assigned, next]
  reads := by
    refine readsAssigned_append.2 ⟨h.reads, ?_, trivial⟩
    rw [h.assigned_eq]
    exact reads

/-- A return may read all temporaries before it, and assigns none. -/
theorem ret (h : Numbered n count code) {value : Operand}
    (reads : value.temps ⊆ List.range' n count) : Numbered n count (code ++ [.ret value]) where
  assigned_eq := by
    rw [assigned_append, h.assigned_eq]
    exact List.append_nil _
  reads := by
    refine readsAssigned_append.2 ⟨h.reads, ?_, trivial⟩
    rw [h.assigned_eq]
    exact reads

/-- What a statement reads or assigns is one of the temporaries. -/
theorem temp_lt (h : Numbered 0 count code) (mem : s ∈ code) {t : Nat}
    (uses : t ∈ s.temps ++ s.into?.toList) : t < count := by
  obtain ⟨before, after, split⟩ := List.append_of_mem mem
  -- Both what is read and what is assigned is in the list of all that is assigned.
  have bound : ∀ t ∈ assigned code, t < count := by
    intro t mem
    rw [h.assigned_eq] at mem
    simpa using (List.mem_range'_1.1 mem).2
  rw [split, assigned_append, assigned_cons] at bound
  rcases List.mem_append.1 uses with read | into
  · exact bound t (List.mem_append_left _ (h.reads.of_split split read))
  · exact bound t (List.mem_append_right _ (List.mem_append_left _ into))

end Numbered

/-- A lowered expression, or several, with `count` lookups: the statements take `count` temporaries
from `n` on, and the result reads only these. -/
structure Lowered.Fits {α : Type} (temps : α → List Nat) (n count : Nat) (r : Lowered α) :
    Prop where
  next_eq : r.next = n + count
  code : Numbered n count r.code
  result : temps r.result ⊆ List.range' n count

namespace Lowered.Fits

variable {α β : Type} {temps : α → List Nat} {temps' : β → List Nat} {n count count' : Nat}
  {r : Lowered α} {r' : Lowered β}

/-- The temporaries of the result are unused before and used after. -/
theorem mem_result (h : r.Fits temps n count) {t : Nat} (mem : t ∈ temps r.result) :
    n ≤ t ∧ t < r.next := by
  have range := List.mem_range'_1.1 (h.result mem)
  rw [h.next_eq]
  exact range

theorem le_next (h : r.Fits temps n count) : n ≤ r.next := by
  rw [h.next_eq]
  exact Nat.le_add_right _ _

/-- The statements of two parts, one after the other. -/
theorem append_code (h : r.Fits temps n count) (h' : r'.Fits temps' r.next count') :
    Numbered n (count + count') (r.code ++ r'.code) :=
  h.code.append (h.next_eq ▸ h'.code)

/-- What two parts read, together. -/
theorem append_result (h : r.Fits temps n count) (h' : r'.Fits temps' r.next count') :
    temps r.result ++ temps' r'.result ⊆ List.range' n (count + count') := by
  rw [← List.range'_append_1, ← h.next_eq]
  exact List.append_subset.2 ⟨List.subset_append_of_subset_left _ h.result,
    List.subset_append_of_subset_right _ h'.result⟩

theorem append_next (h : r.Fits temps n count) (h' : r'.Fits temps' r.next count') :
    r'.next = n + (count + count') := by
  rw [h'.next_eq, h.next_eq, Nat.add_assoc]

end Lowered.Fits

namespace Expr

/-- The number of lookups and calls among the nodes. -/
def lookups (nodes : List Expr) : Nat := nodes.countP isLookup

@[simp] theorem lookups_nil : lookups [] = 0 := rfl

@[simp] theorem lookups_cons (e : Expr) (rest : List Expr) :
    lookups (e :: rest) = lookups rest + if e.isLookup then 1 else 0 := List.countP_cons

@[simp] theorem lookups_append (l l' : List Expr) :
    lookups (l ++ l') = lookups l + lookups l' := List.countP_append

mutual

/-- Lowering takes one temporary for each lookup and call, in order. -/
theorem lower_fits (n : Nat) : ∀ e : Expr, (e.lower n).Fits Operand.temps n (lookups e.nodes)
  | program body => by
    -- What the return reads is also handed on, so it is read twice, but assigned before.
    have b := lower_fits n body
    exact ⟨by simpa [lower, nodes, isLookup] using b.next_eq,
      by simpa [lower, nodes, isLookup] using b.code.ret b.result,
      by simpa [lower, nodes, isLookup] using b.result⟩
  | literal value => ⟨rfl, .nil n, List.nil_subset _⟩
  | array elements => by
    have es := lowerList_fits n elements
    exact ⟨es.next_eq, es.code, es.result⟩
  | object properties => by
    have ps := lowerProperties_fits n properties
    exact ⟨ps.next_eq, ps.code, ps.result⟩
  | ident name => ⟨rfl, (Numbered.nil n).snoc rfl (List.nil_subset _), by
      simp [lower, nodes, isLookup, Operand.temps]⟩
  | this => ⟨rfl, .nil n, List.nil_subset _⟩
  | locals => ⟨rfl, .nil n, List.nil_subset _⟩
  | member e name => by
    have o := lower_fits n e
    refine ⟨?_, ?_, ?_⟩
    · simp [lower, nodes, isLookup, o.next_eq, Nat.add_assoc]
    · simpa [lower, nodes, isLookup] using
        o.code.snoc (s := .member _ _ _) (congrArg some o.next_eq) o.result
    · simp [lower, nodes, isLookup, Operand.temps, o.next_eq]
  | index e key => by
    have o := lower_fits n e
    have k := lower_fits (e.lower n).next key
    have next := o.append_next k
    refine ⟨?_, ?_, ?_⟩
    · simp [lower, nodes, isLookup, next, Nat.add_assoc]
    · simpa [lower, nodes, isLookup] using
        (o.append_code k).snoc (s := .index _ _ _) (congrArg some next) (o.append_result k)
    · simp [lower, nodes, isLookup, Operand.temps, next]
  | call callee args => by
    have f := lower_fits n callee
    have as := lowerList_fits (callee.lower n).next args
    have next := f.append_next as
    refine ⟨?_, ?_, ?_⟩
    · simp [lower, nodes, isLookup, next, Nat.add_assoc]
    · simpa [lower, nodes, isLookup] using
        (f.append_code as).snoc (s := .call _ _ _) (congrArg some next) (f.append_result as)
    · simp [lower, nodes, isLookup, Operand.temps, next]

theorem lowerList_fits (n : Nat) : ∀ es : List Expr,
    (lowerList n es).Fits Operand.tempsList n (lookups (nodesList es))
  | [] => ⟨rfl, .nil n, List.nil_subset _⟩
  | e :: rest => by
    have o := lower_fits n e
    have os := lowerList_fits (e.lower n).next rest
    have next := o.append_next os
    have code := o.append_code os
    have result := o.append_result os
    rw [← lookups_append] at next code result
    exact ⟨next, code, result⟩

theorem lowerProperties_fits (n : Nat) : ∀ ps : List (Key × Expr),
    (lowerProperties n ps).Fits Operand.tempsEntries n (lookups (nodesProperties ps))
  | [] => ⟨rfl, .nil n, List.nil_subset _⟩
  | (key, e) :: rest => by
    have o := lower_fits n e
    have os := lowerProperties_fits (e.lower n).next rest
    have next := o.append_next os
    have code := o.append_code os
    have result := o.append_result os
    rw [← lookups_append] at next code result
    exact ⟨next, code, result⟩

end

end Expr

end DataBinding
