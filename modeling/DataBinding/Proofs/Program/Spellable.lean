import DataBinding.Proofs.Program.Operands
import DataBinding.Proofs.Program.SingleAssignment

/-!
# Programs of sources

What an expression holds that was read from a source is handed on by lowering: the literals of its
operands are literals that a source can spell, and the names of its statements are words.

## Main definitions

* `Statement.Spellable` — the literals and names of a statement could stand in a source
* `Lowered.Spellable` — the same of lowered expressions

## Main results

* `Expr.lower_spellable` — lowering hands on what can be spelled
* `Program.spellable_of_ofSource` — so do the programs of sources
-/

namespace DataBinding

/-- The literals and names of the statement could stand in a source. -/
def Statement.Spellable : Statement → Prop
  | load _ name => isWord name.toList = true
  | member _ object name => AllSpellable object.literals ∧ isWord name.toList = true
  | index _ object key => AllSpellable object.literals ∧ AllSpellable key.literals
  | call _ callee args => AllSpellable callee.literals ∧ AllSpellable (Operand.literalsList args)
  | ret value => AllSpellable value.literals

/-- The literals and names of a lowered expression, or of several, could stand in a source. -/
structure Lowered.Spellable {α : Type} (literals : α → List Value) (r : Lowered α) : Prop where
  code : ∀ s ∈ r.code, s.Spellable
  result : AllSpellable (literals r.result)

namespace Lowered.Spellable

variable {α β : Type} {literals : α → List Value} {literals' : β → List Value} {r : Lowered α}
  {r' : Lowered β}

theorem append_code (h : r.Spellable literals) (h' : r'.Spellable literals') :
    ∀ s ∈ r.code ++ r'.code, s.Spellable := by
  intro s mem
  exact (List.mem_append.1 mem).elim (h.code s) (h'.code s)

end Lowered.Spellable

/-- The statements of a lookup or a call, of which the last one assigns the result. -/
theorem Lowered.spellable_snoc {code : List Statement} {s : Statement}
    (h : ∀ s ∈ code, s.Spellable) (last : s.Spellable) (next id : Nat) :
    (Lowered.mk (code ++ [s]) next (.temp id)).Spellable Operand.literals where
  code := by
    intro s' mem
    rcases List.mem_append.1 mem with mem | mem
    · exact h s' mem
    · rw [List.mem_singleton.1 mem]
      exact last
  result := allSpellable_nil

namespace Expr

mutual

/-- Lowering hands on what can be spelled. -/
theorem lower_spellable (n : Nat) : ∀ e : Expr, AllReadable e.nodes →
    (e.lower n).Spellable Operand.literals
  | program body, ok => absurd (allReadable_cons.1 ok).1 not_false
  | literal value, ok =>
    ⟨by simp [lower], allSpellable_singleton.2 ⟨value, (allReadable_cons.1 ok).1, rfl⟩⟩
  | array elements, ok => by
    have es := lowerList_spellable n elements (allReadable_cons.1 ok).2
    exact ⟨es.code, es.result⟩
  | object properties, ok => by
    have ps := lowerProperties_spellable n properties (allReadable_cons.1 ok).2
    exact ⟨ps.code, ps.result⟩
  | ident name, ok => by
    have load : (Statement.load n name).Spellable := (allReadable_cons.1 ok).1.1
    exact Lowered.spellable_snoc (List.forall_mem_nil _) load _ _
  | this, _ => ⟨by simp [lower], allSpellable_nil⟩
  | locals, _ => ⟨by simp [lower], allSpellable_nil⟩
  | member e name, ok => by
    obtain ⟨word, ok⟩ := allReadable_cons.1 ok
    have o := lower_spellable n e ok
    refine Lowered.spellable_snoc o.code ?_ _ _
    exact ⟨o.result, word⟩
  | index e key, ok => by
    obtain ⟨object, key_ok⟩ := allReadable_append.1 (allReadable_cons.1 ok).2
    have o := lower_spellable n e object
    have k := lower_spellable (e.lower n).next key key_ok
    refine Lowered.spellable_snoc (o.append_code k) ?_ _ _
    exact ⟨o.result, k.result⟩
  | call callee args, ok => by
    obtain ⟨function, args_ok⟩ := allReadable_append.1 (allReadable_cons.1 ok).2
    have f := lower_spellable n callee function
    have as := lowerList_spellable (callee.lower n).next args args_ok
    refine Lowered.spellable_snoc (f.append_code as) ?_ _ _
    exact ⟨f.result, as.result⟩

theorem lowerList_spellable (n : Nat) : ∀ es : List Expr, AllReadable (nodesList es) →
    (lowerList n es).Spellable Operand.literalsList
  | [], _ => ⟨by simp [lowerList], allSpellable_nil⟩
  | e :: rest, ok => by
    obtain ⟨first, more⟩ := allReadable_append.1 ok
    have o := lower_spellable n e first
    have os := lowerList_spellable (e.lower n).next rest more
    exact ⟨o.append_code os, allSpellable_append.2 ⟨o.result, os.result⟩⟩

theorem lowerProperties_spellable (n : Nat) : ∀ ps : List (Key × Expr),
    AllReadable (nodesProperties ps) → (lowerProperties n ps).Spellable Operand.literalsEntries
  | [], _ => ⟨by simp [lowerProperties], allSpellable_nil⟩
  | (key, e) :: rest, ok => by
    obtain ⟨first, more⟩ := allReadable_append.1 ok
    have o := lower_spellable n e first
    have os := lowerProperties_spellable (e.lower n).next rest more
    exact ⟨o.append_code os, allSpellable_append.2 ⟨o.result, os.result⟩⟩

end

/-- A readable expression holds no program. -/
theorem AllReadable.programFree {nodes : List Expr} (ok : AllReadable nodes) :
    ProgramFree nodes := by
  intro e mem
  cases e with
  | program body => exact absurd (ok _ mem) not_false
  | _ => rfl

end Expr

/-- The statements of the program of a source could stand in a source, piece by piece. -/
theorem Program.spellable_of_ofSource {source : String} {e : Expr}
    (h : Expr.ofSource source = .ok e) : ∀ s ∈ (Program.ofExpr e).body, s.Spellable := by
  obtain ⟨body, rfl, ok⟩ := Expr.ofSource_readable h
  have lowered := Expr.lower_spellable 0 body ok
  intro s mem
  rcases List.mem_append.1 (show s ∈ _ ++ _ from mem) with mem | mem
  · exact lowered.code s mem
  · rw [List.mem_singleton.1 mem]
    exact lowered.result

end DataBinding
