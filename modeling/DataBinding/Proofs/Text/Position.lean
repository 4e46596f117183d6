import DataBinding.SyntaxError

/-!
# Positions determine places

Line and column are found by going over the characters in front of a place, and each character moves
the position on. So no two places of a text have the same line and column, and the position of an
error tells how much of the source lies before it.

## Main definitions

* `Position.Before` — the order of positions
* `SyntaxError.Behind` — the error is reported behind a part of its source

## Main results

* `Position.ofOffset_eq` — the position of a place, going over the characters in front of it
* `SyntaxError.Behind.unique` — the position of an error determines its place
-/

namespace DataBinding

@[simp] theorem byteSize_append (cs ds : List Char) :
    byteSize (cs ++ ds) = byteSize cs + byteSize ds := by
  induction cs with
  | nil => simp [byteSize]
  | cons c cs ih => simp [byteSize, ih, Nat.add_assoc]

theorem byteSize_pos {cs : List Char} (h : cs ≠ []) : 0 < byteSize cs := by
  cases cs with
  | nil => exact absurd rfl h
  | cons c cs => exact Nat.add_pos_left c.utf8Size_pos _

namespace Position

/-- The position comes first: on an earlier line, or further left. -/
def Before (p q : Position) : Prop := p.line < q.line ∨ p.line = q.line ∧ p.col < q.col

theorem Before.irrefl (p : Position) : ¬p.Before p := by
  unfold Before
  omega

theorem Before.trans {p q r : Position} (h : p.Before q) (h' : q.Before r) : p.Before r := by
  unfold Before at *
  omega

theorem before_after (p : Position) (c : Char) : p.Before (p.after c) := by
  unfold after Before
  split
  · exact .inl (Nat.lt_succ_self _)
  · exact .inr ⟨rfl, Nat.lt_add_of_pos_right c.utf8Size_pos⟩

theorem before_foldl (p : Position) {cs : List Char} (h : cs ≠ []) :
    p.Before (cs.foldl after p) := by
  induction cs generalizing p with
  | nil => exact absurd rfl h
  | cons c cs ih =>
    cases cs with
    | nil => exact p.before_after c
    | cons d cs => exact (p.before_after c).trans (ih (p.after c) (List.cons_ne_nil d cs))

theorem advance_append (p : Position) (before after : List Char) :
    p.advance (before ++ after) (byteSize before) = before.foldl Position.after p := by
  induction before generalizing p with
  | nil => cases after <;> simp [advance, byteSize]
  | cons c before ih =>
    have some : c.utf8Size + byteSize before ≠ 0 := by
      have := c.utf8Size_pos
      omega
    rw [List.cons_append, byteSize, advance, if_neg some, Nat.add_sub_cancel_left, ih,
      List.foldl_cons]

/-- The position of a place is found by going over the characters in front of it. -/
theorem ofOffset_eq (before after : List Char) :
    ofOffset (before ++ after) (byteSize before) = before.foldl Position.after start :=
  advance_append start before after

/-- Different places of a text have different positions. -/
theorem ofOffset_injective {before after before' after' : List Char}
    (text : before ++ after = before' ++ after')
    (h : ofOffset (before ++ after) (byteSize before) =
      ofOffset (before' ++ after') (byteSize before')) : before = before' := by
  rw [ofOffset_eq, ofOffset_eq] at h
  -- One of the two places lies behind the other, and what is between them is empty.
  have beyond : ∀ (cs more : List Char), cs.foldl Position.after start =
      (cs ++ more).foldl Position.after start → more = [] := by
    intro cs more eq
    rw [List.foldl_append] at eq
    refine Decidable.byContradiction fun ne => ?_
    have later := before_foldl (cs.foldl Position.after start) ne
    rw [← eq] at later
    exact Before.irrefl _ later
  rcases List.append_eq_append_iff.1 text with ⟨more, rfl, -⟩ | ⟨more, rfl, -⟩
  · rw [beyond before more h, List.append_nil]
  · rw [beyond before' more h.symm, List.append_nil]

end Position

namespace SyntaxError

/-- The error is reported right behind the text, with which its source begins. -/
def Behind (e : SyntaxError) (before : List Char) : Prop :=
  ∃ after, e.source.toList = before ++ after ∧
    e.position = .ofOffset e.source.toList (byteSize before)

theorem behind_ofFault {source : String} {before after : List Char}
    (h : source.toList = before ++ after) (fault : Fault) :
    (ofFault source (fault, byteSize before)).Behind before :=
  ⟨after, h, rfl⟩

/-- The position of an error determines its place. -/
theorem Behind.unique {e : SyntaxError} {before before' : List Char} (h : e.Behind before)
    (h' : e.Behind before') : before = before' := by
  obtain ⟨after, text, position⟩ := h
  obtain ⟨after', text', position'⟩ := h'
  refine Position.ofOffset_injective (text.symm.trans text') ?_
  rw [← text, ← text', ← position, ← position']

end SyntaxError

end DataBinding
