import DataBinding.Proofs.Program.Spellable

/-!
# Constant programs as expressions

A program that returns a constant operand at once is written as `return` with the text of the
operand. That text is itself a source, and its program is the same one, unless there is an infinite
number in the operand: that is written as a name, and a program that looks a name up is another.

## Main results

* `Operand.lower_spelled` — lowering what a constant operand spells gives the operand back
* `Operand.spelled_mem_nodes` — every literal is spelled by a part of the text
* `Program.ofSource_text_constant_iff` — when the text of a constant has the same program
-/

namespace DataBinding

namespace Operand

mutual

/-- What a constant operand spells is lowered to the operand, with no statements. -/
theorem lower_spelled (n : Nat) (o : Operand) (ok : AllSpellable o.literals)
    (constant : o.isConstant = true)
    (finite : ∀ negative, Value.number (.infinity negative) ∉ o.literals) :
    o.spelled.lower n = ⟨[], n, o⟩ := by
  cases o with
  | literal value =>
    obtain ⟨l, readable, rfl⟩ := allSpellable_singleton.1 ok
    cases l with
    | number x =>
      -- An infinite number is excluded, and any other is written as a number.
      obtain rfl | ⟨x, rfl⟩ := Number.eq_infinity_or_finite readable
      · exact absurd List.mem_cons_self (finite false)
      · rfl
    | _ => rfl
  | temp id => cases constant
  | context => cases constant
  | locals => cases constant
  | list elements =>
    have es := lowerList_spelledList n elements ok constant finite
    rw [spelled, Expr.lower, es]
  | map entries =>
    have ps := lowerProperties_spelledEntries n entries ok constant finite
    rw [spelled, Expr.lower, ps]

theorem lowerList_spelledList (n : Nat) (os : List Operand) (ok : AllSpellable (literalsList os))
    (constant : isConstantList os = true)
    (finite : ∀ negative, Value.number (.infinity negative) ∉ literalsList os) :
    Expr.lowerList n (spelledList os) = ⟨[], n, os⟩ := by
  cases os with
  | nil => rfl
  | cons o os =>
    obtain ⟨first_ok, more_ok⟩ := allSpellable_append.1 ok
    obtain ⟨first_constant, more_constant⟩ := Bool.and_eq_true_iff.1 constant
    have first := lower_spelled n o first_ok first_constant
      fun negative mem => finite negative (List.mem_append_left _ mem)
    have more := lowerList_spelledList n os more_ok more_constant
      fun negative mem => finite negative (List.mem_append_right _ mem)
    rw [spelledList, Expr.lowerList, first, more, List.nil_append]

theorem lowerProperties_spelledEntries (n : Nat) (os : List (String × Operand))
    (ok : AllSpellable (literalsEntries os)) (constant : isConstantEntries os = true)
    (finite : ∀ negative, Value.number (.infinity negative) ∉ literalsEntries os) :
    Expr.lowerProperties n (spelledEntries os) = ⟨[], n, os⟩ := by
  cases os with
  | nil => rfl
  | cons entry os =>
    obtain ⟨key, o⟩ := entry
    obtain ⟨first_ok, more_ok⟩ := allSpellable_append.1 ok
    obtain ⟨first_constant, more_constant⟩ := Bool.and_eq_true_iff.1 constant
    have first := lower_spelled n o first_ok first_constant
      fun negative mem => finite negative (List.mem_append_left _ mem)
    have more := lowerProperties_spelledEntries n os more_ok more_constant
      fun negative mem => finite negative (List.mem_append_right _ mem)
    rw [spelledEntries, Expr.lowerProperties, first, more, List.nil_append, Key.toKey_ofText]

end

mutual

/-- Every literal of an operand is spelled by a part of what the operand spells. -/
theorem spelled_mem_nodes {v : Value} : ∀ o : Operand, v ∈ o.literals →
    v.spelled ∈ o.spelled.nodes
  | literal value, mem => by
    rw [List.mem_singleton.1 mem]
    exact Expr.mem_nodes _
  | list elements, mem => List.mem_cons_of_mem _ (spelled_mem_nodesList elements mem)
  | map entries, mem => List.mem_cons_of_mem _ (spelled_mem_nodesProperties entries mem)

theorem spelled_mem_nodesList {v : Value} : ∀ os : List Operand, v ∈ literalsList os →
    v.spelled ∈ Expr.nodesList (spelledList os)
  | o :: rest, mem => by
    rcases List.mem_append.1 mem with mem | mem
    · exact List.mem_append_left _ (spelled_mem_nodes o mem)
    · exact List.mem_append_right _ (spelled_mem_nodesList rest mem)

theorem spelled_mem_nodesProperties {v : Value} : ∀ os : List (String × Operand),
    v ∈ literalsEntries os → v.spelled ∈ Expr.nodesProperties (spelledEntries os)
  | (key, o) :: rest, mem => by
    rcases List.mem_append.1 mem with mem | mem
    · exact List.mem_append_left _ (spelled_mem_nodes o mem)
    · exact List.mem_append_right _ (spelled_mem_nodesProperties rest mem)

end

mutual

/-- Equality, literals being compared as values, is reflexive where a source can spell them. -/
theorem beq_self : ∀ o : Operand, AllSpellable o.literals → beq o o = true
  | literal value, ok => by
    obtain ⟨l, readable, rfl⟩ := allSpellable_singleton.1 ok
    change Value.beq (.ofLiteral l) (.ofLiteral l) = true
    cases l with
    -- NaN, which alone does not equal itself, is no number of a source.
    | number n => exact (Number.beq_iff_eq readable readable).2 rfl
    | _ => simp [Value.ofLiteral, Value.beq]
  | temp id, _ => by simp [beq]
  | context, _ => rfl
  | locals, _ => rfl
  | list elements, ok => by simpa [beq] using beqList_self elements ok
  | map entries, ok => by simpa [beq] using beqEntries_self entries ok

theorem beqList_self : ∀ os : List Operand, AllSpellable (literalsList os) → beqList os os = true
  | [], _ => rfl
  | o :: rest, ok => by
    obtain ⟨first, more⟩ := allSpellable_append.1 ok
    rw [beqList, beq_self o first, beqList_self rest more, Bool.and_self]

theorem beqEntries_self : ∀ os : List (String × Operand), AllSpellable (literalsEntries os) →
    beqEntries os os = true
  | [], _ => rfl
  | (key, o) :: rest, ok => by
    obtain ⟨first, more⟩ := allSpellable_append.1 ok
    simp [beqEntries, beq_self o first, beqEntries_self rest more]

end

end Operand

namespace Program

/-- The program of a source is constant only if it has no statement but a return of a constant. -/
theorem eq_of_isConstant {body : Expr} (free : Expr.ProgramFree body.nodes)
    (h : (Program.ofExpr (.program body)).isConstant = true) :
    (body.lower 0).result.isConstant = true ∧
      Program.ofExpr (.program body) = ⟨[], [.ret (body.lower 0).result]⟩ := by
  have all := List.all_eq_true.1 h
  have eq := ofExpr_eq (.program body)
  rw [eq] at all
  have code : (body.lower 0).code = [] := by
    refine List.eq_nil_iff_forall_not_mem.2 fun s mem => ?_
    -- Every statement before the return assigns something, and such statements are not constant.
    have assigns := (Expr.lower_linear 0 body free).assigns s mem
    have constant := all s (List.mem_append_left _ mem)
    cases s with
    | ret value => cases assigns
    | _ => cases constant
  -- One temporary is declared for each statement that assigns one.
  have vars : List.range (body.lower 0).next = [] := by
    have fits := Expr.lower_fits 0 body
    have count := congrArg List.length fits.code.assigned_eq
    rw [code, List.length_range'] at count
    rw [fits.next_eq, ← count]
    rfl
  refine ⟨all (.ret _) (by simp [Expr.answer]), ?_⟩
  rw [eq]
  simp only [Expr.answer, code, vars, List.nil_append]

theorem vars_eq_of_beq {p q : Program} (h : (p == q) = true) : p.vars = q.vars := by
  change instBEqProgram.beq p q = true at h
  simp only [instBEqProgram.beq, Bool.and_eq_true, beq_iff_eq] at h
  exact h.1

theorem ret_beq_self {o : Operand} (ok : AllSpellable o.literals) :
    (Program.mk [] [.ret o] == ⟨[], [.ret o]⟩) = true := by
  have same : (Statement.ret o == .ret o) = true := Operand.beq_self o ok
  change instBEqProgram.beq _ _ = true
  simpa [instBEqProgram.beq] using same

/-- The text of the constant that a program of a source returns is a source of an equal program if
and only if the constant holds no infinite number as a value. -/
theorem ofSource_text_constant_iff {source : String} {e : Expr}
    (h : Expr.ofSource source = .ok e) (constant : (Program.ofExpr e).isConstant = true) :
    ∃ o, (Program.ofExpr e).body = [.ret o] ∧
      ((∃ e', Expr.ofSource o.text = .ok e' ∧ (Program.ofExpr e' == Program.ofExpr e) = true) ↔
        ∀ negative, Value.number (.infinity negative) ∉ o.literals) := by
  obtain ⟨body, rfl, readable⟩ := Expr.ofSource_readable h
  obtain ⟨isConstant, eq⟩ := eq_of_isConstant readable.programFree constant
  have ok := (Expr.lower_spellable 0 body readable).result
  generalize (body.lower 0).result = o at *
  have back := Operand.ofSource_text ok
  rw [eq]
  refine ⟨o, rfl, ?_, fun finite => ⟨_, back, ?_⟩⟩
  · rintro ⟨e', read, same⟩ negative mem
    rw [back] at read
    cases read
    -- The infinite number is written as a name, and a name takes a temporary.
    have name := Operand.spelled_mem_nodes o mem
    have vars := vars_eq_of_beq same
    rw [ofExpr_vars, List.range_eq_nil] at vars
    exact List.countP_eq_zero.1 vars _ (List.mem_cons_of_mem _ name) rfl
  · -- Without infinite numbers, lowering undoes what spelling does.
    have lowered := Operand.lower_spelled 0 o ok isConstant finite
    have same : Program.ofExpr (.program o.spelled) = ⟨[], [.ret o]⟩ := by
      rw [ofExpr_eq, Expr.answer, lowered]
      rfl
    rw [same]
    exact ret_beq_self ok

/-- The object with an infinite number as a key, which is no value, and a string with a character
that is written as an escape. -/
theorem ofSource_text_constant_iff_key :
    let e : Expr := .program (.object
      [(.literal (.number (.infinity false)), .literal (.str "é"))])
    Expr.ofSource "\x7b1e999:'é'\x7d" = .ok e ∧ (Program.ofExpr e).isConstant = true ∧
      ∃ e', Expr.ofSource "\x7bInfinity:'\\u00e9'\x7d" = .ok e' ∧
        (Program.ofExpr e' == Program.ofExpr e) = true := by
  have numeral : Decimal.Numeral ['1', 'e', '9', '9', '9'] ⟨1, 999⟩ :=
    Decimal.ofNumeral?_eq_some_iff.1 (by decide)
  have value : Number.ofMagnitude? false (Decimal.mk 1 999).round? = .infinity false := by
    simp [Decimal.round?, Number.ofMagnitude?]
  have key : Reads ['1', 'e', '9', '9', '9'] [':', '\'', 'é', '\'', '\x7d'] [_] :=
    lexemes?_numeral numeral rfl
  rw [value] at key
  have string : Reads ['\'', 'é', '\''] ['\x7d'] [.str "é"] := lexemes?_quoted "é" ['\x7d']
  have close := Reads.mark .closeBrace (by decide) (.nil [])
  have lexed := (key.append ((string.append close).mark .colon (by decide))).mark .openBrace
    (by decide)
  have derived := Expr.Derives.object
    (.single (.number (String.ofList ['1', 'e', '9', '9', '9']) (.infinity false)) (.str "é"))
  have read : Expr.ofSource "\x7b1e999:'é'\x7d" = .ok _ :=
    Expr.ofSource_eq_ok_iff.2 ⟨_, _, lexed.lexemes?_eq, derived, rfl⟩
  refine ⟨read, rfl, ?_⟩
  obtain ⟨o, body, same⟩ := ofSource_text_constant_iff read rfl
  cases body
  refine same.2 fun negative => ?_
  change Value.number (.infinity negative) ∉ [Value.str "é"]
  simp

end Program

end DataBinding
