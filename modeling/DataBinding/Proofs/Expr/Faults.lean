import DataBinding.Proofs.Expr.Acceptance
import DataBinding.Proofs.Text.Position
import DataBinding.Proofs.Token.Slices

/-!
# Where reading fails

The reader refuses a token only if no program goes on with it, and up to there it has read the
beginning of a program. So the token at which a fault is reported is the first one that is
impossible. If all tokens are possible and something is missing, the fault is reported at the end.

## Main definitions

* `Expr.Complete` — the tokens spell a whole program
* `State.Stuck` — what stops the reader in a state
* `Expr.FirstImpossible` — the fault is about the first impossible token, or about the end

## Main results

* `Expr.LeadsTo.completable` — whatever has been read is the beginning of a program
* `State.run_eq_error_iff` — where and why a run fails
* `Expr.ofTokens_fault` — where the fault of a source is reported
-/

namespace DataBinding

open DataBinding.Parser

namespace Parser.State

/-- The reader stops in front of the tokens that are left, with a fault and its offset, where `size`
is the offset of the end. -/
inductive Stuck (size : Nat) (s : State) : List Token → Fault × Nat → Prop where
  | token {token : Token} {rest : List Token} (h : s.next? token.lexeme = none) :
    Stuck size s (token :: rest) (s.fault token.lexeme, token.pos)
  | end {expected : String} (h : s.outcome = .error expected) :
    Stuck size s [] (.unexpectedEnd expected, size)

/-- A run fails where the reader is stuck. -/
theorem run_eq_error_iff {size : Nat} {s : State} {tokens : List Token} {located : Fault × Nat} :
    s.run size tokens = .error located ↔ ∃ before after last, tokens = before ++ after ∧
      s.reads (before.map Token.lexeme) = some last ∧ Stuck size last after located := by
  constructor
  · intro h
    induction tokens generalizing s with
    | nil =>
      rw [run] at h
      split at h
      · cases h
      · rename_i expected missing
        cases h
        exact ⟨[], [], s, rfl, rfl, .end missing⟩
    | cons token rest ih =>
      rw [run] at h
      split at h
      · rename_i next step
        obtain ⟨before, after, last, rfl, read, stuck⟩ := ih h
        exact ⟨token :: before, after, last, rfl, (reads_cons step _).trans read, stuck⟩
      · rename_i impossible
        cases h
        exact ⟨[], token :: rest, s, rfl, rfl, .token impossible⟩
  · rintro ⟨before, after, last, rfl, read, stuck⟩
    induction before generalizing s with
    | nil =>
      cases read
      cases stuck with
      | token h => simp only [List.nil_append, run, h]
      | «end» h => simp only [List.nil_append, run, h]
    | cons token before ih =>
      obtain ⟨next, step, read⟩ := Option.bind_eq_some_iff.1 read
      simp only [List.cons_append, run, step]
      exact ih read

end Parser.State

namespace Expr

/-- Whatever has been read is the beginning of an expression. -/
theorem LeadsTo.completable {ls : List Lexeme} {s : State} (h : LeadsTo ls s) :
    ∃ more whole, Derives (ls ++ more) whole := by
  have operand : Derives [.word "null"] (.literal .null) := .keyword .null
  -- What the mode misses is added first, and then all constructs that are open are ended.
  cases h with
  | operand h =>
    obtain ⟨more, whole, d⟩ := h.completable operand
    exact ⟨_, whole, List.append_assoc .. ▸ d⟩
  | chain h d => exact h.completable d
  | name h d =>
    obtain ⟨more, whole, d⟩ := h.completable (d.member "x")
    exact ⟨.word "x" :: more, whole, by simpa using d⟩
  | key h items =>
    have properties := items.properties (.name "x") operand
    obtain ⟨more, whole, d⟩ := h.completable (.object properties)
    exact ⟨.word "x" :: .mark .colon :: .word "null" :: .mark .closeBrace :: more, whole,
      by simpa using d⟩
  | colon h items s =>
    obtain ⟨more, whole, d⟩ := h.completable (.object (items.properties s operand))
    exact ⟨.mark .colon :: .word "null" :: .mark .closeBrace :: more, whole, by simpa using d⟩

/-- The tokens spell a whole program. -/
def Complete (tokens : List Token) : Prop := ∃ e, Derives (tokens.map Token.lexeme) e

/-- The fault is about the first token that is impossible, which has `k` tokens in front of it, or
about the end behind all tokens. -/
structure FirstImpossible (tokens : List Token) (k : Nat) (fault : Fault) : Prop where
  /-- Some program begins with the tokens in front. -/
  viable : ∃ more, Complete (tokens.take k ++ more)
  /-- No program goes on with the token. -/
  impossible : k < tokens.length → ∀ more, ¬Complete (tokens.take (k + 1) ++ more)
  unexpectedEnd_iff : (∃ expected, fault = .unexpectedEnd expected) ↔ k = tokens.length
  trailingToken_iff :
    (∃ found, fault = .trailingToken found) ↔ k < tokens.length ∧ Complete (tokens.take k)
  unexpectedToken_iff :
    (∃ expected found, fault = .unexpectedToken expected found) ↔
      k < tokens.length ∧ ¬Complete (tokens.take k)
  /-- The fault shows the token. -/
  found_eq : ∀ h : k < tokens.length, fault = .trailingToken tokens[k].lexeme.shown ∨
    ∃ expected, fault = .unexpectedToken expected tokens[k].lexeme.shown

section

variable {before after : List Token} {s : State}
  (read : State.start.reads (before.map Token.lexeme) = some s)

include read

theorem exists_complete : ∃ more, Complete (before ++ more) := by
  obtain ⟨more, whole, d⟩ := (leadsTo_of_reads read).completable
  refine ⟨more.map (⟨·, 0⟩), whole, ?_⟩
  simpa [List.map_append, Function.comp_def] using d

/-- What has been read is a whole program if nothing is missing behind it. -/
theorem complete_iff : Complete before ↔ ∃ a, s.outcome = .ok a := by
  simp only [Complete, derives_iff_reads, read, outcome_eq_ok_iff, Option.some.injEq]
  constructor
  · rintro ⟨e, eq⟩
    exact ⟨_, e, eq, rfl⟩
  · rintro ⟨a, e, eq, -⟩
    exact ⟨e, eq⟩

/-- No program goes on with a token that has no effect. -/
theorem not_complete_of_next? {token : Token} (h : s.next? token.lexeme = none)
    (more : List Token) : ¬Complete (before ++ token :: more) := by
  rintro ⟨e, d⟩
  rw [List.map_append, List.map_cons, derives_iff_reads, State.reads_append_of read,
    State.reads, h] at d
  cases d

/-- Where the reader is stuck, the fault is about the first impossible token. -/
theorem firstImpossible {size : Nat} {located : Fault × Nat}
    (stuck : State.Stuck size s after located) :
    FirstImpossible (before ++ after) before.length located.1 := by
  have front : (before ++ after).take before.length = before := List.take_left
  have complete := complete_iff read
  cases stuck with
  | @token token rest h =>
    have impossible : ∀ more,
        ¬Complete ((before ++ token :: rest).take (before.length + 1) ++ more) := fun more => by
      simpa [List.take_length_add_append] using not_complete_of_next? read h more
    -- The token comes behind a whole program, or something is missing in front of it.
    cases outcome : s.outcome with
    | ok a =>
      have fault : s.fault token.lexeme = .trailingToken token.lexeme.shown := by
        rw [State.fault, outcome]
      have whole : Complete before := complete.2 ⟨a, outcome⟩
      constructor
      case impossible => exact fun _ => impossible
      all_goals simp [fault, front, whole, exists_complete read]
    | error expected =>
      have fault : s.fault token.lexeme = .unexpectedToken expected token.lexeme.shown := by
        rw [State.fault, outcome]
      have missing : ¬Complete before := by simp [complete, outcome]
      constructor
      case impossible => exact fun _ => impossible
      all_goals simp [fault, front, missing, exists_complete read]
  | @«end» expected h =>
    have incomplete : ¬Complete before := by simp [complete, h]
    have all : before ++ [] = before := List.append_nil before
    rw [all]
    constructor <;> simp [incomplete, exists_complete read]

end

end Expr

/-! ### Places -/

namespace Tiling

variable {text last : List Char} {pieces : List Piece}

/-- As many tokens stand in front of a token as come before it. -/
theorem countP_before (h : Tiling 0 text pieces last) {before rest : List Token} {token : Token}
    (split : pieces.map Piece.token = before ++ token :: rest) :
    (pieces.map Piece.token).countP (fun t => t.pos < token.pos) = before.length := by
  have ascending : (before ++ token :: rest).Pairwise (·.pos < ·.pos) :=
    split ▸ List.pairwise_map.2 (List.pairwise_map.1 h.ascending)
  obtain ⟨-, behind, across⟩ := List.pairwise_append.1 ascending
  have front : before.countP (fun t => t.pos < token.pos) = before.length :=
    List.countP_eq_length.2 fun t mem => by simpa using across t mem token List.mem_cons_self
  have back : (token :: rest).countP (fun t => t.pos < token.pos) = 0 := by
    refine List.countP_eq_zero.2 (List.forall_mem_cons.2 ⟨by simp, fun t mem => ?_⟩)
    have later := (List.pairwise_cons.1 behind).1 t mem
    simpa using Nat.le_of_lt later
  rw [split, List.countP_append, front, back, Nat.add_zero]

/-- All tokens stand in front of the end. -/
theorem countP_end (h : Tiling 0 text pieces last) :
    (pieces.map Piece.token).countP (fun t => t.pos < byteSize text) = pieces.length := by
  rw [← List.length_map Piece.token, List.countP_eq_length]
  refine List.forall_mem_map.2 fun p mem => ?_
  obtain ⟨front, back, rfl, ne, pos⟩ := h.exists_front mem
  have some := byteSize_pos ne
  rw [decide_eq_true_eq, pos, byteSize_append]
  omega

/-- The reader is stuck in front of a token or at the end, and all tokens that it has read stand in
front of this place. -/
theorem exists_place_of_stuck (h : Tiling 0 text pieces last) {before after : List Token}
    (split : pieces.map Piece.token = before ++ after) {s : State} {located : Fault × Nat}
    (stuck : s.Stuck (byteSize text) after located) :
    ∃ front back, text = front ++ back ∧ located.2 = byteSize front ∧
      (before ++ after).countP (fun t => t.pos < byteSize front) = before.length ∧
      (after = [] ↔ back = []) ∧ ∀ token ∈ after.head?, token.pos = byteSize front := by
  cases stuck with
  | @token token rest =>
    have mem : token ∈ pieces.map Piece.token := by simp [split]
    obtain ⟨p, piece, rfl⟩ := List.mem_map.1 mem
    obtain ⟨front, back, eq, ne, pos⟩ := h.exists_front piece
    rw [Nat.zero_add] at pos
    have count := h.countP_before split
    rw [split, pos] at count
    exact ⟨front, back, eq, pos, count, by simp [ne], by simpa using pos⟩
  | «end» =>
    have count := h.countP_end
    rw [split] at count
    refine ⟨text, [], (List.append_nil text).symm, rfl, ?_, by simp, by simp⟩
    rw [count, ← List.length_map Piece.token, split, List.append_nil]

end Tiling

namespace Expr

theorem ofTokens_eq_error {source : String} {tokens : List Token} {e : SyntaxError}
    (h : ofTokens source tokens = .error e) : ∃ located, e = .ofFault source located ∧
      State.start.run (byteSize source.toList) tokens = .error located := by
  unfold ofTokens at h
  cases run : State.start.run (byteSize source.toList) tokens with
  | ok a =>
    rw [run] at h
    cases h
  | error located =>
    rw [run] at h
    cases h
    exact ⟨located, rfl, rfl⟩

/-- The error of a source that has tokens but is no program lies at the first token that is
impossible, or at the end of the source if all tokens are possible; `k` tokens come before it. -/
theorem ofTokens_fault {source : String} {tokens : List Token} {e : SyntaxError}
    (lexed : tokenize source = .ok tokens) (failed : ofTokens source tokens = .error e) :
    e.source = source ∧ (∃ before, e.Behind before) ∧
      ∀ before, e.Behind before → ∀ k, k = tokens.countP (fun t => t.pos < byteSize before) →
        FirstImpossible tokens k e.fault ∧ (k = tokens.length ↔ before = source.toList) ∧
        ∀ h : k < tokens.length, tokens[k].pos = byteSize before := by
  obtain ⟨pieces, last, rfl, (tiling : Tiling 0 source.toList pieces last)⟩ :=
    Cursor.tokens_tiling _ (tokenize_eq_ok_iff.1 lexed)
  obtain ⟨⟨fault, offset⟩, rfl, run⟩ := ofTokens_eq_error failed
  obtain ⟨front, rest, s, split, read, stuck⟩ := State.run_eq_error_iff.1 run
  have first := firstImpossible read stuck
  obtain ⟨place, behind, text, rfl, count, ends, head⟩ :=
    tiling.exists_place_of_stuck split stuck
  have here := SyntaxError.behind_ofFault text fault
  refine ⟨rfl, ⟨place, here⟩, fun place' here' k eq => ?_⟩
  cases here'.unique here
  rw [split, count] at eq
  subst eq
  rw [split]
  refine ⟨first, ?_, fun lt => ?_⟩
  · have all : front.length = (front ++ rest).length ↔ rest = [] := by simp
    rw [all, ends, text, List.self_eq_append_right]
  · cases rest with
    | nil => simp at lt
    | cons token rest => simpa using head token rfl

/-- A comma is missing behind the first element of an array. -/
theorem ofTokens_fault_comma :
    let tokens : List Token := [⟨.mark .openBracket, 0⟩, ⟨.word "a", 1⟩, ⟨.word "b", 3⟩,
      ⟨.mark .closeBracket, 4⟩]
    let e : SyntaxError := ⟨.unexpectedToken "]" "b", ⟨1, 4⟩, "[a b]"⟩
    tokenize "[a b]" = .ok tokens ∧ ofTokens "[a b]" tokens = .error e ∧
      FirstImpossible tokens 2 e.fault := by
  have bracket : (Cursor.ofSource "[a b]").next? =
      some (.ok ⟨.mark .openBracket, 0⟩, ⟨1, ['a', ' ', 'b', ']']⟩) := rfl
  have first : (Cursor.mk 1 ['a', ' ', 'b', ']']).next? =
      some (.ok ⟨.word "a", 1⟩, ⟨2, [' ', 'b', ']']⟩) := rfl
  have second : (Cursor.mk 2 [' ', 'b', ']']).next? = some (.ok ⟨.word "b", 3⟩, ⟨4, [']']⟩) := rfl
  have close : (Cursor.mk 4 [']']).next? = some (.ok ⟨.mark .closeBracket, 4⟩, ⟨5, []⟩) := rfl
  have lexed : tokenize "[a b]" = .ok [⟨.mark .openBracket, 0⟩, ⟨.word "a", 1⟩, ⟨.word "b", 3⟩,
      ⟨.mark .closeBracket, 4⟩] := by
    rw [tokenize_eq_ok_iff, Cursor.tokens_eq_cons bracket, Cursor.tokens_eq_cons first,
      Cursor.tokens_eq_cons second, Cursor.tokens_eq_cons close, Cursor.tokens_eq_nil rfl]
    rfl
  have failed : ofTokens "[a b]" [⟨.mark .openBracket, 0⟩, ⟨.word "a", 1⟩, ⟨.word "b", 3⟩,
      ⟨.mark .closeBracket, 4⟩] = .error ⟨.unexpectedToken "]" "b", ⟨1, 4⟩, "[a b]"⟩ := rfl
  have here : SyntaxError.Behind ⟨.unexpectedToken "]" "b", ⟨1, 4⟩, "[a b]"⟩ ['[', 'a', ' '] :=
    ⟨['b', ']'], rfl, rfl⟩
  obtain ⟨-, -, at_place⟩ := ofTokens_fault lexed failed
  exact ⟨lexed, failed, (at_place _ here 2 rfl).1⟩

end Expr

end DataBinding
