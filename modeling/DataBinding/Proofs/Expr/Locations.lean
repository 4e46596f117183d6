import DataBinding.Proofs.Expr.Faults
import DataBinding.Proofs.Text.Lines
import DataBinding.Proofs.Token.Misspellings

/-!
# Where errors lie

The fault of a source that cannot be read lies at one place, which can be told from the source:
where no token can be made although tokens have been made up to there, or else at the first token
that is impossible, or at the end where something is missing. Line and column of the error are
those of this place.

## Main definitions

* `Fault.LiesAt` — the place between two parts of the source is that of the fault
* `SyntaxError.Locates` — line and column are those of the place behind a part of the source

## Main results

* `Fault.LiesAt.unique` — a source has one such place at most
* `Expr.exists_liesAt_of_ofSource` — where the error of a source lies
* `SyntaxError.position_exact` — line and column of an error
-/

namespace DataBinding

open DataBinding.Parser

/-- The place of the fault in the source lies between the two parts `before` and `after`. -/
inductive Fault.LiesAt (source : String) (before after : List Char) (fault : Fault) : Prop where
  /-- The first place where no token can be made. -/
  | misspelled (first : fault.ComesFirst before after)
  /-- The beginning of the first token that is impossible. -/
  | token {tokens : List Token} {k : Nat} (lexed : tokenize source = .ok tokens)
    (lt : k < tokens.length) (pos : tokens[k].pos = byteSize before)
    (first : Expr.FirstImpossible tokens k fault)
  /-- The end of the source, where all tokens are possible. -/
  | end {tokens : List Token} (lexed : tokenize source = .ok tokens) (split : after = [])
    (first : Expr.FirstImpossible tokens tokens.length fault)

/-! ### One place only -/

/-- No token behind the first impossible one is the first impossible one. -/
theorem Expr.FirstImpossible.le {tokens : List Token} {k k' : Nat} {fault fault' : Fault}
    (h : FirstImpossible tokens k fault) (h' : FirstImpossible tokens k' fault')
    (within : k' ≤ tokens.length) : k' ≤ k := by
  refine Nat.le_of_not_lt fun lt => ?_
  obtain ⟨more, whole⟩ := h'.viable
  -- A program that begins with more tokens also goes on with the impossible one.
  have split : tokens.take k' = tokens.take (k + 1) ++ (tokens.take k').drop (k + 1) := by
    have taken : (tokens.take k').take (k + 1) = tokens.take (k + 1) := by
      rw [List.take_take, Nat.min_eq_left lt]
    rw [← taken, List.take_append_drop]
  rw [split, List.append_assoc] at whole
  exact h.impossible (Nat.lt_of_lt_of_le lt within) _ whole

namespace Fault

variable {source : String} {before after before' after' : List Char} {fault fault' : Fault}

/-- A source in which no token can be made at some place has no tokens. -/
theorem ComesFirst.tokenize_ne_ok (h : fault.ComesFirst before after)
    (text : source.toList = before ++ after) (tokens : List Token) :
    tokenize source ≠ .ok tokens := by
  intro lexed
  rw [tokenize_eq_error_iff.2 ⟨before, after, fault, text, rfl, h⟩] at lexed
  cases lexed

/-- There is one place at most at which a fault of a source lies. -/
theorem LiesAt.unique (h : fault.LiesAt source before after)
    (h' : fault'.LiesAt source before' after') (text : source.toList = before ++ after)
    (text' : source.toList = before' ++ after') : before' = before := by
  have same := text'.symm.trans text
  cases h with
  | misspelled first =>
    cases h' with
    | misspelled first' => exact (first'.unique first same).1
    | token lexed' => exact absurd lexed' (first.tokenize_ne_ok text _)
    | «end» lexed' => exact absurd lexed' (first.tokenize_ne_ok text _)
  | @token tokens k lexed lt pos first =>
    cases h' with
    | misspelled first' => exact absurd lexed (first'.tokenize_ne_ok text' _)
    | @token tokens' k' lexed' lt' pos' first' =>
      cases lexed.symm.trans lexed'
      cases Nat.le_antisymm (first.le first' (Nat.le_of_lt lt')) (first'.le first (Nat.le_of_lt lt))
      exact eq_of_byteSize_eq same (pos'.symm.trans pos)
    | «end» lexed' split' first' =>
      cases lexed.symm.trans lexed'
      exact absurd (first.le first' (Nat.le_refl _)) (Nat.not_le_of_lt lt)
  | «end» lexed split first =>
    cases h' with
    | misspelled first' => exact absurd lexed (first'.tokenize_ne_ok text' _)
    | token lexed' lt' pos' first' =>
      cases lexed.symm.trans lexed'
      exact absurd (first'.le first (Nat.le_refl _)) (Nat.not_le_of_lt lt')
    | «end» lexed' split' first' =>
      rw [split, split', List.append_nil, List.append_nil] at same
      exact same

end Fault

/-! ### The place of an error -/

namespace Expr

/-- The fault of tokens that are no program lies at one of them, or at the end. -/
theorem exists_liesAt_of_run {source : String} {tokens : List Token} {fault : Fault}
    {offset : Nat} (lexed : tokenize source = .ok tokens)
    (failed : State.start.run (byteSize source.toList) tokens = .error (fault, offset)) :
    ∃ before after, source.toList = before ++ after ∧ offset = byteSize before ∧
      fault.LiesAt source before after := by
  obtain ⟨pieces, last, rfl, (tiling : Tiling 0 source.toList pieces last)⟩ :=
    Cursor.tokens_tiling _ (tokenize_eq_ok_iff.1 lexed)
  -- The reader has got stuck in front of a token or at the end, and tokens stand where they begin.
  obtain ⟨front, rest, s, split, read, stuck⟩ := State.run_eq_error_iff.1 failed
  have first := firstImpossible read stuck
  obtain ⟨before, after, text, place, -, ends, head⟩ := tiling.exists_place_of_stuck split stuck
  refine ⟨before, after, text, place, ?_⟩
  rw [← split] at first
  cases rest with
  | nil =>
    rw [List.append_nil] at split
    rw [← split] at first
    exact .end lexed (ends.1 rfl) first
  | cons token rest =>
    have lt : front.length < (pieces.map Piece.token).length := by simp [split]
    refine .token lexed lt ?_ first
    have here : (pieces.map Piece.token)[front.length] = token := by simp [split]
    rw [here]
    exact head token rfl

theorem ofSource_eq_error {source : String} {e : SyntaxError} (h : ofSource source = .error e) :
    tokenize source = .error e ∨
      ∃ tokens, tokenize source = .ok tokens ∧ ofTokens source tokens = .error e := by
  unfold ofSource at h
  cases lexed : tokenize source with
  | error e' =>
    rw [lexed] at h
    cases h
    exact .inl rfl
  | ok tokens =>
    rw [lexed] at h
    exact .inr ⟨tokens, rfl, h⟩

/-- The error of a source lies at a place of it. -/
theorem exists_liesAt_of_ofSource {source : String} {e : SyntaxError}
    (h : ofSource source = .error e) :
    ∃ before after, source.toList = before ++ after ∧
      e = .ofFault source (e.fault, byteSize before) ∧ e.fault.LiesAt source before after := by
  rcases ofSource_eq_error h with misspelled | ⟨tokens, lexed, failed⟩
  · obtain ⟨before, after, fault, text, rfl, first⟩ := tokenize_eq_error_iff.1 misspelled
    exact ⟨before, after, text, rfl, .misspelled first⟩
  · obtain ⟨⟨fault, offset⟩, rfl, run⟩ := ofTokens_eq_error failed
    obtain ⟨before, after, text, rfl, lies⟩ := exists_liesAt_of_run lexed run
    exact ⟨before, after, text, rfl, lies⟩

end Expr

namespace SyntaxError

/-- The error is one of the source, and its position is that of the place behind `before`. The line
is one more than the line feeds in front of the place. The column is one more than the bytes that
are in front of it on its line, that is, behind the last of these line feeds. From line and column
the offset is found again: it is the size of the lines in front, and of the columns in front. -/
structure Locates (e : SyntaxError) (source : String) (before : List Char) : Prop where
  source_eq : e.source = source
  line_eq : e.position.line = before.count '\n' + 1
  col_eq : ∃ rows left, before = ofRows rows ++ left ∧ (∀ row ∈ rows, '\n' ∉ row) ∧
    '\n' ∉ left ∧ rows.length + 1 = e.position.line ∧ byteSize left + 1 = e.position.col
  toOffset_eq : e.position.toOffset source.toList = byteSize before

theorem locates_ofFault {source : String} {before after : List Char}
    (text : source.toList = before ++ after) (fault : Fault) :
    (ofFault source (fault, byteSize before)).Locates source before := by
  have position : (ofFault source (fault, byteSize before)).position =
      .ofOffset (before ++ after) (byteSize before) := by
    rw [← text]
    rfl
  -- The line counts the rows in front of the place, and the column what is left behind them.
  obtain ⟨rows, left, split, unbroken, last⟩ := exists_rows before
  have place : (ofFault source (fault, byteSize before)).position =
      ⟨rows.length + 1, byteSize left + 1⟩ := by
    rw [position, split, Position.ofOffset_ofRows unbroken last]
  constructor
  case source_eq => rfl
  case line_eq =>
    rw [place, split, List.count_append, count_ofRows unbroken, List.count_eq_zero.2 last,
      Nat.add_zero]
  case col_eq =>
    rw [place]
    exact ⟨rows, left, split, unbroken, last, rfl, rfl⟩
  case toOffset_eq => rw [position, text, Position.toOffset_ofOffset]

/-- The error of a source that cannot be read has the line and the column of the place where its
fault lies, and no fault of the source lies at another place. The same holds of everything that is
wrong in the spelling of tokens: an error behind a number of tokens and errors has the line and the
column of the place that the scanner then comes to, and that is the only one. -/
theorem position_exact (source : String) (e : SyntaxError) :
    (Expr.ofSource source = .error e → ∃ before after, source.toList = before ++ after ∧
      e.Locates source before ∧ e.fault.LiesAt source before after ∧
      ∀ fault before' after', source.toList = before' ++ after' →
        Fault.LiesAt source before' after' fault → before' = before) ∧
    ∀ count, (scan source)[count]? = some (.error e) →
      ∃ before after, source.toList = before ++ after ∧
        e.Locates source before ∧ e.fault.ComesBehind source count before after ∧
        ∀ fault before' after', source.toList = before' ++ after' →
          Fault.ComesBehind source count before' after' fault →
            before' = before ∧ fault = e.fault := by
  refine ⟨fun failed => ?_, fun count found => ?_⟩
  · obtain ⟨before, after, text, eq, lies⟩ := Expr.exists_liesAt_of_ofSource failed
    have located : e.Locates source before := by
      rw [eq]
      exact locates_ofFault text e.fault
    exact ⟨before, after, text, located, lies,
      fun fault before' after' text' lies' => lies.unique lies' text text'⟩
  · obtain ⟨before, after, fault, text, rfl, comes⟩ := exists_comesBehind_of_scan found
    exact ⟨before, after, text, locates_ofFault text fault, comes,
      fun other before' after' text' comes' => comes'.unique comes (text'.symm.trans text)⟩

/-- The same character is part of a string, and then it begins no token, on the second line behind a
blank of two bytes. The error lies there and not within the string. -/
theorem position_exact_string :
    let source := "['#',\n\u00A0#"
    let e : SyntaxError := ⟨.unexpectedChar '#', ⟨2, 3⟩, source⟩
    let before := ['[', '\'', '#', '\'', ',', '\n', '\u00A0']
    Expr.ofSource source = .error e ∧ (scan source)[3]? = some (.error e) ∧
      e.Locates source before ∧ byteSize before = 8 ∧ e.fault.LiesAt source before ['#'] ∧
      ¬e.fault.LiesAt source ['[', '\''] ['#', '\'', ',', '\n', '\u00A0', '#'] ∧
      e.fault.ComesBehind source 3 before ['#'] := by
  intro source e before
  have bracket : (Cursor.ofSource "['#',\n\u00A0#").next? = some
      (.ok ⟨.mark .openBracket, 0⟩, ⟨1, ['\'', '#', '\'', ',', '\n', '\u00A0', '#']⟩) := rfl
  have string : (Cursor.mk 1 ['\'', '#', '\'', ',', '\n', '\u00A0', '#']).next? =
      some (.ok ⟨.str "#", 1⟩, ⟨4, [',', '\n', '\u00A0', '#']⟩) :=
    Cursor.next?_spelling rfl (List.nil_subset _) (.inr rfl)
      (.cons (.plain (by decide) (by decide)) .nil)
  have comma : (Cursor.mk 4 [',', '\n', '\u00A0', '#']).next? =
      some (.ok ⟨.mark .comma, 4⟩, ⟨5, ['\n', '\u00A0', '#']⟩) := rfl
  have sharp : (Cursor.mk 5 ['\n', '\u00A0', '#']).next? =
      some (.error (.unexpectedChar '#', 8), ⟨9, []⟩) := rfl
  have place : ofFault source (.unexpectedChar '#', 8) = e := by decide
  have found : (scan source)[3]? = some (.error e) := by
    rw [scan, Cursor.items_eq_cons bracket, Cursor.items_eq_cons string,
      Cursor.items_eq_cons comma, Cursor.items_eq_cons sharp, ← place]
    rfl
  have failed : Expr.ofSource source = .error e := by
    unfold Expr.ofSource
    rw [tokenize, Cursor.tokens_eq_cons bracket, Cursor.tokens_eq_cons string,
      Cursor.tokens_eq_cons comma, Cursor.tokens_eq_error sharp, ← place]
    rfl
  obtain ⟨first, others⟩ := position_exact source e
  have text : "['#',\n\u00A0#".toList = before ++ ['#'] := rfl
  -- The place that line and column tell is the one behind `before`.
  have here : ∀ front back, source.toList = front ++ back → e.Locates source front →
      front = before ∧ back = ['#'] := by
    intro front back split located
    have size : byteSize front = byteSize before := located.toOffset_eq.symm.trans (by decide)
    have same := eq_of_byteSize_eq (split.symm.trans text) size
    rw [text, same] at split
    exact ⟨same, (List.append_cancel_left split).symm⟩
  obtain ⟨front, back, split, located, lies, one⟩ := first failed
  obtain ⟨rfl, rfl⟩ := here front back split located
  obtain ⟨front', back', split', located', comes, -⟩ := others 3 found
  obtain ⟨rfl, rfl⟩ := here front' back' split' located'
  have alone : ¬e.fault.LiesAt source ['[', '\''] ['#', '\'', ',', '\n', '\u00A0', '#'] :=
    fun within => absurd (one e.fault ['[', '\''] _ text within) (by decide)
  exact ⟨failed, found, located, by decide, lies, alone, comes⟩

end SyntaxError

end DataBinding
