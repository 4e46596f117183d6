import DataBinding.Compile
import DataBinding.Proofs.Token.Respacing

/-!
# Other gaps, the same program

The offsets of tokens, and the source, tell only where a fault is. So tokens with the same lexemes
are read as the same expression or have the same fault, and a source with other gaps between its
tokens means the same.

## Main results

* `Expr.ofTokens_congr` — reading depends on the lexemes, apart from the places of faults
* `Program.compile_respace` — a source with other gaps means the same
-/

namespace DataBinding

open DataBinding.Parser

/-- A run depends on the lexemes, apart from the offset of its fault. -/
theorem Parser.State.run_congr {tokens tokens' : List Token}
    (h : tokens.map Token.lexeme = tokens'.map Token.lexeme) (s : State) (size size' : Nat) :
    (s.run size tokens).mapError Prod.fst = (s.run size' tokens').mapError Prod.fst := by
  induction tokens generalizing s tokens' with
  | nil =>
    cases List.map_eq_nil_iff.1 h.symm
    rw [run, run]
    cases s.outcome <;> rfl
  | cons token rest ih =>
    obtain ⟨token', rest', rfl, same, more⟩ := List.map_eq_cons_iff.1 h.symm
    rw [run, run, same]
    cases s.next? token.lexeme with
    | none => rfl
    | some next => exact ih more.symm next

namespace Expr

/-- Tokens with the same lexemes are read as the same expression, or have the same fault. -/
theorem ofTokens_congr {tokens tokens' : List Token}
    (h : tokens.map Token.lexeme = tokens'.map Token.lexeme) (source source' : String) :
    (ofTokens source tokens).mapError SyntaxError.fault =
      (ofTokens source' tokens').mapError SyntaxError.fault := by
  have fault : ∀ source tokens, (ofTokens source tokens).mapError SyntaxError.fault =
      (State.start.run (byteSize source.toList) tokens).mapError Prod.fst := by
    intro source tokens
    unfold ofTokens
    cases State.start.run (byteSize source.toList) tokens <;> rfl
  rw [fault, fault, State.run_congr h]

theorem ofSource_of_tokenize {source : String} {tokens : List Token}
    (h : tokenize source = .ok tokens) : ofSource source = ofTokens source tokens := by
  unfold ofSource
  rw [h]
  rfl

end Expr

theorem eq_or_error_of_mapError {ε δ α : Type} {f : ε → δ} {x y : Except ε α}
    (h : x.mapError f = y.mapError f) :
    (∃ a, x = .ok a ∧ y = .ok a) ∨ ∃ e e', x = .error e ∧ y = .error e' ∧ f e = f e' := by
  cases x with
  | ok a =>
    cases y with
    | ok b =>
      cases h
      exact .inl ⟨a, rfl, rfl⟩
    | error e => cases h
  | error e =>
    cases y with
    | ok b => cases h
    | error e' => exact .inr ⟨e, e', rfl, rfl, Except.error.inj h⟩

namespace Program

/-- What is compiled is the program of the expression that the source spells. -/
theorem compile_program (source : String) :
    (compile source).map Evaluator.program = (Expr.ofSource source).map ofExpr := by
  have read : Expr.ofSource source = (tokenize source).bind (Expr.ofTokens source) := rfl
  rw [read]
  unfold compile compileLogged
  cases tokenize source with
  | error e => rfl
  | ok tokens =>
    simp only [Except.bind]
    cases Expr.ofTokens source tokens <;> rfl

/-- A source with other gaps between its tokens has tokens with the same lexemes. Both sources spell
the same expression and have the same program, or reading them ends with the same fault. -/
theorem compile_respace {source : String} {pieces : List Piece} {last last' : List Char}
    {gaps : List (List Char)} (lexed : tokenize source = .ok (pieces.map Piece.token))
    (tiling : Tiling 0 source.toList pieces last) (spaced : Respacing pieces gaps last') :
    let source' := String.ofList (respace pieces gaps last')
    (∃ tokens, tokenize source' = .ok tokens ∧
      tokens.map Token.lexeme = (pieces.map Piece.token).map Token.lexeme) ∧
    ((∃ e, Expr.ofSource source = .ok e ∧ Expr.ofSource source' = .ok e ∧
        (compile source).map Evaluator.program = .ok (.ofExpr e) ∧
        (compile source').map Evaluator.program = .ok (.ofExpr e)) ∨
      ∃ e e', Expr.ofSource source = .error e ∧ Expr.ofSource source' = .error e' ∧
        e'.fault = e.fault) := by
  intro source'
  have read : lexemes? source.toList = some (pieces.map fun p => p.token.lexeme) :=
    lexemes?_eq_some_iff.2 ⟨_, lexed, List.map_map⟩
  have again := spaced.lexemes?_respace tiling read
  rw [← String.toList_ofList (l := respace pieces gaps last')] at again
  obtain ⟨tokens, lexed', same⟩ := lexemes?_eq_some_iff.1 again
  have lexemes : tokens.map Token.lexeme = (pieces.map Piece.token).map Token.lexeme :=
    same.trans List.map_map.symm
  refine ⟨⟨tokens, lexed', lexemes⟩, ?_⟩
  rw [compile_program, compile_program, Expr.ofSource_of_tokenize lexed,
    Expr.ofSource_of_tokenize lexed']
  rcases eq_or_error_of_mapError (Expr.ofTokens_congr lexemes.symm source source')
    with ⟨e, before, after⟩ | ⟨e, e', before, after, same⟩
  · rw [before, after]
    exact .inl ⟨e, rfl, rfl, rfl, rfl⟩
  · exact .inr ⟨e, e', before, after, same.symm⟩

/-- A blank in front of a name that begins like an exponent. -/
theorem compile_respace_exponent :
    let one : Number := .ofMagnitude? false (Decimal.mk 1 0).round?
    let pieces : List Piece := [⟨[], ['1'], ⟨.number "1" one, 0⟩⟩, ⟨[], ['e'], ⟨.word "e", 1⟩⟩]
    let source' := String.ofList (respace pieces [[], ['\t']] ['\n'])
    source' = "1\te\n" ∧ tokenize "1e" = .ok (pieces.map Piece.token) ∧
      ∃ e, Expr.ofSource "1e" = .error e ∧
        ∃ e', Expr.ofSource source' = .error e' ∧ e'.fault = e.fault := by
  intro one pieces source'
  have numeral : Decimal.Numeral ['1'] ⟨1, 0⟩ := Decimal.ofNumeral?_eq_some_iff.1 (by decide)
  have value : Number.ofNumeral? ['1'] = some one := congrArg (Option.map _) numeral.ofNumeral?
  have found : recognize '1' ['e'] = ⟨.ok (.number "1" one), 1⟩ := by
    simp [recognize, Recognized.number, Recognized.numberTail, Recognized.startsExponent, value]
  have number : (Cursor.ofSource "1e").next? = some (.ok ⟨.number "1" one, 0⟩, ⟨1, ['e']⟩) := by
    have skip : (Cursor.ofSource "1e").skipBlanks = ⟨0, ['1', 'e']⟩ := rfl
    simp only [Cursor.next?, skip, found]
    rfl
  have name : (Cursor.mk 1 ['e']).next? = some (.ok ⟨.word "e", 1⟩, ⟨2, []⟩) := rfl
  have lexed : tokenize "1e" = .ok (pieces.map Piece.token) := by
    rw [tokenize_eq_ok_iff, Cursor.tokens_eq_cons number, Cursor.tokens_eq_cons name,
      Cursor.tokens_eq_nil rfl]
    rfl
  have word : (Lexeme.word "e").SpelledBy ['e'] [] := ⟨rfl, rfl, by simp⟩
  have digit : (Lexeme.number "1" one).SpelledBy ['1'] ['e'] :=
    ⟨by simp [Lexeme.text], value, '1', [], rfl, .inl rfl⟩
  have nothing : Tiling 2 [] [] [] := .nil (List.nil_subset _)
  have last : Tiling 1 ['e'] [⟨[], ['e'], ⟨.word "e", 1⟩⟩] [] :=
    @Tiling.cons 1 [] [] [] ⟨[], ['e'], ⟨.word "e", 1⟩⟩ nothing (List.nil_subset _) rfl word
  have tiling : Tiling 0 "1e".toList pieces [] :=
    @Tiling.cons 0 ['e'] [] _ ⟨[], ['1'], ⟨.number "1" one, 0⟩⟩ last (List.nil_subset _) rfl digit
  have spaced : Respacing pieces [[], ['\t']] ['\n'] := by
    refine ⟨rfl, by decide, by decide, fun i p gap _ piece _ ne => ?_⟩
    have mem := List.mem_of_getElem? piece
    simp only [pieces, List.mem_cons, List.not_mem_nil, or_false] at mem
    rcases mem with rfl | rfl <;> exact absurd rfl ne
  refine ⟨rfl, lexed, ?_⟩
  obtain ⟨-, ⟨e, read, -⟩ | ⟨e, e', before, after, same⟩⟩ := compile_respace lexed tiling spaced
  · rw [Expr.ofSource_of_tokenize lexed] at read
    cases read
  · exact ⟨e, before, e', after, same⟩

end Program

end DataBinding
