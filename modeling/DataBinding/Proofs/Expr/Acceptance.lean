import DataBinding.Proofs.Expr.Reading

/-!
# What is accepted

The reader accepts the lexemes that the grammar derives, and makes of them the expression that they
derive. So a list of lexemes derives one expression at most, and what can be said about the steps of
the reader holds of the grammar: a comma in front of a closing mark stands in an array, behind an
element.

## Main definitions

* `Mark.closes` — whether a mark ends a construct
* `EndsFilledArray` — a mark ends an array that has elements

## Main results

* `Opens.completable` — what opens constructs is the beginning of an expression
* `ofTokens_iff_derives` — reading, the grammar, and where a trailing comma may stand
-/

namespace DataBinding

open DataBinding.Parser

/-- Whether the mark ends a construct. -/
def Mark.closes : Mark → Bool
  | closeBracket => true
  | closeBrace => true
  | closeParen => true
  | _ => false

namespace Expr

/-- An expression in the place where an operand is missing can be completed, by ending all
constructs that are open. -/
theorem Opens.completable {ls : List Lexeme} {pending : List Pending} (h : Opens ls pending)
    {xs : List Lexeme} {e : Expr} (d : Derives xs e) :
    ∃ more whole, Derives (ls ++ xs ++ more) whole := by
  induction h generalizing xs e with
  | nil => exact ⟨[], e, by simpa using d⟩
  | array h items ih =>
    obtain ⟨more, whole, done⟩ := ih (.array (items.list d))
    exact ⟨.mark .closeBracket :: more, whole, by simpa using done⟩
  | object h items s ih =>
    obtain ⟨more, whole, done⟩ := ih (.object (items.properties s d))
    exact ⟨.mark .closeBrace :: more, whole, by simpa using done⟩
  | index h object ih =>
    obtain ⟨more, whole, done⟩ := ih (object.index d)
    exact ⟨.mark .closeBracket :: more, whole, by simpa using done⟩
  | call h callee items ih =>
    obtain ⟨more, whole, done⟩ := ih (callee.call (items.list d))
    exact ⟨.mark .closeParen :: more, whole, by simpa using done⟩

/-- The mark behind `before` and a comma ends an array with elements: these stand behind a bracket,
and where the bracket stands any other expression could begin. -/
def EndsFilledArray (before : List Lexeme) (m : Mark) : Prop :=
  m = .closeBracket ∧ ∃ outer items elements,
    before = outer ++ .mark .openBracket :: items ∧ DerivesList items elements ∧
      ∀ xs e, Derives xs e → ∃ more whole, Derives (outer ++ xs ++ more) whole

/-- A closing mark can come right behind a comma only if the comma follows an element of an
array. -/
theorem next?_comma_closes {s next last : State} {m : Mark}
    (comma : s.next? (.mark .comma) = some next) (close : next.next? (.mark m) = some last)
    (closes : m.closes = true) :
    m = .closeBracket ∧ ∃ e read pending, next = ⟨.operand, .array (e :: read) :: pending⟩ := by
  obtain ⟨mode, pending⟩ := s
  cases mode with
  | operand => cases comma
  | name object => cases comma
  | key properties => cases comma
  | colon properties key => cases comma
  | chain e =>
    simp only [State.next?, State.chain?, State.close?] at comma
    split at comma <;> cases comma <;> try contradiction
    -- An element of an array, a property of an object, or an argument of a call goes before.
    · cases m <;> simp_all [Mark.closes, State.next?, State.operand?]
    · cases m <;> simp_all [Mark.closes, State.next?, State.key?]
    · cases m <;> simp_all [Mark.closes, State.next?, State.operand?]

theorem endsFilledArray {before after : List Lexeme} {m : Mark} {e : Expr}
    (d : Derives (before ++ .mark .comma :: .mark m :: after) e) (closes : m.closes = true) :
    EndsFilledArray before m := by
  have read := derives_iff_reads.1 d
  rw [State.reads_append] at read
  obtain ⟨s, first, read⟩ := Option.bind_eq_some_iff.1 read
  obtain ⟨next, comma, read⟩ := Option.bind_eq_some_iff.1 read
  obtain ⟨last, close, -⟩ := Option.bind_eq_some_iff.1 read
  obtain ⟨rfl, e, read, pending, rfl⟩ := next?_comma_closes comma close closes
  refine ⟨rfl, ?_⟩
  have lead := (leadsTo_of_reads first).next comma
  generalize eq : before ++ [.mark .comma] = ls at lead
  cases lead with
  | operand h =>
    cases h with
    | array h items =>
      rcases items with ⟨-, none⟩ | ⟨init, rfl, items⟩
      · simp at none
      · refine ⟨_, init, _, ?_, items, fun xs e d => h.completable d⟩
        rw [← List.cons_append, ← List.append_assoc] at eq
        exact List.append_cancel_right eq

/-- A list of tokens is read as a program exactly if its lexemes derive the body of the program, and
they derive one body at most. A comma right before a closing mark is the trailing comma of an array
with elements. -/
theorem ofTokens_iff_derives (source : String) (tokens : List Token) :
    (∀ a, ofTokens source tokens = .ok a ↔
      ∃ e, a = .program e ∧ Derives (tokens.map Token.lexeme) e) ∧
    (∀ e e', Derives (tokens.map Token.lexeme) e → Derives (tokens.map Token.lexeme) e' →
      e = e') ∧
    (∀ before m after e, tokens.map Token.lexeme = before ++ .mark .comma :: .mark m :: after →
      m.closes = true → Derives (tokens.map Token.lexeme) e → EndsFilledArray before m) := by
  refine ⟨fun a => ofTokens_eq_ok_iff_derives, fun e e' d d' => ?_, ?_⟩
  · have same := (derives_iff_reads.1 d).symm.trans (derives_iff_reads.1 d')
    cases same
    rfl
  · intro before m after e split closes d
    rw [split] at d
    exact endsFilledArray d closes

/-- `[x,]` is an array of one element. -/
theorem ofTokens_iff_derives_trailing :
    let tokens : List Token := [⟨.mark .openBracket, 0⟩, ⟨.word "x", 1⟩, ⟨.mark .comma, 2⟩,
      ⟨.mark .closeBracket, 3⟩]
    Derives (tokens.map Token.lexeme) (.array [.ident "x"]) ∧
      EndsFilledArray [.mark .openBracket, .word "x"] .closeBracket := by
  have read : ofTokens "[x,]" [⟨.mark .openBracket, 0⟩, ⟨.word "x", 1⟩, ⟨.mark .comma, 2⟩,
      ⟨.mark .closeBracket, 3⟩] = .ok (.program (.array [.ident "x"])) := rfl
  obtain ⟨accepts, -, trailing⟩ := ofTokens_iff_derives "[x,]"
    [⟨.mark .openBracket, 0⟩, ⟨.word "x", 1⟩, ⟨.mark .comma, 2⟩, ⟨.mark .closeBracket, 3⟩]
  obtain ⟨e, eq, d⟩ := (accepts _).1 read
  cases eq
  exact ⟨d, trailing [.mark .openBracket, .word "x"] .closeBracket [] _ rfl rfl d⟩

end Expr

end DataBinding
