import DataBinding.Expr.Grammar
import DataBinding.Expr.Parser

/-!
# Reading what the grammar derives

The reader holds what it has read as a stack of open constructs and a mode, and each lexeme leads to
one next state or to none. Here this is compared with the grammar, in both directions. A derivation
says how the states follow on each other: whatever is open, the lexemes of an expression lead from
the place of an operand to the expression, with the same constructs open. Conversely a state says
how the lexemes read so far are built: each open construct has its finished parts, derived from the
lexemes between its own mark and the next one.

## Main definitions

* `State.reads` — the state after several lexemes
* `Opens` — the lexemes behind a stack of open constructs
* `State.Follows` — the lexemes behind a state

## Main results

* `Derives.reads` — what is derived is read
* `State.Follows.next` — each lexeme keeps the relation between lexemes and state
* `derives_iff_reads` — the grammar derives exactly what is read to the end
-/

namespace DataBinding

namespace Parser.State

/-- The state after several lexemes, if each of them can come where it stands. -/
def reads (s : State) : List Lexeme → Option State
  | [] => some s
  | l :: rest => (s.next? l).bind fun next => next.reads rest

@[simp] theorem reads_nil (s : State) : s.reads [] = some s := rfl

theorem reads_cons {s next : State} {l : Lexeme} (h : s.next? l = some next)
    (rest : List Lexeme) : s.reads (l :: rest) = next.reads rest := by
  rw [reads, h, Option.bind_some]

theorem reads_append (s : State) (ls rest : List Lexeme) :
    s.reads (ls ++ rest) = (s.reads ls).bind fun next => next.reads rest := by
  induction ls generalizing s with
  | nil => rfl
  | cons l ls ih =>
    rw [List.cons_append, reads, reads]
    cases s.next? l with
    | none => rfl
    | some next => exact ih next

theorem reads_append_of {s next : State} {ls : List Lexeme} (h : s.reads ls = some next)
    (rest : List Lexeme) : s.reads (ls ++ rest) = next.reads rest := by
  rw [reads_append, h, Option.bind_some]

/-- A run succeeds where all lexemes can come and nothing is missing behind the last one. -/
theorem run_eq_ok_iff {size : Nat} {s : State} {tokens : List Token} {e : Expr} :
    s.run size tokens = .ok e ↔
      ∃ last, s.reads (tokens.map Token.lexeme) = some last ∧ last.outcome = .ok e := by
  induction tokens generalizing s with
  | nil =>
    cases h : s.outcome <;> simp [run, h]
  | cons token rest ih =>
    cases h : s.next? token.lexeme <;> simp [run, reads, h, ih]

/-- Where an operand stands, a word is a keyword or a name. -/
theorem operandOfWord_spec (word : String) : Keyword word (operandOfWord word) ∨
    (∀ e, ¬Keyword word e) ∧ operandOfWord word = .ident word := by
  by_cases null : word = "null"
  · subst null
    exact .inl .null
  by_cases true : word = "true"
  · subst true
    exact .inl .true
  by_cases false : word = "false"
  · subst false
    exact .inl .false
  by_cases this : word = "this"
  · subst this
    exact .inl .this
  by_cases locals : word = "$locals"
  · subst locals
    exact .inl .locals
  refine .inr ⟨fun e keyword => ?_, by simp [operandOfWord, null, true, false, this, locals]⟩
  cases keyword <;> contradiction

theorem derives_operandOfWord (word : String) :
    Expr.Derives [.word word] (operandOfWord word) := by
  rcases operandOfWord_spec word with keyword | ⟨free, eq⟩
  · exact .keyword keyword
  · rw [eq]
    exact .ident free

theorem operandOfWord_keyword {word : String} {e : Expr} (h : Keyword word e) :
    operandOfWord word = e := by
  cases h <;> rfl

theorem operandOfWord_ident {name : String} (h : ∀ e, ¬Keyword name e) :
    operandOfWord name = .ident name := by
  rcases operandOfWord_spec name with keyword | ⟨_, eq⟩
  · exact absurd keyword (h _)
  · exact eq

end Parser.State

open DataBinding.Parser

namespace Expr

/-! ### What is derived is read -/

theorem next?_key {k : Lexeme} {key : Key} (h : Key.Spelled k key)
    (read : List (Key × Expr)) (pending : List Pending) :
    State.next? ⟨.key read, pending⟩ k = some ⟨.colon read key, pending⟩ := by
  cases h <;> rfl

mutual

/-- Whatever is open, the lexemes of an expression lead from the place of an operand to the
expression. -/
theorem Derives.reads : ∀ {ls : List Lexeme} {e : Expr}, Derives ls e →
    ∀ pending, State.reads ⟨.operand, pending⟩ ls = some ⟨.chain e, pending⟩
  | _, _, .number _ _, _ => rfl
  | _, _, .str _, _ => rfl
  | _, _, .keyword h, _ => by
    rw [State.reads_cons rfl, State.operandOfWord_keyword h, State.reads_nil]
  | _, _, .ident h, _ => by
    rw [State.reads_cons rfl, State.operandOfWord_ident h, State.reads_nil]
  | _, _, .emptyArray, _ => rfl
  | _, _, .array h, pending => by
    have items := h.reads .array pending (fun _ _ => rfl) .closeBracket
      (fun read => ⟨.chain (.array read.reverse), pending⟩) (fun _ _ => rfl) []
    rw [List.cons_append, State.reads_cons rfl, items, List.append_nil, List.reverse_reverse]
  | _, _, .arrayComma h, pending => by
    -- The comma stands where a bracket could, and leads back to the place of an operand.
    have items := h.reads .array pending (fun _ _ => rfl) .comma
      (fun read => ⟨.operand, .array read :: pending⟩) (fun _ _ => rfl) []
    have close := State.reads_append_of items [.mark .closeBracket]
    rw [List.append_assoc] at close
    rw [List.cons_append, State.reads_cons rfl]
    refine close.trans ?_
    rw [State.reads_cons rfl, List.append_nil, List.reverse_reverse, State.reads_nil]
  | _, _, .emptyObject, _ => rfl
  | _, _, .object h, pending => by
    rw [List.cons_append, State.reads_cons rfl, h.reads, List.append_nil, List.reverse_reverse]
  | _, _, .member h name, pending => by
    rw [State.reads_append_of (h.reads pending)]
    rfl
  | _, _, .index h k, pending => by
    rw [List.append_assoc, State.reads_append_of (h.reads pending), List.cons_append,
      State.reads_cons rfl, State.reads_append_of (k.reads _)]
    rfl
  | _, _, .emptyCall h, pending => by
    rw [State.reads_append_of (h.reads pending)]
    rfl
  | _, _, .call (e := e) h a, pending => by
    have items := a.reads (.call e) pending (fun _ _ => rfl) .closeParen
      (fun read => ⟨.chain (.call e read.reverse), pending⟩) (fun _ _ => rfl) []
    rw [List.append_assoc, State.reads_append_of (h.reads pending), List.cons_append,
      State.reads_cons rfl, items, List.append_nil, List.reverse_reverse]

/-- The lexemes of a list, and the mark behind it, lead from the place of an item to what the mark
makes of all items, `read` being those read before, in reverse. -/
theorem DerivesList.reads : ∀ {ls : List Lexeme} {es : List Expr}, DerivesList ls es →
    ∀ (opened : List Expr → Pending) (pending : List Pending),
    (∀ e read, State.next? ⟨.chain e, opened read :: pending⟩ (.mark .comma) =
      some ⟨.operand, opened (e :: read) :: pending⟩) →
    ∀ (m : Mark) (after : List Expr → State),
    (∀ e read, State.next? ⟨.chain e, opened read :: pending⟩ (.mark m) =
      some (after (e :: read))) →
    ∀ read, State.reads ⟨.operand, opened read :: pending⟩ (ls ++ [.mark m]) =
      some (after (es.reverse ++ read))
  | _, _, .single h, opened, pending, _, m, after, close, read => by
    rw [State.reads_append_of (h.reads _), State.reads_cons (close _ _)]
    rfl
  | _, _, .cons h t, opened, pending, comma, m, after, close, read => by
    rw [List.append_assoc, State.reads_append_of (h.reads _), List.cons_append,
      State.reads_cons (comma _ _), t.reads opened pending comma m after close]
    simp

theorem DerivesProperties.reads : ∀ {ls : List Lexeme} {ps : List (Key × Expr)},
    DerivesProperties ls ps → ∀ (pending : List Pending) (read : List (Key × Expr)),
    State.reads ⟨.key read, pending⟩ (ls ++ [.mark .closeBrace]) =
      some ⟨.chain (.object (ps.reverse ++ read).reverse), pending⟩
  | _, _, .single s h, pending, read => by
    rw [List.cons_append, State.reads_cons (next?_key s _ _), List.cons_append,
      State.reads_cons rfl, State.reads_append_of (h.reads _)]
    rfl
  | _, _, .cons s h t, pending, read => by
    simp only [List.cons_append, List.append_assoc]
    rw [State.reads_cons (next?_key s _ _), State.reads_cons rfl, State.reads_append_of (h.reads _),
      State.reads_cons rfl, t.reads]
    simp

end

/-! ### What is read is derived -/

/-- The lexemes spell items with a comma behind each of them, `Spell` being how one or more items
are spelled with commas between them. -/
def Items {α : Type} (Spell : List Lexeme → List α → Prop) (ls : List Lexeme) (items : List α) :
    Prop :=
  ls = [] ∧ items = [] ∨ ∃ init, ls = init ++ [.mark .comma] ∧ Spell init items

theorem DerivesList.snoc : ∀ {ls : List Lexeme} {es : List Expr}, DerivesList ls es →
    ∀ {xs : List Lexeme} {e : Expr}, Derives xs e →
    DerivesList (ls ++ .mark .comma :: xs) (es ++ [e])
  | _, _, .single h, _, _, last => .cons h (.single last)
  | _, _, .cons h t, xs, e, last => by
    rw [List.append_assoc]
    exact .cons h (t.snoc last)

theorem DerivesProperties.snoc : ∀ {ls : List Lexeme} {ps : List (Key × Expr)},
    DerivesProperties ls ps → ∀ {k : Lexeme} {key : Key} {xs : List Lexeme} {e : Expr},
    Key.Spelled k key → Derives xs e →
    DerivesProperties (ls ++ .mark .comma :: k :: .mark .colon :: xs) (ps ++ [(key, e)])
  | _, _, .single s h, _, _, _, _, s', last => .cons s h (.single s' last)
  | _, _, .cons s h t, _, _, _, _, s', last => by
    rw [List.append_assoc]
    exact .cons s h (t.snoc s' last)

/-- Another item behind those that are there completes a list. -/
theorem Items.list {xs ys : List Lexeme} {es : List Expr} {e : Expr}
    (items : Items DerivesList xs es) (last : Derives ys e) :
    DerivesList (xs ++ ys) (es ++ [e]) := by
  rcases items with ⟨rfl, rfl⟩ | ⟨init, rfl, items⟩
  · exact .single last
  · rw [List.append_assoc]
    exact items.snoc last

theorem Items.properties {xs ys : List Lexeme} {ps : List (Key × Expr)} {k : Lexeme} {key : Key}
    {e : Expr} (items : Items DerivesProperties xs ps) (s : Key.Spelled k key)
    (last : Derives ys e) :
    DerivesProperties (xs ++ k :: .mark .colon :: ys) (ps ++ [(key, e)]) := by
  rcases items with ⟨rfl, rfl⟩ | ⟨init, rfl, items⟩
  · exact .single s last
  · rw [List.append_assoc]
    exact items.snoc s last

theorem DerivesList.ne_nil {ls : List Lexeme} {es : List Expr} (h : DerivesList ls es) :
    es ≠ [] := by
  cases h <;> exact List.cons_ne_nil _ _

/-- The lexemes open the constructs of a stack and spell their finished parts. -/
inductive Opens : List Lexeme → List Pending → Prop where
  | nil : Opens [] []
  | array {ls xs : List Lexeme} {pending : List Pending} {read : List Expr}
    (h : Opens ls pending) (items : Items DerivesList xs read.reverse) :
    Opens (ls ++ .mark .openBracket :: xs) (.array read :: pending)
  | object {ls xs : List Lexeme} {pending : List Pending} {read : List (Key × Expr)} {k : Lexeme}
    {key : Key} (h : Opens ls pending) (items : Items DerivesProperties xs read.reverse)
    (s : Key.Spelled k key) :
    Opens (ls ++ .mark .openBrace :: (xs ++ [k, .mark .colon])) (.object read key :: pending)
  | index {ls xs : List Lexeme} {pending : List Pending} {e : Expr} (h : Opens ls pending)
    (d : Derives xs e) : Opens (ls ++ (xs ++ [.mark .openBracket])) (.index e :: pending)
  | call {ls xs ys : List Lexeme} {pending : List Pending} {e : Expr} {read : List Expr}
    (h : Opens ls pending) (d : Derives xs e) (items : Items DerivesList ys read.reverse) :
    Opens (ls ++ (xs ++ .mark .openParen :: ys)) (.call e read :: pending)

/-- The lexemes lead to the state: they open its constructs, and spell what its mode holds. -/
inductive LeadsTo : List Lexeme → State → Prop where
  | operand {ls : List Lexeme} {pending : List Pending} (h : Opens ls pending) :
    LeadsTo ls ⟨.operand, pending⟩
  | chain {ls xs : List Lexeme} {pending : List Pending} {e : Expr} (h : Opens ls pending)
    (d : Derives xs e) : LeadsTo (ls ++ xs) ⟨.chain e, pending⟩
  | name {ls xs : List Lexeme} {pending : List Pending} {e : Expr} (h : Opens ls pending)
    (d : Derives xs e) : LeadsTo (ls ++ (xs ++ [.mark .dot])) ⟨.name e, pending⟩
  | key {ls xs : List Lexeme} {pending : List Pending} {read : List (Key × Expr)}
    (h : Opens ls pending) (items : Items DerivesProperties xs read.reverse) :
    LeadsTo (ls ++ .mark .openBrace :: xs) ⟨.key read, pending⟩
  | colon {ls xs : List Lexeme} {pending : List Pending} {read : List (Key × Expr)} {k : Lexeme}
    {key : Key} (h : Opens ls pending) (items : Items DerivesProperties xs read.reverse)
    (s : Key.Spelled k key) :
    LeadsTo (ls ++ .mark .openBrace :: (xs ++ [k])) ⟨.colon read key, pending⟩

/-- A bracket where an item of an array may come ends the array. -/
theorem Items.closeArray {xs : List Lexeme} {es : List Expr} (items : Items DerivesList xs es) :
    Derives (.mark .openBracket :: xs ++ [.mark .closeBracket]) (.array es) := by
  rcases items with ⟨rfl, rfl⟩ | ⟨init, rfl, items⟩
  · exact .emptyArray
  · have done := Derives.arrayComma items
    simpa using done

theorem leadsTo_operand? {ls : List Lexeme} {pending : List Pending} {l : Lexeme} {next : State}
    (h : Opens ls pending) (step : State.operand? pending l = some next) :
    LeadsTo (ls ++ [l]) next := by
  unfold State.operand? at step
  split at step
  · -- An array begins.
    cases step
    exact .operand (.array h (.inl ⟨rfl, rfl⟩))
  · -- An object begins.
    cases step
    exact .key h (.inl ⟨rfl, rfl⟩)
  · -- An array ends, empty or behind a comma.
    split at step
    · cases step
      cases h with
      | array h items =>
        rw [List.append_assoc]
        exact .chain h items.closeArray
    · cases step
  · -- A call without arguments ends.
    split at step
    · cases step
      cases h with
      | call h d items =>
        rcases items with ⟨rfl, _⟩ | ⟨_, _, items⟩
        · simpa using LeadsTo.chain h d.emptyCall
        · exact absurd rfl items.ne_nil
    · cases step
  · cases step
  · cases step
    exact .chain h (State.derives_operandOfWord _)
  · cases step
    exact .chain h (.number _ _)
  · cases step
    exact .chain h (.str _)

theorem leadsTo_close? {ls xs : List Lexeme} {pending : List Pending} {e : Expr} {m : Mark}
    {next : State} (h : Opens ls pending) (d : Derives xs e)
    (step : State.close? e pending m = some next) : LeadsTo (ls ++ xs ++ [.mark m]) next := by
  unfold State.close? at step
  split at step
  · -- An element of an array is done.
    cases step
    cases h with
    | array h items =>
      have more := items.list d
      rw [← List.reverse_cons] at more
      simpa using LeadsTo.operand (.array h (.inr ⟨_, rfl, more⟩))
  · -- An array ends behind an element.
    cases step
    cases h with
    | array h items =>
      have done := Derives.array (items.list d)
      simpa using LeadsTo.chain h done
  · -- A property is done.
    cases step
    cases h with
    | object h items s =>
      have more := items.properties s d
      rw [← List.reverse_cons] at more
      simpa using LeadsTo.key h (.inr ⟨_, rfl, more⟩)
  · -- An object ends behind a property.
    cases step
    cases h with
    | object h items s =>
      have done := Derives.object (items.properties s d)
      simpa using LeadsTo.chain h done
  · -- A computed access ends.
    cases step
    cases h with
    | index h object =>
      simpa using LeadsTo.chain h (object.index d)
  · -- An argument of a call is done.
    cases step
    cases h with
    | call h callee items =>
      have more := items.list d
      rw [← List.reverse_cons] at more
      simpa using LeadsTo.operand (.call h callee (.inr ⟨_, rfl, more⟩))
  · -- A call ends behind an argument.
    cases step
    cases h with
    | call h callee items =>
      have done := callee.call (items.list d)
      simpa using LeadsTo.chain h done
  · cases step

theorem leadsTo_chain? {ls xs : List Lexeme} {pending : List Pending} {e : Expr} {l : Lexeme}
    {next : State} (h : Opens ls pending) (d : Derives xs e)
    (step : State.chain? e pending l = some next) : LeadsTo (ls ++ xs ++ [l]) next := by
  unfold State.chain? at step
  split at step
  · -- A name has to come behind the point.
    cases step
    simpa using LeadsTo.name h d
  · -- A computed access begins.
    cases step
    simpa using LeadsTo.operand (.index h d)
  · -- A call begins.
    cases step
    have empty : Items DerivesList [] [].reverse := .inl ⟨rfl, rfl⟩
    simpa using LeadsTo.operand (.call h d empty)
  · exact leadsTo_close? h d step
  · cases step

theorem leadsTo_key? {ls xs : List Lexeme} {pending : List Pending} {read : List (Key × Expr)}
    {l : Lexeme} {next : State} (h : Opens ls pending)
    (items : Items DerivesProperties xs read.reverse)
    (step : State.key? read pending l = some next) :
    LeadsTo (ls ++ .mark .openBrace :: xs ++ [l]) next := by
  unfold State.key? at step
  split at step
  · -- An object ends, which has no properties here.
    split at step
    · cases step
      rcases items with ⟨rfl, _⟩ | ⟨_, _, items⟩
      · simpa using LeadsTo.chain h .emptyObject
      · cases items
    · cases step
  · cases step
  · cases step
    simpa using LeadsTo.colon h items (.name _)
  · cases step
    simpa using LeadsTo.colon h items (.number _ _)
  · cases step
    simpa using LeadsTo.colon h items (.str _)

/-- Each lexeme that can come next leads on to the next state. -/
theorem LeadsTo.next {ls : List Lexeme} {s next : State} {l : Lexeme} (h : LeadsTo ls s)
    (step : s.next? l = some next) : LeadsTo (ls ++ [l]) next := by
  cases h with
  | operand h => exact leadsTo_operand? h step
  | chain h d => exact leadsTo_chain? h d step
  | name h d =>
    simp only [State.next?] at step
    split at step
    · cases step
      simpa using LeadsTo.chain h (d.member _)
    · cases step
  | key h items => exact leadsTo_key? h items step
  | colon h items s =>
    simp only [State.next?] at step
    split at step
    · cases step
      simpa using LeadsTo.operand (.object h items s)
    · cases step

theorem LeadsTo.reads {ls xs : List Lexeme} {s last : State} (h : LeadsTo ls s)
    (read : s.reads xs = some last) : LeadsTo (ls ++ xs) last := by
  induction xs generalizing ls s with
  | nil =>
    cases read
    simpa using h
  | cons l rest ih =>
    obtain ⟨next, step, read⟩ := Option.bind_eq_some_iff.1 read
    simpa using ih (h.next step) read

/-- Whatever has been read from the start leads to the state. -/
theorem leadsTo_of_reads {ls : List Lexeme} {s : State} (read : State.start.reads ls = some s) :
    LeadsTo ls s :=
  (LeadsTo.operand .nil).reads read

/-- The grammar derives exactly what is read to the end. -/
theorem derives_iff_reads {ls : List Lexeme} {e : Expr} :
    Derives ls e ↔ State.start.reads ls = some ⟨.chain e, []⟩ := by
  constructor
  · intro h
    exact h.reads []
  · intro read
    cases leadsTo_of_reads read with
    | chain h d =>
      cases h
      exact d

theorem outcome_eq_ok_iff {s : State} {a : Expr} :
    s.outcome = .ok a ↔ ∃ e, s = ⟨.chain e, []⟩ ∧ a = .program e := by
  obtain ⟨mode, pending⟩ := s
  constructor
  · intro h
    simp only [State.outcome] at h
    split at h <;> cases h
    exact ⟨_, rfl, rfl⟩
  · rintro ⟨e, eq, rfl⟩
    cases eq
    rfl

/-- What a list of tokens is read as is what the grammar derives from its lexemes. -/
theorem ofTokens_eq_ok_iff_derives {source : String} {tokens : List Token} {a : Expr} :
    ofTokens source tokens = .ok a ↔
      ∃ e, a = .program e ∧ Derives (tokens.map Token.lexeme) e := by
  have run : ofTokens source tokens = .ok a ↔
      State.start.run (byteSize source.toList) tokens = .ok a := by
    unfold ofTokens
    cases State.start.run (byteSize source.toList) tokens with
    | error fault => exact ⟨nofun, nofun⟩
    | ok e =>
      change Except.ok e = Except.ok a ↔ _
      rw [Except.ok.injEq, Except.ok.injEq]
  rw [run, State.run_eq_ok_iff]
  simp only [derives_iff_reads, outcome_eq_ok_iff]
  constructor
  · rintro ⟨last, read, e, rfl, rfl⟩
    exact ⟨e, rfl, read⟩
  · rintro ⟨e, rfl, read⟩
    exact ⟨_, read, e, rfl, rfl⟩

end Expr

end DataBinding
