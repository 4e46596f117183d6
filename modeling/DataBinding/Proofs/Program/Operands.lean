import DataBinding.Proofs.Expr.Printing
import DataBinding.Proofs.Program.CodeString

/-!
# Operands as expressions

The text of an operand is also the text of an expression. Lists, maps and literals are written as
such, but an infinite number is written as a name, and so are temporaries, the context and the
locals. What the text spells determines the operand, so operands can be told apart by their texts.

## Main definitions

* `Operand.literals`, `AllSpellable` — the literals of an operand, and those that a source can spell
* `Operand.spelled` — the expression that the text of an operand spells
* `Operand.ofSpelled` — the operand whose text spells an expression
* `Stops` — a text with which neither a word nor a number goes on

## Main results

* `Operand.reads_chars` — the text of an operand is cut into the lexemes of what it spells
* `Operand.spelled_readable` — what the text spells can be read from a source
* `Operand.ofSpelled_spelled` — what the text spells determines the operand
-/

namespace DataBinding

/-! ### Literals -/

/-- The values are those of literals that a source can spell. -/
def AllSpellable (values : List Value) : Prop :=
  ∀ v ∈ values, ∃ l : Literal, l.Readable ∧ v = .ofLiteral l

@[simp] theorem allSpellable_nil : AllSpellable [] := by simp [AllSpellable]

@[simp] theorem allSpellable_append {vs vs' : List Value} :
    AllSpellable (vs ++ vs') ↔ AllSpellable vs ∧ AllSpellable vs' := by
  simp [AllSpellable, or_imp, forall_and]

theorem allSpellable_singleton {v : Value} :
    AllSpellable [v] ↔ ∃ l : Literal, l.Readable ∧ v = .ofLiteral l := by
  simp [AllSpellable]

namespace Operand

mutual

/-- The literals that occur in the operand, from left to right. -/
def literals : Operand → List Value
  | literal value => [value]
  | temp _ => []
  | context => []
  | locals => []
  | list elements => literalsList elements
  | map entries => literalsEntries entries

/-- The literals that occur in several operands. -/
def literalsList : List Operand → List Value
  | [] => []
  | o :: rest => literals o ++ literalsList rest

/-- The literals that occur in the entries of a map. -/
def literalsEntries : List (String × Operand) → List Value
  | [] => []
  | (_, o) :: rest => literals o ++ literalsEntries rest

end

end Operand

/-! ### What texts spell -/

/-- The expression that the text of a value spells. All that is no literal is taken for a name. -/
def Value.spelled : Value → Expr
  | null => .literal .null
  | bool b => .literal (.bool b)
  | str s => .literal (.str s)
  | number (.infinity negative) => .ident (Number.infinity negative).text
  | number n => .literal (.number n)
  | v => .ident v.text

/-- The key of an object that the text of a key spells. -/
def Key.ofText (key : String) : Key :=
  if isWord key.toList then .name key else .literal (.str key)

namespace Operand

mutual

/-- The expression that the text of an operand spells. -/
def spelled : Operand → Expr
  | literal value => value.spelled
  | temp id => .ident (String.ofList (tempChars id))
  | context => .ident "s"
  | locals => .ident "l"
  | list elements => .array (spelledList elements)
  | map entries => .object (spelledEntries entries)

/-- The expressions that the texts of several operands spell. -/
def spelledList : List Operand → List Expr
  | [] => []
  | o :: rest => spelled o :: spelledList rest

/-- The properties that the texts of the entries of a map spell. -/
def spelledEntries : List (String × Operand) → List (Key × Expr)
  | [] => []
  | (key, o) :: rest => (.ofText key, spelled o) :: spelledEntries rest

end

end Operand

@[simp] theorem Key.toKey_ofText (key : String) : (Key.ofText key).toKey = key := by
  unfold Key.ofText
  split <;> rfl

theorem Key.readable_ofText (key : String) : (Key.ofText key).Readable := by
  unfold Key.ofText
  split
  · rename_i word
    exact word
  · trivial

/-! ### Texts in front of others -/

/-- Neither a word nor a number goes on with the text. -/
structure Stops (rest : List Char) : Prop where
  word : rest.takeWhile isWordChar = []
  number : Recognized.numberTail false rest = ([], false)

theorem Stops.nil : Stops [] := ⟨rfl, rfl⟩

theorem Stops.cons {c : Char} (word : isWordChar c = false)
    (number : Recognized.isNumberChar c = false) (rest : List Char) : Stops (c :: rest) where
  word := List.takeWhile_cons_of_neg (by simp [word])
  number := by
    simp only [Recognized.isNumberChar, Bool.or_eq_false_iff] at number
    simp [Recognized.numberTail, number]

theorem Stops.mark (m : Mark) (h : m ≠ .dot) (rest : List Char) : Stops (m.char :: rest) := by
  cases m with
  | dot => exact absurd rfl h
  | _ => exact .cons rfl rfl rest

theorem commas_cons_cons (p q : List Char) (rest : List (List Char)) :
    commas (p :: q :: rest) = p ++ ',' :: commas (q :: rest) := by
  simp [commas, List.intercalate]

theorem isWord_tempChars (id : Nat) : isWord (tempChars id) = true := by
  have digits := Decimal.digits_toDigits id
  simp only [tempChars, isWord, Bool.and_eq_true, List.all_eq_true]
  exact ⟨rfl, fun c mem => by simp [isWordChar, digits c mem]⟩

theorem Stops.reads_word {rest : List Char} (stops : Stops rest) (word : String)
    (h : isWord word.toList = true) : Reads word.toList rest [.word word] := by
  have read : Reads word.toList rest [.word (String.ofList word.toList)] :=
    lexemes?_isWord h stops.word
  rwa [String.ofList_toList] at read

theorem reads_key (key : String) {rest : List Char} (stops : Stops rest) :
    Reads (Operand.keyChars key) rest [(Key.ofText key).lexeme] := by
  unfold Operand.keyChars Key.ofText
  split
  · rename_i word
    exact stops.reads_word key word
  · exact lexemes?_codeString key rest

theorem reads_value {l : Literal} (ok : l.Readable) {rest : List Char} (stops : Stops rest) :
    Reads (Value.ofLiteral l).codeChars rest (Value.ofLiteral l).spelled.lexemes := by
  cases l with
  | null => exact stops.reads_word "null" rfl
  | bool b => cases b <;> exact stops.reads_word _ rfl
  | str s => exact lexemes?_codeString s rest
  | number n =>
    -- Numbers of sources have no sign, so an infinite one is written as a word.
    obtain rfl | ⟨x, rfl⟩ := Number.eq_infinity_or_finite ok
    · exact stops.reads_word "Infinity" rfl
    · exact reads_magnitude x stops.number

namespace Operand

mutual

/-- The text of an operand is cut into the lexemes of the expression that it spells. -/
theorem reads_chars (o : Operand) (ok : AllSpellable o.literals) {rest : List Char}
    (stops : Stops rest) : Reads o.chars rest o.spelled.lexemes := by
  cases o with
  | literal value =>
    obtain ⟨l, readable, rfl⟩ := allSpellable_singleton.1 ok
    exact reads_value readable stops
  | temp id =>
    have read : Reads (tempChars id) rest [.word (String.ofList (tempChars id))] :=
      lexemes?_isWord (isWord_tempChars id) stops.word
    exact read
  | context => exact stops.reads_word "s" rfl
  | locals => exact stops.reads_word "l" rfl
  | list elements =>
    have close := Reads.mark .closeBracket (by decide) (.nil rest)
    have items := reads_elementChars elements ok (.mark .closeBracket (by decide) rest)
    exact (items.append close).mark .openBracket (by decide)
  | map entries =>
    have close := Reads.mark .closeBrace (by decide) (.nil rest)
    have items := reads_entryChars entries ok (.mark .closeBrace (by decide) rest)
    exact (items.append close).mark .openBrace (by decide)

theorem reads_elementChars (os : List Operand) (ok : AllSpellable (literalsList os))
    {rest : List Char} (stops : Stops rest) :
    Reads (commas (elementChars os)) rest (Expr.joined (Expr.listLexemes (spelledList os))) := by
  cases os with
  | nil => exact .nil rest
  | cons o os =>
    obtain ⟨first_ok, more_ok⟩ := allSpellable_append.1 ok
    cases os with
    | nil =>
      have only := reads_chars o first_ok stops
      simpa [elementChars, spelledList, Expr.listLexemes, commas, Expr.joined] using only
    | cons o' os =>
      -- The comma stops the first element, and what follows the list stops the last one.
      have others := (reads_elementChars (o' :: os) more_ok stops).mark .comma (by decide)
      have first := fun more => reads_chars o first_ok (.mark .comma (by decide) more)
      rw [elementChars, elementChars, commas_cons_cons, spelledList, spelledList,
        Expr.listLexemes, Expr.listLexemes, Expr.joined_cons_cons]
      exact (first _).append others

theorem reads_entryChars (os : List (String × Operand)) (ok : AllSpellable (literalsEntries os))
    {rest : List Char} (stops : Stops rest) :
    Reads (commas (entryChars os)) rest
      (Expr.joined (Expr.propertyLexemes (spelledEntries os))) := by
  cases os with
  | nil => exact .nil rest
  | cons entry os =>
    obtain ⟨key, o⟩ := entry
    obtain ⟨first_ok, more_ok⟩ := allSpellable_append.1 ok
    -- A key and its value, in front of a comma or of what follows the last entry.
    have first : ∀ {rest}, Stops rest → Reads (keyChars key ++ ':' :: chars o) rest
        ((Key.ofText key).lexeme :: .mark .colon :: o.spelled.lexemes) := by
      intro rest stops
      have value := (reads_chars o first_ok stops).mark .colon (by decide)
      exact (reads_key key (.mark .colon (by decide) _)).append value
    cases os with
    | nil =>
      simpa [entryChars, spelledEntries, Expr.propertyLexemes, commas, Expr.joined]
        using first stops
    | cons entry' os =>
      have others := (reads_entryChars (entry' :: os) more_ok stops).mark .comma (by decide)
      have both := (first (.mark .comma (by decide) _)).append others
      rw [entryChars, entryChars, commas_cons_cons, spelledEntries, spelledEntries,
        Expr.propertyLexemes, Expr.propertyLexemes, Expr.joined_cons_cons]
      exact both

end

end Operand

/-! ### What is spelled can be read -/

theorem not_keyword {name : String} (h : name ∉ ["null", "true", "false", "this", "$locals"])
    (e : Expr) : ¬Keyword name e := by
  intro keyword
  cases keyword <;> exact h (by decide)

theorem tempChars_ne {name : String} (h : name.toList.head? ≠ some 'v') (id : Nat) :
    String.ofList (tempChars id) ≠ name := by
  rintro rfl
  rw [String.toList_ofList] at h
  exact h rfl

theorem not_keyword_tempChars (id : Nat) (e : Expr) :
    ¬Keyword (String.ofList (tempChars id)) e := by
  refine not_keyword (fun mem => ?_) e
  have letters : ∀ name ∈ ["null", "true", "false", "this", "$locals"],
      name.toList.head? ≠ some 'v' := by decide
  exact tempChars_ne (letters _ mem) id rfl

theorem Expr.allReadable_ident {name : String} (h : isWord name.toList = true)
    (keyword : ∀ e, ¬Keyword name e) : AllReadable (ident name).nodes := by
  simpa [nodes, Readable, h] using keyword

theorem readable_value {l : Literal} (ok : l.Readable) :
    Expr.AllReadable (Value.ofLiteral l).spelled.nodes := by
  cases l with
  | null => simp [Value.ofLiteral, Value.spelled, Expr.nodes, Expr.Readable, Literal.Readable]
  | bool b => simp [Value.ofLiteral, Value.spelled, Expr.nodes, Expr.Readable, Literal.Readable]
  | str s => simp [Value.ofLiteral, Value.spelled, Expr.nodes, Expr.Readable, Literal.Readable]
  | number n =>
    obtain rfl | ⟨x, rfl⟩ := Number.eq_infinity_or_finite ok
    · exact Expr.allReadable_ident rfl (not_keyword (by decide))
    · exact Expr.allReadable_cons.2 ⟨ok, Expr.allReadable_nil⟩

namespace Operand

mutual

/-- What the text of an operand spells can be read from a source. -/
theorem spelled_readable (o : Operand) (ok : AllSpellable o.literals) :
    Expr.AllReadable o.spelled.nodes := by
  cases o with
  | literal value =>
    obtain ⟨l, readable, rfl⟩ := allSpellable_singleton.1 ok
    exact readable_value readable
  | temp id =>
    refine Expr.allReadable_ident ?_ (not_keyword_tempChars id)
    rw [String.toList_ofList]
    exact isWord_tempChars id
  | context => exact Expr.allReadable_ident rfl (not_keyword (by decide))
  | locals => exact Expr.allReadable_ident rfl (not_keyword (by decide))
  | list elements =>
    exact Expr.allReadable_cons.2 ⟨trivial, spelledList_readable elements ok⟩
  | map entries =>
    obtain ⟨keys, values⟩ := spelledEntries_readable entries ok
    exact Expr.allReadable_cons.2 ⟨keys, values⟩

theorem spelledList_readable (os : List Operand) (ok : AllSpellable (literalsList os)) :
    Expr.AllReadable (Expr.nodesList (spelledList os)) := by
  cases os with
  | nil => exact Expr.allReadable_nil
  | cons o os =>
    obtain ⟨first, more⟩ := allSpellable_append.1 ok
    exact Expr.allReadable_append.2 ⟨spelled_readable o first, spelledList_readable os more⟩

theorem spelledEntries_readable (os : List (String × Operand))
    (ok : AllSpellable (literalsEntries os)) :
    (∀ p ∈ spelledEntries os, p.1.Readable) ∧
      Expr.AllReadable (Expr.nodesProperties (spelledEntries os)) := by
  cases os with
  | nil => exact ⟨by simp [spelledEntries], Expr.allReadable_nil⟩
  | cons entry os =>
    obtain ⟨key, o⟩ := entry
    obtain ⟨first, more⟩ := allSpellable_append.1 ok
    obtain ⟨keys, values⟩ := spelledEntries_readable os more
    exact ⟨List.forall_mem_cons.2 ⟨Key.readable_ofText key, keys⟩,
      Expr.allReadable_append.2 ⟨spelled_readable o first, values⟩⟩

end

/-- The text of an operand is a source of the program around what it spells. -/
theorem ofSource_text {o : Operand} (ok : AllSpellable o.literals) :
    Expr.ofSource o.text = .ok (.program o.spelled) := by
  have read := (reads_chars o ok .nil).lexemes?_eq
  refine Expr.ofSource_eq_ok_iff.2 ⟨_, _, ?_, Expr.derives_lexemes _ (spelled_readable o ok), rfl⟩
  rw [text, String.toList_ofList, read]

/-! ### The operand that is spelled -/

mutual

/-- The operand whose text spells the expression, if there is one. -/
def ofSpelled : Expr → Operand
  | .literal l => literal (.ofLiteral l)
  | .ident name =>
    if name = "s" then context
    else if name = "l" then locals
    else if name = "Infinity" then literal (.number (.infinity false))
    else temp (Nat.ofDigitChars 10 name.toList.tail 0)
  | .array elements => list (ofSpelledList elements)
  | .object properties => map (ofSpelledProperties properties)
  | _ => context

def ofSpelledList : List Expr → List Operand
  | [] => []
  | e :: rest => ofSpelled e :: ofSpelledList rest

def ofSpelledProperties : List (Key × Expr) → List (String × Operand)
  | [] => []
  | (key, e) :: rest => (key.toKey, ofSpelled e) :: ofSpelledProperties rest

end

theorem ofSpelled_temp (id : Nat) : ofSpelled (.ident (String.ofList (tempChars id))) = temp id := by
  rw [ofSpelled, if_neg (tempChars_ne (by decide) id), if_neg (tempChars_ne (by decide) id),
    if_neg (tempChars_ne (by decide) id), String.toList_ofList, tempChars, List.tail_cons,
    Nat.ofDigitChars_ten_toDigits]

theorem ofSpelled_value {l : Literal} (ok : l.Readable) :
    ofSpelled (Value.ofLiteral l).spelled = literal (.ofLiteral l) := by
  cases l with
  | number n =>
    obtain rfl | ⟨x, rfl⟩ := Number.eq_infinity_or_finite ok
    · change ofSpelled (.ident "Infinity") = _
      simp [ofSpelled, Value.ofLiteral]
    · rfl
  | _ => rfl

mutual

/-- What the text of an operand spells determines the operand. -/
theorem ofSpelled_spelled (o : Operand) (ok : AllSpellable o.literals) :
    ofSpelled o.spelled = o := by
  cases o with
  | literal value =>
    obtain ⟨l, readable, rfl⟩ := allSpellable_singleton.1 ok
    exact ofSpelled_value readable
  | temp id => exact ofSpelled_temp id
  | context => rfl
  | locals => rfl
  | list elements => exact congrArg list (ofSpelledList_spelledList elements ok)
  | map entries => exact congrArg map (ofSpelledProperties_spelledEntries entries ok)

theorem ofSpelledList_spelledList (os : List Operand) (ok : AllSpellable (literalsList os)) :
    ofSpelledList (spelledList os) = os := by
  cases os with
  | nil => rfl
  | cons o os =>
    obtain ⟨first, more⟩ := allSpellable_append.1 ok
    rw [spelledList, ofSpelledList, ofSpelled_spelled o first, ofSpelledList_spelledList os more]

theorem ofSpelledProperties_spelledEntries (os : List (String × Operand))
    (ok : AllSpellable (literalsEntries os)) : ofSpelledProperties (spelledEntries os) = os := by
  cases os with
  | nil => rfl
  | cons entry os =>
    obtain ⟨key, o⟩ := entry
    obtain ⟨first, more⟩ := allSpellable_append.1 ok
    rw [spelledEntries, ofSpelledProperties, Key.toKey_ofText, ofSpelled_spelled o first,
      ofSpelledProperties_spelledEntries os more]

end

end Operand

end DataBinding
