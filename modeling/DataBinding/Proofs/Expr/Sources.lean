import DataBinding.Proofs.Expr.Printing

/-!
# What has a source

The expressions that sources spell are the programs around readable expressions. The text of an
expression does not always read back, but its lexemes have a source: with a numeral for each number
that can be read, and with a blank behind each lexeme.

## Main definitions

* `Number.numeral` — a numeral that denotes the number
* `Lexeme.spelled`, `Lexeme.spelling` — the lexeme with that numeral, and what spells it
* `spread` — a source of lexemes, with blanks between them

## Main results

* `lexemes?_spread` — the lexemes of that source
* `Expr.Derives.lexemes_readable` — the lexemes of what is readable are readable
* `Expr.exists_ofSource_iff` — the expressions that have a source
-/

namespace DataBinding

open DataBinding.Parser

/-! ### Lexemes -/

/-- A numeral that denotes the number, if one does. The infinity is what large numbers are rounded
to. -/
def Number.numeral : Number → List Char
  | infinity _ => ['1', 'e', '9', '9', '9']
  | n => n.chars

/-- The lexeme as it is going to be spelled: a number by its numeral. -/
def Lexeme.spelled : Lexeme → Lexeme
  | number _ value => number (String.ofList value.numeral) value
  | l => l

/-- What spells the lexeme in front of a blank. -/
def Lexeme.spelling : Lexeme → List Char
  | mark m => [m.char]
  | word name => name.toList
  | number _ value => value.numeral
  | str value => Literal.quoted value

/-- The lexemes, each with a blank behind it. -/
def spread : List Lexeme → List Char
  | [] => []
  | l :: ls => l.spelling ++ ' ' :: spread ls

theorem reads_numeral {n : Number} (ok : n.isUnsigned = true) (rest : List Char) :
    Reads n.numeral (' ' :: rest) [.number (String.ofList n.numeral) n] := by
  rcases Number.eq_infinity_or_finite ok with rfl | ⟨x, rfl⟩
  · have numeral : Decimal.Numeral ['1', 'e', '9', '9', '9'] ⟨1, 999⟩ :=
      Decimal.ofNumeral?_eq_some_iff.1 (by decide)
    exact lexemes?_numeral numeral rfl
  · exact reads_magnitude x rfl

/-- The spelling of a readable lexeme is read as the lexeme. -/
theorem Lexeme.Readable.reads {l : Lexeme} (ok : l.Readable) (rest : List Char) :
    Reads l.spelling (' ' :: rest) [l.spelled] := by
  cases l with
  | mark m => exact lexemes?_mark m fun _ => rfl
  | word name =>
    have read : lexemes? (name.toList ++ ' ' :: rest) = _ := lexemes?_isWord ok rfl
    rwa [String.ofList_toList] at read
  | number spelling value => exact reads_numeral ok rest
  | str value => exact lexemes?_quoted value _

theorem lexemes?_spread {ls : List Lexeme} (ok : ∀ l ∈ ls, l.Readable) :
    lexemes? (spread ls) = some (ls.map Lexeme.spelled) := by
  induction ls with
  | nil => exact lexemes?_nil
  | cons l ls ih =>
    obtain ⟨first, others⟩ := List.forall_mem_cons.1 ok
    rw [spread, first.reads, lexemes?_blank rfl, ih others]
    rfl

/-! ### Expressions -/

/-- The reader does not look at the spelling of a number. -/
theorem Parser.State.next?_spelled (s : State) (l : Lexeme) : s.next? l.spelled = s.next? l := by
  obtain ⟨mode, pending⟩ := s
  cases l <;> cases mode <;> rfl

theorem Parser.State.reads_map_spelled (s : State) (ls : List Lexeme) :
    s.reads (ls.map Lexeme.spelled) = s.reads ls := by
  induction ls generalizing s with
  | nil => rfl
  | cons l ls ih =>
    rw [List.map_cons, reads, reads, next?_spelled]
    exact congrArg _ (funext ih)

namespace Expr

/-- What lexemes derive does not depend on the spellings of numbers. -/
theorem derives_map_spelled {ls : List Lexeme} {e : Expr} :
    Derives (ls.map Lexeme.spelled) e ↔ Derives ls e := by
  rw [derives_iff_reads, derives_iff_reads, State.reads_map_spelled]

end Expr

theorem Key.Spelled.lexeme_readable {l : Lexeme} {key : Key} (h : Key.Spelled l key)
    (ok : key.Readable) : l.Readable := by
  cases h <;> exact ok

theorem Keyword.lexeme_readable {word : String} {e : Expr} (h : Keyword word e) :
    (Lexeme.word word).Readable := by
  cases h <;> rfl

namespace Expr

mutual

/-- The lexemes of what is readable are readable. -/
theorem Derives.lexemes_readable {ls : List Lexeme} {e : Expr} (h : Derives ls e)
    (ok : AllReadable e.nodes) : ∀ l ∈ ls, l.Readable := by
  cases h with
  | number spelling value =>
    have unsigned : value.isUnsigned = true := (allReadable_cons.1 ok).1
    simpa using unsigned
  | str value => simp
  | keyword h => simpa using h.lexeme_readable
  | ident h => simpa using (allReadable_cons.1 ok).1.1
  | emptyArray => simp
  | array h =>
    have elements := h.lexemes_readable (allReadable_cons.1 ok).2
    simpa [or_imp, forall_and] using elements
  | arrayComma h =>
    have elements := h.lexemes_readable (allReadable_cons.1 ok).2
    simpa [or_imp, forall_and] using elements
  | emptyObject => simp
  | object h =>
    obtain ⟨keys, values⟩ := allReadable_cons.1 ok
    have properties := h.lexemes_readable keys values
    simpa [or_imp, forall_and] using properties
  | member h name =>
    obtain ⟨word, object⟩ := allReadable_cons.1 ok
    have object := h.lexemes_readable object
    simpa [or_imp, forall_and] using ⟨object, word⟩
  | index h k =>
    obtain ⟨object, key⟩ := allReadable_append.1 (allReadable_cons.1 ok).2
    have object := h.lexemes_readable object
    have key := k.lexemes_readable key
    simpa [or_imp, forall_and] using ⟨object, key⟩
  | emptyCall h =>
    obtain ⟨callee, -⟩ := allReadable_append.1 (allReadable_cons.1 ok).2
    have callee := h.lexemes_readable callee
    simpa [or_imp, forall_and] using callee
  | call h a =>
    obtain ⟨callee, args⟩ := allReadable_append.1 (allReadable_cons.1 ok).2
    have callee := h.lexemes_readable callee
    have args := a.lexemes_readable args
    simpa [or_imp, forall_and] using ⟨callee, args⟩

theorem DerivesList.lexemes_readable {ls : List Lexeme} {es : List Expr} (h : DerivesList ls es)
    (ok : AllReadable (nodesList es)) : ∀ l ∈ ls, l.Readable := by
  cases h with
  | single h => exact h.lexemes_readable (allReadable_append.1 ok).1
  | cons h t =>
    obtain ⟨first, others⟩ := allReadable_append.1 ok
    have first := h.lexemes_readable first
    have others := t.lexemes_readable others
    simpa [or_imp, forall_and] using ⟨first, others⟩

theorem DerivesProperties.lexemes_readable {ls : List Lexeme} {ps : List (Key × Expr)}
    (h : DerivesProperties ls ps) (keys : ∀ p ∈ ps, p.1.Readable)
    (values : AllReadable (nodesProperties ps)) : ∀ l ∈ ls, l.Readable := by
  cases h with
  | single s h =>
    have key := s.lexeme_readable (keys _ List.mem_cons_self)
    have value := h.lexemes_readable (allReadable_append.1 values).1
    simpa using ⟨key, value⟩
  | cons s h t =>
    obtain ⟨key, keys⟩ := List.forall_mem_cons.1 keys
    obtain ⟨value, values⟩ := allReadable_append.1 values
    have key := s.lexeme_readable key
    have value := h.lexemes_readable value
    have others := t.lexemes_readable keys values
    simpa [or_imp, forall_and] using ⟨key, value, others⟩

end

/-- The expressions that sources spell are the programs around readable expressions. -/
theorem exists_ofSource_iff (e : Expr) :
    (∃ source, ofSource source = .ok e) ↔ ∃ body, e = program body ∧ AllReadable body.nodes := by
  constructor
  · rintro ⟨source, read⟩
    exact ofSource_readable read
  · rintro ⟨body, rfl, ok⟩
    have d := derives_lexemes body ok
    refine ⟨String.ofList (spread body.lexemes), ofSource_eq_ok_iff.2 ⟨_, body, ?_,
      derives_map_spelled.2 d, rfl⟩⟩
    rw [String.toList_ofList]
    exact lexemes?_spread (d.lexemes_readable ok)

end Expr

end DataBinding
