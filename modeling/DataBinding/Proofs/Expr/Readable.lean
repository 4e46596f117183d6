import DataBinding.Proofs.Expr.Acceptance
import DataBinding.Proofs.Expr.Nodes
import DataBinding.Proofs.Token.Lexemes

/-!
# What a source can spell

No source spells a negative number, NaN, or a name that is not a word, and where a name is looked
up it is no keyword. Such conditions on the nodes of an expression hold for everything that is read
from a source. Among expressions that fulfil them, equality of literals as values is equality.

## Main definitions

* `Number.isUnsigned` — the numbers that numerals denote
* `Lexeme.Readable`, `Key.Readable`, `Expr.Readable` — what a source can spell, piece by piece
* `Expr.AllReadable` — a list of nodes that a source can spell

## Main results

* `lexemes?_readable` — the lexemes of a source
* `Expr.Derives.readable` — the expressions that these derive
* `Expr.ofSource_eq_ok_iff` — what a source spells, in terms of its lexemes
* `Expr.beq_iff_eq` — equality of what has been read
-/

namespace DataBinding

/-- Whether a numeral can denote the number: no sign, and not NaN. -/
def Number.isUnsigned : Number → Bool
  | .finite negative _ => !negative
  | .infinity negative => !negative
  | .nan => false

/-- Whether a source can spell the lexeme. -/
def Lexeme.Readable : Lexeme → Prop
  | .word name => isWord name.toList = true
  | .number _ value => value.isUnsigned = true
  | _ => True

@[simp] theorem Lexeme.readable_mark (m : Mark) : (mark m).Readable := trivial

@[simp] theorem Lexeme.readable_word {name : String} :
    (word name).Readable ↔ isWord name.toList = true := Iff.rfl

@[simp] theorem Lexeme.readable_number {spelling : String} {value : Number} :
    (number spelling value).Readable ↔ value.isUnsigned = true := Iff.rfl

@[simp] theorem Lexeme.readable_str (value : String) : (str value).Readable := trivial

/-- Whether a source can spell the literal. -/
def Literal.Readable : Literal → Prop
  | .number value => value.isUnsigned = true
  | _ => True

/-- Whether a source can spell the key of a property. -/
def Key.Readable : Key → Prop
  | .name word => isWord word.toList = true
  | .literal (.number value) => value.isUnsigned = true
  | .literal (.str _) => True
  | .literal _ => False

namespace Expr

/-- Whether a source can spell the node in the place of an operand, going by what it holds besides
its parts. -/
def Readable : Expr → Prop
  | program _ => False
  | literal value => value.Readable
  | object properties => ∀ p ∈ properties, p.1.Readable
  | ident name => isWord name.toList = true ∧ ∀ e, ¬Keyword name e
  | member _ name => isWord name.toList = true
  | _ => True

/-- A source can spell all nodes of the list. -/
def AllReadable (nodes : List Expr) : Prop := ∀ e ∈ nodes, e.Readable

@[simp] theorem allReadable_nil : AllReadable [] := by simp [AllReadable]

@[simp] theorem allReadable_cons {e : Expr} {rest : List Expr} :
    AllReadable (e :: rest) ↔ e.Readable ∧ AllReadable rest := by
  simp [AllReadable]

@[simp] theorem allReadable_append {l l' : List Expr} :
    AllReadable (l ++ l') ↔ AllReadable l ∧ AllReadable l' := by
  simp [AllReadable, or_imp, forall_and]

end Expr

/-! ### Lexemes -/

theorem Number.isUnsigned_ofMagnitude? (x : Option Magnitude) :
    (Number.ofMagnitude? false x).isUnsigned = true := by
  cases x <;> rfl

theorem recognize_readable {c : Char} {rest : List Char} {lexeme : Lexeme}
    (h : (recognize c rest).outcome = .ok lexeme) : lexeme.Readable := by
  unfold recognize at h
  split at h
  · -- A number has no sign of its own.
    obtain ⟨d, -, rfl⟩ := Recognized.number_eq_ok h
    exact Number.isUnsigned_ofMagnitude? _
  split at h
  · unfold Recognized.string at h
    split at h <;> cases h
    trivial
  split at h
  · cases h
    trivial
  split at h
  · -- A word is what the scanner takes as one.
    rename_i start
    cases h
    have all := List.all_takeWhile (l := rest) (p := isWordChar)
    simp [Lexeme.Readable, isWord, start, all]
  · cases h

theorem lexemes?_readable {cs : List Char} {ls : List Lexeme} (h : lexemes? cs = some ls) :
    ∀ l ∈ ls, l.Readable := by
  cases found : cs.dropWhile isBlank with
  | nil =>
    rw [lexemes?_eq_nil found] at h
    cases h
    simp
  | cons c rest =>
    rw [lexemes?_eq_cons found] at h
    split at h
    · rename_i lexeme outcome
      obtain ⟨more, left, rfl⟩ := Option.map_eq_some_iff.1 h
      exact List.forall_mem_cons.2 ⟨recognize_readable outcome, lexemes?_readable left⟩
    · cases h
termination_by cs.length
decreasing_by exact length_behind_lt found

/-! ### Expressions -/

theorem Key.Spelled.readable {l : Lexeme} {key : Key} (h : Key.Spelled l key)
    (ok : l.Readable) : key.Readable := by
  cases h <;> exact ok

theorem Keyword.readable {word : String} {e : Expr} (h : Keyword word e) :
    Expr.AllReadable e.nodes := by
  cases h <;> simp [Expr.nodes, Expr.Readable, Literal.Readable]

namespace Expr

mutual

/-- What readable lexemes derive is readable. -/
theorem Derives.readable {ls : List Lexeme} {e : Expr} (h : Derives ls e)
    (ok : ∀ l ∈ ls, l.Readable) : AllReadable e.nodes := by
  cases h with
  | number spelling value =>
    simpa [nodes, Readable, Literal.Readable, Lexeme.Readable] using ok
  | str value => simp [nodes, Readable, Literal.Readable]
  | keyword h => exact h.readable
  | ident h => simpa [nodes, Readable, h, Lexeme.Readable] using ok
  | emptyArray => simp [nodes, nodesList, Readable]
  | array h =>
    have elements := h.readable (by simp_all)
    simpa [nodes, Readable] using elements
  | arrayComma h =>
    have elements := h.readable (by simp_all)
    simpa [nodes, Readable] using elements
  | emptyObject => simp [nodes, nodesProperties, Readable]
  | object h =>
    have properties := h.readable (by simp_all)
    simpa [nodes, Readable] using properties
  | member h name =>
    have object := h.readable (by simp_all)
    have word : isWord name.toList = true := ok (.word name) (by simp)
    simpa [nodes, Readable, object] using word
  | index h k =>
    have object := h.readable (by simp_all)
    have key := k.readable (by simp_all)
    simp [nodes, Readable, object, key]
  | emptyCall h =>
    have callee := h.readable (by simp_all)
    simp [nodes, nodesList, Readable, callee]
  | call h a =>
    have callee := h.readable (by simp_all)
    have args := a.readable (by simp_all)
    simp [nodes, Readable, callee, args]

theorem DerivesList.readable {ls : List Lexeme} {es : List Expr} (h : DerivesList ls es)
    (ok : ∀ l ∈ ls, l.Readable) : AllReadable (nodesList es) := by
  cases h with
  | single h =>
    have only := h.readable ok
    simpa [nodesList] using only
  | cons h t =>
    have first := h.readable (by simp_all)
    have others := t.readable (by simp_all)
    simp [nodesList, first, others]

theorem DerivesProperties.readable {ls : List Lexeme} {ps : List (Key × Expr)}
    (h : DerivesProperties ls ps) (ok : ∀ l ∈ ls, l.Readable) :
    (∀ p ∈ ps, p.1.Readable) ∧ AllReadable (nodesProperties ps) := by
  cases h with
  | single s h =>
    have key := s.readable (ok _ (by simp))
    have only := h.readable (by simp_all)
    simp [nodesProperties, key, only]
  | cons s h t =>
    have key := s.readable (ok _ (by simp))
    have first := h.readable (by simp_all)
    have others := t.readable (by simp_all)
    exact ⟨List.forall_mem_cons.2 ⟨key, others.1⟩, by simp [nodesProperties, first, others.2]⟩

end

/-- A source spells the program around what its lexemes derive. -/
theorem ofSource_eq_ok_iff {source : String} {e : Expr} :
    ofSource source = .ok e ↔
      ∃ ls body, lexemes? source.toList = some ls ∧ Derives ls body ∧ e = .program body := by
  have lexed : (Cursor.ofSource source).tokens.toOption.map (·.map Token.lexeme) =
      lexemes? source.toList := Cursor.tokens_lexemes _
  have read : ofSource source = (tokenize source).bind (ofTokens source) := rfl
  rw [read, tokenize, ← lexed]
  cases (Cursor.ofSource source).tokens with
  | error fault => exact ⟨nofun, nofun⟩
  | ok tokens =>
    change ofTokens source tokens = .ok e ↔ ∃ ls body, some (tokens.map Token.lexeme) = some ls ∧ _
    rw [ofTokens_eq_ok_iff_derives]
    constructor
    · rintro ⟨body, rfl, d⟩
      exact ⟨_, body, rfl, d, rfl⟩
    · rintro ⟨ls, body, eq, d, rfl⟩
      cases eq
      exact ⟨body, rfl, d⟩

/-- What is read from a source is a program around a readable expression. -/
theorem ofSource_readable {source : String} {e : Expr} (h : ofSource source = .ok e) :
    ∃ body, e = program body ∧ AllReadable body.nodes := by
  obtain ⟨ls, body, lexed, d, rfl⟩ := ofSource_eq_ok_iff.1 h
  exact ⟨body, rfl, d.readable (lexemes?_readable lexed)⟩

end Expr

/-! ### Equality -/

theorem Number.beq_iff_eq {m n : Number} (hm : m.isUnsigned = true) (hn : n.isUnsigned = true) :
    (m == n) = true ↔ m = n := by
  change Number.equal m n = true ↔ m = n
  cases m <;> cases n <;> simp_all [Number.isUnsigned, Number.equal]

theorem Literal.beq_iff_eq {a b : Literal} (ha : a.Readable) (hb : b.Readable) :
    (a == b) = true ↔ a = b := by
  change instBEqLiteral.beq a b = true ↔ a = b
  cases a with
  | number m =>
    cases b with
    | number n => simpa [instBEqLiteral.beq] using Number.beq_iff_eq ha hb
    | _ => simp [instBEqLiteral.beq]
  | _ => cases b <;> simp [instBEqLiteral.beq]

theorem Key.Readable.literal {value : Literal} (h : (Key.literal value).Readable) :
    value.Readable := by
  cases value with
  | number n => exact h
  | _ => trivial

theorem Key.beq_iff_eq {k l : Key} (hk : k.Readable) (hl : l.Readable) :
    (k == l) = true ↔ k = l := by
  change instBEqKey.beq k l = true ↔ k = l
  cases k with
  | name x => cases l <;> simp [instBEqKey.beq]
  | literal a =>
    cases l with
    | name y => simp [instBEqKey.beq]
    | literal b => simpa [instBEqKey.beq] using Literal.beq_iff_eq hk.literal hl.literal

namespace Expr

mutual

/-- Equality of expressions that have been read is equality. -/
theorem beq_iff_eq {a b : Expr} (ha : AllReadable a.nodes) (hb : AllReadable b.nodes) :
    beq a b = true ↔ a = b := by
  cases a with
  | program body =>
    simp only [nodes, allReadable_cons] at ha
    exact absurd ha.1 not_false
  | literal x =>
    cases b with
    | literal y =>
      simp only [nodes, allReadable_cons, Readable] at ha hb
      simpa [beq] using Literal.beq_iff_eq ha.1 hb.1
    | _ => simp [beq]
  | array as =>
    cases b with
    | array bs =>
      simp only [nodes, allReadable_cons] at ha hb
      simpa [beq] using beqList_iff_eq ha.2 hb.2
    | _ => simp [beq]
  | object ps =>
    cases b with
    | object qs =>
      simp only [nodes, allReadable_cons] at ha hb
      simpa [beq] using beqProperties_iff_eq ha.1 hb.1 ha.2 hb.2
    | _ => simp [beq]
  | ident x => cases b <;> simp [beq]
  | this => cases b <;> simp [beq]
  | locals => cases b <;> simp [beq]
  | member a x =>
    cases b with
    | member b y =>
      simp only [nodes, allReadable_cons] at ha hb
      simp [beq, beq_iff_eq ha.2 hb.2]
    | _ => simp [beq]
  | index a x =>
    cases b with
    | index b y =>
      simp only [nodes, allReadable_cons, allReadable_append] at ha hb
      simp [beq, beq_iff_eq ha.2.1 hb.2.1, beq_iff_eq ha.2.2 hb.2.2]
    | _ => simp [beq]
  | call a xs =>
    cases b with
    | call b ys =>
      simp only [nodes, allReadable_cons, allReadable_append] at ha hb
      simp [beq, beq_iff_eq ha.2.1 hb.2.1, beqList_iff_eq ha.2.2 hb.2.2]
    | _ => simp [beq]

theorem beqList_iff_eq {as bs : List Expr} (ha : AllReadable (nodesList as))
    (hb : AllReadable (nodesList bs)) : beqList as bs = true ↔ as = bs := by
  cases as with
  | nil => cases bs <;> simp [beqList]
  | cons a as =>
    cases bs with
    | nil => simp [beqList]
    | cons b bs =>
      simp only [nodesList, allReadable_append] at ha hb
      simp [beqList, beq_iff_eq ha.1 hb.1, beqList_iff_eq ha.2 hb.2]

theorem beqProperties_iff_eq {ps qs : List (Key × Expr)} (hp : ∀ p ∈ ps, p.1.Readable)
    (hq : ∀ q ∈ qs, q.1.Readable) (ha : AllReadable (nodesProperties ps))
    (hb : AllReadable (nodesProperties qs)) : beqProperties ps qs = true ↔ ps = qs := by
  cases ps with
  | nil => cases qs <;> simp [beqProperties]
  | cons p ps =>
    cases qs with
    | nil => simp [beqProperties]
    | cons q qs =>
      obtain ⟨k, a⟩ := p
      obtain ⟨l, b⟩ := q
      simp only [nodesProperties, allReadable_append] at ha hb
      obtain ⟨hk, hp⟩ := List.forall_mem_cons.1 hp
      obtain ⟨hl, hq⟩ := List.forall_mem_cons.1 hq
      simp [beqProperties, Key.beq_iff_eq hk hl, beq_iff_eq ha.1 hb.1,
        beqProperties_iff_eq hp hq ha.2 hb.2, and_assoc]

end

end Expr

end DataBinding
