import DataBinding.Proofs.Expr.Printing
import Mathlib.Algebra.GroupWithZero.Nat

/-!
# When the text of an expression reads back

The text of an expression that was read reads back as the same expression, with two exceptions. An
infinite number is written as a word, and a number with a point behind it swallows the point. In
both cases something gets lost that can be counted: an expression has as many numbers and points as
the lexemes that derive it, and its text is cut into fewer.

## Main definitions

* `Expr.tally` — how many numbers and points the lexemes of an expression have
* `Expr.loss` — how many of them its text does not have
* `Cut` — what a text is cut into, compared with what is meant

## Main results

* `Expr.Derives.countP_counts` — the tally of an expression, in any lexemes that derive it
* `cut_numberMember` — a number swallows a point
* `Expr.cut_chars` — what is missing in the text of an expression
* `Expr.ofSource_chars`, `Expr.ofSource_text_iff` — when the text reads back
-/

namespace DataBinding

/-! ### Numbers and points -/

/-- Whether the lexeme is a number or a point. -/
def Lexeme.counts : Lexeme → Bool
  | .number _ _ => true
  | .mark .dot => true
  | _ => false

def Key.isNumber : Key → Bool
  | literal (.number _) => true
  | _ => false

namespace Expr

/-- How many numbers and points the node itself is spelled with. -/
def ownTally : Expr → Nat
  | literal (.number _) => 1
  | object properties => properties.countP fun p => p.1.isNumber
  | member _ _ => 1
  | _ => 0

/-- How many numbers and points are spelled for the nodes. -/
def tally (nodes : List Expr) : Nat := (nodes.map ownTally).sum

@[simp] theorem tally_nil : tally [] = 0 := rfl

@[simp] theorem tally_cons (e : Expr) (rest : List Expr) :
    tally (e :: rest) = e.ownTally + tally rest := by
  simp [tally]

@[simp] theorem tally_append (l l' : List Expr) : tally (l ++ l') = tally l + tally l' := by
  simp [tally]

mutual

/-- Lexemes that derive an expression have the numbers and points of its nodes. -/
theorem Derives.countP_counts {ls : List Lexeme} {e : Expr} (h : Derives ls e) :
    ls.countP Lexeme.counts = tally e.nodes := by
  cases h with
  | number spelling value => rfl
  | str value => rfl
  | keyword h => cases h <;> rfl
  | ident h => rfl
  | emptyArray => rfl
  | array h => simp [nodes, ownTally, Lexeme.counts, h.countP_counts]
  | arrayComma h => simp [nodes, ownTally, Lexeme.counts, h.countP_counts]
  | emptyObject => rfl
  | object h => simp [nodes, ownTally, Lexeme.counts, h.countP_counts]
  | member h name =>
    have object := h.countP_counts
    simp only [nodes, ownTally, tally_cons, List.countP_append, object]
    exact Nat.add_comm _ 1
  | index h k => simp [nodes, ownTally, Lexeme.counts, h.countP_counts, k.countP_counts]
  | emptyCall h => simp [nodes, nodesList, ownTally, Lexeme.counts, h.countP_counts]
  | call h a => simp [nodes, ownTally, Lexeme.counts, h.countP_counts, a.countP_counts]

theorem DerivesList.countP_counts {ls : List Lexeme} {es : List Expr} (h : DerivesList ls es) :
    ls.countP Lexeme.counts = tally (nodesList es) := by
  cases h with
  | single h => simp [nodesList, h.countP_counts]
  | cons h t => simp [nodesList, Lexeme.counts, h.countP_counts, t.countP_counts]

theorem DerivesProperties.countP_counts {ls : List Lexeme} {ps : List (Key × Expr)}
    (h : DerivesProperties ls ps) :
    ls.countP Lexeme.counts =
      ps.countP (fun p => p.1.isNumber) + tally (nodesProperties ps) := by
  cases h with
  | single s h =>
    cases s <;> simp [nodesProperties, Lexeme.counts, Key.isNumber, List.countP_cons,
      h.countP_counts]
    omega
  | cons s h t =>
    cases s <;> simp [nodesProperties, Lexeme.counts, Key.isNumber, List.countP_cons,
      h.countP_counts, t.countP_counts] <;> omega

end

/-- How many numbers and points the text of the node lacks, going by what it holds besides its
parts and by the number in front of its point. -/
def ownLoss : Expr → Nat
  | literal value => if value.isInfinite then 1 else 0
  | object properties => properties.countP fun p => p.1.isInfinite
  | member e _ => if e.isNumber && !e.holdsInfinity then 1 else 0
  | _ => 0

/-- How many numbers and points the texts of the nodes lack. -/
def loss (nodes : List Expr) : Nat := (nodes.map ownLoss).sum

@[simp] theorem loss_nil : loss [] = 0 := rfl

@[simp] theorem loss_cons (e : Expr) (rest : List Expr) :
    loss (e :: rest) = e.ownLoss + loss rest := by
  simp [loss]

@[simp] theorem loss_append (l l' : List Expr) : loss (l ++ l') = loss l + loss l' := by
  simp [loss]

end Expr

/-! ### What the text is cut into -/

/-- In front of `rest`, the text is cut into lexemes that have `loss` numbers and points fewer than
the lexemes that are meant, unless it cannot be cut at all. If nothing is lost, it is cut into those
that are meant. -/
structure Cut (cs rest : List Char) (meant : List Lexeme) (loss : Nat) : Prop where
  whole : loss = 0 → Reads cs rest meant
  part : ∀ ls, lexemes? (cs ++ rest) = some ls → ∃ front back,
    ls = front ++ back ∧ front.countP Lexeme.counts + loss = meant.countP Lexeme.counts ∧
      lexemes? rest = some back

theorem Reads.cut {cs rest : List Char} {ls : List Lexeme} (h : Reads cs rest ls) :
    Cut cs rest ls 0 where
  whole _ := h
  part more read := by
    rw [h] at read
    obtain ⟨back, left, rfl⟩ := Option.map_eq_some_iff.1 read
    exact ⟨ls, back, rfl, rfl, left⟩

namespace Cut

variable {cs cs' rest : List Char} {meant meant' : List Lexeme} {loss loss' : Nat}

/-- A text that is cut into `front` instead. -/
theorem of_reads {front : List Lexeme} (h : Reads cs rest front) (lost : loss ≠ 0)
    (count : front.countP Lexeme.counts + loss = meant.countP Lexeme.counts) :
    Cut cs rest meant loss where
  whole none := absurd none lost
  part ls read := by
    obtain ⟨front', back, rfl, same, left⟩ := h.cut.part ls read
    exact ⟨front', back, rfl, by omega, left⟩

theorem of_eq (h : Cut cs rest meant loss) (eq : loss = loss') : Cut cs rest meant loss' :=
  eq ▸ h

theorem append (h : Cut cs (cs' ++ rest) meant loss) (h' : Cut cs' rest meant' loss') :
    Cut (cs ++ cs') rest (meant ++ meant') (loss + loss') where
  whole none := (h.whole (by omega)).append (h'.whole (by omega))
  part ls read := by
    rw [List.append_assoc] at read
    obtain ⟨front, back, rfl, count, read⟩ := h.part ls read
    obtain ⟨front', back, rfl, count', read⟩ := h'.part back read
    refine ⟨front ++ front', back, by simp, ?_, read⟩
    rw [List.countP_append, List.countP_append]
    omega

theorem blank (h : Cut cs rest meant loss) : Cut (' ' :: cs) rest meant loss where
  whole none := (h.whole none).blank
  part ls read := by
    rw [List.cons_append, lexemes?_blank rfl] at read
    exact h.part ls read

theorem mark (m : Mark) (dot : m ≠ .dot) (h : Cut cs rest meant loss) :
    Cut (m.char :: cs) rest (.mark m :: meant) loss := by
  have first : Reads [m.char] (cs ++ rest) [.mark m] := Reads.mark m dot (.nil _)
  have both := first.cut.append h
  rwa [Nat.zero_add] at both

end Cut

/-- Behind a number that swallows a point, what follows is read again from the next seam on: the
number ends within the word behind the point, or with it. -/
theorem append_seam_split {name rest taken left : List Char}
    (split : name ++ rest = taken ++ left) (seam : Seam rest)
    (chars : ∀ c ∈ taken, Recognized.isNumberChar c = true) (dot : '.' ∉ taken) :
    ∃ more, name = taken ++ more ∧ left = more ++ rest := by
  rcases List.append_eq_append_iff.1 split with ⟨beyond, rfl, rest_eq⟩ | ⟨more, rfl, rfl⟩
  · cases seam with
    | nil =>
      obtain ⟨rfl, rfl⟩ := List.append_eq_nil_iff.1 rest_eq.symm
      exact ⟨[], by simp, rfl⟩
    | mark m rest =>
      cases beyond with
      | nil => exact ⟨[], by simp, rest_eq.symm⟩
      | cons c beyond =>
        cases rest_eq
        -- The only mark that could belong to a number is the point.
        have char := chars m.char (by simp)
        cases m with
        | dot => exact absurd (by simp [Mark.char]) dot
        | _ => cases char
  · exact ⟨more, rfl, rfl⟩

/-- A number with a point behind it swallows the point, and perhaps more of what follows. -/
theorem cut_numberMember (x : Magnitude) {name : List Char} (ok : isWord name = true)
    {rest : List Char} (seam : Seam rest) :
    Cut ((Number.finite false x).chars ++ '.' :: name) rest
      [(Literal.number (.finite false x)).lexeme, .mark .dot, .word (String.ofList name)] 1 := by
  refine ⟨fun none => absurd none Nat.one_ne_zero, ?_⟩
  obtain ⟨d, numeral, -⟩ := Number.exists_numeral_chars x
  generalize (Number.finite false x).chars = text at numeral
  obtain ⟨c, cs, rfl, -⟩ := numeral.start
  obtain ⟨left, split, chars, stop⟩ := Recognized.numberTail_eq false (name ++ rest)
  intro ls lexed
  rw [List.append_assoc] at lexed
  obtain ⟨spelling, value, back, d', rfl, whole, lexed⟩ := lexemes?_numeral_front numeral lexed
  have point : (Recognized.numberTail false ('.' :: name ++ rest)).1 =
      '.' :: (Recognized.numberTail false (name ++ rest)).1 :=
    congrArg Prod.fst (Recognized.takes_nil.dot (name ++ rest))
  rw [point] at whole lexed
  generalize (Recognized.numberTail false (name ++ rest)).1 = taken at split chars whole lexed
  -- The point that is swallowed is the only one.
  have dot : '.' ∉ taken := by
    have once := whole.count_dot
    rw [List.count_append, List.count_cons_self] at once
    exact List.count_eq_zero.1 (by omega)
  obtain ⟨more, rfl, rfl⟩ := append_seam_split split seam chars dot
  rw [List.cons_append, List.append_assoc, List.length_cons, List.drop_succ_cons,
    List.drop_left] at lexed
  cases more with
  | nil => exact ⟨[.number spelling value], back, rfl, rfl, lexed⟩
  | cons first more =>
    have word := isWord_of_append ok (stop first _ rfl).1
    rw [lexemes?_word word seam] at lexed
    obtain ⟨back, left, rfl⟩ := Option.map_eq_some_iff.1 lexed
    exact ⟨[.number spelling value, .word (String.ofList (first :: more))], back, rfl, rfl, left⟩

/-- What is missing in the text of a literal is an infinite number. -/
theorem cut_literal {value : Literal} (ok : value.Readable) {rest : List Char} (seam : Seam rest)
    (border : (∃ x, value = .number (.finite false x)) → Border rest) :
    Cut value.chars rest [value.lexeme] (if value.isInfinite = true then 1 else 0) := by
  cases value with
  | null => exact (reads_word rfl seam).cut
  | bool b => cases b <;> exact (reads_word rfl seam).cut
  | str s => exact Reads.cut (lexemes?_quoted s rest)
  | number n =>
    obtain rfl | ⟨x, rfl⟩ := Number.eq_infinity_or_finite ok
    · have word : isWord "Infinity".toList = true := rfl
      exact .of_reads (reads_word word seam) Nat.one_ne_zero rfl
    · exact (reads_number x (border ⟨x, rfl⟩)).cut

theorem cut_key {key : Key} (ok : key.Readable) {rest : List Char} (border : Border rest) :
    Cut key.chars rest [key.lexeme] (if key.isInfinite = true then 1 else 0) := by
  cases key with
  | name word =>
    have read := reads_word ok border.seam
    rw [String.ofList_toList] at read
    exact read.cut
  | literal value => exact cut_literal ok.literal border.seam fun _ => border

namespace Expr

theorem eq_finite {e : Expr} (ok : AllReadable e.nodes) (number : e.isNumber = true)
    (finite : e.holdsInfinity = false) : ∃ x, e = literal (.number (.finite false x)) := by
  unfold isNumber at number
  split at number
  · obtain rfl | ⟨x, rfl⟩ := Number.eq_infinity_or_finite (allReadable_cons.1 ok).1
    · cases finite
    · exact ⟨x, rfl⟩
  · cases number

mutual

/-- The text of an expression is cut into the lexemes that are meant, but for the numbers and points
that are counted as its loss. -/
theorem cut_chars (e : Expr) (ok : AllReadable e.nodes) {rest : List Char} (seam : Seam rest)
    (border : e.isNumber = true → e.holdsInfinity = false → Border rest) :
    Cut e.chars rest e.lexemes (loss e.nodes) := by
  -- By the last piece of the text that is no part of a part: what stands behind a part begins with
  -- a mark, and this is a point only behind the object of a property of fixed name.
  cases e with
  | program body => exact absurd (allReadable_cons.1 ok).1 not_false
  | literal value =>
    simp only [nodes, allReadable_cons] at ok
    refine cut_literal ok.1 seam ?_
    rintro ⟨x, rfl⟩
    exact border rfl rfl
  | array elements =>
    simp only [nodes, allReadable_cons] at ok
    have close := (Reads.mark .closeBracket (by decide) (.nil rest)).cut
    have items := cut_listChars elements ok.2 (.mark .closeBracket (by decide) rest)
    have all := (items.append close).mark .openBracket (by decide)
    exact all.of_eq (by simp [nodes, ownLoss])
  | object properties =>
    simp only [nodes, allReadable_cons] at ok
    have close := (Reads.mark .closeBrace (by decide) (.nil rest)).cut
    have items := cut_propertyChars properties ok.1 ok.2 (.mark .closeBrace (by decide) rest)
    have all := (items.append close).mark .openBrace (by decide)
    exact all.of_eq (by simp [nodes, ownLoss])
  | ident name =>
    simp only [nodes, allReadable_cons] at ok
    have word := reads_word ok.1.1 seam
    rw [String.ofList_toList] at word
    exact word.cut
  | this => exact (reads_word rfl seam).cut
  | locals => exact (reads_word rfl seam).cut
  | member e name =>
    simp only [nodes, allReadable_cons] at ok
    by_cases swallowed : e.isNumber = true ∧ e.holdsInfinity = false
    · -- The point belongs to the number, so the object and the name cannot be treated apart.
      obtain ⟨x, rfl⟩ := eq_finite ok.2 swallowed.1 swallowed.2
      have all := cut_numberMember x ok.1 seam
      rwa [String.ofList_toList] at all
    · have suffix := (reads_member ok.1 seam).cut
      have object := cut_chars e ok.2 (.mark .dot (name.toList ++ rest))
        fun number finite => absurd ⟨number, finite⟩ swallowed
      have own : (member e name).ownLoss = 0 := by simpa [ownLoss] using swallowed
      exact (Cut.append object suffix).of_eq (by simp [nodes, own])
  | index e key =>
    simp only [nodes, allReadable_cons, allReadable_append] at ok
    have close := (Reads.mark .closeBracket (by decide) (.nil rest)).cut
    have inner := cut_chars key ok.2.2 (.mark .closeBracket rest)
      fun _ _ => .mark .closeBracket (by decide) rest
    have suffix := (Cut.append inner close).mark .openBracket (by decide)
    have object : ∀ more, Cut e.chars ('[' :: more) e.lexemes (loss e.nodes) := fun more =>
      cut_chars e ok.2.1 (.mark .openBracket more)
        fun _ _ => .mark .openBracket (by decide) more
    rw [chars_index, lexemes_index]
    exact (Cut.append (object _) suffix).of_eq (by simp [nodes, ownLoss])
  | call callee args =>
    simp only [nodes, allReadable_cons, allReadable_append] at ok
    have close := (Reads.mark .closeParen (by decide) (.nil rest)).cut
    have items := cut_listChars args ok.2.2 (.mark .closeParen (by decide) rest)
    have suffix := (Cut.append items close).mark .openParen (by decide)
    have function : ∀ more, Cut callee.chars ('(' :: more) callee.lexemes (loss callee.nodes) :=
      fun more => cut_chars callee ok.2.1 (.mark .openParen more)
        fun _ _ => .mark .openParen (by decide) more
    rw [chars_call, lexemes_call]
    exact (Cut.append (function _) suffix).of_eq (by simp [nodes, ownLoss])

theorem cut_listChars (es : List Expr) (ok : AllReadable (nodesList es)) {rest : List Char}
    (border : Border rest) :
    Cut (separated (listChars es)) rest (joined (listLexemes es)) (loss (nodesList es)) := by
  cases es with
  | nil => exact (Reads.nil rest).cut
  | cons e es =>
    simp only [nodesList, allReadable_append] at ok
    cases es with
    | nil =>
      have only := cut_chars e ok.1 border.seam fun _ _ => border
      simpa [listChars, listLexemes, nodesList, separated, joined] using only
    | cons e' es =>
      have others := cut_listChars (e' :: es) ok.2 border
      have comma := others.blank.mark .comma (by decide)
      have first : ∀ more, Cut e.chars (',' :: more) e.lexemes (loss e.nodes) := fun more =>
        cut_chars e ok.1 (.mark .comma more) fun _ _ => .mark .comma (by decide) more
      rw [listChars, listChars, separated_cons_cons, listLexemes, listLexemes, joined_cons_cons]
      exact (Cut.append (first _) comma).of_eq (by simp [nodesList])

theorem cut_propertyChars (ps : List (Key × Expr)) (keys : ∀ p ∈ ps, p.1.Readable)
    (ok : AllReadable (nodesProperties ps)) {rest : List Char} (border : Border rest) :
    Cut (separated (propertyChars ps)) rest (joined (propertyLexemes ps))
      (ps.countP (fun p => p.1.isInfinite) + loss (nodesProperties ps)) := by
  cases ps with
  | nil => exact (Reads.nil rest).cut
  | cons p ps =>
    obtain ⟨key, value⟩ := p
    obtain ⟨key_ok, keys_ok⟩ : key.Readable ∧ ∀ p ∈ ps, p.1.Readable :=
      List.forall_mem_cons.1 keys
    simp only [nodesProperties, allReadable_append] at ok
    have property : ∀ {rest}, Border rest →
        Cut (key.chars ++ ':' :: ' ' :: chars value) rest
          (key.lexeme :: .mark .colon :: lexemes value)
          ((if key.isInfinite = true then 1 else 0) + loss value.nodes) := by
      intro rest border
      have item := cut_chars value ok.1 border.seam fun _ _ => border
      have colon := item.blank.mark .colon (by decide)
      have name := fun more => cut_key key_ok (.mark .colon (by decide) more)
      exact Cut.append (name _) colon
    cases ps with
    | nil =>
      have only := property border
      simpa [propertyChars, propertyLexemes, nodesProperties, separated, joined] using only
    | cons q ps =>
      have others := cut_propertyChars (q :: ps) keys_ok ok.2 border
      have comma := others.blank.mark .comma (by decide)
      have first := fun more => property (.mark .comma (by decide) more)
      rw [propertyChars, propertyChars, separated_cons_cons, propertyLexemes, propertyLexemes,
        joined_cons_cons]
      have keys : ((key, value) :: q :: ps).countP (fun p => p.1.isInfinite) =
          (q :: ps).countP (fun p => p.1.isInfinite) + if key.isInfinite = true then 1 else 0 :=
        List.countP_cons
      refine (Cut.append (first _) comma).of_eq ?_
      simp only [keys, nodesProperties, loss_append]
      omega

end

/-- Nothing is missing in the text if and only if none of its nodes is one of the two exceptions. -/
theorem loss_eq_zero_iff {e : Expr} : loss e.nodes = 0 ↔ ∀ x ∈ e.nodes, x.Plain := by
  have sum : loss e.nodes = 0 ↔ ∀ x ∈ e.nodes, x.ownLoss = 0 := by
    simp [loss, List.sum_eq_zero_iff_forall_eq_nat]
  rw [sum]
  constructor
  · intro own
    -- A number with a point counts only if it is finite, so the infinite ones come first.
    have finite : ∀ x ∈ e.nodes, x.holdsInfinity = false := by
      intro x mem
      have lost := own x mem
      cases x with
      | literal value => simpa [ownLoss, holdsInfinity] using lost
      | object properties => simpa [ownLoss, holdsInfinity] using lost
      | _ => rfl
    intro x mem
    refine ⟨finite x mem, ?_⟩
    cases x with
    | member object name =>
      have part : object ∈ e.nodes :=
        nodes_subset mem (List.mem_cons_of_mem _ (mem_nodes object))
      simpa [ownLoss, isNumberMember, finite object part] using own _ mem
    | _ => rfl
  · intro plain x mem
    obtain ⟨finite, number⟩ := plain x mem
    cases x with
    | literal value => simpa [ownLoss, holdsInfinity] using finite
    | object properties => simpa [ownLoss, holdsInfinity] using finite
    | member object name =>
      have object_number : object.isNumber = false := number
      simp [ownLoss, object_number]
    | _ => rfl

/-- A text without the two exceptions is read as the expression. -/
theorem ofSource_chars {body : Expr} (ok : AllReadable body.nodes)
    (plain : ∀ x ∈ body.nodes, x.Plain) :
    ofSource (String.ofList body.chars) = .ok (program body) := by
  have cut := cut_chars body ok .nil fun _ _ => .nil
  have read := (cut.whole (loss_eq_zero_iff.2 plain)).lexemes?_eq
  refine ofSource_eq_ok_iff.2 ⟨_, body, ?_, derives_lexemes body ok, rfl⟩
  rw [String.toList_ofList, read]

/-- The text of an expression that was read reads back as an equal one if and only if it holds no
infinite number, as a value or as a key, and no property of fixed name of a number. -/
theorem ofSource_text_iff {source : String} {e : Expr} (h : ofSource source = .ok e) :
    (∃ e', ofSource e.text = .ok e' ∧ (e' == e) = true) ↔
      ∀ x ∈ e.nodes, x.holdsInfinity = false ∧ x.isNumberMember = false := by
  obtain ⟨ls, body, lexed, d, rfl⟩ := ofSource_eq_ok_iff.1 h
  have ok := d.readable (lexemes?_readable lexed)
  have text : (program body).text.toList = body.chars := String.toList_ofList
  rw [nodes, List.forall_mem_cons]
  constructor
  · rintro ⟨e', read, same⟩
    refine ⟨⟨rfl, rfl⟩, ?_⟩
    -- Both have been read, so that they are equal means that they are the same.
    obtain ⟨ls', body', lexed', d', rfl⟩ := ofSource_eq_ok_iff.1 read
    cases (beq_iff_eq (d'.readable (lexemes?_readable lexed')) ok).1 same
    have cut := cut_chars body ok .nil fun _ _ => .nil
    rw [text, ← List.append_nil body.chars] at lexed'
    obtain ⟨front, back, rfl, count, done⟩ := cut.part ls' lexed'
    rw [lexemes?_nil] at done
    cases done
    -- The lexemes of the text and those that are meant derive the same expression.
    have read := d'.countP_counts
    have meant := (derives_lexemes body ok).countP_counts
    rw [List.append_nil] at read
    exact loss_eq_zero_iff.1 (by omega)
  · rintro ⟨-, plain⟩
    have cut := cut_chars body ok .nil fun _ _ => .nil
    have read := cut.whole (loss_eq_zero_iff.2 plain)
    rw [Reads, List.append_nil, lexemes?_nil, Option.map_some, List.append_nil] at read
    refine ⟨program body, ofSource_eq_ok_iff.2 ⟨_, body, ?_, derives_lexemes body ok, rfl⟩, ?_⟩
    · rw [text, read]
    · exact (beq_iff_eq ok ok).2 rfl

/-- The text of `1 .x` is `1.x`, which does not read back. -/
theorem ofSource_text_iff_member :
    let e := program (member (literal (.number (.ofMagnitude? false (Decimal.mk 1 0).round?))) "x")
    ofSource "1 .x" = .ok e ∧ ¬∃ e', ofSource e.text = .ok e' ∧ (e' == e) = true := by
  have numeral : Decimal.Numeral ['1'] ⟨1, 0⟩ := Decimal.ofNumeral?_eq_some_iff.1 (by decide)
  have one : Reads ['1'] [' ', '.', 'x'] [_] := lexemes?_numeral numeral rfl
  have word : isWord "x".toList = true := rfl
  have name := (reads_member word .nil).blank
  have lexed := one.append name
  rw [Reads, List.append_nil, lexemes?_nil] at lexed
  have read : ofSource "1 .x" = .ok _ :=
    ofSource_eq_ok_iff.2 ⟨_, _, lexed, (Derives.number _ _).member "x", rfl⟩
  refine ⟨read, fun back => ?_⟩
  have plain := (ofSource_text_iff read).1 back
  have member := (plain _ (List.mem_cons_of_mem _ (mem_nodes _))).2
  simp [isNumberMember, isNumber] at member

end Expr

end DataBinding
