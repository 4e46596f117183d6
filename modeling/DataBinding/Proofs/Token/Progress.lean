import DataBinding.Proofs.Token.Places
import Mathlib.Data.List.Chain

/-!
# The scanner makes progress

Each call of the scanner that finds something, a token or a fault, leaves less of the source to be
read, so that there are no more of them than characters. Once nothing is found, nothing ever is.

What is found has its place in the source. It lies where the call begins or behind that, and before
the place where the next call begins. There is one exception: a sign without a digit is left for the
next call, which finds it again.

## Main definitions

* `placeOf` — the offset of what is found
* `Cursor.call`, `Cursor.afterCalls` — calls of the scanner, one after the other
* `Cursor.Follows` — how two items that follow each other lie

## Main results

* `Cursor.next?_passed`, `Cursor.next?_place` — what one call passes over, and where its item lies
* `Cursor.call_afterCalls`, `Cursor.items_length_le`, `Cursor.items_chain` — all calls
* `tokenize_eq_mapM` — the tokens of a source are what is found in it, up to the first fault
* `scan_progress` — all of this for sources
-/

namespace DataBinding

open Recognized

/-- The offset of what is found. -/
def placeOf : Except (Fault × Nat) Token → Nat
  | .ok token => token.pos
  | .error (_, offset) => offset

/-! ### One call -/

theorem StringBody.cons_eq_malformed {c : Char} {size offset total : Nat} {b : StringBody}
    (h : b.cons c size = .malformed offset total) :
    ∃ offset' more, b = .malformed offset' more ∧ offset = size + offset' ∧ total = size + more := by
  cases b <;> cases h
  exact ⟨_, _, rfl, rfl, rfl⟩

/-- The backslash of a malformed escape is one of the characters that are passed over, and there is
such a character. -/
theorem StringBody.scan_malformed_lt {quote : Char} {cs : List Char} {offset size : Nat}
    (h : scan quote cs = .malformed offset size) : offset < size ∧ offset < cs.length := by
  fun_induction scan quote cs generalizing offset size with
  | case1 => cases h
  | case2 => cases h
  | case3 code c used escape ih =>
    obtain ⟨offset, more, scanned, rfl, rfl⟩ := cons_eq_malformed h
    obtain ⟨passed, within⟩ := ih scanned
    rw [List.length_drop] at within
    simp only [List.length_cons]
    omega
  | case4 =>
    cases h
    simp
  | case5 c rest notCode ih =>
    obtain ⟨offset, more, scanned, rfl, rfl⟩ := cons_eq_malformed h
    obtain ⟨passed, within⟩ := ih scanned
    simp only [List.length_cons]
    omega
  | case6 => cases h
  | case7 c rest alone code escape ne ih =>
    obtain ⟨offset, more, scanned, rfl, rfl⟩ := cons_eq_malformed h
    obtain ⟨passed, within⟩ := ih scanned
    simp only [List.length_cons]
    omega

/-- The place of a fault is at a character that is passed over. Only a sign without a digit is not
passed over itself. -/
def Recognized.Placed (text : List Char) (r : Recognized) : Prop :=
  ∀ fault count, r.outcome = .error (fault, count) →
    count < r.size ∧ count < text.length ∨ fault = .invalidExponent ∧ count = r.size

theorem number_placed (c : Char) (rest : List Char) : (number c rest).Placed (c :: rest) := by
  intro fault count h
  unfold number at h ⊢
  simp only at h ⊢
  split at h
  · rename_i dangling
    cases h
    exact .inr ⟨rfl, by rw [if_pos dangling]⟩
  · rename_i whole
    rw [if_neg whole]
    split at h
    · cases h
    · cases h
      exact .inl ⟨Nat.succ_pos _, Nat.succ_pos _⟩

theorem string_placed (quote : Char) (rest : List Char) :
    (string quote rest).Placed (quote :: rest) := by
  intro fault count h
  unfold string at h ⊢
  split at h
  · cases h
  · cases h
    exact .inl ⟨Nat.succ_pos _, Nat.succ_pos _⟩
  · rename_i offset size scanned
    cases h
    obtain ⟨passed, within⟩ := StringBody.scan_malformed_lt scanned
    exact .inl ⟨Nat.succ_lt_succ passed, Nat.succ_lt_succ within⟩

theorem recognize_placed (c : Char) (rest : List Char) : (recognize c rest).Placed (c :: rest) := by
  unfold recognize
  split
  · exact number_placed c rest
  split
  · exact string_placed c rest
  split
  · rintro fault count ⟨⟩
  split
  · rintro fault count ⟨⟩
  · rintro fault count ⟨⟩
    exact .inl ⟨Nat.one_pos, Nat.succ_pos _⟩

namespace Cursor

variable {cur later next : Cursor} {item : Except (Fault × Nat) Token}

/-- What a call finds lies behind a part of what was left to read, and in front of what is left
then. Nothing is between the two only at a sign without a digit. -/
theorem next?_place (h : cur.next? = some (item, next)) :
    ∃ before passed, cur.Reaches (before ++ passed) next ∧
      placeOf item = cur.pos + byteSize before ∧
      (passed = [] → ∃ offset, item = .error (.invalidExponent, offset)) := by
  obtain ⟨gap, rest, eq, blank, skip⟩ := cur.skipBlanks_split
  cases rest with
  | nil =>
    simp only [next?, skip] at h
    cases h
  | cons c rest =>
    have front : cur.Reaches gap ⟨cur.pos + byteSize gap, c :: rest⟩ := ⟨eq, rfl⟩
    have advanced := front.trans (reaches_advance _ (recognize c rest).size)
    have size := recognize_size_pos c rest
    simp only [next?, skip] at h
    cases outcome : (recognize c rest).outcome with
    | ok lexeme =>
      rw [outcome] at h
      cases h
      refine ⟨gap, _, advanced, rfl, fun none => ?_⟩
      have zero : (recognize c rest).size = 0 := by simpa using none
      omega
    | error e =>
      obtain ⟨fault, count⟩ := e
      have placed := recognize_placed c rest fault count outcome
      rw [outcome] at h
      cases h
      have le : count ≤ (recognize c rest).size :=
        placed.elim (fun inside => Nat.le_of_lt inside.1) fun sign => Nat.le_of_eq sign.2
      -- What is passed over is cut in two at the place of the fault.
      have cut : (c :: rest).take (recognize c rest).size =
          (c :: rest).take count ++
            ((c :: rest).drop count).take ((recognize c rest).size - count) := by
        rw [← List.take_add, Nat.add_sub_cancel' le]
      refine ⟨gap ++ (c :: rest).take count,
        ((c :: rest).drop count).take ((recognize c rest).size - count), ?_, ?_, fun none => ?_⟩
      · rw [List.append_assoc, ← cut]
        exact advanced
      · rw [byteSize_append, ← Nat.add_assoc]
        rfl
      · rcases placed with ⟨inside, within⟩ | ⟨rfl, -⟩
        · simp at none within
          omega
        · exact ⟨_, rfl⟩

/-- A call that finds something leaves less to be read. -/
theorem next?_passed (h : cur.next? = some (item, next)) :
    ∃ passed, passed ≠ [] ∧ cur.Reaches passed next := by
  obtain ⟨passed, reaches⟩ := reaches_of_next? h
  refine ⟨passed, ?_, reaches⟩
  rintro rfl
  have less := next?_length_lt h
  rw [reaches.rest_eq, List.nil_append] at less
  exact Nat.lt_irrefl _ less

/-! ### All calls -/

/-- A call of the scanner: what it finds, if anything, and the place where the next call begins. If
nothing is found, that is behind the last blanks. -/
def call (cur : Cursor) : Option (Except (Fault × Nat) Token) × Cursor :=
  match cur.next? with
  | some (item, next) => (some item, next)
  | none => (none, cur.skipBlanks)

/-- The place where a call begins that comes after a number of others. -/
def afterCalls : Nat → Cursor → Cursor
  | 0, cur => cur
  | count + 1, cur => afterCalls count cur.call.2

theorem call_eq_some (h : cur.next? = some (item, next)) : cur.call = (some item, next) := by
  rw [call, h]

/-- A call that finds something moves on by at least one character. -/
theorem call_passed (h : cur.call = (some item, next)) :
    ∃ passed, passed ≠ [] ∧ cur.Reaches passed next := by
  unfold call at h
  split at h
  · rename_i found
    cases h
    exact next?_passed found
  · cases h

theorem call_eq_none (h : cur.next? = none) : cur.call = (none, cur.skipBlanks) := by
  rw [call, h]

/-- Behind the last blanks nothing is found either. -/
theorem next?_skipBlanks (h : cur.next? = none) : cur.skipBlanks.next? = none := by
  obtain ⟨gap, rest, -, -, skip⟩ := cur.skipBlanks_split
  cases rest with
  | nil =>
    rw [skip]
    rfl
  | cons c rest =>
    simp only [next?, skip] at h
    cases h

/-- There are no more tokens and faults than characters. -/
theorem items_length_le (cur : Cursor) : cur.items.length ≤ cur.rest.length := by
  cases found : cur.next? with
  | none =>
    rw [items_eq_nil found]
    exact Nat.zero_le _
  | some step =>
    obtain ⟨item, next⟩ := step
    -- By induction on what is left to read.
    have more := items_length_le next
    have less := next?_length_lt found
    rw [items_eq_cons found, List.length_cons]
    omega
termination_by cur.rest.length
decreasing_by exact next?_length_lt found

/-- The calls find the items one after the other, and after the last one they find nothing. -/
theorem call_afterCalls (cur : Cursor) (count : Nat) :
    (cur.afterCalls count).call.1 = cur.items[count]? := by
  induction count generalizing cur with
  | zero =>
    cases found : cur.next? with
    | none => rw [afterCalls, call_eq_none found, items_eq_nil found]; rfl
    | some step => rw [afterCalls, call_eq_some found, items_eq_cons found]; rfl
  | succ count ih =>
    rw [afterCalls, ih]
    cases found : cur.next? with
    | none =>
      rw [call_eq_none found, items_eq_nil found, items_eq_nil (next?_skipBlanks found)]
      rfl
    | some step => rw [call_eq_some found, items_eq_cons found, List.getElem?_cons_succ]

/-- Once nothing is found, nothing is found any more. -/
theorem call_afterCalls_eq_none (h : cur.call.1 = none) (count : Nat) :
    (cur.afterCalls count).call.1 = none := by
  have first := cur.call_afterCalls 0
  rw [afterCalls, h] at first
  rw [call_afterCalls]
  exact List.getElem?_eq_none (by have := List.getElem?_eq_none_iff.1 first.symm; omega)

/-- What comes next does not lie before what has been found, and lies behind it unless that is a
sign without a digit. -/
def Follows (item item' : Except (Fault × Nat) Token) : Prop :=
  placeOf item < placeOf item' ∨
    placeOf item = placeOf item' ∧ ∃ offset, item = .error (.invalidExponent, offset)

/-- Two calls, one after the other. -/
theorem follows_of_next? {item' : Except (Fault × Nat) Token} {last : Cursor}
    (h : cur.next? = some (item, next)) (h' : next.next? = some (item', last)) :
    Follows item item' := by
  obtain ⟨before, passed, reaches, place, sign⟩ := next?_place h
  obtain ⟨before', passed', -, place', -⟩ := next?_place h'
  have pos := reaches.pos_eq
  rw [byteSize_append] at pos
  by_cases none : passed = []
  · rcases Nat.eq_zero_or_pos (byteSize before') with zero | more
    · refine .inr ⟨?_, sign none⟩
      rw [none] at pos
      simp only [byteSize] at pos
      omega
    · refine .inl ?_
      omega
  · have size := byteSize_pos none
    refine .inl ?_
    omega

theorem items_chain (cur : Cursor) : cur.items.IsChain Follows := by
  cases found : cur.next? with
  | none =>
    rw [items_eq_nil found]
    exact .nil
  | some step =>
    obtain ⟨item, next⟩ := step
    rw [items_eq_cons found]
    cases found' : next.next? with
    | none =>
      rw [items_eq_nil found']
      exact .singleton _
    | some step' =>
      have more := items_chain next
      rw [items_eq_cons found'] at more ⊢
      exact .cons_cons (follows_of_next? found found') more
termination_by cur.rest.length
decreasing_by exact next?_length_lt found

/-- The offsets never decrease. -/
theorem items_sorted (cur : Cursor) : (cur.items.map placeOf).Pairwise (· ≤ ·) := by
  refine List.isChain_iff_pairwise.1 ((List.isChain_map _).2 (cur.items_chain.imp ?_))
  rintro item item' (before | ⟨same, -⟩)
  · exact Nat.le_of_lt before
  · exact Nat.le_of_eq same

/-- What is found has its place where some character begins, or at the end. -/
theorem exists_split_of_mem_items (cur : Cursor) (h : item ∈ cur.items) :
    ∃ before after, cur.rest = before ++ after ∧ placeOf item = cur.pos + byteSize before := by
  obtain ⟨passed, later, next, reaches, read⟩ := cur.exists_place_of_mem_items h
  obtain ⟨before, passed', reaches', place, -⟩ := next?_place read
  refine ⟨passed ++ before, passed' ++ next.rest, ?_, ?_⟩
  · rw [reaches.rest_eq, reaches'.rest_eq]
    simp only [List.append_assoc]
  · rw [place, reaches.pos_eq, byteSize_append, Nat.add_assoc]

end Cursor

/-! ### Tokens up to the first fault -/

section FirstError

variable {ε ε' α : Type} {items : List (Except ε α)}

/-- Either there are no errors in the list or there is a first one. -/
theorem forall_ok_or_exists_first_error (items : List (Except ε α)) :
    (∃ found : List α, items = found.map .ok) ∨
      ∃ (found : List α) (e : ε) (rest : _), items = found.map .ok ++ .error e :: rest := by
  induction items with
  | nil => exact .inl ⟨[], rfl⟩
  | cons item items ih =>
    cases item with
    | error e => exact .inr ⟨[], e, items, rfl⟩
    | ok a =>
      rcases ih with ⟨found, rfl⟩ | ⟨found, e, rest, rfl⟩
      · exact .inl ⟨a :: found, rfl⟩
      · exact .inr ⟨a :: found, e, rest, rfl⟩

theorem mapM_id_map_ok (found : List α) :
    (found.map .ok).mapM id = (.ok found : Except ε (List α)) := by
  induction found with
  | nil => rfl
  | cons a found ih =>
    rw [List.map_cons, List.mapM_cons, ih]
    rfl

theorem mapM_id_append_error (found : List α) (e : ε) (rest : List (Except ε α)) :
    (found.map Except.ok ++ Except.error e :: rest).mapM id = .error e := by
  induction found with
  | nil => rfl
  | cons a found ih =>
    rw [List.map_cons, List.cons_append, List.mapM_cons, ih]
    rfl

theorem mapM_id_eq_ok_iff {found : List α} :
    items.mapM id = .ok found ↔ items = found.map .ok := by
  constructor
  · intro h
    rcases forall_ok_or_exists_first_error items with ⟨found, rfl⟩ | ⟨found, e, rest, rfl⟩
    · rw [mapM_id_map_ok] at h
      cases h
      rfl
    · rw [mapM_id_append_error] at h
      cases h
  · rintro rfl
    exact mapM_id_map_ok found

theorem mapM_id_eq_error_iff {e : ε} :
    items.mapM id = .error e ↔ ∃ found rest, items = List.map .ok found ++ .error e :: rest := by
  constructor
  · intro h
    rcases forall_ok_or_exists_first_error items with ⟨found, rfl⟩ | ⟨found, e, rest, rfl⟩
    · rw [mapM_id_map_ok] at h
      cases h
    · rw [mapM_id_append_error] at h
      cases h
      exact ⟨found, rest, rfl⟩
  · rintro ⟨found, rest, rfl⟩
    exact mapM_id_append_error found e rest

end FirstError

theorem Cursor.tokens_eq_mapM (cur : Cursor) : cur.tokens = cur.items.mapM id := by
  cases found : cur.next? with
  | none =>
    rw [tokens_eq_nil found, items_eq_nil found]
    rfl
  | some step =>
    obtain ⟨item, next⟩ := step
    rw [items_eq_cons found, List.mapM_cons]
    cases item with
    | error e =>
      rw [tokens_eq_error found]
      rfl
    | ok token =>
      -- By induction on what is left to read.
      rw [tokens_eq_cons found, tokens_eq_mapM next]
      cases next.items.mapM id <;> rfl
termination_by cur.rest.length
decreasing_by exact next?_length_lt found

/-- The tokens of a source are what is found in it, up to the first error. -/
theorem tokenize_eq_mapM (source : String) : tokenize source = (scan source).mapM id := by
  rw [tokenize, Cursor.tokens_eq_mapM, scan]
  generalize (Cursor.ofSource source).items = items
  induction items with
  | nil => rfl
  | cons item items ih =>
    rw [List.map_cons, List.mapM_cons, List.mapM_cons, ← ih]
    cases item with
    | error e => rfl
    | ok token => cases items.mapM id <;> rfl

/-- The calls of the scanner find the items of a source one after the other. Each of them leaves
less of the source to be read, and once nothing is found, nothing is found any more, so that there
are no more items than characters. All items have their places between characters of the source, in
ascending order, and two of them that follow each other have one place only if the first is a sign
without a digit. The source has tokens if no item is a fault, and otherwise the first fault is its
error. -/
theorem scan_progress (source : String) :
    let start := Cursor.ofSource source
    (∀ count, (start.afterCalls count).call.1 = start.items[count]?) ∧
      (∀ cur item next, Cursor.call cur = (some item, next) →
        ∃ passed, passed ≠ [] ∧ cur.Reaches passed next) ∧
      (∀ cur, (Cursor.call cur).1 = none → ∀ count, (cur.afterCalls count).call.1 = none) ∧
      (scan source).length ≤ source.toList.length ∧
      (∀ item ∈ start.items, ∃ before after,
        source.toList = before ++ after ∧ placeOf item = byteSize before) ∧
      (start.items.map placeOf).Pairwise (· ≤ ·) ∧
      (∀ before item item' after, start.items = before ++ item :: item' :: after →
        placeOf item = placeOf item' → ∃ offset, item = .error (.invalidExponent, offset)) ∧
      (∀ tokens, tokenize source = .ok tokens ↔ scan source = tokens.map .ok) ∧
      ∀ e, tokenize source = .error e ↔
        ∃ (tokens : List Token) (rest : _), scan source = tokens.map .ok ++ .error e :: rest := by
  refine ⟨Cursor.call_afterCalls _, fun cur item next h => Cursor.call_passed h,
    fun cur h => cur.call_afterCalls_eq_none h, ?_, fun item mem => ?_,
    Cursor.items_sorted _, fun before item item' after split same => ?_, fun tokens => ?_,
    fun e => ?_⟩
  · rw [scan, List.length_map]
    exact Cursor.items_length_le _
  · obtain ⟨before, after, eq, place⟩ := Cursor.exists_split_of_mem_items _ mem
    exact ⟨before, after, eq, place.trans (Nat.zero_add _)⟩
  · have chain := (Cursor.ofSource source).items_chain
    rw [split] at chain
    rcases (List.isChain_cons_cons.1 chain.right_of_append).1 with less | ⟨-, sign⟩
    · exact absurd same (Nat.ne_of_lt less)
    · exact sign
  · rw [tokenize_eq_mapM, mapM_id_eq_ok_iff]
  · rw [tokenize_eq_mapM, mapM_id_eq_error_iff]

/-- The sign of an exponent that has no digits is found twice, in one place. -/
theorem scan_progress_sign :
    let start := Cursor.ofSource "1e+ a"
    start.items = [.error (.invalidExponent, 2), .error (.unexpectedChar '+', 2),
        .ok ⟨.word "a", 4⟩] ∧
      (start.afterCalls 3).call.1 = none ∧
      tokenize "1e+ a" = .error (.ofFault "1e+ a" (.invalidExponent, 2)) := by
  have number : (Cursor.ofSource "1e+ a").next? =
      some (.error (.invalidExponent, 2), ⟨2, ['+', ' ', 'a']⟩) := rfl
  have sign : (Cursor.mk 2 ['+', ' ', 'a']).next? =
      some (.error (.unexpectedChar '+', 2), ⟨3, [' ', 'a']⟩) := rfl
  have name : (Cursor.mk 3 [' ', 'a']).next? = some (.ok ⟨.word "a", 4⟩, ⟨5, []⟩) := rfl
  have items : (Cursor.ofSource "1e+ a").items =
      [.error (.invalidExponent, 2), .error (.unexpectedChar '+', 2), .ok ⟨.word "a", 4⟩] := by
    rw [Cursor.items_eq_cons number, Cursor.items_eq_cons sign, Cursor.items_eq_cons name,
      Cursor.items_eq_nil rfl]
  have found : scan "1e+ a" = [.error (.ofFault "1e+ a" (.invalidExponent, 2)),
      .error (.ofFault "1e+ a" (.unexpectedChar '+', 2)), .ok ⟨.word "a", 4⟩] := by
    rw [scan, items]
    rfl
  obtain ⟨calls, -, -, -, -, -, -, -, error⟩ := scan_progress "1e+ a"
  refine ⟨items, ?_, (error _).2 ⟨[], _, found⟩⟩
  rw [calls, items]
  rfl

end DataBinding
