import DataBinding.Proofs.Token.Numbers
import DataBinding.Proofs.Token.Progress
import DataBinding.Proofs.Token.Respacing

/-!
# Faults in the spelling of tokens

What stands at some place of a source is read as a token or it is a fault, and the characters there
tell which: a slice that spells a lexeme, and behind it what does not go on with the token, or
characters that make no token, and then also at which of them the fault lies. So the scanner has no
choice. A source that is cut into tokens from its beginning gets to one place where no token can be
made, if there is any, and this is the place of its first fault. Behind a fault the scanner goes on,
and what it finds there is told by the characters in front of which it stands.

## Main definitions

* `Fault.Misspells` — the characters that come next make no token
* `CutInto` — a text is cut into tokens
* `Fault.ComesFirst` — behind a text that is cut into tokens, no token can be made
* `Fault.ComesBehind` — the fault is what the scanner comes to behind a number of calls

## Main results

* `Cursor.next?_ok_iff`, `Cursor.next?_error_iff` — what one call finds
* `Cursor.tokens_eq_error_iff` — the first fault, from any place on
* `Fault.ComesFirst.unique`, `Fault.ComesBehind.unique` — there is one place only
-/

namespace DataBinding

open Decimal Recognized

/-- The text before a place is determined by its size. -/
theorem eq_of_byteSize_eq {front back front' back' : List Char}
    (text : front ++ back = front' ++ back') (size : byteSize front = byteSize front') :
    front = front' :=
  Position.ofOffset_injective text (by rw [size, text])

/-- Between tokens the character cannot stand, and no token begins with it. -/
def Alien (c : Char) : Prop :=
  isBlank c = false ∧ c.isDigit = false ∧ c ≠ '"' ∧ c ≠ '\'' ∧ Mark.ofChar? c = none ∧
    isWordStart c = false

/-- The characters `passed` and `after`, one behind the other, begin with what makes no token. The
fault says why, and it lies between the two. -/
inductive Fault.Misspells : List Char → List Char → Fault → Prop where
  /-- A character that begins no token. -/
  | unexpectedChar {c : Char} (alien : Alien c) (rest : List Char) :
    Misspells [] (c :: rest) (.unexpectedChar c)
  /-- A sign without a digit, behind the exponent mark of a number. -/
  | invalidExponent {run rest : List Char} {mark sign : Char}
    (starts : StartsNumber (run ++ mark :: sign :: rest))
    (h : NumberRun (sign :: rest) false (run ++ [mark])) (marked : isMark mark = true)
    (signed : isSign sign = true) (lacks : startsWithDigit rest = false) :
    Misspells (run ++ [mark]) (sign :: rest) .invalidExponent
  /-- The beginning of a number in which two characters are too many. -/
  | invalidNumber {run rest : List Char} {last c c' : Char}
    (starts : StartsNumber (run ++ last :: rest)) (h : NumberRun rest false (run ++ [last]))
    (unmarked : isMark last = false) (ends : EndsNumber rest)
    (both : [c, c'].Sublist (run ++ [last])) (clash : Clash c c') :
    Misspells [] (run ++ last :: rest) .invalidNumber
  /-- The backslash of an escape that gives no character, within a string. -/
  | invalidUnicodeEscape {quote : Char} {body value code : List Char}
    (quoted : quote = '"' ∨ quote = '\'') (h : Spelling quote body value)
    (bad : MalformedCode code) :
    Misspells (quote :: body) ('\\' :: 'u' :: code) .invalidUnicodeEscape
  /-- The quote that opens a string in which the source ends. -/
  | unmatchedQuote {quote : Char} {text body value : List Char}
    (quoted : quote = '"' ∨ quote = '\'') (ends : text = body ∨ text = body ++ ['\\'])
    (h : Spelling quote body value) : Misspells [] (quote :: text) .unmatchedQuote

/-! ### One call -/

/-- What begins neither a number nor a string nor a word, and is no mark, is unexpected. -/
theorem Alien.recognized {c : Char} (h : Alien c) (rest : List Char) :
    recognize c rest = ⟨.error (.unexpectedChar c, 0), 1⟩ := by
  obtain ⟨-, digit, double, single, mark, start⟩ := h
  have point : c ≠ '.' := by
    rintro rfl
    cases mark
  simp [recognize, digit, point, double, single, mark, start]

namespace Cursor

variable {cur next : Cursor} {gap passed after : List Char} {fault : Fault} {offset : Nat}

/-- What makes no token is found as a fault, at its place. -/
theorem next?_misspells (h : fault.Misspells passed after)
    (text : cur.rest = gap ++ (passed ++ after)) (blank : gap ⊆ blanks) :
    ∃ next, cur.next? =
      some (.error (fault, cur.pos + byteSize gap + byteSize passed), next) := by
  cases h with
  | unexpectedChar alien rest =>
    rw [next?_eq text blank alien.1, alien.recognized]
    exact ⟨_, rfl⟩
  | invalidExponent starts h marked signed lacks =>
    rw [List.append_assoc, List.singleton_append] at text
    exact (next?_number_iff text blank starts).2 (.exponent rfl h marked signed lacks)
  | invalidNumber starts h unmarked ends both clash =>
    exact (next?_number_iff text blank starts).2 (.malformed rfl h unmarked ends both clash)
  | invalidUnicodeEscape quoted h bad =>
    exact (next?_quote_iff text blank quoted).2 (.malformed rfl h bad)
  | unmatchedQuote quoted ends h =>
    exact (next?_quote_iff text blank quoted).2 (.unclosed ends h)

/-- A fault that is found where no blank comes first is told by the characters there. -/
theorem exists_misspells_of_next? {c : Char} {rest : List Char} (text : cur.rest = c :: rest)
    (solid : isBlank c = false) (read : cur.next? = some (.error (fault, offset), next)) :
    ∃ passed after, c :: rest = passed ++ after ∧ offset = cur.pos + byteSize passed ∧
      fault.Misspells passed after := by
  have here : cur.rest = [] ++ c :: rest := text
  by_cases starts : StartsNumber (c :: rest)
  · have outcome := (next?_number_iff here (List.nil_subset _) starts).1 ⟨next, read⟩
    cases outcome with
    | @exponent run rest mark sign split h marked signed lacks =>
      rw [split] at starts ⊢
      exact ⟨run ++ [mark], sign :: rest, by simp, rfl,
        .invalidExponent starts h marked signed lacks⟩
    | malformed split h unmarked ends both clash =>
      rw [split] at starts ⊢
      exact ⟨[], _, rfl, rfl, .invalidNumber starts h unmarked ends both clash⟩
  by_cases quoted : c = '"' ∨ c = '\''
  · have outcome := (next?_quote_iff here (List.nil_subset _) quoted).1 ⟨next, read⟩
    cases outcome with
    | @malformed body value code split h bad =>
      exact ⟨c :: body, _, congrArg (c :: ·) split, rfl, .invalidUnicodeEscape quoted h bad⟩
    | unclosed split h => exact ⟨[], _, rfl, rfl, .unmatchedQuote quoted split h⟩
  -- What begins neither a number nor a string is a token, unless the character is unexpected.
  have plain : (c.isDigit || c == '.' && startsWithDigit rest) = false := by
    refine Bool.eq_false_iff.2 fun goes => starts ⟨c, rest, rfl, ?_⟩
    simpa using goes
  have unquoted : (c == '"' || c == '\'') = false := by simpa using quoted
  rw [next?_eq here (List.nil_subset _) solid, recognize, plain, unquoted,
    if_neg Bool.false_ne_true, if_neg Bool.false_ne_true] at read
  cases mark : Mark.ofChar? c with
  | some m =>
    rw [mark] at read
    cases read
  | none =>
    rw [mark] at read
    cases start : isWordStart c with
    | true =>
      simp only [start, if_pos] at read
      cases read
    | false =>
      simp only [start, if_neg Bool.false_ne_true] at read
      cases read
      have digit := (Bool.or_eq_false_iff.1 plain).1
      obtain ⟨double, single⟩ := not_or.1 quoted
      exact ⟨[], _, rfl, rfl, .unexpectedChar ⟨solid, digit, double, single, mark, start⟩ rest⟩

/-- What is read behind blanks is read in front of a character that is none. -/
theorem exists_start_of_next? {item : Except (Fault × Nat) Token}
    (h : cur.next? = some (item, next)) :
    ∃ gap c rest, cur.rest = gap ++ c :: rest ∧ gap ⊆ blanks ∧ isBlank c = false ∧
      (Cursor.mk (cur.pos + byteSize gap) (c :: rest)).next? = some (item, next) := by
  obtain ⟨gap, rest, eq, blank, skip⟩ := cur.skipBlanks_split
  cases rest with
  | nil =>
    simp only [next?, skip] at h
    cases h
  | cons c rest =>
    have solid : isBlank c = false := by
      have first := List.head?_dropWhile_not isBlank cur.rest
      rwa [← skipBlanks_rest, skip] at first
    have here : (Cursor.mk (cur.pos + byteSize gap) (c :: rest)).rest = [] ++ c :: rest := rfl
    refine ⟨gap, c, rest, eq, blank, solid, ?_⟩
    rw [← h, next?_eq eq blank solid]
    exact next?_eq here (List.nil_subset _) solid

/-- A call finds a fault if what comes behind the blanks makes no token. -/
theorem next?_error_iff :
    (∃ next, cur.next? = some (.error (fault, offset), next)) ↔
      ∃ gap passed after, cur.rest = gap ++ (passed ++ after) ∧ gap ⊆ blanks ∧
        offset = cur.pos + byteSize gap + byteSize passed ∧ fault.Misspells passed after := by
  constructor
  · rintro ⟨next, read⟩
    obtain ⟨gap, c, rest, eq, blank, solid, read⟩ := exists_start_of_next? read
    obtain ⟨passed, after, split, place, h⟩ := exists_misspells_of_next? rfl solid read
    exact ⟨gap, passed, after, eq.trans (congrArg (gap ++ ·) split), blank, place, h⟩
  · rintro ⟨gap, passed, after, text, blank, rfl, h⟩
    exact next?_misspells h text blank

/-- A call finds a token if its slice comes behind the blanks, and then what does not go on with
the token. -/
theorem next?_ok_iff {token : Token} :
    cur.next? = some (.ok token, next) ↔
      ∃ gap slice, cur.rest = gap ++ (slice ++ next.rest) ∧ gap ⊆ blanks ∧
        token.pos = cur.pos + byteSize gap ∧ next.pos = token.pos + byteSize slice ∧
        token.lexeme.SpelledBy slice next.rest ∧ token.lexeme.EndsBefore next.rest := by
  constructor
  · intro read
    obtain ⟨⟨gap, slice, token⟩, rfl, text, pos, blank, place, spelled⟩ := next?_eq_ok read
    rw [Piece.chars, List.append_assoc] at text
    rw [Piece.chars, byteSize_append, ← Nat.add_assoc, ← place] at pos
    refine ⟨gap, slice, text, blank, place, pos, spelled, ?_⟩
    -- The slice has been recognized, and so the token ends where the slice ends.
    obtain ⟨c, cs, rfl, solid, -⟩ := spelled.recognized token.lexeme.endsBefore_nil
    rw [List.cons_append] at text
    rw [next?_eq text blank solid] at read
    refine spelled.endsBefore_of_recognize ?_
    have item := (Prod.mk.inj (Option.some.inj read)).1
    cases found : (recognize c (cs ++ next.rest)).outcome with
    | ok lexeme =>
      simp only [found] at item
      cases item
      rfl
    | error e =>
      simp only [found] at item
      cases item
  · rintro ⟨gap, slice, text, blank, place, pos, spelled, ends⟩
    obtain ⟨lexeme, start⟩ := token
    obtain ⟨offset, rest⟩ := next
    cases place
    cases pos
    obtain ⟨c, cs, rfl, solid, found⟩ := spelled.recognized ends
    have passed := advance_append (cur.pos + byteSize gap) (c :: cs) rest
    rw [List.cons_append] at text passed
    rw [next?_eq text blank solid, found]
    exact congrArg (fun next => some (_, next)) passed

end Cursor

/-! ### The first fault -/

/-- The text, in front of `rest`, is cut into tokens of the lexemes: each comes behind blanks, and
it goes on as long as it can. -/
inductive CutInto : List Lexeme → List Char → List Char → Prop where
  | nil (rest : List Char) : CutInto [] [] rest
  | cons {l : Lexeme} {ls : List Lexeme} {gap slice text rest : List Char} (blank : gap ⊆ blanks)
    (h : l.SpelledBy slice (text ++ rest)) (ends : l.EndsBefore (text ++ rest))
    (more : CutInto ls text rest) : CutInto (l :: ls) (gap ++ (slice ++ text)) rest

/-- Of a text that is cut in two, the first part consists of tokens, a gap and what a misspelling
has in front of its place. So the place is that of the first fault in the text. -/
inductive Fault.ComesFirst (before after : List Char) (fault : Fault) : Prop where
  | intro {ls : List Lexeme} {front gap passed : List Char}
    (place : before = front ++ (gap ++ passed)) (cut : CutInto ls front (gap ++ (passed ++ after)))
    (blank : gap ⊆ blanks) (h : fault.Misspells passed after)

theorem Fault.Misspells.comesFirst {fault : Fault} {gap passed after : List Char}
    (h : fault.Misspells passed after) (blank : gap ⊆ blanks) :
    fault.ComesFirst (gap ++ passed) after :=
  .intro rfl (.nil _) blank h

/-- One more token in front. -/
theorem Fault.ComesFirst.cons {fault : Fault} {l : Lexeme} {gap slice before after : List Char}
    (h : fault.ComesFirst before after) (blank : gap ⊆ blanks)
    (spelled : l.SpelledBy slice (before ++ after)) (ends : l.EndsBefore (before ++ after)) :
    fault.ComesFirst (gap ++ (slice ++ before)) after := by
  obtain ⟨rfl, cut, blank', h⟩ := h
  rw [List.append_assoc, List.append_assoc] at spelled ends
  exact .intro (by simp) (.cons blank spelled ends cut) blank' h

namespace Cursor

variable {fault : Fault} {offset : Nat}

theorem exists_comesFirst_of_tokens (cur : Cursor) (h : cur.tokens = .error (fault, offset)) :
    ∃ before after, cur.rest = before ++ after ∧ offset = cur.pos + byteSize before ∧
      fault.ComesFirst before after := by
  cases found : cur.next? with
  | none =>
    rw [tokens_eq_nil found] at h
    cases h
  | some step =>
    obtain ⟨item, next⟩ := step
    cases item with
    | error e =>
      rw [tokens_eq_error found] at h
      cases h
      obtain ⟨gap, passed, after, text, blank, rfl, h⟩ := next?_error_iff.1 ⟨next, found⟩
      refine ⟨gap ++ passed, after, ?_, ?_, h.comesFirst blank⟩
      · rw [text, List.append_assoc]
      · rw [byteSize_append, Nat.add_assoc]
    | ok token =>
      rw [tokens_eq_cons found] at h
      obtain ⟨gap, slice, text, blank, place, pos, spelled, ends⟩ := next?_ok_iff.1 found
      -- By induction on what is left to read.
      have failed : next.tokens = .error (fault, offset) := by
        cases read : next.tokens with
        | ok tokens =>
          rw [read] at h
          cases h
        | error e =>
          rw [read] at h
          cases h
          rfl
      obtain ⟨before, after, rest, rfl, first⟩ := exists_comesFirst_of_tokens next failed
      rw [rest] at text spelled ends
      refine ⟨gap ++ (slice ++ before), after, ?_, ?_, first.cons blank spelled ends⟩
      · rw [text]
        simp only [List.append_assoc]
      · simp only [pos, place, byteSize_append, Nat.add_assoc]
termination_by cur.rest.length
decreasing_by exact next?_length_lt found

/-- Behind a text that is cut into tokens, the first fault is the one that comes there. -/
theorem tokens_of_cutInto {ls : List Lexeme} {text rest : List Char} (cut : CutInto ls text rest)
    {cur : Cursor} (h : cur.rest = text ++ rest)
    (failed : Cursor.tokens ⟨cur.pos + byteSize text, rest⟩ = .error (fault, offset)) :
    cur.tokens = .error (fault, offset) := by
  induction cut generalizing cur with
  | nil =>
    obtain ⟨pos, rest⟩ := cur
    cases h
    exact failed
  | @cons l ls gap slice text rest blank spelled ends more ih =>
    have pos : cur.pos + byteSize (gap ++ (slice ++ text)) =
        cur.pos + byteSize gap + byteSize slice + byteSize text := by
      simp only [byteSize_append, Nat.add_assoc]
    have split : cur.rest = gap ++ (slice ++ (text ++ rest)) := by
      rw [h]
      simp only [List.append_assoc]
    have read : cur.next? = some (.ok ⟨l, cur.pos + byteSize gap⟩,
        ⟨cur.pos + byteSize gap + byteSize slice, text ++ rest⟩) :=
      next?_ok_iff.2 ⟨gap, slice, split, blank, rfl, rfl, spelled, ends⟩
    rw [pos] at failed
    rw [tokens_eq_cons read, ih rfl failed]
    rfl

/-- The first fault from a place on lies behind what is cut into tokens there. -/
theorem tokens_eq_error_iff {cur : Cursor} :
    cur.tokens = .error (fault, offset) ↔ ∃ before after, cur.rest = before ++ after ∧
      offset = cur.pos + byteSize before ∧ fault.ComesFirst before after := by
  refine ⟨cur.exists_comesFirst_of_tokens, ?_⟩
  rintro ⟨_, after, text, rfl, rfl, cut, blank, h⟩
  rw [List.append_assoc, List.append_assoc] at text
  obtain ⟨next, read⟩ := next?_misspells h
    (show (Cursor.mk (cur.pos + byteSize _) _).rest = _ from rfl) blank
  refine tokens_of_cutInto cut text ((tokens_eq_error read).trans ?_)
  simp only [byteSize_append, Nat.add_assoc]

end Cursor

/-- A text has one first fault, and it lies at one place. -/
theorem Fault.ComesFirst.unique {fault fault' : Fault} {before after before' after' : List Char}
    (h : fault.ComesFirst before after) (h' : fault'.ComesFirst before' after')
    (text : before ++ after = before' ++ after') : before = before' ∧ fault = fault' := by
  let cur := Cursor.mk 0 (before ++ after)
  have read : cur.tokens = .error (fault, 0 + byteSize before) :=
    Cursor.tokens_eq_error_iff.2 ⟨before, after, rfl, rfl, h⟩
  have read' : cur.tokens = .error (fault', 0 + byteSize before') :=
    Cursor.tokens_eq_error_iff.2 ⟨before', after', text, rfl, h'⟩
  rw [read] at read'
  obtain ⟨same, size⟩ := Prod.mk.inj (Except.error.inj read')
  exact ⟨eq_of_byteSize_eq text (Nat.add_left_cancel size), same⟩

theorem tokenize_eq_error_iff {source : String} {e : SyntaxError} :
    tokenize source = .error e ↔ ∃ before after fault, source.toList = before ++ after ∧
      e = .ofFault source (fault, byteSize before) ∧ fault.ComesFirst before after := by
  have start : ∀ size, (Cursor.ofSource source).pos + size = size := Nat.zero_add
  constructor
  · intro h
    unfold tokenize at h
    cases read : (Cursor.ofSource source).tokens with
    | ok tokens =>
      rw [read] at h
      cases h
    | error located =>
      rw [read] at h
      cases h
      obtain ⟨before, after, text, offset, first⟩ := Cursor.exists_comesFirst_of_tokens _ read
      rw [start] at offset
      exact ⟨before, after, located.1, text, by rw [← offset], first⟩
  · rintro ⟨before, after, fault, text, rfl, first⟩
    have read : (Cursor.ofSource source).tokens = .error (fault, byteSize before) :=
      Cursor.tokens_eq_error_iff.2 ⟨before, after, text, (start _).symm, first⟩
    rw [tokenize, read]
    rfl

/-! ### Faults behind others -/

/-- Behind `count` calls the scanner stands behind `front`, and a gap and what a misspelling has in
front of its place lead up to the end of `before`. So the place is that of the fault that is found
next. -/
inductive Fault.ComesBehind (source : String) (count : Nat) (before after : List Char)
    (fault : Fault) : Prop where
  | intro {front gap passed : List Char} (place : before = front ++ (gap ++ passed))
    (stands : (Cursor.ofSource source).afterCalls count =
      ⟨byteSize front, gap ++ (passed ++ after)⟩)
    (blank : gap ⊆ blanks) (h : fault.Misspells passed after)

namespace Cursor

theorem exists_reaches_call (cur : Cursor) : ∃ passed, cur.Reaches passed cur.call.2 := by
  unfold call
  split
  · rename_i found
    exact reaches_of_next? found
  · exact ⟨_, cur.reaches_advance _⟩

theorem exists_next?_of_call {cur : Cursor} {item : Except (Fault × Nat) Token}
    (h : cur.call.1 = some item) : ∃ next, cur.next? = some (item, next) := by
  unfold call at h
  split at h
  · rename_i next found
    cases h
    exact ⟨next, found⟩
  · cases h

/-- The calls lead from place to place. -/
theorem exists_reaches_afterCalls (cur : Cursor) (count : Nat) :
    ∃ passed, cur.Reaches passed (cur.afterCalls count) := by
  induction count generalizing cur with
  | zero => exact ⟨[], .refl cur⟩
  | succ count ih =>
    obtain ⟨passed, first⟩ := cur.exists_reaches_call
    obtain ⟨passed', others⟩ := ih cur.call.2
    exact ⟨passed ++ passed', first.trans others⟩

end Cursor

/-- The errors of a source, by the number of tokens and faults in front of each. -/
theorem exists_comesBehind_of_scan {source : String} {count : Nat} {e : SyntaxError}
    (h : (scan source)[count]? = some (.error e)) :
    ∃ before after fault, source.toList = before ++ after ∧
      e = .ofFault source (fault, byteSize before) ∧
        fault.ComesBehind source count before after := by
  obtain ⟨item, found, mapped⟩ := Option.map_eq_some_iff.1 (List.getElem?_map.symm.trans h)
  cases item with
  | ok token => cases mapped
  | error located =>
    cases mapped
    rw [← Cursor.call_afterCalls] at found
    obtain ⟨front, reaches⟩ := (Cursor.ofSource source).exists_reaches_afterCalls count
    obtain ⟨gap, passed, after, rest, blank, offset, h⟩ :=
      Cursor.next?_error_iff.1 (Cursor.exists_next?_of_call found)
    -- The scanner stands at the end of what it has gone over.
    have pos : ((Cursor.ofSource source).afterCalls count).pos = byteSize front :=
      reaches.pos_eq.trans (Nat.zero_add _)
    have text : source.toList = front ++ (gap ++ (passed ++ after)) := by
      rw [← rest]
      exact reaches.rest_eq
    refine ⟨front ++ (gap ++ passed), after, located.1, ?_, ?_, .intro rfl ?_ blank h⟩
    · rw [text]
      simp only [List.append_assoc]
    · rw [byteSize_append, byteSize_append, ← Nat.add_assoc, ← pos, ← offset]
    · rw [← pos, ← rest]

/-- Behind a number of calls one fault is found at most, and it lies at one place. -/
theorem Fault.ComesBehind.unique {source : String} {count : Nat} {fault fault' : Fault}
    {before after before' after' : List Char} (h : fault.ComesBehind source count before after)
    (h' : fault'.ComesBehind source count before' after')
    (text : before ++ after = before' ++ after') : before = before' ∧ fault = fault' := by
  obtain @⟨front, gap, passed, rfl, stands, blank, h⟩ := h
  obtain @⟨front', gap', passed', rfl, stands', blank', h'⟩ := h'
  -- Both are what one call finds.
  obtain ⟨next, read⟩ := Cursor.next?_misspells h (congrArg Cursor.rest stands) blank
  obtain ⟨next', read'⟩ := Cursor.next?_misspells h' (congrArg Cursor.rest stands') blank'
  rw [read] at read'
  obtain ⟨same, offset⟩ := Prod.mk.inj (Except.error.inj (Prod.mk.inj (Option.some.inj read')).1)
  refine ⟨eq_of_byteSize_eq text ?_, same⟩
  have size : byteSize front = byteSize front' :=
    congrArg Cursor.pos (stands.symm.trans stands')
  simp only [byteSize_append]
  omega

end DataBinding
