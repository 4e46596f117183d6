import DataBinding.Proofs.Token.Places
import DataBinding.Proofs.Token.Spelling

/-!
# Strings in a source

A quote begins a string. What follows it decides what is read there: a string, if spelled characters
come up to the next such quote; a fault at the first escape that gives no character, if that comes
before; or a fault at the opening quote, if the source ends before. Strings and the faults of
strings are read at quotes only.

## Main definitions

* `StringOutcome` — what is read at a quote, by what follows it
* `ConcernsString` — a token or an error that a quote leads to

## Main results

* `Cursor.next?_spelling` — a spelled string between quotes is read as the string
* `stringOutcome_iff` — what is read at a quote is decided by what follows it
* `scan_strings` — the strings of sources, and the faults in them
-/

namespace DataBinding

/-- What is read at a quote at the offset `start`, where `text` follows the quote. -/
inductive StringOutcome (quote : Char) (text : List Char) (start : Nat) :
    Except (Fault × Nat) Token → Prop where
  /-- Spelled characters come up to the closing quote. -/
  | closed {body value after : List Char} (split : text = body ++ quote :: after)
    (h : Spelling quote body value) :
    StringOutcome quote text start (.ok ⟨.str (String.ofList value), start⟩)
  /-- Spelled characters come up to an escape that gives no character. -/
  | malformed {body value code : List Char} (split : text = body ++ '\\' :: 'u' :: code)
    (h : Spelling quote body value) (bad : MalformedCode code) :
    StringOutcome quote text start
      (.error (.invalidUnicodeEscape, start + byteSize (quote :: body)))
  /-- Spelled characters come up to the end of the source, or up to a backslash there. -/
  | unclosed {body value : List Char} (split : text = body ∨ text = body ++ ['\\'])
    (h : Spelling quote body value) :
    StringOutcome quote text start (.error (.unmatchedQuote, start))

/-- What is read at a quote at the offset `start`, going by what the scanner of strings makes of the
text behind it. -/
def StringBody.item (quote : Char) (text : List Char) (start : Nat) :
    StringBody → Except (Fault × Nat) Token
  | closed value _ => .ok ⟨.str (String.ofList value), start⟩
  | unclosed _ => .error (.unmatchedQuote, start)
  | malformed offset _ =>
    .error (.invalidUnicodeEscape, start + byteSize ((quote :: text).take (offset + 1)))

open StringBody

variable {quote : Char}

theorem quote_ne_backslash (h : quote = '"' ∨ quote = '\'') : quote ≠ '\\' := by
  rcases h with rfl | rfl <;> decide

theorem StringOutcome.eq_item (quoted : quote = '"' ∨ quote = '\'') {text : List Char}
    {start : Nat} {item : Except (Fault × Nat) Token} (h : StringOutcome quote text start item) :
    item = (StringBody.scan quote text).item quote text start := by
  cases h with
  | closed split h => rw [split, scan_closed (quote_ne_backslash quoted) h, item]
  | @malformed body value code split h bad =>
    obtain ⟨size, stop⟩ := scan_malformed bad quote
    rw [split, scan_append h, stop, append, item, Nat.add_zero, List.take_succ_cons, List.take_left]
  | @unclosed body value split h =>
    rcases split with rfl | rfl
    · have read := scan_append h []
      rw [List.append_nil] at read
      rw [read]
      simp [StringBody.scan, append, item]
    · rw [scan_append h]
      simp [StringBody.scan, append, item]

/-- What is read at a quote is decided by what follows it. -/
theorem stringOutcome_iff (quoted : quote = '"' ∨ quote = '\'') {text : List Char} {start : Nat}
    {item : Except (Fault × Nat) Token} :
    StringOutcome quote text start item ↔
      item = (StringBody.scan quote text).item quote text start := by
  refine ⟨StringOutcome.eq_item quoted, ?_⟩
  rintro rfl
  obtain ⟨body, value, rest, split, h, stop⟩ := exists_spelling quote text
  have some : ∃ item, StringOutcome quote text start item := by
    cases stop with
    | nil => exact ⟨_, .unclosed (.inl (by simpa using split)) h⟩
    | backslash => exact ⟨_, .unclosed (.inr split) h⟩
    | quote after => exact ⟨_, .closed split h⟩
    | malformed bad => exact ⟨_, .malformed split h bad⟩
  obtain ⟨item, outcome⟩ := some
  exact outcome.eq_item quoted ▸ outcome

theorem recognize_quote (h : quote = '"' ∨ quote = '\'') (text : List Char) :
    isBlank quote = false ∧ recognize quote text = Recognized.string quote text := by
  rcases h with rfl | rfl <;> exact ⟨rfl, rfl⟩

namespace Cursor

variable {cur : Cursor} {gap text : List Char}

/-- What the scanner of strings makes of the text behind a quote is what is read there. -/
theorem next?_quote (h : cur.rest = gap ++ quote :: text) (blank : gap ⊆ blanks)
    (quoted : quote = '"' ∨ quote = '\'') :
    ∃ next, cur.next? =
      some ((StringBody.scan quote text).item quote text (cur.pos + byteSize gap), next) := by
  obtain ⟨solid, found⟩ := recognize_quote quoted text
  rw [next?_eq h blank solid, found, Recognized.string]
  cases StringBody.scan quote text <;> exact ⟨_, rfl⟩

theorem next?_quote_iff (h : cur.rest = gap ++ quote :: text) (blank : gap ⊆ blanks)
    (quoted : quote = '"' ∨ quote = '\'') {item : Except (Fault × Nat) Token} :
    (∃ next, cur.next? = some (item, next)) ↔
      StringOutcome quote text (cur.pos + byteSize gap) item := by
  rw [stringOutcome_iff quoted]
  obtain ⟨next, read⟩ := next?_quote h blank quoted
  rw [read]
  constructor
  · rintro ⟨_, eq⟩
    exact (Prod.mk.inj (Option.some.inj eq)).1.symm
  · rintro rfl
    exact ⟨next, rfl⟩

/-- A spelled string between quotes is read as the string, and reading goes on behind it. -/
theorem next?_spelling {body value after : List Char}
    (h : cur.rest = gap ++ quote :: (body ++ quote :: after)) (blank : gap ⊆ blanks)
    (quoted : quote = '"' ∨ quote = '\'') (spelled : Spelling quote body value) :
    cur.next? = some (.ok ⟨.str (String.ofList value), cur.pos + byteSize gap⟩,
      ⟨cur.pos + byteSize gap + byteSize (quote :: (body ++ [quote])), after⟩) := by
  obtain ⟨solid, found⟩ := recognize_quote quoted (body ++ quote :: after)
  have passed : quote :: (body ++ quote :: after) = quote :: (body ++ [quote]) ++ after := by simp
  have size : body.length + 1 + 1 = (quote :: (body ++ [quote])).length := by simp
  rw [next?_eq h blank solid, found, Recognized.string,
    scan_closed (quote_ne_backslash quoted) spelled]
  simp only [passed, size, advance_append]

end Cursor

/-! ### Sources -/

def Lexeme.isStr : Lexeme → Bool
  | str _ => true
  | _ => false

/-- Whether the fault is one of strings. -/
def Fault.isOfString : Fault → Bool
  | invalidUnicodeEscape => true
  | unmatchedQuote => true
  | _ => false

/-- The token is a string, or the error is one of strings. -/
def ConcernsString : Except SyntaxError Token → Prop
  | .ok token => token.lexeme.isStr = true
  | .error e => e.fault.isOfString = true

/-- Whether what is recognized is a string or a fault of strings. -/
def Recognized.isOfString (r : Recognized) : Bool :=
  match r.outcome with
  | .ok lexeme => lexeme.isStr
  | .error (fault, _) => fault.isOfString

theorem Recognized.isOfString_number (c : Char) (rest : List Char) :
    (number c rest).isOfString = false := by
  unfold number
  simp only
  split
  · rfl
  · split <;> rfl

/-- Strings and the faults of strings are recognized at quotes only. -/
theorem quote_of_recognize {c : Char} {rest : List Char}
    (h : (recognize c rest).isOfString = true) : c = '"' ∨ c = '\'' := by
  unfold recognize at h
  split at h
  · rw [Recognized.isOfString_number] at h
    cases h
  split at h
  · rename_i quoted
    simpa using quoted
  split at h
  · cases h
  · split at h <;> cases h

/-- Strings and the faults of strings are read at quotes, and these are what follows the quote makes
of it. -/
theorem stringOutcome_of_mem_scan {source : String} {item : Except SyntaxError Token}
    (h : item ∈ scan source) (concerns : ConcernsString item) :
    ∃ before quote text found, source.toList = before ++ quote :: text ∧
      (quote = '"' ∨ quote = '\'') ∧ StringOutcome quote text (byteSize before) found ∧
      item = found.mapError (.ofFault source) := by
  obtain ⟨found, mem, rfl⟩ := List.mem_map.1 h
  obtain ⟨passed, place, next, reaches, read⟩ := Cursor.exists_place_of_mem_items _ mem
  obtain ⟨gap, rest, eq, blank, skip⟩ := place.skipBlanks_split
  cases rest with
  | nil =>
    simp only [Cursor.next?, skip] at read
    cases read
  | cons c text =>
    have quoted : c = '"' ∨ c = '\'' := by
      refine @quote_of_recognize c text ?_
      simp only [Cursor.next?, skip] at read
      cases read
      unfold Recognized.isOfString
      cases outcome : (recognize c text).outcome with
      | ok lexeme =>
        rw [outcome] at concerns
        exact concerns
      | error e =>
        rw [outcome] at concerns
        exact concerns
    refine ⟨passed ++ gap, c, text, found, ?_, quoted, ?_, rfl⟩
    · rw [List.append_assoc, ← eq]
      exact reaches.rest_eq
    · have outcome := (Cursor.next?_quote_iff eq blank quoted).1 ⟨next, read⟩
      have start : place.pos + byteSize gap = byteSize (passed ++ gap) := by
        rw [reaches.pos_eq, byteSize_append]
        exact congrArg (· + byteSize gap) (Nat.zero_add _)
      rwa [start] at outcome

/-- A spelled string between quotes is a source of the string alone. -/
theorem tokenize_spelling (quoted : quote = '"' ∨ quote = '\'') {body value : List Char}
    (h : Spelling quote body value) :
    tokenize (String.ofList (quote :: (body ++ [quote]))) =
      .ok [⟨.str (String.ofList value), 0⟩] := by
  have whole : (Cursor.ofSource (String.ofList (quote :: (body ++ [quote])))).rest =
      [] ++ quote :: (body ++ quote :: []) := String.toList_ofList
  have read := Cursor.next?_spelling whole (List.nil_subset _) quoted h
  rw [tokenize_eq_ok_iff, Cursor.tokens_eq_cons read, Cursor.tokens_eq_nil rfl]
  rfl

/-- A spelled string between quotes is read as one token, whose text and value are the string.
Conversely each string of a source, and each fault of strings, is what follows some quote makes of
it; and wherever a quote comes next there is such an outcome, and it is what is read. -/
theorem scan_strings :
    (∀ quote body value, (quote = '"' ∨ quote = '\'') → Spelling quote body value →
      ∃ token, tokenize (String.ofList (quote :: (body ++ [quote]))) = .ok [token] ∧
        token.pos = 0 ∧ token.lexeme.text = String.ofList value ∧
        token.lexeme.literal? = some (.str (String.ofList value))) ∧
    (∀ source item, item ∈ scan source → ConcernsString item →
      ∃ before quote text found, source.toList = before ++ quote :: text ∧
        (quote = '"' ∨ quote = '\'') ∧ StringOutcome quote text (byteSize before) found ∧
        item = found.mapError (.ofFault source)) ∧
    ∀ (cur : Cursor) gap quote text, cur.rest = gap ++ quote :: text → gap ⊆ blanks →
      (quote = '"' ∨ quote = '\'') →
      (∃ item, StringOutcome quote text (cur.pos + byteSize gap) item) ∧
      ∀ item, StringOutcome quote text (cur.pos + byteSize gap) item ↔
        ∃ next, cur.next? = some (item, next) := by
  refine ⟨fun quote body value quoted h => ?_, fun source item => stringOutcome_of_mem_scan,
    fun cur gap quote text h blank quoted => ?_⟩
  · exact ⟨_, tokenize_spelling quoted h, rfl, rfl, rfl⟩
  · obtain ⟨next, read⟩ := Cursor.next?_quote h blank quoted
    exact ⟨⟨_, (Cursor.next?_quote_iff h blank quoted).1 ⟨next, read⟩⟩,
      fun item => (Cursor.next?_quote_iff h blank quoted).symm⟩

/-- A pair of surrogates and an escaped quote make a string. A first half in front of another
character is a fault at its backslash, which lies behind a blank, a quote and two bytes. -/
theorem scan_strings_surrogates :
    (∃ token, tokenize "'\\uD83D\\ude00\\''" = .ok [token] ∧ token.pos = 0 ∧
      token.lexeme.text = "😀'" ∧ token.lexeme.literal? = some (.str "😀'")) ∧
    let source := " 'é\\uD83Dx'"
    (∃ next, (Cursor.ofSource source).next? = some (.error (.invalidUnicodeEscape, 4), next)) ∧
      ∃ before quote text found, source.toList = before ++ quote :: text ∧
        (quote = '"' ∨ quote = '\'') ∧ StringOutcome quote text (byteSize before) found ∧
        Except.error (SyntaxError.ofFault source (.invalidUnicodeEscape, 4)) =
          found.mapError (SyntaxError.ofFault source) := by
  obtain ⟨spelled, sources, places⟩ := scan_strings
  have high : HexCode ['D', '8', '3', 'D'] 0xD83D :=
    .digits (i := 13) (j := 8) (k := 3) (l := 13) (by decide) (by decide) (by decide) (by decide)
  have low : HexCode ['d', 'e', '0', '0'] 0xDE00 :=
    .digits (i := 13) (j := 14) (k := 0) (l := 0) (by decide) (by decide) (by decide) (by decide)
  have isHigh : HighSurrogate 0xD83D := ⟨by decide, by decide⟩
  have isLow : LowSurrogate 0xDE00 := ⟨by decide, by decide⟩
  have pair : EscapeCode _ '😀' := .pair high low isHigh isLow rfl
  have quote : CharSpelling '\'' ['\\', '\''] '\'' := .escaped (by decide)
  have plain : CharSpelling '\'' ['é'] 'é' := .plain (by decide) (by decide)
  have alone : MalformedCode (['D', '8', '3', 'D'] ++ ['x', '\'']) := by
    refine .high high isHigh ?_
    intro digits code rest _ _ eq
    cases eq
  have read := spelled '\'' _ _ (.inr rfl) (.cons (.code pair) (.cons quote .nil))
  obtain ⟨-, outcomes⟩ := places (Cursor.ofSource " 'é\\uD83Dx'") [' '] '\''
    ['é', '\\', 'u', 'D', '8', '3', 'D', 'x', '\''] rfl (by decide) (.inr rfl)
  have split : ['é', '\\', 'u', 'D', '8', '3', 'D', 'x', '\''] =
      ['é'] ++ '\\' :: 'u' :: (['D', '8', '3', 'D'] ++ ['x', '\'']) := rfl
  obtain ⟨next, fault⟩ := (outcomes _).1 (.malformed split (.cons plain .nil) alone)
  have mem : Except.error (SyntaxError.ofFault " 'é\\uD83Dx'" (.invalidUnicodeEscape, 4)) ∈
      scan " 'é\\uD83Dx'" := by
    refine List.mem_map.2 ⟨.error (.invalidUnicodeEscape, 4), ?_, rfl⟩
    rw [Cursor.items_eq_cons fault]
    exact List.mem_cons_self
  exact ⟨read, ⟨next, fault⟩, sources _ _ mem rfl⟩

end DataBinding
