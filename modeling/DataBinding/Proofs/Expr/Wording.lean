import DataBinding.Proofs.Expr.Locations
import DataBinding.Proofs.Number.Text

/-!
# What a fault shows of the source

The wording of a fault takes one line, although it quotes the source, in which anything may stand:
of a token it shows a mark, a word or the text of a value, and line feeds in strings are escaped.
And where a fault lies a line of the source goes on, unless the source ends there: the character
behind the place is no blank.

## Main results

* `Expr.feed_notMem_of_ofSource` — no line feed is in the wording of a fault
* `Fault.LiesAt.isBlank_head` — a fault lies in front of a character that is no blank
-/

namespace DataBinding

open Decimal DataBinding.Parser

/-! ### The wording of a fault -/

namespace Decimal

theorem Digits.feed_notMem {cs : List Char} (h : Digits cs) : '\n' ∉ cs :=
  fun mem => absurd (h '\n' mem) (by decide)

theorem Exponent.feed_notMem {cs : List Char} {e : Int} (h : Exponent cs e) : '\n' ∉ cs := by
  have mark : ∀ {c}, isMark c = true → '\n' ≠ c := by
    rintro c h rfl
    exact absurd h (by decide)
  cases h with
  | none => exact List.not_mem_nil
  | unsigned h ne digits => simp [mark h, digits.feed_notMem]
  | plus h ne digits => simp [mark h, digits.feed_notMem]
  | minus h ne digits => simp [mark h, digits.feed_notMem]

theorem Numeral.feed_notMem {cs : List Char} {d : Decimal} (h : Numeral cs d) : '\n' ∉ cs := by
  cases h with
  | whole ne digits h => simp [digits.feed_notMem, h.feed_notMem]
  | point ne digits decimals h => simp [digits.feed_notMem, decimals.feed_notMem, h.feed_notMem]

end Decimal

theorem Number.feed_notMem_chars (n : Number) : '\n' ∉ n.chars := by
  cases n with
  | nan => decide
  | infinity negative => cases negative <;> decide
  | finite negative x =>
    obtain ⟨d, numeral, -⟩ := x.shortest.chars_numeral
    have sign : '\n' ∉ signChars negative := by cases negative <;> decide
    rw [chars]
    split
    · decide
    · exact List.not_mem_append sign numeral.feed_notMem

/-- Line feeds are escaped between quotes. -/
theorem Literal.feed_notMem_quoted (s : String) : '\n' ∉ quoted s := by
  have escaped : ∀ c, '\n' ∉ quotedChar c := by
    intro c
    unfold quotedChar
    split
    -- A character that stands for itself is none of those that are escaped.
    case h_6 _ _ _ feed _ _ => exact mt List.mem_singleton.1 (Ne.symm feed)
    all_goals decide
  simp [quoted, escaped]

namespace Lexeme

/-- What messages show of a lexeme of a source is on one line. -/
theorem SpelledBy.feed_notMem_shown {l : Lexeme} {slice rest : List Char}
    (h : l.SpelledBy slice rest) : '\n' ∉ l.shown.toList := by
  cases l with
  | mark m => cases m <;> decide
  | word name =>
    -- The slice is a word, and words consist of characters that are no blanks.
    obtain ⟨eq, word, -⟩ := h
    change '\n' ∉ (Lexeme.word name).text.toList
    rw [← eq]
    cases slice with
    | nil => exact List.not_mem_nil
    | cons c slice =>
      obtain ⟨start, more⟩ := Bool.and_eq_true_iff.1 word
      refine List.mem_cons.not.2 (not_or.2 ⟨?_, fun mem => ?_⟩)
      · rintro rfl
        exact absurd start (by decide)
      · exact absurd (List.all_eq_true.1 more _ mem) (by decide)
  | number spelling value =>
    have text : (Lexeme.number spelling value).shown.toList = value.chars := String.toList_ofList
    rw [text]
    exact value.feed_notMem_chars
  | str value =>
    have text : (Lexeme.str value).shown.toList = Literal.quoted value := String.toList_ofList
    rw [text]
    exact Literal.feed_notMem_quoted value

end Lexeme

namespace Parser.State

variable {s : State} {expected : String}

theorem feed_notMem_of_outcome (h : s.outcome = .error expected) : '\n' ∉ expected.toList := by
  unfold outcome at h
  split at h <;> cases h <;> decide

/-- The fault of a run is worded on one line if the lexemes are shown on one. -/
theorem feed_notMem_of_run {size offset : Nat} {tokens : List Token} {fault : Fault}
    (h : s.run size tokens = .error (fault, offset))
    (shown : ∀ token ∈ tokens, '\n' ∉ token.lexeme.shown.toList) : '\n' ∉ fault.chars := by
  obtain ⟨before, after, last, rfl, -, stuck⟩ := run_eq_error_iff.1 h
  cases stuck with
  -- A token that is impossible is shown, and behind something that is missing this is named first.
  | @token token rest _ =>
    have found := shown token (by simp)
    cases outcome : last.outcome with
    | ok e =>
      rw [State.fault, outcome]
      change '\n' ∉ _ ++ token.lexeme.shown.toList ++ _
      exact List.not_mem_append (List.not_mem_append (by decide) found) (by decide)
    | error expected =>
      have missing := feed_notMem_of_outcome outcome
      rw [State.fault, outcome]
      change '\n' ∉ _ ++ token.lexeme.shown.toList ++ _ ++ expected.toList
      exact List.not_mem_append
        (List.not_mem_append (List.not_mem_append (by decide) found) (by decide)) missing
  | @«end» expected outcome =>
    have missing := feed_notMem_of_outcome outcome
    change '\n' ∉ _ ++ expected.toList
    exact List.not_mem_append (by decide) missing

end Parser.State

/-- A fault in the spelling of a token is worded on one line. -/
theorem Fault.Misspells.feed_notMem {passed after : List Char} {fault : Fault}
    (h : fault.Misspells passed after) : '\n' ∉ fault.chars := by
  cases h with
  | @unexpectedChar c alien rest =>
    change '\n' ∉ _ ++ [c]
    refine List.not_mem_append (by decide) (mt List.mem_singleton.1 ?_)
    rintro rfl
    exact absurd alien.1 (by decide)
  | invalidExponent => decide
  | invalidNumber => decide
  | invalidUnicodeEscape => decide
  | unmatchedQuote => decide

theorem feed_notMem_shown_of_mem {source : String} {tokens : List Token} {token : Token}
    (lexed : tokenize source = .ok tokens) (mem : token ∈ tokens) :
    '\n' ∉ token.lexeme.shown.toList := by
  obtain ⟨pieces, last, rfl, tiling⟩ := Cursor.tokens_tiling _ (tokenize_eq_ok_iff.1 lexed)
  obtain ⟨p, piece, rfl⟩ := List.mem_map.1 mem
  obtain ⟨before, after, split⟩ := List.append_of_mem piece
  exact (tiling.spelled before p after split).feed_notMem_shown

/-- The fault of a source is worded on one line. -/
theorem Expr.feed_notMem_of_ofSource {source : String} {e : SyntaxError}
    (h : ofSource source = .error e) : '\n' ∉ e.fault.chars := by
  rcases ofSource_eq_error h with misspelled | ⟨tokens, lexed, failed⟩
  · obtain ⟨before, after, fault, -, rfl, -, -, -, misspells⟩ := tokenize_eq_error_iff.1 misspelled
    exact misspells.feed_notMem
  · obtain ⟨located, rfl, run⟩ := ofTokens_eq_error failed
    exact State.feed_notMem_of_run run fun token mem => feed_notMem_shown_of_mem lexed mem

/-! ### Where a place lies on its line -/

/-- A token begins with a character that is no blank. -/
theorem exists_start_of_mem_tokens {source : String} {tokens : List Token} {token : Token}
    (lexed : tokenize source = .ok tokens) (mem : token ∈ tokens) :
    ∃ front c rest, source.toList = front ++ c :: rest ∧ isBlank c = false ∧
      token.pos = byteSize front := by
  obtain ⟨pieces, last, rfl, tiling⟩ := Cursor.tokens_tiling _ (tokenize_eq_ok_iff.1 lexed)
  obtain ⟨p, piece, rfl⟩ := List.mem_map.1 mem
  obtain ⟨before, after, split⟩ := List.append_of_mem piece
  obtain ⟨c, cs, slice, solid, -⟩ :=
    (tiling.spelled before p after split).recognized p.token.lexeme.endsBefore_nil
  refine ⟨before.flatMap Piece.chars ++ p.gap, c, cs ++ (after.flatMap Piece.chars ++ last), ?_,
    solid, (tiling.pos_eq before p after split).trans (Nat.zero_add _)⟩
  have text : source.toList = _ := tiling.text_eq
  rw [text, split, List.flatMap_append, List.flatMap_cons, Piece.chars, slice]
  simp only [List.append_assoc, List.cons_append]

/-- What makes no token lies in front of a character that is no blank. -/
theorem Fault.Misspells.isBlank_head {passed rest : List Char} {c : Char} {fault : Fault}
    (h : fault.Misspells passed (c :: rest)) : isBlank c = false := by
  generalize text : c :: rest = after at h
  cases h with
  | unexpectedChar alien rest =>
    cases text
    exact alien.1
  | invalidExponent starts run marked signed lacks =>
    cases text
    exact isBlank_eq_false signed rfl
  | invalidNumber starts run unmarked ends both clash =>
    rw [← text] at starts
    exact @isBlank_eq_false (fun d => d.isDigit || d == '.') c starts.goes.1 rfl
  | invalidUnicodeEscape quoted spelled bad =>
    cases text
    rfl
  | unmatchedQuote quoted ends spelled =>
    cases text
    rcases quoted with rfl | rfl <;> rfl

/-- A fault lies in front of a character that is no blank, or at the end. -/
theorem Fault.LiesAt.isBlank_head {source : String} {before rest : List Char} {c : Char}
    {fault : Fault} (text : source.toList = before ++ c :: rest)
    (h : fault.LiesAt source before (c :: rest)) : isBlank c = false := by
  cases h with
  | misspelled first =>
    obtain ⟨-, -, -, misspells⟩ := first
    exact misspells.isBlank_head
  | token lexed lt pos first =>
    -- The token begins at the same offset, and so at the same place.
    obtain ⟨front, d, more, eq, solid, place⟩ :=
      exists_start_of_mem_tokens lexed (List.getElem_mem lt)
    have same := eq_of_byteSize_eq (text.symm.trans eq) (pos.symm.trans place)
    rw [text, same] at eq
    cases List.append_cancel_left eq
    exact solid
  | «end» lexed split first => cases split

end DataBinding
