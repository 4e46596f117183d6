import DataBinding.Proofs.Token.StringBody

/-!
# Spellings of strings

A string between quotes is spelled character by character. Here the spellings are described without
a reader: a character stands for itself, or a backslash stands before it, or its code is given. What
follows an opening quote is then spelled characters up to one of four places: the closing quote, the
end of the source, a backslash at the end of the source, or an escape that gives no character. The
scanner of strings gets over spelled characters and stops at exactly these places.

## Main definitions

* `HexCode`, `EscapeCode` — the texts of a code, and of a character behind `\u`
* `MalformedCode` — what follows `\u` and gives no character
* `CharSpelling`, `Spelling` — the texts of a character and of a string between quotes

## Main results

* `escapeCode_or_malformed` — an escape gives a character or is malformed
* `exists_spelling` — spelled characters up to a place where a string stops
* `StringBody.scan_append` — the scanner gets over spelled characters
-/

namespace DataBinding

/-! ### Codes -/

/-- The character is a hexadecimal digit of the value, in either case. -/
def HexDigit (c : Char) (n : Nat) : Prop :=
  "0123456789abcdef".toList[n]? = some c ∨ "0123456789ABCDEF".toList[n]? = some c

instance (c : Char) (n : Nat) : Decidable (HexDigit c n) := inferInstanceAs (Decidable (_ ∨ _))

/-- Four hexadecimal digits, and the code that they stand for. -/
inductive HexCode : List Char → Nat → Prop where
  | digits {a b c d : Char} {i j k l : Nat} (ha : HexDigit a i) (hb : HexDigit b j)
    (hc : HexDigit c k) (hd : HexDigit d l) :
    HexCode [a, b, c, d] (((i * 16 + j) * 16 + k) * 16 + l)

/-- The code is the first half of a pair. -/
def HighSurrogate (code : Nat) : Prop := 0xD800 ≤ code ∧ code ≤ 0xDBFF

/-- The code is the second half of a pair. -/
def LowSurrogate (code : Nat) : Prop := 0xDC00 ≤ code ∧ code ≤ 0xDFFF

/-- What follows `\u` where it gives a character: the code of the character, or two codes with
another `\u` between them, which are a pair of surrogates. -/
inductive EscapeCode : List Char → Char → Prop where
  | single {digits : List Char} {c : Char} (h : HexCode digits c.toNat) : EscapeCode digits c
  | pair {digits digits' : List Char} {high low : Nat} {c : Char} (h : HexCode digits high)
    (h' : HexCode digits' low) (isHigh : HighSurrogate high) (isLow : LowSurrogate low)
    (eq : c.toNat = 0x10000 + (high - 0xD800) * 0x400 + (low - 0xDC00)) :
    EscapeCode (digits ++ '\\' :: 'u' :: digits') c

/-- What follows `\u` where it gives no character. -/
inductive MalformedCode : List Char → Prop where
  /-- Four digits do not come. -/
  | digits {cs : List Char} (h : ∀ digits code rest, HexCode digits code → cs ≠ digits ++ rest) :
    MalformedCode cs
  /-- The second half of a pair comes first. -/
  | low {digits : List Char} {code : Nat} (h : HexCode digits code) (isLow : LowSurrogate code)
    (rest : List Char) : MalformedCode (digits ++ rest)
  /-- The first half of a pair is not followed by an escaped second half. -/
  | high {digits : List Char} {code : Nat} (h : HexCode digits code) (isHigh : HighSurrogate code)
    {rest : List Char} (alone : ∀ digits' code' rest', HexCode digits' code' → LowSurrogate code' →
      rest ≠ '\\' :: 'u' :: (digits' ++ rest')) : MalformedCode (digits ++ rest)

theorem toNat_lt_of_hexDigit? {c : Char} {n : Nat} (h : hexDigit? c = some n) : c.toNat < 128 := by
  have bound : ∀ d : Char, c ≤ d → c.toNat ≤ d.toNat := fun d le => le
  unfold hexDigit? at h
  split at h
  · rename_i digit
    have le := bound '9' (of_decide_eq_true (Bool.and_eq_true_iff.1 digit).2)
    exact Nat.lt_of_le_of_lt le (by decide)
  split at h
  · rename_i letter
    exact Nat.lt_of_le_of_lt (bound 'f' letter.2) (by decide)
  split at h
  · rename_i letter
    exact Nat.lt_of_le_of_lt (bound 'F' letter.2) (by decide)
  · cases h

theorem hexDigit?_eq_some_iff {c : Char} {n : Nat} : hexDigit? c = some n ↔ HexDigit c n := by
  constructor
  · intro h
    have ascii : ∀ m : Fin 128, ∀ n ∈ hexDigit? (Char.ofNat m), HexDigit (Char.ofNat m) n := by
      decide
    have digit := ascii ⟨c.toNat, toNat_lt_of_hexDigit? h⟩ n
    rw [Char.ofNat_toNat] at digit
    exact digit h
  · intro h
    have all : ∀ n : Fin 16, hexDigit? ("0123456789abcdef".toList[n]) = some n.val ∧
        hexDigit? ("0123456789ABCDEF".toList[n]) = some n.val := by decide
    rcases h with h | h
    · obtain ⟨lt, rfl⟩ := List.getElem?_eq_some_iff.1 h
      exact (all ⟨n, lt⟩).1
    · obtain ⟨lt, rfl⟩ := List.getElem?_eq_some_iff.1 h
      exact (all ⟨n, lt⟩).2

theorem HexCode.length {digits : List Char} {code : Nat} (h : HexCode digits code) :
    digits.length = 4 := by
  cases h
  rfl

/-- Four digits are read as their code, whatever follows. -/
theorem HexCode.read {digits : List Char} {code : Nat} (h : HexCode digits code)
    (rest : List Char) : hexCode? (digits ++ rest) = some code := by
  cases h with
  | digits ha hb hc hd =>
    simp [hexCode?, hexDigit?_eq_some_iff.2 ha, hexDigit?_eq_some_iff.2 hb,
      hexDigit?_eq_some_iff.2 hc, hexDigit?_eq_some_iff.2 hd]

theorem hexCode?_eq_some_iff {cs : List Char} {code : Nat} :
    hexCode? cs = some code ↔ ∃ digits rest, cs = digits ++ rest ∧ HexCode digits code := by
  constructor
  · intro h
    match cs, h with
    | a :: b :: c :: d :: rest, h =>
      simp only [hexCode?, Option.bind_eq_bind, Option.bind_eq_some_iff, hexDigit?_eq_some_iff] at h
      obtain ⟨i, ha, j, hb, k, hc, l, hd, eq⟩ := h
      cases eq
      exact ⟨[a, b, c, d], rest, rfl, .digits ha hb hc hd⟩
  · rintro ⟨digits, rest, rfl, h⟩
    exact h.read rest

theorem isHighSurrogate_iff {code : Nat} : isHighSurrogate code = true ↔ HighSurrogate code := by
  simp [isHighSurrogate, HighSurrogate]
  omega

theorem isLowSurrogate_iff {code : Nat} : isLowSurrogate code = true ↔ LowSurrogate code := by
  simp [isLowSurrogate, LowSurrogate]
  omega

/-- No character has the code of a surrogate. -/
theorem not_surrogate (c : Char) : ¬HighSurrogate c.toNat ∧ ¬LowSurrogate c.toNat := by
  have valid : c.toNat < 0xD800 ∨ 0xDFFF < c.toNat ∧ c.toNat < 0x110000 := c.valid
  unfold HighSurrogate LowSurrogate
  omega

theorem HexDigit.lt {c : Char} {n : Nat} (h : HexDigit c n) : n < 16 := by
  rcases h with h | h <;> exact (List.getElem?_eq_some_iff.1 h).1

theorem HexCode.lt {digits : List Char} {code : Nat} (h : HexCode digits code) :
    code < 0x10000 := by
  cases h with
  | digits ha hb hc hd =>
    have := ha.lt
    have := hb.lt
    have := hc.lt
    have := hd.lt
    omega

theorem toNat_ofNat_of_isValidChar {n : Nat} (h : n.isValidChar) : (Char.ofNat n).toNat = n := by
  rw [Char.ofNat, dif_pos h]
  rfl

/-- A code that is no surrogate is that of a character. -/
theorem toNat_ofNat_code {code : Nat} (lt : code < 0x10000) (high : ¬HighSurrogate code)
    (low : ¬LowSurrogate code) : (Char.ofNat code).toNat = code := by
  have valid : code.isValidChar := by
    unfold HighSurrogate at high
    unfold LowSurrogate at low
    unfold Nat.isValidChar
    omega
  exact toNat_ofNat_of_isValidChar valid

/-- A pair of surrogates gives a character beyond the first 65536. -/
theorem toNat_ofSurrogates {high low : Nat} (isHigh : HighSurrogate high)
    (isLow : LowSurrogate low) :
    (ofSurrogates high low).toNat = 0x10000 + (high - 0xD800) * 0x400 + (low - 0xDC00) := by
  have valid : (0x10000 + (high - 0xD800) * 0x400 + (low - 0xDC00)).isValidChar := by
    unfold HighSurrogate at isHigh
    unfold LowSurrogate at isLow
    exact .inr (by omega)
  exact toNat_ofNat_of_isValidChar valid

/-- An escape that gives a character is read as the character, whatever follows. -/
theorem EscapeCode.read {code : List Char} {c : Char} (h : EscapeCode code c)
    (rest : List Char) : unicodeEscape (code ++ rest) = .ok (c, code.length) := by
  cases h with
  | single h =>
    obtain ⟨notHigh, notLow⟩ := not_surrogate c
    rw [← isHighSurrogate_iff] at notHigh
    rw [← isLowSurrogate_iff] at notLow
    simp [unicodeEscape, h.read, h.length, notHigh, notLow]
  | pair h h' isHigh isLow eq =>
    have same : ofSurrogates _ _ = c :=
      Char.toNat_inj.1 ((toNat_ofSurrogates isHigh isLow).trans eq.symm)
    rw [← isHighSurrogate_iff] at isHigh
    rw [← isLowSurrogate_iff] at isLow
    simp [unicodeEscape, h.read, h.length, h'.read, h'.length, isHigh, isLow, same,
      List.drop_left' h.length]

/-- A malformed escape is read as none. -/
theorem MalformedCode.read {cs : List Char} (h : MalformedCode cs) :
    ∃ size, unicodeEscape cs = .error size := by
  cases h with
  | digits missing =>
    have unread : hexCode? cs = none := by
      refine Option.eq_none_iff_forall_ne_some.2 fun code read => ?_
      obtain ⟨digits, rest, eq, h⟩ := hexCode?_eq_some_iff.1 read
      exact missing digits code rest h eq
    exact ⟨0, by rw [unicodeEscape, unread]⟩
  | @low digits code h isLow rest =>
    have notHigh : ¬HighSurrogate code := by
      unfold HighSurrogate
      unfold LowSurrogate at isLow
      omega
    rw [← isHighSurrogate_iff] at notHigh
    rw [← isLowSurrogate_iff] at isLow
    exact ⟨4, by simp [unicodeEscape, h.read, notHigh, isLow]⟩
  | @high digits code h isHigh rest alone =>
    rw [← isHighSurrogate_iff] at isHigh
    simp only [unicodeEscape, h.read, isHigh, List.drop_left' h.length, if_true]
    split
    · split
      · exact ⟨6, rfl⟩
      · rename_i second low read
        obtain ⟨digits', rest', rfl, h'⟩ := hexCode?_eq_some_iff.1 read
        split
        · rename_i isLow
          exact absurd rfl (alone digits' low rest' h' (isLowSurrogate_iff.1 isLow))
        · exact ⟨10, rfl⟩
    · exact ⟨4, rfl⟩

/-- What follows `\u` gives a character, or it is malformed. -/
theorem escapeCode_or_malformed (cs : List Char) :
    (∃ code c rest, cs = code ++ rest ∧ EscapeCode code c) ∨ MalformedCode cs := by
  cases read : hexCode? cs with
  | none =>
    refine .inr (.digits ?_)
    rintro digits code rest h rfl
    simp [h.read] at read
  | some code =>
    obtain ⟨digits, rest, rfl, h⟩ := hexCode?_eq_some_iff.1 read
    by_cases isLow : LowSurrogate code
    · exact .inr (.low h isLow rest)
    by_cases isHigh : HighSurrogate code
    · by_cases pair : ∃ digits' code' rest', HexCode digits' code' ∧ LowSurrogate code' ∧
          rest = '\\' :: 'u' :: (digits' ++ rest')
      · obtain ⟨digits', code', rest', h', isLow', rfl⟩ := pair
        refine .inl ⟨_, ofSurrogates code code', rest', ?_,
          .pair h h' isHigh isLow' (toNat_ofSurrogates isHigh isLow')⟩
        simp
      · exact .inr (.high h isHigh fun digits' code' rest' h' isLow' eq =>
          pair ⟨digits', code', rest', h', isLow', eq⟩)
    · refine .inl ⟨digits, Char.ofNat code, rest, rfl, .single ?_⟩
      rwa [toNat_ofNat_code h.lt isHigh isLow]

/-! ### Spelled characters -/

/-- The letters that stand for a control character behind a backslash. -/
def controls : List (Char × Char) :=
  [('n', '\n'), ('f', '\x0C'), ('r', '\r'), ('t', '\t'), ('v', '\x0B')]

/-- The text spells a character between quotes of the kind. -/
inductive CharSpelling (quote : Char) : List Char → Char → Prop where
  /-- The character itself. -/
  | plain {c : Char} (h : c ≠ quote) (h' : c ≠ '\\') : CharSpelling quote [c] c
  /-- A control character, by its letter. -/
  | control {letter c : Char} (h : (letter, c) ∈ controls) : CharSpelling quote ['\\', letter] c
  /-- Any other character behind a backslash, but for `u`. -/
  | escaped {c : Char} (h : c ∉ ['n', 'f', 'r', 't', 'v', 'u']) : CharSpelling quote ['\\', c] c
  /-- A character by its code. -/
  | code {code : List Char} {c : Char} (h : EscapeCode code c) :
    CharSpelling quote ('\\' :: 'u' :: code) c

/-- The text spells the characters, one after the other, between quotes of the kind. -/
inductive Spelling (quote : Char) : List Char → List Char → Prop where
  | nil : Spelling quote [] []
  | cons {first rest value : List Char} {c : Char} (h : CharSpelling quote first c)
    (more : Spelling quote rest value) : Spelling quote (first ++ rest) (c :: value)

/-- What cannot be spelled any further between quotes of the kind. -/
inductive Stop (quote : Char) : List Char → Prop where
  | nil : Stop quote []
  | backslash : Stop quote ['\\']
  | quote (after : List Char) : Stop quote (quote :: after)
  | malformed {code : List Char} (h : MalformedCode code) : Stop quote ('\\' :: 'u' :: code)

/-- A backslash and a letter spell a character, but for `u`. -/
theorem charSpelling_letter (quote : Char) {letter : Char} (h : letter ≠ 'u') :
    CharSpelling quote ['\\', letter] (escapedChar letter) := by
  unfold escapedChar
  split
  -- The last case is that of a letter without a meaning of its own.
  case h_6 => exact .escaped (by simp_all)
  all_goals exact .control (by decide)

theorem CharSpelling.ne_nil {quote c : Char} {first : List Char}
    (h : CharSpelling quote first c) : first ≠ [] := by
  cases h <;> exact List.cons_ne_nil _ _

/-- Behind an opening quote come spelled characters, as far as characters can be spelled. -/
theorem exists_spelling (quote : Char) (text : List Char) :
    ∃ body value rest, text = body ++ rest ∧ Spelling quote body value ∧ Stop quote rest := by
  -- By induction on the text: behind a spelled character there is less of it.
  have step : ∀ first rest c, first ++ rest = text → CharSpelling quote first c →
      ∃ body value rest, text = body ++ rest ∧ Spelling quote body value ∧ Stop quote rest := by
    rintro first rest c rfl h
    have some : 0 < first.length := List.length_pos_iff.2 h.ne_nil
    have shorter : rest.length < (first ++ rest).length := by
      rw [List.length_append]
      omega
    obtain ⟨body, value, rest, rfl, more, stop⟩ := exists_spelling quote rest
    exact ⟨first ++ body, c :: value, rest, (List.append_assoc ..).symm, .cons h more, stop⟩
  cases text with
  | nil => exact ⟨[], [], [], rfl, .nil, .nil⟩
  | cons c cs =>
    by_cases closing : c = quote
    · subst closing
      exact ⟨[], [], _, rfl, .nil, .quote cs⟩
    by_cases plain : c ≠ '\\'
    · exact step [c] cs c rfl (.plain closing plain)
    obtain rfl := Decidable.not_not.1 plain
    cases cs with
    | nil => exact ⟨[], [], _, rfl, .nil, .backslash⟩
    | cons letter rest =>
      by_cases unicode : letter = 'u'
      · subst unicode
        rcases escapeCode_or_malformed rest with ⟨code, c, rest, rfl, h⟩ | bad
        · exact step ('\\' :: 'u' :: code) rest c rfl (.code h)
        · exact ⟨[], [], _, rfl, .nil, .malformed bad⟩
      · exact step ['\\', letter] rest _ rfl (charSpelling_letter quote unicode)
termination_by text.length

namespace StringBody

/-- A backslash and a letter other than `u` stand for one character. -/
theorem scan_letter {letter : Char} (h : letter ≠ 'u') (quote : Char) (rest : List Char) :
    scan quote ('\\' :: letter :: rest) = (scan quote rest).cons (escapedChar letter) 2 := by
  rw [scan]
  exact h

/-- The scanner gets over a spelled character, and goes on behind it. -/
theorem scan_charSpelling {quote c : Char} {first : List Char} (h : CharSpelling quote first c)
    (rest : List Char) : scan quote (first ++ rest) = (scan quote rest).cons c first.length := by
  cases h with
  | plain h h' =>
    rw [List.singleton_append, scan_plain h', if_neg h]
    rfl
  | @control letter c h =>
    have meaning : ∀ p ∈ controls, p.1 ≠ 'u' ∧ escapedChar p.1 = p.2 := by decide
    obtain ⟨other, eq⟩ : letter ≠ 'u' ∧ escapedChar letter = c := meaning _ h
    have read := scan_letter other quote rest
    rwa [eq] at read
  | escaped h =>
    have other : c ≠ 'u' := by rintro rfl; simp at h
    have eq : escapedChar c = c := by
      unfold escapedChar
      split <;> simp_all
    have read := scan_letter other quote rest
    rwa [eq] at read
  | @code code _ h =>
    rw [List.cons_append, List.cons_append, scan]
    simp only [h.read rest, List.drop_left]
    rfl

/-- The body with characters in front, spelled by `size` characters. -/
def append (front : List Char) (size : Nat) : StringBody → StringBody
  | closed value more => closed (front ++ value) (size + more)
  | unclosed more => unclosed (size + more)
  | malformed offset more => malformed (size + offset) (size + more)

theorem append_nil (b : StringBody) : b.append [] 0 = b := by
  cases b <;> simp [append]

theorem cons_append (b : StringBody) (c : Char) (size : Nat) (front : List Char) (more : Nat) :
    (b.append front more).cons c size = b.append (c :: front) (size + more) := by
  cases b <;> simp [append, cons, Nat.add_assoc]

/-- The scanner gets over spelled characters, and goes on behind them. -/
theorem scan_append {quote : Char} {body value : List Char} (h : Spelling quote body value)
    (rest : List Char) : scan quote (body ++ rest) = (scan quote rest).append value body.length := by
  induction h with
  | nil => exact (append_nil _).symm
  | cons first more ih =>
    rw [List.append_assoc, scan_charSpelling first, ih, cons_append, List.length_append]

/-- The scanner stops at the closing quote. -/
theorem scan_closed {quote : Char} (h : quote ≠ '\\') {body value : List Char}
    (spelled : Spelling quote body value) (after : List Char) :
    scan quote (body ++ quote :: after) = closed value (body.length + 1) := by
  rw [scan_append spelled, scan_plain h, if_pos rfl, append, List.append_nil]

/-- The scanner stops at a malformed escape. -/
theorem scan_malformed {code : List Char} (h : MalformedCode code) (quote : Char) :
    ∃ size, scan quote ('\\' :: 'u' :: code) = malformed 0 size := by
  obtain ⟨size, read⟩ := h.read
  refine ⟨size + 2, ?_⟩
  rw [scan]
  simp only [read]

end StringBody

end DataBinding
