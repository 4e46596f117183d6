import DataBinding.Proofs.Token.Places
import DataBinding.Proofs.Token.Runs
import Mathlib.Data.List.Basic

/-!
# Numbers in a source

A digit begins a number, and so does a point in front of a digit. What follows decides what is read
there. A numeral is read whole, up to where no number goes on. All that is taken for a number and is
none has either a sign without a digit behind an exponent mark, which is the place of the fault, or
points and marks that are too many, and then the fault is where it begins.

## Main definitions

* `NumberOutcome` — what is read where a number begins

## Main results

* `numberOutcome_iff` — what is read where a number begins is decided by what follows
* `Cursor.next?_number_iff` — the same at any place of a source
* `scan_numbers` — numerals in front of a source, and what is read instead
-/

namespace DataBinding

open Decimal Recognized

/-- What is read at the offset `start`, where `text` begins with a number. -/
inductive NumberOutcome (text : List Char) (start : Nat) : Except (Fault × Nat) Token → Prop where
  /-- A numeral comes first, and no number goes on behind it. -/
  | numeral {spelling rest : List Char} {d : Decimal} (split : text = spelling ++ rest)
    (h : Numeral spelling d) (ends : EndsNumber rest) :
    NumberOutcome text start
      (.ok ⟨.number (String.ofList spelling) (.ofMagnitude? false d.round?), start⟩)
  /-- A run leads up to an exponent mark, behind which comes a sign without a digit. -/
  | exponent {run rest : List Char} {mark sign : Char} (split : text = run ++ mark :: sign :: rest)
    (h : NumberRun (sign :: rest) false (run ++ [mark])) (marked : isMark mark = true)
    (signed : isSign sign = true) (lacks : startsWithDigit rest = false) :
    NumberOutcome text start (.error (.invalidExponent, start + byteSize (run ++ [mark])))
  /-- A run ends where no number goes on, and two of its characters are too many for a numeral. -/
  | malformed {run rest : List Char} {last c c' : Char} (split : text = run ++ last :: rest)
    (h : NumberRun rest false (run ++ [last])) (unmarked : isMark last = false)
    (ends : EndsNumber rest) (both : [c, c'].Sublist (run ++ [last])) (clash : Clash c c') :
    NumberOutcome text start (.error (.invalidNumber, start))

/-- What is read at the offset `start`, going by what is recognized in front of the text there. -/
def Recognized.item (text : List Char) (start : Nat) (r : Recognized) :
    Except (Fault × Nat) Token :=
  match r.outcome with
  | .ok lexeme => .ok ⟨lexeme, start⟩
  | .error (fault, count) => .error (fault, start + byteSize (text.take count))

variable {text : List Char} {start : Nat} {item : Except (Fault × Nat) Token}

theorem endsMarked_concat (marked : Bool) (run : List Char) (c : Char) :
    endsMarked marked (run ++ [c]) = isMark c := by
  simp [endsMarked]

theorem StartsNumber.goes {c : Char} {cs : List Char} (h : StartsNumber (c :: cs)) :
    (c.isDigit || c == '.') = true ∧
      (c.isDigit || c == '.' && startsWithDigit cs) = true := by
  obtain ⟨_, _, eq, start⟩ := h
  cases eq
  rcases start with digit | ⟨rfl, digit⟩
  · simp [digit]
  · simp [digit]

theorem StartsNumber.not_endsNumber (h : StartsNumber text) : ¬EndsNumber text := by
  obtain ⟨c, more, rfl, start⟩ := h
  intro ends
  obtain ⟨digit, dot, -⟩ := ends c more rfl
  rcases start with digit' | ⟨rfl, -⟩
  · exact Bool.false_ne_true (digit.symm.trans digit')
  · exact dot rfl

theorem Decimal.Numeral.startsNumber {cs : List Char} {d : Decimal} (h : Numeral cs d)
    (rest : List Char) : StartsNumber (cs ++ rest) := by
  obtain ⟨c, cs, rfl, start⟩ := h.start
  refine ⟨c, cs ++ rest, rfl, start.imp_right ?_⟩
  rintro ⟨rfl, d, more, rfl, digit⟩
  exact ⟨rfl, digit⟩

/-- What is recognized where a number begins, by how far the scanner gets. -/
theorem number_eq {c : Char} {cs run : List Char} {dangling : Bool}
    (starts : StartsNumber (c :: cs)) (h : numberTail false (c :: cs) = (run, dangling)) :
    number c cs =
      if dangling then ⟨.error (.invalidExponent, run.length), run.length⟩
      else match Number.ofNumeral? run with
        | some value => ⟨.ok (.number (String.ofList run) value), run.length⟩
        | none => ⟨.error (.invalidNumber, 0), run.length⟩ := by
  have goes := starts.goes.1
  rw [numberTail_cons (by simp [goes]), isMark_of_plain (by simpa using goes)] at h
  cases h
  rfl

/-- The scanner gets over a numeral from its first character on. -/
theorem Decimal.Numeral.takes_whole {cs rest : List Char} {d : Decimal} (h : Numeral cs d) :
    numberTail false (cs ++ rest) =
      (cs ++ (numberTail false rest).1, (numberTail false rest).2) := by
  have starts := h.startsNumber rest
  obtain ⟨c, cs, rfl, -⟩ := h.start
  have goes := starts.goes.1
  rw [List.cons_append, numberTail_cons (by simp [goes]), isMark_of_plain (by simpa using goes),
    h.takes rest]
  rfl

/-- Between an exponent mark and a sign without a digit the scanner stops with a fault. -/
theorem numberTail_lacksDigit {rest : List Char} (h : LacksDigit rest) :
    numberTail true rest = ([], true) := by
  obtain ⟨sign, more, rfl, signed, lacks⟩ := h
  rcases (by simpa [isSign] using signed : sign = '+' ∨ sign = '-') with rfl | rfl <;>
    simp [numberTail, isMark, isSign, lacks]

theorem NumberOutcome.eq_item {c : Char} {cs : List Char} (starts : StartsNumber (c :: cs))
    (h : NumberOutcome (c :: cs) start item) : item = (number c cs).item (c :: cs) start := by
  cases h with
  | @numeral spelling rest d split h ends =>
    have whole : numberTail false (c :: cs) = (spelling, false) := by
      rw [split, h.takes_whole, endsNumber_iff.1 ends, List.append_nil]
    rw [number_eq starts whole, if_neg Bool.false_ne_true, h.number, Recognized.item]
  | @exponent run rest mark sign split h marked signed lacks =>
    have front : c :: cs = run ++ [mark] ++ sign :: rest := by simp [split]
    have whole := h.numberTail
    rw [endsMarked_concat, marked, numberTail_lacksDigit ⟨sign, rest, rfl, signed, lacks⟩,
      List.append_nil, ← front] at whole
    have taken : (c :: cs).take (run ++ [mark]).length = run ++ [mark] := by
      rw [front, List.take_left]
    rw [number_eq starts whole, if_pos rfl, Recognized.item]
    simp only [taken]
  | @malformed run rest last c c' split h unmarked ends both clash =>
    have whole := h.numberTail
    rw [endsMarked_concat, unmarked, endsNumber_iff.1 ends, List.append_nil, List.append_assoc,
      List.singleton_append, ← split] at whole
    have refused : Number.ofNumeral? (run ++ [last]) = none := by
      refine Option.map_eq_none_iff.2 (Option.eq_none_iff_forall_ne_some.2 fun d read => ?_)
      have orderly := (ofNumeral?_eq_some_iff.1 read).orderly
      exact List.pairwise_iff_forall_sublist.1 orderly both clash
    rw [number_eq starts whole, if_neg Bool.false_ne_true, refused, Recognized.item]
    rfl

/-- Something is read wherever a number begins. -/
theorem exists_numberOutcome (starts : StartsNumber text) (start : Nat) :
    ∃ item, NumberOutcome text start item := by
  obtain ⟨run, rest, rfl, taken, stop⟩ := exists_run false text nofun
  rcases List.eq_nil_or_concat' run with rfl | ⟨run, last, rfl⟩
  · rcases stop with ⟨-, marked, -⟩ | ⟨-, -, ends⟩
    · cases marked
    · exact absurd ends starts.not_endsNumber
  rcases stop with ⟨-, marked, sign, more, rfl, signed, lacks⟩ | ⟨-, unmarked, ends⟩
  · rw [endsMarked_concat] at marked
    exact ⟨_, .exponent (by simp) taken marked signed lacks⟩
  · by_cases orderly : Orderly (run ++ [last])
    · obtain ⟨d, numeral⟩ := taken.numeral starts orderly unmarked ends
      exact ⟨_, .numeral rfl numeral ends⟩
    · rw [endsMarked_concat] at unmarked
      have pair : ∃ c c', [c, c'].Sublist (run ++ [last]) ∧ Clash c c' := by
        simpa [Orderly, List.pairwise_iff_forall_sublist] using orderly
      obtain ⟨c, c', both, clash⟩ := pair
      exact ⟨_, .malformed (by simp) taken unmarked ends both clash⟩

/-- What is read where a number begins is decided by what follows. -/
theorem numberOutcome_iff {c : Char} {cs : List Char} (starts : StartsNumber (c :: cs)) :
    NumberOutcome (c :: cs) start item ↔ item = (number c cs).item (c :: cs) start := by
  refine ⟨NumberOutcome.eq_item starts, ?_⟩
  rintro rfl
  obtain ⟨found, outcome⟩ := exists_numberOutcome starts start
  exact outcome.eq_item starts ▸ outcome

/-- What begins like a number is recognized as one. -/
theorem recognize_startsNumber {c : Char} {cs : List Char} (starts : StartsNumber (c :: cs)) :
    isBlank c = false ∧ recognize c cs = number c cs := by
  obtain ⟨solid, goes⟩ := starts.goes
  exact ⟨@isBlank_eq_false (fun c => c.isDigit || c == '.') c solid rfl,
    by rw [recognize, if_pos goes]⟩

namespace Cursor

variable {cur : Cursor} {gap rest : List Char}

/-- What is read where a number begins is decided by what follows, at any place of a source. -/
theorem next?_number_iff (h : cur.rest = gap ++ text) (blank : gap ⊆ blanks)
    (starts : StartsNumber text) :
    (∃ next, cur.next? = some (item, next)) ↔
      NumberOutcome text (cur.pos + byteSize gap) item := by
  obtain ⟨c, cs, rfl, -⟩ := id starts
  obtain ⟨solid, found⟩ := recognize_startsNumber starts
  have read := next?_eq h blank solid
  rw [found] at read
  rw [numberOutcome_iff starts, read]
  constructor
  · rintro ⟨next, eq⟩
    exact (Prod.mk.inj (Option.some.inj eq)).1.symm
  · rintro rfl
    exact ⟨_, rfl⟩

/-- A numeral is read as the number that it denotes, and reading goes on behind it. -/
theorem next?_numeral {spelling : List Char} {d : Decimal} (h : cur.rest = gap ++ (spelling ++ rest))
    (blank : gap ⊆ blanks) (numeral : Numeral spelling d) (ends : EndsNumber rest) :
    cur.next? = some
      (.ok ⟨.number (String.ofList spelling) (.ofMagnitude? false d.round?),
        cur.pos + byteSize gap⟩,
      ⟨cur.pos + byteSize gap + byteSize spelling, rest⟩) := by
  have starts := numeral.startsNumber rest
  have whole : numberTail false (spelling ++ rest) = (spelling, false) := by
    rw [numeral.takes_whole, endsNumber_iff.1 ends, List.append_nil]
  have passed := advance_append (cur.pos + byteSize gap) spelling rest
  have value := numeral.number
  obtain ⟨c, cs, rfl, -⟩ := numeral.start
  obtain ⟨solid, found⟩ := recognize_startsNumber starts
  rw [next?_eq h blank solid, found, number_eq starts whole, if_neg Bool.false_ne_true, value]
  exact congrArg (fun next => some (_, next)) passed

end Cursor

/-- A numeral in front of a source is its first token, if what follows does not go on with a
number: the text of the token is the numeral, its value is what the numeral denotes, and reading
goes on behind it. Where a source begins with a number, exactly one outcome is what comes first,
and so it is at every place where a number begins. -/
theorem scan_numbers :
    (∀ spelling d rest, Numeral spelling d → EndsNumber rest →
      let source := String.ofList (spelling ++ rest)
      ∃ token, (scan source).head? = some (.ok token) ∧ token.pos = 0 ∧
        token.lexeme.text = String.ofList spelling ∧
        token.lexeme.literal? = some (.number (.ofMagnitude? false d.round?)) ∧
        (Cursor.ofSource source).next? = some (.ok token, ⟨byteSize spelling, rest⟩)) ∧
    (∀ source : String, StartsNumber source.toList →
      ∃ item, (scan source).head? = some (item.mapError (.ofFault source)) ∧
        ∀ other, NumberOutcome source.toList 0 other ↔ other = item) ∧
    ∀ (cur : Cursor) gap text, cur.rest = gap ++ text → gap ⊆ blanks → StartsNumber text →
      (∃ item, NumberOutcome text (cur.pos + byteSize gap) item) ∧
      ∀ item, NumberOutcome text (cur.pos + byteSize gap) item ↔
        ∃ next, cur.next? = some (item, next) := by
  have scanned : ∀ {source : String} {item next},
      (Cursor.ofSource source).next? = some (item, next) →
        (scan source).head? = some (item.mapError (.ofFault source)) := by
    intro source item next read
    rw [scan, Cursor.items_eq_cons read, List.map_cons, List.head?_cons]
  refine ⟨fun spelling d rest numeral ends => ?_, fun source starts => ?_,
    fun cur gap text h blank starts => ?_⟩
  · have text : (Cursor.ofSource (String.ofList (spelling ++ rest))).rest =
        [] ++ (spelling ++ rest) := String.toList_ofList
    have read := Cursor.next?_numeral text (List.nil_subset _) numeral ends
    have start : (Cursor.ofSource (String.ofList (spelling ++ rest))).pos + byteSize [] = 0 := rfl
    rw [start, Nat.zero_add] at read
    exact ⟨_, scanned read, rfl, rfl, rfl, read⟩
  · have text : (Cursor.ofSource source).rest = [] ++ source.toList := rfl
    have reads : ∀ item, (∃ next, (Cursor.ofSource source).next? = some (item, next)) ↔
        NumberOutcome source.toList 0 item :=
      fun item => Cursor.next?_number_iff text (List.nil_subset _) starts
    obtain ⟨item, outcome⟩ := exists_numberOutcome starts 0
    obtain ⟨next, read⟩ := (reads item).2 outcome
    refine ⟨item, scanned read, fun other => ?_⟩
    rw [← reads, read]
    constructor
    · rintro ⟨_, eq⟩
      exact (Prod.mk.inj (Option.some.inj eq)).1.symm
    · rintro rfl
      exact ⟨next, rfl⟩
  · exact ⟨exists_numberOutcome starts _, fun item =>
      (Cursor.next?_number_iff h blank starts).symm⟩

/-- `1.5e-3` is read in front of a mark that no digit follows. In `1.2.3e-` the sign without a digit
is the place of the fault, although there are two points; in `.5e5e5` nothing is missing, but there
are two exponents. -/
theorem scan_numbers_exponents :
    (∃ token, (scan "1.5e-3ex").head? = some (.ok token) ∧ token.pos = 0 ∧
      token.lexeme.text = "1.5e-3" ∧
      token.lexeme.literal? = some (.number (.ofMagnitude? false (Decimal.mk 15 (-4)).round?)) ∧
      (Cursor.ofSource "1.5e-3ex").next? = some (.ok token, ⟨6, ['e', 'x']⟩)) ∧
    (scan "1.2.3e-").head? = some (.error (.ofFault "1.2.3e-" (.invalidExponent, 6))) ∧
    (scan ".5e5e5").head? = some (.error (.ofFault ".5e5e5" (.invalidNumber, 0))) := by
  obtain ⟨numerals, sources, -⟩ := scan_numbers
  have numeral : Numeral ['1', '.', '5', 'e', '-', '3'] ⟨15, -4⟩ :=
    ofNumeral?_eq_some_iff.1 (by decide)
  have ends : EndsNumber ['e', 'x'] := by
    intro c more eq
    cases eq
    exact ⟨rfl, by decide, fun _ => rfl⟩
  have points : NumberRun ['-'] false (['1', '.', '2', '.', '3'] ++ ['e']) :=
    .plain (.inl rfl) (.plain (.inr rfl) (.plain (.inl rfl) (.plain (.inr rfl)
      (.plain (.inl rfl) (.mark rfl rfl (.nil true))))))
  have exponent : NumberOutcome "1.2.3e-".toList 0 (.error (.invalidExponent, 6)) :=
    .exponent rfl points rfl rfl rfl
  have marks : NumberRun [] false (['.', '5', 'e', '5', 'e'] ++ ['5']) :=
    .plain (.inr rfl) (.plain (.inl rfl) (.mark rfl rfl (.plain (.inl rfl) (.mark rfl rfl
      (.plain (.inl rfl) (.nil false))))))
  have both : ['e', 'e'].Sublist (['.', '5', 'e', '5', 'e'] ++ ['5']) := by decide
  have stop : EndsNumber [] := by
    intro c more eq
    cases eq
  have malformed : NumberOutcome ".5e5e5".toList 0 (.error (.invalidNumber, 0)) :=
    .malformed rfl marks rfl stop both (.inr ⟨rfl, .inr rfl⟩)
  have source : String.ofList (['1', '.', '5', 'e', '-', '3'] ++ ['e', 'x']) = "1.5e-3ex" := rfl
  have read := numerals _ _ _ numeral ends
  rw [source] at read
  obtain ⟨item, first, outcomes⟩ := sources "1.2.3e-" ⟨'1', _, rfl, .inl rfl⟩
  obtain ⟨item', first', outcomes'⟩ := sources ".5e5e5" ⟨'.', _, rfl, .inr ⟨rfl, rfl⟩⟩
  rw [← (outcomes _).1 exponent] at first
  rw [← (outcomes' _).1 malformed] at first'
  obtain ⟨token, head, pos, text, value, next⟩ := read
  exact ⟨⟨token, head, pos, text, value, next⟩, first, first'⟩

end DataBinding
