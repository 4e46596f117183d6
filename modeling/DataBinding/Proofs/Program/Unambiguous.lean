import DataBinding.Proofs.Program.Spellable

/-!
# Programs and their texts

The text of a program is put together from the texts of words, numbers, strings and operands, with
nothing around them that would tell where each of them ends. Still no two programs of sources have
the same text. An operand is read as an expression is, and after it the reader accepts none of the
characters that follow an operand in a program. So of two texts that begin with operands neither
operand can go on where the other one ends, and the texts can be compared from left to right.

## Main definitions

* `Leads` — the text of which lexemes leads from one state of the reader to another
* `EndsAt` — what leads to a state cannot go on with a character
* `Access` — what a statement does with the object of its condition

## Main results

* `Leads.cancel` — texts that lead to where they end can be told from what follows them
* `Operand.chars_cancel`, `Operand.elementChars_cancel` — the same of operands and of their lists
* `Statement.chars_cancel` — the same of statements, in front of anything
* `Program.ofSource_text_injective` — programs of sources with the same text are the same
-/

namespace DataBinding

open DataBinding.Parser

/-! ### Where a text ends -/

/-- Of two texts in front of others, both are the same if neither goes on where the other ends. -/
theorem eq_of_append_cons_eq {xs ys rest rest' : List Char} {c d : Char}
    (h : xs ++ c :: rest = ys ++ d :: rest') (left : ∀ more, ys ≠ xs ++ c :: more)
    (right : ∀ more, xs ≠ ys ++ d :: more) : xs = ys := by
  rcases List.append_eq_append_iff.1 h with ⟨more, eq, tail⟩ | ⟨more, eq, tail⟩
  · cases more with
    | nil => rw [eq, List.append_nil]
    | cons first more =>
      obtain ⟨rfl, -⟩ := List.cons.inj tail
      exact absurd eq (left more)
  · cases more with
    | nil => rw [eq, List.append_nil]
    | cons first more =>
      obtain ⟨rfl, -⟩ := List.cons.inj tail
      exact absurd eq (right more)

/-- The text is cut into lexemes that lead from one state to another, in front of all that does not
go on with a word or a number. -/
def Leads (s : State) (cs : List Char) (next : State) : Prop :=
  ∃ ls, (∀ {rest}, Stops rest → Reads cs rest ls) ∧ s.reads ls = some next

/-- Nothing that leads to the state can go on with the character. -/
structure EndsAt (s : State) (c : Char) : Prop where
  stops : ∀ more, Stops (c :: more)
  refused : ∀ more ls, lexemes? (c :: more) = some ls → s.reads ls = none

namespace Leads

variable {s next next' : State} {xs ys rest rest' : List Char} {c d : Char}

theorem lexemes?_reads (h : Leads s xs next) :
    ∃ ls, lexemes? xs = some ls ∧ s.reads ls = some next := by
  obtain ⟨ls, read, lead⟩ := h
  exact ⟨ls, (read .nil).lexemes?_eq, lead⟩

theorem unique (h : Leads s xs next) (h' : Leads s xs next') : next = next' := by
  obtain ⟨ls, lexed, lead⟩ := h.lexemes?_reads
  obtain ⟨ls', lexed', lead'⟩ := h'.lexemes?_reads
  cases lexed.symm.trans lexed'
  exact Option.some.inj (lead.symm.trans lead')

/-- A text that leads on from the same state does not go on where this one ends. -/
theorem ne_append (h : Leads s xs next) (h' : Leads s ys next') (ends : EndsAt next c)
    (more : List Char) : ys ≠ xs ++ c :: more := by
  rintro rfl
  obtain ⟨ls, read, lead⟩ := h
  obtain ⟨ls', lexed, lead'⟩ := h'.lexemes?_reads
  -- The longer text is cut where the shorter one ends, and there the reader is stuck.
  rw [read (ends.stops more)] at lexed
  obtain ⟨back, behind, rfl⟩ := Option.map_eq_some_iff.1 lexed
  rw [State.reads_append_of lead, ends.refused more back behind] at lead'
  cases lead'

/-- Texts that lead on from the same state and end there can be told from what follows them. -/
theorem cancel (h : Leads s xs next) (h' : Leads s ys next') (ends : EndsAt next c)
    (ends' : EndsAt next' d) (same : xs ++ c :: rest = ys ++ d :: rest') :
    next = next' ∧ c :: rest = d :: rest' := by
  obtain rfl := eq_of_append_cons_eq same (h.ne_append h' ends) (h'.ne_append h ends')
  exact ⟨h.unique h', List.append_cancel_left same⟩

end Leads

namespace EndsAt

theorem mark {s : State} {m : Mark} (dot : m ≠ .dot) (h : s.next? (.mark m) = none) :
    EndsAt s m.char where
  stops := .mark m dot
  refused := by
    intro more ls lexed
    rw [lexemes?_mark m fun is => absurd is dot] at lexed
    obtain ⟨back, -, rfl⟩ := Option.map_eq_some_iff.1 lexed
    rw [State.reads, h, Option.bind_none]

/-- No lexeme begins with one of these characters, so nothing goes on with them. -/
theorem fault {c : Char} (h : c ∈ [';', '&', '=']) (s : State) : EndsAt s c := by
  have none : ∀ more, lexemes? (c :: more) = none := by
    intro more
    simp only [List.mem_cons, List.not_mem_nil, or_false] at h
    rcases h with rfl | rfl | rfl <;> exact (@lexemes?_eq_cons _ more _ rfl).trans rfl
  constructor
  · intro more
    simp only [List.mem_cons, List.not_mem_nil, or_false] at h
    rcases h with rfl | rfl | rfl <;> exact .cons rfl rfl more
  · intro more ls lexed
    rw [none] at lexed
    cases lexed

/-- Behind a whole expression no construct can be ended. -/
theorem chain {c : Char} (h : c ∈ [')', ']', ';', '&', '=']) (e : Expr) :
    EndsAt ⟨.chain e, []⟩ c := by
  rcases List.mem_cons.1 h with rfl | h
  · exact mark (m := .closeParen) (by decide) rfl
  rcases List.mem_cons.1 h with rfl | h
  · exact mark (m := .closeBracket) (by decide) rfl
  · exact fault h _

end EndsAt

/-- Where a bracket can end an array, a parenthesis can end nothing. -/
theorem next?_closeParen {s last : State} (h : s.next? (.mark .closeBracket) = some last) :
    s.next? (.mark .closeParen) = none := by
  obtain ⟨mode, pending⟩ := s
  -- The innermost construct decides, and a parenthesis ends only calls.
  cases mode with
  | operand =>
    cases pending with
    | nil => rfl
    | cons p pending => cases p <;> first | rfl | cases h
  | chain e =>
    cases pending with
    | nil => rfl
    | cons p pending => cases p <;> first | rfl | cases h
  | name object => rfl
  | key properties => cases h
  | colon properties key => rfl

/-- Words in front of what does not go on with them can be told from it. -/
theorem word_cancel {w w' rest rest' : List Char} (h : isWord w = true) (h' : isWord w' = true)
    (stops : Stops rest) (stops' : Stops rest') (same : w ++ rest = w' ++ rest') : w = w' := by
  have taken : ∀ {w rest : List Char}, isWord w = true → Stops rest →
      (w ++ rest).takeWhile isWordChar = w := by
    intro w rest h stops
    rw [List.takeWhile_append_of_pos (isWordChar_of_isWord h), stops.word, List.append_nil]
  rw [← taken h stops, same, taken h' stops']

/-- Strings can be told from whatever follows them, since they end with a quote. -/
theorem codeString_cancel {s s' : String} {rest rest' : List Char}
    (same : codeString s ++ rest = codeString s' ++ rest') : s = s' ∧ rest = rest' := by
  have scanned : ∀ (s : String) (rest : List Char),
      StringBody.scan '\'' (s.toList.flatMap codeChar ++ '\'' :: rest) =
        .closed s.toList ((s.toList.flatMap codeChar).length + 1) :=
    fun s => StringBody.scan_flatMap (by decide) StringBody.scan_codeChar s.toList
  have read := scanned s rest
  have body : s.toList.flatMap codeChar ++ '\'' :: rest =
      s'.toList.flatMap codeChar ++ '\'' :: rest' := by
    simpa [codeString] using same
  rw [body, scanned] at read
  obtain rfl : s' = s := String.toList_injective (StringBody.closed.inj read).1
  exact ⟨rfl, List.append_cancel_left same⟩

/-! ### Operands -/

namespace Operand

variable {o o' : Operand} {rest rest' : List Char} {c d : Char}

theorem leads_chars (ok : AllSpellable o.literals) :
    Leads ⟨.operand, []⟩ o.chars ⟨.chain o.spelled, []⟩ :=
  ⟨_, reads_chars o ok, (Expr.derives_lexemes _ (spelled_readable o ok)).reads []⟩

/-- Operands can be told from what follows them in a program. -/
theorem chars_cancel (ok : AllSpellable o.literals) (ok' : AllSpellable o'.literals)
    (h : c ∈ [')', ']', ';', '&', '=']) (h' : d ∈ [')', ']', ';', '&', '='])
    (same : o.chars ++ c :: rest = o'.chars ++ d :: rest') :
    o = o' ∧ c :: rest = d :: rest' := by
  have cancelled := (leads_chars ok).cancel (leads_chars ok') (.chain h _) (.chain h' _) same
  have spelled : o.spelled = o'.spelled := Mode.chain.inj (State.mk.inj cancelled.1).1
  refine ⟨?_, cancelled.2⟩
  rw [← ofSpelled_spelled o ok, spelled, ofSpelled_spelled o' ok']

/-- Temporaries are operands, and can be told from what they are set to. -/
theorem tempChars_cancel {id id' : Nat}
    (same : tempChars id ++ '=' :: rest = tempChars id' ++ '=' :: rest') :
    id = id' ∧ rest = rest' := by
  have cancelled : temp id = temp id' ∧ '=' :: rest = '=' :: rest' :=
    chars_cancel allSpellable_nil allSpellable_nil (by decide) (by decide) same
  exact ⟨temp.inj cancelled.1, (List.cons.inj cancelled.2).2⟩

/-- The text of a list without its brackets leads to where the closing one could follow. -/
theorem leads_elementChars {os : List Operand} (ok : AllSpellable (literalsList os)) :
    ∃ next, Leads ⟨.operand, [.array []]⟩ (commas (elementChars os)) next ∧
      next.next? (.mark .closeBracket) = some ⟨.chain (.array (spelledList os)), []⟩ := by
  have readable := spelled_readable (list os) ok
  have derived : Expr.Derives (list os).spelled.lexemes (list os).spelled :=
    Expr.derives_lexemes _ readable
  have reads := derived.reads []
  -- The brackets are the first and the last step of what is read.
  rw [spelled, Expr.lexemes, List.cons_append, State.reads_cons rfl, State.reads_append] at reads
  obtain ⟨next, items, close⟩ := Option.bind_eq_some_iff.1 reads
  refine ⟨next, ⟨_, reads_elementChars os ok, items⟩, ?_⟩
  obtain ⟨last, close, same⟩ := Option.bind_eq_some_iff.1 close
  cases same
  exact close

/-- Operands with commas between them can be told from what follows the last one. -/
theorem elementChars_cancel {os os' : List Operand} (ok : AllSpellable (literalsList os))
    (ok' : AllSpellable (literalsList os')) (h : c ∈ [')', ';'])
    (same : commas (elementChars os) ++ c :: rest = commas (elementChars os') ++ c :: rest') :
    os = os' ∧ rest = rest' := by
  obtain ⟨next, leads, close⟩ := leads_elementChars ok
  obtain ⟨next', leads', close'⟩ := leads_elementChars ok'
  have ends : ∀ {s last : State}, s.next? (.mark .closeBracket) = some last → EndsAt s c := by
    intro s last close
    rcases List.mem_cons.1 h with rfl | h
    · exact .mark (m := .closeParen) (by decide) (next?_closeParen close)
    · exact .fault (by simp_all) s
  obtain ⟨rfl, tails⟩ := leads.cancel leads' (ends close) (ends close') same
  have last := Option.some.inj (close.symm.trans close')
  have spelled : spelledList os = spelledList os' :=
    Expr.array.inj (Mode.chain.inj (State.mk.inj last).1)
  refine ⟨?_, (List.cons.inj tails).2⟩
  rw [← ofSpelledList_spelledList os ok, spelled, ofSpelledList_spelledList os' ok']

end Operand

/-! ### Statements -/

/-- An assignment under a condition, in front of a text. -/
theorem guardedChars_append (condition : List Char) (into : Nat) (value rest : List Char) :
    guardedChars condition into value ++ rest =
      'i' :: 'f' :: '(' :: (condition ++ ')' :: '\x7b' ::
        (tempChars into ++ '=' :: (value ++ ';' :: '\x7d' :: rest))) := by
  have start : "if(".toList = ['i', 'f', '('] := rfl
  change "if(".toList ++ condition ++ ')' :: '\x7b' :: tempChars into ++ '=' :: value ++
    [';', '\x7d'] ++ rest = _
  simp only [start, List.append_assoc, List.cons_append, List.nil_append]

/-- What a statement does with the object of its condition. -/
inductive Access where
  | member (name : String)
  | index (key : Operand)
  | call (args : List Operand)

namespace Access

/-- The statement that assigns what is found in the object to a temporary. -/
def statement (into : Nat) (object : Operand) : Access → Statement
  | member name => .member into object name
  | index key => .index into object key
  | call args => .call into object args

/-- What is written behind the object. -/
def chars : Access → List Char
  | member name => '.' :: name.toList
  | index key => '[' :: key.chars ++ [']']
  | call args => '(' :: commas (Operand.elementChars args) ++ [')']

/-- The literals and names of the access could stand in a source. -/
def Spellable : Access → Prop
  | member name => isWord name.toList = true
  | index key => AllSpellable key.literals
  | call args => AllSpellable (Operand.literalsList args)

theorem spellable_statement {access : Access} {into : Nat} {object : Operand} :
    (access.statement into object).Spellable ↔
      AllSpellable object.literals ∧ access.Spellable := by
  cases access <;> exact Iff.rfl

theorem chars_statement (access : Access) (into : Nat) (object : Operand) :
    (access.statement into object).chars =
      guardedChars object.chars into ('(' :: (object.chars ++ ')' :: access.chars)) := by
  cases access with
  | member name => rfl
  | index key =>
    change guardedChars _ into ('(' :: object.chars ++ ')' :: '[' :: key.chars ++ [']']) = _
    rw [List.append_assoc]
    rfl
  | call args =>
    change guardedChars _ into ('(' :: object.chars ++ ')' :: '(' :: commas _ ++ [')']) = _
    rw [List.append_assoc]
    rfl

/-- The access can be told from what follows it. -/
theorem chars_cancel {a a' : Access} {rest rest' : List Char} (ok : a.Spellable)
    (ok' : a'.Spellable) (same : a.chars ++ ';' :: rest = a'.chars ++ ';' :: rest') : a = a' := by
  cases a with
  | member name =>
    cases a' with
    | member name' =>
      have stops := fun more => (EndsAt.fault (c := ';') (by decide) State.start).stops more
      have names := word_cancel ok ok' (stops rest) (stops rest') (List.cons.inj same).2
      rw [String.toList_injective names]
    -- Accesses of different kinds begin with different marks.
    | _ => cases same
  | index key =>
    cases a' with
    | index key' =>
      have keys : key.chars ++ ']' :: ';' :: rest = key'.chars ++ ']' :: ';' :: rest' := by
        simpa [chars] using same
      rw [(Operand.chars_cancel ok ok' (by decide) (by decide) keys).1]
    | _ => cases same
  | call args =>
    cases a' with
    | call args' =>
      have all : commas (Operand.elementChars args) ++ ')' :: ';' :: rest =
          commas (Operand.elementChars args') ++ ')' :: ';' :: rest' := by
        simpa [chars] using same
      rw [(Operand.elementChars_cancel ok ok' (by decide) all).1]
    | _ => cases same

/-- Statements that look something up in an object can be told from what follows them. -/
theorem statement_cancel {a a' : Access} {into into' : Nat} {o o' : Operand}
    {rest rest' : List Char} (ok : (a.statement into o).Spellable)
    (ok' : (a'.statement into' o').Spellable)
    (same : (a.statement into o).chars ++ rest = (a'.statement into' o').chars ++ rest') :
    a.statement into o = a'.statement into' o' := by
  obtain ⟨object, access⟩ := spellable_statement.1 ok
  obtain ⟨object', access'⟩ := spellable_statement.1 ok'
  simp only [chars_statement, guardedChars_append, List.cons.injEq, true_and, List.cons_append,
    List.append_assoc] at same
  -- From left to right: the object, the temporary, the object again, and the access.
  obtain ⟨rfl, guarded⟩ := Operand.chars_cancel object object' (by decide) (by decide) same
  simp only [List.cons.injEq, true_and] at guarded
  obtain ⟨rfl, value⟩ := Operand.tempChars_cancel guarded
  simp only [List.cons.injEq, true_and] at value
  have behind := (List.cons.inj (List.append_cancel_left value)).2
  rw [chars_cancel access access' behind]

end Access

namespace Statement

variable {s s' : Statement} {rest rest' : List Char}

/-- Every statement is a lookup in the scope, one in an object, or a return. -/
theorem load_or_access_or_ret (s : Statement) :
    (∃ into name, s = load into name) ∨
      (∃ (a : Access) (into : Nat) (object : Operand), s = a.statement into object) ∨
      ∃ value, s = ret value := by
  cases s with
  | load into name => exact .inl ⟨into, name, rfl⟩
  | member into object name => exact .inr (.inl ⟨.member name, into, object, rfl⟩)
  | index into object key => exact .inr (.inl ⟨.index key, into, object, rfl⟩)
  | call into callee args => exact .inr (.inl ⟨.call args, into, callee, rfl⟩)
  | ret value => exact .inr (.inr ⟨value, rfl⟩)

/-- The text of a lookup in the scope begins with a condition on the locals. -/
theorem chars_load (into : Nat) (name : String) (rest : List Char) :
    ∃ more, (load into name).chars ++ rest =
      'i' :: 'f' :: '(' :: 'l' :: '&' :: '&' :: '(' :: (codeString name ++
        ' ' :: 'i' :: 'n' :: ' ' :: 'l' :: ')' :: ')' :: '\x7b' ::
          (tempChars into ++ '=' :: more)) := by
  have start : "l&&(".toList = ['l', '&', '&', '('] := rfl
  have behind : " in l)".toList = [' ', 'i', 'n', ' ', 'l', ')'] := rfl
  have text : (load into name).chars = guardedChars ("l&&(".toList ++ codeString name ++
    " in l)".toList) into _ ++ _ := rfl
  rw [text, List.append_assoc, guardedChars_append, start, behind]
  simp only [List.append_assoc, List.cons_append, List.nil_append]
  exact ⟨_, rfl⟩

theorem chars_ret (value : Operand) (rest : List Char) :
    (ret value).chars ++ rest =
      'r' :: 'e' :: 't' :: 'u' :: 'r' :: 'n' :: ' ' :: (value.chars ++ ';' :: rest) := by
  change ('r' :: 'e' :: 't' :: 'u' :: 'r' :: 'n' :: ' ' :: value.chars) ++ [';'] ++ rest = _
  rw [List.append_assoc]
  rfl

theorem load_cancel {into into' : Nat} {name name' : String}
    (same : (load into name).chars ++ rest = (load into' name').chars ++ rest') :
    load into name = load into' name' := by
  obtain ⟨more, text⟩ := chars_load into name rest
  obtain ⟨more', text'⟩ := chars_load into' name' rest'
  simp only [text, text', List.cons.injEq, true_and] at same
  obtain ⟨rfl, behind⟩ := codeString_cancel same
  simp only [List.cons.injEq, true_and] at behind
  rw [(Operand.tempChars_cancel behind).1]

/-- The locals are an operand, but what follows them in a condition is no parenthesis. -/
theorem load_ne_access {into into' : Nat} {name : String} {a : Access} {object : Operand}
    (ok : (a.statement into' object).Spellable) :
    (load into name).chars ++ rest ≠ (a.statement into' object).chars ++ rest' := by
  intro same
  obtain ⟨more, text⟩ := chars_load into name rest
  simp only [text, Access.chars_statement, guardedChars_append, List.cons.injEq, true_and] at same
  have locals := Operand.chars_cancel (o := .locals) (c := '&') allSpellable_nil
    (Access.spellable_statement.1 ok).1 (by decide) (by decide) same
  cases locals.2

theorem ret_cancel {value value' : Operand} (ok : (ret value).Spellable)
    (ok' : (ret value').Spellable)
    (same : (ret value).chars ++ rest = (ret value').chars ++ rest') : ret value = ret value' := by
  simp only [chars_ret, List.cons.injEq, true_and] at same
  rw [(Operand.chars_cancel ok ok' (by decide) (by decide) same).1]

/-- A return begins with another letter than all other statements. -/
theorem chars_start (s : Statement) :
    ∃ more, s.chars = (if s.into?.isSome then 'i' else 'r') :: more := by
  cases s <;> exact ⟨_, rfl⟩

theorem isSome_into?_eq (same : s.chars ++ rest = s'.chars ++ rest') :
    s.into?.isSome = s'.into?.isSome := by
  obtain ⟨more, start⟩ := s.chars_start
  obtain ⟨more', start'⟩ := s'.chars_start
  rw [start, start'] at same
  have letters := (List.cons.inj same).1
  revert letters
  cases s.into?.isSome <;> cases s'.into?.isSome <;> decide

theorem chars_append_ne_nil (s : Statement) (rest : List Char) : s.chars ++ rest ≠ [] := by
  obtain ⟨more, start⟩ := s.chars_start
  rw [start]
  exact List.cons_ne_nil _ _

/-- No statement begins as the declaration of the temporaries does. -/
theorem flatMap_chars_ne (code : List Statement) (more : List Char) :
    code.flatMap chars ≠ 'v' :: more := by
  intro same
  cases code with
  | nil => cases same
  | cons s code =>
    obtain ⟨more', start⟩ := s.chars_start
    rw [List.flatMap_cons, start] at same
    have letter := (List.cons.inj same).1
    revert letter
    cases s.into?.isSome <;> decide

/-- Statements can be told from what follows them. -/
theorem chars_cancel (ok : s.Spellable) (ok' : s'.Spellable)
    (same : s.chars ++ rest = s'.chars ++ rest') : s = s' ∧ rest = rest' := by
  have kind := isSome_into?_eq same
  suffices h : s = s' by
    subst h
    exact ⟨rfl, List.append_cancel_left same⟩
  -- What both statements are: all pairs but two of different kinds differ in the first letter.
  rcases s.load_or_access_or_ret with ⟨into, name, rfl⟩ | ⟨a, into, object, rfl⟩ | ⟨value, rfl⟩
  · rcases s'.load_or_access_or_ret with
      ⟨into', name', rfl⟩ | ⟨a', into', object', rfl⟩ | ⟨value', rfl⟩
    · exact load_cancel same
    · exact absurd same (load_ne_access ok')
    · cases kind
  · rcases s'.load_or_access_or_ret with
      ⟨into', name', rfl⟩ | ⟨a', into', object', rfl⟩ | ⟨value', rfl⟩
    · exact absurd same.symm (load_ne_access ok)
    · exact Access.statement_cancel ok ok' same
    · cases a <;> cases kind
  · rcases s'.load_or_access_or_ret with
      ⟨into', name', rfl⟩ | ⟨a', into', object', rfl⟩ | ⟨value', rfl⟩
    · cases kind
    · cases a' <;> cases kind
    · exact ret_cancel ok ok' same

/-- Statements one after the other can be told apart by their texts. -/
theorem flatMap_chars_injective {code code' : List Statement} (ok : ∀ s ∈ code, s.Spellable)
    (ok' : ∀ s ∈ code', s.Spellable) (same : code.flatMap chars = code'.flatMap chars) :
    code = code' := by
  induction code generalizing code' with
  | nil =>
    cases code' with
    | nil => rfl
    | cons s' code' => exact absurd same.symm (s'.chars_append_ne_nil _)
  | cons s code ih =>
    cases code' with
    | nil => exact absurd same (s.chars_append_ne_nil _)
    | cons s' code' =>
      obtain ⟨first, others⟩ := List.forall_mem_cons.1 ok
      obtain ⟨first', others'⟩ := List.forall_mem_cons.1 ok'
      rw [List.flatMap_cons, List.flatMap_cons] at same
      obtain ⟨rfl, behind⟩ := chars_cancel first first' same
      rw [ih others others' behind]

end Statement

/-! ### Programs -/

namespace Program

theorem elementChars_temps (vars : List Nat) :
    Operand.elementChars (vars.map .temp) = vars.map tempChars := by
  induction vars with
  | nil => rfl
  | cons id vars ih => exact congrArg (tempChars id :: ·) ih

theorem literalsList_temps (vars : List Nat) : Operand.literalsList (vars.map .temp) = [] := by
  induction vars with
  | nil => rfl
  | cons id vars ih => exact ih

/-- Declarations can be told from the statements that follow them. -/
theorem varsChars_cancel {vars vars' : List Nat} {code code' : List Statement}
    (same : varsChars vars ++ code.flatMap Statement.chars =
      varsChars vars' ++ code'.flatMap Statement.chars) : vars = vars' := by
  cases vars with
  | nil =>
    cases vars' with
    | nil => rfl
    | cons id' vars' => exact absurd same (Statement.flatMap_chars_ne code _)
  | cons id vars =>
    cases vars' with
    | nil => exact absurd same.symm (Statement.flatMap_chars_ne code' _)
    | cons id' vars' =>
      have spellable : ∀ vars : List Nat,
          AllSpellable (Operand.literalsList (vars.map .temp)) := by
        intro vars
        rw [literalsList_temps]
        exact allSpellable_nil
      simp only [varsChars, List.isEmpty_cons, Bool.false_eq_true, if_false, List.append_assoc,
        List.singleton_append, ← elementChars_temps] at same
      -- The temporaries are a list of operands, which ends in front of the semicolon.
      have temps := (Operand.elementChars_cancel (spellable _) (spellable _) (by decide)
        (List.append_cancel_left same)).1
      exact List.map_injective_iff.2 (fun _ _ => Operand.temp.inj) temps

/-- Programs of which every piece could stand in a source can be told apart by their texts. -/
theorem chars_injective {p p' : Program} (ok : ∀ s ∈ p.body, s.Spellable)
    (ok' : ∀ s ∈ p'.body, s.Spellable) (same : p.chars = p'.chars) : p = p' := by
  obtain ⟨vars, body⟩ := p
  obtain ⟨vars', body'⟩ := p'
  obtain rfl : vars = vars' := varsChars_cancel same
  obtain rfl : body = body' :=
    Statement.flatMap_chars_injective ok ok' (List.append_cancel_left same)
  rfl

/-- Sources whose programs have the same text have the same program: nothing in a source can be
written so that it passes for a part of a program. -/
theorem ofSource_text_injective {source source' : String} {e e' : Expr}
    (h : Expr.ofSource source = .ok e) (h' : Expr.ofSource source' = .ok e')
    (same : (Program.ofExpr e).text = (Program.ofExpr e').text) :
    Program.ofExpr e = Program.ofExpr e' :=
  chars_injective (spellable_of_ofSource h) (spellable_of_ofSource h') (String.ofList_injective same)

/-- A key as a string and as a name, and a character as it is and as an escape. -/
theorem ofSource_text_injective_key :
    let e : Expr := .program (.object [(.literal (.str "a"), .literal (.str "é"))])
    let e' : Expr := .program (.object [(.name "a", .literal (.str "é"))])
    Expr.ofSource "\x7b'a':'é'\x7d" = .ok e ∧ Expr.ofSource "\x7ba:'\\u00e9'\x7d" = .ok e' ∧
      (Program.ofExpr e).text = (Program.ofExpr e').text ∧
        Program.ofExpr e = Program.ofExpr e' := by
  have key : Reads ['\'', 'a', '\''] [':', '\'', 'é', '\'', '\x7d'] [.str "a"] :=
    lexemes?_quoted "a" [':', '\'', 'é', '\'', '\x7d']
  have string : Reads ['\'', 'é', '\''] ['\x7d'] [.str "é"] := lexemes?_quoted "é" ['\x7d']
  have close := Reads.mark .closeBrace (by decide) (.nil [])
  have lexed := (key.append ((string.append close).mark .colon (by decide))).mark .openBrace
    (by decide)
  have derived := Expr.Derives.object (.single (.str "a") (.str "é"))
  have read : Expr.ofSource "\x7b'a':'é'\x7d" = .ok _ :=
    Expr.ofSource_eq_ok_iff.2 ⟨_, _, lexed.lexemes?_eq, derived, rfl⟩
  have ok : AllSpellable (Operand.map [("a", .literal (.str "é"))]).literals :=
    allSpellable_singleton.2 ⟨.str "é", trivial, rfl⟩
  have read' := Operand.ofSource_text ok
  exact ⟨read, read', rfl, ofSource_text_injective read read' rfl⟩

end Program

end DataBinding
