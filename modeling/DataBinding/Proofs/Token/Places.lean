import DataBinding.Proofs.Token.Slices

/-!
# Places in a source

The scanner goes over a source from place to place. Each place lies behind those before it: what
has been passed on the way there is a slice of the source, and the offset has grown by its size.
Everything that is read, a token or a fault, is read at such a place.

## Main definitions

* `Cursor.Reaches` — a place lies behind another

## Main results

* `Cursor.reaches_of_next?` — where reading goes on
* `Cursor.exists_place_of_mem_items` — each token and each fault is read at some place
* `Cursor.skipBlanks_eq`, `Cursor.next?_eq` — what is read behind blanks
-/

namespace DataBinding.Cursor

/-- The second place lies behind the first one, with the text `passed` between them. -/
structure Reaches (cur : Cursor) (passed : List Char) (later : Cursor) : Prop where
  rest_eq : cur.rest = passed ++ later.rest
  pos_eq : later.pos = cur.pos + byteSize passed

variable {cur later last next : Cursor} {passed passed' : List Char}

theorem Reaches.refl (cur : Cursor) : cur.Reaches [] cur := ⟨rfl, rfl⟩

theorem Reaches.trans (h : cur.Reaches passed later) (h' : later.Reaches passed' last) :
    cur.Reaches (passed ++ passed') last where
  rest_eq := by rw [h.rest_eq, h'.rest_eq, List.append_assoc]
  pos_eq := by rw [h'.pos_eq, h.pos_eq, byteSize_append, Nat.add_assoc]

theorem reaches_advance (cur : Cursor) (count : Nat) :
    cur.Reaches (cur.rest.take count) (cur.advance count) where
  rest_eq := (List.take_append_drop count cur.rest).symm
  pos_eq := rfl

/-- Reading goes on behind what has been read. -/
theorem reaches_of_next? {item : Except (Fault × Nat) Token}
    (h : cur.next? = some (item, next)) : ∃ passed, cur.Reaches passed next := by
  unfold next? at h
  simp only at h
  split at h
  · cases h
  · cases h
    exact ⟨_, (cur.reaches_advance _).trans (reaches_advance _ _)⟩

theorem items_eq_nil (h : cur.next? = none) : cur.items = [] := by
  rw [items]
  split <;> simp_all

theorem items_eq_cons {item : Except (Fault × Nat) Token} (h : cur.next? = some (item, next)) :
    cur.items = item :: next.items := by
  rw [items]
  split <;> simp_all

/-- Each token and each fault is read at some place. -/
theorem exists_place_of_mem_items {item : Except (Fault × Nat) Token} (cur : Cursor)
    (h : item ∈ cur.items) :
    ∃ passed later next, cur.Reaches passed later ∧ later.next? = some (item, next) := by
  cases found : cur.next? with
  | none =>
    rw [items_eq_nil found] at h
    cases h
  | some step =>
    obtain ⟨first, next⟩ := step
    rw [items_eq_cons found] at h
    rcases List.mem_cons.1 h with rfl | h
    · exact ⟨[], cur, next, .refl cur, found⟩
    · -- By induction on what is left to read.
      obtain ⟨passed, later, next', reaches, read⟩ := exists_place_of_mem_items next h
      obtain ⟨passed', step⟩ := reaches_of_next? found
      exact ⟨passed' ++ passed, later, next', step.trans reaches, read⟩
termination_by cur.rest.length
decreasing_by exact next?_length_lt found

/-- Blanks are skipped up to a character that is none. -/
theorem skipBlanks_eq {gap text : List Char} {c : Char} (h : cur.rest = gap ++ c :: text)
    (blank : gap ⊆ blanks) (solid : isBlank c = false) :
    cur.skipBlanks = ⟨cur.pos + byteSize gap, c :: text⟩ := by
  have skipped : cur.rest.takeWhile isBlank = gap := by
    rw [h, List.takeWhile_append_of_pos fun c mem => mem_blanks_iff.1 (blank mem),
      List.takeWhile_cons_of_neg (by simp [solid]), List.append_nil]
  rw [skipBlanks, skipped, advance, h, List.take_left, List.drop_left]

/-- A token or a fault is read at the first character that is no blank. -/
theorem next?_eq {gap text : List Char} {c : Char} (h : cur.rest = gap ++ c :: text)
    (blank : gap ⊆ blanks) (solid : isBlank c = false) :
    let start := Cursor.mk (cur.pos + byteSize gap) (c :: text)
    cur.next? = some (match (recognize c text).outcome with
      | .ok lexeme => .ok ⟨lexeme, start.pos⟩
      | .error (fault, count) => .error (fault, (start.advance count).pos),
      start.advance (recognize c text).size) := by
  unfold next?
  rewrite [skipBlanks_eq h blank solid]
  rfl

end DataBinding.Cursor
