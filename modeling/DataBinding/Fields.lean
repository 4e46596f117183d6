/-!
# Fields

The entries of a map, as a list in ascending order of the keys, each key once. Keys are ordered by
their characters. Two maps with the same entries are then the same list, whatever the order in
which the entries were put in.

## Main definitions

* `Fields.insert` — puts an entry in its place, replacing one of the same key
* `Fields.ofList` — the fields of a list of entries, of which the last of each key counts
* `Fields.find?` — the value of a key
* `Fields.Ascending` — the order that `insert` and `ofList` keep
-/

namespace DataBinding

/-- Entries of a map, in ascending order of the keys. -/
abbrev Fields (α : Type) := List (String × α)

namespace Fields

variable {α β : Type}

/-- Puts an entry in its place. An entry of the same key is replaced. -/
def insert (fields : Fields α) (key : String) (value : α) : Fields α :=
  match fields with
  | [] => [(key, value)]
  | (k, v) :: rest =>
    if key < k then (key, value) :: (k, v) :: rest
    else if key = k then (key, value) :: rest
    else (k, v) :: insert rest key value

/-- The fields of a list of entries; of several entries with one key the last counts. -/
def ofList (entries : List (String × α)) : Fields α :=
  entries.foldl (fun fields entry => fields.insert entry.1 entry.2) []

/-- The value of a key. -/
def find? (fields : Fields α) (key : String) : Option α :=
  match fields with
  | [] => none
  | (k, v) :: rest => if key = k then some v else find? rest key

/-- Whether there is an entry of the key. -/
def contains (fields : Fields α) (key : String) : Bool := (fields.find? key).isSome

/-- The keys ascend, so that no two are equal. -/
def Ascending (fields : Fields α) : Prop := fields.Pairwise fun a b => a.1 < b.1

theorem ascending_nil : Ascending ([] : Fields α) := List.Pairwise.nil

theorem mem_insert {fields : Fields α} {key : String} {value : α} {entry : String × α}
    (h : entry ∈ fields.insert key value) : entry = (key, value) ∨ entry ∈ fields := by
  fun_induction insert fields key value with grind

theorem Ascending.insert {fields : Fields α} (h : fields.Ascending) (key : String) (value : α) :
    (fields.insert key value).Ascending := by
  induction fields with
  | nil => exact List.pairwise_singleton _ _
  | cons entry rest ih =>
    obtain ⟨k, v⟩ := entry
    obtain ⟨first, tail⟩ := List.pairwise_cons.1 h
    unfold Fields.insert
    split
    · rename_i lt
      refine List.pairwise_cons.2 ⟨fun e mem => ?_, h⟩
      rcases List.mem_cons.1 mem with rfl | mem
      · exact lt
      · exact String.lt_trans lt (first e mem)
    · rename_i not_lt
      split
      · rename_i eq
        subst eq
        exact List.pairwise_cons.2 ⟨first, tail⟩
      · rename_i ne
        refine List.pairwise_cons.2 ⟨fun e mem => ?_, ih tail⟩
        rcases mem_insert mem with rfl | mem
        · exact Decidable.byContradiction fun h' =>
            ne (String.le_antisymm (String.not_lt.1 h') (String.not_lt.1 not_lt))
        · exact first e mem

theorem ascending_ofList (entries : List (String × α)) : (ofList entries).Ascending := by
  unfold ofList
  suffices ∀ fields : Fields α, fields.Ascending →
      (entries.foldl (fun fields entry => fields.insert entry.1 entry.2) fields).Ascending from
    this [] ascending_nil
  induction entries with
  | nil => exact fun _ h => h
  | cons entry rest ih => exact fun fields h => ih _ (h.insert entry.1 entry.2)

theorem mem_of_find? {fields : Fields α} {key : String} {v : α} (h : fields.find? key = some v) :
    (key, v) ∈ fields := by
  fun_induction find? fields key with
  | case1 => cases h
  | case2 =>
    cases h
    exact List.mem_cons_self
  | case3 k w rest ne ih => exact List.mem_cons_of_mem _ (ih h)

theorem mem_ofList {entries : List (String × α)} {entry : String × α} (h : entry ∈ ofList entries) :
    entry ∈ entries := by
  unfold ofList at h
  suffices ∀ fields : Fields α,
      entry ∈ entries.foldl (fun fields entry => fields.insert entry.1 entry.2) fields →
        entry ∈ entries ∨ entry ∈ fields by
    simpa using this [] h
  clear h
  induction entries with
  | nil => exact fun _ => .inr
  | cons first rest ih =>
    intro fields mem
    rcases ih _ mem with later | mem
    · exact .inl (List.mem_cons_of_mem _ later)
    · rcases mem_insert mem with rfl | before
      · exact .inl List.mem_cons_self
      · exact .inr before

theorem find?_insert (fields : Fields α) (key key' : String) (value : α) :
    (fields.insert key value).find? key' =
      if key' = key then some value else fields.find? key' := by
  fun_induction insert fields key value with grind [find?]

/-- Of several entries with one key the last counts. -/
theorem find?_ofList (entries : List (String × α)) (key : String) :
    (ofList entries).find? key = entries.reverse.lookup key := by
  unfold ofList
  suffices ∀ fields : Fields α,
      Fields.find? (entries.foldl (fun fields entry => fields.insert entry.1 entry.2) fields) key =
        (entries.reverse.lookup key).or (fields.find? key) from
    (this []).trans Option.or_none
  induction entries with
  | nil => exact fun _ => rfl
  | cons entry rest ih =>
    obtain ⟨k, v⟩ := entry
    intro fields
    rw [List.foldl_cons, ih, find?_insert, List.reverse_cons, List.lookup_append, Option.or_assoc]
    congr 1
    by_cases eq : key = k
    · simp [eq]
    · simp [List.lookup_cons, eq, beq_false_of_ne eq]

end Fields

end DataBinding
