import DataBinding.Proofs.Number.Equality
import DataBinding.Proofs.Value.Property
import Mathlib.Data.List.Sort

/-!
# Equality of values

NaN is not equal to itself, and so no value is that NaN occurs in. Apart from that, two values are
equal if they are the same but for the signs of zeros within them. Equality is therefore symmetric
and transitive. Nothing that is observed of a value shows the sign of a zero, and what is found in a
value without NaN is without NaN, so that equal values cannot be told apart.

## Main definitions

* `Value.numbers` — the numbers that occur in a value
* `Value.canonical` — the value without the signs of zeros

## Main results

* `Value.beq_iff` — equal values have the same form and are without NaN
* `Value.get_canonical`, `Value.getProperty_canonical` — lookups go by the form
* `Fields.Ascending.ext` — maps go by what is found in them, not by the order of their entries
* `Value.beq_observations` — equality is a partial equivalence, and equal values look alike
-/

namespace DataBinding

/-! ### Maps -/

namespace Fields

variable {α β : Type}

theorem find?_map (f : α → β) (fields : Fields α) (key : String) :
    find? (fields.map fun field => (field.1, f field.2)) key = (fields.find? key).map f := by
  induction fields with
  | nil => rfl
  | cons field rest ih =>
    obtain ⟨k, v⟩ := field
    simp only [List.map_cons, find?]
    split
    · rfl
    · exact ih

/-- Every entry of a map is found under its key. -/
theorem Ascending.find? {fields : Fields α} (h : fields.Ascending) {key : String} {v : α}
    (mem : (key, v) ∈ fields) : fields.find? key = some v := by
  induction fields with
  | nil => cases mem
  | cons field rest ih =>
    obtain ⟨k, w⟩ := field
    obtain ⟨first, tail⟩ := List.pairwise_cons.1 h
    rw [Fields.find?]
    -- Behind the first entry all keys are greater, so none of them is the key of that entry.
    rcases List.mem_cons.1 mem with eq | mem
    · cases eq
      exact if_pos rfl
    · have later : k < key := first _ mem
      rw [if_neg fun eq : key = k => String.lt_irrefl k (eq ▸ later), ih tail mem]

/-- Maps in which the same is found have the same entries. -/
theorem Ascending.ext {fields fields' : Fields α} (h : fields.Ascending) (h' : fields'.Ascending)
    (eq : ∀ key, fields.find? key = fields'.find? key) : fields = fields' := by
  -- Entries in ascending order are determined by which of them there are.
  have mem : ∀ field, field ∈ fields ↔ field ∈ fields' := fun field =>
    ⟨fun m => mem_of_find? ((eq field.1).symm.trans (h.find? m)),
      fun m => mem_of_find? ((eq field.1).trans (h'.find? m))⟩
  have asymm : Std.Antisymm fun a b : String × α => a.1 < b.1 :=
    ⟨fun a b lt gt => absurd (String.lt_trans lt gt) (String.lt_irrefl _)⟩
  have irrefl : Std.Irrefl fun a b : String × α => a.1 < b.1 := ⟨fun a => String.lt_irrefl _⟩
  exact List.Pairwise.eq_of_mem_iff h h' mem

end Fields

namespace Value

mutual

/-- The numbers that occur in a value, at any depth. -/
def numbers : Value → List Number
  | number n => [n]
  | list elements => numbersList elements
  | map fields => numbersFields fields
  | _ => []

/-- The numbers that occur in several values. -/
def numbersList : List Value → List Number
  | [] => []
  | v :: rest => numbers v ++ numbersList rest

/-- The numbers that occur in the values of fields. -/
def numbersFields : List (String × Value) → List Number
  | [] => []
  | (_, v) :: rest => numbers v ++ numbersFields rest

end

mutual

/-- The value without the signs of zeros: every `-0` within it becomes `0`. -/
def canonical : Value → Value
  | number n => number n.canonical
  | list elements => list (canonicalList elements)
  | map fields => map (canonicalFields fields)
  | v => v

def canonicalList : List Value → List Value
  | [] => []
  | v :: rest => canonical v :: canonicalList rest

def canonicalFields : List (String × Value) → List (String × Value)
  | [] => []
  | (key, v) :: rest => (key, canonical v) :: canonicalFields rest

end

theorem canonicalList_eq_map (vs : List Value) : canonicalList vs = vs.map canonical := by
  induction vs with
  | nil => rfl
  | cons v rest ih => rw [canonicalList, ih, List.map_cons]

theorem canonicalFields_eq_map (fields : List (String × Value)) :
    canonicalFields fields = fields.map fun field => (field.1, field.2.canonical) := by
  induction fields with
  | nil => rfl
  | cons field rest ih => rw [canonicalFields, ih, List.map_cons]

theorem numbers_subset_of_mem {vs : List Value} {v : Value} (h : v ∈ vs) :
    v.numbers ⊆ numbersList vs := by
  induction vs with
  | nil => cases h
  | cons w rest ih =>
    rcases List.mem_cons.1 h with rfl | h
    · exact List.subset_append_left _ _
    · exact List.subset_append_of_subset_right _ (ih h)

theorem mem_numbersFields {fields : List (String × Value)} {n : Number} :
    n ∈ numbersFields fields ↔ ∃ field ∈ fields, n ∈ field.2.numbers := by
  induction fields with
  | nil => simp [numbersFields]
  | cons field rest ih => simp [numbersFields, ih]

mutual

/-- The form of a value has the forms of its numbers. -/
theorem numbers_canonical (v : Value) : v.canonical.numbers = v.numbers.map Number.canonical := by
  cases v with
  | list elements => exact numbersList_canonicalList elements
  | map fields => exact numbersFields_canonicalFields fields
  | _ => rfl

theorem numbersList_canonicalList (vs : List Value) :
    numbersList (canonicalList vs) = (numbersList vs).map Number.canonical := by
  cases vs with
  | nil => rfl
  | cons v rest =>
    rw [canonicalList, numbersList, numbersList, numbers_canonical v,
      numbersList_canonicalList rest, List.map_append]

theorem numbersFields_canonicalFields (fields : List (String × Value)) :
    numbersFields (canonicalFields fields) = (numbersFields fields).map Number.canonical := by
  cases fields with
  | nil => rfl
  | cons field rest =>
    obtain ⟨key, v⟩ := field
    rw [canonicalFields, numbersFields, numbersFields, numbers_canonical v,
      numbersFields_canonicalFields rest, List.map_append]

end

/-- NaN has no other form. -/
theorem nan_mem_canonical (v : Value) : .nan ∈ v.canonical.numbers ↔ .nan ∈ v.numbers := by
  rw [numbers_canonical, List.mem_map]
  constructor
  · rintro ⟨n, mem, nan⟩
    have same : n.isNaN = true := by rw [← n.isNaN_canonical, nan]; rfl
    cases n with
    | nan => exact mem
    | _ => cases same
  · exact fun nan => ⟨_, nan, rfl⟩

/-! ### Equality by form -/

mutual

/-- Equal values have the same form and are without NaN. -/
theorem beq_iff (a b : Value) :
    (a == b) = true ↔ a.canonical = b.canonical ∧ .nan ∉ a.numbers := by
  change beq a b = true ↔ _
  cases a with
  | number n =>
    cases b with
    | number m => simp [beq, canonical, numbers, Number.beq_iff, Number.isNaN_eq_false_iff]
    | _ => simp [beq, canonical]
  | list as =>
    cases b with
    | list bs => simpa [beq, canonical, numbers] using beqList_iff as bs
    | _ => simp [beq, canonical]
  | map fs =>
    cases b with
    | map gs => simpa [beq, canonical, numbers] using beqFields_iff fs gs
    | _ => simp [beq, canonical]
  | _ => cases b <;> simp [beq, canonical, numbers]

theorem beqList_iff (as bs : List Value) :
    beqList as bs = true ↔ canonicalList as = canonicalList bs ∧ .nan ∉ numbersList as := by
  cases as with
  | nil => cases bs <;> simp [beqList, canonicalList, numbersList]
  | cons a as =>
    cases bs with
    | nil => simp [beqList, canonicalList]
    | cons b bs =>
      have first : beq a b = true ↔ _ := beq_iff a b
      simp only [beqList, canonicalList, numbersList, Bool.and_eq_true, first, beqList_iff as bs,
        List.cons.injEq, List.mem_append, not_or]
      exact and_and_and_comm

theorem beqFields_iff (fs gs : List (String × Value)) :
    beqFields fs gs = true ↔
      canonicalFields fs = canonicalFields gs ∧ .nan ∉ numbersFields fs := by
  cases fs with
  | nil => cases gs <;> simp [beqFields, canonicalFields, numbersFields]
  | cons f fs =>
    cases gs with
    | nil => simp [beqFields, canonicalFields]
    | cons g gs =>
      obtain ⟨key, a⟩ := f
      obtain ⟨key', b⟩ := g
      have first : beq a b = true ↔ _ := beq_iff a b
      simp only [beqFields, canonicalFields, numbersFields, Bool.and_eq_true, first,
        beqFields_iff fs gs, beq_iff_eq, List.cons.injEq, Prod.mk.injEq, List.mem_append, not_or]
      tauto

end

/-! ### What is observed of a value -/

theorem isNullish_canonical (v : Value) : v.canonical.isNullish = v.isNullish := by
  cases v <;> rfl

@[simp] theorem truthy_canonical (v : Value) : v.canonical.truthy = v.truthy := by
  cases v <;> simp [canonical, truthy]

mutual

theorem chars_canonical (v : Value) : v.canonical.chars = v.chars := by
  cases v with
  | number n => exact n.chars_canonical
  | list elements => exact congrArg [','].intercalate (elementChars_canonicalList elements)
  | map fields =>
    exact congrArg (fun texts => '\x7b' :: [',', ' '].intercalate texts ++ ['\x7d'])
      (fieldChars_canonicalFields fields)
  | _ => rfl

theorem elementChars_canonicalList (vs : List Value) :
    elementChars (canonicalList vs) = elementChars vs := by
  cases vs with
  | nil => rfl
  | cons v rest =>
    rw [canonicalList, elementChars, elementChars, isNullish_canonical, chars_canonical v,
      elementChars_canonicalList rest]

theorem fieldChars_canonicalFields (fields : List (String × Value)) :
    fieldChars (canonicalFields fields) = fieldChars fields := by
  cases fields with
  | nil => rfl
  | cons field rest =>
    obtain ⟨key, v⟩ := field
    rw [canonicalFields, fieldChars, fieldChars, chars_canonical v,
      fieldChars_canonicalFields rest]

end

/-- The text of a value does not show the signs of zeros. -/
@[simp] theorem text_canonical (v : Value) : v.canonical.text = v.text :=
  congrArg String.ofList v.chars_canonical

@[simp] theorem hasOwn_canonical (v : Value) (key : String) :
    v.canonical.hasOwn key = v.hasOwn key := by
  cases v with
  | map fields =>
    rw [canonical, hasOwn, hasOwn, Fields.contains, Fields.contains, canonicalFields_eq_map,
      Fields.find?_map, Option.isSome_map]
  | _ => rfl

/-- The characters of a string have no signs. -/
theorem elements?_canonical (v : Value) :
    v.canonical.elements? = v.elements?.map (List.map canonical) := by
  cases v with
  | list elements => exact congrArg some (canonicalList_eq_map elements)
  | str s =>
    have chars : (canonical ∘ ofChar) = ofChar := rfl
    simp [canonical, elements?, chars]
  | _ => rfl

theorem element_canonical (elements : List Value) (i : Nat) :
    element (elements.map canonical) i = (element elements i).canonical := by
  rw [element, element, List.getElem?_map]
  cases elements[i]? <;> rfl

/-- A property of the form is the form of the property. -/
theorem get_canonical (v : Value) (key : String) :
    v.canonical.get key = (v.get key).canonical := by
  -- Lists and strings are read alike.
  have among : ∀ {elements}, v.elements? = some elements →
      v.canonical.get key = (v.get key).canonical := by
    intro elements h
    have h' : v.canonical.elements? = some (elements.map canonical) := by
      rw [elements?_canonical, h, Option.map_some]
    by_cases length : key = "length"
    · subst length
      rw [get_length h, get_length h', List.length_map]
      exact congrArg number (Number.canonical_ofInt_natCast _).symm
    · rw [get_eq_of_elements h length, get_eq_of_elements h' length]
      cases index? key with
      | none => rfl
      | some i => exact element_canonical elements i
  cases v with
  | map fields =>
    rw [canonical, get, get, canonicalFields_eq_map, Fields.find?_map]
    cases Fields.find? fields key <;> rfl
  | list elements => exact among rfl
  | str s => exact among rfl
  | _ => rfl

/-- So it is with a key given as a value, the form of which leads to the same property. -/
theorem getProperty_canonical (v key : Value) :
    v.canonical.getProperty key.canonical = (v.getProperty key).canonical := by
  have byText : v.canonical.get key.canonical.text = (v.get key.text).canonical := by
    rw [text_canonical, get_canonical]
  cases key with
  | number n =>
    simp only [canonical, getProperty, elements?_canonical, Number.toIndex?_canonical,
      Number.text_canonical]
    cases v.elements? with
    | none => exact get_canonical v n.text
    | some elements =>
      cases n.toIndex? with
      | none => exact get_canonical v n.text
      | some i => exact element_canonical elements i
  | _ => exact byText

/-! ### What is found in a value -/

theorem nan_notMem_element {elements : List Value} (h : .nan ∉ numbersList elements) (i : Nat) :
    .nan ∉ (element elements i).numbers := by
  rw [element]
  cases found : elements[i]? with
  | none => exact List.not_mem_nil
  | some v => exact fun nan => h (numbers_subset_of_mem (List.mem_of_getElem? found) nan)

theorem nan_notMem_of_elements? {v : Value} {elements : List Value}
    (h : v.elements? = some elements) (free : .nan ∉ v.numbers) :
    .nan ∉ numbersList elements := by
  cases v with
  | list es =>
    cases h
    exact free
  | str s =>
    cases h
    induction s.toList with
    | nil => exact List.not_mem_nil
    | cons c cs ih => exact ih
  | _ => cases h

/-- In a value without NaN there is no NaN to be found. -/
theorem nan_notMem_get {v : Value} (free : .nan ∉ v.numbers) (key : String) :
    .nan ∉ (v.get key).numbers := by
  have among : ∀ {elements}, v.elements? = some elements → .nan ∉ (v.get key).numbers := by
    intro elements h
    by_cases length : key = "length"
    · subst length
      rw [get_length h]
      have count : Number.nan ≠ .ofInt elements.length := by
        rw [Number.ofInt]
        cases Magnitude.round? _ 1 <;> exact Number.noConfusion
      exact fun nan => count (List.mem_singleton.1 nan)
    · rw [get_eq_of_elements h length]
      cases index? key with
      | none => exact List.not_mem_nil
      | some i => exact nan_notMem_element (nan_notMem_of_elements? h free) i
  cases v with
  | map fields =>
    rw [get]
    cases found : Fields.find? fields key with
    | none => exact List.not_mem_nil
    | some w => exact fun nan => free (mem_numbersFields.2 ⟨_, Fields.mem_of_find? found, nan⟩)
  | list elements => exact among rfl
  | str s => exact among rfl
  | _ => exact List.not_mem_nil

theorem nan_notMem_getProperty {v : Value} (free : .nan ∉ v.numbers) (key : Value) :
    .nan ∉ (v.getProperty key).numbers := by
  cases key with
  | number n =>
    rw [getProperty]
    split
    · rename_i elements i h _
      exact nan_notMem_element (nan_notMem_of_elements? h free) i
    · exact nan_notMem_get free _
  | _ => exact nan_notMem_get free _

/-! ### Equality -/

theorem rel_beq_iff {found found' : Option Value} :
    Option.Rel (fun v w => v == w) found found' ↔
      found.map canonical = found'.map canonical ∧ ∀ v ∈ found, .nan ∉ v.numbers := by
  constructor
  · rintro (⟨eq⟩ | _)
    · simpa using beq_iff _ _ |>.1 eq
    · simp
  · rintro ⟨forms, free⟩
    cases found with
    | none => cases found' with
      | none => exact .none
      | some w => cases forms
    | some v => cases found' with
      | none => cases forms
      | some w => exact .some ((beq_iff v w).2 ⟨Option.some.inj forms, free v rfl⟩)

theorem ascending_canonicalFields {fields : List (String × Value)} (h : Fields.Ascending fields) :
    Fields.Ascending (canonicalFields fields) := by
  rw [canonicalFields_eq_map]
  exact List.pairwise_map.2 h

theorem find?_canonicalFields (fields : List (String × Value)) (key : String) :
    Fields.find? (canonicalFields fields) key = (Fields.find? fields key).map canonical := by
  rw [canonicalFields_eq_map, Fields.find?_map]

/-- Maps are equal if the same keys are found in both of them, with equal values. -/
theorem map_beq_map_iff {fields fields' : List (String × Value)} (h : Fields.Ascending fields)
    (h' : Fields.Ascending fields') :
    (map fields == map fields') = true ↔ ∀ key,
      Option.Rel (fun v w => v == w) (Fields.find? fields key) (Fields.find? fields' key) := by
  rw [beq_iff]
  simp only [canonical, map.injEq, numbers, rel_beq_iff, ← find?_canonicalFields]
  constructor
  · rintro ⟨forms, free⟩ key
    refine ⟨congrArg (Fields.find? · key) forms, fun v found nan => free ?_⟩
    exact mem_numbersFields.2 ⟨_, Fields.mem_of_find? found, nan⟩
  · intro same
    refine ⟨(ascending_canonicalFields h).ext (ascending_canonicalFields h') fun key =>
      (same key).1, fun nan => ?_⟩
    obtain ⟨⟨key, v⟩, mem, nan⟩ := mem_numbersFields.1 nan
    exact (same key).2 v (h.find? mem) nan

theorem beq_comm (a b : Value) : (a == b) = (b == a) := by
  -- NaN is in both values or in neither of them, since it is in the form that they have.
  have swap : ∀ {a b : Value}, a == b → b == a := by
    intro a b h
    obtain ⟨form, free⟩ := (beq_iff a b).1 h
    refine (beq_iff b a).2 ⟨form.symm, ?_⟩
    rwa [← nan_mem_canonical, ← form, nan_mem_canonical]
  exact Bool.eq_iff_iff.2 ⟨swap, swap⟩

theorem beq_trans {a b c : Value} (h : a == b) (h' : b == c) : a == c := by
  obtain ⟨form, free⟩ := (beq_iff a b).1 h
  exact (beq_iff a c).2 ⟨form.trans ((beq_iff b c).1 h').1, free⟩

/-- Equality of values is symmetric and transitive, and a value is equal to itself if NaN does not
occur in it. Numbers are equal if they are the same, but not NaN, or are both zeros; functions are
equal if they are the same; and maps are equal if they have equal values under the same keys, in
whatever order they were put in. Values that are equal have the same truth, the same text and the
same keys, and equal properties under equal keys. -/
theorem beq_observations :
    (∀ a b : Value, (a == b) = (b == a)) ∧
    (∀ a b c : Value, a == b → b == c → a == c) ∧
    (∀ v : Value, v == v ↔ .nan ∉ v.numbers) ∧
    (∀ m n : Number, number m == number n ↔
      m.isNaN = false ∧ (m = n ∨ m.isZero = true ∧ n.isZero = true)) ∧
    (∀ f g : Function, function f == function g ↔ f = g) ∧
    (∀ entries entries' : List (String × Value), ofEntries entries == ofEntries entries' ↔
      ∀ key, Option.Rel (fun v w => v == w)
        (entries.reverse.lookup key) (entries'.reverse.lookup key)) ∧
    ∀ a b : Value, a == b →
      a.truthy = b.truthy ∧ a.text = b.text ∧ (∀ key, a.hasOwn key = b.hasOwn key) ∧
      (∀ key, a.get key == b.get key) ∧
      ∀ key key' : Value, key == key' → a.getProperty key == b.getProperty key' := by
  refine ⟨beq_comm, fun a b c => beq_trans, fun v => ?_, fun m n => ?_, fun f g => ?_,
    fun entries entries' => ?_, fun a b h => ?_⟩
  · rw [beq_iff]
    exact and_iff_right rfl
  · rw [← Number.canonical_eq_iff, and_comm]
    exact Number.beq_iff
  · change (f == g) = true ↔ f = g
    exact beq_iff_eq
  · simp only [← Fields.find?_ofList]
    exact map_beq_map_iff (Fields.ascending_ofList _) (Fields.ascending_ofList _)
  · obtain ⟨form, free⟩ := (beq_iff a b).1 h
    refine ⟨?_, ?_, fun key => ?_, fun key => ?_, fun key key' same => ?_⟩
    · rw [← truthy_canonical, form, truthy_canonical]
    · rw [← text_canonical, form, text_canonical]
    · rw [← hasOwn_canonical, form, hasOwn_canonical]
    · refine (beq_iff _ _).2 ⟨?_, nan_notMem_get free key⟩
      rw [← get_canonical, form, get_canonical]
    · refine (beq_iff _ _).2 ⟨?_, nan_notMem_getProperty free key⟩
      rw [← getProperty_canonical, form, ((beq_iff _ _).1 same).1, getProperty_canonical]

/-- A map and the same map put together in another order, with `0` in the place of `-0`. Each zero
is a key of both, and a list with NaN differs from itself. -/
theorem beq_observations_zeros :
    let zero (negative : Bool) : Value := number (.finite negative .zero)
    let a := ofEntries [("0", zero true), ("b", list [str "s", zero true])]
    let b := ofEntries [("b", list [str "s", zero false]), ("0", zero false)]
    let c := list [number .nan]
    a == b ∧ b == a ∧ a == a ∧ a.text = b.text ∧ a.get "b" == b.get "b" ∧
      zero true == zero false ∧ a.getProperty (zero true) == b.getProperty (zero false) ∧
      ¬(c == c) := by
  intro zero a b c
  obtain ⟨symm, trans, self, -, -, -, observe⟩ := beq_observations
  have equal : a == b := by decide
  have zeros : zero true == zero false := by decide
  have equal' : b == a := (symm b a).trans equal
  obtain ⟨-, text, -, get, property⟩ := observe a b equal
  refine ⟨equal, equal', trans a b a equal equal', text, get "b", zeros,
    property _ _ zeros, fun nan => (self c).1 nan List.mem_cons_self⟩

end Value

end DataBinding
