import DataBinding.Proofs.Value.Property
import DataBinding.Scope
import DataBinding.Value.Document

/-!
# Maps are in order

Values are put together from literals, lists and entries, and taken apart by looking properties up.
In all of them the fields of every map, at any depth, are in ascending order of their keys: entries
are put in their places one by one, and what is found in a value is part of it.

## Main definitions

* `Scope.WellFormed` — maps are in order in the context and in the locals

## Main results

* `Value.wellFormed_ofEntries`, `Value.wellFormed_ofDocument` — values that are put together
* `Value.WellFormed.get`, `Value.WellFormed.getProperty` — values that are looked up
* `Scope.WellFormed.lookup` — the values of names
-/

namespace DataBinding

namespace Value

theorem wellFormedList_iff {vs : List Value} : WellFormedList vs ↔ ∀ v ∈ vs, v.WellFormed := by
  induction vs with
  | nil => simp [WellFormedList]
  | cons v vs ih => simp [WellFormedList, ih]

theorem wellFormedFields_iff {fields : List (String × Value)} :
    WellFormedFields fields ↔ ∀ field ∈ fields, field.2.WellFormed := by
  induction fields with
  | nil => simp [WellFormedFields]
  | cons field fields ih => simp [WellFormedFields, ih]

/-! ### Putting values together -/

theorem wellFormed_ofLiteral (l : Literal) : (ofLiteral l).WellFormed := by
  cases l <;> exact trivial

/-- The map of any entries is in order if maps within their values are. -/
theorem wellFormed_ofEntries {entries : List (String × Value)} (h : WellFormedFields entries) :
    (ofEntries entries).WellFormed :=
  ⟨Fields.ascending_ofList entries, wellFormedFields_iff.2 fun field mem =>
    wellFormedFields_iff.1 h field (Fields.mem_ofList mem)⟩

mutual

/-- The value of every document is in order, whatever fields it has and wherever they stand. -/
theorem wellFormed_ofDocument : ∀ d : Document, (ofDocument d).WellFormed
  | .null => trivial
  | .bool _ => trivial
  | .number _ => trivial
  | .str _ => trivial
  | .array elements => wellFormed_ofDocuments elements
  | .object fields => wellFormed_ofEntries (wellFormed_ofDocumentFields fields)

theorem wellFormed_ofDocuments : ∀ ds : List Document, WellFormedList (ofDocuments ds)
  | [] => trivial
  | d :: rest => ⟨wellFormed_ofDocument d, wellFormed_ofDocuments rest⟩

theorem wellFormed_ofDocumentFields : ∀ fields : List (String × Document),
    WellFormedFields (ofDocumentFields fields)
  | [] => trivial
  | (_, d) :: rest => ⟨wellFormed_ofDocument d, wellFormed_ofDocumentFields rest⟩

end

/-! ### Looking properties up -/

/-- An element of a list is in order, and so is what stands for one that is missing. -/
theorem WellFormedList.element {elements : List Value} (h : WellFormedList elements)
    (index : Nat) : (Value.element elements index).WellFormed := by
  unfold Value.element
  cases found : elements[index]? with
  | none => exact trivial
  | some v => exact wellFormedList_iff.1 h v (List.mem_of_getElem? found)

namespace WellFormed

variable {v : Value}

theorem elements? (h : v.WellFormed) {elements : List Value} (eq : v.elements? = some elements) :
    WellFormedList elements := by
  cases v with
  | list vs =>
    cases eq
    exact h
  | str s =>
    cases eq
    exact wellFormedList_iff.2 (List.forall_mem_map.2 fun c _ => trivial)
  | _ => cases eq

/-- What is found in a value is part of it, or a length. -/
theorem get (h : v.WellFormed) (key : String) : (v.get key).WellFormed := by
  have among : ∀ {elements}, v.elements? = some elements → (v.get key).WellFormed := by
    intro elements eq
    by_cases length : key = "length"
    · subst length
      rw [get_length eq]
      trivial
    · rw [get_eq_of_elements eq length]
      cases index? key with
      | none => exact trivial
      | some i => exact (h.elements? eq).element i
  cases v with
  | map fields =>
    rw [Value.get]
    cases found : Fields.find? fields key with
    | none => exact trivial
    | some w => exact wellFormedFields_iff.1 h.2 _ (Fields.mem_of_find? found)
  | list elements => exact among rfl
  | str s => exact among rfl
  | _ => exact trivial

theorem getProperty (h : v.WellFormed) (key : Value) : (v.getProperty key).WellFormed := by
  cases key with
  | number n =>
    rw [Value.getProperty]
    split
    · rename_i elements i eq _
      exact (h.elements? eq).element i
    · exact h.get _
  | _ => exact h.get _

end WellFormed

end Value

/-! ### Names -/

namespace Scope

/-- Maps are in order in the context and in the locals. -/
structure WellFormed (s : Scope) : Prop where
  context : s.context.WellFormed
  locals : s.locals.WellFormed

/-- Documents as context and locals make a scope in which maps are in order. -/
theorem wellFormed_ofDocument (d : Document) (locals? : Option Document) :
    WellFormed ⟨.ofDocument d, locals?.map .ofDocument⟩ where
  context := Value.wellFormed_ofDocument d
  locals := by
    cases locals? with
    | none => exact trivial
    | some locals => exact Value.wellFormed_ofDocument locals

theorem WellFormed.lookup {s : Scope} (h : s.WellFormed) (name : String) :
    (s.lookup name).WellFormed := by
  unfold Scope.lookup
  split
  · exact h.locals.get name
  · split
    · exact h.context.get name
    · exact trivial

end Scope

end DataBinding
