import DataBinding.Proofs.Value.Property

/-!
# Elements by their indices

Each element of a list and each character of a string is read under exactly one key, the decimal
spelling of its index, and under no other key but `length` is anything read. How many elements there
are is read under `length`, exactly as long as there are not more than `2 ^ 53` of them.

## Main results

* `Value.index?_injective` — no two keys are the same index
* `Value.get_elements` — what is read from a list or a string
-/

namespace DataBinding

/-- A natural number up to `2 ^ 53` is told from its number. -/
theorem Number.toNat?_ofInt_of_le {n : Nat} (h : n ≤ 2 ^ 53) : (ofInt n).toNat? = some n := by
  rcases Nat.lt_or_eq_of_le h with lt | rfl
  · exact toNat?_ofInt lt
  · decide +kernel

namespace Value

/-- No two keys are the same index. -/
theorem index?_injective {key key' : String} {i : Nat} (h : index? key = some i)
    (h' : index? key' = some i) : key = key' :=
  String.toList_injective
    ((index?_eq_some_iff.1 h).2.trans (index?_eq_some_iff.1 h').2.symm)

theorem index?_eq_some_iff_toString {key : String} {i : Nat} :
    index? key = some i ↔ i ≤ Number.maxIndex ∧ key = toString i := by
  rw [index?_eq_some_iff, ← String.toList_inj, Nat.toString_eq_repr, Nat.toList_repr]

variable {v : Value} {elements : List Value}

/-- An element is read under the spelling of its index. -/
theorem get_toString (h : v.elements? = some elements) (small : elements.length ≤ 2 ^ 53) {i : Nat}
    (lt : i < elements.length) : v.get (toString i) = elements[i] := by
  have range : i ≤ Number.maxIndex :=
    Nat.le_trans (Nat.le_of_lt (Nat.lt_of_lt_of_le lt small)) (by decide)
  have index : index? (toString i) = some i := index?_eq_some_iff_toString.2 ⟨range, rfl⟩
  -- No index is spelled like the key of the length.
  have ne : toString i ≠ "length" := by
    intro length
    rw [length] at index
    cases index
  rw [get_eq_of_elements h ne, index]
  simp only [element, List.getElem?_eq_getElem lt, Option.getD_some]

/-- Under a key that spells no index of an element nothing is read. -/
theorem get_eq_undefined (h : v.elements? = some elements) {key : String} (ne : key ≠ "length")
    (other : ∀ i < elements.length, key ≠ toString i) : v.get key = undefined := by
  rw [get_eq_of_elements h ne]
  cases index : index? key with
  | none => rfl
  | some i =>
    refine element_of_length_le (Nat.not_lt.1 fun lt => other i lt ?_)
    exact (index?_eq_some_iff_toString.1 index).2

/-- The characters of a string, read one by one, are the string. -/
theorem join_get_str (s : String) (small : s.toList.length ≤ 2 ^ 53) :
    String.join ((List.range s.toList.length).map fun i => ((str s).get (toString i)).text) =
      s := by
  have found : (str s).elements? = some (s.toList.map ofChar) := rfl
  have read : (List.range s.toList.length).map (fun i => ((str s).get (toString i)).text) =
      s.toList.map Char.toString := by
    refine List.ext_getElem (by simp) fun i lt lt' => ?_
    have within : i < (s.toList.map ofChar).length := by simpa using lt
    rw [List.getElem_map, List.getElem_range, get_toString found (by simpa using small) within,
      List.getElem_map, List.getElem_map]
    exact String.ofList_toList
  have alone : ∀ c : Char, c.toString.toList = [c] := String.toList_singleton
  rw [read, ← String.toList_inj, String.toList_join, List.flatMap_map]
  simp only [alone, List.flatMap_singleton']

/-- What is read from a list or a string, of not more than `2 ^ 53` elements: under `length` their
number, under the decimal spelling of an index the element there, and under every other key nothing.
Each key leads to the position that it spells, and different keys to different positions. The
characters that are read from a string are the string. -/
theorem get_elements (h : v.elements? = some elements) (small : elements.length ≤ 2 ^ 53) :
    (v.get "length" = number (.ofInt elements.length) ∧
      (Number.ofInt elements.length).toNat? = some elements.length) ∧
    (∀ i (lt : i < elements.length), v.get (toString i) = elements[i]) ∧
    (∀ key, key ≠ "length" → (∀ i < elements.length, key ≠ toString i) →
      v.get key = undefined) ∧
    (∀ key, key ≠ "length" → v.get key = match index? key with
      | some i => element elements i
      | none => undefined) ∧
    (∀ key key' i, index? key = some i → index? key' = some i → key = key') ∧
    ∀ s, v = str s → elements = s.toList.map ofChar ∧
      String.join ((List.range elements.length).map fun i => (v.get (toString i)).text) = s := by
  refine ⟨⟨get_length h, Number.toNat?_ofInt_of_le small⟩, fun i => get_toString h small,
    fun key => get_eq_undefined h, fun key => get_eq_of_elements h,
    fun key key' i => index?_injective, ?_⟩
  rintro s rfl
  cases h
  -- There are as many elements as characters.
  refine ⟨rfl, ?_⟩
  rw [List.length_map] at small ⊢
  exact join_get_str s small

/-- A character of two units of UTF-16, read under `1`. None of the other keys is the spelling of an
index: they have a sign, a leading zero, too many digits or none, or are digits of another script. -/
theorem get_elements_keys :
    let v : Value := str "é😀"
    let keys := ["+1", "01", "", "18446744073709551617", "١", "-0", "1.0"]
    (∃ elements, v.elements? = some elements ∧ elements.length ≤ 2 ^ 53) ∧
      v.get "length" = number (.ofInt 2) ∧ v.get "1" = str "😀" ∧
      ∀ key ∈ keys, v.get key = undefined := by
  intro v keys
  have found : v.elements? = some [str "é", str "😀"] := rfl
  have small : [str "é", str "😀"].length ≤ 2 ^ 53 := by decide
  obtain ⟨⟨length, -⟩, elements, others, -, -, -⟩ := get_elements found small
  refine ⟨⟨_, found, small⟩, length, elements 1 (by decide), fun key mem => ?_⟩
  have other : ∀ key ∈ keys, key ≠ "length" ∧ ∀ i < 2, key ≠ toString i := by decide
  exact others key (other key mem).1 (other key mem).2

end Value

end DataBinding
