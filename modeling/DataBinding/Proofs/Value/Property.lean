import DataBinding.Proofs.Number.Whole
import DataBinding.Value.Property

/-!
# Properties by text and by value

A number that is an index leads to an element without being spelled first. This makes no difference:
the element is also what the text of the number leads to. Up to `2 ^ 53` the text of an index is its
decimal spelling, and behind that there are no elements, for the index or for what its text spells.

## Main results

* `Value.index?_eq_some_iff` — the keys that are the spelling of an index
* `Value.getProperty_eq_get_text` — a key given as a value leads where its text leads
-/

namespace DataBinding

open Decimal

theorem Number.toIndex?_eq_some {v : Number} {i : Nat} (h : v.toIndex? = some i) :
    ∃ n, v.toNat? = some n ∧ i = min n maxIndex := by
  obtain ⟨n, natural, found⟩ := Option.bind_eq_some_iff.1 h
  split at found
  · cases found
    exact ⟨n, natural, rfl⟩
  · cases found

namespace Value

/-- A plus sign in front is taken off, but then what is parsed is not what is spelled. -/
theorem index?_eq_some_iff {key : String} {i : Nat} :
    index? key = some i ↔ i ≤ Number.maxIndex ∧ key.toList = Nat.toDigits 10 i := by
  simp only [index?, Option.filter_eq_some_iff, decide_eq_true_eq]
  constructor
  · rintro ⟨parsed, spelled⟩
    simp only [parseIndex?, Option.filter_eq_some_iff, decide_eq_true_eq] at parsed
    exact ⟨parsed.2, spelled.symm⟩
  · rintro ⟨range, spelled⟩
    refine ⟨?_, spelled.symm⟩
    have digits : digits? (Nat.toDigits 10 i) = some i :=
      digits?_eq_some_iff.2
        ⟨Nat.toDigits_ne_nil, digits_toDigits i, Nat.ofDigitChars_ten_toDigits⟩
    have unsigned : ∀ ds, Nat.toDigits 10 i ≠ '+' :: ds := by
      intro ds signed
      have plus := digits_toDigits i '+' (signed ▸ List.mem_cons_self)
      cases plus
    rw [spelled, parseIndex?, digits, Option.filter_some, if_pos (decide_eq_true range)]
    exact unsigned

variable {v : Value} {elements : List Value}

theorem get_eq_of_elements (h : v.elements? = some elements) {key : String}
    (ne : key ≠ "length") :
    v.get key = match index? key with
      | some i => element elements i
      | none => undefined := by
  cases v with
  | list es =>
    cases h
    exact if_neg ne
  | str s =>
    cases h
    exact if_neg ne
  | _ => cases h

theorem get_length (h : v.elements? = some elements) :
    v.get "length" = ofInt elements.length := by
  cases v with
  | list es =>
    cases h
    simp [get, elements?]
  | str s =>
    cases h
    simp [get, elements?]
  | _ => cases h

theorem element_of_length_le {i : Nat} (h : elements.length ≤ i) :
    element elements i = undefined := by
  rw [element, List.getElem?_eq_none h, Option.getD_none]

/-- Among elements, not more than `2 ^ 53` of them, the index that a number is leads to the element
that the text of the number leads to. -/
theorem element_eq_get_text (h : v.elements? = some elements) (small : elements.length ≤ 2 ^ 53)
    {n : Number} {i : Nat} (index : n.toIndex? = some i) :
    element elements i = v.get n.text := by
  obtain ⟨m, natural, rfl⟩ := Number.toIndex?_eq_some index
  have text : n.text.toList = n.chars := String.toList_ofList
  have ne : n.text ≠ "length" := by
    intro length
    obtain ⟨x, read, -⟩ := Number.exists_ofNumeral?_chars natural
    rw [← text, length] at read
    cases read
  have max : 2 ^ 53 ≤ Number.maxIndex := by decide
  rw [get_eq_of_elements h ne]
  by_cases low : m < 2 ^ 53
  · have range : m ≤ Number.maxIndex := Nat.le_trans (Nat.le_of_lt low) max
    have spelled : index? n.text = some m :=
      index?_eq_some_iff.2 ⟨range, text.trans (Number.chars_eq_toDigits natural low)⟩
    rw [spelled, Nat.min_eq_left range]
  · rw [element_of_length_le (Nat.le_trans small (Nat.le_min.2 ⟨Nat.not_lt.1 low, max⟩))]
    split
    · rename_i j spelled
      -- The text may spell another index, but none that is so low.
      have high : 2 ^ 53 ≤ j := by
        refine Nat.not_lt.1 fun lt => low ?_
        have digits := text.symm.trans (index?_eq_some_iff.1 spelled).2
        rwa [Number.eq_of_chars_eq_toDigits natural digits lt]
      exact (element_of_length_le (Nat.le_trans small high)).symm
    · rfl

/-- A key given as a value leads to the property that its text leads to. -/
theorem getProperty_eq_get_text (v key : Value)
    (small : ∀ elements, v.elements? = some elements → elements.length ≤ 2 ^ 53) :
    v.getProperty key = v.get key.text := by
  cases key with
  | number n =>
    simp only [getProperty, text]
    split
    · rename_i elements i found index
      exact element_eq_get_text found (small elements found) index
    · rfl
  | _ => rfl

/-- The second character of a string takes two units of UTF-16. The number `2 ^ 64` stands for the
largest index, but the digits that it is written with are out of range. -/
theorem getProperty_eq_get_text_bound :
    let v : Value := .str "é😀"
    let one : Value := .number (.ofInt 1)
    let bound : Number := .ofInt (1 <<< 64)
    (∀ elements, v.elements? = some elements → elements.length ≤ 2 ^ 53) ∧
      v.getProperty one = .str "😀" ∧ v.get one.text = .str "😀" ∧
      bound.toIndex? = some Number.maxIndex ∧ index? bound.text = none ∧
      v.getProperty (.number bound) = v.get (Value.number bound).text := by
  intro v one bound
  have small : ∀ elements, v.elements? = some elements → elements.length ≤ 2 ^ 53 := by
    intro elements h
    cases h
    decide
  have read : v.getProperty one = .str "😀" := by
    have index : (Number.ofInt 1).toIndex? = some 1 := Number.toIndex?_ofInt (by decide)
    simp only [v, one, getProperty, elements?, index]
    rfl
  refine ⟨small, read, (getProperty_eq_get_text v one small).symm.trans read, ?_, ?_,
    getProperty_eq_get_text v _ small⟩
  · decide +kernel
  · decide +kernel

end Value

end DataBinding
