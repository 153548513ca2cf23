import Mathlib.Data.List.Basic

/-! Overwriting a stretch of a list in place. One lookup lemma says what a
position holds afterwards; the others follow from it. -/

set_option autoImplicit false

namespace Gfiber.Lib

variable {Element : Type}

def writeAt (elements : List Element) (offset : Nat) (stretch : List Element) : List Element :=
  elements.take offset ++ stretch ++ elements.drop (offset + stretch.length)

variable {elements stretch : List Element} {offset : Nat}

theorem length_writeAt (fits : offset + stretch.length ≤ elements.length) :
    (writeAt elements offset stretch).length = elements.length := by
  simp only [writeAt, List.length_append, List.length_take, List.length_drop]
  omega

theorem writeAt_nil (elements : List Element) (offset : Nat) :
    writeAt elements offset [] = elements := by
  rw [writeAt, List.append_nil, List.length_nil, Nat.add_zero, List.take_append_drop]

theorem getElem?_writeAt (fits : offset + stretch.length ≤ elements.length) (index : Nat) :
    (writeAt elements offset stretch)[index]? =
      if offset ≤ index ∧ index < offset + stretch.length then stretch[index - offset]?
      else elements[index]? := by
  have taken : (elements.take offset).length = offset := by
    rw [List.length_take]
    omega
  rw [writeAt, List.append_assoc]
  by_cases before : index < offset
  · rw [List.getElem?_append_left (by omega), List.getElem?_take_of_lt before,
      if_neg (by omega)]
  · rw [List.getElem?_append_right (by omega), taken]
    by_cases inside : index < offset + stretch.length
    · rw [List.getElem?_append_left (by omega), if_pos (by omega)]
    · rw [List.getElem?_append_right (by omega), List.getElem?_drop, if_neg (by omega)]
      congr 1
      omega

theorem take_writeAt (fits : offset + stretch.length ≤ elements.length) {count : Nat}
    (before : count ≤ offset) : (writeAt elements offset stretch).take count = elements.take count := by
  apply List.ext_getElem?
  intro index
  by_cases inside : index < count
  · rw [List.getElem?_take_of_lt inside, List.getElem?_take_of_lt inside, getElem?_writeAt fits,
      if_neg (by omega)]
  · rw [List.getElem?_take_eq_none (by omega), List.getElem?_take_eq_none (by omega)]

theorem drop_writeAt (fits : offset + stretch.length ≤ elements.length) {count : Nat}
    (after : offset + stretch.length ≤ count) :
    (writeAt elements offset stretch).drop count = elements.drop count := by
  apply List.ext_getElem?
  intro index
  rw [List.getElem?_drop, List.getElem?_drop, getElem?_writeAt fits, if_neg (by omega)]

theorem drop_writeAt_add {count : Nat} (inside : count ≤ elements.length) :
    (writeAt elements (count + offset) stretch).drop count =
      writeAt (elements.drop count) offset stretch := by
  have front : count ≤ (elements.take (count + offset) ++ stretch).length := by
    rw [List.length_append, List.length_take]
    omega
  rw [writeAt, writeAt, List.drop_append_of_le_length front, List.drop_drop, ← Nat.add_assoc]
  congr 1
  by_cases reached : count + offset ≤ elements.length
  · rw [List.drop_append_of_le_length (by rw [List.length_take]; omega), List.drop_take,
      Nat.add_sub_cancel_left]
  · rw [List.take_of_length_le (by omega), List.drop_append_of_le_length inside,
      List.take_of_length_le (by rw [List.length_drop]; omega)]

theorem take_writeAt_stretch (fits : offset + stretch.length ≤ elements.length) :
    (writeAt elements offset stretch).take (offset + stretch.length) =
      elements.take offset ++ stretch := by
  have taken : (elements.take offset ++ stretch).length = offset + stretch.length := by
    rw [List.length_append, List.length_take]
    omega
  rw [writeAt, ← taken, List.take_left]

end Gfiber.Lib
