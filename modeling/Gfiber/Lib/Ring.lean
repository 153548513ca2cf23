import Mathlib.Data.List.Rotate
import Gfiber.Lib.Slice

/-! Copies between a line and an array whose end is followed by its start. Seen
from a position, the array is its rotation; a copy is then one stretch of it. -/

set_option autoImplicit false

namespace Gfiber.Lib.Ring

variable {Cell : Type}

/-- One copy up to the end of the array, and one on from its start. -/
def copyOut (cells : List Cell) (position count : Nat) : List Cell :=
  let tail := min count (cells.length - position)
  (cells.drop position).take tail ++ cells.take (count - tail)

def copyIn (cells : List Cell) (position : Nat) (items : List Cell) : List Cell :=
  let tail := min items.length (cells.length - position)
  writeAt (writeAt cells position (items.take tail)) 0 (items.drop tail)

variable {cells items : List Cell} {position start offset count : Nat}

theorem copyOut_eq (inside : position ≤ cells.length) (fits : count ≤ cells.length) :
    copyOut cells position count = (cells.rotate position).take count := by
  rw [List.rotate_eq_drop_append_take inside, List.take_append, List.length_drop, copyOut]
  by_cases ends : count ≤ cells.length - position
  · rw [min_eq_left ends, Nat.sub_self, Nat.sub_eq_zero_of_le ends, List.take_zero, List.take_zero]
  · have past := (not_le.mp ends).le
    have whole : (cells.drop position).length = cells.length - position := List.length_drop
    rw [min_eq_right past, ← whole, List.take_length, List.take_of_length_le (whole.trans_le past),
      List.take_take, min_eq_left (by omega)]

theorem copyIn_of_le (ends : items.length ≤ cells.length - position) :
    copyIn cells position items = writeAt cells position items := by
  rw [copyIn, min_eq_left ends, List.take_length, List.drop_length, writeAt]
  rfl

/-- A copy that reaches the end keeps only what is between its two parts. -/
theorem copyIn_of_ge (inside : position ≤ cells.length) (fits : items.length ≤ cells.length)
    (past : cells.length - position ≤ items.length) :
    copyIn cells position items = items.drop (cells.length - position) ++
      (cells.take position).drop (items.length - (cells.length - position)) ++
      items.take (cells.length - position) := by
  have tail : (items.take (cells.length - position)).length = cells.length - position :=
    List.length_take_of_le past
  have filled : writeAt cells position (items.take (cells.length - position)) =
      cells.take position ++ items.take (cells.length - position) := by
    rw [writeAt, tail, Nat.add_sub_cancel' inside, List.drop_length, List.append_nil]
  rw [copyIn, min_eq_right past, filled, writeAt, List.take_zero, List.nil_append, Nat.zero_add,
    List.length_drop, List.drop_append_of_le_length (by rw [List.length_take]; omega),
    List.append_assoc]

theorem length_copyIn (inside : position ≤ cells.length) (fits : items.length ≤ cells.length) :
    (copyIn cells position items).length = cells.length := by
  rcases le_total items.length (cells.length - position) with ends | past
  · rw [copyIn_of_le ends, length_writeAt (by omega)]
  · rw [copyIn_of_ge inside fits past]
    simp only [List.length_append, List.length_drop, List.length_take]
    omega

/-- Seen from where the copy begins, the items are in front. -/
theorem rotate_copyIn (inside : position ≤ cells.length) (fits : items.length ≤ cells.length) :
    (copyIn cells position items).rotate position =
      items ++ (cells.rotate position).drop items.length := by
  have front : (cells.take position).length = position := List.length_take_of_le inside
  rw [List.rotate_eq_drop_append_take (by rwa [length_copyIn inside fits]),
    List.rotate_eq_drop_append_take inside, List.drop_append, List.length_drop]
  rcases le_total items.length (cells.length - position) with ends | past
  · rw [copyIn_of_le ends, writeAt, List.append_assoc, List.drop_left' front,
      List.take_left' front, List.drop_drop, Nat.sub_eq_zero_of_le ends, List.drop_zero,
      List.append_assoc]
  · have kept : (items.drop (cells.length - position) ++
        (cells.take position).drop (items.length - (cells.length - position))).length =
        position := by
      rw [List.length_append, List.length_drop, List.length_drop, front]
      omega
    rw [copyIn_of_ge inside fits past, List.drop_left' kept, List.take_left' kept,
      List.drop_of_length_le (List.length_drop.trans_le past), List.nil_append,
      ← List.append_assoc, List.take_append_drop]

theorem copyIn_nil (cells : List Cell) (position : Nat) : copyIn cells position [] = cells := by
  rw [copyIn_of_le (Nat.zero_le _), writeAt_nil]

/-- A copy that begins some cells after the start overwrites that stretch. -/
theorem rotate_copyIn_add (fits : offset + items.length ≤ cells.length) :
    (copyIn cells ((start + offset) % cells.length) items).rotate start =
      writeAt (cells.rotate start) offset items := by
  by_cases none : items = []
  · rw [none, copyIn_nil, writeAt_nil]
  have positive : 0 < cells.length := by
    have length := List.length_pos_iff.mpr none
    omega
  have place := (Nat.mod_lt (start + offset) positive).le
  have short : items.length ≤ cells.length := by omega
  have size := length_copyIn place short
  have seen := rotate_copyIn place short
  revert size seen
  generalize copyIn cells ((start + offset) % cells.length) items = copied
  intro size seen
  rw [List.rotate_mod, ← size, List.rotate_mod, ← List.rotate_rotate, ← List.rotate_rotate,
    List.rotate_eq_drop_append_take (by rw [List.length_rotate]; omega)] at seen
  conv at seen => rhs; rw [List.rotate_eq_drop_append_take (by rw [List.length_rotate]; omega)]
  rw [List.drop_append_of_le_length (by rw [List.length_drop, List.length_rotate]; omega),
    ← List.append_assoc] at seen
  have lengths : ((copied.rotate start).drop offset).length =
      (items ++ ((cells.rotate start).drop offset).drop items.length).length := by
    simp only [List.length_drop, List.length_rotate, size, List.length_append]
    omega
  obtain ⟨after, before⟩ := List.append_inj seen lengths
  rw [writeAt, ← before, List.append_assoc, ← List.drop_drop, ← after, List.take_append_drop]

end Gfiber.Lib.Ring
