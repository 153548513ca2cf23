import Mathlib.Data.List.Basic

/-! A memory that is read and written in stretches of cells. -/

set_option autoImplicit false

namespace Gfiber.Lib

abbrev Memory (Cell : Type) : Type := Nat → Cell

namespace Memory

variable {Cell : Type}

def slice (memory : Memory Cell) (start : Nat) : Nat → List Cell
  | 0 => []
  | count + 1 => memory start :: memory.slice (start + 1) count

def write (memory : Memory Cell) (start : Nat) (cells : List Cell) : Memory Cell :=
  fun address =>
    if start ≤ address then cells[address - start]?.getD (memory address) else memory address

/-- `memmove`: the stretches may overlap. -/
def move (memory : Memory Cell) (target source count : Nat) : Memory Cell :=
  memory.write target (memory.slice source count)

variable (memory : Memory Cell)

@[simp] theorem length_slice (start count : Nat) : (memory.slice start count).length = count := by
  induction count generalizing start with
  | zero => rfl
  | succ count ih => simp [slice, ih]

theorem slice_add (start first second : Nat) :
    memory.slice start (first + second) =
      memory.slice start first ++ memory.slice (start + first) second := by
  induction first generalizing start with
  | zero => simp [slice]
  | succ first ih =>
      rw [Nat.succ_add, slice, ih, slice, List.cons_append, Nat.add_assoc start, Nat.add_comm 1]

theorem getElem?_slice (start count index : Nat) :
    (memory.slice start count)[index]? =
      if index < count then some (memory (start + index)) else none := by
  induction count generalizing start index with
  | zero => rfl
  | succ count ih =>
      cases index with
      | zero => simp [slice]
      | succ index =>
          rw [slice, List.getElem?_cons_succ, ih, Nat.add_assoc, Nat.add_comm 1]
          simp only [Nat.succ_lt_succ_iff]

theorem take_slice {start first count : Nat} (fewer : first ≤ count) :
    (memory.slice start count).take first = memory.slice start first := by
  rw [← Nat.add_sub_cancel' fewer, slice_add]
  exact List.take_left' (length_slice memory start first)

theorem slice_congr {memory other : Memory Cell} {start count : Nat}
    (same : ∀ address, start ≤ address → address < start + count →
      memory address = other address) : memory.slice start count = other.slice start count := by
  induction count generalizing start with
  | zero => rfl
  | succ count ih =>
      have rest := @ih (start + 1) fun address lower upper => same address (by omega) (by omega)
      rw [slice, slice, rest, same start (by omega) (by omega)]

variable {memory}

theorem write_outside {start address : Nat} {cells : List Cell}
    (outside : address < start ∨ start + cells.length ≤ address) :
    memory.write start cells address = memory address := by
  rw [write]
  split
  case isTrue after =>
    rw [List.getElem?_eq_none (by omega), Option.getD_none]
  case isFalse => rfl

theorem slice_write_outside {start count target : Nat} {cells : List Cell}
    (outside : start + count ≤ target ∨ target + cells.length ≤ start) :
    (memory.write target cells).slice start count = memory.slice start count :=
  slice_congr fun address lower upper => write_outside (by omega)

theorem slice_write (start : Nat) (cells : List Cell) :
    (memory.write start cells).slice start cells.length = cells := by
  apply List.ext_getElem?
  intro index
  rw [getElem?_slice]
  split
  case isTrue inside =>
    rw [write, if_pos (by omega), Nat.add_sub_cancel_left, List.getElem?_eq_getElem inside,
      Option.getD_some]
  case isFalse outside => rw [List.getElem?_eq_none (by omega)]

theorem move_outside {target source count address : Nat}
    (outside : address < target ∨ target + count ≤ address) :
    memory.move target source count address = memory address :=
  write_outside (by rwa [length_slice])

theorem slice_move (target source : Nat) {first count : Nat} (fewer : first ≤ count) :
    (memory.move target source count).slice target first = memory.slice source first := by
  have whole : (memory.move target source count).slice target count =
      memory.slice source count := by
    simpa [move] using @slice_write _ memory target (memory.slice source count)
  rw [← take_slice _ fewer, whole, take_slice _ fewer]

end Memory

end Gfiber.Lib
