import Mathlib.Data.List.Basic

/-! A file that is read in pieces, each of at least one element and at most as many as are
asked for, until enough of it has been read. -/

set_option autoImplicit false

namespace Gfiber.Lib

/-- What can be read of a file, how much of it comes at once from each position on, and whether
a read that begins past it fails, or returns nothing. -/
structure Reader (Element : Type) where
  content : List Element
  share : Nat → Nat
  broken : Bool

namespace Reader

variable {Element : Type} (reader : Reader Element)

/-- Nothing is returned only at the end. -/
def read (position count : Nat) : List Element :=
  (reader.content.drop position).take (min count (reader.share position + 1))

/-- The loop that reads `size` elements in pieces of at most `limit`: what it has gathered, or
nothing if a read fails. Without fuel it has not come to its end. -/
def gather (limit : Nat) : Nat → Nat → Nat → List Element → Option (Option (List Element))
  | _, _, 0, seen => some (some seen)
  | 0, _, _ + 1, _ => none
  | fuel + 1, position, size + 1, seen =>
      if reader.broken ∧ reader.content.length ≤ position then some none
      else
        let piece := reader.read position (min limit (size + 1))
        gather limit fuel (position + piece.length) (size + 1 - piece.length) (seen ++ piece)

variable {reader} {limit : Nat}

theorem length_read {position count : Nat} (inside : position < reader.content.length)
    (asked : 0 < count) :
    0 < (reader.read position count).length ∧ (reader.read position count).length ≤ count := by
  rw [read, List.length_take, List.length_drop]
  omega

theorem read_eq (position count : Nat) : reader.read position count =
    (reader.content.drop position).take (reader.read position count).length := by
  rw [read, List.length_take, List.take_eq_take_min]

theorem take_read {position count size : Nat} (enough : count ≤ size) :
    reader.read position count ++
        (reader.content.drop (position + (reader.read position count).length)).take
          (size - (reader.read position count).length) =
      (reader.content.drop position).take size := by
  have bounded : (reader.read position count).length ≤ size := by
    rw [read, List.length_take]
    omega
  rw [← List.drop_drop]
  calc reader.read position count ++
        ((reader.content.drop position).drop (reader.read position count).length).take
          (size - (reader.read position count).length)
      = (reader.content.drop position).take ((reader.read position count).length +
          (size - (reader.read position count).length)) := by
        rw [List.take_add, ← read_eq]
    _ = (reader.content.drop position).take size := by
        rw [Nat.add_sub_cancel' bounded]

/-- However much fuel there is, the loop gathers nothing else. -/
theorem gather_some {fuel position size : Nat} {seen gathered : List Element}
    (done : reader.gather limit fuel position size seen = some (some gathered)) :
    gathered = seen ++ (reader.content.drop position).take size := by
  induction fuel generalizing position size seen with
  | zero =>
      cases size with
      | zero =>
          cases done
          simp
      | succ size => cases done
  | succ fuel ih =>
      cases size with
      | zero =>
          cases done
          simp
      | succ size =>
          rw [gather] at done
          split at done
          · cases done
          · rw [ih done, List.append_assoc, take_read (Nat.min_le_right _ _)]

/-- The loop gathers what there is from its position on. -/
theorem gather_eq (positive : 0 < limit) {fuel position size : Nat} (seen : List Element)
    (enough : position + size ≤ reader.content.length) (fueled : size ≤ fuel) :
    reader.gather limit fuel position size seen =
      some (some (seen ++ (reader.content.drop position).take size)) := by
  induction fuel generalizing position size seen with
  | zero =>
      have none_left : size = 0 := by omega
      subst none_left
      simp [gather]
  | succ fuel ih =>
      cases size with
      | zero => simp [gather]
      | succ size =>
          rw [gather, if_neg (by omega)]
          have part : 0 < (reader.read position (min limit (size + 1))).length ∧
              (reader.read position (min limit (size + 1))).length ≤ min limit (size + 1) :=
            length_read (by omega) (by omega)
          rw [ih _ (by omega) (by omega), List.append_assoc, take_read (by omega)]

theorem read_inside {position count : Nat} (inside : position ≤ reader.content.length) :
    position + (reader.read position count).length ≤ reader.content.length := by
  rw [read, List.length_take, List.length_drop]
  omega

/-- A file that is too short and does not fail is read forever. -/
theorem gather_short (whole : reader.broken = false) {fuel position size : Nat}
    (seen : List Element) (short : reader.content.length < position + size)
    (inside : position ≤ reader.content.length) :
    reader.gather limit fuel position size seen = none := by
  induction fuel generalizing position size seen with
  | zero =>
      cases size with
      | zero => omega
      | succ size => rfl
  | succ fuel ih =>
      cases size with
      | zero => omega
      | succ size =>
          have unbroken : ¬(reader.broken ∧ reader.content.length ≤ position) := by
            simp [whole]
          rw [gather, if_neg unbroken]
          have bounded : (reader.read position (min limit (size + 1))).length ≤ size + 1 := by
            rw [read, List.length_take]
            omega
          exact ih _ (by omega) (read_inside inside)

/-- One that is too short and fails is read to its end. -/
theorem gather_broken (positive : 0 < limit) (broken : reader.broken = true)
    {fuel position size : Nat} (seen : List Element)
    (short : reader.content.length < position + size)
    (inside : position ≤ reader.content.length) (fueled : size ≤ fuel) :
    reader.gather limit fuel position size seen = some none := by
  induction fuel generalizing position size seen with
  | zero => omega
  | succ fuel ih =>
      cases size with
      | zero => omega
      | succ size =>
          rw [gather]
          by_cases past : reader.content.length ≤ position
          · rw [if_pos ⟨broken, past⟩]
          · rw [if_neg fun ends => past ends.2]
            have part : 0 < (reader.read position (min limit (size + 1))).length ∧
                (reader.read position (min limit (size + 1))).length ≤ min limit (size + 1) :=
              length_read (by omega) (by omega)
            exact ih _ (by omega) (read_inside inside) (by omega)

end Reader

end Gfiber.Lib
