import Mathlib.Logic.Function.Basic
import Mathlib.Data.Option.Basic

/-! A value kept in two copies, each of them intact or damaged. A mirrored
write damages and replaces one copy after the other; a repair does so with the
one copy that is damaged. Both can stop after any of their parts. -/

set_option autoImplicit false

namespace Gfiber.Lib

inductive Side where
  | zero
  | one
deriving DecidableEq, Repr

namespace Side

def other : Side → Side
  | zero => one
  | one => zero

@[simp] theorem other_other (side : Side) : side.other.other = side := by
  cases side <;> rfl

@[simp] theorem other_ne (side : Side) : side.other ≠ side := by
  cases side <;> decide

@[simp] theorem ne_other (side : Side) : side ≠ side.other :=
  (other_ne side).symm

theorem eq_or_eq_other (left right : Side) : left = right ∨ left = right.other := by
  cases left <;> cases right <;> decide

end Side

variable {Value : Type}

abbrev Copies (Value : Type) := Side → Option Value

def shown (copies : Copies Value) : Option Value :=
  (copies .one).or (copies .zero)

inductive Rewriting (copies : Copies Value) (side : Side) (value : Value) : Copies Value → Prop where
  | untouched : Rewriting copies side value copies
  | damaged : Rewriting copies side value (Function.update copies side none)
  | replaced : Rewriting copies side value (Function.update copies side (some value))

inductive Mirroring (copies : Copies Value) (side : Side) (value : Value) : Copies Value → Prop where
  | first {after : Copies Value} (rewriting : Rewriting copies side value after) :
      Mirroring copies side value after
  | second {after : Copies Value}
      (rewriting : Rewriting (Function.update copies side (some value)) side.other value after) :
      Mirroring copies side value after

variable {copies after : Copies Value} {side : Side} {value : Value}

theorem Rewriting.shown_cases (rewriting : Rewriting copies side value after) :
    shown after = shown copies ∨ shown after = some value ∨ shown after = copies side.other := by
  cases rewriting with
  | untouched => exact .inl rfl
  | damaged =>
      cases side with
      | zero =>
          cases kept : copies .one with
          | none => exact .inr (.inr (by simp [shown, Side.other, kept]))
          | some other => exact .inl (by simp [shown, kept])
      | one => exact .inr (.inr (by simp [shown, Side.other]))
  | replaced =>
      cases side with
      | zero =>
          cases kept : copies .one with
          | none => exact .inr (.inl (by simp [shown, kept]))
          | some other => exact .inl (by simp [shown, kept])
      | one => exact .inr (.inl (by simp [shown]))

theorem Rewriting.shown_held (rewriting : Rewriting copies side value after)
    (held : copies side.other = shown copies) :
    shown after = shown copies ∨ shown after = some value := by
  rcases rewriting.shown_cases with same | new | other
  · exact .inl same
  · exact .inr new
  · exact .inl (other.trans held)

/-- While the copy that is rewritten second holds what the copies stand for,
they stand for that or for the new value wherever the rewriting stops. -/
theorem Mirroring.shown_held (mirroring : Mirroring copies side value after)
    (held : copies side.other = shown copies) :
    shown after = shown copies ∨ shown after = some value := by
  cases mirroring with
  | first rewriting => exact rewriting.shown_held held
  | second rewriting =>
      rcases rewriting.shown_cases with same | new | other
      · rw [same]
        exact Rewriting.replaced.shown_held held
      · exact .inr new
      · exact .inr (by simpa using other)

theorem Rewriting.shown_repair (rewriting : Rewriting copies side.other value after)
    (intact : copies side = some value) (damaged : copies side.other = none) :
    shown after = shown copies := by
  have standing : shown copies = some value := by
    cases side with
    | zero => simp [shown, intact, show copies .one = none from damaged]
    | one => simp [shown, intact]
  rcases rewriting.shown_cases with same | new | other
  · exact same
  · exact new.trans standing.symm
  · rw [other, Side.other_other, intact, standing]

end Gfiber.Lib
