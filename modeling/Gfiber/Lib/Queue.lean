import Mathlib.Data.List.Basic

/-! The top of a priority queue: an entry with the least key, the earliest pushed
among equal ones. -/

set_option autoImplicit false

namespace Gfiber.Lib

variable {Entry : Type}

def least (key : Entry → Nat) : List Entry → Option Entry
  | [] => none
  | first :: rest =>
      match least key rest with
      | none => some first
      | some other => if key other < key first then some other else some first

theorem least_mem {key : Entry → Nat} {entries : List Entry} {entry : Entry}
    (top : least key entries = some entry) : entry ∈ entries := by
  induction entries generalizing entry with
  | nil => cases top
  | cons first rest ih =>
      simp only [least] at top
      split at top
      · cases top
        exact List.mem_cons_self
      · rename_i other found
        split at top
        · cases top
          exact List.mem_cons_of_mem _ (ih found)
        · cases top
          exact List.mem_cons_self

end Gfiber.Lib
