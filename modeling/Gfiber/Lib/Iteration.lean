import Mathlib.Data.List.Perm.Basic

/-! The order in which a hash table is gone through. -/

set_option autoImplicit false

namespace Gfiber.Lib

/-- Any permutation, chosen for each content. -/
structure IterationOrder (Entry : Type) where
  arrange : List Entry → List Entry
  perm : ∀ entries, (arrange entries).Perm entries

namespace IterationOrder

variable {Entry : Type} (order : IterationOrder Entry)

def inserted : IterationOrder Entry := ⟨id, fun _ => .refl _⟩

@[simp] theorem mem_arrange {entry : Entry} {entries : List Entry} :
    entry ∈ order.arrange entries ↔ entry ∈ entries :=
  (order.perm entries).mem_iff

end IterationOrder

end Gfiber.Lib
