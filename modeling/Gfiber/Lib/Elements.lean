import Gfiber.Lib.Word

/-! Chains of elements that begin with an identifier and a length of one byte each. -/

set_option autoImplicit false

namespace Gfiber.Lib

/-- The places at which an element begins, if one begins at the first place. -/
inductive Chain (bytes : List Byte) : Nat → Nat → Prop where
  | here {start : Nat} : Chain bytes start start
  | next {start place : Nat} {id length : Byte} (head : bytes[start]? = some id)
      (size : bytes[start + 1]? = some length)
      (later : Chain bytes (start + 2 + length.toNat) place) : Chain bytes start place

/-- An element that begins at a place. -/
structure ElementAt (bytes : List Byte) (start : Nat) (id : Byte) (place length : Nat) : Prop where
  chain : Chain bytes start place
  head : bytes[place]? = some id
  size : (bytes[place + 1]?).map BitVec.toNat = some length

namespace Chain

variable {bytes other : List Byte} {start place : Nat}

theorem le (chain : Chain bytes start place) : start ≤ place := by
  induction chain with
  | here => exact Nat.le_refl _
  | next _ _ _ ih => omega

/-- A place after another one is behind the element that begins there. -/
theorem apart {later length : Nat} (chain : Chain bytes start place)
    (others : Chain bytes start later) (after : place < later)
    (size : (bytes[place + 1]?).map BitVec.toNat = some length) : place + 2 + length ≤ later := by
  induction chain with
  | here =>
      cases others with
      | here => omega
      | next head first later =>
          rw [first] at size
          cases size
          exact later.le
  | @next start place id elen head first rest ih =>
      cases others with
      | here =>
          have reached := rest.le
          omega
      | next again same later =>
          cases first.symm.trans same
          exact ih later after size

/-- The chain depends on the bytes at which its elements begin. -/
theorem congr (chain : Chain bytes start place)
    (same : ∀ first, Chain bytes start first → first < place →
      bytes[first]? = other[first]? ∧ bytes[first + 1]? = other[first + 1]?) :
    Chain other start place := by
  induction chain with
  | here => exact .here
  | next head size rest ih =>
      have reached := rest.le
      obtain ⟨first, second⟩ := same _ .here (by omega)
      apply Chain.next (first ▸ head) (second ▸ size)
      apply ih
      intro later chain before
      exact same later (.next head size chain) before

end Chain

end Gfiber.Lib
