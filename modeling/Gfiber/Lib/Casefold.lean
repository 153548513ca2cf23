import Gfiber.Lib.CString

/-! Strings compared without regard to case, in the C locale. -/

set_option autoImplicit false

namespace Gfiber.Lib

def isprint (byte : Byte) : Bool :=
  between ' ' '~' byte

def tolower (byte : Byte) : Byte :=
  if isupper byte then byte + 32 else byte

/-- Whether `strncasecmp` finds the second text at the beginning of the first. -/
def startsWithFolded (text needle : List Byte) : Bool :=
  (needle.map tolower).isPrefixOf (text.map tolower)

/-- The offset of what `strcasestr` finds. -/
def strcasestr (needle : List Byte) : List Byte → Option Nat
  | [] => if needle = [] then some 0 else none
  | byte :: rest =>
      if startsWithFolded (byte :: rest) needle then some 0
      else (strcasestr needle rest).map (· + 1)

/-- What has been found ends in the text. -/
theorem length_of_strcasestr {needle text : List Byte} {place : Nat}
    (found : strcasestr needle text = some place) : place + needle.length ≤ text.length := by
  induction text generalizing place with
  | nil =>
      rw [strcasestr] at found
      split at found
      case isTrue empty =>
        cases found
        rw [empty]
        exact Nat.le_refl 0
      case isFalse => cases found
  | cons byte rest ih =>
      rw [strcasestr] at found
      split at found
      case isTrue here =>
        cases found
        have few := (List.isPrefixOf_iff_prefix.mp here).length_le
        rw [List.length_map, List.length_map] at few
        rw [Nat.zero_add]
        exact few
      case isFalse =>
        obtain ⟨later, next, rfl⟩ := Option.map_eq_some_iff.mp found
        have before := ih next
        rw [List.length_cons]
        omega

/-- What has been found lies in the text. -/
theorem map_of_strcasestr {needle text : List Byte} {place : Nat}
    (found : strcasestr needle text = some place) :
    (needle.map tolower) <:+: (text.map tolower) := by
  induction text generalizing place with
  | nil =>
      rw [strcasestr] at found
      split at found
      · subst needle
        exact List.nil_infix
      · cases found
  | cons byte rest ih =>
      rw [strcasestr] at found
      split at found
      case isTrue here => exact (List.isPrefixOf_iff_prefix.mp here).isInfix
      case isFalse =>
        obtain ⟨later, next, -⟩ := Option.map_eq_some_iff.mp found
        exact (ih next).trans (List.suffix_cons _ _).isInfix

theorem isalpha_tolower (byte : Byte) : isalpha (tolower byte) = isalpha byte := by
  revert byte
  decide +kernel

theorem tolower_of_not_alpha {byte : Byte} (other : isalpha byte = false) : tolower byte = byte := by
  revert byte
  decide +kernel

/-- What is no letter is found as it is. -/
theorem mem_of_strcasestr {needle text : List Byte} {place : Nat} {byte : Byte}
    (found : strcasestr needle text = some place) (other : isalpha byte = false)
    (member : byte ∈ needle) : byte ∈ text := by
  have folded : tolower byte ∈ text.map tolower :=
    (map_of_strcasestr found).subset (List.mem_map_of_mem member)
  obtain ⟨origin, inside, same⟩ := List.mem_map.mp folded
  rw [tolower_of_not_alpha other] at same
  have also : isalpha origin = false := by rw [← isalpha_tolower, same, other]
  rw [← same, tolower_of_not_alpha also]
  exact inside

end Gfiber.Lib
