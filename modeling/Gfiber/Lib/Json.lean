import Gfiber.Lib.Numeral

/-! The values that Python reads from JSON, with the comparison `==` and the truth of them. Texts
are code points. -/

set_option autoImplicit false

namespace Gfiber.Lib

inductive Number where
  | bool (value : Bool)
  | int (value : Int)
  | float (value : Double)
  | infinity (negative : Bool)
  | nan
deriving DecidableEq, Repr

inductive Json where
  | null
  | number (value : Number)
  | str (text : List Nat)
  | list (items : List Json)
  /-- The entries in the order in which the dictionary is gone through. -/
  | dict (entries : List (List Nat × Json))
deriving Repr

namespace Number

/-- What is compared, of all numbers but infinities and NaN. -/
def finite : Number → Option Rat
  | bool value => some (if value then 1 else 0)
  | int value => some value
  | float value => some value.value
  | infinity _ => none
  | nan => none

/-- Numbers are equal across their types, and NaN is equal to nothing. -/
def equal : Number → Number → Bool
  | infinity left, infinity right => left = right
  | nan, _ => false
  | left, right =>
      match left.finite, right.finite with
      | some left, some right => left = right
      | _, _ => false

def truthy (number : Number) : Bool :=
  number.finite ≠ some 0

end Number

namespace Json

/-- Every value is looked up under its key. -/
def equal : Json → Json → Bool
  | null, null => true
  | number left, number right => left.equal right
  | str left, str right => left = right
  | list left, list right => equalItems left right
  | dict left, dict right => left.length = right.length && equalEntries left right
  | _, _ => false
where
  equalItems : List Json → List Json → Bool
    | [], [] => true
    | left :: lefts, right :: rights => left.equal right && equalItems lefts rights
    | _, _ => false
  equalEntries : List (List Nat × Json) → List (List Nat × Json) → Bool
    | [], _ => true
    | (key, left) :: lefts, rights =>
        (match rights.lookup key with
        | some right => left.equal right
        | none => false) && equalEntries lefts rights

def isDict : Json → Bool
  | dict _ => true
  | _ => false

/-- The values in nested dictionaries that are not dictionaries, with the keys that lead to them. -/
def leaves : Json → List (List (List Nat) × Json)
  | dict entries => entryLeaves entries
  | value => [([], value)]
where
  entryLeaves : List (List Nat × Json) → List (List (List Nat) × Json)
    | [] => []
    | (key, value) :: entries =>
        (leaves value).map (fun leaf => (key :: leaf.1, leaf.2)) ++ entryLeaves entries

/-- The keys lead from the first value to the second, which is no dictionary. -/
inductive Leaf : Json → List (List Nat) → Json → Prop
  | here {value : Json} (closed : value.isDict = false) : Leaf value [] value
  | inside {entries : List (List Nat × Json)} {key : List Nat} {path : List (List Nat)}
      {child value : Json} (entry : (key, child) ∈ entries) (leaf : Leaf child path value) :
      Leaf (.dict entries) (key :: path) value

def truthy : Json → Bool
  | null => false
  | number value => value.truthy
  | str text => text ≠ []
  | list items => items.length ≠ 0
  | dict entries => entries.length ≠ 0

end Json

end Gfiber.Lib
