import Gfiber.Lib.CString

/-! Texts as lines, and the keys of the settings in them. -/

set_option autoImplicit false

namespace Gfiber.Lib

section Lines

def lineEnd : Byte :=
  ascii '\n'

def equalSign : Byte :=
  ascii '='

/-- `'\n'.join(lines)`. -/
def joinLines : List (List Byte) → List Byte
  | [] => []
  | [line] => line
  | line :: next :: lines => line ++ lineEnd :: joinLines (next :: lines)

/-- `' '.join(words)`. -/
def joinWords : List (List Byte) → List Byte
  | [] => []
  | [word] => word
  | word :: next :: words => word ++ ascii ' ' :: joinWords (next :: words)

def linesOf (text : List Byte) : List (List Byte) :=
  text.splitOn lineEnd

/-- What is in front of the first `=` of a line. -/
def lineKey (line : List Byte) : List Byte :=
  line.takeWhile (· ≠ equalSign)

def lineKeys (text : List Byte) : List (List Byte) :=
  (linesOf text).map lineKey

theorem linesOf_append (text rest : List Byte) :
    linesOf (text ++ lineEnd :: rest) = linesOf text ++ linesOf rest :=
  List.splitOn_append_cons_self text rest

theorem linesOf_join {lines : List (List Byte)} (some : lines ≠ []) :
    linesOf (joinLines lines) = lines.flatMap linesOf := by
  fun_induction joinLines lines with
  | case1 => exact absurd rfl some
  | case2 => simp
  | case3 line next lines ih =>
      rw [linesOf_append, ih (List.cons_ne_nil _ _)]
      rfl

/-- The keys of joined texts are those of each. -/
theorem lineKeys_join {lines : List (List Byte)} (some : lines ≠ []) :
    lineKeys (joinLines lines) = lines.flatMap lineKeys := by
  rw [lineKeys, linesOf_join some, List.map_flatMap]
  rfl

/-- A value on one line does not matter to the key. -/
theorem lineKeys_assigned (key : List Byte) {value : List Byte} (keyLine : lineEnd ∉ key)
    (keySign : equalSign ∉ key) (valueLine : lineEnd ∉ value) :
    lineKeys (key ++ equalSign :: value) = [key] := by
  have whole : lineEnd ∉ key ++ equalSign :: value := by
    simp only [List.mem_append, List.mem_cons, not_or]
    exact ⟨keyLine, by decide, valueLine⟩
  have front : ∀ byte ∈ key, decide (byte ≠ equalSign) = true := by
    intro byte member
    exact decide_eq_true fun same => keySign (same ▸ member)
  rw [lineKeys, linesOf, List.splitOn_eq_singleton whole, List.map_singleton, lineKey,
    List.takeWhile_append_of_pos front]
  simp

/-- The sign may be written with the key. -/
theorem lineKeys_named {name key value : List Byte} (signed : name = key ++ [equalSign])
    (keyLine : lineEnd ∉ key) (keySign : equalSign ∉ key) (valueLine : lineEnd ∉ value) :
    lineKeys (name ++ value) = [key] := by
  rw [signed, List.append_assoc]
  exact lineKeys_assigned key keyLine keySign valueLine

/-- A text with a line end has more than one key. -/
theorem lineKeys_broken {text : List Byte} (broken : lineEnd ∈ text) :
    1 < (lineKeys text).length := by
  obtain ⟨before, after, rfl⟩ := List.append_of_mem broken
  have first := List.length_pos_of_ne_nil (List.splitOn_ne_nil lineEnd before)
  have second := List.length_pos_of_ne_nil (List.splitOn_ne_nil lineEnd after)
  rw [lineKeys, List.length_map, linesOf_append, List.length_append, linesOf, linesOf]
  omega

end Lines

end Gfiber.Lib
