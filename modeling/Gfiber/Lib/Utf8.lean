import Gfiber.Lib.CString

/-! UTF-8 as Python 2 reads and writes it, with code points as numbers. -/

set_option autoImplicit false

namespace Gfiber.Lib

section Codec

def isContinuation (byte : Byte) : Bool :=
  byte.toNat / 64 = 2

/-- The character that a text starts with, and the number of further bytes it takes.
A surrogate is a character. -/
def utf8Char : List Byte → Option (Nat × Nat)
  | [] => none
  | first :: rest =>
      let lead := first.toNat
      if lead < 0x80 then some (lead, 0)
      else if lead < 0xc2 then none
      else if lead < 0xe0 then
        match rest with
        | second :: _ =>
            if isContinuation second then some (lead % 32 * 64 + second.toNat % 64, 1) else none
        | [] => none
      else if lead < 0xf0 then
        match rest with
        | second :: third :: _ =>
            if isContinuation second && isContinuation third &&
                !(lead = 0xe0 && second.toNat < 0xa0) then
              some (lead % 16 * 4096 + second.toNat % 64 * 64 + third.toNat % 64, 2)
            else none
        | _ => none
      else if lead < 0xf5 then
        match rest with
        | second :: third :: fourth :: _ =>
            if isContinuation second && isContinuation third && isContinuation fourth &&
                !(lead = 0xf0 && second.toNat < 0x90) && !(lead = 0xf4 && 0x8f < second.toNat) then
              some (lead % 8 * 262144 + second.toNat % 64 * 4096 + third.toNat % 64 * 64 +
                fourth.toNat % 64, 3)
            else none
        | _ => none
      else none

def decodeUtf8From : Nat → List Byte → List Nat
  | _, [] => []
  | further + 1, _ :: rest => decodeUtf8From further rest
  | 0, first :: rest =>
      match utf8Char (first :: rest) with
      | none => decodeUtf8From 0 rest
      | some (point, further) => point :: decodeUtf8From further rest

/-- `text.decode('utf-8', 'ignore')`. A byte that starts no character is left out. -/
def decodeUtf8 (text : List Byte) : List Nat :=
  decodeUtf8From 0 text

def readUtf8From : Nat → List Byte → Option (List Nat)
  | _, [] => some []
  | further + 1, _ :: rest => readUtf8From further rest
  | 0, first :: rest => do
      let (point, further) ← utf8Char (first :: rest)
      let points ← readUtf8From further rest
      return point :: points

/-- `text.decode('utf-8')`. -/
def readUtf8 (text : List Byte) : Option (List Nat) :=
  readUtf8From 0 text

def encodeUtf8Char (point : Nat) : List Byte :=
  if point < 0x80 then [BitVec.ofNat 8 point]
  else if point < 0x800 then
    [BitVec.ofNat 8 (0xc0 + point / 64), BitVec.ofNat 8 (0x80 + point % 64)]
  else if point < 0x10000 then
    [BitVec.ofNat 8 (0xe0 + point / 4096), BitVec.ofNat 8 (0x80 + point / 64 % 64),
      BitVec.ofNat 8 (0x80 + point % 64)]
  else
    [BitVec.ofNat 8 (0xf0 + point / 262144), BitVec.ofNat 8 (0x80 + point / 4096 % 64),
      BitVec.ofNat 8 (0x80 + point / 64 % 64), BitVec.ofNat 8 (0x80 + point % 64)]

def encodeUtf8 (points : List Nat) : List Byte :=
  points.flatMap encodeUtf8Char

end Codec

section RoundTrip

theorem toNat_ofNat_byte {value : Nat} (small : value < 256) :
    (BitVec.ofNat 8 value).toNat = value := by
  rw [BitVec.toNat_ofNat, Nat.mod_eq_of_lt small]

theorem isContinuation_ofNat {value : Nat} (small : value < 64) :
    isContinuation (BitVec.ofNat 8 (0x80 + value)) = true := by
  rw [isContinuation, toNat_ofNat_byte (by omega)]
  exact decide_eq_true (by omega)

theorem continuation_bits {value : Nat} (small : value < 64) : (0x80 + value) % 64 = value := by
  omega

/-- A character is read as it was written, with the number of its further bytes. -/
theorem utf8Char_encode {point : Nat} (valid : point < 0x110000) (rest : List Byte) :
    utf8Char (encodeUtf8Char point ++ rest) = some (point, (encodeUtf8Char point).length - 1) := by
  have low : point % 64 < 64 := Nat.mod_lt _ (by omega)
  have middle : point / 64 % 64 < 64 := Nat.mod_lt _ (by omega)
  have high : point / 4096 % 64 < 64 := Nat.mod_lt _ (by omega)
  rw [encodeUtf8Char]
  split
  case isTrue one =>
    simp [utf8Char, toNat_ofNat_byte (show point < 256 by omega), one]
  case isFalse more =>
    split
    case isTrue two =>
      have lead := toNat_ofNat_byte (show 0xc0 + point / 64 < 256 by omega)
      have second := toNat_ofNat_byte (show 0x80 + point % 64 < 256 by omega)
      have bits : (0xc0 + point / 64) % 32 = point / 64 := by omega
      simp only [List.cons_append, List.nil_append, utf8Char, lead, second,
        isContinuation_ofNat low, if_true, bits, continuation_bits low]
      rw [if_neg (by omega), if_neg (by omega), if_pos (by omega), Nat.div_add_mod']
      rfl
    case isFalse larger =>
      split
      case isTrue three =>
        have lead := toNat_ofNat_byte (show 0xe0 + point / 4096 < 256 by omega)
        have second := toNat_ofNat_byte (show 0x80 + point / 64 % 64 < 256 by omega)
        have third := toNat_ofNat_byte (show 0x80 + point % 64 < 256 by omega)
        have shortest : (decide (0xe0 + point / 4096 = 0xe0) &&
            decide (0x80 + point / 64 % 64 < 0xa0)) = false := by
          simp only [Bool.and_eq_false_iff, decide_eq_false_iff_not]
          omega
        have bits : (0xe0 + point / 4096) % 16 = point / 4096 := by omega
        have value : point / 4096 * 4096 + point / 64 % 64 * 64 + point % 64 = point := by omega
        simp only [List.cons_append, List.nil_append, utf8Char, lead, second, third,
          isContinuation_ofNat low, isContinuation_ofNat middle, shortest, Bool.and_true,
          Bool.not_false, if_true, bits, continuation_bits low, continuation_bits middle, value]
        rw [if_neg (by omega), if_neg (by omega), if_neg (by omega), if_pos (by omega)]
        rfl
      case isFalse largest =>
        have lead := toNat_ofNat_byte (show 0xf0 + point / 262144 < 256 by omega)
        have second := toNat_ofNat_byte (show 0x80 + point / 4096 % 64 < 256 by omega)
        have third := toNat_ofNat_byte (show 0x80 + point / 64 % 64 < 256 by omega)
        have fourth := toNat_ofNat_byte (show 0x80 + point % 64 < 256 by omega)
        have shortest : (decide (0xf0 + point / 262144 = 0xf0) &&
            decide (0x80 + point / 4096 % 64 < 0x90)) = false := by
          simp only [Bool.and_eq_false_iff, decide_eq_false_iff_not]
          omega
        have bounded : (decide (0xf0 + point / 262144 = 0xf4) &&
            decide (0x8f < 0x80 + point / 4096 % 64)) = false := by
          simp only [Bool.and_eq_false_iff, decide_eq_false_iff_not]
          omega
        have bits : (0xf0 + point / 262144) % 8 = point / 262144 := by omega
        have value : point / 262144 * 262144 + point / 4096 % 64 * 4096 + point / 64 % 64 * 64 +
            point % 64 = point := by
          omega
        simp only [List.cons_append, List.nil_append, utf8Char, lead, second, third, fourth,
          isContinuation_ofNat low, isContinuation_ofNat middle, isContinuation_ofNat high,
          shortest, bounded, Bool.and_true, Bool.not_false, if_true, bits, continuation_bits low,
          continuation_bits middle, continuation_bits high, value]
        rw [if_neg (by omega), if_neg (by omega), if_neg (by omega), if_neg (by omega),
          if_pos (by omega)]
        rfl

theorem decodeUtf8From_append (further rest : List Byte) :
    decodeUtf8From further.length (further ++ rest) = decodeUtf8 rest := by
  induction further with
  | nil => rfl
  | cons byte further ih => exact ih

theorem encodeUtf8Char_ne_nil (point : Nat) : encodeUtf8Char point ≠ [] := by
  rw [encodeUtf8Char]
  split
  · exact List.cons_ne_nil _ _
  · split
    · exact List.cons_ne_nil _ _
    · split <;> exact List.cons_ne_nil _ _

theorem decodeUtf8_encodeChar {point : Nat} (valid : point < 0x110000) (rest : List Byte) :
    decodeUtf8 (encodeUtf8Char point ++ rest) = point :: decodeUtf8 rest := by
  have read := utf8Char_encode valid rest
  obtain ⟨first, further, shape⟩ := List.exists_cons_of_ne_nil (encodeUtf8Char_ne_nil point)
  rw [shape, List.cons_append] at read ⊢
  have skipped := decodeUtf8From_append further rest
  rw [decodeUtf8, decodeUtf8From, read]
  exact congrArg _ skipped

theorem decodeUtf8_encode {points : List Nat} (valid : ∀ point ∈ points, point < 0x110000) :
    decodeUtf8 (encodeUtf8 points) = points := by
  induction points with
  | nil => rfl
  | cons point points ih =>
      have later := ih fun other member => valid other (List.mem_cons_of_mem _ member)
      rw [encodeUtf8, List.flatMap_cons, decodeUtf8_encodeChar (valid point List.mem_cons_self)]
      exact congrArg _ later

theorem utf8Char_lt (text : List Byte) : ∀ part ∈ utf8Char text, part.1 < 0x110000 := by
  fun_cases utf8Char text with
  | case1 | case3 | case5 | case6 | case8 | case9 | case11 | case12 | case13 =>
      intro part read
      cases read
  | case2 | case4 | case7 =>
      intro part read
      cases read
      dsimp only
      omega
  | case10 first lead _ _ _ _ _ second third fourth tail bounds =>
      intro part read
      cases read
      simp only [isContinuation, Bool.and_eq_true, Bool.not_eq_true', Bool.and_eq_false_iff,
        decide_eq_true_eq, decide_eq_false_iff_not] at bounds
      dsimp only
      omega

theorem decodeUtf8_lt (text : List Byte) : ∀ point ∈ decodeUtf8 text, point < 0x110000 := by
  have from_any : ∀ further, ∀ point ∈ decodeUtf8From further text, point < 0x110000 := by
    intro further
    fun_induction decodeUtf8From further text with
    | case1 => simp
    | case2 _ _ _ ih => exact ih
    | case3 _ _ _ ih => exact ih
    | case4 first rest point further read ih =>
        intro other member
        rcases List.mem_cons.mp member with rfl | later
        · exact utf8Char_lt _ _ read
        · exact ih other later
  exact from_any 0

end RoundTrip

section Ascii

/-- A byte of the ASCII range is a character of its own. -/
theorem mem_encodeUtf8Char {point : Nat} {byte : Byte} (valid : point < 0x110000)
    (small : byte.toNat < 0x80) (member : byte ∈ encodeUtf8Char point) : point = byte.toNat := by
  have large : ∀ value, 0x80 ≤ value → value < 256 → byte ≠ BitVec.ofNat 8 value := by
    rintro value low high rfl
    rw [toNat_ofNat_byte high] at small
    omega
  rw [encodeUtf8Char] at member
  split at member
  case isTrue one =>
    rw [List.mem_singleton.mp member, toNat_ofNat_byte (by omega)]
  case isFalse =>
    split at member
    case isTrue two =>
      simp only [List.mem_cons, List.not_mem_nil, or_false] at member
      rcases member with here | here
      all_goals exact absurd here (large _ (by omega) (by omega))
    case isFalse =>
      split at member
      case isTrue three =>
        simp only [List.mem_cons, List.not_mem_nil, or_false] at member
        rcases member with here | here | here
        all_goals exact absurd here (large _ (by omega) (by omega))
      case isFalse =>
        simp only [List.mem_cons, List.not_mem_nil, or_false] at member
        rcases member with here | here | here | here
        all_goals exact absurd here (large _ (by omega) (by omega))

end Ascii

end Gfiber.Lib
