import Gfiber.Lib.CString

/-! Bytes in hexadecimal, and the formatted input of the C library. -/

set_option autoImplicit false

namespace Gfiber.Lib

section Hexadecimal

def hexValue (digit : Byte) : Nat :=
  if isdigit digit then (digit - ascii '0').toNat
  else if between 'a' 'f' digit then 10 + (digit - ascii 'a').toNat
  else 10 + (digit - ascii 'A').toNat

def hexDigit (value : Nat) : Byte :=
  if value < 10 then ascii '0' + BitVec.ofNat 8 value
  else ascii 'a' + BitVec.ofNat 8 (value - 10)

/-- `%02x` of a byte. -/
def printHexByte (byte : Byte) : List Byte :=
  [hexDigit (byte.toNat / 16), hexDigit (byte.toNat % 16)]

/-- `%02x` of any number. -/
def printHex (value : Nat) : List Byte :=
  pad 2 '0' ((Nat.toDigits 16 value).map ascii)

/-- A hexadecimal digit in lower case. -/
def lowerHex (byte : Byte) : Byte :=
  if between 'A' 'F' byte then byte + 32 else byte

def hexByte (high low : Byte) : Byte :=
  BitVec.ofNat 8 (16 * hexValue high + hexValue low)

theorem between_iff {low high : Char} {byte : Byte} :
    between low high byte ↔ (ascii low).toNat ≤ byte.toNat ∧ byte.toNat ≤ (ascii high).toNat := by
  simp [between, BitVec.le_def]

theorem isdigit_iff {byte : Byte} : isdigit byte ↔ 48 ≤ byte.toNat ∧ byte.toNat ≤ 57 :=
  between_iff

theorem lowercase_iff {byte : Byte} :
    between 'a' 'f' byte ↔ 97 ≤ byte.toNat ∧ byte.toNat ≤ 102 :=
  between_iff

theorem uppercase_iff {byte : Byte} :
    between 'A' 'F' byte ↔ 65 ≤ byte.toNat ∧ byte.toNat ≤ 70 :=
  between_iff

theorem isxdigit_iff {byte : Byte} :
    isxdigit byte ↔ 48 ≤ byte.toNat ∧ byte.toNat ≤ 57 ∨ 97 ≤ byte.toNat ∧ byte.toNat ≤ 102 ∨
      65 ≤ byte.toNat ∧ byte.toNat ≤ 70 := by
  simp only [isxdigit, Bool.or_eq_true, isdigit_iff, lowercase_iff, uppercase_iff, or_assoc]

theorem hexValue_lt {digit : Byte} (hex : isxdigit digit) : hexValue digit < 16 := by
  have zero : ascii '0' = 48 := rfl
  have lower : ascii 'a' = 97 := rfl
  have upper : ascii 'A' = 65 := rfl
  rw [isxdigit_iff] at hex
  simp only [hexValue, isdigit_iff, lowercase_iff, zero, lower, upper]
  split
  · bv_omega
  split
  · bv_omega
  · bv_omega

theorem hexDigit_hexValue {digit : Byte} (hex : isxdigit digit) :
    hexDigit (hexValue digit) = lowerHex digit := by
  have zero : ascii '0' = 48 := rfl
  have lower : ascii 'a' = 97 := rfl
  have upper : ascii 'A' = 65 := rfl
  rw [isxdigit_iff] at hex
  simp only [hexDigit, hexValue, lowerHex, isdigit_iff, lowercase_iff, uppercase_iff, zero, lower,
    upper]
  split_ifs
  all_goals bv_omega

theorem isxdigit_of_lower {byte : Byte} {value : Nat} (small : value < 16)
    (same : lowerHex byte = hexDigit value) : isxdigit byte := by
  rw [lowerHex] at same
  split at same
  case isTrue upper => simp [isxdigit, upper]
  case isFalse other =>
    have every : ∀ value : Fin 16, isxdigit (hexDigit value) := by decide
    rw [same]
    exact every ⟨value, small⟩

theorem lowerHex_eq_colon {byte : Byte} : lowerHex byte = ascii ':' ↔ byte = ascii ':' := by
  have colon : ascii ':' = 58 := rfl
  rw [lowerHex]
  split
  case isTrue upper =>
    rw [uppercase_iff] at upper
    rw [colon]
    bv_omega
  case isFalse other => rfl

theorem lowerHex_hexDigit {value : Nat} (small : value < 16) :
    lowerHex (hexDigit value) = hexDigit value := by
  have every : ∀ value : Fin 16, lowerHex (hexDigit value) = hexDigit value := by decide
  exact every ⟨value, small⟩

theorem printHexByte_hexByte {high low : Byte} (first : isxdigit high) (second : isxdigit low) :
    printHexByte (hexByte high low) = [lowerHex high, lowerHex low] := by
  have top := hexValue_lt first
  have bottom := hexValue_lt second
  have value : (hexByte high low).toNat = 16 * hexValue high + hexValue low := by
    rw [hexByte, BitVec.toNat_ofNat, Nat.mod_eq_of_lt]
    omega
  have quotient : (16 * hexValue high + hexValue low) / 16 = hexValue high := by omega
  have remainder : (16 * hexValue high + hexValue low) % 16 = hexValue low := by omega
  rw [printHexByte, value, quotient, remainder, hexDigit_hexValue first, hexDigit_hexValue second]

/-- What is printed in hexadecimal is in lower case. -/
theorem lower_printHexByte (byte : Byte) : (printHexByte byte).map lowerHex = printHexByte byte := by
  have bound : byte.toNat < 256 := byte.isLt
  have high : byte.toNat / 16 < 16 := by omega
  have low : byte.toNat % 16 < 16 := by omega
  simp [printHexByte, lowerHex_hexDigit high, lowerHex_hexDigit low]

/-- Two characters that a byte is printed as, but for their case, are digits. -/
theorem digits_of_printHexByte {high low byte : Byte}
    (same : [lowerHex high, lowerHex low] = printHexByte byte) : isxdigit high ∧ isxdigit low := by
  have bound : byte.toNat < 256 := byte.isLt
  simp only [printHexByte, List.cons.injEq, and_true] at same
  exact ⟨isxdigit_of_lower (by omega) same.1, isxdigit_of_lower (by omega) same.2⟩

theorem xdigit_printHexByte (byte : Byte) : ∀ digit ∈ printHexByte byte, isxdigit digit := by
  have bound : byte.toNat < 256 := byte.isLt
  intro digit member
  simp only [printHexByte, List.mem_cons, List.not_mem_nil, or_false] at member
  rcases member with rfl | rfl
  · exact isxdigit_of_lower (by omega) (lowerHex_hexDigit (by omega))
  · exact isxdigit_of_lower (by omega) (lowerHex_hexDigit (by omega))

theorem digitChar_of_mem_toDigits {value : Nat} {char : Char}
    (member : char ∈ Nat.toDigits 16 value) : ∃ digit < 16, char = Nat.digitChar digit := by
  induction value using Nat.strong_induction_on with
  | _ value ih =>
      rw [Nat.toDigits_eq_if (by decide)] at member
      split at member
      case isTrue small => exact ⟨value, small, List.mem_singleton.mp member⟩
      case isFalse large =>
        rcases List.mem_append.mp member with front | last
        · exact ih (value / 16) (by omega) front
        · exact ⟨value % 16, Nat.mod_lt _ (by decide), List.mem_singleton.mp last⟩

theorem xdigit_printHex (value : Nat) : ∀ digit ∈ printHex value, isxdigit digit := by
  intro digit member
  rcases List.mem_append.mp member with filled | printed
  · rw [List.eq_of_mem_replicate filled]
    decide
  · obtain ⟨char, found, rfl⟩ := List.mem_map.mp printed
    obtain ⟨value, small, rfl⟩ := digitChar_of_mem_toDigits found
    have every : ∀ value : Fin 16, isxdigit (ascii (Nat.digitChar value)) := by decide
    exact every ⟨value, small⟩

theorem printHex_byte (byte : Byte) : printHex byte.toNat = printHexByte byte := by
  revert byte
  decide +kernel

end Hexadecimal

section Conversions

inductive Conversion where
  | hhd
  | hhx
deriving DecidableEq, Repr

inductive Directive where
  | literal (byte : Byte)
  | number (conversion : Conversion) (width : Option Nat)
deriving DecidableEq, Repr

def Conversion.digit : Conversion → Byte → Bool
  | .hhd => isdigit
  | .hhx => isxdigit

def Conversion.value : Conversion → List Byte → Nat
  | .hhd, digits => decimal digits
  | .hhx, digits => digits.foldl (fun value digit => 16 * value + hexValue digit) 0

/-- The byte of a number as `strtol` or `strtoul` gives it. -/
def Conversion.store : Conversion → Bool → Nat → Byte
  | .hhd, negative, magnitude =>
      let value : Int := if negative then -magnitude else magnitude
      BitVec.ofInt 8 (max (-2 ^ 63) (min value (2 ^ 63 - 1)))
  | .hhx, negative, magnitude =>
      if 2 ^ 64 ≤ magnitude then BitVec.allOnes 8
      else if negative then -BitVec.ofNat 8 magnitude
      else BitVec.ofNat 8 magnitude

def scanSign : List Byte → Bool × List Byte
  | [] => (false, [])
  | first :: rest =>
      if first = ascii '-' then (true, rest)
      else if first = ascii '+' then (false, rest)
      else (false, first :: rest)

/-- The prefix that a hexadecimal number may have. -/
def Conversion.skipPrefix : Conversion → List Byte → List Byte
  | .hhx, zero :: mark :: rest =>
      if zero = ascii '0' ∧ (mark = ascii 'x' ∨ mark = ascii 'X') then rest else zero :: mark :: rest
  | _, text => text

/-- The longest number after blanks, and what follows it. A sign alone is none, and a prefix
alone is the zero that it begins with. -/
def Conversion.scan (conversion : Conversion) (width : Option Nat) (input : List Byte) :
    Option (Byte × List Byte) :=
  let input := input.dropWhile isspace
  let width := width.getD input.length
  let (negative, text) := scanSign (input.take width)
  let number := conversion.skipPrefix text
  let digits := number.takeWhile conversion.digit
  if digits = [] ∧ number.length = text.length then none
  else some (conversion.store negative (conversion.value digits),
    number.dropWhile conversion.digit ++ input.drop width)

/-- The bytes that are assigned before the first directive that does not match. -/
def sscanf : List Directive → List Byte → List Byte
  | [], _ => []
  | .literal byte :: format, input =>
      match input with
      | [] => []
      | first :: rest => if first = byte then sscanf format rest else []
  | .number conversion width :: format, input =>
      match conversion.scan width input with
      | none => []
      | some (byte, rest) => byte :: sscanf format rest

theorem xdigit_plain {byte : Byte} (hex : isxdigit byte) :
    isspace byte = false ∧ byte ≠ ascii '-' ∧ byte ≠ ascii '+' ∧ byte ≠ ascii 'x' ∧
      byte ≠ ascii 'X' := by
  rw [isxdigit_iff] at hex
  have other : ∀ value : Byte, ¬(48 ≤ value.toNat ∧ value.toNat ≤ 57 ∨
      97 ≤ value.toNat ∧ value.toNat ≤ 102 ∨ 65 ≤ value.toNat ∧ value.toNat ≤ 70) →
      byte ≠ value := by
    rintro value outside rfl
    exact outside hex
  refine ⟨?_, other _ (by decide), other _ (by decide), other _ (by decide), other _ (by decide)⟩
  cases space : isspace byte with
  | false => rfl
  | true =>
      have blank : ascii ' ' = 32 := rfl
      have tab : (ascii '\t').toNat = 9 := rfl
      have feed : (ascii '\r').toNat = 13 := rfl
      simp only [isspace, Bool.or_eq_true, decide_eq_true_eq, between_iff, blank, tab, feed] at space
      bv_omega

/-- Two digits are read as a byte, whatever follows them. -/
theorem scan_hexByte {high low : Byte} {rest : List Byte} (first : isxdigit high)
    (second : isxdigit low) :
    Conversion.hhx.scan (some 2) (high :: low :: rest) = some (hexByte high low, rest) := by
  obtain ⟨space, minus, plus, _⟩ := xdigit_plain first
  obtain ⟨_, _, _, small, large⟩ := xdigit_plain second
  have top := hexValue_lt first
  have bottom := hexValue_lt second
  have bound : ¬ 18446744073709551616 ≤ 16 * hexValue high + hexValue low := by omega
  simp [Conversion.scan, space, scanSign, minus, plus, Conversion.skipPrefix, small, large,
    Conversion.digit, first, second, Conversion.value, Conversion.store, bound, hexByte]

/-- A number without a width is read up to the first byte that is no digit. -/
theorem scan_decimal {digits rest : List Byte} (some : digits ≠ [])
    (all : ∀ byte ∈ digits, isdigit byte) (stops : Stops isdigit rest)
    (bound : decimal digits < 2 ^ 63) :
    Conversion.hhd.scan none (digits ++ rest) =
      Option.some (BitVec.ofNat 8 (decimal digits), rest) := by
  cases digits with
  | nil => exact absurd rfl some
  | cons first digits =>
      obtain ⟨space, minus, plus⟩ := digit_plain (all first List.mem_cons_self)
      obtain ⟨taken, dropped⟩ := stops.split all
      have whole : (first :: digits ++ rest).dropWhile isspace = first :: digits ++ rest := by
        simp [space]
      have value : max (-2 ^ 63) (min (decimal (first :: digits) : Int) (2 ^ 63 - 1)) =
          (decimal (first :: digits) : Int) := by
        omega
      simp only [Conversion.scan, whole, Option.getD_none, List.take_length, List.drop_length]
      have sign : scanSign (first :: digits ++ rest) = (false, first :: digits ++ rest) := by
        simp [scanSign, minus, plus]
      simp only [sign, Conversion.skipPrefix, Conversion.digit, taken, dropped, Conversion.value,
        Conversion.store, Bool.false_eq_true, if_false, value, List.append_nil]
      simp

end Conversions

section Bases

/-- The base that the beginning of a number gives, and the number without a prefix for 16. -/
def numberBase : List Byte → Nat × List Byte
  | zero :: mark :: digit :: rest =>
      if zero = ascii '0' then
        if (mark = ascii 'x' ∨ mark = ascii 'X') ∧ isxdigit digit then (16, digit :: rest)
        else (8, zero :: mark :: digit :: rest)
      else (10, zero :: mark :: digit :: rest)
  | zero :: rest => if zero = ascii '0' then (8, zero :: rest) else (10, zero :: rest)
  | [] => (10, [])

def isDigitOf (base : Nat) (byte : Byte) : Bool :=
  isxdigit byte && hexValue byte < base

/-- `strtoul(text, &end, 0)` for an `unsigned long` of some width, with the text from `end` on. -/
def strtoul (width : Nat) (text : List Byte) : BitVec width × List Byte :=
  let (negative, number) := scanSign (text.dropWhile isspace)
  let (base, number) := numberBase number
  let digits := number.takeWhile (isDigitOf base)
  if digits = [] then (0, text)
  else
    let value := digits.foldl (fun value digit => base * value + hexValue digit) 0
    (if 2 ^ width ≤ value then BitVec.allOnes width
      else if negative then -BitVec.ofNat width value
      else BitVec.ofNat width value,
      number.dropWhile (isDigitOf base))

end Bases

end Gfiber.Lib
