import Mathlib.Data.List.TakeWhile
import Gfiber.Lib.Memory
import Gfiber.Lib.Word

/-! Characters and strings as the C library treats them in the C locale. -/

set_option autoImplicit false

namespace Gfiber.Lib

def ascii (char : Char) : Byte :=
  BitVec.ofNat 8 char.toNat

def bytesOf (text : String) : List Byte :=
  text.toList.map ascii

def between (low high : Char) (byte : Byte) : Bool :=
  ascii low ≤ byte && byte ≤ ascii high

def isdigit (byte : Byte) : Bool :=
  between '0' '9' byte

def isxdigit (byte : Byte) : Bool :=
  isdigit byte || between 'a' 'f' byte || between 'A' 'F' byte

def isalpha (byte : Byte) : Bool :=
  between 'a' 'z' byte || between 'A' 'Z' byte

def isalnum (byte : Byte) : Bool :=
  isalpha byte || isdigit byte

def isupper (byte : Byte) : Bool :=
  between 'A' 'Z' byte

def isspace (byte : Byte) : Bool :=
  byte = ascii ' ' || between '\t' '\r' byte

section Searching

/-- A search may run out of the bytes that can be read. -/
inductive Search (Value : Type) where
  | found (value : Value)
  | missing
  | overrun
deriving DecidableEq, Repr

def Search.bind {Value Other : Type} :
    Search Value → (Value → Search Other) → Search Other
  | .found value, next => next value
  | .missing, _ => .missing
  | .overrun, _ => .overrun

instance : Monad Search where
  pure := .found
  bind := .bind

/-- Where the byte is: the bytes from there on. -/
def strchr (wanted : Byte) : List Byte → Search (List Byte)
  | [] => .overrun
  | byte :: rest =>
      if byte = wanted then .found (byte :: rest)
      else if byte = 0 then .missing
      else strchr wanted rest

def strstr (text needle : List Byte) : Bool :=
  text.tails.any fun rest => needle.isPrefixOf rest

theorem strchr_append {wanted : Byte} {before rest : List Byte}
    (absent : wanted ∉ before) (unterminated : 0 ∉ before) :
    strchr wanted (before ++ wanted :: rest) = .found (wanted :: rest) := by
  induction before with
  | nil => simp [strchr]
  | cons byte before ih =>
      simp only [List.mem_cons, not_or] at absent unterminated
      rw [List.cons_append, strchr, if_neg (Ne.symm absent.1), if_neg (Ne.symm unterminated.1)]
      exact ih absent.2 unterminated.2

theorem strchr_found {wanted : Byte} {line rest : List Byte} (found : strchr wanted line = .found rest) :
    ∃ before behind, rest = wanted :: behind ∧ line = before ++ wanted :: behind ∧
      wanted ∉ before ∧ 0 ∉ before := by
  induction line with
  | nil => cases found
  | cons byte line ih =>
      unfold strchr at found
      split at found
      case isTrue same =>
        cases found
        exact ⟨[], line, by rw [same], by rw [same]; rfl, List.not_mem_nil, List.not_mem_nil⟩
      case isFalse other =>
        split at found
        case isTrue => cases found
        case isFalse nonzero =>
          obtain ⟨before, behind, same, whole, absent, unterminated⟩ := ih found
          refine ⟨byte :: before, behind, same, by rw [whole, List.cons_append], ?_, ?_⟩
          · rw [List.mem_cons, not_or]
            exact ⟨Ne.symm other, absent⟩
          · rw [List.mem_cons, not_or]
            exact ⟨Ne.symm nonzero, unterminated⟩

end Searching

section Scanning

variable {Element : Type} {inside : Element → Bool}

theorem takeWhile_append_stop {before rest : List Element} {stop : Element}
    (outside : inside stop = false) :
    (before ++ stop :: rest).takeWhile inside = before.takeWhile inside := by
  induction before with
  | nil => simp [outside]
  | cons element before ih =>
      simp only [List.cons_append, List.takeWhile_cons]
      split
      · rw [ih]
      · rfl

theorem dropWhile_append_stop {before rest : List Element} {stop : Element}
    (outside : inside stop = false) :
    (before ++ stop :: rest).dropWhile inside = before.dropWhile inside ++ stop :: rest := by
  induction before with
  | nil => simp [outside]
  | cons element before ih =>
      simp only [List.cons_append, List.dropWhile_cons]
      split
      · exact ih
      · rfl

/-- The text ends, or goes on with an element outside of a class. -/
def Stops (inside : Element → Bool) (rest : List Element) : Prop :=
  ∀ element ∈ rest.head?, inside element = false

theorem Stops.split {text rest : List Element} (stops : Stops inside rest)
    (all : ∀ element ∈ text, inside element) :
    (text ++ rest).takeWhile inside = text ∧ (text ++ rest).dropWhile inside = rest := by
  rw [List.takeWhile_append_of_pos all, List.dropWhile_append_of_pos all]
  cases rest with
  | nil => simp
  | cons element rest =>
      have outside : inside element = false := stops element rfl
      simp [outside]

theorem Stops.append {left right : List Element} (first : Stops inside left)
    (next : Stops inside right) : Stops inside (left ++ right) := by
  cases left with
  | nil => exact next
  | cons element left => exact first

end Scanning

section Numbers

def decimal (digits : List Byte) : Nat :=
  digits.foldl (fun value digit => value * 10 + (digit - ascii '0').toNat) 0

/-- An optional sign after blanks, and the digits after it. -/
def signedDigits (text : List Byte) : Bool × List Byte :=
  let text := text.dropWhile isspace
  match text with
  | [] => (false, [])
  | first :: rest =>
      if first = ascii '-' then (true, rest.takeWhile isdigit)
      else if first = ascii '+' then (false, rest.takeWhile isdigit)
      else (false, text.takeWhile isdigit)

/-- Too large a number is read as the largest one. -/
def strtoull (text : List Byte) : Word64 :=
  let (negative, digits) := signedDigits text
  let value := decimal digits
  if 2 ^ 64 ≤ value then BitVec.allOnes 64
  else if negative then -BitVec.ofNat 64 value
  else BitVec.ofNat 64 value

/-- `(int) strtol(text, NULL, 10)`, for a `long` of 64 bits. -/
def atoi (text : List Byte) : Word :=
  let (negative, digits) := signedDigits text
  let value : Int := if negative then -decimal digits else decimal digits
  BitVec.ofInt 32 (max (-2 ^ 63) (min value (2 ^ 63 - 1)))

/-- A number ends at a byte that is no part of one. -/
theorem signedDigits_append {before rest : List Byte} {stop : Byte}
    (space : isspace stop = false) (digit : isdigit stop = false)
    (sign : stop ≠ ascii '-' ∧ stop ≠ ascii '+') :
    signedDigits (before ++ stop :: rest) = signedDigits before := by
  simp only [signedDigits, dropWhile_append_stop space]
  cases before.dropWhile isspace with
  | nil => simp [sign.1, sign.2, digit]
  | cons first before =>
      simp only [List.cons_append, takeWhile_append_stop digit]
      rw [← List.cons_append, takeWhile_append_stop digit]

theorem digit_plain {byte : Byte} (digit : isdigit byte) :
    isspace byte = false ∧ byte ≠ ascii '-' ∧ byte ≠ ascii '+' := by
  revert byte
  decide +kernel

theorem signedDigits_digits {digits : List Byte} (all : ∀ byte ∈ digits, isdigit byte) :
    signedDigits digits = (false, digits) := by
  cases digits with
  | nil => rfl
  | cons first rest =>
      obtain ⟨space, minus, plus⟩ := digit_plain (all first List.mem_cons_self)
      have whole : (first :: rest).takeWhile isdigit = first :: rest :=
        List.takeWhile_eq_self_iff.mpr all
      simp only [signedDigits, List.dropWhile_cons, space, Bool.false_eq_true, if_false,
        if_neg minus, if_neg plus, whole]

end Numbers

section Printing

def printNat (value : Nat) : List Byte :=
  (Nat.toDigits 10 value).map ascii

def printInt (value : Int) : List Byte :=
  if value < 0 then ascii '-' :: printNat value.natAbs else printNat value.natAbs

def pad (width : Nat) (fill : Char) (text : List Byte) : List Byte :=
  List.replicate (width - text.length) (ascii fill) ++ text

theorem isdigit_ascii {char : Char} (digit : char.isDigit) :
    isdigit (ascii char) ∧ (ascii char - ascii '0').toNat = char.toNat - 48 := by
  obtain ⟨low, high⟩ := Char.isDigit_iff_toNat.mp digit
  have zero : ascii '0' = 48 := by decide
  have nine : ascii '9' = 57 := by decide
  have value : (ascii char).toNat = char.toNat := by
    rw [ascii, BitVec.toNat_ofNat, Nat.mod_eq_of_lt]
    exact high.trans_lt (by decide)
  change 48 ≤ char.toNat at low
  change char.toNat ≤ 57 at high
  constructor
  · simp only [isdigit, between, zero, nine, BitVec.le_def, value]
    simp [low, high]
  · have plain : (48 : Byte).toNat = 48 := rfl
    rw [zero, BitVec.toNat_sub, value, plain]
    omega

theorem isdigit_printNat (value : Nat) : ∀ byte ∈ printNat value, isdigit byte := by
  intro byte member
  obtain ⟨char, found, rfl⟩ := List.mem_map.mp member
  exact (isdigit_ascii (Nat.isDigit_of_mem_toDigits (by decide) (by decide) found)).1

theorem decimal_printNat (value : Nat) : decimal (printNat value) = value := by
  have digits : ∀ char ∈ Nat.toDigits 10 value, char.isDigit := fun char found =>
    Nat.isDigit_of_mem_toDigits (by decide) (by decide) found
  rw [decimal, printNat, List.foldl_map]
  calc (Nat.toDigits 10 value).foldl
        (fun total char => total * 10 + (ascii char - ascii '0').toNat) 0
      = Nat.ofDigitChars 10 (Nat.toDigits 10 value) 0 := by
        apply List.foldl_ext
        intro total char found
        rw [(isdigit_ascii (digits char found)).2, Nat.mul_comm]
        rfl
    _ = value := Nat.ofDigitChars_ten_toDigits

end Printing

end Gfiber.Lib
