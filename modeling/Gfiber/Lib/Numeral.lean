import Gfiber.Lib.Double
import Gfiber.Lib.Text
import Gfiber.Lib.Word

/-! Numbers in texts as Python reads and prints them. -/

set_option autoImplicit false

namespace Gfiber.Lib

/-- A finite binary64 number. Zero has a sign. -/
structure Double where
  negative : Bool
  magnitude : Rat
deriving DecidableEq, Repr

namespace Double

def value (number : Double) : Rat :=
  if number.negative then -number.magnitude else number.magnitude

def neg (number : Double) : Double :=
  { number with negative := !number.negative }

end Double

section Reading

def digitsValue (digits : Text) : Nat :=
  digits.foldl (fun value digit => value * 10 + (digit.toNat - 48)) 0

def splitSign : Text → Bool × Text
  | '-' :: rest => (true, rest)
  | '+' :: rest => (false, rest)
  | text => (false, text)

def parseSigned (text : Text) : Option Int :=
  let (negative, digits) := splitSign text
  if digits ≠ [] ∧ digits.all Text.isDigit then
    some (if negative then -digitsValue digits else digitsValue digits)
  else none

/-- `int(text)`. -/
def parseInt (text : Text) : Option Int :=
  parseSigned (Text.strip text)

/-- The exponent at the end of a number, which may be left out. -/
def parseExponent : Text → Option Int
  | [] => some 0
  | mark :: text => if mark = 'e' ∨ mark = 'E' then parseSigned text else none

/-- The digits of the fraction, if there is a point, and what follows them. -/
def splitFraction : Text → Text × Text
  | '.' :: rest => (rest.takeWhile Text.isDigit, rest.dropWhile Text.isDigit)
  | rest => ([], rest)

/-- `float(text)` for a finite number in decimal. -/
def parseFloat (text : Text) : Option Double := do
  let (negative, text) := splitSign (Text.strip text)
  let whole := text.takeWhile Text.isDigit
  let (fraction, rest) := splitFraction (text.dropWhile Text.isDigit)
  let exponent ← parseExponent rest
  let value : Rat := digitsValue (whole ++ fraction) * (10 : Rat) ^ (exponent - fraction.length)
  if whole ++ fraction = [] then none else some ⟨negative, roundDouble value⟩

/-- A number as a column, which has no blank in it. -/
structure FloatColumn where
  text : Text
  number : Double
  solid : ∀ char ∈ text, Text.isSpace char = false
  parsed : parseFloat text = some number

end Reading

section Printing

/-- A number in hundredths, to which it is rounded. -/
def hundredths (value : Rat) : Int :=
  roundHalfEven (value * 100)

/-- `'%d' % value`. -/
def printDecimal (value : Int) : Text :=
  (if value < 0 then ['-'] else []) ++ Nat.toDigits 10 value.natAbs

/-- `'%.2f' % number`. -/
def printFixed (number : Double) : Text :=
  let units := (hundredths number.magnitude).toNat
  (if number.negative then ['-'] else []) ++ Nat.toDigits 10 (units / 100) ++
    ['.', Nat.digitChar (units / 10 % 10), Nat.digitChar (units % 10)]

/-- `'%02x' % octet`. -/
def printOctet (octet : Byte) : Text :=
  [Nat.digitChar (octet.toNat / 16), Nat.digitChar (octet.toNat % 16)]

/-- Octets with a colon between any two, as addresses are written. -/
def printOctets : List Byte → Text
  | [] => []
  | [octet] => printOctet octet
  | octet :: next :: octets => printOctet octet ++ ':' :: printOctets (next :: octets)

theorem printOctet_injective : Function.Injective printOctet := by
  intro first second same
  have digits : ∀ left < 16, ∀ right < 16,
      Nat.digitChar left = Nat.digitChar right → left = right := by
    decide
  have bounds := And.intro first.isLt second.isLt
  obtain ⟨high, rest⟩ := List.cons.inj same
  have high := digits _ (by omega) _ (by omega) high
  have low := digits _ (by omega) _ (by omega) (List.cons.inj rest).1
  apply BitVec.eq_of_toNat_eq
  omega

theorem printOctets_injective : Function.Injective printOctets := by
  intro first second same
  induction first using printOctets.induct generalizing second with
  | case1 =>
      cases second with
      | nil => rfl
      | cons octet octets => cases octets <;> cases same
  | case2 octet =>
      match second with
      | [] => cases same
      | [other] => rw [printOctet_injective same]
      | other :: next :: others => cases (List.cons.inj (List.cons.inj same).2).2
  | case3 octet next octets ih =>
      match second with
      | [] => cases same
      | [other] => cases (List.cons.inj (List.cons.inj same).2).2
      | other :: following :: others =>
          obtain ⟨here, rest⟩ := List.append_inj same rfl
          rw [printOctet_injective here, ih (List.cons.inj rest).2]

end Printing

section Digits

theorem isDigit_toDigits (value : Nat) : ∀ char ∈ Nat.toDigits 10 value, Text.isDigit char := by
  intro char member
  have digit : char.isDigit := Nat.isDigit_of_mem_toDigits (by decide) (by decide) member
  obtain ⟨low, high⟩ := Char.isDigit_iff_toNat.mp digit
  rw [Text.isDigit, decide_eq_true_iff]
  exact ⟨low, high⟩

theorem digitsValue_toDigits (value : Nat) : digitsValue (Nat.toDigits 10 value) = value := by
  calc (Nat.toDigits 10 value).foldl (fun total char => total * 10 + (char.toNat - 48)) 0
      = Nat.ofDigitChars 10 (Nat.toDigits 10 value) 0 := by
        apply List.foldl_ext
        intro total char _
        rw [Nat.mul_comm]
        rfl
    _ = value := Nat.ofDigitChars_ten_toDigits

theorem digit_plain_char {char : Char} (digit : Text.isDigit char) :
    char ≠ '-' ∧ char ≠ '+' ∧ Text.isSpace char = false := by
  refine ⟨?_, ?_, ?_⟩
  · rintro rfl
    exact absurd digit (by decide)
  · rintro rfl
    exact absurd digit (by decide)
  · exact Text.solid_of_class (by decide) digit

theorem splitSign_digits {digits : Text} (all : ∀ char ∈ digits, Text.isDigit char) :
    splitSign digits = (false, digits) := by
  match digits with
  | [] => rfl
  | first :: rest =>
      obtain ⟨minus, plus, _⟩ := digit_plain_char (all first List.mem_cons_self)
      rw [splitSign]
      · exact fun _ same => minus (List.cons.inj same).1
      · exact fun _ same => plus (List.cons.inj same).1

theorem parseSigned_digits {digits : Text} (some_digit : digits ≠ [])
    (all : ∀ char ∈ digits, Text.isDigit char) :
    parseSigned digits = some (digitsValue digits : Int) := by
  have accepted : digits ≠ [] ∧ digits.all Text.isDigit := ⟨some_digit, List.all_eq_true.mpr all⟩
  simp only [parseSigned, splitSign_digits all]
  rw [if_pos accepted, if_neg Bool.false_ne_true]

theorem printDecimal_natCast (value : Nat) : printDecimal value = Nat.toDigits 10 value := by
  rw [printDecimal, if_neg (by omega), Int.natAbs_natCast, List.nil_append]

theorem isDigit_digitChar {digit : Nat} (small : digit < 10) :
    Text.isDigit (Nat.digitChar digit) := by
  have every : ∀ digit : Fin 10, Text.isDigit (Nat.digitChar digit) := by decide
  exact every ⟨digit, small⟩

theorem printFixed_solid (number : Double) :
    printFixed number ≠ [] ∧ ∀ char ∈ printFixed number, Text.isSpace char = false := by
  have solid {char : Char} (digit : Text.isDigit char) : Text.isSpace char = false :=
    (digit_plain_char digit).2.2
  refine ⟨by simp [printFixed], ?_⟩
  intro char member
  simp only [printFixed, List.mem_append, List.mem_cons, List.not_mem_nil, or_false] at member
  rcases member with (sign | whole) | rfl | rfl | rfl
  · split at sign
    · rw [List.mem_singleton.mp sign]
      decide
    · cases sign
  · exact solid (isDigit_toDigits _ _ whole)
  · decide
  · exact solid (isDigit_digitChar (Nat.mod_lt _ (by decide)))
  · exact solid (isDigit_digitChar (Nat.mod_lt _ (by decide)))

theorem parseInt_toDigits (value : Nat) : parseInt (Nat.toDigits 10 value) = some (value : Int) := by
  have digits := isDigit_toDigits value
  have whole : Text.strip (Nat.toDigits 10 value) = Nat.toDigits 10 value :=
    Text.strip_solid fun char member => (digit_plain_char (digits char member)).2.2
  rw [parseInt, whole, parseSigned_digits Nat.toDigits_ne_nil digits, digitsValue_toDigits]

end Digits

example : (parseFloat "56.50".toList).map Double.value = some (113 / 2) := by decide +kernel
example : printFixed ⟨true, 113 / 2⟩ = "-56.50".toList := by decide +kernel

end Gfiber.Lib
