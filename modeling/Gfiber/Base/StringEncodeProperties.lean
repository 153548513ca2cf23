import Gfiber.Base.StringEncode

/-! What is read back from a coded text, for buffers of any length. -/

set_option autoImplicit false

namespace Gfiber.Base

open Lib Escaping

section Reading

theorem hexDigits_eq : hexDigits = [0x30, 0x31, 0x32, 0x33, 0x34, 0x35, 0x36, 0x37, 0x38, 0x39,
    0x61, 0x62, 0x63, 0x64, 0x65, 0x66] := by
  rfl

theorem low_half (val : Byte) : ∃ digit : Fin 16, val &&& 0xF = BitVec.ofNat 8 digit := by
  have inside : (val &&& 0xF).toNat < 16 := by
    rw [BitVec.toNat_and]
    exact Nat.lt_of_le_of_lt Nat.and_le_right (by decide)
  exact ⟨⟨_, inside⟩, BitVec.eq_of_toNat_eq (by simp)⟩

theorem hexDecodeDigit_hexEncodeDigit (val : Byte) :
    hexDecodeDigit (hexEncodeDigit (val &&& 0xF)) = some (val &&& 0xF) := by
  have every : ∀ digit : Fin 16, hexDecodeDigit (hexEncodeDigit (BitVec.ofNat 8 digit)) =
      some (BitVec.ofNat 8 digit) := by
    unfold hexEncodeDigit
    rw [hexDigits_eq]
    decide
  obtain ⟨digit, shown⟩ := low_half val
  rw [shown]
  exact every digit

theorem hexDecodePair_hexPair (ch : Byte) (rest : List Byte) :
    hexDecodePair (hexPair ch ++ rest) = some ch := by
  have joined : ∀ ch : Byte, ((ch >>> 4) &&& 0xF) <<< 4 ||| (ch &&& 0xF) = ch := by
    decide +kernel
  unfold hexPair hexDecodePair
  rw [List.cons_append, List.cons_append]
  dsimp only
  rw [hexDecodeDigit_hexEncodeDigit, hexDecodeDigit_hexEncodeDigit]
  exact congrArg some (joined ch)

theorem hex_reads : Reads hexDecodeNext hexPair fun ch => [ch] := by
  intro ch
  refine ⟨_, _, rfl, fun rest => ?_⟩
  exact congrArg (Option.map _) (hexDecodePair_hexPair ch rest)

theorem ne_escape_of_legal {illegal : List Byte} {escapeChar ch : Byte}
    (legal : ¬isIllegal illegal escapeChar ch) : ch ≠ escapeChar := by
  rintro rfl
  simp [isIllegal] at legal

theorem escape_reads (illegal : List Byte) (escapeChar : Byte) :
    Reads (unescapeNext escapeChar) (escapeCode illegal escapeChar) fun ch => [ch] := by
  intro ch
  unfold ReadsValue escapeCode
  split
  case isTrue => exact ⟨escapeChar, [ch], rfl, fun rest => if_pos rfl⟩
  case isFalse legal =>
    refine ⟨ch, [], rfl, fun rest => ?_⟩
    cases rest with
    | nil => rfl
    | cons next rest => exact if_neg (ne_escape_of_legal legal)

theorem decodeNext_hexPair (escapeChar ch : Byte) (rest : List Byte) :
    decodeNext escapeChar escapeChar (hexPair ch ++ rest) = some ([ch], 2) := by
  unfold decodeNext
  rw [if_pos rfl, hexDecodePair_hexPair]

theorem encode_reads (illegal : List Byte) (escapeChar : Byte) :
    Reads (decodeNext escapeChar) (encodeCode illegal escapeChar) fun ch => [ch] := by
  intro ch
  unfold ReadsValue encodeCode
  split
  case isTrue => exact ⟨escapeChar, hexPair ch, rfl, decodeNext_hexPair escapeChar ch⟩
  case isFalse legal => exact ⟨ch, [], rfl, fun rest => if_neg (ne_escape_of_legal legal)⟩

theorem url_reads : Reads urlDecodeNext urlCode fun ch => [ch] := by
  have percent : ascii '%' ≠ ascii '+' := by decide
  intro ch
  unfold ReadsValue urlCode
  split
  case isTrue =>
    refine ⟨ascii '%', hexPair ch, rfl, fun rest => ?_⟩
    unfold urlDecodeNext
    rw [if_neg percent]
    exact decodeNext_hexPair _ ch rest
  case isFalse plain =>
    have plus : ch ≠ ascii '+' := by
      rintro rfl
      exact plain rfl
    have other : ch ≠ ascii '%' := by
      rintro rfl
      exact plain rfl
    refine ⟨ch, [], rfl, fun rest => ?_⟩
    unfold urlDecodeNext decodeNext
    rw [if_neg plus, if_neg other]
    rfl

theorem mem_asciiClass {mask : Nat} {ch : Byte} (marked : inClass mask ch) :
    ∃ entry ∈ asciiClass.zipIdx, ch = BitVec.ofNat 8 entry.2 ∧ entry.1 &&& mask ≠ 0 := by
  unfold inClass at marked
  rw [List.getD_eq_getElem?_getD] at marked
  cases found : asciiClass[ch.toNat]? with
  | none => simp [found] at marked
  | some bits =>
      refine ⟨(bits, ch.toNat), List.mk_mem_zipIdx_iff_getElem?.mpr found,
        BitVec.eq_of_toNat_eq (by simp), ?_⟩
      simpa [found] using marked

/-- The table marks exactly the five characters that have a name. -/
theorem xmlCode_class (ch : Byte) : inClass xmlUnsafe ch ↔
    ch ∈ [ascii '<', ascii '>', ascii '\'', ascii '"', ascii '&'] := by
  have marked : ∀ entry ∈ asciiClass.zipIdx, entry.1 &&& xmlUnsafe ≠ 0 →
      BitVec.ofNat 8 entry.2 ∈
        [ascii '<', ascii '>', ascii '\'', ascii '"', ascii '&'] := by
    decide +kernel
  constructor
  · intro unsafeChar
    obtain ⟨entry, listed, same, bits⟩ := mem_asciiClass unsafeChar
    rw [same]
    exact marked entry listed bits
  · intro named
    simp only [List.mem_cons, List.not_mem_nil, or_false] at named
    rcases named with rfl | rfl | rfl | rfl | rfl
    all_goals rfl

theorem xml_reads (longWidth : Nat) : Reads (xmlDecodeNext longWidth) xmlCode fun ch => [ch] := by
  intro ch
  by_cases unsafeChar : inClass xmlUnsafe ch
  · have named := (xmlCode_class ch).mp unsafeChar
    simp only [List.mem_cons, List.not_mem_nil, or_false] at named
    rcases named with rfl | rfl | rfl | rfl | rfl
    · exact ⟨ascii '&', bytesOf "lt;", rfl, fun rest => rfl⟩
    · exact ⟨ascii '&', bytesOf "gt;", rfl, fun rest => rfl⟩
    · exact ⟨ascii '&', bytesOf "apos;", rfl, fun rest => rfl⟩
    · exact ⟨ascii '&', bytesOf "quot;", rfl, fun rest => rfl⟩
    · exact ⟨ascii '&', bytesOf "amp;", rfl, fun rest => rfl⟩
  · have other : ch ≠ ascii '&' := by
      rintro rfl
      exact unsafeChar rfl
    unfold ReadsValue xmlCode
    rw [if_neg unsafeChar]
    exact ⟨ch, [], rfl, fun rest => if_pos other⟩

end Reading

section RoundTrip

theorem hexEncode_eq (buflen : Nat) (source : List Byte) : hexEncode buflen source =
    (source.take (fitting hexPair (buflen - 1) source)).flatMap hexPair := by
  have uniform : ∀ ch : Byte, (hexPair ch).length = 2 := fun _ => rfl
  rw [fitting_uniform (by decide) uniform]
  rfl

/-- Each pair of codings reads back the longest part of a text that both buffers
have room for. -/
theorem codings_round_trip (longWidth : Nat) :
    RoundTrips hexPair hexEncode hexDecode ∧
    (∀ illegal escapeChar, RoundTrips (escapeCode illegal escapeChar)
      (escape illegal escapeChar) (unescape escapeChar)) ∧
    (∀ illegal escapeChar, RoundTrips (encodeCode illegal escapeChar)
      (encode illegal escapeChar) (decode escapeChar)) ∧
    RoundTrips urlCode urlEncode urlDecode ∧
    RoundTrips xmlCode xmlEncode (xmlDecode longWidth) := by
  refine ⟨?_, fun illegal escapeChar => ?_, fun illegal escapeChar => ?_, ?_, ?_⟩
  · exact roundTrips hex_reads hexEncode_eq fun _ _ => rfl
  · have reads := escape_reads illegal escapeChar
    exact roundTrips reads (fun buflen => encodeFrom_eq reads.code_ne_nil buflen 0) fun _ _ => rfl
  · have reads := encode_reads illegal escapeChar
    exact roundTrips reads (fun buflen => encodeFrom_eq reads.code_ne_nil buflen 0) fun _ _ => rfl
  · exact roundTrips url_reads (fun buflen => encodeFrom_eq url_reads.code_ne_nil buflen 0)
      fun _ _ => rfl
  · have reads := xml_reads longWidth
    exact roundTrips reads (fun buflen => encodeFrom_eq reads.code_ne_nil buflen 0) fun _ _ => rfl

end RoundTrip

section Utf8

/-- The bytes of a value, none for one that is too large. -/
def utf8Bytes (value : Nat) : List Byte :=
  (utf8Encode value).getD []

theorem trailer_bits (value : Nat) : isTrailer (trailByte value) = true ∧
    (trailByte value).toNat &&& 0x3F = value &&& 0x3F := by
  have every : ∀ bits : Fin 64, isTrailer ((0x80 : Byte) ||| BitVec.ofNat 8 bits) = true ∧
      ((0x80 : Byte) ||| BitVec.ofNat 8 bits).toNat &&& 0x3F = bits := by
    decide
  have small : value &&& 0x3F < 64 := Nat.lt_succ_of_le Nat.and_le_right
  exact every ⟨value &&& 0x3F, small⟩

theorem lead_two {value : Nat} (small : value < 32) :
    (leadByte 0xC0 value).toNat &&& 0x80 ≠ 0x00 ∧
      (leadByte 0xC0 value).toNat &&& 0xE0 = 0xC0 ∧
      (leadByte 0xC0 value).toNat &&& 0x1F = value := by
  have every : ∀ value : Fin 32,
      (leadByte 0xC0 value).toNat &&& 0x80 ≠ 0x00 ∧
      (leadByte 0xC0 value).toNat &&& 0xE0 = 0xC0 ∧
      (leadByte 0xC0 value).toNat &&& 0x1F = value := by
    decide
  exact every ⟨value, small⟩

theorem lead_three {value : Nat} (small : value < 16) :
    (leadByte 0xE0 value).toNat &&& 0x80 ≠ 0x00 ∧
      (leadByte 0xE0 value).toNat &&& 0xE0 ≠ 0xC0 ∧
      (leadByte 0xE0 value).toNat &&& 0xF0 = 0xE0 ∧
      (leadByte 0xE0 value).toNat &&& 0x0F = value := by
  have every : ∀ value : Fin 16,
      (leadByte 0xE0 value).toNat &&& 0x80 ≠ 0x00 ∧
      (leadByte 0xE0 value).toNat &&& 0xE0 ≠ 0xC0 ∧
      (leadByte 0xE0 value).toNat &&& 0xF0 = 0xE0 ∧
      (leadByte 0xE0 value).toNat &&& 0x0F = value := by
    decide
  exact every ⟨value, small⟩

theorem lead_four {value : Nat} (small : value < 8) :
    (leadByte 0xF0 value).toNat &&& 0x80 ≠ 0x00 ∧
      (leadByte 0xF0 value).toNat &&& 0xE0 ≠ 0xC0 ∧
      (leadByte 0xF0 value).toNat &&& 0xF0 ≠ 0xE0 ∧
      (leadByte 0xF0 value).toNat &&& 0xF8 = 0xF0 ∧
      (leadByte 0xF0 value).toNat &&& 0x07 = value := by
  have every : ∀ value : Fin 8,
      (leadByte 0xF0 value).toNat &&& 0x80 ≠ 0x00 ∧
      (leadByte 0xF0 value).toNat &&& 0xE0 ≠ 0xC0 ∧
      (leadByte 0xF0 value).toNat &&& 0xF0 ≠ 0xE0 ∧
      (leadByte 0xF0 value).toNat &&& 0xF8 = 0xF0 ∧
      (leadByte 0xF0 value).toNat &&& 0x07 = value := by
    decide
  exact every ⟨value, small⟩

theorem leadByte_large {mark : Byte} (large : 128 ≤ mark.toNat) (bits : Nat) :
    128 ≤ (leadByte mark bits).toNat := by
  unfold leadByte
  rw [BitVec.toNat_or]
  exact large.trans Nat.left_le_or

/-- High bits and low bits that are put together again. -/
theorem joined (value width : Nat) :
    (value >>> width) <<< width ||| value % 2 ^ width = value := by
  have low : value % 2 ^ width < 2 ^ width := Nat.mod_lt _ (Nat.two_pow_pos width)
  rw [← Nat.shiftLeft_add_eq_or_of_lt low, Nat.shiftLeft_eq, Nat.shiftRight_eq_div_pow,
    Nat.div_add_mod']

theorem low_bits (value : Nat) : value &&& 0x3F = value % 2 ^ 6 :=
  Nat.and_two_pow_sub_one_eq_mod value 6

theorem shifted (value width : Nat) : value >>> width = value / 2 ^ width :=
  Nat.shiftRight_eq_div_pow ..

section Sequences

variable {s0 s1 s2 s3 : Byte} {rest : List Byte} (many : s0.toNat &&& 0x80 ≠ 0x00)
  (first : isTrailer s1)
include many first

theorem utf8Decode_two (lead : s0.toNat &&& 0xE0 = 0xC0) : utf8Decode (s0 :: s1 :: rest) =
    some ((s0.toNat &&& 0x1F) <<< 6 ||| (s1.toNat &&& 0x3F), 2) := by
  unfold utf8Decode
  simp [many, first, lead]

theorem utf8Decode_three (second : isTrailer s2) (longer : s0.toNat &&& 0xE0 ≠ 0xC0)
    (lead : s0.toNat &&& 0xF0 = 0xE0) : utf8Decode (s0 :: s1 :: s2 :: rest) =
    some ((s0.toNat &&& 0x0F) <<< 12 ||| ((s1.toNat &&& 0x3F) <<< 6 ||| (s2.toNat &&& 0x3F)), 3) := by
  unfold utf8Decode
  simp [many, first, second, longer, lead]

theorem utf8Decode_four (second : isTrailer s2) (third : isTrailer s3)
    (longer : s0.toNat &&& 0xE0 ≠ 0xC0) (longest : s0.toNat &&& 0xF0 ≠ 0xE0)
    (lead : s0.toNat &&& 0xF8 = 0xF0) : utf8Decode (s0 :: s1 :: s2 :: s3 :: rest) =
    some ((s0.toNat &&& 0x07) <<< 18 |||
      (((s1.toNat &&& 0x3F) <<< 6 ||| (s2.toNat &&& 0x3F)) <<< 6 ||| (s3.toNat &&& 0x3F)), 4) := by
  unfold utf8Decode
  simp [many, first, second, third, longer, longest, lead]

end Sequences

/-- The lowest bits in pieces of six. -/
theorem joined_two (value : Nat) :
    ((value >>> 6) &&& 0x3F) <<< 6 ||| (value &&& 0x3F) = value % 2 ^ 12 := by
  have high : (value >>> 6) &&& 0x3F = (value % 2 ^ 12) >>> 6 := by
    rw [low_bits, shifted, shifted]
    omega
  have low : value &&& 0x3F = value % 2 ^ 12 % 2 ^ 6 := by
    rw [low_bits]
    omega
  rw [high, low, joined]

theorem joined_three (value : Nat) :
    (((value >>> 12) &&& 0x3F) <<< 6 ||| ((value >>> 6) &&& 0x3F)) <<< 6 ||| (value &&& 0x3F) =
      value % 2 ^ 18 := by
  have high : ((value >>> 12) &&& 0x3F) <<< 6 ||| ((value >>> 6) &&& 0x3F) =
      (value % 2 ^ 18) >>> 6 := by
    have next : value >>> 12 = value >>> 6 >>> 6 := by
      rw [shifted, shifted, shifted]
      omega
    rw [next, joined_two, shifted, shifted]
    omega
  have low : value &&& 0x3F = value % 2 ^ 18 % 2 ^ 6 := by
    rw [low_bits]
    omega
  rw [high, low, joined]

/-- A value of more than seven bits is read as it was written, whatever follows. -/
theorem utf8Decode_utf8Bytes {value : Nat} (multi : 0x7F < value) (valid : value ≤ 0x1FFFFF)
    (rest : List Byte) : utf8Decode (utf8Bytes value ++ rest) =
      some (value, (utf8Bytes value).length) := by
  obtain ⟨last, lastBits⟩ := trailer_bits value
  obtain ⟨middle, middleBits⟩ := trailer_bits (value >>> 6)
  obtain ⟨first, firstBits⟩ := trailer_bits (value >>> 12)
  unfold utf8Bytes utf8Encode
  rw [if_neg (by omega)]
  split
  case isTrue two =>
    obtain ⟨many, lead, bits⟩ := lead_two (by rw [shifted]; omega : value >>> 6 < 32)
    change utf8Decode (_ :: _ :: rest) = some (value, 2)
    rw [utf8Decode_two many last lead, bits, lastBits, low_bits, joined]
  case isFalse =>
    split
    case isTrue three =>
      obtain ⟨many, longer, lead, bits⟩ := lead_three (by rw [shifted]; omega : value >>> 12 < 16)
      change utf8Decode (_ :: _ :: _ :: rest) = some (value, 3)
      rw [utf8Decode_three many middle last longer lead, bits, middleBits, lastBits, joined_two,
        joined]
    case isFalse =>
      obtain ⟨many, longer, longest, lead, bits⟩ :=
        lead_four (by rw [shifted]; omega : value >>> 18 < 8)
      change utf8Decode (_ :: _ :: _ :: _ :: rest) = some (value, 4)
      rw [utf8Decode_four many first middle last longer longest lead, bits, firstBits, middleBits,
        lastBits, joined_three, joined]

end Utf8

section Html

/-- What a value is read back as. -/
def htmlOut : HtmlValue → List Byte
  | .plain ch => [ch]
  | .numeric val => utf8Bytes val

/-- The values that a sequence or a byte can have. -/
def HtmlValue.Small : HtmlValue → Prop
  | .plain ch => ch.toNat < 128
  | .numeric val => val ≤ 0x1FFFFF

theorem hexValue_digit {byte : Byte} (digit : isdigit byte) :
    hexValue byte = (byte - ascii '0').toNat :=
  if_pos digit

theorem isDigitOf_ten {byte : Byte} (digit : isdigit byte) : isDigitOf 10 byte = true := by
  obtain ⟨low, high⟩ := isdigit_iff.mp digit
  have value : (byte - ascii '0').toNat < 10 := by
    have zero : (ascii '0').toNat = 48 := rfl
    rw [BitVec.toNat_sub, zero]
    omega
  unfold isDigitOf isxdigit
  rw [hexValue_digit digit, digit]
  simpa using value

theorem printNat_ne_nil (value : Nat) : printNat value ≠ [] := by
  unfold printNat
  simp

theorem printNat_value (value : Nat) :
    (printNat value).foldl (fun value digit => 10 * value + hexValue digit) 0 = value := by
  have same : (printNat value).foldl (fun value digit => 10 * value + hexValue digit) 0 =
      decimal (printNat value) := by
    apply List.foldl_ext
    intro total digit member
    rw [hexValue_digit (isdigit_printNat value digit member), Nat.mul_comm]
  rw [same, decimal_printNat]

theorem skipHexPrefix_ten (number : List Byte) : skipHexPrefix 10 number = number := by
  unfold skipHexPrefix
  split
  · exact if_neg fun wrong => absurd wrong.1 (by decide)
  · rfl

/-- A printed number is read up to the semicolon after it. -/
theorem strtoulBase_printNat {longWidth value : Nat} (fits : value < 2 ^ longWidth)
    (rest : List Byte) : strtoulBase longWidth 10 (printNat value ++ ascii ';' :: rest) =
      (BitVec.ofNat longWidth value, ascii ';' :: rest) := by
  have digits : ∀ byte ∈ printNat value, isDigitOf 10 byte = true := fun byte member =>
    isDigitOf_ten (isdigit_printNat value byte member)
  have stop : ¬isDigitOf 10 (ascii ';') = true := by decide
  have taken : (printNat value ++ ascii ';' :: rest).takeWhile (isDigitOf 10) = printNat value := by
    rw [List.takeWhile_append_of_pos digits, List.takeWhile_cons_of_neg stop, List.append_nil]
  have left : (printNat value ++ ascii ';' :: rest).dropWhile (isDigitOf 10) =
      ascii ';' :: rest := by
    rw [List.dropWhile_append_of_pos digits, List.dropWhile_cons_of_neg stop]
  have plain : (printNat value ++ ascii ';' :: rest).dropWhile isspace =
        printNat value ++ ascii ';' :: rest ∧
      scanSign (printNat value ++ ascii ';' :: rest) =
        (false, printNat value ++ ascii ';' :: rest) := by
    cases shown : printNat value with
    | nil => exact absurd shown (printNat_ne_nil value)
    | cons first more =>
        have member : first ∈ printNat value := by simp [shown]
        obtain ⟨space, minus, plus⟩ := digit_plain (isdigit_printNat value first member)
        simp [scanSign, space, minus, plus]
  unfold strtoulBase
  rw [plain.1, plain.2]
  dsimp only
  rw [skipHexPrefix_ten, taken, left, if_neg (printNat_ne_nil value), printNat_value,
    if_neg (Nat.not_le.mpr fits)]
  rfl

theorem utf8Encode_eq {value : Nat} (valid : value ≤ 0x1FFFFF) :
    utf8Encode value = some (utf8Bytes value) := by
  unfold utf8Bytes utf8Encode
  split
  · rfl
  split
  · rfl
  split
  · rfl
  · rfl

theorem numericNext_printNat {longWidth val : Nat} (fits : val < 2 ^ longWidth)
    (valid : val ≤ 0x1FFFFF) (rest : List Byte) :
    numericNext longWidth 10 (printNat val ++ ascii ';' :: rest) = some (utf8Bytes val, rest) := by
  unfold numericNext
  rw [strtoulBase_printNat fits]
  dsimp only
  rw [if_pos rfl, BitVec.toNat_ofNat, Nat.mod_eq_of_lt fits, utf8Encode_eq valid]
  rfl

theorem startsWith_other (name : String) {first other : Byte} {more : List Byte}
    (spelled : bytesOf name = first :: more) (differ : first ≠ other) (text : List Byte) :
    startsWith name (other :: text) = false := by
  unfold startsWith
  rw [spelled]
  simp [List.isPrefixOf, differ]

/-- A printed number is not taken for a hexadecimal one. -/
theorem startsWith_hex_printNat (val : Nat) (rest : List Byte) :
    startsWith "#x" (ascii '#' :: (printNat val ++ rest)) = false := by
  cases shown : printNat val with
  | nil => exact absurd shown (printNat_ne_nil val)
  | cons first more =>
      have digit := isdigit_printNat val first (by simp [shown])
      have other : ascii 'x' ≠ first := by
        rintro rfl
        exact absurd digit (by decide)
      exact startsWith_other "x" rfl other (more ++ rest)

/-- A reference to a small value is read as its bytes. -/
theorem numeric_reads {longWidth val : Nat} (wide : 21 ≤ longWidth) (valid : val ≤ 0x1FFFFF)
    (rest : List Byte) : xmlDecodeNext longWidth (ascii '&')
      (bytesOf "#" ++ printNat val ++ bytesOf ";" ++ rest) =
        some (utf8Bytes val, (bytesOf "#" ++ printNat val ++ bytesOf ";").length) := by
  have mark : bytesOf "#" = [ascii '#'] := rfl
  have stop : bytesOf ";" = [ascii ';'] := rfl
  have power : 2 ^ 21 ≤ 2 ^ longWidth := Nat.pow_le_pow_right (by decide) wide
  have fits : val < 2 ^ longWidth := by omega
  have whole : bytesOf "#" ++ printNat val ++ bytesOf ";" ++ rest =
      ascii '#' :: (printNat val ++ ascii ';' :: rest) := by
    rw [mark, stop]
    simp
  have length : (ascii '#' :: (printNat val ++ ascii ';' :: rest)).length - rest.length =
      (bytesOf "#" ++ printNat val ++ bytesOf ";").length := by
    simp only [List.length_cons, List.length_append, mark, stop, List.length_nil]
    omega
  rw [whole]
  unfold xmlDecodeNext
  rw [if_neg (not_not_intro rfl), startsWith_other "lt;" rfl (by decide),
    startsWith_other "gt;" rfl (by decide),
    startsWith_other "apos;" rfl (by decide),
    startsWith_other "quot;" rfl (by decide),
    startsWith_other "amp;" rfl (by decide), startsWith_hex_printNat]
  simp only [Bool.false_eq_true, if_false]
  have hash : startsWith "#" (ascii '#' :: (printNat val ++ ascii ';' :: rest)) = true := rfl
  rw [if_pos hash, List.drop_one, List.tail_cons, numericNext_printNat fits valid, Option.map_some,
    length]

theorem html_reads {longWidth : Nat} (wide : 21 ≤ longWidth) {value : HtmlValue}
    (small : value.Small) : ReadsValue (xmlDecodeNext longWidth) htmlCode htmlOut value := by
  cases value with
  | numeric val => exact ⟨ascii '&', _, rfl, numeric_reads wide small⟩
  | plain ch =>
      by_cases unsafeChar : inClass htmlUnsafe ch
      · have named := (xmlCode_class ch).mp unsafeChar
        simp only [List.mem_cons, List.not_mem_nil, or_false] at named
        rcases named with rfl | rfl | rfl | rfl | rfl
        · exact ⟨ascii '&', bytesOf "lt;", rfl, fun rest => rfl⟩
        · exact ⟨ascii '&', bytesOf "gt;", rfl, fun rest => rfl⟩
        · have reads := numeric_reads wide (by decide : 39 ≤ 0x1FFFFF)
          exact ⟨ascii '&', bytesOf "#39;", rfl, reads⟩
        · exact ⟨ascii '&', bytesOf "quot;", rfl, fun rest => rfl⟩
        · exact ⟨ascii '&', bytesOf "amp;", rfl, fun rest => rfl⟩
      · have other : ch ≠ ascii '&' := by
          rintro rfl
          exact unsafeChar rfl
        unfold ReadsValue htmlCode
        dsimp only
        rw [if_neg unsafeChar]
        exact ⟨ch, [], rfl, fun rest => if_pos other⟩

/-- How a character of a text is taken off it. -/
def htmlValue (point : Nat) : HtmlValue :=
  if point ≤ 0x7F then .plain (BitVec.ofNat 8 point) else .numeric point

theorem htmlValue_spec {point : Nat} (valid : point ≤ 0x1FFFFF) :
    (htmlValue point).Small ∧ htmlOut (htmlValue point) = utf8Bytes point := by
  unfold htmlValue
  split
  case isTrue one =>
    constructor
    · change (BitVec.ofNat 8 point).toNat < 128
      rw [BitVec.toNat_ofNat]
      omega
    · unfold utf8Bytes utf8Encode
      rw [if_pos one]
      rfl
  case isFalse => exact ⟨valid, rfl⟩

theorem utf8Bytes_lead {point : Nat} (multi : 0x7F < point) (valid : point ≤ 0x1FFFFF) :
    ∃ lead more, utf8Bytes point = lead :: more ∧ 128 ≤ lead.toNat := by
  unfold utf8Bytes utf8Encode
  rw [if_neg (by omega)]
  split
  · exact ⟨_, _, rfl, leadByte_large (by decide) _⟩
  split
  · exact ⟨_, _, rfl, leadByte_large (by decide) _⟩
  · exact ⟨_, _, rfl, leadByte_large (by decide) _⟩

theorem utf8Bytes_ne_nil {point : Nat} (valid : point ≤ 0x1FFFFF) : utf8Bytes point ≠ [] := by
  by_cases one : point ≤ 0x7F
  · unfold utf8Bytes utf8Encode
    rw [if_pos one]
    exact List.cons_ne_nil _ _
  · obtain ⟨lead, more, shown, -⟩ := utf8Bytes_lead (Nat.not_le.mp one) valid
    rw [shown]
    exact List.cons_ne_nil lead more

theorem htmlValuesFrom_skip (chunk rest : List Byte) :
    htmlValuesFrom chunk.length (chunk ++ rest) = htmlValuesFrom 0 rest := by
  induction chunk with
  | nil => rfl
  | cons byte chunk ih => exact ih

theorem htmlValuesFrom_multi {lead : Byte} {source : List Byte} {val vallen : Nat}
    (large : 128 ≤ lead.toNat) (read : utf8Decode (lead :: source) = some (val, vallen)) :
    htmlValuesFrom 0 (lead :: source) = .numeric val :: htmlValuesFrom (vallen - 1) source := by
  conv_lhs => unfold htmlValuesFrom
  rw [if_neg (Nat.not_lt.mpr large), read]

theorem htmlValuesFrom_char {point : Nat} (valid : point ≤ 0x1FFFFF) (rest : List Byte) :
    htmlValuesFrom 0 (utf8Bytes point ++ rest) = htmlValue point :: htmlValuesFrom 0 rest := by
  unfold htmlValue
  split
  case isTrue one =>
    have single : utf8Bytes point = [BitVec.ofNat 8 point] := by
      unfold utf8Bytes utf8Encode
      rw [if_pos one]
      rfl
    have low : (BitVec.ofNat 8 point).toNat < 128 := by
      rw [BitVec.toNat_ofNat]
      omega
    rw [single]
    exact if_pos low
  case isFalse multi =>
    have read := utf8Decode_utf8Bytes (Nat.not_le.mp multi) valid rest
    obtain ⟨lead, more, shown, large⟩ := utf8Bytes_lead (Nat.not_le.mp multi) valid
    rw [shown] at read ⊢
    rw [List.cons_append] at read ⊢
    rw [htmlValuesFrom_multi large read]
    exact congrArg (List.cons _) (htmlValuesFrom_skip more rest)

theorem htmlValuesFrom_text {points : List Nat} (valid : ∀ point ∈ points, point ≤ 0x1FFFFF) :
    htmlValuesFrom 0 (points.flatMap utf8Bytes) = points.map htmlValue := by
  induction points with
  | nil => rfl
  | cons point points ih =>
      obtain ⟨first, others⟩ := List.forall_mem_cons.mp valid
      rw [List.flatMap_cons, htmlValuesFrom_char first, ih others, List.map_cons]

def entityNames : List String :=
  ["lt;", "gt;", "apos;", "#39;", "quot;", "amp;"]

theorem htmlCode_named {ch : Byte} (unsafeChar : inClass htmlUnsafe ch) :
    ∃ name ∈ entityNames, htmlCode (.plain ch) = entity name := by
  have named := (xmlCode_class ch).mp unsafeChar
  simp only [List.mem_cons, List.not_mem_nil, or_false] at named
  rcases named with rfl | rfl | rfl | rfl | rfl
  · exact ⟨"lt;", by simp [entityNames], rfl⟩
  · exact ⟨"gt;", by simp [entityNames], rfl⟩
  · exact ⟨"#39;", by simp [entityNames], rfl⟩
  · exact ⟨"quot;", by simp [entityNames], rfl⟩
  · exact ⟨"amp;", by simp [entityNames], rfl⟩

theorem htmlCode_other {ch : Byte} (plain : ¬inClass htmlUnsafe ch) :
    htmlCode (.plain ch) = [ch] :=
  if_neg plain

theorem htmlCode_ne_nil (value : HtmlValue) : htmlCode value ≠ [] := by
  cases value with
  | plain ch =>
      by_cases unsafeChar : inClass htmlUnsafe ch
      · obtain ⟨name, -, coded⟩ := htmlCode_named unsafeChar
        rw [coded]
        exact List.cons_ne_nil _ _
      · rw [htmlCode_other unsafeChar]
        exact List.cons_ne_nil ch []
  | numeric val => exact List.cons_ne_nil _ _

/-- The encoder writes the references of the characters that it has room for, and
they are read back as they were. -/
theorem html_round_trip {longWidth : Nat} (wide : 32 ≤ longWidth) {points : List Nat}
    (valid : ∀ point ∈ points, point ≤ 0x1FFFFF) (buflen : Nat) {buflen' : Nat}
    (room : (points.flatMap utf8Bytes).length < buflen') : ∃ count ≤ points.length,
      (∀ other ≤ points.length, other ≤ count ↔
        ((points.take other).flatMap (htmlCode ∘ htmlValue)).length ≤ buflen - 1) ∧
      htmlEncode buflen (points.flatMap utf8Bytes) =
        (points.take count).flatMap (htmlCode ∘ htmlValue) ∧
      htmlDecode longWidth buflen' (htmlEncode buflen (points.flatMap utf8Bytes)) =
        (points.take count).flatMap utf8Bytes := by
  let count := fitting htmlCode (buflen - 1) (points.map htmlValue)
  have inside : count ≤ points.length := by
    simpa using fitting_le htmlCode (buflen - 1) (points.map htmlValue)
  have written : htmlEncode buflen (points.flatMap utf8Bytes) =
      ((points.take count).map htmlValue).flatMap htmlCode := by
    unfold htmlEncode
    rw [htmlValuesFrom_text valid, encodeFrom_eq htmlCode_ne_nil, Nat.sub_zero, List.map_take]
  refine ⟨count, inside, fun other bound => ?_, ?_, ?_⟩
  · have all : other ≤ (points.map htmlValue).length := by simpa using bound
    have longest : other ≤ count ↔ _ := le_fitting_iff all
    rwa [← List.map_take, List.flatMap_map] at longest
  · rw [written, List.flatMap_map]
    rfl
  · have reads : ∀ value ∈ (points.take count).map htmlValue,
        ReadsValue (xmlDecodeNext longWidth) htmlCode htmlOut value ∧ htmlOut value ≠ [] := by
      intro value member
      obtain ⟨point, taken, rfl⟩ := List.mem_map.mp member
      have small := valid point (List.mem_of_mem_take taken)
      obtain ⟨fits, out⟩ := htmlValue_spec small
      exact ⟨html_reads (by omega) fits, out ▸ utf8Bytes_ne_nil small⟩
    have out : ((points.take count).map htmlValue).flatMap htmlOut =
        (points.take count).flatMap utf8Bytes := by
      rw [List.flatMap_map]
      apply List.flatMap_congr
      intro point taken
      exact (htmlValue_spec (valid point (List.mem_of_mem_take taken))).2
    have shorter : ((points.take count).flatMap utf8Bytes).length ≤
        (points.flatMap utf8Bytes).length := by
      conv_rhs => rw [← List.take_append_drop count points]
      rw [List.flatMap_append, List.length_append]
      exact Nat.le_add_right _ _
    unfold htmlDecode xmlDecode
    rw [written, decodeFrom_flatMap reads (by rw [out]; omega), out]

/-- A markup character, a Greek letter and one character of four bytes, of which
the buffer has room for two. -/
theorem html_round_trip_points : ∃ count ≤ 3,
    (∀ other ≤ 3, other ≤ count ↔
      (([60, 960, 0x1F600].take other).flatMap (htmlCode ∘ htmlValue)).length ≤ 14 - 1) ∧
    htmlEncode 14 ([60, 960, 0x1F600].flatMap utf8Bytes) =
      ([60, 960, 0x1F600].take count).flatMap (htmlCode ∘ htmlValue) ∧
    htmlDecode 64 20 (htmlEncode 14 ([60, 960, 0x1F600].flatMap utf8Bytes)) =
      ([60, 960, 0x1F600].take count).flatMap utf8Bytes ∧
    htmlEncode 14 ([60, 960, 0x1F600].flatMap utf8Bytes) = bytesOf "&lt;&#960;" := by
  obtain ⟨count, inside, longest, written, back⟩ :=
    @html_round_trip 64 (by decide) [60, 960, 0x1F600] (by decide) 14 20 (by decide +kernel)
  exact ⟨count, inside, longest, written, back, by decide +kernel⟩

end Html

section Safety

/-- Characters that end or begin a part of a marked-up text. -/
def markup : List Byte :=
  [ascii '<', ascii '>', ascii '\'', ascii '"']

theorem htmlValuesFrom_plain {further : Nat} {source : List Byte} {ch : Byte}
    (taken : .plain ch ∈ htmlValuesFrom further source) : ch.toNat < 128 := by
  induction source generalizing further with
  | nil =>
      cases further <;> exact absurd taken List.not_mem_nil
  | cons first source ih =>
      cases further with
      | succ further => exact ih taken
      | zero =>
          unfold htmlValuesFrom at taken
          split at taken
          case isTrue small =>
            rcases List.mem_cons.mp taken with here | later
            · cases here
              exact small
            · exact ih later
          case isFalse =>
            split at taken
            · exact ih ((List.mem_cons.mp taken).resolve_left (by simp))
            · exact ih ((List.mem_cons.mp taken).resolve_left (by simp))

theorem entity_safe : ∀ name ∈ entityNames, ∀ ch ∈ entity name, ch.toNat < 128 ∧ ch ∉ markup := by
  simp [entityNames, entity, bytesOf, markup, ascii]

theorem plain_safe {ch : Byte} (plain : ¬inClass xmlUnsafe ch) : ch ∉ markup := by
  intro mark
  exact plain ((xmlCode_class ch).mpr (List.mem_append_left [ascii '&'] mark))

theorem xmlCode_safe {value ch : Byte} (written : ch ∈ xmlCode value) : ch ∉ markup := by
  by_cases unsafeChar : inClass xmlUnsafe value
  · have named := (xmlCode_class value).mp unsafeChar
    simp only [List.mem_cons, List.not_mem_nil, or_false] at named
    rcases named with rfl | rfl | rfl | rfl | rfl
    · exact (entity_safe "lt;" (by simp [entityNames]) ch written).2
    · exact (entity_safe "gt;" (by simp [entityNames]) ch written).2
    · exact (entity_safe "apos;" (by simp [entityNames]) ch written).2
    · exact (entity_safe "quot;" (by simp [entityNames]) ch written).2
    · exact (entity_safe "amp;" (by simp [entityNames]) ch written).2
  · unfold xmlCode at written
    rw [if_neg unsafeChar] at written
    rw [List.mem_singleton.mp written]
    exact plain_safe unsafeChar

theorem htmlCode_safe {value : HtmlValue} (small : ∀ ch, value = .plain ch → ch.toNat < 128)
    {ch : Byte} (written : ch ∈ htmlCode value) : ch.toNat < 128 ∧ ch ∉ markup := by
  cases value with
  | plain plain =>
      by_cases unsafeChar : inClass htmlUnsafe plain
      · obtain ⟨name, listed, coded⟩ := htmlCode_named unsafeChar
        rw [coded] at written
        exact entity_safe name listed ch written
      · rw [htmlCode_other unsafeChar] at written
        rw [List.mem_singleton.mp written]
        exact ⟨small plain rfl, plain_safe unsafeChar⟩
  | numeric val =>
      have digits (ch : Byte) (digit : isdigit ch) : ch.toNat < 128 ∧ ch ∉ markup := by
        have high := (isdigit_iff.mp digit).2
        refine ⟨by omega, fun mark => ?_⟩
        simp only [markup, List.mem_cons, List.not_mem_nil, or_false] at mark
        rcases mark with rfl | rfl | rfl | rfl
        all_goals exact absurd digit (by decide)
      have marks : ∀ ch ∈ entity "#" ++ bytesOf ";", ch.toNat < 128 ∧ ch ∉ markup := by
        simp [entity, bytesOf, markup, ascii]
      rcases List.mem_append.mp written with first | last
      · rcases List.mem_append.mp first with mark | digit
        · exact marks ch (List.mem_append_left _ mark)
        · exact digits ch (isdigit_printNat val ch digit)
      · exact marks ch (List.mem_append_right _ last)

theorem hexEncodeDigit_mem (val : Byte) : hexEncodeDigit (val &&& 0xF) ∈ hexDigits := by
  have every : ∀ digit : Fin 16, hexEncodeDigit (BitVec.ofNat 8 digit) ∈ hexDigits := by
    unfold hexEncodeDigit
    rw [hexDigits_eq]
    decide
  obtain ⟨digit, shown⟩ := low_half val
  rw [shown]
  exact every digit

theorem mem_hexPair {ch value : Byte} (digit : ch ∈ hexPair value) : ch ∈ hexDigits := by
  rcases List.mem_cons.mp digit with first | second
  · rw [first]
    exact hexEncodeDigit_mem _
  · rw [List.mem_singleton.mp second]
    exact hexEncodeDigit_mem _

theorem urlEncode_safe {buflen : Nat} {source : List Byte} {ch : Byte}
    (written : ch ∈ urlEncode buflen source) : ch = ascii '%' ∨ ¬inClass urlUnsafe ch := by
  have marked : ∀ entry ∈ asciiClass.zipIdx, entry.1 &&& urlUnsafe ≠ 0 →
      BitVec.ofNat 8 entry.2 ∉ hexDigits := by
    rw [hexDigits_eq]
    decide +kernel
  have digits : ∀ ch ∈ hexDigits, ¬inClass urlUnsafe ch := by
    intro ch digit unsafeChar
    obtain ⟨entry, listed, same, bits⟩ := mem_asciiClass unsafeChar
    rw [same] at digit
    exact marked entry listed bits digit
  obtain ⟨value, -, found⟩ := mem_encodeFrom written
  unfold urlCode at found
  split at found
  case isTrue =>
    rcases List.mem_cons.mp found with mark | digit
    · exact Or.inl mark
    · exact Or.inr (digits ch (mem_hexPair digit))
  case isFalse plain =>
    rw [List.mem_singleton.mp found]
    exact Or.inr plain

theorem xmlEncode_safe {buflen : Nat} {source : List Byte} {ch : Byte}
    (written : ch ∈ xmlEncode buflen source) : ch ∉ markup := by
  obtain ⟨value, -, found⟩ := mem_encodeFrom written
  exact xmlCode_safe found

theorem htmlEncode_safe {buflen : Nat} {source : List Byte} {ch : Byte}
    (written : ch ∈ htmlEncode buflen source) : ch.toNat < 128 ∧ ch ∉ markup := by
  obtain ⟨value, taken, found⟩ := mem_encodeFrom written
  apply htmlCode_safe (fun plain shown => ?_) found
  rw [shown] at taken
  exact htmlValuesFrom_plain taken

theorem encode_safe {illegal : List Byte} {escapeChar : Byte} {buflen : Nat} {source : List Byte}
    {ch : Byte} (written : ch ∈ encode illegal escapeChar buflen source)
    (unwanted : ch ∈ illegal ∨ ch = 0) : ch = escapeChar ∨ ch ∈ hexDigits := by
  obtain ⟨value, -, found⟩ := mem_encodeFrom written
  unfold encodeCode at found
  split at found
  case isTrue =>
    rcases List.mem_cons.mp found with mark | digit
    · exact Or.inl mark
    · exact Or.inr (mem_hexPair digit)
  case isFalse legal =>
    have same := List.mem_singleton.mp found
    subst same
    rcases unwanted with listed | null
    · exact absurd (by simp [isIllegal, listed]) legal
    · exact absurd (by simp [isIllegal, null]) legal

/-- Nothing that a reader of the coded text could take for markup, or for the end of
a part of it, is left in the text, however short the buffer is. -/
theorem codings_are_safe :
    (∀ buflen source, ∀ ch ∈ urlEncode buflen source, ch = ascii '%' ∨ ¬inClass urlUnsafe ch) ∧
    (∀ buflen source, ∀ ch ∈ xmlEncode buflen source, ch ∉ markup) ∧
    (∀ buflen source, ∀ ch ∈ htmlEncode buflen source, ch.toNat < 128 ∧ ch ∉ markup) ∧
    ∀ illegal escapeChar buflen source, ∀ ch ∈ encode illegal escapeChar buflen source,
      ch ∈ illegal ∨ ch = 0 → ch = escapeChar ∨ ch ∈ hexDigits :=
  ⟨fun _ _ _ => urlEncode_safe, fun _ _ _ => xmlEncode_safe, fun _ _ _ => htmlEncode_safe,
    fun _ _ _ _ _ => encode_safe⟩

end Safety

end Gfiber.Base
