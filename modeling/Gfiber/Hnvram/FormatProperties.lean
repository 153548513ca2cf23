import Mathlib.Data.List.GetD
import Gfiber.Hnvram.Format

/-! Which values are printed as they were given, format by format. -/

set_option autoImplicit false

namespace Gfiber.Hnvram

open Lib

section Driver

theorem restored_of_rejected {format : HnvramFormat} {value : List Byte}
    (rejected : parseNvram format value nvramMaxData = none) : Restored format value := by
  intro bytes parsed
  rw [rejected] at parsed
  cases parsed

theorem restored_iff {format : HnvramFormat} {value bytes : List Byte}
    (parsed : parseNvram format value nvramMaxData = some bytes) :
    Restored format value ↔
      ∃ printed, readBack format bytes = some printed ∧ SameText format value printed := by
  constructor
  · intro restored
    exact restored bytes parsed
  · intro printed other again
    cases parsed.symm.trans again
    exact printed

theorem snprintf_eq {outlen : Nat} {text : List Byte} (fits : text.length < outlen) :
    snprintf outlen text = text :=
  List.take_of_length_le (by omega)

/-- A string is found in the data if a zero follows it. -/
theorem dataString_driverData {bytes : List Byte} (terminated : 0 ∉ bytes) :
    dataString (driverData bytes) = if bytes.length < nvramMaxData then some bytes else none := by
  rw [dataString, driverData]
  by_cases room : bytes.length < nvramMaxData
  · have zeros : nvramMaxData - bytes.length = nvramMaxData - bytes.length - 1 + 1 := by omega
    have inside : ∀ byte ∈ bytes, decide (byte ≠ 0) = true := by
      intro byte member
      exact decide_eq_true fun zero => terminated (zero ▸ member)
    rw [zeros, List.replicate_succ, if_pos (by simp), if_pos room,
      List.takeWhile_append_of_pos inside]
    simp
  · have none_left : nvramMaxData - bytes.length = 0 := by omega
    rw [none_left, List.replicate_zero, List.append_nil, if_neg terminated, if_neg room]

theorem formatString_driverData {bytes : List Byte} (terminated : 0 ∉ bytes) :
    formatString (driverData bytes) (nvramMaxData * 2) =
      if bytes.length < nvramMaxData then some bytes else none := by
  rw [formatString, dataString_driverData terminated]
  split
  case isTrue room => rw [Option.map_some, snprintf_eq (by omega)]
  case isFalse => rfl

theorem take_driverData (bytes : List Byte) : (driverData bytes).take bytes.length = bytes := by
  rw [driverData, List.take_left]

end Driver

section Strings

theorem parseString_eq {value : List Byte} (fits : value.length ≤ nvramMaxData) :
    parseString value nvramMaxData = some value :=
  if_neg (by omega)

/-- A string needs room for the zero behind it. -/
theorem string_restored_iff {value : List Byte} (terminated : 0 ∉ value)
    (fits : value.length ≤ nvramMaxData) :
    Restored .string value ↔ value.length < nvramMaxData := by
  have parsed : parseNvram .string value nvramMaxData = some value := parseString_eq fits
  rw [restored_iff parsed]
  simp only [readBack, formatNvram, formatString_driverData terminated]
  split
  case isTrue room => simp [room, SameText, HnvramFormat.hexadecimal]
  case isFalse full => simp [full]

end Strings

section Hexadecimal

/-- The text of an octet at the start of a value. -/
theorem split_octet {value rest : List Byte} {byte : Byte}
    (same : printHexByte byte ++ rest = value.map lowerHex) :
    ∃ high low more, value = high :: low :: more ∧ isxdigit high ∧ isxdigit low ∧
      rest = more.map lowerHex := by
  cases value with
  | nil => cases same
  | cons high value =>
      cases value with
      | nil => simp [printHexByte] at same
      | cons low more =>
          have digits : [lowerHex high, lowerHex low] = printHexByte byte := by
            simp only [printHexByte, List.cons_append, List.nil_append, List.map_cons,
              List.cons.injEq] at same
            rw [printHexByte, same.1, same.2.1]
          obtain ⟨first, second⟩ := digits_of_printHexByte digits
          rw [← digits] at same
          exact ⟨high, low, more, rfl, first, second, by simpa using same⟩

theorem split_colon {value rest : List Byte}
    (same : ascii ':' :: rest = value.map lowerHex) :
    ∃ more, value = ascii ':' :: more ∧ rest = more.map lowerHex := by
  cases value with
  | nil => cases same
  | cons first more =>
      simp only [List.map_cons, List.cons.injEq] at same
      exact ⟨more, by rw [lowerHex_eq_colon.mp same.1.symm], same.2⟩

/-- The octets behind the first one, as they are printed. -/
def printOctets (bytes : List Byte) : List Byte :=
  bytes.flatMap fun byte => ascii ':' :: printHexByte byte

/-- The octets behind the first one, as they are written. -/
def octetsText (octets : List (Byte × Byte)) : List Byte :=
  octets.flatMap fun octet => [ascii ':', octet.1, octet.2]

/-- Six octets of two digits. -/
def MacText (value : List Byte) : Prop :=
  ∃ first : Byte × Byte, ∃ octets : List (Byte × Byte), octets.length = 5 ∧
    (∀ octet ∈ first :: octets, isxdigit octet.1 ∧ isxdigit octet.2) ∧
    value = first.1 :: first.2 :: octetsText octets

theorem split_octets {bytes value : List Byte} (same : printOctets bytes = value.map lowerHex) :
    ∃ octets : List (Byte × Byte), octets.length = bytes.length ∧
      (∀ octet ∈ octets, isxdigit octet.1 ∧ isxdigit octet.2) ∧ value = octetsText octets := by
  induction bytes generalizing value with
  | nil =>
      cases List.map_eq_nil_iff.mp same.symm
      exact ⟨[], rfl, by simp, rfl⟩
  | cons byte bytes ih =>
      obtain ⟨_, rfl, behind⟩ := split_colon same
      obtain ⟨high, low, _, rfl, first, second, more⟩ := split_octet behind
      obtain ⟨octets, count, digits, rfl⟩ := ih more
      refine ⟨(high, low) :: octets, by simp [count], ?_, rfl⟩
      simpa [first, second] using digits

theorem lower_printOctets (bytes : List Byte) :
    (printOctets bytes).map lowerHex = printOctets bytes := by
  induction bytes with
  | nil => rfl
  | cons byte bytes ih =>
      rw [printOctets, List.flatMap_cons, List.map_append, List.map_cons, lower_printHexByte,
        lowerHex_eq_colon.mpr rfl]
      rw [printOctets] at ih
      rw [ih]

theorem print_octetsText {octets : List (Byte × Byte)}
    (digits : ∀ octet ∈ octets, isxdigit octet.1 ∧ isxdigit octet.2) :
    printOctets (octets.map fun octet => hexByte octet.1 octet.2) =
      (octetsText octets).map lowerHex := by
  induction octets with
  | nil => rfl
  | cons octet octets ih =>
      obtain ⟨first, second⟩ := digits octet List.mem_cons_self
      have more := ih fun other member => digits other (List.mem_cons_of_mem _ member)
      simp only [printOctets, octetsText, List.map_cons, List.flatMap_cons,
        printHexByte_hexByte first second, List.cons_append, List.nil_append,
        lowerHex_eq_colon.mpr rfl] at more ⊢
      rw [more]

/-- Octets behind colons are read one after another. -/
theorem sscanf_octetsText {octets : List (Byte × Byte)}
    (digits : ∀ octet ∈ octets, isxdigit octet.1 ∧ isxdigit octet.2) :
    sscanf (List.replicate octets.length
        [.literal (ascii ':'), .number .hhx (some 2)]).flatten (octetsText octets) =
      octets.map fun octet => hexByte octet.1 octet.2 := by
  induction octets with
  | nil => rfl
  | cons octet octets ih =>
      obtain ⟨first, second⟩ := digits octet List.mem_cons_self
      have more := ih fun other member => digits other (List.mem_cons_of_mem _ member)
      simp only [octetsText] at more
      simp [List.replicate_succ, octetsText, sscanf, scan_hexByte first second, more]

theorem readBack_mac {first : Byte} {bytes : List Byte} (five : bytes.length = 5) :
    readBack .mac (first :: bytes) = some (printHexByte first ++ printOctets bytes) := by
  match bytes, five with
  | [b, c, d, e, f], _ =>
    simp only [readBack, formatNvram, formatMac]
    rw [snprintf_eq]
    · rfl
    · simp only [printHexByte, List.length_append, List.length_cons, List.length_nil, nvramMaxData]
      omega

theorem mac_restored_iff (value : List Byte) :
    Restored .mac value ↔ (sscanf macDirectives value).length ≠ 6 ∨ MacText value := by
  by_cases rejected : (sscanf macDirectives value).length ≠ 6
  · have none : parseNvram .mac value nvramMaxData = none := by
      rw [parseNvram, parseMac, if_neg (by decide), if_pos rejected]
    exact iff_of_true (restored_of_rejected none) (.inl rejected)
  · have parsed : parseNvram .mac value nvramMaxData = some (sscanf macDirectives value) := by
      rw [parseNvram, parseMac, if_neg (by decide), if_neg rejected]
    rw [restored_iff parsed, or_iff_right rejected]
    constructor
    · rintro ⟨printed, printing, same⟩
      cases read : sscanf macDirectives value with
      | nil => simp [read] at rejected
      | cons byte bytes =>
          rw [read, readBack_mac (by simpa [read] using rejected)] at printing
          cases printing
          simp only [SameText, HnvramFormat.hexadecimal, if_true, List.map_append,
            lower_printHexByte, lower_printOctets] at same
          obtain ⟨high, low, _, rfl, first, second, behind⟩ := split_octet same
          obtain ⟨octets, count, digits, rfl⟩ := split_octets behind
          refine ⟨(high, low), octets, ?_, ?_, rfl⟩
          · simpa [read, count] using rejected
          · simpa [first, second] using digits
    · rintro ⟨octet, octets, five, digits, rfl⟩
      obtain ⟨first, second⟩ := digits octet List.mem_cons_self
      have more := fun other member => digits other (List.mem_cons_of_mem _ member)
      have directives : macDirectives = .number .hhx (some 2) :: (List.replicate octets.length
          [.literal (ascii ':'), .number .hhx (some 2)]).flatten := by
        rw [five]
        rfl
      have read : sscanf macDirectives (octet.1 :: octet.2 :: octetsText octets) =
          hexByte octet.1 octet.2 :: octets.map fun octet => hexByte octet.1 octet.2 := by
        rw [directives, sscanf, scan_hexByte first second]
        exact congrArg _ (sscanf_octetsText more)
      rw [read, readBack_mac (by simpa using five)]
      have hexadecimal : HnvramFormat.mac.hexadecimal = true := rfl
      refine ⟨_, rfl, ?_⟩
      rw [SameText, if_pos hexadecimal, List.map_append, lower_printHexByte, lower_printOctets,
        printHexByte_hexByte first second, print_octetsText more]
      rfl

theorem parseHexdigit_eq {digit : Byte} (hex : isxdigit digit) :
    parseHexdigit digit = BitVec.ofNat 8 (hexValue digit) := by
  revert digit
  decide +kernel

theorem parseHexdigit_pair {high low : Byte} (first : isxdigit high) (second : isxdigit low) :
    parseHexdigit high <<< 4 ||| parseHexdigit low = hexByte high low := by
  have every : ∀ high low : Fin 16,
      BitVec.ofNat 8 high <<< 4 ||| BitVec.ofNat 8 low = BitVec.ofNat 8 (16 * high + low) := by
    decide +kernel
  rw [parseHexdigit_eq first, parseHexdigit_eq second]
  exact every ⟨_, hexValue_lt first⟩ ⟨_, hexValue_lt second⟩

theorem length_hexPairs (value : List Byte) : (hexPairs value).length = value.length / 2 := by
  fun_induction hexPairs value with
  | case1 high low rest ih =>
      simp only [List.length_cons, ih]
      omega
  | case2 value short =>
      match value with
      | [] => rfl
      | [_] => simp
      | high :: low :: rest => exact absurd rfl (short high low rest)

/-- Pairs are printed as they were read when all of the text is made of digits. -/
theorem hexPairs_printed_iff (value : List Byte) :
    (hexPairs value).flatMap printHexByte = value.map lowerHex ↔
      value.length % 2 = 0 ∧ ∀ byte ∈ value, isxdigit byte := by
  fun_induction hexPairs value with
  | case1 high low rest ih =>
      rw [List.flatMap_cons]
      constructor
      · intro same
        obtain ⟨_, _, _, shape, first, second, more⟩ := split_octet same
        cases shape
        obtain ⟨even, digits⟩ := ih.mp more
        have length : (high :: low :: rest).length = rest.length + 2 := rfl
        refine ⟨by omega, ?_⟩
        simpa [first, second] using digits
      · rintro ⟨even, digits⟩
        have first : isxdigit high := digits high (by simp)
        have second : isxdigit low := digits low (by simp)
        have length : (high :: low :: rest).length = rest.length + 2 := rfl
        have more := ih.mpr ⟨by omega, fun byte member => digits byte (by simp [member])⟩
        rw [parseHexdigit_pair first second, printHexByte_hexByte first second, more]
        rfl
  | case2 value short =>
      match value with
      | [] => simp
      | [_] => simp
      | high :: low :: rest => exact absurd rfl (short high low rest)

theorem lower_flatMap (bytes : List Byte) :
    (bytes.flatMap printHexByte).map lowerHex = bytes.flatMap printHexByte := by
  induction bytes with
  | nil => rfl
  | cons byte bytes ih => rw [List.flatMap_cons, List.map_append, lower_printHexByte, ih]

theorem readBack_hexstring {bytes : List Byte} (few : bytes.length < nvramMaxData) :
    readBack .hexstring bytes = some (bytes.flatMap printHexByte) := by
  rw [readBack, formatNvram, formatHexstring, if_neg (by omega), take_driverData]

theorem hexstring_restored_iff {value : List Byte} (fits : value.length ≤ nvramMaxData) :
    Restored .hexstring value ↔ value.length % 2 = 0 ∧ ∀ byte ∈ value, isxdigit byte := by
  have few : (hexPairs value).length < nvramMaxData := by
    rw [length_hexPairs]
    simp only [nvramMaxData] at fits ⊢
    omega
  have parsed : parseNvram .hexstring value nvramMaxData = some (hexPairs value) := by
    rw [parseNvram, parseHexstring, List.take_of_length_le (by omega)]
  rw [restored_iff parsed, readBack_hexstring few, ← hexPairs_printed_iff]
  simp [SameText, HnvramFormat.hexadecimal, lower_flatMap]

theorem isxdigit_zero : isxdigit 0 = false := by decide

theorem isHexstring_iff {value : List Byte} {hexLen : Nat} (terminated : 0 ∉ value) :
    isHexstring value hexLen ↔ value.length = hexLen ∧ ∀ byte ∈ value, isxdigit byte := by
  simp only [isHexstring, Bool.and_eq_true, List.all_eq_true, List.mem_range, decide_eq_true_eq]
  constructor
  · rintro ⟨digits, ended⟩
    have reaches : ∀ i, i < hexLen → i < value.length := by
      intro i inside
      by_contra beyond
      have digit := digits i inside
      rw [List.getD_eq_default _ _ (by omega), isxdigit_zero] at digit
      cases digit
    have ends : ¬ hexLen < value.length := by
      intro inside
      rw [List.getD_eq_getElem _ _ inside] at ended
      exact terminated (ended ▸ List.getElem_mem inside)
    have length : value.length = hexLen := by
      cases hexLen with
      | zero => omega
      | succ last =>
          have inside := reaches last (by omega)
          omega
    refine ⟨length, ?_⟩
    intro byte member
    obtain ⟨i, inside, rfl⟩ := List.getElem_of_mem member
    have digit := digits i (by omega)
    rwa [List.getD_eq_getElem _ _ inside] at digit
  · rintro ⟨rfl, digits⟩
    refine ⟨?_, List.getD_eq_default _ _ le_rfl⟩
    intro i inside
    rw [List.getD_eq_getElem _ _ inside]
    exact digits _ (List.getElem_mem inside)

/-- The eight digits of an old part number are read as a hexadecimal string. -/
theorem sscanf_gpn {value : List Byte} (eight : value.length = 8)
    (digits : ∀ byte ∈ value, isxdigit byte) : sscanf gpnDirectives value = hexPairs value := by
  match value, eight with
  | [a, b, c, d, e, f, g, h], _ =>
    simp only [List.mem_cons, List.not_mem_nil, or_false, forall_eq_or_imp, forall_eq] at digits
    obtain ⟨a, b, c, d, e, f, g, h⟩ := digits
    simp [gpnDirectives, gpnHexBytes, List.replicate_succ, sscanf, scan_hexByte, hexPairs,
      parseHexdigit_pair, a, b, c, d, e, f, g, h]

theorem readBack_gpn {bytes : List Byte} (four : bytes.length = gpnHexBytes) :
    readBack .gpn bytes = some (bytes.flatMap printHexByte) := by
  have taken := take_driverData bytes
  rw [four] at taken
  rw [readBack, formatNvram, formatGpn, if_pos four, formatHexstring, if_neg (by decide), taken]

/-- A part number of four characters is taken for an old one when it is printed. -/
theorem gpn_restored_iff {value : List Byte} (terminated : 0 ∉ value)
    (fits : value.length ≤ nvramMaxData) :
    Restored .gpn value ↔
      (value.length = gpnHexBytes * 2 ∧ ∀ byte ∈ value, isxdigit byte) ∨
        value.length ≠ gpnHexBytes ∧ value.length < nvramMaxData := by
  have hexadecimal : HnvramFormat.gpn.hexadecimal = true := rfl
  by_cases old : isHexstring value (gpnHexBytes * 2)
  · obtain ⟨eight, digits⟩ := (isHexstring_iff terminated).mp old
    have read := sscanf_gpn eight digits
    have four : (hexPairs value).length = gpnHexBytes := by
      rw [length_hexPairs, eight]
      rfl
    have parsed : parseNvram .gpn value nvramMaxData = some (hexPairs value) := by
      rw [parseNvram, parseGpn, if_neg (by decide), if_pos old, read, if_neg (not_not_intro four)]
    have printed := (hexPairs_printed_iff value).mpr ⟨by rw [eight]; rfl, digits⟩
    refine iff_of_true ((restored_iff parsed).mpr ⟨_, readBack_gpn four, ?_⟩) (.inl ⟨eight, digits⟩)
    rw [SameText, if_pos hexadecimal, lower_flatMap, printed]
  · have new : ¬ (value.length = gpnHexBytes * 2 ∧ ∀ byte ∈ value, isxdigit byte) := fun shape =>
      old ((isHexstring_iff terminated).mpr shape)
    have parsed : parseNvram .gpn value nvramMaxData = some value := by
      rw [parseNvram, parseGpn, if_neg (by decide), if_neg old, parseString_eq fits]
    rw [restored_iff parsed, or_iff_right new]
    by_cases four : value.length = gpnHexBytes
    · refine iff_of_false ?_ fun short => short.1 four
      rintro ⟨printed, printing, same⟩
      rw [readBack_gpn four] at printing
      cases printing
      rw [SameText, if_pos hexadecimal] at same
      have lengths := congrArg List.length same
      simp [printHexByte, four, gpnHexBytes] at lengths
    · have string : readBack .gpn value = formatString (driverData value) (nvramMaxData * 2) := by
        rw [readBack, formatNvram, formatGpn, if_neg four]
      rw [string, formatString_driverData terminated]
      split
      case isTrue room => simp [four, room, SameText, hexadecimal]
      case isFalse full => simp [full]

end Hexadecimal

section Numbers

theorem isdigit_dot : isdigit (ascii '.') = false := by decide

theorem printNat_ne_nil (value : Nat) : printNat value ≠ [] := by
  simp [printNat]

theorem scan_printNat {value : Nat} {rest : List Byte} (small : value < 256)
    (stops : Stops isdigit rest) :
    Conversion.hhd.scan none (printNat value ++ rest) = some (BitVec.ofNat 8 value, rest) := by
  rw [scan_decimal (printNat_ne_nil value) (isdigit_printNat value) stops]
  · rw [decimal_printNat]
  · rw [decimal_printNat]
    omega

/-- Two numbers of a byte, as they are printed. -/
def VersionText (value : List Byte) : Prop :=
  ∃ major minor, major < 256 ∧ minor < 256 ∧ value = printNat major ++ ascii '.' :: printNat minor

theorem length_printNat {value : Nat} (small : value < 256) : (printNat value).length ≤ 3 := by
  have every : ∀ value : Fin 256, (printNat value).length ≤ 3 := by decide +kernel
  exact every ⟨value, small⟩

theorem readBack_hmxswvers (minor major : Byte) :
    readBack .hmxswvers [minor, major] =
      some (printNat major.toNat ++ ascii '.' :: printNat minor.toNat) := by
  have first := length_printNat major.isLt
  have second := length_printNat minor.isLt
  have large : nvramMaxData = 65536 := rfl
  have low : (driverData [minor, major]).getD 0 0 = minor := rfl
  have high : (driverData [minor, major]).getD 1 0 = major := rfl
  rw [readBack, formatNvram, formatHmxswvers, low, high, snprintf_eq]
  rw [List.length_append, List.length_cons]
  omega

theorem hmxswvers_restored_iff (value : List Byte) :
    Restored .hmxswvers value ↔
      (sscanf versionDirectives value).length ≠ 2 ∨ VersionText value := by
  by_cases rejected : (sscanf versionDirectives value).length ≠ 2
  · have none : parseNvram .hmxswvers value nvramMaxData = none := by
      rw [parseNvram, parseHmxswvers, if_neg (by decide), if_pos rejected]
    exact iff_of_true (restored_of_rejected none) (.inl rejected)
  · have parsed : parseNvram .hmxswvers value nvramMaxData =
        some (sscanf versionDirectives value).reverse := by
      rw [parseNvram, parseHmxswvers, if_neg (by decide), if_neg rejected]
    have exact : HnvramFormat.hmxswvers.hexadecimal ≠ true := by decide
    rw [restored_iff parsed, or_iff_right rejected]
    constructor
    · rintro ⟨printed, printing, same⟩
      match read : sscanf versionDirectives value with
      | [major, minor] =>
        rw [SameText, if_neg exact] at same
        rw [read] at printing
        cases (readBack_hmxswvers minor major).symm.trans printing
        exact ⟨major.toNat, minor.toNat, major.isLt, minor.isLt, same.symm⟩
      | [] | [_] | _ :: _ :: _ :: _ => simp [read] at rejected
    · rintro ⟨major, minor, small, smaller, rfl⟩
      have dot : Stops isdigit (ascii '.' :: printNat minor) := by
        simp [Stops, isdigit_dot]
      have ends : Stops isdigit [] := by simp [Stops]
      have last := scan_printNat smaller ends
      rw [List.append_nil] at last
      have read : sscanf versionDirectives (printNat major ++ ascii '.' :: printNat minor) =
          [BitVec.ofNat 8 major, BitVec.ofNat 8 minor] := by
        simp [versionDirectives, sscanf, scan_printNat small dot, last]
      rw [read]
      refine ⟨_, readBack_hmxswvers _ _, ?_⟩
      rw [SameText, if_neg exact, BitVec.toNat_ofNat, BitVec.toNat_ofNat, Nat.mod_eq_of_lt small,
        Nat.mod_eq_of_lt smaller]

theorem readBack_uint8 (byte : Byte) : readBack .uint8 [byte] = some (printNat byte.toNat) := by
  have short := length_printNat byte.isLt
  have large : nvramMaxData = 65536 := rfl
  have first : (driverData [byte]).getD 0 0 = byte := rfl
  rw [readBack, formatNvram, formatUint8, first, snprintf_eq]
  omega

theorem printNat_digit {digit : Byte} (decimal : isdigit digit) :
    printNat (digit - ascii '0').toNat = [digit] := by
  revert digit
  decide +kernel

/-- Only the first character is read, and it is not checked. -/
theorem uint8_restored_iff (value : List Byte) :
    Restored .uint8 value ↔ ∃ digit, isdigit digit ∧ value = [digit] := by
  have parsed : parseNvram .uint8 value nvramMaxData = some [value.headD 0 - ascii '0'] := by
    rw [parseNvram, parseUint8, if_neg (by decide)]
  have exact : HnvramFormat.uint8.hexadecimal ≠ true := by decide
  rw [restored_iff parsed, readBack_uint8]
  simp only [SameText, if_neg exact, Option.some.injEq, exists_eq_left']
  constructor
  · intro same
    cases value with
    | nil => exact absurd same (printNat_ne_nil _)
    | cons digit rest =>
        have decimal : isdigit digit := isdigit_printNat _ digit (same ▸ List.mem_cons_self)
        exact ⟨digit, decimal, same.symm.trans (printNat_digit decimal)⟩
  · rintro ⟨digit, decimal, rfl⟩
    exact printNat_digit decimal

end Numbers

section Values

/-- The texts that are kept as they are, or that a format refuses. -/
def Kept : HnvramFormat → List Byte → Prop
  | .string, value => value.length < nvramMaxData
  | .mac, value => (sscanf macDirectives value).length ≠ 6 ∨ MacText value
  | .hmxswvers, value => (sscanf versionDirectives value).length ≠ 2 ∨ VersionText value
  | .uint8, value => ∃ digit, isdigit digit ∧ value = [digit]
  | .gpn, value =>
      (value.length = gpnHexBytes * 2 ∧ ∀ byte ∈ value, isxdigit byte) ∨
        value.length ≠ gpnHexBytes ∧ value.length < nvramMaxData
  | .hexstring, value => value.length % 2 = 0 ∧ ∀ byte ∈ value, isxdigit byte

/-- A value that is written is printed as it was given exactly when its format keeps it. -/
theorem value_restored_iff (format : HnvramFormat) {value : List Byte} (terminated : 0 ∉ value)
    (fits : value.length ≤ nvramMaxData) : Restored format value ↔ Kept format value := by
  cases format with
  | string => exact string_restored_iff terminated fits
  | mac => exact mac_restored_iff value
  | hmxswvers => exact hmxswvers_restored_iff value
  | uint8 => exact uint8_restored_iff value
  | gpn => exact gpn_restored_iff terminated fits
  | hexstring => exact hexstring_restored_iff fits

/-- A part number of letters and digits that is printed as it was given. -/
theorem part_number_restored :
    Kept .gpn (bytesOf "86007C1") ∧ Restored .gpn (bytesOf "86007C1") := by
  have kept : Kept .gpn (bytesOf "86007C1") := .inr ⟨by decide, by decide⟩
  exact ⟨kept, (value_restored_iff .gpn (by decide) (by decide)).mpr kept⟩

/-- A number of two digits, addresses with short octets or a prefix for one, a part number of
four characters and an odd number of hexadecimal digits come back as other texts. -/
theorem values_changed :
    (¬ Restored .uint8 (bytesOf "15") ∧
      (parseNvram .uint8 (bytesOf "15") nvramMaxData).bind (readBack .uint8) =
        some (bytesOf "1")) ∧
    (¬ Restored .mac (bytesOf "0:1:2:3:4:5") ∧
      (parseNvram .mac (bytesOf "0:1:2:3:4:5") nvramMaxData).bind (readBack .mac) =
        some (bytesOf "00:01:02:03:04:05")) ∧
    (¬ Restored .mac (bytesOf "0x:1:2:3:4:5") ∧
      (parseNvram .mac (bytesOf "0x:1:2:3:4:5") nvramMaxData).bind (readBack .mac) =
        some (bytesOf "00:01:02:03:04:05")) ∧
    (¬ Restored .gpn (bytesOf "ABCD") ∧
      (parseNvram .gpn (bytesOf "ABCD") nvramMaxData).bind (readBack .gpn) =
        some (bytesOf "41424344")) ∧
    ¬ Restored .hexstring (bytesOf "abc") ∧
      (parseNvram .hexstring (bytesOf "abc") nvramMaxData).bind (readBack .hexstring) =
        some (bytesOf "ab") := by
  have changed : ∀ {format : HnvramFormat} {value other : List Byte},
      (parseNvram format value nvramMaxData).bind (readBack format) = some other →
      ¬ SameText format value other → ¬ Restored format value := by
    intro format value other back differs restored
    obtain ⟨bytes, parsed, printing⟩ := Option.bind_eq_some_iff.mp back
    obtain ⟨printed, again, same⟩ := restored bytes parsed
    cases printing.symm.trans again
    exact differs same
  have number : (parseNvram .uint8 (bytesOf "15") nvramMaxData).bind (readBack .uint8) =
      some (bytesOf "1") := by
    rw [parseNvram, parseUint8, if_neg (by decide), Option.bind_some, readBack_uint8]
    decide
  have address : ∀ value : List Byte, sscanf macDirectives value = [0, 1, 2, 3, 4, 5] →
      (parseNvram .mac value nvramMaxData).bind (readBack .mac) =
        some (bytesOf "00:01:02:03:04:05") := by
    intro value read
    rw [parseNvram, parseMac, if_neg (by decide), read, if_neg (by decide), Option.bind_some,
      readBack_mac (by decide)]
    decide
  have short := address (bytesOf "0:1:2:3:4:5") (by decide)
  have mark := address (bytesOf "0x:1:2:3:4:5") (by decide)
  have part : (parseNvram .gpn (bytesOf "ABCD") nvramMaxData).bind (readBack .gpn) =
      some (bytesOf "41424344") := by
    rw [parseNvram, parseGpn, if_neg (by decide), if_neg (by decide), parseString_eq (by decide),
      Option.bind_some, readBack_gpn (by decide)]
    decide
  have key : (parseNvram .hexstring (bytesOf "abc") nvramMaxData).bind (readBack .hexstring) =
      some (bytesOf "ab") := by
    have taken : (hexPairs (bytesOf "abc")).take nvramMaxData = [0xab] := rfl
    rw [parseNvram, parseHexstring, taken, Option.bind_some, readBack_hexstring (by decide)]
    decide
  exact ⟨⟨changed number (by decide), number⟩, ⟨changed short (by decide), short⟩,
    ⟨changed mark (by decide), mark⟩,
    ⟨changed part (by decide), part⟩, changed key (by decide), key⟩

end Values

end Gfiber.Hnvram
