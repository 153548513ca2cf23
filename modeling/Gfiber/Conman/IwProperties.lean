import Gfiber.Conman.Iw

/-! What is read from each line that `iw` prints about an access point. -/

set_option autoImplicit false

namespace Gfiber.Conman

open Lib

section Octets

theorem hex_printOctet (octet : Byte) : ∃ high low, printOctet octet = [high, low] ∧
    isHexDigit high ∧ isHexDigit low ∧
      BitVec.ofNat 8 (16 * hexDigitValue high + hexDigitValue low) = octet := by
  refine ⟨_, _, rfl, ?_⟩
  revert octet
  decide +kernel

theorem hexDigit_solid {char : Char} (hex : isHexDigit char) :
    Text.isSpace char = false ∧ char ≠ ':' := by
  refine ⟨Text.solid_of_class (by decide) hex, ?_⟩
  rintro rfl
  exact absurd hex (by decide)

/-- Octets are matched up to what follows the last of them. -/
theorem matchOctets_printOctets {octets : List Byte} (some_octet : octets ≠ []) {next : Char}
    (rest : Text) (ends : next ≠ ':') :
    matchOctets octets.length (printOctets octets ++ next :: rest) =
      some (printOctets octets, next :: rest) := by
  fun_induction printOctets octets with
  | case1 => exact absurd rfl some_octet
  | case2 octet =>
      obtain ⟨high, low, shape, first, second, _⟩ := hex_printOctet octet
      rw [shape, List.length_singleton]
      simp [matchOctets, first, second, ends]
  | case3 octet following octets ih =>
      obtain ⟨high, low, shape, first, second, _⟩ := hex_printOctet octet
      have later := ih (List.cons_ne_nil _ _)
      rw [shape, List.length_cons]
      simp only [List.cons_append, List.nil_append, matchOctets, first, second, Bool.and_self,
        if_true, later, Option.map_some]

theorem matchData_printed (octets : List Byte) :
    matchData (octets.flatMap fun octet => ' ' :: printOctet octet) = octets := by
  induction octets with
  | nil => rfl
  | cons octet octets ih =>
      obtain ⟨high, low, shape, first, second, same⟩ := hex_printOctet octet
      rw [List.flatMap_cons, shape]
      simp only [List.cons_append, List.nil_append, matchData, first, second, Bool.and_self,
        if_true, same, ih]

theorem printOctets_solid (octets : List Byte) :
    ∀ char ∈ printOctets octets, Text.isSpace char = false := by
  have octet_solid (octet : Byte) : ∀ char ∈ printOctet octet, Text.isSpace char = false := by
    intro char member
    obtain ⟨high, low, shape, first, second, _⟩ := hex_printOctet octet
    rw [shape] at member
    simp only [List.mem_cons, List.not_mem_nil, or_false] at member
    rcases member with rfl | rfl
    · exact (hexDigit_solid first).1
    · exact (hexDigit_solid second).1
  fun_induction printOctets octets with
  | case1 => simp
  | case2 octet => exact octet_solid octet
  | case3 octet following octets ih =>
      intro char member
      rcases List.mem_append.mp member with here | later
      · exact octet_solid octet char here
      · rcases List.mem_cons.mp later with rfl | later
        · decide
        · exact ih char later

end Octets

section Lines

theorem parseLines_cons {parser next : ScanParser} {line : Text} (lines : List Text)
    (step : parser.parseLine line = some next) :
    (line :: lines).foldlM ScanParser.parseLine parser =
      lines.foldlM ScanParser.parseLine next := by
  rw [List.foldlM_cons, step]
  rfl

variable (parser : ScanParser)

theorem beforeLast_solid {text : Text} (solid : ∀ char ∈ text, Text.isSpace char = false) :
    beforeLast " dBm".toList text = none := by
  induction text with
  | nil => rfl
  | cons char text ih =>
      have later := ih fun other member => solid other (List.mem_cons_of_mem _ member)
      have different : ¬(' ' = char) := by
        rintro rfl
        exact absurd (solid _ List.mem_cons_self) (by decide)
      have unmatched : Text.afterLiteral " dBm".toList (char :: text) = none := if_neg different
      rw [beforeLast, later, unmatched]
      rfl

theorem parseLine_bss {octets : List Byte} (six : octets.length = 6) (hif : Text) :
    parser.parseLine ("BSS ".toList ++ printOctets octets ++ "(on ".toList ++ hif ++ ")".toList) =
      some ⟨parser.finish, some (.new (printOctets octets))⟩ := by
  have some_octet : octets ≠ [] := List.ne_nil_of_length_pos (by omega)
  have kept : Text.strip
      ("BSS ".toList ++ printOctets octets ++ "(on ".toList ++ hif ++ ")".toList) =
      "BSS ".toList ++ (printOctets octets ++ '(' :: ("on ".toList ++ hif ++ ")".toList)) := by
    have ends := Text.strip_ends ("SS ".toList ++ printOctets octets ++ "(on ".toList ++ hif)
      (show Text.isSpace 'B' = false by decide) (show Text.isSpace ')' = false by decide)
    simpa using ends
  have octetsRead := matchOctets_printOctets some_octet ("on ".toList ++ hif ++ ")".toList)
    (show '(' ≠ ':' by decide)
  rw [six] at octetsRead
  have opened : Text.afterLiteral "(on ".toList ('(' :: ("on ".toList ++ hif ++ ")".toList)) =
      some (hif ++ ")".toList) := Text.afterLiteral_append "(on ".toList (hif ++ ")".toList)
  have read : matchBssid
      ("BSS ".toList ++ (printOctets octets ++ '(' :: ("on ".toList ++ hif ++ ")".toList))) =
      some (printOctets octets) := by
    rw [matchBssid, Text.afterLiteral_append]
    simp only [Option.bind_eq_bind, Option.bind_some, octetsRead, opened]
    rw [if_pos (by simp)]
  rw [ScanParser.parseLine]
  simp only [kept, read]

theorem parseLine_freq (value : Nat) :
    parser.parseLine ("\tfreq: ".toList ++ Nat.toDigits 10 value) =
      parser.modify fun info => { info with band := some (freqBand (Nat.toDigits 10 value)) } := by
  have digits := isDigit_toDigits value
  have some_digit : Nat.toDigits 10 value ≠ [] := Nat.toDigits_ne_nil
  have kept : Text.strip ("\tfreq: ".toList ++ Nat.toDigits 10 value) =
      "freq: ".toList ++ Nat.toDigits 10 value :=
    @Text.strip_line ['\t'] "req: ".toList _ 'f' (by decide) (by decide) some_digit
      fun char member => (digit_plain_char (digits char member)).2.2
  have read := Text.matchGroup_append "freq: ".toList some_digit digits
  rw [ScanParser.parseLine]
  simp only [kept]
  have bssid : matchBssid ("freq: ".toList ++ Nat.toDigits 10 value) = none := rfl
  have ssid : matchSsid ("freq: ".toList ++ Nat.toDigits 10 value) = none := rfl
  have rssi : matchRssi ("freq: ".toList ++ Nat.toDigits 10 value) = none := rfl
  have freq : matchFreq ("freq: ".toList ++ Nat.toDigits 10 value) =
      some (Nat.toDigits 10 value) := read
  simp only [bssid, ssid, rssi, freq]

theorem beforeLast_end (text : Text) :
    beforeLast " dBm".toList (text ++ " dBm".toList) = some text := by
  induction text with
  | nil => rfl
  | cons char text ih => rw [List.cons_append, beforeLast, ih]

theorem parseLine_signal_unit (signal : FloatColumn) :
    parser.parseLine ("\tsignal: ".toList ++ signal.text ++ " dBm".toList) =
      parser.modify fun info => { info with rssi := signal.number.value } := by
  have kept : Text.strip ("\tsignal: ".toList ++ signal.text ++ " dBm".toList) =
      "signal: ".toList ++ (signal.text ++ " dBm".toList) := by
    have ends := Text.strip_ends ("ignal: ".toList ++ signal.text ++ " dB".toList)
      (show Text.isSpace 's' = false by decide) (show Text.isSpace 'm' = false by decide)
    rw [show "\tsignal: ".toList ++ signal.text ++ " dBm".toList =
        ['\t'] ++ ("signal: ".toList ++ signal.text ++ " dBm".toList) from rfl,
      Text.strip_append_blank (by decide)]
    simpa using ends
  have bssid : matchBssid ("signal: ".toList ++ (signal.text ++ " dBm".toList)) = none := rfl
  have ssid : matchSsid ("signal: ".toList ++ (signal.text ++ " dBm".toList)) = none := rfl
  have rssi : matchRssi ("signal: ".toList ++ (signal.text ++ " dBm".toList)) =
      some signal.text := by
    rw [matchRssi, Text.afterLiteral_append]
    exact beforeLast_end signal.text
  rw [ScanParser.parseLine]
  simp only [kept, bssid, ssid, rssi, signal.parsed]
  rfl

/-- A signal without its unit is passed over. -/
theorem parseLine_signal {text : Text} (some_char : text ≠ [])
    (solid : ∀ char ∈ text, Text.isSpace char = false) :
    parser.parseLine ("\tsignal: ".toList ++ text) = some parser := by
  have kept : Text.strip ("\tsignal: ".toList ++ text) = "signal: ".toList ++ text :=
    @Text.strip_line ['\t'] "ignal: ".toList _ 's' (by decide) (by decide) some_char solid
  have rssi : matchRssi ("signal: ".toList ++ text) = none := by
    rw [matchRssi, Text.afterLiteral_append]
    exact beforeLast_solid solid
  rw [ScanParser.parseLine]
  simp only [kept]
  have bssid : matchBssid ("signal: ".toList ++ text) = none := rfl
  have ssid : matchSsid ("signal: ".toList ++ text) = none := rfl
  have freq : matchFreq ("signal: ".toList ++ text) = none := rfl
  have vendor : matchVendorIe ("signal: ".toList ++ text) = none := rfl
  simp only [bssid, ssid, rssi, freq, vendor]
  rfl

theorem parseLine_ssid {ssid : Text} (some_char : ssid ≠ []) (trimmed : Text.strip ssid = ssid) :
    parser.parseLine ("\tSSID: ".toList ++ ssid) =
      parser.modify fun info => { info with ssid := ssid } := by
  obtain ⟨front, last, shape, ends⟩ := Text.ends_of_stripped trimmed some_char
  have kept : Text.strip ("\tSSID: ".toList ++ ssid) = "SSID: ".toList ++ ssid := by
    have whole := Text.strip_ends ("SID: ".toList ++ front)
      (show Text.isSpace 'S' = false by decide) ends
    rw [show "\tSSID: ".toList ++ ssid = ['\t'] ++ ("SSID: ".toList ++ ssid) from rfl,
      Text.strip_append_blank (by decide), shape]
    simpa using whole
  have read : matchSsid ("SSID: ".toList ++ ssid) = some ssid := Text.afterLiteral_append _ _
  have bssid : matchBssid ("SSID: ".toList ++ ssid) = none := rfl
  rw [ScanParser.parseLine]
  simp only [kept, bssid, read]

/-- An empty name is cut down to less than the line has to have. -/
theorem parseLine_ssid_empty : parser.parseLine "\tSSID: ".toList = some parser :=
  rfl

theorem parseLine_vendor {oui : List Byte} (three : oui.length = 3) (first : Byte)
    (rest : List Byte) :
    parser.parseLine ("\tVendor specific: OUI ".toList ++ printOctets oui ++ ", data:".toList ++
        (first :: rest).flatMap fun octet => ' ' :: printOctet octet) =
      parser.modify fun info =>
        { info with vendorIes := info.vendorIes ++ [⟨printOctets oui, first, rest⟩] } := by
  generalize printed : ((first :: rest).flatMap fun octet => ' ' :: printOctet octet) = data
  generalize shape : "Vendor specific: OUI ".toList ++
    (printOctets oui ++ ',' :: (" data:".toList ++ data)) = line
  have some_octet : oui ≠ [] := List.ne_nil_of_length_pos (by omega)
  have kept : Text.strip ("\tVendor specific: OUI ".toList ++ printOctets oui ++
      ", data:".toList ++ data) = line := by
    obtain ⟨front, last, octets⟩ :=
      (List.eq_nil_or_concat' (first :: rest)).resolve_left (List.cons_ne_nil _ _)
    obtain ⟨high, low, digits, _, hex, _⟩ := hex_printOctet last
    have ended : data =
        (front.flatMap fun octet => ' ' :: printOctet octet) ++ [' ', high, low] := by
      rw [← printed, octets, List.flatMap_append, List.flatMap_singleton, digits]
    have ends := Text.strip_ends ("endor specific: OUI ".toList ++
      (printOctets oui ++ ", data:".toList ++
        ((front.flatMap fun octet => ' ' :: printOctet octet) ++ [' ', high])))
      (show Text.isSpace 'V' = false by decide) (hexDigit_solid hex).1
    rw [show "\tVendor specific: OUI ".toList ++ printOctets oui ++ ", data:".toList ++ data =
        ['\t'] ++ ("Vendor specific: OUI ".toList ++ printOctets oui ++ ", data:".toList ++
          data) from rfl,
      Text.strip_append_blank (by decide), ← shape, ended]
    simpa using ends
  have bssid : matchBssid line = none := by
    rw [← shape]
    rfl
  have ssid : matchSsid line = none := by
    rw [← shape]
    rfl
  have rssi : matchRssi line = none := by
    rw [← shape]
    rfl
  have freq : matchFreq line = none := by
    rw [← shape]
    rfl
  have vendor : matchVendorIe line = some ⟨printOctets oui, first, rest⟩ := by
    have ouiRead := matchOctets_printOctets some_octet (" data:".toList ++ data)
      (show ',' ≠ ':' by decide)
    have opened : Text.afterLiteral ", data:".toList (',' :: (" data:".toList ++ data)) =
        some data := Text.afterLiteral_append ", data:".toList data
    rw [three] at ouiRead
    rw [← shape, matchVendorIe, Text.afterLiteral_append]
    simp only [Option.bind_eq_bind, Option.bind_some, ouiRead, opened]
    rw [← printed, matchData_printed]
  rw [ScanParser.parseLine]
  simp only [kept, bssid, ssid, rssi, freq, vendor]

end Lines

end Gfiber.Conman
