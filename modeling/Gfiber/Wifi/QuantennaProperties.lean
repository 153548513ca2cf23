import Gfiber.Conman.IwProperties
import Gfiber.Wifi.Quantenna

/-! What conman reads of the scan that quantenna.py prints. -/

set_option autoImplicit false

namespace Gfiber.Wifi

open Lib
open Conman (BssInfo ScanParser Unbroken scanParsed)

section Properties

variable (point : AccessPoint)

theorem columns_words : ∀ word ∈ point.columns, word ≠ [] ∧
    ∀ char ∈ word, Text.isSpace char = false := by
  have numbers (value : Nat) : Nat.toDigits 10 value ≠ [] ∧
      ∀ char ∈ Nat.toDigits 10 value, Text.isSpace char = false :=
    ⟨Nat.toDigits_ne_nil, fun char member =>
      (digit_plain_char (isDigit_toDigits value char member)).2.2⟩
  have mac : printOctets point.mac ≠ [] := by
    obtain ⟨octet, octets, shape⟩ :=
      List.exists_cons_of_length_pos (show 0 < point.mac.length by rw [point.six]; decide)
    rw [shape]
    cases octets with
    | nil => exact List.cons_ne_nil _ _
    | cons next octets => exact List.cons_ne_nil _ _
  have rssi : point.rssi.text ≠ [] := by
    intro empty
    have parsed := point.rssi.parsed
    rw [empty] at parsed
    cases parsed
  intro word member
  simp only [AccessPoint.columns, List.cons_append, List.nil_append, List.mem_cons,
    List.mem_map] at member
  rcases member with rfl | rfl | rfl | ⟨value, _, rfl⟩
  · exact ⟨mac, Conman.printOctets_solid _⟩
  · exact numbers _
  · exact ⟨rssi, point.rssi.solid⟩
  · exact numbers value

/-- The properties are read as what they are printed from. -/
theorem parseScanResult_properties :
    parseScanResult point.properties = some point.result := by
  have each := columns_words point
  obtain ⟨last, rest, shape⟩ : ∃ last rest, point.columns = rest ++ [last] :=
    ⟨_, _, (List.dropLast_append_getLast (by simp [AccessPoint.columns])).symm⟩
  obtain ⟨some_char, solid⟩ := each last (by simp [shape])
  obtain ⟨front, final, word⟩ := (List.eq_nil_or_concat' last).resolve_left some_char
  have stripped : Text.strip point.properties = point.properties := by
    have ends := Text.strip_ends (point.ssid ++ ['"'] ++ rest.flatMap (' ' :: ·) ++ ' ' :: front)
      (show Text.isSpace '"' = false by decide) (solid final (by simp [word]))
    simpa [AccessPoint.properties, shape, word] using ends
  have split : Text.rsplit 10 point.properties =
      ('"' :: point.ssid ++ ['"']) :: point.columns :=
    Text.rsplit_words (by decide) each
  have quotes : unquoted ('"' :: point.ssid ++ ['"']) = point.ssid := by
    simp [unquoted]
  rw [parseScanResult, stripped, split]
  simp only [AccessPoint.columns, List.map_cons, List.cons_append, List.nil_append,
    parseInt_toDigits, point.rssi.parsed]
  rw [← List.cons_append, quotes]
  rfl

end Properties

section Lines

variable (hif : Text) (point : AccessPoint)

/-- What is read of the security that is printed. -/
def AccessPoint.securityShown : List Conman.Security :=
  if firstBit point.securityEnabled then
    (if firstBit point.protocols then [.wpa] else []) ++
      if secondBit point.protocols then [.wpa2] else []
  else []

/-- What is read of the lines that are printed. The signal is lost. -/
def AccessPoint.shown : BssInfo :=
  ⟨printOctets point.mac, point.ssid, 0, some .ghz5, point.securityShown, []⟩

theorem freqBand_channel {channel : Nat} (small : channel < 200) :
    Conman.freqBand (Nat.toDigits 10 (5000 + 5 * channel)) = .ghz5 := by
  have every : ∀ channel : Fin 200,
      (Nat.toDigits 10 (5000 + 5 * channel.val)).head? ≠ some '2' := by decide +kernel
  exact if_neg (every ⟨channel, small⟩)

theorem parse_security (result : List BssInfo) (info : BssInfo) (nothing : info.security = []) :
    (securityLines point.result).foldlM ScanParser.parseLine ⟨result, some info⟩ =
      some ⟨result, some { info with security := point.securityShown }⟩ := by
  obtain ⟨bssid, ssid, rssi, band, security, vendorIes⟩ := info
  cases nothing
  have flags : point.result.flags = point.securityEnabled := rfl
  have protocols : point.result.protocols = point.protocols := rfl
  rw [securityLines, AccessPoint.securityShown, flags, protocols]
  cases firstBit point.securityEnabled <;> cases firstBit point.protocols <;>
    cases secondBit point.protocols <;> rfl

theorem parse_ssid (result : List BssInfo) (info : BssInfo) (nothing : info.ssid = []) :
    ScanParser.parseLine ⟨result, some info⟩ ("\tSSID: ".toList ++ point.ssid) =
      some ⟨result, some { info with ssid := point.ssid }⟩ := by
  by_cases empty : point.ssid = []
  · rw [empty, List.append_nil, Conman.parseLine_ssid_empty, ← nothing]
  · rw [Conman.parseLine_ssid _ empty point.trimmed]
    rfl

/-- The lines of an access point end the info before and start its own. -/
theorem parse_block (parser : ScanParser) :
    (scanLines hif point.result).foldlM ScanParser.parseLine parser =
      some ⟨parser.finish, some point.shown⟩ := by
  let started : BssInfo := .new (printOctets point.mac)
  let tuned : BssInfo := { started with band := some .ghz5 }
  have frequency : printDecimal (5000 + 5 * point.result.channel) =
      Nat.toDigits 10 (5000 + 5 * point.channel) :=
    printDecimal_natCast (5000 + 5 * point.channel)
  have lines : scanLines hif point.result =
      ("BSS ".toList ++ printOctets point.mac ++ "(on ".toList ++ hif ++ ")".toList) ::
        ("\tfreq: ".toList ++ Nat.toDigits 10 (5000 + 5 * point.channel)) ::
        ("\tsignal: ".toList ++ printFixed point.result.rssi) ::
        ("\tSSID: ".toList ++ point.ssid) :: securityLines point.result := by
    rw [scanLines, frequency]
    rfl
  obtain ⟨some_char, solid⟩ := printFixed_solid point.result.rssi
  have bss := Conman.parseLine_bss parser point.six hif
  have freq : ScanParser.parseLine ⟨parser.finish, some started⟩
      ("\tfreq: ".toList ++ Nat.toDigits 10 (5000 + 5 * point.channel)) =
      some ⟨parser.finish, some tuned⟩ := by
    rw [Conman.parseLine_freq, freqBand_channel point.fiveGhz]
    rfl
  have signal := Conman.parseLine_signal ⟨parser.finish, some tuned⟩ some_char solid
  have ssid := parse_ssid point parser.finish tuned rfl
  rw [lines, Conman.parseLines_cons _ bss, Conman.parseLines_cons _ freq,
    Conman.parseLines_cons _ signal, Conman.parseLines_cons _ ssid, parse_security _ _ _ rfl]
  rfl

/-- The lines of one access point after those of another. -/
theorem parse_blocks (points : List AccessPoint) (parser : ScanParser) :
    ∃ last, (points.flatMap fun point => scanLines hif point.result).foldlM
        ScanParser.parseLine parser = some last ∧
      last.finish = parser.finish ++ points.map AccessPoint.shown := by
  induction points generalizing parser with
  | nil => exact ⟨parser, rfl, (List.append_nil _).symm⟩
  | cons point points ih =>
      obtain ⟨last, run, finished⟩ := ih ⟨parser.finish, some point.shown⟩
      refine ⟨last, ?_, ?_⟩
      · rw [List.flatMap_cons, List.foldlM_append, parse_block]
        exact run
      · rw [finished, ScanParser.finish, Option.toList_some, List.map_cons, List.append_assoc,
          List.singleton_append]

theorem securityLines_unbroken (result : ScanResult) :
    ∀ line ∈ securityLines result, Unbroken line := by
  rw [securityLines]
  cases firstBit result.flags <;> cases firstBit result.protocols <;>
    cases secondBit result.protocols <;> decide

theorem scanLines_unbroken (oneLine : Unbroken hif) :
    ∀ line ∈ scanLines hif point.result, Unbroken line := by
  have mac := Conman.unbroken_of_solid (Conman.printOctets_solid point.mac)
  have signal := Conman.unbroken_of_solid (printFixed_solid point.result.rssi).2
  have frequency := Conman.unbroken_of_solid fun char member =>
    (digit_plain_char (isDigit_toDigits (5000 + 5 * point.channel) char member)).2.2
  rw [← printDecimal_natCast] at frequency
  have ssid : Unbroken point.ssid :=
    ⟨fun member => absurd (point.printable _ member).1 (by decide),
      fun member => absurd (point.printable _ member).1 (by decide)⟩
  intro line member
  rcases List.mem_append.mp member with fields | security
  · simp only [List.mem_cons, List.not_mem_nil, or_false] at fields
    rcases fields with rfl | rfl | rfl | rfl
    · have address : Unbroken ("BSS ".toList ++ point.result.mac) := .append (by decide) mac
      exact .append (.append (.append address (by decide)) oneLine) (by decide)
    · exact .append (by decide) frequency
    · exact .append (by decide) signal
    · exact .append (by decide) ssid
  · exact securityLines_unbroken _ line security

/-- What is read of the whole scan. -/
theorem scanParsed_scanWifi (oneLine : Unbroken hif) (points : List AccessPoint) :
    ∃ printed, scanWifi hif (points.map AccessPoint.properties) = some printed ∧
      scanParsed printed = some (points.map AccessPoint.shown) := by
  have results : (points.map AccessPoint.properties).mapM parseScanResult =
      some (points.map AccessPoint.result) := by
    induction points with
    | nil => rfl
    | cons point points ih =>
        rw [List.map_cons, List.mapM_cons, parseScanResult_properties, ih]
        rfl
  have unbroken : ∀ line ∈ points.flatMap fun point => scanLines hif point.result,
      Unbroken line := by
    intro line member
    obtain ⟨point, _, inside⟩ := List.mem_flatMap.mp member
    exact scanLines_unbroken hif point oneLine line inside
  obtain ⟨last, run, finished⟩ := parse_blocks hif points .start
  refine ⟨_, by rw [scanWifi, results]; rfl, ?_⟩
  rw [scanParsed, List.flatMap_map, Conman.splitlines_lines unbroken, run, Option.map_some,
    finished]
  rfl

end Lines

section Reading

/-- The info tells of the access point what the driver found. -/
structure ReadBack (point : AccessPoint) (info : BssInfo) : Prop where
  bssid : info.bssid = printOctets point.mac
  ssid : info.ssid = point.ssid
  rssi : hundredths info.rssi = hundredths point.rssi.number.neg.value
  band : info.band = some .ghz5
  security : info.security ≠ [] ↔ firstBit point.securityEnabled

theorem readBack_shown_iff (point : AccessPoint) :
    ReadBack point point.shown ↔
      hundredths point.rssi.number.neg.value = 0 ∧
        (firstBit point.securityEnabled →
          firstBit point.protocols ∨ secondBit point.protocols) := by
  have security : point.securityShown ≠ [] ↔ firstBit point.securityEnabled ∧
      (firstBit point.protocols ∨ secondBit point.protocols) := by
    rw [AccessPoint.securityShown]
    cases firstBit point.securityEnabled <;> cases firstBit point.protocols <;>
      cases secondBit point.protocols <;> decide
  have zero : hundredths 0 = 0 := by decide +kernel
  constructor
  · intro read
    refine ⟨read.rssi.symm.trans zero, fun enabled => ?_⟩
    exact (security.mp (read.security.mpr enabled)).2
  · intro ⟨silent, protocols⟩
    refine ⟨rfl, rfl, zero.trans silent.symm, rfl, ?_⟩
    exact security.trans ⟨And.left, fun enabled => ⟨enabled, protocols enabled⟩⟩

/-- The access point in the comment about the properties. -/
def quantenna1 : AccessPoint where
  ssid := "Quantenna1".toList
  mac := [0x00, 0x26, 0x86, 0x00, 0x11, 0x5f]
  channel := 60
  rssi := ⟨"56".toList, ⟨false, 56⟩, Text.forall_of_all (by decide), by decide +kernel⟩
  securityEnabled := 1
  protocols := 2
  authentication := 1
  encryption := 2
  qhopFlags := 0
  wpsFlags := 15
  bandwidth := 80
  printable := Text.forall_of_all (by decide)
  trimmed := by decide
  six := rfl
  fiveGhz := by decide

/-- A scan is read back if and only if no signal is other than zero and no network is
secured by neither WPA nor WPA2. -/
theorem scan_read_back_iff {hif : Text} (oneLine : Unbroken hif)
    (points : List AccessPoint) :
    ∃ printed infos, scanWifi hif (points.map AccessPoint.properties) = some printed ∧
      scanParsed printed = some infos ∧
      (List.Forall₂ ReadBack points infos ↔
        ∀ point ∈ points, hundredths point.rssi.number.neg.value = 0 ∧
          (firstBit point.securityEnabled →
            firstBit point.protocols ∨ secondBit point.protocols)) := by
  obtain ⟨printed, done, parsed⟩ := scanParsed_scanWifi hif oneLine points
  refine ⟨printed, _, done, parsed, ?_⟩
  rw [List.forall₂_map_right_iff, List.forall₂_same]
  exact forall₂_congr fun point _ => readBack_shown_iff point

/-- The same access point without a signal. -/
def silent1 : AccessPoint :=
  { quantenna1 with
    rssi := ⟨"0".toList, ⟨false, 0⟩, Text.forall_of_all (by decide), by decide +kernel⟩ }

theorem scan_read_back_quantenna1 :
    ∃ printed infos,
      scanWifi "wlan0".toList ([silent1].map AccessPoint.properties) = some printed ∧
      scanParsed printed = some infos ∧ List.Forall₂ ReadBack [silent1] infos := by
  obtain ⟨printed, infos, done, parsed, same⟩ :=
    scan_read_back_iff (show Unbroken "wlan0".toList by decide) [silent1]
  refine ⟨printed, infos, done, parsed, same.mpr fun point member => ?_⟩
  cases List.mem_singleton.mp member
  exact ⟨by decide +kernel, fun _ => .inr (by decide)⟩

theorem quantenna1_not_read_back :
    quantenna1.properties =
        "\"Quantenna1\" 00:26:86:00:11:5f 60 56 1 2 1 2 0 15 80".toList ∧
      ∃ printed infos, scanWifi "wlan0".toList [quantenna1.properties] = some printed ∧
        scanParsed printed = some infos ∧ ¬List.Forall₂ ReadBack [quantenna1] infos := by
  obtain ⟨printed, done, parsed⟩ :=
    scanParsed_scanWifi "wlan0".toList (by decide) [quantenna1]
  refine ⟨by decide +kernel, printed, _, done, parsed, ?_⟩
  rintro (_ | ⟨read, _⟩)
  have lost := (readBack_shown_iff quantenna1).mp read
  exact absurd lost.1 (by decide +kernel)

end Reading

end Gfiber.Wifi
