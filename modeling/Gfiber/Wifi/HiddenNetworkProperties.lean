import Gfiber.Conman.IwProperties
import Gfiber.Wifi.HiddenNetwork
import Gfiber.Wifi.LineProperties

/-! The SSID that is recovered from the vendor element of a hidden network against the
one that the network is configured with. -/

set_option autoImplicit false

namespace Gfiber.Wifi

open Lib
open Conman (BssInfo ScanParser Unbroken VendorIe findBssids scanParsed)

section Elements

theorem hexByte_printed (byte : Byte) : ∃ high low, printHexByte byte = [high, low] ∧
    isxdigit high ∧ isxdigit low ∧ hexByte high low = byte := by
  refine ⟨_, _, rfl, ?_⟩
  revert byte
  decide +kernel

theorem decodeHex_encodeHex (payload : List Byte) :
    decodeHex (encodeHex payload) = some payload := by
  induction payload with
  | nil => rfl
  | cons byte payload ih =>
      obtain ⟨high, low, shape, first, second, same⟩ := hexByte_printed byte
      rw [encodeHex] at ih
      rw [encodeHex, List.flatMap_cons, shape]
      simp only [List.cons_append, List.nil_append, decodeHex, first, second, Bool.and_self,
        if_true, ih, same, Option.map_some]

/-- The bytes of an element. -/
def Element.bytes (element : Element) : List Byte :=
  element.tag :: BitVec.ofNat 8 element.data.length :: element.data

theorem splitElements_bytes {elements : List Element}
    (short : ∀ element ∈ elements, element.data.length < 256) :
    splitElements (elements.flatMap Element.bytes) = elements := by
  induction elements with
  | nil => simp [splitElements]
  | cons element elements ih =>
      have length : (BitVec.ofNat 8 element.data.length).toNat = element.data.length :=
        toNat_ofNat_byte (short element List.mem_cons_self)
      have later := ih fun other member => short other (List.mem_cons_of_mem _ member)
      rw [List.flatMap_cons, Element.bytes, List.cons_append, List.cons_append, splitElements,
        length, if_pos (by simp), List.take_left' rfl, List.drop_left' rfl, later]

/-- The vendor element of a feature. -/
def featureElement (featureId : Byte) (payload : List Byte) : Element :=
  ⟨0xdd, [0xf4, 0xf5, 0xe8, featureId] ++ payload⟩

theorem createVendorIe_eq (featureId : Byte) {payload : List Byte} (short : payload.length ≤ 32) :
    createVendorIe (printHexByte featureId) payload =
      encodeHex (featureElement featureId payload).bytes := by
  have length : (BitVec.ofNat 8 (payload.length + 4)).toNat = 4 + payload.length := by
    rw [toNat_ofNat_byte (by omega), Nat.add_comm]
  have printed := printHex_byte (BitVec.ofNat 8 (payload.length + 4))
  rw [length] at printed
  have tag : bytesOf "dd" = printHexByte 0xdd := by decide
  have oui : bytesOf "f4f5e8" = printHexByte 0xf4 ++ printHexByte 0xf5 ++ printHexByte 0xe8 := by
    decide
  have digits : (printHexByte featureId).length = 2 := rfl
  rw [createVendorIe, digits, show 3 + 2 / 2 + payload.length = 4 + payload.length from rfl,
    printed, tag, oui]
  simp [encodeHex, featureElement, Element.bytes]

/-- The elements of an access point in hidden mode. -/
def hiddenElements (opt : OptDict) : List Element :=
  (if opt.supportsProvisioning then [featureElement 0x01 []] else []) ++
    [featureElement 0x03 opt.ssid]

theorem sentElements_hidden {opt : OptDict} (hidden : opt.hiddenMode)
    (short : opt.ssid.length ≤ 32) :
    ∃ value, getVendorElements opt = bytesOf "vendor_elements=" ++ value ∧
      sentElements value = some (hiddenElements opt) := by
  have provisioning := createVendorIe_eq 0x01 (show ([] : List Byte).length ≤ 32 by decide)
  have name := createVendorIe_eq 0x03 short
  have ies : (vendorIes opt).flatten = encodeHex ((hiddenElements opt).flatMap Element.bytes) := by
    rw [vendorIes, if_pos hidden, hiddenElements]
    rw [show supportsProvisioningId = printHexByte 0x01 by decide,
      show provisioningSsidId = printHexByte 0x03 by decide, name, provisioning]
    cases opt.supportsProvisioning <;> simp [encodeHex]
  have some_ie : vendorIes opt ≠ [] := by
    simp [vendorIes, hidden]
  have fits : ∀ element ∈ hiddenElements opt, element.data.length < 256 := by
    intro element member
    rcases List.mem_append.mp member with feature | ssid
    · split at feature
      · cases List.mem_singleton.mp feature
        decide
      · cases feature
    · cases List.mem_singleton.mp ssid
      simp only [featureElement, List.length_append, List.length_cons, List.length_nil]
      omega
  refine ⟨_, by rw [getVendorElements, if_pos some_ie], ?_⟩
  rw [sentElements, ies, decodeHex_encodeHex, Option.map_some, splitElements_bytes fits]

end Elements

section Scan

/-- What a vendor element is read as. -/
def Element.vendorIes (element : Element) : List VendorIe :=
  if element.tag = 0xdd then
    match element.data with
    | a :: b :: c :: first :: rest => [⟨printOctets [a, b, c], first, rest⟩]
    | _ => []
  else []

/-- What the scan of an access point is read as. -/
def HiddenAccessPoint.info (point : HiddenAccessPoint) : BssInfo :=
  ⟨printOctets point.bssid, [], point.signal.number.value,
    some (Conman.freqBand (Nat.toDigits 10 point.frequency)), point.security,
    point.elements.flatMap Element.vendorIes⟩

theorem parse_securities (result : List BssInfo) (info : BssInfo)
    (securities : List Conman.Security) :
    (securities.map securityLine).foldlM ScanParser.parseLine ⟨result, some info⟩ =
      some ⟨result, some { info with security := info.security ++ securities }⟩ := by
  induction securities generalizing info with
  | nil => rw [List.append_nil]; rfl
  | cons security securities ih =>
      have step : ScanParser.parseLine ⟨result, some info⟩ (securityLine security) =
          some ⟨result, some { info with security := info.security ++ [security] }⟩ := by
        cases security with
        | wpa2 => rfl
        | wpa => rfl
        | wep => rfl
      rw [List.map_cons, Conman.parseLines_cons _ step, ih, List.append_assoc,
        List.singleton_append]

theorem parse_elements (result : List BssInfo) (info : BssInfo) {elements : List Element}
    (long : ∀ element ∈ elements, 4 ≤ element.data.length) :
    (elements.flatMap vendorLines).foldlM ScanParser.parseLine ⟨result, some info⟩ =
      some ⟨result, some
        { info with vendorIes := info.vendorIes ++ elements.flatMap Element.vendorIes }⟩ := by
  induction elements generalizing info with
  | nil => rw [List.flatMap_nil, List.flatMap_nil, List.append_nil]; rfl
  | cons element elements ih =>
      have later := fun info => ih info fun other member => long other (List.mem_cons_of_mem _ member)
      obtain ⟨tag, data⟩ := element
      match data, long _ List.mem_cons_self with
      | a :: b :: c :: first :: rest, _ =>
          rw [List.flatMap_cons, List.flatMap_cons, List.foldlM_append, vendorLines,
            Element.vendorIes]
          by_cases vendor : tag = 0xdd
          · have step := Conman.parseLine_vendor ⟨result, some info⟩
              (show [a, b, c].length = 3 from rfl) first rest
            rw [if_pos vendor, if_pos vendor]
            simp only [List.take_succ_cons, List.take_zero, List.drop_succ_cons, List.drop_zero]
            rw [Conman.parseLines_cons _ step]
            simpa using later { info with
              vendorIes := info.vendorIes ++ [⟨printOctets [a, b, c], first, rest⟩] }
          · rw [if_neg vendor, if_neg vendor]
            exact later info

theorem vendorLines_unbroken (element : Element) : ∀ line ∈ vendorLines element, Unbroken line := by
  have octets (data : List Byte) : Unbroken (data.flatMap fun octet => ' ' :: printOctet octet) := by
    have printed (octet : Byte) : Unbroken (printOctet octet) :=
      Conman.unbroken_of_solid (Conman.printOctets_solid [octet])
    induction data with
    | nil => decide
    | cons octet data ih =>
        have first : Unbroken ([' '] ++ printOctet octet) := .append (by decide) (printed octet)
        exact first.append ih
  have oui := Conman.unbroken_of_solid (Conman.printOctets_solid (element.data.take 3))
  intro line member
  rw [vendorLines] at member
  split at member
  · cases List.mem_singleton.mp member
    have front : Unbroken
        ("\tVendor specific: OUI ".toList ++ printOctets (element.data.take 3)) :=
      .append (by decide) oui
    exact .append (.append front (by decide)) (octets _)
  · cases member

theorem lines_unbroken (point : HiddenAccessPoint) {interface : Text}
    (oneLine : Unbroken interface) : ∀ line ∈ point.lines interface, Unbroken line := by
  have bssid := Conman.unbroken_of_solid (Conman.printOctets_solid point.bssid)
  have signal := Conman.unbroken_of_solid point.signal.solid
  have frequency := Conman.unbroken_of_solid fun char member =>
    (digit_plain_char (isDigit_toDigits point.frequency char member)).2.2
  intro line member
  rcases List.mem_append.mp member with known | vendor
  · rcases List.mem_append.mp known with header | security
    · simp only [List.mem_cons, List.not_mem_nil, or_false] at header
      rcases header with rfl | rfl | rfl | rfl
      · have address : Unbroken ("BSS ".toList ++ printOctets point.bssid) :=
          .append (by decide) bssid
        exact .append (.append (.append address (by decide)) oneLine) (by decide)
      · exact .append (by decide) frequency
      · have value : Unbroken ("\tsignal: ".toList ++ point.signal.text) :=
          .append (by decide) signal
        exact value.append (by decide)
      · decide
    · obtain ⟨kind, _, rfl⟩ := List.mem_map.mp security
      cases kind with
      | wpa2 => decide
      | wpa => decide
      | wep => decide
  · obtain ⟨element, _, inside⟩ := List.mem_flatMap.mp vendor
    exact vendorLines_unbroken element line inside

/-- The scan of one access point is read as its info. -/
theorem scanParsed_scan (point : HiddenAccessPoint) {interface : Text}
    (oneLine : Unbroken interface)
    (long : ∀ element ∈ point.elements, 4 ≤ element.data.length) :
    scanParsed (point.scan interface) = some [point.info] := by
  let started : BssInfo := .new (printOctets point.bssid)
  let tuned : BssInfo :=
    { started with band := some (Conman.freqBand (Nat.toDigits 10 point.frequency)) }
  let measured : BssInfo := { tuned with rssi := point.signal.number.value }
  have bss : ScanParser.start.parseLine ("BSS ".toList ++ printOctets point.bssid ++
      "(on ".toList ++ interface ++ ")".toList) = some ⟨[], some started⟩ :=
    Conman.parseLine_bss .start point.six interface
  have freq : ScanParser.parseLine ⟨[], some started⟩
      ("\tfreq: ".toList ++ Nat.toDigits 10 point.frequency) = some ⟨[], some tuned⟩ :=
    Conman.parseLine_freq ⟨[], some started⟩ point.frequency
  have signal : ScanParser.parseLine ⟨[], some tuned⟩
      ("\tsignal: ".toList ++ point.signal.text ++ " dBm".toList) =
      some ⟨[], some measured⟩ :=
    Conman.parseLine_signal_unit ⟨[], some tuned⟩ point.signal
  have ssid := Conman.parseLine_ssid_empty ⟨[], some measured⟩
  have run : (point.lines interface).foldlM ScanParser.parseLine .start =
      some ⟨[], some point.info⟩ := by
    rw [HiddenAccessPoint.lines, List.append_assoc, List.cons_append, List.cons_append,
      List.cons_append, List.cons_append, List.nil_append, Conman.parseLines_cons _ bss,
      Conman.parseLines_cons _ freq, Conman.parseLines_cons _ signal,
      Conman.parseLines_cons _ ssid, List.foldlM_append, parse_securities]
    exact parse_elements [] { measured with security := point.security } long
  rw [scanParsed, HiddenAccessPoint.scan,
    Conman.splitlines_lines (lines_unbroken point oneLine), run]
  rfl

end Scan

section Recovery

theorem sanitizeSsid_eq_iff (unicode : UnicodeDatabase) (ssid : List Byte) :
    sanitizeSsid unicode ssid = ssid ↔
      ∃ points, (∀ point ∈ points, point < 0x110000 ∧ unicode.isOther point = false) ∧
        ssid = encodeUtf8 points := by
  constructor
  · intro same
    refine ⟨(decodeUtf8 ssid).filter fun point => !unicode.isOther point, ?_, same.symm⟩
    intro point kept
    obtain ⟨decoded, printed⟩ := List.mem_filter.mp kept
    exact ⟨decodeUtf8_lt ssid point decoded, by simpa using printed⟩
  · rintro ⟨points, valid, rfl⟩
    have decoded := decodeUtf8_encode fun point member => (valid point member).1
    have kept : points.filter (fun point => !unicode.isOther point) = points := by
      rw [List.filter_eq_self]
      intro point member
      rw [(valid point member).2]
      rfl
    rw [sanitizeSsid, decoded, kept]

theorem decodeOctets_injective {octets others : List Byte}
    (same : Conman.decodeOctets octets = Conman.decodeOctets others) : octets = others := by
  have value : ∀ octet : Byte, (Char.ofNat octet.toNat).toNat = octet.toNat := by decide +kernel
  have each : Function.Injective fun octet : Byte => Char.ofNat octet.toNat := by
    intro octet other char
    have values := congrArg Char.toNat char
    rw [value, value] at values
    exact BitVec.eq_of_toNat_eq values
  exact each.list_map same

/-- The name of a network in hidden mode is taken from its vendor element. -/
theorem named_ssid {point : HiddenAccessPoint} {opt : OptDict}
    (sends : point.elements = hiddenElements opt) :
    point.info.named.ssid = Conman.decodeOctets opt.ssid := by
  have oui : printOctets [0xf4, 0xf5, 0xe8] = Conman.gfiberVendorIeOui := by decide
  have name : Element.vendorIes (featureElement 0x03 opt.ssid) =
      [⟨Conman.gfiberVendorIeOui, Conman.vendorIeFeatureIdSsid, opt.ssid⟩] := by
    rw [← oui]
    rfl
  have feature : Element.vendorIes (featureElement 0x01 []) =
      [⟨Conman.gfiberVendorIeOui, Conman.vendorIeFeatureIdAutoprovisioning, []⟩] := by
    rw [← oui]
    rfl
  have different : Conman.vendorIeFeatureIdAutoprovisioning ≠ Conman.vendorIeFeatureIdSsid := by
    decide
  have ies : point.info.vendorIes = (if opt.supportsProvisioning then
      [⟨Conman.gfiberVendorIeOui, Conman.vendorIeFeatureIdAutoprovisioning, []⟩] else []) ++
      [⟨Conman.gfiberVendorIeOui, Conman.vendorIeFeatureIdSsid, opt.ssid⟩] := by
    rw [HiddenAccessPoint.info, sends, hiddenElements, List.flatMap_append,
      List.flatMap_singleton, name]
    cases opt.supportsProvisioning with
    | false => rfl
    | true => rw [if_pos rfl, if_pos rfl, List.flatMap_singleton, feature]
  have unnamed : point.info.ssid = [] := rfl
  rw [BssInfo.named, ies, unnamed]
  cases opt.supportsProvisioning with
  | false => simp
  | true => simp [different]

theorem mem_linesOf_join {line : List Byte} {lines : List (List Byte)} (listed : line ∈ lines)
    (unbroken : lineEnd ∉ line) : line ∈ linesOf (joinLines lines) := by
  rw [linesOf_join (List.ne_nil_of_mem listed)]
  refine List.mem_flatMap.mpr ⟨line, listed, ?_⟩
  rw [linesOf, List.splitOn_eq_singleton unbroken]
  exact List.mem_singleton_self line

/-- The line of the SSID and that of the vendor elements are in the configuration. -/
theorem config_lines {environment : HostapdEnvironment} {phyInfo interface : List Byte}
    {band : Band} {channel : List Byte} {width : Nat} {protocols : List Protocol}
    {psk config : List Byte} {opt : OptDict}
    (generated : generateHostapdConfig environment phyInfo interface band channel width protocols
      psk opt = .ok config) :
    bytesOf "ssid=" ++ sanitizeSsid environment.unicode opt.ssid ∈ linesOf config ∧
      getVendorElements opt ∈ linesOf config := by
  obtain ⟨settings, _, generated⟩ := bind_ok generated
  obtain ⟨parts, _, generated⟩ := bind_ok generated
  cases generated
  have inside {line : List Byte}
      (listed : line ∈ hostconfLines settings (sanitizeSsid environment.unicode opt.ssid)
        (getVendorElements opt)) (unbroken : lineEnd ∉ line) :
      line ∈ linesOf (joinLines (joinLines (hostconfLines settings
        (sanitizeSsid environment.unicode opt.ssid) (getVendorElements opt)) ::
          (parts ++ hostapdTail environment interface opt))) := by
    rw [linesOf_join (List.cons_ne_nil _ _), List.flatMap_cons]
    exact List.mem_append_left _ (mem_linesOf_join listed unbroken)
  refine ⟨inside (by simp [hostconfLines]) ?_, inside (by simp [hostconfLines]) ?_⟩
  · exact List.not_mem_append (by decide) (unbroken_ssid environment.unicode opt.ssid)
  · rw [getVendorElements]
    split
    · exact List.not_mem_append (by decide) (unbroken_of_digits (digits_vendorIes opt))
    · exact List.not_mem_nil

theorem long_hiddenElements (opt : OptDict) :
    ∀ element ∈ hiddenElements opt, 4 ≤ element.data.length := by
  have long (featureId : Byte) (payload : List Byte) :
      4 ≤ (featureElement featureId payload).data.length := by
    simp [featureElement]
  intro element member
  rcases List.mem_append.mp member with feature | ssid
  · split at feature
    · cases List.mem_singleton.mp feature
      exact long _ _
    · cases feature
  · cases List.mem_singleton.mp ssid
    exact long _ _

/-- What another device finds of an access point in hidden mode. -/
theorem found_hidden {point : HiddenAccessPoint} {opt : OptDict}
    (sends : point.elements = hiddenElements opt) {includeSecure : Bool}
    (visible : point.security = [] ∨ includeSecure) (order : IterationOrder BssInfo)
    {scanner : Text} (oneLine : Unbroken scanner) :
    ∃ infos found priority, scanParsed (point.scan scanner) = some infos ∧
      findBssids includeSecure order infos = [(found, priority)] ∧
      found.ssid = Conman.decodeOctets opt.ssid := by
  have parsed := scanParsed_scan point oneLine (sends ▸ long_hiddenElements opt)
  have collected : Conman.collectBssids includeSecure [point.info] = [point.info.named] := by
    have kept : ¬(point.info.security ≠ [] ∧ includeSecure = false) := by
      rintro ⟨secured, excluded⟩
      rcases visible with plain | included
      · exact secured plain
      · exact absurd (included.symm.trans excluded) (by decide)
    rw [Conman.collectBssids, List.foldl_cons, if_neg kept]
    rfl
  have arranged : order.arrange [point.info.named] = [point.info.named] :=
    List.perm_singleton.mp (order.perm _)
  refine ⟨_, point.info.named, Conman.bssidPriority point.info.named, parsed, ?_,
    named_ssid sends⟩
  rw [findBssids, collected, arranged]
  rfl

/-- A network in hidden mode is found under the SSID that it is configured with if and only
if its SSID is the encoding of characters none of which is of category C. -/
theorem hidden_ssid_recovered_iff {environment : HostapdEnvironment}
    {phyInfo interface : List Byte} {band : Band} {channel : List Byte} {width : Nat}
    {protocols : List Protocol} {psk config : List Byte} {opt : OptDict}
    (hidden : opt.hiddenMode) (short : opt.ssid.length ≤ 32)
    (generated : generateHostapdConfig environment phyInfo interface band channel width protocols
      psk opt = .ok config) :
    bytesOf "ssid=" ++ sanitizeSsid environment.unicode opt.ssid ∈ linesOf config ∧
      ∃ value elements, bytesOf "vendor_elements=" ++ value ∈ linesOf config ∧
        sentElements value = some elements ∧
        ∀ point : HiddenAccessPoint, point.elements = elements →
          ∀ includeSecure : Bool, point.security = [] ∨ includeSecure →
          ∀ (order : IterationOrder BssInfo) (scanner : Text), Unbroken scanner →
          ∃ infos found priority, scanParsed (point.scan scanner) = some infos ∧
            findBssids includeSecure order infos = [(found, priority)] ∧
            (found.ssid = Conman.decodeOctets (sanitizeSsid environment.unicode opt.ssid) ↔
              ∃ points, (∀ point ∈ points, point < 0x110000 ∧
                environment.unicode.isOther point = false) ∧ opt.ssid = encodeUtf8 points) := by
  obtain ⟨ssidLine, elementsLine⟩ := config_lines generated
  obtain ⟨value, assigned, sent⟩ := sentElements_hidden hidden short
  rw [assigned] at elementsLine
  refine ⟨ssidLine, value, _, elementsLine, sent, ?_⟩
  intro point sends includeSecure visible order scanner oneLine
  obtain ⟨infos, found, priority, parsed, listed, ssid⟩ :=
    found_hidden sends visible order oneLine
  refine ⟨infos, found, priority, parsed, listed, ?_⟩
  rw [ssid, ← sanitizeSsid_eq_iff]
  constructor
  · intro same
    exact (decodeOctets_injective same).symm
  · intro same
    rw [same]

/-- A system without experiments. -/
def plainEnvironment : HostapdEnvironment where
  unicode := .controls
  experimentEnabled _ := false
  isNetworkBox := none
  hnvram _ := none

/-- The options of an open access point in hidden mode. -/
def hiddenOptions (ssid : List Byte) : OptDict :=
  { ssid, band := .ghz5, bssid := [], encryption := bytesOf "NONE", bridge := bytesOf "br0"
    shortGuardInterval := false, enableWmm := false, hiddenMode := true, clientIsolation := false
    wds := false, supportsProvisioning := false, yottasecondTimeouts := false
    extraShortTimeouts := 0, noBandRestriction := false }

/-- The configuration of that access point on channel 36. -/
def hiddenConfig (ssid : List Byte) : Except WifiError (List Byte) :=
  generateHostapdConfig plainEnvironment [] (bytesOf "wlan1") .ghz5 (bytesOf "36") 20 [.n] []
    (hiddenOptions ssid)

theorem hidden_ssid_recovered_plain :
    ∃ config, hiddenConfig (bytesOf "GFiberSetup") = .ok config ∧
      bytesOf "ssid=" ++ sanitizeSsid .controls (bytesOf "GFiberSetup") ∈ linesOf config ∧
      ∃ value elements, bytesOf "vendor_elements=" ++ value ∈ linesOf config ∧
        sentElements value = some elements ∧
        ∀ point : HiddenAccessPoint, point.elements = elements →
          ∀ includeSecure : Bool, point.security = [] ∨ includeSecure →
          ∀ (order : IterationOrder BssInfo) (scanner : Text), Unbroken scanner →
          ∃ infos found priority, scanParsed (point.scan scanner) = some infos ∧
            findBssids includeSecure order infos = [(found, priority)] ∧
            found.ssid = Conman.decodeOctets (sanitizeSsid .controls (bytesOf "GFiberSetup")) := by
  refine ⟨_, rfl, ?_⟩
  obtain ⟨ssidLine, value, elements, elementsLine, sent, recovered⟩ :=
    @hidden_ssid_recovered_iff plainEnvironment [] (bytesOf "wlan1") .ghz5 (bytesOf "36") 20
      [.n] [] _ (hiddenOptions (bytesOf "GFiberSetup")) rfl (by decide) rfl
  refine ⟨ssidLine, value, elements, elementsLine, sent, ?_⟩
  intro point sends includeSecure visible order scanner oneLine
  obtain ⟨infos, found, priority, parsed, listed, ssid⟩ :=
    recovered point sends includeSecure visible order scanner oneLine
  refine ⟨infos, found, priority, parsed, listed, ssid.mpr ?_⟩
  exact ⟨(bytesOf "GFiberSetup").map BitVec.toNat, by decide, by decide⟩

/-- An SSID in Latin-1. -/
def latinSsid : List Byte :=
  bytesOf "caf" ++ [0xe9]

/-- That access point as it is received. -/
def latinPoint : HiddenAccessPoint :=
  ⟨[0xf4, 0xf5, 0xe8, 0, 0, 1], 5180, ⟨"-50.00".toList, ⟨true, 50⟩,
    Text.forall_of_all (by decide), by decide +kernel⟩, [], hiddenElements (hiddenOptions latinSsid), rfl⟩

theorem latin_ssid_not_recovered :
    ∃ config value, hiddenConfig latinSsid = .ok config ∧
      bytesOf "ssid=caf" ∈ linesOf config ∧
      bytesOf "vendor_elements=" ++ value ∈ linesOf config ∧
      sentElements value = some latinPoint.elements ∧
      ∃ infos found priority, scanParsed (latinPoint.scan "wcli0".toList) = some infos ∧
        findBssids false .inserted infos = [(found, priority)] ∧
        found.ssid = Conman.decodeOctets latinSsid ∧
        found.ssid ≠ Conman.decodeOctets (bytesOf "caf") := by
  have generated : ∃ config, hiddenConfig latinSsid = .ok config := ⟨_, rfl⟩
  obtain ⟨config, generated⟩ := generated
  obtain ⟨ssidLine, elementsLine⟩ := config_lines generated
  obtain ⟨value, assigned, sent⟩ :=
    sentElements_hidden (show (hiddenOptions latinSsid).hiddenMode from rfl) (by decide)
  obtain ⟨infos, found, priority, parsed, listed, ssid⟩ :=
    found_hidden (show latinPoint.elements = hiddenElements (hiddenOptions latinSsid) from rfl)
      (Or.inl rfl) .inserted (show Unbroken "wcli0".toList by decide)
  rw [assigned] at elementsLine
  refine ⟨config, value, generated, ?_, elementsLine, sent, infos, found, priority, parsed,
    listed, ssid, ?_⟩
  · have cleaned : bytesOf "ssid=" ++ sanitizeSsid .controls latinSsid = bytesOf "ssid=caf" := by
      decide +kernel
    exact cleaned ▸ ssidLine
  · rw [ssid]
    decide

end Recovery

end Gfiber.Wifi
