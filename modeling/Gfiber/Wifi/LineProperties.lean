import Gfiber.Wifi.Configs

/-! The lines of the generated configurations do not depend on the SSID or the
passphrase, and on the BSSID only where it breaks its line. -/

set_option autoImplicit false

namespace Gfiber.Wifi

open Lib

section Values

theorem bind_ok {Error Value Other : Type} {action : Except Error Value}
    {next : Value → Except Error Other} {result : Other}
    (returned : action >>= next = .ok result) :
    ∃ value, action = .ok value ∧ next value = .ok result := by
  cases action with
  | error error => cases returned
  | ok value => exact ⟨value, rfl, returned⟩

theorem unbroken_of_controls {text : List Byte} (controls : ∀ byte ∈ text, 0x20 ≤ byte.toNat) :
    lineEnd ∉ text := by
  intro member
  have large := controls lineEnd member
  exact absurd large (by decide)

theorem unbroken_of_digits {text : List Byte} (digits : ∀ byte ∈ text, isxdigit byte) :
    lineEnd ∉ text := by
  intro member
  have digit := digits lineEnd member
  exact absurd digit (by decide)

theorem unbroken_ssid (unicode : UnicodeDatabase) (ssid : List Byte) :
    lineEnd ∉ sanitizeSsid unicode ssid :=
  unbroken_of_controls fun _ member => (sanitizeSsid_controls unicode ssid member).1

theorem unbroken_psk {psk clean : List Byte} (valid : validateAndSanitizePsk psk = .ok clean) :
    lineEnd ∉ clean :=
  unbroken_of_controls (validateAndSanitizePsk_controls valid)

theorem digits_encodeHex (payload : List Byte) : ∀ byte ∈ encodeHex payload, isxdigit byte := by
  intro byte member
  obtain ⟨source, _, inside⟩ := List.mem_flatMap.mp member
  exact xdigit_printHexByte source byte inside

theorem digits_createVendorIe {featureId : List Byte} (digits : ∀ byte ∈ featureId, isxdigit byte)
    (payload : List Byte) : ∀ byte ∈ createVendorIe featureId payload, isxdigit byte := by
  intro byte member
  simp only [createVendorIe, List.mem_append] at member
  rcases member with (((tag | length) | oui) | feature) | data
  · have plain : ∀ byte ∈ bytesOf "dd", isxdigit byte := by decide
    exact plain byte tag
  · exact xdigit_printHex _ byte length
  · have plain : ∀ byte ∈ bytesOf "f4f5e8", isxdigit byte := by decide
    exact plain byte oui
  · exact digits byte feature
  · exact digits_encodeHex payload byte data

theorem digits_vendorIes (opt : OptDict) : ∀ byte ∈ (vendorIes opt).flatten, isxdigit byte := by
  intro byte member
  obtain ⟨ie, listed, inside⟩ := List.mem_flatten.mp member
  rcases List.mem_append.mp listed with provisioning | hidden
  · split at provisioning
    case isTrue =>
      cases List.mem_singleton.mp provisioning
      exact digits_createVendorIe (by decide) [] byte inside
    case isFalse => cases provisioning
  · split at hidden
    case isTrue =>
      cases List.mem_singleton.mp hidden
      exact digits_createVendorIe (by decide) opt.ssid byte inside
    case isFalse => cases hidden

end Values

section Hostapd

theorem lineKeys_vendorElements (opt : OptDict) :
    lineKeys (getVendorElements opt) =
      if opt.supportsProvisioning ∨ opt.hiddenMode then [bytesOf "vendor_elements"] else [[]] := by
  have some_iff : vendorIes opt ≠ [] ↔ opt.supportsProvisioning ∨ opt.hiddenMode := by
    cases provisioning : opt.supportsProvisioning <;> cases hidden : opt.hiddenMode <;>
      simp [vendorIes, provisioning, hidden]
  rw [getVendorElements]
  split
  case isTrue present =>
    have named : lineKeys (bytesOf "vendor_elements=" ++ (vendorIes opt).flatten) =
        [bytesOf "vendor_elements"] :=
      lineKeys_named (by decide) (by decide) (by decide) (unbroken_of_digits (digits_vendorIes opt))
    rw [if_pos (some_iff.mp present), ← named]
  case isFalse absent =>
    rw [if_neg (mt some_iff.mpr absent)]
    rfl

/-- Two texts whose lines have the same keys pairwise have the same keys. -/
theorem lineKeys_hostconf (settings : HostapdSettings) {ssid other elements others : List Byte}
    (unbroken : lineEnd ∉ ssid) (otherUnbroken : lineEnd ∉ other)
    (same : lineKeys elements = lineKeys others) :
    lineKeys (joinLines (hostconfLines settings ssid elements)) =
      lineKeys (joinLines (hostconfLines settings other others)) := by
  have first : lineKeys (bytesOf "ssid=" ++ ssid) = [bytesOf "ssid"] :=
    lineKeys_named (by decide) (by decide) (by decide) unbroken
  have second : lineKeys (bytesOf "ssid=" ++ other) = [bytesOf "ssid"] :=
    lineKeys_named (by decide) (by decide) (by decide) otherUnbroken
  rw [lineKeys_join (by simp [hostconfLines]), lineKeys_join (by simp [hostconfLines])]
  simp only [hostconfLines, List.flatMap_cons, first, second, same]

theorem lineKeys_hostconfWpa (settings : HostapdSettings) {psk other : List Byte}
    (unbroken : lineEnd ∉ psk) (otherUnbroken : lineEnd ∉ other) :
    lineKeys (joinLines (hostconfWpaLines settings psk)) =
      lineKeys (joinLines (hostconfWpaLines settings other)) := by
  have first : lineKeys (bytesOf "wpa_passphrase=" ++ psk) = [bytesOf "wpa_passphrase"] :=
    lineKeys_named (by decide) (by decide) (by decide) unbroken
  have second : lineKeys (bytesOf "wpa_passphrase=" ++ other) = [bytesOf "wpa_passphrase"] :=
    lineKeys_named (by decide) (by decide) (by decide) otherUnbroken
  rw [lineKeys_join (by simp [hostconfWpaLines]), lineKeys_join (by simp [hostconfWpaLines])]
  simp only [hostconfWpaLines, List.flatMap_cons, first, second]

/-- With its other options fixed the configuration of hostapd has the same keys for every SSID,
passphrase and BSSID. -/
theorem hostapd_keys {environment : HostapdEnvironment} {phyInfo interface : List Byte}
    {band : Band} {channel : List Byte} {width : Nat} {protocols : List Protocol} {opt : OptDict}
    {psk ssid bssid otherPsk file other : List Byte}
    (generated : generateHostapdConfig environment phyInfo interface band channel width protocols
      psk opt = .ok file)
    (again : generateHostapdConfig environment phyInfo interface band channel width protocols
      otherPsk { opt with ssid, bssid } = .ok other) :
    lineKeys file = lineKeys other := by
  obtain ⟨settings, set, generated⟩ := bind_ok generated
  obtain ⟨parts, wpa, generated⟩ := bind_ok generated
  obtain ⟨settings', set', again⟩ := bind_ok again
  obtain ⟨parts', wpa', again⟩ := bind_ok again
  cases set.symm.trans set'
  cases generated
  cases again
  have hostconf := lineKeys_hostconf settings (unbroken_ssid environment.unicode opt.ssid)
    (unbroken_ssid environment.unicode ssid)
    ((lineKeys_vendorElements opt).trans (lineKeys_vendorElements { opt with ssid, bssid }).symm)
  have network : parts.flatMap lineKeys = parts'.flatMap lineKeys := by
    rw [hostapdWpaParts] at wpa wpa'
    by_cases secured : opt.encryption ≠ bytesOf "NONE"
    · rw [if_pos secured] at wpa wpa'
      obtain ⟨clean, valid, wpa⟩ := bind_ok wpa
      obtain ⟨clean', valid', wpa'⟩ := bind_ok wpa'
      cases wpa
      cases wpa'
      simpa using lineKeys_hostconfWpa settings (unbroken_psk valid) (unbroken_psk valid')
    · rw [if_neg secured] at wpa wpa'
      cases wpa
      cases wpa'
      rfl
  rw [lineKeys_join (List.cons_ne_nil _ _), lineKeys_join (List.cons_ne_nil _ _)]
  simp only [List.flatMap_cons, List.flatMap_append, hostconf, network]
  rfl

end Hostapd

section Supplicant

/-- Passphrases of one kind: none, a key of 64 digits, or a shorter text. -/
def SameKind : Option (List Byte) → Option (List Byte) → Prop
  | none, none => True
  | some passphrase, some other => passphrase.length = 64 ↔ other.length = 64
  | _, _ => False

theorem lineKeys_quoted {name key value : List Byte} (signed : name = key ++ bytesOf "=\"")
    (keyLine : lineEnd ∉ key) (keySign : equalSign ∉ key) (valueLine : lineEnd ∉ value) :
    lineKeys (name ++ value ++ bytesOf "\"") = [key] := by
  have quoted : lineEnd ∉ ascii '"' :: (value ++ bytesOf "\"") := by
    simp only [List.mem_cons, List.mem_append, not_or]
    exact ⟨by decide, valueLine, by decide⟩
  have assigned := lineKeys_assigned key keyLine keySign quoted
  rw [signed, ← assigned]
  simp [bytesOf, equalSign]

theorem lineKeys_ssidLine (unicode : UnicodeDatabase) (ssid : List Byte) :
    lineKeys (ssidLine unicode ssid) = [bytesOf "\tssid"] :=
  lineKeys_quoted (by decide) (by decide) (by decide) (unbroken_ssid unicode ssid)

/-- The keys of the lines for one kind of passphrase. -/
def networkKeys (passphrase : Option (List Byte)) : List (List Byte) :=
  match passphrase with
  | none => ["\tssid", "\tkey_mgmt"].map bytesOf
  | some passphrase =>
      if passphrase.length = 64 then ["\tssid", "\tpsk"].map bytesOf
      else ["\tssid", "\t#psk", "\tpsk"].map bytesOf

theorem lineKeys_network {unicode : UnicodeDatabase} {pbkdf2 : List Byte → List Byte → List Byte}
    {ssid : List Byte} {passphrase : Option (List Byte)} {lines : List (List Byte)}
    (generated : networkLines unicode pbkdf2 ssid passphrase = .ok lines) :
    lines.flatMap lineKeys = networkKeys passphrase := by
  cases passphrase with
  | none =>
      cases generated
      simp only [openNetworkLines, List.flatMap_cons, lineKeys_ssidLine]
      rfl
  | some passphrase =>
      obtain ⟨clean, valid, generated⟩ := bind_ok generated
      rw [networkKeys]
      split at generated
      case isTrue long =>
        have key : lineKeys (bytesOf "\tpsk=" ++ clean) = [bytesOf "\tpsk"] :=
          lineKeys_named (by decide) (by decide) (by decide) (unbroken_psk valid)
        cases generated
        rw [if_pos ((validateAndSanitizePsk_length valid).mp long)]
        simp only [List.flatMap_cons, List.flatMap_nil, lineKeys_ssidLine, key]
        rfl
      case isFalse short =>
        have comment : lineKeys (bytesOf "\t#psk=\"" ++ clean ++ bytesOf "\"") =
            [bytesOf "\t#psk"] :=
          lineKeys_quoted (by decide) (by decide) (by decide) (unbroken_psk valid)
        have key : ∀ payload, lineKeys (bytesOf "\tpsk=" ++ encodeHex payload) =
            [bytesOf "\tpsk"] := fun payload =>
          lineKeys_named (by decide) (by decide) (by decide)
            (unbroken_of_digits (digits_encodeHex payload))
        cases generated
        rw [if_neg (mt (validateAndSanitizePsk_length valid).mpr short)]
        simp only [List.flatMap_cons, List.flatMap_nil, lineKeys_ssidLine, comment, key]
        rfl

theorem networkKeys_eq {passphrase other : Option (List Byte)} (kind : SameKind passphrase other) :
    networkKeys passphrase = networkKeys other := by
  cases passphrase with
  | none =>
      cases other with
      | none => rfl
      | some other => exact kind.elim
  | some passphrase =>
      cases other with
      | none => exact kind.elim
      | some other =>
          simp only [networkKeys]
          rw [SameKind] at kind
          simp only [kind]

/-- The line of the BSSID is one line exactly when nothing breaks it. -/
theorem lineKeys_bssid_iff {bssid other : List Byte} {lines others : List (List Byte)}
    (given : bssid = [] ↔ other = []) (plain : lineEnd ∉ other)
    (generated : bssidLines bssid = .ok lines) (again : bssidLines other = .ok others) :
    lines.flatMap lineKeys = others.flatMap lineKeys ↔ lineEnd ∉ bssid := by
  rw [bssidLines] at generated again
  by_cases absent : bssid = []
  · rw [if_pos absent] at generated
    rw [if_pos (given.mp absent)] at again
    cases generated
    cases again
    simp [absent]
  · rw [if_neg absent] at generated
    rw [if_neg (mt given.mpr absent)] at again
    obtain ⟨clean, valid, generated⟩ := bind_ok generated
    obtain ⟨clean', valid', again⟩ := bind_ok again
    cases generated
    cases again
    have key : ∀ value, lineEnd ∉ value → lineKeys (bytesOf "\tbssid=" ++ value) =
        [bytesOf "\tbssid"] := fun value unbroken =>
      lineKeys_named (by decide) (by decide) (by decide) unbroken
    have kept : lineEnd ∉ clean' := by
      rw [validateAndSanitizeBssid_eq valid']
      exact mt (lineEnd_lower other).mp plain
    rw [List.flatMap_singleton, List.flatMap_singleton, key clean' kept]
    constructor
    · intro same broken
      have inside : lineEnd ∈ clean := by
        rw [validateAndSanitizeBssid_eq valid]
        exact (lineEnd_lower bssid).mpr broken
      have many := lineKeys_broken (List.mem_append_right (bytesOf "\tbssid=") inside)
      rw [same] at many
      exact absurd many (by decide)
    · intro unbroken
      apply key
      rw [validateAndSanitizeBssid_eq valid]
      exact mt (lineEnd_lower bssid).mp unbroken

theorem supplicant_keys_iff {unicode : UnicodeDatabase}
    {pbkdf2 : List Byte → List Byte → List Byte} {opt : OptDict} {ssid otherSsid bssid : List Byte}
    {passphrase otherPassphrase : Option (List Byte)} {file other : List Byte}
    (kind : SameKind passphrase otherPassphrase) (given : opt.bssid = [] ↔ bssid = [])
    (plain : lineEnd ∉ bssid)
    (generated : generateWpaSupplicantConfig unicode pbkdf2 ssid passphrase opt = .ok file)
    (again : generateWpaSupplicantConfig unicode pbkdf2 otherSsid otherPassphrase
      { opt with bssid } = .ok other) :
    lineKeys file = lineKeys other ↔ lineEnd ∉ opt.bssid := by
  obtain ⟨network, lines, generated⟩ := bind_ok generated
  obtain ⟨bssids, bssidLine, generated⟩ := bind_ok generated
  obtain ⟨network', lines', again⟩ := bind_ok again
  obtain ⟨bssids', bssidLine', again⟩ := bind_ok again
  cases generated
  cases again
  have same : network.flatMap lineKeys = network'.flatMap lineKeys := by
    rw [lineKeys_network lines, lineKeys_network lines', networkKeys_eq kind]
  rw [← lineKeys_bssid_iff given plain bssidLine bssidLine', lineKeys_join (List.cons_ne_nil _ _),
    lineKeys_join (List.cons_ne_nil _ _)]
  simp only [List.flatMap_cons, List.flatMap_nil, makeNetworkBlock]
  rw [lineKeys_join (by simp), lineKeys_join (by simp)]
  simp only [List.flatMap_append, List.flatMap_cons, List.flatMap_nil, same]
  simp

end Supplicant

section Injection

/-- A value of printable characters. -/
def Plain (text : List Byte) : Prop :=
  ∀ byte ∈ text, 0x20 ≤ byte.toNat ∧ byte.toNat < 0x7f

instance (text : List Byte) : Decidable (Plain text) :=
  List.decidableBAll _ text

/-- Plain values of the same kind as those that are given. -/
structure PlainLike (passphrase : Option (List Byte)) (bssid : List Byte)
    (plainSsid : List Byte) (plainPassphrase : Option (List Byte)) (plainBssid : List Byte) :
    Prop where
  ssidPlain : Plain plainSsid
  passphrasePlain : ∀ text ∈ plainPassphrase, Plain text
  bssidPlain : Plain plainBssid
  kind : SameKind passphrase plainPassphrase
  given : bssid = [] ↔ plainBssid = []

/-- Against plain values of the same kind no value changes the keys of the lines that are
generated for hostapd, and for wpa_supplicant a BSSID does when it has a line end. -/
theorem lines_injected_iff (opt : OptDict) :
    (∀ (environment : HostapdEnvironment) (phyInfo interface : List Byte) (band : Band)
      (channel : List Byte) (width : Nat) (protocols : List Protocol)
      (psk ssid bssid plainPsk file plainFile : List Byte),
      PlainLike (some psk) opt.bssid ssid (some plainPsk) bssid →
      generateHostapdConfig environment phyInfo interface band channel width protocols psk opt =
        .ok file →
      generateHostapdConfig environment phyInfo interface band channel width protocols plainPsk
        { opt with ssid, bssid } = .ok plainFile →
      lineKeys file = lineKeys plainFile) ∧
    ∀ (unicode : UnicodeDatabase) (pbkdf2 : List Byte → List Byte → List Byte)
      (ssid plainSsid bssid : List Byte) (passphrase plainPassphrase : Option (List Byte))
      (file plainFile : List Byte),
      PlainLike passphrase opt.bssid plainSsid plainPassphrase bssid →
      generateWpaSupplicantConfig unicode pbkdf2 ssid passphrase opt = .ok file →
      generateWpaSupplicantConfig unicode pbkdf2 plainSsid plainPassphrase { opt with bssid } =
        .ok plainFile →
      (lineKeys file = lineKeys plainFile ↔ lineEnd ∉ opt.bssid) := by
  constructor
  · intro environment phyInfo interface band channel width protocols psk ssid bssid plainPsk
      file plainFile _ generated plain
    exact hostapd_keys generated plain
  · intro unicode pbkdf2 ssid plainSsid bssid passphrase plainPassphrase file plainFile like
      generated plain
    have unbroken : lineEnd ∉ bssid := unbroken_of_controls fun byte member =>
      (like.bssidPlain byte member).1
    exact supplicant_keys_iff like.kind like.given unbroken generated plain

/-- The options of a client with a BSSID. -/
def clientOptions (bssid : List Byte) : OptDict :=
  { ssid := [], band := .ghz24, bssid, encryption := bytesOf "NONE", bridge := []
    shortGuardInterval := false, enableWmm := false, hiddenMode := false, clientIsolation := false
    wds := false, supportsProvisioning := false, yottasecondTimeouts := false
    extraShortTimeouts := 0, noBandRestriction := true }

/-- A system without experiments. -/
def quietEnvironment : HostapdEnvironment where
  unicode := .controls
  experimentEnabled _ := false
  isNetworkBox := none
  hnvram _ := none

/-- An SSID with a line end and quotes beside a plain one, in both files. -/
theorem lines_injected_ssid :
    (∃ file plainFile,
      generateHostapdConfig quietEnvironment [] (bytesOf "wlan0") .ghz24 (bytesOf "6") 20 [.n] []
        { clientOptions [] with ssid := bytesOf "a\"\n\x7d\n" } = .ok file ∧
      generateHostapdConfig quietEnvironment [] (bytesOf "wlan0") .ghz24 (bytesOf "6") 20 [.n] []
        { clientOptions [] with ssid := bytesOf "guest" } = .ok plainFile ∧
      lineKeys file = lineKeys plainFile) ∧
    ∃ file plainFile,
      generateWpaSupplicantConfig .controls (fun _ _ => []) (bytesOf "a\"\n\x7d\n") none
        (clientOptions []) = .ok file ∧
      generateWpaSupplicantConfig .controls (fun _ _ => []) (bytesOf "guest") none
        (clientOptions []) = .ok plainFile ∧
      lineKeys file = lineKeys plainFile := by
  constructor
  · have like : PlainLike (some []) [] (bytesOf "guest") (some []) [] :=
      ⟨by decide, by decide, by decide, Iff.rfl, Iff.rfl⟩
    exact ⟨_, _, rfl, rfl,
      (lines_injected_iff { clientOptions [] with ssid := bytesOf "a\"\n\x7d\n" }).1
        quietEnvironment [] (bytesOf "wlan0") .ghz24 (bytesOf "6") 20 [.n] [] (bytesOf "guest") []
        [] _ _ like rfl rfl⟩
  · have like : PlainLike none (clientOptions []).bssid (bytesOf "guest") none [] :=
      ⟨by decide, by simp, by decide, trivial, Iff.rfl⟩
    exact ⟨_, _, rfl, rfl, ((lines_injected_iff (clientOptions [])).2 .controls (fun _ _ => [])
      (bytesOf "a\"\n\x7d\n") (bytesOf "guest") [] none none _ _ like rfl rfl).mpr (by decide)⟩

/-- A BSSID that closes the network block and opens another one. -/
def closingBssid : List Byte :=
  bytesOf "00:11:22:33:44:55\n\x7d\nnetwork=\x7b"

theorem bssid_injects :
    ∃ file plainFile,
      generateWpaSupplicantConfig .controls (fun _ _ => []) (bytesOf "guest") none
        (clientOptions closingBssid) = .ok file ∧
      generateWpaSupplicantConfig .controls (fun _ _ => []) (bytesOf "guest") none
        (clientOptions (bytesOf "00:11:22:33:44:55")) = .ok plainFile ∧
      PlainLike none closingBssid (bytesOf "guest") none (bytesOf "00:11:22:33:44:55") ∧
      lineKeys file ≠ lineKeys plainFile ∧
      (linesOf file).count (bytesOf "\x7d") = 2 ∧ (linesOf plainFile).count (bytesOf "\x7d") = 1 := by
  refine ⟨_, _, rfl, rfl, ⟨by decide, by simp, by decide, trivial, by decide⟩, ?_, ?_, ?_⟩
  · decide +kernel
  · decide +kernel
  · decide +kernel

end Injection

end Gfiber.Wifi
