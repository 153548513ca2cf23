import Gfiber.Lib.Lines
import Gfiber.Wifi.Validation

/-! The configurations that configs.py writes for hostapd and wpa_supplicant. -/

set_option autoImplicit false

namespace Gfiber.Wifi

open Lib

inductive Band where
  | ghz24
  | ghz5
deriving DecidableEq, Repr

inductive Protocol where
  | a
  | b
  | ab
  | g
  | n
  | ac
deriving DecidableEq, Repr

/-- The options that the configurations depend on. An option that is not given is empty. -/
structure OptDict where
  ssid : List Byte
  band : Band
  bssid : List Byte
  encryption : List Byte
  bridge : List Byte
  shortGuardInterval : Bool
  enableWmm : Bool
  hiddenMode : Bool
  clientIsolation : Bool
  wds : Bool
  supportsProvisioning : Bool
  yottasecondTimeouts : Bool
  extraShortTimeouts : Int
  noBandRestriction : Bool
deriving Repr

section VendorElements

def supportsProvisioningId : List Byte :=
  bytesOf "01"

def provisioningSsidId : List Byte :=
  bytesOf "03"

/-- `payload.encode('hex')`. -/
def encodeHex (payload : List Byte) : List Byte :=
  payload.flatMap printHexByte

/-- The vendor IE, which has the OUI f4f5e8. -/
def createVendorIe (featureId payload : List Byte) : List Byte :=
  bytesOf "dd" ++ printHex (3 + featureId.length / 2 + payload.length) ++ bytesOf "f4f5e8" ++
    featureId ++ encodeHex payload

def vendorIes (opt : OptDict) : List (List Byte) :=
  (if opt.supportsProvisioning then [createVendorIe supportsProvisioningId []] else []) ++
    if opt.hiddenMode then [createVendorIe provisioningSsidId opt.ssid] else []

def getVendorElements (opt : OptDict) : List Byte :=
  if vendorIes opt ≠ [] then bytesOf "vendor_elements=" ++ (vendorIes opt).flatten else []

end VendorElements

section Hostapd

/-- What generating the configuration asks of the system around it. -/
structure HostapdEnvironment where
  unicode : UnicodeDatabase
  experimentEnabled : List Byte → Bool
  /-- Whether `is-network-box` succeeds, if it can be run. -/
  isNetworkBox : Option Bool
  /-- What `hnvram` prints for a variable, if it can be run. -/
  hnvram : List Byte → Option (Option (List Byte))

def experiments : List (List Byte) :=
  ["NoSwapWifiPrimaryChannel", "NoAutoNarrowWifiChannel", "Wifi80211k", "WifiBandsteering",
    "WifiReverseBandsteering", "WifiHostapdLogging", "WifiHostapdDebug", "WifiShortAggTimeout",
    "WifiNoAggTimeout", "WifiNoAliveMonitor", "MwifiexFirmwareRecovery"].map bytesOf

def htDirections : List (List Byte) :=
  ["1+", "2+", "3+", "4+", "5-", "6-", "7+", "8-", "9-", "10-", "11-", "36+", "40-", "44+", "48-",
    "149+", "153-", "157+", "161-", "52+", "56-", "60+", "64-", "100+", "104-", "108+", "112-",
    "132+", "136-"].map bytesOf

/-- The channels with the base of their 80 MHz channel. -/
def vhtBases : List (List Byte × Nat) :=
  [("36", 36), ("40", 36), ("44", 36), ("48", 36), ("149", 149), ("153", 149), ("157", 149),
    ("161", 149), ("52", 52), ("56", 52), ("60", 52), ("64", 52), ("100", 100), ("104", 100),
    ("108", 100), ("112", 100)].map fun (channel, base) => (bytesOf channel, base)

def ampduExponents : List (String × String) :=
  [("16383", "1"), ("32767", "2"), ("65535", "3"), ("131071", "4"), ("262143", "5"),
    ("524287", "6"), ("1048575", "7")]

def setting (enabled : Bool) (text : String) : List Byte :=
  if enabled then bytesOf text else []

def htRxstbc (phyInfo : List Byte) : List Byte :=
  if strstr phyInfo (bytesOf "RX STBC 1-stream") then bytesOf "[RX-STBC1]"
  else if strstr phyInfo (bytesOf "RX STBC 2-stream") then bytesOf "[RX-STBC12]"
  else if strstr phyInfo (bytesOf "RX STBC 3-stream") then bytesOf "[RX-STBC123]"
  else []

/-- The last length that the phy mentions counts. -/
def ampdu (phyInfo : List Byte) : List Byte :=
  ampduExponents.foldl (fun chosen (length, exponent) =>
    if strstr phyInfo (bytesOf ("Maximum RX AMPDU length " ++ length ++ " bytes")) then
      bytesOf ("[MAX-A-MPDU-LEN-EXP" ++ exponent ++ "]")
    else chosen) []

/-- The values of `auth_algs` and `wpa`. -/
def authentication (encryption : List Byte) : Except WifiError (Nat × Nat) :=
  if (bytesOf "WPA_PSK_").isPrefixOf encryption then .ok (1, 1)
  else if (bytesOf "WPA2_PSK_").isPrefixOf encryption then .ok (1, 2)
  else if (bytesOf "WPA12_PSK_").isPrefixOf encryption then .ok (1, 3)
  else if (bytesOf "WEP").isPrefixOf encryption then .ok (3, 0)
  else if (bytesOf "NONE").isPrefixOf encryption then .ok (1, 0)
  else .error (.invalidCrypto encryption)

def pairwise (encryption : List Byte) : Except WifiError (List Byte) :=
  if encryption.drop (encryption.length - 4) ∈ ["_AES", "WEP", "NONE"].map bytesOf then
    .ok (bytesOf "CCMP")
  else if (bytesOf "_TKIP").isSuffixOf encryption then .ok (bytesOf "TKIP")
  else .error (.invalidCrypto encryption)

def ht40 (channel : List Byte) (width : Nat) : Except WifiError (List Byte) :=
  if 40 ≤ width then
    if channel ++ bytesOf "+" ∈ htDirections then .ok (bytesOf "[HT40+]")
    else if channel ++ bytesOf "-" ∈ htDirections then .ok (bytesOf "[HT40-]")
    else .error (.noHt40 channel)
  else .ok []

/-- The lines of `_VHT_SETTINGS_TPL`. -/
def vhtSettingsLines (ampdu vhtGuardInterval : List Byte) (vhtBase : Nat) : List (List Byte) :=
  [bytesOf "vht_capab=" ++ ampdu ++ vhtGuardInterval ++ bytesOf "[RXLDPC]",
    bytesOf "vht_oper_chwidth=1",
    [],
    bytesOf "# Wifi channel numbers define the center of a 20 MHz",
    bytesOf "# channel.  40 MHz channels are defined as one channel plus",
    bytesOf "# the next one 4 up.  80 MHz channels go back to defining by",
    bytesOf "# center.  If you think about it long enough, you eventually",
    bytesOf "# discover that the center is 6 channels up from the base 20",
    bytesOf "# MHz channel, although this isn't very intuitive.",
    bytesOf "vht_oper_centr_freq_seg0_idx=" ++ printNat vhtBase,
    []]

def vhtSettings (ampdu vhtGuardInterval channel : List Byte) (width : Nat) :
    Except WifiError (List Byte) :=
  if width = 80 then
    match vhtBases.lookup channel with
    | some base => .ok (joinLines (vhtSettingsLines ampdu vhtGuardInterval (base + 6)))
    | none => .error (.noVht80 channel)
  else .ok []

/-- The box has to have an address, unless a command that would tell cannot be run. -/
def checkMacAddress (environment : HostapdEnvironment) (interface : List Byte) :
    Except WifiError Unit :=
  let fallback : Except WifiError Unit :=
    match environment.hnvram (bytesOf "MAC_ADDR") with
    | some none => .error .noMacAddress
    | _ => .ok ()
  match environment.isNetworkBox with
  | none => .ok ()
  | some false => fallback
  | some true =>
      let suffix : List Byte := if (bytesOf "wlan0").isPrefixOf interface then [] else bytesOf "2"
      match environment.hnvram (bytesOf "MAC_ADDR_WIFI" ++ suffix) with
      | some none => fallback
      | _ => .ok ()

/-- What the templates are filled with, but for the SSID, the vendor elements and the
passphrase. -/
structure HostapdSettings where
  interface : List Byte
  bridge : List Byte
  authAlgs : Nat
  hostapdBand : List Byte
  channel : List Byte
  enable80211n : List Byte
  enable80211ac : List Byte
  enableWmm : List Byte
  requireHt : List Byte
  requireVht : List Byte
  hidden : List Byte
  apIsolate : List Byte
  wds : List Byte
  htCapab : List Byte
  vhtSettings : List Byte
  wpa : Nat
  wpaPairwise : List Byte

def hostapdSettings (environment : HostapdEnvironment) (phyInfo interface : List Byte)
    (band : Band) (channel : List Byte) (width : Nat) (protocols : List Protocol)
    (opt : OptDict) : Except WifiError HostapdSettings := do
  let hostapdBand : List Byte :=
    if band = .ghz24 then if .n ∈ protocols ∨ .g ∈ protocols then bytesOf "g" else bytesOf "b"
    else bytesOf "a"
  let guardInterval := setting opt.shortGuardInterval "[SHORT-GI-20][SHORT-GI-40]"
  let vhtGuardInterval := setting opt.shortGuardInterval "[SHORT-GI-80]"
  let legacy : Bool := .a ∈ protocols || .b ∈ protocols || .ab ∈ protocols || .g ∈ protocols
  let (authAlgs, wpa) ← authentication opt.encryption
  let wpaPairwise ← pairwise opt.encryption
  let ht40 ← ht40 channel width
  let ampdu := if .ac ∈ protocols then ampdu phyInfo else []
  let vhtSettings ← vhtSettings ampdu vhtGuardInterval channel width
  checkMacAddress environment interface
  return {
    interface, authAlgs, hostapdBand, channel, vhtSettings, wpa, wpaPairwise
    bridge := if opt.bridge = [] then [] else bytesOf "bridge=" ++ opt.bridge
    enable80211n := setting (.n ∈ protocols) "ieee80211n=1"
    enable80211ac := setting (.ac ∈ protocols && width = 80) "ieee80211ac=1"
    enableWmm := setting opt.enableWmm "wmm_enabled=1"
    requireHt := setting (!legacy) "require_ht=1"
    requireVht := setting (!(legacy || .n ∈ protocols)) "require_vht=1"
    hidden := setting opt.hiddenMode "ignore_broadcast_ssid=1"
    apIsolate := setting opt.clientIsolation "ap_isolate=1"
    wds := setting opt.wds "wds_sta=1"
    htCapab := setting (.n ∈ protocols) "[HT20]" ++ ht40 ++ guardInterval ++ htRxstbc phyInfo }

/-- The lines of `_HOSTCONF_TPL`. -/
def hostconfLines (settings : HostapdSettings) (ssid vendorElements : List Byte) :
    List (List Byte) :=
  [bytesOf "ctrl_interface=/var/run/hostapd",
    bytesOf "interface=" ++ settings.interface,
    settings.bridge,
    bytesOf "ssid=" ++ ssid,
    bytesOf "utf8_ssid=1",
    bytesOf "auth_algs=" ++ printNat settings.authAlgs,
    bytesOf "hw_mode=" ++ settings.hostapdBand,
    bytesOf "channel=" ++ settings.channel,
    bytesOf "country_code=US",
    bytesOf "ieee80211d=1",
    bytesOf "ieee80211h=1",
    settings.enable80211n,
    settings.enable80211ac,
    settings.enableWmm,
    settings.requireHt,
    settings.requireVht,
    settings.hidden,
    settings.apIsolate,
    settings.wds,
    vendorElements,
    [],
    bytesOf "ht_capab=" ++ settings.htCapab,
    settings.vhtSettings,
    []]

/-- The lines of `_HOSTCONF_WPA_TPL`. -/
def hostconfWpaLines (settings : HostapdSettings) (psk : List Byte) : List (List Byte) :=
  [bytesOf "wpa=" ++ printNat settings.wpa,
    bytesOf "wpa_passphrase=" ++ psk,
    bytesOf "wpa_key_mgmt=WPA-PSK",
    bytesOf "wpa_pairwise=" ++ settings.wpaPairwise,
    []]

def experiment80211kLines (interface : List Byte) : List (List Byte) :=
  [[],
    bytesOf "# 802.11k support",
    bytesOf "radio_measurements=1",
    bytesOf "local_pwr_constraint=3",
    bytesOf "spectrum_mgmt_required=1",
    bytesOf "neighbor_ap_list_file=/tmp/waveguide/APs." ++ interface,
    []]

def extraShortTimeouts1Lines : List (List Byte) :=
  ["", "# Enable PTK rekeying (ie. rotate per-station keys, not just group keys).",
    "# People seem to rarely use this but it might improve security.", "wpa_ptk_rekey=333",
    ""].map bytesOf

def extraShortTimeouts2Lines : List (List Byte) :=
  ["", "# Obnoxiously short rekey intervals to maximize the chance of discovering bugs",
    "# caused by rekeying at inopportune times.", "wep_rekey_period=10", "wpa_group_rekey=10",
    "wpa_strict_rekey=1", "wpa_gmk_rekey=9", "wpa_ptk_rekey=10", ""].map bytesOf

def yottasecondTimeoutsLines : List (List Byte) :=
  ["", "# Disable all rekeying.  This may slightly reduce security but might be",
    "# useful if there are rekeying bugs.", "wpa_ptk_rekey=0", "wep_rekey_period=0",
    "wpa_group_rekey=0", "wpa_strict_rekey=0", "wpa_gmk_rekey=0", "wpa_ptk_rekey=0",
    ""].map bytesOf

/-- The parts after the passphrase. -/
def hostapdTail (environment : HostapdEnvironment) (interface : List Byte) (opt : OptDict) :
    List (List Byte) :=
  (if environment.experimentEnabled (bytesOf "Wifi80211k") then
    [joinLines (experiment80211kLines interface)] else []) ++
  (if opt.yottasecondTimeouts then [joinLines yottasecondTimeoutsLines]
    else if 2 ≤ opt.extraShortTimeouts then [joinLines extraShortTimeouts2Lines]
    else if 1 ≤ opt.extraShortTimeouts then [joinLines extraShortTimeouts1Lines]
    else []) ++
  [joinLines
    [bytesOf "# Experiments: (" ++
      [ascii ','].intercalate (experiments.filter environment.experimentEnabled) ++ bytesOf ")",
      []]]

/-- The part with the passphrase, unless the network is open. -/
def hostapdWpaParts (settings : HostapdSettings) (psk : List Byte) (opt : OptDict) :
    Except WifiError (List (List Byte)) :=
  if opt.encryption ≠ bytesOf "NONE" then do
    let psk ← validateAndSanitizePsk psk
    return [joinLines (hostconfWpaLines settings psk)]
  else .ok []

def generateHostapdConfig (environment : HostapdEnvironment) (phyInfo interface : List Byte)
    (band : Band) (channel : List Byte) (width : Nat) (protocols : List Protocol)
    (psk : List Byte) (opt : OptDict) : Except WifiError (List Byte) := do
  let settings ← hostapdSettings environment phyInfo interface band channel width protocols opt
  let ssid := sanitizeSsid environment.unicode opt.ssid
  let hostconf := joinLines (hostconfLines settings ssid (getVendorElements opt))
  let wpaParts ← hostapdWpaParts settings psk opt
  return joinLines (hostconf :: (wpaParts ++ hostapdTail environment interface opt))

end Hostapd

section Supplicant

/-- `'network={\n%s\n}\n'`. -/
def makeNetworkBlock (networkBlockLines : List (List Byte)) : List Byte :=
  joinLines ([bytesOf "network=\x7b"] ++ networkBlockLines ++ [bytesOf "\x7d", []])

/-- The line of the SSID, in quotes. -/
def ssidLine (unicode : UnicodeDatabase) (ssid : List Byte) : List Byte :=
  bytesOf "\tssid=\"" ++ sanitizeSsid unicode ssid ++ bytesOf "\""

def openNetworkLines (unicode : UnicodeDatabase) (ssid : List Byte) : List (List Byte) :=
  [ssidLine unicode ssid, bytesOf "\tkey_mgmt=NONE"]

/-- `PKCS5_PBKDF2_HMAC_SHA1` of libcrypto gives the key of a passphrase. -/
def wpaNetworkLines (unicode : UnicodeDatabase) (pbkdf2 : List Byte → List Byte → List Byte)
    (ssid passphrase : List Byte) : Except WifiError (List (List Byte)) := do
  let cleanPassphrase ← validateAndSanitizePsk passphrase
  if cleanPassphrase.length = 64 then
    return [ssidLine unicode ssid, bytesOf "\tpsk=" ++ cleanPassphrase]
  else
    let pskBuf := pbkdf2 cleanPassphrase (sanitizeSsid unicode ssid)
    return [ssidLine unicode ssid, bytesOf "\t#psk=\"" ++ cleanPassphrase ++ bytesOf "\"",
      bytesOf "\tpsk=" ++ encodeHex pskBuf]

def getAllFrequencies : Band → List (List Byte)
  | .ghz24 =>
      ["2412", "2417", "2422", "2427", "2432", "2437", "2442", "2447", "2452", "2457",
        "2462"].map bytesOf
  | .ghz5 =>
      ["5180", "5200", "5220", "5240", "5745", "5765", "5785", "5805", "5825", "5260", "5280",
        "5300", "5320", "5500", "5520", "5540", "5560", "5580", "5660", "5680", "5700"].map bytesOf

/-- A network without a passphrase is open. -/
def networkLines (unicode : UnicodeDatabase) (pbkdf2 : List Byte → List Byte → List Byte)
    (ssid : List Byte) : Option (List Byte) → Except WifiError (List (List Byte))
  | none => .ok (openNetworkLines unicode ssid)
  | some passphrase => wpaNetworkLines unicode pbkdf2 ssid passphrase

def bssidLines (bssid : List Byte) : Except WifiError (List (List Byte)) :=
  if bssid = [] then .ok []
  else do
    let clean ← validateAndSanitizeBssid bssid
    return [bytesOf "\tbssid=" ++ clean]

def generateWpaSupplicantConfig (unicode : UnicodeDatabase)
    (pbkdf2 : List Byte → List Byte → List Byte) (ssid : List Byte)
    (passphrase : Option (List Byte)) (opt : OptDict) : Except WifiError (List Byte) := do
  let network ← networkLines unicode pbkdf2 ssid passphrase
  let freqList := bytesOf "freq_list=" ++ joinWords (getAllFrequencies opt.band)
  let bssid ← bssidLines opt.bssid
  let frequencies : List (List Byte) :=
    if opt.noBandRestriction then [] else [bytesOf "\t" ++ freqList]
  let networkBlock :=
    makeNetworkBlock (network ++ [bytesOf "\tscan_ssid=1"] ++ bssid ++ frequencies)
  return joinLines
    [bytesOf "ctrl_interface=/var/run/wpa_supplicant", bytesOf "ap_scan=1",
      bytesOf "autoscan=exponential:1:30", if opt.noBandRestriction then [] else freqList,
      networkBlock]

end Supplicant

end Gfiber.Wifi
