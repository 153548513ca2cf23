import Gfiber.Lib.Numeral

/-! The scan of quantenna.py, which prints what the Quantenna driver has found as
`iw` would. -/

set_option autoImplicit false

namespace Gfiber.Wifi

open Lib

section Scanning

structure ScanResult where
  ssid : Text
  mac : Text
  channel : Int
  rssi : Double
  flags : Int
  protocols : Int
deriving DecidableEq, Repr

/-- The slice `[1:-1]`. -/
def unquoted (text : Text) : Text :=
  (text.drop 1).dropLast

def parseScanResult (line : Text) : Option ScanResult :=
  match Text.rsplit 10 (Text.strip line) with
  | ssid :: mac :: channel :: rssi :: flags :: protocols :: _ => do
      let channel ← parseInt channel
      let rssi ← parseFloat rssi
      let flags ← parseInt flags
      let protocols ← parseInt protocols
      return ⟨unquoted ssid, mac, channel, rssi.neg, flags, protocols⟩
  | _ => none

/-- The first bit of a number is set. -/
def firstBit (number : Int) : Bool :=
  number % 2 = 1

def secondBit (number : Int) : Bool :=
  number / 2 % 2 = 1

/-- What is printed about the security. -/
def securityLines (result : ScanResult) : List Text :=
  if firstBit result.flags then
    (if firstBit result.protocols then ["\tWPA:".toList] else []) ++
      if secondBit result.protocols then ["\tRSN:".toList] else []
  else []

def scanLines (hif : Text) (result : ScanResult) : List Text :=
  ["BSS ".toList ++ result.mac ++ "(on ".toList ++ hif ++ ")".toList,
    "\tfreq: ".toList ++ printDecimal (5000 + 5 * result.channel),
    "\tsignal: ".toList ++ printFixed result.rssi,
    "\tSSID: ".toList ++ result.ssid] ++ securityLines result

/-- What `scan_wifi` prints for the properties that the driver gives of each access
point, unless one cannot be read. -/
def scanWifi (hif : Text) (properties : List Text) : Option Text := do
  let results ← properties.mapM parseScanResult
  return (results.flatMap (scanLines hif)).flatMap (· ++ ['\n'])

end Scanning

section Driver

/-- An access point that the driver has found on a channel of 5 GHz. Its SSID is
printable and has no blank at either end. -/
structure AccessPoint where
  ssid : Text
  mac : List Byte
  channel : Nat
  rssi : FloatColumn
  securityEnabled : Nat
  protocols : Nat
  authentication : Nat
  encryption : Nat
  qhopFlags : Nat
  wpsFlags : Nat
  bandwidth : Nat
  printable : ∀ char ∈ ssid, 0x20 ≤ char.toNat ∧ char.toNat ≠ 0x7f
  trimmed : Text.strip ssid = ssid
  six : mac.length = 6
  fiveGhz : channel < 200

def AccessPoint.columns (point : AccessPoint) : List Text :=
  [printOctets point.mac, Nat.toDigits 10 point.channel, point.rssi.text] ++
    [point.securityEnabled, point.protocols, point.authentication, point.encryption,
      point.qhopFlags, point.wpsFlags, point.bandwidth].map (Nat.toDigits 10)

/-- What `get_properties_ap` prints for an access point. -/
def AccessPoint.properties (point : AccessPoint) : Text :=
  '"' :: point.ssid ++ ['"'] ++ point.columns.flatMap (' ' :: ·)

/-- What is to be read from the properties. -/
def AccessPoint.result (point : AccessPoint) : ScanResult :=
  ⟨point.ssid, printOctets point.mac, point.channel, point.rssi.number.neg,
    point.securityEnabled, point.protocols⟩

end Driver

end Gfiber.Wifi
