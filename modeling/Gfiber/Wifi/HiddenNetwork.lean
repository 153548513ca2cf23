import Gfiber.Conman.Iw
import Gfiber.Wifi.Configs

/-! An access point in hidden mode, from the vendor elements in its configuration to
the scan in which another device finds it. -/

set_option autoImplicit false

namespace Gfiber.Wifi

open Lib

section Elements

def decodeHex : List Byte → Option (List Byte)
  | [] => some []
  | [_] => none
  | high :: low :: rest =>
      if isxdigit high && isxdigit low then (decodeHex rest).map (hexByte high low :: ·) else none

/-- An information element. -/
structure Element where
  tag : Byte
  data : List Byte
deriving DecidableEq, Repr

/-- The elements in a row, up to one that is cut off. -/
def splitElements : List Byte → List Element
  | tag :: length :: rest =>
      if length.toNat ≤ rest.length then
        ⟨tag, rest.take length.toNat⟩ :: splitElements (rest.drop length.toNat)
      else []
  | _ => []
termination_by text => text.length

/-- The elements that an access point sends for a value of `vendor_elements`. -/
def sentElements (value : List Byte) : Option (List Element) :=
  (decodeHex value).map splitElements

end Elements

section Scan

/-- An access point that does not send its SSID, as another device receives it. -/
structure HiddenAccessPoint where
  bssid : List Byte
  frequency : Nat
  signal : FloatColumn
  security : List Conman.Security
  elements : List Element
  six : bssid.length = 6

def securityLine : Conman.Security → Text
  | .wpa2 => "\tRSN:".toList
  | .wpa => "\tWPA:".toList
  | .wep => "\tPrivacy:".toList

def vendorLines (element : Element) : List Text :=
  if element.tag = 0xdd then
    ["\tVendor specific: OUI ".toList ++ printOctets (element.data.take 3) ++ ", data:".toList ++
      (element.data.drop 3).flatMap fun octet => ' ' :: printOctet octet]
  else []

/-- What `iw` prints about an access point. -/
def HiddenAccessPoint.lines (point : HiddenAccessPoint) (interface : Text) : List Text :=
  ["BSS ".toList ++ printOctets point.bssid ++ "(on ".toList ++ interface ++ ")".toList,
    "\tfreq: ".toList ++ Nat.toDigits 10 point.frequency,
    "\tsignal: ".toList ++ point.signal.text ++ " dBm".toList,
    "\tSSID: ".toList] ++
    point.security.map securityLine ++ point.elements.flatMap vendorLines

def HiddenAccessPoint.scan (point : HiddenAccessPoint) (interface : Text) : Text :=
  (point.lines interface).flatMap (· ++ ['\n'])

end Scan

end Gfiber.Wifi
