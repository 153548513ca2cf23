import Gfiber.Lib.Scanf

/-! The values of hnvram: how a text is turned into the bytes of a field, and how
the bytes are printed. -/

set_option autoImplicit false

namespace Gfiber.Hnvram

open Lib

def nvramMaxData : Nat :=
  64 * 1024

def gpnHexBytes : Nat :=
  4

inductive HnvramFormat where
  | string
  | mac
  | hmxswvers
  | uint8
  | gpn
  | hexstring
deriving DecidableEq, Repr

section Reading

/-- The string at the start of the data, which has to end within them. -/
def dataString (data : List Byte) : Option (List Byte) :=
  if 0 ∈ data then some (data.takeWhile (· ≠ 0)) else none

def snprintf (outlen : Nat) (text : List Byte) : List Byte :=
  text.take (outlen - 1)

/-- The data cannot be formatted where it is read beyond its end. -/
def formatString (data : List Byte) (outlen : Nat) : Option (List Byte) :=
  (dataString data).map (snprintf outlen)

def formatMac (data : List Byte) (outlen : Nat) : List Byte :=
  let octet (i : Nat) : List Byte := printHexByte (data.getD i 0)
  snprintf outlen
    (octet 0 ++ ascii ':' :: octet 1 ++ ascii ':' :: octet 2 ++ ascii ':' :: octet 3 ++
      ascii ':' :: octet 4 ++ ascii ':' :: octet 5)

def formatHmxswvers (data : List Byte) (outlen : Nat) : List Byte :=
  snprintf outlen
    (printNat (data.getD 1 0).toNat ++ ascii '.' :: printNat (data.getD 0 0).toNat)

def formatUint8 (data : List Byte) (outlen : Nat) : List Byte :=
  snprintf outlen (printNat (data.getD 0 0).toNat)

/-- The program ends when the buffer is too small. -/
def formatHexstring (data : List Byte) (datalen outlen : Nat) : Option (List Byte) :=
  if outlen < datalen * 2 + 1 then none
  else some ((data.take datalen).flatMap printHexByte)

def formatGpn (data : List Byte) (dataLen outlen : Nat) : Option (List Byte) :=
  if dataLen = gpnHexBytes then formatHexstring data gpnHexBytes outlen
  else formatString data outlen

def formatNvram (format : HnvramFormat) (data : List Byte) (dataLen outlen : Nat) :
    Option (List Byte) :=
  match format with
  | .string => formatString data outlen
  | .mac => some (formatMac data outlen)
  | .hmxswvers => some (formatHmxswvers data outlen)
  | .uint8 => some (formatUint8 data outlen)
  | .gpn => formatGpn data dataLen outlen
  | .hexstring => formatHexstring data dataLen outlen

end Reading

section Writing

/-- Too large a value is not written in part. -/
def parseString (input : List Byte) (outlen : Nat) : Option (List Byte) :=
  if outlen < input.length then none else some input

/-- `"%02hhx:%02hhx:%02hhx:%02hhx:%02hhx:%02hhx"`. -/
def macDirectives : List Directive :=
  let octet : Directive := .number .hhx (some 2)
  let colon : Directive := .literal (ascii ':')
  [octet, colon, octet, colon, octet, colon, octet, colon, octet, colon, octet]

def parseMac (input : List Byte) (outlen : Nat) : Option (List Byte) :=
  if outlen < 6 then none
  else
    let output := sscanf macDirectives input
    if output.length ≠ 6 then none else some output

/-- `"%hhd.%hhd"`. -/
def versionDirectives : List Directive :=
  [.number .hhd none, .literal (ascii '.'), .number .hhd none]

/-- The first number is the second byte. -/
def parseHmxswvers (input : List Byte) (outlen : Nat) : Option (List Byte) :=
  if outlen < 2 then none
  else
    let output := sscanf versionDirectives input
    if output.length ≠ 2 then none else some output.reverse

def parseUint8 (input : List Byte) (outlen : Nat) : Option (List Byte) :=
  if outlen < 1 then none else some [input.headD 0 - ascii '0']

def parseHexdigit (c : Byte) : Byte :=
  if between '0' '9' c then c - ascii '0'
  else if between 'a' 'f' c then 10 + (c - ascii 'a')
  else if between 'A' 'F' c then 10 + (c - ascii 'A')
  else 0xff

/-- The loop over pairs of characters, the last one of which may be left. -/
def hexPairs : List Byte → List Byte
  | high :: low :: rest => (parseHexdigit high <<< 4 ||| parseHexdigit low) :: hexPairs rest
  | _ => []

def parseHexstring (input : List Byte) (outlen : Nat) : Option (List Byte) :=
  some ((hexPairs input).take outlen)

def isHexstring (input : List Byte) (hexLen : Nat) : Bool :=
  (List.range hexLen).all (fun i => isxdigit (input.getD i 0)) && input.getD hexLen 0 = 0

/-- `"%02hhx%02hhx%02hhx%02hhx"`. -/
def gpnDirectives : List Directive :=
  List.replicate gpnHexBytes (.number .hhx (some 2))

def parseGpn (input : List Byte) (outlen : Nat) : Option (List Byte) :=
  if outlen < 4 then none
  else if isHexstring input (gpnHexBytes * 2) then
    let output := sscanf gpnDirectives input
    if output.length ≠ gpnHexBytes then none else some output
  else parseString input outlen

def parseNvram (format : HnvramFormat) (input : List Byte) (outlen : Nat) : Option (List Byte) :=
  match format with
  | .string => parseString input outlen
  | .mac => parseMac input outlen
  | .hmxswvers => parseHmxswvers input outlen
  | .uint8 => parseUint8 input outlen
  | .gpn => parseGpn input outlen
  | .hexstring => parseHexstring input outlen

end Writing

section Storing

/-- What the driver reads into a cleared buffer. -/
def driverData (bytes : List Byte) : List Byte :=
  bytes ++ List.replicate (nvramMaxData - bytes.length) 0

/-- A written value as it is printed. -/
def readBack (format : HnvramFormat) (bytes : List Byte) : Option (List Byte) :=
  formatNvram format (driverData bytes) bytes.length (nvramMaxData * 2)

/-- The formats that print hexadecimal digits. -/
def HnvramFormat.hexadecimal : HnvramFormat → Bool
  | .mac | .gpn | .hexstring => true
  | .string | .hmxswvers | .uint8 => false

/-- The same text, up to the case of hexadecimal digits where they are printed. -/
def SameText (format : HnvramFormat) (value printed : List Byte) : Prop :=
  if format.hexadecimal then printed.map lowerHex = value.map lowerHex else printed = value

instance (format : HnvramFormat) (value printed : List Byte) :
    Decidable (SameText format value printed) :=
  inferInstanceAs (Decidable (if format.hexadecimal then _ = _ else _ = _))

/-- What is accepted is printed as it was given. -/
def Restored (format : HnvramFormat) (value : List Byte) : Prop :=
  ∀ bytes, parseNvram format value nvramMaxData = some bytes →
    ∃ printed, readBack format bytes = some printed ∧ SameText format value printed

end Storing

end Gfiber.Hnvram
