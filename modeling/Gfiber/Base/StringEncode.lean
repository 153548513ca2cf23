import Gfiber.Lib.Escaping
import Gfiber.Lib.Scanf

/-! The string codings of the base library. A result is the text before the null
character that ends it; without a buffer there is neither. -/

set_option autoImplicit false

namespace Gfiber.Base

open Lib

section Hexadecimal

def hexDigits : List Byte :=
  bytesOf "0123456789abcdef"

def hexEncodeDigit (val : Byte) : Byte :=
  hexDigits.getD val.toNat (ascii '!')

/-- All letters are taken for digits. -/
def hexDecodeDigit (ch : Byte) : Option Byte :=
  if between '0' '9' ch then some (ch - ascii '0')
  else if between 'A' 'Z' ch then some (ch - ascii 'A' + 10)
  else if between 'a' 'z' ch then some (ch - ascii 'a' + 10)
  else none

def hexPair (ch : Byte) : List Byte :=
  [hexEncodeDigit ((ch >>> 4) &&& 0xF), hexEncodeDigit (ch &&& 0xF)]

/-- The byte that two digits at the start of a text stand for. -/
def hexDecodePair : List Byte → Option Byte
  | first :: second :: _ => do
      let h1 ← hexDecodeDigit first
      let h2 ← hexDecodeDigit second
      return (h1 <<< 4) ||| h2
  | _ => none

def hexEncode (buflen : Nat) (source : List Byte) : List Byte :=
  (source.take (min source.length ((buflen - 1) / 2))).flatMap hexPair

def hexDecodeNext (ch : Byte) (rest : List Byte) : Option (List Byte × Nat) :=
  (hexDecodePair (ch :: rest)).map fun value => ([value], 1)

def hexDecode (buflen : Nat) (source : List Byte) : List Byte :=
  Escaping.decodeFrom hexDecodeNext buflen 0 0 source

end Hexadecimal

section Characters

variable (illegal : List Byte) (escapeChar : Byte)

/-- `ch == escape || strchr(illegal, ch)`: the search finds the null character at
the end of the list, too. -/
def isIllegal (ch : Byte) : Bool :=
  ch = escapeChar || ch ∈ illegal || ch = 0

def escapeCode (ch : Byte) : List Byte :=
  if isIllegal illegal escapeChar ch then [escapeChar, ch] else [ch]

def escape (buflen : Nat) (source : List Byte) : List Byte :=
  Escaping.encodeFrom (escapeCode illegal escapeChar) buflen 0 source

def unescapeNext (ch : Byte) (rest : List Byte) : Option (List Byte × Nat) :=
  match rest with
  | next :: _ => if ch = escapeChar then some ([next], 1) else some ([ch], 0)
  | [] => some ([ch], 0)

def unescape (buflen : Nat) (source : List Byte) : List Byte :=
  Escaping.decodeFrom (unescapeNext escapeChar) buflen 0 0 source

def encodeCode (ch : Byte) : List Byte :=
  if isIllegal illegal escapeChar ch then escapeChar :: hexPair ch else [ch]

def encode (buflen : Nat) (source : List Byte) : List Byte :=
  Escaping.encodeFrom (encodeCode illegal escapeChar) buflen 0 source

def decodeNext (ch : Byte) (rest : List Byte) : Option (List Byte × Nat) :=
  if ch = escapeChar then
    match hexDecodePair rest with
    | some value => some ([value], 2)
    | none => some ([ch], 0)
  else some ([ch], 0)

def decode (buflen : Nat) (source : List Byte) : List Byte :=
  Escaping.decodeFrom (decodeNext escapeChar) buflen 0 0 source

end Characters

section Urls

def urlUnsafe : Nat := 0x1

def xmlUnsafe : Nat := 0x2

def htmlUnsafe : Nat := 0x2

def asciiClass : List Nat :=
  [1, 1, 1, 1, 1, 1, 1, 1, 1, 1, 1, 1, 1, 1, 1, 1, 1, 1, 1, 1, 1, 1, 1, 1, 1, 1, 1, 1, 1, 1, 1, 1,
    1, 0, 3, 1, 1, 1, 3, 2, 0, 0, 0, 1, 1, 0, 0, 1, 0, 0, 0, 0, 0, 0, 0, 0, 0, 0, 1, 1, 3, 1, 3, 1,
    1, 0, 0, 0, 0, 0, 0, 0, 0, 0, 0, 0, 0, 0, 0, 0, 0, 0, 0, 0, 0, 0, 0, 0, 0, 0, 0, 1, 1, 1, 1, 0,
    1, 0, 0, 0, 0, 0, 0, 0, 0, 0, 0, 0, 0, 0, 0, 0, 0, 0, 0, 0, 0, 0, 0, 0, 0, 0, 0, 1, 1, 1, 0, 1]

/-- `(ch < 128) && (ASCII_CLASS[ch] & mask)` -/
def inClass (mask : Nat) (ch : Byte) : Bool :=
  asciiClass.getD ch.toNat 0 &&& mask ≠ 0

def urlCode (ch : Byte) : List Byte :=
  if inClass urlUnsafe ch then ascii '%' :: hexPair ch else [ch]

def urlEncode (buflen : Nat) (source : List Byte) : List Byte :=
  Escaping.encodeFrom urlCode buflen 0 source

def urlDecodeNext (ch : Byte) (rest : List Byte) : Option (List Byte × Nat) :=
  if ch = ascii '+' then some ([ascii ' '], 0) else decodeNext (ascii '%') ch rest

def urlDecode (buflen : Nat) (source : List Byte) : List Byte :=
  Escaping.decodeFrom urlDecodeNext buflen 0 0 source

end Urls

section Utf8

/-- `(byte & 0xC0) == 0x80` -/
def isTrailer (byte : Byte) : Bool :=
  byte.toNat &&& 0xC0 = 0x80

/-- The value at the start of a text and the number of its bytes. -/
def utf8Decode : List Byte → Option (Nat × Nat)
  | [] => none
  | s0 :: source =>
      if s0.toNat &&& 0x80 = 0x00 then some (s0.toNat, 1)
      else
        match source with
        | [] => none
        | s1 :: source =>
            if !isTrailer s1 then none
            else
              let value16 := s1.toNat &&& 0x3F
              if s0.toNat &&& 0xE0 = 0xC0 then some ((s0.toNat &&& 0x1F) <<< 6 ||| value16, 2)
              else
                match source with
                | [] => none
                | s2 :: source =>
                    if !isTrailer s2 then none
                    else
                      let value16 := value16 <<< 6 ||| (s2.toNat &&& 0x3F)
                      if s0.toNat &&& 0xF0 = 0xE0 then
                        some ((s0.toNat &&& 0x0F) <<< 12 ||| value16, 3)
                      else
                        match source with
                        | [] => none
                        | s3 :: _ =>
                            if !isTrailer s3 then none
                            else
                              let value16 := value16 <<< 6 ||| (s3.toNat &&& 0x3F)
                              if s0.toNat &&& 0xF8 = 0xF0 then
                                some ((s0.toNat &&& 0x07) <<< 18 ||| value16, 4)
                              else none

def leadByte (mark : Byte) (bits : Nat) : Byte :=
  mark ||| BitVec.ofNat 8 bits

def trailByte (bits : Nat) : Byte :=
  0x80 ||| BitVec.ofNat 8 (bits &&& 0x3F)

/-- The bytes of a value for a buffer with room for them. A larger value has none. -/
def utf8Encode (value : Nat) : Option (List Byte) :=
  if value ≤ 0x7F then some [BitVec.ofNat 8 value]
  else if value ≤ 0x7FF then some [leadByte 0xC0 (value >>> 6), trailByte value]
  else if value ≤ 0xFFFF then
    some [leadByte 0xE0 (value >>> 12), trailByte (value >>> 6), trailByte value]
  else if value ≤ 0x1FFFFF then
    some [leadByte 0xF0 (value >>> 18), trailByte (value >>> 12), trailByte (value >>> 6),
      trailByte value]
  else none

end Utf8

section Markup

def entity (name : String) : List Byte :=
  ascii '&' :: bytesOf name

/-- The assertion of the default case never fails: see `xmlCode_class`. -/
def xmlCode (ch : Byte) : List Byte :=
  if inClass xmlUnsafe ch then
    if ch = ascii '<' then entity "lt;"
    else if ch = ascii '>' then entity "gt;"
    else if ch = ascii '\'' then entity "apos;"
    else if ch = ascii '"' then entity "quot;"
    else if ch = ascii '&' then entity "amp;"
    else []
  else [ch]

def xmlEncode (buflen : Nat) (source : List Byte) : List Byte :=
  Escaping.encodeFrom xmlCode buflen 0 source

/-- The digits of a number after the prefix that it may have in base 16. -/
def skipHexPrefix (base : Nat) (number : List Byte) : List Byte :=
  match number with
  | zero :: mark :: digit :: rest =>
      if base = 16 ∧ zero = ascii '0' ∧ (mark = ascii 'x' ∨ mark = ascii 'X') ∧ isxdigit digit then
        digit :: rest
      else number
  | _ => number

/-- `strtoul(text, &ptr, base)` for base 10 or 16, with the text from `ptr` on. -/
def strtoulBase (longWidth base : Nat) (text : List Byte) : BitVec longWidth × List Byte :=
  let (negative, number) := scanSign (text.dropWhile isspace)
  let number := skipHexPrefix base number
  let digits := number.takeWhile (isDigitOf base)
  if digits = [] then (0, text)
  else
    let value := digits.foldl (fun value digit => base * value + hexValue digit) 0
    (if 2 ^ longWidth ≤ value then BitVec.allOnes longWidth
      else if negative then -BitVec.ofNat longWidth value
      else BitVec.ofNat longWidth value,
      number.dropWhile (isDigitOf base))

/-- The rest of a numeric reference, after its `#` or `#x`. -/
def numericNext (longWidth base : Nat) (text : List Byte) : Option (List Byte × List Byte) :=
  let (val, ptr) := strtoulBase longWidth base text
  match ptr with
  | stop :: rest =>
      if stop = ascii ';' then (utf8Encode val.toNat).map fun chunk => (chunk, rest) else none
  | [] => none

/-- `memcmp` with a name, when the source is long enough for it. -/
def startsWith (name : String) (text : List Byte) : Bool :=
  (bytesOf name).isPrefixOf text

def xmlDecodeNext (longWidth : Nat) (ch : Byte) (rest : List Byte) : Option (List Byte × Nat) :=
  if ch ≠ ascii '&' then some ([ch], 0)
  else if startsWith "lt;" rest then some ([ascii '<'], 3)
  else if startsWith "gt;" rest then some ([ascii '>'], 3)
  else if startsWith "apos;" rest then some ([ascii '\''], 5)
  else if startsWith "quot;" rest then some ([ascii '"'], 5)
  else if startsWith "amp;" rest then some ([ascii '&'], 4)
  else if startsWith "#x" rest then
    (numericNext longWidth 16 (rest.drop 2)).map fun (chunk, after) =>
      (chunk, rest.length - after.length)
  else if startsWith "#" rest then
    (numericNext longWidth 10 (rest.drop 1)).map fun (chunk, after) =>
      (chunk, rest.length - after.length)
  else none

/-- A numeric reference may take the last place of the buffer, which the null
character is then written behind. -/
def xmlDecode (longWidth buflen : Nat) (source : List Byte) : List Byte :=
  Escaping.decodeFrom (xmlDecodeNext longWidth) buflen 0 0 source

/-- What the loop of `html_encode` takes off the source: a character below 128, or
the value of a sequence or of a byte that begins none. -/
inductive HtmlValue where
  | plain (ch : Byte)
  | numeric (val : Nat)
deriving DecidableEq, Repr

def htmlValuesFrom : Nat → List Byte → List HtmlValue
  | _, [] => []
  | further + 1, _ :: source => htmlValuesFrom further source
  | 0, ch :: source =>
      if ch.toNat < 128 then .plain ch :: htmlValuesFrom 0 source
      else
        match utf8Decode (ch :: source) with
        | some (val, vallen) => .numeric val :: htmlValuesFrom (vallen - 1) source
        | none => .numeric ch.toNat :: htmlValuesFrom 0 source

def htmlCode : HtmlValue → List Byte
  | .plain ch =>
      if inClass htmlUnsafe ch then
        if ch = ascii '<' then entity "lt;"
        else if ch = ascii '>' then entity "gt;"
        else if ch = ascii '\'' then entity "#39;"
        else if ch = ascii '"' then entity "quot;"
        else if ch = ascii '&' then entity "amp;"
        else []
      else [ch]
  | .numeric val => entity "#" ++ printNat val ++ bytesOf ";"

def htmlEncode (buflen : Nat) (source : List Byte) : List Byte :=
  Escaping.encodeFrom htmlCode buflen 0 (htmlValuesFrom 0 source)

def htmlDecode (longWidth buflen : Nat) (source : List Byte) : List Byte :=
  xmlDecode longWidth buflen source

end Markup

end Gfiber.Base
