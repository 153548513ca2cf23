import Gfiber.Lib.Casefold

/-! What devices announce of themselves, and how it is taken out of the answer of the daemon, where it
is in memory with pointers that wrap around, and out of single packets. -/

set_option autoImplicit false

namespace Gfiber.Ssdptax

open Lib

section Copying

structure SsdpInfo where
  srvType : List Byte := []
  url : List Byte := []
  friendlyName : List Byte := []
  ipaddr : List Byte := []
  manufacturer : List Byte := []
  model : List Byte := []
  buffer : List Byte := []
  failed : Bool := false
deriving DecidableEq, Repr

def limitByte (byte : Byte) : Byte :=
  if isspace byte || byte = ascii ';' then ascii ' '
  else if isprint byte then byte
  else ascii '_'

/-- The string in the buffer afterwards. -/
def strncpyLimited (dstlen : Nat) (src : List Byte) : List Byte :=
  let lim := if dstlen - 1 ≤ src.length then dstlen - 2 else src.length
  (src.take lim).map limitByte

/-- The string that ends at the first zero byte. -/
def cStr (bytes : List Byte) : List Byte :=
  bytes.takeWhile (· ≠ 0)

end Copying

section Daemon

/-- A string in memory, and the zero byte behind it. Nothing is in the first page, and nothing at
the last address. -/
structure Placed where
  address : BitVec 64
  bytes : List Byte
  page : 4096 ≤ address.toNat
  fits : address.toNat + bytes.length + 1 < 2 ^ 64

/-- Why a record is not taken: a byte outside the string has been read, or a length is too large. -/
inductive Stop where
  | outside
  | refused
deriving DecidableEq, Repr

namespace Placed

section Reading

def finish (string : Placed) : BitVec 64 :=
  string.address + BitVec.ofNat 64 string.bytes.length

/-- The bytes from a pointer on that belong to the string. -/
def memory (string : Placed) (p : BitVec 64) : List Byte :=
  (string.bytes ++ [0]).drop (p - string.address).toNat

/-- `DECODELENGTH`: the length, and how many bytes have been read. -/
def decodeLength (n : BitVec 64) : List Byte → Option (BitVec 64 × Nat)
  | [] => none
  | byte :: p =>
      let n := n <<< 7 ||| (byte &&& 0x7f).setWidth 64
      if byte &&& 0x80 = 0 then some (n, 1)
      else (decodeLength n p).map fun (n, read) => (n, read + 1)

/-- A length, if the text that it is of does not seem to end behind the string. -/
def takeLength (string : Placed) (p : BitVec 64) : Except Stop (BitVec 64 × BitVec 64) :=
  match decodeLength 0 (string.memory p) with
  | none => .error .outside
  | some (slen, read) =>
      let p := p + BitVec.ofNat 64 read
      if string.finish < p + slen then .error .refused else .ok (slen, p)

def strncpyLimited (string : Placed) (dstlen : Nat) (src srclen : BitVec 64) :
    Except Stop (List Byte) :=
  let lim := if dstlen - 1 ≤ srclen.toNat then dstlen - 2 else srclen.toNat
  let copied := (string.memory src).take lim
  if copied.length = lim then .ok (copied.map limitByte) else .error .outside

/-- What is left of the response, and what it says. -/
def parseMinissdpdResponse (response : Placed) : Except Stop (List Byte × SsdpInfo) := do
  let p := response.address
  let (slen, p) ← response.takeLength p
  let url ← response.strncpyLimited 256 p slen
  let p := p + slen
  let (slen, p) ← response.takeLength p
  let srvType ← response.strncpyLimited 256 p slen
  let p := p + slen
  let (slen, p) ← response.takeLength p
  let p := p + slen
  return (response.bytes.drop (p - response.address).toNat, { url := url, srvType := srvType })

end Reading

end Placed

/-- `siz`: no longer answer is received. -/
def answerSize : Nat :=
  256 * 1024

/-- Where the string with the records is in each pass of the loop. -/
structure Heap where
  address : Nat → BitVec 64
  page : ∀ pass, 4096 ≤ (address pass).toNat
  room : ∀ pass, (address pass).toNat + answerSize + 1 < 2 ^ 64

/-- The string in a pass, which is no longer than the answer. -/
def Heap.place (heap : Heap) (pass : Nat) (buffer : List Byte) : Placed where
  address := heap.address pass
  bytes := buffer.take answerSize
  page := heap.page pass
  fits := by
    have room := heap.room pass
    have short := buffer.length_take_le answerSize
    omega

/-- The records from some pass on, as many as there are to be. One that is not taken leaves the
buffer as it is. A program that reads outside the buffer is `none`. -/
def minissdpdRecords (heap : Heap) (pass : Nat) : Nat → List Byte → Option (List SsdpInfo)
  | 0, _ => some []
  | num + 1, buffer =>
      if buffer = [] then some []
      else
        match (heap.place pass buffer).parseMinissdpdResponse with
        | .error .outside => none
        | .error .refused => (minissdpdRecords heap (pass + 1) num buffer).map fun infos =>
            {} :: infos
        | .ok (left, info) => (minissdpdRecords heap (pass + 1) num left).map fun infos =>
            info :: infos

/-- The answer to the request, which is empty if there is none. Its first byte is a `char`. -/
def minissdpdAnnounced (signedChar : Bool) (heap : Heap) (answer : List Byte) :
    Option (List SsdpInfo) :=
  match answer.take answerSize with
  | [] => some []
  | first :: buffer =>
      let num : Int := if signedChar then first.toInt else first.toNat
      minissdpdRecords heap 0 num.toNat buffer

end Daemon

section Packets

def blanks : List Byte :=
  [ascii ' ', ascii '\t', 11, 12, 8, ascii '\r', ascii '\n']

/-- `trim`, which leaves a text of blanks as it is. -/
def trim (s : List Byte) : List Byte :=
  if s.all (· ∈ blanks) then s
  else (s.dropWhile (· ∈ blanks)).reverse.dropWhile (· ∈ blanks) |>.reverse

def isLineBreak (byte : Byte) : Bool :=
  byte = ascii '\r' || byte = ascii '\n'

/-- The tokens that `strtok_r` gives. -/
def tokens (buffer : List Byte) : List (List Byte) :=
  (buffer.splitOnP isLineBreak).filter (· ≠ [])

def parseLine (info : SsdpInfo) (p : List Byte) : SsdpInfo :=
  if 9 < p.length ∧ startsWithFolded p (bytesOf "location:") then
    { info with url := trim (strncpyLimited 512 (p.drop 9)) }
  else if 7 < p.length ∧ startsWithFolded p (bytesOf "server:") then
    { info with srvType := trim (strncpyLimited 256 (p.drop 7)) }
  else info

/-- What is in a packet, of which 4095 bytes are received. -/
def parseSsdpResponse (packet : List Byte) : SsdpInfo :=
  (tokens (cStr (packet.take 4095))).foldl parseLine {}

end Packets

end Gfiber.Ssdptax
