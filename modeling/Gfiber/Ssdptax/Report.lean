import Mathlib.Data.List.AList
import Mathlib.Data.List.Lex
import Mathlib.Data.List.Sort
import Gfiber.Lib.Iteration
import Gfiber.Lib.Lines
import Gfiber.Lib.Scanf
import Gfiber.Ssdptax.Responses

/-! The descriptions that the devices give of themselves, and the lines that are printed. A program
that reads from a wild pointer is `none`. -/

set_option autoImplicit false

namespace Gfiber.Ssdptax

open Lib

section Descriptions

def openLabel (label : String) : List Byte :=
  ascii '<' :: bytesOf label ++ [ascii '>']

def closeLabel (label : String) : List Byte :=
  ascii '<' :: ascii '/' :: bytesOf label ++ [ascii '>']

/-- The text of a field. A label that is not opened is taken to be opened behind the null pointer,
which is in front of any that closes it. -/
def findXmlField (ptr : List Byte) (label : String) : Option (Option (List Byte)) :=
  match strcasestr (openLabel label) ptr, strcasestr (closeLabel label) ptr with
  | some opened, some close =>
      let start := opened + (openLabel label).length
      if start < close then some (some ((ptr.take close).drop start)) else some none
  | some _, none => some none
  | none, some _ => none
  | none, none => some none

/-- The name, or the description if there is no name. -/
def findName (ptr : List Byte) : Option (Option (List Byte)) :=
  match findXmlField ptr "friendlyName" with
  | some none => findXmlField ptr "modelDescription"
  | found => found

def extractFieldsFromBuffer (info : SsdpInfo) : Option SsdpInfo := do
  let ptr := cStr info.buffer
  let p ← findName ptr
  let info := { info with friendlyName := p.getD info.friendlyName }
  let p ← findXmlField ptr "manufacturer"
  let info := { info with manufacturer := p.getD info.manufacturer }
  let p ← findXmlField ptr "modelName"
  return { info with model := p.getD info.model }

/-- What comes of a request to a URL. -/
inductive Fetched where
  | notStarted
  | performed (ok : Bool) (body : List Byte) (ip : Option (List Byte))
deriving DecidableEq, Repr

abbrev Curl := List Byte → Fetched

def fetchDeviceInfo (curl : Curl) (url : List Byte) (info : SsdpInfo) : Option SsdpInfo :=
  match curl url with
  | .notStarted => some info
  | .performed ok body ip =>
      let info := { info with buffer := info.buffer ++ body }
      let info := if ok then extractFieldsFromBuffer info else some { info with failed := true }
      info.map fun info => { info with ipaddr := ip.getD info.ipaddr, buffer := [] }

abbrev ResponsesMap := AList fun _ : List Byte => SsdpInfo

/-- What is announced is fetched, unless its URL is known. -/
def addResponse (curl : Curl) (responses : ResponsesMap) (info : SsdpInfo) : Option ResponsesMap :=
  if info.url ≠ [] ∧ info.url ∉ responses then
    (fetchDeviceInfo curl info.url info).map fun fetched => responses.insert info.url fetched
  else some responses

end Descriptions

section Addresses

abbrev L2Map := List Byte → Option (List Byte)

/-- The neighbours of the device: the address of each as a text, and that of the link layer. -/
abbrev Neighbours := List (List Byte × Vector Byte 6)

def printMac (mac : Vector Byte 6) : List Byte :=
  [ascii ':'].intercalate (mac.toList.map printHexByte)

def getL2Map (neighbours : Neighbours) (l2map : L2Map) : L2Map :=
  neighbours.foldl (fun l2map entry => Function.update l2map entry.1 (some (printMac entry.2))) l2map

def unknownMac : List Byte :=
  bytesOf "00:00:00:00:00:00"

/-- The map, and how often the neighbours have been read. -/
structure L2Cache where
  l2map : L2Map
  reads : Nat

def L2Cache.empty : L2Cache :=
  ⟨fun _ => none, 0⟩

def getL2addrForIp (kernel : Nat → Neighbours) (ipaddr : List Byte) (cache : L2Cache) :
    List Byte × L2Cache :=
  match cache.l2map ipaddr with
  | some mac => (mac, cache)
  | none =>
      let l2map := getL2Map (kernel cache.reads) cache.l2map
      ((l2map ipaddr).getD unknownMac, ⟨l2map, cache.reads + 1⟩)

end Addresses

section Formatting

/-- A letter or a digit in any case, `.` or `-`. -/
def isDomainByte (byte : Byte) : Bool :=
  isalnum byte || byte = ascii '.' || byte = ascii '-'

/-- `[a-z0-9.-]+\.[a-z0-9.-]+` at the beginning of a text. -/
def startsWithDomain (text : List Byte) : Bool :=
  ((text.takeWhile isDomainByte).drop 1).dropLast.contains (ascii '.')

/-- `.+@[a-z0-9.-]+\.[a-z0-9.-]+` somewhere in a text. -/
def containsEmailAddress (friendlyName : List Byte) : Bool :=
  (friendlyName.drop 1).tails.any fun rest =>
    match rest with
    | [] => false
    | byte :: text => byte = ascii '@' && startsWithDomain text

def unfriendlyName (manufacturer model : List Byte) : List Byte :=
  if (strcasestr manufacturer model).isSome then model
  else manufacturer ++ [ascii ' '] ++ model

/-- The line of a device that could be reached. -/
def formatResponse (info : SsdpInfo) (mac : List Byte) : List Byte :=
  if containsEmailAddress info.friendlyName then
    bytesOf "ssdp " ++ mac ++ bytesOf " REDACTED;" ++ info.srvType
  else if 0 < info.friendlyName.length then
    bytesOf "ssdp " ++ mac ++ bytesOf " " ++ info.friendlyName ++ bytesOf ";" ++
      unfriendlyName info.manufacturer info.model
  else bytesOf "ssdp " ++ mac ++ bytesOf " Unknown;" ++ info.srvType

/-- A line with the device and the address that it has been given. -/
structure Report where
  info : SsdpInfo
  mac : List Byte
  line : List Byte
deriving DecidableEq, Repr

def formatResponses (kernel : Nat → Neighbours) : L2Cache → List SsdpInfo → List Report
  | _, [] => []
  | cache, info :: infos =>
      if info.failed then formatResponses kernel cache infos
      else
        let (mac, cache) := getL2addrForIp kernel info.ipaddr cache
        ⟨info, mac, formatResponse info mac⟩ :: formatResponses kernel cache infos

/-- The results as a set of strings has them. -/
def resultsSet (results : List (List Byte)) : List (List Byte) :=
  results.dedup.insertionSort fun left right =>
    left.map BitVec.toNat ≤ right.map BitVec.toNat

end Formatting

section Main

/-- What is received and found: the answer of the daemon and where it is kept, the packets, the
descriptions and the neighbours each time they are read. -/
structure Network where
  signedChar : Bool
  heap : Heap
  answer : List Byte
  packets : List (List Byte)
  curl : Curl
  kernel : Nat → Neighbours
  order : IterationOrder SsdpInfo

namespace Network

def announced (network : Network) : Option (List SsdpInfo) :=
  (minissdpdAnnounced network.signedChar network.heap network.answer).map fun infos =>
    infos ++ network.packets.map parseSsdpResponse

def responses (network : Network) : Option ResponsesMap :=
  network.announced.bind fun announced => announced.foldlM (addResponse network.curl) ∅

def reports (network : Network) : Option (List Report) :=
  network.responses.map fun responses =>
    formatResponses network.kernel .empty
      (network.order.arrange (responses.entries.map Sigma.snd))

/-- What is printed. -/
def main (network : Network) : Option (List Byte) :=
  network.reports.map fun reports =>
    (resultsSet (reports.map Report.line)).flatMap fun line => line ++ [lineEnd]

end Network

end Main

end Gfiber.Ssdptax
