import Gfiber.Lib.Run
import Gfiber.Ssdptax.Report

/-! The fields of the descriptions where they are in memory, and the loop over the records. -/

set_option autoImplicit false

namespace Gfiber.Ssdptax

open Lib

namespace Placed

section Fields

/-- The library reads the string only, and gives the null pointer when it finds nothing. -/
def strcasestr (string : Placed) (needle : List Byte) : BitVec 64 :=
  match Lib.strcasestr needle (cStr string.bytes) with
  | some place => string.address + BitVec.ofNat 64 place
  | none => 0

/-- The start and the length of a field. -/
def findXmlField (string : Placed) (label : String) : Option (BitVec 64 × BitVec 64) :=
  let start := string.strcasestr (openLabel label) + BitVec.ofNat 64 (openLabel label).length
  let finish := string.strcasestr (closeLabel label)
  if start < finish then some (start, finish - start) else none

/-- A field is copied if its length, which is signed, is positive. -/
def readField (string : Placed) (field : Option (BitVec 64 × BitVec 64)) (before : List Byte) :
    Except Stop (List Byte) :=
  match field with
  | none => .ok before
  | some (p, len) =>
      if 0 < len.toInt then
        let copied := (string.memory p).take len.toNat
        if copied.length = len.toNat then .ok copied else .error .outside
      else .ok before

def findName (string : Placed) : Option (BitVec 64 × BitVec 64) :=
  match string.findXmlField "friendlyName" with
  | none => string.findXmlField "modelDescription"
  | found => found

def extractFieldsFromBuffer (buffer : Placed) (info : SsdpInfo) : Except Stop SsdpInfo := do
  let friendlyName ← buffer.readField buffer.findName info.friendlyName
  let manufacturer ← buffer.readField (buffer.findXmlField "manufacturer") info.manufacturer
  let model ← buffer.readField (buffer.findXmlField "modelName") info.model
  return { info with friendlyName := friendlyName, manufacturer := manufacturer, model := model }

end Fields

end Placed

section Loop

/-- What is left to do in the loop over the records. -/
structure Records where
  num : Int
  buffer : List Byte
deriving DecidableEq, Repr

/-- A record that is not taken leaves the buffer as it is. -/
def Records.after (records : Records) (response : Placed) : Records where
  num := records.num - 1
  buffer := match response.parseMinissdpdResponse with
    | .ok (left, _) => left
    | .error _ => records.buffer

/-- One pass of the loop; the buffer is somewhere in memory. -/
inductive Records.Step : Records → Placed → Records → Prop where
  | record {records : Records} {response : Placed} (more : 0 < records.num)
      (some_byte : records.buffer ≠ []) (held : response.bytes = records.buffer) :
      Step records response (records.after response)

end Loop

end Gfiber.Ssdptax
