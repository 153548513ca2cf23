import Gfiber.Lib.Elements
import Gfiber.Lib.Slice

/-! The program that takes names and addresses out of captured frames. A packet is the bytes that
were captured of it, and an access beyond them is `none`. -/

set_option autoImplicit false

namespace Gfiber.Taxonomy

open Lib

section Headers

abbrev Half := BitVec 16

/-- `struct pcap_pkthdr`. -/
structure PacketHeader where
  seconds : Nat
  micros : Nat
  caplen : Word
  len : Word
deriving DecidableEq, Repr

def assocReq : Half := 0

def probeReq : Half := 4

def probeResp : Half := 5

def beacon : Half := 8

/-- The fields of `struct ieee80211_mgmt`, by their offsets. -/
def daOffset : Nat := 4

def saOffset : Nat := 10

def bssidOffset : Nat := 16

def assocReqVariable : Nat := 28

def probeReqVariable : Nat := 24

def probeRespVariable : Nat := 36

def beaconVariable : Nat := 36

def readHalf (pkt : List Byte) (offset : Nat) : Option Half := do
  let low ← pkt[offset]?
  let high ← pkt[offset + 1]?
  return high ++ low

end Headers

section Addresses

def isBroadcastMac (pkt : List Byte) (mac : Nat) : Bool :=
  (List.range 6).all fun index => pkt[mac + index]? = some 0xff

/-- Overwrites bytes in place. -/
def store (pkt : List Byte) (offset : Nat) (bytes : List Byte) : Option (List Byte) :=
  if offset + bytes.length ≤ pkt.length then some (writeAt pkt offset bytes) else none

def clearAddress (pkt : List Byte) (mac : Nat) : Option (List Byte) :=
  store pkt (mac + 3) [0, 0, 0]

def clearUnlessBroadcast (pkt : List Byte) (mac : Nat) : Option (List Byte) :=
  if isBroadcastMac pkt mac then some pkt else clearAddress pkt mac

end Addresses

section Elements

/-- The loop, in which the lengths are unsigned. -/
def rewriteSsid (pkt : List Byte) (ie ieLen : Nat) : Option (List Byte) :=
  if 2 ≤ ieLen then
    match pkt[ie]?, pkt[ie + 1]? with
    | some id, some elen =>
        if ieLen - 2 < elen.toNat then some pkt
        else if id = 0 ∧ 0 < elen.toNat then
          (store pkt (ie + 2) (List.replicate elen.toNat 88)).bind fun pkt =>
            rewriteSsid pkt (ie + 2 + elen.toNat) (ieLen - 2 - elen.toNat)
        else rewriteSsid pkt (ie + 2 + elen.toNat) (ieLen - 2 - elen.toNat)
    | _, _ => none
  else some pkt
termination_by ieLen

/-- The length of the elements without the checksum, which is taken to be there. -/
def elementsLength (hdr : PacketHeader) (offset itLen : Nat) : Nat :=
  (((hdr.caplen.toNat : Int) - offset - itLen - 4) % 2 ^ 64).toNat

/-- What is done with the elements of one kind of frames. -/
def rewriteKind (kind : Half) (offset : Nat) (hdr : PacketHeader) (itLen : Nat) (type subtype : Half)
    (pkt : List Byte) : Option (List Byte) :=
  if type = 0 ∧ subtype = kind then
    rewriteSsid pkt (itLen + offset) (elementsLength hdr offset itLen)
  else some pkt

def frameType (fc : Half) : Half :=
  (fc >>> 2) &&& 3

def frameSubtype (fc : Half) : Half :=
  (fc >>> 4) &&& 0xf

/-- The loop's body. -/
def anonymizePacket (hdr : PacketHeader) (pkt : List Byte) : Option (List Byte) := do
  let itLen := (← readHalf pkt 2).toNat
  let fc ← readHalf pkt itLen
  let type := frameType fc
  let subtype := frameSubtype fc
  let pkt ← rewriteKind assocReq assocReqVariable hdr itLen type subtype pkt
  let pkt ← rewriteKind probeReq probeReqVariable hdr itLen type subtype pkt
  let pkt ← rewriteKind probeResp probeRespVariable hdr itLen type subtype pkt
  let pkt ← rewriteKind beacon beaconVariable hdr itLen type subtype pkt
  let pkt ← clearAddress pkt (itLen + saOffset)
  let pkt ← clearUnlessBroadcast pkt (itLen + daOffset)
  clearUnlessBroadcast pkt (itLen + bssidOffset)

/-- The packets of a file. -/
def anonymizePcap (packets : List (PacketHeader × List Byte)) :
    Option (List (PacketHeader × List Byte)) :=
  packets.mapM fun packet => (anonymizePacket packet.1 packet.2).map fun pkt => (packet.1, pkt)

end Elements

end Gfiber.Taxonomy
