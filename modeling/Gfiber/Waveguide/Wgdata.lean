import Gfiber.Lib.Struct

/-! The data format of waveguide packets: a prefix, and behind it a compressed
header, the sender's identity and four lists of records. -/

set_option autoImplicit false

namespace Gfiber.Waveguide

open Lib

/-- `DecodeError` with the values its text shows: `short packet: ofs=%d len=%d
wanted=%d`, `expected magic=%r, got %r` and `expected proto_ver=%r, got %r`. -/
inductive DecodeError where
  | short (ofs len wanted : Nat)
  | magic (expected got : Value)
  | version (expected got : Value)
deriving DecidableEq, Repr

/-- The exceptions: `DecodeError`, `struct.error`, `zlib.error`, and the error
of a tuple that does not fit what it is unpacked into. -/
inductive Exn where
  | decode (error : DecodeError)
  | struct
  | zlib
  | arity
deriving DecidableEq, Repr

/-- `zlib.compress` and `zlib.decompress`, which may raise `zlib.error`. -/
structure Zlib where
  compress : List Byte → List Byte
  decompress : List Byte → Option (List Byte)

def Zlib.Inverts (zlib : Zlib) : Prop :=
  ∀ data, zlib.decompress (zlib.compress data) = some data

/-- `'wave'`. -/
def protoMagic : Value := .text [0x77, 0x61, 0x76, 0x65]

def protoVersion : Value := .int 2

def preFmt : List Field := [.text 4, .unsigned 1]

def headerFmt : List Field := [.unsigned 4, .unsigned 4, .unsigned 4, .unsigned 4]

structure Me where
  now : Int
  uptimeMs : Int
  consensusKey : List Byte
  mac : List Byte
  flags : Int
deriving DecidableEq, Repr

def meFmt : List Field := [.unsigned 8, .unsigned 8, .text 16, .text 6, .unsigned 4]

structure BSS where
  isOurs : Int
  mac : List Byte
  freq : Int
  rssi : Int
  flags : Int
  lastSeen : Int
  cap : Int
  phy : Int
  reg : List Byte
deriving DecidableEq, Repr

def bssFmt : List Field :=
  [.unsigned 1, .text 6, .unsigned 2, .signed 1, .unsigned 4, .unsigned 4, .unsigned 2,
    .unsigned 1, .text 2]

structure Channel where
  freq : Int
  noiseDbm : Int
  observedMs : Int
  busyMs : Int
deriving DecidableEq, Repr

def channelFmt : List Field := [.unsigned 2, .signed 1, .unsigned 4, .unsigned 4]

structure Assoc where
  mac : List Byte
  rssi : Int
  lastSeen : Int
  can5G : Int
deriving DecidableEq, Repr

def assocFmt : List Field := [.text 6, .signed 1, .unsigned 4, .bool]

structure ARP where
  ip : List Byte
  mac : List Byte
  lastSeen : Int
deriving DecidableEq, Repr

def arpFmt : List Field := [.text 4, .text 6, .unsigned 4]

structure State where
  me : Me
  seenBss : List BSS
  channelSurvey : List Channel
  assoc : List Assoc
  arp : List ARP
deriving DecidableEq, Repr

section Tuples

def Me.tuple (me : Me) : List Value :=
  [.int me.now, .int me.uptimeMs, .text me.consensusKey, .text me.mac, .int me.flags]

def BSS.tuple (bss : BSS) : List Value :=
  [.int bss.isOurs, .text bss.mac, .int bss.freq, .int bss.rssi, .int bss.flags,
    .int bss.lastSeen, .int bss.cap, .int bss.phy, .text bss.reg]

def Channel.tuple (chan : Channel) : List Value :=
  [.int chan.freq, .int chan.noiseDbm, .int chan.observedMs, .int chan.busyMs]

def Assoc.tuple (assoc : Assoc) : List Value :=
  [.text assoc.mac, .int assoc.rssi, .int assoc.lastSeen, .int assoc.can5G]

def ARP.tuple (arp : ARP) : List Value :=
  [.text arp.ip, .text arp.mac, .int arp.lastSeen]

def Me.ofTuple : List Value → Except Exn Me
  | [.int now, .int uptimeMs, .text consensusKey, .text mac, .int flags] =>
      .ok ⟨now, uptimeMs, consensusKey, mac, flags⟩
  | _ => .error .arity

def BSS.ofTuple : List Value → Except Exn BSS
  | [.int isOurs, .text mac, .int freq, .int rssi, .int flags, .int lastSeen, .int cap, .int phy,
      .text reg] => .ok ⟨isOurs, mac, freq, rssi, flags, lastSeen, cap, phy, reg⟩
  | _ => .error .arity

def Channel.ofTuple : List Value → Except Exn Channel
  | [.int freq, .int noiseDbm, .int observedMs, .int busyMs] =>
      .ok ⟨freq, noiseDbm, observedMs, busyMs⟩
  | _ => .error .arity

def Assoc.ofTuple : List Value → Except Exn Assoc
  | [.text mac, .int rssi, .int lastSeen, .int can5G] => .ok ⟨mac, rssi, lastSeen, can5G⟩
  | _ => .error .arity

def ARP.ofTuple : List Value → Except Exn ARP
  | [.text ip, .text mac, .int lastSeen] => .ok ⟨ip, mac, lastSeen⟩
  | _ => .error .arity

end Tuples

section Encoding

def packStruct (fmt : List Field) (values : List Value) : Except Exn (List Byte) :=
  match Struct.pack fmt values with
  | some bytes => .ok bytes
  | none => .error .struct

/-- The records of one list, one behind the other. -/
def packRecords (fmt : List Field) : List (List Value) → Except Exn (List Byte)
  | [] => .ok []
  | values :: rest => do
      let first ← packStruct fmt values
      let others ← packRecords fmt rest
      return first ++ others

/-- The entry as it is sent, with its age in the place of `last_seen`. -/
def BSS.aged (now : Int) (bss : BSS) : BSS :=
  { bss with lastSeen := now - bss.lastSeen }

def Assoc.aged (now : Int) (assoc : Assoc) : Assoc :=
  { assoc with lastSeen := now - assoc.lastSeen }

def ARP.aged (now : Int) (arp : ARP) : ARP :=
  { arp with lastSeen := now - arp.lastSeen }

def encodePacket (zlib : Zlib) (state : State) : Except Exn (List Byte) := do
  let me := state.me
  let now := me.now
  let meOut ← packStruct meFmt me.tuple
  let bssOut ← packRecords bssFmt (state.seenBss.map fun bss => (bss.aged now).tuple)
  let chanOut ← packRecords channelFmt (state.channelSurvey.map Channel.tuple)
  let assocOut ← packRecords assocFmt (state.assoc.map fun assoc => (assoc.aged now).tuple)
  let arpOut ← packRecords arpFmt (state.arp.map fun arp => (arp.aged now).tuple)
  let headerOut ← packStruct headerFmt
    [.int bssOut.length, .int chanOut.length, .int assocOut.length, .int arpOut.length]
  let data := headerOut ++ meOut ++ bssOut ++ chanOut ++ assocOut ++ arpOut
  let pre ← packStruct preFmt [protoMagic, protoVersion]
  return pre ++ zlib.compress data

end Encoding

structure Eater where
  data : List Byte
  ofs : Nat

namespace Eater

def new (data : List Byte) : Eater := ⟨data, 0⟩

def eat (e : Eater) (n : Nat) : Except Exn (List Byte × Eater) :=
  if e.data.length < e.ofs + n then .error (.decode (.short e.ofs e.data.length n))
  else .ok ((e.data.drop e.ofs).take n, { e with ofs := e.ofs + n })

def remainder (e : Eater) : Except Exn (List Byte × Eater) :=
  e.eat (e.data.length - e.ofs)

def unpack (e : Eater) (fmt : List Field) : Except Exn (List Value × Eater) := do
  let (bytes, e) ← e.eat (Struct.calcsize fmt)
  match Struct.unpack fmt bytes with
  | some result => return (result, e)
  | none => .error .struct

theorem unpack_ok {e next : Eater} {fmt : List Field} {values : List Value}
    (unpacked : e.unpack fmt = .ok (values, next)) :
    e.ofs + Struct.calcsize fmt ≤ e.data.length ∧
      next = { e with ofs := e.ofs + Struct.calcsize fmt } := by
  unfold unpack eat at unpacked
  split at unpacked
  case isTrue => cases unpacked
  case isFalse enough =>
    simp only [bind, Except.bind] at unpacked
    split at unpacked
    case h_1 =>
      cases unpacked
      exact ⟨by omega, rfl⟩
    case h_2 => cases unpacked

/-- The loop of `Iter` over the bytes it has taken. -/
def unpackAll (fmt : List Field) (positive : 0 < Struct.calcsize fmt) (e : Eater) :
    Except Exn (List (List Value)) :=
  if e.ofs < e.data.length then
    match _unpacked : e.unpack fmt with
    | .error exn => .error exn
    | .ok (values, next) => do
        let rest ← unpackAll fmt positive next
        return values :: rest
  else .ok []
termination_by e.data.length - e.ofs
decreasing_by
  obtain ⟨enough, same⟩ := unpack_ok ‹_›
  simp only [same]
  omega

def iter (e : Eater) (fmt : List Field) (positive : 0 < Struct.calcsize fmt) (nbytes : Nat) :
    Except Exn (List (List Value) × Eater) := do
  let (bytes, e) ← e.eat nbytes
  let values ← (Eater.new bytes).unpackAll fmt positive
  return (values, e)

end Eater

def decodePacket (zlib : Zlib) (p : List Byte) : Except Exn State := do
  let (pre, e) ← (Eater.new p).unpack preFmt
  let [magic, ver] := pre | .error .arity
  if magic ≠ protoMagic then .error (.decode (.magic protoMagic magic))
  else if ver ≠ protoVersion then .error (.decode (.version protoVersion ver))
  else do
    let (compressed, _) ← e.remainder
    let some data := zlib.decompress compressed | .error .zlib
    let (header, e) ← (Eater.new data).unpack headerFmt
    let [.int bssLen, .int chanLen, .int assocLen, .int arpLen] := header | .error .arity
    let (me, e) ← e.unpack meFmt
    let me ← Me.ofTuple me
    let (bssList, e) ← e.iter bssFmt (by decide) bssLen.toNat
    let bssList ← bssList.mapM BSS.ofTuple
    let (chanList, e) ← e.iter channelFmt (by decide) chanLen.toNat
    let chanList ← chanList.mapM Channel.ofTuple
    let (assocList, e) ← e.iter assocFmt (by decide) assocLen.toNat
    let assocList ← assocList.mapM Assoc.ofTuple
    let (arpList, _) ← e.iter arpFmt (by decide) arpLen.toNat
    let arpList ← arpList.mapM ARP.ofTuple
    return ⟨me, bssList, chanList, assocList, arpList⟩

end Gfiber.Waveguide
