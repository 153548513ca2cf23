import Mathlib.Algebra.Order.Field.Rat
import Mathlib.Data.List.AList
import Mathlib.Data.List.Lex
import Mathlib.Data.List.Sort
import Gfiber.Lib.Text
import Gfiber.Lib.Word
import Gfiber.Waveguide.Consensus

/-! Low-powered access points that shut down in favour of a high-powered one
nearby. Packets are multicast: each node gets any of them, at any time, in any
order, any number of times or never. Every node reads clocks of its own. -/

set_option autoImplicit false

namespace Gfiber.Waveguide.AutoDisable

open Lib

namespace ApFlags

def can2G : Nat := 0x01

def can5G : Nat := 0x02

def canMask : Nat := 0x0f

def highPower : Nat := 0x10

def tvBox : Nat := 0x20

end ApFlags

/-- The six bytes of an address, so that none is the empty string. -/
abbrev Mac := Vector Byte 6

/-- The key that Python compares two byte strings of one length by. -/
def Mac.key (mac : Mac) : List Nat :=
  mac.toList.map BitVec.toNat

def decodeMac (mac : Mac) : Text :=
  (mac.toList.map fun byte =>
    [Nat.digitChar (byte.toNat / 16), Nat.digitChar (byte.toNat % 16)]).intersperse [':'] |>.flatten

/-- What the choice reads of an entry of `bss_list`. A line that the scan did
not have leaves `None`. -/
structure Bss where
  rssi : Option ℚ
  lastSeen : Option ℚ
deriving DecidableEq, Repr

/-- The `me` of a packet. -/
structure Me (Key : Type) extends Advert Key where
  now : ℚ
  mac : Mac
  flags : Nat
deriving DecidableEq, Repr

structure Options where
  txInterval : ℚ
  scanInterval : ℚ
  autoDisableThreshold : ℚ
deriving DecidableEq, Repr

/-- A number has been subtracted from `None`. -/
inductive Exn where
  | typeError
deriving DecidableEq, Repr

/-- `disabledFile` is what the status file with the suffix holds. -/
structure WlanManager (Key : Type) where
  mac : Mac
  flags : Nat
  bssList : AList fun _ : Mac => Bss
  peerList : AList fun _ : Mac => Me Key
  autoDisabled : Option Mac
  disabledFile : Option Text

section Choice

variable {Key : Type}

def WlanManager.new (highPower tvBox : Bool) : WlanManager Key where
  mac := Vector.replicate 6 0
  flags := (if highPower then ApFlags.highPower else 0) ||| (if tvBox then ApFlags.tvBox else 0)
  bssList := ∅
  peerList := ∅
  autoDisabled := none
  disabledFile := none

/-- The values of the dictionary, in the order of their addresses. -/
def sortedPeers (peerList : AList fun _ : Mac => Me Key) : List (Me Key) :=
  (peerList.entries.map Sigma.snd).insertionSort fun left right => left.mac.key ≤ right.mac.key

/-- `rssi <= opt.auto_disable_threshold`: `None` is below every number. -/
def isFar (opt : Options) (bss : Bss) : Bool :=
  bss.rssi.all (· ≤ opt.autoDisableThreshold)

def isOld (opt : Options) (peerAgeSecs scanAgeSecs : ℚ) : Bool :=
  peerAgeSecs > opt.txInterval * 4 ||
    (opt.scanInterval ≠ 0 && scanAgeSecs > opt.scanInterval * 4)

namespace WlanManager

variable (opt : Options) (time : ℚ) (m : WlanManager Key)

/-- The body of the loop, for a peer that a scan has shown. -/
def overwhelmedBy (peer : Me Key) (bss : Bss) : Except Exn Bool :=
  match bss.lastSeen with
  | none => .error .typeError
  | some lastSeen =>
      .ok <|
        if isFar opt bss then false
        else if peer.flags &&& ApFlags.highPower = 0 then false
        else if m.flags &&& peer.flags &&& ApFlags.canMask = 0 then false
        else if isOld opt (time - peer.now) (time - lastSeen) then false
        else true

def considerPeers : List (Me Key) → Except Exn (Option Mac)
  | [] => .ok none
  | peer :: peers =>
      match m.bssList.lookup peer.mac with
      | none => considerPeers peers
      | some bss =>
          match m.overwhelmedBy opt time peer bss with
          | .error exn => .error exn
          | .ok true => .ok (some peer.mac)
          | .ok false => considerPeers peers

def shouldAutoDisable : Except Exn (Option Mac) :=
  if m.flags &&& ApFlags.highPower ≠ 0 then .ok none
  else m.considerPeers opt time (sortedPeers m.peerList)

/-- The status file after `MaybeAutoDisable` has chosen `ad`. -/
def disabledFileFor (ad : Option Mac) : Option Text :=
  match ad with
  | some mac => if m.autoDisabled ≠ some mac then some (decodeMac mac) else m.disabledFile
  | none => if m.autoDisabled.isSome then none else m.disabledFile

def maybeAutoDisable : Except Exn (WlanManager Key) := do
  let ad ← m.shouldAutoDisable opt time
  return { m with autoDisabled := ad, disabledFile := m.disabledFileFor ad }

/-- The result of a scan: each `AddEntry` in turn, and then the choice. -/
def scanResults (scanned : List (Mac × Bss)) : Except Exn (WlanManager Key) :=
  { m with
    bssList := scanned.foldl (fun bssList (entry : Mac × Bss) => bssList.insert entry.1 entry.2)
      m.bssList }
    |>.maybeAutoDisable opt time

/-- A packet that decodes. The consensus is the process's, for all its managers. -/
def readReady [DecidableEq Key] (gettime : ℚ) (consensus : Consensus Key) (p : Me Key) :
    Except Exn (Consensus Key × WlanManager Key) :=
  let consensus := (updateConsensus gettime (some consensus) p.uptimeMs p.consensusKey).1
  if p.mac = m.mac then .ok (consensus, m)
  else if p.consensusKey ≠ consensus.key then .ok (consensus, m)
  else do
    let m ← { m with peerList := m.peerList.insert p.mac p }.maybeAutoDisable opt time
    return (consensus, m)

/-- The `me` of the packet that `SendUpdate` sends. -/
def getState (now uptimeMs : ℚ) (consensusKey : Key) : Me Key where
  uptimeMs := uptimeMs
  consensusKey := consensusKey
  now := now
  mac := m.mac
  flags := m.flags

end WlanManager

end Choice

/-- The managers of all nodes, and every packet that was sent with its sender. -/
structure Network (Key : Type) where
  managers : List (WlanManager Key)
  sent : List (Nat × Me Key)

inductive Event where
  | join
  | phyResults (index : Nat)
  | devResults (index : Nat)
  | scanResults (index : Nat)
  | sendUpdate (index : Nat)
  | readReady (index : Nat)
deriving DecidableEq, Repr

namespace Network

variable {Key : Type} [DecidableEq Key]

/-- A process that an exception ends has no step, like one that stops. -/
inductive Step : Network Key → Event → Network Key → Prop where
  | join {net : Network Key} {highPower tvBox : Bool} :
      Step net .join { net with managers := net.managers ++ [.new highPower tvBox] }
  | phyResults {net : Network Key} {index bits : Nat} {m : WlanManager Key}
      (running : net.managers[index]? = some m)
      (bands : bits ∈ [0, ApFlags.can2G, ApFlags.can5G, ApFlags.can2G ||| ApFlags.can5G]) :
      Step net (.phyResults index)
        { net with managers := net.managers.set index { m with flags := m.flags ||| bits } }
  | devResults {net : Network Key} {index : Nat} {mac : Mac} {m : WlanManager Key}
      (running : net.managers[index]? = some m) :
      Step net (.devResults index)
        { net with managers := net.managers.set index { m with mac } }
  | scanResults {net : Network Key} {index : Nat} {opt : Options} {time : ℚ}
      {scanned : List (Mac × Bss)} {m next : WlanManager Key}
      (running : net.managers[index]? = some m)
      (chosen : m.scanResults opt time scanned = .ok next) :
      Step net (.scanResults index) { net with managers := net.managers.set index next }
  | sendUpdate {net : Network Key} {index : Nat} {now uptimeMs : ℚ} {consensusKey : Key}
      {m : WlanManager Key} (running : net.managers[index]? = some m) :
      Step net (.sendUpdate index)
        { net with sent := (index, m.getState now uptimeMs consensusKey) :: net.sent }
  | readReady {net : Network Key} {index : Nat} {opt : Options} {time gettime : ℚ}
      {consensus after : Consensus Key} {packet : Nat × Me Key} {m next : WlanManager Key}
      (running : net.managers[index]? = some m) (was_sent : packet ∈ net.sent)
      (read : m.readReady opt time gettime consensus packet.2 = .ok (after, next)) :
      Step net (.readReady index) { net with managers := net.managers.set index next }

def initial : Network Key :=
  ⟨[], []⟩

end Network

end Gfiber.Waveguide.AutoDisable
