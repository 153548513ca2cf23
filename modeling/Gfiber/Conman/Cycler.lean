import Mathlib.Algebra.Order.Ring.Rat
import Mathlib.Data.List.MinMax
import Mathlib.Data.Multiset.Defs
import Gfiber.Lib.Iteration
import Gfiber.Lib.Word
import Gfiber.Conman.WlanConfiguration

/-! The open networks a scan has found, and the queue in which they age until
they are tried. The cycler rounds its arithmetic as it is told. -/

set_option autoImplicit false

namespace Gfiber.Conman

open Lib

section Scanning

inductive Security where
  | wpa2
  | wpa
  | wep
deriving DecidableEq, Repr

/-- A vendor information element. Its data has at least one octet. -/
structure VendorIe where
  oui : Text
  first : Byte
  rest : List Byte
deriving DecidableEq, Repr

structure BssInfo where
  bssid : Text
  ssid : Text
  rssi : Rat
  band : Option Band
  security : List Security
  vendorIes : List VendorIe
deriving Repr

/-- What two infos are compared by. The vendor elements and the security are
sorted there, which leaves how often each occurs. -/
def BssInfo.attrs (info : BssInfo) :
    Text × Text × Option Band × Multiset VendorIe × Multiset Security × Rat :=
  (info.bssid, info.ssid, info.band, info.vendorIes, info.security, info.rssi)

instance : BEq BssInfo := ⟨fun left right => left.attrs = right.attrs⟩

def gfiberVendorIeOui : Text := "f4:f5:e8".toList

def gfiberOuis : List Text := ["00:1a:11".toList, "f4:f5:e8".toList, "f8:8f:ca".toList]

def vendorIeFeatureIdAutoprovisioning : Byte := 0x01

def vendorIeFeatureIdSsid : Byte := 0x03

def defaultGfibersetupSsid : Text := "GFiberSetupAutomation".toList

/-- `''.join(octets).decode('hex')`. -/
def decodeOctets (octets : List Byte) : Text :=
  octets.map fun octet => Char.ofNat octet.toNat

/-- The name of a hidden network, from its vendor elements or by a guess. -/
def BssInfo.named (info : BssInfo) : BssInfo :=
  let ssid := info.vendorIes.foldl (fun ssid ie =>
    if ie.oui = gfiberVendorIeOui ∧ ie.first = vendorIeFeatureIdSsid ∧ ssid = [] then
      decodeOctets ie.rest
    else ssid) info.ssid
  { info with ssid := if ssid = [] ∧ info.vendorIes = [] then defaultGfibersetupSsid else ssid }

def bssidPriority (info : BssInfo) : Rat :=
  let result : Rat := if gfiberOuis.contains (info.bssid.take 8) then 4 else 2
  let result := info.vendorIes.foldl (fun result ie =>
    if ie.oui = gfiberVendorIeOui ∧ ie.first = vendorIeFeatureIdAutoprovisioning then 5
    else result) result
  result + (100 + max info.rssi (-100)) / 100

/-- `bssids.add(info)`. -/
def addBssid (bssids : List BssInfo) (info : BssInfo) : List BssInfo :=
  if bssids.contains info then bssids else bssids ++ [info]

/-- The set of interesting networks. -/
def collectBssids (includeSecure : Bool) (parsed : List BssInfo) : List BssInfo :=
  parsed.foldl (fun bssids info =>
    if info.security ≠ [] ∧ includeSecure = false then bssids
    else addBssid bssids info.named) []

def findBssids (includeSecure : Bool) (order : IterationOrder BssInfo) (parsed : List BssInfo) :
    List (BssInfo × Rat) :=
  (order.arrange (collectBssids includeSecure parsed)).map fun info => (info, bssidPriority info)

end Scanning

section Cycling

/-- An item of the dictionary, with its priority and its birth. -/
structure Aged (Item : Type) where
  item : Item
  priority : Rat
  birth : Rat
deriving Repr

/-- Every result of its arithmetic is rounded: to a double, or not at all. -/
structure AgingPriorityCycler (Item : Type) where
  minTimeInQueue : Rat
  rounded : Rat → Rat
  items : List (Aged Item)

def agedPriority {Item : Type} (rounded : Rat → Rat) (now : Rat) (entry : Aged Item) : Rat :=
  rounded (entry.priority * rounded (now - entry.birth))

variable {Item : Type} [BEq Item]

/-- An item keeps its place in the dictionary when it is written again. -/
def assign (entries : List (Aged Item)) (item : Item) (priority birth : Rat) :
    List (Aged Item) :=
  if entries.any fun entry => entry.item == item then
    entries.map fun entry =>
      if entry.item == item then { entry with priority := priority, birth := birth } else entry
  else entries ++ [⟨item, priority, birth⟩]

namespace AgingPriorityCycler

variable (cycler : AgingPriorityCycler Item)

/-- An item that is there keeps its birth. -/
def insert (now : Rat) (item : Item) (priority : Rat) : AgingPriorityCycler Item :=
  { cycler with
    items :=
      if cycler.items.any fun entry => entry.item == item then
        cycler.items.map fun entry =>
          if entry.item == item then { entry with priority := priority } else entry
      else cycler.items ++ [⟨item, priority, now⟩] }

def remove (item : Item) : AgingPriorityCycler Item :=
  { cycler with items := cycler.items.filter fun entry => !(entry.item == item) }

/-- The first of the oldest items, in the order of the dictionary. -/
def findNext (cycle : Bool) (now : Rat) (order : IterationOrder (Aged Item)) :
    Option Item × AgingPriorityCycler Item :=
  match (order.arrange cycler.items).argmax (agedPriority cycler.rounded now) with
  | none => (none, cycler)
  | some result =>
      if now < result.birth then (none, cycler)
      else if cycle then
        (some result.item,
          { cycler with
            items := cycler.items.map fun entry =>
              if entry.item == result.item then
                { entry with birth := cycler.rounded (now + cycler.minTimeInQueue) }
              else entry })
      else (some result.item, cycler)

def peek (now : Rat) (order : IterationOrder (Aged Item)) : Option Item :=
  (cycler.findNext false now order).1

def next (now : Rat) (order : IterationOrder (Aged Item)) :
    Option Item × AgingPriorityCycler Item :=
  cycler.findNext true now order

/-- The birth of an item that is there already, else now. -/
def birthOf (now : Rat) (item : Item) : Rat :=
  match cycler.items.find? fun entry => entry.item == item with
  | some existing => existing.birth
  | none => now

def update (now : Rat) (items : List (Item × Rat)) : AgingPriorityCycler Item :=
  { cycler with
    items := items.foldl (fun newItems (item, priority) =>
      assign newItems item priority (cycler.birthOf now item)) [] }

end AgingPriorityCycler

end Cycling

section Trying

/-- A wireless interface. The attributes are missing at first. -/
structure Wifi where
  cycler : Option (AgingPriorityCycler BssInfo)
  lastSuccessfulBssInfo : Option BssInfo
  lastAttemptedBssInfo : Option BssInfo

def Wifi.start : Wifi := ⟨none, none, none⟩

/-- `_wifi_scan`, with what has been parsed from `iw scan` and the shuffled order
of the items found. The times of the queue are exact here: what the clock's doubles
round is far below its resolution. -/
def wifiScan (bssidCycleLength now : Rat) (parsed : List BssInfo)
    (order : IterationOrder BssInfo) (shuffle : IterationOrder (BssInfo × Rat)) (wifi : Wifi) :
    Wifi :=
  let items := findBssids false order parsed
  let cycler := wifi.cycler.getD ⟨bssidCycleLength, id, []⟩
  { wifi with cycler := some (cycler.update now (shuffle.arrange items)) }

/-- The info that is tried next: the last successful one, or one from the queue. -/
def nextBssInfo (now : Rat) (order : IterationOrder (Aged BssInfo)) (wifi : Wifi) :
    Option BssInfo × Wifi :=
  match wifi.cycler with
  | none => (none, wifi)
  | some cycler =>
      match wifi.lastSuccessfulBssInfo with
      | some info => (some info, wifi)
      | none =>
          let (info, cycler) := cycler.next now order
          (info, { wifi with cycler := some cycler })

/-- `_try_next_bssid`, where `connects` says whether `wifi setclient` succeeds. -/
def tryNextBssid (now : Rat) (connects : BssInfo → Bool) (order : IterationOrder (Aged BssInfo))
    (wifi : Wifi) : Bool × Wifi :=
  match nextBssInfo now order wifi with
  | (none, wifi) => (false, wifi)
  | (some info, wifi) =>
      let wifi := { wifi with lastAttemptedBssInfo := some info }
      if connects info then (true, wifi)
      else if wifi.lastSuccessfulBssInfo.any (info == ·) then
        (false, { wifi with lastSuccessfulBssInfo := none })
      else (false, wifi)

end Trying

end Gfiber.Conman
