import Mathlib.Data.Finset.Basic
import Mathlib.Data.List.AList
import Gfiber.Lib.Iteration
import Gfiber.Lib.Text

/-! The interfaces that `iw` lists, and how they are found by band, suffix and type. -/

set_option autoImplicit false

namespace Gfiber.Wifi

open Lib

section Types

inductive InterfaceType where
  | ap
  | client
deriving DecidableEq, Repr

/-- The values of `INTERFACE_TYPE`. -/
def InterfaceType.name : InterfaceType → Text
  | ap => "lan".toList
  | client => "cli".toList

def interfaceTypes : List Text :=
  [InterfaceType.ap.name, InterfaceType.client.name]

inductive LookupError where
  /-- `KeyError` -/
  | key
  /-- `IndexError` -/
  | index
  /-- `UnboundLocalError` -/
  | unboundLocal
deriving DecidableEq, Repr

end Types

section Parsing

structure Phy where
  frequencyAndChannel : List (Text × Text)
  bands : Finset Text

abbrev Phys := AList fun _ : Text => Phy

abbrev Devs := AList fun _ : Text => List Text

/-- `_WIPHY_RE`. -/
def matchWiphy (line : Text) : Option Text :=
  Text.matchGroup "Wiphy ".toList (!Text.isSpace ·) line

/-- `\d+`, and what follows it. -/
def matchDigits (text : Text) : Option (Text × Text) :=
  let digits := text.takeWhile Text.isDigit
  if digits = [] then none else some (digits, text.dropWhile Text.isDigit)

/-- `_FREQUENCY_AND_CHANNEL_RE`. -/
def matchFrequencyAndChannel (line : Text) : Option (Text × Text) := do
  let rest ← Text.afterLiteral "* ".toList (line.dropWhile Text.isSpace)
  let (frequency, rest) ← matchDigits rest
  let rest ← Text.afterLiteral " MHz [".toList rest
  let (channel, rest) ← matchDigits rest
  let _ ← Text.afterLiteral "]".toList rest
  return (frequency, channel)

/-- The bands of a frequency, if it is one that is recognized. -/
def bandsOf (frequency : Text) : Finset Text :=
  match frequency with
  | '2' :: _ => {"2.4".toList}
  | '5' :: _ => {"5".toList}
  | _ => ∅

structure PhyScan where
  result : Phys
  phy : Option Text

def phyLine (scan : PhyScan) (line : Text) : Except LookupError PhyScan :=
  match matchWiphy line with
  | some phy => .ok ⟨scan.result.insert phy ⟨[], ∅⟩, some phy⟩
  | none =>
      match matchFrequencyAndChannel line with
      | none => .ok scan
      | some (frequency, channel) =>
          match scan.phy with
          | none => .error .key
          | some phy =>
              match scan.result.lookup phy with
              | none => .error .key
              | some data =>
                  .ok { scan with
                    result := scan.result.insert phy
                      ⟨data.frequencyAndChannel ++ [(frequency, channel)],
                        data.bands ∪ bandsOf frequency⟩ }

def phyParsed (output : Text) : Except LookupError Phys := do
  let scan ← (output.splitOn '\n').foldlM phyLine ⟨∅, none⟩
  return scan.result

/-- `_PHY_RE`, without the `#`. -/
def matchPhy (line : Text) : Option Text :=
  (Text.matchGroup "phy#".toList (!Text.isSpace ·) line).map fun group =>
    ("phy#".toList ++ group).filter (· ≠ '#')

/-- `_INTERFACE_RE`. -/
def matchInterface (line : Text) : Option Text :=
  Text.matchGroup "Interface ".toList (!Text.isSpace ·) (line.dropWhile Text.isSpace)

structure DevScan where
  result : Devs
  phy : Option Text

def devLine (scan : DevScan) (line : Text) : Except LookupError DevScan :=
  match matchPhy line with
  | some phy => .ok ⟨scan.result.insert phy [], some phy⟩
  | none =>
      match matchInterface line with
      | none => .ok scan
      | some interface =>
          match scan.phy with
          | none => .error .unboundLocal
          | some phy =>
              match scan.result.lookup phy with
              | none => .error .key
              | some interfaces =>
                  .ok { scan with result := scan.result.insert phy (interfaces ++ [interface]) }

def devParsed (output : Text) : Except LookupError Devs := do
  let scan ← (output.splitOn '\n').foldlM devLine ⟨∅, none⟩
  return scan.result

end Parsing

section Finding

variable (order : IterationOrder Text) (phyOutput devOutput : Text)

/-- The test of a frequency and a channel in `find_phy`. -/
def supports (band channel : Text) (listed : Text × Text) : Except LookupError Bool :=
  if channel = listed.2 then .ok true
  else if channel = "auto".toList then
    match band, listed.1 with
    | first :: _, digit :: _ => .ok (first = digit)
    | _, _ => .error .index
  else .ok false

/-- Whether one of the channels passes the test, which ends the loops. -/
def supportsAny (band channel : Text) : List (Text × Text) → Except LookupError Bool
  | [] => .ok false
  | listed :: rest => do
      if ← supports band channel listed then return true else supportsAny band channel rest

def findPhyAmong (band channel : Text) (phys : Phys) : List Text → Except LookupError (Option Text)
  | [] => .ok none
  | phy :: rest => do
      let listed := ((phys.lookup phy).map Phy.frequencyAndChannel).getD []
      if ← supportsAny band channel listed then return some phy
      else findPhyAmong band channel phys rest

def findPhy (band channel : Text) : Except LookupError (Option Text) := do
  let phys ← phyParsed phyOutput
  findPhyAmong band channel phys (order.arrange phys.keys)

/-- `dev_parsed()[phy]['interfaces']` -/
def interfacesOf (phy : Text) : Except LookupError (List Text) := do
  match (← devParsed devOutput).lookup phy with
  | some interfaces => return interfaces
  | none => throw .key

/-- What follows `w`, the type and a digit. -/
def afterType (interfaceType interface : Text) : Option Text :=
  match Text.afterLiteral ('w' :: interfaceType) interface with
  | some (digit :: rest) => if Text.isDigit digit then some rest else none
  | _ => none

/-- `w{interface_type}[0-9]{interface_suffix}\Z` -/
def matchesSuffix (interfaceType interfaceSuffix interface : Text) : Bool :=
  afterType interfaceType interface = some interfaceSuffix

/-- `w%s[0-9]\w*\Z` -/
def matchesType (interfaceType interface : Text) : Bool :=
  match afterType interfaceType interface with
  | some rest => rest.all Text.isWord
  | none => false

def findInterfaceFromPhy (phy interfaceType interfaceSuffix : Text) :
    Except LookupError (Option Text) :=
  if interfaceType ∉ interfaceTypes then .ok none
  else do
    let interfaces ← interfacesOf devOutput phy
    return interfaces.find? (matchesSuffix interfaceType interfaceSuffix)

/-- An optional type that is given. -/
def given (interfaceType : Option Text) : Option Text :=
  interfaceType.filter (· ≠ [])

def findAllInterfacesFromPhy (phy : Text) (interfaceType : Option Text) :
    Except LookupError (Finset Text) := do
  let types := match given interfaceType with
    | some interfaceType => [interfaceType]
    | none => interfaceTypes
  let matching ← types.mapM fun interfaceType => do
    let interfaces ← interfacesOf devOutput phy
    return interfaces.filter (matchesType interfaceType)
  return matching.flatten.toFinset

def findInterfaceFromBand (band interfaceType interfaceSuffix : Text) :
    Except LookupError (Option Text) := do
  match ← findPhy order phyOutput band "auto".toList with
  | none => return none
  | some phy => findInterfaceFromPhy devOutput phy interfaceType interfaceSuffix

/-- An empty list without a phy, and a set with one. -/
def findAllInterfacesFromBand (band : Text) (interfaceType : Option Text) :
    Except LookupError (Finset Text) := do
  match ← findPhy order phyOutput band "auto".toList with
  | none => return ∅
  | some phy => findAllInterfacesFromPhy devOutput phy interfaceType

/-- What the loop over the types does with one of them. -/
def addInterface (band suffix : Text) (interfaces : Finset Text) (interfaceType : Text) :
    Except LookupError (Finset Text) := do
  match ← findInterfaceFromBand order phyOutput devOutput band interfaceType suffix with
  | some interface => return if interface = [] then interfaces else insert interface interfaces
  | none => return interfaces

/-- A type is a string, so that the loop over it goes through its characters. -/
def findInterfacesFromBandAndSuffix (band suffix : Text) (interfaceType : Option Text) :
    Except LookupError (Finset Text) :=
  if suffix = "ALL".toList then
    findAllInterfacesFromBand order phyOutput devOutput band interfaceType
  else
    let types := match given interfaceType with
      | some interfaceType => interfaceType.map fun char => [char]
      | none => interfaceTypes
    types.foldlM (addInterface order phyOutput devOutput band suffix) ∅

end Finding

end Gfiber.Wifi
