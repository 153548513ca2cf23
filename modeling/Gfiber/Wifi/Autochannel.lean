import Gfiber.Lib.Numeral

/-! The choice of a channel by the survey of a scan, as autochannel.py makes it. -/

set_option autoImplicit false

namespace Gfiber.Wifi

open Lib

section Frequencies

def modes : List (Text × Text) :=
  [("24MAIN_20".toList, "2412 2432 2462".toList),
    ("24MAIN_40".toList, "2412".toList),
    ("24MAIN_80".toList, []),
    ("24OVERLAP_20".toList, "2412 2417 2422 2427 2432 2437 2442 2447 2452 2457 2462".toList),
    ("24OVERLAP_40".toList, "2412".toList),
    ("24OVERLAP_80".toList, []),
    ("5LOW_20".toList, "5180 5200 5220 5240".toList),
    ("5LOW_40".toList, "5180 5220".toList),
    ("5LOW_80".toList, "5180".toList),
    ("5HIGH_20".toList, "5745 5765 5785 5805 5825".toList),
    ("5HIGH_40".toList, "5745 5785".toList),
    ("5HIGH_80".toList, "5745".toList),
    ("5DFS_20".toList, "5260 5280 5300 5320 5500 5520 5540 5560 5580 5660 5680 5700".toList),
    ("5DFS_40".toList, "5260 5300 5500 5540 5660".toList),
    ("5DFS_80".toList, "5260 5500".toList)]

/-- The modes that are joined for a band, a type and a width. -/
def permittedModes : List ((String × String × String) × List String) :=
  [(("2.4", "LOW", "20"), ["24MAIN_20"]),
    (("2.4", "LOW", "40"), ["24MAIN_40"]),
    (("2.4", "HIGH", "20"), ["24MAIN_20"]),
    (("2.4", "HIGH", "40"), ["24MAIN_40"]),
    (("2.4", "NONDFS", "20"), ["24MAIN_20"]),
    (("2.4", "NONDFS", "40"), ["24MAIN_40"]),
    (("2.4", "ANY", "20"), ["24MAIN_20"]),
    (("2.4", "ANY", "40"), ["24MAIN_40"]),
    (("2.4", "OVERLAP", "20"), ["24OVERLAP_20"]),
    (("2.4", "OVERLAP", "40"), ["24OVERLAP_40"]),
    (("5", "LOW", "20"), ["5LOW_20"]),
    (("5", "LOW", "40"), ["5LOW_40"]),
    (("5", "LOW", "80"), ["5LOW_80"]),
    (("5", "HIGH", "20"), ["5HIGH_20"]),
    (("5", "HIGH", "40"), ["5HIGH_40"]),
    (("5", "HIGH", "80"), ["5HIGH_80"]),
    (("5", "DFS", "20"), ["5DFS_20"]),
    (("5", "DFS", "40"), ["5DFS_40"]),
    (("5", "DFS", "80"), ["5DFS_80"]),
    (("5", "NONDFS", "20"), ["5LOW_20", "5HIGH_20"]),
    (("5", "NONDFS", "40"), ["5LOW_40", "5HIGH_40"]),
    (("5", "NONDFS", "80"), ["5LOW_80", "5HIGH_80"]),
    (("5", "ANY", "20"), ["5LOW_20", "5HIGH_20", "5DFS_20"]),
    (("5", "ANY", "40"), ["5LOW_40", "5HIGH_40", "5DFS_40"]),
    (("5", "ANY", "80"), ["5LOW_80", "5HIGH_80", "5DFS_80"])]

inductive ScanError where
  /-- `ValueError: Unknown autochannel type: band=%s autotype=%s width=%s` -/
  | unknownType (band autotype width : Text)
  /-- `ValueError` of `int` -/
  | notAnInteger (text : Text)
  | unboundLocal
  | typeError
  | zeroDivision
deriving DecidableEq, Repr

def joinModes (names : List String) : Text :=
  [' '].intercalate (names.map fun name => (modes.lookup name.toList).getD [])

def getPermittedFrequencies (band autotype width : Text) : Except ScanError Text :=
  match permittedModes.find? fun entry => entry.1.1.toList = band ∧ entry.1.2.1.toList = autotype ∧
      entry.1.2.2.toList = width with
  | some (_, names) => .ok (joinModes names)
  | none => .error (.unknownType band autotype width)

end Frequencies

section Survey

/-- A list and a tuple are never equal. -/
inductive Sequence where
  | list (items : List Text)
  | tuple (items : List Text)
deriving DecidableEq, Repr

/-- A local variable that holds no number before the first, then `None` or a number. -/
inductive Variable where
  | unbound
  | none
  | int (value : Int)
deriving DecidableEq, Repr

/-- The best frequency so far, with its ratio and its noise. -/
structure Best where
  frequency : Text
  ratio : Int
  noise : Option Int
deriving DecidableEq, Repr

structure Survey where
  frequency : Option Text
  noise : Variable
  active : Variable
  busy : Variable
  best : Option Best
deriving DecidableEq, Repr

def Survey.start : Survey :=
  ⟨none, .unbound, .unbound, .unbound, none⟩

def int (text : Text) : Except ScanError Int :=
  match parseInt text with
  | some value => .ok value
  | none => .error (.notAnInteger text)

/-- `(active + 1) * 1000 / (busy + 1)`. -/
def ratioOf (active : Variable) (busy : Int) : Except ScanError Int :=
  match active with
  | .unbound => .error .unboundLocal
  | .none => .error .typeError
  | .int active => if busy + 1 = 0 then .error .zeroDivision
      else .ok (Int.fdiv ((active + 1) * 1000) (busy + 1))

/-- `None` is less than any number. -/
def better (best : Option Best) (ratio : Int) (noise : Option Int) : Bool :=
  match best with
  | none => true
  | some best =>
      match best.noise with
      | none => true
      | some bestNoise => noise.all (fun noise => noise < bestNoise - 15) || best.ratio < ratio

variable (permitted band : Text)

/-- A record is complete when the time of receiving is read. -/
def Survey.finishRecord (survey : Survey) (busy : Int) : Except ScanError Survey := do
  let survey := { survey with busy := .int busy }
  let ratio ← ratioOf survey.active busy
  match survey.frequency with
  | none => return survey
  | some frequency =>
      if frequency ∉ permitted.split then return survey
      else if band.head? ≠ frequency.head? then return survey
      else
        let noise ← match survey.noise with
          | .unbound => throw .unboundLocal
          | .none => pure none
          | .int noise => pure (some noise)
        return if better survey.best ratio noise then
          { survey with best := some ⟨frequency, ratio, noise⟩ } else survey

def Survey.readTimes (survey : Survey) (tokens : List Text) : Except ScanError Survey :=
  match tokens with
  | _ :: _ :: _ :: fourth :: _ =>
      let head := Sequence.list (tokens.take 3)
      if head = .tuple ["channel".toList, "active".toList, "time:".toList] then do
        let active ← int fourth
        return { survey with active := .int active }
      else if head = .tuple ["channel".toList, "receive".toList, "time:".toList] then do
        let busy ← int fourth
        survey.finishRecord permitted band busy
      else .ok survey
  | _ => .ok survey

def Survey.readTokens (survey : Survey) (tokens : List Text) : Except ScanError Survey :=
  match tokens with
  | first :: second :: _ =>
      if first = "frequency:".toList then
        .ok { survey with frequency := some second, noise := .none, active := .none, busy := .none }
      else if first = "noise:".toList then do
        let noise ← int second
        return { survey with noise := .int noise }
      else survey.readTimes permitted band tokens
  | _ => .ok survey

def linesTokens (output : Text) : List (List Text) :=
  (output.splitOn '\n').map Text.split

def surveyDump (dump : Text) : Except ScanError Survey :=
  (linesTokens dump).foldlM (Survey.readTokens permitted band) .start

end Survey

section Scan

/-- `random.choice`, of any generator. -/
structure Random where
  choice : List Text → Text
  chosen : ∀ items, items ≠ [] → choice items ∈ items

/-- `tokens[3].strip('[]')` of a line for the frequency. -/
def channelOf (frequency : Text) : List Text → Option Text
  | _ :: listed :: unit :: channel :: _ =>
      if unit = "MHz".toList ∧ listed = frequency then some (Text.stripOf ['[', ']'] channel) else none
  | _ => none

variable (random : Random) (band autotype width dump phy : Text)

/-- The frequency that is chosen, unless there is none to choose from. -/
def chooseFrequency : Except ScanError (Option Text) := do
  let permitted ← getPermittedFrequencies band autotype width
  let survey ← surveyDump permitted band dump
  match survey.best with
  | some best => return some best.frequency
  | none => return if permitted = [] then none else some (random.choice permitted.split)

/-- The loop over `iw phy` leaves `channel` unbound when no line matches. -/
def scan : Except ScanError (Option Text) := do
  match ← chooseFrequency random band autotype width dump with
  | none => return none
  | some frequency =>
      match (linesTokens phy).findSome? (channelOf frequency) with
      | none => throw .unboundLocal
      | some channel => return if channel = [] then none else some channel

end Scan

end Gfiber.Wifi
