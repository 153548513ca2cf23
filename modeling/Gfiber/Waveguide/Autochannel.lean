import Mathlib.Data.Prod.Lex
import Mathlib.Algebra.GroupWithZero.Nat
import Mathlib.Algebra.Order.Ring.Rat
import Gfiber.Lib.Sorting

/-! The choice of a channel: the legal combinations of the candidate groups,
the activity around each primary, and the one or two sorts that pick a primary. -/

set_option autoImplicit false

namespace Gfiber.Waveguide

open Lib

abbrev Freq := Int

abbrev Group := List Freq

section Tables

/-- `LAST_SEEN_THRESHOLD`. -/
def lastSeenThreshold : ℚ := 600

/-- `AIRTIME_THRESHOLD_MS`. -/
def airtimeThresholdMs : ℚ := 199

def c24Main : List Group := [[2412, 2432], [2462]]

def c24Any : List Group :=
  [[2412, 2432], [2417, 2437], [2422, 2442], [2427, 2447], [2432, 2452], [2437, 2457],
    [2442, 2462]]

def c5Low : List Group := [[5180, 5200, 5220, 5240]]

def c5High : List Group := [[5745, 5765, 5785, 5805], [5825]]

def c5Dfs : List Group :=
  [[5260, 5280, 5300, 5320], [5500, 5520, 5540, 5560], [5580], [5660, 5680], [5700]]

def c5NonDfs : List Group := c5Low ++ c5High

def c5Any : List Group := c5NonDfs ++ c5Dfs

def cAll : List Group := c24Any ++ c5Any

end Tables

section Overlaps

/-- The slices `group[i:i+2]` for the even `i`. -/
def pairs : Group → List Group
  | [] => []
  | [f] => [[f]]
  | f :: g :: rest => [f, g] :: pairs rest

def overlaps20 (f1 f2 : Freq) : Nat :=
  if f1 = f2 then 1 else if |f1 - f2| < 20 then 10 else 0

def overlapsInGroup (f1 f2 : Freq) (group : Group) : Nat :=
  if f1 ∉ group then 0 else ((group.map (overlaps20 f2)).max?).getD 0

/-- The first weight that is not zero. -/
def firstOverlap (f1 f2 : Freq) (groups : List Group) : Nat :=
  ((groups.map (overlapsInGroup f1 f2)).find? (· ≠ 0)).getD 0

def overlaps40 (f1 f2 : Freq) : Nat :=
  firstOverlap f1 f2 (cAll.flatMap pairs)

def overlaps80 (f1 f2 : Freq) : Nat :=
  firstOverlap f1 f2 cAll

end Overlaps

section Combos

/-- `_LegalCombos`: the group, its slices and its members, each if it is allowed. -/
def legalCombosOf (allowedFreqs : List Freq) (group : Group) : List Group :=
  (group :: pairs group ++ group.map fun f => [f]).filter fun combo => combo.all (· ∈ allowedFreqs)

def unseen (already : List Group) : List Group → List Group
  | [] => []
  | i :: rest => if i ∈ already then unseen already rest else i :: unseen (i :: already) rest

def legalCombos (allowedFreqs : List Freq) (candidates : List Group) : List Group :=
  unseen [] (candidates.flatMap (legalCombosOf allowedFreqs))

end Combos

structure SeenBss where
  freq : Freq
  lastSeen : ℚ
deriving DecidableEq

structure Survey where
  freq : Freq
  observedMs : ℚ
  busyMs : ℚ
deriving DecidableEq

/-- What the choice reads of a `State`. -/
structure Airspace where
  seenBss : List SeenBss
  channelSurvey : List Survey
deriving DecidableEq

structure ChannelActivity where
  primaryFreq : Freq
  group : Group
  count20 : Nat
  count40 : Nat
  count80 : Nat
  busy20 : ℚ
  busy40 : ℚ
  busy80 : ℚ
deriving DecidableEq

section Activities

variable (now : ℚ) (state : Airspace)

def Survey.busy (channel : Survey) : ℚ :=
  if channel.observedMs = 0 ∨ channel.observedMs < airtimeThresholdMs then 0
  else channel.busyMs / channel.observedMs

/-- The weights of the networks seen lately. -/
def countOf (overlaps : Freq → Freq → Nat) (primaryFreq : Freq) : Nat :=
  ((state.seenBss.filter fun bss => ¬bss.lastSeen < now - lastSeenThreshold).map fun bss =>
    overlaps bss.freq primaryFreq).sum

def busyOf (overlaps : Freq → Freq → Nat) (primaryFreq : Freq) : ℚ :=
  (state.channelSurvey.map fun channel =>
    channel.busy * (overlaps channel.freq primaryFreq : ℚ)).sum

def activityOf (group : Group) (primaryFreq : Freq) : ChannelActivity where
  primaryFreq := primaryFreq
  group := group
  count20 := countOf now state overlaps20 primaryFreq
  count40 := countOf now state overlaps40 primaryFreq
  count80 := countOf now state overlaps80 primaryFreq
  busy20 := busyOf state overlaps20 primaryFreq
  busy40 := busyOf state overlaps40 primaryFreq
  busy80 := busyOf state overlaps80 primaryFreq

def channelActivityList (candidates : List Group) : List ChannelActivity :=
  candidates.flatMap fun group => group.map (activityOf now state group)

end Activities

/-- `random.random()`, a multiple of `2 ** -53`. -/
abbrev Draw := Fin (2 ^ 53)

/-- The draws of the two sorts, one for each element of the list. -/
structure Draws where
  first : Nat → Draw
  second : Nat → Draw

/-- What is passed as `candidates`. A generator is true also when it yields nothing. -/
inductive Candidates where
  | list (groups : List Group)
  | generator (groups : List Group)

def Candidates.groups : Candidates → List Group
  | list groups => groups
  | generator groups => groups

def Candidates.isFalse : Candidates → Bool
  | list groups => groups = []
  | generator _ => false

inductive ChooseError where
  | valueError
  | indexError
deriving DecidableEq, Repr

section Choice

abbrev ActivityKey := ℤ ×ₗ ℚ ×ₗ ℕ ×ₗ ℚ ×ₗ ℕ ×ₗ ℚ ×ₗ ℕ

abbrev PopularityKey := ℚ ×ₗ ℤ

def activeTime (useActiveTime : Bool) : ℚ :=
  if useActiveTime then 1 else 0

def activityKey (atm : ℚ) (i : ChannelActivity) : ActivityKey :=
  toLex (-(i.group.length : ℤ), toLex (atm * i.busy80, toLex (i.count80,
    toLex (atm * i.busy40, toLex (i.count40, toLex (atm * i.busy20, i.count20))))))

def popularityKey (atm : ℚ) (i : ChannelActivity) : PopularityKey :=
  toLex (-atm * i.busy20, -(i.count20 : ℤ))

/-- `-(i.primary_freq == hysteresis_freq)`. -/
def sticky (hysteresisFreq : Option Freq) (i : ChannelActivity) : ℤ :=
  if some i.primaryFreq = hysteresisFreq then -1 else 0

/-- A key followed by the hysteresis and a draw. -/
def tieBroken {Key : Type} (key : ChannelActivity → Key) (hysteresisFreq : Option Freq)
    (draws : Nat → Draw) (index : Nat) (i : ChannelActivity) : Key ×ₗ ℤ ×ₗ Draw :=
  toLex (key i, toLex (sticky hysteresisFreq i, draws index))

def firstOf : List ChannelActivity → Except ChooseError ChannelActivity
  | [] => .error .indexError
  | i :: _ => .ok i

def soloChooseChannel (now : ℚ) (state : Airspace) (candidates : Candidates)
    (usePrimarySpreading useActiveTime : Bool) (hysteresisFreq : Option Freq) (draws : Draws) :
    Except ChooseError ChannelActivity :=
  if candidates.isFalse then .error .valueError
  else
    let activities := channelActivityList now state candidates.groups
    let atm := activeTime useActiveTime
    let activities := sortOn (tieBroken (activityKey atm) hysteresisFreq draws.first) activities
    if usePrimarySpreading then firstOf activities
    else do
      let best ← firstOf activities
      let activities := activities.filter fun i => i.group = best.group
      firstOf (sortOn (tieBroken (popularityKey atm) hysteresisFreq draws.second) activities)

/-- `WlanManager._ChooseChannel` up to the activity whose primary it returns. -/
def chooseChannel (now : ℚ) (state : Airspace) (allowedFreqs : List Freq)
    (candidates : List Group) (usePrimarySpreading useActiveTime : Bool)
    (hysteresisFreq : Option Freq) (draws : Draws) : Except ChooseError ChannelActivity :=
  soloChooseChannel now state (.generator (legalCombos allowedFreqs candidates))
    usePrimarySpreading useActiveTime hysteresisFreq draws

end Choice

end Gfiber.Waveguide
