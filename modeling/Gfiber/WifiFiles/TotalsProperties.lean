import Gfiber.Lib.Run
import Gfiber.WifiFiles.Stations

/-! When the 64-bit totals of a client are what the kernel has counted for it. -/

set_option autoImplicit false

namespace Gfiber.WifiFiles

open Lib

section Runs

/-- What the kernel counts for the client since it has joined, and what of it was counted at the
last dump. -/
structure Association where
  since : Int
  counted : Counter → Nat
  dumped : Counter → Nat

/-- The last dump of the client, and what has come after it. -/
structure LastDump where
  seen : Int
  reported : Counter → Word
  connectedSecs : Word
  consolidated : Bool
  rejoined : Bool

/-- The program and the kernel, with what was counted in all earlier associations of the client
at their last dumps. -/
structure World where
  clients : Clients
  association : Association
  earlier : Counter → Nat
  lastDump : Option LastDump

inductive Event where
  | join (now : Int)
  | count (more : Counter → Nat)
  | dump (now : Int)
  | other (ifname : Text) (message : Message) (now : Int)
  | consolidate (monotime : Text → Int)

variable (mac : List Byte) (ifname : Text)

namespace World

def reported (world : World) (which : Counter) : Word :=
  BitVec.ofNat 32 (world.association.counted which)

/-- The seconds since the client has joined. -/
def connectedTime (world : World) (now : Int) : Word :=
  BitVec.ofInt 32 (now - world.association.since)

def message (world : World) (now : Int) : Message where
  mac := some mac
  staInfo := some (some
    { counter := fun which => some (world.reported which)
      connectedTime := some (world.connectedTime now) })

def next (world : World) : Event → World
  | .join now =>
      { world with
        association := ⟨now, fun _ => 0, fun _ => 0⟩
        earlier := fun which => world.earlier which + world.association.dumped which
        lastDump := world.lastDump.map fun last => { last with rejoined := true } }
  | .count more =>
      { world with association := { world.association with
          counted := fun which => world.association.counted which + more which } }
  | .dump now =>
      { world with
        clients := stationDumpCallback ifname (world.message mac now) now world.clients
        association := { world.association with dumped := world.association.counted }
        lastDump := some ⟨now, world.reported, world.connectedTime now, false, false⟩ }
  | .other ifname message now =>
      { world with clients := stationDumpCallback ifname message now world.clients }
  | .consolidate monotime =>
      { world with
        clients := consolidateAssociatedDevices monotime world.clients
        lastDump := world.lastDump.map fun last => { last with consolidated := true } }

/-- The client is dumped before it is too old, and no counter goes all the way round between two
dumps. -/
def Allows (world : World) : Event → Prop
  | .dump now =>
      world.association.since ≤ now ∧
        (∀ last, world.lastDump = some last → now - last.seen ≤ maxClientAgeSecs) ∧
        ∀ which, world.association.counted which - world.association.dumped which < 2 ^ 32
  | .other _ message _ => message.mac ≠ some mac
  | .consolidate monotime => ∀ last, world.lastDump = some last →
      monotime (printOctets mac) - last.seen ≤ maxClientAgeSecs
  | _ => True

/-- No client is known, and nothing has been counted. -/
def start (since : Int) : World :=
  ⟨fun _ => none, ⟨since, fun _ => 0, fun _ => 0⟩, fun _ => 0, none⟩

/-- A client that has been dumped has the totals that the kernel had counted at the last dumps of
all its associations. -/
def Accounted (world : World) : Prop :=
  world.lastDump.isSome → ∃ state, world.clients (printOctets mac) = some state ∧
    ∀ which, state.stats.counter64 which =
      BitVec.ofNat 64 (world.earlier which + world.association.dumped which)

/-- The counters of a client that has been seen to be connected for less than a minute are cleared
by the next pass. -/
def LastDump.Cleared (last : LastDump) : Prop :=
  last.consolidated ∧ last.connectedSecs < 60

instance (last : LastDump) : Decidable (LastDump.Cleared last) :=
  inferInstanceAs (Decidable (_ ∧ _))

/-- At a dump, each counter that was not zero at the dump before has been cleared exactly if the
client has joined again. -/
def Agrees (world : World) : Event → Prop
  | .dump _ => ∀ last, world.lastDump = some last → ∀ which, last.reported which ≠ 0 →
      (LastDump.Cleared last ↔ last.rejoined)
  | _ => True

def Step (world : World) (event : Event) (after : World) : Prop :=
  world.Allows mac event ∧ after = world.next mac ifname event

end World

end Runs

section Steps

variable {mac : List Byte} {ifname : Text}

open World

/-- What is known of the client between two dumps. -/
structure Tracked (mac : List Byte) (ifname : Text) (world : World) : Prop where
  bounded : ∀ which, world.association.dumped which ≤ world.association.counted which
  unseen : world.lastDump = none → world.clients (printOctets mac) = none ∧
    ∀ which, world.earlier which + world.association.dumped which = 0
  seen : ∀ last, world.lastDump = some last → ∃ state, world.clients (printOctets mac) = some state ∧
    state.ifname = ifname ∧ state.lastSeen = last.seen ∧
      state.stats.connectedSecs = last.connectedSecs ∧
      (∀ which, state.stats.counter which =
        if LastDump.Cleared last then 0 else last.reported which) ∧
      ∀ which, state.stats.counter64 which =
        BitVec.ofNat 64 (world.earlier which + world.association.dumped which)
  reported : ∀ last, world.lastDump = some last → ∀ which,
    if last.rejoined then world.association.dumped which = 0
    else last.reported which = BitVec.ofNat 32 (world.association.dumped which)

theorem Tracked.accounted {world : World} (tracked : Tracked mac ifname world) :
    world.Accounted mac := by
  intro dumped
  obtain ⟨last, found⟩ := Option.isSome_iff_exists.mp dumped
  obtain ⟨state, known, _, _, _, _, totals⟩ := tracked.seen last found
  exact ⟨state, known, totals⟩

theorem tracked_start (since : Int) : Tracked mac ifname (World.start since) where
  bounded _ := Nat.le_refl 0
  unseen _ := ⟨rfl, fun _ => rfl⟩
  seen _ found := by cases found
  reported _ found := by cases found

theorem setWidth_injective : Function.Injective fun word : Word => word.setWidth 64 :=
  Function.LeftInverse.injective truncate_setWidth

/-- A difference of less than 2^32 is added to a total exactly if it is taken from where the
counter was. -/
theorem total_iff {total before after : Nat} {base : Word} (grown : before ≤ after)
    (short : after - before < 2 ^ 32) :
    BitVec.ofNat 64 (total + before) + (BitVec.ofNat 32 after - base).setWidth 64 =
        BitVec.ofNat 64 (total + after) ↔ base = BitVec.ofNat 32 before := by
  have sum : BitVec.ofNat 64 (total + after) = BitVec.ofNat 64 (total + before) +
      (BitVec.ofNat 32 (after - before)).setWidth 64 := by
    have widened : (BitVec.ofNat 32 (after - before)).setWidth 64 =
        BitVec.ofNat 64 (after - before) := by
      apply BitVec.eq_of_toNat_eq
      rw [BitVec.toNat_setWidth, BitVec.toNat_ofNat, BitVec.toNat_ofNat, Nat.mod_eq_of_lt short]
    rw [widened, ← BitVec.ofNat_add]
    congr 1
    omega
  have words : BitVec.ofNat 32 after = BitVec.ofNat 32 before + BitVec.ofNat 32 (after - before) := by
    rw [← BitVec.ofNat_add, Nat.add_sub_cancel' grown]
  rw [sum, add_right_inj, setWidth_injective.eq_iff, words]
  constructor
  · intro same
    have moved : BitVec.ofNat 32 before - base = 0 := by
      have := sub_eq_zero.mpr same
      calc BitVec.ofNat 32 before - base
          = BitVec.ofNat 32 before + BitVec.ofNat 32 (after - before) - base -
            BitVec.ofNat 32 (after - before) := by ring
        _ = 0 := this
    exact (sub_eq_zero.mp moved).symm
  · rintro rfl
    exact add_sub_cancel_left _ _

theorem set_same (clients : Clients) (macstr : Text) (state : ClientState) :
    clients.set macstr state macstr = some state :=
  if_pos rfl

theorem set_other {clients : Clients} {macstr other : Text} (different : other ≠ macstr)
    (state : ClientState) : clients.set macstr state other = clients other :=
  if_neg different

/-- A message about another client leaves this one as it is. -/
theorem stationDumpCallback_other {message : Message} (different : message.mac ≠ some mac)
    (ifname : Text) (now : Int) (clients : Clients) :
    stationDumpCallback ifname message now clients (printOctets mac) =
      clients (printOctets mac) := by
  cases message with
  | mk address staInfo =>
      cases staInfo with
      | none => rfl
      | some info =>
          cases address with
          | none => rfl
          | some other =>
              have apart : printOctets mac ≠ printOctets other := fun same =>
                different (congrArg some (printOctets_injective same.symm))
              cases info with
              | some si => exact set_other apart _
              | none => exact set_other apart _

/-- The statistics of the client when it is dumped. -/
def Holds (clients : Clients) (macstr ifname : Text) (stats : WifiStats) : Prop :=
  (clients macstr = none ∧ stats = ClientState.cleared.stats) ∨
    ∃ state, clients macstr = some state ∧ state.ifname = ifname ∧ state.stats = stats

theorem stats_of_holds {clients : Clients} {macstr : Text} {stats : WifiStats}
    (holds : Holds clients macstr ifname stats) :
    (if sameName (findClientState clients macstr).ifname ifname then findClientState clients macstr
      else .cleared).stats = stats := by
  rw [findClientState]
  cases holds with
  | inl unknown => rw [unknown.1, unknown.2, Option.getD_none, ite_self]
  | inr known =>
      obtain ⟨state, found, rfl, rfl⟩ := known
      have same : sameName state.ifname state.ifname = true := decide_eq_true rfl
      rw [found, Option.getD_some, if_pos same]

/-- What a dump of the client makes of its state. -/
theorem stationDumpCallback_own (short : ifname.length ≤ 15) {world : World} (now : Int)
    {stats : WifiStats} (holds : Holds world.clients (printOctets mac) ifname stats) :
    stationDumpCallback ifname (world.message mac now) now world.clients (printOctets mac) =
      some ⟨ifname, now, world.reported, fun which =>
        stats.counter64 which + (world.reported which - stats.counter which).setWidth 64,
        world.connectedTime now⟩ := by
  have whole : ifname.take 15 = ifname := List.take_of_length_le short
  have dumped : stationDumpCallback ifname (world.message mac now) now world.clients
      (printOctets mac) = some ⟨ifname.take 15, now, parseWifiStats
        ⟨fun which => some (world.reported which), some (world.connectedTime now)⟩
        (if sameName (findClientState world.clients (printOctets mac)).ifname ifname then
          findClientState world.clients (printOctets mac) else .cleared).stats⟩ :=
    set_same _ _ _
  rw [dumped, whole, stats_of_holds holds]
  rfl

/-- The statistics of the client between two dumps. -/
theorem Tracked.holds {world : World} (tracked : Tracked mac ifname world) :
    ∃ stats, Holds world.clients (printOctets mac) ifname stats ∧
      (∀ which, stats.counter64 which =
        BitVec.ofNat 64 (world.earlier which + world.association.dumped which)) ∧
      ∀ which, stats.counter which = BitVec.ofNat 32 (world.association.dumped which) ↔
        ∀ last, world.lastDump = some last → last.reported which ≠ 0 →
          (LastDump.Cleared last ↔ last.rejoined) := by
  cases dumped : world.lastDump with
  | none =>
      obtain ⟨unknown, zero⟩ := tracked.unseen dumped
      refine ⟨ClientState.cleared.stats, Or.inl ⟨unknown, rfl⟩, ?_, ?_⟩
      · intro which
        rw [zero which]
        rfl
      · intro which
        have none_dumped : world.association.dumped which = 0 := by
          have sum := zero which
          omega
        rw [none_dumped]
        exact ⟨fun _ last found => (by cases found), fun _ => rfl⟩
  | some last =>
      obtain ⟨state, known, named, _, _, bases, totals⟩ := tracked.seen last dumped
      refine ⟨state.stats, Or.inr ⟨state, known, named, rfl⟩, totals, ?_⟩
      intro which
      have base := bases which
      have reported := tracked.reported last dumped which
      rw [base]
      have only : (∀ other, some last = some other → other.reported which ≠ 0 →
          (LastDump.Cleared other ↔ other.rejoined)) ↔
          (last.reported which ≠ 0 → (LastDump.Cleared last ↔ last.rejoined)) :=
        ⟨fun all => all last rfl, fun one other same => by cases same; exact one⟩
      rw [only]
      by_cases cleared : LastDump.Cleared last
      · rw [if_pos cleared]
        cases rejoined : last.rejoined with
        | true =>
            rw [rejoined, if_pos rfl] at reported
            rw [reported]
            exact ⟨fun _ _ => ⟨fun _ => rfl, fun _ => cleared⟩, fun _ => rfl⟩
        | false =>
            rw [rejoined, if_neg Bool.false_ne_true] at reported
            rw [← reported]
            constructor
            · intro zero nonzero
              exact absurd zero.symm nonzero
            · intro agrees
              by_contra nonzero
              exact Bool.false_ne_true ((agrees fun zero => nonzero zero.symm).mp cleared)
      · rw [if_neg cleared]
        cases rejoined : last.rejoined with
        | true =>
            rw [rejoined, if_pos rfl] at reported
            rw [reported]
            constructor
            · intro zero nonzero
              exact absurd zero nonzero
            · intro agrees
              by_contra nonzero
              exact cleared ((agrees nonzero).mpr rfl)
        | false =>
            rw [rejoined, if_neg Bool.false_ne_true] at reported
            exact ⟨fun _ _ => ⟨fun is => absurd is cleared, fun no => by cases no⟩, fun _ => reported⟩

/-- A dump keeps the totals right exactly if it agrees with the one before. -/
theorem accounted_dump_iff (short : ifname.length ≤ 15) {world : World} {now : Int}
    (tracked : Tracked mac ifname world) (allowed : world.Allows mac (.dump now)) :
    (world.next mac ifname (.dump now)).Accounted mac ↔ world.Agrees (.dump now) := by
  obtain ⟨stats, holds, totals, bases⟩ := tracked.holds
  have own := stationDumpCallback_own short now holds
  have each (which : Counter) :
      stats.counter64 which + (world.reported which - stats.counter which).setWidth 64 =
        BitVec.ofNat 64 (world.earlier which + world.association.counted which) ↔
      stats.counter which = BitVec.ofNat 32 (world.association.dumped which) := by
    rw [totals which]
    exact total_iff (tracked.bounded which) (allowed.2.2 which)
  constructor
  · intro accounted last found which
    obtain ⟨state, known, after⟩ := accounted rfl
    cases own.symm.trans known
    exact (bases which).mp ((each which).mp (after which)) last found
  · intro agrees _
    refine ⟨_, own, fun which => (each which).mpr ((bases which).mpr ?_)⟩
    intro last found nonzero
    exact agrees last found which nonzero

theorem Tracked.dump (short : ifname.length ≤ 15) {world : World} {now : Int}
    (tracked : Tracked mac ifname world) (allowed : world.Allows mac (.dump now))
    (agrees : world.Agrees (.dump now)) :
    Tracked mac ifname (world.next mac ifname (.dump now)) where
  bounded _ := Nat.le_refl _
  unseen none := by cases none
  seen last found := by
    cases found
    obtain ⟨stats, holds, _, _⟩ := tracked.holds
    have own := stationDumpCallback_own short now holds
    obtain ⟨state, known, totals⟩ := (accounted_dump_iff short tracked allowed).mpr agrees rfl
    cases own.symm.trans known
    refine ⟨_, own, rfl, rfl, rfl, ?_, totals⟩
    intro which
    rw [if_neg fun cleared => Bool.false_ne_true cleared.1]
  reported last found which := by
    cases found
    rw [if_neg Bool.false_ne_true]
    rfl

theorem Tracked.join {world : World} (tracked : Tracked mac ifname world) (now : Int) :
    Tracked mac ifname (world.next mac ifname (.join now)) where
  bounded _ := Nat.le_refl 0
  unseen none := tracked.unseen (Option.map_eq_none_iff.mp none)
  seen last found := by
    obtain ⟨earlier, dumped, rfl⟩ := Option.map_eq_some_iff.mp found
    exact tracked.seen earlier dumped
  reported last found which := by
    obtain ⟨earlier, dumped, rfl⟩ := Option.map_eq_some_iff.mp found
    rw [if_pos rfl]
    rfl

theorem Tracked.count {world : World} (tracked : Tracked mac ifname world) (more : Counter → Nat) :
    Tracked mac ifname (world.next mac ifname (.count more)) where
  bounded which := Nat.le_add_right_of_le (tracked.bounded which)
  unseen := tracked.unseen
  seen := tracked.seen
  reported := tracked.reported

theorem Tracked.other {world : World} (tracked : Tracked mac ifname world) {message : Message}
    (different : message.mac ≠ some mac) (name : Text) (now : Int) :
    Tracked mac ifname (world.next mac ifname (.other name message now)) where
  bounded := tracked.bounded
  unseen none := by
    have same := stationDumpCallback_other different name now world.clients
    obtain ⟨unknown, zero⟩ := tracked.unseen none
    exact ⟨same.trans unknown, zero⟩
  seen last found := by
    have same := stationDumpCallback_other different name now world.clients
    obtain ⟨state, known, rest⟩ := tracked.seen last found
    exact ⟨state, same.trans known, rest⟩
  reported := tracked.reported

theorem Tracked.consolidate {world : World} (tracked : Tracked mac ifname world)
    {monotime : Text → Int} (allowed : world.Allows mac (.consolidate monotime)) :
    Tracked mac ifname (world.next mac ifname (.consolidate monotime)) where
  bounded := tracked.bounded
  unseen none := by
    obtain ⟨unknown, zero⟩ := tracked.unseen (Option.map_eq_none_iff.mp none)
    refine ⟨?_, zero⟩
    change (world.clients (printOctets mac)).bind _ = _
    rw [unknown]
    rfl
  seen last found := by
    obtain ⟨before, dumped, rfl⟩ := Option.map_eq_some_iff.mp found
    obtain ⟨state, known, named, seen, secs, bases, totals⟩ := tracked.seen before dumped
    have young : ¬maxClientAgeSecs < monotime (printOctets mac) - state.lastSeen := by
      rw [seen]
      exact not_lt.mpr (allowed before dumped)
    by_cases recent : state.stats.connectedSecs < 60
    · refine ⟨clearClientCounters state, ?_, named, seen, secs, ?_, totals⟩
      · change (world.clients (printOctets mac)).bind _ = _
        rw [known, Option.bind_some, ageOutClient, if_neg young, if_pos recent]
      · intro which
        rw [secs] at recent
        have cleared : LastDump.Cleared { before with consolidated := true } := ⟨rfl, recent⟩
        rw [if_pos cleared]
        rfl
    · refine ⟨state, ?_, named, seen, secs, ?_, totals⟩
      · change (world.clients (printOctets mac)).bind _ = _
        rw [known, Option.bind_some, ageOutClient, if_neg young, if_neg recent]
      · intro which
        rw [secs] at recent
        rw [bases which, if_neg fun cleared => recent cleared.2,
          if_neg fun cleared => recent cleared.2]
  reported last found which := by
    obtain ⟨before, dumped, rfl⟩ := Option.map_eq_some_iff.mp found
    exact tracked.reported before dumped which

theorem Tracked.step (short : ifname.length ≤ 15) {world after : World} {event : Event}
    (tracked : Tracked mac ifname world) (agrees : world.Agrees event)
    (step : World.Step mac ifname world event after) : Tracked mac ifname after := by
  obtain ⟨allowed, rfl⟩ := step
  cases event with
  | join now => exact tracked.join now
  | count more => exact tracked.count more
  | dump now => exact tracked.dump short allowed agrees
  | other name message now => exact tracked.other allowed name now
  | consolidate monotime => exact tracked.consolidate allowed

theorem agrees_of_accounted (short : ifname.length ≤ 15) {world after : World} {event : Event}
    (tracked : Tracked mac ifname world) (step : World.Step mac ifname world event after)
    (accounted : after.Accounted mac) : world.Agrees event := by
  obtain ⟨allowed, rfl⟩ := step
  cases event with
  | dump now => exact (accounted_dump_iff short tracked allowed).mp accounted
  | _ => trivial

/-- All totals are right at every moment exactly if, at each dump, the counters have been cleared
since the dump before just when the client has joined again. -/
theorem totals_accounted_iff (short : ifname.length ≤ 15) {since : Int} {finish : World}
    {trace : List (World × Event)}
    (run : Run (World.Step mac ifname) (World.start since) trace finish) :
    Throughout (World.Accounted mac) trace finish ↔ StepsMeet World.Agrees trace :=
  run.throughout_iff_met (tracked_start since) Tracked.accounted
    (fun tracked agrees step => tracked.step short agrees step)
    (fun tracked step accounted => agrees_of_accounted short tracked step accounted)

def exampleMac : List Byte :=
  [0, 0x1a, 0x11, 1, 2, 3]

/-- The client has received so many bytes more. -/
def received (bytes : Nat) : Event :=
  .count fun which => if which = .rxBytes then bytes else 0

/-- Two dumps of a client that stays, with a pass after the first one. -/
def dumps (first second : Int) : List Event :=
  [received 100, .dump first, .consolidate fun _ => first, received 50, .dump second]

theorem dumps_run {first second : Int} (positive : 0 ≤ first) (later : first ≤ second)
    (soon : second - first ≤ maxClientAgeSecs) :
    Run (World.Step exampleMac "wlan0".toList) (World.start 0)
      (traceOf (World.next exampleMac "wlan0".toList) (World.start 0) (dumps first second))
      ((dumps first second).foldl (World.next exampleMac "wlan0".toList) (World.start 0)) := by
  apply Run.of_trace
  simp only [StepsMeet, dumps, traceOf, List.forall_mem_cons, World.Step, and_true]
  refine ⟨trivial, ⟨positive, ?_, ?_⟩, ?_, trivial, ⟨positive.trans later, ?_, ?_⟩, ?_⟩
  · intro last found
    cases found
  · intro which
    cases which with
    | rxBytes => decide
    | _ => decide
  · intro last found
    cases found
    rw [sub_self]
    decide
  · intro last found
    cases found
    exact soon
  · intro which
    have grown : (150 : Nat) - 100 < 2 ^ 32 := by decide
    have still : (0 : Nat) - 0 < 2 ^ 32 := by decide
    cases which with
    | rxBytes => exact grown
    | _ => exact still
  · intro entry member
    cases member

/-- A client that has been connected for more than a minute is accounted for. -/
theorem totals_accounted_old :
    ∃ trace finish, Run (World.Step exampleMac "wlan0".toList) (World.start 0) trace finish ∧
      trace.length = 5 ∧ Throughout (World.Accounted exampleMac) trace finish := by
  have run := dumps_run (show 0 ≤ 100 by decide) (show 100 ≤ 102 by decide) (by decide)
  have agrees : StepsMeet World.Agrees
      (traceOf (World.next exampleMac "wlan0".toList) (World.start 0) (dumps 100 102)) := by
    simp only [StepsMeet, dumps, traceOf, List.forall_mem_cons]
    refine ⟨trivial, ?_, trivial, trivial, ?_, ?_⟩
    · intro last found
      cases found
    · intro last found which _
      cases found
      decide
    · intro entry member
      cases member
  exact ⟨_, _, run, rfl, (totals_accounted_iff (by decide) run).mpr agrees⟩

/-- What a client receives in the first minute is counted again at the next dump. -/
theorem totals_counted_twice :
    ∃ trace finish state, Run (World.Step exampleMac "wlan0".toList) (World.start 0) trace finish ∧
      finish.clients (printOctets exampleMac) = some state ∧
      state.stats.counter64 .rxBytes = 250 ∧
      finish.earlier .rxBytes + finish.association.dumped .rxBytes = 150 ∧
      ¬Throughout (World.Accounted exampleMac) trace finish := by
  have run := dumps_run (show 0 ≤ 2 by decide) (show 2 ≤ 4 by decide) (by decide)
  refine ⟨_, _, _, run, rfl, ?_, ?_, ?_⟩
  · decide +kernel
  · decide +kernel
  · intro accounted
    obtain ⟨state, known, totals⟩ := accounted.2 rfl
    cases known
    exact absurd (totals .rxBytes) (by decide +kernel)

end Steps

end Gfiber.WifiFiles
