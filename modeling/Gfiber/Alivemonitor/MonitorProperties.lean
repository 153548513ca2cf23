import Gfiber.Alivemonitor.Monitor
import Mathlib.Algebra.Order.Ring.Int
import Mathlib.Order.Nat

/-! When the monitor kills the process, and when it never does. -/

set_option autoImplicit false

namespace Gfiber.Alivemonitor

section Specification

/-- It looks after the process, in a cycle. -/
def Monitor.Sleeping (monitor : Monitor) : Prop :=
  ∃ endtime, monitor.phase = .sleeping endtime

/-- The process is killed, or has got the signal that comes before. -/
def Monitor.Kills (monitor : Monitor) : Prop :=
  monitor.phase = .killed ∨ ∃ start, monitor.phase = .prekill start

/-- What is remembered in a cycle. -/
def History.recorded (history : History) (cycleStart : Nat) : Int :=
  if cycleStart = history.start then history.firstTime else history.mtime cycleStart

/-- The cycle takes as long as the timeout, and the file has the mtime that was recorded when the
cycle began. -/
structure KillIsDue (history : History) (options : Options) (monitor : Monitor) (instant : Nat) :
    Prop where
  late : options.timeout ≤ now instant - now monitor.cycleStart
  same : history.mtime instant = history.recorded monitor.cycleStart

/-- No mtime comes back after another one. Of a file that the monitor had to create, it is never
0. -/
structure History.NeverReturns (history : History) : Prop where
  away : ∀ before between after, history.start ≤ before → before < between → between < after →
    history.mtime before ≠ history.mtime between → history.mtime after ≠ history.mtime before
  nonzero : history.found = false → ∀ instant, history.start ≤ instant → history.mtime instant ≠ 0

/-- The mtime changes at least once in every window of so many nanoseconds. -/
def History.ChangesWithin (history : History) (window : Int) : Prop :=
  ∀ instant, history.start ≤ instant →
    ∃ later, instant < later ∧ later ≤ instant + window ∧
      history.mtime later ≠ history.mtime instant

/-- Less than a millisecond is lost in `now`. -/
def Options.window (options : Options) : Int :=
  options.timeout * 1000000 - 999999

def History.StillFrom (history : History) (since : Nat) : Prop :=
  ∀ instant, since ≤ instant → history.mtime instant = history.mtime since

/-- The monitor goes on waking up, and the process does not end by itself. -/
structure History.Endless (history : History) : Prop where
  alive : ∀ n, (history.wakes n).exited = false
  unbounded : ∀ instant, ∃ n, instant ≤ (history.wakes n).instant

end Specification

section Steps

variable {options : Options} {mtime : Nat → Int} {monitor : Monitor} {wake : Wake} {endtime : Int}

/-- All that a wake-up from `sleep_check_alive` may lead to. -/
inductive Outcome (options : Options) (mtime : Nat → Int) (monitor : Monitor) (endtime : Int)
    (wake : Wake) : Monitor → Prop where
  | exits (exited : wake.exited = true) :
      Outcome options mtime monitor endtime wake { monitor with phase := .exited }
  | sleepsOn (alive : wake.exited = false) (early : now wake.instant < endtime) :
      Outcome options mtime monitor endtime wake { monitor with asleep := wake.instant }
  | restarts (alive : wake.exited = false) (elapsed : endtime ≤ now wake.instant)
      (changed : mtime wake.instant ≠ monitor.oldTime) :
      Outcome options mtime monitor endtime wake
        (beginCycle options wake.instant (mtime wake.instant))
  | waits (alive : wake.exited = false) (elapsed : endtime ≤ now wake.instant)
      (same : mtime wake.instant = monitor.oldTime) (next : Int)
      (early : now wake.instant - now monitor.cycleStart < options.timeout)
      (later : now wake.instant < next) (soon : next ≤ now monitor.cycleStart + options.timeout) :
      Outcome options mtime monitor endtime wake
        { monitor with asleep := wake.instant, phase := .sleeping next }
  | kills (alive : wake.exited = false) (elapsed : endtime ≤ now wake.instant)
      (same : mtime wake.instant = monitor.oldTime)
      (late : options.timeout ≤ now wake.instant - now monitor.cycleStart) :
      Outcome options mtime monitor endtime wake (killIt options monitor wake.instant)

theorem wakeUp_sleeping (sleeping : monitor.phase = .sleeping endtime) :
    wakeUp options mtime monitor wake =
      if wake.exited then { monitor with phase := .exited }
      else if now wake.instant < endtime then { monitor with asleep := wake.instant }
      else checkAlive options mtime monitor wake.instant := by
  cases monitor
  cases sleeping
  rfl

theorem wakeUp_outcome (sleeping : monitor.phase = .sleeping endtime) :
    Outcome options mtime monitor endtime wake (wakeUp options mtime monitor wake) := by
  rw [wakeUp_sleeping sleeping]
  cases alive : wake.exited with
  | true =>
      rw [if_pos rfl]
      exact .exits alive
  | false =>
      rw [if_neg Bool.false_ne_true]
      by_cases early : now wake.instant < endtime
      · rw [if_pos early]
        exact .sleepsOn alive early
      · rw [if_neg early, checkAlive]
        have elapsed := not_lt.mp early
        by_cases same : mtime wake.instant = monitor.oldTime
        · rw [if_pos same]
          dsimp only
          by_cases late : options.timeout ≤ now wake.instant - now monitor.cycleStart
          · rw [if_pos late]
            exact .kills alive elapsed same late
          · rw [if_neg late]
            have positive := options.incrCheck_pos
            exact .waits alive elapsed same _ (not_le.mp late) (by omega) (by omega)
        · rw [if_neg same]
          exact .restarts alive elapsed same

theorem killIt_kills (options : Options) (monitor : Monitor) (instant : Nat) :
    (killIt options monitor instant).Kills := by
  rw [killIt]
  split
  · exact .inr ⟨_, rfl⟩
  · exact .inl rfl

theorem Monitor.Sleeping.not_kills (sleeping : monitor.Sleeping) : ¬monitor.Kills := by
  obtain ⟨endtime, phase⟩ := sleeping
  intro kills
  cases kills with
  | inl killed => cases phase.symm.trans killed
  | inr prekill =>
      obtain ⟨start, prekill⟩ := prekill
      cases phase.symm.trans prekill

theorem sleeping_of_wakeUp (still : (wakeUp options mtime monitor wake).Sleeping) :
    monitor.Sleeping := by
  obtain ⟨oldTime, cycleStart, asleep, phase⟩ := monitor
  obtain ⟨endtime, still⟩ := still
  cases phase with
  | sleeping endtime => exact ⟨endtime, rfl⟩
  | prekill start =>
      dsimp only [wakeUp] at still
      split at still
      · cases still
      · cases still
  | exited => cases still
  | killed => cases still

theorem asked_nonneg (monitor : Monitor) : 0 ≤ monitor.asked := by
  rw [Monitor.asked]
  cases monitor.phase with
  | sleeping endtime => exact Int.emod_nonneg _ (by decide)
  | prekill start => exact mul_nonneg (by decide) (by decide)
  | exited => exact le_rfl
  | killed => exact le_rfl

end Steps

section Runs

variable {options : Options} {history : History} {monitor : Monitor}

/-- What holds at every sleep of a cycle. -/
structure InCycle (history : History) (options : Options) (monitor : Monitor) : Prop where
  started : history.start ≤ monitor.cycleStart
  ordered : monitor.cycleStart ≤ monitor.asleep
  remembered : monitor.oldTime = history.recorded monitor.cycleStart
  later : ∀ endtime, monitor.phase = .sleeping endtime → now monitor.asleep < endtime
  soon : ∀ endtime, monitor.phase = .sleeping endtime →
    endtime ≤ now monitor.cycleStart + options.timeout

theorem InCycle.begin {instant : Nat} {oldTime : Int} (started : history.start ≤ instant)
    (remembered : oldTime = history.recorded instant) :
    InCycle history options (beginCycle options instant oldTime) := by
  have first := options.firstCheck_pos
  have limit := options.firstCheck_le
  refine ⟨started, Nat.le_refl instant, remembered, fun endtime phase => ?_, fun endtime phase => ?_⟩
  · cases phase
    change now instant < now instant + options.firstCheck
    omega
  · cases phase
    change now instant + options.firstCheck ≤ now instant + options.timeout
    omega

theorem History.recorded_later {instant : Nat} (later : history.start < instant) :
    history.recorded instant = history.mtime instant :=
  if_neg later.ne'

variable {endtime : Int} {wake : Wake}

theorem InCycle.asleep_lt (kept : InCycle history options monitor)
    (sleeping : monitor.phase = .sleeping endtime) (slept : monitor.asleep ≤ wake.instant)
    (elapsed : endtime ≤ now wake.instant) : monitor.asleep < wake.instant := by
  refine lt_of_le_of_ne slept fun same => ?_
  have later := kept.later endtime sleeping
  rw [same] at later
  omega

/-- A cycle goes on, or another one begins. -/
theorem InCycle.wakeUp (kept : InCycle history options monitor)
    (sleeping : monitor.phase = .sleeping endtime) (slept : monitor.asleep ≤ wake.instant)
    (still : (wakeUp options history.mtime monitor wake).Sleeping) :
    InCycle history options (wakeUp options history.mtime monitor wake) := by
  have outcome := @wakeUp_outcome options history.mtime monitor wake endtime sleeping
  generalize Alivemonitor.wakeUp options history.mtime monitor wake = after at outcome still
  have ordered := kept.ordered.trans slept
  cases outcome with
  | exits exited =>
      obtain ⟨endtime, phase⟩ := still
      cases phase
  | sleepsOn alive early =>
      refine ⟨kept.started, ordered, kept.remembered, fun other phase => ?_, kept.soon⟩
      cases sleeping.symm.trans phase
      exact early
  | restarts alive elapsed changed =>
      have past : history.start < wake.instant :=
        lt_of_le_of_lt (kept.started.trans kept.ordered) (kept.asleep_lt sleeping slept elapsed)
      exact .begin past.le (History.recorded_later past).symm
  | waits alive elapsed same next early later soon =>
      refine ⟨kept.started, ordered, kept.remembered, fun other phase => ?_, fun other phase => ?_⟩
      · cases phase
        exact later
      · cases phase
        exact soon
  | kills alive elapsed same late =>
      exact absurd (killIt_kills options monitor wake.instant) still.not_kills

variable {n : Nat}

theorem asleep_le (sleeps : history.Sleeps options) (n : Nat) :
    (history.monitor options n).asleep ≤ (history.wakes n).instant := by
  have slept := sleeps n
  have asked := asked_nonneg (history.monitor options n)
  omega

theorem sleeping_earlier {before : Nat} (order : before ≤ n)
    (sleeping : (history.monitor options n).Sleeping) :
    (history.monitor options before).Sleeping := by
  induction n with
  | zero =>
      rw [Nat.le_zero.mp order]
      exact sleeping
  | succ n ih =>
      cases Nat.of_le_succ order with
      | inl earlier => exact ih earlier (sleeping_of_wakeUp sleeping)
      | inr same => exact same ▸ sleeping

theorem inCycle (sleeps : history.Sleeps options)
    (sleeping : (history.monitor options n).Sleeping) :
    InCycle history options (history.monitor options n) := by
  induction n with
  | zero => exact .begin le_rfl (if_pos rfl).symm
  | succ n ih =>
      have before := sleeping_of_wakeUp sleeping
      obtain ⟨endtime, phase⟩ := before
      exact (ih ⟨endtime, phase⟩).wakeUp phase (asleep_le sleeps n) sleeping

/-- A kill is due or it does not come. -/
theorem kills_iff (sleeps : history.Sleeps options)
    (sleeping : (history.monitor options n).Sleeping) :
    (history.monitor options (n + 1)).Kills ↔ (history.wakes n).exited = false ∧
      KillIsDue history options (history.monitor options n) (history.wakes n).instant := by
  have kept := inCycle sleeps sleeping
  obtain ⟨endtime, phase⟩ := sleeping
  have soon := kept.soon endtime phase
  have remembered := kept.remembered
  have outcome := @wakeUp_outcome options history.mtime _ (history.wakes n) endtime phase
  rw [History.monitor]
  generalize wakeUp options history.mtime (history.monitor options n) (history.wakes n) = after
    at outcome
  cases outcome with
  | exits exited =>
      refine iff_of_false (fun kills => ?_) fun due => ?_
      · cases kills with
        | inl killed => cases killed
        | inr prekill =>
            obtain ⟨start, other⟩ := prekill
            cases other
      · rw [due.1] at exited
        cases exited
  | sleepsOn alive early =>
      refine iff_of_false (Monitor.Sleeping.not_kills ⟨endtime, phase⟩) fun due => ?_
      have late := due.2.late
      omega
  | restarts alive elapsed changed =>
      refine iff_of_false (Monitor.Sleeping.not_kills ⟨_, rfl⟩) fun due => ?_
      exact changed (due.2.same.trans remembered.symm)
  | waits alive elapsed same next early later soon =>
      refine iff_of_false (Monitor.Sleeping.not_kills ⟨_, rfl⟩) fun due => ?_
      have late := due.2.late
      omega
  | kills alive elapsed same late =>
      exact iff_of_true (killIt_kills _ _ _) ⟨alive, late, same.trans remembered⟩

/-- A kill that is due comes so late that the mtime would have changed. -/
theorem not_due (returns : history.NeverReturns) (changes : history.ChangesWithin options.window)
    {instant : Nat} (started : history.start ≤ monitor.cycleStart) :
    ¬KillIsDue history options monitor instant := by
  intro due
  have late := due.late
  have same := due.same
  obtain ⟨later, after, within, changed⟩ := changes monitor.cycleStart started
  have reached : later ≤ instant := by
    rw [now, now] at late
    rw [Options.window] at within
    omega
  have read : history.recorded monitor.cycleStart = history.mtime monitor.cycleStart := by
    rw [History.recorded, History.firstTime]
    split
    · rename_i first
      cases found : history.found with
      | true => rw [if_pos rfl, first]
      | false =>
          have zero := returns.nonzero found instant (by omega)
          rw [History.recorded, if_pos first, History.firstTime, found] at same
          exact absurd same zero
    · rfl
  rw [read] at same
  cases Nat.lt_or_eq_of_le reached with
  | inl before =>
      exact returns.away monitor.cycleStart later instant started after before changed.symm same
  | inr here => exact changed (here ▸ same)

theorem never_kills (sleeps : history.Sleeps options) (returns : history.NeverReturns)
    (changes : history.ChangesWithin options.window) (n : Nat) :
    (history.monitor options n).Sleeping ∨ (history.monitor options n).phase = .exited := by
  induction n with
  | zero => exact .inl ⟨_, rfl⟩
  | succ n ih =>
      cases ih with
      | inr exited =>
          right
          rw [History.monitor, wakeUp, exited]
          exact exited
      | inl sleeping =>
          have kept := inCycle sleeps sleeping
          have spared := mt (kills_iff sleeps sleeping).mp
            fun due => not_due returns changes kept.started due.2
          obtain ⟨endtime, phase⟩ := sleeping
          have outcome := @wakeUp_outcome options history.mtime _ (history.wakes n) endtime phase
          rw [History.monitor] at spared ⊢
          generalize wakeUp options history.mtime (history.monitor options n) (history.wakes n) =
            after at outcome spared
          cases outcome with
          | exits exited => exact .inr rfl
          | sleepsOn alive early => exact .inl ⟨endtime, phase⟩
          | restarts alive elapsed changed => exact .inl ⟨_, rfl⟩
          | waits alive elapsed same next early later soon => exact .inl ⟨next, rfl⟩
          | kills alive elapsed same late => exact absurd (killIt_kills _ _ _) spared

end Runs

section Endless

variable {options : Options} {history : History} {n since : Nat}

/-- What becomes of a monitor that has not killed while nobody ends the process. -/
inductive Progress (history : History) (options : Options) (n : Nat) (after : Monitor) : Prop where
  | goesOn (sleeping : after.Sleeping)
      (cycle : after.cycleStart = (history.monitor options n).cycleStart)
      (oldTime : after.oldTime = (history.monitor options n).oldTime)
      (asleep : after.asleep = (history.wakes n).instant)
      (early : now (history.wakes n).instant - now (history.monitor options n).cycleStart <
        options.timeout)
  | restarts (sleeping : after.Sleeping) (cycle : after.cycleStart = (history.wakes n).instant)
      (oldTime : after.oldTime = history.mtime (history.wakes n).instant)
      (asleep : after.asleep = (history.wakes n).instant)
      (changed : history.mtime (history.wakes n).instant ≠ (history.monitor options n).oldTime)
      (later : (history.monitor options n).cycleStart < (history.wakes n).instant)
  | kills (kills : after.Kills)

theorem progress (sleeps : history.Sleeps options) (alive : (history.wakes n).exited = false)
    (sleeping : (history.monitor options n).Sleeping) :
    Progress history options n (history.monitor options (n + 1)) := by
  have kept := inCycle sleeps sleeping
  obtain ⟨endtime, phase⟩ := sleeping
  have soon := kept.soon endtime phase
  have outcome := @wakeUp_outcome options history.mtime _ (history.wakes n) endtime phase
  rw [History.monitor]
  generalize wakeUp options history.mtime (history.monitor options n) (history.wakes n) = after
    at outcome
  cases outcome with
  | exits exited =>
      rw [alive] at exited
      cases exited
  | sleepsOn alive early => exact .goesOn ⟨endtime, phase⟩ rfl rfl rfl (by omega)
  | restarts alive elapsed changed =>
      have past := kept.asleep_lt phase (asleep_le sleeps n) elapsed
      exact .restarts ⟨_, rfl⟩ rfl rfl rfl changed (lt_of_le_of_lt kept.ordered past)
  | waits alive elapsed same next early later soon => exact .goesOn ⟨next, rfl⟩ rfl rfl rfl early
  | kills alive elapsed same late => exact .kills (killIt_kills _ _ _)

theorem cycleStart_mono (sleeps : history.Sleeps options) (endless : history.Endless)
    {later : Nat} (order : n ≤ later) (sleeping : (history.monitor options later).Sleeping) :
    (history.monitor options n).cycleStart ≤ (history.monitor options later).cycleStart := by
  induction later with
  | zero =>
      rw [Nat.le_zero.mp order]
  | succ later ih =>
      cases Nat.of_le_succ order with
      | inr same => rw [same]
      | inl earlier =>
          have before := sleeping_of_wakeUp sleeping
          refine (ih earlier before).trans ?_
          cases progress sleeps (endless.alive later) before with
          | goesOn _ cycle oldTime asleep early => exact cycle.ge
          | restarts _ cycle oldTime asleep changed past =>
              rw [cycle]
              exact past.le
          | kills kills => exact absurd kills sleeping.not_kills

/-- While a cycle goes on, no wake-up comes after the timeout. -/
theorem early_before (sleeps : history.Sleeps options) (endless : history.Endless)
    {later : Nat} (order : n < later) (sleeping : (history.monitor options later).Sleeping)
    (cycle : (history.monitor options n).cycleStart =
      (history.monitor options later).cycleStart) :
    now (history.wakes n).instant - now (history.monitor options later).cycleStart <
      options.timeout := by
  have next := sleeping_earlier order sleeping
  cases progress sleeps (endless.alive n) (sleeping_earlier order.le sleeping) with
  | goesOn _ same oldTime asleep early =>
      rw [← cycle]
      exact early
  | restarts _ start oldTime asleep changed past =>
      have after : (history.monitor options (n + 1)).cycleStart ≤ _ :=
        cycleStart_mono sleeps endless order sleeping
      omega
  | kills kills => exact absurd kills next.not_kills

theorem instant_mono (sleeps : history.Sleeps options) (endless : history.Endless)
    (sleeping : ∀ n, (history.monitor options n).Sleeping) {later : Nat} (order : n ≤ later) :
    (history.wakes n).instant ≤ (history.wakes later).instant := by
  induction later with
  | zero => rw [Nat.le_zero.mp order]
  | succ later ih =>
      cases Nat.of_le_succ order with
      | inr same => rw [same]
      | inl earlier =>
          refine (ih earlier).trans ?_
          have slept := asleep_le sleeps (later + 1)
          cases progress sleeps (endless.alive later) (sleeping later) with
          | goesOn _ cycle oldTime asleep early => exact asleep ▸ slept
          | restarts _ cycle oldTime asleep changed past => exact asleep ▸ slept
          | kills kills => exact absurd kills (sleeping (later + 1)).not_kills

/-- There is a wake-up after the timeout. -/
theorem exists_late (sleeps : history.Sleeps options) (endless : history.Endless)
    (sleeping : ∀ n, (history.monitor options n).Sleeping) (n : Nat) :
    ∃ later, n ≤ later ∧ options.timeout ≤
      now (history.wakes later).instant - now (history.monitor options n).cycleStart := by
  have limit := options.timeout_pos
  obtain ⟨reached, far⟩ := endless.unbounded
    ((history.monitor options n).cycleStart + (options.timeout.toNat + 1) * 1000000)
  refine ⟨max reached n, le_max_right reached n, ?_⟩
  have mono := instant_mono sleeps endless sleeping (le_max_left reached n)
  rw [now, now]
  omega

/-- As long as the mtime stays, a monitor that does not kill remembers it after a timeout. -/
theorem remembers (sleeps : history.Sleeps options) (endless : history.Endless)
    (still : history.StillFrom since) (sleeping : ∀ n, (history.monitor options n).Sleeping)
    (past : since ≤ (history.wakes n).instant) :
    ∃ later, n ≤ later ∧ (history.monitor options later).oldTime = history.mtime since := by
  have settled : ∀ later, n ≤ later → history.mtime (history.wakes later).instant =
      history.mtime since := fun later order =>
    still _ (past.trans (instant_mono sleeps endless sleeping order))
  have either : ∀ later, n ≤ later →
      (history.monitor options later).cycleStart = (history.monitor options n).cycleStart ∨
        (history.monitor options later).oldTime = history.mtime since := by
    intro later order
    induction later, order using Nat.le_induction with
    | base => exact .inl rfl
    | succ later order ih =>
        cases progress sleeps (endless.alive later) (sleeping later) with
        | goesOn _ cycle oldTime asleep early =>
            rw [cycle, oldTime]
            exact ih
        | restarts _ cycle oldTime asleep changed after =>
            exact .inr (oldTime.trans (settled later order))
        | kills kills => exact absurd kills (sleeping (later + 1)).not_kills
  obtain ⟨later, order, late⟩ := exists_late sleeps endless sleeping n
  cases either later order with
  | inr remembered => exact ⟨later, order, remembered⟩
  | inl same =>
      cases progress sleeps (endless.alive later) (sleeping later) with
      | goesOn _ cycle oldTime asleep early =>
          rw [same] at early
          omega
      | restarts _ cycle oldTime asleep changed after =>
          exact ⟨later + 1, by omega, oldTime.trans (settled later order)⟩
      | kills kills => exact absurd kills (sleeping (later + 1)).not_kills

/-- A process that leaves the file alone is killed. -/
theorem eventually_kills (sleeps : history.Sleeps options) (endless : history.Endless)
    (still : history.StillFrom since) :
    ∃ n, (history.monitor options n).Sleeping ∧ (history.monitor options (n + 1)).Kills := by
  by_contra never
  have sleeping : ∀ n, (history.monitor options n).Sleeping := by
    intro n
    induction n with
    | zero => exact ⟨_, rfl⟩
    | succ n ih =>
        cases progress sleeps (endless.alive n) ih with
        | goesOn sleeping => exact sleeping
        | restarts sleeping => exact sleeping
        | kills kills => exact absurd ⟨n, ih, kills⟩ never
  obtain ⟨reached, past⟩ := endless.unbounded since
  obtain ⟨first, order, remembered⟩ := remembers sleeps endless still sleeping past
  have goes : ∀ later, first ≤ later →
      (history.monitor options later).oldTime = history.mtime since →
      (history.monitor options (later + 1)).cycleStart =
          (history.monitor options later).cycleStart ∧
        (history.monitor options (later + 1)).oldTime = history.mtime since ∧
        now (history.wakes later).instant - now (history.monitor options later).cycleStart <
          options.timeout := by
    intro later after same
    have seen : since ≤ (history.wakes later).instant :=
      past.trans (instant_mono sleeps endless sleeping (order.trans after))
    cases progress sleeps (endless.alive later) (sleeping later) with
    | goesOn _ cycle oldTime asleep early => exact ⟨cycle, oldTime.trans same, early⟩
    | restarts _ cycle oldTime asleep changed after =>
        exact absurd ((still _ seen).trans same.symm) changed
    | kills kills => exact absurd kills (sleeping (later + 1)).not_kills
  have stays : ∀ later, first ≤ later →
      (history.monitor options later).cycleStart = (history.monitor options first).cycleStart ∧
        (history.monitor options later).oldTime = history.mtime since := by
    intro later after
    induction later, after using Nat.le_induction with
    | base => exact ⟨rfl, remembered⟩
    | succ later after ih =>
        obtain ⟨cycle, oldTime, _⟩ := goes later after ih.2
        exact ⟨cycle.trans ih.1, oldTime⟩
  obtain ⟨later, after, late⟩ := exists_late sleeps endless sleeping first
  obtain ⟨cycle, same⟩ := stays later after
  have early := (goes later after same).2.2
  rw [cycle] at early
  omega

end Endless

section Kills

variable {options : Options} {history : History}

/-- The monitor kills exactly at a wake-up at which a kill is due. It spares a process that keeps
changing the mtime, and it kills one that has stopped at the first wake-up after the timeout. -/
theorem kills_silent_only (sleeps : history.Sleeps options) :
    (∀ n, (history.monitor options n).Sleeping →
      ((history.monitor options (n + 1)).Kills ↔ (history.wakes n).exited = false ∧
        KillIsDue history options (history.monitor options n) (history.wakes n).instant)) ∧
    (history.NeverReturns → history.ChangesWithin options.window →
      ∀ n, ¬(history.monitor options n).Kills) ∧
    (history.Endless → ∀ since, history.StillFrom since →
      ∃ n, (history.monitor options n).Sleeping ∧ (history.monitor options (n + 1)).Kills ∧
        ∀ before < n, (history.monitor options before).cycleStart =
            (history.monitor options n).cycleStart →
          now (history.wakes before).instant - now (history.monitor options n).cycleStart <
            options.timeout) := by
  refine ⟨fun n sleeping => kills_iff sleeps sleeping, fun returns changes n kills => ?_,
    fun endless since still => ?_⟩
  · cases never_kills sleeps returns changes n with
    | inl sleeping => exact sleeping.not_kills kills
    | inr exited =>
        cases kills with
        | inl killed => cases exited.symm.trans killed
        | inr prekill =>
            obtain ⟨start, prekill⟩ := prekill
            cases exited.symm.trans prekill
  · obtain ⟨n, sleeping, kills⟩ := eventually_kills sleeps endless still
    exact ⟨n, sleeping, kills, fun before order cycle =>
      early_before sleeps endless order sleeping cycle⟩

/-- One second for everything. -/
def secondOptions : Options where
  firstCheck := 1000
  incrCheck := 1000
  timeout := 1000
  prekillSignal := 0
  prekillTimeout := 1000
  firstCheck_pos := by decide
  incrCheck_pos := by decide
  timeout_pos := by decide
  firstCheck_le := by decide

/-- Wake-ups in time. -/
def everySecond (mtime : Nat → Int) : History where
  mtime := mtime
  found := true
  start := 0
  wakes n := ⟨(n + 1) * 1000000000, false⟩

theorem everySecond_killed {mtime : Nat → Int} (same : mtime 1000000000 = mtime 0) (n : Nat) :
    (everySecond mtime).monitor secondOptions (n + 1) = ⟨mtime 0, 0, 0, .killed⟩ := by
  induction n with
  | zero =>
      simp [History.monitor, History.firstTime, everySecond, beginCycle, wakeUp, checkAlive, killIt,
        secondOptions, now, same]
  | succ n ih => rw [History.monitor, ih, wakeUp]

theorem everySecond_sleeps {mtime : Nat → Int} (same : mtime 1000000000 = mtime 0) :
    (everySecond mtime).Sleeps secondOptions := by
  intro n
  cases n with
  | zero =>
      simp [History.monitor, everySecond, beginCycle, secondOptions, now, Monitor.asked]
  | succ n =>
      rw [everySecond_killed same]
      simp [everySecond, Monitor.asked]
      omega

theorem everySecond_touched (n : Nat) :
    (everySecond fun instant => instant).monitor secondOptions n =
      beginCycle secondOptions (n * 1000000000) (n * 1000000000 : Nat) := by
  induction n with
  | zero => rfl
  | succ n ih =>
      have elapsed : ¬now ((n + 1) * 1000000000) < now (n * 1000000000) + 1000 := by
        rw [now, now]
        omega
      have changed : (((n + 1) * 1000000000 : Nat) : Int) ≠ (n * 1000000000 : Nat) := by omega
      rw [History.monitor, ih, wakeUp_sleeping rfl]
      exact (if_neg Bool.false_ne_true).trans ((if_neg elapsed).trans (if_neg changed))

theorem everySecond_sleeps_touched :
    (everySecond fun instant => instant).Sleeps secondOptions := by
  intro n
  rw [everySecond_touched]
  simp [beginCycle, Monitor.asked, secondOptions, everySecond]
  omega

/-- A file that is touched all the time, and one that is not touched any more. -/
theorem kills_silent_only_seconds :
    (∀ n, ¬((everySecond fun instant => instant).monitor secondOptions n).Kills) ∧
      KillIsDue (everySecond fun _ => 0) secondOptions
        ((everySecond fun _ => 0).monitor secondOptions 0) 1000000000 ∧
      ∃ n, ((everySecond fun _ => 0).monitor secondOptions (n + 1)).Kills := by
  have spares := kills_silent_only everySecond_sleeps_touched
  have silent := kills_silent_only (@everySecond_sleeps (fun _ => 0) rfl)
  refine ⟨spares.2.1 ?_ ?_, (((silent.1 0) ⟨_, rfl⟩).mp (.inl ?_)).2, ?_⟩
  · refine ⟨fun before between after _ earlier later _ => ?_, fun created => by cases created⟩
    change ((after : Nat) : Int) ≠ (before : Nat)
    omega
  · refine fun instant _ => ⟨instant + 1, Nat.lt_succ_self instant, ?_, ?_⟩
    · change ((instant + 1 : Nat) : Int) ≤ instant + (1000 * 1000000 - 999999)
      omega
    · change ((instant + 1 : Nat) : Int) ≠ instant
      omega
  · rw [everySecond_killed rfl]
  · have endless : (everySecond fun _ => 0).Endless := by
      refine ⟨fun _ => rfl, fun instant => ⟨instant, ?_⟩⟩
      change instant ≤ (instant + 1) * 1000000000
      omega
    obtain ⟨n, _, kills, _⟩ := silent.2.2 endless 0 fun _ _ => rfl
    exact ⟨n, kills⟩

/-- An mtime that comes back after half a second. -/
def returningMtime (instant : Nat) : Int :=
  (instant / 500000000 % 2 : Nat)

def halfOptions : Options :=
  { secondOptions with
    firstCheck := 500
    firstCheck_pos := by decide
    firstCheck_le := by decide }

/-- The monitor begins at the end of a millisecond, and its first sleep is a little too long. The
mtime changes once a second. -/
def overslept : History where
  mtime instant := ((instant + 999000001) / 1000000000 : Nat)
  found := true
  start := 999999
  wakes n := ⟨if n = 0 then 501000000 else n * 1000000000, false⟩

theorem overslept_killed (n : Nat) :
    overslept.monitor halfOptions (n + 2) = ⟨1, 999999, 501000000, .killed⟩ := by
  induction n with
  | zero =>
      simp [History.monitor, History.firstTime, overslept, beginCycle, wakeUp, checkAlive, killIt,
        halfOptions, secondOptions, now]
  | succ n ih => rw [History.monitor, ih, wakeUp]

theorem overslept_sleeps : overslept.Sleeps halfOptions := by
  intro n
  cases n with
  | zero => simp [History.monitor, overslept, beginCycle, halfOptions, now, Monitor.asked]
  | succ n =>
      cases n with
      | zero =>
          simp [History.monitor, History.firstTime, overslept, beginCycle, wakeUp, checkAlive,
            halfOptions, secondOptions, now, Monitor.asked]
      | succ n =>
          rw [overslept_killed]
          simp [overslept, Monitor.asked]
          omega

/-- The mtime changes once in every second, and the process is killed: before a second has passed,
or because the mtime has come back. -/
theorem kills_changing :
    (overslept.Sleeps halfOptions ∧ overslept.ChangesWithin (halfOptions.timeout * 1000000) ∧
      (overslept.monitor halfOptions 2).phase = .killed ∧
      ((overslept.wakes 1).instant : Int) <
        (overslept.monitor halfOptions 1).cycleStart + halfOptions.timeout * 1000000) ∧
    ((everySecond returningMtime).Sleeps secondOptions ∧
      (everySecond returningMtime).ChangesWithin (secondOptions.timeout * 1000000) ∧
      ((everySecond returningMtime).monitor secondOptions 1).phase = .killed) := by
  refine ⟨⟨overslept_sleeps, fun instant _ => ⟨instant + 1000000000, ?_, ?_, ?_⟩, ?_, ?_⟩,
    everySecond_sleeps rfl, fun instant _ => ⟨instant + 500000000, ?_, ?_, ?_⟩, ?_⟩
  · omega
  · exact le_rfl
  · change (((instant + 1000000000 + 999000001) / 1000000000 : Nat) : Int) ≠
      ((instant + 999000001) / 1000000000 : Nat)
    omega
  · rw [overslept_killed]
  · simp [History.monitor, History.firstTime, overslept, beginCycle, wakeUp, checkAlive,
      halfOptions, secondOptions, now]
  · omega
  · change ((instant + 500000000 : Nat) : Int) ≤ instant + 1000 * 1000000
    omega
  · change (((instant + 500000000) / 500000000 % 2 : Nat) : Int) ≠ (instant / 500000000 % 2 : Nat)
    omega
  · rw [everySecond_killed rfl]

end Kills

end Gfiber.Alivemonitor
