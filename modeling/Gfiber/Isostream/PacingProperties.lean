import Gfiber.Isostream.Server

/-! That the server keeps to the rate, and neither spins nor divides by zero. -/

set_option autoImplicit false

namespace Gfiber.Isostream

open Lib

section Arithmetic

theorem longLong_of_fits {value : Int} (low : -2 ^ 63 ≤ value) (high : value < 2 ^ 63) :
    longLong value = some value :=
  if_pos ⟨low, high⟩

theorem longLong_eq_some {value result : Int} (fits : longLong value = some result) :
    result = value ∧ -2 ^ 63 ≤ value ∧ value < 2 ^ 63 := by
  rw [longLong] at fits
  split at fits
  case isTrue inside =>
    cases fits
    exact ⟨rfl, inside⟩
  case isFalse => cases fits

theorem bytesPerPeriod_bounds {megabits : Int} (positive : 0 < megabits) :
    0 < bytesPerPeriod megabits ∧ bytesPerPeriod megabits ≤ 65536 := by
  have second : (megabits * 1000000).tdiv 8 = megabits * 125000 := by
    rw [Int.tdiv_eq_ediv_of_nonneg (by omega)]
    omega
  have bytes : (megabits * 125000).tdiv minPeriodsPerSec = megabits * 12500 := by
    rw [minPeriodsPerSec, Int.tdiv_eq_ediv_of_nonneg (by omega)]
    omega
  rw [bytesPerPeriod, second, bytes]
  split
  case isTrue => omega
  case isFalse small => omega

theorem bytesPerPeriod_zero : bytesPerPeriod 0 = 0 := by
  decide

end Arithmetic

section Passes

variable {megabits start : Int}

/-- The bytes that are due at a time. -/
def due (megabits start now : Int) : Int :=
  (now - start) * megabits / 8

/-- What holds of the server between two passes. -/
structure Within (megabits start : Int) (server : Server) : Prop where
  started : start ≤ server.now
  written : 0 ≤ server.total
  bounded : server.total ≤ due megabits start server.now

/-- A pass is defined, and sleeps for a positive time or asks for some bytes, no more than the
buffer has, and writes one of them at least unless the connection fails. -/
def Paced (megabits start : Int) (server : Server) (event : Event) : Prop :=
  ∃ action, act megabits start server.total event.now = some action ∧
    match action with
    | .sleep delayNsec => 0 < delayNsec
    | .write toWrite => 0 < toWrite ∧ toWrite ≤ bufsize ∧
        ∀ bytes, event.result = .wrote bytes → 0 < bytes

/-- The rate is not zero, and the bits that are due can be computed. -/
def Computable (megabits start : Int) (_ : Server) (event : Event) : Prop :=
  megabits ≠ 0 ∧ (event.now - start) * megabits < 2 ^ 63

theorem due_mono {now later : Int} (rate : 0 ≤ megabits) (after : now ≤ later) :
    due megabits start now ≤ due megabits start later := by
  have more := Int.mul_le_mul_of_nonneg_right (Int.sub_le_sub_right after start) rate
  exact Int.ediv_le_ediv (by decide) more

theorem act_eq {server : Server} {now : Int} (positive : 0 < megabits)
    (within : Within megabits start server) (later : server.now ≤ now)
    (fits : (now - start) * megabits < 2 ^ 63) :
    act megabits start server.total now = some
      (if due megabits start now - server.total < bytesPerPeriod megabits then
        .sleep ((bytesPerPeriod megabits - (due megabits start now - server.total)) * 8 * 1000 / megabits)
      else .write (min (due megabits start now - server.total) bufsize)) := by
  have begun : 0 ≤ now - start := by
    have started := within.started
    omega
  have bits : 0 ≤ (now - start) * megabits := Int.mul_nonneg begun positive.le
  have longer : now - start ≤ (now - start) * megabits := by
    have more := Int.mul_le_mul_of_nonneg_left (Int.add_one_le_of_lt positive) begun
    simpa using more
  have goal : ((now - start) * megabits).tdiv 8 = due megabits start now :=
    Int.tdiv_eq_ediv_of_nonneg bits
  have left : 0 ≤ due megabits start now - server.total := by
    have more : due megabits start server.now ≤ due megabits start now :=
      due_mono positive.le later
    have bounded := within.bounded
    omega
  have most : due megabits start now < 2 ^ 63 := by
    rw [due]
    omega
  have written := within.written
  obtain ⟨some_byte, period⟩ := bytesPerPeriod_bounds positive
  rw [act, longLong_of_fits (by omega) (by omega)]
  simp only [Option.bind_eq_bind, Option.bind_some]
  rw [longLong_of_fits (by omega) fits]
  simp only [Option.bind_some, goal]
  rw [longLong_of_fits (by omega) (by omega)]
  simp only [Option.bind_some]
  split
  case isTrue missing =>
    rw [longLong_of_fits (by omega) (by omega)]
    simp only [Option.bind_some, divide, if_neg positive.ne', Option.pure_def]
    rw [Int.tdiv_eq_ediv_of_nonneg (by omega)]
  case isFalse =>
    rw [Option.pure_def, min_def]
    congr 2
    split_ifs
    all_goals omega

theorem fits_of_act {total now : Int} {action : Action}
    (asked : act megabits start total now = some action) : (now - start) * megabits < 2 ^ 63 := by
  cases elapsed : longLong (now - start) with
  | none => simp [act, elapsed] at asked
  | some time =>
      cases bits : longLong (time * megabits) with
      | none => simp [act, elapsed, bits] at asked
      | some goal =>
          rw [← (longLong_eq_some elapsed).1]
          exact (longLong_eq_some bits).2.2

/-- Without a rate nothing is due, and nothing is what is written. -/
theorem act_zero {now : Int} {action : Action} (asked : act 0 start 0 now = some action) :
    action = .write 0 := by
  cases elapsed : longLong (now - start) with
  | none => simp [act, elapsed] at asked
  | some time =>
      have none : longLong 0 = some 0 := rfl
      simp only [act, elapsed, Option.bind_eq_bind, Option.bind_some, Int.mul_zero, none,
        Int.zero_tdiv, Int.sub_zero, bytesPerPeriod_zero, Int.lt_irrefl, if_false] at asked
      cases asked
      rfl

theorem Step.later {server next : Server} {event : Event}
    (step : Step megabits start server event next) : server.now ≤ event.now := by
  cases step with
  | sleep _ later => exact later
  | write _ later => exact later
  | fail _ later => exact later
  | undefined _ later => exact later

/-- A write that asks for some bytes writes one of them at least. -/
theorem Step.some_byte {server next : Server} {event : Event} {toWrite bytes : Int}
    (step : Step megabits start server event next)
    (asked : act megabits start server.total event.now = some (.write toWrite))
    (positive : 0 < toWrite) (wrote : event.result = .wrote bytes) : 0 < bytes := by
  cases step with
  | sleep => cases wrote
  | write _ _ written _ _ some_byte =>
      cases wrote
      cases written.symm.trans asked
      exact some_byte positive
  | fail => cases wrote
  | undefined _ _ undefined =>
      rw [undefined] at asked
      cases asked

/-- Without a rate nothing is written. -/
theorem Within.idle {server : Server} (within : Within 0 start server) : server.total = 0 := by
  have bounded := within.bounded
  rw [due, Int.mul_zero, Int.zero_ediv] at bounded
  exact Int.le_antisymm bounded within.written

theorem computable_of_paced {server : Server} {event : Event}
    (within : Within megabits start server) (paced : Paced megabits start server event) :
    Computable megabits start server event := by
  obtain ⟨action, asked, paced⟩ := paced
  have some_rate : megabits ≠ 0 := by
    rintro rfl
    rw [within.idle] at asked
    rw [act_zero asked] at paced
    exact absurd paced.1 (by decide)
  exact ⟨some_rate, fits_of_act asked⟩

theorem paced_of_computable {server next : Server} {event : Event} (rate : 0 ≤ megabits)
    (small : megabits ≤ maxMbits) (within : Within megabits start server)
    (step : Step megabits start server event next)
    (computable : Computable megabits start server event) :
    Paced megabits start server event := by
  have positive : 0 < megabits := rate.lt_of_ne' computable.1
  have asked := act_eq positive within step.later computable.2
  obtain ⟨some_byte, period⟩ := bytesPerPeriod_bounds positive
  by_cases missing : due megabits start event.now - server.total < bytesPerPeriod megabits
  · rw [if_pos missing] at asked
    refine ⟨_, asked, ?_⟩
    have most : 1 * megabits ≤
        (bytesPerPeriod megabits - (due megabits start event.now - server.total)) * 8 * 1000 := by
      rw [maxMbits] at small
      omega
    exact Int.le_ediv_of_mul_le positive most
  · rw [if_neg missing] at asked
    have some_bytes : 0 < min (due megabits start event.now - server.total) bufsize :=
      lt_min (by omega) (by decide)
    exact ⟨_, asked, some_bytes, min_le_right _ _, fun _ => step.some_byte asked some_bytes⟩

/-- A write stays below what is due. -/
theorem act_write_le {server : Server} {now toWrite : Int} (rate : 0 ≤ megabits)
    (within : Within megabits start server) (later : server.now ≤ now)
    (asked : act megabits start server.total now = some (.write toWrite)) :
    server.total + toWrite ≤ due megabits start now := by
  have bounded := within.bounded
  have more : due megabits start server.now ≤ due megabits start now := due_mono rate later
  by_cases zero : megabits = 0
  · subst zero
    rw [within.idle] at asked ⊢
    cases act_zero asked
    rw [due]
    omega
  · rw [act_eq (by omega) within later (fits_of_act asked)] at asked
    split at asked
    case isTrue => cases asked
    case isFalse =>
      cases asked
      have least := min_le_left (due megabits start now - server.total) bufsize
      omega

theorem within_step {server next : Server} {event : Event} (rate : 0 ≤ megabits)
    (within : Within megabits start server) (step : Step megabits start server event next) :
    Within megabits start next := by
  have later := step.later
  have more : due megabits start server.now ≤ due megabits start event.now :=
    due_mono rate later
  have idle : Within megabits start { server with now := event.now } :=
    ⟨within.started.trans later, within.written, within.bounded.trans more⟩
  cases step with
  | sleep => exact idle
  | write _ _ asked positive short _ =>
      have least := act_write_le rate within later asked
      refine ⟨idle.started, Int.add_nonneg within.written positive, ?_⟩
      exact (Int.add_le_add_left short _).trans least
  | fail => exact ⟨idle.started, idle.written, idle.bounded⟩
  | undefined => exact ⟨idle.started, idle.written, idle.bounded⟩

theorem accepted_range {width : LongWidth} {received : Option (List Byte)}
    (accepted : acceptRequest width received = some megabits) :
    0 ≤ megabits ∧ megabits ≤ maxMbits := by
  cases received with
  | none => cases accepted
  | some req =>
      simp only [acceptRequest, Option.bind_eq_bind, Option.bind_some] at accepted
      split at accepted
      case isTrue => cases accepted
      case isFalse =>
        split at accepted
        case isTrue => cases accepted
        case isFalse =>
          split at accepted
          case isTrue => cases accepted
          case isFalse inside =>
            cases accepted
            omega

/-- In a run for an accepted request the server keeps to the rate, and each pass is paced exactly
when the rate is not zero, as long as the bits that are due can be computed. -/
theorem server_paced_iff {width : LongWidth} {received : Option (List Byte)}
    (accepted : acceptRequest width received = some megabits) {finish : Server}
    {trace : List (Server × Event)}
    (run : Run (Step megabits start) (Server.begin start) trace finish) :
    Throughout (Within megabits start) trace finish ∧ StepsMeet (Paced megabits start) trace ↔
      StepsMeet (Computable megabits start) trace := by
  obtain ⟨rate, small⟩ := accepted_range accepted
  have begun : Within megabits start (Server.begin start) := by
    refine ⟨Int.le_refl _, Int.le_refl _, ?_⟩
    simp [Server.begin, due]
  refine run.throughout_iff begun fun within step => ?_
  constructor
  · rintro ⟨_, paced⟩
    exact computable_of_paced within paced
  · intro computable
    exact ⟨within_step rate within step, paced_of_computable rate small within step computable⟩

/-- A request for a rate. -/
def requestFor (megabits : Nat) : List Byte :=
  bigEndian 4 magic ++ bigEndian 4 megabits

/-- A sleep, and a write that is cut short, at a rate of 1 Mbit/s. -/
theorem server_paced_short :
    ∃ trace finish, Run (Step 1 5) (Server.begin 5) trace finish ∧
      trace.map Prod.snd = [⟨5, .slept⟩, ⟨100005, .wrote 5000⟩] ∧
      Throughout (Within 1 5) trace finish ∧ StepsMeet (Paced 1 5) trace := by
  have accepted : acceptRequest .bits64 (some (requestFor 1)) = some 1 := by decide
  have sleep : Step 1 5 (Server.begin 5) ⟨5, .slept⟩ (Server.begin 5) := by
    have asked : act 1 5 0 5 = some (.sleep 100000000) := by decide
    exact .sleep rfl (Int.le_refl _) asked
  have write : Step 1 5 (Server.begin 5) ⟨100005, .wrote 5000⟩ ⟨100005, 0 + 5000, true⟩ := by
    have asked : act 1 5 0 100005 = some (.write 12500) := by decide
    exact .write rfl (by decide) asked (by decide) (by decide) (by decide)
  have run := (Run.nil.snoc sleep).snoc write
  refine ⟨_, _, run, rfl, (server_paced_iff accepted run).mpr ?_⟩
  simp [StepsMeet, Computable]

/-- Without a rate the passes write nothing, one after another. -/
theorem zero_rate_spins :
    acceptRequest .bits64 (some (requestFor 0)) = some 0 ∧
      ∃ trace finish, Run (Step 0 5) (Server.begin 5) trace finish ∧
        trace.map Prod.snd = [⟨5, .wrote 0⟩, ⟨5, .wrote 0⟩] ∧ ¬StepsMeet (Paced 0 5) trace := by
  have spin : Step 0 5 (Server.begin 5) ⟨5, .wrote 0⟩ (Server.begin 5) := by
    have asked : act 0 5 0 5 = some (.write 0) := by decide
    exact .write rfl (Int.le_refl _) asked (Int.le_refl _) (Int.le_refl _) id
  refine ⟨by decide, _, _, (Run.nil.snoc spin).snoc spin, rfl, ?_⟩
  intro paced
  obtain ⟨action, asked, paced⟩ := paced (Server.begin 5, ⟨5, .wrote 0⟩) (by simp)
  rw [act_zero asked] at paced
  exact absurd paced.1 (by decide)

end Passes

end Gfiber.Isostream
