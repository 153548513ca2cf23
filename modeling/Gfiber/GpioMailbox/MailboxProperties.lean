import Gfiber.GpioMailbox.LedProperties

/-! What the mailbox shows, and how long it sleeps. -/

set_option autoImplicit false

namespace Gfiber.GpioMailbox

open Lib

section Times

variable {totalTime : Nat}

theorem tmod_bounds (positive : 0 < totalTime) (value : Int) :
    -totalTime < value.tmod totalTime ∧ value.tmod totalTime < totalTime := by
  have time : 0 < (totalTime : Int) := by omega
  exact ⟨Int.lt_tmod_of_pos value time, Int.tmod_lt_of_pos value time⟩

theorem tmod_natural (positive : 0 < totalTime) {value : Int} (natural : 0 ≤ value) :
    0 ≤ value.tmod totalTime ∧ value.tmod totalTime < totalTime :=
  ⟨Int.tmod_nonneg _ natural, (tmod_bounds positive value).2⟩

/-- The offset is not negative, whatever the real-time clock shows. -/
theorem msecOffset_bounds (positive : 0 < totalTime) {mono : Int} (natural : 0 ≤ mono) (real : Int) :
    0 ≤ msecOffset totalTime mono real ∧ msecOffset totalTime mono real < totalTime := by
  have first := (tmod_natural positive natural).1
  have second := (tmod_bounds positive real).2
  exact tmod_natural positive (by omega)

theorem halve_positive {ticks : Nat} (positive : 0 < ticks) : 0 < halve ticks := by
  induction ticks using halve.induct with
  | case1 ticks many _ ih =>
      rw [halve, dif_pos many]
      rw [pollHz] at many
      exact ih (by omega)
  | case2 ticks few =>
      rw [halve, dif_neg few]
      exact positive

/-- A part of the total time falls on one of the lights. -/
theorem light_bounds {length : Nat} {frac : Int} (natural : 0 ≤ frac) (inside : frac < totalTime)
    (lit : 0 < length) :
    0 ≤ (length * frac).tdiv totalTime ∧ (length * frac).tdiv totalTime < length := by
  have product : 0 ≤ length * frac := Int.mul_nonneg (by omega) natural
  rw [Int.tdiv_eq_ediv_of_nonneg product]
  refine ⟨Int.ediv_nonneg product (by omega), ?_⟩
  apply Int.ediv_lt_of_lt_mul (by omega)
  exact Int.mul_lt_mul_of_pos_left inside (by omega)

end Times

section Steadiness

variable {config : Config} {mailbox : Mailbox} {pass : Pass}

/-- A pattern with its offset. -/
structure Timed (mailbox : Mailbox) : Prop where
  lit : 0 < mailbox.pattern.ledSequenceLen
  time : InRange mailbox.pattern.ledTotalTime
  early : 0 ≤ mailbox.offset
  late : mailbox.offset < mailbox.pattern.ledTotalTime

/-- What holds between two passes: the first one reads a pattern. -/
structure Ready (mailbox : Mailbox) : Prop extends Timed mailbox where
  natural : 0 ≤ mailbox.clock
  ticking : (mailbox.msecPerLed = 0 ∧ mailbox.lastLed = 0) ∨
    (0 < mailbox.innerLoopTicks ∧ 0 < mailbox.msecPerLed)

/-- What one pass does: the pattern has 1 to 16 lights and takes 1 to 10 seconds, the light that is
shown is one of them, and the loop goes on after some time. -/
structure Steady (config : Config) (mailbox : Mailbox) (pass : Pass) : Prop where
  lit : 1 ≤ (mailbox.blink config pass).pattern.ledSequenceLen
  few : (mailbox.blink config pass).pattern.ledSequenceLen ≤ 16
  time : InRange (mailbox.blink config pass).pattern.ledTotalTime
  natural : 0 ≤ (mailbox.blink config pass).index pass.now
  inside : (mailbox.blink config pass).index pass.now <
    (mailbox.blink config pass).pattern.ledSequenceLen
  ticks : 0 < (mailbox.blink config pass).innerLoopTicks
  period : 0 < (mailbox.blink config pass).msecPerLed
  sleeps : ∀ delay, (mailbox.blink config pass).delay config pass = some delay → 0 < delay

theorem ready_start {mono : Int} (natural : 0 ≤ mono) (real : Int) :
    Ready (Mailbox.start config mono real) where
  lit := Nat.one_pos
  time := by
    simp only [InRange, Mailbox.start, Pattern.init]
    decide
  early := (msecOffset_bounds (by decide) natural real).1
  late := (msecOffset_bounds (by decide) natural real).2
  natural := natural
  ticking := .inl ⟨rfl, rfl⟩

/-- What is read, or kept, is timed. -/
theorem Ready.blink (config : Config) (ready : Ready mailbox) (later : mailbox.clock ≤ pass.now)
    (afterwards : pass.now ≤ pass.mono) :
    Timed (mailbox.blink config pass) ∧ 0 ≤ (mailbox.blink config pass).clock ∧
      0 < (mailbox.blink config pass).innerLoopTicks ∧ 0 < (mailbox.blink config pass).msecPerLed := by
  have natural := ready.natural
  rw [Mailbox.blink]
  split
  case isTrue due =>
    obtain ⟨lit, time⟩ := readLedSequence_bounds config.longWidth
      (mailbox.buf.readFile pass.leds).tokens mailbox.pattern
    obtain ⟨early, late⟩ := msecOffset_bounds (Nat.lt_of_lt_of_le (by decide) time.1)
      (show 0 ≤ pass.mono by omega) pass.real
    exact ⟨⟨lit, time, early, late⟩, by change 0 ≤ pass.mono; omega,
      halve_positive (Nat.succ_pos _), Nat.succ_pos _⟩
  case isFalse idle =>
    rcases ready.ticking with ⟨fresh, first⟩ | ⟨ticks, period⟩
    · refine absurd ?_ idle
      rw [Mailbox.Due, fresh, first]
      omega
    · exact ⟨⟨ready.lit, ready.time, ready.early, ready.late⟩, by change 0 ≤ pass.now; omega,
        ticks, period⟩

theorem Timed.index_bounds (timed : Timed mailbox) {now : Int} (natural : 0 ≤ now) :
    0 ≤ mailbox.index now ∧ mailbox.index now < mailbox.pattern.ledSequenceLen := by
  have long := timed.time.1
  have early := timed.early
  have late := timed.late
  obtain ⟨least, most⟩ := tmod_natural (show 0 < mailbox.pattern.ledTotalTime by omega)
    (show 0 ≤ now + mailbox.pattern.ledTotalTime - mailbox.offset by omega)
  obtain ⟨low, high⟩ := light_bounds least most timed.lit
  rw [Mailbox.index, if_neg (by omega), if_neg (by omega)]
  exact ⟨low, high⟩

theorem Timed.delay_positive (timed : Timed mailbox) (ticks : 0 < mailbox.innerLoopTicks)
    {delay : Int} (slept : mailbox.delay config pass = some delay) : 0 < delay := by
  have long := timed.time.1
  have boundary := (tmod_bounds (show 0 < mailbox.pattern.ledTotalTime by omega)
    (pass.now - mailbox.offset)).2
  have tick : (usecPerTick : Int) = 500 := rfl
  simp only [Mailbox.delay, tick] at slept
  split at slept
  case isTrue =>
    split at slept
    case isTrue => cases slept
    case isFalse =>
      cases Option.some.inj slept
      split
      case isTrue => omega
      case isFalse => omega
  case isFalse =>
    cases Option.some.inj slept
    omega

theorem Ready.steady (ready : Ready mailbox) (later : mailbox.clock ≤ pass.now)
    (afterwards : pass.now ≤ pass.mono) : Steady config mailbox pass := by
  obtain ⟨timed, _, ticks, period⟩ := ready.blink config later afterwards
  have natural := ready.natural
  obtain ⟨least, inside⟩ := timed.index_bounds (show 0 ≤ pass.now by omega)
  exact ⟨timed.lit, (mailbox.blink config pass).pattern.bounded, timed.time, least, inside, ticks,
    period, fun delay slept => timed.delay_positive ticks slept⟩

end Steadiness

end Gfiber.GpioMailbox
