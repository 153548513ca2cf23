import Gfiber.GpioMailbox.Leds
import Gfiber.Lib.Run

/-! The loop of the mailbox: it reads the pattern again after each of its lights, and shows it by
the clock. -/

set_option autoImplicit false

namespace Gfiber.GpioMailbox

open Lib

/-- The machine that the mailbox runs on. -/
structure Config where
  hasFan : Bool
  /-- Whether a `long` has 64 bits, and not 32. -/
  wideLong : Bool
  cpuinfo : FileResult

def Config.longWidth (config : Config) : Nat :=
  if config.wideLong then 64 else 32

section Loop

def pollHz : Nat := 2000

def usecPerTick : Nat := 1000000 / pollHz

/-- The state of the process between two passes of its loop. -/
structure Mailbox where
  buf : Buf
  pattern : Pattern
  innerLoopTicks : Nat
  msecPerLed : Nat
  fanLoopCount : Nat
  lastTime : Int
  lastLed : Int
  offset : Int
  /-- What the monotonic clock has shown last. -/
  clock : Int

/-- What one pass of the loop finds: the clock, the file `leds` with both clocks after it is read,
whether there is a file `activity`, and the file `fanpercent`. -/
structure Pass where
  now : Int
  leds : FileResult
  mono : Int
  real : Int
  activity : Bool
  fanpercent : FileResult

/-- The remainders are those of C, with the sign of the first number. -/
def msecOffset (totalTime : Nat) (mono real : Int) : Int :=
  (mono.tmod totalTime - real.tmod totalTime + totalTime).tmod totalTime

def Mailbox.start (config : Config) (mono real : Int) : Mailbox where
  buf := Buf.init.readFile config.cpuinfo
  pattern := .init
  innerLoopTicks := 0
  msecPerLed := 0
  fanLoopCount := 0
  lastTime := 0
  lastLed := 0
  offset := msecOffset 1000 mono real
  clock := mono

/-- The loop that halves the ticks, so that the mailbox polls often enough. -/
def halve (ticks : Nat) : Nat :=
  if many : pollHz / 16 < ticks then
    have some_tick : 0 < ticks := Nat.lt_of_le_of_lt (Nat.zero_le _) many
    halve (ticks / 2)
  else ticks
termination_by ticks

namespace Mailbox

def readLeds (config : Config) (pass : Pass) (mailbox : Mailbox) : Mailbox :=
  let buf := mailbox.buf.readFile pass.leds
  let pattern := mailbox.pattern.readLedSequence config.longWidth buf.tokens
  { mailbox with
    buf := buf.separate
    pattern := pattern
    innerLoopTicks := halve (pollHz / pattern.ledSequenceLen + 1)
    msecPerLed := pattern.ledTotalTime / pattern.ledSequenceLen + 1
    lastLed := pass.now
    offset := msecOffset pattern.ledTotalTime pass.mono pass.real
    clock := pass.mono }

/-- Whether it is time to read the pattern again. -/
def Due (mailbox : Mailbox) (pass : Pass) : Prop :=
  mailbox.msecPerLed ≤ pass.now - mailbox.lastLed

instance (mailbox : Mailbox) (pass : Pass) : Decidable (mailbox.Due pass) :=
  inferInstanceAs (Decidable (_ ≤ _))

def blink (config : Config) (pass : Pass) (mailbox : Mailbox) : Mailbox :=
  if mailbox.Due pass then mailbox.readLeds config pass else { mailbox with clock := pass.now }

/-- The index of the light to show, as `led_sequence_update` computes it. -/
def index (mailbox : Mailbox) (now : Int) : Int :=
  let frac := (now + mailbox.pattern.ledTotalTime - mailbox.offset).tmod mailbox.pattern.ledTotalTime
  let i := (mailbox.pattern.ledSequenceLen * frac).tdiv mailbox.pattern.ledTotalTime
  let i := if i ≥ mailbox.pattern.ledSequenceLen then (mailbox.pattern.ledSequenceLen : Int) else i
  if i < 0 then 0 else i

/-- The lights and the brightness that are set; `none` is an entry behind the last. -/
def shown (pass : Pass) (mailbox : Mailbox) : Option (Byte × BitVec 32) :=
  let i := mailbox.index pass.now
  if inside : i.toNat < maxLeds then
    let activityToggle := if pass.activity then 0x04 else 0
    some (mailbox.pattern.ledSequence ⟨i.toNat, inside⟩ ^^^ activityToggle,
      mailbox.pattern.ledSequenceForBrightness ⟨i.toNat, inside⟩)
  else none

/-- The fan is looked after every two seconds. -/
def controlFan (config : Config) (pass : Pass) (mailbox : Mailbox) : Mailbox :=
  if pass.now - mailbox.lastTime > 2000 then
    { mailbox with
      buf := if config.hasFan then mailbox.buf.readFile pass.fanpercent
        else mailbox.buf
      lastTime := pass.now }
  else mailbox

/-- The microseconds to sleep; with a fan each sixteenth pass does not. -/
def delay (config : Config) (pass : Pass) (mailbox : Mailbox) : Option Int :=
  let ticks := (usecPerTick * mailbox.innerLoopTicks : Int)
  if config.hasFan then
    if (mailbox.fanLoopCount + 1) % 16 = 0 then none
    else
      let timeToBoundary := ((mailbox.pattern.ledTotalTime : Int) -
        (pass.now - mailbox.offset).tmod mailbox.pattern.ledTotalTime) * 1000
      some (if ticks > timeToBoundary then timeToBoundary else ticks)
  else some ticks

def turn (config : Config) (pass : Pass) (mailbox : Mailbox) : Mailbox :=
  let mailbox := (mailbox.blink config pass).controlFan config pass
  if config.hasFan then
    { mailbox with fanLoopCount := (mailbox.fanLoopCount + 1) % 16 }
  else mailbox

end Mailbox

/-- The monotonic clock does not go back. -/
inductive Step (config : Config) : Mailbox → Pass → Mailbox → Prop where
  | turn {mailbox : Mailbox} {pass : Pass} (later : mailbox.clock ≤ pass.now)
      (afterwards : pass.now ≤ pass.mono) : Step config mailbox pass (mailbox.turn config pass)

end Loop

end Gfiber.GpioMailbox
