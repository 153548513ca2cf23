import Mathlib.Algebra.Group.Int.Defs
import Mathlib.Data.Int.Order.Basic

/-! The monitor that kills a process when its keepalive file is not touched any more. Instants are
nanoseconds of the monotonic clock, and all that the monitor does between two sleeps takes no
time. There are no signals to it and no system errors. -/

set_option autoImplicit false

namespace Gfiber.Alivemonitor

section Options

/-- The arguments in milliseconds, `-S`, and `-T` after it. -/
structure Arguments where
  firstCheck : Int
  incrCheck : Int
  timeout : Int
  prekillSignal : Option Int
  prekillTimeout : Option Int

/-- Options that have passed the checks. -/
structure Options where
  firstCheck : Int
  incrCheck : Int
  timeout : Int
  prekillSignal : Int
  prekillTimeout : Int
  firstCheck_pos : 0 < firstCheck
  incrCheck_pos : 0 < incrCheck
  timeout_pos : 0 < timeout
  firstCheck_le : firstCheck ≤ timeout

/-- The messages of `die`. Without `-S`, the signal is 0. -/
def checkOptions (arguments : Arguments) : Except String Options :=
  if arguments.prekillSignal.any (· ≤ 0) then .error "invalid signal number provided"
  else if arguments.prekillTimeout.any (· ≤ 0) then .error "prekill timeout must be > 0"
  else if first : arguments.firstCheck ≤ 0 then .error "first_check must be > 0"
  else if incr : arguments.incrCheck ≤ 0 then .error "incr_check must be > 0"
  else if limit : arguments.timeout ≤ 0 then .error "timeout must be > 0"
  else if order : arguments.timeout < arguments.firstCheck then
    .error "first_check must be <= timeout"
  else
    .ok
      { firstCheck := arguments.firstCheck
        incrCheck := arguments.incrCheck
        timeout := arguments.timeout
        prekillSignal := arguments.prekillSignal.getD 0
        prekillTimeout := arguments.prekillTimeout.getD 1000
        firstCheck_pos := not_le.mp first
        incrCheck_pos := not_le.mp incr
        timeout_pos := not_le.mp limit
        firstCheck_le := not_lt.mp order }

end Options

section Cycles

/-- Milliseconds. -/
def now (instant : Nat) : Int :=
  (instant / 1000000 : Nat)

/-- Where the monitor sleeps: in `sleep_check_alive` until the time, or after the signal before the
kill, or nowhere any more. -/
inductive Phase where
  | sleeping (endtime : Int)
  | prekill (start : Int)
  | exited
  | killed
deriving DecidableEq, Repr

/-- `old_time`, the instant of `start_time = now()`, and the instant at which the sleep began. -/
structure Monitor where
  oldTime : Int
  cycleStart : Nat
  asleep : Nat
  phase : Phase
deriving DecidableEq, Repr

/-- The argument of `usleep`, which has 32 bits. -/
def Monitor.asked (monitor : Monitor) : Int :=
  match monitor.phase with
  | .sleeping endtime => (endtime - now monitor.asleep) * 1000 % 2 ^ 32
  | .prekill _ => 100 * 1000
  | .exited => 0
  | .killed => 0

def beginCycle (options : Options) (instant : Nat) (oldTime : Int) : Monitor where
  oldTime := oldTime
  cycleStart := instant
  asleep := instant
  phase := .sleeping (now instant + options.firstCheck)

/-- The process group is killed at once unless there is another signal to send first. -/
def killIt (options : Options) (monitor : Monitor) (instant : Nat) : Monitor :=
  if options.prekillSignal ≠ 0 then
    { monitor with asleep := instant, phase := .prekill (now instant) }
  else { monitor with phase := .killed }

/-- What follows a sleep: the next cycle, the end, or another sleep. -/
def checkAlive (options : Options) (mtime : Nat → Int) (monitor : Monitor) (instant : Nat) :
    Monitor :=
  if mtime instant = monitor.oldTime then
    let timePassed := now instant - now monitor.cycleStart
    if options.timeout ≤ timePassed then killIt options monitor instant
    else
      let nextCheck := min options.incrCheck (options.timeout - timePassed)
      { monitor with asleep := instant, phase := .sleeping (now instant + nextCheck) }
  else beginCycle options instant (mtime instant)

/-- A return of `usleep`, and whether the process is gone then. -/
structure Wake where
  instant : Nat
  exited : Bool

def wakeUp (options : Options) (mtime : Nat → Int) (monitor : Monitor) (wake : Wake) : Monitor :=
  match monitor.phase with
  | .sleeping endtime =>
      if wake.exited then { monitor with phase := .exited }
      else if now wake.instant < endtime then { monitor with asleep := wake.instant }
      else checkAlive options mtime monitor wake.instant
  | .prekill start =>
      if now wake.instant - start < options.prekillTimeout ∧ wake.exited = false then
        { monitor with asleep := wake.instant }
      else { monitor with phase := .killed }
  | .exited => monitor
  | .killed => monitor

end Cycles

section Runs

/-- What the monitor meets with: the mtime of the file in seconds at every instant, whether the
file was there at the start, and the wake-ups. -/
structure History where
  mtime : Nat → Int
  found : Bool
  start : Nat
  wakes : Nat → Wake

/-- The mtime of a file that the monitor had to create is not read. -/
def History.firstTime (history : History) : Int :=
  if history.found then history.mtime history.start else 0

/-- The monitor after so many wake-ups. -/
def History.monitor (history : History) (options : Options) : Nat → Monitor
  | 0 => beginCycle options history.start history.firstTime
  | n + 1 => wakeUp options history.mtime (history.monitor options n) (history.wakes n)

/-- No sleep is shorter than asked. -/
def History.Sleeps (history : History) (options : Options) : Prop :=
  ∀ n, (history.monitor options n).asleep + (history.monitor options n).asked * 1000 ≤
    (history.wakes n).instant

end Runs

end Gfiber.Alivemonitor
