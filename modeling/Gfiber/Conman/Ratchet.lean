import Mathlib.Algebra.Order.Ring.Rat
import Mathlib.Data.Fin.Basic
import Gfiber.Conman.Status

/-! A ratchet: conditions that have to be met one after the other, each in a
time of its own, and that show in a status which of them is waited for. -/

set_option autoImplicit false

namespace Gfiber.Conman

open Lib

/-- What a ratchet depends on: the readings of the clock, the results of the
`evaluate` functions in the order of their calls, and the orders of the sets of
the status. -/
structure Surroundings where
  clock : Nat → Rat
  results : Nat → Bool
  setUpOrder : IterationOrder (P × List P × List P)
  orders : SetOrders P Empty

/-- An `evaluate` that has returned, a step that is marked done, or a callback. -/
inductive Occurrence (Step : Type) where
  | evaluated (step : Step) (result : Bool)
  | completed (step : Step)
  | callback (step : Step)
deriving DecidableEq, Repr

/-- How often the clock has been read and conditions have been evaluated, and
what has occurred since the last `start`. -/
structure World (Step : Type) where
  ticks : Nat
  evaluations : Nat
  log : List (Occurrence Step)

section Conditions

variable {Step : Type} (env : Surroundings)

def gettime (world : World Step) : Rat × World Step :=
  (env.clock world.ticks, { world with ticks := world.ticks + 1 })

/-- The times of a condition. -/
structure Timing where
  t0 : Rat
  startAt : Rat
  doneAfter : Option Rat
  doneBy : Option Rat
  timedOut : Bool
  notDoneBefore : Rat

/-- A time that is missing or zero counts as false. -/
def truthy (time : Option Rat) : Bool :=
  time.any (· ≠ 0)

/-- `reset`, which is called without times. -/
def Timing.reset (world : World Step) : Timing × World Step :=
  let (t0, world) := gettime env world
  let (startAt, world) := gettime env world
  (⟨t0, startAt, none, none, false, t0⟩, world)

def Timing.markDone (timing : Timing) (world : World Step) : Timing × World Step :=
  let (now, world) := gettime env world
  ({ timing with doneAfter := some timing.notDoneBefore, doneBy := some now }, world)

structure Condition extends Timing where
  name : P
  timeout : Rat
  callback : Bool

namespace Condition

variable (condition : Condition) (step : Step) (world : World Step)

def evaluate : Bool × World Step :=
  let result := env.results world.evaluations
  (result, { world with
    evaluations := world.evaluations + 1
    log := world.log ++ [.evaluated step result] })

def markDone : Condition × World Step :=
  let (timing, world) := condition.toTiming.markDone env world
  let occurrences := .completed step :: if condition.callback then [.callback step] else []
  ({ condition with toTiming := timing }, { world with log := world.log ++ occurrences })

inductive Checked where
  | done
  | notDone
  | timeout
deriving DecidableEq, Repr

def check : Checked × Condition × World Step :=
  if condition.timedOut then (.timeout, condition, world)
  else if truthy condition.doneAfter then (.done, condition, world)
  else
    match evaluate env step world with
    | (true, world) => (.done, condition.markDone env step world)
    | (false, world) =>
        let (now, world) := gettime env world
        if condition.startAt + condition.timeout < now then
          (.timeout, { condition with timedOut := true }, world)
        else
          let (notDoneBefore, world) := gettime env world
          (.notDone, { condition with notDoneBefore := notDoneBefore }, world)

end Condition

end Conditions

/-- A ratchet of at least one step. `begun` is the number of readings of the
clock at the last `start`. -/
structure Ratchet (last : Nat) extends Timing where
  steps : Fin (last + 1) → Condition
  currentStep : Fin (last + 1)
  active : Bool
  status : Board P Empty
  world : World (Fin (last + 1))
  begun : Nat

namespace Ratchet

variable {last : Nat} (env : Surroundings) (ratchet : Ratchet last)

/-- An attribute of the status is assigned. -/
def setStepStatus (step : Fin (last + 1)) (value : Bool) : Ratchet last :=
  { ratchet with
    status := (set (statusNetwork env.setUpOrder) env.orders 35 ratchet.status
      (ratchet.steps step).name value).getD ratchet.status }

def resetStep (step : Fin (last + 1)) : Ratchet last :=
  let (timing, world) := Timing.reset env ratchet.world
  let condition := { ratchet.steps step with toTiming := timing }
  setStepStatus env
    { ratchet with steps := Function.update ratchet.steps step condition, world := world }
    step false

def reset : Ratchet last :=
  let ratchet := (List.finRange (last + 1)).foldl (resetStep env)
    { ratchet with currentStep := 0, active := false }
  let (timing, world) := Timing.reset env ratchet.world
  { ratchet with toTiming := timing, world := world }

def start : Ratchet last :=
  let ratchet := reset env { ratchet with
    begun := ratchet.world.ticks, world := { ratchet.world with log := [] } }
  setStepStatus env { ratchet with active := true } ratchet.currentStep true

def onFinalStep : Bool :=
  ratchet.currentStep = Fin.last last

/-- A step that is done has a `done_by`. -/
def advance : Ratchet last :=
  let prev := ratchet.steps ratchet.currentStep
  let current := ratchet.currentStep + 1
  let condition :=
    { ratchet.steps current with startAt := prev.doneBy.getD prev.startAt }
  setStepStatus env
    { ratchet with
      currentStep := current
      steps := Function.update ratchet.steps current condition }
    current true

def markDone : Ratchet last :=
  let (timing, world) := ratchet.toTiming.markDone env ratchet.world
  { ratchet with
    toTiming := { timing with doneAfter := (ratchet.steps (Fin.last last)).doneAfter }
    world := world }

def checkCurrentStep : Condition.Checked × Ratchet last :=
  let (checked, condition, world) :=
    (ratchet.steps ratchet.currentStep).check env ratchet.currentStep ratchet.world
  (checked, { ratchet with
    steps := Function.update ratchet.steps ratchet.currentStep condition
    world := world })

/-- The loop of `check`, to a bounded number of passes. The flag says whether
`TimeoutException` is raised. -/
def checkLoop : Nat → Ratchet last → Option (Bool × Ratchet last)
  | 0, _ => none
  | passes + 1, ratchet =>
      match ratchet.checkCurrentStep env with
      | (.timeout, ratchet) => some (true, ratchet)
      | (.notDone, ratchet) => some (false, ratchet)
      | (.done, ratchet) =>
          if ratchet.onFinalStep then some (false, ratchet.markDone env)
          else checkLoop passes (ratchet.advance env)

def check : Option (Bool × Ratchet last) :=
  if !ratchet.active then some (false, ratchet)
  else if truthy ratchet.doneAfter then some (false, ratchet)
  else checkLoop env (last + 1) ratchet

/-- A ratchet that has been constructed over a status. -/
def create (conditions : Fin (last + 1) → Condition) (status : Board P Empty) : Ratchet last :=
  let timing : Timing := ⟨0, 0, none, none, false, 0⟩
  reset env ⟨timing, conditions, 0, false, status, ⟨0, 0, []⟩, 0⟩

end Ratchet

inductive Call where
  | start
  | check
deriving DecidableEq, Repr

def Ratchet.call {last : Nat} (env : Surroundings) (ratchet : Ratchet last) :
    Call → Option (Bool × Ratchet last)
  | .start => some (false, ratchet.start env)
  | .check => ratchet.check env

/-- The steps of provisioning. -/
def provisioningSteps : Fin 5 → P
  | 0 => .tryingOpen
  | 1 => .waitingForDhcp
  | 2 => .acsConnectionCheck
  | 3 => .waitingForCwmpWakeup
  | 4 => .waitingForAcsSession

end Gfiber.Conman
