import Mathlib.Logic.Function.Basic
import Gfiber.Lib.Run

/-! How the fan is driven by the temperatures of up to three sensors. The duty cycle that is
remembered is the base of the next one, and decides whether one is written at all. -/

set_option autoImplicit false

namespace Gfiber.Sysmgr

/-- `uint16_t`. -/
abbrev Word16 := BitVec 16

section Parameters

structure FanControlParams where
  tempSetpt : Word16
  tempMax : Word16
  tempStep : Word16
  dutyCycleMin : Word16
  dutyCycleMax : Word16
  pwmStep : Word16
deriving DecidableEq, Repr

inductive Sensor where
  | soc
  | hdd
  | aux1
deriving DecidableEq, Repr

def kPwmDefaultStartup : Word16 := 50

def kPwmMinValue : Word16 := 0

def kFanSpeedNotSpinning : Word16 := 0

end Parameters

section DutyCycles

namespace FanControlParams

variable (params : FanControlParams) (dutyCyclePwm temp fanSpeed : Word16)

/-- The sum is made in an `int`. -/
def Above : Prop :=
  params.tempSetpt.toNat + params.tempStep.toNat < temp.toNat

/-- The difference is made in an `int` and may be negative. -/
def Below : Prop :=
  (temp.toNat : Int) < params.tempSetpt.toNat - params.tempStep.toNat

instance : Decidable (params.Above temp) :=
  inferInstanceAs (Decidable (_ < _))

instance : Decidable (params.Below temp) :=
  inferInstanceAs (Decidable (_ < _))

/-- `__ComputeDutyCycle`. -/
def computeDutyCycle : Word16 :=
  if params.tempMax < temp then params.dutyCycleMax
  else if params.Above temp then
    if fanSpeed = kFanSpeedNotSpinning then params.dutyCycleMin
    else if dutyCyclePwm < params.dutyCycleMax then
      if params.dutyCycleMax < dutyCyclePwm + params.pwmStep then params.dutyCycleMax
      else dutyCyclePwm + params.pwmStep
    else dutyCyclePwm
  else if params.Below temp then
    if fanSpeed = kFanSpeedNotSpinning ∨ dutyCyclePwm < params.pwmStep then kPwmMinValue
    else dutyCyclePwm - params.pwmStep
  else dutyCyclePwm

/-- The values that are cut to 16 bits on the way. -/
def assigned : List Int :=
  if params.tempMax < temp then []
  else if params.Above temp then
    if fanSpeed = kFanSpeedNotSpinning then []
    else if dutyCyclePwm < params.dutyCycleMax then [dutyCyclePwm.toNat + params.pwmStep.toNat]
    else []
  else if params.Below temp then
    if fanSpeed = kFanSpeedNotSpinning ∨ dutyCyclePwm < params.pwmStep then []
    else [dutyCyclePwm.toNat - params.pwmStep.toNat]
  else []

end FanControlParams

inductive StateType where
  | off
  | varSpeed
  | fullSpeed
deriving DecidableEq, Repr

/-- The parameters of a sensor that the platform does not have are not looked at. -/
structure FanControl where
  state : StateType
  dutyCyclePwm : Word16
  period : Word16
  params : Sensor → Option FanControlParams

variable (control : FanControl) (temps : Sensor → Word16) (fanSpeed : Word16)

def FanControl.sensorDutyCycle (sensor : Sensor) : Word16 :=
  match control.params sensor with
  | none => 0
  | some params => params.computeDutyCycle control.dutyCyclePwm (temps sensor) fanSpeed

/-- `ComputeDutyCycle`. -/
def FanControl.computeDutyCycle : Word16 :=
  let duty (sensor : Sensor) := control.sensorDutyCycle temps fanSpeed sensor
  let newDutyCyclePwm := if duty .soc > duty .hdd then duty .soc else duty .hdd
  if newDutyCyclePwm > duty .aux1 then newDutyCyclePwm else duty .aux1

end DutyCycles

section Driving

/-- The controller, and the duty cycle that the mailbox holds: the last one that was written. -/
structure Fan where
  control : FanControl
  mailbox : Word16

namespace Fan

variable (fan : Fan)

/-- A write replaces what the mailbox holds, when it succeeds. -/
def writeFanDutyCycle (dutyCycle : Word16) (succeeds : Bool) : Bool × Fan :=
  (succeeds, if succeeds then { fan with mailbox := dutyCycle } else fan)

/-- What comes last in `Init`: a mailbox that can be read has the duty cycle. -/
def init (soc : FanControlParams) (readable : Bool) : Fan :=
  { fan with
    control := { fan.control with
      dutyCyclePwm := if readable then fan.mailbox else soc.dutyCycleMin } }

def drivePwm (dutyCycle : Word16) (succeeds : Bool) : Bool × Fan :=
  let fan := { fan with control := { fan.control with dutyCyclePwm := dutyCycle } }
  match fan.writeFanDutyCycle dutyCycle succeeds with
  | (false, fan) => (false, fan)
  | (true, fan) =>
      let state : StateType :=
        if dutyCycle = 0 then .off
        else if dutyCycle.toNat = fan.control.period.toNat + 1 then .fullSpeed
        else .varSpeed
      (true, { fan with control := { fan.control with state := state } })

end Fan

/-- A call of `AdjustSpeed`, and which of its writes succeed. -/
structure Call where
  temps : Sensor → Word16
  fanSpeed : Word16
  first : Bool
  second : Bool

namespace Fan

variable (fan : Fan) (call : Call)

def newDutyCycle : Word16 :=
  fan.control.computeDutyCycle call.temps call.fanSpeed

/-- The fan has to start: it is given a push before it gets its duty cycle. -/
def Starts : Prop :=
  call.fanSpeed = kFanSpeedNotSpinning ∧ fan.newDutyCycle call > fan.control.dutyCyclePwm

instance : Decidable (fan.Starts call) :=
  inferInstanceAs (Decidable (_ ∧ _))

def adjustSpeed : Bool × Fan :=
  let newDutyCyclePwm := fan.newDutyCycle call
  if newDutyCyclePwm ≠ fan.control.dutyCyclePwm then
    if fan.Starts call then
      match fan.drivePwm kPwmDefaultStartup call.first with
      | (false, fan) => (false, fan)
      | (true, fan) => fan.drivePwm newDutyCyclePwm call.second
    else fan.drivePwm newDutyCyclePwm call.first
  else (true, fan)

def Step (next : Fan) : Prop :=
  next = (fan.adjustSpeed call).2

end Fan

end Driving

end Gfiber.Sysmgr
