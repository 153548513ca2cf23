import Mathlib.Algebra.Group.Int.Defs
import Mathlib.Algebra.Group.Nat.Defs
import Mathlib.Tactic.SplitIfs
import Gfiber.Sysmgr.FanControl

/-! When more heat never means less fan. A reading lies in one of four bands, and the duty cycle of
a sensor depends on its band alone. A fan that stands still is started again from the least duty
cycle, which may be less than the present one. -/

set_option autoImplicit false

namespace Gfiber.Sysmgr

section Bands

/-- Where a reading lies, from cold to hot. -/
inductive Band where
  | low
  | keep
  | high
  | beyond
deriving DecidableEq, Repr

def Band.rank : Band → Nat
  | .low => 0
  | .keep => 1
  | .high => 2
  | .beyond => 3

namespace FanControlParams

variable (params : FanControlParams) (duty temp fanSpeed : Word16)

def band : Band :=
  if params.tempMax < temp then .beyond
  else if params.Above temp then .high
  else if params.Below temp then .low
  else .keep

def raised : Word16 :=
  if fanSpeed = kFanSpeedNotSpinning then params.dutyCycleMin
  else if duty < params.dutyCycleMax then
    if params.dutyCycleMax < duty + params.pwmStep then params.dutyCycleMax
    else duty + params.pwmStep
  else duty

def lowered : Word16 :=
  if fanSpeed = kFanSpeedNotSpinning ∨ duty < params.pwmStep then kPwmMinValue
  else duty - params.pwmStep

def dutyCycleIn : Band → Word16
  | .beyond => params.dutyCycleMax
  | .high => params.raised duty fanSpeed
  | .keep => duty
  | .low => params.lowered duty fanSpeed

theorem computeDutyCycle_band :
    params.computeDutyCycle duty temp fanSpeed = params.dutyCycleIn duty fanSpeed (params.band temp) := by
  unfold computeDutyCycle band
  split
  · rfl
  · split
    · rfl
    · split <;> rfl

theorem rank_band : (params.band temp).rank =
    if params.tempMax < temp then 3
    else if params.Above temp then 2
    else if params.Below temp then 0
    else 1 := by
  unfold band
  split
  · rfl
  · split
    · rfl
    · split <;> rfl

theorem band_rises {cooler hotter : Word16} (rises : cooler ≤ hotter) :
    (params.band cooler).rank ≤ (params.band hotter).rank := by
  have heat : cooler.toNat ≤ hotter.toNat := rises
  have beyond (beyond : params.tempMax < cooler) : params.tempMax < hotter := by bv_omega
  have above (above : params.Above cooler) : params.Above hotter := by
    unfold Above at *
    omega
  have below (below : params.Below hotter) : params.Below cooler := by
    unfold Below at *
    omega
  rw [rank_band, rank_band]
  grind

/-- The table is in order. -/
structure Ordered : Prop where
  duty : params.dutyCycleMin ≤ params.dutyCycleMax
  temp : params.tempSetpt.toNat + params.tempStep.toNat ≤ params.tempMax.toNat

/-- There is a band in which the duty cycle is raised step by step. -/
def Raises : Prop :=
  params.tempSetpt.toNat + params.tempStep.toNat < params.tempMax.toNat

/-- There is a reading for which a fan that stands still gets less than the duty cycle. -/
def Lowers : Prop :=
  params.tempStep < params.tempSetpt ∨ params.Raises ∧ params.dutyCycleMin < duty

/-- The next step up does not wrap. -/
def Steps : Prop :=
  params.Raises → duty < params.dutyCycleMax → duty.toNat + params.pwmStep.toNat < 2 ^ 16

variable {params duty temp fanSpeed}

theorem raises_of_high (band : params.band temp = .high) : params.Raises := by
  unfold FanControlParams.band at band
  split at band
  case isTrue => cases band
  case isFalse below =>
    split at band
    case isFalse =>
      split at band <;> cases band
    case isTrue above =>
      have most : ¬params.tempMax.toNat < temp.toNat := below
      unfold Above at above
      unfold Raises
      omega

theorem lowered_le : params.lowered duty fanSpeed ≤ duty := by
  unfold lowered
  split
  case isTrue => exact Nat.zero_le _
  case isFalse apart =>
    have enough : ¬duty < params.pwmStep := fun less => apart (.inr less)
    bv_omega

theorem raised_spinning (limit : duty ≤ params.dutyCycleMax)
    (spins : fanSpeed ≠ kFanSpeedNotSpinning)
    (fits : duty < params.dutyCycleMax → duty.toNat + params.pwmStep.toNat < 2 ^ 16) :
    duty ≤ params.raised duty fanSpeed ∧ params.raised duty fanSpeed ≤ params.dutyCycleMax := by
  unfold raised
  rw [if_neg spins]
  split
  case isTrue below =>
    have sum := fits below
    split
    case isTrue => exact ⟨limit, BitVec.le_refl _⟩
    case isFalse => bv_omega
  case isFalse => exact ⟨BitVec.le_refl _, limit⟩

/-- What lies in order from band to band, is in order for any two. -/
theorem dutyCycleIn_rises {cooler hotter : Band}
    (raised : hotter = .high ∨ cooler = .high → duty ≤ params.raised duty fanSpeed ∧
      params.raised duty fanSpeed ≤ params.dutyCycleMax)
    (limit : duty ≤ params.dutyCycleMax) (rises : cooler.rank ≤ hotter.rank) :
    params.dutyCycleIn duty fanSpeed cooler ≤ params.dutyCycleIn duty fanSpeed hotter := by
  have lowered : params.lowered duty fanSpeed ≤ duty := lowered_le
  cases cooler with
  | low =>
      cases hotter with
      | low => exact BitVec.le_refl _
      | keep => exact lowered
      | high => exact BitVec.le_trans lowered (raised (.inl rfl)).1
      | beyond => exact BitVec.le_trans lowered limit
  | keep =>
      cases hotter with
      | low => simp [Band.rank] at rises
      | keep => exact BitVec.le_refl _
      | high => exact (raised (.inl rfl)).1
      | beyond => exact limit
  | high =>
      cases hotter with
      | low | keep => simp [Band.rank] at rises
      | high => exact BitVec.le_refl _
      | beyond => exact (raised (.inr rfl)).2
  | beyond =>
      cases hotter with
      | low | keep | high => simp [Band.rank] at rises
      | beyond => exact BitVec.le_refl _

/-- More heat means less only for a fan that stands still, which is started again. -/
theorem computeDutyCycle_rises (ordered : params.Ordered) (limit : duty ≤ params.dutyCycleMax)
    (steps : fanSpeed ≠ kFanSpeedNotSpinning → params.Steps duty) {cooler hotter : Word16}
    (rises : cooler ≤ hotter) :
    params.computeDutyCycle duty cooler fanSpeed ≤ params.computeDutyCycle duty hotter fanSpeed ∨
      fanSpeed = kFanSpeedNotSpinning ∧ params.Raises ∧ params.dutyCycleMin < duty ∧
        params.computeDutyCycle duty cooler fanSpeed ≤ duty := by
  rw [computeDutyCycle_band, computeDutyCycle_band]
  have bands := params.band_rises rises
  by_cases stands : fanSpeed = kFanSpeedNotSpinning
  · have restarted : params.raised duty fanSpeed = params.dutyCycleMin := if_pos stands
    by_cases restarts : params.Raises ∧ params.dutyCycleMin < duty
    · cases band : params.band cooler with
      | low => exact .inr ⟨stands, restarts.1, restarts.2, lowered_le⟩
      | keep => exact .inr ⟨stands, restarts.1, restarts.2, BitVec.le_refl _⟩
      | high =>
          have less : params.raised duty fanSpeed ≤ duty := by
            rw [restarted]
            exact BitVec.le_of_lt restarts.2
          exact .inr ⟨stands, restarts.1, restarts.2, less⟩
      | beyond =>
          rw [band] at bands
          left
          refine dutyCycleIn_rises (fun high => ?_) limit bands
          cases high with
          | inl hotter => simp [hotter, Band.rank] at bands
          | inr cooler => cases cooler
    · left
      refine dutyCycleIn_rises (fun high => ?_) limit bands
      have raises : params.Raises := by
        cases high with
        | inl hotter => exact raises_of_high hotter
        | inr cooler => exact raises_of_high cooler
      have enough : ¬params.dutyCycleMin < duty := fun less => restarts ⟨raises, less⟩
      rw [restarted]
      exact ⟨BitVec.not_lt.mp enough, ordered.duty⟩
  · left
    refine dutyCycleIn_rises (fun high => raised_spinning limit stands (steps stands ?_)) limit bands
    cases high with
    | inl hotter => exact raises_of_high hotter
    | inr cooler => exact raises_of_high cooler

theorem band_keep (ordered : params.Ordered) : params.band params.tempSetpt = .keep := by
  have temp := ordered.temp
  have beyond : ¬params.tempMax < params.tempSetpt := by bv_omega
  have above : ¬params.Above params.tempSetpt := by
    unfold Above
    omega
  have below : ¬params.Below params.tempSetpt := by
    unfold Below
    omega
  unfold band
  rw [if_neg beyond, if_neg above, if_neg below]

theorem band_high (raises : params.Raises) : params.band params.tempMax = .high := by
  have beyond : ¬params.tempMax < params.tempMax := BitVec.lt_irrefl _
  have above : params.Above params.tempMax := raises
  unfold band
  rw [if_neg beyond, if_pos above]

theorem band_low (less : params.tempStep < params.tempSetpt) : params.band 0 = .low := by
  have zero : (0 : Word16).toNat = 0 := rfl
  have beyond : ¬params.tempMax < 0 := by bv_omega
  have above : ¬params.Above 0 := by
    unfold Above
    omega
  have below : params.Below 0 := by
    unfold Below
    bv_omega
  unfold band
  rw [if_neg beyond, if_neg above, if_pos below]

/-- A reading for which a fan that stands still gets less. -/
theorem Lowers.exists_reading (lowers : params.Lowers duty) (some_duty : 0 < duty) :
    ∃ temp, params.computeDutyCycle duty temp kFanSpeedNotSpinning < duty := by
  cases lowers with
  | inl less =>
      refine ⟨0, ?_⟩
      rw [computeDutyCycle_band, band_low less]
      exact some_duty
  | inr restarts =>
      refine ⟨params.tempMax, ?_⟩
      rw [computeDutyCycle_band, band_high restarts.1]
      exact restarts.2

/-- Without such a reading it always gets at least the present duty cycle. -/
theorem le_computeDutyCycle_standing (limit : duty ≤ params.dutyCycleMax)
    (kept : ¬params.Lowers duty) :
    duty ≤ params.computeDutyCycle duty temp kFanSpeedNotSpinning := by
  rw [computeDutyCycle_band]
  cases band : params.band temp with
  | beyond => exact limit
  | keep => exact BitVec.le_refl _
  | high =>
      have enough : ¬params.dutyCycleMin < duty := fun less =>
        kept (.inr ⟨raises_of_high band, less⟩)
      exact BitVec.not_lt.mp enough
  | low =>
      exfalso
      unfold FanControlParams.band at band
      split at band
      case isTrue => cases band
      case isFalse =>
        split at band
        case isTrue => cases band
        case isFalse =>
          split at band
          case isFalse => cases band
          case isTrue below =>
            apply kept
            left
            unfold Below at below
            bv_omega

theorem assigned_fits (steps : fanSpeed ≠ kFanSpeedNotSpinning → params.Steps duty) :
    ∀ value ∈ params.assigned duty temp fanSpeed, 0 ≤ value ∧ value < 2 ^ 16 := by
  intro value member
  unfold assigned at member
  split at member
  case isTrue => cases member
  case isFalse beyond =>
    split at member
    case isTrue above =>
      split at member
      case isTrue => cases member
      case isFalse spins =>
        split at member
        case isFalse => cases member
        case isTrue below =>
          have high : params.band temp = .high := by
            unfold FanControlParams.band
            rw [if_neg beyond, if_pos above]
          have sum := steps spins (raises_of_high high) below
          rw [List.mem_singleton.mp member]
          omega
    case isFalse =>
      split at member
      case isFalse => cases member
      case isTrue =>
        split at member
        case isTrue => cases member
        case isFalse apart =>
          have enough : ¬duty < params.pwmStep := fun less => apart (.inr less)
          rw [List.mem_singleton.mp member]
          bv_omega

end FanControlParams

end Bands

section Sensors

namespace FanControl

variable {control : FanControl} {temps : Sensor → Word16} {fanSpeed : Word16}

theorem sensor_le (sensor : Sensor) :
    control.sensorDutyCycle temps fanSpeed sensor ≤ control.computeDutyCycle temps fanSpeed := by
  unfold computeDutyCycle
  dsimp only
  cases sensor with
  | soc => split_ifs <;> bv_omega
  | hdd => split_ifs <;> bv_omega
  | aux1 => split_ifs <;> bv_omega

theorem exists_sensor (control : FanControl) (temps : Sensor → Word16) (fanSpeed : Word16) :
    ∃ sensor, control.computeDutyCycle temps fanSpeed =
      control.sensorDutyCycle temps fanSpeed sensor := by
  unfold computeDutyCycle
  dsimp only
  split_ifs
  · exact ⟨.soc, rfl⟩
  · exact ⟨.aux1, rfl⟩
  · exact ⟨.hdd, rfl⟩
  · exact ⟨.aux1, rfl⟩

theorem sensorDutyCycle_some {sensor : Sensor} {params : FanControlParams}
    (there : control.params sensor = some params) :
    control.sensorDutyCycle temps fanSpeed sensor =
      params.computeDutyCycle control.dutyCyclePwm (temps sensor) fanSpeed := by
  unfold sensorDutyCycle
  rw [there]

theorem sensorDutyCycle_update {sensor other : Sensor} (apart : other ≠ sensor) (hotter : Word16) :
    control.sensorDutyCycle (Function.update temps sensor hotter) fanSpeed other =
      control.sensorDutyCycle temps fanSpeed other := by
  unfold sensorDutyCycle
  rw [Function.update_of_ne apart]

variable (control fanSpeed)

/-- More heat at a sensor never means less, and too much of it means as much as that sensor may
ask for. No value is cut. -/
structure Reliable : Prop where
  rises : ∀ (temps : Sensor → Word16) sensor hotter, temps sensor ≤ hotter →
    control.computeDutyCycle temps fanSpeed ≤
      control.computeDutyCycle (Function.update temps sensor hotter) fanSpeed
  full : ∀ (temps : Sensor → Word16) sensor params, control.params sensor = some params →
    params.tempMax < temps sensor →
    params.dutyCycleMax ≤ control.computeDutyCycle temps fanSpeed
  fits : ∀ (temps : Sensor → Word16) sensor params, control.params sensor = some params →
    ∀ value ∈ params.assigned control.dutyCyclePwm (temps sensor) fanSpeed,
      0 ≤ value ∧ value < 2 ^ 16

/-- The tables are in order, and the duty cycle is one that they allow. -/
def Tabled : Prop :=
  ∀ sensor params, control.params sensor = some params →
    params.Ordered ∧ control.dutyCyclePwm ≤ params.dutyCycleMax

/-- The step up of a fan that turns does not wrap. A fan that stands still has no more than what it
is started with, or another sensor never asks for less. -/
structure Fine : Prop where
  turning : fanSpeed ≠ kFanSpeedNotSpinning → ∀ sensor params, control.params sensor = some params →
    params.Steps control.dutyCyclePwm
  standing : fanSpeed = kFanSpeedNotSpinning → ∀ sensor params,
    control.params sensor = some params → params.Raises →
    params.dutyCycleMin < control.dutyCyclePwm →
    ∃ other ≠ sensor, ∃ params, control.params other = some params ∧
      ¬params.Lowers control.dutyCyclePwm

variable {control fanSpeed}

theorem Fine.rises (tabled : control.Tabled) (fine : control.Fine fanSpeed) (sensor : Sensor)
    {hotter : Word16} (heat : temps sensor ≤ hotter) :
    control.computeDutyCycle temps fanSpeed ≤
      control.computeDutyCycle (Function.update temps sensor hotter) fanSpeed := by
  obtain ⟨asked, same⟩ := exists_sensor control temps fanSpeed
  rw [same]
  by_cases apart : asked = sensor
  · subst apart
    cases there : control.params asked with
    | none =>
        unfold sensorDutyCycle
        rw [there]
        exact Nat.zero_le _
    | some params =>
        obtain ⟨ordered, limit⟩ := tabled asked params there
        have after : control.sensorDutyCycle (Function.update temps asked hotter) fanSpeed asked =
            params.computeDutyCycle control.dutyCyclePwm hotter fanSpeed := by
          rw [sensorDutyCycle_some there, Function.update_self]
        have most : control.sensorDutyCycle (Function.update temps asked hotter) fanSpeed asked ≤
            control.computeDutyCycle (Function.update temps asked hotter) fanSpeed := sensor_le asked
        rw [after] at most
        rw [sensorDutyCycle_some there]
        cases FanControlParams.computeDutyCycle_rises ordered limit
            (fun spins => fine.turning spins asked params there) heat with
        | inl more => exact BitVec.le_trans more most
        | inr restarted =>
            obtain ⟨stands, raises, less, bounded⟩ := restarted
            obtain ⟨other, -, others, found, kept⟩ :=
              fine.standing stands asked params there raises less
            subst stands
            have enough : control.dutyCyclePwm ≤ others.computeDutyCycle control.dutyCyclePwm
                (Function.update temps asked hotter other) kFanSpeedNotSpinning :=
              FanControlParams.le_computeDutyCycle_standing (tabled other others found).2 kept
            rw [← sensorDutyCycle_some found] at enough
            exact BitVec.le_trans bounded (BitVec.le_trans enough (sensor_le other))
  · rw [← sensorDutyCycle_update apart hotter]
    exact sensor_le asked

theorem full (temps : Sensor → Word16) (fanSpeed : Word16)
    {sensor : Sensor} {params : FanControlParams} (there : control.params sensor = some params)
    (beyond : params.tempMax < temps sensor) :
    params.dutyCycleMax ≤ control.computeDutyCycle temps fanSpeed := by
  have most : control.sensorDutyCycle temps fanSpeed sensor ≤
      control.computeDutyCycle temps fanSpeed := sensor_le sensor
  rw [sensorDutyCycle_some there] at most
  unfold FanControlParams.computeDutyCycle at most
  rw [if_pos beyond] at most
  exact most

theorem Reliable.turning (reliable : control.Reliable fanSpeed)
    (spins : fanSpeed ≠ kFanSpeedNotSpinning) {sensor : Sensor} {params : FanControlParams}
    (there : control.params sensor = some params) : params.Steps control.dutyCyclePwm := by
  intro raises below
  have beyond : ¬params.tempMax < params.tempMax := BitVec.lt_irrefl _
  have above : params.Above params.tempMax := raises
  have assigned : params.assigned control.dutyCyclePwm params.tempMax fanSpeed =
      [(control.dutyCyclePwm.toNat + params.pwmStep.toNat : Int)] := by
    unfold FanControlParams.assigned
    rw [if_neg beyond, if_pos above, if_neg spins, if_pos below]
  have fits := (reliable.fits (fun _ => params.tempMax) sensor params there _
    (by rw [assigned]; exact List.mem_singleton_self _)).2
  omega

/-- A reading of the other sensors for which they all ask for less. -/
theorem exists_readings (less : ∀ sensor params, control.params sensor = some params →
      params.Lowers control.dutyCyclePwm) (some_duty : 0 < control.dutyCyclePwm) :
    ∃ temps : Sensor → Word16, ∀ sensor,
      control.sensorDutyCycle temps kFanSpeedNotSpinning sensor < control.dutyCyclePwm := by
  have each (sensor : Sensor) : ∃ temp, ∀ params, control.params sensor = some params →
      params.computeDutyCycle control.dutyCyclePwm temp kFanSpeedNotSpinning <
        control.dutyCyclePwm := by
    cases there : control.params sensor with
    | none => exact ⟨0, fun params impossible => by cases impossible⟩
    | some params =>
        obtain ⟨temp, lower⟩ := (less sensor params there).exists_reading some_duty
        refine ⟨temp, fun other same => ?_⟩
        cases same
        exact lower
  choose temps lower using each
  refine ⟨temps, fun sensor => ?_⟩
  cases there : control.params sensor with
  | none =>
      unfold sensorDutyCycle
      rw [there]
      exact some_duty
  | some params =>
      rw [sensorDutyCycle_some there]
      exact lower sensor params there

theorem Reliable.standing (tabled : control.Tabled)
    (reliable : control.Reliable kFanSpeedNotSpinning) {sensor : Sensor} {params : FanControlParams}
    (there : control.params sensor = some params) (raises : params.Raises)
    (less : params.dutyCycleMin < control.dutyCyclePwm) :
    ∃ other ≠ sensor, ∃ params, control.params other = some params ∧
      ¬params.Lowers control.dutyCyclePwm := by
  by_contra none
  have all (other : Sensor) (others : FanControlParams) (found : control.params other = some others) :
      others.Lowers control.dutyCyclePwm := by
    by_cases same : other = sensor
    · subst same
      cases there.symm.trans found
      exact .inr ⟨raises, less⟩
    · by_contra kept
      exact none ⟨other, same, others, found, kept⟩
  have some_duty : 0 < control.dutyCyclePwm := by bv_omega
  obtain ⟨ordered, limit⟩ := tabled sensor params there
  obtain ⟨temps, lower⟩ := exists_readings all some_duty
  -- From the set point, where nothing changes, up to the last reading at which the fan is restarted.
  have heat : Function.update temps sensor params.tempSetpt sensor ≤ params.tempMax := by
    have temp := ordered.temp
    rw [Function.update_self]
    bv_omega
  have rises := reliable.rises (Function.update temps sensor params.tempSetpt) sensor params.tempMax heat
  rw [Function.update_idem] at rises
  have before : control.dutyCyclePwm ≤
      control.computeDutyCycle (Function.update temps sensor params.tempSetpt) kFanSpeedNotSpinning := by
    have most : control.sensorDutyCycle (Function.update temps sensor params.tempSetpt)
        kFanSpeedNotSpinning sensor ≤ _ := sensor_le sensor
    rw [sensorDutyCycle_some there, Function.update_self,
      FanControlParams.computeDutyCycle_band, FanControlParams.band_keep ordered] at most
    exact most
  obtain ⟨asked, same⟩ :=
    exists_sensor control (Function.update temps sensor params.tempMax) kFanSpeedNotSpinning
  have after : control.sensorDutyCycle (Function.update temps sensor params.tempMax)
      kFanSpeedNotSpinning asked < control.dutyCyclePwm := by
    by_cases apart : asked = sensor
    · subst apart
      rw [sensorDutyCycle_some there, Function.update_self,
        FanControlParams.computeDutyCycle_band, FanControlParams.band_high raises]
      exact less
    · rw [sensorDutyCycle_update apart]
      exact lower asked
  rw [same] at rises
  exact BitVec.not_lt.mpr (BitVec.le_trans before rises) after

variable (fanSpeed) in
/-- For tables in order and a duty cycle within them, the duty cycle that is computed is reliable
just when the step up does not wrap and no restart takes some of it away. -/
theorem computeDutyCycle_reliable_iff (tabled : control.Tabled) :
    control.Reliable fanSpeed ↔ control.Fine fanSpeed := by
  constructor
  · intro reliable
    constructor
    · intro spins sensor params there
      exact reliable.turning spins there
    · intro stands sensor params there raises less
      subst stands
      exact reliable.standing tabled there raises less
  · intro fine
    constructor
    · intro temps sensor hotter heat
      exact fine.rises tabled sensor heat
    · intro temps sensor params there beyond
      exact full temps fanSpeed there beyond
    · intro temps sensor params there
      exact FanControlParams.assigned_fits fun spins => fine.turning spins sensor params there

/-- A platform with one sensor. -/
def ofSoc (soc : FanControlParams) (dutyCyclePwm : Word16) : FanControl where
  state := .varSpeed
  dutyCyclePwm := dutyCyclePwm
  period := 99
  params := fun sensor =>
    match sensor with
    | .soc => some soc
    | _ => none

theorem tabled_ofSoc {soc : FanControlParams} {duty : Word16} (ordered : soc.Ordered)
    (limit : duty ≤ soc.dutyCycleMax) : (ofSoc soc duty).Tabled := by
  intro sensor params there
  cases sensor with
  | soc =>
      cases there
      exact ⟨ordered, limit⟩
  | hdd => cases there
  | aux1 => cases there

def kGFRG200FanCtrlSocDefaults : FanControlParams where
  tempSetpt := 82
  tempMax := 92
  tempStep := 2
  dutyCycleMin := 30
  dutyCycleMax := 100
  pwmStep := 1

theorem computeDutyCycle_reliable_turning :
    (ofSoc kGFRG200FanCtrlSocDefaults 40).Fine 2000 ∧
      (ofSoc kGFRG200FanCtrlSocDefaults 40).Reliable 2000 := by
  have fine : (ofSoc kGFRG200FanCtrlSocDefaults 40).Fine 2000 := by
    refine ⟨fun _ sensor params there => ?_, fun stands => absurd stands (by decide)⟩
    cases sensor with
    | soc =>
        cases there
        exact fun _ _ => by decide
    | hdd => cases there
    | aux1 => cases there
  exact ⟨fine, (computeDutyCycle_reliable_iff 2000
    (tabled_ofSoc ⟨by decide, by decide⟩ (by decide))).mpr fine⟩

/-- A fan that stands still at 40 percent gets 30 percent when it becomes hotter. -/
theorem computeDutyCycle_restarts :
    ¬∀ (control : FanControl) (fanSpeed : Word16), control.Tabled → control.Reliable fanSpeed := by
  intro alwaysReliable
  have tabled : (ofSoc kGFRG200FanCtrlSocDefaults 40).Tabled :=
    tabled_ofSoc ⟨by decide, by decide⟩ (by decide)
  have rises := (alwaysReliable _ kFanSpeedNotSpinning tabled).rises (fun _ => 82) .soc 90 (by decide)
  exact absurd rises (by decide)

end FanControl

end Sensors

end Gfiber.Sysmgr
