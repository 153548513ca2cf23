import Gfiber.Sysmgr.DutyCycleProperties

/-! When the duty cycle that is remembered is the one that was written. It is remembered before it
is written, and a write that fails is not made again while the same duty cycle is computed. -/

set_option autoImplicit false

namespace Gfiber.Sysmgr

open Lib

section Writes

namespace Fan

variable (fan : Fan) (call : Call)

theorem drivePwm_eq (dutyCycle : Word16) (succeeds : Bool) :
    (fan.drivePwm dutyCycle succeeds).1 = succeeds ∧
      (fan.drivePwm dutyCycle succeeds).2.control.dutyCyclePwm = dutyCycle ∧
      (fan.drivePwm dutyCycle succeeds).2.mailbox = if succeeds then dutyCycle else fan.mailbox := by
  cases succeeds with
  | false => exact ⟨rfl, rfl, rfl⟩
  | true => exact ⟨rfl, rfl, rfl⟩

/-- What is remembered is what the mailbox holds. -/
def Matches : Prop :=
  fan.control.dutyCyclePwm = fan.mailbox

/-- The last write that the call tries succeeds, or there is none, or it would have changed nothing. -/
def Settles : Prop :=
  if fan.newDutyCycle call = fan.control.dutyCyclePwm then True
  else if fan.Starts call then
    if call.first then call.second = true ∨ fan.newDutyCycle call = kPwmDefaultStartup
    else fan.control.dutyCyclePwm = kPwmDefaultStartup
  else call.first = true

variable {fan call}

/-- A mailbox that can be read at the start gives what it holds. -/
theorem init_matches (fan : Fan) (soc : FanControlParams) : (fan.init soc true).Matches := rfl

theorem adjustSpeed_same (same : fan.newDutyCycle call = fan.control.dutyCyclePwm) :
    (fan.adjustSpeed call).2 = fan := by
  unfold adjustSpeed
  dsimp only
  rw [if_neg (not_not.mpr same)]

theorem adjustSpeed_plain (other : fan.newDutyCycle call ≠ fan.control.dutyCyclePwm)
    (running : ¬fan.Starts call) :
    (fan.adjustSpeed call).2 = (fan.drivePwm (fan.newDutyCycle call) call.first).2 := by
  unfold adjustSpeed
  dsimp only
  rw [if_pos other, if_neg running]

theorem adjustSpeed_starts (other : fan.newDutyCycle call ≠ fan.control.dutyCyclePwm)
    (starts : fan.Starts call) :
    (fan.adjustSpeed call).2 =
      if call.first then
        ((fan.drivePwm kPwmDefaultStartup true).2.drivePwm (fan.newDutyCycle call) call.second).2
      else (fan.drivePwm kPwmDefaultStartup false).2 := by
  unfold adjustSpeed
  dsimp only
  rw [if_pos other, if_pos starts]
  cases call.first with
  | false => rfl
  | true => rfl

/-- One call from a state that matches. -/
theorem matches_adjustSpeed_iff (held : fan.Matches) :
    (fan.adjustSpeed call).2.Matches ↔ fan.Settles call := by
  unfold Settles
  by_cases same : fan.newDutyCycle call = fan.control.dutyCyclePwm
  · rw [if_pos same, adjustSpeed_same same]
    exact iff_true_intro held
  · rw [if_neg same]
    unfold Matches at *
    by_cases starts : fan.Starts call
    · rw [if_pos starts, adjustSpeed_starts same starts]
      cases call.first with
      | false =>
          obtain ⟨-, remembered, written⟩ := fan.drivePwm_eq kPwmDefaultStartup false
          simp only [Bool.false_eq_true, if_false]
          rw [remembered, written, ← held]
          exact eq_comm
      | true =>
          obtain ⟨-, -, pushed⟩ := fan.drivePwm_eq kPwmDefaultStartup true
          obtain ⟨-, remembered, written⟩ := (fan.drivePwm kPwmDefaultStartup true).2.drivePwm_eq
            (fan.newDutyCycle call) call.second
          simp only [if_true]
          rw [remembered, written, pushed]
          cases call.second with
          | false => simp
          | true => simp
    · rw [if_neg starts, adjustSpeed_plain same starts]
      obtain ⟨-, remembered, written⟩ := fan.drivePwm_eq (fan.newDutyCycle call) call.first
      rw [remembered, written]
      cases call.first with
      | true => simp
      | false =>
          rw [held] at same
          simpa using same

/-- From a state that matches, a call whose writes succeed leaves its duty cycle in the mailbox,
whatever failed before it. -/
theorem mailbox_adjustSpeed (held : fan.Matches) (first : call.first = true)
    (second : call.second = true) : (fan.adjustSpeed call).2.mailbox = fan.newDutyCycle call := by
  by_cases same : fan.newDutyCycle call = fan.control.dutyCyclePwm
  · rw [adjustSpeed_same same, same]
    exact held.symm
  · by_cases starts : fan.Starts call
    · rw [adjustSpeed_starts same starts, first, second]
      rfl
    · rw [adjustSpeed_plain same starts, first]
      rfl

end Fan

end Writes

section Runs

namespace Fan

/-- In a run from a state that matches, every state matches just when every call settles. Then
a call whose writes succeed leaves its duty cycle in the mailbox. -/
theorem adjustSpeed_matches_iff {start finish : Fan} {trace : List (Fan × Call)}
    (run : Run Step start trace finish) (held : start.Matches) :
    (Throughout Matches trace finish ↔ StepsMeet Settles trace) ∧
      (StepsMeet Settles trace → ∀ call : Call, call.first = true → call.second = true →
        (finish.adjustSpeed call).2.mailbox = finish.newDutyCycle call) := by
  have matching : Throughout Matches trace finish ↔ StepsMeet Settles trace := by
    apply run.throughout_iff_met held
    · intro state held
      exact held
    · intro state call next held settles step
      rw [step]
      exact (matches_adjustSpeed_iff held).mpr settles
    · intro state call next held step after
      rw [step] at after
      exact (matches_adjustSpeed_iff held).mp after
  exact ⟨matching, fun settles _ => mailbox_adjustSpeed (matching.mpr settles).2⟩

def ofSoc (dutyCycle : Word16) : Fan where
  control := .ofSoc FanControl.kGFRG200FanCtrlSocDefaults dutyCycle
  mailbox := dutyCycle

/-- The sensor reads 90 degrees, and the fan turns. -/
def warmCall (succeeds : Bool) : Call where
  temps := fun _ => 90
  fanSpeed := 2000
  first := succeeds
  second := succeeds

theorem adjustSpeed_matches_warm :
    ∃ trace finish, trace.map Prod.snd = [warmCall true, warmCall true] ∧
      Run Step (ofSoc 40) trace finish ∧ StepsMeet Settles trace ∧
      Throughout Matches trace finish ∧
      (finish.adjustSpeed (warmCall true)).2.mailbox = finish.newDutyCycle (warmCall true) := by
  have run : Run Step (ofSoc 40) (traceOf (fun fan call => (fan.adjustSpeed call).2) (ofSoc 40)
      [warmCall true, warmCall true]) _ := Run.of_labels _ _ fun _ _ _ => rfl
  obtain ⟨matching, written⟩ := adjustSpeed_matches_iff run rfl
  have settles : StepsMeet Settles (traceOf (fun fan call => (fan.adjustSpeed call).2) (ofSoc 40)
      [warmCall true, warmCall true]) := by
    intro entry member
    simp only [traceOf, List.mem_cons, List.not_mem_nil, or_false] at member
    rcases member with rfl | rfl
    · unfold Settles
      decide +kernel
    · unfold Settles
      decide +kernel
  exact ⟨_, _, labels_traceOf _ _ _, run, settles, matching.mpr settles,
    written settles (warmCall true) rfl rfl⟩

/-- A duty cycle of 41 percent is remembered that was not written. -/
theorem adjustSpeed_forgets :
    ¬∀ (start finish : Fan) (trace : List (Fan × Call)), Run Step start trace finish →
      start.Matches → Throughout Matches trace finish := by
  intro alwaysMatches
  have step : Step (ofSoc 40) (warmCall false) ((ofSoc 40).adjustSpeed (warmCall false)).2 := rfl
  have after := (alwaysMatches _ _ _ (Run.nil.snoc step) rfl).2
  have remembered : ((ofSoc 40).adjustSpeed (warmCall false)).2.control.dutyCyclePwm = 41 := by
    decide
  have written : ((ofSoc 40).adjustSpeed (warmCall false)).2.mailbox = 40 := by decide
  unfold Matches at after
  rw [remembered, written] at after
  exact absurd after (by decide)

end Fan

end Runs

end Gfiber.Sysmgr
