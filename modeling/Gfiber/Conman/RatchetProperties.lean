import Mathlib.Data.List.Count
import Mathlib.Data.List.FinRange
import Gfiber.Lib.Run
import Gfiber.Conman.Ratchet
import Gfiber.Conman.StatusProperties

/-! The order in which the steps of a ratchet are met, and what its status
shows meanwhile. -/

set_option autoImplicit false

namespace Gfiber.Conman

open Lib

section Logs

variable {last : Nat} (callback : Fin (last + 1) → Bool)

/-- What is logged when a step is met. -/
def metLog (step : Fin (last + 1)) : List (Occurrence (Fin (last + 1))) :=
  [.evaluated step true, .completed step] ++ if callback step then [.callback step] else []

/-- A log after which the first `level` steps are met: each step is evaluated
until it is true, and then the next one. -/
inductive Logged : Nat → List (Occurrence (Fin (last + 1))) → Prop where
  | start : Logged 0 []
  | unmet {log : List (Occurrence (Fin (last + 1)))} {step : Fin (last + 1)}
      (logged : Logged step.val log) : Logged step.val (log ++ [.evaluated step false])
  | met {log : List (Occurrence (Fin (last + 1)))} {step : Fin (last + 1)}
      (logged : Logged step.val log) : Logged (step.val + 1) (log ++ metLog callback step)

/-- Two evaluations in their order: of steps in their order, and of one step
only until it is true. -/
def InSequence : Occurrence (Fin (last + 1)) → Occurrence (Fin (last + 1)) → Prop
  | .evaluated first result, .evaluated second _ => first < second ∨ first = second ∧ result = false
  | _, _ => True

/-- Before a step is evaluated all steps before it are done. -/
def DoneBefore (log : List (Occurrence (Fin (last + 1)))) : Prop :=
  ∀ before step result after, log = before ++ .evaluated step result :: after →
    ∀ earlier < step, .completed earlier ∈ before

variable {callback} {level : Nat} {log : List (Occurrence (Fin (last + 1)))}

theorem Logged.completed_iff (logged : Logged callback level log) (step : Fin (last + 1)) :
    .completed step ∈ log ↔ step.val < level := by
  induction logged with
  | start => simp
  | unmet _ ih => simp [ih]
  | met _ ih =>
      simp only [List.mem_append, ih, metLog, List.mem_cons, Occurrence.completed.injEq,
        List.not_mem_nil, or_false, reduceCtorEq, false_or, Fin.ext_iff]
      split <;> simp <;> omega

theorem Logged.met_iff (logged : Logged callback level log) (step : Fin (last + 1)) :
    .evaluated step true ∈ log ↔ step.val < level := by
  induction logged with
  | start => simp
  | unmet _ ih => simp [ih]
  | met _ ih =>
      simp only [List.mem_append, ih, metLog, List.mem_cons, Occurrence.evaluated.injEq,
        List.not_mem_nil, or_false, reduceCtorEq, and_true, Fin.ext_iff]
      split <;> simp <;> omega

theorem eq_of_evaluated_mem_metLog {current step : Fin (last + 1)} {result : Bool}
    (member : .evaluated step result ∈ metLog callback current) : step = current := by
  unfold metLog at member
  split at member
  · simp at member
    exact member.1
  · simp at member
    exact member.1

theorem Logged.evaluated_le (logged : Logged callback level log) {step : Fin (last + 1)}
    {result : Bool} (member : .evaluated step result ∈ log) :
    step.val ≤ level ∧ (step.val = level → result = false) := by
  induction logged with
  | start => cases member
  | @unmet log current _ ih =>
      rcases List.mem_append.mp member with old | new
      · exact ih old
      · obtain ⟨rfl, rfl⟩ : step = current ∧ result = false := by simpa using new
        exact ⟨le_rfl, fun _ => rfl⟩
  | @met log current _ ih =>
      have bound : step.val ≤ current.val := by
        rcases List.mem_append.mp member with old | new
        · exact (ih old).1
        · rw [eq_of_evaluated_mem_metLog new]
      omega

section Appending

variable {current : Fin (last + 1)} {more : List (Occurrence (Fin (last + 1)))}
  (logged : Logged callback current.val log)
  (own : ∀ step result, .evaluated step result ∈ more → step = current)

include logged own

/-- Evaluations of the current step go on in sequence. -/
theorem Logged.sequence_append (sequence : log.Pairwise InSequence)
    (more_sequence : more.Pairwise InSequence) : (log ++ more).Pairwise InSequence := by
  refine List.pairwise_append.mpr ⟨sequence, more_sequence, ?_⟩
  intro first old second new
  cases first with
  | completed => trivial
  | callback => trivial
  | evaluated step result =>
      cases second with
      | completed => trivial
      | callback => trivial
      | evaluated other again =>
          obtain ⟨bound, unmet⟩ := logged.evaluated_le old
          have same := own other again new
          subst same
          rcases Nat.lt_or_eq_of_le bound with less | same
          · exact .inl less
          · exact .inr ⟨Fin.ext same, unmet same⟩

theorem Logged.doneBefore_append (before : DoneBefore log) : DoneBefore (log ++ more) := by
  intro front step result after whole earlier less
  rcases List.append_eq_append_iff.mp whole with ⟨inside, rfl, rest⟩ | ⟨inside, rfl, rest⟩
  · have same := own step result (rest ▸ by simp)
    subst same
    exact List.mem_append_left _ ((logged.completed_iff earlier).mpr less)
  · cases inside with
    | nil =>
        have same := own step result (by rw [List.nil_append] at rest; simp [← rest])
        subst same
        simpa using (logged.completed_iff earlier).mpr less
    | cons first inside =>
        obtain ⟨rfl, -⟩ := List.cons.inj rest
        exact before front step result inside rfl earlier less

end Appending

theorem Logged.sequence (logged : Logged callback level log) : log.Pairwise InSequence := by
  induction logged with
  | start => exact .nil
  | unmet logged ih => exact logged.sequence_append (by simp) ih (by simp)
  | met logged ih =>
      refine logged.sequence_append (fun _ _ => eq_of_evaluated_mem_metLog) ih ?_
      unfold metLog
      split <;> simp [InSequence]

theorem Logged.doneBefore (logged : Logged callback level log) : DoneBefore log := by
  induction logged with
  | start =>
      intro before step result after whole
      simp at whole
  | unmet logged ih => exact logged.doneBefore_append (by simp) ih
  | met logged ih => exact logged.doneBefore_append (fun _ _ => eq_of_evaluated_mem_metLog) ih

/-- A step that is met has been completed once, and its callback has run once. -/
theorem Logged.callback_count (logged : Logged callback level log) (step : Fin (last + 1)) :
    log.count (.callback step) = if callback step ∧ step.val < level then 1 else 0 := by
  induction logged with
  | start => simp
  | unmet _ ih => simp [ih]
  | @met log current _ ih =>
      rw [List.count_append, ih, metLog]
      by_cases same : step = current
      · subst same
        by_cases called : callback step = true
        · simp [called]
        · simp [called]
      · have apart : step.val ≠ current.val := fun equal => same (Fin.ext equal)
        have later : step.val < current.val + 1 ↔ step.val < current.val := by omega
        by_cases called : callback current = true
        · simp [called, Ne.symm same, later]
        · simp [called, later]

end Logs

section Passes

variable {last : Nat} (env : Surroundings)

/-- The step has been marked done. -/
def Condition.Done (condition : Condition) : Prop :=
  truthy condition.doneAfter = true

theorem truthy_some {time : Rat} (positive : 0 < time) : truthy (some time) = true := by
  simp [truthy, positive.ne']

namespace Ratchet

variable (ratchet : Ratchet last)

/-- The current step and its log change. -/
def touch (condition : Condition) (ticks : Nat)
    (occurrences : List (Occurrence (Fin (last + 1)))) : Ratchet last :=
  { ratchet with
    steps := Function.update ratchet.steps ratchet.currentStep condition
    world :=
      ⟨ratchet.world.ticks + ticks, ratchet.world.evaluations + 1, ratchet.world.log ++ occurrences⟩ }

def current : Condition :=
  ratchet.steps ratchet.currentStep

/-- The current step is found to be met. -/
def meet : Ratchet last :=
  ratchet.touch
    { ratchet.current with
      doneAfter := some ratchet.current.notDoneBefore
      doneBy := some (env.clock ratchet.world.ticks) }
    1 (metLog (fun _ => ratchet.current.callback) ratchet.currentStep)

def expire : Ratchet last :=
  ratchet.touch { ratchet.current with timedOut := true } 1 [.evaluated ratchet.currentStep false]

def wait : Ratchet last :=
  ratchet.touch { ratchet.current with notDoneBefore := env.clock (ratchet.world.ticks + 1) } 2
    [.evaluated ratchet.currentStep false]

/-- What a check of a step that is not done does. -/
inductive Pass : Condition.Checked → Ratchet last → Prop where
  | raisedBefore (timedOut : ratchet.current.timedOut = true) : Pass .timeout ratchet
  | met (inTime : ratchet.current.timedOut = false)
      (result : env.results ratchet.world.evaluations = true) : Pass .done (ratchet.meet env)
  | expired (inTime : ratchet.current.timedOut = false)
      (result : env.results ratchet.world.evaluations = false)
      (late : ratchet.current.startAt + ratchet.current.timeout < env.clock ratchet.world.ticks) :
      Pass .timeout ratchet.expire
  | unmet (inTime : ratchet.current.timedOut = false)
      (result : env.results ratchet.world.evaluations = false)
      (early : ¬ratchet.current.startAt + ratchet.current.timeout <
        env.clock ratchet.world.ticks) :
      Pass .notDone (ratchet.wait env)

theorem checkCurrentStep_pass (unmet : ¬ratchet.current.Done) :
    Pass env ratchet (ratchet.checkCurrentStep env).1 (ratchet.checkCurrentStep env).2 := by
  have not_done : truthy (ratchet.steps ratchet.currentStep).doneAfter = false :=
    Bool.eq_false_iff.mpr unmet
  cases timedOut : (ratchet.steps ratchet.currentStep).timedOut with
  | true =>
      have same : ratchet.checkCurrentStep env = (.timeout, ratchet) := by
        simp [checkCurrentStep, Condition.check, timedOut]
      rw [same]
      exact .raisedBefore timedOut
  | false =>
      cases result : env.results ratchet.world.evaluations with
      | true =>
          have done : ratchet.checkCurrentStep env = (.done, ratchet.meet env) := by
            simp [checkCurrentStep, Condition.check, Condition.evaluate, Condition.markDone,
              Timing.markDone, gettime, timedOut, not_done, result, meet, touch, metLog, current]
            rfl
          rw [done]
          exact .met timedOut result
      | false =>
          by_cases late : (ratchet.steps ratchet.currentStep).startAt +
              (ratchet.steps ratchet.currentStep).timeout < env.clock ratchet.world.ticks
          · have raised : ratchet.checkCurrentStep env = (.timeout, ratchet.expire) := by
              simp [checkCurrentStep, Condition.check, Condition.evaluate, gettime, timedOut,
                not_done, result, late, expire, touch, current]
            rw [raised]
            exact .expired timedOut result late
          · have waits : ratchet.checkCurrentStep env = (.notDone, ratchet.wait env) := by
              simp [checkCurrentStep, Condition.check, Condition.evaluate, gettime, timedOut,
                not_done, result, late, wait, touch, current]
            rw [waits]
            exact .unmet timedOut result late

end Ratchet

end Passes

section Invariants

variable {last : Nat} {env : Surroundings} {spec : Fin (last + 1) → Condition}

/-- How many steps are done. -/
def Ratchet.level (ratchet : Ratchet last) : Nat :=
  if truthy ratchet.doneAfter then last + 1 else ratchet.currentStep.val

/-- The name, the timeout and the callback of a condition are those it was made with. -/
def Condition.SameKind (condition made : Condition) : Prop :=
  condition.name = made.name ∧ condition.timeout = made.timeout ∧
    condition.callback = made.callback

/-- What the steps of a started ratchet are like, however far it is. -/
structure Chained (env : Surroundings) (spec : Fin (last + 1) → Condition)
    (ratchet : Ratchet last) : Prop where
  kind : ∀ step, (ratchet.steps step).SameKind (spec step)
  positive : ∀ step, 0 < (ratchet.steps step).notDoneBefore
  started : (ratchet.steps 0).startAt = env.clock (ratchet.begun + 1)
  chained : ∀ before step : Fin (last + 1), before.val + 1 = step.val →
    step ≤ ratchet.currentStep → (ratchet.steps before).doneBy = some (ratchet.steps step).startAt

/-- The states of a ratchet that has been started. -/
structure Progress (env : Surroundings) (spec : Fin (last + 1) → Condition)
    (ratchet : Ratchet last) : Prop extends Chained env spec ratchet where
  logged : Logged (fun step => (spec step).callback) ratchet.level ratchet.world.log
  done : ∀ step, (ratchet.steps step).Done ↔ step.val < ratchet.level
  final : truthy ratchet.doneAfter = true → ratchet.currentStep = Fin.last last
  late : ∀ step, (ratchet.steps step).timedOut = true → step = ratchet.currentStep ∧
    (ratchet.steps step).startAt + (ratchet.steps step).timeout <
      env.clock (ratchet.world.ticks - 1)

theorem Ratchet.level_eq {ratchet : Ratchet last} (unfinished : truthy ratchet.doneAfter = false) :
    ratchet.level = ratchet.currentStep.val := by
  simp [Ratchet.level, unfinished]

@[simp] theorem Ratchet.touch_steps (ratchet : Ratchet last) (condition : Condition) (ticks : Nat)
    (occurrences : List (Occurrence (Fin (last + 1)))) (step : Fin (last + 1)) :
    (ratchet.touch condition ticks occurrences).steps step =
      if step = ratchet.currentStep then condition else ratchet.steps step :=
  Function.update_apply ..

/-- The current step may get any other times but the one it is measured from. -/
theorem Chained.touch {ratchet : Ratchet last} (chained : Chained env spec ratchet)
    {condition : Condition} (ticks : Nat) (occurrences : List (Occurrence (Fin (last + 1))))
    (kind : condition.SameKind (spec ratchet.currentStep))
    (positive : 0 < condition.notDoneBefore)
    (startAt : condition.startAt = ratchet.current.startAt) :
    Chained env spec (ratchet.touch condition ticks occurrences) := by
  constructor
  · intro step
    rw [Ratchet.touch_steps]
    split
    case isTrue same => exact same ▸ kind
    case isFalse => exact chained.kind step
  · intro step
    rw [Ratchet.touch_steps]
    split
    · exact positive
    · exact chained.positive step
  · rw [Ratchet.touch_steps]
    split
    case isTrue same =>
      rw [startAt, Ratchet.current, ← same]
      exact chained.started
    case isFalse => exact chained.started
  · intro before step next reached
    have earlier : before ≠ ratchet.currentStep := by
      intro same
      have bound : step.val ≤ ratchet.currentStep.val := reached
      rw [← same] at bound
      omega
    rw [Ratchet.touch_steps, if_neg earlier, Ratchet.touch_steps,
      chained.chained before step next reached]
    split
    case isTrue same => rw [startAt, same, Ratchet.current]
    case isFalse => rfl

theorem Ratchet.val_next {ratchet : Ratchet last} (inner : ratchet.currentStep ≠ Fin.last last) :
    (ratchet.currentStep + 1).val = ratchet.currentStep.val + 1 :=
  Fin.val_add_one_of_lt (Fin.lt_last_iff_ne_last.mpr inner)

theorem Ratchet.advance_steps (ratchet : Ratchet last) (step : Fin (last + 1)) :
    (ratchet.advance env).steps step =
      if step = ratchet.currentStep + 1 then
        { ratchet.steps step with
          startAt := ratchet.current.doneBy.getD ratchet.current.startAt }
      else ratchet.steps step := by
  by_cases same : step = ratchet.currentStep + 1
  · subst same
    simp [Ratchet.advance, Ratchet.setStepStatus, Ratchet.current]
  · simp [Ratchet.advance, Ratchet.setStepStatus, same]

/-- The next step is measured from when the current one was done. -/
theorem Chained.advance {ratchet : Ratchet last} (chained : Chained env spec ratchet)
    {now : Rat} (doneBy : ratchet.current.doneBy = some now)
    (inner : ratchet.currentStep ≠ Fin.last last) :
    Chained env spec (ratchet.advance env) := by
  have next := Ratchet.val_next inner
  constructor
  · intro step
    rw [Ratchet.advance_steps]
    split
    · exact chained.kind step
    · exact chained.kind step
  · intro step
    rw [Ratchet.advance_steps]
    split
    · exact chained.positive step
    · exact chained.positive step
  · rw [Ratchet.advance_steps, if_neg]
    · exact chained.started
    · intro zero
      have := congrArg Fin.val zero
      rw [next] at this
      cases this
  · intro before step follows reached
    have bound : step.val ≤ ratchet.currentStep.val + 1 := next ▸ reached
    have earlier : before ≠ ratchet.currentStep + 1 := fun same => by
      have := congrArg Fin.val same
      omega
    rw [Ratchet.advance_steps, if_neg earlier, Ratchet.advance_steps]
    split
    case isTrue same =>
      have current : before = ratchet.currentStep := Fin.ext (by
        have := congrArg Fin.val same
        omega)
      subst current
      rw [doneBy]
      exact doneBy
    case isFalse other =>
      have apart : step.val ≠ ratchet.currentStep.val + 1 := fun same =>
        other (Fin.ext (same.trans next.symm))
      have inside : step ≤ ratchet.currentStep := Fin.le_def.mpr (by omega)
      exact chained.chained before step follows inside

namespace Progress

variable {ratchet : Ratchet last} (progress : Progress env spec ratchet)
  (unfinished : truthy ratchet.doneAfter = false)

include progress unfinished

theorem current_open : ¬ratchet.current.Done := by
  rw [Ratchet.current, progress.done, Ratchet.level_eq unfinished]
  exact lt_irrefl _

/-- The current step is evaluated and stays open. -/
theorem touch {condition : Condition} {ticks : Nat}
    (chained : Chained env spec
      (ratchet.touch condition ticks [.evaluated ratchet.currentStep false]))
    (open_still : condition.doneAfter = ratchet.current.doneAfter)
    (late : condition.timedOut = true → condition.startAt + condition.timeout <
      env.clock (ratchet.world.ticks + ticks - 1)) :
    Progress env spec
      (ratchet.touch condition ticks [.evaluated ratchet.currentStep false]) := by
  have level : (ratchet.touch condition ticks [.evaluated ratchet.currentStep false]).level =
      ratchet.currentStep.val := Ratchet.level_eq unfinished
  have logged := progress.logged
  rw [Ratchet.level_eq unfinished] at logged
  refine ⟨chained, ?_, ?_, progress.final, ?_⟩
  · rw [level]
    exact logged.unmet
  · intro step
    rw [level, ← Ratchet.level_eq unfinished, ← progress.done, Ratchet.touch_steps]
    split
    case isTrue same => rw [Condition.Done, open_still, same, Ratchet.current, Condition.Done]
    case isFalse => exact Iff.rfl
  · intro step
    rw [Ratchet.touch_steps]
    split
    case isTrue same => exact fun timedOut => ⟨same, late timedOut⟩
    case isFalse other => exact fun timedOut => absurd (progress.late step timedOut).1 other

theorem wait (positive : ∀ tick, 0 < env.clock tick)
    (inTime : ratchet.current.timedOut = false) : Progress env spec (ratchet.wait env) := by
  refine progress.touch unfinished ?_ rfl ?_
  · exact progress.toChained.touch _ _ (progress.kind _) (positive _) rfl
  · exact fun timedOut => absurd (inTime.symm.trans timedOut) (by simp)

theorem expire (late : ratchet.current.startAt + ratchet.current.timeout <
    env.clock ratchet.world.ticks) : Progress env spec ratchet.expire := by
  refine progress.touch unfinished ?_ rfl fun _ => late
  exact progress.toChained.touch _ _ (progress.kind _) (progress.positive _) rfl

theorem logged_meet : Logged (fun step => (spec step).callback) (ratchet.currentStep.val + 1)
    (ratchet.meet env).world.log := by
  have logged := progress.logged
  rw [Ratchet.level_eq unfinished] at logged
  have same : metLog (fun step => (spec step).callback) ratchet.currentStep =
      metLog (fun _ => ratchet.current.callback) ratchet.currentStep := by
    have kind := (progress.kind ratchet.currentStep).2.2
    simp only [metLog, Ratchet.current, kind]
  have met := logged.met
  rw [same] at met
  exact met

theorem done_meet (step : Fin (last + 1)) :
    ((ratchet.meet env).steps step).Done ↔ step.val < ratchet.currentStep.val + 1 := by
  rw [Ratchet.meet, Ratchet.touch_steps]
  split
  case isTrue same =>
    subst same
    exact iff_of_true (truthy_some (progress.positive ratchet.currentStep)) (Nat.lt_succ_self _)
  case isFalse other =>
    have apart : step.val ≠ ratchet.currentStep.val := fun same => other (Fin.ext same)
    rw [progress.done, Ratchet.level_eq unfinished]
    omega

omit unfinished in
theorem chained_meet : Chained env spec (ratchet.meet env) :=
  progress.toChained.touch _ _ (progress.kind _) (progress.positive _) rfl

omit unfinished in
theorem meet_inTime (inTime : ratchet.current.timedOut = false) (step : Fin (last + 1)) :
    ((ratchet.meet env).steps step).timedOut = false := by
  rw [Ratchet.meet, Ratchet.touch_steps]
  split
  case isTrue => exact inTime
  case isFalse other =>
    exact Bool.eq_false_iff.mpr fun timedOut => other (progress.late step timedOut).1

/-- The current step is met and the next one is waited for. -/
theorem advance (inTime : ratchet.current.timedOut = false)
    (inner : ratchet.currentStep ≠ Fin.last last) :
    Progress env spec ((ratchet.meet env).advance env) := by
  have level : ((ratchet.meet env).advance env).level = ratchet.currentStep.val + 1 :=
    Eq.trans (Ratchet.level_eq unfinished) (Ratchet.val_next inner)
  have doneBy : (ratchet.meet env).current.doneBy = some (env.clock ratchet.world.ticks) := by
    simp [Ratchet.current, Ratchet.meet, Ratchet.touch]
  refine ⟨progress.chained_meet.advance doneBy inner, ?_, ?_, ?_, ?_⟩
  · rw [level]
    exact progress.logged_meet unfinished
  · intro step
    rw [level, ← progress.done_meet unfinished, Ratchet.advance_steps]
    split
    · exact Iff.rfl
    · exact Iff.rfl
  · exact fun finished => absurd (unfinished.symm.trans finished) (by simp)
  · intro step timedOut
    have none := progress.meet_inTime inTime step
    rw [Ratchet.advance_steps] at timedOut
    split at timedOut
    · exact absurd (none.symm.trans timedOut) (by simp)
    · exact absurd (none.symm.trans timedOut) (by simp)

/-- The last step is met. -/
theorem finish (inTime : ratchet.current.timedOut = false)
    (final : ratchet.currentStep = Fin.last last) :
    Progress env spec ((ratchet.meet env).markDone env) := by
  have finished : truthy ((ratchet.meet env).markDone env).doneAfter = true := by
    have done := (progress.done_meet unfinished ratchet.currentStep).mpr (Nat.lt_succ_self _)
    rw [final] at done
    exact done
  have level : ((ratchet.meet env).markDone env).level = ratchet.currentStep.val + 1 := by
    rw [Ratchet.level, if_pos finished, final, Fin.val_last]
  have chained := progress.chained_meet
  refine ⟨⟨chained.kind, chained.positive, chained.started, chained.chained⟩, ?_, ?_,
    fun _ => final, ?_⟩
  · rw [level]
    exact progress.logged_meet unfinished
  · intro step
    rw [level]
    exact progress.done_meet unfinished step
  · intro step timedOut
    exact absurd ((progress.meet_inTime inTime step).symm.trans timedOut) (by simp)

end Progress

/-- The status was assigned last when the current step became the current one. -/
def Shown (env : Surroundings) (spec : Fin (last + 1) → Condition) (ratchet : Ratchet last) :
    Prop :=
  ∃ before, Settled (statusNetwork env.setUpOrder) before ∧
    ratchet.status =
      before.assign env.setUpOrder env.orders (spec ratchet.currentStep).name true

theorem Shown.settled {ratchet : Ratchet last} (shown : Shown env spec ratchet) :
    Settled (statusNetwork env.setUpOrder) ratchet.status := by
  obtain ⟨before, settled, same⟩ := shown
  rw [same]
  exact (settled.assign env.orders _ true).1

theorem shown_setStepStatus {ratchet : Ratchet last}
    (settled : Settled (statusNetwork env.setUpOrder) ratchet.status)
    (kind : ∀ step, (ratchet.steps step).SameKind (spec step)) :
    Shown env spec (ratchet.setStepStatus env ratchet.currentStep true) := by
  refine ⟨ratchet.status, settled, ?_⟩
  change Board.assign _ _ _ (ratchet.steps ratchet.currentStep).name true = _
  rw [(kind ratchet.currentStep).1]
  rfl

/-- A step has not been met in its time. -/
structure TimedOut (env : Surroundings) (ratchet : Ratchet last) : Prop where
  undone : ¬ratchet.current.Done
  late : ratchet.current.startAt + ratchet.current.timeout < env.clock (ratchet.world.ticks - 1)

/-- From the current step on as many steps as `met` are met, one after the other, and then
perhaps one is evaluated that is not. -/
structure Course (env : Surroundings) (spec : Fin (last + 1) → Condition)
    (ratchet : Ratchet last) (met : Nat) (unmet : List (Occurrence (Fin (last + 1))))
    (after : Ratchet last) : Prop where
  results : ∀ index < met, env.results (ratchet.world.evaluations + index) = true
  evaluations : after.world.evaluations = ratchet.world.evaluations + met + unmet.length
  log : after.world.log = ratchet.world.log ++
    (((List.finRange (last + 1)).drop ratchet.currentStep).take met).flatMap
      (metLog fun step => (spec step).callback) ++ unmet
  earlier : ∀ step < ratchet.currentStep, after.steps step = ratchet.steps step
  doneBy : ∀ step index, step.val = ratchet.currentStep.val + index → index < met →
    (after.steps step).doneBy = some (env.clock (ratchet.world.ticks + index))

/-- What a check does. The current step is evaluated and every later one after the one
before it was met, until all are done or one is not, and it is the time then that decides
whether the check raises; after it has raised it raises again until the next `start`. -/
inductive Checks (env : Surroundings) (spec : Fin (last + 1) → Condition)
    (ratchet : Ratchet last) : Bool → Ratchet last → Prop where
  | idle (idle : ratchet.active = false ∨ ∀ step, (ratchet.steps step).Done) :
      Checks env spec ratchet false ratchet
  | again (undone : ¬ratchet.current.Done) (timedOut : ratchet.current.timedOut = true) :
      Checks env spec ratchet true ratchet
  | finished {after : Ratchet last} {met : Nat} (inTime : ratchet.current.timedOut = false)
      (course : Course env spec ratchet met [] after)
      (final : ratchet.currentStep.val + met = last + 1)
      (done : ∀ step, (after.steps step).Done) :
      Checks env spec ratchet false after
  | stopped {after : Ratchet last} {met : Nat} {raised : Bool}
      (inTime : ratchet.current.timedOut = false)
      (course : Course env spec ratchet met [.evaluated after.currentStep false] after)
      (reached : after.currentStep.val = ratchet.currentStep.val + met)
      (result : env.results (ratchet.world.evaluations + met) = false)
      (undone : ¬after.current.Done) (timedOut : after.current.timedOut = raised)
      (raises : raised = true ↔ after.current.startAt + (spec after.currentStep).timeout <
        env.clock (ratchet.world.ticks + met)) :
      Checks env spec ratchet raised after

/-- What a call of a started ratchet leaves. -/
structure Checked (env : Surroundings) (spec : Fin (last + 1) → Condition)
    (ratchet : Ratchet last) (raised : Bool) (after : Ratchet last) : Prop where
  progress : Progress env spec after
  shown : Shown env spec after
  active : after.active = ratchet.active
  raises : raised = true → TimedOut env after
  checks : Checks env spec ratchet raised after

theorem Ratchet.touch_current (ratchet : Ratchet last) (condition : Condition) (ticks : Nat)
    (occurrences : List (Occurrence (Fin (last + 1)))) :
    (ratchet.touch condition ticks occurrences).current = condition := by
  rw [Ratchet.current, Ratchet.touch_steps]
  exact if_pos rfl

/-- A check that evaluates the current step in vain. -/
theorem Course.unmet (ratchet : Ratchet last) (condition : Condition) (ticks : Nat) :
    Course env spec ratchet 0 [.evaluated ratchet.currentStep false]
      (ratchet.touch condition ticks [.evaluated ratchet.currentStep false]) := by
  refine ⟨by simp, rfl, by simp [Ratchet.touch], fun step before => ?_, by simp⟩
  rw [Ratchet.touch_steps, if_neg before.ne]

/-- A check that meets the current step. -/
theorem Course.met (ratchet : Ratchet last)
    (kind : ∀ step, (ratchet.steps step).SameKind (spec step))
    (result : env.results ratchet.world.evaluations = true) :
    Course env spec ratchet 1 [] (ratchet.meet env) := by
  have inside : ratchet.currentStep.val < (List.finRange (last + 1)).length := by
    rw [List.length_finRange]
    exact ratchet.currentStep.isLt
  refine ⟨?_, rfl, ?_, fun step before => ?_, ?_⟩
  · intro index first
    rwa [Nat.lt_one_iff.mp first]
  · rw [List.drop_eq_getElem_cons inside]
    simp [Ratchet.meet, Ratchet.touch, metLog, Ratchet.current, (kind ratchet.currentStep).2.2]
  · rw [Ratchet.meet, Ratchet.touch_steps, if_neg before.ne]
  · intro step index same first
    obtain rfl := Nat.lt_one_iff.mp first
    rw [Ratchet.meet, Ratchet.touch_steps, if_pos (Fin.ext same)]
    rfl

/-- What is met after the next step became the current one. -/
theorem Course.advance {ratchet after : Ratchet last} {met : Nat}
    {unmet : List (Occurrence (Fin (last + 1)))}
    (first : Course env spec ratchet 1 [] (ratchet.meet env))
    (inner : ratchet.currentStep ≠ Fin.last last)
    (rest : Course env spec ((ratchet.meet env).advance env) met unmet after) :
    Course env spec ratchet (met + 1) unmet after := by
  have next : ((ratchet.meet env).advance env).currentStep.val = ratchet.currentStep.val + 1 :=
    Ratchet.val_next inner
  have inside : ratchet.currentStep.val < (List.finRange (last + 1)).length := by
    rw [List.length_finRange]
    exact ratchet.currentStep.isLt
  have advanced : ((ratchet.meet env).advance env).world = (ratchet.meet env).world := rfl
  have earlier : ∀ step ≤ ratchet.currentStep,
      after.steps step = (ratchet.meet env).steps step := by
    intro step before
    have bound : step.val ≤ ratchet.currentStep.val := before
    rw [rest.earlier step (Fin.lt_def.mpr (by omega)), Ratchet.advance_steps, if_neg]
    intro same
    have values := congrArg Fin.val same
    rw [show ((ratchet.meet env).currentStep + 1).val = ratchet.currentStep.val + 1 from next]
      at values
    omega
  constructor
  · intro index bound
    cases index with
    | zero => exact first.results 0 Nat.one_pos
    | succ index =>
        have later := rest.results index (Nat.lt_of_succ_lt_succ bound)
        rw [advanced, first.evaluations] at later
        rw [← later]
        congr 1
        simp only [List.length_nil]
        omega
  · rw [rest.evaluations, advanced, first.evaluations, List.length_nil]
    omega
  · rw [rest.log, advanced, first.log, next, List.drop_eq_getElem_cons inside]
    simp [List.append_assoc]
  · intro step before
    rw [earlier step before.le, first.earlier step before]
  · intro step index same bound
    cases index with
    | zero =>
        rw [earlier step (Fin.le_def.mpr same.le)]
        exact first.doneBy step 0 same Nat.one_pos
    | succ index =>
        have later := rest.doneBy step index (by omega) (Nat.lt_of_succ_lt_succ bound)
        rw [later, advanced]
        congr 2
        change ratchet.world.ticks + 1 + index = _
        omega

/-- A check that evaluates the current step in vain raises when the step is late. -/
theorem Checks.unmet {ratchet : Ratchet last} (condition : Condition) (ticks : Nat)
    (kind : ratchet.current.SameKind (spec ratchet.currentStep))
    (inTime : ratchet.current.timedOut = false)
    (result : env.results ratchet.world.evaluations = false) (undone : ¬condition.Done)
    (startAt : condition.startAt = ratchet.current.startAt)
    (raises : condition.timedOut = true ↔
      ratchet.current.startAt + ratchet.current.timeout < env.clock ratchet.world.ticks) :
    Checks env spec ratchet condition.timedOut
      (ratchet.touch condition ticks [.evaluated ratchet.currentStep false]) := by
  have current := ratchet.touch_current condition ticks [.evaluated ratchet.currentStep false]
  refine .stopped inTime (.unmet ratchet condition ticks) rfl result ?_ ?_ ?_
  · rwa [current]
  · rw [current]
  · rw [current, startAt, raises, kind.2.1]
    rfl

/-- A check goes on from the next step. -/
theorem Checks.advance {ratchet after : Ratchet last} {raised : Bool}
    (first : Course env spec ratchet 1 [] (ratchet.meet env))
    (inTime : ratchet.current.timedOut = false) (inner : ratchet.currentStep ≠ Fin.last last)
    (active : ratchet.active = true)
    (undone : ¬((ratchet.meet env).advance env).current.Done)
    (next_inTime : ((ratchet.meet env).advance env).current.timedOut = false)
    (rest : Checks env spec ((ratchet.meet env).advance env) raised after) :
    Checks env spec ratchet raised after := by
  have next : ((ratchet.meet env).advance env).currentStep.val = ratchet.currentStep.val + 1 :=
    Ratchet.val_next inner
  cases rest with
  | idle idle =>
      rcases idle with inactive | done
      · exact absurd (inactive.symm.trans active) (by simp)
      · exact absurd (done _) undone
  | again _ timedOut => exact absurd (next_inTime.symm.trans timedOut) (by simp)
  | finished _ course final done =>
      exact .finished inTime (first.advance inner course) (by omega) done
  | stopped _ course reached result undone timedOut raises =>
      refine .stopped inTime (first.advance inner course) (by omega) ?_ undone timedOut ?_
      · rw [← result]
        congr 1
        change _ = ratchet.world.evaluations + 1 + _
        omega
      · rw [raises]
        change _ < env.clock (ratchet.world.ticks + 1 + _) ↔ _
        rw [Nat.add_assoc, Nat.add_comm 1]

theorem checkLoop_checked (positive : ∀ tick, 0 < env.clock tick) {passes : Nat}
    {ratchet : Ratchet last} (progress : Progress env spec ratchet)
    (shown : Shown env spec ratchet) (unfinished : truthy ratchet.doneAfter = false)
    (active : ratchet.active = true) (enough : last < passes + ratchet.currentStep.val) :
    ∃ raised after, ratchet.checkLoop env passes = some (raised, after) ∧
      Checked env spec ratchet raised after := by
  induction passes generalizing ratchet with
  | zero => exact absurd enough (by omega)
  | succ passes ih =>
      have open_still := progress.current_open unfinished
      have pass := ratchet.checkCurrentStep_pass env open_still
      unfold Ratchet.checkLoop
      generalize ratchet.checkCurrentStep env = outcome at pass
      obtain ⟨checked, after⟩ := outcome
      cases pass with
      | raisedBefore timedOut =>
          refine ⟨true, _, rfl, progress, shown, rfl, fun _ => ⟨open_still, ?_⟩,
            .again open_still timedOut⟩
          exact (progress.late _ timedOut).2
      | expired inTime result late =>
          have next := progress.expire unfinished late
          have still := next.current_open unfinished
          refine ⟨true, _, rfl, next, shown, rfl, fun _ => ⟨still, ?_⟩, ?_⟩
          · exact (next.late _ (by simp [Ratchet.expire, Ratchet.touch])).2
          · exact .unmet { ratchet.current with timedOut := true } 1 (progress.kind _) inTime result
              open_still rfl (iff_of_true rfl late)
      | unmet inTime result early =>
          have next := progress.wait unfinished positive inTime
          have raises : false = true ↔ ratchet.current.startAt + ratchet.current.timeout <
              env.clock ratchet.world.ticks := iff_of_false (by simp) early
          rw [← inTime] at raises
          have checks := Checks.unmet
            { ratchet.current with notDoneBefore := env.clock (ratchet.world.ticks + 1) } 2
            (progress.kind _) inTime result open_still rfl raises
          refine ⟨false, _, rfl, next, shown, rfl, by simp, ?_⟩
          exact inTime ▸ checks
      | met inTime result =>
          have course := Course.met ratchet progress.kind result
          by_cases final : ratchet.currentStep = Fin.last last
          · have stops : (ratchet.meet env).onFinalStep = true := decide_eq_true final
            have ends := congrArg Fin.val final
            refine ⟨false, _, ?_, progress.finish unfinished inTime final, shown, rfl, by simp, ?_⟩
            · exact if_pos stops
            refine .finished inTime ⟨course.results, course.evaluations, course.log, course.earlier,
              course.doneBy⟩ (congrArg (· + 1) ends) fun step => ?_
            exact (progress.done_meet unfinished step).mpr (ends ▸ step.isLt)
          · have goes_on : ¬(ratchet.meet env).onFinalStep = true := fun stops =>
              final (of_decide_eq_true stops)
            have next := progress.advance unfinished inTime final
            have next_shown : Shown env spec ((ratchet.meet env).advance env) :=
              shown_setStepStatus shown.settled next.kind
            have next_step : ((ratchet.meet env).advance env).currentStep.val =
                ratchet.currentStep.val + 1 := Ratchet.val_next final
            obtain ⟨raised, after, returned, result⟩ :=
              ih next next_shown unfinished active (by omega)
            have inTime' : ((ratchet.meet env).advance env).current.timedOut = false := by
              rw [Ratchet.current, Ratchet.advance_steps]
              split
              · exact progress.meet_inTime inTime _
              · exact progress.meet_inTime inTime _
            refine ⟨raised, after, ?_, result.progress, result.shown, result.active, result.raises,
              result.checks.advance course inTime final active (next.current_open unfinished)
                inTime'⟩
            · exact (if_neg goes_on).trans returned

theorem Progress.check (positive : ∀ tick, 0 < env.clock tick) {ratchet : Ratchet last}
    (progress : Progress env spec ratchet) (shown : Shown env spec ratchet)
    (active : ratchet.active = true) :
    ∃ raised after, ratchet.check env = some (raised, after) ∧
      Checked env spec ratchet raised after := by
  rw [Ratchet.check, active]
  cases finished : truthy ratchet.doneAfter with
  | true =>
      refine ⟨false, ratchet, rfl, progress, shown, rfl, by simp, .idle (.inr fun step => ?_)⟩
      rw [progress.done, Ratchet.level, if_pos finished]
      exact step.isLt
  | false =>
      exact checkLoop_checked positive progress shown finished active (by omega)

section Starting

theorem Ratchet.resetStep_steps (ratchet : Ratchet last) (step other : Fin (last + 1)) :
    (ratchet.resetStep env step).steps other =
      if other = step then
        { ratchet.steps other with toTiming := (Timing.reset env ratchet.world).1 }
      else ratchet.steps other := by
  by_cases same : other = step
  · subst same
    simp [Ratchet.resetStep, Ratchet.setStepStatus]
  · simp [Ratchet.resetStep, Ratchet.setStepStatus, same]

/-- The resets of some steps. -/
structure Reset (env : Surroundings) (spec : Fin (last + 1) → Condition)
    (ratchet after : Ratchet last) (steps : List (Fin (last + 1))) : Prop where
  kind : ∀ step, (after.steps step).SameKind (spec step)
  settled : Settled (statusNetwork env.setUpOrder) after.status
  positive : ∀ step ∈ steps, 0 < (after.steps step).notDoneBefore
  undone : ∀ step ∈ steps, (after.steps step).doneAfter = none
  inTime : ∀ step ∈ steps, (after.steps step).timedOut = false
  other : ∀ step ∉ steps, after.steps step = ratchet.steps step
  currentStep : after.currentStep = ratchet.currentStep
  begun : after.begun = ratchet.begun
  active : after.active = ratchet.active
  log : after.world.log = ratchet.world.log

theorem foldl_resetStep (positive : ∀ tick, 0 < env.clock tick) (ratchet : Ratchet last)
    (kind : ∀ step, (ratchet.steps step).SameKind (spec step))
    (settled : Settled (statusNetwork env.setUpOrder) ratchet.status)
    (steps : List (Fin (last + 1))) :
    Reset env spec ratchet (steps.foldl (Ratchet.resetStep env) ratchet) steps := by
  induction steps using List.reverseRecOn with
  | nil => exact ⟨kind, settled, by simp, by simp, by simp, by simp, rfl, rfl, rfl, rfl⟩
  | append_singleton steps step ih =>
      rw [List.foldl_append, List.foldl_cons, List.foldl_nil]
      generalize steps.foldl (Ratchet.resetStep env) ratchet = middle at ih
      have assigned := (ih.settled.assign env.orders
        (middle.steps step).name false).1
      constructor
      · intro other
        rw [Ratchet.resetStep_steps]
        split
        · exact ih.kind other
        · exact ih.kind other
      · simpa [Ratchet.resetStep, Ratchet.setStepStatus, Board.assign] using assigned
      · intro other member
        rw [Ratchet.resetStep_steps]
        split
        · exact positive _
        case isFalse apart => exact ih.positive other (by simpa [apart] using member)
      · intro other member
        rw [Ratchet.resetStep_steps]
        split
        · rfl
        case isFalse apart => exact ih.undone other (by simpa [apart] using member)
      · intro other member
        rw [Ratchet.resetStep_steps]
        split
        · rfl
        case isFalse apart => exact ih.inTime other (by simpa [apart] using member)
      · intro other outside
        rw [List.mem_append, List.mem_singleton, not_or] at outside
        rw [Ratchet.resetStep_steps, if_neg outside.2]
        exact ih.other other outside.1
      · exact ih.currentStep
      · exact ih.begun
      · exact ih.active
      · exact ih.log

theorem startAt_foldl_resetStep (positive : ∀ tick, 0 < env.clock tick) (ratchet : Ratchet last)
    (kind : ∀ step, (ratchet.steps step).SameKind (spec step))
    (settled : Settled (statusNetwork env.setUpOrder) ratchet.status) :
    (((List.finRange (last + 1)).foldl (Ratchet.resetStep env) ratchet).steps 0).startAt =
      env.clock (ratchet.world.ticks + 1) := by
  have first : Reset env spec ratchet (ratchet.resetStep env 0) [0] :=
    foldl_resetStep positive ratchet kind settled [0]
  have rest := foldl_resetStep positive _ first.kind first.settled
    ((List.finRange last).map Fin.succ)
  rw [List.finRange_succ, List.foldl_cons, rest.other 0 (by simp), Ratchet.resetStep_steps,
    if_pos rfl]
  rfl

/-- After `start` the first step is waited for. -/
theorem start_progress (positive : ∀ tick, 0 < env.clock tick) {ratchet : Ratchet last}
    (kind : ∀ step, (ratchet.steps step).SameKind (spec step))
    (settled : Settled (statusNetwork env.setUpOrder) ratchet.status) :
    Progress env spec (ratchet.start env) ∧ Shown env spec (ratchet.start env) ∧
      (ratchet.start env).world.log = [] := by
  let rewound : Ratchet last := { ratchet with
    begun := ratchet.world.ticks
    world := { ratchet.world with log := [] }
    currentStep := 0
    active := false }
  have resets := foldl_resetStep positive rewound kind settled (List.finRange (last + 1))
  have startAt := startAt_foldl_resetStep positive rewound kind settled
  have first : (ratchet.start env).currentStep = 0 := resets.currentStep
  have level : (ratchet.start env).level = 0 := by
    rw [Ratchet.level_eq rfl, first, Fin.val_zero]
  have everywhere (step : Fin (last + 1)) := List.mem_finRange step
  have empty : (ratchet.start env).world.log = [] := resets.log
  refine ⟨⟨⟨resets.kind, ?_, ?_, ?_⟩, ?_, ?_, ?_, ?_⟩, ?_, empty⟩
  · exact fun step => resets.positive step (everywhere step)
  · exact startAt.trans (congrArg (fun begun => env.clock (begun + 1)) resets.begun.symm)
  · intro before step next reached
    rw [first, Fin.le_zero_iff] at reached
    rw [reached, Fin.val_zero] at next
    cases next
  · rw [level, empty]
    exact .start
  · intro step
    have undone : ((ratchet.start env).steps step).doneAfter = none :=
      resets.undone step (everywhere step)
    rw [level, Condition.Done, undone]
    simp [truthy]
  · intro finished
    cases finished
  · intro step timedOut
    exact absurd ((resets.inTime step (everywhere step)).symm.trans timedOut) (by simp)
  · exact shown_setStepStatus resets.settled resets.kind

end Starting

section Calls

/-- A call that returns or raises. -/
def Ratchet.Step (env : Surroundings) (ratchet : Ratchet last) (call : Call)
    (after : Ratchet last) : Prop :=
  ∃ raised, ratchet.call env call = some (raised, after)

/-- What holds between the calls, also before the first `start`. -/
structure Usable (env : Surroundings) (spec : Fin (last + 1) → Condition)
    (ratchet : Ratchet last) : Prop where
  kind : ∀ step, (ratchet.steps step).SameKind (spec step)
  settled : Settled (statusNetwork env.setUpOrder) ratchet.status
  running : ratchet.active = true → Progress env spec ratchet ∧ Shown env spec ratchet

theorem usable_create (positive : ∀ tick, 0 < env.clock tick) {status : Board P Empty}
    (settled : Settled (statusNetwork env.setUpOrder) status) :
    Usable env spec (Ratchet.create env spec status) := by
  have resets := foldl_resetStep positive
    ⟨⟨0, 0, none, none, false, 0⟩, spec, 0, false, status, ⟨0, 0, []⟩, 0⟩
    (fun _ => ⟨rfl, rfl, rfl⟩) settled (List.finRange (last + 1))
  refine ⟨resets.kind, resets.settled, fun active => ?_⟩
  exact absurd (resets.active.symm.trans active) (by simp)

/-- What a call does, whatever the calls before it. -/
structure Does (env : Surroundings) (spec : Fin (last + 1) → Condition) (ratchet : Ratchet last)
    (call : Call) (raised : Bool) (after : Ratchet last) : Prop where
  active : call = .start ∨ ratchet.active = true → after.active = true
  starts : call = .start → raised = false ∧ after.world.log = []
  checks : call = .check → Checks env spec ratchet raised after

theorem Usable.call (positive : ∀ tick, 0 < env.clock tick) {ratchet : Ratchet last}
    (usable : Usable env spec ratchet) (call : Call) :
    ∃ raised after, ratchet.call env call = some (raised, after) ∧ Usable env spec after ∧
      Does env spec ratchet call raised after ∧
      (raised = true → TimedOut env after ∧ Progress env spec after) := by
  cases call with
  | start =>
      obtain ⟨progress, shown, empty⟩ := start_progress positive usable.kind usable.settled
      exact ⟨false, _, rfl, ⟨progress.kind, shown.settled, fun _ => ⟨progress, shown⟩⟩,
        ⟨fun _ => rfl, fun _ => ⟨rfl, empty⟩, by simp⟩, by simp⟩
  | check =>
      cases active : ratchet.active with
      | false =>
          refine ⟨false, ratchet, ?_, usable, ⟨by simp [active], by simp, fun _ => ?_⟩, by simp⟩
          · simp [Ratchet.call, Ratchet.check, active]
          · exact .idle (.inl active)
      | true =>
          obtain ⟨progress, shown⟩ := usable.running active
          obtain ⟨raised, after, returned, checked⟩ := progress.check positive shown active
          exact ⟨raised, after, returned,
            ⟨checked.progress.kind, checked.shown.settled, fun _ => ⟨checked.progress, checked.shown⟩⟩,
            ⟨fun _ => checked.active.trans active, by simp, fun _ => checked.checks⟩,
            fun raises => ⟨checked.raises raises, checked.progress⟩⟩

end Calls

end Invariants

section Provisioning

variable {env : Surroundings} {spec : Fin 5 → Condition}

theorem closure_of_mem_aroundStatus (order : IterationOrder (P × List P × List P)) {p q : P}
    (member : q ∈ aroundStatus p) : (statusNetwork order).Closure p q := by
  have chains : ∀ p, ∀ q ∈ aroundStatus p, q = p ∨ .implies p q ∈ setUpLinks .inserted ∨
      ∃ r, .implies p r ∈ setUpLinks .inserted ∧ .implies r q ∈ setUpLinks .inserted := by
    decide +kernel
  have link {p q : P} (implies : .implies p q ∈ setUpLinks .inserted) :
      (statusNetwork order).Implies p q := (statusNetwork_implications order).mpr implies
  rcases chains p q member with rfl | once | ⟨r, first, second⟩
  · exact .refl
  · exact .single (link once)
  · exact .tail (.single (link first)) (link second)

/-- Each step excludes the others, or something they imply. -/
theorem steps_exclude (order : IterationOrder (P × List P × List P)) {step other : Fin 5}
    (apart : other ≠ step) :
    (statusNetwork order).Makes (provisioningSteps step) true (provisioningSteps other) false := by
  have table : ∀ step other : Fin 5, other ≠ step →
      ∃ member ∈ aroundStatus (provisioningSteps step),
        ∃ excluded ∈ aroundStatus (provisioningSteps other),
          .impliesNot member excluded ∈ setUpLinks .inserted ∨
            .impliesNot excluded member ∈ setUpLinks .inserted := by
    decide +kernel
  obtain ⟨member, inside, excluded, other_inside, excludes⟩ := table step other apart
  refine ⟨member, excluded, closure_of_mem_aroundStatus order inside, ?_,
    closure_of_mem_aroundStatus order other_inside⟩
  rw [Network.Excludes, statusNetwork_counterImplications, statusNetwork_counterImplications]
  exact excludes

theorem steps_wait (order : IterationOrder (P × List P × List P)) (step : Fin 5) :
    (statusNetwork order).Makes (provisioningSteps step) true .waitingForProvisioning
      (decide (step ≠ 0)) := by
  by_cases first : step = 0
  · subst first
    have excludes : (statusNetwork order).Excludes .tryingOpen .waitingForProvisioning :=
      .inl ((statusNetwork_counterImplications order).mpr (by decide))
    exact ⟨_, _, .refl, excludes, .refl⟩
  · have implied : ∀ step : Fin 5, step ≠ 0 →
        .waitingForProvisioning ∈ aroundStatus (provisioningSteps step) := by decide
    rw [decide_eq_true first]
    exact closure_of_mem_aroundStatus order (implied step first)

theorem Shown.values {ratchet : Ratchet 4} (shown : Shown env spec ratchet)
    (named : ∀ step, (spec step).name = provisioningSteps step) :
    (∀ step, ratchet.status.value (provisioningSteps step) = some true ↔
      step = ratchet.currentStep) ∧
    (ratchet.status.value .waitingForProvisioning = some true ↔ ratchet.currentStep ≠ 0) := by
  obtain ⟨before, settled, same⟩ := shown
  rw [named] at same
  obtain ⟨-, propagated⟩ :=
    settled.assign env.orders (provisioningSteps ratchet.currentStep) true
  rw [same]
  constructor
  · intro step
    by_cases current : step = ratchet.currentStep
    · subst current
      exact iff_of_true (propagated.made _ true .refl) rfl
    · rw [propagated.made _ false (steps_exclude env.setUpOrder current)]
      simp [current]
  · rw [propagated.made _ _ (steps_wait env.setUpOrder ratchet.currentStep)]
    simp

/-- What holds of the provisioning ratchet after every call since `start`. -/
structure Provisioning (spec : Fin 5 → Condition) (ratchet : Ratchet 4) : Prop where
  sequence : ratchet.world.log.Pairwise InSequence
  doneBefore : DoneBefore ratchet.world.log
  done : (∀ step, (ratchet.steps step).Done ↔ step < ratchet.currentStep) ∨
    ratchet.currentStep = Fin.last 4 ∧ ∀ step, (ratchet.steps step).Done
  completed : ∀ step, .completed step ∈ ratchet.world.log ↔ (ratchet.steps step).Done
  met : ∀ step, .evaluated step true ∈ ratchet.world.log ↔ (ratchet.steps step).Done
  called : ∀ step, (ratchet.steps step).Done → (spec step).callback = true →
    ratchet.world.log.count (.callback step) = 1
  uncalled : ∀ step, ¬((ratchet.steps step).Done ∧ (spec step).callback = true) →
    .callback step ∉ ratchet.world.log
  shown : ∀ step, ratchet.status.value (provisioningSteps step) = some true ↔
    step = ratchet.currentStep
  waiting : ratchet.status.value .waitingForProvisioning = some true ↔ ratchet.currentStep ≠ 0

/-- The timeout of the current step, which is not done, is over: it is measured
from the `done_by` of the step before, and for the first one from `start`. -/
structure RaisedLate (env : Surroundings) (spec : Fin 5 → Condition) (ratchet : Ratchet 4) :
    Prop where
  undone : ¬(ratchet.steps ratchet.currentStep).Done
  late : ∃ since, since + (spec ratchet.currentStep).timeout < env.clock (ratchet.world.ticks - 1) ∧
    (ratchet.currentStep = 0 ∧ since = env.clock (ratchet.begun + 1) ∨
      ∃ before : Fin 5, before.val + 1 = ratchet.currentStep.val ∧
        (ratchet.steps before).doneBy = some since)

theorem Progress.provisioning {ratchet : Ratchet 4} (progress : Progress env spec ratchet)
    (shown : Shown env spec ratchet)
    (named : ∀ step, (spec step).name = provisioningSteps step) : Provisioning spec ratchet := by
  obtain ⟨values, waiting⟩ := shown.values named
  have count := progress.logged.callback_count
  refine ⟨progress.logged.sequence, progress.logged.doneBefore, ?_, ?_, ?_, ?_, ?_, values,
    waiting⟩
  · cases finished : truthy ratchet.doneAfter with
    | true =>
        refine .inr ⟨progress.final finished, fun step => ?_⟩
        rw [progress.done, Ratchet.level, if_pos finished]
        exact step.isLt
    | false =>
        refine .inl fun step => ?_
        rw [progress.done, Ratchet.level_eq finished]
        exact Iff.rfl
  · intro step
    rw [progress.logged.completed_iff, progress.done]
  · intro step
    rw [progress.logged.met_iff, progress.done]
  · intro step done called
    rw [count, if_pos ⟨called, (progress.done step).mp done⟩]
  · intro step neither
    rw [← List.count_eq_zero, count, if_neg]
    rw [progress.done] at neither
    exact fun both => neither both.symm

theorem TimedOut.raisedLate {ratchet : Ratchet 4} (timedOut : TimedOut env ratchet)
    (progress : Progress env spec ratchet) : RaisedLate env spec ratchet := by
  refine ⟨timedOut.undone, ratchet.current.startAt, ?_, ?_⟩
  · rw [← (progress.kind ratchet.currentStep).2.1]
    exact timedOut.late
  · by_cases first : ratchet.currentStep = 0
    · refine .inl ⟨first, ?_⟩
      rw [Ratchet.current, first]
      exact progress.started
    · have positive : ratchet.currentStep.val ≠ 0 := fun zero => first (Fin.ext zero)
      have bound := ratchet.currentStep.isLt
      have follows : ratchet.currentStep.val - 1 + 1 = ratchet.currentStep.val := by omega
      exact .inr ⟨⟨ratchet.currentStep.val - 1, by omega⟩, follows,
        progress.chained _ _ follows le_rfl⟩

/-- The call raises only when the current step is late. -/
def RaisesLate (env : Surroundings) (spec : Fin 5 → Condition) (ratchet : Ratchet 4)
    (call : Call) : Prop :=
  ∀ after, ratchet.call env call = some (true, after) → RaisedLate env spec after

theorem Usable.step (positive : ∀ tick, 0 < env.clock tick) {ratchet next : Ratchet 4}
    (usable : Usable env spec ratchet) {call : Call} (step : Ratchet.Step env ratchet call next) :
    Usable env spec next ∧ RaisesLate env spec ratchet call := by
  obtain ⟨raised, returned⟩ := step
  obtain ⟨again, after, same, next_usable, -, raises⟩ := usable.call positive call
  rw [same] at returned
  obtain ⟨rfl, rfl⟩ := Prod.mk.inj (Option.some.inj returned)
  refine ⟨next_usable, fun other raised => ?_⟩
  rw [same] at raised
  obtain ⟨rfl, rfl⟩ := Prod.mk.inj (Option.some.inj raised)
  obtain ⟨timedOut, progress⟩ := raises rfl
  exact timedOut.raisedLate progress

/-- Over any status, whatever the steps evaluate to and whenever: after each
call since `start` the ratchet is in order, it raises only what is late, and
the next call ends and does what it is for. -/
theorem ratchet_provisions (positive : ∀ tick, 0 < env.clock tick)
    (named : ∀ step, (spec step).name = provisioningSteps step) {status : Board P Empty}
    (settled : Settled (statusNetwork env.setUpOrder) status)
    {trace : List (Ratchet 4 × Call)} {ratchet : Ratchet 4}
    (run : Run (Ratchet.Step env) (.create env spec status) trace ratchet) (call : Call) :
    Throughout (fun ratchet => ratchet.active = true → Provisioning spec ratchet) trace ratchet ∧
    StepsMeet (RaisesLate env spec) trace ∧
    ∃ raised after, ratchet.call env call = some (raised, after) ∧
      Does env spec ratchet call raised after := by
  have both : Throughout (Usable env spec) trace ratchet ∧ StepsMeet (RaisesLate env spec) trace :=
    run.throughout_observed (usable_create positive settled)
      fun usable step => usable.step positive step
  obtain ⟨usable, late⟩ := both
  have provisioning {ratchet : Ratchet 4} (usable : Usable env spec ratchet)
      (active : ratchet.active = true) : Provisioning spec ratchet := by
    obtain ⟨progress, shown⟩ := usable.running active
    exact progress.provisioning shown named
  obtain ⟨raised, after, returned, -, does, -⟩ := usable.2.call positive call
  exact ⟨⟨fun entry member => provisioning (usable.1 entry member), provisioning usable.2⟩, late,
    raised, after, returned, does⟩

/-- A clock that counts its readings, and steps that are met at once. -/
def promptSurroundings : Surroundings :=
  ⟨fun tick => (tick : Rat) + 1, fun _ => true, .inserted, .inserted⟩

def promptStep (step : Fin 5) : Condition :=
  { t0 := 0, startAt := 0, doneAfter := none, doneBy := none, timedOut := false,
    notDoneBefore := 0, name := provisioningSteps step, timeout := 20, callback := step = 0 }

/-- A ratchet is started over a new status and checked. -/
theorem ratchet_provisions_promptly : ∃ raisedFirst first raised second,
    (Ratchet.create promptSurroundings promptStep .start).call promptSurroundings .start =
      some (raisedFirst, first) ∧
    Does promptSurroundings promptStep (Ratchet.create promptSurroundings promptStep .start) .start
      raisedFirst first ∧ Provisioning promptStep first ∧
    first.call promptSurroundings .check = some (raised, second) ∧
    Does promptSurroundings promptStep first .check raised second ∧
    StepsMeet (RaisesLate promptSurroundings promptStep)
      [(Ratchet.create promptSurroundings promptStep .start, .start), (first, .check)] ∧
    Provisioning promptStep second := by
  have positive (tick : Nat) : 0 < promptSurroundings.clock tick := by
    change (0 : Rat) < tick + 1
    exact_mod_cast Nat.succ_pos tick
  have named (step : Fin 5) : (promptStep step).name = provisioningSteps step := rfl
  obtain ⟨-, -, raisedFirst, first, started, starts⟩ :=
    ratchet_provisions positive named settled_start .nil .start
  have step : Ratchet.Step promptSurroundings _ .start first := ⟨raisedFirst, started⟩
  have once := Run.nil.snoc step
  obtain ⟨running, -, raised, second, checked, checks⟩ :=
    ratchet_provisions positive named settled_start once .check
  obtain ⟨after, late, -⟩ :=
    ratchet_provisions positive named settled_start (once.snoc ⟨raised, checked⟩) .check
  have active := starts.active (.inl rfl)
  exact ⟨raisedFirst, first, raised, second, started, starts, running.2 active, checked, checks,
    late, after.2 (checks.active (.inr active))⟩

end Provisioning

end Gfiber.Conman
