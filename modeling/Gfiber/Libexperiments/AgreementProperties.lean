import Mathlib.Data.String.Basic
import Gfiber.Libexperiments.Experiments

/-! What the processes answer is what the directory says as long as no process
takes away a request that another one waits for. -/

set_option autoImplicit false

namespace Gfiber.Libexperiments

open Lib

section Objects

variable {Name : Type} [LinearOrder Name] {experiments : Experiments Name} {dir : ConfigDir Name}
  {name : Name}

/-- An update finds the request that it waits for. -/
def Experiments.Consumes (experiments : Experiments Name) (dir : ConfigDir Name) (name : Name) :
    Prop :=
  name ∈ experiments.registered ∧
    if name ∈ experiments.enabled then name ∈ dir.unrequested else name ∈ dir.requested

instance : Decidable (experiments.Consumes dir name) :=
  inferInstanceAs (Decidable (_ ∧ if _ ∈ _ then _ else _))

/-- What an update does that finds its request: the name changes in the memory and in
the directory, and the request is gone. -/
structure Consumed (experiments : Experiments Name) (dir : ConfigDir Name) (name : Name)
    (after : Experiments Name) (left : ConfigDir Name) : Prop where
  registered : after.registered = experiments.registered
  enabled : name ∈ after.enabled ↔ name ∉ experiments.enabled
  active : name ∈ left.active ↔ name ∉ experiments.enabled
  request : name ∉ if name ∈ experiments.enabled then left.unrequested else left.requested
  fewer : left.requested ⊆ dir.requested ∧ left.unrequested ⊆ dir.unrequested
  others : ∀ other, other ≠ name →
    (other ∈ after.enabled ↔ other ∈ experiments.enabled) ∧
      (other ∈ left.active ↔ other ∈ dir.active)

theorem updateState_kept (waits : ¬ experiments.Consumes dir name) :
    experiments.updateState dir name = (experiments, dir) := by
  rw [Experiments.Consumes] at waits
  rw [Experiments.updateState]
  split
  case isTrue => rfl
  case isFalse known =>
    have missing := not_and.mp waits (not_not.mp known)
    split
    case isTrue on => rw [if_neg (by simpa [on] using missing)]
    case isFalse off => rw [if_neg (by simpa [off] using missing)]

theorem updateState_consumed (consumes : experiments.Consumes dir name) :
    Consumed experiments dir name (experiments.updateState dir name).1
      (experiments.updateState dir name).2 := by
  obtain ⟨known, request⟩ := consumes
  rw [Experiments.updateState, if_neg (not_not_intro known)]
  split
  case isTrue on =>
    rw [if_pos on] at request
    rw [if_pos request]
    exact ⟨rfl, by simp [on], by simp [on], by simp [on],
      ⟨Finset.Subset.refl _, Finset.erase_subset _ _⟩, fun other differs => by simp [differs]⟩
  case isFalse off =>
    rw [if_neg off] at request
    rw [if_pos request]
    exact ⟨rfl, by simp [off], by simp [off], by simp [off],
      ⟨Finset.erase_subset _ _, Finset.Subset.refl _⟩, fun other differs => by simp [differs]⟩

/-- The memory of a process says what the directory does. -/
structure Experiments.Consistent (experiments : Experiments Name) (dir : ConfigDir Name) :
    Prop where
  known : ∀ name ∈ experiments.enabled, name ∈ experiments.registered
  same : ∀ name ∈ experiments.registered, name ∈ experiments.enabled ↔ name ∈ dir.active

theorem Experiments.Consistent.register (consistent : experiments.Consistent dir) (answer : Bool) :
    (experiments.register dir name answer).Consistent dir := by
  rw [Experiments.register]
  split
  case isTrue => exact consistent
  case isFalse unknown =>
    split
    case isTrue => exact consistent
    case isFalse =>
      have off : name ∉ experiments.enabled := fun on => unknown (consistent.known name on)
      constructor
      · intro other on
        dsimp only at on ⊢
        split at on
        case isTrue =>
          rcases Finset.mem_insert.mp on with rfl | before
          · exact Finset.mem_insert_self _ _
          · exact Finset.mem_insert_of_mem (consistent.known other before)
        case isFalse => exact Finset.mem_insert_of_mem (consistent.known other on)
      · intro other registered
        dsimp only at registered ⊢
        rcases Finset.mem_insert.mp registered with rfl | before
        · split
          case isTrue active => simp [active]
          case isFalse inactive => simp [inactive, off]
        · have differs : other ≠ name := fun same => unknown (same ▸ before)
          rw [← consistent.same other before]
          split
          case isTrue => simp [differs]
          case isFalse => rfl

theorem Experiments.Consistent.update (consistent : experiments.Consistent dir) :
    (experiments.updateState dir name).1.Consistent (experiments.updateState dir name).2 := by
  by_cases consumes : experiments.Consumes dir name
  · have spec := updateState_consumed consumes
    constructor
    · intro other on
      rw [spec.registered]
      by_cases here : other = name
      · exact here ▸ consumes.1
      · exact consistent.known other ((spec.others other here).1.mp on)
    · intro other registered
      rw [spec.registered] at registered
      by_cases here : other = name
      · subst here
        rw [spec.enabled, spec.active]
      · rw [(spec.others other here).1, (spec.others other here).2]
        exact consistent.same other registered
  · rw [updateState_kept consumes]
    exact consistent

/-- A process that knows nothing of the name does not mind the update. -/
theorem Experiments.Consistent.apart {other : Experiments Name} (consistent : other.Consistent dir)
    (apart : experiments.Consumes dir name → name ∉ other.registered) :
    other.Consistent (experiments.updateState dir name).2 := by
  by_cases consumes : experiments.Consumes dir name
  · have spec := updateState_consumed consumes
    refine ⟨consistent.known, ?_⟩
    intro known registered
    have differs : known ≠ name := fun same => apart consumes (same ▸ registered)
    rw [(spec.others known differs).2]
    exact consistent.same known registered
  · rw [updateState_kept consumes]
    exact consistent

/-- The request was taken away that would bring the memory in line. -/
def Experiments.Stale (experiments : Experiments Name) (dir : ConfigDir Name) (name : Name) :
    Prop :=
  name ∈ experiments.registered ∧
    if name ∈ experiments.enabled then name ∉ dir.active ∧ name ∉ dir.unrequested
    else name ∈ dir.active ∧ name ∉ dir.requested

theorem Experiments.Stale.differs (stale : experiments.Stale dir name) :
    ¬ (name ∈ experiments.enabled ↔ name ∈ dir.active) := by
  obtain ⟨_, lost⟩ := stale
  split at lost
  case isTrue on => exact fun same => lost.1 (same.mp on)
  case isFalse off => exact fun same => off (same.mpr lost.1)

/-- No update of its own brings a stale memory in line. -/
theorem Experiments.Stale.update (stale : experiments.Stale dir name) (other : Name) :
    (experiments.updateState dir other).1.Stale (experiments.updateState dir other).2 name := by
  by_cases consumes : experiments.Consumes dir other
  · have spec := updateState_consumed consumes
    obtain ⟨registered, lost⟩ := stale
    have differs : name ≠ other := by
      rintro rfl
      have request := consumes.2
      split at lost
      case isTrue on =>
        rw [if_pos on] at request
        exact lost.2 request
      case isFalse off =>
        rw [if_neg off] at request
        exact lost.2 request
    refine ⟨spec.registered ▸ registered, ?_⟩
    rw [(spec.others name differs).2]
    split at lost
    case isTrue on =>
      rw [if_pos ((spec.others name differs).1.mpr on)]
      exact ⟨lost.1, fun request => lost.2 (spec.fewer.2 request)⟩
    case isFalse off =>
      rw [if_neg fun on => off ((spec.others name differs).1.mp on)]
      exact ⟨lost.1, fun request => lost.2 (spec.fewer.1 request)⟩
  · rw [updateState_kept consumes]
    exact stale

/-- The update of one process makes the memory of another one stale. -/
theorem Experiments.Consistent.stale {other : Experiments Name}
    (consistent : experiments.Consistent dir) (others : other.Consistent dir)
    (consumes : experiments.Consumes dir name) (shared : name ∈ other.registered) :
    other.Stale (experiments.updateState dir name).2 name := by
  have spec := updateState_consumed consumes
  have agree : name ∈ other.enabled ↔ name ∈ experiments.enabled :=
    (others.same name shared).trans (consistent.same name consumes.1).symm
  have request := spec.request
  refine ⟨shared, ?_⟩
  by_cases on : name ∈ experiments.enabled
  · rw [if_pos on] at request
    rw [if_pos (agree.mpr on), spec.active]
    exact ⟨not_not_intro on, request⟩
  · rw [if_neg on] at request
    rw [if_neg fun held => on (agree.mp held), spec.active]
    exact ⟨on, request⟩

end Objects

section Systems

variable {Process Name : Type} {system next : System Process Name} {event : Event Process Name}

def System.Consistent (system : System Process Name) : Prop :=
  ∀ process, (system.objects process).Consistent system.dir

theorem System.Consistent.agreed (consistent : system.Consistent) : system.Agreed :=
  fun process _ name registered => (consistent process).same name registered

theorem consistent_start (dir : ConfigDir Name) :
    (System.start dir : System Process Name).Consistent := by
  intro process
  constructor
  · intro name on
    cases on
  · intro name registered
    cases registered

variable [DecidableEq Process]

theorem consistent_set {dir : ConfigDir Name} {process : Process} {object : Experiments Name}
    {refreshed : Option Process} (own : object.Consistent dir)
    (others : ∀ other, other ≠ process → (system.objects other).Consistent dir) :
    (system.set dir process object refreshed).Consistent := by
  intro other
  by_cases here : other = process
  · subst here
    rw [system.objects_set]
    exact own
  · rw [system.objects_set_of_ne here]
    exact others other here

variable [LinearOrder Name]

/-- The name whose request an update takes is registered by no other process. -/
def Lone (system : System Process Name) : Event Process Name → Prop
  | .update process =>
      ∀ name rest, (system.objects process).refreshing = name :: rest →
        (system.objects process).Consumes system.dir name →
        ∀ other, other ≠ process → name ∉ (system.objects other).registered
  | _ => True

theorem consistent_step (consistent : system.Consistent) (lone : Lone system event)
    (step : System.Step system event next) : next.Consistent := by
  cases step with
  | @register process name answer idle =>
      apply consistent_set
      · exact (consistent process).register answer
      · exact fun other _ => consistent other
  | @refresh process idle =>
      apply consistent_set
      · exact ⟨(consistent process).known, (consistent process).same⟩
      · exact fun other _ => consistent other
  | @update process name rest updated dir pending update =>
      apply consistent_set
      · have after : ((system.objects process).updateState system.dir name).1.Consistent
            ((system.objects process).updateState system.dir name).2 :=
          (consistent process).update
        rw [update] at after
        exact ⟨after.known, after.same⟩
      · intro other apart
        have kept := (consistent other).apart fun consumes =>
          lone name rest pending consumes other apart
        rw [update] at kept
        exact kept
  | request => exact fun process => ⟨(consistent process).known, (consistent process).same⟩
  | unrequest => exact fun process => ⟨(consistent process).known, (consistent process).same⟩

/-- A stale process is so at the end of its refresh. -/
theorem stale_updates {process : Process} {name first : Name} {rest : List Name}
    (pending : (system.objects process).refreshing = first :: rest)
    (stale : (system.objects process).Stale system.dir name) :
    ∃ trace last, Run System.Step system trace last ∧
      (∀ entry ∈ trace, entry.2 = .update process) ∧ last.refreshed = some process ∧
      (last.objects process).Stale last.dir name := by
  induction rest generalizing system first with
  | nil =>
      refine ⟨_, _, .snoc .nil (.update pending rfl), by simp, rfl, ?_⟩
      rw [system.objects_set]
      exact stale.update first
  | cons second rest ih =>
      rcases read : (system.objects process).updateState system.dir first with ⟨updated, dir⟩
      have kept := stale.update first
      rw [read] at kept
      have object := system.objects_set dir process
        { updated with refreshing := second :: rest } (ended process (second :: rest))
      obtain ⟨trace, last, run, only, refreshed, lost⟩ :=
        ih (congrArg Experiments.refreshing object) (by
          rw [object]
          exact kept)
      exact ⟨_, last, Run.cons (.update pending read) run, by simpa using only, refreshed, lost⟩

/-- The refresh of a stale process ends with an answer that the directory denies. -/
theorem stale_disagrees {process : Process} {name : Name}
    (stale : (system.objects process).Stale system.dir name) :
    ∃ trace last, Run System.Step system trace last ∧
      (∀ entry ∈ trace, entry.2 = .refresh process ∨ entry.2 = .update process) ∧
      ¬ last.Agreed := by
  have finish : ∀ {before : System Process Name} {first : Name} {rest : List Name},
      (before.objects process).refreshing = first :: rest →
      (before.objects process).Stale before.dir name →
      ∃ trace last, Run System.Step before trace last ∧
        (∀ entry ∈ trace, entry.2 = .refresh process ∨ entry.2 = .update process) ∧
        ¬ last.Agreed := by
    intro before first rest pending lost
    obtain ⟨trace, last, run, only, refreshed, lost⟩ := stale_updates pending lost
    refine ⟨trace, last, run, fun entry member => .inr (only entry member), ?_⟩
    exact fun agreed => lost.differs (agreed process refreshed name lost.1)
  cases pending : (system.objects process).refreshing with
  | cons first rest => exact finish pending stale
  | nil =>
      cases names : (system.objects process).registered.sort (· ≤ ·) with
      | nil =>
          have member := (Finset.mem_sort (· ≤ ·)).mpr stale.1
          rw [names] at member
          cases member
      | cons first rest =>
          have object := system.objects_set system.dir process
            { system.objects process with refreshing := first :: rest }
            (ended process (first :: rest))
          obtain ⟨trace, last, run, only, denied⟩ :=
            finish (congrArg Experiments.refreshing object) (by
              rw [object]
              exact stale)
          exact ⟨_, last, Run.cons (.refresh pending names.symm) run, by simpa using only, denied⟩

/-- An update takes away a request that another process waits for, and is denied by the next
refresh of that process. -/
theorem shared_disagrees (consistent : system.Consistent)
    (step : System.Step system event next) (shared : ¬ Lone system event) :
    ∃ process trace last, Run System.Step next trace last ∧
      (∀ entry ∈ trace, entry.2 = .refresh process ∨ entry.2 = .update process) ∧
      ¬ last.Agreed := by
  cases step with
  | register | refresh | request | unrequest => exact absurd trivial shared
  | @update process name rest updated dir pending update =>
      simp only [Lone, not_forall, not_not] at shared
      obtain ⟨taken, _, again, consumes, other, apart, registered⟩ := shared
      cases pending.symm.trans again
      have lost := (consistent process).stale (consistent other) consumes registered
      rw [update] at lost
      have stale : ((system.set dir process { updated with refreshing := rest }
          (ended process rest)).objects other).Stale dir name := by
        rw [system.objects_set_of_ne apart]
        exact lost
      exact ⟨other, stale_disagrees stale⟩

/-- While every request is taken by the only process that has registered its name, a process
that has refreshed answers what the directory says. The first request that is
taken while another process waits for it can be denied by that one. -/
theorem agreed_while_lone {dir : ConfigDir Name}
    {trace : List (System Process Name × Event Process Name)} {finish : System Process Name}
    (run : Run System.Step (System.start dir) trace finish) (lone : StepsMeet Lone trace) :
    Throughout System.Agreed trace finish ∧
      ∀ event next, System.Step finish event next → ¬ Lone finish event →
        ∃ process more last, Run System.Step next more last ∧
          (∀ entry ∈ more, entry.2 = .refresh process ∨ entry.2 = .update process) ∧
          ¬ last.Agreed := by
  have held := run.throughout (consistent_start dir) consistent_step lone
  refine ⟨⟨fun entry member => (held.1 entry member).agreed, held.2.agreed⟩, ?_⟩
  exact fun event next step shared => shared_disagrees held.2 step shared

end Systems

section Runs

/-- One process registers an experiment, which is requested, and refreshes. -/
theorem agreed_alone :
    ∃ trace : List (System Nat String × Event Nat String), ∃ finish : System Nat String,
      Throughout System.Agreed trace finish ∧
      trace.map Prod.snd = [.register 0 "exp" true, .request "exp", .refresh 0, .update 0] ∧
      finish.refreshed = some 0 ∧ (finish.objects 0).isEnabled "exp" := by
  have registered : Run System.Step (System.start ⟨∅, ∅, ∅⟩ : System Nat String) _ _ :=
    .snoc .nil (@System.Step.register _ _ _ _ _ 0 "exp" true rfl)
  have requested := registered.snoc (@System.Step.request _ _ _ _ _ "exp")
  have refreshing := requested.snoc
    (@System.Step.refresh _ _ _ _ _ 0 ["exp"] rfl (by decide +kernel))
  have updated := refreshing.snoc (@System.Step.update _ _ _ _ _ 0 "exp" [] _ _ rfl rfl)
  refine ⟨_, _, (agreed_while_lone updated ?_).1, rfl, rfl, by decide +kernel⟩
  refine StepsMeet.snoc (StepsMeet.snoc (StepsMeet.snoc (StepsMeet.snoc ?_ trivial) trivial)
    trivial) ?_
  · intro entry member
    cases member
  · intro name rest _ _ other apart
    simp [System.set, Function.update_of_ne apart, System.start, Experiments.new]

/-- The process that refreshes first takes the request, and the other one never sees it. -/
theorem second_process_disagrees :
    ∃ trace, ∃ finish : System Nat String, Run System.Step (System.start ⟨∅, ∅, ∅⟩) trace finish ∧
      trace.map Prod.snd =
        [.register 0 "exp" true, .register 1 "exp" true, .request "exp", .refresh 0, .update 0,
          .refresh 1, .update 1] ∧
      finish.refreshed = some 1 ∧ "exp" ∈ (finish.objects 1).registered ∧
      ¬ (finish.objects 1).isEnabled "exp" ∧ "exp" ∈ finish.dir.active ∧ ¬ finish.Agreed := by
  have denied : ∀ {system : System Nat String}, system.refreshed = some 1 →
      "exp" ∈ (system.objects 1).registered ∧ ¬ (system.objects 1).isEnabled "exp" ∧
        "exp" ∈ system.dir.active →
      "exp" ∈ (system.objects 1).registered ∧ ¬ (system.objects 1).isEnabled "exp" ∧
        "exp" ∈ system.dir.active ∧ ¬ system.Agreed := by
    rintro system refreshed ⟨registered, off, active⟩
    refine ⟨registered, off, active, ?_⟩
    exact fun agreed => off ((agreed 1 refreshed "exp" registered).mpr active)
  refine ⟨_, _, .snoc (.snoc (.snoc (.snoc (.snoc (.snoc (.snoc .nil (.register rfl))
    (.register rfl)) .request) (@System.Step.refresh _ _ _ _ _ 0 ["exp"] rfl ?_))
    (.update rfl rfl)) (@System.Step.refresh _ _ _ _ _ 1 ["exp"] rfl ?_)) (.update rfl rfl), rfl,
    rfl, denied rfl ?_⟩
  all_goals decide +kernel

end Runs

end Gfiber.Libexperiments
