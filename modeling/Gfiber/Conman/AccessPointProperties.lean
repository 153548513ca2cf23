import Gfiber.Conman.ManagerProperties

/-! The access points that run, and the flags of the configurations. -/

set_option autoImplicit false

namespace Gfiber.Conman

open Lib

/-- Every interface has a band of its own. -/
def Device.OneRadioPerBand (device : Device) : Prop :=
  (∀ bands ∈ device.wifi, ∃ band, bands = [band]) ∧ device.wifi.Nodup

def Answers.Succeed (answers : Answers) : Prop :=
  answers.startAp = true ∧ answers.stopAp = true ∧ answers.stopClient = true ∧
    answers.setClient = true

/-- All commands that are run for the event succeed. -/
def Event.Succeeds : Event → Prop
  | .written _ _ answers => answers.Succeed
  | .deleted _ answers => answers.Succeed
  | .runOnce _ answers => ∀ wifi band, (answers wifi band).Succeed
  | .internet _ => True
  | .assigned _ _ _ _ => True

/-- An access point that runs on a band with a configuration is known to it. -/
def ApKnown (manager : ConnectionManager) : Prop :=
  ∀ band config, manager.wlanConfiguration band = some config →
    manager.apRunning band = true → config.accessPointUp = true

/-- A configuration whose access point is up is replaced only while the bridge
has internet access and the access point is still wanted. -/
def ApWanted (device : Device) (manager : ConnectionManager) : Event → Prop
  | .written filename contents _ =>
      ∀ config current, device.command filename contents = some config →
        manager.wlanConfiguration config.band = some current →
        config.command ≠ current.command → current.accessPointUp = true →
        manager.internet = true ∧ current.accessPoint = true
  | _ => True

instance decidableApWanted (device : Device) (manager : ConnectionManager) :
    (event : Event) → Decidable (ApWanted device manager event)
  | .written filename contents _ =>
      decidable_of_iff
        ((device.command filename contents).all fun config =>
          (manager.wlanConfiguration config.band).all fun current =>
            decide (config.command ≠ current.command → current.accessPointUp = true →
              manager.internet = true ∧ current.accessPoint = true))
        (by
          simp only [Option.all_eq_true, decide_eq_true_eq, ApWanted]
          exact ⟨fun all config current command => all config command current,
            fun all config command current => all config current command⟩)
  | .deleted _ _ => isTrue trivial
  | .internet _ => isTrue trivial
  | .runOnce _ _ => isTrue trivial
  | .assigned _ _ _ _ => isTrue trivial

/-- The access points that run are those that the configurations have started. -/
structure ApTracked (manager : ConnectionManager) : Prop where
  stored : ∀ band config, manager.wlanConfiguration band = some config → config.band = band
  running : ∀ band,
    manager.apRunning band = (manager.wlanConfiguration band).any WLANConfiguration.accessPointUp

theorem ApTracked.known {manager : ConnectionManager} (tracked : ApTracked manager) :
    ApKnown manager := by
  intro band config stored running
  rw [tracked.running, stored] at running
  exact running

section Updates

variable {answers : Answers} {internet : Bool} {config : WLANConfiguration} {running : Bool}

theorem upAfter_of_succeed (succeed : answers.Succeed) :
    upAfter answers internet config = (internet && config.accessPoint) := by
  obtain ⟨started, stopped, -, -⟩ := succeed
  unfold upAfter
  cases internet <;> cases config.accessPoint <;> simp [started, stopped]

/-- The access point runs afterwards exactly when it is wanted, unless one runs
that the configuration does not know of and that is not wanted. -/
theorem runningAfter_of_succeed (succeed : answers.Succeed)
    (known : running = config.accessPointUp ∨
      internet = true ∧ config.accessPoint = true ∧ config.accessPointUp = false) :
    runningAfter answers internet config running = (internet && config.accessPoint) := by
  obtain ⟨started, stopped, -, -⟩ := succeed
  unfold runningAfter
  rcases known with same | ⟨up, wanted, new⟩
  · rw [same]
    cases internet <;> cases config.accessPoint <;> cases config.accessPointUp <;>
      simp [started, stopped]
  · simp [up, wanted, new, started]

end Updates

section Steps

variable {device : Device} {answers : Answers} {manager next : ConnectionManager}

/-- The rest of the bands is as it was. -/
theorem ApTracked.of_band (tracked : ApTracked manager) (band : Band)
    (stored : ∀ config, next.wlanConfiguration band = some config → config.band = band)
    (running : next.apRunning band =
      (next.wlanConfiguration band).any WLANConfiguration.accessPointUp)
    (others : ∀ other, other ≠ band →
      next.wlanConfiguration other = manager.wlanConfiguration other ∧
        next.apRunning other = manager.apRunning other) : ApTracked next := by
  constructor
  · intro other config lookup
    by_cases same : other = band
    · subst same
      exact stored config lookup
    · rw [(others other same).1] at lookup
      exact tracked.stored other config lookup
  · intro other
    by_cases same : other = band
    · subst same
      exact running
    · rw [(others other same).1, (others other same).2]
      exact tracked.running other

/-- A configuration is stored after its access point was updated. The one before
may have been another. -/
theorem ApTracked.replaced (tracked : ApTracked manager) (succeed : answers.Succeed)
    {config : WLANConfiguration}
    (configs : next.wlanConfiguration = Function.update manager.wlanConfiguration config.band
      (some { config with accessPointUp := upAfter answers manager.internet config }))
    (running : next.apRunning = Function.update manager.apRunning config.band
      (runningAfter answers manager.internet config (manager.apRunning config.band)))
    (known : manager.apRunning config.band = config.accessPointUp ∨
      manager.internet = true ∧ config.accessPoint = true ∧ config.accessPointUp = false) :
    ApTracked next := by
  refine tracked.of_band config.band ?_ ?_ fun other different => ?_
  · intro found lookup
    rw [configs, Function.update_self] at lookup
    cases lookup
    rfl
  · rw [configs, running, Function.update_self, Function.update_self,
      runningAfter_of_succeed succeed known, ← upAfter_of_succeed succeed]
    rfl
  · rw [configs, running, Function.update_of_ne different, Function.update_of_ne different]
    exact ⟨rfl, rfl⟩

theorem ApTracked.update (tracked : ApTracked manager) (succeed : answers.Succeed) {band : Band}
    {config : WLANConfiguration} (stored : manager.wlanConfiguration band = some config) :
    ApTracked (manager.updateAccessPoint device answers band config) := by
  obtain rfl := tracked.stored band config stored
  have updated := updateAccessPoint_spec device answers manager config.band config
  refine tracked.replaced succeed updated.wlanConfiguration updated.apRunning (.inl ?_)
  rw [tracked.running, stored]
  rfl

theorem ApTracked.install (tracked : ApTracked manager) (succeed : answers.Succeed)
    {config : WLANConfiguration} (down : config.accessPointUp = false)
    (wanted : ∀ current, manager.wlanConfiguration config.band = some current →
      current.accessPointUp = true → manager.internet = true ∧ current.accessPoint = true) :
    ApTracked (manager.install device answers config) := by
  have installed := install_spec device manager answers config
  refine tracked.replaced succeed installed.wlanConfiguration installed.apRunning ?_
  simp only [tracked.running, down, ConnectionManager.initialAccessPoint]
  cases stored : manager.wlanConfiguration config.band with
  | none => exact .inl rfl
  | some current =>
      cases up : current.accessPointUp with
      | false => exact .inl up
      | true =>
          obtain ⟨internet, accessPoint⟩ := wanted current stored up
          exact .inr ⟨internet, accessPoint, trivial⟩

theorem ApTracked.remove (tracked : ApTracked manager) (succeed : answers.Succeed) {band : Band}
    {config : WLANConfiguration} (stored : manager.wlanConfiguration band = some config) :
    ApTracked (manager.removeWlanConfiguration device answers band config) := by
  have removed := removeWlanConfiguration_spec device answers manager band config
  obtain rfl := tracked.stored band config stored
  refine tracked.of_band config.band ?_ ?_ fun other different => ?_
  · intro found lookup
    rw [removed.wlanConfiguration, Function.update_self] at lookup
    cases lookup
  · rw [removed.wlanConfiguration, removed.apRunning, Function.update_self, Function.update_self,
      tracked.running, stored, succeed.2.1]
    cases up : config.accessPointUp <;> simp [up]
  · rw [removed.wlanConfiguration, removed.apRunning, Function.update_of_ne different,
      Function.update_of_ne different]
    exact ⟨rfl, rfl⟩

/-- Changing only `access_point` leaves the access points alone. -/
theorem ApTracked.flag (tracked : ApTracked manager) {band : Band} {config : WLANConfiguration}
    (stored : manager.wlanConfiguration band = some config) (accessPoint : Bool) :
    ApTracked (manager.put band (some { config with accessPoint := accessPoint })) := by
  refine tracked.of_band band ?_ ?_ fun other different => ⟨manager.put_of_ne _ _ different, rfl⟩
  · intro found lookup
    rw [ConnectionManager.put_self] at lookup
    cases lookup
    exact tracked.stored band config stored
  · rw [ConnectionManager.put_self]
    have before := tracked.running band
    rw [stored] at before
    exact before

end Steps

section Passes

variable {device : Device} {manager : ConnectionManager}

/-- The access point of the band is up exactly when it is wanted. -/
def ApSettled (manager : ConnectionManager) (band : Band) : Prop :=
  ∀ config, manager.wlanConfiguration band = some config →
    config.accessPointUp = (manager.internet && config.accessPoint)

theorem updateBands_single (answers : Band → Answers) (band : Band) :
    manager.updateBands device answers false [band] =
      match manager.wlanConfiguration band with
      | none => manager
      | some config => manager.updateAccessPoint device (answers band) band config := by
  cases stored : manager.wlanConfiguration band with
  | none => simp [ConnectionManager.updateBands, stored]
  | some config => simp [ConnectionManager.updateBands, stored]

/-- What a pass does with an interface that has one band. -/
theorem updateBands_tracked (device : Device) (tracked : ApTracked manager)
    {answers : Band → Answers} (succeed : ∀ band, (answers band).Succeed) (band : Band) :
    ApTracked (manager.updateBands device answers false [band]) ∧
      ApSettled (manager.updateBands device answers false [band]) band ∧
      ∀ other, ApSettled manager other →
        ApSettled (manager.updateBands device answers false [band]) other := by
  rw [updateBands_single]
  cases stored : manager.wlanConfiguration band with
  | none =>
      refine ⟨tracked, fun config lookup => ?_, fun _ settled => settled⟩
      rw [stored] at lookup
      cases lookup
  | some config =>
      have updated := updateAccessPoint_spec device (answers band) manager band config
      have own : ApSettled (manager.updateAccessPoint device (answers band) band config) band := by
        intro found lookup
        rw [updated.wlanConfiguration, Function.update_self] at lookup
        cases lookup
        rw [updated.internet]
        exact upAfter_of_succeed (succeed band)
      refine ⟨tracked.update (succeed band) stored, own, fun other settled => ?_⟩
      by_cases same : other = band
      · exact same ▸ own
      · intro found lookup
        rw [updated.wlanConfiguration, Function.update_of_ne same] at lookup
        rw [updated.internet]
        exact settled found lookup

/-- The loop over the interfaces of a pass. -/
theorem passes_tracked (device : Device) {radios : List (List Band × Nat)}
    (single : ∀ radio ∈ radios, ∃ band, radio.1 = [band]) {provisioning : Nat → Bool}
    {answers : Nat → Band → Answers} (succeed : ∀ wifi band, (answers wifi band).Succeed)
    (tracked : ApTracked manager) :
    let after := radios.foldl (fun manager radio =>
      if provisioning radio.2 then manager
      else manager.updateBands device (answers radio.2) false radio.1) manager
    ApTracked after ∧ (∀ band, ApSettled manager band → ApSettled after band) ∧
      ∀ band wifi, ([band], wifi) ∈ radios → provisioning wifi = false → ApSettled after band := by
  induction radios generalizing manager with
  | nil => exact ⟨tracked, fun _ settled => settled, fun _ _ member => by cases member⟩
  | cons radio radios ih =>
      obtain ⟨⟨band, only⟩, others⟩ := List.forall_mem_cons.mp single
      obtain ⟨bands, wifi⟩ := radio
      obtain rfl : bands = [band] := only
      simp only [List.foldl_cons]
      by_cases skipped : provisioning wifi = true
      · simp only [skipped, if_true]
        obtain ⟨after, kept, settled⟩ := ih others tracked
        refine ⟨after, kept, fun each index member free => ?_⟩
        rcases List.mem_cons.mp member with same | later
        · cases same
          rw [skipped] at free
          cases free
        · exact settled each index later free
      · simp only [skipped, Bool.false_eq_true, if_false]
        obtain ⟨next, own, rest⟩ := updateBands_tracked device tracked (succeed wifi) band
        obtain ⟨after, kept, settled⟩ := ih others next
        refine ⟨after, fun each before => kept each (rest each before), ?_⟩
        intro each index member free
        rcases List.mem_cons.mp member with same | later
        · cases same
          exact kept band own
        · exact settled each index later free

end Passes

section Runs

variable {device : Device} {manager next : ConnectionManager} {event : Event}

/-- What an access point needs is only in the configurations and the bands they run on. -/
theorem ApTracked.of_same (tracked : ApTracked manager)
    (configs : next.wlanConfiguration = manager.wlanConfiguration)
    (running : next.apRunning = manager.apRunning) : ApTracked next := by
  constructor
  · rw [configs]
    exact tracked.stored
  · rw [configs, running]
    exact tracked.running

theorem runOnce_tracked (radios : device.OneRadioPerBand) {provisioning : Nat → Bool}
    {answers : Nat → Band → Answers} (succeed : ∀ wifi band, (answers wifi band).Succeed)
    (tracked : ApTracked manager) :
    ApTracked (manager.runOnce device provisioning answers) ∧
      ∀ wifi band, device.wifi[wifi]? = some [band] → provisioning wifi = false →
        ApSettled (manager.runOnce device provisioning answers) band := by
  have single (radio : List Band × Nat) (member : radio ∈ device.wifi.zipIdx) :
      ∃ band, radio.1 = [band] :=
    radios.1 radio.1 (List.fst_mem_of_mem_zipIdx member)
  obtain ⟨after, -, settled⟩ := passes_tracked device single succeed tracked
  refine ⟨after, fun wifi band radio free => settled band wifi ?_ free⟩
  exact List.mem_zipIdx_iff_getElem?.mpr radio

theorem Handled.tracked (radios : device.OneRadioPerBand)
    (handled : Handled device manager event next) (succeeds : event.Succeeds)
    (wanted : ApWanted device manager event) (tracked : ApTracked manager) : ApTracked next := by
  cases handled with
  | @installed filename contents answers config command new =>
      have filed : ApTracked (manager.setFile filename (some contents)) :=
        tracked.of_same rfl rfl
      refine filed.install succeeds (Device.command_down command) fun current stored up => ?_
      exact wanted config current command stored (new current stored) up
  | @apEnabled filename contents answers band config other ap found =>
      have filed : ApTracked (manager.setFile filename (some contents)) :=
        tracked.of_same rfl rfl
      exact filed.flag (configFor_eq_some.mp found).2 true
  | written old ap => exact tracked.of_same rfl rfl
  | @removed filename answers band config found =>
      have filed : ApTracked (manager.setFile filename none) := tracked.of_same rfl rfl
      exact filed.remove succeeds (configFor_eq_some.mp found).2
  | @apDisabled filename answers band config other found =>
      have filed : ApTracked (manager.setFile filename none) := tracked.of_same rfl rfl
      exact filed.flag (configFor_eq_some.mp found).2 false
  | deleted other ap => exact tracked.of_same rfl rfl
  | internet up => exact tracked.of_same rfl rfl
  | runOnce provisioning answers => exact (runOnce_tracked radios succeeds tracked).1
  | assigned wifi p value answers => exact tracked.of_same rfl rfl

/-- A configuration that replaces one whose access point is up forgets it unless
the access point is wanted. -/
theorem install_known {answers : Answers} {config current : WLANConfiguration}
    (tracked : ApTracked manager) (stored : manager.wlanConfiguration config.band = some current)
    (up : current.accessPointUp = true) (down : config.accessPointUp = false)
    (known : ApKnown (manager.install device answers config)) :
    manager.internet = true ∧ current.accessPoint = true := by
  have installed := install_spec device manager answers config
  have inherited : manager.initialAccessPoint config = current.accessPoint := by
    rw [ConnectionManager.initialAccessPoint, stored]
  rw [inherited] at installed
  by_contra unwanted
  have left : (manager.install device answers config).apRunning config.band = true := by
    rw [installed.apRunning, Function.update_self, runningAfter, if_neg unwanted, tracked.running,
      stored, down]
    exact Bool.and_true _ ▸ up
  have flag := known config.band _ (by
    rw [installed.wlanConfiguration, Function.update_self]) left
  simp only [upAfter, if_neg unwanted, down, Bool.false_and, Bool.false_eq_true] at flag

theorem Handled.wanted (handled : Handled device manager event next) (tracked : ApTracked manager)
    (known : ApKnown next) : ApWanted device manager event := by
  cases handled with
  | @installed filename contents answers config command new =>
      intro config' current command' stored _ up
      rw [command] at command'
      cases command'
      have filed : ApTracked (manager.setFile filename (some contents)) :=
        tracked.of_same rfl rfl
      have wanted := install_known filed stored up (Device.command_down command) known
      exact wanted
  | apEnabled other ap found =>
      intro config current command
      rw [other] at command
      cases command
  | written old ap =>
      intro config current command stored different up
      exact absurd (isNew_of_stored stored different) (old config command)
  | removed => trivial
  | apDisabled => trivial
  | deleted => trivial
  | internet => trivial
  | runOnce => trivial
  | assigned => trivial

theorem apTracked_start (internet : Bool) : ApTracked (.start internet) := by
  constructor
  · intro band config stored
    cases stored
  · intro band
    rfl

/-- Access points are known throughout exactly the runs in which none that is
up and not wanted has its configuration replaced, and each pass of these runs
leaves the access points of its interfaces running that are wanted. -/
theorem ap_known_throughout_iff (radios : device.OneRadioPerBand) {internet : Bool}
    {trace : List (ConnectionManager × Event)}
    (run : Run (Stepped device) (.start internet) trace manager)
    (succeeds : StepsMeet (fun _ event => event.Succeeds) trace) :
    (Throughout ApKnown trace manager ↔ StepsMeet (ApWanted device) trace) ∧
      (StepsMeet (ApWanted device) trace →
        ∀ provisioning answers next, (∀ wifi band, (answers wifi band).Succeed) →
          Stepped device manager (.runOnce provisioning answers) next →
          ∀ (wifi : Nat) band config, device.wifi[wifi]? = some [band] →
            provisioning wifi = false → next.wlanConfiguration band = some config →
            (next.apRunning band = true ↔ config.accessPoint = true ∧ next.internet = true)) := by
  have succeeding := run.with_met succeeds
  have kept {state next : ConnectionManager} {event : Event} (tracked : ApTracked state)
      (wanted : ApWanted device state event)
      (step : Stepped device state event next ∧ event.Succeeds) : ApTracked next :=
    (handled step.1).tracked radios step.2 wanted tracked
  constructor
  · refine succeeding.throughout_iff_met (apTracked_start internet) ApTracked.known kept ?_
    intro state event next tracked step known
    exact (handled step.1).wanted tracked known
  · intro wanted provisioning answers next succeed stepped wifi band config radio free stored
    have before := (succeeding.throughout (apTracked_start internet) kept wanted).2
    cases stepped
    obtain ⟨tracked, settled⟩ := runOnce_tracked radios succeed before
    have flag := settled wifi band radio free config stored
    rw [tracked.running, stored, Option.any_some, flag, Bool.and_eq_true, and_comm]

/-- An interface for each band. -/
def twoRadios : Device :=
  ⟨[[.ghz5], [.ghz24]], .inserted⟩

theorem twoRadios_oneRadioPerBand : twoRadios.OneRadioPerBand := by
  refine ⟨fun bands member => ?_, by decide⟩
  simp only [twoRadios, List.mem_cons, List.not_mem_nil, or_false] at member
  rcases member with same | same
  · exact ⟨.ghz5, same⟩
  · exact ⟨.ghz24, same⟩

theorem Answers.quiet_succeed : Answers.quiet.Succeed :=
  ⟨rfl, rfl, rfl, rfl⟩

/-- The network is changed while its access point is wanted. -/
def changedWhileWanted : List Event :=
  [wrote "access_point.5" "", wrote "command.5" "wifi\nset\n-s\nhome",
    wrote "command.5" "wifi\nset\n-s\nguest", .internet false]

theorem ap_known_while_wanted : ∃ trace manager next config,
    Run (Stepped twoRadios) (.start true) trace manager ∧ Throughout ApKnown trace manager ∧
      manager.apRunning .ghz5 = true ∧
      Stepped twoRadios manager (.runOnce (fun _ => false) fun _ _ => .quiet) next ∧
      next.wlanConfiguration .ghz5 = some config ∧
      (next.apRunning .ghz5 = true ↔ config.accessPoint = true ∧ next.internet = true) := by
  have wanted : StepsMeet (ApWanted twoRadios)
      (traceOf (ConnectionManager.advance twoRadios) (.start true) changedWhileWanted) := by
    simp only [StepsMeet, changedWhileWanted, traceOf, List.forall_mem_cons]
    decide +kernel
  have run := @run_advance twoRadios (.start true) changedWhileWanted (by
    simp only [StepsMeet, changedWhileWanted, traceOf, List.forall_mem_cons]
    decide +kernel)
  have known := ap_known_throughout_iff twoRadios_oneRadioPerBand run (by
    simp only [StepsMeet, changedWhileWanted, traceOf, List.forall_mem_cons]
    exact ⟨Answers.quiet_succeed, Answers.quiet_succeed, Answers.quiet_succeed, trivial, by simp⟩)
  have passed : ((((changedWhileWanted.foldl (ConnectionManager.advance twoRadios)
      (.start true)).runOnce twoRadios (fun _ => false) fun _ _ => .quiet)).wlanConfiguration
        .ghz5).isSome := by
    decide +kernel
  obtain ⟨config, stored⟩ := Option.isSome_iff_exists.mp passed
  refine ⟨_, _, _, config, run, known.1.mpr wanted, by decide +kernel, rfl, stored, ?_⟩
  exact known.2 wanted _ _ _ (fun _ _ => Answers.quiet_succeed) rfl 0 .ghz5 config rfl rfl stored

/-- The network is changed after the internet access was lost, and the main loop passes. -/
def changedWhileUnwanted : List Event :=
  [wrote "access_point.5" "", wrote "command.5" "wifi\nset\n-s\nhome", .internet false,
    wrote "command.5" "wifi\nset\n-s\nguest", .runOnce (fun _ => false) fun _ _ => .quiet]

theorem ap_left_running : twoRadios.OneRadioPerBand ∧ ∃ trace manager config,
    Run (Stepped twoRadios) (.start true) trace manager ∧
      StepsMeet (fun _ event => event.Succeeds) trace ∧ manager.internet = false ∧
      manager.apRunning .ghz5 = true ∧ manager.wlanConfiguration .ghz5 = some config ∧
      config.accessPointUp = false := by
  have flag : ((changedWhileUnwanted.foldl (ConnectionManager.advance twoRadios)
      (.start true)).wlanConfiguration .ghz5).map WLANConfiguration.accessPointUp = some false := by
    decide +kernel
  obtain ⟨config, stored, down⟩ := Option.map_eq_some_iff.mp flag
  have run := @run_advance twoRadios (.start true) changedWhileUnwanted (by
    simp only [StepsMeet, changedWhileUnwanted, traceOf, List.forall_mem_cons]
    decide +kernel)
  refine ⟨twoRadios_oneRadioPerBand, _, _, config, run, ?_, rfl, by decide +kernel, stored, down⟩
  simp only [StepsMeet, changedWhileUnwanted, traceOf, List.forall_mem_cons]
  exact ⟨Answers.quiet_succeed, Answers.quiet_succeed, trivial, Answers.quiet_succeed,
    fun _ _ => Answers.quiet_succeed, by simp⟩

end Runs

end Gfiber.Conman
