import Gfiber.Lib.Run
import Gfiber.Conman.ConnectionManager

/-! What each step of the connection manager can change. -/

set_option autoImplicit false

namespace Gfiber.Conman

open Lib

namespace ConnectionManager

variable (manager : ConnectionManager) (band : Band) (config : Option WLANConfiguration)

@[simp] theorem put_self : (manager.put band config).wlanConfiguration band = config :=
  Function.update_self ..

theorem put_of_ne {other : Band} (different : other ≠ band) :
    (manager.put band config).wlanConfiguration other = manager.wlanConfiguration other :=
  Function.update_of_ne different ..

end ConnectionManager

/-- The values after some propositions other than `HAVE_CONFIG` were set. -/
inductive Assigned (order : IterationOrder (P × List P × List P)) (board : Board P Empty) :
    Board P Empty → Prop where
  | refl : Assigned order board board
  | tail {next : Board P Empty} (earlier : Assigned order board next) (orders : SetOrders P Empty)
      (p : P) (value : Bool) (other : p ≠ .haveConfig) :
      Assigned order board ((set (statusNetwork order) orders 35 next p value).getD next)

theorem Assigned.trans {order : IterationOrder (P × List P × List P)}
    {board middle next : Board P Empty} (first : Assigned order board middle)
    (second : Assigned order middle next) : Assigned order board next := by
  induction second with
  | refl => exact first
  | tail _ orders p value other ih => exact ih.tail orders p value other

/-- Only the status of one interface is changed, by a client that is started or stopped on it. -/
structure ClientChanged (device : Device) (wifi : Nat) (manager next : ConnectionManager) :
    Prop where
  files : next.files = manager.files
  wlanConfiguration : next.wlanConfiguration = manager.wlanConfiguration
  internet : next.internet = manager.internet
  apRunning : next.apRunning = manager.apRunning
  own : Assigned device.setUpOrder (manager.status wifi) (next.status wifi)
  others : ∀ i, i ≠ wifi → next.status i = manager.status i

namespace ClientChanged

variable {device : Device} {wifi : Nat} {manager middle next : ConnectionManager}

theorem refl (manager : ConnectionManager) : ClientChanged device wifi manager manager :=
  ⟨rfl, rfl, rfl, rfl, .refl, fun _ _ => rfl⟩

theorem trans (first : ClientChanged device wifi manager middle)
    (second : ClientChanged device wifi middle next) : ClientChanged device wifi manager next where
  files := second.files.trans first.files
  wlanConfiguration := second.wlanConfiguration.trans first.wlanConfiguration
  internet := second.internet.trans first.internet
  apRunning := second.apRunning.trans first.apRunning
  own := first.own.trans second.own
  others i other := (second.others i other).trans (first.others i other)

theorem setStatus (answers : Answers) {p : P} (other : p ≠ .haveConfig) (value : Bool) :
    ClientChanged device wifi manager (manager.setStatus device answers wifi p value) where
  files := rfl
  wlanConfiguration := rfl
  internet := rfl
  apRunning := rfl
  own := by
    simp only [ConnectionManager.setStatus, Function.update_self]
    exact Assigned.refl.tail _ p value other
  others i different := by
    simp only [ConnectionManager.setStatus, Function.update_of_ne different]

end ClientChanged

section Clients

variable (device : Device) (answers : Answers) (config : WLANConfiguration)
  (manager : ConnectionManager)

theorem stopClient_changed :
    ClientChanged device config.wifi manager (config.stopClient device answers manager) := by
  unfold WLANConfiguration.stopClient
  split
  case isTrue => exact .refl manager
  case isFalse =>
    split
    case isTrue => exact .setStatus answers (by decide) _
    case isFalse => exact .refl manager

theorem actuallyStartClient_changed : ClientChanged device config.wifi manager
    (config.actuallyStartClient device answers manager).1 := by
  have trying : ClientChanged device config.wifi manager
      (manager.setStatus device answers config.wifi .tryingWlan true) :=
    .setStatus answers (by decide) _
  unfold WLANConfiguration.actuallyStartClient
  split
  case isTrue => exact trying
  case isFalse => exact trying.trans (.setStatus answers (by decide) _)

theorem startClient_changed :
    ClientChanged device config.wifi manager (config.startClient device answers manager) := by
  unfold WLANConfiguration.startClient
  split
  case isTrue => exact .refl manager
  case isFalse =>
    split
    case isTrue => exact .refl manager
    case isFalse =>
      split
      case isTrue => exact .refl manager
      case isFalse =>
        simp only
        split
        case isTrue =>
          exact (actuallyStartClient_changed ..).trans (.setStatus answers (by decide) _)
        case isFalse => exact actuallyStartClient_changed ..

end Clients

section AccessPoints

variable (device : Device) (answers : Answers) {config : WLANConfiguration}
  (manager : ConnectionManager)

/-- What `_update_access_point` makes of `access_point_up`. -/
def upAfter (answers : Answers) (internet : Bool) (config : WLANConfiguration) : Bool :=
  if internet ∧ config.accessPoint then config.accessPointUp || answers.startAp
  else config.accessPointUp && !answers.stopAp

/-- What it makes of the access point. -/
def runningAfter (answers : Answers) (internet : Bool) (config : WLANConfiguration)
    (running : Bool) : Bool :=
  if internet ∧ config.accessPoint then running || (!config.accessPointUp && answers.startAp)
  else running && !(config.accessPointUp && answers.stopAp)

/-- What `_update_access_point` changes. -/
structure ApUpdated (device : Device) (answers : Answers) (manager : ConnectionManager)
    (band : Band) (config : WLANConfiguration) (next : ConnectionManager) : Prop where
  files : next.files = manager.files
  internet : next.internet = manager.internet
  wlanConfiguration : next.wlanConfiguration = Function.update manager.wlanConfiguration band
    (some { config with accessPointUp := upAfter answers manager.internet config })
  apRunning : next.apRunning = Function.update manager.apRunning config.band
    (runningAfter answers manager.internet config (manager.apRunning config.band))
  own : Assigned device.setUpOrder (manager.status config.wifi) (next.status config.wifi)
  others : ∀ i, i ≠ config.wifi → next.status i = manager.status i

theorem setAp_self (band : Band) :
    manager.setAp band (manager.apRunning band) = manager := by
  simp [ConnectionManager.setAp]

theorem startAccessPoint_spec (wanted : config.accessPoint = true) :
    ∃ client, ClientChanged device config.wifi manager client ∧
      config.startAccessPoint device answers manager =
        (client.setAp config.band
          (manager.apRunning config.band || (!config.accessPointUp && answers.startAp)),
        { config with accessPointUp := config.accessPointUp || answers.startAp }) := by
  unfold WLANConfiguration.startAccessPoint
  obtain ⟨band, wifi, command, ssid, passphrase, suffix, accessPoint, up⟩ := config
  cases up with
  | true =>
      refine ⟨manager, .refl manager, ?_⟩
      simp [setAp_self]
  | false =>
      have stopped := stopClient_changed device answers
        ⟨band, wifi, command, ssid, passphrase, suffix, accessPoint, false⟩ manager
      refine ⟨_, stopped, ?_⟩
      rw [← stopped.apRunning]
      have wanted : accessPoint = true := wanted
      cases started : answers.startAp with
      | true => simp [wanted]
      | false => simp [wanted, setAp_self]

theorem stopAccessPoint_spec : config.stopAccessPoint answers manager =
    (manager.setAp config.band
      (manager.apRunning config.band && !(config.accessPointUp && answers.stopAp)),
    { config with accessPointUp := config.accessPointUp && !answers.stopAp }) := by
  unfold WLANConfiguration.stopAccessPoint
  obtain ⟨band, wifi, command, ssid, passphrase, suffix, accessPoint, up⟩ := config
  cases up with
  | true =>
      cases stopped : answers.stopAp with
      | true => simp
      | false => simp [setAp_self]
  | false => simp [setAp_self]

theorem updateAccessPoint_spec (band : Band) (config : WLANConfiguration) :
    ApUpdated device answers manager band config
      (manager.updateAccessPoint device answers band config) := by
  unfold ConnectionManager.updateAccessPoint
  split
  case isTrue wanted =>
    obtain ⟨client, changed, started⟩ := startAccessPoint_spec device answers manager wanted.2
    rw [started]
    refine ⟨changed.files, changed.internet, ?_, ?_, changed.own, changed.others⟩
    · simp [ConnectionManager.put, ConnectionManager.setAp, changed.wlanConfiguration, upAfter,
        wanted]
    · simp [ConnectionManager.put, ConnectionManager.setAp, changed.apRunning, runningAfter,
        wanted]
  case isFalse unwanted =>
    rw [stopAccessPoint_spec]
    have changed := startClient_changed device answers
      { config with accessPointUp := config.accessPointUp && !answers.stopAp }
      (manager.setAp config.band
        (manager.apRunning config.band && !(config.accessPointUp && answers.stopAp)))
    refine ⟨changed.files, changed.internet, ?_, ?_, changed.own, changed.others⟩
    · rw [upAfter, if_neg unwanted]
      exact congrArg (Function.update · band _) changed.wlanConfiguration
    · rw [runningAfter, if_neg unwanted]
      exact changed.apRunning

section HaveConfig

variable (band : Band) (value : Bool)

theorem setHaveConfig_eq : manager.setHaveConfig device answers band value =
    { manager with status := (manager.setHaveConfig device answers band value).status } := by
  unfold ConnectionManager.setHaveConfig
  split
  case h_1 => rfl
  case h_2 => rfl

@[simp] theorem files_setHaveConfig :
    (manager.setHaveConfig device answers band value).files = manager.files := by
  rw [setHaveConfig_eq]

@[simp] theorem wlanConfiguration_setHaveConfig :
    (manager.setHaveConfig device answers band value).wlanConfiguration =
      manager.wlanConfiguration := by
  rw [setHaveConfig_eq]

@[simp] theorem internet_setHaveConfig :
    (manager.setHaveConfig device answers band value).internet = manager.internet := by
  rw [setHaveConfig_eq]

@[simp] theorem apRunning_setHaveConfig :
    (manager.setHaveConfig device answers band value).apRunning = manager.apRunning := by
  rw [setHaveConfig_eq]

end HaveConfig

/-- No other band has a configuration. -/
def ConnectionManager.LastConfig (band : Band) : Prop :=
  ∀ other, other ≠ band → manager.wlanConfiguration other = none

theorem lastConfig_iff {band : Band} : manager.LastConfig band ↔
    Function.update manager.wlanConfiguration band none .ghz24 = none ∧
      Function.update manager.wlanConfiguration band none .ghz5 = none := by
  constructor
  · intro last
    have each (other : Band) : Function.update manager.wlanConfiguration band none other = none := by
      by_cases same : other = band
      · rw [same, Function.update_self]
      · rw [Function.update_of_ne same, last other same]
    exact ⟨each _, each _⟩
  · rintro ⟨first, second⟩ other different
    rw [← Function.update_of_ne different none manager.wlanConfiguration]
    cases other with
    | ghz24 => exact first
    | ghz5 => exact second

/-- What `_remove_wlan_configuration` changes. -/
structure ConfigRemoved (device : Device) (answers : Answers) (manager : ConnectionManager)
    (band : Band) (config : WLANConfiguration) (next : ConnectionManager) : Prop where
  files : next.files = manager.files
  wlanConfiguration : next.wlanConfiguration = Function.update manager.wlanConfiguration band none
  apRunning : next.apRunning = Function.update manager.apRunning config.band
    (manager.apRunning config.band && !(config.accessPointUp && answers.stopAp))
  status : ∃ client, ClientChanged device config.wifi manager client ∧
    (manager.LastConfig band →
      next.status = (client.setHaveConfig device answers band false).status) ∧
    (¬manager.LastConfig band → next.status = client.status)

theorem status_setHaveConfig_congr {first second : ConnectionManager} (band : Band) (value : Bool)
    (same : first.status = second.status) :
    (first.setHaveConfig device answers band value).status =
      (second.setHaveConfig device answers band value).status := by
  unfold ConnectionManager.setHaveConfig
  split
  case h_1 => simp only [ConnectionManager.setStatus, same]
  case h_2 => exact same

theorem removeWlanConfiguration_spec (band : Band) (config : WLANConfiguration) :
    ConfigRemoved device answers manager band config
      (manager.removeWlanConfiguration device answers band config) := by
  have stopped := stopClient_changed device answers config manager
  unfold ConnectionManager.removeWlanConfiguration
  simp only
  generalize left : (config.stopAccessPoint answers
    (config.stopClient device answers manager)).1 = rest
  rw [stopAccessPoint_spec, stopped.apRunning] at left
  have configs : (rest.put band none).wlanConfiguration =
      Function.update manager.wlanConfiguration band none := by
    rw [← left, ← stopped.wlanConfiguration]
    rfl
  have running : rest.apRunning = Function.update manager.apRunning config.band
      (manager.apRunning config.band && !(config.accessPointUp && answers.stopAp)) := by
    rw [← left, ← stopped.apRunning]
    rfl
  have files : rest.files = manager.files := by rw [← left, ← stopped.files]; rfl
  have status : rest.status = (config.stopClient device answers manager).status := by
    rw [← left]
    rfl
  split
  case isTrue last =>
    rw [configs, ← lastConfig_iff] at last
    refine ⟨?_, ?_, ?_, _, stopped, fun _ => ?_, fun more => absurd last more⟩
    · rw [files_setHaveConfig]
      exact files
    · rw [wlanConfiguration_setHaveConfig, configs]
    · rw [apRunning_setHaveConfig]
      exact running
    · exact status_setHaveConfig_congr device answers band false status
  case isFalse more =>
    rw [configs, ← lastConfig_iff] at more
    exact ⟨files, configs, running, _, stopped, fun last => absurd last more, fun _ => status⟩

end AccessPoints

/-- The configuration that a written command file is read into. -/
def Device.command (device : Device) (filename contents : Text) : Option WLANConfiguration := do
  let _ ← Text.afterLiteral commandFile filename
  let band ← matchWlanFile commandFile filename
  let wifi ← device.wifiForBand band
  WLANConfiguration.new band wifi (Text.strip contents)

/-- The configuration replaces the current one, or there is none. -/
def ConnectionManager.IsNew (manager : ConnectionManager) (config : WLANConfiguration) : Prop :=
  ∀ current, manager.wlanConfiguration config.band = some current →
    config.command ≠ current.command

section Steps

variable (device : Device) (manager : ConnectionManager)

/-- The configuration is stored and its interface told. -/
def ConnectionManager.install (answers : Answers) (config : WLANConfiguration) :
    ConnectionManager :=
  let config := { config with accessPoint := manager.initialAccessPoint config }
  ((manager.put config.band (some config)).setHaveConfig device answers config.band
    true).updateAccessPoint device answers config.band config

/-- What a new configuration changes, `config` with its `access_point` set. -/
structure ConfigInstalled (device : Device) (answers : Answers) (manager : ConnectionManager)
    (config : WLANConfiguration) (next : ConnectionManager) : Prop where
  files : next.files = manager.files
  internet : next.internet = manager.internet
  wlanConfiguration : next.wlanConfiguration = Function.update manager.wlanConfiguration config.band
    (some { config with accessPointUp := upAfter answers manager.internet config })
  apRunning : next.apRunning = Function.update manager.apRunning config.band
    (runningAfter answers manager.internet config (manager.apRunning config.band))
  own : Assigned device.setUpOrder
    ((manager.setHaveConfig device answers config.band true).status config.wifi)
    (next.status config.wifi)
  others : ∀ i, i ≠ config.wifi →
    next.status i = (manager.setHaveConfig device answers config.band true).status i

theorem install_spec (answers : Answers) (config : WLANConfiguration) :
    ConfigInstalled device answers manager
      { config with accessPoint := manager.initialAccessPoint config }
      (manager.install device answers config) := by
  let stored := { config with accessPoint := manager.initialAccessPoint config }
  have told := status_setHaveConfig_congr device answers config.band true
    (show (manager.put config.band (some stored)).status = manager.status from rfl)
  have updated := updateAccessPoint_spec device answers
    ((manager.put config.band (some stored)).setHaveConfig device answers config.band true)
    config.band stored
  obtain ⟨files, internet, configs, running, own, others⟩ := updated
  rw [files_setHaveConfig] at files
  rw [internet_setHaveConfig] at internet configs running
  rw [wlanConfiguration_setHaveConfig, ConnectionManager.put, Function.update_idem] at configs
  rw [apRunning_setHaveConfig] at running
  rw [told] at own others
  exact ⟨files, internet, configs, running, own, others⟩

/-- The ways in which an event is handled. -/
inductive Handled : Event → ConnectionManager → Prop where
  | installed {filename contents : Text} {answers : Answers} {config : WLANConfiguration}
      (command : device.command filename contents = some config) (new : manager.IsNew config) :
      Handled (.written filename contents answers)
        ((manager.setFile filename (some contents)).install device answers config)
  | apEnabled {filename contents : Text} {answers : Answers} {band : Band}
      {config : WLANConfiguration} (other : device.command filename contents = none)
      (ap : (Text.afterLiteral accessPointFile filename).isSome)
      (found : manager.configFor accessPointFile filename = some (band, config)) :
      Handled (.written filename contents answers)
        ((manager.setFile filename (some contents)).put band
          (some { config with accessPoint := true }))
  | written {filename contents : Text} {answers : Answers}
      (old : ∀ config, device.command filename contents = some config → ¬manager.IsNew config)
      (ap : ∀ band config, (Text.afterLiteral accessPointFile filename).isSome →
        manager.configFor accessPointFile filename = some (band, config) →
        device.wifiForBand band = none) :
      Handled (.written filename contents answers) (manager.setFile filename (some contents))
  | removed {filename : Text} {answers : Answers} {band : Band} {config : WLANConfiguration}
      (found : manager.configFor commandFile filename = some (band, config)) :
      Handled (.deleted filename answers)
        ((manager.setFile filename none).removeWlanConfiguration device answers band config)
  | apDisabled {filename : Text} {answers : Answers} {band : Band} {config : WLANConfiguration}
      (other : manager.configFor commandFile filename = none)
      (found : manager.configFor accessPointFile filename = some (band, config)) :
      Handled (.deleted filename answers)
        ((manager.setFile filename none).put band (some { config with accessPoint := false }))
  | deleted {filename : Text} {answers : Answers}
      (other : manager.configFor commandFile filename = none)
      (ap : manager.configFor accessPointFile filename = none) :
      Handled (.deleted filename answers) (manager.setFile filename none)
  | internet (up : Bool) : Handled (.internet up) { manager with internet := up }
  | runOnce (provisioning : Nat → Bool) (answers : Nat → Band → Answers) :
      Handled (.runOnce provisioning answers) (manager.runOnce device provisioning answers)
  | assigned (wifi : Nat) (p : P) (value : Bool) (answers : Answers) :
      Handled (.assigned wifi p value answers) (manager.setStatus device answers wifi p value)

variable {device manager}

theorem WLANConfiguration.new_wifi {band : Band} {wifi : Nat} {contents : Text}
    {config : WLANConfiguration} (read : WLANConfiguration.new band wifi contents = some config) :
    config.band = band ∧ config.wifi = wifi := by
  obtain ⟨ssid, -, made⟩ := Option.bind_eq_some_iff.mp read
  cases made
  exact ⟨rfl, rfl⟩

/-- A command file that is read gives the configuration of a band that an interface has. -/
theorem Device.command_new {filename contents : Text} {config : WLANConfiguration}
    (command : device.command filename contents = some config) :
    ∃ band wifi, device.wifiForBand band = some wifi ∧
      WLANConfiguration.new band wifi (Text.strip contents) = some config := by
  simp only [Device.command, Option.bind_eq_bind, Option.bind_eq_some_iff] at command
  obtain ⟨rest, -, band, -, wifi, found, read⟩ := command
  exact ⟨band, wifi, found, read⟩

theorem Device.command_wifi {filename contents : Text} {config : WLANConfiguration}
    (command : device.command filename contents = some config) :
    device.wifiForBand config.band = some config.wifi := by
  obtain ⟨band, wifi, found, read⟩ := Device.command_new command
  obtain ⟨rfl, rfl⟩ := WLANConfiguration.new_wifi read
  exact found

/-- A configuration that was just read has started no access point. -/
theorem Device.command_down {filename contents : Text} {config : WLANConfiguration}
    (command : device.command filename contents = some config) : config.accessPointUp = false := by
  obtain ⟨band, wifi, -, read⟩ := Device.command_new command
  obtain ⟨ssid, -, made⟩ := Option.bind_eq_some_iff.mp read
  cases made
  rfl

theorem configFor_eq_some {start filename : Text} {band : Band} {config : WLANConfiguration} :
    manager.configFor start filename = some (band, config) ↔
      matchWlanFile start filename = some band ∧ manager.wlanConfiguration band = some config := by
  simp only [ConnectionManager.configFor, Option.bind_eq_bind, Option.bind_eq_some_iff,
    Option.pure_def, Option.some.injEq, Prod.mk.injEq]
  constructor
  · rintro ⟨_, matched, _, stored, rfl, rfl⟩
    exact ⟨matched, stored⟩
  · rintro ⟨matched, stored⟩
    exact ⟨band, matched, config, stored, rfl, rfl⟩

theorem isNew_iff {config : WLANConfiguration} : manager.IsNew config ↔
    (manager.wlanConfiguration config.band).all
      (fun current => decide (config.command ≠ current.command)) = true := by
  cases stored : manager.wlanConfiguration config.band with
  | none => simp [ConnectionManager.IsNew, stored]
  | some current => simp [ConnectionManager.IsNew, stored]

theorem isNew_of_stored {config current : WLANConfiguration}
    (stored : manager.wlanConfiguration config.band = some current)
    (different : config.command ≠ current.command) : manager.IsNew config := by
  intro found lookup
  rw [stored] at lookup
  cases lookup
  exact different

theorem updateWlanConfiguration_new {answers : Answers} {config : WLANConfiguration}
    (new : manager.IsNew config) :
    manager.updateWlanConfiguration device answers config =
      manager.install device answers config := by
  rw [ConnectionManager.updateWlanConfiguration]
  exact if_pos (isNew_iff.mp new)

theorem updateWlanConfiguration_old {answers : Answers} {config : WLANConfiguration}
    (old : ¬manager.IsNew config) :
    manager.updateWlanConfiguration device answers config = manager := by
  rw [ConnectionManager.updateWlanConfiguration]
  exact if_neg fun all => old (isNew_iff.mpr all)

theorem not_both_files {filename : Text}
    (command : (Text.afterLiteral commandFile filename).isSome) :
    ¬(Text.afterLiteral accessPointFile filename).isSome := by
  intro ap
  obtain ⟨left, first⟩ := Option.isSome_iff_exists.mp command
  obtain ⟨right, second⟩ := Option.isSome_iff_exists.mp ap
  have start : filename.head? = some 'c' := by
    rw [Text.eq_append_of_afterLiteral first]
    rfl
  rw [Text.eq_append_of_afterLiteral second] at start
  cases start

theorem handled_command {filename contents : Text} {answers : Answers} {next : ConnectionManager}
    (literal : (Text.afterLiteral commandFile filename).isSome)
    (processed : (manager.setFile filename (some contents)).processCommandFile device answers
      filename (Text.strip contents) = some next) :
    Handled device manager (.written filename contents answers) next := by
  obtain ⟨rest, start⟩ := Option.isSome_iff_exists.mp literal
  have no_ap (band : Band) (config : WLANConfiguration)
      (ap : (Text.afterLiteral accessPointFile filename).isSome) : device.wifiForBand band = none :=
    absurd ap (not_both_files literal)
  have unread (no : device.command filename contents = none) :
      Handled device manager (.written filename contents answers)
        (manager.setFile filename (some contents)) :=
    .written (fun config read => by rw [no] at read; cases read)
      fun band config ap _ => no_ap band config ap
  rw [ConnectionManager.processCommandFile] at processed
  split at processed
  case h_1 unmatched =>
    cases processed
    exact unread (by simp [Device.command, start, unmatched])
  case h_2 band matched =>
    split at processed
    case h_1 missing =>
      cases processed
      exact unread (by simp [Device.command, start, matched, missing])
    case h_2 wifi found =>
      obtain ⟨config, read, made⟩ := Option.bind_eq_some_iff.mp processed
      cases made
      have command : device.command filename contents = some config := by
        simp [Device.command, start, matched, found, read]
      by_cases new : manager.IsNew config
      · have fresh : (manager.setFile filename (some contents)).IsNew config := new
        rw [updateWlanConfiguration_new fresh]
        exact .installed command new
      · have known : ¬(manager.setFile filename (some contents)).IsNew config := new
        rw [updateWlanConfiguration_old known]
        refine .written (fun other also => ?_) fun band config ap _ => no_ap band config ap
        rw [command] at also
        cases also
        exact new

theorem handled_accessPoint {filename contents : Text} {answers : Answers}
    (no : device.command filename contents = none)
    (literal : (Text.afterLiteral accessPointFile filename).isSome) :
    Handled device manager (.written filename contents answers)
      ((manager.setFile filename (some contents)).processAccessPointFile device filename) := by
  have unread (config : WLANConfiguration)
      (read : device.command filename contents = some config) : ¬manager.IsNew config := by
    rw [no] at read
    cases read
  rw [ConnectionManager.processAccessPointFile]
  split
  case h_1 band config found =>
    split
    case isTrue => exact .apEnabled no literal found
    case isFalse missing =>
      refine .written unread fun other _ _ also => ?_
      have same : manager.configFor accessPointFile filename = some (band, config) := found
      rw [same] at also
      cases also
      exact Option.not_isSome_iff_eq_none.mp missing
  case h_2 none_found =>
    refine .written unread fun band config _ found => ?_
    have same : manager.configFor accessPointFile filename = none := none_found
    rw [same] at found
    cases found

theorem handled_written {filename contents : Text} {answers : Answers} {next : ConnectionManager}
    (stepped : manager.step device (.written filename contents answers) = some next) :
    Handled device manager (.written filename contents answers) next := by
  rw [ConnectionManager.step, ConnectionManager.processFile] at stepped
  split at stepped
  case isTrue command => exact handled_command command stepped
  case isFalse command =>
    have no : device.command filename contents = none := by
      rw [Option.not_isSome_iff_eq_none] at command
      simp [Device.command, command]
    split at stepped
    case isTrue literal =>
      cases stepped
      exact handled_accessPoint no literal
    case isFalse other =>
      cases stepped
      refine .written (fun config read => ?_) fun band config literal _ => absurd literal other
      rw [no] at read
      cases read

theorem handled {event : Event} {next : ConnectionManager}
    (stepped : manager.step device event = some next) : Handled device manager event next := by
  cases event with
  | written filename contents answers => exact handled_written stepped
  | deleted filename answers =>
      rw [ConnectionManager.step] at stepped
      split at stepped
      case isFalse => cases stepped
      case isTrue =>
        cases stepped
        rw [ConnectionManager.handleDeletedFile]
        split
        case h_1 band config found => exact .removed found
        case h_2 other =>
          split
          case h_1 band config found => exact .apDisabled other found
          case h_2 ap => exact .deleted other ap
  | internet up =>
      cases stepped
      exact .internet up
  | runOnce provisioning answers =>
      cases stepped
      exact .runOnce provisioning answers
  | assigned wifi p value answers =>
      cases stepped
      exact .assigned wifi p value answers

end Steps

section Passes

variable {device : Device} {property : ConnectionManager → Prop}
  (updated : ∀ {manager band config} (answers : Answers), property manager →
    manager.wlanConfiguration band = some config →
    property (manager.updateAccessPoint device answers band config))
  (disabled : ∀ {manager band config}, property manager →
    manager.wlanConfiguration band = some config →
    property (manager.put band (some { config with accessPointUp := false })))

include updated disabled

/-- What the two ways of treating a configuration preserve, the loop over the
bands of an interface preserves. -/
theorem updateBands_preserves {manager : ConnectionManager} (initial : property manager)
    (answers : Band → Answers) (continueWifi : Bool) (bands : List Band) :
    property (manager.updateBands device answers continueWifi bands) := by
  induction bands generalizing manager continueWifi with
  | nil => exact initial
  | cons band bands ih =>
      rw [ConnectionManager.updateBands]
      cases stored : manager.wlanConfiguration band with
      | none => exact ih initial continueWifi
      | some config =>
          cases continueWifi with
          | true => exact ih (disabled initial stored) true
          | false => exact ih (updated (answers band) initial stored) _

theorem runOnce_preserves {manager : ConnectionManager} (initial : property manager)
    (provisioning : Nat → Bool) (answers : Nat → Band → Answers) :
    property (manager.runOnce device provisioning answers) := by
  unfold ConnectionManager.runOnce
  induction device.wifi.zipIdx generalizing manager with
  | nil => exact initial
  | cons radio radios ih =>
      rw [List.foldl_cons]
      cases provisioning radio.2 with
      | true => exact ih initial
      | false => exact ih (updateBands_preserves updated disabled initial ..)

end Passes

section Runs

/-- The manager after an event that raises nothing. -/
def ConnectionManager.advance (device : Device) (manager : ConnectionManager) (event : Event) :
    ConnectionManager :=
  (manager.step device event).getD manager

def Stepped (device : Device) (manager : ConnectionManager) (event : Event)
    (next : ConnectionManager) : Prop :=
  manager.step device event = some next

theorem run_advance {device : Device} {start : ConnectionManager} {events : List Event}
    (returns : StepsMeet (fun manager event => (manager.step device event).isSome)
      (traceOf (ConnectionManager.advance device) start events)) :
    Run (Stepped device) start (traceOf (ConnectionManager.advance device) start events)
      (events.foldl (ConnectionManager.advance device) start) := by
  refine Run.of_trace start events fun entry member => ?_
  obtain ⟨next, stepped⟩ := Option.isSome_iff_exists.mp (returns entry member)
  simp only [Stepped, ConnectionManager.advance, stepped, Option.getD_some]

/-- Every command succeeds, and no network is joined. -/
def Answers.quiet : Answers :=
  ⟨none, none, true, true, true, true, false, true, .inserted⟩

/-- A file is written while every command succeeds. -/
def wrote (filename contents : String) : Event :=
  .written filename.toList contents.toList .quiet

end Runs

end Gfiber.Conman
