import Gfiber.Conman.DeletionProperties
import Gfiber.Conman.FileEvents
import Gfiber.Conman.ManagerProperties

/-! When the handling of file events returns. -/

set_option autoImplicit false

namespace Gfiber.Conman

open Lib

section Conditions

/-- A command file for the band of an interface names an SSID. -/
def NamesSsid (device : Device) (filename text : Text) : Prop :=
  (Text.afterLiteral commandFile filename).isSome →
    ∀ band, matchWlanFile commandFile filename = some band → (device.wifiForBand band).isSome →
      (readOptions none ⟨none, none, none⟩ (splitLines [] (Text.strip text))).ssid.isSome

/-- The update of an interface's routes finds none that it takes for its own. -/
def RoutesClear (host : Host) (checks : ConnectionChecks) (cause : UpdateCause) (ifc : Nat)
    (watcher : FileWatcher) : Prop :=
  (watcher.settingsOf ifc).UpdateClear host.ip (host.interfaceName ifc) (checks cause)
    watcher.table

def LinkClear (host : Host) (checks : ConnectionChecks) (isUp hadLinks : Bool) (watcher : FileWatcher) :
    Prop :=
  hadLinks ≠ watcher.linked → RoutesClear host checks .link 0 (watcher.relink isUp)

def EthernetClear (host : Host) (checks : ConnectionChecks) (isUp : Bool) (watcher : FileWatcher) : Prop :=
  isUp ≠ watcher.ethernet →
    LinkClear host checks isUp watcher.linked { watcher with ethernet := isUp }

def StatusClear (host : Host) (checks : ConnectionChecks) (filename contents : Text)
    (watcher : FileWatcher) : Prop :=
  filename = ethernetStatusFile → ∀ value, parseInt contents = some value →
    EthernetClear host checks (value ≠ 0) watcher

def SubnetClear (host : Host) (checks : ConnectionChecks) (filename contents : Text)
    (watcher : FileWatcher) : Prop :=
  (Text.afterLiteral subnetFile filename).isSome →
    ∀ ifc, host.interfaceByName (interfaceName subnetFile filename) = some ifc →
      RoutesClear host checks .subnet ifc (watcher.withSubnet ifc contents)

def GatewayClear (host : Host) (checks : ConnectionChecks) (name contents : Text)
    (watcher : FileWatcher) : Prop :=
  ∀ ifc, host.interfaceByName name = some ifc →
    RoutesClear host checks .gateway ifc (watcher.withGatewayIp ifc contents)

/-- With a gateway file the subnet file can be read or is missing. -/
def TmpClear (host : Host) (checks : ConnectionChecks) (read : Text → ReadResult) (filename contents : Text)
    (watcher : FileWatcher) : Prop :=
  let name := interfaceName gatewayFile filename
  if (Text.afterLiteral gatewayFile filename).isSome then
    match read (subnetFile ++ name) with
    | .contents text =>
        SubnetClear host checks (subnetFile ++ name) (Text.strip text) watcher ∧
          ∀ next, watcher.processSubnetFile host checks (subnetFile ++ name) (Text.strip text) =
            .ok next → GatewayClear host checks name contents next
    | .noEntry => GatewayClear host checks name contents watcher
    | .otherError => False
  else SubnetClear host checks filename contents watcher

def StationsClear (host : Host) (checks : ConnectionChecks) (node : Json) (receives : Bool)
    (watcher : FileWatcher) : Prop :=
  let stations := watcher.stationsAfter node receives
  watcher.mocaStations.isEmpty ≠ stations.isEmpty →
    LinkClear host checks (!stations.isEmpty) watcher.linked
      { watcher with mocaStations := stations }

/-- A dictionary with a node that can be in a set. -/
def NodeClear (host : Host) (checks : ConnectionChecks) (json : Json) (watcher : FileWatcher) : Prop :=
  ∃ entries node, json = .dict entries ∧ entries.lookup (jsonKey "NodeId") = some node ∧
    hashable node = true ∧ StationsClear host checks node (FileWatcher.receives entries) watcher

/-- A node file is such a dictionary, or is refused by the parser with a `ValueError`. -/
def MocaClear (host : Host) (checks : ConnectionChecks) (filename text : Text) (watcher : FileWatcher) :
    Prop :=
  isNodeFile filename = true →
    match host.loads (Text.strip text) with
    | .value json => NodeClear host checks json watcher
    | .valueError => True
    | .otherError => False

def FileHarmless (host : Host) (checks : ConnectionChecks) (dir : WatchedDir) (filename : Text)
    (read : Text → ReadResult) (watcher : FileWatcher) : Prop :=
  match read filename with
  | .noEntry => True
  | .otherError => False
  | .contents text =>
      match dir with
      | .interfaceStatus => StatusClear host checks filename (Text.strip text) watcher
      | .config => NamesSsid host.device filename text
      | .tmp => TmpClear host checks read filename (Text.strip text) watcher
      | .mocaTmp => MocaClear host checks filename text watcher
      | .interface => (host.interfaceByName filename).isSome

def DaemonEvent.Harmless (host : Host) (watcher : FileWatcher) : DaemonEvent → Prop
  | .event dir filename deleted read _ checks =>
      deleted = false → FileHarmless host checks dir filename read watcher
  | _ => True

/-- Every configuration is for the band of an interface. -/
def Covered (host : Host) (watcher : FileWatcher) : Prop :=
  ∀ band, watcher.manager.wlanConfiguration band ≠ none → host.device.wifiForBand band ≠ none

end Conditions

section Files

variable {host : Host} {answers : Answers} {checks : ConnectionChecks} {watcher : FileWatcher}
  {filename text contents : Text} {read : Text → ReadResult}

theorem ok_bind_iff {First Second : Type} {first : Except EventError First}
    {next : First → Except EventError Second} :
    (∃ after, first >>= next = .ok after) ↔
      (∃ value, first = .ok value) ∧ ∀ value, first = .ok value → ∃ after, next value = .ok after := by
  cases first <;> simp [bind, Except.bind]

theorem updateRoutes_iff {cause : UpdateCause} {ifc : Nat} :
    (∃ after, watcher.updateRoutes host checks cause ifc = .ok after) ↔
      RoutesClear host checks cause ifc watcher := by
  unfold FileWatcher.updateRoutes RoutesClear
  rw [← RouteSettings.updateRoutes_isSome_iff]
  cases (watcher.settingsOf ifc).updateRoutes host.ip (host.interfaceName ifc) (checks cause)
      watcher.table with
  | none => simp
  | some updated => simp

theorem setLinkStatus_iff {isUp hadLinks : Bool} :
    (∃ after, watcher.setLinkStatus host checks isUp hadLinks = .ok after) ↔
      LinkClear host checks isUp hadLinks watcher := by
  unfold FileWatcher.setLinkStatus LinkClear
  by_cases same : hadLinks = watcher.linked
  · simp [same]
  · rw [if_neg same, updateRoutes_iff]
    exact ⟨fun clear _ => clear, fun clear => clear same⟩

theorem setEthernet_iff {isUp : Bool} :
    (∃ after, watcher.setEthernet host checks isUp = .ok after) ↔
      EthernetClear host checks isUp watcher := by
  unfold FileWatcher.setEthernet EthernetClear
  by_cases same : isUp = watcher.ethernet
  · simp [same]
  · rw [if_neg same, setLinkStatus_iff]
    exact ⟨fun clear _ => clear, fun clear => clear same⟩

theorem processStatusFile_iff :
    (∃ after, watcher.processStatusFile host checks filename contents = .ok after) ↔
      StatusClear host checks filename contents watcher := by
  unfold FileWatcher.processStatusFile StatusClear
  by_cases status : filename = ethernetStatusFile
  · rw [if_pos status]
    cases parsed : parseInt contents with
    | none => simp
    | some value =>
        dsimp only
        rw [setEthernet_iff]
        exact ⟨fun clear _ other same => Option.some.inj same ▸ clear,
          fun clear => clear status value rfl⟩
  · rw [if_neg status]
    exact iff_of_true ⟨_, rfl⟩ fun named => absurd named status

theorem new_isSome (band : Band) (wifi : Nat) (contents : Text) :
    (WLANConfiguration.new band wifi contents).isSome =
      (readOptions none ⟨none, none, none⟩ (splitLines [] contents)).ssid.isSome := by
  cases named : (readOptions none ⟨none, none, none⟩ (splitLines [] contents)).ssid with
  | none => simp [WLANConfiguration.new, named]
  | some ssid => simp [WLANConfiguration.new, named]

theorem step_written_isSome (device : Device) (manager : ConnectionManager) (answers : Answers) :
    (manager.step device (.written filename text answers)).isSome ↔
      NamesSsid device filename text := by
  unfold ConnectionManager.step ConnectionManager.processFile NamesSsid
  by_cases command : (Text.afterLiteral commandFile filename).isSome
  · simp only [if_pos command, ConnectionManager.processCommandFile]
    cases matched : matchWlanFile commandFile filename with
    | none => simp
    | some band =>
        cases found : device.wifiForBand band with
        | none => simp [command, found]
        | some wifi =>
            have named := new_isSome band wifi (Text.strip text)
            cases read : WLANConfiguration.new band wifi (Text.strip text) with
            | none => simp_all
            | some config => simp_all
  · by_cases ap : (Text.afterLiteral accessPointFile filename).isSome
    · simp [command, ap]
    · simp [command, ap]

theorem processConfigFile_iff :
    (∃ after, watcher.processConfigFile host answers filename text = .ok after) ↔
      NamesSsid host.device filename text := by
  rw [← step_written_isSome host.device watcher.manager answers]
  unfold FileWatcher.processConfigFile
  cases watcher.manager.step host.device (.written filename text answers) with
  | none => simp
  | some manager => simp

theorem processSubnetFile_iff :
    (∃ after, watcher.processSubnetFile host checks filename contents = .ok after) ↔
      SubnetClear host checks filename contents watcher := by
  unfold FileWatcher.processSubnetFile SubnetClear
  by_cases subnet : (Text.afterLiteral subnetFile filename).isSome
  · rw [if_pos subnet]
    cases host.interfaceByName (interfaceName subnetFile filename) with
    | none => simp
    | some ifc =>
        refine updateRoutes_iff.trans ?_
        exact ⟨fun clear _ other same => Option.some.inj same ▸ clear,
          fun clear => clear subnet ifc rfl⟩
  · rw [if_neg subnet]
    exact iff_of_true ⟨_, rfl⟩ fun named => absurd named subnet

theorem setGateway_iff {name : Text} :
    (∃ after, watcher.setGateway host checks name contents = .ok after) ↔
      GatewayClear host checks name contents watcher := by
  unfold FileWatcher.setGateway GatewayClear
  cases host.interfaceByName name with
  | none => simp
  | some ifc =>
      refine updateRoutes_iff.trans ?_
      exact ⟨fun clear other same => Option.some.inj same ▸ clear, fun clear => clear ifc rfl⟩

theorem processTmpFile_iff :
    (∃ after, watcher.processTmpFile host checks read filename contents = .ok after) ↔
      TmpClear host checks read filename contents watcher := by
  unfold FileWatcher.processTmpFile TmpClear
  by_cases gateway : (Text.afterLiteral gatewayFile filename).isSome
  · rw [if_pos gateway, if_pos gateway, FileWatcher.processGatewayFile]
    cases read (subnetFile ++ interfaceName gatewayFile filename) with
    | contents text =>
        refine ok_bind_iff.trans (and_congr processSubnetFile_iff ?_)
        exact forall_congr' fun next => imp_congr_right fun _ => setGateway_iff
    | noEntry => exact setGateway_iff
    | otherError => simp
  · rw [if_neg gateway, if_neg gateway]
    exact processSubnetFile_iff

theorem updateStations_iff {node : Json} {receives : Bool} :
    (∃ after, watcher.updateStations host checks node receives = .ok after) ↔
      StationsClear host checks node receives watcher := by
  unfold FileWatcher.updateStations StationsClear
  dsimp only
  by_cases same : watcher.mocaStations.isEmpty = (watcher.stationsAfter node receives).isEmpty
  · simp [same]
  · rw [if_neg same]
    refine ok_bind_iff.trans (and_iff_left fun _ _ => ⟨_, rfl⟩) |>.trans ?_
    rw [setLinkStatus_iff]
    exact ⟨fun clear _ => clear, fun clear => clear same⟩

theorem processNode_iff {json : Json} :
    (∃ after, watcher.processNode host checks json = .ok after) ↔
      NodeClear host checks json watcher := by
  cases json with
  | dict entries =>
      cases found : entries.lookup (jsonKey "NodeId") with
      | none => simp [FileWatcher.processNode, NodeClear, found]
      | some node =>
          cases kind : hashable node with
          | true => simp [FileWatcher.processNode, NodeClear, found, kind, updateStations_iff]
          | false => simp [FileWatcher.processNode, NodeClear, found, kind]
  | null => simp [FileWatcher.processNode, NodeClear]
  | number value => simp [FileWatcher.processNode, NodeClear]
  | str text => simp [FileWatcher.processNode, NodeClear]
  | list items => simp [FileWatcher.processNode, NodeClear]

theorem processMocaFile_iff :
    (∃ after, watcher.processMocaFile host checks filename (Text.strip text) = .ok after) ↔
      MocaClear host checks filename text watcher := by
  unfold FileWatcher.processMocaFile MocaClear
  cases isNodeFile filename with
  | false => simp
  | true =>
      cases host.loads (Text.strip text) with
      | value json => simpa using processNode_iff
      | valueError => simp
      | otherError => simp

theorem processInterfaceFile_iff :
    (∃ after, watcher.processInterfaceFile host filename = .ok after) ↔
      (host.interfaceByName filename).isSome := by
  unfold FileWatcher.processInterfaceFile
  cases host.interfaceByName filename with
  | none => simp
  | some ifc => simp

theorem processFile_iff {dir : WatchedDir} :
    (∃ after, watcher.processFile host answers checks dir filename read = .ok after) ↔
      FileHarmless host checks dir filename read watcher := by
  unfold FileWatcher.processFile FileHarmless
  cases read filename with
  | noEntry => simp
  | otherError => simp
  | contents text =>
      cases dir with
      | interfaceStatus => exact processStatusFile_iff
      | config => exact processConfigFile_iff
      | tmp => exact processTmpFile_iff
      | mocaTmp => exact processMocaFile_iff
      | interface => exact processInterfaceFile_iff

end Files

section Covering

variable {host : Host} {answers : Answers} {checks : ConnectionChecks} {watcher after : FileWatcher}
  {filename text : Text}

/-- Where no configuration appears, but for a band that an interface has. -/
theorem Covered.of_changed (covered : Covered host watcher)
    (changed : ∀ band, after.manager.wlanConfiguration band ≠ none →
      watcher.manager.wlanConfiguration band ≠ none ∨ host.device.wifiForBand band ≠ none) :
    Covered host after := by
  intro band stored
  cases changed band stored with
  | inl before => exact covered band before
  | inr has => exact has

theorem stored_of_update {configs : Band → Option WLANConfiguration} {band other : Band}
    {config : Option WLANConfiguration} (stored : Function.update configs band config other ≠ none) :
    configs other ≠ none ∨ other = band ∧ config ≠ none := by
  by_cases same : other = band
  · subst same
    rw [Function.update_self] at stored
    exact .inr ⟨rfl, stored⟩
  · rw [Function.update_of_ne same] at stored
    exact .inl stored

theorem configFor_stored {manager : ConnectionManager} {start name : Text} {band : Band}
    {config : WLANConfiguration} (found : manager.configFor start name = some (band, config)) :
    manager.wlanConfiguration band ≠ none := by
  rw [(configFor_eq_some.mp found).2]
  exact Option.some_ne_none config

theorem written_stored {manager next : ConnectionManager} {device : Device}
    (stepped : manager.step device (.written filename text answers) = some next) (band : Band)
    (stored : next.wlanConfiguration band ≠ none) :
    manager.wlanConfiguration band ≠ none ∨ device.wifiForBand band ≠ none := by
  cases handled stepped with
  | installed command new =>
      rename_i config
      have installed := install_spec device (manager.setFile filename (some text)) answers config
      rw [installed.wlanConfiguration] at stored
      cases stored_of_update stored with
      | inl before => exact .inl before
      | inr own =>
          refine .inr ?_
          rw [own.1, Device.command_wifi command]
          exact Option.some_ne_none _
  | apEnabled _ _ found =>
      cases stored_of_update stored with
      | inl before => exact .inl before
      | inr own => exact .inl (own.1 ▸ configFor_stored found)
  | written _ _ => exact .inl stored

theorem deleted_stored {manager : ConnectionManager} {device : Device} (band : Band)
    (stored : (manager.handleDeletedFile device answers filename).wlanConfiguration band ≠ none) :
    manager.wlanConfiguration band ≠ none := by
  unfold ConnectionManager.handleDeletedFile at stored
  split at stored
  case h_1 removed config found =>
    rw [(removeWlanConfiguration_spec device answers manager removed config).wlanConfiguration]
      at stored
    cases stored_of_update stored with
    | inl before => exact before
    | inr own => exact absurd rfl own.2
  case h_2 =>
    split at stored
    case h_1 kept config found =>
      cases stored_of_update stored with
      | inl before => exact before
      | inr own => exact own.1 ▸ configFor_stored found
    case h_2 => exact stored

theorem runOnce_stored {manager : ConnectionManager} {device : Device} (provisioning : Nat → Bool)
    (answers : Nat → Band → Answers) (band : Band)
    (stored : (manager.runOnce device provisioning answers).wlanConfiguration band ≠ none) :
    manager.wlanConfiguration band ≠ none := by
  let kept (next : ConnectionManager) : Prop :=
    next.wlanConfiguration band ≠ none → manager.wlanConfiguration band ≠ none
  have stays {next : ConnectionManager} {own : Band} {config changed : WLANConfiguration}
      (before : kept next) (has : next.wlanConfiguration own = some config)
      (stored : Function.update next.wlanConfiguration own (some changed) band ≠ none) :
      manager.wlanConfiguration band ≠ none := by
    cases stored_of_update stored with
    | inl earlier => exact before earlier
    | inr same =>
        refine before ?_
        rw [same.1, has]
        exact Option.some_ne_none config
  refine @runOnce_preserves device kept ?_ ?_ manager (fun stored => stored) provisioning answers
    stored
  · intro next own config answers before has stored
    rw [(updateAccessPoint_spec device answers next own config).wlanConfiguration] at stored
    exact stays before has stored
  · intro next own config before has stored
    exact stays before has stored

theorem updateRoutes_manager {cause : UpdateCause} {ifc : Nat}
    (updated : watcher.updateRoutes host checks cause ifc = .ok after) :
    after.manager = watcher.manager := by
  unfold FileWatcher.updateRoutes at updated
  split at updated
  case h_1 =>
    cases updated
    rfl
  case h_2 => cases updated

theorem setLinkStatus_manager {isUp hadLinks : Bool}
    (updated : watcher.setLinkStatus host checks isUp hadLinks = .ok after) :
    after.manager = watcher.manager := by
  unfold FileWatcher.setLinkStatus at updated
  split at updated
  case isTrue =>
    cases updated
    rfl
  case isFalse => exact (updateRoutes_manager updated).trans rfl

theorem processStatusFile_manager {contents : Text}
    (processed : watcher.processStatusFile host checks filename contents = .ok after) :
    after.manager = watcher.manager := by
  unfold FileWatcher.processStatusFile FileWatcher.setEthernet at processed
  split at processed
  case isTrue =>
    split at processed
    case h_1 =>
      split at processed
      case isTrue =>
        cases processed
        rfl
      case isFalse => exact (setLinkStatus_manager processed).trans rfl
    case h_2 =>
      cases processed
      rfl
  case isFalse =>
    cases processed
    rfl

theorem processSubnetFile_manager {contents : Text}
    (processed : watcher.processSubnetFile host checks filename contents = .ok after) :
    after.manager = watcher.manager := by
  unfold FileWatcher.processSubnetFile at processed
  split at processed
  case isTrue =>
    split at processed
    case h_1 => exact (updateRoutes_manager processed).trans rfl
    case h_2 =>
      cases processed
      rfl
  case isFalse =>
    cases processed
    rfl

theorem setGateway_manager {name contents : Text}
    (processed : watcher.setGateway host checks name contents = .ok after) :
    after.manager = watcher.manager := by
  unfold FileWatcher.setGateway at processed
  split at processed
  case h_1 => exact (updateRoutes_manager processed).trans rfl
  case h_2 =>
    cases processed
    rfl

theorem bind_ok {First Second : Type} {first : Except EventError First}
    {next : First → Except EventError Second} {result : Second}
    (bound : first >>= next = .ok result) : ∃ value, first = .ok value ∧ next value = .ok result := by
  cases first with
  | error raised => cases bound
  | ok value => exact ⟨value, rfl, bound⟩

theorem processTmpFile_manager {read : Text → ReadResult} {contents : Text}
    (processed : watcher.processTmpFile host checks read filename contents = .ok after) :
    after.manager = watcher.manager := by
  unfold FileWatcher.processTmpFile at processed
  split at processed
  case isFalse => exact processSubnetFile_manager processed
  case isTrue =>
    simp only [FileWatcher.processGatewayFile] at processed
    split at processed
    case h_1 text opened =>
      obtain ⟨middle, subnet, gateway⟩ := bind_ok processed
      exact (setGateway_manager gateway).trans (processSubnetFile_manager subnet)
    case h_2 => exact setGateway_manager processed
    case h_3 => cases processed

theorem updateStations_manager {node : Json} {receives : Bool}
    (updated : watcher.updateStations host checks node receives = .ok after) :
    after.manager = watcher.manager := by
  unfold FileWatcher.updateStations at updated
  dsimp only at updated
  split at updated
  case isTrue =>
    cases updated
    rfl
  case isFalse =>
    obtain ⟨next, linked, told⟩ := bind_ok updated
    cases told
    exact (setLinkStatus_manager linked).trans rfl

theorem processMocaFile_manager {contents : Text}
    (processed : watcher.processMocaFile host checks filename contents = .ok after) :
    after.manager = watcher.manager := by
  unfold FileWatcher.processMocaFile at processed
  split at processed
  case isFalse =>
    cases processed
    rfl
  case isTrue =>
    split at processed
    case h_1 json loaded =>
      obtain ⟨entries, node, object, found, kind, -⟩ := processNode_iff.mp ⟨after, processed⟩
      subst object
      simp only [FileWatcher.processNode, found, kind, if_pos] at processed
      exact updateStations_manager processed
    case h_2 =>
      cases processed
      rfl
    case h_3 => cases processed

/-- Only the files of the configuration directory change the configurations. -/
theorem processFile_manager {dir : WatchedDir} {read : Text → ReadResult}
    (processed : watcher.processFile host answers checks dir filename read = .ok after) :
    after.manager = watcher.manager ∨ ∃ text,
      watcher.manager.step host.device (.written filename text answers) = some after.manager := by
  unfold FileWatcher.processFile at processed
  cases opened : read filename with
  | noEntry =>
      rw [opened] at processed
      cases processed
      exact .inl rfl
  | otherError =>
      rw [opened] at processed
      cases processed
  | contents text =>
      rw [opened] at processed
      cases dir with
      | interfaceStatus => exact .inl (processStatusFile_manager processed)
      | config =>
          refine .inr ⟨text, ?_⟩
          simp only [FileWatcher.processConfigFile] at processed
          split at processed
          case h_1 manager stepped =>
            cases processed
            exact stepped
          case h_2 => cases processed
      | tmp => exact .inl (processTmpFile_manager processed)
      | mocaTmp => exact .inl (processMocaFile_manager processed)
      | interface =>
          simp only [FileWatcher.processInterfaceFile] at processed
          split at processed
          case h_1 =>
            cases processed
            exact .inl rfl
          case h_2 => cases processed

/-- A configuration that is removed was for the band of an interface, which is there to be
told. -/
theorem Covered.handleDeletedFile (covered : Covered host watcher) (answers : Answers)
    (dir : WatchedDir) (filename : Text) :
    ∃ after, watcher.handleDeletedFile host answers dir filename = .ok after ∧
      Covered host after := by
  unfold FileWatcher.handleDeletedFile
  by_cases config : dir = .config
  · have kept : Covered host { watcher with
        manager := watcher.manager.handleDeletedFile host.device answers filename } :=
      covered.of_changed fun band stored => .inl (deleted_stored band stored)
    rw [if_pos config]
    dsimp only
    cases found : watcher.manager.configFor commandFile filename with
    | none => exact ⟨_, rfl, kept⟩
    | some entry =>
        dsimp only
        rw [if_neg fun alone => covered entry.1 (configFor_stored found) alone.2.2]
        exact ⟨_, rfl, kept⟩
  · rw [if_neg config]
    exact ⟨watcher, rfl, covered⟩

theorem Covered.step (covered : Covered host watcher) {event : DaemonEvent}
    (stepped : watcher.step host event = .ok after) : Covered host after := by
  cases event with
  | event dir filename deleted read answers checks =>
      cases deleted with
      | true =>
          obtain ⟨next, handled, kept⟩ := covered.handleDeletedFile answers dir filename
          have same : after = next := Except.ok.inj (stepped.symm.trans handled)
          exact same ▸ kept
      | false =>
          cases processFile_manager stepped with
          | inl same => exact fun band => same ▸ covered band
          | inr written =>
              obtain ⟨text, next⟩ := written
              exact covered.of_changed (written_stored next)
  | filesChanged files =>
      cases stepped
      exact covered
  | internet up =>
      cases stepped
      exact covered
  | runOnce provisioning answers =>
      cases stepped
      exact covered.of_changed fun band stored =>
        .inl (runOnce_stored provisioning answers band stored)
  | assigned wifi p value answers =>
      cases stepped
      exact covered
  | routesChanged ifc settings table =>
      cases stepped
      exact covered

end Covering

section Runs

variable {host : Host} {watcher : FileWatcher}

/-- In a state in which all configurations are covered, one step raises just where the
event is not harmless. -/
theorem step_iff (covered : Covered host watcher) (event : DaemonEvent) :
    (∃ after, watcher.step host event = .ok after) ↔ event.Harmless host watcher := by
  cases event with
  | event dir filename deleted read answers checks =>
      cases deleted with
      | true =>
          obtain ⟨after, handled, -⟩ := covered.handleDeletedFile answers dir filename
          exact ⟨fun _ live => absurd live (by simp), fun _ => ⟨after, handled⟩⟩
      | false => exact processFile_iff.trans ⟨fun harmless _ => harmless, fun harmless => harmless rfl⟩
  | filesChanged files => exact ⟨fun _ => trivial, fun _ => ⟨_, rfl⟩⟩
  | internet up => exact ⟨fun _ => trivial, fun _ => ⟨_, rfl⟩⟩
  | runOnce provisioning answers => exact ⟨fun _ => trivial, fun _ => ⟨_, rfl⟩⟩
  | assigned wifi p value answers => exact ⟨fun _ => trivial, fun _ => ⟨_, rfl⟩⟩
  | routesChanged ifc settings table => exact ⟨fun _ => trivial, fun _ => ⟨_, rfl⟩⟩

end Runs

end Gfiber.Conman
