import Gfiber.Conman.StatusProperties
import Gfiber.Conman.ManagerProperties

/-! The status of the wifi interfaces, and the configurations that they have. -/

set_option autoImplicit false

namespace Gfiber.Conman

open Lib

section Values

variable {order : IterationOrder (P × List P × List P)} {board next : Board P Empty}

/-- `HAVE_CONFIG` is true on the board. -/
def Board.HaveConfig (board : Board P Empty) : Prop :=
  board.value .haveConfig = some true

/-- The propositions that imply `HAVE_CONFIG`. -/
def P.ConfirmsConfig (p : P) : Prop :=
  p = .connectedToWlan ∨ p = .haveWorkingConfig

theorem makes_haveConfig_true {p : P} (confirms : p.ConfirmsConfig) :
    (statusNetwork order).Makes p true .haveConfig true := by
  have working : (statusNetwork order).Implies .haveWorkingConfig .haveConfig :=
    (statusNetwork_implications order).mpr (by decide)
  rcases confirms with rfl | rfl
  · have connected : (statusNetwork order).Implies .connectedToWlan .haveWorkingConfig :=
      (statusNetwork_implications order).mpr (by decide)
    exact .tail (.single connected) working
  · exact .single working

/-- Nothing else that is set changes `HAVE_CONFIG`. -/
theorem not_makes_haveConfig {p : P} {value truth : Bool} (other : p ≠ .haveConfig)
    (unconfirmed : value = true → ¬p.ConfirmsConfig) :
    ¬(statusNetwork order).Makes p value .haveConfig truth := by
  have implies_none {q : P} (closure : (statusNetwork order).Closure .haveConfig q) :
      q = .haveConfig := by
    simpa [aroundStatus] using mem_aroundStatus order closure
  intro makes
  cases value with
  | false =>
      cases truth with
      | false => exact other (implies_none makes)
      | true => exact makes
  | true =>
      cases truth with
      | false =>
          obtain ⟨member, excluded, -, excludes, closure⟩ := makes
          obtain rfl := implies_none closure
          simp only [Network.Excludes, statusNetwork_counterImplications] at excludes
          revert member
          decide +kernel
      | true =>
          have implying : ∀ p : P, .haveConfig ∈ aroundStatus p →
              p = .haveConfig ∨ p = .connectedToWlan ∨ p = .haveWorkingConfig := by decide
          rcases implying p (mem_aroundStatus order makes) with same | confirms
          · exact other same
          · exact unconfirmed rfl confirms

theorem haveConfig_assign (settled : Settled (statusNetwork order) board)
    (orders : SetOrders P Empty) {p : P} (other : p ≠ .haveConfig) (value : Bool) :
    (board.assign order orders p value).HaveConfig ↔
      board.HaveConfig ∨ value = true ∧ p.ConfirmsConfig := by
  obtain ⟨-, propagated⟩ := settled.assign orders p value
  by_cases confirmed : value = true ∧ p.ConfirmsConfig
  · obtain ⟨rfl, confirms⟩ := confirmed
    refine ⟨fun _ => .inr ⟨rfl, confirms⟩, fun _ => ?_⟩
    exact propagated.made .haveConfig true (makes_haveConfig_true confirms)
  · have same := propagated.unchanged .haveConfig fun truth =>
      not_makes_haveConfig other fun set confirms => confirmed ⟨set, confirms⟩
    rw [Board.HaveConfig, same, or_iff_left confirmed]
    rfl

theorem haveConfig_assign_self (settled : Settled (statusNetwork order) board)
    (orders : SetOrders P Empty) (value : Bool) :
    (board.assign order orders .haveConfig value).HaveConfig ↔
      value = true := by
  obtain ⟨-, propagated⟩ := settled.assign orders .haveConfig value
  have made : (statusNetwork order).Makes .haveConfig value .haveConfig value := by
    cases value with
    | false => exact .refl
    | true => exact .refl
  rw [Board.HaveConfig, propagated.made .haveConfig value made, Option.some.injEq]

/-- Once true, `HAVE_CONFIG` stays true while other propositions are set. -/
theorem Assigned.haveConfig (assigned : Assigned order board next)
    (settled : Settled (statusNetwork order) board) :
    Settled (statusNetwork order) next ∧ (board.HaveConfig → next.HaveConfig) := by
  induction assigned with
  | refl => exact ⟨settled, id⟩
  | tail _ orders p value other ih =>
      obtain ⟨before, kept⟩ := ih
      refine ⟨(before.assign orders p value).1, fun have_config => ?_⟩
      exact (haveConfig_assign before orders other value).mpr (.inl (kept have_config))

end Values

section Configurations

/-- One of the bands has a configuration. -/
def ConnectionManager.HoldsConfig (manager : ConnectionManager) (bands : List Band) : Prop :=
  ∃ band ∈ bands, (manager.wlanConfiguration band).isSome

/-- One of the bands other than this one has a configuration. -/
def ConnectionManager.HoldsOther (manager : ConnectionManager) (band : Band) (bands : List Band) :
    Prop :=
  ∃ other ∈ bands, other ≠ band ∧ (manager.wlanConfiguration other).isSome

/-- `HAVE_CONFIG` of each interface is true exactly when one of its bands has a
configuration. -/
def ConfigTold (device : Device) (manager : ConnectionManager) : Prop :=
  ∀ (wifi : Nat) bands, device.wifi[wifi]? = some bands →
    ((manager.status wifi).HaveConfig ↔ manager.HoldsConfig bands)

/-- The configuration of a band is used by the interface of the band, and
everything has been propagated. -/
structure StatusTracked (device : Device) (manager : ConnectionManager) : Prop where
  stored : ∀ band config, manager.wlanConfiguration band = some config →
    device.wifiForBand band = some config.wifi
  settled : ∀ wifi, Settled (statusNetwork device.setUpOrder) (manager.status wifi)
  told : ConfigTold device manager

theorem Device.wifiForBand_spec {device : Device} {band : Band} {wifi : Nat}
    (found : device.wifiForBand band = some wifi) :
    ∃ bands, device.wifi[wifi]? = some bands ∧ band ∈ bands := by
  obtain ⟨bound, has, -⟩ := List.findIdx?_eq_some_iff_getElem.mp found
  exact ⟨device.wifi[wifi], List.getElem?_eq_getElem bound, by simpa using has⟩

variable {device : Device} {answers : Answers} {manager next : ConnectionManager} {band : Band}
  {config : WLANConfiguration}

theorem StatusTracked.haveConfig (tracked : StatusTracked device manager)
    (stored : manager.wlanConfiguration band = some config) :
    (manager.status config.wifi).HaveConfig := by
  obtain ⟨bands, radio, member⟩ := Device.wifiForBand_spec (tracked.stored band config stored)
  exact (tracked.told config.wifi bands radio).mpr ⟨band, member, by rw [stored]; rfl⟩

/-- The same bands have configurations, and the same interfaces are told so. -/
theorem StatusTracked.of_same (tracked : StatusTracked device manager)
    (configs : ∀ band, (next.wlanConfiguration band).map WLANConfiguration.wifi =
      (manager.wlanConfiguration band).map WLANConfiguration.wifi)
    (status : ∀ wifi, Settled (statusNetwork device.setUpOrder) (next.status wifi) ∧
      ((next.status wifi).HaveConfig ↔ (manager.status wifi).HaveConfig)) :
    StatusTracked device next := by
  refine ⟨fun band config stored => ?_, fun wifi => (status wifi).1, fun wifi bands radio => ?_⟩
  · have same := configs band
    rw [stored] at same
    obtain ⟨current, lookup, wifi⟩ := Option.map_eq_some_iff.mp same.symm
    rw [← wifi]
    exact tracked.stored band current lookup
  · have same (band : Band) :
        (next.wlanConfiguration band).isSome = (manager.wlanConfiguration band).isSome := by
      rw [← Option.isSome_map, configs band, Option.isSome_map]
    rw [(status wifi).2, tracked.told wifi bands radio]
    simp only [ConnectionManager.HoldsConfig, same]

/-- Only the interface of a configuration has been worked on. -/
theorem StatusTracked.client (tracked : StatusTracked device manager)
    (stored : manager.wlanConfiguration band = some config)
    (configs : ∀ band, (next.wlanConfiguration band).map WLANConfiguration.wifi =
      (manager.wlanConfiguration band).map WLANConfiguration.wifi)
    (own : Assigned device.setUpOrder (manager.status config.wifi) (next.status config.wifi))
    (others : ∀ wifi, wifi ≠ config.wifi → next.status wifi = manager.status wifi) :
    StatusTracked device next := by
  refine tracked.of_same configs fun wifi => ?_
  by_cases same : wifi = config.wifi
  · subst same
    obtain ⟨settled, kept⟩ := own.haveConfig (tracked.settled config.wifi)
    have before := tracked.haveConfig stored
    exact ⟨settled, fun _ => before, fun _ => kept before⟩
  · rw [others wifi same]
    exact ⟨tracked.settled wifi, Iff.rfl⟩

/-- The configuration of a band is changed, but not its interface. -/
theorem map_wifi_update {changed : WLANConfiguration} (wifi : changed.wifi = config.wifi)
    (stored : manager.wlanConfiguration band = some config) (other : Band) :
    (Function.update manager.wlanConfiguration band (some changed) other).map
        WLANConfiguration.wifi =
      (manager.wlanConfiguration other).map WLANConfiguration.wifi := by
  by_cases same : other = band
  · rw [same, Function.update_self, stored, Option.map_some, Option.map_some, wifi]
  · rw [Function.update_of_ne same]

theorem StatusTracked.put (tracked : StatusTracked device manager) {changed : WLANConfiguration}
    (wifi : changed.wifi = config.wifi) (stored : manager.wlanConfiguration band = some config) :
    StatusTracked device (manager.put band (some changed)) :=
  tracked.of_same (map_wifi_update wifi stored) fun wifi => ⟨tracked.settled wifi, Iff.rfl⟩

theorem StatusTracked.update (tracked : StatusTracked device manager)
    (stored : manager.wlanConfiguration band = some config) :
    StatusTracked device (manager.updateAccessPoint device answers band config) := by
  have updated := updateAccessPoint_spec device answers manager band config
  refine tracked.client stored (fun other => ?_) updated.own updated.others
  rw [updated.wlanConfiguration]
  exact map_wifi_update (by rfl) stored other

theorem runOnce_status (tracked : StatusTracked device manager) (provisioning : Nat → Bool)
    (answers : Nat → Band → Answers) :
    StatusTracked device (manager.runOnce device provisioning answers) :=
  runOnce_preserves (fun _ tracked stored => tracked.update stored)
    (fun tracked stored => tracked.put (by rfl) stored) tracked provisioning answers

end Configurations

section Steps

variable {device : Device} {answers : Answers} {manager next : ConnectionManager} {band : Band}
  {config : WLANConfiguration} {event : Event}

/-- What other code sets does not concern `HAVE_CONFIG`, or is set by an
interface that has a configuration. -/
def SetByHolder (device : Device) (manager : ConnectionManager) : Event → Prop
  | .assigned wifi p value _ => p ≠ .haveConfig ∧
      (value = true → p.ConfirmsConfig →
        ∀ bands, device.wifi[wifi]? = some bands → manager.HoldsConfig bands)
  | _ => True

/-- Only the first interface of a band is told. The others already have a
configuration when one is added. When one is removed, they and the first one
still have one for another band, or the first one is alone and no configuration
is left. -/
def OthersHold (device : Device) (manager : ConnectionManager) : Event → Prop
  | .written filename contents _ =>
      ∀ config, device.command filename contents = some config →
        ∀ (wifi : Nat) bands, device.wifi[wifi]? = some bands → config.band ∈ bands →
          device.wifiForBand config.band = some wifi ∨ manager.HoldsConfig bands
  | .deleted filename _ =>
      ∀ band config, manager.configFor commandFile filename = some (band, config) →
        ∀ (wifi : Nat) bands, device.wifi[wifi]? = some bands → band ∈ bands →
          (manager.LastConfig band ∧ device.wifiForBand band = some wifi) ∨
            manager.HoldsOther band bands
  | _ => True

instance decidableForallRadio (radios : List (List Band)) (p : Nat → List Band → Prop)
    [∀ wifi bands, Decidable (p wifi bands)] :
    Decidable (∀ (wifi : Nat) bands, radios[wifi]? = some bands → p wifi bands) :=
  decidable_of_iff (∀ radio ∈ radios.zipIdx, p radio.2 radio.1)
    ⟨fun all wifi bands radio => all (bands, wifi) (List.mem_zipIdx_iff_getElem?.mpr radio),
      fun all radio member => all radio.2 radio.1 (List.mem_zipIdx_iff_getElem?.mp member)⟩

instance (bands : List Band) : Decidable (manager.HoldsConfig bands) :=
  inferInstanceAs (Decidable (∃ band ∈ bands, (manager.wlanConfiguration band).isSome))

instance (bands : List Band) : Decidable (manager.HoldsOther band bands) :=
  inferInstanceAs (Decidable (∃ other ∈ bands, other ≠ band ∧
    (manager.wlanConfiguration other).isSome))

instance : Decidable (manager.LastConfig band) :=
  decidable_of_iff _ (lastConfig_iff manager).symm

instance decidableOthersHold (device : Device) (manager : ConnectionManager) :
    (event : Event) → Decidable (OthersHold device manager event)
  | .written filename contents _ =>
      decidable_of_iff
        ((device.command filename contents).all fun config =>
          decide (∀ (wifi : Nat) bands, device.wifi[wifi]? = some bands → config.band ∈ bands →
            device.wifiForBand config.band = some wifi ∨ manager.HoldsConfig bands))
        (by simp only [Option.all_eq_true, decide_eq_true_eq, OthersHold])
  | .deleted filename _ =>
      decidable_of_iff
        ((manager.configFor commandFile filename).all fun found =>
          decide (∀ (wifi : Nat) bands, device.wifi[wifi]? = some bands → found.1 ∈ bands →
            (manager.LastConfig found.1 ∧ device.wifiForBand found.1 = some wifi) ∨
              manager.HoldsOther found.1 bands))
        (by simp only [Option.all_eq_true, decide_eq_true_eq, Prod.forall, OthersHold])
  | .internet _ => isTrue trivial
  | .runOnce _ _ => isTrue trivial
  | .assigned _ _ _ _ => isTrue trivial

theorem status_setHaveConfig {wifi : Nat} (found : device.wifiForBand band = some wifi)
    (answers : Answers) (manager : ConnectionManager) (value : Bool) :
    (manager.setHaveConfig device answers band value).status =
      Function.update manager.status wifi
        ((manager.status wifi).assign device.setUpOrder answers.orders .haveConfig value) := by
  rw [ConnectionManager.setHaveConfig, found]
  rfl

theorem holdsConfig_update {stored : Option WLANConfiguration}
    (configs : next.wlanConfiguration = Function.update manager.wlanConfiguration band stored)
    (bands : List Band) :
    next.HoldsConfig bands ↔ (band ∈ bands ∧ stored.isSome) ∨ manager.HoldsOther band bands := by
  rw [ConnectionManager.HoldsConfig, configs]
  constructor
  · rintro ⟨other, member, holds⟩
    by_cases same : other = band
    · subst same
      rw [Function.update_self] at holds
      exact .inl ⟨member, holds⟩
    · rw [Function.update_of_ne same] at holds
      exact .inr ⟨other, member, same, holds⟩
  · rintro (⟨member, holds⟩ | ⟨other, member, different, holds⟩)
    · exact ⟨band, member, by rwa [Function.update_self]⟩
    · exact ⟨other, member, by rwa [Function.update_of_ne different]⟩

theorem holdsConfig_iff (manager : ConnectionManager) (band : Band) (bands : List Band) :
    manager.HoldsConfig bands ↔
      (band ∈ bands ∧ (manager.wlanConfiguration band).isSome) ∨ manager.HoldsOther band bands :=
  holdsConfig_update (Function.update_eq_self band manager.wlanConfiguration).symm bands

theorem ConnectionManager.LastConfig.not_holdsOther (last : manager.LastConfig band)
    (bands : List Band) : ¬manager.HoldsOther band bands := by
  rintro ⟨other, -, different, holds⟩
  rw [last other different] at holds
  cases holds

theorem StatusTracked.installed (tracked : StatusTracked device manager)
    (installed : ConfigInstalled device answers manager config next)
    (found : device.wifiForBand config.band = some config.wifi) (wifi : Nat) :
    Settled (statusNetwork device.setUpOrder) (next.status wifi) ∧
      ((next.status wifi).HaveConfig ↔ wifi = config.wifi ∨ (manager.status wifi).HaveConfig) := by
  have told := status_setHaveConfig found answers manager true
  by_cases same : wifi = config.wifi
  · subst same
    have before := tracked.settled config.wifi
    have own := installed.own
    rw [told, Function.update_self] at own
    obtain ⟨settled, kept⟩ := own.haveConfig (before.assign answers.orders .haveConfig true).1
    refine ⟨settled, fun _ => .inl rfl, fun _ => kept ?_⟩
    exact (haveConfig_assign_self before answers.orders true).mpr rfl
  · rw [installed.others wifi same, told, Function.update_of_ne same, or_iff_right same]
    exact ⟨tracked.settled wifi, Iff.rfl⟩

theorem StatusTracked.removed (tracked : StatusTracked device manager)
    (stored : manager.wlanConfiguration band = some config)
    (removed : ConfigRemoved device answers manager band config next) (wifi : Nat) :
    Settled (statusNetwork device.setUpOrder) (next.status wifi) ∧
      ((next.status wifi).HaveConfig ↔
        (manager.status wifi).HaveConfig ∧ ¬(manager.LastConfig band ∧ wifi = config.wifi)) := by
  obtain ⟨client, changed, none_left, some_left⟩ := removed.status
  have tracked' : StatusTracked device client :=
    tracked.client stored (fun other => by rw [changed.wlanConfiguration]) changed.own
      changed.others
  have stored' : client.wlanConfiguration band = some config := by
    rw [changed.wlanConfiguration, stored]
  have same_told : (client.status wifi).HaveConfig ↔ (manager.status wifi).HaveConfig := by
    by_cases same : wifi = config.wifi
    · subst same
      exact ⟨fun _ => tracked.haveConfig stored, fun _ => tracked'.haveConfig stored'⟩
    · rw [changed.others wifi same]
  by_cases last : manager.LastConfig band
  · rw [none_left last, status_setHaveConfig (tracked.stored band config stored)]
    by_cases same : wifi = config.wifi
    · subst same
      have before := tracked'.settled config.wifi
      rw [Function.update_self]
      refine ⟨(before.assign answers.orders .haveConfig false).1, fun told => ?_, fun both => ?_⟩
      · cases (haveConfig_assign_self before answers.orders false).mp told
      · exact absurd ⟨last, rfl⟩ both.2
    · rw [Function.update_of_ne same, same_told]
      exact ⟨tracked'.settled wifi, fun told => ⟨told, fun both => same both.2⟩, fun both => both.1⟩
  · rw [some_left last, same_told]
    exact ⟨tracked'.settled wifi, fun told => ⟨told, fun both => last both.1⟩, fun both => both.1⟩

/-- After a configuration is added, the interfaces that are not told must have
had one. -/
theorem told_installed_iff (tracked : StatusTracked device manager)
    (installed : ConfigInstalled device answers manager config next)
    (found : device.wifiForBand config.band = some config.wifi) :
    ConfigTold device next ↔
      ∀ (wifi : Nat) bands, device.wifi[wifi]? = some bands → config.band ∈ bands →
        device.wifiForBand config.band = some wifi ∨ manager.HoldsConfig bands := by
  refine forall₃_congr fun wifi bands radio => ?_
  have told := (tracked.installed installed found wifi).2
  have holds := holdsConfig_update installed.wlanConfiguration bands
  have before := holdsConfig_iff manager config.band bands
  rw [tracked.told wifi bands radio] at told
  rw [told, holds, found, Option.some.injEq, eq_comm]
  by_cases member : config.band ∈ bands
  · simp [member]
  · have different : ¬config.wifi = wifi := by
      rintro rfl
      obtain ⟨own, radio', has⟩ := Device.wifiForBand_spec found
      rw [radio] at radio'
      cases radio'
      exact member has
    simp [member, different, before]

/-- After one is removed, those that still have one must be those that were not told. -/
theorem told_removed_iff (tracked : StatusTracked device manager)
    (stored : manager.wlanConfiguration band = some config)
    (removed : ConfigRemoved device answers manager band config next) :
    ConfigTold device next ↔
      ∀ (wifi : Nat) bands, device.wifi[wifi]? = some bands → band ∈ bands →
        (manager.LastConfig band ∧ device.wifiForBand band = some wifi) ∨
          manager.HoldsOther band bands := by
  refine forall₃_congr fun wifi bands radio => ?_
  have told := (tracked.removed stored removed wifi).2
  have holds := holdsConfig_update removed.wlanConfiguration bands
  have before := holdsConfig_iff manager band bands
  rw [tracked.told wifi bands radio, before, stored] at told
  rw [told, holds, tracked.stored band config stored, Option.some.injEq]
  by_cases last : manager.LastConfig band
  · simp [last, last.not_holdsOther bands, eq_comm]
  · by_cases member : band ∈ bands
    · simp [last, member]
    · simp [last, member]

theorem StatusTracked.of_status (tracked : StatusTracked device manager)
    (configs : next.wlanConfiguration = manager.wlanConfiguration)
    (status : next.status = manager.status) : StatusTracked device next := by
  refine tracked.of_same (fun band => by rw [configs]) fun wifi => ?_
  rw [status]
  exact ⟨tracked.settled wifi, Iff.rfl⟩

theorem StatusTracked.assigned (tracked : StatusTracked device manager) {wifi : Nat} {p : P}
    {value : Bool} (other : p ≠ .haveConfig)
    (holder : value = true → p.ConfirmsConfig →
      ∀ bands, device.wifi[wifi]? = some bands → manager.HoldsConfig bands) :
    StatusTracked device (manager.setStatus device answers wifi p value) := by
  have own : (manager.setStatus device answers wifi p value).status wifi =
      (manager.status wifi).assign device.setUpOrder answers.orders p value :=
    Function.update_self ..
  have others (i : Nat) (different : i ≠ wifi) :
      (manager.setStatus device answers wifi p value).status i = manager.status i :=
    Function.update_of_ne different ..
  refine ⟨tracked.stored, fun i => ?_, fun i bands radio => ?_⟩
  · by_cases same : i = wifi
    · rw [same, own]
      exact ((tracked.settled wifi).assign answers.orders p value).1
    · rw [others i same]
      exact tracked.settled i
  · by_cases same : i = wifi
    · subst same
      rw [own, haveConfig_assign (tracked.settled i) answers.orders other value,
        tracked.told i bands radio]
      refine ⟨?_, .inl⟩
      rintro (held | ⟨set, confirms⟩)
      · exact held
      · exact holder set confirms bands radio
    · rw [others i same]
      exact tracked.told i bands radio

theorem statusTracked_start (internet : Bool) : StatusTracked device (.start internet) := by
  refine ⟨fun band config stored => ?_, fun _ => settled_start, fun wifi bands radio => ?_⟩
  · cases stored
  · constructor
    · intro told
      cases told
    · rintro ⟨band, -, holds⟩
      cases holds

theorem StatusTracked.of_installed (tracked : StatusTracked device manager)
    (installed : ConfigInstalled device answers manager config next)
    (found : device.wifiForBand config.band = some config.wifi) (told : ConfigTold device next) :
    StatusTracked device next := by
  refine ⟨fun band current stored => ?_, fun wifi => (tracked.installed installed found wifi).1,
    told⟩
  rw [installed.wlanConfiguration] at stored
  by_cases same : band = config.band
  · subst same
    rw [Function.update_self] at stored
    cases stored
    exact found
  · rw [Function.update_of_ne same] at stored
    exact tracked.stored band current stored

theorem StatusTracked.of_removed (tracked : StatusTracked device manager)
    (removed : ConfigRemoved device answers manager band config next)
    (stored : manager.wlanConfiguration band = some config) (told : ConfigTold device next) :
    StatusTracked device next := by
  refine ⟨fun other current lookup => ?_, fun wifi => (tracked.removed stored removed wifi).1,
    told⟩
  rw [removed.wlanConfiguration] at lookup
  by_cases same : other = band
  · rw [same, Function.update_self] at lookup
    cases lookup
  · rw [Function.update_of_ne same] at lookup
    exact tracked.stored other current lookup

theorem install_status (tracked : StatusTracked device manager) {filename contents : Text}
    (command : device.command filename contents = some config) :
    (OthersHold device manager (.written filename contents answers) →
        StatusTracked device
          ((manager.setFile filename (some contents)).install device answers config)) ∧
      (ConfigTold device
          ((manager.setFile filename (some contents)).install device answers config) →
        OthersHold device manager (.written filename contents answers)) := by
  have filed : StatusTracked device (manager.setFile filename (some contents)) :=
    tracked.of_status rfl rfl
  have installed := install_spec device (manager.setFile filename (some contents)) answers config
  have found := Device.command_wifi command
  have told := told_installed_iff filed installed found
  constructor
  · intro others
    exact filed.of_installed installed found (told.mpr (others config command))
  · intro after other command'
    rw [command] at command'
    cases command'
    exact told.mp after

theorem remove_status (tracked : StatusTracked device manager) {filename : Text}
    (found : manager.configFor commandFile filename = some (band, config)) :
    (OthersHold device manager (.deleted filename answers) →
        StatusTracked device
          ((manager.setFile filename none).removeWlanConfiguration device answers band config)) ∧
      (ConfigTold device
          ((manager.setFile filename none).removeWlanConfiguration device answers band config) →
        OthersHold device manager (.deleted filename answers)) := by
  have filed : StatusTracked device (manager.setFile filename none) := tracked.of_status rfl rfl
  have removed := removeWlanConfiguration_spec device answers (manager.setFile filename none) band
    config
  have stored := (configFor_eq_some.mp found).2
  have told := told_removed_iff filed stored removed
  constructor
  · intro others
    exact filed.of_removed removed stored (told.mpr (others band config found))
  · intro after other current found'
    rw [found] at found'
    cases found'
    exact told.mp after

/-- Whether a step leaves the interfaces told is decided by its condition. -/
theorem Handled.status (handled : Handled device manager event next)
    (tracked : StatusTracked device manager) (setBy : SetByHolder device manager event) :
    (OthersHold device manager event → StatusTracked device next) ∧
      (ConfigTold device next → OthersHold device manager event) := by
  cases handled with
  | installed command new => exact install_status tracked command
  | @apEnabled filename contents answers band config other ap found =>
      have filed : StatusTracked device (manager.setFile filename (some contents)) :=
        tracked.of_status rfl rfl
      refine ⟨fun _ => filed.put (by rfl) (configFor_eq_some.mp found).2, fun _ => ?_⟩
      intro config command
      rw [other] at command
      cases command
  | written old ap =>
      refine ⟨fun _ => tracked.of_status rfl rfl, fun _ => ?_⟩
      intro config command wifi bands radio member
      have known := old config command
      simp only [ConnectionManager.IsNew, not_forall] at known
      obtain ⟨current, stored, -⟩ := known
      exact .inr ⟨config.band, member, by rw [stored]; rfl⟩
  | removed found => exact remove_status tracked found
  | @apDisabled filename answers band config other found =>
      have filed : StatusTracked device (manager.setFile filename none) :=
        tracked.of_status rfl rfl
      refine ⟨fun _ => filed.put (by rfl) (configFor_eq_some.mp found).2, fun _ => ?_⟩
      intro band config found'
      rw [other] at found'
      cases found'
  | deleted other ap =>
      refine ⟨fun _ => tracked.of_status rfl rfl, fun _ => ?_⟩
      intro band config found
      rw [other] at found
      cases found
  | internet up => exact ⟨fun _ => tracked.of_status rfl rfl, fun _ => trivial⟩
  | runOnce provisioning answers => exact ⟨fun _ => runOnce_status tracked .., fun _ => trivial⟩
  | assigned wifi p value answers =>
      exact ⟨fun _ => tracked.assigned setBy.1 setBy.2, fun _ => trivial⟩

/-- The interfaces are told of their configurations throughout exactly the runs
in which the interfaces that are not told have no part in the changes. -/
theorem config_told_throughout_iff {internet : Bool} {trace : List (ConnectionManager × Event)}
    (run : Run (Stepped device) (.start internet) trace manager)
    (setBy : StepsMeet (SetByHolder device) trace) :
    Throughout (ConfigTold device) trace manager ↔ StepsMeet (OthersHold device) trace := by
  refine (run.with_met setBy).throughout_iff_met (statusTracked_start internet)
    StatusTracked.told ?_ ?_
  · intro state event next tracked others step
    exact ((handled step.1).status tracked step.2).1 others
  · intro state event next tracked step told
    exact ((handled step.1).status tracked step.2).2 told

/-- A configuration for each band of an interface is added, and both are removed. -/
def bothBands : List Event :=
  [wrote "command.5" "wifi\nset\n-s\nhome", wrote "command.2.4" "wifi\nset\n-s\nhome",
    .deleted "command.5".toList .quiet, .deleted "command.2.4".toList .quiet]

theorem config_told_with_one_radio : ∃ trace manager,
    Run (Stepped ⟨[[.ghz5, .ghz24]], .inserted⟩) (.start false) trace manager ∧
      Throughout (ConfigTold ⟨[[.ghz5, .ghz24]], .inserted⟩) trace manager := by
  have run := @run_advance ⟨[[.ghz5, .ghz24]], .inserted⟩ (.start false) bothBands (by
    simp only [StepsMeet, bothBands, traceOf, List.forall_mem_cons]
    decide +kernel)
  refine ⟨_, _, run, (config_told_throughout_iff run ?_).mpr ?_⟩
  · simp [StepsMeet, bothBands, traceOf, wrote, SetByHolder]
  · simp only [StepsMeet, bothBands, traceOf, List.forall_mem_cons]
    decide +kernel

/-- With an interface for each band, the first that loses its configuration is not told. -/
theorem config_not_told_with_two_radios : ∃ trace manager,
    Run (Stepped ⟨[[.ghz5], [.ghz24]], .inserted⟩) (.start false) trace manager ∧
      StepsMeet (SetByHolder ⟨[[.ghz5], [.ghz24]], .inserted⟩) trace ∧
      manager.wlanConfiguration .ghz5 = none ∧ (manager.status 0).HaveConfig ∧
      ¬ConfigTold ⟨[[.ghz5], [.ghz24]], .inserted⟩ manager := by
  have run := @run_advance ⟨[[.ghz5], [.ghz24]], .inserted⟩ (.start false) bothBands (by
    simp only [StepsMeet, bothBands, traceOf, List.forall_mem_cons]
    decide +kernel)
  have told : ((bothBands.foldl (ConnectionManager.advance ⟨[[.ghz5], [.ghz24]], .inserted⟩)
      (.start false)).status 0).HaveConfig := by
    simp only [Board.HaveConfig]
    decide +kernel
  refine ⟨_, _, run, ?_, by decide +kernel, told, fun known => ?_⟩
  · simp [StepsMeet, bothBands, traceOf, wrote, SetByHolder]
  · revert told
    rw [known 0 [.ghz5] rfl]
    decide +kernel

end Steps

end Gfiber.Conman
