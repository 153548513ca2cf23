import Gfiber.Conman.ManagerProperties

/-! The files that enable access points, and the flags of the configurations. -/

set_option autoImplicit false

namespace Gfiber.Conman

open Lib

section FileNames

/-- A pattern matches itself, since a dot is no newline. -/
theorem afterPattern_append (pattern rest : Text) (solid : '\n' ∉ pattern) :
    afterPattern pattern (pattern ++ rest) = some rest := by
  induction pattern with
  | nil => rfl
  | cons char pattern ih =>
      obtain ⟨first, others⟩ := not_or.mp (mt List.mem_cons.mpr solid)
      rw [List.cons_append, afterPattern, if_pos, ih others]
      split
      case isTrue => exact fun same => first same.symm
      case isFalse => rfl

theorem head_of_afterPattern {char : Char} {pattern text rest : Text} (literal : char ≠ '.')
    (found : afterPattern (char :: pattern) text = some rest) : text.head? = some char := by
  cases text with
  | nil => cases found
  | cons first text =>
      simp only [afterPattern, if_neg literal] at found
      split at found
      case isTrue same => rw [same, List.head?_cons]
      case isFalse => cases found

theorem head_of_matchWlanFile {char : Char} {start name : Text} {band : Band}
    (literal : char ≠ '.') (found : matchWlanFile (char :: start) name = some band) :
    name.head? = some char := by
  obtain ⟨rest, after, -⟩ := Option.bind_eq_some_iff.mp found
  exact head_of_afterPattern literal after

theorem bandAtEnd_suffix (band : Band) {suffix : Text} (line : '\n' ∉ suffix) :
    bandAtEnd band ((if suffix = [] then [] else suffix ++ ['.']) ++ band.text) = true := by
  rw [bandAtEnd, List.reverse_append, Text.afterLiteral_append]
  by_cases empty : suffix = []
  · simp [empty]
  · simp [empty, line]

/-- The file of a suffix on one line is matched with its band. -/
theorem matchWlanFile_apFile {suffix : Option Text} (band : Band) (line : '\n' ∉ suffix.getD []) :
    matchWlanFile accessPointFile (apFile suffix band) = some band := by
  have own := bandAtEnd_suffix band line
  rw [matchWlanFile, apFile, List.append_assoc, afterPattern_append _ _ (by decide)]
  generalize (if suffix.getD [] = [] then [] else suffix.getD [] ++ ['.']) = front at own ⊢
  cases band with
  | ghz24 =>
      have last : (front ++ Band.ghz24.text).getLast? = some '4' := by simp [Band.text]
      simp [last, own]
  | ghz5 =>
      have last : (front ++ Band.ghz5.text).getLast? = some '5' := by simp [Band.text]
      have other : bandAtEnd .ghz24 (front ++ Band.ghz5.text) = false := by
        simp [bandAtEnd, Band.text, Text.afterLiteral]
      simp [last, own, other]

theorem apFile_ne_of_head {filename : Text} (head : filename.head? = some 'c')
    (config : WLANConfiguration) : filename ≠ config.apFile := by
  rintro rfl
  cases head

end FileNames

section Commands

theorem splitLines_line {line text : Text} (current : '\n' ∉ line) :
    ∀ found ∈ splitLines line text, '\n' ∉ found := by
  have next : '\n' ∉ ([] : Text) := List.not_mem_nil
  fun_induction splitLines line text with
  | case1 => exact fun found member => absurd member List.not_mem_nil
  | case2 line => exact List.forall_mem_singleton.mpr current
  | case3 line rest ih => exact List.forall_mem_cons.mpr ⟨current, ih next⟩
  | case4 line char rest _ ends ih => exact List.forall_mem_cons.mpr ⟨current, ih next⟩
  | case5 line char rest _ inside ih =>
      refine ih fun member => ?_
      rcases List.mem_append.mp member with earlier | last
      · exact current earlier
      · exact inside (.inl (List.mem_singleton.mp last).symm)

/-- The suffix is one of the lines. -/
theorem readOptions_suffix {attr : Option OptionAttr} {options : CommandOptions}
    {lines : List Text} (single : ∀ line ∈ lines, '\n' ∉ line)
    (before : '\n' ∉ options.interfaceSuffix.getD []) :
    '\n' ∉ (readOptions attr options lines).interfaceSuffix.getD [] := by
  induction lines generalizing attr options with
  | nil => exact before
  | cons line lines ih =>
      obtain ⟨first, others⟩ := List.forall_mem_cons.mp single
      cases attr with
      | none =>
          refine ih others ?_
          split
          case h_1 => exact before
          case h_2 => exact before
      | some attr =>
          cases attr with
          | ssid => exact ih others before
          | interfaceSuffix => exact ih others first

end Commands

/-- A configuration of the band that was read from a command file. -/
structure ReadFor (device : Device) (band : Band) (config : WLANConfiguration) : Prop where
  band_eq : config.band = band
  wifi : (device.wifiForBand band).isSome
  line : '\n' ∉ config.interfaceSuffix.getD []

section Flags

variable {device : Device} {band : Band} {config : WLANConfiguration}

theorem Device.command_read {filename contents : Text}
    (command : device.command filename contents = some config) :
    ReadFor device config.band config := by
  refine ⟨rfl, by rw [Device.command_wifi command]; rfl, ?_⟩
  obtain ⟨band, wifi, -, read⟩ := Device.command_new command
  obtain ⟨ssid, -, made⟩ := Option.bind_eq_some_iff.mp read
  cases made
  exact readOptions_suffix (splitLines_line List.not_mem_nil) List.not_mem_nil

theorem ReadFor.matched (read : ReadFor device band config) :
    matchWlanFile accessPointFile config.apFile = some band := by
  rw [WLANConfiguration.apFile, read.band_eq]
  exact matchWlanFile_apFile band read.line

theorem afterLiteral_apFile (config : WLANConfiguration) :
    (Text.afterLiteral accessPointFile config.apFile).isSome := by
  rw [WLANConfiguration.apFile, apFile, List.append_assoc, Text.afterLiteral_append]
  rfl

end Flags

/-- The flag of each configuration says whether its own file exists. -/
def FlagsMatch (manager : ConnectionManager) : Prop :=
  ∀ band config, manager.wlanConfiguration band = some config →
    config.accessPoint = (manager.files config.apFile).isSome

/-- The files of other suffixes agree with the file of the configuration
whenever the flag is taken from them. -/
def FilesAgree (device : Device) (manager : ConnectionManager) : Event → Prop
  | .written filename contents _ =>
      (∀ config current, device.command filename contents = some config →
        manager.wlanConfiguration config.band = some current →
        config.command ≠ current.command →
        (manager.files config.apFile).isSome = (manager.files current.apFile).isSome) ∧
      ∀ band config, (Text.afterLiteral accessPointFile filename).isSome →
        manager.configFor accessPointFile filename = some (band, config) →
        filename = config.apFile ∨ (manager.files config.apFile).isSome
  | .deleted filename _ =>
      ∀ band config, manager.configFor accessPointFile filename = some (band, config) →
        filename = config.apFile ∨ manager.files config.apFile = none
  | _ => True

instance decidableFilesAgree (device : Device) (manager : ConnectionManager) :
    (event : Event) → Decidable (FilesAgree device manager event)
  | .written filename contents _ =>
      decidable_of_iff
        (((device.command filename contents).all fun config =>
          (manager.wlanConfiguration config.band).all fun current =>
            decide (config.command ≠ current.command →
              (manager.files config.apFile).isSome = (manager.files current.apFile).isSome)) ∧
        ((manager.configFor accessPointFile filename).all fun found =>
          decide ((Text.afterLiteral accessPointFile filename).isSome →
            filename = found.2.apFile ∨ (manager.files found.2.apFile).isSome)))
        (by
          simp only [Option.all_eq_true, decide_eq_true_eq, Prod.forall, FilesAgree]
          refine and_congr ⟨fun all config current command => all config command current,
            fun all config command current => all config current command⟩ ?_
          exact forall₂_congr fun band config => ⟨fun all literal found => all found literal,
            fun all found literal => all literal found⟩)
  | .deleted filename _ =>
      decidable_of_iff
        ((manager.configFor accessPointFile filename).all fun found =>
          decide (filename = found.2.apFile ∨ manager.files found.2.apFile = none))
        (by simp only [Option.all_eq_true, decide_eq_true_eq, Prod.forall, FilesAgree])
  | .internet _ => isTrue trivial
  | .runOnce _ _ => isTrue trivial
  | .assigned _ _ _ _ => isTrue trivial

/-- The configurations are those of command files, and their flags are right. -/
structure FlagsTracked (device : Device) (manager : ConnectionManager) : Prop where
  read : ∀ band config, manager.wlanConfiguration band = some config → ReadFor device band config
  flags : FlagsMatch manager

section Steps

variable {device : Device} {answers : Answers} {manager next : ConnectionManager} {band : Band}
  {config : WLANConfiguration} {event : Event}

/-- The configurations and the files of all bands but one are as they were. -/
theorem FlagsTracked.of_band (tracked : FlagsTracked device manager) (band : Band)
    (own : ∀ config, next.wlanConfiguration band = some config → ReadFor device band config ∧
      config.accessPoint = (next.files config.apFile).isSome)
    (others : ∀ other config, other ≠ band → next.wlanConfiguration other = some config →
      manager.wlanConfiguration other = some config ∧
        next.files config.apFile = manager.files config.apFile) : FlagsTracked device next := by
  constructor
  · intro other config stored
    by_cases same : other = band
    · subst same
      exact (own config stored).1
    · exact tracked.read other config (others other config same stored).1
  · intro other config stored
    by_cases same : other = band
    · subst same
      exact (own config stored).2
    · obtain ⟨before, files⟩ := others other config same stored
      rw [files]
      exact tracked.flags other config before

/-- The files of the configurations are not touched by another file. -/
theorem FlagsTracked.setFile (tracked : FlagsTracked device manager) {filename : Text}
    (contents : Option Text)
    (apart : ∀ band config, manager.wlanConfiguration band = some config →
      filename ≠ config.apFile) : FlagsTracked device (manager.setFile filename contents) := by
  refine ⟨tracked.read, fun band config stored => ?_⟩
  have same : (manager.setFile filename contents).files config.apFile =
      manager.files config.apFile :=
    Function.update_of_ne (apart band config stored).symm ..
  rw [same]
  exact tracked.flags band config stored

/-- A configuration is stored whose flag is right. -/
theorem FlagsTracked.store (tracked : FlagsTracked device manager)
    {changed : WLANConfiguration} (files : next.files = manager.files)
    (configs : next.wlanConfiguration =
      Function.update manager.wlanConfiguration band (some changed))
    (read : ReadFor device band changed)
    (flag : changed.accessPoint = (manager.files changed.apFile).isSome) :
    FlagsTracked device next := by
  refine tracked.of_band band ?_ ?_
  · intro found lookup
    rw [configs, Function.update_self] at lookup
    cases lookup
    rw [files]
    exact ⟨read, flag⟩
  · intro other found different lookup
    rw [configs, Function.update_of_ne different] at lookup
    rw [files]
    exact ⟨lookup, rfl⟩

theorem ReadFor.withUp (read : ReadFor device band config) (up : Bool) :
    ReadFor device band { config with accessPointUp := up } :=
  ⟨read.band_eq, read.wifi, read.line⟩

theorem ReadFor.withAccessPoint (read : ReadFor device band config) (accessPoint : Bool) :
    ReadFor device band { config with accessPoint := accessPoint } :=
  ⟨read.band_eq, read.wifi, read.line⟩

theorem FlagsTracked.update (tracked : FlagsTracked device manager)
    (stored : manager.wlanConfiguration band = some config) :
    FlagsTracked device (manager.updateAccessPoint device answers band config) := by
  have updated := updateAccessPoint_spec device answers manager band config
  exact tracked.store updated.files updated.wlanConfiguration
    ((tracked.read band config stored).withUp _) (tracked.flags band config stored)

theorem FlagsTracked.put_down (tracked : FlagsTracked device manager)
    (stored : manager.wlanConfiguration band = some config) :
    FlagsTracked device (manager.put band (some { config with accessPointUp := false })) :=
  tracked.store rfl rfl ((tracked.read band config stored).withUp false)
    (tracked.flags band config stored)

theorem runOnce_flags (tracked : FlagsTracked device manager) (provisioning : Nat → Bool)
    (answers : Nat → Band → Answers) :
    FlagsTracked device (manager.runOnce device provisioning answers) :=
  runOnce_preserves (fun _ tracked stored => tracked.update stored)
    (fun tracked stored => tracked.put_down stored) tracked provisioning answers

/-- A new configuration gets the flag of the one before it. -/
theorem initialAccessPoint_iff (flags : FlagsMatch manager) (config : WLANConfiguration) :
    manager.initialAccessPoint config = (manager.files config.apFile).isSome ↔
      ∀ current, manager.wlanConfiguration config.band = some current →
        (manager.files config.apFile).isSome = (manager.files current.apFile).isSome := by
  rw [ConnectionManager.initialAccessPoint]
  cases stored : manager.wlanConfiguration config.band with
  | none => simp
  | some current =>
      simp only [Option.some.injEq, forall_eq', flags config.band current stored]
      exact eq_comm

theorem FlagsTracked.install (tracked : FlagsTracked device manager)
    (read : ReadFor device config.band config)
    (flag : manager.initialAccessPoint config = (manager.files config.apFile).isSome) :
    FlagsTracked device (manager.install device answers config) := by
  have installed := install_spec device manager answers config
  exact tracked.store installed.files installed.wlanConfiguration
    ((read.withAccessPoint _).withUp _) flag

theorem initialAccessPoint_of_install
    (flags : FlagsMatch (manager.install device answers config)) :
    manager.initialAccessPoint config = (manager.files config.apFile).isSome := by
  have installed := install_spec device manager answers config
  have flag := flags config.band _ (by rw [installed.wlanConfiguration, Function.update_self])
  rw [installed.files] at flag
  exact flag

/-- A file of the band appears or disappears, and the flag follows it. -/
theorem FlagsTracked.flag (tracked : FlagsTracked device manager) {filename : Text}
    (found : manager.configFor accessPointFile filename = some (band, config))
    {contents : Option Text}
    (agree : filename = config.apFile ∨
      (manager.files config.apFile).isSome = contents.isSome) :
    FlagsTracked device ((manager.setFile filename contents).put band
      (some { config with accessPoint := contents.isSome })) := by
  obtain ⟨matched, stored⟩ := configFor_eq_some.mp found
  refine tracked.of_band band ?_ ?_
  · intro changed lookup
    rw [ConnectionManager.put_self] at lookup
    cases lookup
    refine ⟨(tracked.read band config stored).withAccessPoint _, ?_⟩
    show contents.isSome = (Function.update manager.files filename contents config.apFile).isSome
    rcases agree with rfl | same
    · rw [Function.update_self]
    · by_cases own : config.apFile = filename
      · rw [own, Function.update_self]
      · rw [Function.update_of_ne own, same]
  · intro other current different lookup
    rw [ConnectionManager.put_of_ne _ _ _ different] at lookup
    refine ⟨lookup, Function.update_of_ne ?_ ..⟩
    -- The file of the other band would have been matched with that band.
    rintro rfl
    rw [(tracked.read other current lookup).matched] at matched
    cases matched
    exact different rfl

theorem agree_of_flag {filename : Text} {contents : Option Text}
    (flags : FlagsMatch ((manager.setFile filename contents).put band
      (some { config with accessPoint := contents.isSome }))) :
    filename = config.apFile ∨ (manager.files config.apFile).isSome = contents.isSome := by
  have flag : contents.isSome =
      (Function.update manager.files filename contents config.apFile).isSome :=
    flags band _ (ConnectionManager.put_self ..)
  by_cases own : config.apFile = filename
  · exact .inl own.symm
  · rw [Function.update_of_ne own] at flag
    exact .inr flag.symm

/-- A file that matches no configuration is the file of none. -/
theorem FlagsTracked.apart (tracked : FlagsTracked device manager) {filename : Text}
    (unmatched : ∀ band config, (Text.afterLiteral accessPointFile filename).isSome →
      manager.configFor accessPointFile filename = some (band, config) →
      device.wifiForBand band = none)
    (band : Band) (config : WLANConfiguration)
    (stored : manager.wlanConfiguration band = some config) : filename ≠ config.apFile := by
  rintro rfl
  have read := tracked.read band config stored
  have missing := unmatched band config (afterLiteral_apFile config)
    (configFor_eq_some.mpr ⟨read.matched, stored⟩)
  have wifi := read.wifi
  rw [missing] at wifi
  cases wifi

theorem FlagsTracked.remove (tracked : FlagsTracked device manager) :
    FlagsTracked device (manager.removeWlanConfiguration device answers band config) := by
  have removed := removeWlanConfiguration_spec device answers manager band config
  refine tracked.of_band band ?_ ?_
  · intro found lookup
    rw [removed.wlanConfiguration, Function.update_self] at lookup
    cases lookup
  · intro other found different lookup
    rw [removed.wlanConfiguration, Function.update_of_ne different] at lookup
    rw [removed.files]
    exact ⟨lookup, rfl⟩

theorem command_head {filename contents : Text}
    (command : device.command filename contents = some config) : filename.head? = some 'c' := by
  obtain ⟨rest, after, -⟩ := Option.bind_eq_some_iff.mp command
  rw [Text.eq_append_of_afterLiteral after]
  rfl

theorem configFor_head {char : Char} {start filename : Text} (literal : char ≠ '.')
    (found : manager.configFor (char :: start) filename = some (band, config)) :
    filename.head? = some char :=
  head_of_matchWlanFile literal (configFor_eq_some.mp found).1

/-- A command file is none of the files that decide the flags. -/
theorem install_flags (tracked : FlagsTracked device manager) {filename contents : Text}
    (command : device.command filename contents = some config) (new : manager.IsNew config) :
    (FilesAgree device manager (.written filename contents answers) →
        FlagsTracked device
          ((manager.setFile filename (some contents)).install device answers config)) ∧
      (FlagsMatch ((manager.setFile filename (some contents)).install device answers config) →
        FilesAgree device manager (.written filename contents answers)) := by
  have head := command_head command
  have filed := tracked.setFile (some contents) fun _ other _ => apFile_ne_of_head head other
  have same (other : WLANConfiguration) :
      (manager.setFile filename (some contents)).files other.apFile = manager.files other.apFile :=
    Function.update_of_ne (apFile_ne_of_head head other).symm ..
  have initial := initialAccessPoint_iff filed.flags config
  simp only [same] at initial
  constructor
  · intro agree
    refine filed.install (Device.command_read command) ?_
    rw [same, initial]
    exact fun current stored => agree.1 config current command stored (new current stored)
  · intro flags
    have inherited := initialAccessPoint_of_install flags
    rw [same, initial] at inherited
    refine ⟨fun other current command' stored _ => ?_, fun _ _ literal _ => ?_⟩
    · rw [command] at command'
      cases command'
      exact inherited current stored
    · obtain ⟨rest, after, -⟩ := Option.bind_eq_some_iff.mp command
      exact absurd literal (not_both_files (Option.isSome_iff_exists.mpr ⟨rest, after⟩))

theorem Handled.flags (handled : Handled device manager event next)
    (tracked : FlagsTracked device manager) :
    (FilesAgree device manager event → FlagsTracked device next) ∧
      (FlagsMatch next → FilesAgree device manager event) := by
  cases handled with
  | installed command new => exact install_flags tracked command new
  | @apEnabled filename contents answers band config other ap found =>
      constructor
      · intro agree
        exact tracked.flag found (agree.2 band config ap found)
      · intro flags
        refine ⟨fun config current command => ?_, fun band' config' _ found' => ?_⟩
        · rw [other] at command
          cases command
        · rw [found] at found'
          cases found'
          exact agree_of_flag flags
  | written old ap =>
      refine ⟨fun _ => tracked.setFile _ (tracked.apart ap), fun _ => ⟨?_, ?_⟩⟩
      · intro config current command stored different
        exact absurd (isNew_of_stored stored different) (old config command)
      · intro band config literal found
        have read := tracked.read band config (configFor_eq_some.mp found).2
        have wifi := read.wifi
        rw [ap band config literal found] at wifi
        cases wifi
  | @removed filename answers band config found =>
      have head := configFor_head (by decide) found
      refine ⟨fun _ => ?_, fun _ band config found' => ?_⟩
      · exact (tracked.setFile none fun _ other _ => apFile_ne_of_head head other).remove
      · rw [configFor_head (by decide) found'] at head
        cases head
  | @apDisabled filename answers band config other found =>
      constructor
      · intro agree
        refine tracked.flag found ((agree band config found).imp_right fun missing => ?_)
        rw [missing]
      · intro flags band' config' found'
        rw [found] at found'
        cases found'
        refine (agree_of_flag flags).imp_right fun missing => ?_
        simpa using missing
  | deleted other ap =>
      refine ⟨fun _ => ?_, fun _ band config found => ?_⟩
      · refine tracked.setFile none (tracked.apart fun band config _ found => ?_)
        rw [ap] at found
        cases found
      · rw [ap] at found
        cases found
  | internet up => exact ⟨fun _ => ⟨tracked.read, tracked.flags⟩, fun _ => trivial⟩
  | runOnce provisioning answers => exact ⟨fun _ => runOnce_flags tracked .., fun _ => trivial⟩
  | assigned wifi p value answers =>
      exact ⟨fun _ => ⟨tracked.read, tracked.flags⟩, fun _ => trivial⟩

theorem flagsTracked_start (device : Device) (internet : Bool) :
    FlagsTracked device (.start internet) := by
  constructor
  · intro band config stored
    cases stored
  · intro band config stored
    cases stored

/-- The flags say which files exist throughout exactly the runs in which the
files of other suffixes agree. -/
theorem flags_match_throughout_iff {internet : Bool} {trace : List (ConnectionManager × Event)}
    (run : Run (Stepped device) (.start internet) trace manager) :
    Throughout FlagsMatch trace manager ↔ StepsMeet (FilesAgree device) trace := by
  refine run.throughout_iff_met (flagsTracked_start device internet) FlagsTracked.flags ?_ ?_
  · intro state event next tracked agree step
    exact ((handled step).flags tracked).1 agree
  · intro state event next tracked step flags
    exact ((handled step).flags tracked).2 flags

/-- Only the files of one suffix are written and deleted. -/
def oneSuffix : List Event :=
  [wrote "access_point.guest.5" "",
    wrote "command.guest.5" "wifi\nset\n-s\nhome\n-S\nguest",
    .deleted "access_point.guest.5".toList .quiet]

theorem flags_match_for_one_suffix : ∃ trace manager,
    Run (Stepped ⟨[[.ghz5]], .inserted⟩) (.start true) trace manager ∧
      Throughout FlagsMatch trace manager ∧ (manager.wlanConfiguration .ghz5).isSome := by
  have run := @run_advance ⟨[[.ghz5]], .inserted⟩ (.start true) oneSuffix (by
    simp only [StepsMeet, oneSuffix, traceOf, List.forall_mem_cons]
    decide +kernel)
  refine ⟨_, _, run, (flags_match_throughout_iff run).mpr ?_, by decide +kernel⟩
  simp only [StepsMeet, oneSuffix, traceOf, List.forall_mem_cons]
  decide +kernel

/-- The file of another suffix sets the flag of a configuration without one. -/
theorem flag_set_by_other_suffix : ∃ trace manager config,
    Run (Stepped ⟨[[.ghz5]], .inserted⟩) (.start true) trace manager ∧
      manager.wlanConfiguration .ghz5 = some config ∧ config.accessPoint = true ∧
      config.apFile = "access_point.5".toList ∧ manager.files config.apFile = none := by
  have run := @run_advance ⟨[[.ghz5]], .inserted⟩ (.start true)
    [wrote "command.5" "wifi\nset\n-s\nhome", wrote "access_point.guest.5" ""] (by
      simp only [StepsMeet, traceOf, List.forall_mem_cons]
      decide +kernel)
  refine ⟨_, _, ⟨.ghz5, 0, ["wifi", "set", "-s", "home"].map String.toList, "home".toList, none,
    none, true, false⟩, run, ?_⟩
  decide +kernel

end Steps

end Gfiber.Conman
