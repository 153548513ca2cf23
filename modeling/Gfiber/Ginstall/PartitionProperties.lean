import Gfiber.Ginstall.LoaderProperties
import Gfiber.Lib.Run

/-! The partitions that the variables name, over sequences of installations and reboots. What
a device holds at some moment of an installation is what it holds at the end of one that is
cut there. -/

set_option autoImplicit false

namespace Gfiber.Ginstall

open Lib
open Exec (Ensures)

section Runs

/-- The partition is the active one of the OS, as `SetBootPartition` writes it. -/
def Named (device : Device) (os : Os) (partition : Partition) : Prop :=
  device.hnvram os.activeVariable = some (bootName os partition)

instance (device : Device) (os : Os) (partition : Partition) :
    Decidable (Named device os partition) :=
  inferInstanceAs (Decidable (_ = _))

inductive Event where
  | install (opt : Options) (tar : List Entry) (fates : List Fate)
  | reboot (os : Os) (cmdline : Text)

/-- The partition to install to is left to the installer, and a reboot starts what the
variables name. -/
inductive Step (host : Host) : Device → Event → Device → Prop where
  | install {device : Device} {opt : Options} {tar : List Entry} {fates : List Fate}
      (other : opt.partitionName = "other".toList) (trusted : Trusted host ⟨device, fates, []⟩) :
      Step host device (.install opt tar fates)
        (installImage host opt tar ⟨device, fates, []⟩).2.device
  | reboot {device : Device} {os : Os} {cmdline : Text}
      (target : ∀ named : Os, device.hnvram .bootTarget = some named.name → os = named)
      (booted : ∀ partition, Named device os partition →
        getBootedPartition { device with os, cmdline } = some partition) :
      Step host device (.reboot os cmdline) { device with os, cmdline }

variable (host : Host) (Image : Os → (Part → Text) → Prop)

/-- All files of an image of the OS are on the partition. -/
def HoldsImage (device : Device) (os : Os) (partition : Partition) : Prop :=
  ∃ files, Image os files ∧ ∀ part store, part.os = os → partStore host part partition = some store →
    files part <+: device.contents store

def ActiveHold (device : Device) : Prop :=
  ∀ os partition, Named device os partition → HoldsImage host Image device os partition

/-- What is taken for the partition in use is the active one: the one that has been booted,
or, for an image of FiberOS on Android, always the first. -/
structure Spares (device : Device) (targetOs : Os) (active : Partition) : Prop where
  running : targetOs = device.os → getBootedPartition device = some active ∨
    getBootedPartition device = none ∧ active = .zero
  fiberos : device.os = .android → targetOs = .fiberos → active = .zero

/-- The last entry that is installed as a part. -/
def lastOfPart (part : Part) (tar : List Entry) : Option Entry :=
  tar.reverse.find? fun entry => entryPart entry.name = some part

/-- The entries make up an image, with the files of the partition for the parts that are
not among them. -/
def Completes (device : Device) (tar : List Entry) (os : Os) (partition : Partition) : Prop :=
  ∃ files, Image os files ∧ ∀ part store, part.os = os → partStore host part partition = some store →
    match lastOfPart part tar with
    | some entry => files part = entry.data
    | none => files part <+: device.contents store

def SafeStep (device : Device) : Event → Prop
  | .reboot _ _ => True
  | .install opt tar _ => ∀ manifest partition, readManifest tar = .ok manifest →
      checkManifest host manifest = .ok () →
      getPartition device opt.partitionName (getOsFromManifest manifest) = .ok partition →
      (∀ active, Named device (getOsFromManifest manifest) active →
        Spares device (getOsFromManifest manifest) active) ∧
      Completes host Image device tar (getOsFromManifest manifest) partition

/-- Nothing has been written to the partitions that were active before. -/
structure Spared (device : Device) (after : World) : Prop where
  writes : ∀ write ∈ after.writes, ∀ part side, Named device part.os side →
    write.store.label ≠ some (Part.name part side)
  contents : ∀ part side store, Named device part.os side →
    partStore host part side = some store → after.device.contents store = device.contents store

def SparesActive (device : Device) : Event → Prop
  | .reboot _ _ => True
  | .install opt tar fates => Spared host device (installImage host opt tar ⟨device, fates, []⟩).2

end Runs

section Choice

variable {device : Device} {targetOs : Os} {active : Partition}

theorem bootName_injective {os : Os} {partition side : Partition}
    (same : bootName os partition = bootName os side) : partition = side := by
  cases os <;> cases partition <;> cases side <;>
    first
      | rfl
      | exact absurd same (by decide)

theorem activeVariable_injective {os other : Os} (same : os.activeVariable = other.activeVariable) :
    os = other := by
  cases os <;> cases other <;>
    first
      | rfl
      | cases same

theorem Partition.other_ne (partition : Partition) : partition ≠ partition.other := by
  cases partition with
  | zero => decide
  | one => decide

/-- FiberOS is not read as it is written, so that the first partition is taken to be active. -/
theorem active_fiberos (named : Named device .fiberos active) :
    getActivePartitionFromHNVRAM device .fiberos = none := by
  rw [getActivePartitionFromHNVRAM, named]
  cases active with
  | zero => decide
  | one => decide

theorem active_android (named : Named device .android active) :
    getActivePartitionFromHNVRAM device .android = some active := by
  rw [getActivePartitionFromHNVRAM, named]
  cases active with
  | zero => decide
  | one => decide

/-- The condition says when the other one of the two partitions is chosen. -/
theorem spares_iff (named : Named device targetOs active) :
    getPartition device "other".toList targetOs = .ok active.other ↔
      Spares device targetOs active := by
  rw [getPartition, if_pos rfl]
  by_cases running : targetOs = device.os
  · rw [if_pos running]
    constructor
    · intro chosen
      refine ⟨fun _ => ?_, ?_⟩
      · cases booted : getBootedPartition device with
        | none =>
            rw [booted] at chosen
            cases active with
            | zero => exact Or.inr ⟨rfl, rfl⟩
            | one => cases chosen
        | some partition =>
            rw [booted] at chosen
            cases active <;> cases partition <;>
              first
                | exact Or.inl rfl
                | cases chosen
      · intro android fiberos
        rw [running, android] at fiberos
        cases fiberos
    · intro spares
      cases spares.running running with
      | inl booted =>
          rw [booted]
          rfl
      | inr unknown =>
          rw [unknown.1, unknown.2]
          rfl
  · rw [if_neg running]
    cases targetOs with
    | fiberos =>
        rw [active_fiberos named]
        constructor
        · intro chosen
          refine ⟨fun same => absurd same running, fun _ _ => ?_⟩
          cases active with
          | zero => rfl
          | one => cases chosen
        · intro spares
          have android : device.os = .android := by
            cases os : device.os with
            | fiberos => exact absurd os.symm running
            | android => rfl
          rw [spares.fiberos android rfl]
          rfl
    | android =>
        rw [active_android named]
        constructor
        · intro _
          refine ⟨fun same => absurd same running, fun _ fiberos => ?_⟩
          cases fiberos
        · intro _
          rfl

end Choice

section Installation

variable {host : Host} {Image : Os → (Part → Text) → Prop}
variable {device : Device} {tar : List Entry} {fates : List Fate} {manifest : Manifest}
variable {targetOs : Os} {partition : Partition}

/-- A write of the image, or of the loaders. -/
def InstallWrite (targetOs : Os) (partition : Partition) (tar : List Entry) (write : Write) : Prop :=
  ImageWrite targetOs partition tar write ∨ LoaderWrite write

theorem label_not_written {part : Part} {side : Partition} {write : Write}
    (label : write.store.label = some (part.name side))
    (apart : part.os = targetOs → side ≠ partition) :
    ¬InstallWrite targetOs partition tar write := by
  intro written
  cases written with
  | inl image =>
      obtain ⟨_, _, other, _, os, same, _⟩ := image
      obtain ⟨rfl, rfl⟩ := Part.name_injective (Option.some.inj (label.symm.trans same))
      exact apart os rfl
  | inr loader => exact part_not_loader label loader

theorem spared_of_touches {after : World}
    (touched : Touches (InstallWrite targetOs partition tar) ⟨device, fates, []⟩ after)
    (different : ∀ active, Named device targetOs active → active ≠ partition) :
    Spared host device after where
  writes write member part side named label := by
    have apart : part.os = targetOs → side ≠ partition := fun os => different side (os ▸ named)
    cases touched.writes write member with
    | inl earlier => cases earlier
    | inr written => exact label_not_written label apart written
  contents part side store named stored := by
    have apart : part.os = targetOs → side ≠ partition := fun os => different side (os ▸ named)
    exact touched.contents store fun _ => label_not_written (label_partStore host side stored) apart

theorem Spared.switched {between after : World} (spared : Spared host device between)
    (switched : Switched targetOs partition between after) : Spared host device after where
  writes write member := spared.writes write (switched.writes ▸ member)
  contents part side store named stored := by
    rw [switched.contents]
    exact spared.contents part side store named stored

theorem holdsImage_of_spared {after : World} {os : Os} {side : Partition}
    (spared : Spared host device after) (named : Named device os side)
    (holds : HoldsImage host Image device os side) :
    HoldsImage host Image after.device os side := by
  obtain ⟨files, image, stored⟩ := holds
  refine ⟨files, image, ?_⟩
  intro part store belongs found
  rw [spared.contents part side store (belongs ▸ named) found]
  exact stored part store belongs found

/-- Where the last entry of a part stands. -/
theorem lastOfPart_split {part : Part} {entry : Entry} (found : lastOfPart part tar = some entry) :
    entryPart entry.name = some part ∧ ∃ seen rest, tar = seen ++ entry :: rest ∧
      ∀ later ∈ rest, entryPart later.name ≠ some part := by
  obtain ⟨isPart, rest, seen, split, others⟩ := List.find?_eq_some_iff_append.mp found
  refine ⟨of_decide_eq_true isPart, seen.reverse, rest.reverse, ?_, ?_⟩
  · have reversed := congrArg List.reverse split
    simpa using reversed
  · intro later member
    have other := others later (List.mem_reverse.mp member)
    simpa using other

theorem lastOfPart_none {part : Part} (missing : lastOfPart part tar = none) :
    ∀ entry ∈ tar, entryPart entry.name ≠ some part := by
  intro entry member
  have other := List.find?_eq_none.mp missing entry (List.mem_reverse.mpr member)
  simpa using other

/-- When all entries have been installed the partition holds an image. -/
theorem holdsImage_of_completes {collected : Collected} {between after : World}
    (completes : Completes host Image device tar targetOs partition)
    (progress : Progress host manifest targetOs partition ⟨device, fates, []⟩ tar collected between)
    (trusted : Trusted host ⟨device, fates, []⟩)
    (kept : ∀ part store, partStore host part partition = some store →
      after.device.contents store = between.device.contents store) :
    HoldsImage host Image after.device targetOs partition := by
  obtain ⟨files, image, complete⟩ := completes
  refine ⟨files, image, ?_⟩
  intro part store belongs found
  have here := complete part store belongs found
  rw [kept part store found]
  cases last : lastOfPart part tar with
  | some entry =>
      rw [last] at here
      obtain ⟨isPart, seen, rest, split, others⟩ := lastOfPart_split last
      obtain ⟨same, installed⟩ := progress.installed seen entry rest part split isPart belongs
      cases found.symm.trans installed.found
      rw [show files part = entry.data from here]
      exact installed.holds others trusted
  | none =>
      rw [last] at here
      have untouched : ∀ data, ¬ImageWrite targetOs partition tar ⟨store, data⟩ := by
        intro data image
        obtain ⟨entry, member, other, isPart, _, label, _⟩ := image
        have names := (label_partStore host partition found).symm.trans label
        obtain ⟨rfl, _⟩ := Part.name_injective (Option.some.inj names)
        exact lastOfPart_none last entry member isPart
      rw [progress.touched.contents store untouched]
      exact here

/-- The variables name what they have named before, or the partition that is now whole. -/
theorem activeHold_of_switched {between after : World} (hold : ActiveHold host Image device)
    (spared : Spared host device after) (before : between.device.hnvram = device.hnvram)
    (switched : Switched targetOs partition between after)
    (whole : HoldsImage host Image after.device targetOs partition) :
    ActiveHold host Image after.device := by
  intro os side named
  cases switched.hnvram os.activeVariable with
  | inl same =>
      have earlier : Named device os side := by
        rw [Named, ← before, ← same]
        exact named
      exact holdsImage_of_spared spared earlier (hold os side earlier)
  | inr changed =>
      cases changed with
      | inl activated =>
          obtain ⟨variable_eq, value⟩ := activated
          cases activeVariable_injective variable_eq
          have same := Option.some.inj (named.symm.trans value)
          rw [bootName_injective same]
          exact whole
      | inr target => exact absurd target.1.symm (activeVariable_ne os)

/-- An installation at whatever moment it ends. -/
theorem ensures_spared {opt : Options} (other : opt.partitionName = "other".toList)
    (trusted : Trusted host ⟨device, fates, []⟩) (hold : ActiveHold host Image device)
    (safe : SafeStep host Image device (.install opt tar fates)) :
    Ensures (installImage host opt tar)
      (fun _ after => Spared host device after ∧ ActiveHold host Image after.device)
      (fun after => Spared host device after ∧ ActiveHold host Image after.device)
      ⟨device, fates, []⟩ := by
  apply ensures_installImage
  · refine ⟨⟨?_, fun _ _ _ _ _ => rfl⟩, hold⟩
    intro write member
    cases member
  · intro manifest partition read checked found
    obtain ⟨spares, completes⟩ := safe manifest partition read checked found
    rw [other] at found
    have different (active : Partition) (named : Named device (getOsFromManifest manifest) active) :
        active ≠ partition := by
      have chosen := (spares_iff named).mpr (spares active named)
      rw [Except.ok.inj (found.symm.trans chosen)]
      exact active.other_ne
    have unchanged {after : World}
        (touched : Touches (InstallWrite (getOsFromManifest manifest) partition tar)
          ⟨device, fates, []⟩ after) :
        Spared host device after ∧ ActiveHold host Image after.device := by
      have spared : Spared host device after := spared_of_touches touched different
      refine ⟨spared, fun os side named => ?_⟩
      have same : after.device.hnvram = device.hnvram := touched.hnvram
      have earlier : Named device os side := by
        rw [Named, ← same]
        exact named
      exact holdsImage_of_spared spared earlier (hold os side earlier)
    have entries : Ensures (installEntries host manifest (getOsFromManifest manifest) partition tar)
        (Progress host manifest (getOsFromManifest manifest) partition ⟨device, fates, []⟩ tar)
        (Touches (ImageWrite (getOsFromManifest manifest) partition tar) ⟨device, fates, []⟩)
        ⟨device, fates, []⟩ :=
      ensures_installEntries tar _
    refine Exec.ensures_bind.mpr (Exec.ensures_mono entries ?_ ?_)
    · intro collected between progress
      have images : Touches (InstallWrite (getOsFromManifest manifest) partition tar)
          ⟨device, fates, []⟩ between :=
        progress.touched.mono fun _ => Or.inl
      have confined : Confined LoaderWrite (installLoaders host opt collected) :=
        confined_installLoaders opt collected
      have loaders := Exec.ensures_mono (confined between) (fun _ _ => id) fun _ flashed =>
        unchanged (images.trans (flashed.mono fun _ => Or.inr))
      have ended {flash after : World} (flashed : Touches LoaderWrite between flash)
          (switched : Switched (getOsFromManifest manifest) partition flash after) :
          Spared host device after ∧ ActiveHold host Image after.device := by
        have touched := images.trans (flashed.mono fun _ => Or.inr)
        have spared := (unchanged touched).1.switched switched
        have whole : HoldsImage host Image after.device (getOsFromManifest manifest) partition := by
          apply holdsImage_of_completes completes progress trusted
          intro part store stored
          rw [switched.contents]
          exact flashed.contents store fun _ =>
            part_not_loader (label_partStore host partition stored)
        exact ⟨spared, activeHold_of_switched hold spared touched.hnvram switched whole⟩
      apply ensures_installRest loaders
      · intro flash after flashed switched _
        exact ended flashed switched
      · intro flash after flashed switched
        exact ⟨ended flashed switched, ended flashed switched⟩
    · intro after touched
      exact unchanged (touched.mono fun _ => Or.inl)

theorem step_keeps {event : Event} {next : Device} (hold : ActiveHold host Image device)
    (safe : SafeStep host Image device event) (step : Step host device event next) :
    SparesActive host device event ∧ ActiveHold host Image next := by
  cases step with
  | install other trusted => exact Exec.ensures_final (ensures_spared other trusted hold safe)
  | reboot target booted => exact ⟨trivial, hold⟩

/-- As long as every installation takes the right partition for the active one and has all
parts of an image, each active partition holds an image at every moment, and none that is
active when an installation starts is written to by it. -/
theorem active_partitions_kept {start finish : Device} {trace : List (Device × Event)}
    (run : Run (Step host) start trace finish) (safe : StepsMeet (SafeStep host Image) trace)
    (hold : ActiveHold host Image start) :
    Throughout (ActiveHold host Image) trace finish ∧ StepsMeet (SparesActive host) trace := by
  induction run with
  | nil => exact ⟨⟨by simp, hold⟩, by simp [StepsMeet]⟩
  | snoc _ step ih =>
      obtain ⟨earlier, last⟩ := safe.split
      obtain ⟨held, spared⟩ := ih earlier
      obtain ⟨now, after⟩ := step_keeps held.2 last step
      exact ⟨held.snoc after, spared.snoc now⟩

end Installation

section Example

/-- A device for both systems, with all partitions on the eMMC. -/
def gfhd254 : Host :=
  { gfhd100 with
    platform := "GFHD254".toList
    version := "gftv254-48".toList
    mtd := []
    mmcblk0 := ["kernel0".toList, "kernel1".toList, "rootfs0".toList, "rootfs1".toList,
      "boot_a".toList, "boot_b".toList, "system_a".toList, "system_b".toList] }

def tar254 : List Entry :=
  [⟨"MANIFEST".toList, "installer_version: 4\nplatforms: [ GFHD254 ]\n".toList ++
      "version: gftv254-49\n".toList⟩,
    ⟨"kernel.img".toList, "new".toList⟩, ⟨"rootfs.img".toList, "new".toList⟩]

def values254 : Manifest :=
  [("installer_version".toList, .text "4".toList), ("platforms".toList, .list ["GFHD254".toList]),
    ("version".toList, .text "gftv254-49".toList)]

theorem read_tar254 : readManifest tar254 = .ok values254 := by
  decide +kernel

theorem check_tar254 : checkManifest gfhd254 values254 = .ok () := by
  decide +kernel

/-- The files of the image before and of the one that is installed. -/
def exampleImage (os : Os) (files : Part → Text) : Prop :=
  ∀ part, part.os = os → files part = "old".toList ∨ files part = "new".toList

def defaults : Options :=
  ⟨[], false, false⟩

def fiberos254 : Device where
  os := .fiberos
  cmdline := "root=rootfs0".toList
  hnvram name := if name = .activatedKernelName then some "kernel0".toList else none
  contents _ := "old".toList

/-- Android is running while the second partition of FiberOS is its active one. -/
def android254 : Device where
  os := .android
  cmdline := "androidboot.gfiber_system_img=system_a".toList
  hnvram
    | .activatedKernelName => some "kernel1".toList
    | .androidActivePartition => some "a".toList
    | .bootTarget => some "android".toList
  contents _ := "old".toList

theorem activeHold_old {device : Device} (old : ∀ store, device.contents store = "old".toList) :
    ActiveHold gfhd254 exampleImage device := by
  intro os partition _
  refine ⟨fun _ => "old".toList, fun _ _ => Or.inl rfl, ?_⟩
  intro part store _ _
  rw [old store]

theorem safeStep_tar254 (fates : List Fate) :
    SafeStep gfhd254 exampleImage fiberos254 (.install defaults tar254 fates) := by
  intro manifest partition read _ found
  cases read_tar254.symm.trans read
  cases found
  constructor
  · intro active named
    refine ⟨fun _ => Or.inl ?_, fun android => by cases android⟩
    cases active with
    | zero => rfl
    | one => exact absurd named (by decide)
  · refine ⟨fun _ => "new".toList, fun _ _ => Or.inr rfl, ?_⟩
    intro part store belongs _
    cases part with
    | kernel => rfl
    | rootfs => rfl
    | boot => cases belongs
    | system => cases belongs

/-- The device once the image has been installed. -/
def updated254 : Device :=
  (installImage gfhd254 defaults tar254 ⟨fiberos254, [], []⟩).2.device

def rebooted254 : Device :=
  { updated254 with os := .fiberos, cmdline := "root=rootfs1".toList }

theorem accepted254 {device : Device} {partition : Partition} (fates : List Fate)
    (found : getPartition device "other".toList .fiberos = .ok partition) :
    installImage gfhd254 defaults tar254 ⟨device, fates, []⟩ =
      installAccepted gfhd254 values254 defaults partition tar254 ⟨device, fates, []⟩ :=
  installImage_accepted read_tar254 check_tar254 found

theorem getPartition_fiberos {device : Device} (os : device.os = .fiberos)
    (cmdline : device.cmdline = "root=rootfs0".toList) :
    getPartition device "other".toList .fiberos = .ok .one := by
  have booted : getBootedPartition device = some .zero := by
    rw [getBootedPartition, cmdline]
    rfl
  rw [getPartition, if_pos rfl, os, if_pos rfl, booted]
  rfl

theorem updated254_eq : updated254 =
    (installAccepted gfhd254 values254 defaults .one tar254 ⟨fiberos254, [], []⟩).2.device := by
  rw [updated254, accepted254 [] (getPartition_fiberos rfl rfl)]

/-- What the installation has left of the running system and the variables. -/
theorem running_updated254 :
    updated254.os = .fiberos ∧ updated254.cmdline = "root=rootfs0".toList ∧
      Named updated254 .fiberos .one ∧ updated254.hnvram .bootTarget = none := by
  rw [updated254_eq]
  decide +kernel

theorem named_updated254 : Named updated254 .fiberos .one :=
  running_updated254.2.2.1

theorem honest_none {device : Device} : Trusted gfhd254 ⟨device, [], []⟩ :=
  Or.inr fun _ member => by cases member

theorem step_update254 : Step gfhd254 fiberos254 (.install defaults tar254 []) updated254 := by
  have other : defaults.partitionName = "other".toList := rfl
  rw [updated254]
  exact .install other honest_none

theorem step_reboot254 :
    Step gfhd254 updated254 (.reboot .fiberos "root=rootfs1".toList) rebooted254 := by
  rw [rebooted254]
  apply Step.reboot
  · intro named
    rw [running_updated254.2.2.2]
    intro none
    cases none
  · intro partition named
    rw [bootName_injective (Option.some.inj (named.symm.trans named_updated254))]
    have booted : ∀ device : Device, device.cmdline = "root=rootfs1".toList →
        getBootedPartition device = some .one := by
      intro device cmdline
      rw [getBootedPartition, cmdline]
      rfl
    exact booted _ rfl

theorem named_reboot {device : Device} {cmdline : Text} (named : Named device .fiberos .one) :
    Named { device with os := .fiberos, cmdline := cmdline } .fiberos .one :=
  named

theorem named_rebooted254 : Named rebooted254 .fiberos .one := by
  rw [rebooted254]
  exact named_reboot named_updated254

/-- A device that is updated and started again holds the new image on its active partition. -/
theorem active_partitions_kept_update :
    ∃ trace finish, Run (Step gfhd254) fiberos254 trace finish ∧ trace.length = 2 ∧
      Named finish .fiberos .one ∧ HoldsImage gfhd254 exampleImage finish .fiberos .one := by
  have run := (Run.nil.snoc step_update254).snoc step_reboot254
  have start : StepsMeet (SafeStep gfhd254 exampleImage) [] := by simp [StepsMeet]
  have booted : SafeStep gfhd254 exampleImage updated254 (.reboot .fiberos "root=rootfs1".toList) :=
    trivial
  have safe := (start.snoc (safeStep_tar254 [])).snoc booted
  have kept := (active_partitions_kept run safe (activeHold_old fun _ => rfl)).1.2
  have named := named_rebooted254
  generalize rebooted254 = finish at run kept named
  exact ⟨_, finish, run, by simp, named, kept .fiberos .one named⟩

theorem torn_not_hold {device : Device} (named : Named device .fiberos .one)
    (torn : device.contents (.gpt "kernel1".toList) = "n".toList) :
    ¬ActiveHold gfhd254 exampleImage device := by
  intro hold
  obtain ⟨files, image, stored⟩ := hold .fiberos .one named
  have start := stored .kernel (.gpt "kernel1".toList) rfl (by rfl)
  rw [torn] at start
  cases image .kernel rfl with
  | inl old =>
      rw [old] at start
      exact absurd start (by decide)
  | inr new =>
      rw [new] at start
      exact absurd start (by decide)

theorem honest_cut {device : Device} : Trusted gfhd254 ⟨device, [.cut "n".toList], []⟩ := by
  right
  intro fate member left
  rw [List.mem_singleton.mp member]
  exact Fate.noConfusion

/-- An installation that a power failure cuts when it has just begun to write. -/
theorem step_cut254 {device : Device} :
    Step gfhd254 device (.install defaults tar254 [.cut "n".toList])
      (installImage gfhd254 defaults tar254 ⟨device, [.cut "n".toList], []⟩).2.device :=
  .install rfl honest_cut

/-- The power failure leaves the beginning of the kernel, and the variables as they are. -/
theorem installAccepted_cut (device : Device) :
    installAccepted gfhd254 values254 defaults .one tar254 ⟨device, [.cut "n".toList], []⟩ =
      (.cut, (World.setContents ⟨device, [], [⟨.gpt "kernel1".toList, "new".toList⟩]⟩
        (.gpt "kernel1".toList) "n".toList)) := by
  rfl

theorem not_hold_cut {device : Device} (named : Named device .fiberos .one)
    (found : getPartition device "other".toList .fiberos = .ok .one) :
    ¬ActiveHold gfhd254 exampleImage
      (installImage gfhd254 defaults tar254 ⟨device, [.cut "n".toList], []⟩).2.device := by
  rw [accepted254 _ found, installAccepted_cut]
  apply torn_not_hold
  · exact named
  · simp only [World.setContents, ↓reduceIte]

/-- An installation of FiberOS on Android, and one that is repeated without a reboot, leave
the active partition with the beginning of a file when they are cut. -/
theorem active_partition_overwritten :
    (ActiveHold gfhd254 exampleImage android254 ∧ ∃ trace finish,
      Run (Step gfhd254) android254 trace finish ∧ ¬ActiveHold gfhd254 exampleImage finish) ∧
    (ActiveHold gfhd254 exampleImage fiberos254 ∧ ∃ trace finish,
      Run (Step gfhd254) fiberos254 trace finish ∧ ¬ActiveHold gfhd254 exampleImage finish) := by
  constructor
  · refine ⟨activeHold_old fun _ => rfl, _, _, Run.nil.snoc step_cut254, ?_⟩
    exact not_hold_cut rfl (by rfl)
  · refine ⟨activeHold_old fun _ => rfl, _, _, (Run.nil.snoc step_update254).snoc step_cut254, ?_⟩
    exact not_hold_cut named_updated254
      (getPartition_fiberos running_updated254.1 running_updated254.2.1)

end Example

end Gfiber.Ginstall
