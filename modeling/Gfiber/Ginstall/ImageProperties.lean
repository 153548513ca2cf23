import Gfiber.Ginstall.LoaderProperties

/-! What an image has installed when it is activated. -/

set_option autoImplicit false

namespace Gfiber.Ginstall

open Lib
open Exec (Ensures)

section Whole

variable {host : Host} {opt : Options} {tar : List Entry} {start : World}

/-- An installation that returns has been through all entries, and what it has installed of
them stays as it is. -/
structure Activated (host : Host) (manifest : Manifest) (partition : Partition) (tar : List Entry)
    (start after : World) : Prop where
  named : after.device.hnvram (getOsFromManifest manifest).activeVariable =
    some (bootName (getOsFromManifest manifest) partition)
  installed : ∃ collected between,
    Progress host manifest (getOsFromManifest manifest) partition start tar collected between ∧
    ∀ part side store, partStore host part side = some store →
      after.device.contents store = between.device.contents store

theorem ensures_activated :
    Ensures (installImage host opt tar)
      (fun code after => code = 0 → ∃ manifest partition, readManifest tar = .ok manifest ∧
        getPartition start.device opt.partitionName (getOsFromManifest manifest) = .ok partition ∧
        Activated host manifest partition tar start after)
      (fun _ => True) start := by
  refine ensures_installImage trivial ?_
  intro manifest partition read _ found
  have entries : Ensures (installEntries host manifest (getOsFromManifest manifest) partition tar)
      (Progress host manifest (getOsFromManifest manifest) partition start tar)
      (Touches (ImageWrite (getOsFromManifest manifest) partition tar) start) start :=
    ensures_installEntries tar start
  refine Exec.ensures_bind.mpr (Exec.ensures_mono entries ?_ fun _ _ => trivial)
  intro collected between progress
  have confined : Confined LoaderWrite (installLoaders host opt collected) :=
    confined_installLoaders opt collected
  have loaders := Exec.ensures_mono (confined between) (fun _ _ => id) fun _ _ => trivial
  refine ensures_installRest loaders ?_ fun _ _ _ _ => ⟨fun failed => absurd failed (by decide), trivial⟩
  intro flash after touched switched named _
  refine ⟨manifest, partition, read, found, named, collected, between, progress, ?_⟩
  intro part side store stored
  rw [switched.contents]
  exact touched.contents store fun _ => part_not_loader (label_partStore host side stored)

/-- When an installation returns 0, each entry that belongs to the OS of the image and has a
hash in the manifest has that hash and has been written to the partition that is now named,
where it still is unless a later entry has been written over it. -/
theorem entries_installed {after : World} (injective : Function.Injective host.sha1)
    (done : installImage host opt tar start = (.returned 0, after)) :
    ∃ manifest partition, readManifest tar = .ok manifest ∧
      getPartition start.device opt.partitionName (getOsFromManifest manifest) = .ok partition ∧
      after.device.hnvram (getOsFromManifest manifest).activeVariable =
        some (bootName (getOsFromManifest manifest) partition) ∧
      ∀ seen entry rest part hash, tar = seen ++ entry :: rest →
        entryPart entry.name = some part → part.os = getOsFromManifest manifest →
        manifest.get (entry.name ++ "-sha1".toList) = some hash → hash.truthy →
        hash = .text (host.sha1 entry.data) ∧
          ∃ store, partStore host part partition = some store ∧
            (∃ collected reached, installEntries host manifest (getOsFromManifest manifest)
                partition (seen ++ [entry]) start = (.returned collected, reached) ∧
              entry.data <+: reached.device.contents store) ∧
            ((∀ later ∈ rest, entryPart later.name ≠ some part) →
              entry.data <+: after.device.contents store) := by
  have trusted : Trusted host start := Or.inl injective
  have ran : Ensures (installImage host opt tar) _ _ start := ensures_activated
  rw [Ensures, done] at ran
  obtain ⟨manifest, partition, read, found, activated⟩ := ran rfl
  obtain ⟨collected, between, progress, kept⟩ := activated.installed
  refine ⟨manifest, partition, read, found, activated.named, ?_⟩
  intro seen entry rest part hash split image os hashed truthy
  obtain ⟨store, entryInstalled⟩ := progress.installed seen entry rest part split image os
  obtain ⟨collected, reached, written, holds⟩ := entryInstalled.written
  refine ⟨?_, store, entryInstalled.found, ⟨collected, reached, written, holds trusted⟩, ?_⟩
  · have same := entryInstalled.hash
    rw [Entry.file, FileWithSecureHash.hashDiffers, hashed] at same
    simpa [truthy] using same
  · intro last
    rw [kept part partition store entryInstalled.found]
    exact entryInstalled.holds last trusted

/-- An image of FiberOS with the hashes of its files. -/
def fiberosManifest : Entry :=
  exampleManifest ("kernel.img-sha1: c65a0fb7e74ffd2c9fc3a0f9aacb0f6a24b0a68b\n".toList ++
    "rootfs.squashfs-sha1: e7bc8f74af889f731bbc1a412011ca1e25964591\n".toList)

def fiberosTar : List Entry :=
  [fiberosManifest, ⟨"kernel.img".toList, "kernel".toList⟩,
    ⟨"rootfs.squashfs".toList, "rootfs".toList⟩]

def fiberosValues : Manifest :=
  [("installer_version".toList, .text "4".toList),
    ("platforms".toList, .list ["GFHD100".toList, "GFMS100".toList]),
    ("version".toList, .text "gfibertv-41".toList),
    ("kernel.img-sha1".toList, .text "c65a0fb7e74ffd2c9fc3a0f9aacb0f6a24b0a68b".toList),
    ("rootfs.squashfs-sha1".toList, .text "e7bc8f74af889f731bbc1a412011ca1e25964591".toList)]

theorem parse_fiberosManifest : parseManifest fiberosManifest.data = fiberosValues := by
  decide +kernel

/-- The installation of an image with that manifest, from the part that depends on the rest. -/
theorem installImage_fiberos (entries : List Entry) :
    installImage gfhd100 ⟨[], false, false⟩ (fiberosManifest :: entries) ⟨runningFiberos, [], []⟩ =
      installAccepted gfhd100 fiberosValues ⟨[], false, false⟩ .one (fiberosManifest :: entries)
        ⟨runningFiberos, [], []⟩ := by
  have read : readManifest (fiberosManifest :: entries) = .ok fiberosValues := by
    rw [← parse_fiberosManifest]
    rfl
  apply installImage_accepted read
  · rfl
  · rfl

theorem entries_installed_fiberos :
    ∃ after manifest partition,
      installImage gfhd100 ⟨[], false, false⟩ fiberosTar ⟨runningFiberos, [], []⟩ =
        (.returned 0, after) ∧
      readManifest fiberosTar = .ok manifest ∧
      getPartition runningFiberos "other".toList (getOsFromManifest manifest) = .ok partition ∧
      after.device.hnvram (getOsFromManifest manifest).activeVariable =
        some (bootName (getOsFromManifest manifest) partition) ∧
      ∀ seen entry rest part hash, fiberosTar = seen ++ entry :: rest →
        entryPart entry.name = some part → part.os = getOsFromManifest manifest →
        manifest.get (entry.name ++ "-sha1".toList) = some hash → hash.truthy →
        hash = .text (exampleSha1 entry.data) ∧
          ∃ store, partStore gfhd100 part partition = some store ∧
            (∃ collected reached, installEntries gfhd100 manifest (getOsFromManifest manifest)
                partition (seen ++ [entry]) ⟨runningFiberos, [], []⟩ =
                (.returned collected, reached) ∧
              entry.data <+: reached.device.contents store) ∧
            ((∀ later ∈ rest, entryPart later.name ≠ some part) →
              entry.data <+: after.device.contents store) := by
  have returned : (installImage gfhd100 ⟨[], false, false⟩ fiberosTar
      ⟨runningFiberos, [], []⟩).1 = .returned 0 := by
    rw [fiberosTar, installImage_fiberos]
    decide +kernel
  have done := Exec.run_of_ending returned
  obtain ⟨manifest, partition, read, found, named, entries⟩ :=
    entries_installed exampleSha1_injective done
  exact ⟨_, manifest, partition, done, read, found, named, entries⟩

/-- An image without one of its files is activated, and one whose hash is left empty is not
compared with it. -/
theorem missing_entry_activated :
    (parseManifest fiberosManifest.data).get "rootfs.squashfs-sha1".toList =
        some (.text "e7bc8f74af889f731bbc1a412011ca1e25964591".toList) ∧
      (installImage gfhd100 ⟨[], false, false⟩
        [fiberosManifest, ⟨"kernel.img".toList, "kernel".toList⟩]
        ⟨runningFiberos, [], []⟩).1 = .returned 0 ∧
      (parseManifest (exampleManifest "kernel.img-sha1:\n".toList).data).get
        "kernel.img-sha1".toList = some (.text []) ∧
      gfhd100.sha1 "kernel".toList ≠ [] ∧
      (installImage gfhd100 ⟨[], false, false⟩
        [exampleManifest "kernel.img-sha1:\n".toList, ⟨"kernel.img".toList, "kernel".toList⟩]
        ⟨runningFiberos, [], []⟩).1 = .returned 0 := by
  refine ⟨?_, ?_, ?_, ?_, ?_⟩
  · rw [parse_fiberosManifest]
    decide
  · rw [installImage_fiberos]
    decide +kernel
  · decide +kernel
  · decide
  · decide +kernel

end Whole

end Gfiber.Ginstall
