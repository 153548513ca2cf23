import Gfiber.Ginstall.InstallProperties

/-! What the loop over the entries of a tar has installed, and what it has kept for the
end. -/

set_option autoImplicit false

namespace Gfiber.Ginstall

open Lib
open Exec (Ensures)

section Entries

/-- The part of an image that an entry is. -/
def entryPart (name : Text) : Option Part :=
  if name ∈ manifestNames then none
  else if name ∈ kernelNames then some .kernel
  else if "rootfs.".toList.isPrefixOf name then some .rootfs
  else if name = "boot.img".toList then some .boot
  else if name = "system.img.raw".toList then some .system
  else none

variable (host : Host) (manifest : Manifest) (targetOs : Os) (partition : Partition)

/-- What is kept of an entry that is no part of an image. -/
def collect (collected : Collected) (entry : Entry) : Collected :=
  let file := some (entry.file manifest)
  if entry.name ∈ manifestNames then collected
  else if (entryPart entry.name).isSome then collected
  else if entry.name ∈ loaderBinList host manifest then { collected with loader := file }
  else if entry.name ∈ loaderSigList host manifest then { collected with loadersig := file }
  else if entry.name = "uloader.img".toList then { collected with uloader := file }
  else if entry.name = "uloader.sig".toList then { collected with uloadersig := file }
  else if entry.name = "android_bsu.elf".toList then { collected with androidBsu := file }
  else collected

theorem collect_part {part : Part} {entry : Entry} (found : entryPart entry.name = some part)
    (collected : Collected) : collect host manifest collected entry = collected := by
  rw [collect, found]
  exact ite_self _

/-- An entry is installed as its part, or kept. -/
theorem installEntry_eq (collected : Collected) (entry : Entry) :
    installEntry host manifest targetOs partition collected entry =
      match entryPart entry.name with
      | some part => do
          onOs targetOs part.os (installPart host part (entry.file manifest) partition)
          return collected
      | none => return collect host manifest collected entry := by
  rw [installEntry, collect, entryPart]
  by_cases first : entry.name ∈ manifestNames
  · simp only [if_pos first]
  · simp only [if_neg first]
    by_cases kernel : entry.name ∈ kernelNames
    · simp only [if_pos kernel]
      rfl
    · simp only [if_neg kernel]
      by_cases rootfs : "rootfs.".toList.isPrefixOf entry.name = true
      · simp only [if_pos rootfs]
        rfl
      · simp only [if_neg rootfs]
        by_cases boot : entry.name = "boot.img".toList
        · simp only [if_pos boot]
          rfl
        · simp only [if_neg boot]
          by_cases system : entry.name = "system.img.raw".toList
          · simp only [if_pos system]
            rfl
          · simp only [if_neg system]
            simp only [Option.isSome_none, Bool.false_eq_true, if_false]
            split_ifs <;> rfl

/-- A write of one of the entries to the partition. -/
def ImageWrite (entries : List Entry) (write : Write) : Prop :=
  ∃ entry ∈ entries, ∃ part, entryPart entry.name = some part ∧ part.os = targetOs ∧
    LabelledWrite (part.name partition) entry.data write

variable {targetOs partition} in
theorem ImageWrite.mono {entries more : List Entry} {write : Write}
    (image : ImageWrite targetOs partition entries write) (fewer : entries ⊆ more) :
    ImageWrite targetOs partition more write := by
  obtain ⟨entry, member, found⟩ := image
  exact ⟨entry, fewer member, found⟩

theorem label_flashStore {name : Text} {store : Store} (found : flashStore host name = some store) :
    store.label = some name := by
  rw [flashStore] at found
  split at found
  · cases found
    rfl
  · cases found

theorem label_flashOrEmmc {name : Text} {store : Store}
    (found : (flashStore host name).or (emmcStore host name) = some store) :
    store.label = some name := by
  rcases Option.or_eq_some_iff.mp found with flash | ⟨_, emmc⟩
  · exact label_flashStore host flash
  · rw [emmcStore] at emmc
    split at emmc
    · cases emmc
      rfl
    · cases emmc

theorem label_emmcStore {name : Text} {store : Store} (found : emmcStore host name = some store) :
    store.label = some name := by
  rw [emmcStore] at found
  split at found
  · cases found
    rfl
  · cases found

/-- The store of a part has its name. -/
theorem label_partStore {part : Part} {store : Store}
    (found : partStore host part partition = some store) :
    store.label = some (part.name partition) := by
  cases part with
  | kernel => exact label_flashOrEmmc host found
  | rootfs =>
      rw [partStore, rootfsStore] at found
      split at found
      · cases disk : host.harddisk with
        | some names =>
            rw [disk] at found
            dsimp only at found
            split at found
            · cases found
              rfl
            · exact label_flashStore host found
        | none =>
            rw [disk] at found
            exact label_flashStore host found
      · exact label_flashOrEmmc host found
  | boot => exact label_emmcStore host found
  | system => exact label_emmcStore host found

/-- The part of an entry has been installed. -/
def PartInstalled (entry : Entry) (before after : World) : Prop :=
  ∀ part, entryPart entry.name = some part → part.os = targetOs →
    ∃ store, partStore host part partition = some store ∧
      Installed host (entry.file manifest) store before after

theorem ensures_installEntry (collected : Collected) (entry : Entry) (before : World) :
    Ensures (installEntry host manifest targetOs partition collected entry)
      (fun value after => value = collect host manifest collected entry ∧
        Touches (ImageWrite targetOs partition [entry]) before after ∧
        PartInstalled host manifest targetOs partition entry before after)
      (Touches (ImageWrite targetOs partition [entry]) before) before := by
  rw [installEntry_eq]
  cases found : entryPart entry.name with
  | none =>
      refine ⟨rfl, .refl before, ?_⟩
      intro part listed
      rw [found] at listed
      cases listed
  | some part =>
      have kept := collect_part host manifest found collected
      refine Exec.ensures_bind.mpr ?_
      rw [onOs]
      split
      case isTrue other =>
        refine ⟨kept.symm, .refl before, ?_⟩
        intro same listed os
        cases found.symm.trans listed
        exact absurd os.symm other
      case isFalse same =>
        have os : part.os = targetOs := (not_not.mp same).symm
        have confined : Confined (LabelledWrite (part.name partition) (entry.file manifest).rest)
            (installPart host part (entry.file manifest) partition) :=
          confined_installPart host part partition
        have installs := installsIn_installPart host part partition (entry.file manifest) before
        have allowed : ∀ write, LabelledWrite (part.name partition) (entry.file manifest).rest write →
            ImageWrite targetOs partition [entry] write := fun write labelled =>
          ⟨entry, List.mem_singleton_self entry, part, found, os, labelled⟩
        refine Exec.ensures_mono (Exec.ensures_and (confined_mono confined allowed before) installs)
          ?_ fun _ => And.left
        intro _ after ⟨touched, installed⟩
        refine ⟨kept.symm, touched, ?_⟩
        intro again listed _
        cases found.symm.trans listed
        exact installed

end Entries

section Loop

variable (host : Host) (manifest : Manifest) (targetOs : Os) (partition : Partition)

/-- An entry has its hash, its store held it after its round, and still does if nothing
else has been installed there. -/
structure EntryInstalled (start now : World) (seen : List Entry) (entry : Entry)
    (rest : List Entry) (part : Part) (store : Store) : Prop where
  found : partStore host part partition = some store
  hash : (entry.file manifest).hashDiffers (host.sha1 entry.data) = false
  written : ∃ collected reached,
    installEntries host manifest targetOs partition (seen ++ [entry]) start =
      (.returned collected, reached) ∧
    (Trusted host start → entry.data <+: reached.device.contents store)
  holds : (∀ later ∈ rest, entryPart later.name ≠ some part) → Trusted host start →
    entry.data <+: now.device.contents store

/-- Where the loop is after some of the entries. -/
structure Progress (start : World) (seen : List Entry) (collected : Collected) (now : World) :
    Prop where
  ran : installEntries host manifest targetOs partition seen start = (.returned collected, now)
  kept : collected = seen.foldl (collect host manifest) (collectedAtFirst host)
  touched : Touches (ImageWrite targetOs partition seen) start now
  installed : ∀ before entry rest part, seen = before ++ entry :: rest →
    entryPart entry.name = some part → part.os = targetOs →
    ∃ store, EntryInstalled host manifest targetOs partition start now before entry rest part store

variable {host manifest targetOs partition}

theorem Progress.step {start now after : World} {seen : List Entry} {collected next : Collected}
    {entry : Entry} (progress : Progress host manifest targetOs partition start seen collected now)
    (ran : installEntry host manifest targetOs partition collected entry now =
      (.returned next, after))
    (kept : next = collect host manifest collected entry)
    (touched : Touches (ImageWrite targetOs partition [entry]) now after)
    (installed : PartInstalled host manifest targetOs partition entry now after) :
    Progress host manifest targetOs partition start (seen ++ [entry]) next after := by
  have whole : installEntries host manifest targetOs partition (seen ++ [entry]) start =
      (.returned next, after) := by
    rw [installEntries, Exec.loop_append [entry] progress.ran, Exec.loop, Exec.andThen, ran]
    rfl
  refine ⟨whole, ?_, ?_, ?_⟩
  · rw [List.foldl_append, ← progress.kept, kept]
    rfl
  · have earlier : Touches (ImageWrite targetOs partition (seen ++ [entry])) start now :=
      progress.touched.mono fun _ image => image.mono (List.subset_append_left _ _)
    exact earlier.trans (touched.mono fun _ image => image.mono (List.subset_append_right _ _))
  · intro before item rest part split found os
    rcases List.eq_nil_or_concat' rest with rfl | ⟨between, last, rfl⟩
    · obtain ⟨rfl, same⟩ := List.append_inj' split rfl
      cases List.cons.inj same |>.1
      obtain ⟨store, stored, done⟩ := installed part found os
      have holds (trusted : Trusted host start) : entry.data <+: after.device.contents store :=
        done.holds (trusted.later progress.touched)
      exact ⟨store, stored, done.hash, ⟨next, after, whole, holds⟩, fun _ => holds⟩
    · have shape : seen ++ [entry] = (before ++ item :: between) ++ [last] := by
        simpa using split
      obtain ⟨rfl, same⟩ := List.append_inj' shape rfl
      cases List.cons.inj same |>.1
      obtain ⟨store, done⟩ := progress.installed before item between part rfl found os
      refine ⟨store, done.found, done.hash, done.written, ?_⟩
      intro nothing trusted
      have untouched : ∀ data, ¬ImageWrite targetOs partition [entry] ⟨store, data⟩ := by
        rintro data ⟨other, listed, part', found', _, label, _⟩
        cases List.mem_singleton.mp listed
        have names := (label_partStore host partition done.found).symm.trans label
        obtain ⟨rfl, _⟩ := Part.name_injective (Option.some.inj names)
        exact nothing entry (by simp) found'
      rw [touched.contents store untouched]
      exact done.holds (fun later member => nothing later (by simp [member])) trusted

/-- The loop over all entries. -/
theorem ensures_installEntries (tar : List Entry) (start : World) :
    Ensures (installEntries host manifest targetOs partition tar)
      (Progress host manifest targetOs partition start tar)
      (Touches (ImageWrite targetOs partition tar) start) start := by
  have first : Progress host manifest targetOs partition start [] (collectedAtFirst host) start := by
    refine ⟨rfl, rfl, .refl start, ?_⟩
    intro before entry rest part split
    cases before <;> cases split
  refine Exec.ensures_loop tar [] (collectedAtFirst host) first ?_
  intro seen entry rest collected now split progress
  have listed : seen ++ [entry] ⊆ tar := by
    rw [List.nil_append] at split
    rw [split]
    simp
  have step := ensures_installEntry host manifest targetOs partition collected entry now
  refine Exec.ensures_mono (Exec.ensures_and (Exec.ensures_run _ now) step) ?_ ?_
  · intro next after ⟨ran, kept, touched, installed⟩
    exact progress.step ran kept touched installed
  · intro after ⟨_, touched⟩
    have whole : Touches (ImageWrite targetOs partition (seen ++ [entry])) start after :=
      (progress.touched.mono fun _ image => image.mono (List.subset_append_left _ _)).trans
        (touched.mono fun _ image => image.mono (List.subset_append_right _ _))
    exact whole.mono fun _ image => image.mono listed

end Loop

end Gfiber.Ginstall
