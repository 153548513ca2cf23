import Gfiber.Ginstall.LoaderProperties

/-! No loader is written that has not been verified. -/

set_option autoImplicit false

namespace Gfiber.Ginstall

open Lib
open Exec (Ensures)

section Signed

variable (host : Host) (device : Device) (tar : List Entry) (manifest : Manifest)

def uloaderNames : List Text :=
  ["uloader.img".toList]

def uloaderSigNames : List Text :=
  ["uloader.sig".toList]

/-- The bytes of an entry for which an entry with a signature is accepted. -/
def Signed (key : Text) (names sigNames : List Text) (data : Text) : Prop :=
  ∃ entry ∈ tar, ∃ signature ∈ tar, entry.name ∈ names ∧ signature.name ∈ sigNames ∧
    entry.data = data ∧ host.verify data signature.data key

/-- What is written to a loader is signed with the key of the device, or on a device that is
not secure the rest of what is. -/
structure VerifiedWrite (write : Write) : Prop where
  loader : LoaderStore write.store → ∃ key, host.signingKey = some key ∧
    Signed host tar key (loaderBinList host manifest) (loaderSigList host manifest) write.data
  uloader : write.store = uloaderStore → ∃ key data, host.signingKey = some key ∧
    Signed host tar key uloaderNames uloaderSigNames data ∧
    (write.data = data ∨ uloaderSigned (device.contents uloaderStore) = .ok false ∧
      write.data = stripUloader host data)

/-- There is a file to be verified, and no signature that is accepted for it. -/
def Rejected (key : Text) (names sigNames : List Text) : Prop :=
  ∃ entry, lastEntry names tar = some entry ∧
    ∀ signature, lastEntry sigNames tar = some signature →
      host.verify entry.data signature.data key = false

variable {host device tar manifest}

/-- The files that the loop has collected, with their signatures. -/
structure CollectedFrom (tar : List Entry) (manifest : Manifest) (names sigNames : List Text)
    (file signature : Option FileWithSecureHash) : Prop where
  file : file = (lastEntry names tar).map (Entry.file manifest)
  signature : signature = ((lastEntry sigNames tar).map (Entry.file manifest)).or (some badsig)

variable {names sigNames : List Text} {file signature : Option FileWithSecureHash} {key : Text}

theorem CollectedFrom.signed
    (collected : CollectedFrom tar manifest names sigNames file signature) :
    ∃ sig, signature = some sig := by
  rw [collected.signature]
  cases lastEntry sigNames tar with
  | none => exact ⟨_, rfl⟩
  | some entry => exact ⟨_, rfl⟩

theorem signed_of_accepted (emptyRejected : ∀ data key, host.verify data [] key = false)
    (collected : CollectedFrom tar manifest names sigNames file signature)
    (accepted : Accepted host key file signature) {opened : FileWithSecureHash}
    (found : file = some opened) : Signed host tar key names sigNames opened.data := by
  obtain ⟨sig, signed, verified⟩ := accepted opened found
  rw [collected.file] at found
  obtain ⟨entry, last, rfl⟩ := Option.map_eq_some_iff.mp found
  obtain ⟨member, named⟩ := lastEntry_mem last
  rw [collected.signature] at signed
  cases sigEntry : lastEntry sigNames tar with
  | none =>
      rw [sigEntry] at signed
      cases signed
      exact absurd (verified.symm.trans (emptyRejected _ key)) (by decide)
  | some signature =>
      rw [sigEntry] at signed
      cases signed
      obtain ⟨sigMember, sigNamed⟩ := lastEntry_mem sigEntry
      exact ⟨entry, member, signature, sigMember, named, sigNamed, rfl, verified⟩

theorem not_accepted_of_rejected (emptyRejected : ∀ data key, host.verify data [] key = false)
    (collected : CollectedFrom tar manifest names sigNames file signature)
    (rejected : Rejected host tar key names sigNames) : ¬Accepted host key file signature := by
  intro accepted
  obtain ⟨entry, last, refused⟩ := rejected
  have found : file = some (entry.file manifest) := by
    rw [collected.file, last, Option.map_some]
  obtain ⟨sig, signed, verified⟩ := accepted _ found
  rw [collected.signature] at signed
  cases sigEntry : lastEntry sigNames tar with
  | none =>
      rw [sigEntry] at signed
      cases signed
      exact absurd (verified.symm.trans (emptyRejected _ key)) (by decide)
  | some signature =>
      rw [sigEntry] at signed
      cases signed
      exact absurd (verified.symm.trans (refused signature sigEntry)) (by decide)

end Signed

section Installation

variable {host : Host} {device : Device} {tar : List Entry} {manifest : Manifest}
variable {targetOs : Os} {partition : Partition}

theorem collectedFrom_loader (platform : host.is "GFLT" = false) :
    CollectedFrom tar manifest (loaderBinList host manifest) (loaderSigList host manifest)
      (tar.foldl (collect host manifest) (collectedAtFirst host)).loader
      (tar.foldl (collect host manifest) (collectedAtFirst host)).loadersig where
  file := by
    rw [foldl_collect host manifest (collect_loader host manifest)]
    exact Option.or_none
  signature := by
    rw [foldl_collect host manifest (collect_loadersig host manifest), collectedAtFirst, platform]
    rfl

theorem collectedFrom_uloader :
    CollectedFrom tar manifest uloaderNames uloaderSigNames
      (tar.foldl (collect host manifest) (collectedAtFirst host)).uloader
      (tar.foldl (collect host manifest) (collectedAtFirst host)).uloadersig where
  file := by
    rw [foldl_collect host manifest (collect_uloader host manifest)]
    exact Option.or_none
  signature := by
    rw [foldl_collect host manifest (collect_uloadersig host manifest)]
    rfl

theorem verified_of_not_loader {write : Write} (other : ¬LoaderWrite write) :
    VerifiedWrite host device tar manifest write :=
  ⟨fun loader => absurd (Or.inl loader) other, fun uloader => absurd (Or.inr (Or.inl uloader)) other⟩

/-- What is allowed to be written to the loaders when their signatures have been accepted. -/
theorem verified_of_accepted (emptyRejected : ∀ data key, host.verify data [] key = false)
    {key : Text} (signing : host.signingKey = some key)
    {loader loadersig uloader uloadersig androidBsu : Option FileWithSecureHash} {before : World}
    (kept : before.device.contents uloaderStore = device.contents uloaderStore)
    (loaders : CollectedFrom tar manifest (loaderBinList host manifest)
      (loaderSigList host manifest) loader loadersig)
    (uloaders : CollectedFrom tar manifest uloaderNames uloaderSigNames uloader uloadersig)
    (loaderAccepted : Accepted host key loader loadersig)
    (uloaderAccepted : Accepted host key uloader uloadersig) :
    Ensures (flashLoaders host false (loader.map fun opened => opened.seek 0)
      (uloader.map fun opened => opened.seek 0) androidBsu)
      (fun _ => Touches (VerifiedWrite host device tar manifest) before)
      (Touches (VerifiedWrite host device tar manifest) before) before := by
  refine ensures_flashLoaders ?_ ?_ ?_
  · intro opened found store loaderStore
    have signed := signed_of_accepted emptyRejected loaders loaderAccepted found
    refine ⟨fun _ => ⟨key, signing, signed⟩, fun uloader => ?_⟩
    dsimp only at uloader
    rw [uloader] at loaderStore
    exact absurd loaderStore uloaderStore_not_loader
  · intro opened found
    have signed := signed_of_accepted emptyRejected uloaders uloaderAccepted found
    have write {data : Text} (allowed : data = opened.data ∨
        uloaderSigned (device.contents uloaderStore) = .ok false ∧
          data = stripUloader host opened.data) :
        VerifiedWrite host device tar manifest ⟨uloaderStore, data⟩ :=
      ⟨fun loader => absurd loader uloaderStore_not_loader,
        fun _ => ⟨key, opened.data, signing, signed, allowed⟩⟩
    refine ⟨write (Or.inl rfl), fun insecure => write (Or.inr ⟨?_, rfl⟩)⟩
    rw [← kept]
    exact insecure
  · intro data
    refine ⟨?_, fun uloader => ?_⟩
    · rintro (⟨name, _, flash⟩ | ⟨second, emmc⟩)
      · cases flash
      · cases emmc
    · cases uloader

theorem touches_image_loaders {before after : World}
    (touched : Touches (ImageWrite targetOs partition tar) before after) {store : Store}
    (loader : LoaderStore store ∨ store = uloaderStore) :
    after.device.contents store = before.device.contents store :=
  touched.contents store fun _ image => imageWrite_not_loader image
    (loader.elim Or.inl fun uloader => Or.inr (Or.inl uloader))

/-- What the loop hands on to the end of the installation. -/
structure Collecting (start : World) (tar : List Entry) (manifest : Manifest) (partition : Partition)
    (collected : Collected) (between : World) : Prop where
  images : Touches (ImageWrite (getOsFromManifest manifest) partition tar) start between
  loaders : CollectedFrom tar manifest (loaderBinList host manifest) (loaderSigList host manifest)
    collected.loader collected.loadersig
  uloaders : CollectedFrom tar manifest uloaderNames uloaderSigNames collected.uloader
    collected.uloadersig

/-- An installation that may write no more than its images before the loaders are looked at. -/
theorem ensures_collecting {opt : Options} {start : World} {returns : Nat → World → Prop}
    {breaks : World → Prop} (platform : host.is "GFLT" = false)
    (images : ∀ manifest partition after, readManifest tar = .ok manifest →
      Touches (ImageWrite (getOsFromManifest manifest) partition tar) start after → breaks after)
    (refused : breaks start)
    (rest : ∀ manifest partition collected between, readManifest tar = .ok manifest →
      @Collecting host start tar manifest partition collected between →
      Ensures (installRest host opt (getOsFromManifest manifest) partition collected) returns
        breaks between) :
    Ensures (installImage host opt tar) returns breaks start := by
  refine ensures_installImage refused ?_
  intro manifest partition read _ _
  have entries : Ensures (installEntries host manifest (getOsFromManifest manifest) partition tar)
      (Progress host manifest (getOsFromManifest manifest) partition start tar)
      (Touches (ImageWrite (getOsFromManifest manifest) partition tar) start) start :=
    ensures_installEntries tar start
  refine Exec.ensures_bind.mpr (Exec.ensures_mono entries ?_ fun after =>
    images manifest partition after read)
  intro collected between progress
  exact rest manifest partition collected between read
    ⟨progress.touched, progress.kept ▸ collectedFrom_loader platform,
      progress.kept ▸ collectedFrom_uloader⟩

/-- Whatever has been written when an installation ends is verified. -/
theorem ensures_verified (platform : host.is "GFLT" = false) {opt : Options}
    (checked : opt.skiploadersig = false)
    (emptyRejected : ∀ data key, host.verify data [] key = false) (fates : List Fate) :
    Ensures (installImage host opt tar)
      (fun _ after => ∀ write ∈ after.writes, ∃ manifest, readManifest tar = .ok manifest ∧
        VerifiedWrite host device tar manifest write)
      (fun after => ∀ write ∈ after.writes, ∃ manifest, readManifest tar = .ok manifest ∧
        VerifiedWrite host device tar manifest write) ⟨device, fates, []⟩ := by
  let start : World := ⟨device, fates, []⟩
  have verified {manifest : Manifest} {after : World} (read : readManifest tar = .ok manifest)
      (touched : Touches (VerifiedWrite host device tar manifest) start after) :
      ∀ write ∈ after.writes, ∃ manifest, readManifest tar = .ok manifest ∧
        VerifiedWrite host device tar manifest write := by
    intro write member
    rcases touched.writes write member with earlier | now
    · cases earlier
    · exact ⟨manifest, read, now⟩
  have images {manifest : Manifest} {partition : Partition} {after : World}
      (touched : Touches (ImageWrite (getOsFromManifest manifest) partition tar) start after) :
      Touches (VerifiedWrite host device tar manifest) start after :=
    touched.mono fun _ image => verified_of_not_loader (imageWrite_not_loader image)
  refine ensures_collecting platform
    (fun _ _ _ read touched => verified read (images touched))
    (fun _ member => absurd member List.not_mem_nil) ?_
  intro manifest partition collected between read collecting
  obtain ⟨loadersig, loaderSig⟩ := collecting.loaders.signed
  obtain ⟨uloadersig, uloaderSig⟩ := collecting.uloaders.signed
  have before := images collecting.images
  have flashed : Ensures (installLoaders host opt collected)
      (fun _ => Touches (VerifiedWrite host device tar manifest) between)
      (Touches (VerifiedWrite host device tar manifest) between) between := by
    refine ensures_installLoaders checked loaderSig uloaderSig (.refl between)
      (fun _ => .refl between) ?_
    intro key signing _ loaderAccepted uloaderAccepted
    exact verified_of_accepted emptyRejected signing
      (touches_image_loaders collecting.images (Or.inr rfl)) collecting.loaders
      collecting.uloaders loaderAccepted uloaderAccepted
  have written := Exec.ensures_mono flashed (fun _ _ => before.trans) fun _ touched =>
    verified read (before.trans touched)
  have switched {flash after : World}
      (touched : Touches (VerifiedWrite host device tar manifest) start flash)
      (switched : Switched (getOsFromManifest manifest) partition flash after) :=
    switched.writes ▸ verified read touched
  exact ensures_installRest written (fun _ _ touched after _ => switched touched after)
    fun _ _ touched after => ⟨switched touched after, switched touched after⟩

/-- The stores of the loaders are as they were. -/
def LoadersKept (before after : Device) : Prop :=
  ∀ store, LoaderStore store ∨ store = uloaderStore → after.contents store = before.contents store

/-- The loaders are kept when they are to be skipped. -/
theorem ensures_skipped (platform : host.is "GFLT" = false) {opt : Options}
    (checked : opt.skiploadersig = false) (skipped : opt.skiploader = true) (start : World) :
    Ensures (installImage host opt tar) (fun _ after => LoadersKept start.device after.device)
      (fun after => LoadersKept start.device after.device) start := by
  refine ensures_collecting platform (fun _ _ _ _ touched _ => touches_image_loaders touched)
    (fun _ _ => rfl) ?_
  intro manifest partition collected between _ collecting
  obtain ⟨loadersig, loaderSig⟩ := collecting.loaders.signed
  obtain ⟨uloadersig, uloaderSig⟩ := collecting.uloaders.signed
  have images : LoadersKept start.device between.device := fun _ =>
    touches_image_loaders collecting.images
  have flashed : Ensures (installLoaders host opt collected)
      (fun _ after => LoadersKept start.device after.device)
      (fun after => LoadersKept start.device after.device) between := by
    refine ensures_installLoaders checked loaderSig uloaderSig images (fun _ => images) ?_
    intro _ _ unskipped
    exact absurd (unskipped.symm.trans skipped) (by decide)
  have switched {flash after : World} (kept : LoadersKept start.device flash.device)
      (switched : Switched (getOsFromManifest manifest) partition flash after) :
      LoadersKept start.device after.device := by
    rw [LoadersKept, switched.contents]
    exact kept
  exact ensures_installRest flashed (fun _ _ kept after _ => switched kept after)
    fun _ _ kept after => ⟨switched kept after, switched kept after⟩

/-- An installation with a file that is rejected ends with an error, or is cut. -/
theorem ensures_rejected (platform : host.is "GFLT" = false) {opt : Options}
    (checked : opt.skiploadersig = false) (unskipped : opt.skiploader = false)
    (emptyRejected : ∀ data key, host.verify data [] key = false)
    (read : readManifest tar = .ok manifest) {key : Text} (signing : host.signingKey = some key)
    (rejected : Rejected host tar key (loaderBinList host manifest) (loaderSigList host manifest) ∨
      Rejected host tar key uloaderNames uloaderSigNames) (start : World) :
    Ensures (installImage host opt tar) (fun _ _ => False)
      (fun after => LoadersKept start.device after.device ∧
        after.device.hnvram = start.device.hnvram) start := by
  have untouched {manifest : Manifest} {partition : Partition} {after : World}
      (touched : Touches (ImageWrite (getOsFromManifest manifest) partition tar) start after) :
      LoadersKept start.device after.device ∧ after.device.hnvram = start.device.hnvram :=
    ⟨fun _ => touches_image_loaders touched, touched.hnvram⟩
  refine ensures_collecting platform (fun _ _ _ _ => untouched) ⟨fun _ _ => rfl, rfl⟩ ?_
  intro again partition collected between same collecting
  cases read.symm.trans same
  obtain ⟨loadersig, loaderSig⟩ := collecting.loaders.signed
  obtain ⟨uloadersig, uloaderSig⟩ := collecting.uloaders.signed
  have flashed : Ensures (installLoaders host opt collected) (fun _ _ => False)
      (fun after => LoadersKept start.device after.device ∧
        after.device.hnvram = start.device.hnvram) between := by
    refine ensures_installLoaders checked loaderSig uloaderSig (untouched collecting.images)
      (fun skipped => absurd (unskipped.symm.trans skipped) (by decide)) ?_
    intro found signed _ loaderAccepted uloaderAccepted
    cases signing.symm.trans signed
    rcases rejected with loader | uloader
    · exact absurd loaderAccepted
        (not_accepted_of_rejected emptyRejected collecting.loaders loader)
    · exact absurd uloaderAccepted
        (not_accepted_of_rejected emptyRejected collecting.uloaders uloader)
  exact ensures_installRest flashed (fun _ _ => False.elim) fun _ _ => False.elim

end Installation

section Verification

/-- Where the platform is not GFLT and signatures are checked, nothing is written to a loader
that has not been verified. A missing or wrong signature leaves the loaders as they were, and
the boot partition unless the loaders are skipped. -/
theorem loaders_verified (host : Host) (opt : Options) (tar : List Entry) (device : Device)
    (fates : List Fate) (platform : host.is "GFLT" = false) (checked : opt.skiploadersig = false)
    (emptyRejected : ∀ data key, host.verify data [] key = false) :
    (∀ write ∈ (installImage host opt tar ⟨device, fates, []⟩).2.writes,
      ∃ manifest, readManifest tar = .ok manifest ∧
        VerifiedWrite host device tar manifest write) ∧
    ∀ manifest key, readManifest tar = .ok manifest → host.signingKey = some key →
      Rejected host tar key (loaderBinList host manifest) (loaderSigList host manifest) ∨
        Rejected host tar key uloaderNames uloaderSigNames →
      LoadersKept device (installImage host opt tar ⟨device, fates, []⟩).2.device ∧
        (opt.skiploader = false →
          (installImage host opt tar ⟨device, fates, []⟩).2.device.hnvram = device.hnvram) := by
  constructor
  · exact Exec.ensures_final (ensures_verified platform checked emptyRejected fates)
  · intro manifest key read signing rejected
    cases skip : opt.skiploader with
    | true =>
        have skipped : Ensures (installImage host opt tar) _ _ ⟨device, fates, []⟩ :=
          ensures_skipped platform checked skip ⟨device, fates, []⟩
        exact ⟨Exec.ensures_final skipped, fun unskipped => absurd unskipped (by decide)⟩
    | false =>
        have refused := ensures_rejected platform checked skip emptyRejected read signing rejected
          ⟨device, fates, []⟩
        obtain ⟨kept, same⟩ := Exec.ensures_final
          (Exec.ensures_mono refused (fun _ _ => False.elim) fun _ => id)
        exact ⟨kept, fun _ => same⟩

/-- An image with a loader and a signature. -/
def loaderTar (signature : String) : List Entry :=
  [exampleManifest [], ⟨"loader.img".toList, "loader".toList⟩,
    ⟨"loader.sig".toList, signature.toList⟩]

/-- A loader with its signature is written, one with a wrong signature is not. -/
theorem loaders_verified_signed :
    ((installImage gfhd100 ⟨[], false, false⟩ (loaderTar "signature of loader")
        ⟨runningFiberos, [], []⟩).2.writes ≠ [] ∧
      ∀ write ∈ (installImage gfhd100 ⟨[], false, false⟩ (loaderTar "signature of loader")
          ⟨runningFiberos, [], []⟩).2.writes,
        ∃ manifest, readManifest (loaderTar "signature of loader") = .ok manifest ∧
          VerifiedWrite gfhd100 runningFiberos (loaderTar "signature of loader") manifest write) ∧
    ∀ manifest key, readManifest (loaderTar "wrong") = .ok manifest →
      gfhd100.signingKey = some key →
      Rejected gfhd100 (loaderTar "wrong") key (loaderBinList gfhd100 manifest)
          (loaderSigList gfhd100 manifest) ∨
        Rejected gfhd100 (loaderTar "wrong") key uloaderNames uloaderSigNames →
      LoadersKept runningFiberos (installImage gfhd100 ⟨[], false, false⟩ (loaderTar "wrong")
          ⟨runningFiberos, [], []⟩).2.device ∧
        (installImage gfhd100 ⟨[], false, false⟩ (loaderTar "wrong")
          ⟨runningFiberos, [], []⟩).2.device.hnvram = runningFiberos.hnvram := by
  refine ⟨⟨by decide +kernel, ?_⟩, fun manifest key read signing rejected => ?_⟩
  · exact (loaders_verified gfhd100 ⟨[], false, false⟩ (loaderTar "signature of loader")
      runningFiberos [] (by decide) rfl fun _ _ => rfl).1
  · obtain ⟨kept, same⟩ := (loaders_verified gfhd100 ⟨[], false, false⟩ (loaderTar "wrong")
      runningFiberos [] (by decide) rfl fun _ _ => rfl).2 manifest key read signing rejected
    exact ⟨kept, same rfl⟩

/-- With the loaders skipped a wrong signature does not keep the partition from being
activated. -/
theorem skipped_loader_activates :
    gfhd100.is "GFLT" = false ∧
      gfhd100.verify "loader".toList "wrong".toList "key".toList = false ∧
      runningFiberos.hnvram .activatedKernelName = some "kernel0".toList ∧
      (installImage gfhd100 ⟨[], true, false⟩ (loaderTar "wrong")
        ⟨runningFiberos, [], []⟩).2.device.hnvram .activatedKernelName =
          some "kernel1".toList := by
  refine ⟨by decide, by decide, rfl, ?_⟩
  decide +kernel

end Verification

end Gfiber.Ginstall
