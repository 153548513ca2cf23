import Gfiber.Ginstall.EntryProperties

/-! Which bytes get to the partitions of the loaders. -/

set_option autoImplicit false

namespace Gfiber.Ginstall

open Lib
open Exec (Ensures)

section Collection

/-- The last entry with one of the names. -/
def lastEntry (names : List Text) (tar : List Entry) : Option Entry :=
  tar.reverse.find? fun entry => entry.name ∈ names

theorem lastEntry_append (names : List Text) (tar : List Entry) (entry : Entry) :
    lastEntry names (tar ++ [entry]) =
      if entry.name ∈ names then some entry else lastEntry names tar := by
  rw [lastEntry, List.reverse_append, List.reverse_singleton, List.singleton_append,
    List.find?_cons]
  by_cases named : entry.name ∈ names
  · rw [if_pos named, decide_eq_true named]
  · rw [if_neg named, decide_eq_false named, lastEntry]

theorem lastEntry_mem {names : List Text} {tar : List Entry} {entry : Entry}
    (found : lastEntry names tar = some entry) : entry ∈ tar ∧ entry.name ∈ names := by
  have named := List.find?_some found
  have member := List.mem_of_find?_eq_some found
  exact ⟨List.mem_reverse.mp member, of_decide_eq_true named⟩

variable (host : Host) (manifest : Manifest)

theorem loader_starts {name : Text}
    (listed : name ∈ loaderBinList host manifest ∨ name ∈ loaderSigList host manifest) :
    "loader.".toList.isPrefixOf name = true := by
  rw [loaderBinList, loaderSigList] at listed
  split at listed
  · rcases listed with bin | sig
    · rw [List.mem_singleton.mp bin, List.isPrefixOf_iff_prefix, List.append_assoc]
      exact List.prefix_append _ _
    · rw [List.mem_singleton.mp sig, List.isPrefixOf_iff_prefix, List.append_assoc]
      exact List.prefix_append _ _
  · rcases listed with bin | sig
    · rcases List.mem_pair.mp bin with rfl | rfl
      · decide
      · decide
    · rw [List.mem_singleton.mp sig]
      decide

theorem loaderLists_disjoint {name : Text} (bin : name ∈ loaderBinList host manifest) :
    name ∉ loaderSigList host manifest := by
  intro sig
  rw [loaderBinList] at bin
  rw [loaderSigList] at sig
  split at bin
  case isTrue multi =>
    rw [if_pos multi] at sig
    have same := (List.mem_singleton.mp bin).symm.trans (List.mem_singleton.mp sig)
    exact absurd (List.append_cancel_left same) (by decide)
  case isFalse single =>
    rw [if_neg single] at sig
    rw [List.mem_singleton.mp sig] at bin
    exact absurd bin (by decide)

/-- A name that starts as those of the loaders do is none of a manifest or an image. -/
theorem loader_name {name : Text} (start : "loader.".toList.isPrefixOf name = true) :
    name ∉ manifestNames ∧ entryPart name = none ∧ name ≠ "uloader.img".toList ∧
      name ≠ "uloader.sig".toList := by
  have other {word : Text} (different : "loader.".toList.isPrefixOf word = false) : name ≠ word := by
    rintro rfl
    rw [start] at different
    cases different
  have none_of {words : List Text}
      (different : ∀ word ∈ words, "loader.".toList.isPrefixOf word = false) : name ∉ words :=
    fun listed => other (different name listed) rfl
  have rootfs : ¬"rootfs.".toList.isPrefixOf name = true := by
    intro begins
    rw [List.isPrefixOf_iff_prefix] at start begins
    have same := List.prefix_or_prefix_of_prefix start begins
    exact absurd same (by decide)
  have noManifest : name ∉ manifestNames := none_of (by decide)
  refine ⟨noManifest, ?_, other (by decide), other (by decide)⟩
  rw [entryPart, if_neg noManifest, if_neg (none_of (by decide)), if_neg rootfs,
    if_neg (other (by decide)), if_neg (other (by decide))]

variable (collected : Collected) (entry : Entry)

theorem collect_loader : (collect host manifest collected entry).loader =
    if entry.name ∈ loaderBinList host manifest then some (entry.file manifest)
    else collected.loader := by
  rw [collect]
  by_cases bin : entry.name ∈ loaderBinList host manifest
  · obtain ⟨manifestName, part, _⟩ := loader_name (loader_starts host manifest (Or.inl bin))
    simp [bin, manifestName, part]
  · rw [if_neg bin]
    split_ifs <;> rfl

theorem collect_loadersig : (collect host manifest collected entry).loadersig =
    if entry.name ∈ loaderSigList host manifest then some (entry.file manifest)
    else collected.loadersig := by
  rw [collect]
  by_cases sig : entry.name ∈ loaderSigList host manifest
  · obtain ⟨manifestName, part, _⟩ := loader_name (loader_starts host manifest (Or.inr sig))
    have bin := mt (loaderLists_disjoint host manifest) (not_not.mpr sig)
    simp [sig, bin, manifestName, part]
  · rw [if_neg sig]
    split_ifs <;> rfl

theorem loader_names {name : Text}
    (other : name = "uloader.img".toList ∨ name = "uloader.sig".toList) :
    name ∉ manifestNames ∧ ¬(entryPart name).isSome ∧ name ∉ loaderBinList host manifest ∧
      name ∉ loaderSigList host manifest := by
  have bin : name ∉ loaderBinList host manifest := by
    intro listed
    obtain ⟨_, _, img, sig⟩ := loader_name (loader_starts host manifest (Or.inl listed))
    exact other.elim img sig
  have sig : name ∉ loaderSigList host manifest := by
    intro listed
    obtain ⟨_, _, img, sig⟩ := loader_name (loader_starts host manifest (Or.inr listed))
    exact other.elim img sig
  refine ⟨?_, ?_, bin, sig⟩
  · rcases other with rfl | rfl
    · decide
    · decide
  · rcases other with rfl | rfl
    · decide
    · decide

theorem collect_uloader : (collect host manifest collected entry).uloader =
    if entry.name ∈ ["uloader.img".toList] then some (entry.file manifest)
    else collected.uloader := by
  rw [collect]
  by_cases img : entry.name = "uloader.img".toList
  · obtain ⟨manifestName, part, bin, sig⟩ := loader_names host manifest (Or.inl img)
    rw [if_pos (List.mem_singleton.mpr img), if_neg manifestName, if_neg part, if_neg bin,
      if_neg sig, if_pos img]
  · rw [if_neg (mt List.mem_singleton.mp img)]
    split_ifs <;> rfl

theorem collect_uloadersig : (collect host manifest collected entry).uloadersig =
    if entry.name ∈ ["uloader.sig".toList] then some (entry.file manifest)
    else collected.uloadersig := by
  rw [collect]
  by_cases named : entry.name = "uloader.sig".toList
  · obtain ⟨manifestName, part, bin, sig⟩ := loader_names host manifest (Or.inr named)
    have img : entry.name ≠ "uloader.img".toList := by
      rw [named]
      decide
    rw [if_pos (List.mem_singleton.mpr named), if_neg manifestName, if_neg part, if_neg bin,
      if_neg sig, if_neg img, if_pos named]
  · rw [if_neg (mt List.mem_singleton.mp named)]
    split_ifs <;> rfl

/-- A file that is collected comes from the last entry with its name. -/
theorem foldl_collect {field : Collected → Option FileWithSecureHash} {names : List Text}
    (each : ∀ collected entry, field (collect host manifest collected entry) =
      if entry.name ∈ names then some (entry.file manifest) else field collected)
    (tar : List Entry) (start : Collected) :
    field (tar.foldl (collect host manifest) start) =
      ((lastEntry names tar).map (Entry.file manifest)).or (field start) := by
  induction tar using List.reverseRecOn with
  | nil => rfl
  | append_singleton tar entry ih =>
      rw [List.foldl_append, List.foldl_cons, List.foldl_nil, each, lastEntry_append, ih]
      split
      · rfl
      · rfl

end Collection

section Writing

/-- The stores of the loader. -/
def LoaderStore (store : Store) : Prop :=
  (∃ name ∈ loaderNames, store = .mtd name) ∨ ∃ second, store = .emmcBoot second

def uloaderStore : Store :=
  .mtd "uloader".toList

variable (host : Host) {allowed : Write → Prop}

theorem confined_writeLoaderToMtd {loader : FileWithSecureHash} {loaderStart : Nat} {store : Store}
    (permitted : allowed ⟨store, (loader.seek loaderStart).rest⟩) :
    Confined allowed (writeLoaderToMtd host loader loaderStart store) := by
  refine confined_bind (confined_isIdentical _ _) fun current => ?_
  split
  · exact confined_pure ()
  · exact confined_discard (confined_installToMtd host permitted)

theorem confined_installLoader {loader : FileWithSecureHash}
    (permitted : ∀ store, LoaderStore store →
      allowed ⟨store, loader.data⟩ ∧ allowed ⟨store, loader.rest⟩) :
    Confined allowed (installLoader host loader) := by
  have flash : ∀ installed, ∀ name ∈ loaderNames,
      Confined allowed (installLoaderToMtd host loader installed name) := by
    intro installed name listed
    have file := (permitted (.mtd name) (Or.inl ⟨name, listed, rfl⟩)).2
    rw [installLoaderToMtd]
    split
    · exact confined_bind (confined_writeLoaderToMtd host file) fun _ => confined_pure _
    · exact confined_pure _
  have emmc : ∀ installed, ∀ second ∈ [false, true],
      Confined allowed (installLoaderToEmmc host loader installed second) := by
    intro installed second _
    have file := (permitted (.emmcBoot second) (Or.inr ⟨second, rfl⟩)).1
    rw [installLoaderToEmmc]
    split
    · refine confined_bind (confined_attempt _) fun _ => ?_
      refine confined_bind (confined_discard (confined_copyAndVerify host file)) fun _ => ?_
      exact confined_bind (confined_attempt _) fun _ => confined_pure _
    · exact confined_pure _
  refine confined_bind (confined_loop loaderNames flash false) fun installed => ?_
  refine confined_bind (confined_loop [false, true] emmc installed) fun installed => ?_
  split
  · exact confined_pure ()
  · exact confined_raise _

/-- What is written of the uloader depends on whether the device is secure. -/
theorem ensures_installUloader {uloader : FileWithSecureHash} {before : World}
    (plain : allowed ⟨uloaderStore, uloader.rest⟩)
    (stripped : uloaderSigned (before.device.contents uloaderStore) = .ok false →
      allowed ⟨uloaderStore, stripUloader host uloader.rest⟩) :
    Ensures (installUloader host uloader) (fun _ => Touches allowed before)
      (Touches allowed before) before := by
  rw [installUloader]
  split
  case isFalse => exact .refl before
  case isTrue =>
    have signed : Ensures (Exec.ofExcept (uloaderSigned uloader.data))
        (fun _ after => before = after) (Touches allowed before) before :=
      Exec.ensures_ofExcept (fun _ _ => rfl) (.refl before)
    refine Exec.ensures_then signed fun signed after same => ?_
    cases same
    have confined : Confined allowed (attempt .ioError) := confined_attempt .ioError
    have attempted := Exec.ensures_and (ensures_attempt .ioError before) (confined before)
    refine Exec.ensures_bind.mpr (Exec.ensures_mono attempted ?_ fun _ => And.right)
    intro _ between ⟨device, touched⟩
    refine Exec.ensures_bind.mpr ?_
    rw [Exec.ensures_get]
    have secure : Ensures (Exec.ofExcept (uloaderSigned (between.device.contents uloaderStore)))
        (fun secure after => between = after ∧
          uloaderSigned (before.device.contents uloaderStore) = .ok secure)
        (Touches allowed before) between :=
      Exec.ensures_ofExcept (fun _ found => ⟨rfl, device ▸ found⟩) touched
    refine Exec.ensures_then secure ?_
    rintro deviceSecure _ ⟨rfl, found⟩
    have run {program : Installer Unit} (confined : Confined allowed program) :
        Ensures program (fun _ => Touches allowed before) (Touches allowed before) between :=
      Exec.ensures_mono (confined between) (fun _ _ => touched.trans) fun _ => touched.trans
    split
    case isTrue strip =>
      have insecure : deviceSecure = false := by
        rw [Bool.and_eq_true, Bool.not_eq_true'] at strip
        exact strip.2
      exact run (confined_writeLoaderToMtd host (stripped (insecure ▸ found)))
    case isFalse =>
      split
      · exact touched
      · exact run (confined_writeLoaderToMtd host plain)

end Writing

section Signatures

variable (host : Host) (key : Text)

/-- A signature is accepted for the file. -/
def Accepted (file signature : Option FileWithSecureHash) : Prop :=
  ∀ opened, file = some opened → ∃ sig, signature = some sig ∧
    host.verify opened.rest sig.rest key

theorem ensures_checkSignature (skiploader : Bool) (error : InstallError)
    (file : Option FileWithSecureHash) (signature : FileWithSecureHash) (before : World) :
    Ensures (checkSignature host key skiploader error file (some signature))
      (fun result after => before = after ∧
        (skiploader = false → Accepted host key file (some signature) ∧
          result = file.map fun opened => opened.seek 0))
      (fun after => before = after ∧ skiploader = false ∧
        ¬Accepted host key file (some signature)) before := by
  cases file with
  | none =>
      refine ⟨rfl, fun _ => ⟨?_, rfl⟩⟩
      intro opened found
      cases found
  | some opened =>
      rw [checkSignature]
      split
      case isTrue skipped => exact ⟨rfl, fun checked => absurd (skipped.symm.trans checked) (by decide)⟩
      case isFalse checked =>
        have unskipped := Bool.eq_false_iff.mpr checked
        split
        case isTrue verified =>
          refine ⟨rfl, fun _ => ⟨?_, rfl⟩⟩
          intro other same
          cases same
          exact ⟨signature, rfl, verified⟩
        case isFalse rejected =>
          refine ⟨rfl, unskipped, fun accepted => ?_⟩
          obtain ⟨sig, same, verified⟩ := accepted opened rfl
          cases same
          exact rejected verified

variable {host : Host} {key : Text}

theorem flashLoaders_skipped (loader uloader androidBsu : Option FileWithSecureHash)
    (before : World) :
    flashLoaders host true loader uloader androidBsu before = (.returned (), before) := by
  cases loader <;> cases uloader <;> cases androidBsu <;> rfl

/-- Before anything is written both signatures have been accepted, or nothing is to be
written at all. -/
theorem ensures_installLoaders {opt : Options} {collected : Collected}
    {loadersig uloadersig : FileWithSecureHash} {before : World} {returns : Unit → World → Prop}
    {breaks : World → Prop} (checked : opt.skiploadersig = false)
    (loaderSig : collected.loadersig = some loadersig)
    (uloaderSig : collected.uloadersig = some uloadersig) (refused : breaks before)
    (skipped : opt.skiploader = true → returns () before)
    (accepted : ∀ key, host.signingKey = some key → opt.skiploader = false →
      Accepted host key collected.loader collected.loadersig →
      Accepted host key collected.uloader collected.uloadersig →
      Ensures (flashLoaders host false (collected.loader.map fun opened => opened.seek 0)
        (collected.uloader.map fun opened => opened.seek 0) collected.androidBsu)
        returns breaks before) :
    Ensures (installLoaders host opt collected) returns breaks before := by
  rw [installLoaders]
  cases signing : host.signingKey with
  | none => exact refused
  | some key =>
      have loaders : opt.checked collected.loadersig = some loadersig := by
        rw [Options.checked, checked, loaderSig]
        rfl
      have uloaders : opt.checked collected.uloadersig = some uloadersig := by
        rw [Options.checked, checked, uloaderSig]
        rfl
      rw [loaders, uloaders]
      have first := ensures_checkSignature host key opt.skiploader .loaderSignature
        collected.loader loadersig before
      have second := ensures_checkSignature host key opt.skiploader .uloaderSignature
        collected.uloader uloadersig before
      refine Exec.ensures_bind.mpr (Exec.ensures_mono first ?_ ?_)
      · rintro loader _ ⟨rfl, checkedLoader⟩
        refine Exec.ensures_bind.mpr (Exec.ensures_mono second ?_ ?_)
        · rintro uloader _ ⟨rfl, checkedUloader⟩
          cases skip : opt.skiploader with
          | true =>
              rw [Ensures, flashLoaders_skipped]
              exact skipped skip
          | false =>
              obtain ⟨loaderAccepted, rfl⟩ := checkedLoader skip
              obtain ⟨uloaderAccepted, rfl⟩ := checkedUloader skip
              exact accepted key signing skip (loaderSig ▸ loaderAccepted)
                (uloaderSig ▸ uloaderAccepted)
        · rintro _ ⟨rfl, _⟩
          exact refused
      · rintro _ ⟨rfl, _⟩
        exact refused

end Signatures

section Flashing

variable {host : Host}

theorem uloaderStore_not_loader : ¬LoaderStore uloaderStore := by
  rintro (⟨name, listed, same⟩ | ⟨second, same⟩)
  · rw [← Store.mtd.inj same] at listed
    exact absurd listed (by decide)
  · cases same

theorem confined_installAndroidBsu {allowed : Write → Prop} (bsu : FileWithSecureHash)
    (permitted : ∀ data, allowed ⟨.gpt "bsu".toList, data⟩) :
    Confined allowed (installAndroidBsu host bsu) := by
  rw [installAndroidBsu]
  split
  · refine confined_bind (confined_isIdentical _ _) fun current => ?_
    split
    · exact confined_pure ()
    · exact confined_discard (confined_copyAndVerify host (permitted _))
  · exact confined_raise _

theorem confined_unlessSkipped {allowed : Write → Prop}
    {install : FileWithSecureHash → Installer Unit} {file : Option FileWithSecureHash}
    (confined : ∀ opened, file = some opened → Confined allowed (install opened)) :
    Confined allowed (unlessSkipped false install file) := by
  cases file with
  | none => exact confined_pure ()
  | some opened => exact confined opened rfl

/-- A file that has been rewound is written as a whole, the uloader without its signature
where the device is not secure. -/
theorem ensures_flashLoaders {allowed : Write → Prop} {before : World}
    {loader uloader androidBsu : Option FileWithSecureHash}
    (loaderAllowed : ∀ opened, loader = some opened → ∀ store, LoaderStore store →
      allowed ⟨store, opened.data⟩)
    (uloaderAllowed : ∀ opened, uloader = some opened → allowed ⟨uloaderStore, opened.data⟩ ∧
      (uloaderSigned (before.device.contents uloaderStore) = .ok false →
        allowed ⟨uloaderStore, stripUloader host opened.data⟩))
    (bsuAllowed : ∀ data, allowed ⟨.gpt "bsu".toList, data⟩) :
    Ensures (flashLoaders host false (loader.map fun opened => opened.seek 0)
      (uloader.map fun opened => opened.seek 0) androidBsu)
      (fun _ => Touches allowed before) (Touches allowed before) before := by
  have loaders : Confined (fun write => LoaderStore write.store ∧ allowed write)
      (unlessSkipped false (installLoader host) (loader.map fun opened => opened.seek 0)) := by
    refine confined_unlessSkipped fun opened found => ?_
    obtain ⟨source, same, rfl⟩ := Option.map_eq_some_iff.mp found
    refine confined_installLoader host fun store loaderStore => ?_
    have permitted := loaderAllowed source same store loaderStore
    exact ⟨⟨loaderStore, permitted⟩, loaderStore, permitted⟩
  refine Exec.ensures_bind.mpr (Exec.ensures_mono (loaders before) ?_ ?_)
  · intro _ between written
    have touched : Touches allowed before between := written.mono fun _ => And.right
    have kept : between.device.contents uloaderStore = before.device.contents uloaderStore :=
      written.contents uloaderStore fun data permitted => uloaderStore_not_loader permitted.1
    have uloaders : Ensures
        (unlessSkipped false (installUloader host) (uloader.map fun opened => opened.seek 0))
        (fun _ => Touches allowed between) (Touches allowed between) between := by
      cases uloader with
      | none => exact .refl between
      | some opened =>
          obtain ⟨plain, stripped⟩ := uloaderAllowed opened rfl
          exact ensures_installUloader host plain fun insecure => stripped (kept ▸ insecure)
    refine Exec.ensures_bind.mpr (Exec.ensures_mono uloaders ?_ fun _ => touched.trans)
    intro _ after later
    have bsu : Confined allowed (unlessSkipped false (installAndroidBsu host) androidBsu) :=
      confined_unlessSkipped fun opened _ => confined_installAndroidBsu opened bsuAllowed
    have whole := touched.trans later
    exact Exec.ensures_mono (bsu after) (fun _ _ => whole.trans) fun _ => whole.trans
  · exact fun _ written => written.mono fun _ => And.right

/-- A write of a loader. -/
def LoaderWrite (write : Write) : Prop :=
  LoaderStore write.store ∨ write.store = uloaderStore ∨ write.store = .gpt "bsu".toList

/-- A store with the name of a part is none of the loaders'. -/
theorem part_not_loader {part : Part} {partition : Partition} {write : Write}
    (label : write.store.label = some (part.name partition)) : ¬LoaderWrite write := by
  have named {name : Text} (same : write.store.label = some name) : name = part.name partition :=
    Option.some.inj (same.symm.trans label)
  have different : ∀ name ∈ "uloader".toList :: "bsu".toList :: loaderNames,
      name ≠ part.name partition := by
    cases part <;> cases partition <;> decide
  rintro ((⟨name, listed, flash⟩ | ⟨second, emmc⟩) | uloader | bsu)
  · exact different name (by simp [listed]) (named (congrArg Store.label flash))
  · rw [emmc] at label
    cases label
  · exact different "uloader".toList (by simp) (named (congrArg Store.label uloader))
  · exact different "bsu".toList (by simp) (named (congrArg Store.label bsu))

theorem imageWrite_not_loader {targetOs : Os} {partition : Partition} {tar : List Entry}
    {write : Write} (image : ImageWrite targetOs partition tar write) : ¬LoaderWrite write := by
  obtain ⟨_, _, part, _, _, label, _⟩ := image
  exact part_not_loader label

/-- No partition of an image is written after the entries. -/
theorem confined_installLoaders (opt : Options) (collected : Collected) :
    Confined LoaderWrite (installLoaders host opt collected) := by
  have checks (key : Text) (error : InstallError) (file signature : Option FileWithSecureHash) :
      Confined LoaderWrite
        (checkSignature host key opt.skiploader error file signature) := by
    cases file with
    | none => exact confined_pure none
    | some file =>
        cases signature with
        | none => exact confined_pure (some file)
        | some signature =>
            rw [checkSignature]
            split
            · exact confined_pure _
            · split
              · exact confined_pure _
              · exact confined_raise _
  have skippedOr {install : FileWithSecureHash → Installer Unit}
      (confined : ∀ opened, Confined LoaderWrite (install opened))
      (file : Option FileWithSecureHash) :
      Confined LoaderWrite (unlessSkipped opt.skiploader install file) := by
    cases file with
    | none => exact confined_pure ()
    | some opened =>
        rw [unlessSkipped]
        split
        · exact confined_pure ()
        · exact confined opened
  rw [installLoaders]
  cases host.signingKey with
  | none => exact confined_raise _
  | some key =>
      refine confined_bind (checks key _ _ _) fun loader => ?_
      refine confined_bind (checks key _ _ _) fun uloader => ?_
      refine confined_bind (skippedOr (fun opened => ?_) loader) fun _ => ?_
      · exact confined_installLoader host fun store loaderStore =>
          ⟨Or.inl loaderStore, Or.inl loaderStore⟩
      · refine confined_bind (skippedOr (fun opened before => ?_) uloader) fun _ => ?_
        · exact ensures_installUloader host (Or.inr (Or.inl rfl)) fun _ => Or.inr (Or.inl rfl)
        · exact skippedOr (fun opened => confined_installAndroidBsu opened fun _ =>
            Or.inr (Or.inr rfl)) _

/-- The end of an installation changes the loaders, and then the variables. -/
theorem ensures_installRest {opt : Options} {targetOs : Os} {partition : Partition}
    {collected : Collected} {before : World} {flashed : World → Prop} {returns : Nat → World → Prop}
    {breaks : World → Prop}
    (loaders : Ensures (installLoaders host opt collected) (fun _ => flashed) breaks before)
    (activated : ∀ between after, flashed between → Switched targetOs partition between after →
      after.device.hnvram targetOs.activeVariable = some (bootName targetOs partition) →
      returns 0 after)
    (failed : ∀ between after, flashed between → Switched targetOs partition between after →
      returns hnvramErr after ∧ breaks after) :
    Ensures (installRest host opt targetOs partition collected) returns breaks before := by
  refine Exec.ensures_then loaders fun _ between done => ?_
  refine Exec.ensures_bind.mpr (Exec.ensures_mono (ensures_setBootPartition _ _ between) ?_ ?_)
  · rintro set after ⟨switched, named⟩
    cases set with
    | false => exact (failed between after done switched).1
    | true => exact activated between after done switched (named rfl)
  · exact fun after switched => (failed between after done switched).2

end Flashing

end Gfiber.Ginstall
