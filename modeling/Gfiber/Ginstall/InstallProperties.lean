import Gfiber.Ginstall.Install

/-! What each part of the installer may change, and what it has done when it returns. -/

set_option autoImplicit false

namespace Gfiber.Ginstall

open Lib
open Exec (Ensures)

section Changes

/-- Only writes that are allowed have been started, only stores that they are to have changed,
and nothing else of the device. -/
structure Touches (allowed : Write → Prop) (before after : World) : Prop where
  os : after.device.os = before.device.os
  cmdline : after.device.cmdline = before.device.cmdline
  hnvram : after.device.hnvram = before.device.hnvram
  contents : ∀ store, (∀ data, ¬allowed ⟨store, data⟩) →
    after.device.contents store = before.device.contents store
  writes : ∀ write ∈ after.writes, write ∈ before.writes ∨ allowed write
  fates : ∀ fate ∈ after.fates, fate ∈ before.fates

theorem Touches.refl {allowed : Write → Prop} (world : World) : Touches allowed world world :=
  ⟨rfl, rfl, rfl, fun _ _ => rfl, fun _ => Or.inl, fun _ => id⟩

theorem Touches.trans {allowed : Write → Prop} {before between after : World}
    (first : Touches allowed before between) (second : Touches allowed between after) :
    Touches allowed before after where
  os := second.os.trans first.os
  cmdline := second.cmdline.trans first.cmdline
  hnvram := second.hnvram.trans first.hnvram
  contents store kept := (second.contents store kept).trans (first.contents store kept)
  writes write member := (second.writes write member).elim (first.writes write) Or.inr
  fates fate member := first.fates fate (second.fates fate member)

theorem Touches.mono {allowed more : Write → Prop} {before after : World}
    (touches : Touches allowed before after) (wider : ∀ write, allowed write → more write) :
    Touches more before after :=
  { touches with
    contents := fun store kept =>
      touches.contents store fun data permitted => kept data (wider _ permitted)
    writes := fun write member => (touches.writes write member).imp_right (wider write) }

/-- However a program ends, it has changed no more than is allowed. -/
def Confined {Value : Type} (allowed : Write → Prop) (program : Installer Value) : Prop :=
  ∀ before, Ensures program (fun _ => Touches allowed before) (Touches allowed before) before

variable {Value Other : Type} {allowed : Write → Prop}

theorem confined_pure (value : Value) : Confined allowed (pure value : Installer Value) :=
  fun before => .refl before

theorem confined_raise (error : InstallError) :
    Confined allowed (.raise error : Installer Value) :=
  fun before => .refl before

theorem confined_stop : Confined allowed (.stop : Installer Value) :=
  fun before => .refl before

theorem confined_get : Confined allowed (.get : Installer World) :=
  fun before => .refl before

theorem confined_bind {program : Installer Value} {next : Value → Installer Other}
    (first : Confined allowed program) (second : ∀ value, Confined allowed (next value)) :
    Confined allowed (program >>= next) := by
  intro before
  refine Exec.ensures_then (first before) fun value between touched => ?_
  exact Exec.ensures_mono (second value between) (fun _ _ => touched.trans) fun _ => touched.trans

theorem confined_discard {program : Installer Value} (confined : Confined allowed program) :
    Confined allowed (discard program) :=
  confined_bind confined fun _ => confined_pure ()

theorem confined_mono {more : Write → Prop} {program : Installer Value}
    (confined : Confined allowed program) (wider : ∀ write, allowed write → more write) :
    Confined more program := fun before =>
  Exec.ensures_mono (confined before) (fun _ _ touched => touched.mono wider)
    fun _ touched => touched.mono wider

theorem confined_finally {program : Installer Value} {cleanup : Installer Unit}
    (confined : Confined allowed program) (cleans : Confined allowed cleanup) :
    Confined allowed (program.andFinally cleanup) := by
  intro before
  refine Exec.ensures_finally (confined before) ?_ ?_ fun _ => id
  · intro value after touched
    exact Exec.ensures_mono (cleans after) (fun _ _ => touched.trans) fun _ => touched.trans
  · intro after touched
    exact Exec.ensures_mono (cleans after) (fun _ _ => touched.trans) fun _ => touched.trans

theorem confined_loop {Item : Type} {body : Value → Item → Installer Value} (items : List Item)
    (each : ∀ value, ∀ item ∈ items, Confined allowed (body value item)) (value : Value) :
    Confined allowed (Exec.loop body value items) := by
  induction items generalizing value with
  | nil => exact confined_pure value
  | cons item items ih =>
      exact confined_bind (each value item List.mem_cons_self)
        (ih fun value other member => each value other (List.mem_cons_of_mem _ member))

end Changes

section Operations

variable {allowed : Write → Prop}

theorem touches_setContents {world : World} {store : Store} {data : Text}
    (permitted : ∃ data, allowed ⟨store, data⟩) :
    Touches allowed world (world.setContents store data) where
  os := rfl
  cmdline := rfl
  hnvram := rfl
  contents other kept := by
    obtain ⟨permitted, holds⟩ := permitted
    refine if_neg ?_
    rintro rfl
    exact kept permitted holds
  writes _ := Or.inl
  fates _ := id

theorem ensures_nextFate {before : World} {returns : Fate → World → Prop}
    {breaks : World → Prop}
    (each : ∀ fate fates, (∀ left ∈ fates, left ∈ before.fates) →
      (fate = .done ∨ fate ∈ before.fates) → returns fate { before with fates }) :
    Ensures nextFate returns breaks before := by
  rw [Ensures, nextFate]
  cases fates : before.fates with
  | nil => exact each .done before.fates (fun _ => id) (Or.inl rfl)
  | cons fate rest =>
      rw [fates] at each
      exact each fate rest (fun _ => List.mem_cons_of_mem _) (Or.inr List.mem_cons_self)

theorem touches_fates {before : World} {fates : List Fate}
    (fewer : ∀ fate ∈ fates, fate ∈ before.fates) :
    Touches allowed before { before with fates } :=
  ⟨rfl, rfl, rfl, fun _ _ => rfl, fun _ => Or.inl, fewer⟩

theorem confined_attempt (error : InstallError) : Confined allowed (attempt error) := by
  intro before
  refine Exec.ensures_bind.mpr (ensures_nextFate fun fate fates fewer _ => ?_)
  cases fate with
  | done => exact touches_fates fewer
  | garbled => exact touches_fates fewer
  | fail => exact touches_fates fewer
  | cut => exact touches_fates fewer

theorem confined_eraseMtd {store : Store} (permitted : ∃ data, allowed ⟨store, data⟩) :
    Confined allowed (eraseMtd store) := by
  intro before
  refine Exec.ensures_bind.mpr (ensures_nextFate fun fate fates fewer _ => ?_)
  have erased (left : Text) :
      Touches allowed before (World.setContents { before with fates } store left) :=
    (touches_fates fewer).trans (touches_setContents permitted)
  cases fate with
  | done => exact erased []
  | garbled left => exact erased left
  | fail left => exact erased left
  | cut left => exact erased left

variable (host : Host)

theorem touches_started {world : World} {store : Store} {data : Text}
    (permitted : allowed ⟨store, data⟩) :
    Touches allowed world { world with writes := world.writes ++ [⟨store, data⟩] } where
  os := rfl
  cmdline := rfl
  hnvram := rfl
  contents _ _ := rfl
  writes write member := by
    rcases List.mem_append.mp member with earlier | now
    · exact Or.inl earlier
    · rw [List.mem_singleton.mp now]
      exact Or.inr permitted
  fates _ := id

theorem confined_writeToFile {data : Text} {store : Store} (permitted : allowed ⟨store, data⟩) :
    Confined allowed (writeToFile host data store) := by
  intro before
  refine Exec.ensures_bind.mpr ?_
  refine Exec.ensures_bind.mpr (ensures_nextFate fun fate fates fewer _ => ?_)
  have written (left : Text) : Touches allowed before
      (World.setContents { before with writes := before.writes ++ [⟨store, data⟩], fates }
        store left) :=
    ((touches_started permitted).trans (touches_fates fewer)).trans
      (touches_setContents ⟨data, permitted⟩)
  cases fate with
  | done => exact written _
  | garbled left => exact written left
  | fail left => exact written left
  | cut left => exact written left

theorem confined_matchesHash (store : Store) (size : Nat) (sha1 : Text) :
    Confined allowed (matchesHash host store size sha1) := by
  refine confined_bind (confined_attempt _) fun _ => confined_bind confined_get fun world => ?_
  split
  · exact confined_stop
  · exact confined_pure _

theorem confined_isIdentical (data : Text) (store : Store) :
    Confined allowed (isIdentical data store) := by
  refine confined_bind (confined_attempt _) fun _ => confined_bind confined_get fun world => ?_
  split
  · exact confined_raise _
  · split
    · exact confined_raise _
    · exact confined_pure _

variable {file : FileWithSecureHash}

theorem confined_copyAndVerify {store : Store} (permitted : allowed ⟨store, file.rest⟩) :
    Confined allowed (copyAndVerify host file store) := by
  refine confined_bind (confined_writeToFile host permitted) fun (written, writtenSha) => ?_
  dsimp only
  split
  · exact confined_raise _
  · refine confined_bind (confined_matchesHash host _ _ _) fun identical => ?_
    split
    · exact confined_pure _
    · exact confined_raise _

theorem confined_unlockMtd : Confined allowed (unlockMtd host) := by
  rw [unlockMtd]
  split
  · exact confined_attempt _
  · exact confined_pure ()

theorem confined_installToMtd {store : Store} (permitted : allowed ⟨store, file.rest⟩) :
    Confined allowed (installToMtd host file store) := by
  refine confined_bind (confined_unlockMtd host) fun _ => ?_
  refine confined_bind (confined_eraseMtd ⟨_, permitted⟩) fun erased => ?_
  split
  · split
    · exact confined_bind (confined_copyAndVerify host permitted) fun _ =>
        confined_bind (confined_attempt _) fun _ => confined_pure _
    · exact confined_copyAndVerify host permitted
  · exact confined_raise _

theorem confined_ubiformat {store : Store} (permitted : ∃ data, allowed ⟨store, data⟩) :
    Confined allowed (ubiformat store) := by
  refine confined_bind (confined_eraseMtd permitted) fun erased => ?_
  split
  · exact confined_pure ()
  · exact confined_raise _

theorem confined_ubirename {name : Text} (permitted : ∃ data, allowed ⟨.mtd name, data⟩) :
    Confined allowed (ubirename name) :=
  confined_bind (confined_attempt _) fun _ _ => touches_setContents permitted

theorem confined_installRawFileToUbi {name : Text} (permitted : allowed ⟨.mtd name, file.rest⟩)
    (prepared : allowed ⟨.volume name, file.rest⟩) :
    Confined allowed (installRawFileToUbi host file name) := by
  refine confined_bind (confined_attempt _) fun _ => ?_
  refine confined_bind (confined_ubiformat ⟨_, permitted⟩) fun _ => ?_
  refine confined_bind (confined_attempt _) fun _ => ?_
  refine confined_finally ?_ (confined_pure ())
  refine confined_bind (confined_attempt _) fun _ => ?_
  refine confined_bind (confined_installToMtd host prepared) fun size => ?_
  exact confined_bind (confined_ubirename ⟨_, permitted⟩) fun _ => confined_pure size

end Operations

section Images

/-- The images that are installed on a partition. -/
inductive Part where
  | kernel
  | rootfs
  | boot
  | system
deriving DecidableEq, Repr

def Part.os : Part → Os
  | .kernel | .rootfs => .fiberos
  | .boot | .system => .android

def Part.name : Part → Partition → Text
  | .kernel => kernelName
  | .rootfs => rootfsName
  | .boot => androidBootName
  | .system => androidSystemName

theorem Part.name_injective {part other : Part} {partition side : Partition}
    (same : part.name partition = other.name side) : part = other ∧ partition = side := by
  cases part <;> cases other <;> cases partition <;> cases side <;>
    first
      | exact ⟨rfl, rfl⟩
      | exact absurd same (by decide)

variable (host : Host)

def installPart (part : Part) (file : FileWithSecureHash) (partition : Partition) :
    Installer Unit :=
  match part with
  | .kernel => installKernel host file partition
  | .rootfs => installRootfs host file partition
  | .boot => installAndroidBoot host file partition
  | .system => installAndroidSystem host file partition

/-- The name under which a store is found. -/
def Store.label : Store → Option Text
  | .mtd name | .volume name | .gpt name | .harddisk name => some name
  | .emmcBoot _ => none

/-- A write of a file to a store of a name. -/
def LabelledWrite (name data : Text) (write : Write) : Prop :=
  write.store.label = some name ∧ write.data = data

variable {file : FileWithSecureHash}

theorem confined_installToGpt (name : Text) :
    Confined (LabelledWrite name file.rest) (installToGpt host file name) := by
  rw [installToGpt]
  split
  · exact confined_discard (confined_copyAndVerify host ⟨rfl, rfl⟩)
  · exact confined_raise _

theorem confined_installRootfsToMtd (name : Text) :
    Confined (LabelledWrite name file.rest) (installRootfsToMtd host file name) := by
  rw [installRootfsToMtd]
  split
  · exact confined_discard (confined_installToMtd host ⟨rfl, rfl⟩)
  · exact confined_discard (confined_installRawFileToUbi host ⟨rfl, rfl⟩ ⟨rfl, rfl⟩)

theorem confined_installPart (part : Part) (partition : Partition) :
    Confined (LabelledWrite (part.name partition) file.rest)
      (installPart host part file partition) := by
  cases part with
  | kernel =>
      rw [installPart, installKernel]
      split
      · exact confined_discard (confined_installToMtd host ⟨rfl, rfl⟩)
      · split
        · exact confined_discard (confined_copyAndVerify host ⟨rfl, rfl⟩)
        · exact confined_raise _
  | rootfs =>
      rw [installPart, installRootfs]
      split
      · split
        · split
          · exact confined_discard (confined_copyAndVerify host ⟨rfl, rfl⟩)
          · split
            · exact confined_installRootfsToMtd host _
            · exact confined_raise _
        · split
          · exact confined_installRootfsToMtd host _
          · exact confined_raise _
      · split
        · exact confined_installRootfsToMtd host _
        · split
          · exact confined_discard (confined_copyAndVerify host ⟨rfl, rfl⟩)
          · exact confined_raise _
  | boot => exact confined_installToGpt host _
  | system => exact confined_installToGpt host _

end Images

section Completion

/-- The operation is not one that only seems to be done. -/
def Fate.Honest (fate : Fate) : Prop :=
  ∀ left, fate ≠ .garbled left

/-- A store that has been read back is as it was written: SHA-1 tells any two files apart,
or no operation to come only seems to be done. -/
def Trusted (host : Host) (world : World) : Prop :=
  Function.Injective host.sha1 ∨ ∀ fate ∈ world.fates, fate.Honest

theorem Trusted.later {host : Host} {allowed : Write → Prop} {before after : World}
    (trusted : Trusted host before) (touched : Touches allowed before after) :
    Trusted host after :=
  trusted.imp_right fun honest fate member => honest fate (touched.fates fate member)

variable (host : Host)

/-- The file has the hash that it has to have, and the store begins with it. -/
structure Installed (file : FileWithSecureHash) (store : Store) (before after : World) : Prop where
  hash : file.hashDiffers (host.sha1 file.rest) = false
  holds : Trusted host before → file.rest <+: after.device.contents store

/-- The file is in the store when the program returns. -/
def Installs {Value : Type} (file : FileWithSecureHash) (store : Store)
    (program : Installer Value) : Prop :=
  ∀ before, Ensures program (fun _ => Installed host file store before) (fun _ => True) before

theorem ensures_attempt (error : InstallError) (before : World) :
    Ensures (attempt error) (fun _ after => after.device = before.device) (fun _ => True) before := by
  refine Exec.ensures_bind.mpr (ensures_nextFate fun fate fates _ _ => ?_)
  cases fate with
  | done => rfl
  | garbled => rfl
  | fail => trivial
  | cut => trivial

theorem contents_setContents (world : World) (store : Store) (data : Text) :
    (world.setContents store data).device.contents store = data :=
  if_pos rfl

theorem ensures_writeToFile (data : Text) (store : Store) (before : World) :
    Ensures (writeToFile host data store)
      (fun result after => result = (data.length, host.sha1 data) ∧
        ((∀ fate ∈ before.fates, fate.Honest) → data <+: after.device.contents store))
      (fun _ => True) before := by
  refine Exec.ensures_bind.mpr ?_
  refine Exec.ensures_bind.mpr (ensures_nextFate fun fate fates _ drawn => ?_)
  cases fate with
  | done =>
      refine ⟨rfl, fun _ => ?_⟩
      rw [contents_setContents, padded, List.append_assoc]
      exact List.prefix_append _ _
  | garbled left =>
      refine ⟨rfl, fun honest => ?_⟩
      rcases drawn with done | listed
      · cases done
      · exact absurd rfl (honest _ listed left)
  | fail => trivial
  | cut => trivial

theorem ensures_matchesHash (store : Store) (size : Nat) (sha1 : Text) (before : World) :
    Ensures (matchesHash host store size sha1)
      (fun same after => after.device = before.device ∧
        same = decide (host.sha1 ((before.device.contents store).take size) = sha1))
      (fun _ => True) before := by
  refine Exec.ensures_then (ensures_attempt _ before) fun _ between kept => ?_
  refine Exec.ensures_bind.mpr ?_
  rw [Exec.ensures_get]
  split
  · trivial
  · rw [Exec.ensures_pure, kept]
    exact ⟨rfl, rfl⟩

theorem installs_copyAndVerify (file : FileWithSecureHash) (store : Store) :
    Installs host file store (copyAndVerify host file store) := by
  intro before
  refine Exec.ensures_then (ensures_writeToFile host file.rest store before) ?_
  rintro result written ⟨rfl, honest⟩
  dsimp only
  split
  case isTrue => trivial
  case isFalse accepted =>
    refine Exec.ensures_then (ensures_matchesHash host store _ _ written) ?_
    rintro same after ⟨kept, rfl⟩
    split
    case isTrue verified =>
      refine ⟨Bool.eq_false_iff.mpr accepted, fun trusted => ?_⟩
      rw [kept]
      rcases trusted with injective | fates
      · have taken := injective (of_decide_eq_true verified)
        exact List.prefix_iff_eq_take.mpr taken.symm
      · exact honest fates
    case isFalse => trivial

variable {host}
variable {Value Other : Type} {file : FileWithSecureHash} {store : Store} (allowed : Write → Prop)

/-- What comes first does not matter to what is installed. -/
theorem installs_after {program : Installer Value} {next : Value → Installer Other}
    (first : Confined allowed program) (second : ∀ value, Installs host file store (next value)) :
    Installs host file store (program >>= next) := by
  intro before
  refine Exec.ensures_bind.mpr (Exec.ensures_mono (first before) ?_ fun _ _ => trivial)
  intro value between touched
  refine Exec.ensures_mono (second value between) ?_ fun _ => id
  exact fun _ after installed => ⟨installed.hash, fun trusted => installed.holds (trusted.later touched)⟩

/-- Nor does what comes later, as long as it leaves the store alone. -/
theorem installs_then {program : Installer Value} {next : Value → Installer Other}
    (first : Installs host file store program) (second : ∀ value, Confined allowed (next value))
    (kept : ∀ data, ¬allowed ⟨store, data⟩) : Installs host file store (program >>= next) := by
  intro before
  refine Exec.ensures_bind.mpr (Exec.ensures_mono (first before) ?_ fun _ => id)
  intro value between installed
  refine Exec.ensures_mono (second value between) ?_ fun _ _ => trivial
  intro _ after touched
  refine ⟨installed.hash, fun trusted => ?_⟩
  rw [touched.contents store kept]
  exact installed.holds trusted

theorem installs_raise (error : InstallError) :
    Installs host file store (.raise error : Installer Value) :=
  fun _ => trivial

/-- Nothing may be written. -/
def NoWrite (_ : Write) : Prop :=
  False

def AnyWrite (_ : Write) : Prop :=
  True

theorem installs_discard {program : Installer Value} (installs : Installs host file store program) :
    Installs host file store (discard program) :=
  installs_then NoWrite installs (fun _ => confined_pure ()) fun _ => id

variable (host)

theorem installs_installToMtd (file : FileWithSecureHash) (store : Store) :
    Installs host file store (installToMtd host file store) := by
  refine installs_after AnyWrite (confined_unlockMtd host) fun _ => ?_
  refine installs_after AnyWrite (confined_eraseMtd ⟨[], trivial⟩) fun erased => ?_
  split
  · split
    · exact installs_then NoWrite (installs_copyAndVerify host file store)
        (fun _ => confined_bind (confined_attempt _) fun _ => confined_pure _) fun _ => id
    · exact installs_copyAndVerify host file store
  · exact installs_raise _

theorem ensures_ubirename (name : Text) (before : World) :
    Ensures (ubirename name)
      (fun _ after => after.device.contents (.mtd name) = before.device.contents (.volume name))
      (fun _ => True) before := by
  refine Exec.ensures_then (ensures_attempt _ before) fun _ between kept => ?_
  rw [Exec.ensures_modify, contents_setContents, kept]

/-- The file is in the volume before the volume gets its name. -/
theorem installs_installRawFileToUbi (file : FileWithSecureHash) (name : Text) :
    Installs host file (.mtd name) (installRawFileToUbi host file name) := by
  refine installs_after AnyWrite (confined_attempt _) fun _ => ?_
  refine installs_after AnyWrite (confined_ubiformat ⟨[], trivial⟩) fun _ => ?_
  refine installs_after AnyWrite (confined_attempt _) fun _ before => ?_
  refine Exec.ensures_finally ?_ (fun _ _ => id) (fun _ _ => trivial) fun _ => id
  refine installs_after AnyWrite (confined_attempt _) (fun _ before => ?_) before
  have volume := installs_installToMtd host file (.volume name) before
  refine Exec.ensures_then volume fun size between installed => ?_
  refine Exec.ensures_then (ensures_ubirename name between) fun _ after renamed => ?_
  refine ⟨installed.hash, fun trusted => ?_⟩
  rw [renamed]
  exact installed.holds trusted

def flashStore (name : Text) : Option Store :=
  if name ∈ host.mtd then some (.mtd name) else none

def emmcStore (name : Text) : Option Store :=
  if name ∈ host.mmcblk0 then some (.gpt name) else none

def rootfsStore (name : Text) : Option Store :=
  if host.is "GFSC" then
    match host.harddisk with
    | some names => if name ∈ names then some (.harddisk name) else flashStore host name
    | none => flashStore host name
  else (flashStore host name).or (emmcStore host name)

/-- The store on which a part of an image is installed. -/
def partStore (part : Part) (partition : Partition) : Option Store :=
  match part with
  | .kernel => (flashStore host (kernelName partition)).or (emmcStore host (kernelName partition))
  | .rootfs => rootfsStore host (rootfsName partition)
  | .boot => emmcStore host (androidBootName partition)
  | .system => emmcStore host (androidSystemName partition)

/-- The program returns only with the file in the store that is there for it. -/
def InstallsIn {Value : Type} (found : Option Store) (file : FileWithSecureHash)
    (program : Installer Value) : Prop :=
  ∀ before, Ensures program
    (fun _ after => ∃ store, found = some store ∧ Installed host file store before after)
    (fun _ => True) before

variable {host} in
theorem Installs.found {Value : Type} {file : FileWithSecureHash} {store : Store}
    {program : Installer Value} (installs : Installs host file store program) :
    InstallsIn host (some store) file program := fun before =>
  Exec.ensures_mono (installs before) (fun _ _ installed => ⟨store, rfl, installed⟩) fun _ => id

theorem installsIn_raise {Value : Type} (found : Option Store) (file : FileWithSecureHash)
    (error : InstallError) : InstallsIn host found file (.raise error : Installer Value) :=
  fun _ => trivial

theorem installsIn_rootfsToMtd (file : FileWithSecureHash) (name : Text) :
    InstallsIn host (some (.mtd name)) file (installRootfsToMtd host file name) := by
  rw [installRootfsToMtd]
  split
  · exact (installs_discard (installs_installToMtd host file (.mtd name))).found
  · exact (installs_discard (installs_installRawFileToUbi host file name)).found

theorem installsIn_installToGpt (file : FileWithSecureHash) (name : Text) :
    InstallsIn host (emmcStore host name) file (installToGpt host file name) := by
  rw [installToGpt, emmcStore]
  split
  · exact (installs_discard (installs_copyAndVerify host file (.gpt name))).found
  · exact installsIn_raise host none file _

theorem installsIn_flashOr (file : FileWithSecureHash) {name : Text} {program other : Installer Unit}
    {found : Option Store} (flash : InstallsIn host (some (.mtd name)) file program)
    (elsewhere : InstallsIn host found file other) :
    InstallsIn host ((flashStore host name).or found) file
      (if name ∈ host.mtd then program else other) := by
  rw [flashStore]
  split
  · exact flash
  · exact elsewhere

theorem installsIn_installRootfs (file : FileWithSecureHash) (partition : Partition) :
    InstallsIn host (rootfsStore host (rootfsName partition)) file
      (installRootfs host file partition) := by
  have mtd := installsIn_rootfsToMtd host file (rootfsName partition)
  have flash (error : InstallError) : InstallsIn host (flashStore host (rootfsName partition)) file
      (if rootfsName partition ∈ host.mtd then
        installRootfsToMtd host file (rootfsName partition) else .raise error) := by
    have either := installsIn_flashOr host file mtd (installsIn_raise host none file error)
    rwa [Option.or_none] at either
  rw [installRootfs, rootfsStore]
  split
  · cases host.harddisk with
    | some names =>
        dsimp only
        split
        · exact (installs_discard (installs_copyAndVerify host file _)).found
        · exact flash _
    | none => exact flash _
  · exact installsIn_flashOr host file mtd (installsIn_installToGpt host file _)

/-- A part is installed on its store, if there is one. -/
theorem installsIn_installPart (part : Part) (partition : Partition) (file : FileWithSecureHash) :
    InstallsIn host (partStore host part partition) file (installPart host part file partition) := by
  cases part with
  | kernel =>
      have flash := installs_discard (installs_installToMtd host file (.mtd (kernelName partition)))
      exact installsIn_flashOr host file flash.found (installsIn_installToGpt host file _)
  | rootfs => exact installsIn_installRootfs host file partition
  | boot => exact installsIn_installToGpt host file (androidBootName partition)
  | system => exact installsIn_installToGpt host file (androidSystemName partition)

end Completion

section Activation

/-- Nothing but the variables has changed, and they only to name the partition and its OS. -/
structure Switched (targetOs : Os) (partition : Partition) (before after : World) : Prop where
  os : after.device.os = before.device.os
  cmdline : after.device.cmdline = before.device.cmdline
  contents : after.device.contents = before.device.contents
  writes : after.writes = before.writes
  hnvram : ∀ name, after.device.hnvram name = before.device.hnvram name ∨
    name = targetOs.activeVariable ∧
      after.device.hnvram name = some (bootName targetOs partition) ∨
    name = .bootTarget ∧
      after.device.hnvram targetOs.activeVariable = some (bootName targetOs partition) ∧
      after.device.hnvram name = some targetOs.name

theorem hnvram_setHnvram (world : World) (name : HnvramVariable) (value : Text) :
    (world.setHnvram name value).device.hnvram name = some value :=
  if_pos rfl

theorem hnvram_setHnvram_other (world : World) {name other : HnvramVariable}
    (different : other ≠ name) (value : Text) :
    (world.setHnvram name value).device.hnvram other = world.device.hnvram other :=
  if_neg different

theorem ensures_hnvramWrite (name : HnvramVariable) (value : Text) (before : World) :
    Ensures (hnvramWrite name value)
      (fun set after => ∃ fates, after =
        if set then World.setHnvram { before with fates } name value else { before with fates })
      (fun after => ∃ fates, after = { before with fates }) before := by
  refine Exec.ensures_bind.mpr (ensures_nextFate fun fate fates _ _ => ?_)
  cases fate with
  | done => exact ⟨fates, rfl⟩
  | garbled => exact ⟨fates, rfl⟩
  | fail => exact ⟨fates, rfl⟩
  | cut => exact ⟨fates, rfl⟩

theorem activeVariable_ne (os : Os) : HnvramVariable.bootTarget ≠ os.activeVariable := by
  cases os with
  | fiberos => decide
  | android => decide

/-- The partition is named when the variables are said to be set. -/
theorem ensures_setBootPartition (targetOs : Os) (partition : Partition) (before : World) :
    Ensures (setBootPartition targetOs partition)
      (fun set after => Switched targetOs partition before after ∧
        (set → after.device.hnvram targetOs.activeVariable = some (bootName targetOs partition)))
      (Switched targetOs partition before) before := by
  have unchanged (fates : List Fate) : Switched targetOs partition before { before with fates } :=
    ⟨rfl, rfl, rfl, rfl, fun _ => Or.inl rfl⟩
  refine Exec.ensures_bind.mpr (Exec.ensures_mono (ensures_hnvramWrite _ _ before) ?_ ?_)
  · rintro set after ⟨fates, rfl⟩
    cases set with
    | false => exact ⟨unchanged fates, fun set => absurd set Bool.false_ne_true⟩
    | true =>
        let active := World.setHnvram { before with fates } targetOs.activeVariable
          (bootName targetOs partition)
        have named : active.device.hnvram targetOs.activeVariable =
            some (bootName targetOs partition) := hnvram_setHnvram _ _ _
        have activated : Switched targetOs partition before active := by
          refine ⟨rfl, rfl, rfl, rfl, fun name => ?_⟩
          by_cases same : name = targetOs.activeVariable
          · exact Or.inr (Or.inl ⟨same, same ▸ named⟩)
          · exact Or.inl (hnvram_setHnvram_other _ same _)
        have fewer (fates : List Fate) :
            Switched targetOs partition before { active with fates } :=
          ⟨rfl, rfl, rfl, rfl, activated.hnvram⟩
        change Ensures (if targetOs ≠ before.device.os then hnvramWrite .bootTarget targetOs.name
          else pure true) _ _ active
        split
        · refine Exec.ensures_mono (ensures_hnvramWrite .bootTarget targetOs.name active) ?_ ?_
          · rintro set after ⟨fates, rfl⟩
            cases set with
            | false => exact ⟨fewer fates, fun _ => named⟩
            | true =>
                have kept {name : HnvramVariable} (other : name ≠ .bootTarget) :=
                  hnvram_setHnvram_other { active with fates } other targetOs.name
                have still := (kept (activeVariable_ne targetOs).symm).trans named
                refine ⟨⟨rfl, rfl, rfl, rfl, fun name => ?_⟩, fun _ => still⟩
                by_cases target : name = .bootTarget
                · rw [target]
                  exact Or.inr (Or.inr ⟨rfl, still, hnvram_setHnvram _ _ _⟩)
                · rw [if_pos rfl, kept target]
                  exact (activated.hnvram name).imp_right fun changed => changed.imp_right
                    fun set => absurd set.1 target
          · rintro after ⟨fates, rfl⟩
            exact fewer fates
        · exact ⟨activated, fun _ => named⟩
  · rintro after ⟨fates, rfl⟩
    exact unchanged fates

end Activation

section Image

variable {host : Host} {opt : Options} {tar : List Entry} {start : World}

/-- An image whose manifest is accepted is installed for the partition. -/
theorem installImage_accepted {manifest : Manifest} {partition : Partition}
    (read : readManifest tar = .ok manifest) (checked : checkManifest host manifest = .ok ())
    (found : getPartition start.device opt.partitionName (getOsFromManifest manifest) =
      .ok partition) :
    installImage host opt tar start = installAccepted host manifest opt partition tar start := by
  rw [installImage, read, Exec.ok_bind, checked, Exec.ok_bind, Exec.get_bind, found, Exec.ok_bind]

/-- An image is installed from its manifest and for a partition, or nothing is done. -/
theorem ensures_installImage {returns : Nat → World → Prop} {breaks : World → Prop}
    (refused : breaks start)
    (accepted : ∀ manifest partition, readManifest tar = .ok manifest →
      checkManifest host manifest = .ok () →
      getPartition start.device opt.partitionName (getOsFromManifest manifest) = .ok partition →
      Ensures (installAccepted host manifest opt partition tar) returns breaks start) :
    Ensures (installImage host opt tar) returns breaks start := by
  have manifests : Ensures (Exec.ofExcept (readManifest tar))
      (fun manifest after => start = after ∧ readManifest tar = .ok manifest) breaks start :=
    Exec.ensures_ofExcept (fun _ read => ⟨rfl, read⟩) refused
  refine Exec.ensures_then manifests ?_
  rintro manifest _ ⟨rfl, read⟩
  have checks : Ensures (Exec.ofExcept (checkManifest host manifest))
      (fun _ after => start = after ∧ checkManifest host manifest = .ok ()) breaks start :=
    Exec.ensures_ofExcept (fun _ passed => ⟨rfl, passed⟩) refused
  refine Exec.ensures_then checks ?_
  rintro _ _ ⟨rfl, passed⟩
  refine Exec.ensures_bind.mpr ?_
  rw [Exec.ensures_get]
  have chosen : Ensures (Exec.ofExcept
      (getPartition start.device opt.partitionName (getOsFromManifest manifest)))
      (fun partition after => start = after ∧
        getPartition start.device opt.partitionName (getOsFromManifest manifest) = .ok partition)
      breaks start :=
    Exec.ensures_ofExcept (fun _ found => ⟨rfl, found⟩) refused
  refine Exec.ensures_then chosen ?_
  rintro partition _ ⟨rfl, found⟩
  exact accepted manifest partition read passed found

end Image

end Gfiber.Ginstall
