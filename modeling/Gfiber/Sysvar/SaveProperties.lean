import Gfiber.Lib.Run
import Gfiber.Sysvar.CodecProperties
import Gfiber.Sysvar.LoadProperties
import Gfiber.Sysvar.Store

/-! Whether a process that saves again after failed saves ever erases its last
valid partition. The order of the erases comes from flags set by the load, and
no save updates them. -/

set_option autoImplicit false

namespace Gfiber.Sysvar

open Lib

def AnyPasses (flash : Partitions) : Prop :=
  ∃ side, (flash side).Passes

/-- An erase finds a valid image in the other partition, and a partition
passes before and after the operation. -/
structure Access.Safe (access : Access) : Prop where
  guarded : access.operation = .erase → (access.before access.side.other).Passes
  before : AnyPasses access.before
  after : AnyPasses access.after

structure Medium.Safe (medium : Medium) : Prop where
  now : AnyPasses medium.flash
  logged : ∀ access ∈ medium.log, access.Safe

/-- An operation that fails leaves no valid image. -/
def Outcome.Damages : Outcome → Prop
  | .done => True
  | .failed left => ¬left.Passes
  | .lost _ => False

def FlashIo.Damages (io : FlashIo) : Prop :=
  ∀ side, (io.erase side).Damages ∧ (io.write side).Damages

section Perform

variable {medium : Medium} {operation : Operation} {side : Side} {block : Block}

@[simp] theorem flash_perform_other :
    (medium.perform operation side block).flash side.other = medium.flash side.other :=
  Function.update_of_ne (Side.other_ne side) _ _

@[simp] theorem flash_perform_same : (medium.perform operation side block).flash side = block :=
  Function.update_self _ _ _

theorem Medium.Safe.perform (safe : medium.Safe) (guarded : (medium.flash side.other).Passes) :
    (medium.perform operation side block).Safe := by
  have after : AnyPasses (medium.perform operation side block).flash :=
    ⟨side.other, flash_perform_other.symm ▸ guarded⟩
  refine ⟨after, fun access member => ?_⟩
  rcases List.mem_append.mp member with earlier | last
  · exact safe.logged access earlier
  · rw [List.mem_singleton.mp last]
    exact ⟨fun _ => guarded, safe.now, after⟩

theorem Medium.Safe.of_perform (safe : (medium.perform operation side block).Safe) :
    medium.Safe := by
  have last := safe.logged _ (List.mem_append_right _ (List.mem_singleton_self _))
  exact ⟨last.before, fun access member => safe.logged access (List.mem_append_left _ member)⟩

theorem Medium.Safe.guarded_of_erase (safe : (medium.perform .erase side block).Safe) :
    (medium.flash side.other).Passes :=
  (safe.logged _ (List.mem_append_right _ (List.mem_singleton_self _))).guarded rfl

end Perform

section Rewrite

variable {io : FlashIo} {side : Side} {data : Block} {medium : Medium}

theorem rewrite_medium (io : FlashIo) (side : Side) (data : Block) (medium : Medium) :
    (∃ block, (rewrite io side data medium).1 = medium.perform .erase side block) ∨
      ∃ block written, (rewrite io side data medium).1 =
        (medium.perform .erase side block).perform .write side written := by
  unfold rewrite
  cases erasing : io.erase side with
  | failed left => exact .inl ⟨_, rfl⟩
  | lost cut => exact .inl ⟨_, rfl⟩
  | done =>
      cases writing : io.write side with
      | failed left => exact .inr ⟨_, _, rfl⟩
      | lost cut => exact .inr ⟨_, _, rfl⟩
      | done => exact .inr ⟨_, _, rfl⟩

@[simp] theorem flash_rewrite_other :
    (rewrite io side data medium).1.flash side.other = medium.flash side.other := by
  rcases rewrite_medium io side data medium with ⟨block, same⟩ | ⟨block, written, same⟩
  · rw [same, flash_perform_other]
  · rw [same, flash_perform_other, flash_perform_other]

theorem safe_rewrite_iff :
    (rewrite io side data medium).1.Safe ↔
      medium.Safe ∧ (medium.flash side.other).Passes := by
  rcases rewrite_medium io side data medium with ⟨block, same⟩ | ⟨block, written, same⟩
  · rw [same]
    exact ⟨fun safe => ⟨safe.of_perform, safe.guarded_of_erase⟩, fun ⟨safe, guarded⟩ =>
      safe.perform guarded⟩
  · rw [same]
    refine ⟨fun safe => ⟨safe.of_perform.of_perform, safe.of_perform.guarded_of_erase⟩,
      fun ⟨safe, guarded⟩ => (safe.perform guarded).perform ?_⟩
    rwa [flash_perform_other]

theorem rewrite_damages (damages : io.Damages) (stops : ¬io.Repairs side) :
    ¬((rewrite io side data medium).1.flash side).Passes := by
  obtain ⟨erase, write⟩ := damages side
  unfold rewrite
  cases erasing : io.erase side with
  | failed left =>
      rw [erasing] at erase
      simp only [Outcome.leaves, flash_perform_same]
      exact erase
  | lost cut =>
      rw [erasing] at erase
      exact erase.elim
  | done =>
      cases writing : io.write side with
      | done => exact absurd ⟨erasing, writing⟩ stops
      | failed left =>
          rw [writing] at write
          simp only [Outcome.leaves, flash_perform_same]
          exact write
      | lost cut =>
          rw [writing] at write
          exact write.elim

end Rewrite

section SaveSides

variable {io : FlashIo} {side : Side} {data : Block} {medium : Medium}

theorem saveSides_repaired {rest : List Side} (repairs : io.Repairs side) :
    saveSides io (side :: rest) data medium =
      saveSides io rest data.setWc32 (rewrite io side data medium).1 := by
  rw [saveSides, rewrite_done data medium repairs]

theorem medium_saveSides_stopped {rest : List Side} (stops : ¬io.Repairs side) :
    (saveSides io (side :: rest) data medium).1 = (rewrite io side data medium).1 := by
  obtain ⟨after, left, ended, result, unfinished, -⟩ := rewrite_stopped data medium stops
  rw [saveSides, result]
  cases ended with
  | done => exact absurd rfl unfinished
  | eraseFailed | writeFailed | lost => rfl

theorem medium_saveSides_last :
    (saveSides io [side] data medium).1 = (rewrite io side data medium).1 := by
  by_cases repairs : io.Repairs side
  · rw [saveSides_repaired repairs]
    rfl
  · exact medium_saveSides_stopped repairs

theorem saveSides_returns (uncut : io.Uncut) (sides : List Side) (data : Block) (medium : Medium) :
    ∃ code : ErrorCode, (saveSides io sides data medium).2.2 = .returned code := by
  induction sides generalizing data medium with
  | nil => exact ⟨.success, rfl⟩
  | cons side rest ih =>
      by_cases repairs : io.Repairs side
      · rw [saveSides_repaired repairs]
        exact ih _ _
      · obtain ⟨after, left, ended, result, unfinished, kept⟩ :=
          rewrite_stopped data medium repairs
        rw [saveSides, result]
        cases ended with
        | done => exact absurd rfl unfinished
        | lost => exact absurd rfl (kept uncut)
        | eraseFailed => exact ⟨.eraseErr, rfl⟩
        | writeFailed => exact ⟨.writeErr, rfl⟩

theorem passes_rewrite (repairs : io.Repairs side) (passes : data.Passes) :
    ((rewrite io side data medium).1.flash side).Passes := by
  rw [rewrite_done data medium repairs, flash_perform_same, Block.passes_setWc32]
  exact passes

theorem safe_saveSides_iff (passes : data.Passes) :
    (saveSides io [side, side.other] data medium).1.Safe ↔
      medium.Safe ∧ (medium.flash side.other).Passes := by
  by_cases repairs : io.Repairs side
  · rw [saveSides_repaired repairs, medium_saveSides_last, safe_rewrite_iff, safe_rewrite_iff,
      Side.other_other]
    exact and_iff_left (passes_rewrite repairs passes)
  · rw [medium_saveSides_stopped repairs, safe_rewrite_iff]

theorem passes_saveSides_iff (passes : data.Passes) (damages : io.Damages)
    (guarded : (medium.flash side.other).Passes) :
    ((saveSides io [side, side.other] data medium).1.flash side.other).Passes ↔
      ¬(io.Repairs side ∧ ¬io.Repairs side.other) := by
  by_cases repairs : io.Repairs side
  · rw [saveSides_repaired repairs, medium_saveSides_last]
    by_cases second : io.Repairs side.other
    · exact iff_of_true (passes_rewrite second ((Block.passes_setWc32 data).mpr passes))
        fun spoiled => spoiled.2 second
    · exact iff_of_false (rewrite_damages damages second) fun kept => kept ⟨repairs, second⟩
  · rw [medium_saveSides_stopped repairs, flash_rewrite_other]
    exact iff_of_true guarded fun spoiled => repairs spoiled.1

end SaveSides

def Store.reachesFlash (store : Store) : Bool :=
  match store.rwBuf.saveVar with
  | .ok (_, code) => code = .success && checkMtd store.devices = .success
  | .error _ => false

def Store.first (store : Store) : Side :=
  firstSide store.rwBuf.failed

/-- `savevar` replaces the first partition and fails at the second one. -/
def Store.spoils (store : Store) (io : FlashIo) : Bool :=
  store.reachesFlash && decide (io.Repairs store.first ∧ ¬io.Repairs store.first.other)

/-- A process after its load, and whether one of its saves failed at the
second partition. -/
structure Process where
  store : Store
  spoiled : Bool

inductive ProcessEvent where
  | set (name value : Option CString)
  | save (io : FlashIo)

inductive ProcessStep : Process → ProcessEvent → Process → Prop where
  | set {process : Process} {name value : Option CString} :
      ProcessStep process (.set name value)
        { process with store := (process.store.setvar name value).1 }
  | save {process : Process} {io : FlashIo} {next : Store} {code : ErrorCode}
      (damages : io.Damages) (result : process.store.savevar io = .ok (next, .returned code)) :
      ProcessStep process (.save io)
        { store := next, spoiled := process.spoiled || process.store.spoils io }

/-- No save comes to the flash after one that failed at its second partition. -/
def SavesUnspoiled (process : Process) : ProcessEvent → Prop
  | .set _ _ => True
  | .save _ => process.store.reachesFlash = true → process.spoiled = false

structure Process.Guarded (process : Process) : Prop where
  safe : process.store.rwFlash.Safe
  guard : (process.store.rwFlash.flash process.store.first.other).Passes ↔ process.spoiled = false

section Steps

theorem savevar_effect {store next : Store} {io : FlashIo} {status : Status}
    (result : store.savevar io = .ok (next, status)) :
    next.first = store.first ∧
      (store.reachesFlash = false ∧ next.rwFlash = store.rwFlash ∨
        store.reachesFlash = true ∧ ∃ saved : SysvarBuf,
          store.rwBuf.saveVar = .ok (saved, .success) ∧
            next.rwFlash =
              (saveSides io [store.first, store.first.other] saved.data store.rwFlash).1) := by
  rcases Store.savevar_cases result with
    ⟨saved, code, saving, failure, rfl, -⟩ | ⟨saved, saving, medium, data, saves, rfl⟩
  · have flags : saved.failed = store.rwBuf.failed := by rw [(saveVar_result saving).1]
    refine ⟨by simp only [Store.first, flags], .inl ⟨?_, rfl⟩⟩
    simp [Store.reachesFlash, saving, failure]
  · have flags : saved.failed = store.rwBuf.failed := by rw [(saveVar_result saving).1]
    refine ⟨by simp only [Store.first, flags], ?_⟩
    by_cases opened : checkMtd store.devices = .success
    · rw [dataSave, if_pos opened] at saves
      exact .inr ⟨by simp [Store.reachesFlash, saving, opened], saved, saving,
        (congrArg Prod.fst saves).symm⟩
    · rw [dataSave, if_neg opened] at saves
      exact .inl ⟨by simp [Store.reachesFlash, saving, opened], (congrArg Prod.fst saves).symm⟩

variable {process next : Process} {event : ProcessEvent}

theorem Process.Guarded.step (guarded : process.Guarded) (allowed : SavesUnspoiled process event)
    (step : ProcessStep process event next) : next.Guarded := by
  cases step with
  | @set name value =>
      obtain ⟨rwBuf, same, flags⟩ := process.store.setvar_frame name value
      refine ⟨?_, ?_⟩
      · simpa only [same] using guarded.safe
      · simpa only [same, Store.first, flags] using guarded.guard
  | @save io store code damages result =>
      obtain ⟨side, ⟨unreached, same⟩ | ⟨reaches, saved, saving, flash⟩⟩ := savevar_effect result
      · refine ⟨?_, ?_⟩
        · simpa only [same] using guarded.safe
        · simpa only [same, side, Store.spoils, unreached, Bool.false_and, Bool.or_false]
            using guarded.guard
      · have unspoiled := allowed reaches
        have passes := (saveVar_result saving).2 rfl
        have guard := guarded.guard.mpr unspoiled
        refine ⟨?_, ?_⟩
        · simpa only [flash] using (safe_saveSides_iff passes).mpr ⟨guarded.safe, guard⟩
        · simpa only [flash, side, Store.spoils, reaches, unspoiled, Bool.true_and, Bool.false_or,
            decide_eq_false_iff_not] using passes_saveSides_iff passes damages guard

theorem Process.Guarded.necessary (guarded : process.Guarded)
    (step : ProcessStep process event next) (safe : next.store.rwFlash.Safe) :
    SavesUnspoiled process event := by
  cases step with
  | set => trivial
  | save damages result =>
      intro reaches
      obtain ⟨-, ⟨unreached, -⟩ | ⟨-, saved, saving, flash⟩⟩ := savevar_effect result
      · rw [reaches] at unreached
        cases unreached
      · have passes := (saveVar_result saving).2 rfl
        exact guarded.guard.mp ((safe_saveSides_iff passes).mp (flash ▸ safe)).2

end Steps

def LoadIo.ReadsFull (io : LoadIo) : Prop :=
  ∀ side, io.first side = .full ∧ io.again side = .full

section Load

variable (devices : Devices) (io : LoadIo) (buf : SysvarBuf) {medium : Medium}

/-- After a load that found a valid partition, the one that a save erases
second passes, whether or not the repair of the other succeeded. -/
theorem dataLoad_guards (opened : checkMtd devices = .success) (reads : io.ReadsFull)
    (safe : medium.Safe) :
    (dataLoad devices io buf medium).2.1.Safe ∧
      ((dataLoad devices io buf medium).2.1.flash
        (firstSide (dataLoad devices io buf medium).1.failed).other).Passes := by
  by_cases clean : io.Clean medium.flash
  · rw [dataLoad_clean buf medium opened clean]
    exact ⟨safe, clean.2.2⟩
  obtain ⟨read, result⟩ := dataLoad_unclean buf medium opened clean
  rw [result, dataRecovery]
  by_cases zero : (medium.flash .zero).Passes
  · have one : ¬io.PassesFirst medium.flash .one :=
      fun passes => clean ⟨⟨(reads .zero).1, zero⟩, passes⟩
    have first : firstSide (fun side => decide (¬io.PassesFirst medium.flash side)) = .one := by
      simp [firstSide, one]
    rw [medium_recoveryLoop_passing ⟨(reads .zero).2, zero⟩, first]
    exact ⟨safe_rewrite_iff.mpr ⟨safe, zero⟩, flash_rewrite_other.symm ▸ zero⟩
  · have one : (medium.flash .one).Passes := by
      obtain ⟨side, passes⟩ := safe.now
      cases side with
      | zero => exact absurd passes zero
      | one => exact passes
    have first : firstSide (fun side => decide (¬io.PassesFirst medium.flash side)) = .zero := by
      simp [firstSide, LoadIo.PassesFirst, (reads .one).1, one]
    rw [recoveryLoop_failing fun passes => zero passes.2,
      medium_recoveryLoop_passing ⟨(reads .one).2, one⟩, first]
    exact ⟨safe_rewrite_iff.mpr ⟨safe, one⟩, flash_rewrite_other.symm ▸ one⟩

theorem dataLoad_untouched (none : ¬AnyPasses medium.flash) :
    (dataLoad devices io buf medium).2.1 = medium := by
  have fails (side : Side) : ¬(medium.flash side).Passes := fun passes => none ⟨side, passes⟩
  by_cases opened : checkMtd devices = .success
  · obtain ⟨read, result⟩ := dataLoad_unclean buf medium opened
      fun clean : io.Clean medium.flash => fails .zero clean.1.2
    rw [result, dataRecovery, recoveryLoop_failing fun passes => fails .zero passes.2,
      recoveryLoop_failing fun passes => fails .one passes.2]
    rfl
  · rw [dataLoad, if_neg opened]

end Load

/-- After a `loadvar` that returned success, no save erases a partition while
the other one is invalid, and some partition is valid at every moment, exactly
when the load found a valid partition and no save comes to the flash after one
that failed at its second partition. -/
theorem saves_guarded_iff {before start : Store} {rwIo roIo : LoadIo} {finish : Process}
    {trace : List (Process × ProcessEvent)} (unlogged : before.rwFlash.log = [])
    (reads : rwIo.ReadsFull)
    (loaded : before.loadvar rwIo roIo = .ok (start, .returned .success))
    (run : Run ProcessStep ⟨start, false⟩ trace finish) :
    Throughout (fun process => process.store.rwFlash.Safe) trace finish ↔
      AnyPasses before.rwFlash.flash ∧ StepsMeet SavesUnspoiled trace := by
  obtain ⟨half, loading, -, -, failure⟩ := Store.loadvar_cases loaded
  have success : half = .returned .success := by
    by_contra other
    exact failure other rfl
  subst success
  rcases loadBuf_cases loading with ⟨read, code, data, loads, -⟩ | ⟨code, -, -, same⟩ | ⟨-, same⟩
  rotate_left
  · cases same
  · cases same
  have flags := failed_loadVar loads
  have opened : checkMtd before.devices = .success := by
    by_contra closed
    simp [dataLoad, closed] at data
  by_cases some : AnyPasses before.rwFlash.flash
  · have safe : before.rwFlash.Safe := ⟨some, by simp [unlogged]⟩
    have guards := dataLoad_guards before.devices rwIo before.rwBuf opened reads safe
    rw [data] at guards
    have initial : Process.Guarded ⟨start, false⟩ :=
      ⟨guards.1, by simpa [Store.first, flags] using guards.2⟩
    have exactly := run.throughout_iff_met initial Process.Guarded.safe
      (fun guarded allowed step => guarded.step allowed step) Process.Guarded.necessary
    exact exactly.trans (and_iff_right some).symm
  · have same := dataLoad_untouched before.devices rwIo before.rwBuf some
    rw [data] at same
    refine iff_of_false (fun whole => some ?_) fun found => some found.1
    have now := (run.throughout_start whole).now
    rwa [show start.rwFlash = before.rwFlash from same] at now

section SaveRuns

def blankImage : Block :=
  Block.erased.setCrc32

def blankMedium : Medium :=
  ⟨fun _ => blankImage, []⟩

def blankStore : Store :=
  .opened blankMedium blankMedium .erased .erased

def failingWrite (side : Side) : FlashIo where
  erase := fun _ => .done
  write := fun other => if other = side then .failed .erased else .done

def calmIo : FlashIo :=
  ⟨fun _ => .done, fun _ => .done⟩

theorem loadBuf_blank (buf : SysvarBuf) : ∃ loaded : SysvarBuf,
    loadBuf allOpen (repairIo .done) buf blankMedium =
        .ok (loaded, blankMedium, .returned .success) ∧
      loaded.list = [] ∧ loaded.failed = fun _ => false := by
  have passes : blankImage.Passes := Block.passes_setCrc32 _
  have clean : (repairIo .done).Clean blankMedium.flash := ⟨⟨rfl, passes⟩, ⟨rfl, passes⟩⟩
  have loading := dataLoad_clean buf blankMedium (show checkMtd allOpen = .success by decide) clean
  have holds : blankImage.body = bodyOf [] := by
    rw [blankImage, Block.body_setCrc32, Block.body_erased, bodyOf_nil]
  obtain ⟨loaded, result, listed, -, flags⟩ := loadBuf_storable storable_nil loading holds
  exact ⟨loaded, result, listed, flags⟩

theorem loadvar_blank : ∃ start : Store,
    blankStore.loadvar (repairIo .done) (repairIo .done) = .ok (start, .returned .success) ∧
      start.devices = allOpen ∧ start.rwBuf.list = [] ∧ start.rwFlash = blankMedium ∧
        start.first = .zero := by
  obtain ⟨rwBuf, rwHalf, listed, flags⟩ := loadBuf_blank blankStore.rwBuf
  obtain ⟨roBuf, roHalf, -⟩ := loadBuf_blank blankStore.roBuf
  exact ⟨_, Store.loadvar_of_halves rwHalf roHalf, rfl, listed, rfl,
    by simp [Store.first, firstSide, flags]⟩

theorem step_save_empty (process : Process) {io : FlashIo} (damages : io.Damages)
    (opened : process.store.devices = allOpen) (empty : process.store.rwBuf.list = []) :
    process.store.reachesFlash = true ∧ ∃ next : Process,
      ProcessStep process (.save io) next ∧ next.store.devices = allOpen ∧
        next.store.rwBuf.list = [] := by
  have uncut : io.Uncut := fun side cut =>
    ⟨fun lost => by simpa [Outcome.Damages, lost] using (damages side).1,
      fun lost => by simpa [Outcome.Damages, lost] using (damages side).2⟩
  have storable : Storable process.store.rwBuf.list := empty ▸ storable_nil
  obtain ⟨saved, code, saving, succeeds, -⟩ := saveVar_storable storable
  have success := succeeds (by simp [empty])
  subst success
  have result := Store.savevar_of_saveVar io saving
  have passing : checkMtd process.store.devices = .success := by
    rw [opened]
    decide
  have listed : saved.list = process.store.rwBuf.list := by rw [(saveVar_result saving).1]
  refine ⟨by simp [Store.reachesFlash, saving, passing], ?_⟩
  dsimp only at result
  rw [dataSave, if_pos passing] at result
  obtain ⟨code, returns⟩ := saveSides_returns uncut
    [firstSide process.store.rwBuf.failed, (firstSide process.store.rwBuf.failed).other] saved.data
    process.store.rwFlash
  rw [returns] at result
  exact ⟨_, .save damages result, opened, listed.trans empty⟩

theorem guarded_blank {start : Store} (flash : start.rwFlash = blankMedium) :
    Process.Guarded ⟨start, false⟩ := by
  have passes (side : Side) : (blankMedium.flash side).Passes := Block.passes_setCrc32 _
  refine ⟨flash ▸ ⟨⟨.zero, passes .zero⟩, by simp [blankMedium]⟩, iff_of_true ?_ rfl⟩
  rw [flash]
  exact passes _

theorem damages_calmIo : calmIo.Damages := fun _ => ⟨trivial, trivial⟩

theorem saves_guarded_once : ∃ (start : Store) (finish : Process),
    blankStore.loadvar (repairIo .done) (repairIo .done) = .ok (start, .returned .success) ∧
      Run ProcessStep ⟨start, false⟩ [(⟨start, false⟩, .save calmIo)] finish ∧
        Throughout (fun process => process.store.rwFlash.Safe)
          [((⟨start, false⟩ : Process), ProcessEvent.save calmIo)] finish := by
  obtain ⟨start, loaded, opened, empty, -⟩ := loadvar_blank
  obtain ⟨-, finish, step, -⟩ := step_save_empty ⟨start, false⟩ damages_calmIo opened empty
  have run : Run ProcessStep ⟨start, false⟩ [(⟨start, false⟩, .save calmIo)] finish :=
    Run.nil.snoc step
  refine ⟨start, finish, loaded, run, ?_⟩
  refine (saves_guarded_iff rfl (fun _ => ⟨rfl, rfl⟩) loaded run).mpr ⟨?_, ?_⟩
  · exact ⟨.zero, Block.passes_setCrc32 _⟩
  · intro entry member
    rw [List.mem_singleton.mp member]
    exact fun _ => rfl

/-- Both partitions are valid; the write of the second one fails in a first
save; a second save then erases the partition that the first one wrote. -/
theorem saves_erase_last_valid : ∃ (start : Store) (finish : Process)
    (trace : List (Process × ProcessEvent)),
      blankStore.loadvar (repairIo .done) (repairIo .done) = .ok (start, .returned .success) ∧
        (∀ side, (blankStore.rwFlash.flash side).Passes) ∧
          Run ProcessStep ⟨start, false⟩ trace finish ∧
            trace.map Prod.snd = [.save (failingWrite .one), .save calmIo] ∧
              ¬Throughout (fun process => process.store.rwFlash.Safe) trace finish := by
  obtain ⟨start, loaded, opened, empty, flash, side⟩ := loadvar_blank
  have damages : (failingWrite .one).Damages := by
    intro side
    cases side with
    | zero => exact ⟨trivial, trivial⟩
    | one => exact ⟨trivial, Block.not_passes_erased⟩
  have guarded := guarded_blank flash
  obtain ⟨reaches, middle, first, stillOpen, stillEmpty⟩ :=
    step_save_empty ⟨start, false⟩ damages opened empty
  obtain ⟨again, finish, second, -⟩ := step_save_empty middle damages_calmIo stillOpen stillEmpty
  refine ⟨start, finish, _, loaded, fun _ => Block.passes_setCrc32 _, (Run.nil.snoc first).snoc second,
    rfl, fun whole => ?_⟩
  have spoiled : middle.spoiled = true := by
    cases first
    simp [Store.spoils, reaches, side, Side.other, FlashIo.Repairs, failingWrite]
  have allowed : SavesUnspoiled ⟨start, false⟩ (.save (failingWrite .one)) := fun _ => rfl
  have unspoiled := (guarded.step allowed first).necessary second whole.2 again
  rw [spoiled] at unspoiled
  cases unspoiled

end SaveRuns

end Gfiber.Sysvar
