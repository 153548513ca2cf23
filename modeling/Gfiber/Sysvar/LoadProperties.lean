import Gfiber.Sysvar.Flash

/-! Which data `data_load` leaves in the buffer when it returns success. A
repair that fails clears the buffer, also when the data of a partition had
been read and had passed the check. -/

set_option autoImplicit false

namespace Gfiber.Sysvar

open Lib

namespace LoadIo

variable (io : LoadIo) (flash : Partitions)

def PassesFirst (side : Side) : Prop :=
  io.first side = .full ∧ (flash side).Passes

def PassesAgain (side : Side) : Prop :=
  io.again side = .full ∧ (flash side).Passes

instance (side : Side) : Decidable (io.PassesFirst flash side) :=
  inferInstanceAs (Decidable (_ ∧ _))

instance (side : Side) : Decidable (io.PassesAgain flash side) :=
  inferInstanceAs (Decidable (_ ∧ _))

def Clean : Prop :=
  io.PassesFirst flash .zero ∧ io.PassesFirst flash .one

instance : Decidable (io.Clean flash) :=
  inferInstanceAs (Decidable (_ ∧ _))

/-- The recovery reads the second partition only when the first did not pass. -/
def ReadsAgain : Side → Prop
  | .zero => ¬io.Clean flash
  | .one => ¬io.Clean flash ∧ ¬io.PassesAgain flash .zero

def Passed (side : Side) : Prop :=
  io.PassesFirst flash side ∨ io.ReadsAgain flash side ∧ io.PassesAgain flash side

def loadedData : Block :=
  if io.Clean flash then flash .one
  else if io.PassesAgain flash .zero then
    if io.Repairs .one then (flash .zero).setWc32 else clearBuf
  else if io.PassesAgain flash .one then
    if io.Repairs .zero then (flash .one).setWc32 else clearBuf
  else clearBuf

end LoadIo

section Results

variable {io : LoadIo}

theorem readSide_failed (flash : Partitions) (side : Side) (data : Block) :
    (readSide io flash side data).2 = true ↔ ¬io.PassesFirst flash side := by
  by_cases full : io.first side = .full
  · simp [readSide, full, Block.read, checkVar, LoadIo.PassesFirst]
  · simp [readSide, full, LoadIo.PassesFirst]

theorem read_passes_iff (flash : Partitions) (side : Side) (data : Block) :
    (io.again side = .full ∧
      (checkVar (data.read (flash side) (io.again side)) .load).2 = .success) ↔
        io.PassesAgain flash side := by
  constructor
  · rintro ⟨full, passes⟩
    exact ⟨full, by simpa [full, Block.read, checkVar] using passes⟩
  · rintro ⟨full, passes⟩
    exact ⟨full, by simpa [full, Block.read, checkVar] using passes⟩

theorem recoveryLoop_passing {side : Side} {rest : List Side} {data : Block} {medium : Medium}
    (uncut : io.Uncut) (passes : io.PassesAgain medium.flash side) : ∃ after : Medium,
      recoveryLoop io (side :: rest) data medium = (after,
        if io.Repairs side.other then (medium.flash side).setWc32 else clearBuf,
          .returned .success) := by
  rw [recoveryLoop, if_pos ((read_passes_iff _ _ _).mpr passes), passes.1, Block.read]
  by_cases repairs : io.Repairs side.other
  · rw [rewrite_done _ _ repairs, if_pos repairs]
    exact ⟨_, rfl⟩
  · obtain ⟨after, left, ended, result, unfinished, kept⟩ :=
      rewrite_stopped (medium.flash side) medium repairs
    rw [result, if_neg repairs]
    cases ended with
    | done => exact absurd rfl unfinished
    | lost => exact absurd rfl (kept uncut)
    | eraseFailed | writeFailed => exact ⟨after, rfl⟩

theorem recoveryLoop_failing {side : Side} {rest : List Side} {data : Block} {medium : Medium}
    (fails : ¬io.PassesAgain medium.flash side) :
    recoveryLoop io (side :: rest) data medium =
      recoveryLoop io rest (data.read (medium.flash side) (io.again side)) medium := by
  rw [recoveryLoop, if_neg (mt (read_passes_iff _ _ _).mp fails)]

theorem medium_recoveryLoop_passing {side : Side} {rest : List Side} {data : Block}
    {medium : Medium} (passes : io.PassesAgain medium.flash side) :
    (recoveryLoop io (side :: rest) data medium).1 =
      (rewrite io.toFlashIo side.other (medium.flash side) medium).1 := by
  rw [recoveryLoop, if_pos ((read_passes_iff _ _ _).mpr passes), passes.1, Block.read]
  rcases rewrite io.toFlashIo side.other (medium.flash side) medium with ⟨after, left, ended⟩
  cases ended <;> rfl

theorem dataRecovery_uncut (data : Block) {medium : Medium} (uncut : io.Uncut)
    (unclean : ¬io.Clean medium.flash) : ∃ after : Medium,
      dataRecovery io data medium = (after, io.loadedData medium.flash, .returned .success) := by
  rw [dataRecovery, LoadIo.loadedData, if_neg unclean]
  by_cases zero : io.PassesAgain medium.flash .zero
  · rw [if_pos zero]
    exact recoveryLoop_passing uncut zero
  · rw [if_neg zero, recoveryLoop_failing zero]
    by_cases one : io.PassesAgain medium.flash .one
    · rw [if_pos one]
      exact recoveryLoop_passing uncut one
    · rw [if_neg one, recoveryLoop_failing one]
      exact ⟨medium, rfl⟩

variable {devices : Devices} (buf : SysvarBuf) (medium : Medium)

theorem dataLoad_clean (opened : checkMtd devices = .success) (clean : io.Clean medium.flash) :
    dataLoad devices io buf medium =
      ({ buf with data := medium.flash .one, failed := fun _ => false }, medium,
        .returned .success) := by
  have zero : (readSide io medium.flash .zero buf.data).2 = false :=
    Bool.eq_false_iff.mpr (mt (readSide_failed _ _ _).mp (not_not.mpr clean.1))
  have one : (readSide io medium.flash .one (readSide io medium.flash .zero buf.data).1) =
      (medium.flash .one, false) := by
    simp [readSide, clean.2.1, Block.read, checkVar, clean.2.2]
  rw [dataLoad, if_pos opened]
  simp only [zero, one, ite_self, Bool.or_self, Bool.false_eq_true, if_false]

theorem dataLoad_unclean (opened : checkMtd devices = .success)
    (unclean : ¬io.Clean medium.flash) : ∃ read : Block,
      dataLoad devices io buf medium =
        ({ buf with
            data := (dataRecovery io read medium).2.1
            failed := fun side => decide (¬io.PassesFirst medium.flash side) },
          (dataRecovery io read medium).1, (dataRecovery io read medium).2.2) := by
  have flag (side : Side) (data : Block) :
      (readSide io medium.flash side data).2 = decide (¬io.PassesFirst medium.flash side) :=
    Bool.eq_iff_iff.mpr (by rw [readSide_failed, decide_eq_true_iff])
  refine ⟨(readSide io medium.flash .one (readSide io medium.flash .zero buf.data).1).1, ?_⟩
  have flags : (fun side => if side = .zero then
      decide (¬io.PassesFirst medium.flash .zero) else decide (¬io.PassesFirst medium.flash .one)) =
        fun side => decide (¬io.PassesFirst medium.flash side) := by
    funext side
    cases side <;> rfl
  have some : (decide (¬io.PassesFirst medium.flash .zero) ||
      decide (¬io.PassesFirst medium.flash .one)) = true := by
    rw [Bool.or_eq_true, decide_eq_true_iff, decide_eq_true_iff]
    exact not_and_or.mp unclean
  rw [dataLoad, if_pos opened]
  simp only [flag, flags]
  exact if_pos some

theorem failed_dataLoad (opened : checkMtd devices = .success) (side : Side) :
    (dataLoad devices io buf medium).1.failed side =
      decide (¬io.PassesFirst medium.flash side) := by
  by_cases clean : io.Clean medium.flash
  · rw [dataLoad_clean buf medium opened clean]
    cases side with
    | zero => simp [clean.1]
    | one => simp [clean.2]
  · obtain ⟨read, result⟩ := dataLoad_unclean buf medium opened clean
    rw [result]

theorem dataLoad_uncut (uncut : io.Uncut) (opened : checkMtd devices = .success) :
    ∃ (loaded : SysvarBuf) (after : Medium),
      dataLoad devices io buf medium = (loaded, after, .returned .success) ∧
        loaded.data = io.loadedData medium.flash := by
  by_cases clean : io.Clean medium.flash
  · exact ⟨_, _, dataLoad_clean buf medium opened clean, by rw [LoadIo.loadedData, if_pos clean]⟩
  · obtain ⟨read, result⟩ := dataLoad_unclean buf medium opened clean
    obtain ⟨after, recovered⟩ := dataRecovery_uncut read uncut clean
    rw [recovered] at result
    exact ⟨_, _, result, rfl⟩

end Results

/-- If a partition passed during the call and it returns success, the buffer
holds the records of a partition that passed. -/
def LoadKeeps (devices : Devices) (io : LoadIo) (buf : SysvarBuf) (medium : Medium) : Prop :=
  ∀ (loaded : SysvarBuf) (after : Medium),
    dataLoad devices io buf medium = (loaded, after, .returned .success) →
      (∃ side, io.Passed medium.flash side) →
        ∃ side, io.Passed medium.flash side ∧ loaded.data.body = (medium.flash side).body

def LoadIo.Recovers (io : LoadIo) (flash : Partitions) : Prop :=
  io.PassesAgain flash .zero ∧ io.Repairs .one ∨
    ¬io.PassesAgain flash .zero ∧ io.PassesAgain flash .one ∧ io.Repairs .zero

def LoadIo.BlankPassed (io : LoadIo) (flash : Partitions) : Prop :=
  ∃ side, io.Passed flash side ∧ (flash side).body = List.replicate totalLen 0xff

section Keeping

variable {io : LoadIo} {flash : Partitions}

theorem loadedData_kept (kept : io.Clean flash ∨ io.Recovers flash) :
    ∃ side, io.Passed flash side ∧ (io.loadedData flash).body = (flash side).body := by
  unfold LoadIo.loadedData
  by_cases clean : io.Clean flash
  · exact ⟨.one, .inl clean.2, by rw [if_pos clean]⟩
  rw [if_neg clean]
  rcases kept.resolve_left clean with ⟨zero, repairs⟩ | ⟨zero, one, repairs⟩
  · exact ⟨.zero, .inr ⟨clean, zero⟩, by rw [if_pos zero, if_pos repairs, Block.body_setWc32]⟩
  · refine ⟨.one, .inr ⟨⟨clean, zero⟩, one⟩, ?_⟩
    rw [if_neg zero, if_pos one, if_pos repairs, Block.body_setWc32]

theorem body_loadedData_cleared (unclean : ¬io.Clean flash) (fails : ¬io.Recovers flash) :
    (io.loadedData flash).body = List.replicate totalLen 0xff := by
  rw [← body_clearBuf, LoadIo.loadedData, if_neg unclean]
  split
  case isTrue zero => rw [if_neg fun repairs => fails (.inl ⟨zero, repairs⟩)]
  case isFalse zero =>
    split
    case isTrue one => rw [if_neg fun repairs => fails (.inr ⟨zero, one, repairs⟩)]
    case isFalse => rfl

variable {devices : Devices} {buf : SysvarBuf} {medium : Medium}

theorem loadKeeps_iff_loadedData (uncut : io.Uncut) (opened : checkMtd devices = .success) :
    LoadKeeps devices io buf medium ↔ ((∃ side, io.Passed medium.flash side) →
      ∃ side, io.Passed medium.flash side ∧
        (io.loadedData medium.flash).body = (medium.flash side).body) := by
  obtain ⟨loaded, after, result, data⟩ := dataLoad_uncut buf medium uncut opened
  constructor
  · intro kept passed
    exact data ▸ kept loaded after result passed
  · intro kept other later same passed
    rw [result] at same
    cases same
    exact data ▸ kept passed

end Keeping

/-- `data_load` keeps the data of a partition that passed exactly when
nothing has to be recovered or the repair succeeds, save where there is no such
partition or it holds no variable. -/
theorem load_keeps_iff (devices : Devices) (io : LoadIo) (buf : SysvarBuf) (medium : Medium)
    (uncut : io.Uncut) :
    LoadKeeps devices io buf medium ↔
      checkMtd devices ≠ .success ∨ (∀ side, ¬io.Passed medium.flash side) ∨
        io.Clean medium.flash ∨ io.Recovers medium.flash ∨ io.BlankPassed medium.flash := by
  by_cases opened : checkMtd devices = .success
  case neg =>
    refine iff_of_true (fun loaded after result => ?_) (.inl opened)
    simp [dataLoad, opened] at result
  rw [loadKeeps_iff_loadedData uncut opened]
  by_cases kept : io.Clean medium.flash ∨ io.Recovers medium.flash
  · refine iff_of_true (fun _ => loadedData_kept kept) ?_
    rcases kept with clean | recovers
    · exact .inr (.inr (.inl clean))
    · exact .inr (.inr (.inr (.inl recovers)))
  obtain ⟨unclean, fails⟩ := not_or.mp kept
  rw [body_loadedData_cleared unclean fails]
  constructor
  · intro holds
    by_cases none : ∀ side, ¬io.Passed medium.flash side
    · exact .inr (.inl none)
    · obtain ⟨side, passed, blank⟩ := holds (by simpa using none)
      exact .inr (.inr (.inr (.inr ⟨side, passed, blank.symm⟩)))
  · rintro (closed | none | clean | recovers | ⟨side, passed, blank⟩) some
    · exact absurd opened closed
    · exact absurd some.choose_spec (none _)
    · exact absurd clean unclean
    · exact absurd recovers fails
    · exact ⟨side, passed, blank.symm⟩

section Repair

def allOpen : Devices := fun _ => true

def markedImage : Block :=
  (Block.erased.put 0 [0x61] (by decide)).setCrc32

def markedMedium : Medium where
  flash := fun side => if side = .zero then markedImage else .erased
  log := []

def repairIo (outcome : Outcome) : LoadIo where
  erase := fun _ => outcome
  write := fun _ => .done
  first := fun _ => .full
  again := fun _ => .full

theorem body_markedImage_ne : markedImage.body ≠ List.replicate totalLen 0xff := by
  intro blank
  have head : markedImage.body.head? = some 0x61 := by
    rw [markedImage, Block.body_setCrc32]
    rfl
  rw [blank] at head
  exact absurd (Option.some.inj head) (by decide)

theorem load_keeps_repaired : LoadKeeps allOpen (repairIo .done) (.init .erased) markedMedium :=
  (load_keeps_iff allOpen (repairIo .done) (.init .erased) markedMedium
    (by simp [FlashIo.Uncut, repairIo])).mpr
    (.inr (.inr (.inr (.inl (.inl ⟨⟨rfl, Block.passes_setCrc32 _⟩, rfl, rfl⟩)))))

/-- The first partition passes, the erase of the second fails, and the call
returns success with an empty buffer. -/
theorem load_clears_passed :
    ¬LoadKeeps allOpen (repairIo (.failed .erased)) (.init .erased) markedMedium := by
  have zero : markedImage.Passes := Block.passes_setCrc32 _
  have unclean : ¬(repairIo (.failed .erased)).Clean markedMedium.flash :=
    fun clean => Block.not_passes_erased clean.2.2
  have fails : ¬(repairIo (.failed .erased)).Recovers markedMedium.flash := by
    rintro (⟨-, repairs⟩ | ⟨unread, -⟩)
    · cases repairs.1
    · exact unread ⟨rfl, zero⟩
  rw [loadKeeps_iff_loadedData (by simp [FlashIo.Uncut, repairIo]) (by decide)]
  intro kept
  obtain ⟨side, passed, same⟩ := kept ⟨.zero, .inl ⟨rfl, zero⟩⟩
  rw [body_loadedData_cleared unclean fails] at same
  cases side with
  | zero => exact body_markedImage_ne same.symm
  | one =>
      rcases passed with first | ⟨-, again⟩
      · exact Block.not_passes_erased first.2
      · exact Block.not_passes_erased again.2

end Repair

end Gfiber.Sysvar
