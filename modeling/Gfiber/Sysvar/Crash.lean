import Gfiber.Sysvar.SaveProperties

/-! What a loss of power at any point of a save or of a recovery leaves in the
partitions, seen as two copies of the records: a partition is a copy when it
passes the check. -/

set_option autoImplicit false

namespace Gfiber.Sysvar

open Lib

def Block.content (block : Block) : Option (List Byte) :=
  if block.Passes then some block.body else none

def copiesOf (flash : Partitions) : Copies (List Byte) :=
  fun side => (flash side).content

/-- An operation succeeds, or power is lost before, during or after it; what
it was at work on then fails the check. -/
def Outcome.Crashes : Outcome → Prop
  | .done => True
  | .failed _ => False
  | .lost (.torn left) => ¬left.Passes
  | .lost _ => True

def FlashIo.Crashes (io : FlashIo) : Prop :=
  ∀ side, (io.erase side).Crashes ∧ (io.write side).Crashes

section Content

variable {block : Block}

theorem content_of_passes (passes : block.Passes) : block.content = some block.body :=
  if_pos passes

theorem content_of_fails (fails : ¬block.Passes) : block.content = none :=
  if_neg fails

theorem copiesOf_update (flash : Partitions) (side : Side) (block : Block) :
    copiesOf (Function.update flash side block) =
      Function.update (copiesOf flash) side block.content := by
  funext other
  by_cases same : other = side
  · subst same
    simp [copiesOf]
  · simp [copiesOf, same]

theorem copiesOf_perform (medium : Medium) (operation : Operation) (side : Side) (block : Block) :
    copiesOf (medium.perform operation side block).flash =
      Function.update (copiesOf medium.flash) side block.content :=
  copiesOf_update medium.flash side block

end Content

section CrashedCalls

variable {io : FlashIo} {side : Side} {data : Block} {medium : Medium}

theorem content_leaves {outcome : Outcome} (crashes : outcome.Crashes) (before complete : Block) :
    (outcome.leaves before complete).content = before.content ∨
      (outcome.leaves before complete).content = none ∨
        (outcome.leaves before complete).content = complete.content := by
  cases outcome with
  | done => exact .inr (.inr rfl)
  | failed left => exact crashes.elim
  | lost cut =>
      cases cut with
      | before => exact .inl rfl
      | torn left => exact .inr (.inl (content_of_fails crashes))
      | after => exact .inr (.inr rfl)

theorem content_setWc32 (passes : data.Passes) : data.setWc32.content = some data.body := by
  rw [content_of_passes ((Block.passes_setWc32 data).mpr passes), Block.body_setWc32]

theorem content_erased : Block.erased.content = none :=
  content_of_fails Block.not_passes_erased

theorem rewrite_crash (side : Side) (medium : Medium) (crashes : io.Crashes)
    (passes : data.Passes) :
    (rewrite io side data medium).2 = (data.setWc32, .done) ∧
        copiesOf (rewrite io side data medium).1.flash =
          Function.update (copiesOf medium.flash) side (some data.body) ∨
      (rewrite io side data medium).2.2 = .lost ∧
        Rewriting (copiesOf medium.flash) side data.body
          (copiesOf (rewrite io side data medium).1.flash) := by
  obtain ⟨erase, write⟩ := crashes side
  unfold rewrite
  cases erasing : io.erase side with
  | failed left =>
      rw [erasing] at erase
      exact erase.elim
  | lost cut =>
      rw [erasing] at erase
      refine .inr ⟨rfl, ?_⟩
      rw [copiesOf_perform]
      rcases content_leaves erase (medium.flash side) .erased with kept | torn | erased
      · rw [kept, show (medium.flash side).content = copiesOf medium.flash side from rfl,
          Function.update_eq_self]
        exact .untouched
      · rw [torn]
        exact .damaged
      · rw [erased, content_erased]
        exact .damaged
  | done =>
      cases writing : io.write side with
      | failed left =>
          rw [writing] at write
          exact write.elim
      | done =>
          refine .inl ⟨rfl, ?_⟩
          simp only [copiesOf_perform, Outcome.leaves, checkVar, Function.update_idem,
            content_setWc32 passes]
      | lost cut =>
          rw [writing] at write
          refine .inr ⟨rfl, ?_⟩
          simp only [copiesOf_perform, Function.update_idem, flash_perform_same]
          rcases content_leaves write .erased data.setWc32 with kept | torn | written
          · rw [Outcome.leaves, checkVar, kept, content_erased]
            exact .damaged
          · rw [Outcome.leaves, checkVar, torn]
            exact .damaged
          · rw [Outcome.leaves, checkVar, written, content_setWc32 passes]
            exact .replaced

theorem saveSides_of_done {rest : List Side} {written : Block}
    (ended : (rewrite io side data medium).2 = (written, .done)) :
    saveSides io (side :: rest) data medium =
      saveSides io rest written (rewrite io side data medium).1 := by
  rw [saveSides]
  generalize rewrite io side data medium = result at ended
  obtain ⟨after, left, status⟩ := result
  cases ended
  rfl

theorem saveSides_of_lost (rest : List Side) (ended : (rewrite io side data medium).2.2 = .lost) :
    (saveSides io (side :: rest) data medium).1 = (rewrite io side data medium).1 ∧
      (saveSides io (side :: rest) data medium).2.2 = .lost := by
  rw [saveSides]
  generalize rewrite io side data medium = result at ended
  obtain ⟨after, left, status⟩ := result
  cases ended
  exact ⟨rfl, rfl⟩

/-- A save completes with the records in both partitions, or it is cut where
the rewriting of two copies can stop. -/
theorem saveSides_crash (side : Side) (medium : Medium) (crashes : io.Crashes)
    (passes : data.Passes) :
    (saveSides io [side, side.other] data medium).2.2 = .returned .success ∧
        (∀ each, copiesOf (saveSides io [side, side.other] data medium).1.flash each =
          some data.body) ∨
      (saveSides io [side, side.other] data medium).2.2 = .lost ∧
        Mirroring (copiesOf medium.flash) side data.body
          (copiesOf (saveSides io [side, side.other] data medium).1.flash) := by
  rcases rewrite_crash side medium crashes passes with ⟨ended, first⟩ | ⟨lost, rewriting⟩
  · have again := (Block.passes_setWc32 data).mpr passes
    rw [saveSides_of_done ended]
    rcases rewrite_crash side.other (rewrite io side data medium).1 crashes again with
      ⟨finished, second⟩ | ⟨lost, rewriting⟩
    · rw [saveSides_of_done finished]
      refine .inl ⟨rfl, fun each => ?_⟩
      rw [saveSides, second, first, Block.body_setWc32]
      rcases each.eq_or_eq_other side with rfl | rfl
      · rw [Function.update_of_ne (Side.ne_other _), Function.update_self]
      · rw [Function.update_self]
    · obtain ⟨flash, status⟩ := saveSides_of_lost [] lost
      rw [first, Block.body_setWc32] at rewriting
      exact .inr ⟨status, flash ▸ .second rewriting⟩
  · obtain ⟨flash, status⟩ := saveSides_of_lost [side.other] lost
    exact .inr ⟨status, flash ▸ .first rewriting⟩

end CrashedCalls

section CrashedLoads

/-- The records that a load finds in the partitions: none when both are damaged. -/
def seenBody (flash : Partitions) : List Byte :=
  (shown (copiesOf flash)).getD (List.replicate totalLen 0xff)

variable {devices : Devices} {io : LoadIo} {medium : Medium}

theorem recoveryLoop_crash {side : Side} {rest : List Side} (data : Block) (reads : io.ReadsFull)
    (crashes : io.Crashes) (passes : (medium.flash side).Passes)
    (fails : ¬(medium.flash side.other).Passes) :
    shown (copiesOf (recoveryLoop io (side :: rest) data medium).1.flash) =
        shown (copiesOf medium.flash) ∧
      ((recoveryLoop io (side :: rest) data medium).2.2 = .lost ∨
        (recoveryLoop io (side :: rest) data medium).2 =
            ((medium.flash side).setWc32, .returned .success) ∧
          ∀ each, copiesOf (recoveryLoop io (side :: rest) data medium).1.flash each =
            some (medium.flash side).body) := by
  have again : io.PassesAgain medium.flash side := ⟨(reads side).2, passes⟩
  have intact : copiesOf medium.flash side = some (medium.flash side).body :=
    content_of_passes passes
  have damaged : copiesOf medium.flash side.other = none := content_of_fails fails
  rw [recoveryLoop, if_pos ((read_passes_iff _ _ _).mpr again), again.1, Block.read]
  have rewritten := rewrite_crash side.other medium crashes passes
  generalize rewrite io.toFlashIo side.other (medium.flash side) medium = result at rewritten
  obtain ⟨after, left, ended⟩ := result
  rcases rewritten with ⟨finished, copies⟩ | ⟨lost, rewriting⟩
  · cases finished
    refine ⟨?_, .inr ⟨rfl, fun each => ?_⟩⟩
    · have replaced : shown (copiesOf after.flash) = shown (copiesOf medium.flash) :=
        copies ▸ Rewriting.replaced.shown_repair intact damaged
      exact replaced
    · have both : copiesOf after.flash each = some (medium.flash side).body := by
        rw [copies]
        rcases each.eq_or_eq_other side with rfl | rfl
        · rw [Function.update_of_ne (Side.ne_other _), intact]
        · rw [Function.update_self]
      exact both
  · cases lost
    exact ⟨rewriting.shown_repair intact damaged, .inl rfl⟩

structure Recovered (medium : Medium) (result : Medium × Block × Status) : Prop where
  standing : shown (copiesOf result.1.flash) = shown (copiesOf medium.flash)
  ended : result.2.2 = .lost ∨ result.2.2 = .returned .success ∧
    result.2.1.body = seenBody medium.flash ∧
      ∀ each, copiesOf result.1.flash each = shown (copiesOf result.1.flash)

theorem recovered_passing {side : Side} {rest : List Side} (data : Block) (reads : io.ReadsFull)
    (crashes : io.Crashes) (passes : (medium.flash side).Passes)
    (fails : ¬(medium.flash side.other).Passes) :
    Recovered medium (recoveryLoop io (side :: rest) data medium) := by
  have standing : shown (copiesOf medium.flash) = some (medium.flash side).body := by
    cases side with
    | zero => simp [shown, copiesOf, content_of_passes passes, content_of_fails
        (show ¬(medium.flash .one).Passes from fails)]
    | one => simp [shown, copiesOf, content_of_passes passes]
  obtain ⟨kept, lost | ⟨ended, both⟩⟩ := recoveryLoop_crash data reads crashes passes fails
  · exact ⟨kept, .inl lost⟩
  · refine ⟨kept, .inr ⟨by rw [ended], ?_, fun each => ?_⟩⟩
    · rw [ended, Block.body_setWc32, seenBody, standing, Option.getD_some]
    · rw [both each, kept, standing]

theorem recovered_dataRecovery (data : Block) (reads : io.ReadsFull) (crashes : io.Crashes)
    (unclean : ¬io.Clean medium.flash) : Recovered medium (dataRecovery io data medium) := by
  rw [dataRecovery]
  by_cases zero : (medium.flash .zero).Passes
  · refine recovered_passing data reads crashes zero fun one => unclean ⟨?_, ?_⟩
    · exact ⟨(reads .zero).1, zero⟩
    · exact ⟨(reads .one).1, one⟩
  rw [recoveryLoop_failing fun passes => zero passes.2]
  by_cases one : (medium.flash .one).Passes
  · exact recovered_passing _ reads crashes one zero
  rw [recoveryLoop_failing fun passes => one passes.2, recoveryLoop]
  have damaged (each : Side) : copiesOf medium.flash each = none := by
    cases each with
    | zero => exact content_of_fails zero
    | one => exact content_of_fails one
  have nothing : shown (copiesOf medium.flash) = none := by simp [shown, damaged]
  refine ⟨rfl, .inr ⟨rfl, ?_, fun each => by rw [damaged each, nothing]⟩⟩
  rw [body_clearBuf, seenBody, nothing, Option.getD_none]

theorem dataLoad_crash (buf : SysvarBuf) (medium : Medium) (opened : checkMtd devices = .success)
    (reads : io.ReadsFull) (crashes : io.Crashes) :
    ∃ (read : SysvarBuf) (after : Medium) (status : Status),
      dataLoad devices io buf medium = (read, after, status) ∧
        shown (copiesOf after.flash) = shown (copiesOf medium.flash) ∧
          (status = .lost ∨ status = .returned .success ∧ read.data.body = seenBody medium.flash ∧
            copiesOf after.flash (firstSide read.failed).other = shown (copiesOf after.flash)) := by
  by_cases clean : io.Clean medium.flash
  · refine ⟨_, _, _, dataLoad_clean buf medium opened clean, rfl, .inr ⟨rfl, ?_, ?_⟩⟩
    · simp [seenBody, shown, copiesOf, content_of_passes clean.2.2]
    · simp [firstSide, Side.other, shown, copiesOf, content_of_passes clean.2.2]
  obtain ⟨read, result⟩ := dataLoad_unclean buf medium opened clean
  obtain ⟨standing, lost | ⟨returned, body, each⟩⟩ :=
    recovered_dataRecovery read reads crashes clean
  · exact ⟨_, _, _, result, standing, .inl lost⟩
  · exact ⟨_, _, _, result, standing, .inr ⟨returned, body, each _⟩⟩

end CrashedLoads

end Gfiber.Sysvar
