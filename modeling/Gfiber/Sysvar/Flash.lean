import Mathlib.Logic.Function.Basic
import Gfiber.Sysvar.Buffer

/-! The two partitions of a buffer and the routines that move a block between
them and memory: `data_load` with its recovery, and `data_save`. Every read,
erase and write has an outcome of its own, and the flash keeps a log of the
erases and writes. -/

set_option autoImplicit false

namespace Gfiber.Sysvar

open Lib

inductive Reading where
  | full
  | short (count : Fin blockSize)
  | error
deriving DecidableEq

inductive Cut where
  | before
  | torn (left : Block)
  | after
deriving DecidableEq

/-- How an erase or a write of a partition ended: it returned success or an
error, or it never returned. -/
inductive Outcome where
  | done
  | failed (left : Block)
  | lost (cut : Cut)
deriving DecidableEq

namespace Outcome

def leaves (before complete : Block) : Outcome → Block
  | done => complete
  | failed left => left
  | lost .before => before
  | lost (.torn left) => left
  | lost .after => complete

end Outcome

structure FlashIo where
  erase : Side → Outcome
  write : Side → Outcome

/-- `data_load` reads each partition once, its recovery once again. -/
structure LoadIo extends FlashIo where
  first : Side → Reading
  again : Side → Reading

inductive Operation where
  | erase
  | write
deriving DecidableEq, Repr

abbrev Partitions := Side → Block

structure Access where
  operation : Operation
  side : Side
  before : Partitions
  after : Partitions

structure Medium where
  flash : Partitions
  log : List Access

def Medium.perform (medium : Medium) (operation : Operation) (side : Side) (block : Block) :
    Medium :=
  let after := Function.update medium.flash side block
  { flash := after, log := medium.log ++ [⟨operation, side, medium.flash, after⟩] }

inductive Status where
  | returned (code : ErrorCode)
  | lost
deriving DecidableEq, Repr

def Block.read (data content : Block) : Reading → Block
  | .full => content
  | .short count => ⟨content.bytes.take count ++ data.bytes.drop count, by
      rw [List.length_append, List.length_take, List.length_drop, content.length_bytes,
        data.length_bytes]
      omega⟩
  | .error => data

inductive Rewritten where
  | done
  | eraseFailed
  | writeFailed
  | lost
deriving DecidableEq, Repr

/-- What `data_save` and `data_recovery` do to one partition: erase it, count
the write, write the data. `check_var` has no failure in SAVE mode. -/
def rewrite (io : FlashIo) (side : Side) (data : Block) (medium : Medium) :
    Medium × Block × Rewritten :=
  let medium := medium.perform .erase side ((io.erase side).leaves (medium.flash side) .erased)
  match io.erase side with
  | .failed _ => (medium, data, .eraseFailed)
  | .lost _ => (medium, data, .lost)
  | .done =>
      let data := (checkVar data .save).1
      let medium := medium.perform .write side ((io.write side).leaves (medium.flash side) data)
      match io.write side with
      | .failed _ => (medium, data, .writeFailed)
      | .lost _ => (medium, data, .lost)
      | .done => (medium, data, .done)

def recoveryLoop (io : LoadIo) : List Side → Block → Medium → Medium × Block × Status
  | [], _, medium => (medium, clearBuf, .returned .success)
  | i :: rest, data, medium =>
      let data := data.read (medium.flash i) (io.again i)
      if io.again i = .full ∧ (checkVar data .load).2 = .success then
        match rewrite io.toFlashIo i.other data medium with
        | (medium, data, .done) => (medium, data, .returned .success)
        | (medium, data, .lost) => (medium, data, .lost)
        | (medium, _, _) => (medium, clearBuf, .returned .success)
      else recoveryLoop io rest data medium

def dataRecovery (io : LoadIo) (data : Block) (medium : Medium) : Medium × Block × Status :=
  recoveryLoop io [.zero, .one] data medium

abbrev Devices := Fin 4 → Bool

def checkMtd (devices : Devices) : ErrorCode :=
  if ∀ index, devices index then .success else .openErr

/-- One turn of the loop of `data_load`: the buffer after the read and the
flag that goes to `failed`. -/
def readSide (io : LoadIo) (flash : Partitions) (side : Side) (data : Block) : Block × Bool :=
  let data := data.read (flash side) (io.first side)
  (data, io.first side ≠ .full || (checkVar data .load).2 ≠ .success)

def dataLoad (devices : Devices) (io : LoadIo) (buf : SysvarBuf) (medium : Medium) :
    SysvarBuf × Medium × Status :=
  if checkMtd devices = .success then
    let zero := readSide io medium.flash .zero buf.data
    let one := readSide io medium.flash .one zero.1
    let buf := { buf with data := one.1, failed := fun side => if side = .zero then zero.2 else one.2 }
    if buf.failed .zero || buf.failed .one then
      let (medium, data, status) := dataRecovery io buf.data medium
      ({ buf with data := data }, medium, status)
    else (buf, medium, .returned .success)
  else (buf, medium, .returned .openErr)

def saveSides (io : FlashIo) : List Side → Block → Medium → Medium × Block × Status
  | [], data, medium => (medium, data, .returned .success)
  | i :: rest, data, medium =>
      match rewrite io i data medium with
      | (medium, data, .done) => saveSides io rest data medium
      | (medium, data, .eraseFailed) => (medium, data, .returned .eraseErr)
      | (medium, data, .writeFailed) => (medium, data, .returned .writeErr)
      | (medium, data, .lost) => (medium, data, .lost)

def dataSave (devices : Devices) (io : FlashIo) (saveIdx : List Side) (data : Block)
    (medium : Medium) : Medium × Block × Status :=
  if checkMtd devices = .success then saveSides io saveIdx data medium
  else (medium, data, .returned .openErr)

def FlashIo.Repairs (io : FlashIo) (side : Side) : Prop :=
  io.erase side = .done ∧ io.write side = .done

instance (io : FlashIo) (side : Side) : Decidable (io.Repairs side) :=
  inferInstanceAs (Decidable (_ ∧ _))

def FlashIo.Uncut (io : FlashIo) : Prop :=
  ∀ side cut, io.erase side ≠ .lost cut ∧ io.write side ≠ .lost cut

section Rewriting

variable {io : FlashIo} {side : Side} (data : Block) (medium : Medium)

theorem rewrite_done (repairs : io.Repairs side) : rewrite io side data medium =
    ((medium.perform .erase side .erased).perform .write side data.setWc32, data.setWc32,
      .done) := by
  simp [rewrite, repairs.1, repairs.2, Outcome.leaves, checkVar]

theorem rewrite_stopped (stops : ¬io.Repairs side) :
    ∃ (after : Medium) (left : Block) (ended : Rewritten),
      rewrite io side data medium = (after, left, ended) ∧ ended ≠ .done ∧
        (io.Uncut → ended ≠ .lost) := by
  cases erasing : io.erase side with
  | failed left => exact ⟨_, _, .eraseFailed, by simp [rewrite, erasing]; exact ⟨rfl, rfl⟩,
      nofun, nofun⟩
  | lost cut =>
      exact ⟨_, _, .lost, by simp [rewrite, erasing]; exact ⟨rfl, rfl⟩, nofun,
        fun uncut => absurd erasing (uncut side cut).1⟩
  | done =>
      cases writing : io.write side with
      | done => exact absurd ⟨erasing, writing⟩ stops
      | failed left =>
          exact ⟨_, _, .writeFailed, by simp [rewrite, erasing, writing]; exact ⟨rfl, rfl⟩,
            nofun, nofun⟩
      | lost cut =>
          exact ⟨_, _, .lost, by simp [rewrite, erasing, writing]; exact ⟨rfl, rfl⟩, nofun,
            fun uncut => absurd writing (uncut side cut).2⟩

end Rewriting

end Gfiber.Sysvar
