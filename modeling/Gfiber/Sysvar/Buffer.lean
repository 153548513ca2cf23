import Mathlib.Data.List.TakeWhile
import Gfiber.Lib.Mirror
import Gfiber.Sysvar.Block

/-! The list of system variables of a buffer and the moves between the list
and the data block. Reads and writes past the block are faults. -/

set_option autoImplicit false

namespace Gfiber.Sysvar

open Lib

inductive Fault where
  | overrun
deriving DecidableEq, Repr

structure CString where
  bytes : List Byte
  terminated : (0 : Byte) ∉ bytes
deriving DecidableEq

namespace CString

def ofBytes (bytes : List Byte) : CString where
  bytes := bytes.takeWhile (· ≠ 0)
  terminated := by
    intro member
    simpa using List.mem_takeWhile_imp member

def strlen (text : CString) : Nat :=
  text.bytes.length

end CString

/-- `SYSVAR_NAME`. -/
def nameSize : Nat := 32

structure SysvarList where
  name : CString
  value : CString
  name_fits : name.strlen ≤ nameSize
deriving DecidableEq

def SysvarList.len (var : SysvarList) : Nat :=
  nameSize + 2 + var.value.strlen

def SysvarList.named (var : SysvarList) (name : CString) : Bool :=
  var.name.bytes.take nameSize = name.bytes.take nameSize

def recordsLen (vars : List SysvarList) : Nat :=
  (vars.map SysvarList.len).sum

@[simp] theorem recordsLen_nil : recordsLen [] = 0 := rfl

@[simp] theorem recordsLen_cons (var : SysvarList) (rest : List SysvarList) :
    recordsLen (var :: rest) = var.len + recordsLen rest := by
  simp [recordsLen]

@[simp] theorem recordsLen_append (left right : List SysvarList) :
    recordsLen (left ++ right) = recordsLen left + recordsLen right := by
  simp [recordsLen]

theorem recordsLen_eraseIdx {vars : List SysvarList} {index : Nat} {var : SysvarList}
    (found : vars[index]? = some var) :
    recordsLen vars = var.len + recordsLen (vars.eraseIdx index) := by
  induction vars generalizing index with
  | nil => simp at found
  | cons first rest ih =>
      cases index with
      | zero =>
          have same : first = var := by simpa using found
          rw [recordsLen_cons, same, List.eraseIdx_cons_zero]
      | succ index =>
          have later := ih (by simpa using found)
          rw [recordsLen_cons, List.eraseIdx_cons_succ, recordsLen_cons, later]
          omega

/-- `sysvar_len`: the counter moves by `len` and is clamped at both ends. -/
def sysvarLen (usedLen : Nat) (len : Int) : Nat :=
  min (usedLen + len).toNat totalLen

/-- `free_len` is kept as what `used_len` leaves of `total_len`. Clamping can
only lose bytes, so the counter stays below the records in the list. -/
structure SysvarBuf where
  data : Block
  usedLen : Nat
  failed : Side → Bool
  list : List SysvarList
  limited : usedLen ≤ totalLen
  accounted : usedLen ≤ recordsLen list

namespace SysvarBuf

def freeLen (buf : SysvarBuf) : Nat :=
  totalLen - buf.usedLen

/-- `sysvar_buf_init`: the allocated block holds whatever was there. -/
def init (allocated : Block) : SysvarBuf where
  data := allocated
  usedLen := 0
  failed := fun _ => false
  list := []
  limited := Nat.zero_le _
  accounted := Nat.zero_le _

def setVar (buf : SysvarBuf) (name value : CString) : SysvarBuf × ErrorCode :=
  if fits : name.strlen ≤ nameSize then
    let var : SysvarList := ⟨name, value, fits⟩
    let added : SysvarBuf :=
      { buf with
        list := buf.list ++ [var]
        usedLen := sysvarLen buf.usedLen var.len
        limited := Nat.min_le_right _ _
        accounted := by
          have before := buf.accounted
          simp only [sysvarLen, recordsLen_append, recordsLen_cons, recordsLen_nil]
          omega }
    (added, .success)
  else (buf, .paramErr)

def findVar (buf : SysvarBuf) (name : CString) : Option Nat :=
  buf.list.findIdx? (·.named name)

def deleteVar (buf : SysvarBuf) (index : Nat) : SysvarBuf × ErrorCode :=
  match found : buf.list[index]? with
  | none => (buf, .deleteErr)
  | some var =>
      let removed : SysvarBuf :=
        { buf with
          list := buf.list.eraseIdx index
          usedLen := sysvarLen buf.usedLen (-var.len)
          limited := Nat.min_le_right _ _
          accounted := by
            have before := buf.accounted
            have parts := recordsLen_eraseIdx found
            simp only [sysvarLen]
            omega }
      (removed, .success)

def clearLoop : List SysvarList → SysvarBuf → SysvarBuf × ErrorCode
  | [], buf => (buf, .success)
  | _ :: rest, buf =>
      match buf.deleteVar 0 with
      | (buf, .success) => clearLoop rest buf
      | stopped => stopped

def clearVar (buf : SysvarBuf) : SysvarBuf × ErrorCode :=
  clearLoop buf.list buf

end SysvarBuf

namespace Block

def fetch (block : Block) (index : Nat) : Except Fault Byte :=
  match block.bytes[index]? with
  | some byte => .ok byte
  | none => .error .overrun

def store (block : Block) (offset : Nat) (stretch : List Byte) : Except Fault Block :=
  if fits : offset + stretch.length ≤ blockSize then .ok (block.put offset stretch fits)
  else .error .overrun

/-- `sysvar_copy` to a string: it reads up to the first `0xff` or `len` bytes. -/
def copyToStr (block : Block) (offset len : Nat) : Except Fault CString :=
  let text := ((block.bytes.drop offset).take len).takeWhile (· ≠ 0xff)
  if text.length = len ∨ offset + text.length < blockSize then .ok (CString.ofBytes text)
  else .error .overrun

end Block

/-- `sysvar_copy` from a string: the bytes before the terminator, then `0xff`. -/
def copyToBuf (text : CString) (len : Nat) : List Byte :=
  text.bytes.take len ++ List.replicate (len - text.strlen) 0xff

namespace SysvarBuf

def saveLoop (usedLen : Nat) : List SysvarList → Nat → Block → Except Fault (Block × ErrorCode)
  | [], _, data => checkVar data .set |> .ok
  | curr :: next, i, data =>
      if i < totalLen then do
        let data ← data.store i (copyToBuf curr.name nameSize)
        let len := curr.value.strlen
        if usedLen < len then .ok (data, .paramErr) else do
          let data ← data.store (i + nameSize) [BitVec.ofNat 8 (len >>> 8), BitVec.ofNat 8 len]
          let data ← data.store (i + nameSize + 2) (copyToBuf curr.value len)
          saveLoop usedLen next (i + nameSize + 2 + len) data
      else checkVar data .set |> .ok

def saveVar (buf : SysvarBuf) : Except Fault (SysvarBuf × ErrorCode) := do
  let (data, code) ← saveLoop buf.usedLen buf.list 0 Block.erased
  return ({ buf with data := data }, code)

def loadLoop (data : Block) (i : Nat) (buf : SysvarBuf) : Except Fault (SysvarBuf × ErrorCode) :=
  if i < totalLen then do
    let mark ← data.fetch i
    if mark = 0xff then .ok (buf, .success) else do
      let name ← data.copyToStr i nameSize
      let high ← data.fetch (i + nameSize)
      let low ← data.fetch (i + nameSize + 1)
      let len := (high.toNat <<< 8) + low.toNat
      if buf.freeLen < len then .ok (buf, .paramErr) else do
        let value ← data.copyToStr (i + nameSize + 2) len
        match buf.setVar name value with
        | (buf, .success) => loadLoop data (i + nameSize + 2 + len) buf
        | stopped => .ok stopped
  else .ok (buf, .success)
termination_by totalLen - i

def loadVar (buf : SysvarBuf) : Except Fault (SysvarBuf × ErrorCode) :=
  match buf.clearVar with
  | (buf, .success) => loadLoop buf.data 0 buf
  | stopped => .ok stopped

end SysvarBuf

end Gfiber.Sysvar
