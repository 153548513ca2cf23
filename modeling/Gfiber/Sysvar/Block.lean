import Gfiber.Lib.Slice
import Gfiber.Sysvar.Crc

/-! The data block of the system variables: 65528 bytes of records, a write
counter and a checksum over the records. -/

set_option autoImplicit false

namespace Gfiber.Sysvar

open Lib

/-- `SYSVAR_SUCCESS` and the errors the modelled functions return. -/
inductive ErrorCode where
  | success
  | openErr
  | writeErr
  | eraseErr
  | loadErr
  | saveErr
  | getErr
  | deleteErr
  | paramErr
  | crcErr
  | readonlyErr
  | existedErr
deriving DecidableEq, Repr

def blockSize : Nat := 0x00010000

def wc32Size : Nat := 4

def crc32Size : Nat := 4

/-- `total_len`: the bytes of a block that hold records. -/
def totalLen : Nat := blockSize - (wc32Size + crc32Size)

structure Block where
  bytes : List Byte
  length_bytes : bytes.length = blockSize
deriving DecidableEq

namespace Block

def erased : Block :=
  ⟨List.replicate blockSize 0xff, List.length_replicate⟩

/-- The first `total_len` bytes, which hold the records. -/
def body (block : Block) : List Byte :=
  block.bytes.take totalLen

def put (block : Block) (offset : Nat) (stretch : List Byte)
    (fits : offset + stretch.length ≤ blockSize) : Block :=
  ⟨writeAt block.bytes offset stretch, by
    rw [length_writeAt (block.length_bytes ▸ fits), block.length_bytes]⟩

def wordAt (block : Block) (offset : Nat) : Word :=
  ofLittleEndian (block.bytes.getD offset 0) (block.bytes.getD (offset + 1) 0)
    (block.bytes.getD (offset + 2) 0) (block.bytes.getD (offset + 3) 0)

def getWc32 (block : Block) : Word :=
  block.wordAt totalLen

def setWc32 (block : Block) : Block :=
  block.put totalLen (littleEndian (block.getWc32 + 1))
    (show totalLen + 4 ≤ blockSize by decide)

def getCrc32 (block : Block) : Word :=
  block.wordAt (totalLen + wc32Size)

def setCrc32 (block : Block) : Block :=
  block.put (totalLen + wc32Size) (littleEndian (sysvarCrc block.body))
    (show totalLen + 4 + 4 ≤ blockSize by decide)

def Passes (block : Block) : Prop :=
  block.getCrc32 = sysvarCrc block.body

instance (block : Block) : Decidable block.Passes :=
  inferInstanceAs (Decidable (block.getCrc32 = sysvarCrc block.body))

end Block

inductive CheckMode where
  | load
  | save
  | set
deriving DecidableEq, Repr

def checkVar (block : Block) : CheckMode → Block × ErrorCode
  | .load => (block, if block.Passes then .success else .crcErr)
  | .save => (block.setWc32, .success)
  | .set => (block.setCrc32, .success)

def clearBuf : Block :=
  Block.erased.setWc32.setCrc32

namespace Block

variable (block : Block)

section Put

variable {block} {offset : Nat} {stretch : List Byte} (fits : offset + stretch.length ≤ blockSize)

include fits

theorem body_put (after : totalLen ≤ offset) : (block.put offset stretch fits).body = block.body :=
  take_writeAt (block.length_bytes ▸ fits) after

theorem getD_put (index : Nat) : (block.put offset stretch fits).bytes.getD index 0 =
    if offset ≤ index ∧ index < offset + stretch.length then stretch.getD (index - offset) 0
    else block.bytes.getD index 0 := by
  have looked := getElem?_writeAt (block.length_bytes ▸ fits) index
  rw [List.getD_eq_getElem?_getD, put, looked]
  split
  · rw [List.getD_eq_getElem?_getD]
  · rw [List.getD_eq_getElem?_getD]

theorem wordAt_put_of_ge {position : Nat} (after : offset + stretch.length ≤ position) :
    (block.put offset stretch fits).wordAt position = block.wordAt position := by
  simp only [wordAt, getD_put fits]
  rw [if_neg (by omega), if_neg (by omega), if_neg (by omega), if_neg (by omega)]

end Put

theorem wordAt_put_littleEndian {offset : Nat} {word : Word}
    (fits : offset + (littleEndian word).length ≤ blockSize) :
    (block.put offset (littleEndian word) fits).wordAt offset = word := by
  have size := length_littleEndian word
  simp only [wordAt, getD_put fits]
  rw [if_pos (by omega), if_pos (by omega), if_pos (by omega), if_pos (by omega)]
  simp only [Nat.sub_self, Nat.add_sub_cancel_left]
  exact ofLittleEndian_bytes word

@[simp] theorem body_setWc32 : block.setWc32.body = block.body :=
  body_put _ le_rfl

@[simp] theorem body_setCrc32 : block.setCrc32.body = block.body :=
  body_put _ (Nat.le_add_right _ _)

@[simp] theorem getCrc32_setWc32 : block.setWc32.getCrc32 = block.getCrc32 :=
  wordAt_put_of_ge _ le_rfl

@[simp] theorem getCrc32_setCrc32 : block.setCrc32.getCrc32 = sysvarCrc block.body :=
  wordAt_put_littleEndian block _

@[simp] theorem passes_setWc32 : block.setWc32.Passes ↔ block.Passes := by
  rw [Passes, Passes, getCrc32_setWc32, body_setWc32]

@[simp] theorem passes_setCrc32 : block.setCrc32.Passes := by
  rw [Passes, getCrc32_setCrc32, body_setCrc32]

theorem body_erased : erased.body = List.replicate totalLen 0xff := by
  rw [body, erased, List.take_replicate]
  rfl

theorem getD_erased {index : Nat} (bound : index < blockSize) : erased.bytes.getD index 0 = 0xff := by
  rw [List.getD_eq_getElem?_getD, erased, List.getElem?_replicate, if_pos bound, Option.getD_some]

@[simp] theorem not_passes_erased : ¬erased.Passes := by
  intro passes
  have stored : erased.getCrc32 = 0xffffffff := by
    rw [getCrc32, wordAt, getD_erased (by decide), getD_erased (by decide), getD_erased (by decide),
      getD_erased (by decide)]
    decide
  rw [Passes, stored, body_erased] at passes
  exact sysvarCrc_erased_ne passes.symm

end Block

@[simp] theorem body_clearBuf : clearBuf.body = List.replicate totalLen 0xff := by
  rw [clearBuf, Block.body_setCrc32, Block.body_setWc32, Block.body_erased]

end Gfiber.Sysvar
