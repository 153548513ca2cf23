import Gfiber.Lib.Scanf

/-! The slots of mapped files, and the commands on them with the bytes that each touches. -/

set_option autoImplicit false

namespace Gfiber.Mmap

open Lib

section Slots

def maxSlots : Nat := 10

/-- What `mmap` returns when it fails. -/
def mapFailed : BitVec 64 :=
  BitVec.allOnes 64

structure Slot where
  path : List Byte
  fd : Int
  fileLength : BitVec 64
  map : BitVec 64
  addr : BitVec 64
  length : BitVec 64
deriving DecidableEq

/-- A slot that has not been used. -/
def Slot.zero : Slot :=
  ⟨[], 0, 0, 0, 0, 0⟩

abbrev Slots := Fin maxSlots → Slot

/-- Bytes of memory that a command reads or writes, from an offset to the map of a slot on. -/
structure Touch where
  slot : Slot
  offset : BitVec 64
  width : Nat
deriving DecidableEq

/-- What becomes of the file of the command `open`. -/
inductive Opened where
  | cannotOpen
  | cannotStat
  | mapped (fd : Int) (fileLength map : BitVec 64)
deriving DecidableEq

end Slots

section Arguments

variable (slots : Slots) (str : List Byte)

def asUnsigned : Option (BitVec 64) :=
  let (value, rest) := strtoul 64 str
  if rest = str ∨ rest ≠ [] then none else some value

def asAddr (slot : Fin maxSlots) : Option (BitVec 64) := do
  let value ← asUnsigned str
  if (slots slot).length ≤ value then none else some value

/-- The lengths of a word. -/
abbrev WordLen := { value : Nat // value = 1 ∨ value = 2 ∨ value = 4 ∨ value = 8 }

def asWordLen : Option WordLen := do
  let value ← asUnsigned str
  if known : value.toNat = 1 ∨ value.toNat = 2 ∨ value.toNat = 4 ∨ value.toNat = 8 then
    some ⟨value.toNat, known⟩
  else none

/-- A slot is open when its map is not the null pointer. -/
def asSlot (wantOpen : Bool) : Option (Fin maxSlots) := do
  let value ← asUnsigned str
  if small : value.toNat < maxSlots then
    let slot : Fin maxSlots := ⟨value.toNat, small⟩
    if wantOpen then if (slots slot).map = 0 then none else some slot
    else if (slots slot).map = 0 then some slot else none
  else none

end Arguments

section Requests

/-- What the arguments of a command ask for. -/
inductive Request where
  | idle
  | openFile (path : List Byte) (slot : Fin maxSlots) (fileAddr length : BitVec 64)
  | close (slot : Fin maxSlots)
  | read (slot : Fin maxSlots) (addr : BitVec 64) (wordlen : WordLen)
  | write (slot : Fin maxSlots) (addr : BitVec 64) (wordlen : WordLen) (value : BitVec 64)
  | dump (slot : Fin maxSlots) (addr : BitVec 64) (wordlen : WordLen) (count : BitVec 64)
  | mread (slot : Fin maxSlots) (addrReg cmdReg port dev reg count : BitVec 64)
  | mwrite (slot : Fin maxSlots) (addrReg cmdReg port dev reg value : BitVec 64)
deriving DecidableEq

abbrev Command := Slots → List (List Byte) → Option Request

/-- Each command prints how it is used. -/
def helped (command : Command) : Command := fun slots av =>
  match av with
  | _ :: first :: _ => if first = bytesOf "help" then some .idle else command slots av
  | _ => command slots av

def cmdOpen : Command := helped fun slots av =>
  match av with
  | [_, slot, path, offset, len] => do
      let slot ← asSlot slots slot false
      let offset ← asUnsigned offset
      let len ← asUnsigned len
      return .openFile path slot offset len
  | _ => none

def cmdClose : Command := helped fun slots av =>
  match av with
  | [_, slot] => do
      let slot ← asSlot slots slot true
      return .close slot
  | _ => none

def cmdRead : Command := helped fun slots av =>
  match av with
  | [_, slot, addr, wordlen] => do
      let slot ← asSlot slots slot true
      let addr ← asAddr slots addr slot
      let wordlen ← asWordLen wordlen
      return .read slot addr wordlen
  | _ => none

def cmdWrite : Command := helped fun slots av =>
  match av with
  | [_, slot, addr, wordlen, value] => do
      let slot ← asSlot slots slot true
      let addr ← asAddr slots addr slot
      let wordlen ← asWordLen wordlen
      let value ← asUnsigned value
      return .write slot addr wordlen value
  | _ => none

/-- The address of a dump is not compared with the length of the slot. -/
def cmdDump : Command := helped fun slots av =>
  match av with
  | [_, slot, addr, wordlen, count] => do
      let slot ← asSlot slots slot true
      let addr ← asUnsigned addr
      let wordlen ← asWordLen wordlen
      let count ← asUnsigned count
      return .dump slot addr wordlen count
  | _ => none

def cmdMsleep : Command := helped fun _ av =>
  match av with
  | [_, msecs] => do
      let _ ← asUnsigned msecs
      return .idle
  | _ => none

def cmdEcho : Command := helped fun _ _ => some .idle

def cmdMread : Command := helped fun slots av =>
  match av with
  | [_, slot, addrReg, cmdReg, port, dev, reg, count] => do
      let slot ← asSlot slots slot true
      let addrReg ← asAddr slots addrReg slot
      let cmdReg ← asAddr slots cmdReg slot
      let port ← asUnsigned port
      let dev ← asUnsigned dev
      let reg ← asUnsigned reg
      let count ← asUnsigned count
      return .mread slot addrReg cmdReg port dev reg count
  | _ => none

def cmdMwrite : Command := helped fun slots av =>
  match av with
  | [_, slot, addrReg, cmdReg, port, dev, reg, value] => do
      let slot ← asSlot slots slot true
      let addrReg ← asAddr slots addrReg slot
      let cmdReg ← asAddr slots cmdReg slot
      let port ← asUnsigned port
      let dev ← asUnsigned dev
      let reg ← asUnsigned reg
      let value ← asUnsigned value
      return .mwrite slot addrReg cmdReg port dev reg value
  | _ => none

def cmds : List (List Byte × Command) :=
  [(bytesOf "open", cmdOpen), (bytesOf "close", cmdClose), (bytesOf "read", cmdRead),
    (bytesOf "write", cmdWrite), (bytesOf "dump", cmdDump), (bytesOf "msleep", cmdMsleep),
    (bytesOf "echo", cmdEcho), (bytesOf "mread", cmdMread), (bytesOf "mwrite", cmdMwrite)]

end Requests

section Memory

/-- The words of one line of a dump, from the index `i` on. -/
def dumpLine (slot : Slot) (addr : BitVec 64) (wordlen : WordLen) (count i : Nat) : List Touch :=
  ((List.range (16 / wordlen.val)).takeWhile (i + · < count)).map fun j =>
    ⟨slot, addr + BitVec.ofNat 64 ((i + j) * wordlen.val), wordlen.val⟩

/-- An index that wraps around starts again, with the words that have been read. -/
def doHexdump (slot : Slot) (addr : BitVec 64) (wordlen : WordLen) (count i : Nat) : List Touch :=
  if i < count then
    have some_word : 0 < 16 / wordlen.val := by
      rcases wordlen.property with same | same | same | same
      · rw [same]; decide
      · rw [same]; decide
      · rw [same]; decide
      · rw [same]; decide
    dumpLine slot addr wordlen count i ++ doHexdump slot addr wordlen count (i + 16 / wordlen.val)
  else []
termination_by count - i

def cmdBusy : BitVec 32 :=
  1 <<< 30

/-- What a register shows each time it is read. -/
abbrev Readings := Nat → BitVec 32

/-- The outcome of a part of a command: the touches, whether the registers have answered in time,
and how often the command register has been read. -/
structure Exchange where
  touches : List Touch
  answered : Bool
  next : Nat

def waitForBits (creg : Touch) (readings : Readings) : Nat → Nat → Exchange
  | 0, next => ⟨[], false, next⟩
  | tries + 1, next =>
      if readings next &&& cmdBusy = 0 then ⟨[creg], true, next + 1⟩
      else
        let later := waitForBits creg readings tries (next + 1)
        { later with touches := creg :: later.touches }

def maxTries : Nat := 100

/-- One command to the device behind the registers: the remote register and the command are written,
and the result is read. -/
def exchange (areg creg : Touch) (readings : Readings) (next : Nat) : Exchange :=
  let idle := waitForBits creg readings maxTries next
  if idle.answered then
    let done := waitForBits creg readings maxTries idle.next
    let result := if done.answered then [creg] else []
    ⟨idle.touches ++ [areg, creg] ++ done.touches ++ result, done.answered,
      if done.answered then done.next + 1 else done.next⟩
  else idle

def doMread (areg creg : Touch) (readings : Readings) : Nat → Nat → List Touch
  | 0, _ => []
  | count + 1, next =>
      let once := exchange areg creg readings next
      once.touches ++ if once.answered then doMread areg creg readings count once.next else []

def doMwrite (areg creg : Touch) (readings : Readings) : List Touch :=
  (exchange areg creg readings 0).touches

/-- The registers have 32 bits. -/
def register (slot : Slot) (addr : BitVec 64) : Touch :=
  ⟨slot, addr, 4⟩

/-- What a request touches. -/
def Request.touches (slots : Slots) (readings : Readings) : Request → List Touch
  | .idle => []
  | .openFile _ _ _ _ => []
  | .close _ => []
  | .read slot addr wordlen => [⟨slots slot, addr, wordlen.val⟩]
  | .write slot addr wordlen _ => [⟨slots slot, addr, wordlen.val⟩]
  | .dump slot addr wordlen count => doHexdump (slots slot) addr wordlen count.toNat 0
  | .mread slot addrReg cmdReg _ _ _ count =>
      doMread (register (slots slot) addrReg) (register (slots slot) cmdReg) readings count.toNat 0
  | .mwrite slot addrReg cmdReg _ _ _ _ =>
      doMwrite (register (slots slot) addrReg) (register (slots slot) cmdReg) readings

/-- The sum of 64 bits is compared with the size of the file, and the map with the null pointer. -/
def doOpen (slots : Slots) (path : List Byte) (slot : Fin maxSlots) (fileAddr length : BitVec 64) :
    Opened → Slots
  | .cannotOpen => slots
  | .cannotStat => slots
  | .mapped fd fileLength map =>
      if fileLength < fileAddr + length then slots
      else if map = 0 then slots
      else Function.update slots slot ⟨path.take 4096, fd, fileLength, map, fileAddr, length⟩

def doClose (slots : Slots) (slot : Fin maxSlots) : Slots :=
  Function.update slots slot { Slot.zero with fd := -1 }

/-- The slots after a request. -/
def Request.after (slots : Slots) (opened : Opened) : Request → Slots
  | .openFile path slot fileAddr length => doOpen slots path slot fileAddr length opened
  | .close slot => doClose slots slot
  | _ => slots

/-- The registers have answered in time for all `count` commands. -/
def mreadAnswered (areg creg : Touch) (readings : Readings) : Nat → Nat → Bool
  | 0, _ => true
  | count + 1, next =>
      let once := exchange areg creg readings next
      once.answered && mreadAnswered areg creg readings count once.next

/-- The command returns an error. -/
def Request.fails (slots : Slots) (readings : Readings) (opened : Opened) : Request → Bool
  | .openFile _ _ fileAddr length =>
      match opened with
      | .cannotOpen => true
      | .cannotStat => true
      | .mapped _ fileLength map => fileLength < fileAddr + length || map = 0
  | .mread slot addrReg cmdReg _ _ _ count =>
      !mreadAnswered (register (slots slot) addrReg) (register (slots slot) cmdReg) readings
        count.toNat 0
  | .mwrite slot addrReg cmdReg _ _ _ _ =>
      !(exchange (register (slots slot) addrReg) (register (slots slot) cmdReg) readings 0).answered
  | _ => false

end Memory

end Gfiber.Mmap
