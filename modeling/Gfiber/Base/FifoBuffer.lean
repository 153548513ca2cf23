import Gfiber.Lib.Ring
import Gfiber.Lib.Word

/-! The stream buffer between a reader and a writer. Each call holds the lock, so
calls of different threads come one after another. -/

set_option autoImplicit false

namespace Gfiber.Base

open Lib

inductive StreamState where
  | closed
  | opening
  | opened
deriving DecidableEq, Repr

inductive StreamResult where
  | error
  | success
  | block
  | eos
deriving DecidableEq, Repr

/-- The events that the buffer posts to the thread that owns it. -/
inductive StreamEvent where
  | read
  | write
deriving DecidableEq, Repr

/-- A sum or a difference as a `size_t` has it. -/
def sizeT (value : Int) : Nat :=
  (value % 2 ^ 64).toNat

/-- `bufferLength` is the length of the allocated block. -/
structure FifoBuffer where
  state : StreamState
  buffer : List Byte
  dataLength : Nat
  readPosition : Nat
deriving DecidableEq, Repr

namespace FifoBuffer

def bufferLength (fifo : FifoBuffer) : Nat :=
  fifo.buffer.length

/-- A buffer in the block that `new` returned, whatever that holds. -/
def new (block : List Byte) : FifoBuffer :=
  ⟨.opened, block, 0, 0⟩

variable (fifo : FifoBuffer)

/-- The capacity asked for is the length of the new block. -/
def setCapacity (block : List Byte) : Bool × FifoBuffer :=
  if fifo.dataLength > block.length then (false, fifo)
  else if block.length ≠ fifo.bufferLength then
    let copy := Ring.copyOut fifo.buffer fifo.readPosition fifo.dataLength
    (true, { fifo with buffer := writeAt block 0 copy, readPosition := 0 })
  else (true, fifo)

def readOffsetLocked (bytes offset : Nat) : StreamResult × List Byte :=
  if offset ≥ fifo.dataLength then
    (if fifo.state ≠ .closed then .block else .eos, [])
  else
    let available := fifo.dataLength - offset
    let readPosition := (fifo.readPosition + offset) % fifo.bufferLength
    (.success, Ring.copyOut fifo.buffer readPosition (min bytes available))

/-- The sums with the offset of the caller wrap around; all others stay below
the length of a block and its double. -/
def writeOffsetLocked (data : List Byte) (offset : Nat) : StreamResult × Nat × FifoBuffer :=
  if fifo.state = .closed then (.eos, 0, fifo)
  else if sizeT (fifo.dataLength + offset) ≥ fifo.bufferLength then (.block, 0, fifo)
  else
    let available := sizeT (fifo.bufferLength - fifo.dataLength - offset)
    let writePosition :=
      sizeT (fifo.readPosition + fifo.dataLength + offset) % fifo.bufferLength
    let copy := min data.length available
    (.success, copy,
      { fifo with buffer := Ring.copyIn fifo.buffer writePosition (data.take copy) })

def read (bytes : Nat) : StreamResult × List Byte × List StreamEvent × FifoBuffer :=
  let wasWritable := fifo.dataLength < fifo.bufferLength
  match fifo.readOffsetLocked bytes 0 with
  | (.success, data) =>
      (.success, data, if ¬wasWritable ∧ data.length > 0 then [.write] else [],
        { fifo with
          readPosition := (fifo.readPosition + data.length) % fifo.bufferLength
          dataLength := fifo.dataLength - data.length })
  | (result, data) => (result, data, [], fifo)

def write (data : List Byte) : StreamResult × Nat × List StreamEvent × FifoBuffer :=
  let wasReadable := fifo.dataLength > 0
  match fifo.writeOffsetLocked data 0 with
  | (.success, copy, after) =>
      (.success, copy, if ¬wasReadable ∧ copy > 0 then [.read] else [],
        { after with dataLength := after.dataLength + copy })
  | (result, copy, after) => (result, copy, [], after)

def close : FifoBuffer :=
  { fifo with state := .closed }

/-- The readable bytes that the pointer shows. -/
def getReadData : List Byte :=
  let size :=
    if fifo.readPosition + fifo.dataLength ≤ fifo.bufferLength then fifo.dataLength
    else fifo.bufferLength - fifo.readPosition
  (fifo.buffer.drop fifo.readPosition).take size

/-- Undefined where the assertion fails or a remainder is by zero. -/
def consumeReadData (size : Nat) : Option (List StreamEvent × FifoBuffer) :=
  if fifo.dataLength < size ∨ fifo.bufferLength = 0 then none
  else
    let wasWritable := fifo.dataLength < fifo.bufferLength
    some (if ¬wasWritable ∧ size > 0 then [.write] else [],
      { fifo with
        readPosition := (fifo.readPosition + size) % fifo.bufferLength
        dataLength := fifo.dataLength - size })

/-- The position and the size of the block that the caller may fill, none for the
null pointer. Undefined without a block. -/
def getWriteBuffer : Option (Option (Nat × Nat) × FifoBuffer) :=
  if fifo.state = .closed then some (none, fifo)
  else if fifo.bufferLength = 0 then none
  else
    let readPosition := if fifo.dataLength = 0 then 0 else fifo.readPosition
    let writePosition := (readPosition + fifo.dataLength) % fifo.bufferLength
    let size :=
      if writePosition ≥ readPosition then fifo.bufferLength - writePosition
      else readPosition - writePosition
    some (some (writePosition, size), { fifo with readPosition })

/-- What a caller with that pointer does: it stores bytes there. -/
def fill (position : Nat) (data : List Byte) : FifoBuffer :=
  { fifo with buffer := writeAt fifo.buffer position data }

/-- Undefined where the assertion fails. -/
def consumeWriteBuffer (size : Nat) : Option (List StreamEvent × FifoBuffer) :=
  if fifo.bufferLength - fifo.dataLength < size then none
  else
    let wasReadable := fifo.dataLength > 0
    some (if ¬wasReadable ∧ size > 0 then [.read] else [],
      { fifo with dataLength := fifo.dataLength + size })

def getWriteRemaining : Nat :=
  fifo.bufferLength - fifo.dataLength

end FifoBuffer

/-- A call, with the block that an allocation returns or the bytes that the caller
stores through the pointer it is given. -/
inductive FifoCall where
  | setCapacity (block : List Byte)
  | readOffset (bytes offset : Nat)
  | writeOffset (data : List Byte) (offset : Nat)
  | read (bytes : Nat)
  | write (data : List Byte)
  | close
  | getReadData
  | consumeReadData (size : Nat)
  | getWriteBuffer (data : List Byte)
  | consumeWriteBuffer (size : Nat)
  | getWriteRemaining
deriving DecidableEq, Repr

inductive FifoReply where
  | done
  | resized (success : Bool)
  | got (result : StreamResult) (data : List Byte)
  | stored (result : StreamResult) (count : Nat)
  | shown (data : List Byte)
  | lent (size : Option Nat)
  | remaining (size : Nat)
deriving DecidableEq, Repr

/-- One call with its reply and the events it posts. -/
structure FifoExchange where
  call : FifoCall
  reply : FifoReply
  events : List StreamEvent
deriving DecidableEq, Repr

namespace FifoBuffer

/-- A caller stores nothing through the null pointer, and no more than its size. -/
def lend (data : List Byte) (fifo : FifoBuffer) :
    Option (FifoReply × List StreamEvent × FifoBuffer) :=
  match fifo.getWriteBuffer with
  | none => none
  | some (none, after) => if data = [] then some (.lent none, [], after) else none
  | some (some (position, size), after) =>
      if data.length ≤ size then some (.lent (some size), [], after.fill position data) else none

def perform (fifo : FifoBuffer) : FifoCall → Option (FifoReply × List StreamEvent × FifoBuffer)
  | .setCapacity block =>
      let (success, after) := fifo.setCapacity block
      some (.resized success, [], after)
  | .readOffset bytes offset =>
      let (result, data) := fifo.readOffsetLocked bytes offset
      some (.got result data, [], fifo)
  | .writeOffset data offset =>
      let (result, count, after) := fifo.writeOffsetLocked data offset
      some (.stored result count, [], after)
  | .read bytes =>
      let (result, data, events, after) := fifo.read bytes
      some (.got result data, events, after)
  | .write data =>
      let (result, count, events, after) := fifo.write data
      some (.stored result count, events, after)
  | .close => some (.done, [], fifo.close)
  | .getReadData => some (.shown fifo.getReadData, [], fifo)
  | .consumeReadData size =>
      (fifo.consumeReadData size).map fun (events, after) => (.done, events, after)
  | .getWriteBuffer data => fifo.lend data
  | .consumeWriteBuffer size =>
      (fifo.consumeWriteBuffer size).map fun (events, after) => (.done, events, after)
  | .getWriteRemaining => some (.remaining fifo.getWriteRemaining, [], fifo)

def Step (fifo : FifoBuffer) (exchange : FifoExchange) (after : FifoBuffer) : Prop :=
  fifo.perform exchange.call = some (exchange.reply, exchange.events, after)

end FifoBuffer

end Gfiber.Base
