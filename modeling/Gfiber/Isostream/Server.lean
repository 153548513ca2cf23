import Gfiber.Lib.Struct
import Gfiber.Lib.Run

/-! The server of `isostream`, which writes at the rate that the client has asked for. -/

set_option autoImplicit false

namespace Gfiber.Isostream

open Lib

section Requests

def magic : Nat := 0x424c4f50

def bufsize : Int := 1024 * 1024

def minPeriodsPerSec : Int := 10

def maxMbits : Int := 1000

/-- The width of `long`. -/
inductive LongWidth where
  | bits32
  | bits64
deriving DecidableEq, Repr

/-- What `long` makes of an unsigned word. -/
def LongWidth.ofWord (width : LongWidth) (word : Nat) : Int :=
  match width with
  | bits32 => (BitVec.ofNat 32 word).toInt
  | bits64 => word

/-- The rate of a request, unless it cannot be read, is cut short or is refused. -/
def acceptRequest (width : LongWidth) (received : Option (List Byte)) : Option Int := do
  let req ← received
  if req.length < 8 then none
  else if ofBigEndian (req.take 4) ≠ magic then none
  else
    let megabitsPerSec := width.ofWord (ofBigEndian ((req.drop 4).take 4))
    if megabitsPerSec < 0 ∨ maxMbits < megabitsPerSec then none else some megabitsPerSec

end Requests

section Passes

/-- A result of `long long`. What is beyond it is undefined. -/
def longLong (value : Int) : Option Int :=
  if -2 ^ 63 ≤ value ∧ value < 2 ^ 63 then some value else none

/-- A division by zero is undefined. -/
def divide (dividend divisor : Int) : Option Int :=
  if divisor = 0 then none else some (dividend.tdiv divisor)

def bytesPerPeriod (megabitsPerSec : Int) : Int :=
  let bytes := ((megabitsPerSec * 1000000).tdiv 8).tdiv minPeriodsPerSec
  if bytes > 65536 then 65536 else bytes

/-- What a pass of the loop asks for: a sleep of so many nanoseconds, or a write of so many bytes. -/
inductive Action where
  | sleep (delayNsec : Int)
  | write (toWrite : Int)
deriving DecidableEq, Repr

variable (megabitsPerSec start : Int)

/-- megabits/sec * microseconds = bits -/
def act (total now : Int) : Option Action := do
  let elapsed ← longLong (now - start)
  let bits ← longLong (elapsed * megabitsPerSec)
  let toWrite ← longLong (bits.tdiv 8 - total)
  if toWrite < bytesPerPeriod megabitsPerSec then
    let missing ← longLong ((bytesPerPeriod megabitsPerSec - toWrite) * 8 * 1000)
    return .sleep (← divide missing megabitsPerSec)
  else return .write (if toWrite > bufsize then bufsize else toWrite)

/-- What the server has written, and when it has last looked at the clock. -/
structure Server where
  now : Int
  total : Int
  running : Bool

def Server.begin : Server :=
  ⟨start, 0, true⟩

inductive Result where
  | slept
  | wrote (bytes : Int)
  | failed
deriving DecidableEq, Repr

/-- A pass, with the time and what comes of its system call. -/
structure Event where
  now : Int
  result : Result

/-- A write of some bytes writes one of them at least. -/
inductive Step : Server → Event → Server → Prop where
  | sleep {server : Server} {now delayNsec : Int} (running : server.running)
      (later : server.now ≤ now)
      (asked : act megabitsPerSec start server.total now = some (.sleep delayNsec)) :
      Step server ⟨now, .slept⟩ { server with now }
  | write {server : Server} {now toWrite bytes : Int} (running : server.running)
      (later : server.now ≤ now)
      (asked : act megabitsPerSec start server.total now = some (.write toWrite))
      (positive : 0 ≤ bytes) (short : bytes ≤ toWrite) (some_byte : 0 < toWrite → 0 < bytes) :
      Step server ⟨now, .wrote bytes⟩ { server with now, total := server.total + bytes }
  | fail {server : Server} {now : Int} {action : Action} (running : server.running)
      (later : server.now ≤ now)
      (asked : act megabitsPerSec start server.total now = some action) :
      Step server ⟨now, .failed⟩ { server with now, running := false }
  | undefined {server : Server} {event : Event} (running : server.running)
      (later : server.now ≤ event.now)
      (asked : act megabitsPerSec start server.total event.now = none) :
      Step server event { server with now := event.now, running := false }

end Passes

end Gfiber.Isostream
