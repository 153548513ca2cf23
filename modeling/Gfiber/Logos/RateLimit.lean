import Mathlib.Data.Int.Init
import Gfiber.Lib.CString
import Gfiber.Lib.Run

/-! The token buckets that limit what a program may log. Times are milliseconds
and `ssize_t` has 64 bits. -/

set_option autoImplicit false

namespace Gfiber.Logos

open Lib

section Buckets

/-- `SECS_PER_BURST`. -/
def secsPerBurst : Int := 300

/-- `SECS_PER_DAY`. -/
def secsPerDay : Int := 24 * 60 * 60

/-- `BURST_LOG_SIZE / MAX_BURSTING_APPS`. -/
def defaultBytesPerBurst : Int := 10 * 1000 * 1000 / 10

/-- `DAILY_LOG_SIZE / MAX_DAILY_APPS`. -/
def defaultBytesPerDay : Int := 100 * 1000 * 1000 / 20

/-- What a 64-bit operation leaves of its result. -/
def wrap (value : Int) : Int :=
  value.bmod (2 ^ 64)

inductive BucketType where
  | informational
  | mandatory
deriving DecidableEq, Repr

/-- A text around a `%d`. -/
structure Format where
  before : String
  after : String
deriving DecidableEq, Repr

def Format.print (format : Format) (value : Word) : List Byte :=
  bytesOf format.before ++ printInt value.toInt ++ bytesOf format.after

structure Bucket where
  msgStart : Format
  msgEnd : Format
  type : BucketType
  maxBytes : Int
  fillRate : Int
  available : Int
  numSkipped : Word
deriving DecidableEq, Repr

def initBuckets (bytesPerBurst bytesPerDay : Int) : List Bucket :=
  let burst : Bucket :=
    { msgStart := ⟨"W: burst limit: dropping messages to prevent overflow (", " bytes/sec)."⟩
      msgEnd := ⟨"W: burst limit: ", " messages were dropped."⟩
      type := .mandatory
      maxBytes := bytesPerBurst.tdiv 2
      fillRate := (bytesPerBurst.tdiv 2).tdiv secsPerBurst
      available := (bytesPerBurst.tdiv 2).tdiv 2
      numSkipped := 0 }
  let daily : Bucket :=
    { msgStart := ⟨"W: daily limit: dropping messages (", " bytes/sec)."⟩
      msgEnd := ⟨"W: daily limit: ", " messages were dropped."⟩
      type := .mandatory
      maxBytes := bytesPerDay
      fillRate := bytesPerDay.tdiv secsPerDay
      available := bytesPerDay.tdiv 2
      numSkipped := 0 }
  let warning : Bucket :=
    { msgStart := ⟨"I: burst notice: this log rate is unsustainable (", " bytes/sec)."⟩
      msgEnd := ⟨"I: burst notice: ", " messages would have been dropped."⟩
      type := .informational
      maxBytes := burst.maxBytes
      fillRate := daily.fillRate
      available := burst.available
      numSkipped := 0 }
  [burst, daily, warning]

/-- The limits that `main` takes from its arguments, as `atoll` reads them, where
these are allowed. -/
def bucketLimits (argBurst argDay : Option Word64) : Option (Int × Int) :=
  let bytesPerBurst := (argBurst.map BitVec.toInt).getD defaultBytesPerBurst
  let bytesPerBurst := if bytesPerBurst = 0 then defaultBytesPerBurst else bytesPerBurst
  let bytesPerDay := (argDay.map BitVec.toInt).getD 0
  let bytesPerDay := if bytesPerDay = 0 then defaultBytesPerDay else bytesPerDay
  if bytesPerBurst < secsPerBurst * 2 then none
  else if bytesPerDay < secsPerDay then none
  else some (bytesPerBurst, bytesPerDay)

/-- The bucket after some milliseconds, or nothing where the assertion fails. -/
def Bucket.fill (tdiff : Int) (bucket : Bucket) : Option Bucket :=
  let add := (wrap (tdiff * bucket.fillRate)).tdiv 1000
  if add < 0 then none
  else
    let available := wrap (bucket.available + add)
    some { bucket with
      available := if available > bucket.maxBytes then bucket.maxBytes else available }

end Buckets

section Limiter

structure Limiter where
  buckets : List Bucket
  lastAddTime : Int
  skipping : Bool
  backoff : Int
  unlimitedMode : Bool

/-- The static variables as the program starts. -/
def Limiter.start (bytesPerBurst bytesPerDay : Int) : Limiter where
  buckets := initBuckets bytesPerBurst bytesPerDay
  lastAddTime := 0
  skipping := false
  backoff := 10 * 1000 / 2
  unlimitedMode := false

namespace Limiter

variable (limiter : Limiter)

/-- The buckets are filled, for the time since they were filled last. -/
def refills (now : Int) : Bool :=
  let tdiff := now - limiter.lastAddTime
  (!limiter.skipping && tdiff ≥ 1000) || (limiter.skipping && tdiff ≥ limiter.backoff)

def maybeFillBuckets (now : Int) : Option Limiter :=
  if limiter.lastAddTime = 0 then
    some { limiter with
      lastAddTime := now
      buckets := limiter.buckets.map fun bucket =>
        { bucket with available := bucket.maxBytes.tdiv 2 } }
  else if limiter.refills now then do
    let buckets ← limiter.buckets.mapM (Bucket.fill (now - limiter.lastAddTime))
    some { limiter with buckets := buckets, lastAddTime := now }
  else some limiter

/-- What the loop over the buckets has found so far. -/
structure Room where
  allOk : Bool
  nowSkipping : Bool
  backoff : Int
  notices : List (List Byte)

def charge (total : Int) (bucket : Bucket) (room : Room) : Bucket × Room :=
  if bucket.available ≥ total || limiter.unlimitedMode then
    ({ bucket with numSkipped := 0, available := wrap (bucket.available - total) },
      if bucket.numSkipped ≠ 0 then
        { room with notices := room.notices ++ [bucket.msgEnd.print bucket.numSkipped] }
      else room)
  else
    let (bucket, room) :=
      if bucket.numSkipped = 0 then
        let backoff :=
          if !room.nowSkipping && !limiter.skipping then room.backoff * 2 else room.backoff
        ({ bucket with available := 0 },
          { room with
            notices := room.notices ++ [bucket.msgStart.print (BitVec.ofInt 32 bucket.fillRate)]
            backoff := if backoff > 120 * 1000 then 120 * 1000 else backoff })
      else (bucket, room)
    ({ bucket with numSkipped := bucket.numSkipped + 1 },
      { room with
        nowSkipping := true
        allOk := match bucket.type with
          | .mandatory => false
          | .informational => room.allOk })

def chargeAll (total : Int) : List Bucket → Room → List Bucket × Room
  | [], room => ([], room)
  | bucket :: buckets, room =>
      let (bucket, room) := limiter.charge total bucket room
      let (buckets, room) := chargeAll total buckets room
      (bucket :: buckets, room)

/-- Whether the message has room, the notices about it, and the buckets after it. -/
def allBucketsHaveRoom (total : Int) : Bool × List (List Byte) × Limiter :=
  let (buckets, room) := limiter.chargeAll total limiter.buckets ⟨true, false, limiter.backoff, []⟩
  (room.allOk, room.notices,
    { limiter with buckets := buckets, skipping := room.nowSkipping, backoff := room.backoff })

end Limiter

/-- What is written by `_flush_unlimited`, without the header and the newline. -/
inductive Written where
  | notice (text : List Byte)
  | message (text : List Byte)
deriving DecidableEq, Repr

/-- The bytes of a message, with header and newline. Notices are not counted. -/
def Written.size (headerlen : Nat) : Written → Int
  | .notice _ => 0
  | .message text => headerlen + text.length + 1

def flushRatelimited (headerlen : Nat) (now : Int) (buf : List Byte) (limiter : Limiter) :
    Option (List Written × Limiter) := do
  let total : Int := headerlen + buf.length + 1
  let limiter ← limiter.maybeFillBuckets now
  let (room, notices, limiter) := limiter.allBucketsHaveRoom total
  some (notices.map .notice ++ (if room then [.message buf] else []), limiter)

/-- Control characters become printable ones. -/
def fixBuf (buf : List Byte) : List Byte :=
  buf.foldl (fun out byte =>
    if byte ≥ 32 || byte = ascii '\n' then out ++ [byte]
    else if byte = ascii '\t' then out ++ List.replicate (8 - out.length % 8) (ascii ' ')
    else if byte = ascii '\r' then out
    else out ++ bytesOf "\\x" ++ pad 2 '0' ((Nat.toDigits 16 byte.toNat).map ascii)) []

def hasControl (buf : List Byte) : Bool :=
  buf.any fun byte => byte < 32 && byte ≠ ascii '\n'

/-- What is logged of a record. -/
def cleaned (buf : List Byte) : List Byte :=
  if hasControl buf then fixBuf buf else buf

def flush (headerlen : Nat) (now : Int) (buf : List Byte) (limiter : Limiter) :
    Option (List Written × Limiter) :=
  if buf.any fun byte => byte < 32 && byte ≠ ascii '\n' then
    flushRatelimited headerlen now (fixBuf buf) limiter
  else flushRatelimited headerlen now buf limiter

end Limiter

section Messages

/-- A program that logs. `t0` is the time of the first message, `clock` that of
the last one, and `aborted` says that an assertion has failed. -/
structure Logger where
  headerlen : Nat
  limiter : Limiter
  t0 : Option Int
  clock : Int
  written : List Written
  aborted : Bool

structure Message where
  now : Int
  buf : List Byte

namespace Logger

variable (logger : Logger)

def start (headerlen : Nat) (bytesPerBurst bytesPerDay : Int) : Logger where
  headerlen := headerlen
  limiter := .start bytesPerBurst bytesPerDay
  t0 := none
  clock := 0
  written := []
  aborted := false

def take (message : Message) : Logger :=
  let logger := { logger with t0 := some (logger.t0.getD message.now), clock := message.now }
  match flush logger.headerlen message.now message.buf logger.limiter with
  | none => { logger with aborted := true }
  | some (written, limiter) =>
      { logger with limiter := limiter, written := logger.written ++ written }

/-- The clock is positive and does not go back. -/
def Step (logger : Logger) (message : Message) (next : Logger) : Prop :=
  logger.aborted = false ∧ 0 < message.now ∧ logger.clock ≤ message.now ∧
    message.now < 2 ^ 63 ∧ next = logger.take message

/-- The bytes of the messages that were let through. -/
def passed : Int :=
  (logger.written.map (Written.size logger.headerlen)).sum

end Logger

end Messages

end Gfiber.Logos
