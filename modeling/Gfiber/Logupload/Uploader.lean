import Gfiber.Lib.Run
import Gfiber.Logupload.Anonymize

/-! How the kernel log is read, line by line, into the buffer that is uploaded.
A call of `parse_and_consume_log_data` runs until it needs the next record and
goes on when the record comes. -/

set_option autoImplicit false

namespace Gfiber.Logupload

open Lib

section Lines

def logMarkerStart : List Byte := bytesOf "*LOG_UPLOAD_START*"

def logMarkerEnd : List Byte := bytesOf "*LOG_UPLOAD_END*"

structure LineData where
  level : Word
  seq : Word64
  tsNsec : Word64
  /-- The text up to its newline, behind which a NUL is put. -/
  text : List Byte
deriving DecidableEq, Repr

/-- The data of the line at the start of what can be read, and where the NUL is put. -/
def parseLineData (line : List Byte) : Search (LineData × Nat) := do
  let comma1 ← strchr (ascii ',') line
  let comma2 ← strchr (ascii ',') comma1.tail
  let semi ← strchr (ascii ';') comma2.tail
  let newline ← strchr (ascii '\n') semi
  .found ({ level := atoi line
            seq := strtoull comma1.tail
            tsNsec := strtoull comma2.tail
            text := semi.tail.take (semi.length - newline.length) },
    line.length - newline.length + 1)

def LineData.timeSec (line : LineData) : Int :=
  (BitVec.ofNat 32 (line.tsNsec.toNat / 1000000)).toInt

def LineData.timeUsec (line : LineData) : Nat :=
  line.tsNsec.toNat % 1000000

/-- What is put into the log buffer. -/
inductive Item where
  | raw (bytes : List Byte)
  | missed (next : LineData) (count : Word64)
  | copied (line : LineData)
deriving DecidableEq, Repr

/-- `<%d>[%5d.%06d] `. -/
def stamp (level : Int) (line : LineData) : List Byte :=
  bytesOf "<" ++ printInt level ++ bytesOf ">[" ++ pad 5 ' ' (printInt line.timeSec) ++
    bytesOf "." ++ pad 6 '0' (printNat line.timeUsec) ++ bytesOf "] "

def Item.text : Item → List Byte
  | .raw bytes => bytes
  | .missed next count =>
      stamp 7 next ++ bytesOf "WARNING: missed " ++ printNat count.toNat ++
        bytesOf " log entries\n"
  | .copied line => stamp line.level.toInt line ++ line.text

end Lines

section Parameters

/-- `struct log_parse_params`. -/
structure LogParseParams where
  uploadAll : Bool
  lastLogCounter : Word64
  logBuffer : Memory Byte
  totalRead : Nat
  lineBuffer : Memory Byte
  lineBufferSize : Nat
  lastLineValid : Bool

/-- The local variables. Markers are places in the log buffer. -/
structure Locals where
  logBufferSize : Nat
  wroteStartMarker : Bool
  checkForMarkers : Bool
  lastStartMarker : Option Nat
  lastStartBeforeEndMarker : Option Nat
deriving DecidableEq, Repr

def LogParseParams.memcpy (params : LogParseParams) (bytes : List Byte) : LogParseParams :=
  { params with
    logBuffer := params.logBuffer.write params.totalRead bytes
    totalRead := params.totalRead + bytes.length }

/-- The text is cut where the buffer ends, but counted whole. -/
def LogParseParams.snprintf (params : LogParseParams) (locals : Locals) (text : List Byte) :
    LogParseParams :=
  let size := (locals.logBufferSize + 2 ^ 64 - params.totalRead) % 2 ^ 64
  let shown := if size = 0 then [] else text.take (size - 1) ++ [0]
  { params with
    logBuffer := params.logBuffer.write params.totalRead shown
    totalRead := params.totalRead + text.length }

def LogParseParams.full (params : LogParseParams) (locals : Locals) : Bool :=
  params.totalRead + 2 * params.lineBufferSize ≥ locals.logBufferSize

/-- The start marker that the text is, or the end marker that closes the last one. -/
def Locals.noteMarkers (locals : Locals) (totalRead : Nat) (text : List Byte) : Locals :=
  if locals.checkForMarkers then
    if strstr text logMarkerEnd ∧ locals.lastStartMarker.isSome then
      { locals with lastStartBeforeEndMarker := locals.lastStartMarker, lastStartMarker := none }
    else if strstr text logMarkerStart then { locals with lastStartMarker := some totalRead }
    else locals
  else locals

/-- The start marker from which on the log is uploaded. -/
def Locals.uploadMarker (locals : Locals) : Option Nat :=
  if locals.checkForMarkers then locals.lastStartBeforeEndMarker else none

/-- What is left of the length when `int dupe_size` is taken from it. -/
def LogParseParams.withoutDupes (params : LogParseParams) : Option Nat → Nat
  | some marker =>
      let dupeSize := BitVec.ofNat 32 marker
      (BitVec.ofNat 64 params.totalRead - dupeSize.signExtend 64).toNat
  | none => params.totalRead

/-- The place of a marker is not cut in buffers of up to 2 GiB. -/
theorem LogParseParams.withoutDupes_some {params : LogParseParams} {marker : Nat}
    (inside : marker ≤ params.totalRead) (small : marker < 2 ^ 31)
    (bounded : params.totalRead < 2 ^ 64) :
    params.withoutDupes (some marker) = params.totalRead - marker := by
  have positive : (BitVec.ofNat 32 marker).msb = false := by
    rw [BitVec.msb_eq_false_iff_two_mul_lt, BitVec.toNat_ofNat]
    omega
  rw [withoutDupes]
  simp only [BitVec.signExtend_eq_setWidth_of_msb_false positive, BitVec.toNat_sub,
    BitVec.toNat_setWidth, BitVec.toNat_ofNat]
  omega

end Parameters

section Rounds

/-- How a round of the loop ends. -/
inductive Turn where
  | next (params : LogParseParams) (locals : Locals) (items : List Item)
  | stop (params : LogParseParams) (locals : Locals)
  | fail (params : LogParseParams)
  | overrun

/-- What `read_log_data` returns, and whether the markers can be written when
it is out of data. -/
inductive Read where
  | record (bytes : List Byte)
  | again (markerWritten logmarkOnce : Bool)
  | pipe
  | invalid
  | failed
deriving DecidableEq, Repr

/-- A record is never longer than the line buffer. -/
def Read.fits (lineBufferSize : Nat) : Read → Bool
  | .record bytes => bytes.length ≤ lineBufferSize
  | _ => true

/-- The key, and how many bytes can be read behind the line buffer. -/
structure Env where
  hmac : Hmac
  behind : Nat

variable (env : Env)

def copyLine (params : LogParseParams) (locals : Locals) (line : LineData) (items : List Item) :
    Turn :=
  let locals := locals.noteMarkers params.totalRead line.text
  let params := params.snprintf locals (Item.copied line).text
  .next { params with lastLogCounter := line.seq } locals (items ++ [.copied line])

/-- A line after the expected one is announced, and one that was read before is skipped. -/
def countLine (params : LogParseParams) (locals : Locals) (line : LineData) : Turn :=
  if 0 < params.lastLogCounter then
    if params.lastLogCounter + 1 < line.seq then
      let warning := Item.missed line (line.seq - params.lastLogCounter - 1)
      copyLine (params.snprintf locals warning.text) locals line [warning]
    else if !params.uploadAll && line.seq ≤ params.lastLogCounter then .next params locals []
    else copyLine params locals line []
  else copyLine params locals line []

def handleLine (params : LogParseParams) (locals : Locals) (numRead : Nat) : Turn :=
  match suppressMacAddresses env.hmac params.lineBuffer 0 numRead with
  | none => .overrun
  | some (lineBuffer, numRead) =>
      match parseLineData (lineBuffer.slice 0 (params.lineBufferSize + env.behind)) with
      | .overrun => .overrun
      | .missing =>
          let bytes := lineBuffer.slice 0 numRead
          .next ({ params with lineBuffer := lineBuffer }.memcpy bytes) locals [.raw bytes]
      | .found (line, ending) =>
          let params := { params with lineBuffer := lineBuffer.write ending [0] }
          if locals.wroteStartMarker && strstr line.text logMarkerStart then
            .stop { params with lastLineValid := true } locals
          else countLine params locals line

def readLine (params : LogParseParams) (locals : Locals) : Read → Turn
  | .record bytes =>
      handleLine env { params with lineBuffer := params.lineBuffer.write 0 bytes } locals
        bytes.length
  | .again markerWritten logmarkOnce =>
      if locals.wroteStartMarker then .stop params locals
      else if markerWritten && logmarkOnce then
        .next params { locals with wroteStartMarker := true } []
      else .fail params
  | .pipe => .next params locals []
  | .invalid => .next params locals []
  | .failed => .fail params

end Rounds

section Calls

inductive Phase where
  | idle
  | reading (locals : Locals)
  | crashed
deriving DecidableEq, Repr

/-- The uploader between two inputs. `items` is all that has been put into the log
buffer, and `outputs` what the calls have returned. -/
structure Uploader where
  params : LogParseParams
  phase : Phase
  items : List Item
  outputs : List (Option (List Byte))

inductive Input where
  | call (totalRead : Nat)
  | read (result : Read)
deriving DecidableEq, Repr

namespace Uploader

variable (env : Env) (uploader : Uploader)

/-- What comes after the loop. -/
def finish (params : LogParseParams) (locals : Locals) : Uploader :=
  let logBuffer := params.logBuffer.write params.totalRead [0]
  let start := locals.uploadMarker.getD 0
  let totalRead := params.withoutDupes locals.uploadMarker
  { uploader with
    params := { params with logBuffer := logBuffer, totalRead := totalRead }
    phase := .idle
    outputs := uploader.outputs ++ [some (logBuffer.slice start totalRead)] }

def proceed : Turn → Uploader
  | .next params locals items =>
      let uploader := { uploader with items := uploader.items ++ items }
      if params.full locals then uploader.finish params locals
      else { uploader with params := params, phase := .reading locals }
  | .stop params locals => uploader.finish params locals
  | .fail params =>
      { uploader with
        params := params
        phase := .idle
        outputs := uploader.outputs ++ [none] }
  | .overrun => { uploader with phase := .crashed }

/-- The call up to its first read. A line that was left over is taken before. -/
def call (logBufferSize : Nat) : Uploader :=
  let locals : Locals :=
    { logBufferSize := logBufferSize
      wroteStartMarker := false
      checkForMarkers := uploader.params.lastLogCounter = 0
      lastStartMarker := none
      lastStartBeforeEndMarker := none }
  let params := { uploader.params with totalRead := 0 }
  if !params.full locals && params.lastLineValid then
    uploader.proceed (handleLine env { params with lastLineValid := false } locals 0)
  else uploader.proceed (.next params locals [])

def step : Input → Option Uploader
  | .call totalRead =>
      match uploader.phase with
      | .idle => some (uploader.call env totalRead)
      | _ => none
  | .read result =>
      match uploader.phase with
      | .reading locals =>
          if result.fits uploader.params.lineBufferSize then
            some (uploader.proceed (readLine env uploader.params locals result))
          else none
      | _ => none

def Step (uploader : Uploader) (input : Input) (next : Uploader) : Prop :=
  uploader.step env input = some next

variable {env uploader} {next : Uploader}

theorem step_call {totalRead : Nat} (step : Step env uploader (.call totalRead) next) :
    uploader.phase = .idle ∧ next = uploader.call env totalRead := by
  simp only [Step, Uploader.step] at step
  split at step
  case h_1 idle => exact ⟨idle, (Option.some.inj step).symm⟩
  case h_2 => cases step

theorem step_read {result : Read} (step : Step env uploader (.read result) next) :
    ∃ locals, uploader.phase = .reading locals ∧ result.fits uploader.params.lineBufferSize ∧
      next = uploader.proceed (readLine env uploader.params locals result) := by
  simp only [Step, Uploader.step] at step
  split at step
  case h_2 => cases step
  case h_1 locals reading =>
    split at step
    case isTrue fits => exact ⟨locals, reading, fits, (Option.some.inj step).symm⟩
    case isFalse => cases step

end Uploader

end Calls

end Gfiber.Logupload
