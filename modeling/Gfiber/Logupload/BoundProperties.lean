import Gfiber.Logupload.Writes

/-! A call stays inside its buffers. The test of the room in the log buffer is enough for every
item, as long as the line ends before the last byte of the line buffer. -/

set_option autoImplicit false

namespace Gfiber.Logupload

open Lib

section Turns

variable {params after : LogParseParams} {locals : Locals} {logBufferSize totalRead : Nat}

theorem write_inside {item : Item} (lineBufferSize : Nat) (bounded : logBufferSize < 2 ^ 64)
    (fits : totalRead + item.text.length < logBufferSize) :
    (item.write logBufferSize totalRead).Inside lineBufferSize logBufferSize := by
  have room : (logBufferSize + 2 ^ 64 - totalRead) % 2 ^ 64 = logBufferSize - totalRead := by omega
  cases item with
  | raw bytes => exact Nat.le_of_lt fits
  | missed | copied =>
      unfold Item.write Write.Inside
      simp only [room]
      omega

theorem itemWrites_inside {items : List Item} (lineBufferSize : Nat) (bounded : logBufferSize < 2 ^ 64)
    (fits : totalRead + (loggedText items).length < logBufferSize) :
    ∀ write ∈ itemWrites logBufferSize totalRead items,
      write.Inside lineBufferSize logBufferSize := by
  induction items generalizing totalRead with
  | nil =>
      intro write member
      cases member
  | cons item items ih =>
      have length : (loggedText (item :: items)).length =
          item.text.length + (loggedText items).length := by simp [loggedText]
      rw [length] at fits
      intro write member
      cases member with
      | head => exact write_inside lineBufferSize bounded (by omega)
      | tail _ later => exact ih (by omega) write later

/-- The markers lie in what has been put into the log buffer. -/
structure Locals.Inside (locals : Locals) (totalRead : Nat) : Prop where
  last : ∀ marker ∈ locals.lastStartMarker, marker ≤ totalRead
  before : ∀ marker ∈ locals.lastStartBeforeEndMarker, marker ≤ totalRead

theorem Locals.Inside.mono {later : Nat} (inside : locals.Inside totalRead)
    (order : totalRead ≤ later) : locals.Inside later :=
  ⟨fun marker member => (inside.last marker member).trans order,
    fun marker member => (inside.before marker member).trans order⟩

theorem Locals.Inside.noteMarkers (inside : locals.Inside totalRead) (text : List Byte) :
    (locals.noteMarkers totalRead text).Inside totalRead := by
  unfold Locals.noteMarkers
  split
  case isFalse => exact inside
  case isTrue =>
    split
    case isTrue => exact ⟨nofun, inside.last⟩
    case isFalse =>
      split
      case isTrue =>
        refine ⟨fun marker member => ?_, inside.before⟩
        cases member
        exact Nat.le_refl _
      case isFalse => exact inside

theorem Locals.Inside.uploadMarker (inside : locals.Inside totalRead) {marker : Nat}
    (upload : locals.uploadMarker = some marker) : marker ≤ totalRead := by
  unfold Locals.uploadMarker at upload
  split at upload
  case isTrue => exact inside.before marker upload
  case isFalse => cases upload

/-- The place of the marker that the call returns is an `int` that is not negative, or the log
buffer has room for what the `int` adds to the length. -/
def LogParseParams.Uncut (params : LogParseParams) (locals : Locals) : Prop :=
  ∀ marker, locals.uploadMarker = some marker → marker % 2 ^ 32 < 2 ^ 31 ∨
    (params.totalRead + (2 ^ 32 - marker % 2 ^ 32)) % 2 ^ 64 < locals.logBufferSize

theorem toNat_signExtend_negative {marker : Nat} (negative : 2 ^ 31 ≤ marker % 2 ^ 32) :
    ((BitVec.ofNat 32 marker).signExtend 64).toNat = 2 ^ 64 - 2 ^ 32 + marker % 2 ^ 32 := by
  have sign : (BitVec.ofNat 32 marker).msb = true := by
    rw [BitVec.msb_eq_true_iff_two_mul_ge, BitVec.toNat_ofNat]
    omega
  rw [BitVec.toNat_signExtend, sign, if_pos rfl, BitVec.toNat_setWidth, BitVec.toNat_ofNat]
  omega

theorem withoutDupes_lt_iff (inside : locals.Inside params.totalRead)
    (bounded : locals.logBufferSize < 2 ^ 64) (below : params.totalRead < locals.logBufferSize) :
    params.withoutDupes locals.uploadMarker < locals.logBufferSize ↔ params.Uncut locals := by
  cases upload : locals.uploadMarker with
  | none =>
      refine iff_of_true below fun marker impossible => ?_
      rw [upload] at impossible
      cases impossible
  | some marker =>
      have order := inside.uploadMarker upload
      have left : params.Uncut locals ↔ marker % 2 ^ 32 < 2 ^ 31 ∨
          (params.totalRead + (2 ^ 32 - marker % 2 ^ 32)) % 2 ^ 64 < locals.logBufferSize :=
        ⟨fun uncut => uncut marker upload, fun uncut other same => by
          cases upload.symm.trans same
          exact uncut⟩
      have low := Nat.mod_le marker (2 ^ 32)
      rw [left, LogParseParams.withoutDupes, BitVec.toNat_sub, BitVec.toNat_ofNat]
      by_cases negative : 2 ^ 31 ≤ marker % 2 ^ 32
      · rw [toNat_signExtend_negative negative]
        omega
      · have positive : (BitVec.ofNat 32 marker).msb = false := by
          rw [BitVec.msb_eq_false_iff_two_mul_lt, BitVec.toNat_ofNat]
          omega
        rw [BitVec.signExtend_eq_setWidth_of_msb_false positive, BitVec.toNat_setWidth,
          BitVec.toNat_ofNat]
        omega

/-- The test at the top of the loop has been passed. -/
structure Room (params : LogParseParams) (locals : Locals) : Prop where
  line : params.lineBufferSize = 8192
  bounded : locals.logBufferSize < 2 ^ 64
  room : params.totalRead + 2 * 8192 < locals.logBufferSize
  markers : locals.Inside params.totalRead

/-- Nothing is changed behind the two buffers. -/
structure Confined (logBufferSize : Nat) (params after : LogParseParams) : Prop where
  line : after.lineBufferSize = params.lineBufferSize
  lineCells : ∀ address, 8192 ≤ address → after.lineBuffer address = params.lineBuffer address
  logCells : ∀ address, logBufferSize ≤ address → after.logBuffer address = params.logBuffer address

theorem Confined.refl (logBufferSize : Nat) (params : LogParseParams) :
    Confined logBufferSize params params :=
  ⟨rfl, fun _ _ => rfl, fun _ _ => rfl⟩

theorem Confined.trans {last : LogParseParams} (first : Confined logBufferSize params after)
    (second : Confined logBufferSize after last) : Confined logBufferSize params last where
  line := second.line.trans first.line
  lineCells := fun address behind =>
    (second.lineCells address behind).trans (first.lineCells address behind)
  logCells := fun address behind =>
    (second.logCells address behind).trans (first.logCells address behind)

theorem Confined.memcpy {bytes : List Byte} (fits : params.totalRead + bytes.length ≤ logBufferSize) :
    Confined logBufferSize params (params.memcpy bytes) where
  line := rfl
  lineCells := fun _ _ => rfl
  logCells := fun _ behind => Memory.write_outside (.inr (by omega))

/-- Whatever is printed, the room is kept. -/
theorem Confined.snprintf (text : List Byte) (fits : params.totalRead ≤ locals.logBufferSize)
    (bounded : locals.logBufferSize < 2 ^ 64) :
    Confined locals.logBufferSize params (params.snprintf locals text) where
  line := rfl
  lineCells := fun _ _ => rfl
  logCells := fun address behind => by
    unfold LogParseParams.snprintf
    dsimp only
    apply Memory.write_outside
    split
    case isTrue =>
      rw [List.length_nil]
      omega
    case isFalse =>
      rw [List.length_append, List.length_take, List.length_singleton]
      omega

/-- A turn that puts less than twice a line into the log buffer. -/
inductive Short (params : LogParseParams) (locals : Locals) : Turn → Prop where
  | next {after : LogParseParams} {later : Locals} {items : List Item}
      (confined : Confined locals.logBufferSize params after)
      (size : later.logBufferSize = locals.logBufferSize)
      (total : after.totalRead = params.totalRead + (loggedText items).length)
      (short : (loggedText items).length ≤ 2 * 8192) (markers : later.Inside after.totalRead) :
      Short params locals (.next after later items)
  | stop {after : LogParseParams} (confined : Confined locals.logBufferSize params after)
      (total : after.totalRead = params.totalRead) : Short params locals (.stop after locals)
  | fail : Short params locals (.fail params)
  | overrun : Short params locals .overrun

theorem Short.writes_inside {turn : Turn} (short : Short params locals turn)
    (room : Room params locals) :
    ∀ write ∈ turn.writes locals.logBufferSize params.totalRead,
      write.Inside 8192 locals.logBufferSize := by
  have fits := room.room
  intro write member
  cases short with
  | @next after later items confined size total small markers =>
      unfold Turn.writes at member
      cases List.mem_append.mp member with
      | inl item => exact itemWrites_inside 8192 room.bounded (by omega) write item
      | inr last =>
          split at last
          case isFalse => cases last
          case isTrue =>
            rw [List.mem_singleton.mp last]
            unfold Write.Inside
            omega
  | stop confined total =>
      rw [List.mem_singleton.mp member]
      unfold Write.Inside
      omega
  | fail => cases member
  | overrun => cases member

theorem finish_mem (logBufferSize totalRead : Nat) (full : params.full locals = true) :
    .finish params.totalRead ∈ (Turn.next params locals []).writes logBufferSize totalRead := by
  unfold Turn.writes
  dsimp only
  rw [if_pos full]
  exact List.mem_append_right _ (List.mem_singleton_self _)

theorem copyLine_short {more : List Item} {line : LineData} (room : Room params locals)
    (confined : Confined locals.logBufferSize params after)
    (total : after.totalRead = params.totalRead + (loggedText more).length)
    (short : (loggedText more).length ≤ 84) (small : line.text.length < 8192) :
    Short params locals (copyLine after locals line more) := by
  have printed := length_copied_le line
  have fits := room.room
  have size := noteMarkers_size locals after.totalRead line.text
  unfold copyLine
  apply Short.next
  · have last : Confined (locals.noteMarkers after.totalRead line.text).logBufferSize after
        (after.snprintf (locals.noteMarkers after.totalRead line.text) (Item.copied line).text) :=
      Confined.snprintf _ (by omega) (by rw [size]; exact room.bounded)
    rw [size] at last
    have both := confined.trans last
    exact ⟨both.line, both.lineCells, both.logCells⟩
  · exact size
  · unfold LogParseParams.snprintf
    rw [loggedText_snoc, List.length_append, ← Nat.add_assoc, ← total]
  · rw [loggedText_snoc, List.length_append]
    omega
  · have noted : locals.Inside after.totalRead := room.markers.mono (by omega)
    exact (noted.noteMarkers line.text).mono (Nat.le_add_right _ _)

theorem countLine_short {line : LineData} (room : Room params locals)
    (confined : Confined locals.logBufferSize params after) (total : after.totalRead = params.totalRead)
    (small : line.text.length < 8192) : Short params locals (countLine after locals line) := by
  have plain : Short params locals (copyLine after locals line []) :=
    copyLine_short room confined total (Nat.zero_le _) small
  unfold countLine
  split
  case isFalse => exact plain
  case isTrue =>
    split
    case isTrue =>
      let warning := Item.missed line (line.seq - after.lastLogCounter - 1)
      have text : loggedText [warning] = warning.text := by simp [loggedText]
      have fits := room.room
      have warned : Confined locals.logBufferSize after (after.snprintf locals warning.text) :=
        Confined.snprintf _ (by omega) room.bounded
      refine copyLine_short room (confined.trans warned) ?_ ?_ small
      · rw [text]
        exact congrArg (· + warning.text.length) total
      · rw [text]
        exact length_missed_le line _
    case isFalse =>
      split
      case isTrue =>
        exact .next confined rfl (by rw [total]; rfl) (Nat.zero_le _) (total ▸ room.markers)
      case isFalse => exact plain

variable (env : Env)

/-- The line does not end with the last byte of the line buffer, or behind it. -/
def Early (params : LogParseParams) (numRead : Nat) : Prop :=
  ∀ bytes ∈ parsedBytes env params numRead, ∀ place, NewlineAt bytes place →
    place + 1 < params.lineBufferSize

variable {env} {numRead : Nat}

theorem handleLine_short (room : Room params locals) (fits : numRead ≤ 8192)
    (early : Early env params numRead) : Short params locals (handleLine env params locals numRead) := by
  have space := room.room
  have size := room.line
  obtain ⟨lineBuffer, count, suppressed, -, -, outside⟩ :=
    suppressMacAddresses_pass env.hmac params.lineBuffer 0 numRead
  have taken : Confined locals.logBufferSize params { params with lineBuffer := lineBuffer } :=
    ⟨rfl, fun address behind => outside address (.inr (by omega)), fun _ _ => rfl⟩
  unfold handleLine
  rw [suppressed]
  dsimp only
  cases parsed : parseLineData (lineBuffer.slice 0 (params.lineBufferSize + env.behind)) with
  | overrun => exact .overrun
  | missing =>
      have text (bytes : List Byte) : loggedText [.raw bytes] = bytes := by
        simp [loggedText, Item.text]
      apply Short.next
      · refine taken.trans (Confined.memcpy ?_)
        rw [Memory.length_slice]
        dsimp only
        omega
      · rfl
      · rw [text]
        rfl
      · rw [text, Memory.length_slice]
        omega
      · exact room.markers.mono (Nat.le_add_right _ _)
  | found value =>
      obtain ⟨line, ending⟩ := value
      obtain ⟨place, same, newline, text⟩ := parsed_newlineAt parsed
      have bytes : parsedBytes env params numRead =
          some (lineBuffer.slice 0 (params.lineBufferSize + env.behind)) := by
        unfold parsedBytes
        rw [suppressed]
        rfl
      have before := early _ bytes place newline
      have ended : Confined locals.logBufferSize { params with lineBuffer := lineBuffer }
          { params with lineBuffer := lineBuffer.write ending [0] } := by
        refine ⟨rfl, fun address behind => Memory.write_outside (.inr ?_), fun _ _ => rfl⟩
        rw [List.length_singleton]
        omega
      have both := taken.trans ended
      dsimp only
      split
      case isTrue => exact .stop ⟨both.line, both.lineCells, both.logCells⟩ rfl
      case isFalse => exact countLine_short room both rfl (by omega)

theorem terminated_newlineAt {bytes : List Byte} {place : Nat}
    (member : bytes ∈ parsedBytes env params numRead) (newline : NewlineAt bytes place) :
    terminated env params numRead = [.terminate (place + 1)] := by
  obtain ⟨line, parsed⟩ := newline.parsed
  unfold terminated
  rw [Option.mem_def.mp member, Option.map_some, parsed]

theorem lineWrites_inside_iff (room : Room params locals) (fits : numRead ≤ 8192) :
    (∀ write ∈ lineWrites env params locals numRead, write.Inside 8192 locals.logBufferSize) ↔
      Early env params numRead := by
  constructor
  · intro inside bytes member place newline
    have terminate := terminated_newlineAt member newline
    have write := inside (.terminate (place + 1))
      (List.mem_append_left _ (by rw [terminate]; exact List.mem_singleton_self _))
    rw [room.line]
    exact write
  · intro early write member
    cases List.mem_append.mp member with
    | inr turn => exact (handleLine_short room fits early).writes_inside room write turn
    | inl line =>
        unfold terminated at line
        split at line
        case h_2 => cases line
        case h_1 _ _ ending parsed =>
          obtain ⟨bytes, held, parsed⟩ := Option.map_eq_some_iff.mp parsed
          obtain ⟨place, same, newline, -⟩ := parsed_newlineAt parsed
          rw [List.mem_singleton.mp line, same]
          have before := early bytes held place newline
          rw [room.line] at before
          exact before

theorem readLine_short {result : Read} (markers : locals.Inside params.totalRead)
    (other : ∀ bytes, result ≠ .record bytes) :
    Short params locals (readLine env params locals result) := by
  have kept := Confined.refl locals.logBufferSize params
  have same : Short params locals (.next params locals []) :=
    .next kept rfl rfl (Nat.zero_le _) markers
  cases result with
  | record bytes => exact absurd rfl (other bytes)
  | again markerWritten logmarkOnce =>
      rw [readLine]
      split
      · exact .stop kept rfl
      · split
        · exact .next kept rfl rfl (Nat.zero_le _) ⟨markers.last, markers.before⟩
        · exact .fail
  | pipe => exact same
  | invalid => exact same
  | failed => exact .fail

end Turns

section Runs

variable {env : Env} {uploader next : Uploader} {input : Input}

def Uploader.logBufferSize (uploader : Uploader) : Input → Nat
  | .call logBufferSize => logBufferSize
  | .read _ =>
      match uploader.phase with
      | .reading locals => locals.logBufferSize
      | _ => 0

/-- The sum in the test of the room does not wrap, in a log buffer that has a place in memory. -/
def Input.Sized : Input → Prop
  | .call logBufferSize => logBufferSize + 2 * 8192 ≤ 2 ^ 64
  | .read _ => True

structure InBounds (env : Env) (uploader : Uploader) (input : Input) : Prop where
  inside : ∀ write ∈ uploader.writes env input,
    write.Inside uploader.params.lineBufferSize (uploader.logBufferSize input)
  below : ∀ next, Uploader.Step env uploader input next → next.phase ≠ .crashed →
    next.params.totalRead < uploader.logBufferSize input
  confined : ∀ next, Uploader.Step env uploader input next →
    Confined (uploader.logBufferSize input) uploader.params next.params

/-- There is a log buffer, the line ends before the last byte of the line buffer, and the place of
the marker that the call returns is not cut. -/
structure Fine (env : Env) (uploader : Uploader) (input : Input) : Prop where
  some_room : ∀ logBufferSize, input = .call logBufferSize → 0 < logBufferSize
  early : ∀ params locals numRead, uploader.line input = some (params, locals, numRead) →
    Early env params numRead
  uncut : ∀ turn params locals, uploader.turn env input = some turn →
    turn.ended = some (params, locals) → params.Uncut locals

structure Roomy (uploader : Uploader) : Prop where
  line : uploader.params.lineBufferSize = 8192
  reading : ∀ locals, uploader.phase = .reading locals → Room uploader.params locals

theorem Short.roomy {params : LogParseParams} {locals : Locals} {turn : Turn}
    (short : Short params locals turn) (roomy : Roomy uploader) (line : params.lineBufferSize = 8192)
    (bounded : locals.logBufferSize < 2 ^ 64) : Roomy (uploader.proceed turn) := by
  cases short with
  | @next after later items confined size total small markers =>
      unfold Uploader.proceed
      dsimp only
      split
      case isTrue => exact ⟨confined.line.trans line, fun locals impossible => by cases impossible⟩
      case isFalse open_still =>
        refine ⟨confined.line.trans line, fun other reading => ?_⟩
        cases reading
        refine ⟨confined.line.trans line, by rw [size]; exact bounded, ?_, markers⟩
        unfold LogParseParams.full at open_still
        rw [confined.line, line] at open_still
        simpa using open_still
  | stop confined total => exact ⟨confined.line.trans line, fun locals impossible => by cases impossible⟩
  | fail => exact ⟨line, fun locals impossible => by cases impossible⟩
  | overrun => exact ⟨roomy.line, fun locals impossible => by cases impossible⟩

theorem Short.below_iff {params : LogParseParams} {locals : Locals} {turn : Turn}
    (short : Short params locals turn) (room : Room params locals) :
    ((uploader.proceed turn).phase ≠ .crashed →
      (uploader.proceed turn).params.totalRead < locals.logBufferSize) ↔
      ∀ after later, turn.ended = some (after, later) → after.Uncut later := by
  have fits := room.room
  have one (after : LogParseParams) (later : Locals) :
      (∀ after' later', some (after, later) = some (after', later') → after'.Uncut later') ↔
        after.Uncut later :=
    ⟨fun all => all after later rfl, fun uncut after' later' same => by
      cases same
      exact uncut⟩
  cases short with
  | @next after later items confined size total small markers =>
      have inside : after.totalRead < later.logBufferSize := by omega
      have bounded : later.logBufferSize < 2 ^ 64 := size ▸ room.bounded
      unfold Uploader.proceed Turn.ended
      dsimp only
      split
      case isTrue =>
        rw [one, ← withoutDupes_lt_iff markers bounded inside, size]
        exact forall_prop_of_true nofun
      case isFalse =>
        exact iff_of_true (fun _ => size ▸ inside) fun _ _ impossible => by cases impossible
  | @stop after confined total =>
      have inside : after.totalRead < locals.logBufferSize := by omega
      unfold Turn.ended
      rw [one, ← withoutDupes_lt_iff (total ▸ room.markers) room.bounded inside]
      exact forall_prop_of_true nofun
  | fail =>
      refine iff_of_true (fun _ => ?_) fun _ _ impossible => by cases impossible
      unfold Uploader.proceed
      dsimp only
      omega
  | overrun => exact iff_of_true (absurd rfl) fun _ _ impossible => by cases impossible

theorem finish_confined {params : LogParseParams} (locals : Locals) {logBufferSize : Nat}
    (fits : params.totalRead < logBufferSize) :
    Confined logBufferSize params (uploader.finish params locals).params := by
  refine ⟨rfl, fun _ _ => rfl, fun address behind => Memory.write_outside (.inr ?_)⟩
  rw [List.length_singleton]
  omega

theorem Short.confined {params : LogParseParams} {locals : Locals} {turn : Turn}
    (short : Short params locals turn) (room : Room params locals)
    (start : Confined locals.logBufferSize uploader.params params) :
    Confined locals.logBufferSize uploader.params (uploader.proceed turn).params := by
  have fits := room.room
  cases short with
  | @next after later items confined size total small markers =>
      have both := start.trans confined
      unfold Uploader.proceed
      dsimp only
      split
      case isTrue => exact both.trans (finish_confined later (by omega))
      case isFalse => exact both
  | stop confined total => exact (start.trans confined).trans (finish_confined locals (by omega))
  | fail => exact start
  | overrun => exact .refl _ _

/-- What an input sets off: a line that is handled, another result of a read, or a call that has to
read first. -/
inductive Outset (env : Env) (uploader : Uploader) : Input → Uploader → Prop where
  | line {input : Input} (params : LogParseParams) (locals : Locals) (numRead : Nat)
      (held : uploader.line input = some (params, locals, numRead)) (room : Room params locals)
      (fits : numRead ≤ 8192) (size : uploader.logBufferSize input = locals.logBufferSize)
      (start : Confined locals.logBufferSize uploader.params params) :
      Outset env uploader input (uploader.proceed (handleLine env params locals numRead))
  | other {result : Read} (locals : Locals) (none : uploader.line (.read result) = none)
      (reading : uploader.phase = .reading locals) (other : ∀ bytes, result ≠ .record bytes) :
      Outset env uploader (.read result) (uploader.proceed (readLine env uploader.params locals result))
  | first (logBufferSize : Nat) (none : uploader.line (.call logBufferSize) = none) :
      Outset env uploader (.call logBufferSize)
        (uploader.proceed (.next { uploader.params with totalRead := 0 }
          (uploader.firstLocals logBufferSize) []))

theorem step_outset (roomy : Roomy uploader) (sized : input.Sized)
    (step : Uploader.Step env uploader input next) : Outset env uploader input next := by
  cases input with
  | call logBufferSize =>
      obtain ⟨-, same⟩ := Uploader.step_call step
      subst same
      unfold Uploader.call
      dsimp only
      split
      case isTrue kept =>
        refine .line _ _ 0 (if_pos kept) ?_ (Nat.zero_le _) rfl ⟨rfl, fun _ _ => rfl, fun _ _ => rfl⟩
        have size : logBufferSize + 2 * 8192 ≤ 2 ^ 64 := sized
        have open_still : 2 * 8192 < logBufferSize := by
          simpa [LogParseParams.full, roomy.line] using (Bool.and_eq_true_iff.mp kept).1
        exact ⟨roomy.line, by simp only; omega, by simpa using open_still,
          ⟨fun marker marked => absurd marked (Option.not_mem_none marker),
            fun marker marked => absurd marked (Option.not_mem_none marker)⟩⟩
      case isFalse empty => exact .first logBufferSize (if_neg empty)
  | read result =>
      obtain ⟨locals, reading, fits, same⟩ := Uploader.step_read step
      subst same
      have room := roomy.reading locals reading
      cases result with
      | record bytes =>
          have short : bytes.length ≤ 8192 := by simpa [Read.fits, roomy.line] using fits
          have outside (address : Nat) (behind : 8192 ≤ address) :
              uploader.params.lineBuffer.write 0 bytes address =
                uploader.params.lineBuffer address := Memory.write_outside (.inr (by omega))
          refine .line _ locals bytes.length ?_
            ⟨room.line, room.bounded, room.room, room.markers⟩ short ?_ ?_
          · unfold Uploader.line
            simp only [reading]
          · unfold Uploader.logBufferSize
            simp only [reading]
          · exact ⟨rfl, outside, fun _ _ => rfl⟩
      | _ => exact .other locals rfl reading (by simp)

theorem Outset.roomy (outset : Outset env uploader input next) (roomy : Roomy uploader)
    (sized : input.Sized) (fine : Fine env uploader input) : Roomy next := by
  cases outset with
  | line params locals numRead held room fits =>
      have short : Short params locals (handleLine env params locals numRead) :=
        handleLine_short room fits (fine.early params locals numRead held)
      exact short.roomy roomy room.line room.bounded
  | other locals none reading other =>
      have room := roomy.reading locals reading
      exact (readLine_short room.markers other).roomy roomy room.line room.bounded
  | first logBufferSize none =>
      have size : logBufferSize + 2 * 8192 ≤ 2 ^ 64 := sized
      have short : Short { uploader.params with totalRead := 0 }
          (uploader.firstLocals logBufferSize) (.next { uploader.params with totalRead := 0 }
            (uploader.firstLocals logBufferSize) []) :=
        .next (.refl _ _) rfl rfl (Nat.zero_le _) ⟨nofun, nofun⟩
      exact short.roomy roomy roomy.line (show logBufferSize < 2 ^ 64 by omega)

/-- The condition on the turn that the input leads to. -/
theorem uncut_iff {turn : Turn} (held : uploader.turn env input = some turn) :
    (∀ turn params locals, uploader.turn env input = some turn →
      turn.ended = some (params, locals) → params.Uncut locals) ↔
      ∀ params locals, turn.ended = some (params, locals) → params.Uncut locals := by
  constructor
  · exact fun all params locals => all turn params locals held
  · intro uncut other params locals same
    cases held.symm.trans same
    exact uncut params locals

theorem Outset.below_iff (outset : Outset env uploader input next) (roomy : Roomy uploader)
    (positive : ∀ logBufferSize, input = .call logBufferSize → 0 < logBufferSize)
    (early : ∀ params locals numRead, uploader.line input = some (params, locals, numRead) →
      Early env params numRead) :
    (next.phase ≠ .crashed → next.params.totalRead < uploader.logBufferSize input) ↔
      ∀ turn params locals, uploader.turn env input = some turn →
        turn.ended = some (params, locals) → params.Uncut locals := by
  cases outset with
  | line params locals numRead held room fits size =>
      have turn : uploader.turn env input = some (handleLine env params locals numRead) := by
        unfold Uploader.turn
        rw [held]
      have short : Short params locals (handleLine env params locals numRead) :=
        handleLine_short room fits (early params locals numRead held)
      rw [size, uncut_iff turn]
      exact short.below_iff room
  | @other result locals none reading other =>
      have room := roomy.reading locals reading
      have turn : uploader.turn env (.read result) =
          some (readLine env uploader.params locals result) := by
        unfold Uploader.turn
        simp only [none, reading]
      have size : uploader.logBufferSize (.read result) = locals.logBufferSize := by
        unfold Uploader.logBufferSize
        simp only [reading]
      rw [size, uncut_iff turn]
      exact (readLine_short room.markers other).below_iff room
  | first logBufferSize none =>
      -- the first turn has no marker yet
      have small : 0 < logBufferSize := positive logBufferSize rfl
      have unmarked : (uploader.firstLocals logBufferSize).uploadMarker = Option.none := ite_self _
      refine iff_of_true (fun _ => ?_) fun turn params locals held ended => ?_
      · unfold Uploader.proceed
        dsimp only
        split
        case isTrue =>
          unfold Uploader.finish
          rw [unmarked]
          exact small
        case isFalse => exact small
      · unfold Uploader.turn at held
        rw [none] at held
        cases held
        unfold Turn.ended at ended
        dsimp only at ended
        split at ended
        case isFalse => cases ended
        case isTrue =>
          cases ended
          intro marker impossible
          rw [unmarked] at impossible
          cases impossible

theorem Outset.confined (outset : Outset env uploader input next) (roomy : Roomy uploader)
    (fine : Fine env uploader input) :
    Confined (uploader.logBufferSize input) uploader.params next.params := by
  cases outset with
  | line params locals numRead held room fits size start =>
      have short : Short params locals (handleLine env params locals numRead) :=
        handleLine_short room fits (fine.early params locals numRead held)
      rw [size]
      exact short.confined room start
  | other locals none reading other =>
      have room := roomy.reading locals reading
      unfold Uploader.logBufferSize
      simp only [reading]
      exact (readLine_short room.markers other).confined room (.refl _ _)
  | first logBufferSize none =>
      have positive := fine.some_room logBufferSize rfl
      have start : Confined logBufferSize uploader.params { uploader.params with totalRead := 0 } :=
        ⟨rfl, fun _ _ => rfl, fun _ _ => rfl⟩
      unfold Uploader.proceed
      dsimp only
      split
      case isTrue => exact start.trans (finish_confined _ positive)
      case isFalse => exact start

theorem Outset.inside (outset : Outset env uploader input next) (roomy : Roomy uploader)
    (fine : Fine env uploader input) :
    ∀ write ∈ uploader.writes env input, write.Inside 8192 (uploader.logBufferSize input) := by
  unfold Uploader.writes
  cases outset with
  | line params locals numRead held room fits size =>
      rw [held, size]
      exact (lineWrites_inside_iff room fits).mpr (fine.early params locals numRead held)
  | other locals none reading other =>
      have room := roomy.reading locals reading
      unfold Uploader.logBufferSize
      simp only [none, reading]
      exact (readLine_short room.markers other).writes_inside room
  | first logBufferSize none =>
      rw [none]
      intro write member
      cases List.mem_append.mp member with
      | inl item => cases item
      | inr last =>
          split at last
          case isFalse => cases last
          case isTrue =>
            rw [List.mem_singleton.mp last]
            exact fine.some_room logBufferSize rfl

theorem Outset.early (outset : Outset env uploader input next) (roomy : Roomy uploader)
    (bounds : InBounds env uploader input) :
    (∀ logBufferSize, input = .call logBufferSize → 0 < logBufferSize) ∧
      ∀ params locals numRead, uploader.line input = some (params, locals, numRead) →
        Early env params numRead := by
  have inside := bounds.inside
  rw [roomy.line] at inside
  unfold Uploader.writes at inside
  cases outset with
  | line params locals numRead held room fits size =>
      rw [held, size] at inside
      constructor
      · intro logBufferSize same
        subst same
        have filled := room.room
        rw [← size] at filled
        exact Nat.zero_lt_of_lt filled
      · intro params' locals' numRead' again
        cases held.symm.trans again
        exact (lineWrites_inside_iff room fits).mp inside
  | other locals none =>
      constructor
      · intro logBufferSize same
        cases same
      · intro params locals numRead held
        rw [none] at held
        cases held
  | first logBufferSize none =>
      rw [none] at inside
      constructor
      · intro other same
        cases same
        by_cases full : ({ uploader.params with totalRead := 0 } : LogParseParams).full
            (uploader.firstLocals logBufferSize) = true
        · exact inside (.finish 0) (finish_mem logBufferSize 0 full)
        · have open_still : 2 * 8192 < logBufferSize := by
            simpa [LogParseParams.full, Uploader.firstLocals, roomy.line] using full
          omega
      · intro params locals numRead held
        rw [none] at held
        cases held

theorem inBounds_iff (roomy : Roomy uploader) (sized : input.Sized)
    (step : Uploader.Step env uploader input next) :
    InBounds env uploader input ↔ Fine env uploader input := by
  have outset := step_outset roomy sized step
  constructor
  · intro bounds
    obtain ⟨positive, early⟩ := outset.early roomy bounds
    exact ⟨positive, early, (outset.below_iff roomy positive early).mp (bounds.below next step)⟩
  · intro fine
    constructor
    · rw [roomy.line]
      exact outset.inside roomy fine
    · intro other again
      cases Option.some.inj (step.symm.trans again)
      exact (outset.below_iff roomy fine.some_room fine.early).mpr fine.uncut
    · intro other again
      cases Option.some.inj (step.symm.trans again)
      exact outset.confined roomy fine

/-- In a run with line buffers of 8192 bytes, every call stays inside its buffers just when every
log buffer has a byte, no line ends with the last byte of the line buffer or behind it, and no
marker that a call returns has a place that its `int` cuts. -/
theorem uploader_in_bounds {start finish : Uploader} {trace : List (Uploader × Input)}
    (run : Run (Uploader.Step env) start trace finish) (idle : start.phase = .idle)
    (line : start.params.lineBufferSize = 8192) (sized : ∀ entry ∈ trace, entry.2.Sized) :
    StepsMeet (InBounds env) trace ↔ StepsMeet (Fine env) trace := by
  have roomy : Roomy start := by
    constructor
    · exact line
    · intro locals reading
      rw [idle] at reading
      cases reading
  have all : Run (fun state input next => Uploader.Step env state input next ∧ input.Sized)
      start trace finish := run.with_met sized
  have exact_step {state : Uploader} {input : Input} {next : Uploader} (roomy : Roomy state)
      (step : Uploader.Step env state input next ∧ input.Sized) :
      Roomy next ∧ InBounds env state input ↔ Fine env state input := by
    have iff := inBounds_iff roomy step.2 step.1
    have outset := step_outset roomy step.2 step.1
    exact ⟨fun both => iff.mp both.2, fun fine => ⟨outset.roomy roomy step.2 fine, iff.mpr fine⟩⟩
  have whole := all.throughout_iff roomy exact_step
  constructor
  · intro bounds
    have kept : Throughout Roomy trace finish := by
      refine all.throughout roomy (fun roomy bounds step => ?_) bounds
      have fine := (inBounds_iff roomy step.2 step.1).mp bounds
      exact (step_outset roomy step.2 step.1).roomy roomy step.2 fine
    exact whole.mp ⟨kept, bounds⟩
  · intro fine
    exact (whole.mpr fine).2

/-- An uploader with the line buffer of the daemon. -/
def Uploader.daemon : Uploader :=
  { Uploader.fresh 0 fun _ => 0 with
    params := { (Uploader.fresh 0 fun _ => 0).params with lineBufferSize := 8192 } }

def upInputs : List Input :=
  [.call 65536, .read .pipe, .read (.record (bytesOf "7,1,0,-;up\n")), .read (.again true true)]

/-- What is computed of `Fine` for an input that does not end the loop. -/
def Uploader.goesOn (env : Env) (uploader : Uploader) (input : Input) : Bool :=
  (match input with
    | .call logBufferSize => 0 < logBufferSize
    | .read _ => true) &&
  (uploader.line input).all (fun held => (terminated env held.1 held.2.2).all fun write =>
    match write with
    | .terminate ending => ending < held.1.lineBufferSize
    | _ => true) &&
  ((uploader.turn env input).bind Turn.ended).isNone

theorem Uploader.goesOn.fine (goes : uploader.goesOn env input = true) :
    Fine env uploader input := by
  unfold Uploader.goesOn at goes
  rw [Bool.and_eq_true, Bool.and_eq_true] at goes
  obtain ⟨⟨positive, early⟩, open_still⟩ := goes
  constructor
  · intro logBufferSize same
    subst same
    exact of_decide_eq_true positive
  · intro params locals numRead held bytes member place newline
    rw [held, Option.all_some, terminated_newlineAt member newline] at early
    simpa using early
  · intro turn params locals held ended
    rw [held, Option.bind_some, ended] at open_still
    cases open_still

theorem uploader_in_bounds_up :
    let trace := traceOf (feed plainEnv) .daemon upInputs
    Run (Uploader.Step plainEnv) .daemon trace (upInputs.foldl (feed plainEnv) .daemon) ∧
      StepsMeet (InBounds plainEnv) trace ∧
        (upInputs.foldl (feed plainEnv) .daemon).params.totalRead = 21 := by
  intro trace
  have run : Run (Uploader.Step plainEnv) .daemon trace
      (upInputs.foldl (feed plainEnv) .daemon) := run_feed .daemon upInputs (by decide +kernel)
  have goes : trace.all (fun entry => entry.1.goesOn plainEnv entry.2) = true := by
    decide +kernel
  have sized (entry : Uploader × Input) (member : entry ∈ trace) : entry.2.Sized := by
    have all : ∀ input ∈ upInputs, input.Sized := by simp [upInputs, Input.Sized]
    exact all entry.2 (mem_traceOf member)
  have bounds := (uploader_in_bounds run rfl rfl sized).mpr fun entry member =>
    Uploader.goesOn.fine (List.all_eq_true.mp goes entry member)
  exact ⟨run, bounds, by decide +kernel⟩

/-- A record with a text of that many letters. -/
def lettersRecord (count : Nat) : List Byte :=
  lineOf [ascii '7'] [ascii '1'] (bytesOf "0,c") (List.replicate count (ascii 'a')) []

theorem length_lettersRecord (count : Nat) : (lettersRecord count).length = count + 9 := by
  have time : (bytesOf "0,c").length = 3 := by decide
  unfold lettersRecord lineOf
  simp only [List.length_append, List.length_cons, List.length_nil, List.length_replicate, time]
  omega

theorem mem_lettersRecord {count : Nat} {byte : Byte} (member : byte ∈ lettersRecord count) :
    byte ∈ bytesOf "71,0c;a\n" := by
  simp only [lettersRecord, lineOf, List.mem_append, List.mem_cons, List.mem_replicate,
    List.not_mem_nil, or_false, bytesOf] at member
  simp [bytesOf] at *
  grind

theorem pass_plain (anonid : List Byte → List Byte) {line : List Byte}
    (plain : ∀ sep ∈ separators, sep ∉ line) : Pass anonid 0 line line := by
  induction line with
  | nil => exact .short (by decide)
  | cons byte line ih =>
      refine .keep ?_ (ih fun sep member inside => plain sep member (List.mem_cons_of_mem _ inside))
      intro mac
      obtain ⟨sep, member, places⟩ := mac
      obtain ⟨other, found, fit⟩ := places 2 (by decide)
      have same : other = sep := fits_separator fit rfl
      exact plain sep member (same ▸ List.mem_of_getElem? found)

theorem lettersRecord_plain (count : Nat) : ∀ sep ∈ separators, sep ∉ lettersRecord count := by
  intro sep member inside
  have apart : ∀ sep ∈ separators, sep ∉ bytesOf "71,0c;a\n" := by decide
  exact apart sep member (mem_lettersRecord inside)

theorem lettersRecord_newlineAt (count : Nat) (behind : List Byte) :
    NewlineAt (lettersRecord count ++ behind) (count + 8) := by
  have length := length_lettersRecord count
  refine ⟨[ascii '7'], [ascii '1'], bytesOf "0,c", List.replicate count (ascii 'a'), behind, ?_,
    by decide, by decide, by decide, ?_, length.symm⟩
  · simp [lettersRecord, lineOf]
  · simp only [List.mem_replicate, not_and]
    exact ⟨fun _ => by decide, fun _ => by decide⟩

theorem parsedBytes_lettersRecord (env : Env) (params : LogParseParams) (count : Nat)
    (fits : count + 9 ≤ params.lineBufferSize) :
    ∃ behind, parsedBytes env
      { params with lineBuffer := params.lineBuffer.write 0 (lettersRecord count) }
      (lettersRecord count).length = some (lettersRecord count ++ behind) := by
  have length := length_lettersRecord count
  obtain ⟨after, replaced, suppressed, -, pass, -⟩ := suppressMacAddresses_pass env.hmac
    (params.lineBuffer.write 0 (lettersRecord count)) 0 (lettersRecord count).length
  rw [Memory.slice_write] at pass
  obtain ⟨none, same⟩ := (pass_plain _ (lettersRecord_plain count)).unique pass
  subst none
  have split : params.lineBufferSize + env.behind = (lettersRecord count).length +
      (params.lineBufferSize + env.behind - (lettersRecord count).length) := by omega
  unfold parsedBytes
  rw [suppressed, Option.map_some]
  dsimp only
  rw [split, Memory.slice_add]
  rw [Nat.mul_zero, Nat.sub_zero] at same
  rw [same]
  exact ⟨_, rfl⟩

/-- The NUL behind a record of 8192 bytes is written behind the line buffer. -/
theorem uploader_out_of_bounds :
    ¬∀ (env : Env) (start finish : Uploader) (trace : List (Uploader × Input)),
      Run (Uploader.Step env) start trace finish → start.phase = .idle →
      start.params.lineBufferSize = 8192 → (∀ entry ∈ trace, entry.2.Sized) →
      StepsMeet (InBounds env) trace := by
  intro alwaysInBounds
  obtain ⟨count, full⟩ : ∃ count, count + 9 = 8192 := ⟨8183, rfl⟩
  let middle := Uploader.daemon.call plainEnv 65536
  let locals := Uploader.daemon.firstLocals 65536
  have length := length_lettersRecord count
  have called : Uploader.Step plainEnv .daemon (.call 65536) middle := rfl
  have reading : middle.phase = .reading locals := rfl
  have fits : (Read.record (lettersRecord count)).fits middle.params.lineBufferSize = true :=
    decide_eq_true (Nat.le_of_eq (length.trans full))
  have read : Uploader.Step plainEnv middle (.read (.record (lettersRecord count)))
      (middle.proceed (readLine plainEnv middle.params locals (.record (lettersRecord count)))) := by
    unfold Uploader.Step Uploader.step
    simp only [reading, fits, if_true]
  have met := alwaysInBounds plainEnv .daemon _ _ ((Run.nil.snoc called).snoc read) rfl rfl (by
    simp [Input.Sized])
  have bounds := met (middle, .read (.record (lettersRecord count))) (by simp)
  have roomy : Roomy middle := by
    refine ⟨rfl, fun other same => ?_⟩
    cases reading.symm.trans same
    exact ⟨rfl, by decide, by decide, nofun, nofun⟩
  have sized : (Input.read (.record (lettersRecord count))).Sized := trivial
  have fine := (inBounds_iff roomy sized read).mp bounds
  obtain ⟨behind, parsed⟩ :=
    parsedBytes_lettersRecord plainEnv middle.params count (Nat.le_of_eq full)
  have early := fine.early _ locals _ rfl _ parsed (count + 8) (lettersRecord_newlineAt count behind)
  have size : middle.params.lineBufferSize = 8192 := rfl
  dsimp only at early
  omega

end Runs

end Gfiber.Logupload
