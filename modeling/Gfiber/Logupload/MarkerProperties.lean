import Gfiber.Lib.Marks
import Gfiber.Logupload.SequenceProperties

/-! What the first call after a reboot returns. It has no counter to go by, and goes by the
markers that it finds in the lines. -/

set_option autoImplicit false

namespace Gfiber.Logupload

open Lib

section Texts

def loggedText (items : List Item) : List Byte :=
  (items.map Item.text).flatten

def copiedLines (items : List Item) : List LineData :=
  items.filterMap fun item =>
    match item with
    | .copied line => some line
    | _ => none

/-- Markers are looked for in the text of a line, never in one that could not be parsed. -/
def Item.contains (marker : List Byte) : Item → Bool
  | .copied line => strstr line.text marker
  | _ => false

abbrev Starts : Item → Bool := Item.contains logMarkerStart

abbrev Ends : Item → Bool := Item.contains logMarkerEnd

def Exclusive (line : LineData) : Prop :=
  ¬(strstr line.text logMarkerStart = true ∧ strstr line.text logMarkerEnd = true)

theorem loggedText_append (items more : List Item) :
    loggedText (items ++ more) = loggedText items ++ loggedText more := by
  unfold loggedText
  rw [List.map_append, List.flatten_append]

theorem loggedText_snoc (items : List Item) (item : Item) :
    loggedText (items ++ [item]) = loggedText items ++ item.text := by
  rw [loggedText_append]
  simp [loggedText]

theorem copiedLines_append (items more : List Item) :
    copiedLines (items ++ more) = copiedLines items ++ copiedLines more :=
  List.filterMap_append

end Texts

section Buffer

variable {size : Nat} {items : List Item} {params next : LogParseParams}

/-- The text of the items is in the buffer, while it fits. -/
structure Written (size : Nat) (items : List Item) (params : LogParseParams) : Prop where
  total : params.totalRead = (loggedText items).length
  held : (loggedText items).length < size →
    params.logBuffer.slice 0 (loggedText items).length = loggedText items

theorem slice_write_append (memory : Memory Byte) {front text more : List Byte}
    (held : memory.slice 0 front.length = front) :
    (memory.write front.length (text ++ more)).slice 0 (front ++ text).length = front ++ text := by
  have before : (memory.write front.length (text ++ more)).slice 0 front.length = front := by
    rw [Memory.slice_write_outside (by omega), held]
  have whole := @Memory.slice_write _ memory front.length (text ++ more)
  have behind : (memory.write front.length (text ++ more)).slice front.length text.length = text := by
    have fewer : text.length ≤ (text ++ more).length := by simp
    rw [← Memory.take_slice _ fewer, whole, List.take_left]
  rw [List.length_append, Memory.slice_add, before, Nat.zero_add, behind]

theorem slice_behind {memory : Memory Byte} {front rest : List Byte}
    (held : memory.slice 0 (front ++ rest).length = front ++ rest) :
    memory.slice front.length rest.length = rest := by
  rw [List.length_append, Memory.slice_add, Nat.zero_add] at held
  exact (List.append_inj held (Memory.length_slice memory 0 front.length)).2

theorem Written.snoc (written : Written size items params) (item : Item)
    (total : next.totalRead = params.totalRead + item.text.length)
    (memory : (loggedText items).length + item.text.length < size →
      ∃ more, next.logBuffer = params.logBuffer.write params.totalRead (item.text ++ more)) :
    Written size (items ++ [item]) next := by
  have length : (loggedText (items ++ [item])).length =
      (loggedText items).length + item.text.length := by
    rw [loggedText_snoc, List.length_append]
  constructor
  · rw [total, written.total, length]
  · intro fits
    rw [length] at fits
    obtain ⟨more, same⟩ := memory fits
    rw [same, written.total, loggedText_snoc]
    exact slice_write_append _ (written.held (by omega))

theorem Written.memcpy (written : Written size items params) (bytes : List Byte) :
    Written size (items ++ [.raw bytes]) (params.memcpy bytes) := by
  apply written.snoc (.raw bytes)
  · rfl
  · intro
    exact ⟨[], by rw [List.append_nil]; rfl⟩

/-- What fits is printed whole, with its NUL. -/
theorem Written.snprintf {locals : Locals} (written : Written size items params)
    (size_eq : locals.logBufferSize = size) (bounded : size < 2 ^ 64) (item : Item) :
    Written size (items ++ [item]) (params.snprintf locals item.text) := by
  apply written.snoc item
  · rfl
  · intro fits
    rw [← written.total] at fits
    have room : (locals.logBufferSize + 2 ^ 64 - params.totalRead) % 2 ^ 64 =
        size - params.totalRead := by omega
    have some_room : ¬size - params.totalRead = 0 := by omega
    have whole : item.text.take (size - params.totalRead - 1) = item.text :=
      List.take_of_length_le (by omega)
    refine ⟨[0], ?_⟩
    unfold LogParseParams.snprintf
    simp only [room, if_neg some_room, whole]

end Buffer

section Places

variable {items : List Item} {locals : Locals}

/-- The two pointers point at the places that the items leave. -/
structure Marked (items : List Item) (locals : Locals) : Prop where
  checks : locals.checkForMarkers = true
  noted : ∃ marks, Noted Starts Ends items marks ∧
    locals.lastStartMarker = marks.last.map (fun front => (loggedText front).length) ∧
    locals.lastStartBeforeEndMarker = marks.before.map fun front => (loggedText front).length

theorem Marked.plain (marked : Marked items locals) {item : Item} (starts : Starts item = false)
    (ends : Ends item = false) : Marked (items ++ [item]) locals := by
  obtain ⟨marks, noted, last, before⟩ := marked.noted
  have after : Noted Starts Ends (items ++ [item]) (marks.note items (Starts item) (Ends item)) :=
    noted.note fun both => by simp [starts] at both
  rw [starts, ends] at after
  exact ⟨marked.checks, marks, by simpa [Marks.note] using after, last, before⟩

theorem Marked.line (marked : Marked items locals) {line : LineData} {totalRead : Nat}
    (total : totalRead = (loggedText items).length) (exclusive : Exclusive line) :
    Marked (items ++ [.copied line]) (locals.noteMarkers totalRead line.text) := by
  obtain ⟨marks, noted, last, before⟩ := marked.noted
  have after : Noted Starts Ends (items ++ [.copied line]) (marks.note items
      (strstr line.text logMarkerStart) (strstr line.text logMarkerEnd)) := noted.note exclusive
  have opened : locals.lastStartMarker.isSome = marks.last.isSome := by rw [last, Option.isSome_map]
  unfold Marks.note at after
  unfold Locals.noteMarkers
  rw [if_pos marked.checks, opened]
  split
  case isTrue closing =>
    rw [if_pos closing] at after
    exact ⟨marked.checks, _, after, rfl, last⟩
  case isFalse open_still =>
    rw [if_neg open_still] at after
    split
    case isTrue opening =>
      rw [if_pos opening] at after
      exact ⟨marked.checks, _, after, by rw [total]; rfl, before⟩
    case isFalse plain =>
      rw [if_neg plain] at after
      exact ⟨marked.checks, marks, after, last, before⟩

end Places

section Turns

variable {size : Nat} {items : List Item} {params next : LogParseParams} {locals : Locals}

/-- What holds while the first call reads. The counter is that of a line that was copied. -/
structure Collected (size : Nat) (items : List Item) (params : LogParseParams) (locals : Locals) :
    Prop where
  size_eq : locals.logBufferSize = size
  written : Written size items params
  marked : Marked items locals
  counter : params.lastLogCounter = 0 ∨
    ∃ line ∈ copiedLines items, line.seq = params.lastLogCounter

theorem Collected.of_same (collected : Collected size items params locals)
    (total : next.totalRead = params.totalRead) (memory : next.logBuffer = params.logBuffer)
    (counter : next.lastLogCounter = params.lastLogCounter) : Collected size items next locals where
  size_eq := collected.size_eq
  written := ⟨by rw [total, collected.written.total], by rw [memory]; exact collected.written.held⟩
  marked := collected.marked
  counter := by rw [counter]; exact collected.counter

theorem Collected.raw (collected : Collected size items params locals) (bytes : List Byte) :
    Collected size (items ++ [.raw bytes]) (params.memcpy bytes) locals where
  size_eq := collected.size_eq
  written := collected.written.memcpy bytes
  marked := collected.marked.plain rfl rfl
  counter := by
    have same : copiedLines (items ++ [.raw bytes]) = copiedLines items := by simp [copiedLines]
    rw [same]
    exact collected.counter

theorem Collected.missed (collected : Collected size items params locals) (bounded : size < 2 ^ 64)
    (line : LineData) (count : Word64) :
    Collected size (items ++ [.missed line count])
      (params.snprintf locals (Item.missed line count).text) locals where
  size_eq := collected.size_eq
  written := collected.written.snprintf collected.size_eq bounded _
  marked := collected.marked.plain rfl rfl
  counter := by
    have same : copiedLines (items ++ [.missed line count]) = copiedLines items := by
      simp [copiedLines]
    rw [same]
    exact collected.counter

/-- How a turn goes on: the lines it has copied are in the buffer. -/
inductive Collects (size : Nat) (items : List Item) (lines : List LineData) : Turn → Prop where
  | next {params : LogParseParams} {locals : Locals} {more : List Item}
      (collected : Collected size (items ++ more) params locals)
      (copied : copiedLines more = lines) : Collects size items lines (.next params locals more)
  | stop {params : LogParseParams} {locals : Locals} (collected : Collected size items params locals)
      (none : lines = []) : Collects size items lines (.stop params locals)
  | fail (params : LogParseParams) (none : lines = []) : Collects size items lines (.fail params)
  | overrun (none : lines = []) : Collects size items lines .overrun

/-- What is asked of a line after those that were copied. -/
structure Follows (items : List Item) (line : LineData) : Prop where
  above : ∀ seen ∈ copiedLines items, seen.seq < line.seq
  exclusive : Exclusive line

theorem noteMarkers_size (locals : Locals) (totalRead : Nat) (text : List Byte) :
    (locals.noteMarkers totalRead text).logBufferSize = locals.logBufferSize := by
  unfold Locals.noteMarkers
  split
  · split
    · rfl
    · split <;> rfl
  · rfl

theorem copyLine_collects {more : List Item}
    (collected : Collected size (items ++ more) params locals) (bounded : size < 2 ^ 64)
    {line : LineData} (follows : Follows items line) (plain : copiedLines more = []) :
    Collects size items [line] (copyLine params locals line more) := by
  have size_eq : (locals.noteMarkers params.totalRead line.text).logBufferSize = size := by
    rw [noteMarkers_size, collected.size_eq]
  unfold copyLine
  apply Collects.next
  · rw [← List.append_assoc]
    constructor
    · exact size_eq
    · have written := collected.written.snprintf size_eq bounded (.copied line)
      exact ⟨written.total, written.held⟩
    · exact collected.marked.line collected.written.total follows.exclusive
    · exact .inr ⟨line, by simp [copiedLines], rfl⟩
  · rw [copiedLines_append, plain]
    rfl

/-- A line with a larger number is never skipped. -/
theorem countLine_collects (collected : Collected size items params locals)
    (bounded : size < 2 ^ 64) {line : LineData} (follows : Follows items line) :
    Collects size items [line] (countLine params locals line) := by
  have plain : Collects size items [line] (copyLine params locals line []) :=
    copyLine_collects (by rwa [List.append_nil]) bounded follows rfl
  unfold countLine
  split
  case isFalse => exact plain
  case isTrue positive =>
    have above : params.lastLogCounter < line.seq := by
      cases collected.counter with
      | inl zero => simp [zero] at positive
      | inr seen =>
          obtain ⟨seen, member, same⟩ := seen
          rw [← same]
          exact follows.above seen member
    split
    case isTrue => exact copyLine_collects (collected.missed bounded line _) bounded follows rfl
    case isFalse =>
      split
      case isTrue old =>
        simp only [Bool.and_eq_true, decide_eq_true_eq] at old
        exact absurd above (BitVec.not_lt.mpr old.2)
      case isFalse => exact plain

theorem handleLine_collects (env : Env) (collected : Collected size items params locals)
    (bounded : size < 2 ^ 64) (numRead : Nat)
    (follows : ∀ line ∈ countedLine env params locals numRead, Follows items line) :
    Collects size items (countedLine env params locals numRead).toList
      (handleLine env params locals numRead) := by
  revert follows
  unfold countedLine handleLine
  cases suppressMacAddresses env.hmac params.lineBuffer 0 numRead with
  | none => exact fun _ => .overrun rfl
  | some result =>
      obtain ⟨lineBuffer, numRead⟩ := result
      dsimp only
      have same : Collected size items { params with lineBuffer := lineBuffer } locals :=
        collected.of_same rfl rfl rfl
      cases parseLineData (lineBuffer.slice 0 (params.lineBufferSize + env.behind)) with
      | overrun => exact fun _ => .overrun rfl
      | missing => exact fun _ => .next (same.raw _) rfl
      | found parsed =>
          obtain ⟨line, ending⟩ := parsed
          dsimp only
          split
          case isTrue => exact fun _ => .stop (collected.of_same rfl rfl rfl) rfl
          case isFalse =>
            intro follows
            refine countLine_collects ?_ bounded (follows line rfl)
            exact collected.of_same rfl rfl rfl

theorem readLine_collects (env : Env) (collected : Collected size items params locals)
    {result : Read} (other : ∀ bytes, result ≠ .record bytes) :
    Collects size items [] (readLine env params locals result) := by
  have same : Collected size (items ++ []) params locals := by rwa [List.append_nil]
  cases result with
  | record bytes => exact absurd rfl (other bytes)
  | again markerWritten logmarkOnce =>
      rw [readLine]
      split
      · exact .stop collected rfl
      · split
        · exact .next ⟨same.size_eq, same.written, ⟨same.marked.checks, same.marked.noted⟩,
            same.counter⟩ rfl
        · exact .fail params rfl
  | pipe => exact .next same rfl
  | invalid => exact .next same rfl
  | failed => exact .fail params rfl

end Turns

section Runs

variable {env : Env} {size : Nat} {items added : List Item} {start uploader next finish : Uploader}

/-- How far the first call is. -/
inductive Stage (start : Uploader) (size : Nat) (items : List Item) (uploader : Uploader) :
    Prop where
  | reading (locals : Locals) (phase : uploader.phase = .reading locals)
      (collected : Collected size items uploader.params locals)
      (outputs : uploader.outputs = start.outputs)
      (items_eq : uploader.items = start.items ++ items)
  | returned (before : Uploader) (params : LogParseParams) (locals : Locals)
      (collected : Collected size items params locals) (outputs : before.outputs = start.outputs)
      (items_eq : before.items = start.items ++ items)
      (finished : uploader = before.finish params locals)
  | failed (idle : ∀ locals, uploader.phase ≠ .reading locals)
      (outputs : ∀ out, uploader.outputs ≠ start.outputs ++ [some out])

theorem Stage.proceed {lines : List LineData} {turn : Turn}
    (collects : Collects size items lines turn) (outputs : uploader.outputs = start.outputs)
    (items_eq : uploader.items = start.items ++ items) :
    ∃ after, Stage start size after (uploader.proceed turn) ∧
      copiedLines after = copiedLines items ++ lines := by
  cases collects with
  | @next params locals more collected copied =>
      refine ⟨items ++ more, ?_, by rw [copiedLines_append, copied]⟩
      have items_after : uploader.items ++ more = start.items ++ (items ++ more) := by
        rw [items_eq, List.append_assoc]
      unfold Uploader.proceed
      dsimp only
      split
      · exact .returned { uploader with items := uploader.items ++ more } params locals collected
          outputs items_after rfl
      · exact .reading locals rfl collected outputs items_after
  | @stop params locals collected none =>
      refine ⟨items, ?_, by rw [none, List.append_nil]⟩
      exact .returned uploader params locals collected outputs items_eq rfl
  | fail params none =>
      refine ⟨items, ?_, by rw [none, List.append_nil]⟩
      refine .failed (fun locals => by simp [Uploader.proceed]) fun out same => ?_
      simp [Uploader.proceed, outputs] at same
  | overrun none =>
      refine ⟨items, ?_, by rw [none, List.append_nil]⟩
      refine .failed (fun locals => by simp [Uploader.proceed]) fun out same => ?_
      simp [Uploader.proceed, outputs] at same

/-- The lines that are read in a run. -/
def records (env : Env) (trace : List (Uploader × Input)) : List LineData :=
  trace.filterMap fun entry => entry.1.counted env entry.2

theorem Stage.read {result : Read} (stage : Stage start size items uploader)
    (bounded : size < 2 ^ 64)
    (follows : ∀ line ∈ uploader.counted env (.read result), Follows items line)
    (step : Uploader.Step env uploader (.read result) next) :
    ∃ after, Stage start size after next ∧
      copiedLines after = copiedLines items ++ (uploader.counted env (.read result)).toList := by
  obtain ⟨locals, phase, -, same⟩ := Uploader.step_read step
  subst same
  cases stage with
  | failed idle => exact absurd phase (idle locals)
  | returned before params others _ _ _ finished =>
      rw [finished] at phase
      cases phase
  | reading others held collected outputs items_eq =>
      cases held.symm.trans phase
      apply Stage.proceed _ outputs items_eq
      cases result with
      | record bytes =>
          unfold Uploader.counted at *
          simp only [phase] at *
          refine handleLine_collects env ?_ bounded bytes.length follows
          exact collected.of_same rfl rfl rfl
      | _ => exact readLine_collects env collected (by simp)

theorem Stage.call (fresh : start.params.lastLogCounter = 0) (bounded : size < 2 ^ 64)
    (exclusive : ∀ line ∈ start.counted env (.call size), Exclusive line) :
    ∃ after, Stage start size after (start.call env size) ∧
      copiedLines after = (start.counted env (.call size)).toList := by
  let locals : Locals := ⟨size, false, start.params.lastLogCounter = 0, none, none⟩
  have collected (params : LogParseParams) (total : params.totalRead = 0)
      (counter : params.lastLogCounter = 0) : Collected size [] params locals := by
    constructor
    · rfl
    · exact ⟨total, fun _ => rfl⟩
    · exact ⟨decide_eq_true fresh, ⟨none, none⟩, noted_nil, rfl, rfl⟩
    · exact .inl counter
  by_cases kept : 2 * start.params.lineBufferSize < size ∧ start.params.lastLineValid
  · let params := { start.params with totalRead := 0, lastLineValid := false }
    have counted : start.counted env (.call size) = countedLine env params locals 0 := if_pos kept
    have called : start.call env size = start.proceed (handleLine env params locals 0) :=
      if_pos (by simpa [LogParseParams.full] using kept)
    rw [counted] at exclusive ⊢
    rw [called]
    have turn := handleLine_collects env (collected params rfl fresh) bounded 0 fun line member =>
      ⟨fun seen impossible => (by cases impossible), exclusive line member⟩
    exact Stage.proceed turn rfl (List.append_nil _).symm
  · have counted : start.counted env (.call size) = none := if_neg kept
    have called : start.call env size =
        start.proceed (.next { start.params with totalRead := 0 } locals []) :=
      if_neg (by simpa [LogParseParams.full] using kept)
    rw [counted, called]
    refine Stage.proceed (.next ?_ rfl) rfl (List.append_nil _).symm
    exact collected _ rfl fresh

def Later (line next : LineData) : Prop :=
  line.seq < next.seq

theorem Stage.run {trace : List (Uploader × Input)} (run : Run (Uploader.Step env) next trace finish)
    (stage : Stage start size items next) (bounded : size < 2 ^ 64)
    (reads : ∀ entry ∈ trace, ∃ result, entry.2 = .read result)
    (increasing : (copiedLines items ++ records env trace).Pairwise Later)
    (exclusive : ∀ line ∈ records env trace, Exclusive line) :
    ∃ after, Stage start size after finish ∧
      copiedLines after = copiedLines items ++ records env trace := by
  induction run with
  | nil => exact ⟨items, stage, by simp [records]⟩
  | @snoc middle finish input trace run step ih =>
      have joined : records env (trace ++ [(middle, input)]) =
          records env trace ++ (middle.counted env input).toList := by
        unfold records
        rw [List.filterMap_append]
        cases counted : middle.counted env input <;> simp [counted]
      rw [joined] at increasing exclusive ⊢
      rw [← List.append_assoc] at increasing ⊢
      obtain ⟨earlier, -, later⟩ := List.pairwise_append.mp increasing
      obtain ⟨before, held, copied⟩ := ih
        (fun entry member => reads entry (List.mem_append_left _ member)) earlier
        fun line member => exclusive line (List.mem_append_left _ member)
      obtain ⟨result, same⟩ := reads (middle, input) (by simp)
      dsimp only at same
      subst same
      rw [← copied] at later ⊢
      refine held.read bounded (fun line member => ⟨fun seen earlier => ?_, ?_⟩) step
      · exact later seen earlier line (Option.mem_toList.mpr member)
      · exact exclusive line (List.mem_append_right _ (Option.mem_toList.mpr member))

/-- The part of the buffer that starts with the last line with a start marker that a line with an
end marker follows, or all of it. -/
def ReturnedFrom (front items : List Item) : Prop :=
  LastFollowed Starts Ends front items ∨ front = [] ∧ ∀ other, ¬Followed Starts Ends other items

theorem Marked.place {locals : Locals} (marked : Marked items locals) :
    ∃ front, ReturnedFrom front items ∧
      (locals.uploadMarker = some (loggedText front).length ∨
        locals.uploadMarker = none ∧ front = []) := by
  obtain ⟨marks, noted, -, before⟩ := marked.noted
  rw [Locals.uploadMarker, if_pos marked.checks, before]
  cases found : marks.before with
  | some front => exact ⟨front, .inl (noted.found front found), .inl rfl⟩
  | none => exact ⟨[], .inr ⟨rfl, noted.absent found⟩, .inr ⟨rfl, rfl⟩⟩

theorem ReturnedFrom.split {front : List Item} (returned : ReturnedFrom front items) :
    ∃ rest, items = front ++ rest := by
  cases returned with
  | inl last =>
      obtain ⟨item, rest, whole, -⟩ := last.followed
      exact ⟨item :: rest, whole⟩
  | inr all => exact ⟨items, by rw [all.1, List.nil_append]⟩

theorem finish_returns {params : LogParseParams} {locals : Locals}
    (collected : Collected size items params locals) (fits : (loggedText items).length < size)
    (bounded : size ≤ 2 ^ 31) (before : Uploader) :
    ∃ front rest, items = front ++ rest ∧ ReturnedFrom front items ∧
      (before.finish params locals).outputs = before.outputs ++ [some (loggedText rest)] ∧
      (before.finish params locals).params.totalRead = (loggedText rest).length ∧
      (before.finish params locals).params.logBuffer.slice 0 ((loggedText items).length + 1) =
        loggedText items ++ [0] := by
  obtain ⟨front, returned, marker⟩ := collected.marked.place
  obtain ⟨rest, whole⟩ := returned.split
  have total := collected.written.total
  have text : loggedText items = loggedText front ++ loggedText rest := by
    rw [whole, loggedText_append]
  have parts : params.totalRead = (loggedText front).length + (loggedText rest).length := by
    rw [total, text, List.length_append]
  have start : locals.uploadMarker.getD 0 = (loggedText front).length := by
    rcases marker with some | ⟨none, empty⟩
    · rw [some, Option.getD_some]
    · rw [none, Option.getD_none, empty]
      rfl
  have length : params.withoutDupes locals.uploadMarker = (loggedText rest).length := by
    rcases marker with some | ⟨none, empty⟩
    · rw [some, LogParseParams.withoutDupes_some (by omega) (by omega) (by omega), parts,
        Nat.add_sub_cancel_left]
    · rw [empty, loggedText, List.map_nil, List.flatten_nil, List.length_nil, Nat.zero_add] at parts
      rw [none, LogParseParams.withoutDupes, parts]
  have held := collected.written.held fits
  have kept : (params.logBuffer.write params.totalRead [0]).slice 0 (loggedText items).length =
      loggedText items := by
    rw [Memory.slice_write_outside (by omega), held]
  have ended : (params.logBuffer.write params.totalRead ([0] ++ [])).slice 0
      (loggedText items ++ [0]).length = loggedText items ++ [0] := by
    rw [total]
    exact slice_write_append params.logBuffer held
  refine ⟨front, rest, whole, returned, ?_, ?_, ?_⟩
  · unfold Uploader.finish
    dsimp only
    rw [start, length]
    rw [text] at kept
    rw [slice_behind kept]
  · exact length
  · rw [List.length_append, List.append_nil] at ended
    exact ended

variable (env) in
/-- A first call that returns: the lines that it was given are in the buffer, and its pointer is
where the text of `rest` starts. -/
theorem first_call_returns {trace : List (Uploader × Input)} {out : List Byte}
    (run : Run (Uploader.Step env) start ((start, .call size) :: trace) finish)
    (reads : ∀ entry ∈ trace, ∃ result, entry.2 = .read result)
    (rebooted : start.params.lastLogCounter = 0) (bounded : size ≤ 2 ^ 31)
    (increasing : (records env ((start, .call size) :: trace)).Pairwise Later)
    (exclusive : ∀ line ∈ records env ((start, .call size) :: trace), Exclusive line)
    (logged : finish.items = start.items ++ added) (fits : (loggedText added).length < size)
    (returned : finish.outputs = start.outputs ++ [some out]) :
    copiedLines added = records env ((start, .call size) :: trace) ∧
      ∃ front rest, added = front ++ rest ∧ ReturnedFrom front added ∧ out = loggedText rest ∧
        finish.params.totalRead = out.length ∧
        finish.params.logBuffer.slice 0 ((loggedText added).length + 1) =
          loggedText added ++ [0] := by
  have wide : size < 2 ^ 64 := by omega
  obtain ⟨-, next, step, rest_run⟩ := run.uncons
  obtain ⟨-, called⟩ := Uploader.step_call step
  subst called
  have joined : records env ((start, .call size) :: trace) =
      (start.counted env (.call size)).toList ++ records env trace := by
    unfold records
    cases counted : start.counted env (.call size) <;> simp [counted]
  rw [joined] at increasing exclusive ⊢
  obtain ⟨first, stage, copied⟩ := Stage.call rebooted wide fun line member =>
    exclusive line (List.mem_append_left _ (Option.mem_toList.mpr member))
  rw [← copied] at increasing ⊢
  obtain ⟨items, last, lines⟩ := stage.run rest_run wide reads increasing fun line member =>
    exclusive line (List.mem_append_right _ member)
  cases last with
  | failed _ outputs => exact absurd returned (outputs out)
  | reading _ _ _ outputs =>
      rw [outputs] at returned
      simp at returned
  | returned before params locals collected outputs items_eq finished =>
      have all : items = added := by
        rw [finished] at logged
        exact List.append_cancel_left (items_eq.symm.trans logged)
      subst all
      refine ⟨lines, ?_⟩
      obtain ⟨front, rest, whole, place, text, total, held⟩ := finish_returns collected fits bounded before
      rw [← finished] at text total held
      rw [outputs, returned] at text
      have same : out = loggedText rest := by simpa using text
      exact ⟨front, rest, whole, place, same, by rw [total, same], held⟩

def markerReads : List Input :=
  [.read (.record (bytesOf "7,1,0,-;*LOG_UPLOAD_START*\n")), .read (.record (bytesOf "7,2,0,-;a\n")),
    .read (.record (bytesOf "7,4,0,-;*LOG_UPLOAD_START*\n")), .read .pipe,
    .read (.record (bytesOf "7,5,0,-;*LOG_UPLOAD_END*\n")),
    .read (.record (bytesOf "7,6,0,-;*LOG_UPLOAD_START*\n")), .read (.again true true),
    .read (.again true true)]

def markerText : List Byte :=
  bytesOf "<7>[    0.000000] *LOG_UPLOAD_START*\n<7>[    0.000000] *LOG_UPLOAD_END*\n" ++
    bytesOf "<7>[    0.000000] *LOG_UPLOAD_START*\n"

theorem first_call_returns_marked :
    let start := Uploader.fresh 0 fun _ => 0
    let finish := (.call 512 :: markerReads).foldl (feed plainEnv) start
    (copiedLines finish.items).map LineData.seq = [1, 2, 4, 5, 6] ∧
      ∃ front rest, finish.items = front ++ rest ∧ ReturnedFrom front finish.items ∧
        markerText = loggedText rest ∧ finish.params.totalRead = markerText.length ∧
          finish.params.logBuffer.slice 0 ((loggedText finish.items).length + 1) =
            loggedText finish.items ++ [0] := by
  intro start finish
  let trace := traceOf (feed plainEnv) (feed plainEnv start (.call 512)) markerReads
  have run : Run (Uploader.Step plainEnv) start ((start, .call 512) :: trace) finish :=
    run_feed start (.call 512 :: markerReads) (by decide +kernel)
  have reads : ∀ entry ∈ trace, ∃ result, entry.2 = .read result := by
    intro entry member
    have label := mem_traceOf member
    simp only [markerReads, List.mem_cons, List.not_mem_nil, or_false] at label
    rcases label with h | h | h | h | h | h | h | h <;> exact ⟨_, h⟩
  have seqs : (records plainEnv ((start, .call 512) :: trace)).map LineData.seq =
      [1, 2, 4, 5, 6] := by decide +kernel
  have increasing : (records plainEnv ((start, .call 512) :: trace)).Pairwise Later := by
    have sorted : [1, 2, 4, 5, 6].Pairwise fun (left right : Word64) => left < right := by decide
    rw [← seqs, List.pairwise_map] at sorted
    exact sorted
  have exclusive : ∀ line ∈ records plainEnv ((start, .call 512) :: trace), Exclusive line := by
    have all : (records plainEnv ((start, .call 512) :: trace)).all (fun line =>
        !(strstr line.text logMarkerStart && strstr line.text logMarkerEnd)) = true := by
      decide +kernel
    intro line member both
    simpa [both.1, both.2] using List.all_eq_true.mp all line member
  have fits : (loggedText finish.items).length < 512 := by decide +kernel
  have returned : finish.outputs = start.outputs ++ [some markerText] := by decide +kernel
  obtain ⟨copied, returns⟩ :=
    first_call_returns plainEnv run reads rfl (by decide) increasing exclusive
      (List.nil_append _).symm fits returned
  exact ⟨by rw [copied, seqs], returns⟩

end Runs

end Gfiber.Logupload
