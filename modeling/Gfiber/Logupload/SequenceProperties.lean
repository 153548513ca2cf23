import Gfiber.Logupload.Uploader

/-! The counter, the lines that were copied and the lines that were missed, over
any number of calls. The sum `last_log_counter + 1` wraps at the largest counter,
after which every line counts as a later one. -/

set_option autoImplicit false

namespace Gfiber.Logupload

open Lib

section Accounts

def seqs (items : List Item) : List Nat :=
  items.filterMap fun item =>
    match item with
    | .copied line => some line.seq.toNat
    | _ => none

def missedEntries (items : List Item) : Nat :=
  (items.map fun item =>
    match item with
    | .missed _ count => count.toNat
    | _ => 0).sum

@[simp] theorem seqs_append (items more : List Item) :
    seqs (items ++ more) = seqs items ++ seqs more :=
  List.filterMap_append

@[simp] theorem missedEntries_append (items more : List Item) :
    missedEntries (items ++ more) = missedEntries items + missedEntries more := by
  simp [missedEntries]

/-- The copied lines go up from the counter at the start, and what is copied and
what is announced as missed makes up the difference. -/
structure Accounted (initial : Word64) (uploader : Uploader) : Prop where
  increasing : (initial.toNat :: seqs uploader.items).Pairwise (· < ·)
  total : initial.toNat + ((seqs uploader.items).length + missedEntries uploader.items) =
    uploader.params.lastLogCounter.toNat

/-- The counter is the last number that was copied, or still the first one. -/
structure Counting (initial : Word64) (uploader : Uploader) : Prop extends
    Accounted initial uploader where
  selective : uploader.params.uploadAll = false
  positive : 0 < initial.toNat
  bounded : ∀ seq ∈ initial.toNat :: seqs uploader.items,
    seq ≤ uploader.params.lastLogCounter.toNat
  reached : uploader.params.lastLogCounter.toNat ∈ initial.toNat :: seqs uploader.items

variable {initial : Word64} {uploader next : Uploader}

theorem Counting.quiet (counting : Counting initial uploader)
    (selective : next.params.uploadAll = false)
    (counter : next.params.lastLogCounter = uploader.params.lastLogCounter)
    (lines : seqs next.items = seqs uploader.items)
    (missed : missedEntries next.items = missedEntries uploader.items) :
    Counting initial next where
  increasing := by rw [lines]; exact counting.increasing
  total := by rw [lines, missed, counter]; exact counting.total
  selective := selective
  positive := counting.positive
  bounded := by rw [lines, counter]; exact counting.bounded
  reached := by rw [lines, counter]; exact counting.reached

theorem Counting.later (counting : Counting initial uploader) {seq : Nat}
    (selective : next.params.uploadAll = false)
    (counter : next.params.lastLogCounter.toNat = seq)
    (above : uploader.params.lastLogCounter.toNat < seq)
    (lines : seqs next.items = seqs uploader.items ++ [seq])
    (missed : missedEntries next.items + 1 + uploader.params.lastLogCounter.toNat =
      missedEntries uploader.items + seq) : Counting initial next where
  increasing := by
    rw [lines, ← List.cons_append, List.pairwise_append]
    refine ⟨counting.increasing, List.pairwise_singleton _ _, fun earlier member last same => ?_⟩
    rw [List.mem_singleton.mp same]
    exact (counting.bounded earlier member).trans_lt above
  total := by
    have total := counting.total
    rw [lines, List.length_append, List.length_singleton, counter]
    omega
  selective := selective
  positive := counting.positive
  bounded := by
    intro earlier member
    rw [lines, ← List.cons_append] at member
    rw [counter]
    rcases List.mem_append.mp member with old | new
    · exact ((counting.bounded earlier old).trans_lt above).le
    · exact (List.mem_singleton.mp new).le
  reached := by rw [lines, counter]; simp

/-- At the largest counter no line can go on. -/
theorem Counting.not_accounted (counting : Counting initial uploader) {seq : Nat}
    (below : seq ≤ uploader.params.lastLogCounter.toNat)
    (lines : seqs next.items = seqs uploader.items ++ [seq]) : ¬ Accounted initial next := by
  intro accounted
  have increasing := accounted.increasing
  rw [lines, ← List.cons_append, List.pairwise_append] at increasing
  have above := increasing.2.2 _ counting.reached seq (List.mem_singleton_self seq)
  omega

end Accounts

section Turns

def Turn.items : Turn → List Item
  | .next _ _ items => items
  | _ => []

def Turn.paramsAfter (before : LogParseParams) : Turn → LogParseParams
  | .next params _ _ => params
  | .stop params _ => params
  | .fail params => params
  | .overrun => before

theorem proceed_effect (uploader : Uploader) (turn : Turn) :
    let next := uploader.proceed turn
    let after := turn.paramsAfter uploader.params
    next.items = uploader.items ++ turn.items ∧
      next.params.lastLogCounter = after.lastLogCounter ∧
      next.params.uploadAll = after.uploadAll := by
  cases turn with
  | next params locals items =>
      simp only [Uploader.proceed]
      split <;> exact ⟨rfl, rfl, rfl⟩
  | stop => simp [Uploader.proceed, Uploader.finish, Turn.items, Turn.paramsAfter]
  | fail => simp [Uploader.proceed, Turn.items, Turn.paramsAfter]
  | overrun => simp [Uploader.proceed, Turn.items, Turn.paramsAfter]

variable (env : Env)

/-- The line that is held against the counter, if there is one. -/
def countedLine (params : LogParseParams) (locals : Locals) (numRead : Nat) : Option LineData :=
  match suppressMacAddresses env.hmac params.lineBuffer 0 numRead with
  | none => none
  | some (lineBuffer, _) =>
      match parseLineData (lineBuffer.slice 0 (params.lineBufferSize + env.behind)) with
      | .found (line, _) =>
          if locals.wroteStartMarker && strstr line.text logMarkerStart then none else some line
      | _ => none

/-- A turn that leaves the counter and the accounts as they are. -/
structure Turn.Quiet (params : LogParseParams) (turn : Turn) : Prop where
  counter : ∀ before, before.lastLogCounter = params.lastLogCounter →
    (turn.paramsAfter before).lastLogCounter = params.lastLogCounter
  selective : ∀ before, before.uploadAll = params.uploadAll →
    (turn.paramsAfter before).uploadAll = params.uploadAll
  lines : seqs turn.items = []
  missed : missedEntries turn.items = 0

/-- The uploader after a turn that holds a line against the counter, or none. -/
inductive Tally (uploader : Uploader) : Option LineData → Uploader → Prop where
  | quiet {params : LogParseParams} {turn : Turn}
      (counter : params.lastLogCounter = uploader.params.lastLogCounter)
      (selective : params.uploadAll = uploader.params.uploadAll) (quiet : turn.Quiet params) :
      Tally uploader none (uploader.proceed turn)
  | line {params : LogParseParams} (locals : Locals) (line : LineData)
      (counter : params.lastLogCounter = uploader.params.lastLogCounter)
      (selective : params.uploadAll = uploader.params.uploadAll) :
      Tally uploader (some line) (uploader.proceed (countLine params locals line))

theorem handleLine_tally {uploader : Uploader} {params : LogParseParams} (locals : Locals)
    (numRead : Nat) (counter : params.lastLogCounter = uploader.params.lastLogCounter)
    (selective : params.uploadAll = uploader.params.uploadAll) :
    Tally uploader (countedLine env params locals numRead)
      (uploader.proceed (handleLine env params locals numRead)) := by
  rw [countedLine, handleLine]
  cases suppressMacAddresses env.hmac params.lineBuffer 0 numRead with
  | none => exact .quiet counter selective ⟨fun _ same => same, fun _ same => same, rfl, rfl⟩
  | some result =>
      obtain ⟨lineBuffer, numRead⟩ := result
      dsimp only
      cases parseLineData (lineBuffer.slice 0 (params.lineBufferSize + env.behind)) with
      | overrun => exact .quiet counter selective ⟨fun _ same => same, fun _ same => same, rfl, rfl⟩
      | missing => exact .quiet counter selective ⟨fun _ _ => rfl, fun _ _ => rfl, rfl, rfl⟩
      | found parsed =>
          obtain ⟨line, ending⟩ := parsed
          dsimp only
          split
          · exact .quiet counter selective ⟨fun _ _ => rfl, fun _ _ => rfl, rfl, rfl⟩
          · exact .line locals line counter selective

theorem readLine_quiet (params : LogParseParams) (locals : Locals) {result : Read}
    (other : ∀ bytes, result ≠ .record bytes) :
    (readLine env params locals result).Quiet params := by
  cases result with
  | record bytes => exact absurd rfl (other bytes)
  | again markerWritten logmarkOnce =>
      rw [readLine]
      split
      · exact ⟨fun _ _ => rfl, fun _ _ => rfl, rfl, rfl⟩
      · split <;> exact ⟨fun _ _ => rfl, fun _ _ => rfl, rfl, rfl⟩
  | pipe => exact ⟨fun _ _ => rfl, fun _ _ => rfl, rfl, rfl⟩
  | invalid => exact ⟨fun _ _ => rfl, fun _ _ => rfl, rfl, rfl⟩
  | failed => exact ⟨fun _ _ => rfl, fun _ _ => rfl, rfl, rfl⟩

/-- What a turn counts: `items` in all, up to `counter`. -/
structure Turn.Counts (turn : Turn) (counter : Word64) (items : List Item) : Prop where
  counter_eq : ∀ before, (turn.paramsAfter before).lastLogCounter = counter
  selective : ∀ before, (turn.paramsAfter before).uploadAll = false
  items_eq : turn.items = items

theorem countLine_cases {params : LogParseParams} (locals : Locals) (line : LineData)
    (selective : params.uploadAll = false) (positive : 0 < params.lastLogCounter) :
    let counter := params.lastLogCounter
    let turn := countLine params locals line
    counter + 1 < line.seq ∧
        turn.Counts line.seq [.missed line (line.seq - counter - 1), .copied line] ∨
      ¬ counter + 1 < line.seq ∧ line.seq ≤ counter ∧ turn.Counts counter [] ∨
      ¬ counter + 1 < line.seq ∧ counter < line.seq ∧ turn.Counts line.seq [.copied line] := by
  simp only [countLine, if_pos positive, selective, Bool.not_false, Bool.true_and,
    decide_eq_true_eq]
  split
  case isTrue later => exact .inl ⟨later, fun _ => rfl, fun _ => selective, rfl⟩
  case isFalse soon =>
    split
    case isTrue old => exact .inr (.inl ⟨soon, old, fun _ => rfl, fun _ => selective, rfl⟩)
    case isFalse new =>
      exact .inr (.inr ⟨soon, BitVec.not_le.mp new, fun _ => rfl, fun _ => selective, rfl⟩)

end Turns

section Steps

/-- The counter may not wrap. -/
def Fits (counter : Word64) (line : LineData) : Prop :=
  counter = BitVec.allOnes 64 → line.seq = 0

theorem Fits.gap {counter : Word64} {line : LineData} (fits : Fits counter line)
    (later : counter + 1 < line.seq) :
    (line.seq - counter - 1).toNat + 1 + counter.toNat = line.seq.toNat := by
  have wrapped : counter.toNat ≠ 2 ^ 64 - 1 := by
    intro largest
    have zero := fits (BitVec.eq_of_toNat_eq (by simpa using largest))
    rw [zero] at later
    simp [BitVec.lt_def] at later
  have small := counter.isLt
  have one : (1 : Word64).toNat = 1 := rfl
  simp only [BitVec.lt_def, BitVec.toNat_add, one] at later
  simp only [BitVec.toNat_sub, one]
  omega

theorem seq_eq_succ {counter seq : Word64} (soon : ¬ counter + 1 < seq) (later : counter < seq) :
    seq.toNat = counter.toNat + 1 := by
  have small := seq.isLt
  have one : (1 : Word64).toNat = 1 := rfl
  simp only [BitVec.lt_def, BitVec.toNat_add, one] at soon later
  omega

variable {initial : Word64} {uploader : Uploader} (counting : Counting initial uploader)
include counting

theorem Counting.proceed_quiet {params : LogParseParams} {turn : Turn}
    (counter : params.lastLogCounter = uploader.params.lastLogCounter)
    (selective : params.uploadAll = uploader.params.uploadAll) (quiet : turn.Quiet params) :
    Counting initial (uploader.proceed turn) := by
  obtain ⟨items, counted, same⟩ := proceed_effect uploader turn
  apply counting.quiet
  · rw [same, quiet.selective _ selective.symm, selective]
    exact counting.selective
  · rw [counted, quiet.counter _ counter.symm, counter]
  · rw [items, seqs_append, quiet.lines, List.append_nil]
  · rw [items, missedEntries_append, quiet.missed, Nat.add_zero]

theorem Counting.counter_pos : 0 < uploader.params.lastLogCounter := by
  have below := counting.bounded initial.toNat List.mem_cons_self
  rw [BitVec.lt_def]
  exact counting.positive.trans_le below

/-- A turn that counts the entries up to a line and copies it. -/
theorem Counting.proceed_counts {turn : Turn} {seq : Word64} {more : List Item}
    (counts : turn.Counts seq more) (lines : seqs more = [seq.toNat])
    (missed : missedEntries more + 1 + uploader.params.lastLogCounter.toNat = seq.toNat) :
    Counting initial (uploader.proceed turn) := by
  obtain ⟨items, counted, same⟩ := proceed_effect uploader turn
  refine counting.later (by rw [same, counts.selective]) (by rw [counted, counts.counter_eq])
    (by omega) ?_ ?_
  · rw [items, counts.items_eq, seqs_append, lines]
  · rw [items, counts.items_eq, missedEntries_append]
    omega

theorem Counting.proceed_line {params : LogParseParams} (locals : Locals) {line : LineData}
    (counter : params.lastLogCounter = uploader.params.lastLogCounter)
    (selective : params.uploadAll = uploader.params.uploadAll)
    (fits : Fits uploader.params.lastLogCounter line) :
    Counting initial (uploader.proceed (countLine params locals line)) := by
  obtain ⟨items, counted, same⟩ := proceed_effect uploader (countLine params locals line)
  have cases := countLine_cases locals line (selective.trans counting.selective)
    (counter ▸ counting.counter_pos)
  rw [counter] at cases
  rcases cases with ⟨later, turn⟩ | ⟨_, _, turn⟩ | ⟨soon, later, turn⟩
  · have gap := fits.gap later
    apply counting.proceed_counts turn rfl
    simp only [missedEntries, List.map_cons, List.map_nil, List.sum_cons, List.sum_nil]
    omega
  · apply counting.quiet
    · rw [same, turn.selective]
    · rw [counted, turn.counter_eq]
    · rw [items, turn.items_eq, List.append_nil]
    · rw [items, turn.items_eq, List.append_nil]
  · have next := seq_eq_succ soon later
    apply counting.proceed_counts turn rfl
    simp only [missedEntries, List.map_cons, List.map_nil, List.sum_cons, List.sum_nil]
    omega

theorem Counting.fits_of_accounted {params : LogParseParams} {locals : Locals} {line : LineData}
    (counter : params.lastLogCounter = uploader.params.lastLogCounter)
    (selective : params.uploadAll = uploader.params.uploadAll)
    (accounted : Accounted initial (uploader.proceed (countLine params locals line))) :
    Fits uploader.params.lastLogCounter line := by
  intro largest
  obtain ⟨items, -, -⟩ := proceed_effect uploader (countLine params locals line)
  have below : line.seq.toNat ≤ uploader.params.lastLogCounter.toNat := by
    have small := line.seq.isLt
    rw [largest, BitVec.toNat_allOnes]
    omega
  have cases := countLine_cases locals line (selective.trans counting.selective)
    (counter ▸ counting.counter_pos)
  rw [counter] at cases
  rcases cases with ⟨_, turn⟩ | ⟨soon, _, _⟩ | ⟨_, later, _⟩
  · rw [turn.items_eq] at items
    refine absurd accounted (counting.not_accounted below ?_)
    rw [items, seqs_append]
    rfl
  · rw [largest] at soon
    simpa [BitVec.lt_def, BitVec.toNat_eq] using soon
  · rw [BitVec.lt_def] at later
    omega

end Steps

section Runs

variable (env : Env)

/-- The line an input makes the uploader hold against its counter: the record, or
the line left over from the last call. -/
def Uploader.counted (uploader : Uploader) : Input → Option LineData
  | .call logBufferSize =>
      if 2 * uploader.params.lineBufferSize < logBufferSize ∧ uploader.params.lastLineValid then
        countedLine env uploader.params ⟨logBufferSize, false, false, none, none⟩ 0
      else none
  | .read (.record bytes) =>
      match uploader.phase with
      | .reading locals =>
          countedLine env
            { uploader.params with lineBuffer := uploader.params.lineBuffer.write 0 bytes } locals
            bytes.length
      | _ => none
  | .read _ => none

/-- No line but one numbered 0 is counted while the counter is the largest number. -/
def NoWrap (uploader : Uploader) (input : Input) : Prop :=
  ∀ line ∈ uploader.counted env input, Fits uploader.params.lastLogCounter line

variable {initial : Word64} {uploader next : Uploader}

theorem call_tally (uploader : Uploader) (logBufferSize : Nat) :
    Tally uploader (uploader.counted env (.call logBufferSize))
      (uploader.call env logBufferSize) := by
  by_cases kept : 2 * uploader.params.lineBufferSize < logBufferSize ∧
      uploader.params.lastLineValid
  · let params := { uploader.params with totalRead := 0, lastLineValid := false }
    let locals : Locals :=
      ⟨logBufferSize, false, uploader.params.lastLogCounter = 0, none, none⟩
    have counted : uploader.counted env (.call logBufferSize) = countedLine env params locals 0 :=
      if_pos kept
    have called : uploader.call env logBufferSize =
        uploader.proceed (handleLine env params locals 0) :=
      if_pos (by simpa [LogParseParams.full] using kept)
    rw [counted, called]
    exact handleLine_tally env locals 0 rfl rfl
  · have counted : uploader.counted env (.call logBufferSize) = none := if_neg kept
    have called : uploader.call env logBufferSize =
        uploader.proceed (.next { uploader.params with totalRead := 0 }
          ⟨logBufferSize, false, uploader.params.lastLogCounter = 0, none, none⟩ []) :=
      if_neg (by simpa [LogParseParams.full] using kept)
    have quiet : (Turn.next { uploader.params with totalRead := 0 }
        ⟨logBufferSize, false, uploader.params.lastLogCounter = 0, none, none⟩ []).Quiet
        uploader.params :=
      ⟨fun _ _ => rfl, fun _ _ => rfl, rfl, rfl⟩
    rw [counted, called]
    exact .quiet rfl rfl quiet

theorem step_tally {input : Input} (step : Uploader.Step env uploader input next) :
    Tally uploader (uploader.counted env input) next := by
  cases input with
  | call logBufferSize =>
      obtain ⟨_, rfl⟩ := Uploader.step_call step
      exact call_tally env uploader logBufferSize
  | read result =>
      obtain ⟨locals, reading, _, rfl⟩ := Uploader.step_read step
      cases result with
      | record bytes =>
          simp only [Uploader.counted, reading]
          exact handleLine_tally env locals bytes.length rfl rfl
      | _ => exact .quiet rfl rfl (readLine_quiet env _ locals (by simp))

theorem Counting.step {input : Input} (counting : Counting initial uploader)
    (fits : NoWrap env uploader input) (step : Uploader.Step env uploader input next) :
    Counting initial next := by
  have tally := step_tally env step
  generalize held : uploader.counted env input = counted at tally
  cases tally with
  | quiet counter selective quiet => exact counting.proceed_quiet counter selective quiet
  | line locals line counter selective =>
      exact counting.proceed_line locals counter selective (fits line held)

theorem Counting.noWrap {input : Input} (counting : Counting initial uploader)
    (step : Uploader.Step env uploader input next) (accounted : Accounted initial next) :
    NoWrap env uploader input := by
  have tally := step_tally env step
  intro line held
  rw [Option.mem_def.mp held] at tally
  cases tally with
  | line locals line counter selective =>
      exact counting.fits_of_accounted counter selective accounted

/-- The accounts are right in every state of a run just when no line meets the
largest counter. -/
theorem uploader_accounts {start finish : Uploader} {trace : List (Uploader × Input)}
    (run : Run (Uploader.Step env) start trace finish) (fresh : start.items = [])
    (selective : start.params.uploadAll = false) (positive : 0 < start.params.lastLogCounter) :
    Throughout (Accounted start.params.lastLogCounter) trace finish ↔
      StepsMeet (NoWrap env) trace := by
  have counting : Counting start.params.lastLogCounter start := by
    have above : 0 < start.params.lastLogCounter.toNat := by simpa [BitVec.lt_def] using positive
    constructor
    · constructor <;> simp [fresh, seqs, missedEntries]
    all_goals simp [fresh, seqs, selective, above]
  exact run.throughout_iff_met counting (fun counting => counting.toAccounted)
    (fun counting fits step => counting.step env fits step)
    (fun counting step accounted => counting.noWrap env step accounted)

/-- An uploader with a key for which every id is `BABBAB`, before its first call. -/
def plainEnv : Env := ⟨fun _ => ⟨0, 0, 0⟩, 0⟩

def Uploader.fresh (lastLogCounter : Word64) (lineBuffer : Memory Byte) : Uploader where
  params :=
    { uploadAll := false
      lastLogCounter := lastLogCounter
      logBuffer := fun _ => 0
      totalRead := 0
      lineBuffer := lineBuffer
      lineBufferSize := 32
      lastLineValid := false }
  phase := .idle
  items := []
  outputs := []

def gapInputs : List Input :=
  [.call 256, .read .pipe, .read (.record (bytesOf "7,100,1000,-;up\n")), .read (.again true true),
    .read (.record (bytesOf "7,100,1000,-;up\n")), .read (.again true true), .call 256]

def feed (env : Env) (uploader : Uploader) (input : Input) : Uploader :=
  (uploader.step env input).getD uploader

theorem run_feed {env : Env} (start : Uploader) (inputs : List Input)
    (all : (traceOf (feed env) start inputs).all fun entry => (entry.1.step env entry.2).isSome) :
    Run (Uploader.Step env) start (traceOf (feed env) start inputs)
      (inputs.foldl (feed env) start) := by
  apply Run.of_trace
  intro entry member
  obtain ⟨next, step⟩ := Option.isSome_iff_exists.mp (List.all_eq_true.mp all entry member)
  unfold Uploader.Step feed
  rw [step, Option.getD_some]

theorem uploader_accounts_gap :
    let trace := traceOf (feed plainEnv) (.fresh 98 fun _ => 0) gapInputs
    let finish := gapInputs.foldl (feed plainEnv) (.fresh 98 fun _ => 0)
    Run (Uploader.Step plainEnv) (.fresh 98 fun _ => 0) trace finish ∧
      Throughout (Accounted 98) trace finish ∧ seqs finish.items = [100] := by
  intro trace finish
  have run : Run (Uploader.Step plainEnv) (.fresh 98 fun _ => 0) trace finish :=
    run_feed (.fresh 98 fun _ => 0) gapInputs (by decide +kernel)
  have small : trace.all (fun entry => entry.1.params.lastLogCounter ≠ BitVec.allOnes 64) = true := by
    decide +kernel
  have accounted := (uploader_accounts plainEnv run rfl rfl (by decide)).mpr
    fun entry member line _ largest => by
      have other := List.all_eq_true.mp small entry member
      exact absurd largest (of_decide_eq_true other)
  exact ⟨run, accounted, by decide +kernel⟩

def wrapInputs : List Input := [.call 256, .read (.record (bytesOf "7,5,0,-;up\n"))]

/-- A line numbered 5 is copied after the counter has been at its largest value. -/
theorem uploader_recounts :
    ¬ ∀ (start finish : Uploader) (trace : List (Uploader × Input)),
      Run (Uploader.Step plainEnv) start trace finish → start.items = [] →
      start.params.uploadAll = false → 0 < start.params.lastLogCounter →
      Throughout (Accounted start.params.lastLogCounter) trace finish := by
  intro alwaysAccounted
  have items : (wrapInputs.foldlM (Uploader.step plainEnv)
      (.fresh (BitVec.allOnes 64) fun _ => 0)).map (fun uploader => seqs uploader.items) =
      some [5] := by decide +kernel
  obtain ⟨finish, fed, copied⟩ := Option.map_eq_some_iff.mp items
  obtain ⟨trace, -, run⟩ := Run.of_foldlM fed
  have accounted := (alwaysAccounted _ finish trace run rfl rfl (by decide)).2
  have increasing := accounted.increasing
  rw [copied] at increasing
  exact absurd increasing (by decide)

end Runs

end Gfiber.Logupload
