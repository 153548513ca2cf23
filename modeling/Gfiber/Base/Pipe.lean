import Gfiber.Lib.Run
import Gfiber.Base.FifoBuffer

/-! What a stream buffer is for: a queue of bytes and the room behind it. The
room holds bytes too, those that a writer has stored ahead of the queue. -/

set_option autoImplicit false

namespace Gfiber.Base

open Lib

structure Pipe where
  contents : List Byte
  spare : List Byte
  closed : Bool
deriving DecidableEq, Repr

namespace Pipe

variable (pipe : Pipe)

/-- Bytes that are consumed make room at the end. -/
def consume (size : Nat) : Pipe :=
  { pipe with
    contents := pipe.contents.drop size, spare := pipe.spare ++ pipe.contents.take size }

def append (data : List Byte) : Pipe :=
  { pipe with contents := pipe.contents ++ data, spare := pipe.spare.drop data.length }

/-- The result of a call that finds nothing, or no room. -/
def waits : StreamResult :=
  if pipe.closed then .eos else .block

/-- An event says that there is something to read again, or room again. -/
def signals (after : Pipe) : List StreamEvent :=
  (if pipe.contents = [] ∧ after.contents ≠ [] then [.read] else []) ++
    (if pipe.spare = [] ∧ after.spare ≠ [] then [.write] else [])

/-- Every call and what it may do. A larger block is the only room that no event
tells of, and filling a borrowed block never touches the queue. -/
inductive Step : Pipe → FifoExchange → Pipe → Prop where
  | resize {pipe : Pipe} {block spare : List Byte} (holds : pipe.contents.length ≤ block.length)
      (size : pipe.contents.length + spare.length = block.length) :
      Step pipe ⟨.setCapacity block, .resized true, []⟩ { pipe with spare }
  | refuse {pipe : Pipe} {block : List Byte} (small : block.length < pipe.contents.length) :
      Step pipe ⟨.setCapacity block, .resized false, []⟩ pipe
  | peek {pipe : Pipe} {bytes offset : Nat} (stored : offset < pipe.contents.length) :
      Step pipe ⟨.readOffset bytes offset,
        .got .success ((pipe.contents.drop offset).take bytes), []⟩ pipe
  | peekNone {pipe : Pipe} {bytes offset : Nat} (missing : pipe.contents.length ≤ offset) :
      Step pipe ⟨.readOffset bytes offset, .got pipe.waits [], []⟩ pipe
  | place {pipe : Pipe} {data : List Byte} {offset : Nat} (opened : pipe.closed = false)
      (room : offset < pipe.spare.length) :
      Step pipe ⟨.writeOffset data offset,
          .stored .success (data.take (pipe.spare.length - offset)).length, []⟩
        { pipe with
          spare := writeAt pipe.spare offset (data.take (pipe.spare.length - offset)) }
  | placeNone {pipe : Pipe} {data : List Byte} {offset : Nat}
      (full : pipe.closed = true ∨ pipe.spare.length ≤ offset) :
      Step pipe ⟨.writeOffset data offset, .stored pipe.waits 0, []⟩ pipe
  | take {pipe : Pipe} {bytes : Nat} (stored : pipe.contents ≠ []) :
      Step pipe ⟨.read bytes, .got .success (pipe.contents.take bytes),
        pipe.signals (pipe.consume bytes)⟩ (pipe.consume bytes)
  | takeNone {pipe : Pipe} {bytes : Nat} (missing : pipe.contents = []) :
      Step pipe ⟨.read bytes, .got pipe.waits [], []⟩ pipe
  | put {pipe : Pipe} {data : List Byte} (opened : pipe.closed = false) (room : pipe.spare ≠ []) :
      Step pipe ⟨.write data, .stored .success (data.take pipe.spare.length).length,
          pipe.signals (pipe.append (data.take pipe.spare.length))⟩
        (pipe.append (data.take pipe.spare.length))
  | putNone {pipe : Pipe} {data : List Byte} (full : pipe.closed = true ∨ pipe.spare = []) :
      Step pipe ⟨.write data, .stored pipe.waits 0, []⟩ pipe
  | close {pipe : Pipe} : Step pipe ⟨.close, .done, []⟩ { pipe with closed := true }
  | look {pipe : Pipe} {data : List Byte} (front : data <+: pipe.contents)
      (some : pipe.contents ≠ [] → data ≠ []) : Step pipe ⟨.getReadData, .shown data, []⟩ pipe
  | discard {pipe : Pipe} {size : Nat} (stored : size ≤ pipe.contents.length) :
      Step pipe ⟨.consumeReadData size, .done, pipe.signals (pipe.consume size)⟩
        (pipe.consume size)
  | lendNone {pipe : Pipe} (closed : pipe.closed = true) :
      Step pipe ⟨.getWriteBuffer [], .lent none, []⟩ pipe
  | lend {pipe : Pipe} {data spare : List Byte} {size : Nat} (opened : pipe.closed = false)
      (fits : data.length ≤ size) (free : data.length ≤ pipe.spare.length)
      (room : pipe.spare ≠ [] → 0 < size ∧ size ≤ pipe.spare.length)
      (turned : spare = pipe.spare ∨ pipe.contents = [] ∧ ∃ count, spare = pipe.spare.rotate count) :
      Step pipe ⟨.getWriteBuffer data, .lent (some size), []⟩
        { pipe with spare := writeAt spare 0 data }
  | commit {pipe : Pipe} {size : Nat} (room : size ≤ pipe.spare.length) :
      Step pipe ⟨.consumeWriteBuffer size, .done,
        pipe.signals (pipe.append (pipe.spare.take size))⟩ (pipe.append (pipe.spare.take size))
  | measure {pipe : Pipe} :
      Step pipe ⟨.getWriteRemaining, .remaining pipe.spare.length, []⟩ pipe

/-- The bytes that a call adds to the queue. -/
def added (pipe : Pipe) (exchange : FifoExchange) : List Byte :=
  match exchange.call, exchange.reply with
  | .write data, .stored _ count => data.take count
  | .consumeWriteBuffer size, _ => pipe.spare.take size
  | _, _ => []

/-- The bytes that a call takes out of the queue. -/
def taken (pipe : Pipe) (exchange : FifoExchange) : List Byte :=
  match exchange.call, exchange.reply with
  | .read _, .got _ data => data
  | .consumeReadData size, _ => pipe.contents.take size
  | _, _ => []

variable {pipe after : Pipe} {exchange : FifoExchange}

/-- What is in the queue and added at its end is taken from its front or stays. -/
theorem Step.conserves (step : Step pipe exchange after) :
    pipe.contents ++ pipe.added exchange = pipe.taken exchange ++ after.contents := by
  cases step with
  | take => simp [added, taken, consume]
  | discard => simp [added, taken, consume]
  | put =>
      rename_i data _ _
      have whole : data.take (data.take pipe.spare.length).length = data.take pipe.spare.length := by
        rw [List.length_take, ← List.take_eq_take_min]
      simp only [added, taken, append, whole, List.nil_append]
  | putNone => simp [added, taken]
  | commit => simp [added, taken, append]
  | _ => simp [added, taken]

theorem run_conserves {start finish : Pipe} {trace : List (Pipe × FifoExchange)}
    (run : Run Step start trace finish) :
    start.contents ++ trace.flatMap (fun entry => entry.1.added entry.2) =
      trace.flatMap (fun entry => entry.1.taken entry.2) ++ finish.contents := by
  induction run with
  | nil => simp
  | snoc _ step ih =>
      simp only [List.flatMap_append, List.flatMap_cons, List.flatMap_nil, List.append_nil]
      rw [← List.append_assoc, ih, List.append_assoc, step.conserves, List.append_assoc]

end Pipe

/-- Who waits for an event: a side whose last call was told to block, and that no
event has been posted for since. -/
structure Waiting where
  reader : Bool
  writer : Bool
deriving DecidableEq, Repr

def Waiting.after (waiting : Waiting) (exchange : FifoExchange) : Waiting where
  reader :=
    match exchange.call, exchange.reply with
    | .read _, .got result _ => result = .block
    | _, _ => waiting.reader && !exchange.events.contains .read
  writer :=
    match exchange.call, exchange.reply with
    | .write _, .stored result _ => result = .block
    | _, _ => waiting.writer && !exchange.events.contains .write

namespace Pipe

variable {pipe after : Pipe} {exchange : FifoExchange} {waiting : Waiting}

theorem contains_read : (pipe.signals after).contains .read =
    decide (pipe.contents = [] ∧ after.contents ≠ []) := by
  unfold signals
  by_cases stored : pipe.contents = [] ∧ after.contents ≠ []
  · simp [stored]
  · by_cases room : pipe.spare = [] ∧ after.spare ≠ [] <;> simp [stored, room]

theorem contains_write : (pipe.signals after).contains .write =
    decide (pipe.spare = [] ∧ after.spare ≠ []) := by
  unfold signals
  by_cases room : pipe.spare = [] ∧ after.spare ≠ []
  · by_cases stored : pipe.contents = [] ∧ after.contents ≠ [] <;> simp [stored, room]
  · by_cases stored : pipe.contents = [] ∧ after.contents ≠ [] <;> simp [stored, room]

/-- A reader that still waits after a call finds nothing. -/
theorem Step.reader_waits (step : Step pipe exchange after)
    (before : waiting.reader = true → pipe.contents = [])
    (waits : (waiting.after exchange).reader = true) : after.contents = [] := by
  have unsignalled (events : pipe.signals after = exchange.events)
      (waits : (waiting.reader && !exchange.events.contains .read) = true) :
      after.contents = [] := by
    obtain ⟨still, silent⟩ := Bool.and_eq_true_iff.mp waits
    rw [← events, contains_read] at silent
    rcases (by simpa using silent : ¬pipe.contents = [] ∨ after.contents = []) with some | none
    · exact absurd (before still) some
    · exact none
  cases step with
  | take => simp [Waiting.after] at waits
  | takeNone missing => exact missing
  | put => exact unsignalled rfl waits
  | discard => exact unsignalled rfl waits
  | commit => exact unsignalled rfl waits
  | _ => exact before (by simpa [Waiting.after] using waits)

def Resizes (exchange : FifoExchange) : Prop :=
  ∃ block, exchange.call = .setCapacity block

theorem Step.writer_waits (step : Step pipe exchange after) (same : ¬Resizes exchange)
    (before : waiting.writer = true → pipe.spare = [])
    (waits : (waiting.after exchange).writer = true) : after.spare = [] := by
  have unsignalled (events : pipe.signals after = exchange.events)
      (waits : (waiting.writer && !exchange.events.contains .write) = true) :
      after.spare = [] := by
    obtain ⟨still, silent⟩ := Bool.and_eq_true_iff.mp waits
    rw [← events, contains_write] at silent
    rcases (by simpa using silent : ¬pipe.spare = [] ∨ after.spare = []) with some | none
    · exact absurd (before still) some
    · exact none
  cases step with
  | resize => exact absurd ⟨_, rfl⟩ same
  | refuse => exact absurd ⟨_, rfl⟩ same
  | put => simp [Waiting.after] at waits
  | putNone full =>
      rcases full with closed | none
      · simp [Waiting.after, Pipe.waits, closed] at waits
      · exact none
  | take => exact unsignalled rfl waits
  | discard => exact unsignalled rfl waits
  | commit => exact unsignalled rfl waits
  | place opened room =>
      have none := before (by simpa [Waiting.after] using waits)
      rw [none] at room
      exact absurd room (Nat.not_lt_zero _)
  | lend opened fits free room turned =>
      have none := before (by simpa [Waiting.after] using waits)
      rw [none, List.length_nil, Nat.le_zero, List.length_eq_zero_iff] at free
      rcases turned with rfl | ⟨-, count, rfl⟩
      · rw [free, writeAt_nil, none]
      · rw [free, writeAt_nil, none, List.rotate_nil]
  | _ => exact before (by simpa [Waiting.after] using waits)

/-- Who waits after the calls of a run. -/
def waitingAfter (trace : List (Pipe × FifoExchange)) : Waiting :=
  (trace.map Prod.snd).foldl Waiting.after ⟨false, false⟩

theorem waitingAfter_snoc (trace : List (Pipe × FifoExchange)) (pipe : Pipe)
    (exchange : FifoExchange) :
    waitingAfter (trace ++ [(pipe, exchange)]) = (waitingAfter trace).after exchange := by
  simp [waitingAfter]

/-- No wakeup is lost: who still waits has nothing to read, or no room to write. -/
theorem run_waits {start finish : Pipe} {trace : List (Pipe × FifoExchange)}
    (run : Run Step start trace finish) :
    ((waitingAfter trace).reader = true → finish.contents = []) ∧
      ((∀ entry ∈ trace, ¬Resizes entry.2) → (waitingAfter trace).writer = true →
        finish.spare = []) := by
  induction run with
  | nil => simp [waitingAfter]
  | snoc _ step ih =>
      rw [waitingAfter_snoc]
      refine ⟨step.reader_waits ih.1, fun same => ?_⟩
      have last := same _ (List.mem_append_right _ (List.mem_singleton_self _))
      exact step.writer_waits last
        (ih.2 fun entry member => same entry (List.mem_append_left _ member))

end Pipe

end Gfiber.Base
