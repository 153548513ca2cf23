import Gfiber.GpioMailbox.MailboxProperties

/-! The lights that are shown for a file do not depend on the files before it, when the file has an
entry. -/

set_option autoImplicit false

namespace Gfiber.GpioMailbox

open Lib

section Runs

variable {config : Config} {mailbox finish : Mailbox} {pass : Pass}

theorem controlFan_kept (config : Config) (pass : Pass) (mailbox : Mailbox) :
    (mailbox.controlFan config pass).pattern = mailbox.pattern ∧
      (mailbox.controlFan config pass).innerLoopTicks = mailbox.innerLoopTicks ∧
      (mailbox.controlFan config pass).msecPerLed = mailbox.msecPerLed ∧
      (mailbox.controlFan config pass).lastLed = mailbox.lastLed ∧
      (mailbox.controlFan config pass).offset = mailbox.offset ∧
      (mailbox.controlFan config pass).clock = mailbox.clock := by
  rw [Mailbox.controlFan]
  split
  case isTrue => exact ⟨rfl, rfl, rfl, rfl, rfl, rfl⟩
  case isFalse => exact ⟨rfl, rfl, rfl, rfl, rfl, rfl⟩

/-- After the lights are set, only the buffer and what the fan needs change. -/
theorem turn_kept (config : Config) (pass : Pass) (mailbox : Mailbox) :
    (mailbox.turn config pass).pattern = (mailbox.blink config pass).pattern ∧
      (mailbox.turn config pass).innerLoopTicks = (mailbox.blink config pass).innerLoopTicks ∧
      (mailbox.turn config pass).msecPerLed = (mailbox.blink config pass).msecPerLed ∧
      (mailbox.turn config pass).lastLed = (mailbox.blink config pass).lastLed ∧
      (mailbox.turn config pass).offset = (mailbox.blink config pass).offset ∧
      (mailbox.turn config pass).clock = (mailbox.blink config pass).clock := by
  have kept := controlFan_kept config pass (mailbox.blink config pass)
  rw [Mailbox.turn]
  split
  case isTrue => exact kept
  case isFalse => exact kept

theorem Ready.turn (ready : Ready mailbox) (later : mailbox.clock ≤ pass.now)
    (afterwards : pass.now ≤ pass.mono) : Ready (mailbox.turn config pass) := by
  obtain ⟨timed, natural, ticks, period⟩ := ready.blink config later afterwards
  obtain ⟨pattern, turnTicks, turnPeriod, _, offset, clock⟩ := turn_kept config pass mailbox
  exact
    { lit := pattern ▸ timed.lit
      time := pattern ▸ timed.time
      early := offset ▸ timed.early
      late := by rw [offset, pattern]; exact timed.late
      natural := clock ▸ natural
      ticking := .inr ⟨turnTicks ▸ ticks, turnPeriod ▸ period⟩ }

theorem Ready.step (ready : Ready mailbox) (step : Step config mailbox pass finish) :
    Ready finish ∧ Steady config mailbox pass := by
  cases step with
  | turn later afterwards => exact ⟨ready.turn later afterwards, ready.steady later afterwards⟩

/-- Every pass of every run is steady. -/
theorem Ready.run {trace : List (Mailbox × Pass)} (ready : Ready mailbox)
    (run : Run (Step config) mailbox trace finish) :
    Ready finish ∧ StepsMeet (Steady config) trace := by
  obtain ⟨whole, met⟩ := run.throughout_observed ready fun held step => held.step step
  exact ⟨whole.2, met⟩

end Runs

section Texts

/-- The string that is read from a file. -/
def textOf (bytes : List Byte) : List Byte :=
  (bytes.take (bufSize - 1)).takeWhile (· ≠ 0)

theorem takeWhile_append_zero (bytes rest : List Byte) :
    (bytes ++ 0 :: rest).takeWhile (· ≠ 0) = bytes.takeWhile (· ≠ 0) := by
  induction bytes with
  | nil => rfl
  | cons byte bytes ih =>
      rw [List.cons_append, List.takeWhile_cons, List.takeWhile_cons, ih]

theorem readFile_content_text (buf : Buf) (bytes : List Byte) :
    (buf.readFile (.content bytes)).text = textOf bytes :=
  takeWhile_append_zero _ _

theorem readFile_missing_text (buf : Buf) : (buf.readFile .missing).text = [] := by
  change (buf.bytes.set 0 0).takeWhile (· ≠ 0) = []
  cases buf.bytes with
  | nil => rfl
  | cons first rest => rfl

/-- A string of one token stays as it is. -/
theorem separate_text {buf : Buf} (token : ∀ byte ∈ buf.text, isDelimiter byte = false) :
    buf.separate.text = buf.text := by
  have same : buf.text.map (fun byte => if isDelimiter byte then 0 else byte) = buf.text := by
    refine (List.map_congr_left fun byte member => ?_).trans (List.map_id _)
    rw [token byte member]
    rfl
  have split : buf.text ++ buf.bytes.drop buf.text.length = buf.bytes := by
    have front : buf.text = buf.bytes.take buf.text.length :=
      List.prefix_iff_eq_take.mp (List.takeWhile_prefix _)
    nth_rewrite 1 [front]
    exact List.take_append_drop _ _
  change (buf.text.map (fun byte => if isDelimiter byte then 0 else byte) ++
    buf.bytes.drop buf.text.length).takeWhile (· ≠ 0) = buf.text
  rw [same, split]
  rfl

end Texts

section History

variable {config : Config} {left right leftFinish rightFinish : Mailbox} {pass : Pass}

/-- A state of a run of the mailbox. -/
def Reachable (config : Config) (mailbox : Mailbox) : Prop :=
  ∃ mono real trace, 0 ≤ mono ∧ Run (Step config) (Mailbox.start config mono real) trace mailbox

/-- The lights and the brightness that a pass shows. -/
def display (config : Config) (entry : Mailbox × Pass) : Option (Byte × BitVec 32) :=
  (entry.1.blink config entry.2).shown entry.2

/-- The passes from one that reads a file to the last before the next that does. -/
def Current (result : FileResult) : List (Mailbox × Pass) → Prop
  | [] => False
  | (mailbox, pass) :: rest =>
      pass.leds = result ∧ mailbox.Due pass ∧ StepsMeet (fun mailbox pass => ¬mailbox.Due pass) rest

/-- What is shown of a file is the same after all histories, at the same times. -/
def HistoryFree (config : Config) (result : FileResult) : Prop :=
  ∀ {left right leftFinish rightFinish trace other}, Reachable config left →
    Reachable config right → Run (Step config) left trace leftFinish →
    Run (Step config) right other rightFinish → trace.map Prod.snd = other.map Prod.snd →
    Current result trace → Current result other →
    trace.map (display config) = other.map (display config)

/-- What `read_file` writes is in its buffer. -/
def Buf.Inside (buf : Buf) : Prop :=
  0 ≤ buf.terminated ∧ buf.terminated < bufSize

/-- A file that can be read, and has an entry in its first 1023 bytes. -/
def Lit (longWidth : Nat) (result : FileResult) : Prop :=
  ∃ bytes, result = .content bytes ∧
    ∃ token ∈ (textOf bytes).splitOnP isDelimiter, IsEntry longWidth token

/-- Mailboxes that show the same lights. -/
structure Same (left right : Mailbox) : Prop where
  alike : Alike left.pattern right.pattern
  period : left.msecPerLed = right.msecPerLed
  offset : left.offset = right.offset

theorem Reachable.ready {mailbox : Mailbox} (reachable : Reachable config mailbox) :
    Ready mailbox := by
  obtain ⟨mono, real, trace, natural, run⟩ := reachable
  exact ((ready_start natural real).run run).1

theorem Same.turn (same : Same (left.blink config pass) (right.blink config pass)) :
    Same (left.turn config pass) (right.turn config pass) := by
  obtain ⟨pattern, _, period, _, offset, _⟩ := turn_kept config pass left
  obtain ⟨otherPattern, _, otherPeriod, _, otherOffset, _⟩ := turn_kept config pass right
  exact ⟨pattern ▸ otherPattern ▸ same.alike, (period.trans same.period).trans otherPeriod.symm,
    (offset.trans same.offset).trans otherOffset.symm⟩

theorem Same.index (same : Same left right) (now : Int) : left.index now = right.index now := by
  simp only [Mailbox.index, same.alike.length, same.alike.time, same.offset]

theorem Same.shown (same : Same left right) (timed : Timed left) (natural : 0 ≤ pass.now) :
    left.shown pass = right.shown pass := by
  obtain ⟨least, inside⟩ := timed.index_bounds natural
  have below : (left.index pass.now).toNat < left.pattern.ledSequenceLen := by omega
  have few := left.pattern.bounded
  rw [Mailbox.shown, Mailbox.shown, ← same.index pass.now]
  dsimp only
  rw [dif_pos (below.trans_le few), dif_pos (below.trans_le few), same.alike.leds _ below,
    same.alike.brightness _ below]

theorem Same.quiet (config : Config) (same : Same left right) (idle : ¬left.Due pass) (otherIdle : ¬right.Due pass) :
    Same (left.blink config pass) (right.blink config pass) := by
  rw [Mailbox.blink, Mailbox.blink, if_neg idle, if_neg otherIdle]
  exact ⟨same.alike, same.period, same.offset⟩

theorem same_readLeds (lit : Lit config.longWidth pass.leds) (left right : Mailbox) :
    Same (left.readLeds config pass) (right.readLeds config pass) := by
  obtain ⟨bytes, content, token, member, entry⟩ := lit
  have alike : Alike (left.readLeds config pass).pattern (right.readLeds config pass).pattern := by
    have text := readFile_content_text left.buf bytes
    have otherText := readFile_content_text right.buf bytes
    rw [Mailbox.readLeds, Mailbox.readLeds, content]
    dsimp only
    rw [Buf.tokens, Buf.tokens, text, otherText]
    exact alike_readLedSequence member entry _ _
  refine ⟨alike, ?_, ?_⟩
  · have length := alike.length
    have time := alike.time
    simp only [Mailbox.readLeds] at length time ⊢
    rw [length, time]
  · have time := alike.time
    simp only [Mailbox.readLeds] at time ⊢
    rw [time]

/-- Passes that do not read the file show the same from mailboxes that are the same. -/
theorem Same.displays (same : Same left right) (ready : Ready left) (other_ready : Ready right)
    {trace other : List (Mailbox × Pass)} (run : Run (Step config) left trace leftFinish)
    (otherRun : Run (Step config) right other rightFinish)
    (passes : trace.map Prod.snd = other.map Prod.snd)
    (quiet : StepsMeet (fun mailbox pass => ¬mailbox.Due pass) trace)
    (otherQuiet : StepsMeet (fun mailbox pass => ¬mailbox.Due pass) other) :
    trace.map (display config) = other.map (display config) := by
  induction trace generalizing left right other with
  | nil =>
      cases other with
      | nil => rfl
      | cons entry other => cases passes
  | cons entry trace ih =>
      cases other with
      | nil => cases passes
      | cons otherEntry other =>
          obtain ⟨mailbox, pass⟩ := entry
          obtain ⟨otherMailbox, otherPass⟩ := otherEntry
          obtain ⟨here, next, step, rest⟩ := run.uncons
          obtain ⟨there, otherNext, otherStep, otherRest⟩ := otherRun.uncons
          rw [List.map_cons, List.map_cons, List.cons.injEq] at passes
          obtain ⟨samePass, passes⟩ := passes
          dsimp only at here there samePass step otherStep
          subst here there samePass
          obtain ⟨idle, quiet⟩ := List.forall_mem_cons.mp quiet
          obtain ⟨otherIdle, otherQuiet⟩ := List.forall_mem_cons.mp otherQuiet
          cases step with
          | turn later afterwards =>
              cases otherStep with
              | turn otherLater _ =>
                  have blinked := same.quiet config idle otherIdle
                  have natural := ready.natural
                  have timed := (ready.blink config later afterwards).1
                  have shown := blinked.shown timed (show 0 ≤ pass.now by omega)
                  have later_shown := ih blinked.turn (ready.turn later afterwards)
                    (other_ready.turn otherLater afterwards) rest otherRest passes quiet otherQuiet
                  rw [List.map_cons, List.map_cons, later_shown]
                  exact congrArg (· :: _) shown

theorem historyFree_of_lit {result : FileResult} (lit : Lit config.longWidth result) :
    HistoryFree config result := by
  intro left right leftFinish rightFinish trace other reachable otherReachable run otherRun passes
    current otherCurrent
  cases trace with
  | nil => exact current.elim
  | cons entry trace =>
      cases other with
      | nil => exact otherCurrent.elim
      | cons otherEntry other =>
          obtain ⟨mailbox, pass⟩ := entry
          obtain ⟨otherMailbox, otherPass⟩ := otherEntry
          obtain ⟨here, next, step, rest⟩ := run.uncons
          obtain ⟨there, otherNext, otherStep, otherRest⟩ := otherRun.uncons
          rw [List.map_cons, List.map_cons, List.cons.injEq] at passes
          obtain ⟨samePass, passes⟩ := passes
          dsimp only at here there samePass step otherStep
          subst here there samePass
          obtain ⟨read, due, quiet⟩ := current
          obtain ⟨_, otherDue, otherQuiet⟩ := otherCurrent
          subst read
          have blinked : Same (mailbox.blink config pass) (otherMailbox.blink config pass) := by
            rw [Mailbox.blink, Mailbox.blink, if_pos due, if_pos otherDue]
            exact same_readLeds lit mailbox otherMailbox
          have ready := reachable.ready
          cases step with
          | turn later afterwards =>
              cases otherStep with
              | turn otherLater _ =>
                  have natural := ready.natural
                  have timed := (ready.blink config later afterwards).1
                  have shown := blinked.shown timed (show 0 ≤ pass.now by omega)
                  have later_shown := blinked.turn.displays (ready.turn later afterwards)
                    (otherReachable.ready.turn otherLater afterwards) rest otherRest passes quiet
                    otherQuiet
                  rw [List.map_cons, List.map_cons, later_shown]
                  exact congrArg (· :: _) shown

end History

section Leftovers

variable {longWidth : Nat} {text : List Byte} {brightness : BitVec 32}

/-- A string that is one entry, for one light. -/
structure Single (longWidth : Nat) (text : List Byte) (brightness : BitVec 32) : Prop where
  short : text.length ≤ bufSize - 1
  token : ∀ byte ∈ text, byte ≠ 0 ∧ isDelimiter byte = false
  entry : IsEntry longWidth text
  once : (entryOf longWidth text).repetition = 1
  bright : (entryOf longWidth text).brightness = brightness

theorem Single.textOf (single : Single longWidth text brightness) :
    GpioMailbox.textOf text = text := by
  rw [GpioMailbox.textOf, List.take_of_length_le single.short, List.takeWhile_eq_self_iff]
  intro byte member
  exact decide_eq_true (single.token byte member).1

theorem Single.tokens (single : Single longWidth text brightness) {buf : Buf}
    (held : buf.text = text) : buf.tokens = [text] := by
  rw [Buf.tokens, held]
  exact List.splitOnP_eq_singleton fun byte member => (single.token byte member).2

def firstLed : Fin maxLeds := ⟨0, by decide⟩

/-- One light is read, with its brightness. -/
theorem Single.read (single : Single longWidth text brightness) (pattern : Pattern) :
    (pattern.readLedSequence longWidth [text]).ledSequenceLen = 1 ∧
      (pattern.readLedSequence longWidth [text]).ledSequenceForBrightness firstLed = brightness ∧
      (pattern.readLedSequence longWidth [text]).ledTotalTime = 1000 := by
  obtain ⟨some_byte, light, _⟩ := single.entry
  have once := single.once
  have bright := single.bright
  cases text with
  | nil => exact absurd rfl some_byte
  | cons first rest =>
      have other : first ≠ ascii 'x' := fun same => light (congrArg some same)
      have room : pattern.reset.ledSequenceLen < maxLeds := Nat.zero_lt_succ 15
      have added : pattern.reset.addToken longWidth (first :: rest) =
          pattern.reset.push (entryOf longWidth (first :: rest)).leds brightness room := by
        rw [Pattern.addToken, if_neg other]
        dsimp only
        rw [once, bright]
        change Pattern.repeated _ _ 1 _ = _
        rw [Pattern.repeated, dif_pos room]
        rfl
      rw [Pattern.readLedSequence, List.foldl_cons, List.foldl_nil, added]
      exact ⟨rfl, rfl, rfl⟩

/-- A pass that reads a file with one entry, at the start. -/
def firstPass (text : List Byte) : Pass :=
  ⟨0, .content text, 0, 0, false, .missing⟩

/-- A pass that reads the file again, before the fan is looked after. -/
def secondPass (result : FileResult) : Pass :=
  ⟨1500, result, 1500, 0, false, .missing⟩

def lightened (config : Config) (text : List Byte) : Mailbox :=
  (Mailbox.start config 0 0).turn config (firstPass text)

theorem lightened_reachable (config : Config) (text : List Byte) :
    Reachable config (lightened config text) :=
  ⟨0, 0, _, Int.le_refl 0, Run.nil.snoc (.turn (Int.le_refl 0) (Int.le_refl 0))⟩

theorem start_due (config : Config) (text : List Byte) :
    (Mailbox.start config 0 0).Due (firstPass text) :=
  Int.le_refl 0

theorem lightened_buf (config : Config) (text : List Byte) :
    (lightened config text).buf =
      ((Mailbox.start config 0 0).readLeds config (firstPass text)).buf := by
  rw [lightened, Mailbox.turn, Mailbox.blink, if_pos (start_due config text)]
  split
  case isTrue => rfl
  case isFalse => rfl

theorem Single.lightened {config : Config} (single : Single config.longWidth text brightness) :
    (lightened config text).buf.text = text ∧
      (lightened config text).pattern.ledSequenceForBrightness firstLed = brightness ∧
      (lightened config text).Due (secondPass .failed) := by
  obtain ⟨pattern, _, period, led, _, _⟩ :=
    turn_kept config (firstPass text) (Mailbox.start config 0 0)
  rw [Mailbox.blink, if_pos (start_due config text)] at pattern period led
  have held : ((Mailbox.start config 0 0).buf.readFile (.content text)).text = text :=
    (readFile_content_text _ text).trans single.textOf
  have read := single.read (Mailbox.start config 0 0).pattern
  rw [← single.tokens held] at read
  obtain ⟨length, bright, time⟩ := read
  refine ⟨?_, ?_, ?_⟩
  · rw [lightened_buf]
    refine (separate_text fun byte member => ?_).trans held
    exact (single.token byte (held ▸ member)).2
  · rw [GpioMailbox.lightened, pattern]
    exact bright
  · rw [Mailbox.Due, GpioMailbox.lightened, period, led]
    have msec : ((Mailbox.start config 0 0).readLeds config (firstPass text)).msecPerLed = 1001 := by
      have fields := congrArg₂ (fun time length => time / length + 1) time length
      exact fields
    rw [msec]
    change (1001 : Int) ≤ 1500 - 0
    decide

/-- A file without an entry shows the brightness of the file before it. -/
theorem Single.leftover {config : Config} (single : Single config.longWidth text brightness)
    {result : FileResult} (unlit : ¬Lit config.longWidth result) :
    ((GpioMailbox.lightened config text).readLeds config
        (secondPass result)).pattern.ledSequenceLen = 1 ∧
      ((GpioMailbox.lightened config text).readLeds config
        (secondPass result)).pattern.ledSequenceForBrightness firstLed = brightness := by
  obtain ⟨held, bright, _⟩ := single.lightened
  have error : (∀ token ∈ ((GpioMailbox.lightened config text).buf.readFile result).tokens,
      ¬IsEntry config.longWidth token) → _ := fun others =>
    readLedSequence_error others (GpioMailbox.lightened config text).pattern
  cases result with
  | missing =>
      have others : ∀ token ∈ ((GpioMailbox.lightened config text).buf.readFile .missing).tokens,
          ¬IsEntry config.longWidth token := by
        rw [Buf.tokens, readFile_missing_text]
        intro token member entry
        exact entry.1 (List.mem_singleton.mp member)
      obtain ⟨length, same⟩ := error others
      exact ⟨length, (congrFun same firstLed).trans bright⟩
  | failed =>
      have kept : ((GpioMailbox.lightened config text).buf.readFile .failed).text = text := held
      have read := single.read (GpioMailbox.lightened config text).pattern
      rw [← single.tokens kept] at read
      exact ⟨read.1, read.2.1⟩
  | content bytes =>
      have others :
          ∀ token ∈ ((GpioMailbox.lightened config text).buf.readFile (.content bytes)).tokens,
            ¬IsEntry config.longWidth token := by
        rw [Buf.tokens, readFile_content_text]
        exact fun token member entry => unlit ⟨bytes, rfl, token, member, entry⟩
      obtain ⟨length, same⟩ := error others
      exact ⟨length, (congrFun same firstLed).trans bright⟩

theorem Single.shown {config : Config} (single : Single config.longWidth text brightness)
    {result : FileResult} (unlit : ¬Lit config.longWidth result) :
    ∃ leds, display config (GpioMailbox.lightened config text, secondPass result) =
      some (leds, brightness) := by
  obtain ⟨length, bright⟩ := single.leftover unlit
  have due : (GpioMailbox.lightened config text).Due (secondPass result) := single.lightened.2.2
  have ready := (lightened_reachable config text).ready
  have clock : (GpioMailbox.lightened config text).clock = 0 := by
    rw [GpioMailbox.lightened, (turn_kept _ _ _).2.2.2.2.2]
    rfl
  have steady : Steady config (GpioMailbox.lightened config text) (secondPass result) :=
    ready.steady (clock.trans_le (show (0 : Int) ≤ 1500 by decide)) (Int.le_refl _)
  have least := steady.natural
  have inside := steady.inside
  rw [Mailbox.blink, if_pos due] at least inside
  rw [length] at inside
  have first : ((GpioMailbox.lightened config text).readLeds config (secondPass result)).index
      (secondPass result).now = 0 := by omega
  rw [display, Mailbox.blink, if_pos due]
  dsimp only
  rw [Mailbox.shown, first]
  exact ⟨_, congrArg (fun value => some (_, value)) bright⟩

end Leftovers

section Lights

/-- `1@50` and `1@60`. -/
def fiftyText : List Byte :=
  "1@50".toList.map ascii

def sixtyText : List Byte :=
  "1@60".toList.map ascii

theorem longWidth_cases (config : Config) : config.longWidth = 32 ∨ config.longWidth = 64 := by
  rw [Config.longWidth]
  split
  case isTrue => exact .inr rfl
  case isFalse => exact .inl rfl

theorem fifty_single (config : Config) : Single config.longWidth fiftyText 50 := by
  cases longWidth_cases config with
  | inl narrow =>
      rw [narrow]
      exact ⟨by decide, by decide, by decide, by decide, by decide⟩
  | inr wide =>
      rw [wide]
      exact ⟨by decide, by decide, by decide, by decide, by decide⟩

theorem sixty_single (config : Config) : Single config.longWidth sixtyText 60 := by
  cases longWidth_cases config with
  | inl narrow =>
      rw [narrow]
      exact ⟨by decide, by decide, by decide, by decide, by decide⟩
  | inr wide =>
      rw [wide]
      exact ⟨by decide, by decide, by decide, by decide, by decide⟩

/-- What a file shows in one pass does not depend on the state before. -/
theorem HistoryFree.display {config : Config} {result : FileResult}
    (free : HistoryFree config result) {left right : Mailbox} {pass : Pass}
    (reachable : Reachable config left) (otherReachable : Reachable config right)
    (read : pass.leds = result) (due : left.Due pass) (otherDue : right.Due pass)
    (later : left.clock ≤ pass.now) (otherLater : right.clock ≤ pass.now)
    (afterwards : pass.now ≤ pass.mono) :
    GpioMailbox.display config (left, pass) = GpioMailbox.display config (right, pass) := by
  have shown := free reachable otherReachable (Run.nil.snoc (.turn later afterwards))
    (Run.nil.snoc (.turn otherLater afterwards)) rfl ⟨read, due, by simp [StepsMeet]⟩
    ⟨read, otherDue, by simp [StepsMeet]⟩
  exact List.singleton_inj.mp shown

theorem lit_of_historyFree {config : Config} {result : FileResult}
    (free : HistoryFree config result) : Lit config.longWidth result := by
  by_contra unlit
  have single := fifty_single config
  have other := sixty_single config
  have timely (text : List Byte) : (lightened config text).clock ≤ (secondPass result).now := by
    rw [lightened, (turn_kept _ _ _).2.2.2.2.2]
    exact show (0 : Int) ≤ 1500 by decide
  have same := free.display (lightened_reachable config fiftyText)
    (lightened_reachable config sixtyText) (show (secondPass result).leds = result from rfl)
    single.lightened.2.2 other.lightened.2.2 (timely fiftyText) (timely sixtyText) (Int.le_refl _)
  obtain ⟨leds, shown⟩ := single.shown unlit
  obtain ⟨otherLeds, otherShown⟩ := other.shown unlit
  rw [shown, otherShown, Option.some.injEq, Prod.mk.injEq] at same
  exact absurd same.2 (by decide)

theorem inside_iff (result : FileResult) :
    (∀ buf : Buf, (buf.readFile result).Inside) ↔ result ≠ .failed := by
  constructor
  · intro inside failed
    have least := (inside Buf.init).1
    rw [failed] at least
    exact absurd least (by decide)
  · intro readable buf
    cases result with
    | missing => exact ⟨Int.le_refl 0, show (0 : Int) < bufSize by decide⟩
    | failed => exact absurd rfl readable
    | content bytes =>
        have few : (bytes.take (bufSize - 1)).length ≤ bufSize - 1 := List.length_take_le _ _
        rw [bufSize] at few
        refine ⟨Int.natCast_nonneg _, ?_⟩
        change ((bytes.take (bufSize - 1)).length : Int) < bufSize
        rw [bufSize]
        omega

/-- Each pass of each run is steady. What is written stays in the buffer unless `read` fails, and
what is shown of a file does not depend on the files before it just if the file has an entry. -/
theorem leds_iff (config : Config) :
    (∀ mono real trace finish, 0 ≤ mono →
      Run (Step config) (Mailbox.start config mono real) trace finish →
      StepsMeet (Steady config) trace) ∧
    (∀ result, (∀ buf : Buf, (buf.readFile result).Inside) ↔ result ≠ .failed) ∧
    ∀ result, (∀ buf : Buf, (buf.readFile result).Inside) ∧ HistoryFree config result ↔
      Lit config.longWidth result := by
  refine ⟨fun mono real trace finish natural run => ((ready_start natural real).run run).2,
    inside_iff, fun result => ⟨fun met => lit_of_historyFree met.2, fun lit => ?_⟩⟩
  refine ⟨(inside_iff result).mpr fun failed => ?_, historyFree_of_lit lit⟩
  obtain ⟨bytes, content, _⟩ := lit
  cases content.symm.trans failed

/-- Without a file the brightness of the last one is shown, and where `read` fails the byte before
the buffer is written. -/
theorem unread_files :
    (Buf.init.readFile .failed).terminated = -1 ∧
      (display ⟨false, true, .missing⟩ (lightened ⟨false, true, .missing⟩ fiftyText,
        secondPass .missing)).map Prod.snd = some 50 ∧
      (display ⟨false, true, .missing⟩ (lightened ⟨false, true, .missing⟩ sixtyText,
        secondPass .missing)).map Prod.snd = some 60 ∧
      ¬HistoryFree ⟨false, true, .missing⟩ .missing := by
  let config : Config := ⟨false, true, .missing⟩
  have unlit : ¬Lit config.longWidth .missing := by
    intro lit
    obtain ⟨_, content, _⟩ := lit
    cases content
  obtain ⟨_, fifty⟩ := (fifty_single config).shown unlit
  obtain ⟨_, sixty⟩ := (sixty_single config).shown unlit
  exact ⟨rfl, congrArg (Option.map Prod.snd) fifty, congrArg (Option.map Prod.snd) sixty,
    fun free => unlit (lit_of_historyFree free)⟩

end Lights

end Gfiber.GpioMailbox
