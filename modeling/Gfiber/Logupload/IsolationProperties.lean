import Gfiber.Logupload.AnonymizeProperties
import Gfiber.Logupload.SequenceProperties

/-! What is uploaded for a record that is lexically complete depends on the
record alone. Other records are read on into the bytes left over behind them,
since nothing terminates them. -/

set_option autoImplicit false

namespace Gfiber.Logupload

open Lib

section Lexical

/-- The separators the parser looks for, in their order. -/
def lineSeparators : List Byte := [ascii ',', ascii ',', ascii ';', ascii '\n']

def Complete (line : List Byte) : Prop :=
  lineSeparators.Sublist line

instance (line : List Byte) : Decidable (Complete line) :=
  inferInstanceAs (Decidable (lineSeparators.Sublist line))

/-- The bytes that end a search of the parser. -/
def stops (byte : Byte) : Bool :=
  byte = 0 || byte = ascii ',' || byte = ascii ';' || byte = ascii '\n'

theorem not_stops {inside : Byte → Bool}
    (other : ∀ byte ∈ [0, ascii ',', ascii ';', ascii '\n'], inside byte = false) {byte : Byte}
    (member : inside byte) : stops byte = false := by
  cases stop : stops byte with
  | false => rfl
  | true =>
      have found : byte ∈ [0, ascii ',', ascii ';', ascii '\n'] := by
        simpa [stops, or_assoc] using stop
      rw [other byte found] at member
      cases member

theorem stops_of_xdigit {byte : Byte} (digit : isxdigit byte) : stops byte = false :=
  not_stops (by decide) digit

theorem stops_of_upper {byte : Byte} (upper : isupper byte) : stops byte = false :=
  not_stops (by decide) upper

theorem stops_of_mem_separators {sep : Byte} (member : sep ∈ separators) : stops sep = false := by
  have none_stops : separators.all fun sep => !stops sep := by decide
  simpa using List.all_eq_true.mp none_stops sep member

theorem MacAddress.filter_stops {address : List Byte} (mac : MacAddress address) :
    address.filter stops = [] := by
  rw [List.filter_eq_nil_iff]
  intro byte member
  obtain ⟨place, inside, found⟩ := List.getElem_of_mem member
  obtain ⟨sep, allowed, places⟩ := mac.pairs
  obtain ⟨other, same, fit⟩ := places place (mac.length_eq ▸ inside)
  rw [Nat.zero_add, List.getElem?_eq_getElem inside, found] at same
  cases same
  by_cases third : place % 3 = 2
  · rw [fits_separator fit third, stops_of_mem_separators allowed]
    decide
  · rw [stops_of_xdigit ((fits_digit third).mp fit)]
    decide

/-- A pass moves no byte that the parser stops at. -/
theorem Pass.filter_stops {anonid : List Byte → List Byte}
    (lettered : ∀ address, IsAnonid (anonid address)) {count : Nat} {line out : List Byte}
    (pass : Pass anonid count line out) : out.filter stops = line.filter stops := by
  induction pass with
  | short => rfl
  | keep _ _ ih => rw [List.filter_cons, List.filter_cons, ih]
  | @replace count address line out mac rest ih =>
      have letters : (anonid address).filter stops = [] := by
        rw [List.filter_eq_nil_iff]
        intro letter member
        rw [stops_of_upper ((lettered address).letters letter member)]
        decide
      rw [ih, List.filter_append, List.filter_append, letters, mac.filter_stops]

theorem Complete.of_filter {line out : List Byte} (same : out.filter stops = line.filter stops)
    (complete : Complete line) : Complete out := by
  have kept : lineSeparators.filter stops = lineSeparators := by decide
  have stopping := complete.filter stops
  rw [kept, ← same] at stopping
  exact stopping.trans List.filter_sublist

theorem zero_not_mem_of_filter {line out : List Byte}
    (same : out.filter stops = line.filter stops) (unterminated : 0 ∉ line) : 0 ∉ out := by
  intro member
  have stopping : (0 : Byte) ∈ out.filter stops := List.mem_filter.mpr ⟨member, by decide⟩
  rw [same] at stopping
  exact unterminated (List.mem_filter.mp stopping).1

theorem Pass.of_short {anonid : List Byte → List Byte} {count : Nat} {line out : List Byte}
    (pass : Pass anonid count line out) (short : line.length < macAddrLen) :
    count = 0 ∧ out = line := by
  induction pass with
  | short => exact ⟨rfl, rfl⟩
  | keep _ _ ih =>
      obtain ⟨none, same⟩ := ih (Nat.lt_of_succ_lt short)
      exact ⟨none, by rw [same]⟩
  | replace mac =>
      rw [List.length_append, mac.length_eq] at short
      omega

/-- A pass has one result. -/
theorem Pass.unique {anonid : List Byte → List Byte} {count other : Nat}
    {line out result : List Byte} (pass : Pass anonid count line out)
    (again : Pass anonid other line result) : other = count ∧ result = out := by
  induction pass generalizing other result with
  | short short => exact again.of_short short
  | @keep count byte line out notMac rest ih =>
      generalize whole : byte :: line = joined at again
      cases again with
      | short short =>
          subst whole
          obtain ⟨none, same⟩ := rest.of_short (Nat.lt_of_succ_lt short)
          exact ⟨none.symm, by rw [same]⟩
      | keep _ again =>
          cases whole
          obtain ⟨same, equal⟩ := ih again
          exact ⟨same, by rw [equal]⟩
      | replace mac =>
          rw [whole] at notMac
          exact absurd (mac.pairs.append _) notMac
  | @replace count address line out mac rest ih =>
      generalize whole : address ++ line = joined at again
      cases again with
      | short short =>
          rw [← whole, List.length_append, mac.length_eq] at short
          omega
      | keep notMac =>
          rw [← whole] at notMac
          exact absurd (mac.pairs.append _) notMac
      | replace otherMac again =>
          obtain ⟨rfl, rfl⟩ := List.append_inj whole (mac.length_eq.trans otherMac.length_eq.symm)
          obtain ⟨same, equal⟩ := ih again
          exact ⟨by rw [same], equal⟩

end Lexical

section Parsing

theorem exists_first {wanted : Byte} {more line : List Byte}
    (found : (wanted :: more).Sublist line) :
    ∃ before rest, line = before ++ wanted :: rest ∧ wanted ∉ before ∧ more.Sublist rest := by
  induction line with
  | nil => cases found
  | cons byte line ih =>
      by_cases same : byte = wanted
      · subst same
        exact ⟨[], line, rfl, List.not_mem_nil, List.cons_sublist_cons.mp found⟩
      · have later : (wanted :: more).Sublist line := by
          cases found with
          | cons _ later => exact later
          | cons_cons _ _ => exact absurd rfl same
        obtain ⟨before, rest, rfl, absent, sublist⟩ := ih later
        refine ⟨byte :: before, rest, rfl, ?_, sublist⟩
        rw [List.mem_cons, not_or]
        exact ⟨Ne.symm same, absent⟩

/-- A line with its fields, and whatever comes after its first newline. -/
def lineOf (level seq time text rest : List Byte) : List Byte :=
  level ++ ascii ',' :: (seq ++ ascii ',' :: (time ++ ascii ';' :: (text ++ ascii '\n' :: rest)))

theorem Complete.exists_fields {line : List Byte} (complete : Complete line) :
    ∃ level seq time text rest, line = lineOf level seq time text rest ∧ ascii ',' ∉ level ∧
      ascii ',' ∉ seq ∧ ascii ';' ∉ time ∧ ascii '\n' ∉ text := by
  obtain ⟨level, _, rfl, absent_level, complete⟩ := exists_first complete
  obtain ⟨seq, _, rfl, absent_seq, complete⟩ := exists_first complete
  obtain ⟨time, _, rfl, absent_time, complete⟩ := exists_first complete
  obtain ⟨text, rest, rfl, absent_text, _⟩ := exists_first complete
  exact ⟨level, seq, time, text, rest, rfl, absent_level, absent_seq, absent_time, absent_text⟩

theorem sublist_field (field : List Byte) {stop : Byte} {stops rest : List Byte}
    (later : stops.Sublist rest) : (stop :: stops).Sublist (field ++ stop :: rest) := by
  apply List.sublist_append_of_sublist_right
  exact later.cons_cons stop

theorem complete_lineOf (level seq time text rest : List Byte) :
    Complete (lineOf level seq time text rest) := by
  apply sublist_field level
  apply sublist_field seq
  apply sublist_field time
  exact sublist_field text (List.nil_sublist rest)

theorem signedDigits_comma (field rest : List Byte) :
    signedDigits (field ++ ascii ',' :: rest) = signedDigits field :=
  signedDigits_append (by decide) (by decide) (by decide)

theorem signedDigits_semicolon (field rest : List Byte) :
    signedDigits (field ++ ascii ';' :: rest) = signedDigits field :=
  signedDigits_append (by decide) (by decide) (by decide)

theorem parseLineData_lineOf {level seq time text : List Byte} (rest : List Byte)
    (absent_level : ascii ',' ∉ level ∧ 0 ∉ level) (absent_seq : ascii ',' ∉ seq ∧ 0 ∉ seq)
    (absent_time : ascii ';' ∉ time ∧ 0 ∉ time) (absent_text : ascii '\n' ∉ text ∧ 0 ∉ text) :
    parseLineData (lineOf level seq time text rest) =
      .found (⟨atoi level, strtoull seq, strtoull time, text ++ [ascii '\n']⟩,
        (lineOf level seq time text []).length) := by
  have newline : strchr (ascii '\n') (ascii ';' :: (text ++ ascii '\n' :: rest)) =
      .found (ascii '\n' :: rest) := by
    rw [← List.cons_append]
    apply strchr_append
    · rw [List.mem_cons, not_or]
      exact ⟨by decide, absent_text.1⟩
    · rw [List.mem_cons, not_or]
      exact ⟨by decide, absent_text.2⟩
  simp only [parseLineData, lineOf, strchr_append absent_level.1 absent_level.2, Bind.bind,
    Search.bind, List.tail_cons, strchr_append absent_seq.1 absent_seq.2,
    strchr_append absent_time.1 absent_time.2, newline, atoi, strtoull, signedDigits_comma,
    signedDigits_semicolon]
  have ended : (text ++ ascii '\n' :: rest).take
      ((ascii ';' :: (text ++ ascii '\n' :: rest)).length - (ascii '\n' :: rest).length) =
      text ++ [ascii '\n'] := by
    have count : (ascii ';' :: (text ++ ascii '\n' :: rest)).length -
        (ascii '\n' :: rest).length = (text ++ [ascii '\n']).length := by
      simp only [List.length_cons, List.length_append, List.length_nil]
      omega
    rw [count, List.append_cons text (ascii '\n') rest, List.take_left]
  rw [ended]
  congr 2
  simp only [List.length_cons, List.length_append, List.length_nil]
  omega

theorem parseLineData_complete {line : List Byte} (complete : Complete line)
    (unterminated : 0 ∉ line) :
    ∃ parsed ending, ending ≤ line.length ∧ Complete (line.take ending) ∧
      ∀ behind, parseLineData (line ++ behind) = .found (parsed, ending) := by
  obtain ⟨level, seq, time, text, rest, rfl, absent_level, absent_seq, absent_time, absent_text⟩ :=
    complete.exists_fields
  have split : lineOf level seq time text rest = lineOf level seq time text [] ++ rest := by
    simp [lineOf]
  have absent := unterminated
  simp only [lineOf, List.mem_append, List.mem_cons, not_or] at absent
  obtain ⟨in_level, -, in_seq, -, in_time, -, in_text, -⟩ := absent
  refine ⟨⟨atoi level, strtoull seq, strtoull time, text ++ [ascii '\n']⟩,
    (lineOf level seq time text []).length, ?_, ?_, fun behind => ?_⟩
  · rw [split, List.length_append]
    exact Nat.le_add_right _ _
  · rw [split, List.take_left]
    exact complete_lineOf level seq time text []
  · rw [show lineOf level seq time text rest ++ behind =
      lineOf level seq time text (rest ++ behind) by simp [lineOf]]
    exact parseLineData_lineOf (rest ++ behind) ⟨absent_level, in_level⟩ ⟨absent_seq, in_seq⟩
      ⟨absent_time, in_time⟩ ⟨absent_text, in_text⟩

end Parsing

section Buffers

def LogParseParams.withLine (lineBuffer : Memory Byte) (params : LogParseParams) :
    LogParseParams :=
  { params with lineBuffer := lineBuffer }

def Turn.withLine (lineBuffer : Memory Byte) : Turn → Turn
  | .next params locals items => .next (params.withLine lineBuffer) locals items
  | .stop params locals => .stop (params.withLine lineBuffer) locals
  | .fail params => .fail (params.withLine lineBuffer)
  | .overrun => .overrun

def Uploader.withLine (lineBuffer : Memory Byte) (uploader : Uploader) : Uploader :=
  { uploader with params := uploader.params.withLine lineBuffer }

/-- A line that is parsed without a look behind it. -/
structure Sound (size : Nat) (line : List Byte) : Prop where
  complete : Complete line
  unterminated : 0 ∉ line
  fits : line.length ≤ size

/-- Two line buffers that begin with the same line. -/
structure Shared (left right : Memory Byte) (line : List Byte) : Prop where
  left_eq : left.slice 0 line.length = line
  right_eq : right.slice 0 line.length = line

def Kept (size : Nat) (left right : Memory Byte) : Prop :=
  ∃ line, Sound size line ∧ Shared left right line

theorem Shared.write (left right : Memory Byte) (bytes : List Byte) :
    Shared (left.write 0 bytes) (right.write 0 bytes) bytes :=
  ⟨Memory.slice_write 0 bytes, Memory.slice_write 0 bytes⟩

theorem Shared.take {left right : Memory Byte} {line : List Byte} (shared : Shared left right line)
    {count : Nat} (fewer : count ≤ line.length) (cells : List Byte) :
    Shared (left.write count cells) (right.write count cells) (line.take count) := by
  have length : (line.take count).length = count := List.length_take_of_le fewer
  constructor
  · rw [length, Memory.slice_write_outside (.inl (by omega)), ← Memory.take_slice _ fewer,
      shared.left_eq]
  · rw [length, Memory.slice_write_outside (.inl (by omega)), ← Memory.take_slice _ fewer,
      shared.right_eq]

variable (env : Env) {left right : Memory Byte} {line : List Byte} {size : Nat}

/-- The addresses of a shared line are taken out alike. -/
theorem suppressMacAddresses_shared (sound : Sound size line) (shared : Shared left right line) :
    ∃ leftAfter rightAfter out numRead,
      suppressMacAddresses env.hmac left 0 line.length = some (leftAfter, numRead) ∧
      suppressMacAddresses env.hmac right 0 line.length = some (rightAfter, numRead) ∧
      Sound size out ∧ Shared leftAfter rightAfter out := by
  obtain ⟨leftAfter, leftCount, leftReturned, small, leftPass, _⟩ :=
    suppressMacAddresses_pass env.hmac left 0 line.length
  obtain ⟨rightAfter, rightCount, rightReturned, _, rightPass, _⟩ :=
    suppressMacAddresses_pass env.hmac right 0 line.length
  rw [shared.left_eq] at leftPass
  rw [shared.right_eq] at rightPass
  obtain ⟨same, equal⟩ := leftPass.unique rightPass
  subst same
  have stopping := leftPass.filter_stops (isAnonid_getAnonidForMac env.hmac)
  have length := Memory.length_slice leftAfter 0 (line.length - 11 * rightCount)
  refine ⟨leftAfter, rightAfter, _, _, leftReturned, rightReturned,
    ⟨sound.complete.of_filter stopping, zero_not_mem_of_filter stopping sound.unterminated, ?_⟩,
    ⟨by rw [length], by rw [length, equal]⟩⟩
  have fits := sound.fits
  omega

omit env in
theorem slice_shared {buffer : Memory Byte} {count : Nat} (held : buffer.slice 0 line.length = line)
    (fits : line.length ≤ count) :
    buffer.slice 0 count = line ++ buffer.slice line.length (count - line.length) := by
  rw [← Nat.add_sub_cancel' fits, Memory.slice_add, held, Nat.zero_add, Nat.add_sub_cancel_left]

omit env in
theorem countLine_withLine (lineBuffer : Memory Byte) (params : LogParseParams) (locals : Locals)
    (parsed : LineData) :
    countLine (params.withLine lineBuffer) locals parsed =
      (countLine params locals parsed).withLine lineBuffer := by
  simp only [countLine, apply_ite (Turn.withLine lineBuffer)]
  rfl

/-- The turn keeps a line for the next call only where both buffers hold it. -/
def Turn.Safe (left right : Memory Byte) : Turn → Prop
  | .next params locals _ =>
      params.lastLineValid → params.full locals ∧ Kept params.lineBufferSize left right
  | .stop params _ => params.lastLineValid → Kept params.lineBufferSize left right
  | .fail params => params.lastLineValid = false
  | .overrun => False

omit env in
theorem countLine_safe {params : LogParseParams} (invalid : params.lastLineValid = false)
    (locals : Locals) (parsed : LineData) (left right : Memory Byte) :
    (countLine params locals parsed).Safe left right := by
  have contradiction {result : Prop} : params.lastLineValid = true → result := by simp [invalid]
  simp only [countLine]
  split
  · split
    · exact contradiction
    · split <;> exact contradiction
  · exact contradiction

theorem handleLine_shared {params : LogParseParams} (invalid : params.lastLineValid = false)
    (locals : Locals) (sound : Sound params.lineBufferSize line) (shared : Shared left right line)
    {numRead : Nat} (whole : numRead = line.length ∨ numRead = 0) :
    ∃ (turn : Turn) (leftAfter rightAfter : Memory Byte), turn.Safe leftAfter rightAfter ∧
      handleLine env (params.withLine left) locals numRead = turn.withLine leftAfter ∧
      handleLine env (params.withLine right) locals numRead = turn.withLine rightAfter := by
  have suppressed : ∃ leftAfter rightAfter out returned,
      suppressMacAddresses env.hmac left 0 numRead = some (leftAfter, returned) ∧
      suppressMacAddresses env.hmac right 0 numRead = some (rightAfter, returned) ∧
      Sound params.lineBufferSize out ∧ Shared leftAfter rightAfter out := by
    rcases whole with rfl | rfl
    · exact suppressMacAddresses_shared env sound shared
    · exact ⟨left, right, line, 0, rfl, rfl, sound, shared⟩
  obtain ⟨leftAfter, rightAfter, out, returned, onLeft, onRight, sound, shared⟩ := suppressed
  obtain ⟨parsed, ending, inside, complete, parse⟩ :=
    parseLineData_complete sound.complete sound.unterminated
  have fits : out.length ≤ params.lineBufferSize + env.behind := sound.fits.trans (by omega)
  have leftParse := parse (leftAfter.slice out.length
    (params.lineBufferSize + env.behind - out.length))
  have rightParse := parse (rightAfter.slice out.length
    (params.lineBufferSize + env.behind - out.length))
  rw [← slice_shared shared.left_eq fits] at leftParse
  rw [← slice_shared shared.right_eq fits] at rightParse
  simp only [handleLine, LogParseParams.withLine, onLeft, onRight, leftParse, rightParse]
  split
  case isTrue marker =>
    refine ⟨.stop { params with lastLineValid := true } locals, leftAfter.write ending [0],
      rightAfter.write ending [0], fun _ => ?_, rfl, rfl⟩
    refine ⟨out.take ending, ⟨complete, ?_, ?_⟩, shared.take inside [0]⟩
    · exact fun member => sound.unterminated (List.mem_of_mem_take member)
    · exact (List.length_take_le ending out).trans (inside.trans sound.fits)
  case isFalse other =>
    exact ⟨countLine params locals parsed, leftAfter.write ending [0],
      rightAfter.write ending [0], countLine_safe invalid locals parsed _ _,
      countLine_withLine _ params locals parsed, countLine_withLine _ params locals parsed⟩

end Buffers

section Runs

variable (env : Env)

/-- Two uploaders that differ in their line buffers at most. -/
structure Alike (common : Uploader) (left right : Memory Byte) : Prop where
  kept : common.params.lastLineValid → Kept common.params.lineBufferSize left right
  waiting : ∀ locals, common.phase = .reading locals → common.params.lastLineValid = false

def Related (left right : Uploader) : Prop :=
  ∃ common leftLine rightLine, Alike common leftLine rightLine ∧
    left = common.withLine leftLine ∧ right = common.withLine rightLine

theorem Turn.Safe.alike {left right : Memory Byte} {turn : Turn} (safe : turn.Safe left right)
    (common : Uploader) : Alike (common.proceed turn) left right := by
  cases turn with
  | next params locals items =>
      simp only [Uploader.proceed]
      split
      case isTrue full => exact ⟨fun valid => (safe valid).2, fun locals reading => by cases reading⟩
      case isFalse room =>
        have invalid : params.lastLineValid = false := by
          by_contra valid
          exact room (safe (by simpa using valid)).1
        refine ⟨fun valid => ?_, fun _ _ => invalid⟩
        rw [invalid] at valid
        cases valid
  | stop params locals => exact ⟨safe, fun locals reading => by cases reading⟩
  | fail params =>
      refine ⟨fun valid => ?_, fun locals reading => by cases reading⟩
      rw [Turn.Safe] at safe
      rw [Uploader.proceed, safe] at valid
      cases valid
  | overrun => cases safe

theorem proceed_withLine {left right : Memory Byte} {turn : Turn} (safe : turn.Safe left right)
    (common : Uploader) (before after : Memory Byte) :
    (common.withLine before).proceed (turn.withLine after) =
      (common.proceed turn).withLine after := by
  cases turn with
  | next params locals items =>
      have same : (params.withLine after).full locals = params.full locals := rfl
      simp only [Turn.withLine, Uploader.proceed, same]
      split <;> rfl
  | stop => rfl
  | fail => rfl
  | overrun => cases safe

theorem related_proceed {left right leftAfter rightAfter : Memory Byte} {turn : Turn}
    (safe : turn.Safe leftAfter rightAfter) (common : Uploader) :
    Related ((common.withLine left).proceed (turn.withLine leftAfter))
      ((common.withLine right).proceed (turn.withLine rightAfter)) :=
  ⟨common.proceed turn, leftAfter, rightAfter, safe.alike common,
    proceed_withLine safe common left leftAfter, proceed_withLine safe common right rightAfter⟩

/-- A record as the kernel writes it, without a NUL and as a whole. -/
def Input.Whole : Input → Prop
  | .read (.record bytes) => 0 ∉ bytes ∧ Complete bytes
  | _ => True

theorem related_call {common : Uploader} {left right : Memory Byte}
    (alike : Alike common left right) (logBufferSize : Nat) :
    Related ((common.withLine left).call env logBufferSize)
      ((common.withLine right).call env logBufferSize) := by
  let params := { common.params with totalRead := 0 }
  let locals : Locals :=
    ⟨logBufferSize, false, common.params.lastLogCounter = 0, none, none⟩
  by_cases kept : (!params.full locals && params.lastLineValid) = true
  · have called (lineBuffer : Memory Byte) : (common.withLine lineBuffer).call env logBufferSize =
        (common.withLine lineBuffer).proceed (handleLine env
          (LogParseParams.withLine lineBuffer { params with lastLineValid := false }) locals 0) :=
      if_pos kept
    rw [called, called]
    have valid : common.params.lastLineValid = true := (Bool.and_eq_true _ _ ▸ kept).2
    obtain ⟨line, sound, shared⟩ := alike.kept valid
    obtain ⟨turn, leftAfter, rightAfter, safe, onLeft, onRight⟩ :=
      @handleLine_shared env _ _ _ { params with lastLineValid := false } rfl locals sound shared
        0 (.inr rfl)
    rw [onLeft, onRight]
    exact related_proceed safe common
  · have called (lineBuffer : Memory Byte) : (common.withLine lineBuffer).call env logBufferSize =
        (common.withLine lineBuffer).proceed
          (Turn.withLine lineBuffer (.next params locals [])) :=
      if_neg kept
    rw [called, called]
    apply related_proceed
    intro valid
    have full : params.full locals = true := by
      rw [show params.lastLineValid = true from valid] at kept
      simpa using kept
    exact ⟨full, alike.kept valid⟩

theorem readLine_withLine (lineBuffer : Memory Byte) (params : LogParseParams) (locals : Locals)
    {result : Read} (other : ∀ bytes, result ≠ .record bytes) :
    readLine env (params.withLine lineBuffer) locals result =
      (readLine env params locals result).withLine lineBuffer := by
  cases result with
  | record bytes => exact absurd rfl (other bytes)
  | again =>
      simp only [readLine, apply_ite (Turn.withLine lineBuffer)]
      rfl
  | _ => rfl

theorem readLine_safe {params : LogParseParams} (invalid : params.lastLineValid = false)
    (locals : Locals) {result : Read} (other : ∀ bytes, result ≠ .record bytes)
    (left right : Memory Byte) : (readLine env params locals result).Safe left right := by
  have contradiction {result : Prop} : params.lastLineValid = true → result := by simp [invalid]
  cases result with
  | record bytes => exact absurd rfl (other bytes)
  | again =>
      simp only [readLine]
      split
      · exact contradiction
      · split
        · exact contradiction
        · exact invalid
  | pipe => exact contradiction
  | invalid => exact contradiction
  | failed => exact invalid

theorem related_read {common : Uploader} {left right : Memory Byte}
    (invalid : common.params.lastLineValid = false) (locals : Locals) {result : Read}
    (whole : (Input.read result).Whole) (fits : result.fits common.params.lineBufferSize) :
    Related
      ((common.withLine left).proceed (readLine env (common.withLine left).params locals result))
      ((common.withLine right).proceed
        (readLine env (common.withLine right).params locals result)) := by
  cases result with
  | record bytes =>
      have sound : Sound common.params.lineBufferSize bytes :=
        ⟨whole.2, whole.1, by simpa [Read.fits] using fits⟩
      obtain ⟨turn, leftAfter, rightAfter, safe, onLeft, onRight⟩ :=
        handleLine_shared env invalid locals sound (.write left right bytes) (.inl rfl)
      have taken (lineBuffer : Memory Byte) :
          readLine env (common.withLine lineBuffer).params locals (.record bytes) =
            handleLine env (common.params.withLine (lineBuffer.write 0 bytes)) locals
              bytes.length := rfl
      rw [taken, taken, onLeft, onRight]
      exact related_proceed safe common
  | _ =>
      rw [Uploader.withLine, Uploader.withLine, readLine_withLine env _ _ _ (by simp),
        readLine_withLine env _ _ _ (by simp)]
      exact related_proceed (readLine_safe env invalid locals (by simp) left right) common

theorem Related.step {left right leftNext rightNext : Uploader} {input : Input}
    (related : Related left right) (whole : input.Whole)
    (leftStep : Uploader.Step env left input leftNext)
    (rightStep : Uploader.Step env right input rightNext) : Related leftNext rightNext := by
  obtain ⟨common, leftLine, rightLine, alike, rfl, rfl⟩ := related
  cases input with
  | call logBufferSize =>
      obtain ⟨_, rfl⟩ := Uploader.step_call leftStep
      obtain ⟨_, rfl⟩ := Uploader.step_call rightStep
      exact related_call env alike logBufferSize
  | read result =>
      obtain ⟨locals, reading, fits, rfl⟩ := Uploader.step_read leftStep
      obtain ⟨_, same, _, rfl⟩ := Uploader.step_read rightStep
      cases Phase.reading.inj (reading.symm.trans same)
      have invalid := alike.waiting locals reading
      exact related_read env invalid locals whole fits

/-- Whole records leave nothing of the line buffer in what is returned: runs with
the same inputs return the same, whatever the buffer holds at first. -/
theorem uploader_isolates {start leftEnd rightEnd : Uploader} {left right : Memory Byte}
    {leftTrace rightTrace : List (Uploader × Input)}
    (invalid : start.params.lastLineValid = false)
    (leftRun : Run (Uploader.Step env) (start.withLine left) leftTrace leftEnd)
    (rightRun : Run (Uploader.Step env) (start.withLine right) rightTrace rightEnd)
    (same : leftTrace.map Prod.snd = rightTrace.map Prod.snd)
    (whole : ∀ input ∈ leftTrace.map Prod.snd, input.Whole) :
    leftEnd.outputs = rightEnd.outputs := by
  have alike : Alike start left right := by
    constructor
    · intro valid
      rw [invalid] at valid
      cases valid
    · intro locals _
      exact invalid
  have related : Related leftEnd rightEnd :=
    Run.related (fun related whole leftStep rightStep => related.step env whole leftStep rightStep)
      leftRun rightRun same whole ⟨start, left, right, alike, rfl, rfl⟩
  obtain ⟨common, _, _, _, rfl, rfl⟩ := related
  rfl

def leftOver : Memory Byte := holding (bytesOf "new,9,0,-;key\n")

theorem uploader_isolates_gap :
    ∃ leftTrace rightTrace leftEnd rightEnd,
      Run (Uploader.Step plainEnv) (.fresh 98 fun _ => 0) leftTrace leftEnd ∧
      Run (Uploader.Step plainEnv) (.fresh 98 leftOver) rightTrace rightEnd ∧
      leftTrace.map Prod.snd = gapInputs ∧ rightTrace.map Prod.snd = gapInputs ∧
      leftEnd.outputs = rightEnd.outputs := by
  have fed (lineBuffer : Memory Byte) (runs : (gapInputs.foldlM (Uploader.step plainEnv)
      (.fresh 98 lineBuffer)).isSome) : ∃ trace finish, trace.map Prod.snd = gapInputs ∧
      Run (Uploader.Step plainEnv) (.fresh 98 lineBuffer) trace finish := by
    obtain ⟨finish, fed⟩ := Option.isSome_iff_exists.mp runs
    obtain ⟨trace, inputs, run⟩ := Run.of_foldlM fed
    exact ⟨trace, finish, inputs, run⟩
  obtain ⟨leftTrace, leftEnd, leftInputs, leftRun⟩ := fed (fun _ => 0) (by decide +kernel)
  obtain ⟨rightTrace, rightEnd, rightInputs, rightRun⟩ := fed leftOver (by decide +kernel)
  refine ⟨leftTrace, rightTrace, leftEnd, rightEnd, leftRun, rightRun, leftInputs, rightInputs,
    @uploader_isolates plainEnv (.fresh 98 fun _ => 0) _ _ _ _ _ _ rfl leftRun rightRun
      (leftInputs.trans rightInputs.symm) ?_⟩
  rw [leftInputs]
  simp only [gapInputs, List.mem_cons, List.not_mem_nil, or_false, forall_eq_or_imp, forall_eq,
    Input.Whole]
  decide +kernel

def shortInputs : List Input :=
  [.call 256, .read (.record (bytesOf "new")), .read (.again true true), .read (.again true true)]

/-- The record `new` is passed through, or it is the key of an earlier record that
is uploaded in its place. -/
theorem uploader_leaks :
    ¬ ∀ (start leftEnd rightEnd : Uploader) (left right : Memory Byte)
      (leftTrace rightTrace : List (Uploader × Input)), start.params.lastLineValid = false →
      Run (Uploader.Step plainEnv) (start.withLine left) leftTrace leftEnd →
      Run (Uploader.Step plainEnv) (start.withLine right) rightTrace rightEnd →
      leftTrace.map Prod.snd = rightTrace.map Prod.snd →
      (∀ bytes, .read (.record bytes) ∈ leftTrace.map Prod.snd → 0 ∉ bytes) →
      leftEnd.outputs = rightEnd.outputs := by
  intro alwaysEqual
  have onLeft : (shortInputs.foldlM (Uploader.step plainEnv) (.fresh 8 fun _ => 0)).map
      Uploader.outputs = some [some (bytesOf "new")] := by decide +kernel
  have onRight : (shortInputs.foldlM (Uploader.step plainEnv) (.fresh 8 leftOver)).map
      Uploader.outputs = some [some (bytesOf "<0>[    0.000000] key\n")] := by decide +kernel
  obtain ⟨leftEnd, leftFed, leftOutputs⟩ := Option.map_eq_some_iff.mp onLeft
  obtain ⟨rightEnd, rightFed, rightOutputs⟩ := Option.map_eq_some_iff.mp onRight
  obtain ⟨leftTrace, leftInputs, leftRun⟩ := Run.of_foldlM leftFed
  obtain ⟨rightTrace, rightInputs, rightRun⟩ := Run.of_foldlM rightFed
  have equal := alwaysEqual (.fresh 8 fun _ => 0) leftEnd rightEnd _ _ leftTrace rightTrace rfl leftRun
    rightRun (leftInputs.trans rightInputs.symm) (by
      rw [leftInputs]
      simp [shortInputs, bytesOf, ascii])
  rw [leftOutputs, rightOutputs] at equal
  exact absurd equal (by decide +kernel)

end Runs

end Gfiber.Logupload
