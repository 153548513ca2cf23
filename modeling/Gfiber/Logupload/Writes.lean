import Gfiber.Logupload.IsolationProperties
import Gfiber.Logupload.MarkerProperties

/-! Where a call writes, and how long what it writes can be. -/

set_option autoImplicit false

namespace Gfiber.Logupload

open Lib

section Parsing

/-- The newline that ends the line is at the place. -/
def NewlineAt (bytes : List Byte) (place : Nat) : Prop :=
  ∃ level seq time text rest, bytes = lineOf level seq time text rest ∧
    (ascii ',' ∉ level ∧ 0 ∉ level) ∧ (ascii ',' ∉ seq ∧ 0 ∉ seq) ∧
    (ascii ';' ∉ time ∧ 0 ∉ time) ∧ (ascii '\n' ∉ text ∧ 0 ∉ text) ∧
    place + 1 = (lineOf level seq time text []).length

variable {bytes : List Byte} {line : LineData} {place ending : Nat}

theorem NewlineAt.parsed (newline : NewlineAt bytes place) :
    ∃ line, parseLineData bytes = .found (line, place + 1) := by
  obtain ⟨level, seq, time, text, rest, whole, in_level, in_seq, in_time, in_text, length⟩ := newline
  rw [whole, length]
  exact ⟨_, parseLineData_lineOf rest in_level in_seq in_time in_text⟩

theorem text_behind_semicolon {front tail rest : List Byte}
    (whole : ascii ';' :: tail = front ++ ascii '\n' :: rest)
    (absent : ascii '\n' ∉ front ∧ 0 ∉ front) :
    ∃ text, tail = text ++ ascii '\n' :: rest ∧ ascii '\n' ∉ text ∧ 0 ∉ text := by
  cases front with
  | nil => exact absurd (List.cons.inj whole).1 (by decide)
  | cons first text =>
      simp only [List.mem_cons, not_or] at absent
      exact ⟨text, (List.cons.inj whole).2, absent.1.2, absent.2.2⟩

theorem parsed_newlineAt (parsed : parseLineData bytes = .found (line, ending)) :
    ∃ place, ending = place + 1 ∧ NewlineAt bytes place ∧ line.text.length ≤ ending := by
  have split := parsed
  unfold parseLineData at split
  cases first : strchr (ascii ',') bytes with
  | missing | overrun => simp [first, Bind.bind, Search.bind] at split
  | found comma1 =>
    cases second : strchr (ascii ',') comma1.tail with
    | missing | overrun => simp [first, second, Bind.bind, Search.bind] at split
    | found comma2 =>
      cases third : strchr (ascii ';') comma2.tail with
      | missing | overrun => simp [first, second, third, Bind.bind, Search.bind] at split
      | found semi =>
        cases fourth : strchr (ascii '\n') semi with
        | missing | overrun =>
            simp [first, second, third, fourth, Bind.bind, Search.bind] at split
        | found newline =>
            obtain ⟨level, tail1, same1, whole1, in_level⟩ := strchr_found first
            rw [same1, List.tail_cons] at second
            obtain ⟨seq, tail2, same2, whole2, in_seq⟩ := strchr_found second
            rw [same2, List.tail_cons] at third
            obtain ⟨time, tail3, same3, whole3, in_time⟩ := strchr_found third
            rw [same3] at fourth
            obtain ⟨front, rest, -, whole4, in_front⟩ := strchr_found fourth
            obtain ⟨text, whole5, in_text⟩ := text_behind_semicolon whole4 in_front
            have whole : bytes = lineOf level seq time text rest := by
              rw [whole1, whole2, whole3, whole5]
              rfl
            rw [whole, parseLineData_lineOf rest in_level in_seq in_time in_text] at parsed
            cases parsed
            have positive : (lineOf level seq time text []).length =
                (lineOf level seq time text []).length - 1 + 1 := by
              simp only [lineOf, List.length_append, List.length_cons]
              omega
            refine ⟨_, positive, ⟨level, seq, time, text, rest, whole, in_level, in_seq, in_time,
              in_text, positive.symm⟩, ?_⟩
            simp only [lineOf, List.length_append, List.length_cons, List.length_nil]
            omega

end Parsing

section Lengths

theorem length_printNat_le {value digits : Nat} (some_digit : 0 < digits)
    (small : value < 10 ^ digits) : (printNat value).length ≤ digits := by
  unfold printNat
  rw [List.length_map]
  exact (Nat.length_toDigits_le_iff (by decide) some_digit).mpr small

theorem length_pad_le {width most : Nat} {text : List Byte} (fill : Char) (wide : width ≤ most)
    (short : text.length ≤ most) : (pad width fill text).length ≤ most := by
  unfold pad
  rw [List.length_append, List.length_replicate]
  omega

theorem length_printInt_le (value : Word) : (printInt value.toInt).length ≤ 11 := by
  have high := BitVec.toInt_lt (x := value)
  have low := BitVec.le_toInt value
  have small : value.toInt.natAbs < 10 ^ 10 := by
    norm_num at *
    omega
  have digits := length_printNat_le (by decide) small
  unfold printInt
  split
  · rw [List.length_cons]
    omega
  · omega

theorem length_stamp_le (level : Word) (line : LineData) :
    (stamp level.toInt line).length ≤ 34 := by
  have usec : (pad 6 '0' (printNat line.timeUsec)).length ≤ 6 := by
    apply length_pad_le _ (Nat.le_refl 6)
    apply length_printNat_le (by decide)
    unfold LineData.timeUsec
    omega
  have sec : (pad 5 ' ' (printInt line.timeSec)).length ≤ 11 :=
    length_pad_le _ (by decide) (length_printInt_le _)
  have number := length_printInt_le level
  have texts : (bytesOf "<").length = 1 ∧ (bytesOf ">[").length = 2 ∧ (bytesOf ".").length = 1 ∧
      (bytesOf "] ").length = 2 := by decide
  unfold stamp
  simp only [List.length_append, texts.1, texts.2.1, texts.2.2.1, texts.2.2.2]
  omega

theorem length_missed_le (line : LineData) (count : Word64) :
    (Item.missed line count).text.length ≤ 84 := by
  have stamped : (stamp 7 line).length ≤ 34 := length_stamp_le 7 line
  have number : (printNat count.toNat).length ≤ 20 := by
    apply length_printNat_le (by decide)
    have := count.isLt
    omega
  have texts : (bytesOf "WARNING: missed ").length = 16 ∧
      (bytesOf " log entries\n").length = 13 := by decide
  unfold Item.text
  simp only [List.length_append, texts.1, texts.2]
  omega

theorem length_copied_le (line : LineData) :
    (Item.copied line).text.length ≤ 34 + line.text.length := by
  have stamped := length_stamp_le line.level line
  unfold Item.text
  rw [List.length_append]
  omega

end Lengths

section Writes

/-- A write of a call: the NUL behind a line, a `memcpy`, an `snprintf` that has room, and the NUL
behind the log. -/
inductive Write where
  | terminate (address : Nat)
  | memcpy (address count : Nat)
  | snprintf (address room count : Nat)
  | finish (address : Nat)

/-- The write lies inside of its buffer, and what is printed is not cut. -/
def Write.Inside (lineBufferSize logBufferSize : Nat) : Write → Prop
  | .terminate address => address < lineBufferSize
  | .memcpy address count => address + count ≤ logBufferSize
  | .snprintf address room count => count < room ∧ address + (count + 1) ≤ logBufferSize
  | .finish address => address < logBufferSize

def Item.write (logBufferSize totalRead : Nat) (item : Item) : Write :=
  match item with
  | .raw bytes => .memcpy totalRead bytes.length
  | _ => .snprintf totalRead ((logBufferSize + 2 ^ 64 - totalRead) % 2 ^ 64) item.text.length

/-- The items go into the log buffer one behind the other. -/
def itemWrites (logBufferSize : Nat) : (totalRead : Nat) → List Item → List Write
  | _, [] => []
  | totalRead, item :: items =>
      item.write logBufferSize totalRead ::
        itemWrites logBufferSize (totalRead + item.text.length) items

def Turn.writes (logBufferSize totalRead : Nat) : Turn → List Write
  | .next params locals items =>
      itemWrites logBufferSize totalRead items ++
        if params.full locals then [.finish params.totalRead] else []
  | .stop params _ => [.finish params.totalRead]
  | _ => []

/-- What the loop ends with, if it does. -/
def Turn.ended : Turn → Option (LogParseParams × Locals)
  | .next params locals _ => if params.full locals then some (params, locals) else none
  | .stop params locals => some (params, locals)
  | _ => none

variable (env : Env)

/-- The bytes that a line is parsed from. -/
def parsedBytes (params : LogParseParams) (numRead : Nat) : Option (List Byte) :=
  (suppressMacAddresses env.hmac params.lineBuffer 0 numRead).map fun result =>
    result.1.slice 0 (params.lineBufferSize + env.behind)

def terminated (params : LogParseParams) (numRead : Nat) : List Write :=
  match (parsedBytes env params numRead).map parseLineData with
  | some (.found (_, ending)) => [.terminate ending]
  | _ => []

/-- What a line that is handled writes. -/
def lineWrites (params : LogParseParams) (locals : Locals) (numRead : Nat) : List Write :=
  terminated env params numRead ++
    (handleLine env params locals numRead).writes locals.logBufferSize params.totalRead

namespace Uploader

variable (uploader : Uploader)

def firstLocals (logBufferSize : Nat) : Locals where
  logBufferSize := logBufferSize
  wroteStartMarker := false
  checkForMarkers := uploader.params.lastLogCounter = 0
  lastStartMarker := none
  lastStartBeforeEndMarker := none

/-- The line that an input makes the uploader handle. -/
def line : Input → Option (LogParseParams × Locals × Nat)
  | .call logBufferSize =>
      let params := { uploader.params with totalRead := 0 }
      let locals := uploader.firstLocals logBufferSize
      if !params.full locals && params.lastLineValid then
        some ({ params with lastLineValid := false }, locals, 0)
      else none
  | .read (.record bytes) =>
      match uploader.phase with
      | .reading locals =>
          some ({ uploader.params with lineBuffer := uploader.params.lineBuffer.write 0 bytes },
            locals, bytes.length)
      | _ => none
  | .read _ => none

/-- The round of the loop that an input makes the uploader go through. -/
def turn (input : Input) : Option Turn :=
  match uploader.line input with
  | some (params, locals, numRead) => some (handleLine env params locals numRead)
  | none =>
      match input with
      | .call logBufferSize =>
          some (.next { uploader.params with totalRead := 0 } (uploader.firstLocals logBufferSize)
            [])
      | .read result =>
          match uploader.phase with
          | .reading locals => some (readLine env uploader.params locals result)
          | _ => none

/-- What an input writes into the buffers. -/
def writes (input : Input) : List Write :=
  match uploader.line input with
  | some (params, locals, numRead) => lineWrites env params locals numRead
  | none =>
      match input with
      | .call logBufferSize =>
          (Turn.next { uploader.params with totalRead := 0 } (uploader.firstLocals logBufferSize)
            []).writes logBufferSize 0
      | .read result =>
          match uploader.phase with
          | .reading locals =>
              (readLine env uploader.params locals result).writes locals.logBufferSize
                uploader.params.totalRead
          | _ => []

end Uploader

end Writes

end Gfiber.Logupload
