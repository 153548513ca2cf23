import Gfiber.Lib.Scanf

/-! The patterns of the lights in the file `leds`, and the loop that shows them. -/

set_option autoImplicit false

namespace Gfiber.GpioMailbox

open Lib

section Files

/-- What becomes of a file that is read: it cannot be opened, `read` fails, or `read` gets the
bytes, as many as it is asked for at most. -/
inductive FileResult where
  | missing
  | failed
  | content (bytes : List Byte)
deriving DecidableEq, Repr

def bufSize : Nat := 1024

/-- The static buffer, and where the last call wrote the end of the string. -/
structure Buf where
  bytes : List Byte
  terminated : Int
  sized : bytes.length = bufSize

def Buf.init : Buf :=
  ⟨List.replicate bufSize 0, 0, List.length_replicate⟩

/-- The string in the buffer. -/
def Buf.text (buf : Buf) : List Byte :=
  buf.bytes.takeWhile (· ≠ 0)

/-- When `read` fails it returns -1, and what is written is the byte before the buffer. -/
def Buf.readFile (buf : Buf) : FileResult → Buf
  | .missing => ⟨buf.bytes.set 0 0, 0, by rw [List.length_set, buf.sized]⟩
  | .failed => { buf with terminated := -1 }
  | .content bytes =>
      let got := bytes.take (bufSize - 1)
      have few : got.length ≤ bufSize - 1 := List.length_take_le _ _
      ⟨got ++ 0 :: buf.bytes.drop (got.length + 1), got.length, by
        rw [List.length_append, List.length_cons, List.length_drop, buf.sized]
        rw [bufSize] at few ⊢
        omega⟩

def isDelimiter (byte : Byte) : Bool :=
  byte = ascii ' ' || byte = ascii '\t' || byte = ascii '\n' || byte = ascii '\r'

/-- The tokens that `strsep` returns, the empty ones included. -/
def Buf.tokens (buf : Buf) : List (List Byte) :=
  buf.text.splitOnP isDelimiter

/-- `strsep` ends each token with a zero byte. -/
def Buf.separate (buf : Buf) : Buf where
  bytes := buf.text.map (fun byte => if isDelimiter byte then 0 else byte) ++
    buf.bytes.drop buf.text.length
  terminated := buf.terminated
  sized := by
    have shorter : buf.text.length ≤ buf.bytes.length := (List.takeWhile_prefix _).length_le
    rw [List.length_append, List.length_map, List.length_drop, Nat.add_sub_cancel' shorter, buf.sized]

end Files

section Patterns

def maxLeds : Nat := 16

/-- The static variables of a pattern. -/
structure Pattern where
  ledSequence : Fin maxLeds → Byte
  ledSequenceForBrightness : Fin maxLeds → BitVec 32
  ledSequenceLen : Nat
  ledTotalTime : Nat
  bounded : ledSequenceLen ≤ maxLeds

def Pattern.init : Pattern where
  ledSequence := fun _ => 0
  ledSequenceForBrightness := fun _ => 0
  ledSequenceLen := 1
  ledTotalTime := 1000
  bounded := by decide

def Pattern.reset (pattern : Pattern) : Pattern where
  ledSequence := pattern.ledSequence
  ledSequenceForBrightness := pattern.ledSequenceForBrightness
  ledSequenceLen := 0
  ledTotalTime := 1000
  bounded := Nat.zero_le _

/-- `led_total_time` is an `unsigned` of 32 bits, and is kept between 1000 and 10000. -/
def Pattern.setTotalTime (seconds : Nat) (pattern : Pattern) : Pattern :=
  let time := seconds * 1000 % 2 ^ 32
  let time := if time > 10000 then 10000 else time
  { pattern with ledTotalTime := if time < 1000 then 1000 else time }

def Pattern.push (leds : Byte) (brightness : BitVec 32) (pattern : Pattern)
    (room : pattern.ledSequenceLen < maxLeds) : Pattern where
  ledSequence := fun i => if i.val = pattern.ledSequenceLen then leds else pattern.ledSequence i
  ledSequenceForBrightness := fun i =>
    if i.val = pattern.ledSequenceLen then brightness else pattern.ledSequenceForBrightness i
  ledSequenceLen := pattern.ledSequenceLen + 1
  ledTotalTime := pattern.ledTotalTime
  bounded := room

/-- The loop over the repetitions, which a full pattern ends. -/
def Pattern.repeated (leds : Byte) (brightness : BitVec 32) : Nat → Pattern → Pattern
  | 0, pattern => pattern
  | repetition + 1, pattern =>
      if room : pattern.ledSequenceLen < maxLeds then
        repeated leds brightness repetition (pattern.push leds brightness room)
      else pattern

/-- An entry of the file, with its brightness and its repetitions. -/
structure Entry where
  leds : Byte
  brightness : BitVec 32
  repetition : Int

/-- `strtoul` gives an `unsigned long`, which is cut to an `int`. -/
def entryOf (longWidth : Nat) (token : List Byte) : Entry :=
  let (leds, separator) := strtoul longWidth token
  let (brightness, separator) :=
    if separator.head? = some (ascii '@') then
      let (brightness, separator) := strtoul longWidth separator.tail
      (brightness.setWidth 32, separator)
    else (100, separator)
  let repetition :=
    if separator.head? = some (ascii 'x') then
      ((strtoul longWidth separator.tail).1.setWidth 32).toInt
    else 1
  ⟨leds.setWidth 8, brightness, repetition⟩

def Pattern.addToken (longWidth : Nat) (pattern : Pattern) (token : List Byte) : Pattern :=
  match token with
  | [] => pattern
  | first :: rest =>
      if first = ascii 'x' then pattern.setTotalTime (strtoul longWidth rest).1.toNat
      else
        let entry := entryOf longWidth (first :: rest)
        pattern.repeated entry.leds entry.brightness entry.repetition.toNat

/-- A file without an entry is shown as an error, in red. -/
def Pattern.orError (pattern : Pattern) : Pattern :=
  if pattern.ledSequenceLen = 0 then
    { pattern with
      ledSequence := fun i => if i.val = 0 then 1 else pattern.ledSequence i
      ledSequenceLen := 1
      bounded := by decide }
  else pattern

def Pattern.readLedSequence (longWidth : Nat) (tokens : List (List Byte)) (pattern : Pattern) :
    Pattern :=
  (tokens.foldl (Pattern.addToken longWidth) pattern.reset).orError

end Patterns

end Gfiber.GpioMailbox
