import Gfiber.Lib.Casefold
import Gfiber.Logos.Framing
import Gfiber.Logos.RateLimit

/-! The severity that is written in front of a record. It is found by comparing what is in
memory from the start of the record on. -/

set_option autoImplicit false

namespace Gfiber.Logos

open Lib

section Levels

/-- The tests of `_flush_unlimited`, in their order, with the digits. -/
def severities : List (Char × List String) :=
  [('2', ["weird:", "fatal:", "critical:"]), ('3', ["e:", "error:"]), ('4', ["w:", "warning:"]),
    ('5', ["n:", "notice:"]), ('6', ["i:", "info:"])]

/-- The digit for what is in memory from some place on; the default is debug. -/
def severity (text : List Byte) : Char :=
  match severities.find? fun entry =>
      entry.2.any fun keyword => startsWithFolded text (bytesOf keyword) with
  | some entry => entry.1
  | none => '7'

end Levels

/-- The loop of `main` with all of its buffer: what is in it behind the bytes in use, and the
records that were let through with their digits. -/
structure Buffered where
  framer : Framer
  behind : List Byte
  written : List (List Byte × Char)
deriving DecidableEq, Repr

namespace Buffered

/-- The buffer is not initialized. -/
def start (behind : List Byte) : Buffered := ⟨.start, behind, []⟩

variable (admits : Nat → Bool) (buffered : Buffered)

/-- `admits` says which of the records the limiter lets through. The copy without control
characters ends with a NUL, the record itself does not. -/
def flush (record behind : List Byte) : Buffered :=
  let digit :=
    if hasControl record then severity (fixBuf record ++ [0]) else severity (record ++ behind)
  { buffered with
    framer := buffered.framer.flush record
    written :=
      if admits buffered.framer.records.length then buffered.written ++ [(cleaned record, digit)]
      else buffered.written }

def makeRoom : Buffered :=
  let used := buffered.framer.used
  if used.length = maxLineLength then
    let next := buffered.flush admits used buffered.behind
    { next with
      framer := { next.framer with overlong := true, used := [] }
      behind := used ++ buffered.behind }
  else buffered

/-- The warning is a string of its own. -/
def endLine (behind : List Byte) : Buffered :=
  let next := buffered.flush admits buffered.framer.used behind
  let next := if next.framer.overlong then next.flush admits overlongWarning [0] else next
  { next with framer := { next.framer with overlong := false, used := [] } }

/-- What was read lies in front of what is left behind it. -/
def scan (behind : List Byte) (buffered : Buffered) : List Byte → Buffered
  | [] => buffered
  | byte :: rest =>
      if byte = newline then
        scan behind (buffered.endLine admits (byte :: rest ++ behind)) rest
      else
        scan behind
          { buffered with framer := { buffered.framer with used := buffered.framer.used ++ [byte] } }
          rest

/-- What follows the last newline is moved to the start of the buffer. -/
def turn (got : Got) : Buffered :=
  let buffered := buffered.makeRoom admits
  match got with
  | .endOfInput =>
      let next :=
        if buffered.framer.used ≠ [] then
          buffered.flush admits buffered.framer.used buffered.behind
        else buffered
      { next with framer := { next.framer with exitStatus := some 0 } }
  | .interrupted => buffered
  | .failed =>
      let next := buffered.flush admits buffered.framer.used buffered.behind
      { next with framer := { next.framer with exitStatus := some 1 } }
  | .data chunk =>
      let behind := buffered.behind.drop chunk.length
      let next := buffered.scan admits behind chunk
      { next with
        behind := (buffered.framer.used ++ chunk ++ behind).drop next.framer.used.length }

/-- A read returns at least one byte and no more than the buffer has room for. -/
def Step (buffered : Buffered) (got : Got) (next : Buffered) : Prop :=
  buffered.framer.exitStatus = none ∧ next = buffered.turn admits got ∧
    ∀ chunk, got = .data chunk →
      chunk ≠ [] ∧ chunk.length ≤ maxLineLength - buffered.framer.makeRoom.used.length

end Buffered

end Gfiber.Logos
