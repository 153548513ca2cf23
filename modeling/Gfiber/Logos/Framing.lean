import Gfiber.Lib.CString
import Gfiber.Lib.Run

/-! How `main` cuts its input into records. The buffer is held as the bytes in
use, and `records` are the texts that `flush` has been given. -/

set_option autoImplicit false

namespace Gfiber.Logos

open Lib

/-- `MAX_LINE_LENGTH`, the size of the buffer. -/
def maxLineLength : Nat := 768

def overlongWarning : List Byte :=
  bytesOf "W: previous log line was split. Use shorter lines."

def newline : Byte := ascii '\n'

structure Framer where
  used : List Byte
  overlong : Bool
  records : List (List Byte)
  exitStatus : Option Nat
deriving DecidableEq, Repr

/-- What `read` returns. -/
inductive Got where
  | data (chunk : List Byte)
  | endOfInput
  | interrupted
  | failed
deriving DecidableEq, Repr

/-- The results of `read` after which the loop goes on. -/
def Got.GoesOn : Got → Prop
  | .data _ | .interrupted => True
  | .endOfInput | .failed => False

namespace Framer

def start : Framer := ⟨[], false, [], none⟩

def flush (record : List Byte) (framer : Framer) : Framer :=
  { framer with records := framer.records ++ [record] }

/-- A full buffer is flushed before the next read. -/
def makeRoom (framer : Framer) : Framer :=
  if framer.used.length = maxLineLength then
    { framer.flush framer.used with overlong := true, used := [] }
  else framer

/-- At a newline the line is flushed, and a warning after the end of one that was cut. -/
def endLine (framer : Framer) : Framer :=
  let framer := framer.flush framer.used
  let framer := if framer.overlong then framer.flush overlongWarning else framer
  { framer with overlong := false, used := [] }

/-- The loop over the newlines of what was read. What follows the last one is kept
at the start of the buffer. -/
def scan (framer : Framer) : List Byte → Framer
  | [] => framer
  | byte :: rest =>
      if byte = newline then framer.endLine.scan rest
      else { framer with used := framer.used ++ [byte] }.scan rest

def turn (framer : Framer) (got : Got) : Framer :=
  let framer := framer.makeRoom
  match got with
  | .endOfInput =>
      let framer := if framer.used ≠ [] then framer.flush framer.used else framer
      { framer with exitStatus := some 0 }
  | .interrupted => framer
  | .failed => { framer.flush framer.used with exitStatus := some 1 }
  | .data chunk => framer.scan chunk

/-- A read returns at least one byte and no more than the buffer has room for. -/
def Fits (framer : Framer) (got : Got) : Prop :=
  ∀ chunk, got = .data chunk →
    chunk ≠ [] ∧ chunk.length ≤ maxLineLength - framer.makeRoom.used.length

def Step (framer : Framer) (got : Got) (next : Framer) : Prop :=
  framer.exitStatus = none ∧ next = framer.turn got ∧ framer.Fits got

end Framer

/-- The bytes that were read. -/
def inputOf (gots : List Got) : List Byte :=
  gots.flatMap fun got =>
    match got with
    | .data chunk => chunk
    | _ => []

end Gfiber.Logos
