import Gfiber.Lib.Lines
import Gfiber.Lib.Run
import Gfiber.Mmap.Commands

/-! The scripts of commands, which are read line by line. -/

set_option autoImplicit false

namespace Gfiber.Mmap

open Lib

section Lines

def lineSize : Nat := 1024

/-- A line with its end, as far as it fits, and the text behind it. -/
def fgets (size : Nat) (text : List Byte) : Option (List Byte × List Byte) :=
  if text = [] then none
  else
    let line := text.takeWhile (· ≠ lineEnd)
    let line := (text.take (line.length + 1)).take (size - 1)
    some (line, text.drop line.length)

def isDelim (byte : Byte) : Bool :=
  byte = ascii ' ' || byte = ascii '\t' || byte = ascii '\n'

/-- The words of a line, as `strtok` gives them. -/
def words (line : List Byte) : List (List Byte) :=
  (line.splitOnP isDelim).filter (· ≠ [])

def maxArgs : Nat := 10

/-- The elements of `av` that are stored: the null pointer behind the last word, too. -/
def storedAt (ac : Nat) : List (List Byte) → List Nat
  | [] => [ac]
  | _ :: words => if maxArgs ≤ ac then [ac] else ac :: storedAt (ac + 1) words

/-- What a line is for. A line with a zero byte is taken to be too long. -/
inductive Line where
  | skipped
  | tooLong
  | command (words : List (List Byte))
deriving DecidableEq

def lineOf (text : List Byte) : Line :=
  let line := text.takeWhile (· ≠ 0)
  if line = [] then .skipped
  else if line.getLast? ≠ some lineEnd then .tooLong
  else if line.head? = some (ascii '#') then .skipped
  else .command (words line)

/-- What the line asks for. `help` is no command of the table. -/
def requestOf (slots : Slots) (words : List (List Byte)) : Option Request :=
  let av := words.take maxArgs
  match av with
  | [] => some .idle
  | name :: _ =>
      if name = bytesOf "help" then some .idle
      else do
        let command ← cmds.lookup name
        command slots av

/-- What a line does. -/
structure Effect where
  stored : List Nat
  touches : List Touch
  slots : Slots
  failed : Bool

def processLine (slots : Slots) (opened : Opened) (readings : Readings) (text : List Byte) :
    Effect :=
  match lineOf text with
  | .skipped => ⟨[], [], slots, false⟩
  | .tooLong => ⟨[], [], slots, true⟩
  | .command words =>
      match requestOf slots words with
      | none => ⟨storedAt 0 words, [], slots, true⟩
      | some request =>
          ⟨storedAt 0 words, request.touches slots readings, request.after slots opened,
            request.fails slots readings opened⟩

end Lines

section Scripts

/-- The slots, and what is left of the script that is read. -/
structure Tool where
  slots : Slots
  script : List Byte

def Tool.start (script : List Byte) : Tool :=
  ⟨fun _ => Slot.zero, script⟩

/-- The system's part in a line, or the next script. -/
inductive Event where
  | line (opened : Opened) (readings : Readings)
  | script (text : List Byte)

inductive Step : Tool → Event → Tool → Prop where
  | line {tool : Tool} {text rest : List Byte} {opened : Opened} {readings : Readings}
      (read : fgets lineSize tool.script = some (text, rest)) :
      Step tool (.line opened readings)
        ⟨(processLine tool.slots opened readings text).slots, rest⟩
  | script {tool : Tool} {text : List Byte} (ended : fgets lineSize tool.script = none) :
      Step tool (.script text) { tool with script := text }

end Scripts

end Gfiber.Mmap
