import Gfiber.Ginstall.Install
import Gfiber.Lib.Reader

/-! The copy of a file in pieces, and the loop that reads it back. -/

set_option autoImplicit false

namespace Gfiber.Ginstall.Copy

open Lib

section Files

/-- A file as it is read: in pieces that are not empty and no longer than the buffer. -/
structure Source where
  pieces : List Text
  secureHash : Option Value
  sized : ∀ piece ∈ pieces, piece ≠ [] ∧ piece.length ≤ bufsize

namespace Source

def content (source : Source) : Text :=
  source.pieces.flatten

/-- The file as a whole. -/
def file (source : Source) : FileWithSecureHash :=
  ⟨source.content, 0, source.secureHash⟩

end Source

/-- A file that is written: whether it takes the last of the buffers, whether it can be flushed
after them, and what it then has to be read. -/
structure Destination where
  takes : List Text → Bool
  flushes : List Text → Bool
  keeps : List Text → Reader Char

end Files

section Loops

variable (sha1 : Text → Text)

/-- What `WriteToFile` has counted, hashed and written. -/
structure Written where
  total : Nat
  hashed : Text
  buffers : List Text
deriving DecidableEq, Repr

def pad (data : Text) (bufsize : Nat) : Text :=
  data ++ List.replicate (bufsize - data.length) (Char.ofNat 0xff)

def writePieces (destination : Destination) : List Text → Written → Except InstallError Written
  | [], written => .ok written
  | piece :: pieces, written =>
      let buffers := written.buffers ++ [pad piece bufsize]
      if destination.takes buffers then
        writePieces destination pieces
          ⟨written.total + piece.length, written.hashed ++ piece, buffers⟩
      else .error .ioError

def writeToFile (source : Source) (destination : Destination) : Except InstallError Written := do
  let written ← writePieces destination source.pieces ⟨0, [], []⟩
  if destination.flushes written.buffers then return written else throw .ioError

/-- Whether the bytes that are read back have the hash. Without fuel the loop is still running. -/
def matchesHash (fuel : Nat) (reader : Reader Char) (size : Nat) (hash : Text) :
    Option (Except InstallError Bool) :=
  (reader.gather bufsize fuel 0 size []).map fun
    | none => .error .ioError
    | some read => .ok (sha1 read = hash)

def copyAndVerify (fuel : Nat) (source : Source) (destination : Destination) :
    Option (Except InstallError Nat) :=
  match writeToFile source destination with
  | .error error => some (.error error)
  | .ok written =>
      if source.file.hashDiffers (sha1 written.hashed) then some (.error .writtenHash)
      else
        (matchesHash sha1 fuel (destination.keeps written.buffers) written.total
          (sha1 written.hashed)).map fun
            | .error error => .error error
            | .ok identical => if identical then .ok written.total else .error .readHash

end Loops

end Gfiber.Ginstall.Copy
