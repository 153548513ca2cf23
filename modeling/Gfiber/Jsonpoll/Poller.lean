import Gfiber.Lib.Exec
import Gfiber.Lib.Iteration
import Gfiber.Lib.Json

/-! Requests for statistics, each of which is written to a file of its own. -/

set_option autoImplicit false

namespace Gfiber.Jsonpoll

open Lib

section Requests

/-- `api/modem` and `api/radio`. -/
inductive Path where
  | modem
  | radio
deriving DecidableEq, Repr

/-- What comes of a request: `socket.timeout`, `URLError`, any other exception, or a body with a
value in it unless it is not JSON. -/
inductive Reply where
  | timeout
  | urlError
  | raises
  | body (json : Option Json)

inductive PollError where
  | attributeError
  | unicodeEncodeError
  | other
deriving DecidableEq, Repr

/-- What `str` and the standard error take. -/
def allAscii (text : List Nat) : Bool :=
  text.all (· < 128)

/-- A line for a value, `name=str(value)`. -/
structure Line where
  name : List Nat
  value : Json

/-- Of anything but a text, `str(v)` is ASCII. -/
def strRaises : Json → Bool
  | .str text => !allAscii text
  | _ => false

/-- Nothing but a dictionary has `items`. -/
def flatObject (base : List Nat) : Json → List Line → Except PollError (List Line)
  | .dict entries, out => flatItems base entries out
  | _, _ => .error .attributeError
where
  flatItems (base : List Nat) :
      List (List Nat × Json) → List Line → Except PollError (List Line)
    | [], out => .ok out
    | (key, value) :: entries, out => do
        let name := base ++ 47 :: key
        let out ←
          if value.isDict then flatObject name value out
          else if strRaises value then .error .unicodeEncodeError
          else .ok (out ++ [⟨name, value⟩])
        flatItems base entries out

/-- What comes of writing the lines, and those that have been written. -/
def writeLines : List Line → Except PollError Unit × List Line
  | [] => (.ok (), [])
  | line :: lines =>
      if allAscii line.name then ((writeLines lines).1, line :: (writeLines lines).2)
      else (.error .unicodeEncodeError, [])

/-- All of a value is flattened before a line is written. -/
def writeJson (response : Json) : Except PollError Unit × List Line :=
  match flatObject [] response [] with
  | .ok lines => writeLines lines
  | .error error => (.error error, [])

def writeToStderr (response : Json) : Except PollError Unit :=
  (writeJson response).1

/-- The exception of the parser is passed for `is_json`, so that its message is taken for JSON. -/
def parseJSONFromResponse : Option Json → Except PollError Json
  | some json => .ok json
  | none => .error .attributeError

def getHttpResponse : Reply → Except PollError (Option Json)
  | .timeout => .ok none
  | .urlError => .ok none
  | .raises => .error .other
  | .body json => do
      let response ← parseJSONFromResponse json
      match response with
      | .null => return none
      | response =>
          writeToStderr response
          return some response

end Requests

section Passes

/-- How far the operations on files come when they are reached. -/
inductive FileOps where
  | done
  | noDirectory
  | renameFails
  | raises
deriving DecidableEq, Repr

/-- The last response of either path, and what is in the two output files. -/
structure Poller where
  lastResponse : Option Json
  outputs : Path → Option Json

def Poller.write (poller : Poller) (path : Path) (response : Json) : Poller :=
  { poller with outputs := fun other => if other = path then some response else poller.outputs other }

/-- `self.last_response == response`. -/
def Poller.unchanged (poller : Poller) (response : Json) : Bool :=
  poller.lastResponse.any fun last => last.equal response

/-- The replies and the fates of the operations in one pass, and the order of the paths. -/
structure Pass where
  reply : Path → Reply
  files : Path → FileOps
  order : IterationOrder Path

def Pass.paths (pass : Pass) : List Path :=
  pass.order.arrange [.modem, .radio]

/-- A response is remembered before it is written. -/
def storeResponse (pass : Pass) (path : Path) (response : Json) : Exec Poller PollError Unit := do
  .modify fun poller => { poller with lastResponse := some response }
  match pass.files path with
  | .done => .modify fun poller => poller.write path response
  | .noDirectory => return
  | .renameFails => return
  | .raises => .raise .other

def requestPath (pass : Pass) (path : Path) : Exec Poller PollError Unit := do
  match ← .ofExcept (getHttpResponse (pass.reply path)) with
  | none => return
  | some response =>
      let poller ← Exec.get
      if response.truthy = false then return
      else if poller.unchanged response then return
      else storeResponse pass path response

def requestPaths (pass : Pass) : List Path → Exec Poller PollError Unit :=
  Exec.loop (fun _ path => requestPath pass path) ()

def requestStats (pass : Pass) : Exec Poller PollError Unit :=
  requestPaths pass pass.paths

end Passes

end Gfiber.Jsonpoll
