import Gfiber.Lib.Json
import Gfiber.Bouncer.Authorizer

/-! The checkers as objects with their timers, and the exceptions of a check. -/

set_option autoImplicit false

namespace Gfiber.Bouncer.Polling

open Lib

section Checkers

/-- The attribute `callback`: none yet, or a periodic callback. -/
inductive Callback where
  | absent
  | running
  | stopped
deriving DecidableEq, Repr

structure Checker where
  macAddr : MacAddr
  tries : Nat
  callback : Callback

def Checker.init (macAddr : MacAddr) : Checker :=
  ⟨macAddr, 0, .absent⟩

def Checker.stop (checker : Checker) : Checker :=
  match checker.callback with
  | .absent => checker
  | _ => { checker with callback := .stopped }

/-- A callback that has been stopped is not started again. -/
def Checker.poll (checker : Checker) : Checker :=
  match checker.callback with
  | .absent => { checker with callback := .running }
  | _ => checker

end Checkers

section Queries

variable {Time : Type} (time : Number → Time)

/-- What comes of a query: an HTTP error, or the object that the body decodes to. -/
inductive Outcome where
  | httpError
  | object (entries : List (List Nat × Json))

def key (text : String) : List Nat :=
  text.toList.map Char.toNat

def flag : Option Json → Bool
  | some (.number (.bool value)) => value
  | _ => false

/-- Only a number can be added to the age of an acceptance. -/
def Outcome.answer : Outcome → Answer Time
  | .httpError => .httpError
  | .object entries =>
      match entries.lookup (key "accepted") with
      | some (.number accepted) => .response ⟨time accepted, flag (entries.lookup (key "cached"))⟩
      | _ => .malformed

inductive Error where
  /-- `TypeError` of the addition in `is_valid_acceptance` -/
  | type
  /-- `UnboundLocalError: local variable 'response' referenced before assignment` -/
  | unboundLocal
deriving DecidableEq, Repr

/-- What `check` returns or raises: `response` is not assigned after an HTTP error. -/
def response : Answer Time → Except Error (Response Time)
  | .response object => .ok object
  | .httpError => .error .unboundLocal
  | .malformed => .error .type

end Queries

section Process

variable {Time : Type}

/-- The state of the process, with the checkers by the number of their making. -/
structure Process (Time : Type) where
  knownUsers : AList fun _ : MacAddr => Response Time
  inProgressUsers : AList fun _ : MacAddr => Nat
  checkers : List Checker
  firewall : Firewall

namespace Process

def start : Process Time :=
  ⟨∅, ∅, [], fun _ _ => []⟩

def allow (opt : Options Time) (macAddr : MacAddr) (response : Response Time)
    (process : Process Time) : Process Time :=
  { process with
    knownUsers := process.knownUsers.insert macAddr response
    firewall := updateChains opt .append macAddr process.firewall }

def finish (id : Nat) (checker : Checker) (process : Process Time) : Process Time :=
  { process with
    checkers := process.checkers.set id checker.stop
    inProgressUsers := process.inProgressUsers.erase checker.macAddr }

def proceed (id : Nat) (checker : Checker) (process : Process Time) : Process Time :=
  { process with
    checkers := process.checkers.set id checker.poll
    inProgressUsers := process.inProgressUsers.insert checker.macAddr id }

variable [Add Time] [LT Time] [DecidableLT Time]

/-- `Checker.check` of a checker, that has counted its try already. -/
def settle (opt : Options Time) (id : Nat) (checker : Checker) (answer : Answer Time) (now : Time)
    (process : Process Time) : Process Time :=
  match answer with
  | .malformed => { process with checkers := process.checkers.set id checker }
  | answer =>
      match answer.granted opt now with
      | some response => (process.allow opt checker.macAddr response).finish id checker
      | none =>
          if checker.tries > maxTries then process.finish id checker
          else process.proceed id checker

def check (opt : Options Time) (id : Nat) (answer : Answer Time) (now : Time)
    (process : Process Time) : Process Time :=
  match process.checkers[id]? with
  | none => process
  | some checker =>
      process.settle opt id { checker with tries := checker.tries + 1 } answer now

def cached (opt : Options Time) (now : Time) (process : Process Time) (macAddr : MacAddr) :
    Option (Response Time) :=
  (process.knownUsers.lookup macAddr).filter (isValidAcceptance opt now)

/-- The checker of a user in progress, or a new one. -/
def checkerFor (macAddr : MacAddr) (process : Process Time) : Nat × Process Time :=
  match process.inProgressUsers.lookup macAddr with
  | some id => (id, process)
  | none =>
      (process.checkers.length,
        { process with checkers := process.checkers ++ [Checker.init macAddr] })

/-- The clock is read once for the cache, and again for what the server answers. -/
def accept (opt : Options Time) (line : Text) (now : Time) (answer : Answer Time) (later : Time)
    (process : Process Time) : Except Error (Reply Time) × Process Time :=
  match normalizeMacAddr (Text.strip line) with
  | none => (.ok .notMacAddr, process)
  | some macAddr =>
      match process.cached opt now macAddr with
      | some response =>
          let response := { response with cached := true }
          (.ok (.cached response),
            { process with knownUsers := process.knownUsers.insert macAddr response })
      | none =>
          let (id, process) := process.checkerFor macAddr
          ((response answer).map .answer, process.check opt id answer later)

end Process

/-- A connection, or a check by the timer of a checker. -/
inductive Event (Time : Type) where
  | accept (line : Text) (now : Time) (outcome : Outcome) (later : Time)
  | check (id : Nat) (outcome : Outcome) (now : Time)

variable [Add Time] [LT Time] [DecidableLT Time]

/-- A timer that runs is the timer of a checker. -/
def Process.Polls (id : Nat) (macAddr : MacAddr) (process : Process Time) : Prop :=
  ∃ checker, process.checkers[id]? = some checker ∧ checker.macAddr = macAddr ∧
    checker.callback = .running

inductive Step (opt : Options Time) (time : Number → Time) :
    Process Time → Event Time → Process Time → Prop where
  | accept {process : Process Time} {line : Text} {now later : Time} {outcome : Outcome} :
      Step opt time process (.accept line now outcome later)
        (process.accept opt line now (outcome.answer time) later).2
  | check {process : Process Time} {id : Nat} {macAddr : MacAddr} {outcome : Outcome} {now : Time}
      (polls : process.Polls id macAddr) :
      Step opt time process (.check id outcome now)
        (process.check opt id (outcome.answer time) now)

/-- What an event returns or raises. -/
def Event.result (opt : Options Time) (time : Number → Time) (process : Process Time) :
    Event Time → Except Error Unit
  | .accept line now outcome later =>
      (process.accept opt line now (outcome.answer time) later).1.map fun _ => ()
  | .check _ outcome _ => (response (outcome.answer time)).map fun _ => ()

end Process

end Gfiber.Bouncer.Polling
