import Mathlib.Data.Finset.Card
import Mathlib.Data.Rat.Init
import Mathlib.Algebra.Order.Ring.Unbundled.Rat
import Gfiber.Stun.Codec

/-! The lookup of our own addresses: requests to the servers and their replies. -/

set_option autoImplicit false

namespace Gfiber.Stun

open Lib

def bindRequest : Nat := 0x0001

def bindSuccess : Nat := 0x0101

/-- What `os.urandom(12)` returns. -/
abbrev TransactionId : Type :=
  { id : List Byte // id.length = 12 }

section Errors

/-- Whether an error is a `ParseError`. -/
def Error.isParseError : Error → Bool
  | .tooShort _ => true
  | .cookie _ => true
  | .lengthField _ _ => true
  | .transactionId _ => false
  | .struct => false
  | .family _ => false
  | .address => false

inductive LookupError where
  | codec (error : Error)
  /-- `TimeoutError: no servers responded` -/
  | timeout
deriving DecidableEq, Repr

/-- The exceptions that the docstring of `Lookup` lists. -/
def LookupError.isDocumented : LookupError → Bool
  | .codec error => error.isParseError
  | .timeout => true

end Errors

section Lookup

variable {Server Name : Type} [DecidableEq Server] [DecidableEq Name]

/-- The arguments of a lookup with what it draws at its start. -/
structure Query (Server : Type) where
  addrs : List Server
  endTime : ℚ
  transactionId : TransactionId

structure State (Server Name : Type) where
  waiting : Finset Server
  out : Finset (Decoded Name)
  step : Nat
  now : ℚ
  nextTime : ℚ
  /-- The requests, with the servers that each was sent to. -/
  sent : List (List Byte × Finset Server)

/-- What happens in one pass of the loop: the datagram that comes before `select` times out, and the
clock at the end. -/
structure Pass (Server : Type) where
  datagram : Option (Server × List Byte)
  now : ℚ

inductive Outcome (Server Name : Type) where
  | running (state : State Server Name)
  | returned (out : Finset (Decoded Name))
  | raised (error : LookupError)

def State.start (query : Query Server) (now : ℚ) : State Server Name where
  waiting := query.addrs.toFinset
  out := ∅
  step := 0
  now := now
  nextTime := now
  sent := []

def State.request (query : Query Server) (pkt : List Byte) (state : State Server Name) :
    State Server Name :=
  if state.nextTime ≤ state.now then
    { state with
      sent := (pkt, state.waiting) :: state.sent
      nextTime := min query.endTime (state.now + 1 / 2 * 2 ^ state.step)
      step := state.step + 1 }
  else state

def State.add (raddr : Server) (state : State Server Name) (rattr : Nat × Decoded Name) :
    State Server Name :=
  if rattr.1 = attrMappedAddress then
    { state with
      out := insert rattr.2 state.out
      waiting := state.waiting.erase raddr }
  else state

variable (inetNtop : Address → Name)

/-- A datagram from a server whose answer is awaited. -/
def State.reply (query : Query Server) (raddr : Server) (rpkt : List Byte)
    (state : State Server Name) : Except Error (State Server Name) := do
  let (rtype, rtransactionId, rattrs) ← decode inetNtop rpkt
  if rtype ≠ bindSuccess then return state
  else if rtransactionId ≠ query.transactionId then return state
  else return rattrs.foldl (State.add raddr) state

def State.finish (state : State Server Name) : Outcome Server Name :=
  if state.out = ∅ then .raised .timeout else .returned state.out

def maxDatagram : Nat := 4096

/-- The loop, over the passes it comes to. -/
def State.loop (query : Query Server) (pkt : List Byte) (state : State Server Name)
    (passes : List (Pass Server)) : Outcome Server Name :=
  if state.now < query.endTime then
    match passes with
    | [] => .running state
    | pass :: passes =>
        let state := state.request query pkt
        match pass.datagram with
        | none =>
            -- 2/3 of the servers ought to be enough
            if state.waiting.card ≤ query.addrs.length / 3 then state.finish
            else { state with now := pass.now }.loop query pkt passes
        | some (raddr, datagram) =>
            if raddr ∉ state.waiting then { state with now := pass.now }.loop query pkt passes
            else
              match state.reply inetNtop query raddr (datagram.take maxDatagram) with
              | .error error => .raised (.codec error)
              | .ok state => { state with now := pass.now }.loop query pkt passes
  else state.finish

def lookup (query : Query Server) (now : ℚ) (passes : List (Pass Server)) : Outcome Server Name :=
  match encode bindRequest query.transactionId [] with
  | .error error => .raised (.codec error)
  | .ok pkt => (State.start query now).loop inetNtop query pkt passes

end Lookup

end Gfiber.Stun
