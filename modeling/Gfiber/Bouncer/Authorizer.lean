import Mathlib.Data.List.AList
import Gfiber.Lib.Run
import Gfiber.Lib.Text

/-! The users that have accepted the terms of service, and the rules of the firewall that
let them through. -/

set_option autoImplicit false

namespace Gfiber.Bouncer

open Lib

section Addresses

/-- The class `[0-9A-Fa-f]`. -/
def isHexDigit (char : Char) : Bool :=
  char ∈ "0123456789abcdefABCDEF".toList

/-- `([0-9A-Fa-f]{2}:){pairs}[0-9A-Fa-f]{2}$`, where the end may come before a newline. -/
def matchesMacAddr : Nat → Text → Bool
  | 0, [high, low] => isHexDigit high && isHexDigit low
  | 0, [high, low, last] => isHexDigit high && isHexDigit low && last = '\n'
  | pairs + 1, high :: low :: colon :: rest =>
      isHexDigit high && isHexDigit low && colon = ':' && matchesMacAddr pairs rest
  | _, _ => false

def lower (text : Text) : Text :=
  text.map Char.toLower

def upper (text : Text) : Text :=
  text.map Char.toUpper

@[simp] theorem lower_nil : lower [] = [] := rfl

@[simp] theorem lower_cons (char : Char) (text : Text) :
    lower (char :: text) = char.toLower :: lower text := rfl

theorem isHexDigit_toLower {char : Char} (digit : isHexDigit char) :
    isHexDigit char.toLower ∧ char.toLower.toLower = char.toLower := by
  have all : ∀ char ∈ "0123456789abcdefABCDEF".toList,
      isHexDigit char.toLower ∧ char.toLower.toLower = char.toLower :=
    Text.forall_of_all (by decide)
  exact all char (of_decide_eq_true digit)

theorem matchesMacAddr_lower (pairs : Nat) {text : Text} (found : matchesMacAddr pairs text) :
    matchesMacAddr pairs (lower text) ∧ lower (lower text) = lower text := by
  induction pairs, text using matchesMacAddr.induct with
  | case1 high low =>
      rw [matchesMacAddr, Bool.and_eq_true] at found
      have first := isHexDigit_toLower found.1
      have second := isHexDigit_toLower found.2
      simp [matchesMacAddr, lower_cons, lower_nil, first, second]
  | case2 high low last =>
      rw [matchesMacAddr, Bool.and_eq_true, Bool.and_eq_true] at found
      have first := isHexDigit_toLower found.1.1
      have second := isHexDigit_toLower found.1.2
      have newline : last = '\n' := of_decide_eq_true found.2
      have kept : Char.toLower '\n' = '\n' := by decide
      simp [matchesMacAddr, lower_cons, lower_nil, first, second, newline, kept]
  | case3 pairs high low colon rest ih =>
      rw [matchesMacAddr, Bool.and_eq_true, Bool.and_eq_true, Bool.and_eq_true] at found
      have first := isHexDigit_toLower found.1.1.1
      have second := isHexDigit_toLower found.1.1.2
      have separator : colon = ':' := of_decide_eq_true found.1.2
      have kept : Char.toLower ':' = ':' := by decide
      obtain ⟨found, normal⟩ := ih found.2
      simp [matchesMacAddr, lower_cons, first, second, separator, kept, found, normal]
  | case4 pairs text other =>
      simp [matchesMacAddr] at found

/-- What `normalize_mac_addr` returns. -/
structure MacAddr where
  text : Text
  found : matchesMacAddr 5 text
  normal : lower text = text

instance : DecidableEq MacAddr := fun mac other =>
  decidable_of_iff (mac.text = other.text) (by cases mac; cases other; simp)

def normalizeMacAddr (maybeMacAddr : Text) : Option MacAddr :=
  if found : matchesMacAddr 5 maybeMacAddr then
    have lowered := matchesMacAddr_lower 5 found
    some ⟨lower maybeMacAddr, lowered.1, lowered.2⟩
  else none

end Addresses

section Firewall

inductive Command where
  | iptables
  | ip6tables
deriving DecidableEq, Repr

/-- The chain for the filter and the one in the table `nat`. -/
inductive Chain where
  | filter
  | nat
deriving DecidableEq, Repr

abbrev Rule := List Text

abbrev Firewall := Command → Chain → List Rule

def allowMacRule (macAddr : MacAddr) : Rule :=
  ["-m".toList, "mac".toList, "--mac-source".toList, upper macAddr.text, "-j".toList,
    "ACCEPT".toList]

inductive Operation where
  | append
  | delete
deriving DecidableEq, Repr

/-- What a command that succeeds makes of a chain. -/
def Operation.apply (operation : Operation) (rule : Rule) (rules : List Rule) : List Rule :=
  match operation with
  | .append => rules ++ [rule]
  | .delete => rules.erase rule

variable {Time : Type}

structure Options (Time : Type) where
  dryRun : Bool
  /-- `max_age * 86400`. -/
  maxAge : Time

def ip46tables (opt : Options Time) (operation : Operation) (chain : Chain) (rule : Rule)
    (firewall : Firewall) : Firewall := fun command other =>
  if opt.dryRun then firewall command other
  else if other = chain then operation.apply rule (firewall command other)
  else firewall command other

/-- The rule of an address in both chains. -/
def updateChains (opt : Options Time) (operation : Operation) (macAddr : MacAddr)
    (firewall : Firewall) : Firewall :=
  ip46tables opt operation .nat (allowMacRule macAddr)
    (ip46tables opt operation .filter (allowMacRule macAddr) firewall)

end Firewall

section Acceptance

variable {Time : Type}

/-- The fields of the server's answer that matter. -/
structure Response (Time : Type) where
  accepted : Time
  cached : Bool
deriving DecidableEq, Repr

/-- What comes of a query: an answer, an HTTP error, or an answer that cannot be used. -/
inductive Answer (Time : Type) where
  | response (object : Response Time)
  | httpError
  | malformed
deriving DecidableEq, Repr

/-- The state of the process. A checker that is polling is one of the users in progress, with
the number of its tries. -/
structure State (Time : Type) where
  knownUsers : AList fun _ : MacAddr => Response Time
  inProgressUsers : AList fun _ : MacAddr => Nat
  firewall : Firewall

def State.start : State Time :=
  ⟨∅, ∅, fun _ _ => []⟩

/-- What `accept` writes to the connection. -/
inductive Reply (Time : Type) where
  | notMacAddr
  | cached (response : Response Time)
  | answer (response : Response Time)
  | failed
deriving DecidableEq, Repr

def maxTries : Nat :=
  300

variable [Add Time] [LT Time] [DecidableLT Time]

def isValidAcceptance (opt : Options Time) (now : Time) (response : Response Time) : Bool :=
  response.accepted + opt.maxAge > now

/-- The acceptance that an answer grants. -/
def Answer.granted (opt : Options Time) (now : Time) : Answer Time → Option (Response Time)
  | .response object => if isValidAcceptance opt now object then some object else none
  | .httpError => none
  | .malformed => none

def State.grant (opt : Options Time) (macAddr : MacAddr) (response : Response Time)
    (state : State Time) : State Time :=
  { knownUsers := state.knownUsers.insert macAddr response
    inProgressUsers := state.inProgressUsers.erase macAddr
    firewall := updateChains opt .append macAddr state.firewall }

/-- A checker goes on polling until it has been refused too often. -/
def State.refuse (macAddr : MacAddr) (tries : Nat) (state : State Time) : State Time :=
  { state with
    inProgressUsers :=
      if tries > maxTries then state.inProgressUsers.erase macAddr
      else state.inProgressUsers.insert macAddr tries }

/-- An error before the end leaves no more behind than the number of tries. -/
def State.abandon (macAddr : MacAddr) (tries : Nat) (state : State Time) : State Time :=
  if macAddr ∈ state.inProgressUsers then
    { state with inProgressUsers := state.inProgressUsers.insert macAddr tries }
  else state

/-- `Checker.check`, with the number of the tries before. -/
def check (opt : Options Time) (macAddr : MacAddr) (tries : Nat) (answer : Answer Time)
    (now : Time) (state : State Time) : State Time :=
  match answer.granted opt now with
  | some response => state.grant opt macAddr response
  | none =>
      match answer with
      | .malformed => state.abandon macAddr (tries + 1)
      | _ => state.refuse macAddr (tries + 1)

/-- The acceptance of a user, when it is known and still valid. -/
def State.cached (opt : Options Time) (now : Time) (state : State Time) (macAddr : MacAddr) :
    Option (Response Time) :=
  (state.knownUsers.lookup macAddr).filter (isValidAcceptance opt now)

/-- The clock is read once for the cache, and again for what the server answers. -/
def accept (opt : Options Time) (line : Text) (now : Time) (answer : Answer Time) (later : Time)
    (state : State Time) : Reply Time × State Time :=
  match normalizeMacAddr (Text.strip line) with
  | none => (.notMacAddr, state)
  | some macAddr =>
      match state.cached opt now macAddr with
      | some response =>
          let response := { response with cached := true }
          (.cached response, { state with knownUsers := state.knownUsers.insert macAddr response })
      | none =>
          let tries := (state.inProgressUsers.lookup macAddr).getD 0
          let state := check opt macAddr tries answer later state
          match answer with
          | .response object => (.answer object, state)
          | _ => (.failed, state)

def State.expiredUsers (opt : Options Time) (now : Time) (state : State Time) : List MacAddr :=
  (state.knownUsers.entries.filter fun entry => !isValidAcceptance opt now entry.2).map Sigma.fst

def State.expireUser (opt : Options Time) (state : State Time) (macAddr : MacAddr) : State Time :=
  { state with
    knownUsers := state.knownUsers.erase macAddr
    firewall := updateChains opt .delete macAddr state.firewall }

/-- The clock is taken to stand still while the users are looked at. -/
def expireCache (opt : Options Time) (now : Time) (state : State Time) : State Time :=
  (state.expiredUsers opt now).foldl (State.expireUser opt) state

/-- What happens to the process: a connection, a poll of a user in progress, or the removal of
the users that have expired. -/
inductive Event (Time : Type) where
  | accept (line : Text) (now : Time) (answer : Answer Time) (later : Time)
  | check (macAddr : MacAddr) (answer : Answer Time) (now : Time)
  | expire (now : Time)

inductive Step (opt : Options Time) : State Time → Event Time → State Time → Prop where
  | accept {state : State Time} {line : Text} {now later : Time} {answer : Answer Time} :
      Step opt state (.accept line now answer later) (accept opt line now answer later state).2
  | check {state : State Time} {macAddr : MacAddr} {tries : Nat} {answer : Answer Time}
      {now : Time} (polling : state.inProgressUsers.lookup macAddr = some tries) :
      Step opt state (.check macAddr answer now) (check opt macAddr tries answer now state)
  | expire {state : State Time} {now : Time} :
      Step opt state (.expire now) (expireCache opt now state)

end Acceptance

end Gfiber.Bouncer
