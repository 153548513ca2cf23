import Mathlib.Data.List.Sort

/-! The message queue of a thread. Any thread may post to it or clear it, also while
its owner waits for a message. What the code does under the lock of the queue is one
step, and each test of `fStop_` or `fPeekKeep_` without the lock is a step before it:
other threads may come in between. -/

set_option autoImplicit false

namespace Gfiber.Base

section Time

/-- Milliseconds in a `uint32`, which wraps around. -/
abbrev Stamp := BitVec 32

/-- What `Time()` returns when the clock of the system has come to some millisecond. -/
def stamp (clock : Nat) : Stamp :=
  BitVec.ofNat 32 clock

def timeDiff (later earlier : Stamp) : Int :=
  (later - earlier).toInt

def timeIsLater (earlier later : Stamp) : Bool :=
  let diff := later - earlier
  0 < diff.toInt && diff.toNat < 0x80000000

end Time

/-- A wait without an end. -/
def kForever : Int := -1

section Messages

variable {Handler Data : Type}

structure Message (Handler Data : Type) where
  phandler : Option Handler
  messageId : BitVec 32
  pdata : Option Data
deriving DecidableEq, Repr

def mqidAny : BitVec 32 := -1

def mqidDispose : BitVec 32 := -2

def Message.isMatch [DecidableEq Handler] (handler : Option Handler) (id : BitVec 32)
    (msg : Message Handler Data) : Bool :=
  (handler = none || handler = msg.phandler) && (id = mqidAny || id = msg.messageId)

/-- `due` is for the statements only: the millisecond of the clock, before it wraps,
when a delay is over, none for a time stamp that the caller gave. -/
structure DelayedMessage (Handler Data : Type) where
  msTrigger : Stamp
  num : BitVec 32
  msg : Message Handler Data
  due : Option Nat
deriving DecidableEq, Repr

/-- `operator<`: the message that is due first is the greatest. -/
def DelayedMessage.less (left right : DelayedMessage Handler Data) : Bool :=
  right.msTrigger < left.msTrigger ||
    right.msTrigger = left.msTrigger && right.num < left.num

/-- The priority queue, from its top on. -/
def pushDelayed (dmsg : DelayedMessage Handler Data) (dmsgq : List (DelayedMessage Handler Data)) :
    List (DelayedMessage Handler Data) :=
  dmsgq.orderedInsert (fun left right => ¬left.less right) dmsg

structure MessageQueue (Handler Data : Type) where
  fStop : Bool := false
  /-- `msgPeek_`, where `fPeekKeep_` is set. -/
  msgPeek : Option (Message Handler Data) := none
  msgq : List (Message Handler Data) := []
  dmsgq : List (DelayedMessage Handler Data) := []
  dmsgqNextNum : BitVec 32 := 0
deriving DecidableEq, Repr

/-- A call of `Post`, or of `DoDelayPost` with its trigger, that has not returned.
`tested` is set when it has found the queue running. -/
structure Posting (Handler Data : Type) where
  msg : Message Handler Data
  trigger : Option (Stamp × Option Nat)
  tested : Bool := false
deriving DecidableEq, Repr

/-- Messages that a step moves: taken in, put behind the others, returned by `Get`,
deleted unseen, and taken out by a `Clear`. -/
structure Flow (Handler Data : Type) where
  accepted : List (Message Handler Data) := []
  arrived : List (Message Handler Data) := []
  returned : List (Message Handler Data) := []
  disposed : List (Message Handler Data) := []
  removed : List (Message Handler Data) := []
deriving DecidableEq, Repr

namespace MessageQueue

variable (queue : MessageQueue Handler Data)

/-- The part of `Post` under the lock. -/
def post (msg : Message Handler Data) : MessageQueue Handler Data × Flow Handler Data :=
  ({ queue with msgq := queue.msgq ++ [msg] }, { accepted := [msg], arrived := [msg] })

/-- The part of `DoDelayPost` under the lock. -/
def doDelayPost (tstamp : Stamp) (due : Option Nat) (msg : Message Handler Data) :
    MessageQueue Handler Data × Flow Handler Data :=
  ({ queue with
      dmsgq := pushDelayed ⟨tstamp, queue.dmsgqNextNum, msg, due⟩ queue.dmsgq
      dmsgqNextNum := queue.dmsgqNextNum + 1 },
    { accepted := [msg] })

def push (posting : Posting Handler Data) : MessageQueue Handler Data × Flow Handler Data :=
  match posting.trigger with
  | none => queue.post posting.msg
  | some (tstamp, due) => queue.doDelayPost tstamp due posting.msg

def clear [DecidableEq Handler] (handler : Option Handler) (id : BitVec 32) :
    MessageQueue Handler Data × Flow Handler Data :=
  let isMatch := Message.isMatch handler id
  ({ queue with
      msgPeek := queue.msgPeek.filter fun msg => !isMatch msg
      msgq := queue.msgq.filter fun msg => !isMatch msg
      dmsgq := queue.dmsgq.filter fun dmsg => !isMatch dmsg.msg },
    { removed := (queue.msgPeek.filter isMatch).toList ++ queue.msgq.filter isMatch ++
        (queue.dmsgq.map (·.msg)).filter isMatch })

/-- The delayed messages that a scan at a time finds due, up to the first other one. -/
def triggered (msCurrent : Stamp) : List (DelayedMessage Handler Data) :=
  queue.dmsgq.takeWhile fun dmsg => !timeIsLater msCurrent dmsg.msTrigger

def untriggered (msCurrent : Stamp) : List (DelayedMessage Handler Data) :=
  queue.dmsgq.dropWhile fun dmsg => !timeIsLater msCurrent dmsg.msTrigger

/-- The time to the next trigger, after a scan. -/
def cmsDelayNext (msCurrent : Stamp) : Int :=
  match queue.dmsgq with
  | [] => kForever
  | top :: _ => timeDiff top.msTrigger msCurrent

/-- What the loop over the posted messages takes from their front: those that it
deletes, then one to return. -/
def takePosted : List (Message Handler Data) →
    List (Message Handler Data) × Option (Message Handler Data) × List (Message Handler Data)
  | [] => ([], none, [])
  | msg :: rest =>
      if mqidDispose = msg.messageId then
        let (disposed, found, rest) := takePosted rest
        (msg :: disposed, found, rest)
      else ([], some msg, rest)

/-- The part of the loop of `Get` under the lock. -/
def scan (msCurrent : Stamp) :
    Option (Message Handler Data) × MessageQueue Handler Data × Flow Handler Data :=
  let due := (queue.triggered msCurrent).map (·.msg)
  let (disposed, found, rest) := takePosted (queue.msgq ++ due)
  (found, { queue with msgq := rest, dmsgq := queue.untriggered msCurrent },
    { arrived := due, disposed })

end MessageQueue

/-- A call of `Get`, by a caller or by `Peek`, that has not returned, with the clock
at its calls of `Time()`. -/
structure Call where
  peeking : Bool
  cmsWait : Int
  msStart : Nat
  msCurrent : Nat
  cmsElapsed : Int
deriving DecidableEq, Repr

def Call.cmsNext (call : Call) (cmsDelayNext : Int) : Int :=
  if call.cmsWait = kForever then cmsDelayNext
  else
    let cmsNext := max 0 (call.cmsWait - call.cmsElapsed)
    if cmsDelayNext ≠ kForever ∧ cmsDelayNext < cmsNext then cmsDelayNext else cmsNext

/-- Where the owner of the queue is: outside its calls, before it takes a message that
it found kept, before a scan, before the test that follows a scan without a message, in
a wait, or before it keeps what it found for `Peek`. -/
inductive Receiver (Handler Data : Type) where
  | idle
  | taking (msg : Message Handler Data)
  | scanning (call : Call)
  | testing (call : Call) (cmsDelayNext : Int)
  | waiting (call : Call) (cmsNext : Int)
  | keeping (msg : Message Handler Data)
deriving DecidableEq, Repr

/-- A queue, its owner, the calls that post to it, and the milliseconds of the clock,
before they wrap. -/
structure Mailbox (Handler Data : Type) where
  queue : MessageQueue Handler Data := {}
  receiver : Receiver Handler Data := .idle
  posting : List (Posting Handler Data) := []
  clock : Nat
deriving DecidableEq, Repr

inductive QueueAction (Handler Data : Type) where
  | elapse (ms : Nat)
  | post (msg : Message Handler Data)
  | postDelayed (cmsDelay : BitVec 32) (msg : Message Handler Data)
  | postAt (tstamp : Stamp) (msg : Message Handler Data)
  /-- A call that posts tests `fStop_`. -/
  | accept (index : Nat)
  | push (index : Nat)
  | clear (handler : Option Handler) (id : BitVec 32)
  | quit
  | restart
  | peek (cmsWait : Int)
  | get (cmsWait : Int)
  /-- `Get` copies the kept message, which only the owner writes, and returns it. -/
  | take
  | scan
  /-- `Get` tests `fStop_`. -/
  | test
  | keep
  /-- `Wait` returns, after a signal or in time, or it fails. -/
  | wake (ok : Bool)
deriving DecidableEq, Repr

namespace Mailbox

variable (mailbox : Mailbox Handler Data)

def change (result : MessageQueue Handler Data × Flow Handler Data) :
    Mailbox Handler Data × Flow Handler Data :=
  ({ mailbox with queue := result.1 }, result.2)

def enter (peeking : Bool) (cmsWait : Int) : Mailbox Handler Data :=
  { mailbox with receiver := .scanning ⟨peeking, cmsWait, mailbox.clock, mailbox.clock, 0⟩ }

def call (msg : Message Handler Data) (trigger : Option (Stamp × Option Nat)) :
    Mailbox Handler Data :=
  { mailbox with posting := mailbox.posting ++ [⟨msg, trigger, false⟩] }

/-- Calls that post, from their start to their test of `fStop_` and their push, and the
calls of the other threads. -/
def stepOther [DecidableEq Handler] : QueueAction Handler Data →
    Option (Mailbox Handler Data × Flow Handler Data)
  | .elapse ms => some ({ mailbox with clock := mailbox.clock + ms }, {})
  | .post msg => some (mailbox.call msg none, {})
  | .postDelayed cmsDelay msg =>
      let trigger := (stamp mailbox.clock + cmsDelay, some (mailbox.clock + cmsDelay.toNat))
      some (mailbox.call msg (some trigger), {})
  | .postAt tstamp msg => some (mailbox.call msg (some (tstamp, none)), {})
  | .accept index =>
      match mailbox.posting[index]? with
      | some posting =>
          if mailbox.queue.fStop then
            some ({ mailbox with posting := mailbox.posting.eraseIdx index }, {})
          else
            let posting := { posting with tested := true }
            some ({ mailbox with posting := mailbox.posting.set index posting }, {})
      | none => none
  | .push index =>
      match mailbox.posting[index]? with
      | some posting =>
          if posting.tested then
            some ({ mailbox with posting := mailbox.posting.eraseIdx index }.change
              (mailbox.queue.push posting))
          else none
      | none => none
  | .clear handler id => some (mailbox.change (mailbox.queue.clear handler id))
  | .quit => some ({ mailbox with queue := { mailbox.queue with fStop := true } }, {})
  | .restart => some ({ mailbox with queue := { mailbox.queue with fStop := false } }, {})
  | _ => none

/-- The calls of the owner. A `Peek` that finds a kept message copies it and changes
nothing. -/
def stepOwner (action : QueueAction Handler Data) :
    Option (Mailbox Handler Data × Flow Handler Data) :=
  match action, mailbox.receiver with
  | .peek cmsWait, .idle =>
      match mailbox.queue.msgPeek with
      | some _ => some (mailbox, {})
      | none => some (mailbox.enter true cmsWait, {})
  | .get cmsWait, .idle =>
      match mailbox.queue.msgPeek with
      | some msg => some ({ mailbox with receiver := .taking msg }, {})
      | none => some (mailbox.enter false cmsWait, {})
  | .take, .taking msg =>
      some ({ mailbox with queue := { mailbox.queue with msgPeek := none }, receiver := .idle },
        { returned := [msg] })
  | .scan, .scanning call =>
      let (found, queue, flow) := mailbox.queue.scan (stamp call.msCurrent)
      match found with
      | some msg =>
          if call.peeking then some ({ mailbox with queue, receiver := .keeping msg }, flow)
          else some ({ mailbox with queue, receiver := .idle }, { flow with returned := [msg] })
      | none =>
          let cmsDelayNext := queue.cmsDelayNext (stamp call.msCurrent)
          some ({ mailbox with queue, receiver := .testing call cmsDelayNext }, flow)
  | .test, .testing call cmsDelayNext =>
      if mailbox.queue.fStop then some ({ mailbox with receiver := .idle }, {})
      else some ({ mailbox with receiver := .waiting call (call.cmsNext cmsDelayNext) }, {})
  | .keep, .keeping msg =>
      some ({ mailbox with queue := { mailbox.queue with msgPeek := some msg }, receiver := .idle },
        {})
  | .wake ok, .waiting call _ =>
      let msCurrent := mailbox.clock
      let cmsElapsed := timeDiff (stamp msCurrent) (stamp call.msStart)
      if !ok then some ({ mailbox with receiver := .idle }, {})
      else if call.cmsWait ≠ kForever ∧ call.cmsWait ≤ cmsElapsed then
        some ({ mailbox with receiver := .idle }, {})
      else
        some ({ mailbox with receiver := .scanning { call with msCurrent, cmsElapsed } }, {})
  | _, _ => none

def step [DecidableEq Handler] (action : QueueAction Handler Data) :
    Option (Mailbox Handler Data × Flow Handler Data) :=
  (mailbox.stepOther action).or (mailbox.stepOwner action)

end Mailbox

end Messages

end Gfiber.Base
