import Mathlib.Algebra.Order.Group.Multiset
import Mathlib.Data.List.TakeWhile
import Mathlib.Data.Prod.Lex
import Mathlib.Tactic.Abel
import Gfiber.Lib.Run
import Gfiber.Base.MessageQueue

/-! What becomes of the messages of a queue in runs of its owner and of other threads,
in any interleaving, and when its delayed messages come out. -/

set_option autoImplicit false

namespace Gfiber.Base

open Lib

variable {Handler Data : Type}

namespace DelayedMessage

/-- The order of the queue: by trigger, then by number. -/
def key (dmsg : DelayedMessage Handler Data) : Nat ×ₗ Nat :=
  toLex (dmsg.msTrigger.toNat, dmsg.num.toNat)

theorem not_less_iff {left right : DelayedMessage Handler Data} :
    ¬left.less right ↔ left.key ≤ right.key := by
  simp only [less, key, Prod.Lex.toLex_le_toLex, Bool.or_eq_true, Bool.and_eq_true,
    decide_eq_true_iff, BitVec.lt_def, ← BitVec.toNat_inj]
  omega

instance : Std.Total fun left right : DelayedMessage Handler Data => ¬left.less right where
  total left right := by
    simp only [not_less_iff]
    exact le_total left.key right.key

instance : IsTrans (DelayedMessage Handler Data) fun left right => ¬left.less right where
  trans left middle right first second := by
    rw [not_less_iff] at first second ⊢
    exact first.trans second

end DelayedMessage

namespace MessageQueue

theorem takePosted_eq {posted disposed rest : List (Message Handler Data)}
    {found : Option (Message Handler Data)} (taken : takePosted posted = (disposed, found, rest)) :
    posted = disposed ++ found.toList ++ rest ∧
      (∀ msg ∈ disposed, msg.messageId = mqidDispose) ∧
      (∀ msg ∈ found, msg.messageId ≠ mqidDispose) ∧ (found = none → rest = []) := by
  induction posted generalizing disposed found rest with
  | nil =>
      cases taken
      simp
  | cons msg posted ih =>
      unfold takePosted at taken
      split at taken
      case isTrue dispose =>
        rcases further : takePosted posted with ⟨disposed', found', rest'⟩
        rw [further] at taken
        cases taken
        obtain ⟨whole, deleted, other, all⟩ := ih further
        refine ⟨congrArg (List.cons msg) whole, ?_, other, all⟩
        exact List.forall_mem_cons.mpr ⟨dispose.symm, deleted⟩
      case isFalse keep =>
        cases taken
        refine ⟨rfl, by simp, ?_, by simp⟩
        rintro _ ⟨⟩
        exact Ne.symm keep

theorem triggered_append (queue : MessageQueue Handler Data) (msCurrent : Stamp) :
    queue.dmsgq = queue.triggered msCurrent ++ queue.untriggered msCurrent :=
  List.takeWhile_append_dropWhile.symm

end MessageQueue

/-- The messages that no one has got yet: one in the hand of the owner, or kept for it,
those posted, and the delayed ones. -/
structure Stock (Handler Data : Type) where
  hand : List (Message Handler Data)
  posted : List (Message Handler Data)
  delayed : List (DelayedMessage Handler Data)

namespace Stock

def held (stock : Stock Handler Data) : List (Message Handler Data) :=
  stock.hand ++ stock.posted ++ stock.delayed.map (·.msg)

/-- The messages that `Get` will return, in their order. -/
def lineup (stock : Stock Handler Data) : List (Message Handler Data) :=
  stock.hand ++ stock.posted.filter fun msg => msg.messageId ≠ mqidDispose

/-- What a step can do to the messages. One that a `Clear` takes out while `Get` returns
it is overtaken: it stays in the hand. -/
inductive Effect [DecidableEq Handler] (stock : Stock Handler Data) :
    List (Message Handler Data) → Flow Handler Data → Stock Handler Data → Prop where
  | quiet : Effect stock [] {} stock
  | post (msg : Message Handler Data) :
      Effect stock [] { accepted := [msg], arrived := [msg] }
        { stock with posted := stock.posted ++ [msg] }
  | delayPost (dmsg : DelayedMessage Handler Data) :
      Effect stock [] { accepted := [dmsg.msg] }
        { stock with delayed := pushDelayed dmsg stock.delayed }
  | clear (handler : Option Handler) (id : BitVec 32) {overtaken removed hand}
      (parts : (stock.hand ++ overtaken).Perm (removed ++ hand))
      (less : hand.Sublist stock.hand) (same : removed = [] → hand = stock.hand) :
      Effect stock overtaken
        { removed := removed ++ stock.posted.filter (Message.isMatch handler id) ++
            (stock.delayed.map (·.msg)).filter (Message.isMatch handler id) }
        { hand
          posted := stock.posted.filter fun msg => !Message.isMatch handler id msg
          delayed := stock.delayed.filter fun dmsg => !Message.isMatch handler id dmsg.msg }
  | hand (msg : Message Handler Data) (held : stock.hand = [msg]) :
      Effect stock [] { returned := [msg] } { stock with hand := [] }
  | scan {due delayed : List (DelayedMessage Handler Data)} {disposed rest found kept returned}
      (split : stock.delayed = due ++ delayed) (fresh : stock.hand = [])
      (taken : MessageQueue.takePosted (stock.posted ++ due.map (·.msg)) = (disposed, found, rest))
      (goes : kept = none ∧ returned = found ∨ kept = found ∧ returned = none) :
      Effect stock [] { arrived := due.map (·.msg), disposed, returned := returned.toList }
        { hand := kept.toList, posted := rest, delayed }

theorem filter_delayed (test : Message Handler Data → Bool)
    (delayed : List (DelayedMessage Handler Data)) :
    (delayed.filter fun dmsg => test dmsg.msg).map (·.msg) = (delayed.map (·.msg)).filter test := by
  rw [List.filter_map]
  rfl

theorem sublist_of_eq {line behind removed : List (Message Handler Data)} (same : line = behind) :
    line.Sublist behind ∧ (removed = [] → line = behind) :=
  ⟨same ▸ List.Sublist.refl _, fun _ => same⟩

section Effects

variable [DecidableEq Handler] {stock after : Stock Handler Data} {flow : Flow Handler Data}
  {overtaken : List (Message Handler Data)}

/-- No message is lost, and one is got twice only where it was overtaken. -/
theorem Effect.conserves (effect : stock.Effect overtaken flow after) :
    (flow.accepted ++ stock.held ++ overtaken).Perm
      (flow.returned ++ flow.disposed ++ flow.removed ++ after.held) := by
  cases effect with
  | quiet => simp
  | post msg =>
      rw [← Multiset.coe_eq_coe]
      simp only [held, ← Multiset.coe_add, Multiset.coe_nil]
      abel
  | delayPost dmsg =>
      have pushed := (List.perm_orderedInsert (fun left right => ¬left.less right)
        dmsg stock.delayed).map (·.msg)
      rw [List.map_cons, ← List.singleton_append, ← Multiset.coe_eq_coe, ← Multiset.coe_add] at pushed
      rw [← Multiset.coe_eq_coe]
      simp only [held, pushDelayed, ← Multiset.coe_add, Multiset.coe_nil, pushed]
      abel
  | @clear handler id _ removed hand parts =>
      have posted := List.filter_append_perm (Message.isMatch handler id) stock.posted
      have delayed := List.filter_append_perm (Message.isMatch handler id)
        (stock.delayed.map (·.msg))
      rw [← Multiset.coe_eq_coe, ← Multiset.coe_add, ← Multiset.coe_add] at parts
      rw [← Multiset.coe_eq_coe, ← Multiset.coe_add] at posted delayed
      rw [← Multiset.coe_eq_coe]
      simp only [held, filter_delayed (fun msg => !Message.isMatch handler id msg),
        ← Multiset.coe_add, Multiset.coe_nil]
      rw [← posted, ← delayed]
      calc _ = ((stock.hand : Multiset (Message Handler Data)) + overtaken) +
            (↑(stock.posted.filter (Message.isMatch handler id)) +
              ↑(stock.posted.filter fun msg => !Message.isMatch handler id msg)) +
            (↑((stock.delayed.map (·.msg)).filter (Message.isMatch handler id)) +
              ↑((stock.delayed.map (·.msg)).filter fun msg => !Message.isMatch handler id msg)) := by
            abel
        _ = _ := by
            rw [parts]
            abel
  | hand msg kept => simp [held, kept]
  | @scan due delayed disposed rest found kept returned split fresh taken goes =>
      have parts := congrArg ((↑) : _ → Multiset (Message Handler Data))
        (MessageQueue.takePosted_eq taken).1
      simp only [← Multiset.coe_add] at parts
      have found' : (kept.toList : Multiset (Message Handler Data)) + returned.toList =
          found.toList := by
        rcases goes with ⟨rfl, rfl⟩ | ⟨rfl, rfl⟩ <;> simp
      rw [← Multiset.coe_eq_coe]
      simp only [held, split, fresh, List.map_append, ← Multiset.coe_add, Multiset.coe_nil]
      calc _ = (↑stock.posted + ↑(due.map (·.msg))) +
            (↑(delayed.map (·.msg)) : Multiset (Message Handler Data)) := by abel
        _ = ↑disposed + (↑kept.toList + ↑returned.toList) + ↑rest + ↑(delayed.map (·.msg)) := by
            rw [parts, found']
        _ = _ := by abel

/-- The first in line is the next returned, and who arrives stands behind. -/
theorem Effect.ordered (effect : stock.Effect overtaken flow after) :
    (flow.returned ++ after.lineup).Sublist
        (stock.lineup ++ flow.arrived.filter fun msg => msg.messageId ≠ mqidDispose) ∧
      (flow.removed = [] → flow.returned ++ after.lineup =
        stock.lineup ++ flow.arrived.filter fun msg => msg.messageId ≠ mqidDispose) := by
  cases effect with
  | quiet => exact sublist_of_eq (by simp)
  | post msg => exact sublist_of_eq (by simp [lineup, List.filter_append])
  | delayPost dmsg => exact sublist_of_eq (by simp [lineup])
  | @clear handler id _ removed hand parts less same =>
      simp only [lineup, List.filter_nil, List.append_nil, List.nil_append]
      refine ⟨less.append (List.filter_sublist.filter _), fun none => ?_⟩
      obtain ⟨front, -⟩ := List.append_eq_nil_iff.mp none
      obtain ⟨kept, posted⟩ := List.append_eq_nil_iff.mp front
      have all : stock.posted.filter (fun msg => !Message.isMatch handler id msg) = stock.posted :=
        List.filter_eq_self.mpr fun msg member => by
          simpa using List.filter_eq_nil_iff.mp posted msg member
      rw [same kept, all]
  | hand msg kept => exact sublist_of_eq (by simp [lineup, kept])
  | @scan due delayed disposed rest found kept returned split fresh taken goes =>
      obtain ⟨parts, deleted, other, -⟩ := MessageQueue.takePosted_eq taken
      have none : disposed.filter (fun msg => msg.messageId ≠ mqidDispose) = [] :=
        List.filter_eq_nil_iff.mpr fun msg member => by simp [deleted msg member]
      have all : found.toList.filter (fun msg => msg.messageId ≠ mqidDispose) = found.toList :=
        List.filter_eq_self.mpr fun msg member => by simpa using other msg (by simpa using member)
      have found' : returned.toList ++ kept.toList = found.toList := by
        rcases goes with ⟨rfl, rfl⟩ | ⟨rfl, rfl⟩ <;> simp
      have line := congrArg (List.filter fun msg => msg.messageId ≠ mqidDispose) parts
      rw [List.filter_append, List.filter_append, List.filter_append, none, all,
        List.nil_append] at line
      refine sublist_of_eq ?_
      simp only [lineup, fresh, List.nil_append]
      rw [← List.append_assoc, found', line]

end Effects

end Stock

namespace Mailbox

variable [DecidableEq Handler] {mailbox after : Mailbox Handler Data}
  {action : QueueAction Handler Data} {flow : Flow Handler Data}

def Moves (mailbox : Mailbox Handler Data) (label : QueueAction Handler Data × Flow Handler Data)
    (after : Mailbox Handler Data) : Prop :=
  mailbox.step label.1 = some (after, label.2)

section Messages

omit [DecidableEq Handler]

def inHand (mailbox : Mailbox Handler Data) : List (Message Handler Data) :=
  match mailbox.receiver with
  | .taking msg => [msg]
  | .keeping msg => [msg]
  | _ => mailbox.queue.msgPeek.toList

def stock (mailbox : Mailbox Handler Data) : Stock Handler Data :=
  ⟨mailbox.inHand, mailbox.queue.msgq, mailbox.queue.dmsgq⟩

/-- A call that goes on found no message of an earlier `Peek`, or is about to take it. -/
def Fresh (mailbox : Mailbox Handler Data) : Prop :=
  match mailbox.receiver with
  | .idle => True
  | .taking msg => ∀ kept ∈ mailbox.queue.msgPeek, kept = msg
  | _ => mailbox.queue.msgPeek = none

end Messages

/-- The message that an action takes out although `Get` has found it kept and is about
to return it. -/
def overtaken (mailbox : Mailbox Handler Data) :
    QueueAction Handler Data → List (Message Handler Data)
  | .clear handler id =>
      match mailbox.receiver with
      | .taking _ => (mailbox.queue.msgPeek.filter (Message.isMatch handler id)).toList
      | _ => []
  | _ => []

/-- What a call is about to push, by the action that begins it. -/
inductive Begins (clock : Nat) : QueueAction Handler Data → Message Handler Data →
    Option (Stamp × Option Nat) → Prop where
  | post (msg : Message Handler Data) : Begins clock (.post msg) msg none
  | postDelayed (cmsDelay : BitVec 32) (msg : Message Handler Data) :
      Begins clock (.postDelayed cmsDelay msg) msg
        (some (stamp clock + cmsDelay, some (clock + cmsDelay.toNat)))
  | postAt (tstamp : Stamp) (msg : Message Handler Data) :
      Begins clock (.postAt tstamp msg) msg (some (tstamp, none))

/-- What a scan of a call takes, and where the call then is. -/
structure Scan (mailbox : Mailbox Handler Data) (flow : Flow Handler Data)
    (after : Mailbox Handler Data) (call : Call) (disposed : List (Message Handler Data))
    (found : Option (Message Handler Data)) (rest : List (Message Handler Data))
    (returned : Option (Message Handler Data)) : Prop where
  going : mailbox.receiver = .scanning call
  taken : MessageQueue.takePosted (mailbox.queue.msgq ++
    (mailbox.queue.triggered (stamp call.msCurrent)).map (·.msg)) = (disposed, found, rest)
  moved : flow = {
    arrived := (mailbox.queue.triggered (stamp call.msCurrent)).map (·.msg)
    disposed, returned := returned.toList }
  changed : after.queue = { mailbox.queue with
    msgq := rest
    dmsgq := mailbox.queue.untriggered (stamp call.msCurrent) }
  stands : after.clock = mailbox.clock
  posting : after.posting = mailbox.posting
  ends : (∃ msg, found = some msg ∧ returned = none ∧ after.receiver = .keeping msg) ∨
    (found ≠ none ∧ returned = found ∧ after.receiver = .idle) ∨
    found = none ∧ returned = none ∧ ∃ cmsDelayNext, after.receiver = .testing call cmsDelayNext

/-- What a step can do. -/
inductive Stepped (mailbox : Mailbox Handler Data) :
    QueueAction Handler Data → Flow Handler Data → Mailbox Handler Data → Prop where
  | elapse (ms : Nat) :
      Stepped mailbox (.elapse ms) {} { mailbox with clock := mailbox.clock + ms }
  | call {action : QueueAction Handler Data} {msg : Message Handler Data} {trigger}
      (begins : Begins mailbox.clock action msg trigger) :
      Stepped mailbox action {} (mailbox.call msg trigger)
  | accept (index : Nat) (posting : List (Posting Handler Data))
      (known : ∀ later ∈ posting, ∃ earlier ∈ mailbox.posting,
        earlier.msg = later.msg ∧ earlier.trigger = later.trigger) :
      Stepped mailbox (.accept index) {} { mailbox with posting }
  | push (index : Nat) (posting : Posting Handler Data) (listed : posting ∈ mailbox.posting)
      (left : List (Posting Handler Data)) (known : left ⊆ mailbox.posting) :
      Stepped mailbox (.push index) (mailbox.queue.push posting).2
        { mailbox with queue := (mailbox.queue.push posting).1, posting := left }
  | clear (handler : Option Handler) (id : BitVec 32) :
      Stepped mailbox (.clear handler id) (mailbox.queue.clear handler id).2
        { mailbox with queue := (mailbox.queue.clear handler id).1 }
  | quit : Stepped mailbox .quit {} { mailbox with queue := { mailbox.queue with fStop := true } }
  | restart :
      Stepped mailbox .restart {} { mailbox with queue := { mailbox.queue with fStop := false } }
  | still (cmsWait : Int) : Stepped mailbox (.peek cmsWait) {} mailbox
  | enter {action : QueueAction Handler Data} (peeking : Bool) (cmsWait : Int)
      (owner : action = .peek cmsWait ∨ action = .get cmsWait) (idle : mailbox.receiver = .idle)
      (none : mailbox.queue.msgPeek = none) :
      Stepped mailbox action {} (mailbox.enter peeking cmsWait)
  | find (cmsWait : Int) (msg : Message Handler Data) (idle : mailbox.receiver = .idle)
      (kept : mailbox.queue.msgPeek = some msg) :
      Stepped mailbox (.get cmsWait) {} { mailbox with receiver := .taking msg }
  | take (msg : Message Handler Data) (going : mailbox.receiver = .taking msg) :
      Stepped mailbox .take { returned := [msg] }
        { mailbox with queue := { mailbox.queue with msgPeek := none }, receiver := .idle }
  | scan {flow : Flow Handler Data} {after : Mailbox Handler Data}
      {call disposed found rest returned}
      (scan : mailbox.Scan flow after call disposed found rest returned) :
      Stepped mailbox .scan flow after
  | test (call : Call) (cmsDelayNext : Int) (receiver : Receiver Handler Data)
      (going : mailbox.receiver = .testing call cmsDelayNext)
      (next : mailbox.queue.fStop = true ∧ receiver = .idle ∨
        mailbox.queue.fStop = false ∧ ∃ cmsNext, receiver = .waiting call cmsNext) :
      Stepped mailbox .test {} { mailbox with receiver }
  | keep (msg : Message Handler Data) (going : mailbox.receiver = .keeping msg) :
      Stepped mailbox .keep {}
        { mailbox with queue := { mailbox.queue with msgPeek := some msg }, receiver := .idle }
  | wake (ok : Bool) (call : Call) (cmsNext : Int) (receiver : Receiver Handler Data)
      (going : mailbox.receiver = .waiting call cmsNext)
      (next : receiver = .idle ∨ ∃ cmsElapsed,
        receiver = .scanning { call with msCurrent := mailbox.clock, cmsElapsed }) :
      Stepped mailbox (.wake ok) {} { mailbox with receiver }

theorem stepOther_cases (stepped : mailbox.stepOther action = some (after, flow)) :
    mailbox.Stepped action flow after := by
  cases action with
  | elapse ms =>
      cases stepped
      exact .elapse ms
  | post msg =>
      cases stepped
      exact .call (.post msg)
  | postDelayed cmsDelay msg =>
      cases stepped
      exact .call (.postDelayed cmsDelay msg)
  | postAt tstamp msg =>
      cases stepped
      exact .call (.postAt tstamp msg)
  | accept index =>
      simp only [stepOther] at stepped
      split at stepped
      case h_2 => cases stepped
      case h_1 posting listed =>
        split at stepped
        · cases stepped
          exact .accept index _ fun later member =>
            ⟨later, List.mem_of_mem_eraseIdx member, rfl, rfl⟩
        · cases stepped
          refine .accept index _ fun later member => ?_
          rcases List.mem_or_eq_of_mem_set member with old | rfl
          · exact ⟨later, old, rfl, rfl⟩
          · exact ⟨posting, List.mem_of_getElem? listed, rfl, rfl⟩
  | push index =>
      simp only [stepOther] at stepped
      split at stepped
      case h_2 => cases stepped
      case h_1 posting listed =>
        split at stepped
        case isFalse => cases stepped
        case isTrue =>
          cases stepped
          exact .push index posting (List.mem_of_getElem? listed) _
            fun _ member => List.mem_of_mem_eraseIdx member
  | clear handler id =>
      cases stepped
      exact .clear handler id
  | quit =>
      cases stepped
      exact .quit
  | restart =>
      cases stepped
      exact .restart
  | _ => cases stepped

omit [DecidableEq Handler] in
theorem step_scan {call : Call} (going : mailbox.receiver = .scanning call)
    (stepped : mailbox.stepOwner .scan = some (after, flow)) :
    ∃ disposed found rest returned, mailbox.Scan flow after call disposed found rest returned := by
  simp only [stepOwner, going, MessageQueue.scan] at stepped
  rcases taken : MessageQueue.takePosted (mailbox.queue.msgq ++
    (mailbox.queue.triggered (stamp call.msCurrent)).map (·.msg)) with ⟨disposed, found, rest⟩
  simp only [taken] at stepped
  refine ⟨disposed, found, rest, ?_⟩
  cases found with
  | some msg =>
      dsimp only at stepped
      split at stepped
      · cases stepped
        exact ⟨none, going, taken, rfl, rfl, rfl, rfl, .inl ⟨msg, rfl, rfl, rfl⟩⟩
      · cases stepped
        exact ⟨some msg, going, taken, rfl, rfl, rfl, rfl,
          .inr (.inl ⟨Option.some_ne_none msg, rfl, rfl⟩)⟩
  | none =>
      cases stepped
      exact ⟨none, going, taken, rfl, rfl, rfl, rfl, .inr (.inr ⟨rfl, rfl, _, rfl⟩)⟩

theorem stepOwner_cases (stepped : mailbox.stepOwner action = some (after, flow)) :
    mailbox.Stepped action flow after := by
  unfold stepOwner at stepped
  split at stepped
  case h_1 cmsWait idle =>
    split at stepped
    · cases stepped
      exact .still cmsWait
    case h_2 none =>
      cases stepped
      exact .enter true cmsWait (.inl rfl) idle none
  case h_2 cmsWait idle =>
    split at stepped
    case h_1 msg kept =>
      cases stepped
      exact .find cmsWait msg idle kept
    case h_2 none =>
      cases stepped
      exact .enter false cmsWait (.inr rfl) idle none
  case h_3 msg going =>
    cases stepped
    exact .take msg going
  case h_4 call going =>
    have scanned : mailbox.stepOwner .scan = some (after, flow) := by
      rw [← stepped]
      simp only [stepOwner, going]
    obtain ⟨disposed, found, rest, returned, scan⟩ := step_scan going scanned
    exact .scan scan
  case h_5 call cmsDelayNext going =>
    split at stepped
    case isTrue stopped =>
      cases stepped
      exact .test call cmsDelayNext .idle going (.inl ⟨stopped, rfl⟩)
    case isFalse running =>
      cases stepped
      exact .test call cmsDelayNext _ going (.inr ⟨Bool.eq_false_iff.mpr running, _, rfl⟩)
  case h_6 msg going =>
    cases stepped
    exact .keep msg going
  case h_7 ok call cmsNext going =>
    dsimp only at stepped
    split at stepped
    · cases stepped
      exact .wake ok call cmsNext .idle going (.inl rfl)
    split at stepped
    · cases stepped
      exact .wake ok call cmsNext .idle going (.inl rfl)
    · cases stepped
      exact .wake ok call cmsNext _ going (.inr ⟨_, rfl⟩)
  case h_8 => cases stepped

theorem step_cases (stepped : mailbox.step action = some (after, flow)) :
    mailbox.Stepped action flow after := by
  rcases Option.or_eq_some_iff.mp stepped with other | ⟨-, owner⟩
  · exact stepOther_cases other
  · exact stepOwner_cases owner

theorem Fresh.step (fresh : mailbox.Fresh) (stepped : mailbox.Stepped action flow after) :
    after.Fresh := by
  cases stepped with
  | elapse | call | accept | quit | restart | still => exact fresh
  | push index posting =>
      unfold MessageQueue.push
      split <;> exact fresh
  | clear handler id =>
      unfold Fresh at fresh ⊢
      dsimp only [MessageQueue.clear]
      split
      case h_1 => trivial
      case h_2 msg going =>
        rw [going] at fresh
        intro kept member
        exact fresh kept (Option.mem_filter_iff.mp member).1
      case h_3 idle taking =>
        split at fresh
        case h_1 going => exact absurd going idle
        case h_2 msg going => exact absurd going (taking msg)
        case h_3 => rw [fresh, Option.filter_none]
  | enter peeking cmsWait owner idle none => exact none
  | find cmsWait msg idle kept =>
      intro other member
      rw [kept] at member
      exact (Option.some.inj member).symm
  | take | keep => trivial
  | @scan _ _ call disposed found rest returned scan =>
      have none : mailbox.queue.msgPeek = none := by
        unfold Fresh at fresh
        rwa [scan.going] at fresh
      have still : after.queue.msgPeek = Option.none := by rw [scan.changed, none]
      unfold Fresh
      rcases scan.ends with ⟨msg, -, -, keeping⟩ | ⟨-, -, idle⟩ | ⟨-, -, cmsDelayNext, testing⟩
      · rwa [keeping]
      · rw [idle]
        trivial
      · rwa [testing]
  | test call cmsDelayNext receiver going next =>
      unfold Fresh at fresh
      rw [going] at fresh
      rcases next with ⟨-, rfl⟩ | ⟨-, cmsNext, rfl⟩
      · trivial
      · exact fresh
  | wake ok call cmsNext receiver going next =>
      unfold Fresh at fresh
      rw [going] at fresh
      rcases next with rfl | ⟨cmsElapsed, rfl⟩
      · trivial
      · exact fresh

/-- A `Clear` takes out what is kept, also while `Get` returns it. -/
theorem Fresh.hand_clear (fresh : mailbox.Fresh) (handler : Option Handler) (id : BitVec 32)
    {cleared : Mailbox Handler Data}
    (changed : cleared = { mailbox with queue := (mailbox.queue.clear handler id).1 }) :
    cleared.inHand = mailbox.inHand ∧ mailbox.overtaken (.clear handler id) =
        (mailbox.queue.msgPeek.filter (Message.isMatch handler id)).toList ∨
      mailbox.inHand = mailbox.queue.msgPeek.toList ∧
        cleared.inHand = mailbox.queue.msgPeek.toList.filter (fun msg =>
          !Message.isMatch handler id msg) ∧
        mailbox.overtaken (.clear handler id) = [] := by
  unfold Fresh at fresh
  subst changed
  cases going : mailbox.receiver with
  | taking msg =>
      left
      simp only [inHand, overtaken, going, and_self]
  | keeping msg =>
      left
      rw [going] at fresh
      simp only [inHand, overtaken, going, fresh, Option.filter_none, Option.toList_none, and_self]
  | idle | scanning | testing | waiting =>
      right
      simp only [inHand, overtaken, going, MessageQueue.clear, Option.toList_filter, and_self]

theorem Fresh.clear (fresh : mailbox.Fresh) (handler : Option Handler) (id : BitVec 32) :
    mailbox.stock.Effect (mailbox.overtaken (.clear handler id))
      (mailbox.queue.clear handler id).2
      { mailbox with queue := (mailbox.queue.clear handler id).1 }.stock := by
  have hands := fresh.hand_clear handler id rfl
  refine .clear handler id ?_ ?_ ?_
  · rcases hands with ⟨same, overtaken⟩ | ⟨before, after, overtaken⟩
    · change (mailbox.inHand ++ _).Perm (_ ++ Mailbox.inHand _)
      rw [overtaken, same]
      exact List.perm_append_comm
    · change (mailbox.inHand ++ _).Perm (_ ++ Mailbox.inHand _)
      rw [overtaken, before, after, List.append_nil, Option.toList_filter]
      exact (List.filter_append_perm _ _).symm
  · rcases hands with ⟨same, -⟩ | ⟨before, after, -⟩
    · exact same ▸ List.Sublist.refl _
    · change (Mailbox.inHand _).Sublist mailbox.inHand
      rw [before, after]
      exact List.filter_sublist
  · rcases hands with ⟨same, -⟩ | ⟨before, after, -⟩
    · exact fun _ => same
    · intro none
      change Mailbox.inHand _ = mailbox.inHand
      rw [before, after]
      rw [Option.toList_filter] at none
      refine List.filter_eq_self.mpr fun msg member => ?_
      simpa using List.filter_eq_nil_iff.mp none msg member

theorem Fresh.effect (fresh : mailbox.Fresh) (stepped : mailbox.Stepped action flow after) :
    mailbox.stock.Effect (mailbox.overtaken action) flow after.stock := by
  have quiet (same : after.stock = mailbox.stock) (apart : mailbox.overtaken action = [])
      (still : flow = {}) : mailbox.stock.Effect (mailbox.overtaken action) flow after.stock := by
    rw [same, apart, still]
    exact .quiet
  cases stepped with
  | elapse | accept | quit | restart | still => exact quiet rfl rfl rfl
  | call begins => cases begins <;> exact quiet rfl rfl rfl
  | push index posting =>
      unfold MessageQueue.push
      cases posting.trigger with
      | none => exact .post posting.msg
      | some trigger => exact .delayPost ⟨trigger.1, mailbox.queue.dmsgqNextNum, posting.msg, trigger.2⟩
  | clear handler id => exact fresh.clear handler id
  | enter peeking cmsWait owner idle none =>
      rcases owner with rfl | rfl <;>
        exact quiet (by simp [stock, inHand, enter, idle]) rfl rfl
  | find cmsWait msg idle kept => exact quiet (by simp [stock, inHand, idle, kept]) rfl rfl
  | take msg going => exact .hand msg (by simp [stock, inHand, going])
  | @scan _ _ call disposed found rest returned scan =>
      unfold Fresh at fresh
      rw [scan.going] at fresh
      have empty : mailbox.stock.hand = [] := by simp [stock, inHand, scan.going, fresh]
      have split := mailbox.queue.triggered_append (stamp call.msCurrent)
      rw [scan.moved]
      rcases scan.ends with ⟨msg, rfl, rfl, keeping⟩ | ⟨-, rfl, idle⟩ | ⟨rfl, rfl, _, testing⟩
      · have same : after.stock = ⟨[msg], rest, mailbox.queue.untriggered (stamp call.msCurrent)⟩ := by
          simp [stock, inHand, keeping, scan.changed]
        rw [same]
        exact .scan split empty scan.taken (.inr ⟨rfl, rfl⟩)
      · have same : after.stock = ⟨[], rest, mailbox.queue.untriggered (stamp call.msCurrent)⟩ := by
          simp [stock, inHand, idle, scan.changed, fresh]
        rw [same]
        exact .scan split empty scan.taken (.inl ⟨rfl, rfl⟩)
      · have same : after.stock = ⟨[], rest, mailbox.queue.untriggered (stamp call.msCurrent)⟩ := by
          simp [stock, inHand, testing, scan.changed, fresh]
        rw [same]
        exact .scan split empty scan.taken (.inl ⟨rfl, rfl⟩)
  | test call cmsDelayNext receiver going next =>
      rcases next with ⟨-, rfl⟩ | ⟨-, cmsNext, rfl⟩ <;>
        exact quiet (by simp [stock, inHand, going]) rfl rfl
  | keep msg going => exact quiet (by simp [stock, inHand, going]) rfl rfl
  | wake ok call cmsNext receiver going next =>
      rcases next with rfl | ⟨cmsElapsed, rfl⟩ <;>
        exact quiet (by simp [stock, inHand, going]) rfl rfl

section Sample

/-- A run of the actions, up to the first that the mailbox does not allow. -/
def feed (start : Mailbox Handler Data) : List (QueueAction Handler Data) →
    List (Mailbox Handler Data × QueueAction Handler Data × Flow Handler Data) ×
      Mailbox Handler Data
  | [] => ([], start)
  | action :: actions =>
      match start.step action with
      | none => ([], start)
      | some (after, flow) =>
          let (trace, finish) := feed after actions
          ((start, action, flow) :: trace, finish)

theorem run_feed (start : Mailbox Handler Data) (actions : List (QueueAction Handler Data)) :
    Run Moves start (feed start actions).1 (feed start actions).2 := by
  induction actions generalizing start with
  | nil => exact .nil
  | cons action actions ih =>
      unfold feed
      split
      case h_1 => exact .nil
      case h_2 after flow stepped => exact Run.cons stepped (ih after)

def hello : Message Nat Nat :=
  ⟨some 1, 7, none⟩

def late : Message Nat Nat :=
  ⟨some 1, 8, some 3⟩

def dispose : Message Nat Nat :=
  ⟨none, mqidDispose, some 4⟩

def other : Message Nat Nat :=
  ⟨some 2, 9, none⟩

def fresh : Mailbox Nat Nat :=
  { clock := 0 }

end Sample

section Runs

variable {start finish : Mailbox Handler Data}
  {trace : List (Mailbox Handler Data × QueueAction Handler Data × Flow Handler Data)}

/-- The messages that the steps of a run moved in one way. -/
def gathered (moved : Flow Handler Data → List (Message Handler Data))
    (trace : List (Mailbox Handler Data × QueueAction Handler Data × Flow Handler Data)) :
    List (Message Handler Data) :=
  trace.flatMap fun entry => moved entry.2.2

/-- The messages that were taken out while `Get` was about to return them. -/
def doubled
    (trace : List (Mailbox Handler Data × QueueAction Handler Data × Flow Handler Data)) :
    List (Message Handler Data) :=
  trace.flatMap fun entry => entry.1.overtaken entry.2.1

omit [DecidableEq Handler] in
theorem gathered_snoc (moved : Flow Handler Data → List (Message Handler Data))
    (label : QueueAction Handler Data × Flow Handler Data) :
    gathered moved (trace ++ [(mailbox, label)]) = gathered moved trace ++ moved label.2 := by
  simp [gathered]

theorem doubled_snoc (label : QueueAction Handler Data × Flow Handler Data) :
    doubled (trace ++ [(mailbox, label)]) = doubled trace ++ mailbox.overtaken label.1 := by
  simp [doubled]

theorem Fresh.run (fresh : start.Fresh) (run : Run Moves start trace finish) : finish.Fresh := by
  induction run with
  | nil => exact fresh
  | snoc _ step ih => exact ih.step (step_cases step)

theorem conserves_run (fresh : start.Fresh) (run : Run Moves start trace finish) :
    (start.stock.held ++ gathered (·.accepted) trace ++ doubled trace).Perm
      (gathered (·.returned) trace ++ gathered (·.disposed) trace ++
        gathered (·.removed) trace ++ finish.stock.held) := by
  induction run with
  | nil => simp [gathered, doubled]
  | @snoc middle finish label trace run step ih =>
      have before := Multiset.coe_eq_coe.mpr ih
      have moved := Multiset.coe_eq_coe.mpr ((fresh.run run).effect (step_cases step)).conserves
      simp only [← Multiset.coe_add] at before moved
      rw [← Multiset.coe_eq_coe]
      simp only [gathered_snoc, doubled_snoc, ← Multiset.coe_add]
      calc _ = (↑start.stock.held + ↑(gathered (·.accepted) trace) + ↑(doubled trace)) +
            (↑label.2.accepted + (↑(middle.overtaken label.1) :
              Multiset (Message Handler Data))) := by abel
        _ = ↑(gathered (·.returned) trace) + ↑(gathered (·.disposed) trace) +
            ↑(gathered (·.removed) trace) +
              (↑label.2.accepted + ↑middle.stock.held + ↑(middle.overtaken label.1)) := by
            rw [before]
            abel
        _ = _ := by
            rw [moved]
            abel

theorem order_run (fresh : start.Fresh) (run : Run Moves start trace finish) :
    (gathered (·.returned) trace ++ finish.stock.lineup).Sublist (start.stock.lineup ++
        (gathered (·.arrived) trace).filter fun msg => msg.messageId ≠ mqidDispose) ∧
      (gathered (·.removed) trace = [] → gathered (·.returned) trace ++ finish.stock.lineup =
        start.stock.lineup ++
          (gathered (·.arrived) trace).filter fun msg => msg.messageId ≠ mqidDispose) := by
  induction run with
  | nil => simp [gathered]
  | @snoc middle finish label trace run step ih =>
      obtain ⟨kept, same⟩ := ((fresh.run run).effect (step_cases step)).ordered
      simp only [gathered_snoc, List.filter_append]
      constructor
      · calc gathered (·.returned) trace ++ label.2.returned ++ finish.stock.lineup =
            gathered (·.returned) trace ++ (label.2.returned ++ finish.stock.lineup) :=
              List.append_assoc _ _ _
          List.Sublist _ (gathered (·.returned) trace ++ (middle.stock.lineup ++
              label.2.arrived.filter fun msg => msg.messageId ≠ mqidDispose)) :=
            kept.append_left _
          _ = (gathered (·.returned) trace ++ middle.stock.lineup) ++
              label.2.arrived.filter fun msg => msg.messageId ≠ mqidDispose :=
            (List.append_assoc _ _ _).symm
          List.Sublist _ ((start.stock.lineup ++
              (gathered (·.arrived) trace).filter fun msg => msg.messageId ≠ mqidDispose) ++
              label.2.arrived.filter fun msg => msg.messageId ≠ mqidDispose) :=
            ih.1.append_right _
          _ = _ := List.append_assoc _ _ _
      · intro none
        obtain ⟨earlier, last⟩ := List.append_eq_nil_iff.mp none
        rw [List.append_assoc, same last, ← List.append_assoc, ih.2 earlier, List.append_assoc]

/-- Every message that was there or was accepted has been returned, deleted unseen or
taken out by a `Clear`, each once, or is still held, but for those that a `Clear` took
out while `Get` was about to return them; and messages are returned in the order in
which they came to the end of the queue, all of them where no `Clear` took one out. -/
theorem keeps_messages (fresh : start.Fresh) (run : Run Moves start trace finish) :
    (start.stock.held ++ gathered (·.accepted) trace ++ doubled trace).Perm
      (gathered (·.returned) trace ++ gathered (·.disposed) trace ++
        gathered (·.removed) trace ++ finish.stock.held) ∧
    (gathered (·.returned) trace ++ finish.stock.lineup).Sublist (start.stock.lineup ++
      (gathered (·.arrived) trace).filter fun msg => msg.messageId ≠ mqidDispose) ∧
    (gathered (·.removed) trace = [] → gathered (·.returned) trace ++ finish.stock.lineup =
      start.stock.lineup ++
        (gathered (·.arrived) trace).filter fun msg => msg.messageId ≠ mqidDispose) :=
  ⟨conserves_run fresh run, order_run fresh run⟩

/-- The first message is disposed of, the second is kept by `Peek` and overtaken while
`Get` returns it, the third is taken out by the same `Clear`, and the last one waits. -/
def overtakenActions : List (QueueAction Nat Nat) :=
  [.post dispose, .accept 0, .push 0, .post hello, .post late, .accept 1, .push 1, .accept 0, .push 0,
    .post other, .postDelayed 10 other, .accept 0, .accept 1, .push 1, .push 0,
    .peek 0, .scan, .keep, .get 0, .clear (some 1) mqidAny, .take]

theorem keeps_messages_delayed :
    let (trace, finish) := feed fresh overtakenActions
    trace.map (·.2.1) = overtakenActions ∧
    ([] ++ gathered (·.accepted) trace ++ doubled trace).Perm
      (gathered (·.returned) trace ++ gathered (·.disposed) trace ++
        gathered (·.removed) trace ++ finish.stock.held) ∧
    (gathered (·.returned) trace ++ finish.stock.lineup).Sublist
      ([] ++ (gathered (·.arrived) trace).filter fun msg => msg.messageId ≠ mqidDispose) ∧
    (gathered (·.removed) trace = [] → gathered (·.returned) trace ++ finish.stock.lineup =
      [] ++ (gathered (·.arrived) trace).filter fun msg => msg.messageId ≠ mqidDispose) ∧
    gathered (·.returned) trace = [late] ∧ gathered (·.disposed) trace = [dispose] ∧
      gathered (·.removed) trace = [late, hello] ∧ doubled trace = [late] ∧
        finish.stock.held = [other, other] := by
  have kept := @keeps_messages _ _ _ fresh _ _ trivial (run_feed fresh overtakenActions)
  exact ⟨by decide, kept.1, kept.2.1, kept.2.2, by decide, by decide, by decide, by decide,
    by decide⟩

/-- A call that is about to test `fStop_` was there before, or has just scanned. -/
theorem Stepped.testing {call : Call} {cmsDelayNext : Int}
    (stepped : mailbox.Stepped action flow after)
    (testing : after.receiver = .testing call cmsDelayNext) :
    mailbox.receiver = .testing call cmsDelayNext ∧
        after.queue.msgq.Sublist (mailbox.queue.msgq ++ flow.arrived) ∨
      action = .scan ∧ ∃ disposed rest, mailbox.Scan flow after call disposed none rest none := by
  cases stepped with
  | elapse | call | accept | quit | restart | still =>
      exact .inl ⟨testing, List.sublist_append_left _ _⟩
  | push index posting =>
      refine .inl ⟨testing, ?_⟩
      unfold MessageQueue.push
      split
      · exact List.Sublist.refl _
      · exact List.sublist_append_left _ _
  | clear => exact .inl ⟨testing, List.filter_sublist.trans (List.sublist_append_left _ _)⟩
  | enter | find | take | keep => cases testing
  | scan scan =>
      rcases scan.ends with ⟨_, -, -, keeping⟩ | ⟨-, -, idle⟩ | ⟨rfl, rfl, _, other⟩
      · rw [keeping] at testing
        cases testing
      · rw [idle] at testing
        cases testing
      · rw [other] at testing
        cases testing
        exact .inr ⟨rfl, _, _, scan⟩
  | test _ _ _ _ next =>
      rcases next with ⟨-, rfl⟩ | ⟨-, _, rfl⟩ <;> cases testing
  | wake _ _ _ _ _ next =>
      rcases next with rfl | ⟨_, rfl⟩ <;> cases testing

/-- The scan before a test of `fStop_`: it found every posted message deleted, and what
is posted now has come since. -/
theorem scanned_run {call : Call} {cmsDelayNext : Int} (idle : start.receiver = .idle)
    (run : Run Moves start trace finish) (testing : finish.receiver = .testing call cmsDelayNext) :
    ∃ earlier scanned flow later, trace = earlier ++ (scanned, .scan, flow) :: later ∧
      Run Moves start earlier scanned ∧
      (∃ after disposed rest, scanned.Scan flow after call disposed none rest none ∧
        Moves scanned (.scan, flow) after) ∧
      finish.queue.msgq.Sublist (gathered (·.arrived) later) := by
  induction run with
  | nil =>
      rw [idle] at testing
      cases testing
  | @snoc middle finish label trace run step ih =>
      obtain ⟨action, flow⟩ := label
      rcases (step_cases step).testing testing with ⟨before, more⟩ | ⟨same, disposed, rest, scan⟩
      · obtain ⟨earlier, scanned, flow', later, split, first, found, since⟩ := ih before
        refine ⟨earlier, scanned, flow', later ++ [(middle, action, flow)], by simp [split], first,
          found, ?_⟩
        rw [gathered_snoc]
        exact more.trans (since.append_right _)
      · dsimp only at same
        subst same
        refine ⟨trace, middle, flow, [], rfl, run, ⟨finish, disposed, rest, scan, step⟩, ?_⟩
        have none := (MessageQueue.takePosted_eq scan.taken).2.2.2 rfl
        rw [scan.changed, none]
        exact List.nil_sublist _

/-- When `Get` gives up after its test of `fStop_`, the queue is stopped, and every
message that was accepted before its scan has come out but the delayed ones, the first
of which was not due; what is posted has come between the scan and the test. -/
theorem quit_drains (idle : start.receiver = .idle) (run : Run Moves start trace mailbox)
    (stepped : mailbox.step .test = some (after, flow)) (ended : after.receiver = .idle) :
    mailbox.queue.fStop = true ∧
    ∃ call earlier scanned scanning later,
      trace = earlier ++ (scanned, .scan, scanning) :: later ∧
      scanned.receiver = .scanning call ∧
      (start.stock.held ++ gathered (·.accepted) earlier ++ doubled earlier).Perm
        (gathered (·.returned) earlier ++ (gathered (·.disposed) earlier ++ scanning.disposed) ++
          gathered (·.removed) earlier ++
            (scanned.queue.untriggered (stamp call.msCurrent)).map (·.msg)) ∧
      (∀ top ∈ (scanned.queue.untriggered (stamp call.msCurrent)).head?,
        timeIsLater (stamp call.msCurrent) top.msTrigger) ∧
      after.queue.msgq.Sublist (gathered (·.arrived) later) := by
  cases step_cases stepped with
  | enter _ _ owner => rcases owner with impossible | impossible <;> cases impossible
  | call begins => cases begins
  | test call cmsDelayNext receiver going next =>
      have stopped : mailbox.queue.fStop = true := by
        rcases next with ⟨stopped, -⟩ | ⟨-, cmsNext, rfl⟩
        · exact stopped
        · cases ended
      obtain ⟨earlier, scanned, scanning, later, split, first, ⟨gone, disposed, rest, scan, step⟩,
        since⟩ := scanned_run idle run going
      have fresh : start.Fresh := by
        unfold Fresh
        rw [idle]
        trivial
      have empty := (MessageQueue.takePosted_eq scan.taken).2.2.2 rfl
      have hand : gone.inHand = [] := by
        have none := (fresh.run first).step (.scan scan)
        rcases scan.ends with ⟨_, impossible, -⟩ | ⟨impossible, -⟩ | ⟨-, -, _, testing⟩
        · cases impossible
        · exact absurd rfl impossible
        · unfold Fresh at none
          rw [testing] at none
          simp only [inHand, testing, none, Option.toList_none]
      have left : gone.stock.held =
          (scanned.queue.untriggered (stamp call.msCurrent)).map (·.msg) := by
        unfold Stock.held stock
        dsimp only
        rw [hand, scan.changed, empty]
        rfl
      have whole := conserves_run fresh (first.snoc step)
      have still : scanning.accepted = [] ∧ scanning.removed = [] ∧ scanning.returned = [] := by
        rw [scan.moved]
        exact ⟨rfl, rfl, rfl⟩
      have apart : scanned.overtaken .scan = [] := rfl
      simp only [gathered_snoc, doubled_snoc, left, still.1, still.2.1, still.2.2, apart,
        List.append_nil] at whole
      refine ⟨stopped, call, earlier, scanned, scanning, later, split, scan.going, whole, ?_, since⟩
      intro top found
      have kept := List.head?_dropWhile_not
        (fun dmsg : DelayedMessage Handler Data =>
          !timeIsLater (stamp call.msCurrent) dmsg.msTrigger) scanned.queue.dmsgq
      unfold MessageQueue.untriggered at found
      rw [found] at kept
      simpa using kept

/-- A message that is posted between the scan of `Get` and its test stays behind. -/
def stoppedActions : List (QueueAction Nat Nat) :=
  [.post hello, .accept 0, .push 0, .postDelayed 10 late, .accept 0, .push 0, .get kForever, .scan,
    .get kForever, .scan, .post other, .accept 0, .push 0, .quit]

theorem quit_drains_stopped :
    let (trace, mailbox) := feed fresh stoppedActions
    trace.map (·.2.1) = stoppedActions ∧ mailbox.queue.fStop = true ∧
    ∃ (call : Call) (earlier : List (Mailbox Nat Nat × QueueAction Nat Nat × Flow Nat Nat))
      (scanned : Mailbox Nat Nat) (scanning : Flow Nat Nat)
      (later : List (Mailbox Nat Nat × QueueAction Nat Nat × Flow Nat Nat)),
      trace = earlier ++ (scanned, .scan, scanning) :: later ∧
      scanned.receiver = .scanning call ∧
      (gathered (·.accepted) earlier ++ doubled earlier).Perm
        (gathered (·.returned) earlier ++ (gathered (·.disposed) earlier ++ scanning.disposed) ++
          gathered (·.removed) earlier ++
            (scanned.queue.untriggered (stamp call.msCurrent)).map DelayedMessage.msg) ∧
      (∀ top ∈ (scanned.queue.untriggered (stamp call.msCurrent)).head?,
        timeIsLater (stamp call.msCurrent) top.msTrigger) ∧
      [other].Sublist (gathered (·.arrived) later) := by
  have gives : (feed fresh stoppedActions).2.step .test =
      some ({ (feed fresh stoppedActions).2 with receiver := .idle }, {}) := by decide
  exact ⟨by decide, @quit_drains _ _ _ _ _ _ fresh _ rfl (run_feed fresh stoppedActions) gives rfl⟩

end Runs

section Timing

omit [DecidableEq Handler]

theorem timeIsLater_iff {earlier later : Nat} (near : later < earlier + 2 ^ 31)
    (near' : earlier ≤ later + 2 ^ 31) :
    timeIsLater (stamp earlier) (stamp later) = true ↔ earlier < later := by
  unfold timeIsLater stamp
  simp only [Bool.and_eq_true, decide_eq_true_iff, BitVec.toInt_eq_toNat_cond, BitVec.toNat_sub,
    BitVec.toNat_ofNat]
  split <;> omega

theorem stamp_add (clock : Nat) (cmsDelay : BitVec 32) :
    stamp clock + cmsDelay = stamp (clock + cmsDelay.toNat) := by
  apply BitVec.eq_of_toNat_eq
  simp [stamp, BitVec.toNat_add]

theorem takeWhile_eq_filter {Item : Type} {test : Item → Bool} {items : List Item}
    (sorted : items.Pairwise fun left right => test right → test left) :
    items.takeWhile test = items.filter test ∧
      items.dropWhile test = items.filter fun item => !test item := by
  induction items with
  | nil => exact ⟨rfl, rfl⟩
  | cons item items ih =>
      obtain ⟨first, rest⟩ := List.pairwise_cons.mp sorted
      cases taken : test item with
      | true => simp [taken, ih rest]
      | false =>
          have none : items.filter test = [] := by
            refine List.filter_eq_nil_iff.mpr fun other member held => ?_
            rw [first other member held] at taken
            cases taken
          have all : items.filter (fun item => !test item) = items := by
            refine List.filter_eq_self.mpr fun other member => ?_
            simpa using List.filter_eq_nil_iff.mp none other member
          simp [taken, none, all]

end Timing

section Delays

variable {start finish : Mailbox Handler Data}
  {trace : List (Mailbox Handler Data × QueueAction Handler Data × Flow Handler Data)}

/-- A call that is about to scan has read the clock before. -/
def Reading (mailbox : Mailbox Handler Data) : Prop :=
  ∀ call, mailbox.receiver = .scanning call → call.msCurrent ≤ mailbox.clock

theorem Stepped.clock_le (stepped : mailbox.Stepped action flow after) :
    mailbox.clock ≤ after.clock := by
  cases stepped with
  | elapse ms => exact Nat.le_add_right _ ms
  | scan scan => exact scan.stands.ge
  | _ => exact Nat.le_refl _

theorem Stepped.reading (reading : mailbox.Reading) (stepped : mailbox.Stepped action flow after) :
    after.Reading := by
  cases stepped with
  | call | accept | push | clear | quit | restart | still => exact reading
  | elapse ms => exact fun call going => (reading call going).trans (Nat.le_add_right _ ms)
  | enter =>
      rintro call ⟨⟩
      exact Nat.le_refl _
  | find | take | keep =>
      rintro call ⟨⟩
  | scan scan =>
      intro call going
      rcases scan.ends with ⟨_, -, -, other⟩ | ⟨-, -, other⟩ | ⟨-, -, _, other⟩
      all_goals
        rw [other] at going
        cases going
  | test _ _ _ _ next =>
      rcases next with ⟨-, rfl⟩ | ⟨-, _, rfl⟩ <;> rintro call ⟨⟩
  | wake ok call cmsNext receiver going next =>
      rintro call' scanning
      rcases next with rfl | ⟨cmsElapsed, rfl⟩
      · cases scanning
      · cases scanning
        exact Nat.le_refl _

/-- A message is delayed, or a call is about to delay it. -/
def Pending (mailbox : Mailbox Handler Data) (msg : Message Handler Data)
    (trigger : Stamp × Option Nat) : Prop :=
  (∃ dmsg ∈ mailbox.queue.dmsgq, dmsg.msg = msg ∧ (dmsg.msTrigger, dmsg.due) = trigger) ∨
    ∃ posting ∈ mailbox.posting, posting.msg = msg ∧ posting.trigger = some trigger

/-- A delayed message was so before, or the step begins the call that delays it. -/
theorem Stepped.pending {msg : Message Handler Data} {trigger : Stamp × Option Nat}
    (stepped : mailbox.Stepped action flow after) (pending : after.Pending msg trigger) :
    mailbox.Pending msg trigger ∨ Begins mailbox.clock action msg (some trigger) := by
  cases stepped with
  | elapse | quit | restart | still | enter | find | take | test | keep | wake =>
      exact .inl pending
  | call begins =>
      rcases pending with delayed | ⟨posting, member, same, asked⟩
      · exact .inl (.inl delayed)
      · rcases List.mem_append.mp member with old | new
        · exact .inl (.inr ⟨posting, old, same, asked⟩)
        · rw [List.mem_singleton.mp new] at same asked
          dsimp only at same asked
          exact .inr (same ▸ asked ▸ begins)
  | accept index posting known =>
      refine .inl (pending.imp_right ?_)
      rintro ⟨later, member, same, asked⟩
      obtain ⟨earlier, old, msg, trigger⟩ := known later member
      exact ⟨earlier, old, msg.trans same, trigger.trans asked⟩
  | push index posting listed left known =>
      left
      rcases pending with ⟨dmsg, member, same, asked⟩ | ⟨later, member, same, asked⟩
      · unfold MessageQueue.push at member
        split at member
        case h_1 => exact .inl ⟨dmsg, member, same, asked⟩
        case h_2 tstamp due delayed =>
          rcases (List.mem_orderedInsert _).mp member with rfl | old
          · exact .inr ⟨posting, listed, same, delayed.trans (congrArg some asked)⟩
          · exact .inl ⟨dmsg, old, same, asked⟩
      · exact .inr ⟨later, known member, same, asked⟩
  | clear =>
      refine .inl (pending.imp_left ?_)
      rintro ⟨dmsg, member, same⟩
      exact ⟨dmsg, List.mem_of_mem_filter member, same⟩
  | scan scan =>
      left
      unfold Pending at pending ⊢
      rw [scan.changed, scan.posting] at pending
      refine pending.imp_left ?_
      rintro ⟨dmsg, member, same⟩
      exact ⟨dmsg, (List.dropWhile_sublist _).subset member, same⟩

/-- A queue without delayed messages. -/
structure Undelayed (mailbox : Mailbox Handler Data) : Prop where
  dmsgq : mailbox.queue.dmsgq = []
  posting : mailbox.posting = []

/-- The call that a delayed message comes from. -/
theorem origin_run (none : start.Undelayed) (run : Run Moves start trace finish)
    {msg : Message Handler Data} {trigger : Stamp × Option Nat}
    (pending : finish.Pending msg trigger) : ∃ entry ∈ trace, entry.1.clock ≤ finish.clock ∧
      Begins entry.1.clock entry.2.1 msg (some trigger) := by
  induction run with
  | nil =>
      rcases pending with ⟨_, member, -⟩ | ⟨_, member, -⟩
      · rw [none.dmsgq] at member
        cases member
      · rw [none.posting] at member
        cases member
  | @snoc middle finish label trace run step ih =>
      have stepped := step_cases step
      rcases stepped.pending pending with old | begins
      · obtain ⟨entry, listed, earlier, came⟩ := ih old
        exact ⟨entry, List.mem_append_left _ listed, earlier.trans stepped.clock_le, came⟩
      · exact ⟨(middle, label), by simp, stepped.clock_le, begins⟩

theorem reading_run (reading : start.Reading) (run : Run Moves start trace finish) :
    finish.Reading := by
  induction run with
  | nil => exact reading
  | snoc _ step ih => exact (step_cases step).reading ih

theorem scan_of_step {call : Call} (going : mailbox.receiver = .scanning call)
    (stepped : mailbox.step .scan = some (after, flow)) :
    ∃ disposed found rest returned, mailbox.Scan flow after call disposed found rest returned :=
  step_scan going stepped

/-- Delays are no longer than the clock's comparison allows, and a scan follows the
reading of the clock within some time. -/
structure Prompt (slack : Nat) (mailbox : Mailbox Handler Data)
    (label : QueueAction Handler Data × Flow Handler Data) : Prop where
  short : ∀ cmsDelay msg, label.1 = .postDelayed cmsDelay msg → cmsDelay.toNat + slack < 2 ^ 31
  soon : ∀ call, mailbox.receiver = .scanning call → label.1 = .scan →
    mailbox.clock ≤ call.msCurrent + slack

/-- `Prompt`, computed. -/
def promptly (slack : Nat) (mailbox : Mailbox Handler Data)
    (label : QueueAction Handler Data × Flow Handler Data) : Bool :=
  (match label.1 with
    | .postDelayed cmsDelay _ => cmsDelay.toNat + slack < 2 ^ 31
    | _ => true) &&
  match mailbox.receiver, label.1 with
  | .scanning call, .scan => mailbox.clock ≤ call.msCurrent + slack
  | _, _ => true

omit [DecidableEq Handler] in
theorem prompt_of_promptly {slack : Nat} {label : QueueAction Handler Data × Flow Handler Data}
    (computed : promptly slack mailbox label = true) : Prompt slack mailbox label := by
  obtain ⟨short, soon⟩ := Bool.and_eq_true_iff.mp computed
  refine ⟨fun cmsDelay msg posts => ?_, fun call going scans => ?_⟩
  · rw [posts] at short
    exact of_decide_eq_true short
  · rw [going, scans] at soon
    exact of_decide_eq_true soon

/-- No message comes out before its own delay is over, also where the clock wraps. -/
theorem never_early {slack : Nat} {call : Call} (none : start.Undelayed)
    (reading : start.Reading) (run : Run Moves start trace mailbox) (going : mailbox.receiver = .scanning call)
    (stepped : mailbox.step .scan = some (after, flow))
    (prompt : StepsMeet (Prompt slack) (trace ++ [(mailbox, .scan, flow)])) :
    call.msCurrent ≤ mailbox.clock ∧
    flow.arrived = (mailbox.queue.triggered (stamp call.msCurrent)).map (·.msg) ∧
    ∀ dmsg ∈ mailbox.queue.triggered (stamp call.msCurrent), ∃ entry ∈ trace,
      (∃ cmsDelay, entry.2.1 = .postDelayed cmsDelay dmsg.msg ∧
        dmsg.due = some (entry.1.clock + cmsDelay.toNat) ∧
        entry.1.clock + cmsDelay.toNat ≤ call.msCurrent) ∨
      entry.2.1 = .postAt dmsg.msTrigger dmsg.msg ∧ dmsg.due = Option.none ∧
        timeIsLater (stamp call.msCurrent) dmsg.msTrigger = false := by
  obtain ⟨earlier, last⟩ := prompt.split
  obtain ⟨disposed, found, rest, returned, scan⟩ := scan_of_step going stepped
  have soon := last.soon call going rfl
  refine ⟨reading_run reading run call going, by rw [scan.moved], fun dmsg triggered => ?_⟩
  have due : timeIsLater (stamp call.msCurrent) dmsg.msTrigger = false := by
    simpa using List.mem_takeWhile_imp triggered
  have member := (List.takeWhile_sublist _).subset triggered
  obtain ⟨⟨before, action, moved⟩, listed, order, begins⟩ :=
    origin_run none run (.inl ⟨dmsg, member, rfl, rfl⟩)
  refine ⟨_, listed, ?_⟩
  dsimp only at order begins ⊢
  generalize trigger : dmsg.msTrigger = tstamp at begins due ⊢
  generalize ends : dmsg.due = ending at begins ⊢
  cases begins with
  | postDelayed cmsDelay =>
      refine .inl ⟨cmsDelay, rfl, rfl, ?_⟩
      have short := (earlier _ listed).short cmsDelay dmsg.msg rfl
      by_contra early
      rw [stamp_add, Bool.eq_false_iff] at due
      exact due ((timeIsLater_iff (by omega) (by omega)).mpr (by omega))
  | postAt => exact .inr ⟨rfl, rfl, due⟩

/-- Two messages, of which the delay of the first is over when the owner calls `Get`. -/
def delayedActions : List (QueueAction Nat Nat) :=
  [.postDelayed 20 hello, .accept 0, .postDelayed 10 late, .accept 1, .push 1, .push 0, .elapse 10,
    .get kForever]

def delayed : Mailbox Nat Nat :=
  (feed fresh delayedActions).2

/-- After a scan, which returns the first message. -/
def scannedDelayed : Mailbox Nat Nat :=
  { delayed with
    queue := { delayed.queue with dmsgq := delayed.queue.dmsgq.drop 1 }, receiver := .idle }

theorem delayed_run : Run Moves fresh (feed fresh delayedActions).1 delayed :=
  run_feed fresh delayedActions

theorem prompt_delayed : StepsMeet (Prompt 0) ((feed fresh delayedActions).1 ++
    [(delayed, .scan, { arrived := [late], returned := [late] })]) := by
  have computed : ∀ entry ∈ (feed fresh delayedActions).1 ++
      [(delayed, .scan, { arrived := [late], returned := [late] })],
      promptly 0 entry.1 entry.2 = true := by decide
  exact fun entry member => prompt_of_promptly (computed entry member)

theorem never_early_delayed :
    10 ≤ delayed.clock ∧ [late] = (delayed.queue.triggered (stamp 10)).map (·.msg) ∧
    ∀ dmsg ∈ delayed.queue.triggered (stamp 10), ∃ entry ∈ (feed fresh delayedActions).1,
      (∃ cmsDelay, entry.2.1 = .postDelayed cmsDelay dmsg.msg ∧
        dmsg.due = some (entry.1.clock + cmsDelay.toNat) ∧
        entry.1.clock + cmsDelay.toNat ≤ 10) ∨
      entry.2.1 = .postAt dmsg.msTrigger dmsg.msg ∧ dmsg.due = none ∧
        timeIsLater (stamp 10) dmsg.msTrigger = false :=
  @never_early _ _ _ _ scannedDelayed _ _ _ 0 ⟨false, kForever, 10, 10, 0⟩ ⟨rfl, rfl⟩
    (by rintro _ ⟨⟩) delayed_run rfl (by decide) prompt_delayed

theorem Stepped.sorted (sorted : mailbox.queue.dmsgq.Pairwise fun left right => ¬left.less right)
    (stepped : mailbox.Stepped action flow after) :
    after.queue.dmsgq.Pairwise fun left right => ¬left.less right := by
  cases stepped with
  | elapse | call | accept | quit | restart | still | enter | find | take | test | keep | wake =>
      exact sorted
  | push index posting =>
      unfold MessageQueue.push
      split
      · exact sorted
      · exact sorted.orderedInsert _ _
  | clear => exact sorted.filter _
  | scan scan =>
      rw [scan.changed]
      exact sorted.sublist (List.dropWhile_sublist _)

theorem sorted_run (none : start.queue.dmsgq = []) (run : Run Moves start trace finish) :
    finish.queue.dmsgq.Pairwise fun left right => ¬left.less right := by
  induction run with
  | nil =>
      rw [none]
      exact List.Pairwise.nil
  | snoc _ step ih => exact (step_cases step).sorted ih

omit [DecidableEq Handler] in
/-- The millisecond of the clock when the delay of a message is over. -/
def deadline (dmsg : DelayedMessage Handler Data) : Nat :=
  dmsg.due.getD 0

/-- A message was posted with a delay, which ends in some period of the clock and not
too far from a reading of it. -/
structure Near (epoch msCurrent : Nat) (dmsg : DelayedMessage Handler Data) : Prop where
  relative : dmsg.due = some (deadline dmsg)
  begun : epoch * 2 ^ 32 ≤ deadline dmsg
  ends : deadline dmsg < (epoch + 1) * 2 ^ 32
  soon : deadline dmsg < msCurrent + 2 ^ 31
  punctual : msCurrent ≤ deadline dmsg + 2 ^ 31

/-- While the deadlines lie in one period of the clock, a scan moves the messages whose
delay was over when the clock was read, and no others, in the order of the deadlines. -/
theorem on_time {epoch : Nat} {call : Call} (none : start.Undelayed)
    (run : Run Moves start trace mailbox) (going : mailbox.receiver = .scanning call)
    (stepped : mailbox.step .scan = some (after, flow))
    (near : ∀ dmsg ∈ mailbox.queue.dmsgq, Near epoch call.msCurrent dmsg) :
    (∀ dmsg ∈ mailbox.queue.dmsgq, ∃ entry ∈ trace, ∃ cmsDelay,
      entry.2.1 = .postDelayed cmsDelay dmsg.msg ∧
        deadline dmsg = entry.1.clock + cmsDelay.toNat) ∧
    (mailbox.queue.dmsgq.Pairwise fun left right => deadline left ≤ deadline right) ∧
    flow.arrived = (mailbox.queue.dmsgq.filter fun dmsg =>
      deadline dmsg ≤ call.msCurrent).map (·.msg) ∧
    after.queue.dmsgq = mailbox.queue.dmsgq.filter fun dmsg =>
      call.msCurrent < deadline dmsg := by
  obtain ⟨disposed, found, rest, returned, scan⟩ := scan_of_step going stepped
  have posts : ∀ dmsg ∈ mailbox.queue.dmsgq, dmsg.msTrigger = stamp (deadline dmsg) ∧
      ∃ entry ∈ trace, ∃ cmsDelay, entry.2.1 = .postDelayed cmsDelay dmsg.msg ∧
        deadline dmsg = entry.1.clock + cmsDelay.toNat := by
    intro dmsg member
    obtain ⟨⟨before, action, moved⟩, listed, -, begins⟩ :=
      origin_run none run (.inl ⟨dmsg, member, rfl, rfl⟩)
    have relative := (near dmsg member).relative
    dsimp only at begins
    generalize trigger : dmsg.msTrigger = tstamp at begins ⊢
    generalize ends : dmsg.due = ending at begins relative
    cases begins with
    | postDelayed cmsDelay =>
        have value := Option.some.inj relative
        exact ⟨by rw [stamp_add, value], _, listed, cmsDelay, rfl, value.symm⟩
    | postAt => cases relative
  have sorted : mailbox.queue.dmsgq.Pairwise fun left right =>
      deadline left ≤ deadline right := by
    refine (sorted_run none.dmsgq run).imp_of_mem fun {left right} member member' order => ?_
    have first := near left member
    have second := near right member'
    rw [DelayedMessage.not_less_iff, DelayedMessage.key, DelayedMessage.key,
      Prod.Lex.toLex_le_toLex, (posts left member).1, (posts right member').1] at order
    simp only [stamp, BitVec.toNat_ofNat] at order
    have := first.begun
    have := first.ends
    have := second.begun
    have := second.ends
    omega
  have later : ∀ dmsg ∈ mailbox.queue.dmsgq,
      timeIsLater (stamp call.msCurrent) dmsg.msTrigger =
        decide (call.msCurrent < deadline dmsg) := by
    intro dmsg member
    have close := near dmsg member
    rw [(posts dmsg member).1, Bool.eq_iff_iff, decide_eq_true_iff]
    exact timeIsLater_iff close.soon close.punctual
  have parts := @takeWhile_eq_filter _
    (fun dmsg : DelayedMessage Handler Data => !timeIsLater (stamp call.msCurrent) dmsg.msTrigger)
    mailbox.queue.dmsgq (sorted.imp_of_mem fun {left right} member member' order held => by
      rw [later left member]
      rw [later right member'] at held
      simp only [Bool.not_eq_true', decide_eq_false_iff_not] at held ⊢
      omega)
  refine ⟨fun dmsg member => (posts dmsg member).2, sorted, ?_, ?_⟩
  · rw [scan.moved]
    refine congrArg (List.map _) (parts.1.trans (List.filter_congr fun dmsg member => ?_))
    rw [later dmsg member, ← decide_not]
    simp only [Nat.not_lt]
  · rw [scan.changed]
    refine parts.2.trans (List.filter_congr fun dmsg member => ?_)
    rw [later dmsg member, Bool.not_not]

instance (epoch msCurrent : Nat) (dmsg : DelayedMessage Handler Data) :
    Decidable (Near epoch msCurrent dmsg) :=
  decidable_of_iff (dmsg.due = some (deadline dmsg) ∧ epoch * 2 ^ 32 ≤ deadline dmsg ∧
    deadline dmsg < (epoch + 1) * 2 ^ 32 ∧ deadline dmsg < msCurrent + 2 ^ 31 ∧
      msCurrent ≤ deadline dmsg + 2 ^ 31)
    ⟨fun ⟨relative, begun, ends, soon, punctual⟩ => ⟨relative, begun, ends, soon, punctual⟩,
      fun near => ⟨near.relative, near.begun, near.ends, near.soon, near.punctual⟩⟩

theorem on_time_delayed :
    (∀ dmsg ∈ delayed.queue.dmsgq, ∃ entry ∈ (feed fresh delayedActions).1, ∃ cmsDelay,
      entry.2.1 = .postDelayed cmsDelay dmsg.msg ∧
        deadline dmsg = entry.1.clock + cmsDelay.toNat) ∧
    (delayed.queue.dmsgq.Pairwise fun left right => deadline left ≤ deadline right) ∧
    [late] = (delayed.queue.dmsgq.filter fun dmsg => deadline dmsg ≤ 10).map (·.msg) ∧
    scannedDelayed.queue.dmsgq = delayed.queue.dmsgq.filter fun dmsg => 10 < deadline dmsg :=
  @on_time _ _ _ _ scannedDelayed { arrived := [late], returned := [late] } _ _ 0
    ⟨false, kForever, 10, 10, 0⟩ ⟨rfl, rfl⟩ delayed_run rfl (by decide) (by decide)

end Delays

section WrappedClock

variable {start : Mailbox Handler Data}
  {trace : List (Mailbox Handler Data × QueueAction Handler Data × Flow Handler Data)}

/-- A message that is due before the clock wraps is held up as long as another one waits
that is due after the wrap. -/
theorem held_up_across_wrap {call : Call} (none : start.queue.dmsgq = [])
    (run : Run Moves start trace mailbox) (going : mailbox.receiver = .scanning call)
    (stepped : mailbox.step .scan = some (after, flow)) {dmsg dmsg' : DelayedMessage Handler Data}
    (waits : dmsg ∈ mailbox.queue.dmsgq) (held : dmsg' ∈ mailbox.queue.dmsgq)
    {epoch first second : Nat} (trigger : dmsg.msTrigger = stamp first)
    (trigger' : dmsg'.msTrigger = stamp second) (earlier : first < epoch * 2 ^ 32)
    (later : epoch * 2 ^ 32 ≤ second) (near : second < first + 2 ^ 31)
    (due : first ≤ call.msCurrent) (undue : call.msCurrent < second) :
    timeIsLater (stamp call.msCurrent) dmsg.msTrigger = false ∧ dmsg ∈ after.queue.dmsgq := by
  obtain ⟨disposed, found, rest, returned, scan⟩ := scan_of_step going stepped
  have values : (stamp second).toNat < (stamp first).toNat := by
    simp only [stamp, BitVec.toNat_ofNat]
    omega
  constructor
  · rw [trigger, Bool.eq_false_iff, Ne, timeIsLater_iff (by omega) (by omega)]
    exact Nat.not_lt.mpr due
  · rw [scan.changed]
    have sorted := sorted_run none run
    rw [mailbox.queue.triggered_append (stamp call.msCurrent)] at waits held sorted
    refine (List.mem_append.mp waits).resolve_left fun moved => ?_
    rcases List.mem_append.mp held with before | behind
    · have passed : timeIsLater (stamp call.msCurrent) dmsg'.msTrigger = false := by
        simpa using List.mem_takeWhile_imp before
      rw [trigger', Bool.eq_false_iff] at passed
      exact passed ((timeIsLater_iff (by omega) (by omega)).mpr undue)
    · have order := (List.pairwise_append.mp sorted).2.2 dmsg moved dmsg' behind
      rw [DelayedMessage.not_less_iff, DelayedMessage.key, DelayedMessage.key,
        Prod.Lex.toLex_le_toLex, trigger, trigger'] at order
      omega

/-- The first is due ten milliseconds before the wrap, the second ten after it. -/
def wrapActions : List (QueueAction Nat Nat) :=
  [.postDelayed 0 hello, .postDelayed 20 late, .accept 0, .accept 1, .push 0, .push 0, .elapse 4,
    .get kForever]

def acrossWrap : Mailbox Nat Nat :=
  (feed { clock := 4294967286 } wrapActions).2

theorem held_up_across_wrap_ten :
    (feed { clock := 4294967286 } wrapActions).1.map (·.2.1) = wrapActions ∧
      acrossWrap.step .scan = some ({ acrossWrap with
        receiver := .testing ⟨false, kForever, 4294967290, 4294967290, 0⟩ 16 }, {}) ∧
      timeIsLater (stamp 4294967290) 4294967286 = false ∧
        ⟨4294967286, 0, hello, some 4294967286⟩ ∈ acrossWrap.queue.dmsgq := by
  have stepped : acrossWrap.step .scan = some ({ acrossWrap with
      receiver := .testing ⟨false, kForever, 4294967290, 4294967290, 0⟩ 16 }, {}) := by decide
  exact ⟨by decide, stepped, @held_up_across_wrap _ _ _ acrossWrap
    { acrossWrap with receiver := .testing ⟨false, kForever, 4294967290, 4294967290, 0⟩ 16 } _ _ _
    ⟨false, kForever, 4294967290, 4294967290, 0⟩ rfl
    (run_feed { clock := 4294967286 } wrapActions) rfl stepped
    ⟨4294967286, 0, hello, some 4294967286⟩ ⟨10, 1, late, some 4294967306⟩ (by decide) (by decide)
    1 4294967286 4294967306 (by decide) (by decide) (by decide) (by decide) (by decide)
    (by decide) (by decide)⟩

end WrappedClock

end Mailbox

end Gfiber.Base
