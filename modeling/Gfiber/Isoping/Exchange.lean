import Gfiber.Lib.Run
import Gfiber.Isoping.PacketHandling
import Mathlib.Tactic.Ring

/-! A client's and a server's session joined by a link with a constant delay in
each direction. Packets are lost by never being delivered; delivering one leaves
it in flight, so duplicates and any order are included. -/

set_option autoImplicit false

namespace Gfiber.Isoping
open Lib

inductive Party where
  | client
  | server
  deriving DecidableEq, Repr

namespace Party

def peer : Party → Party
  | .client => .server
  | .server => .client

def isServer : Party → Bool
  | .client => false
  | .server => true

@[simp] theorem peer_peer (party : Party) : party.peer.peer = party := by
  cases party <;> rfl

end Party

/-- The clock of each party at one common instant, and the time its packets take. -/
structure Link where
  base : Party → Word64
  delay : Party → Nat

namespace Link

def roundTrip (link : Link) : Nat := link.delay .client + link.delay .server

/-- How far after the sender's schedule, on its own clock, a party sees packets arrive. -/
def skew (link : Link) (receiver : Party) : Word :=
  (link.base receiver - link.base receiver.peer).setWidth 32 +
    BitVec.ofNat 32 (link.delay receiver.peer)

def arrival (link : Link) (receiver : Party) (scheduled : Word64) : Word64 :=
  scheduled - link.base receiver.peer + link.base receiver +
    BitVec.ofNat 64 (link.delay receiver.peer)

theorem arrival_truncated (link : Link) (receiver : Party) (scheduled : Word64) :
    (link.arrival receiver scheduled).setWidth 32 = scheduled.setWidth 32 + link.skew receiver := by
  simp only [arrival, skew, truncate_add, truncate_sub,
    BitVec.setWidth_ofNat_of_le (show 32 ≤ 64 by decide)]
  ring

theorem skew_add_skew (link : Link) (party : Party) :
    link.skew party + link.skew party.peer = BitVec.ofNat 32 link.roundTrip := by
  have both : link.delay party + link.delay party.peer = link.roundTrip := by
    cases party with
    | client => rfl
    | server => exact Nat.add_comm _ _
  rw [← both, BitVec.ofNat_add]
  simp only [skew, truncate_sub, Party.peer_peer]
  ring

end Link

structure Flight where
  packet : Packet
  scheduled : Word64

/-- `received` counts the packets each party has been delivered; the code does not keep it. -/
structure Exchange where
  session : Party → Session
  flights : Party → List Flight := fun _ => []
  received : Party → Nat := fun _ => 0

inductive ExchangeEvent where
  | transmit (sender : Party) (result : SendResult)
  | deliver (receiver : Party) (flight : Flight)

namespace Exchange

def afterTransmit (exchange : Exchange) (sender : Party) (result : SendResult) : Exchange :=
  let s := exchange.session sender
  { exchange with
    session := Function.update exchange.session sender (transmit sender.isServer result s).2
    flights :=
      if result = .sent then
        Function.update exchange.flights sender
          (⟨(prepareTxPacket s).tx, s.nextSend⟩ :: exchange.flights sender)
      else exchange.flights }

def afterDeliver (quiet : Bool) (link : Link) (exchange : Exchange) (receiver : Party)
    (flight : Flight) : Exchange :=
  { exchange with
    session := Function.update exchange.session receiver
      (receivePacket quiet receiver.isServer (exchange.session receiver) flight.packet
        (link.arrival receiver flight.scheduled))
    received := Function.update exchange.received receiver (exchange.received receiver + 1) }

/-- A refused connection ends the client, so only successful passes of the sending
loop are steps. -/
inductive Step (quiet : Bool) (link : Link) : Exchange → ExchangeEvent → Exchange → Prop where
  | transmit {exchange : Exchange} {sender : Party} {result : SendResult}
      (running : (Isoping.transmit sender.isServer result (exchange.session sender)).1 = 0) :
      Step quiet link exchange (.transmit sender result) (exchange.afterTransmit sender result)
  | deliver {exchange : Exchange} {receiver : Party} {flight : Flight}
      (inFlight : flight ∈ exchange.flights receiver.peer) :
      Step quiet link exchange (.deliver receiver flight)
        (exchange.afterDeliver quiet link receiver flight)

end Exchange

/-- A session on which nothing has been received: either established outright, or
a client's that has just got its cookie. -/
structure Session.Fresh (party : Party) (usec : Word) (s : Session) : Prop where
  rate : s.usecPerPkt = usec
  unstarted : s.nextRxId = 0
  untimed : s.startRtxtime = 0
  phase : s.handshakeState = .established ∧ s.tx.data = .cleared ∨
    party = .client ∧ s.handshakeState = .cookieGenerated

structure Exchange.Fresh (usec : Word) (exchange : Exchange) : Prop where
  session : ∀ party, (exchange.session party).Fresh party usec
  flights : ∀ party, exchange.flights party = []
  received : ∀ party, exchange.received party = 0

theorem Session.fresh_new (usecPerPrint : Word) (firstSend : Word64) (usec : Word)
    (raddr : Sockaddr) :
    ({ Session.new usecPerPrint firstSend usec raddr with
      handshakeState := .established } : Session).Fresh .server usec :=
  ⟨rfl, rfl, rfl, .inl ⟨rfl, rfl⟩⟩

theorem Session.fresh_receiveCookie {s : Session} (untimed : s.startRtxtime = 0) (rx : Packet)
    (now : Word64) : (receiveCookie s rx now).Fresh .client (ntohl rx.usecPerPkt) :=
  ⟨rfl, rfl, untimed, .inr ⟨rfl, rfl⟩⟩

end Gfiber.Isoping
