import Gfiber.Isoping.Exchange
import Mathlib.Tactic

/-! Latency arithmetic between two sessions whose packets take a constant time in
each direction. Every packet then arrives at a fixed offset from its scheduled
time, and all the wrapped differences of `handle_ack_packet` reduce to the two
offsets. -/

set_option autoImplicit false

namespace Gfiber.Isoping
open Lib

/-- Where `handle_ack_packet` stands after the initial timing, with the peer's
schedule starting at `origin` and packets arriving `skew` after it. -/
structure Session.Aligned (origin skew : Word) (s : Session) : Prop where
  remote : s.startRtxtime = origin
  local_ : s.startRxtime.setWidth 32 = origin + skew

/-- The packet in the receive buffer was sent on the peer's schedule and arrives
at the usual offset. -/
structure Session.OnTime (origin skew : Word) (s : Session) (now : Word64) : Prop where
  sent : ntohl s.rx.txtime = origin + s.packetOffset (ntohl s.rx.id)
  arrived : now.setWidth 32 = origin + s.packetOffset (ntohl s.rx.id) + skew

theorem Session.OnTime.aligned_startTiming {origin skew : Word} {s : Session} {now : Word64}
    (onTime : s.OnTime origin skew now) (known : s.nextRxId ≠ 0 → s.Aligned origin skew) :
    (startTiming s now).Aligned origin skew := by
  unfold startTiming
  split
  · refine ⟨?_, ?_⟩
    · simp [onTime.sent]
    · simp only [truncate_sub, truncate_setWidth, onTime.arrived]
      ring
  · rename_i started
    exact known started

theorem Session.Aligned.after_countLoss {origin skew : Word} {s : Session}
    (aligned : s.Aligned origin skew) : (countLoss s).Aligned origin skew := by
  simp only [countLoss]
  split
  · exact ⟨aligned.remote, aligned.local_⟩
  · split
    · exact ⟨aligned.remote, aligned.local_⟩
    · exact aligned

theorem Session.OnTime.arrivalDiff_eq_zero {origin skew : Word} {s : Session} {now : Word64}
    (onTime : s.OnTime origin skew now) (aligned : s.Aligned origin skew) :
    s.arrivalDiff now = 0 := by
  simp only [Session.arrivalDiff, truncate_sub, truncate_add, truncate_setWidth, onTime.arrived,
    aligned.local_]
  ring

theorem Session.OnTime.fixClock_eq_self {origin skew : Word} {s : Session} {now : Word64}
    (onTime : s.OnTime origin skew now) (aligned : s.Aligned origin skew) :
    fixClock s now = s := by
  simp [fixClock, onTime.arrivalDiff_eq_zero aligned]

theorem Session.OnTime.transfer {origin skew : Word} {s s' : Session} {now : Word64}
    (onTime : s.OnTime origin skew now) (packet : s'.rx = s.rx)
    (rate : s'.usecPerPkt = s.usecPerPkt) : s'.OnTime origin skew now := by
  obtain ⟨sent, arrived⟩ := onTime
  refine ⟨?_, ?_⟩
  · simpa only [Session.packetOffset, packet, rate] using sent
  · simpa only [Session.packetOffset, packet, rate] using arrived

theorem Session.OnTime.after_synchronize {origin skew : Word} {s : Session} {now : Word64}
    (onTime : s.OnTime origin skew now) (known : s.nextRxId ≠ 0 → s.Aligned origin skew) :
    (synchronize s now).Aligned origin skew ∧ (synchronize s now).OnTime origin skew now := by
  have aligned := (onTime.aligned_startTiming known).after_countLoss
  obtain ⟨_, _, _, timed⟩ := startTiming_shape s now
  have counted : (countLoss (startTiming s now)).OnTime origin skew now := by
    apply onTime.transfer
    · rw [countLoss_shape, timed]
    · rw [countLoss_shape, timed]
  rw [synchronize, counted.fixClock_eq_self aligned]
  exact ⟨aligned, counted⟩

theorem Session.Aligned.clockEstimate_eq {origin skew : Word} {s : Session} {now : Word64}
    (aligned : s.Aligned origin skew) (onTime : s.OnTime origin skew now) :
    s.clockEstimate now =
      { rxdiff := 0
        clockdiff := skew
        rtt := skew + ntohl s.rx.clockdiff
        offset := skew - (skew + ntohl s.rx.clockdiff).sdiv 2 } := by
  have clockdiff : s.startRxtime.setWidth 32 - s.startRtxtime = skew := by
    rw [aligned.local_, aligned.remote]
    ring
  simp only [Session.clockEstimate, onTime.arrivalDiff_eq_zero aligned, clockdiff]

theorem startRxtime_updateCycle {clock : ClockEstimate} (onTime : clock.rxdiff = 0) (s : Session)
    (now : Word64) : (updateCycle clock s now).startRxtime = s.startRxtime := by
  have bounded : ¬ 0 < (noteRxdiff clock s).minCycleRxdiff.toInt := by
    simp only [noteRxdiff, onTime]
    split
    · simp
    · assumption
  unfold updateCycle closeCycle
  split
  · rfl
  · rfl

/-- `rtt`, as `handle_ack_packet` computes it. -/
def Session.roundTrip (s : Session) (now : Word64) : Word :=
  ((synchronize s now).clockEstimate now).rtt

/-- `offset`, as `handle_ack_packet` computes it. -/
def Session.clockOffset (s : Session) (now : Word64) : Word :=
  ((synchronize s now).clockEstimate now).offset

/-- The session as `handle_ack_packet` has it before round `round` of its last loop. -/
def Session.beforeRound (quiet : Bool) (s : Session) (now : Word64) (round : Nat) : Session :=
  ackRounds quiet (s.clockOffset now) (recordArrival quiet (synchronize s now) now) round

/-- What a packet with a clock offset makes `handle_ack_packet` measure when the
two directions together take `total` microseconds. -/
structure Session.Measures (quiet : Bool) (s : Session) (now : Word64) (total : Nat) : Prop where
  roundTrip : (s.roundTrip now).toInt = total
  received : (handleAckPacket quiet s now).latRx.latest = (total / 2 : Nat)
  acknowledged : ∀ round < 64,
    let before := s.beforeRound quiet now round
    before.expectsAck (ackIndex before round) →
      (s.beforeRound quiet now (round + 1)).latTx.latest = (total - total / 2 : Nat)

/-- Every acknowledgement in a packet's ring reports a packet of the schedule that
starts at `origin`, received `skew` after its time. -/
def AcksOnTime (origin usec skew : Word) (data : PacketData) : Prop :=
  ∀ slot, ntohl (data.ackId slot) ≠ 0 →
    ntohl (data.ackRxtime slot) = origin + ntohl (data.ackId slot) * usec + skew

theorem acksOnTime_cleared (origin usec skew : Word) : AcksOnTime origin usec skew .cleared := by
  intro slot occupied
  simp at occupied

theorem AcksOnTime.setAck {origin usec skew : Word} {data : PacketData}
    (acks : AcksOnTime origin usec skew data) (slot : AckSlot) {id rxtime : Word}
    (onTime : rxtime = origin + id * usec + skew) :
    AcksOnTime origin usec skew (data.setAck slot (htonl id) (htonl rxtime)) := by
  intro read occupied
  by_cases same : read = slot
  · simp [same, onTime]
  · simp only [PacketData.ackId_setAck, PacketData.ackRxtime_setAck, if_neg same] at occupied ⊢
    exact acks read occupied

section Arrival

variable {quiet : Bool} {origin skew : Word} {s : Session} {now : Word64}

theorem Session.OnTime.roundTrip_eq (onTime : s.OnTime origin skew now)
    (known : s.nextRxId ≠ 0 → s.Aligned origin skew) :
    s.roundTrip now = skew + ntohl s.rx.clockdiff := by
  obtain ⟨aligned, still⟩ := onTime.after_synchronize known
  obtain ⟨_, _, _, shape⟩ := synchronize_shape s now
  rw [Session.roundTrip, aligned.clockEstimate_eq still, shape]

theorem Session.OnTime.clockOffset_eq (onTime : s.OnTime origin skew now)
    (known : s.nextRxId ≠ 0 → s.Aligned origin skew) :
    s.clockOffset now = skew - (s.roundTrip now).sdiv 2 := by
  obtain ⟨aligned, still⟩ := onTime.after_synchronize known
  rw [Session.clockOffset, Session.roundTrip, aligned.clockEstimate_eq still]

theorem Session.OnTime.aligned_handleAckPacket (onTime : s.OnTime origin skew now)
    (quiet : Bool) (known : s.nextRxId ≠ 0 → s.Aligned origin skew) :
    (handleAckPacket quiet s now).Aligned origin skew := by
  obtain ⟨aligned, still⟩ := onTime.after_synchronize known
  have early : ((synchronize s now).clockEstimate now).rxdiff = 0 := by
    rw [aligned.clockEstimate_eq still]
  have kept : (handleAckPacket quiet s now).startRxtime = (synchronize s now).startRxtime := by
    obtain ⟨_, _, _, acked⟩ := ackRounds_shape quiet (s.clockOffset now)
      (recordArrival quiet (synchronize s now) now) 64
    obtain ⟨_, _, recorded⟩ := recordRx_shape ((synchronize s now).clockEstimate now)
      (synchronize s now) now
    obtain ⟨_, _, printed⟩ := printLine_shape quiet (recordRx
      ((synchronize s now).clockEstimate now) (synchronize s now) now) now
    calc (handleAckPacket quiet s now).startRxtime
        = (recordArrival quiet (synchronize s now) now).startRxtime := by
          unfold Session.clockOffset at acked
          simp only [handleAckPacket, acked]
      _ = (synchronize s now).startRxtime := by
          simp only [recordArrival, scheduleAck]
          rw [startRxtime_updateCycle early, printed, recorded]
  refine ⟨?_, ?_⟩
  · rw [startRtxtime_handleAckPacket]
    exact (onTime.aligned_startTiming known).remote
  · rw [kept]
    exact aligned.local_

theorem latRx_handleAckPacket (quiet : Bool) (s : Session) (now : Word64) :
    (handleAckPacket quiet s now).latRx =
      (recordRx ((synchronize s now).clockEstimate now) (synchronize s now) now).latRx := by
  generalize synchronized : synchronize s now = s₁
  generalize estimated : s₁.clockEstimate now = clock
  obtain ⟨_, _, _, acked⟩ := ackRounds_shape quiet clock.offset (recordArrival quiet s₁ now) 64
  obtain ⟨_, _, printed⟩ := printLine_shape quiet (recordRx clock s₁ now) now
  obtain ⟨_, _, _, cycled⟩ :=
    updateCycle_shape clock (printLine quiet (recordRx clock s₁ now) now) now
  simp only [handleAckPacket, synchronized, estimated, acked]
  simp only [recordArrival, estimated, scheduleAck]
  rw [cycled, printed]

theorem Session.beforeRound_reads (quiet : Bool) (s : Session) (now : Word64) (round : Nat) :
    (s.beforeRound quiet now round).rx = s.rx ∧
      (s.beforeRound quiet now round).usecPerPkt = s.usecPerPkt ∧
      (s.beforeRound quiet now round).nextSend = s.nextSend ∧
      (s.beforeRound quiet now round).nextTxId = s.nextTxId := by
  obtain ⟨_, _, _, synchronized⟩ := synchronize_shape s now
  obtain ⟨_, _, _, _, _, _, recorded⟩ := recordArrival_shape quiet (synchronize s now) now
  obtain ⟨_, _, _, acked⟩ := ackRounds_shape quiet (s.clockOffset now)
    (recordArrival quiet (synchronize s now) now) round
  rw [Session.beforeRound, acked, recorded, synchronized]
  exact ⟨rfl, rfl, rfl, rfl⟩

theorem toInt_ofNat_of_lt {value : Nat} (bound : value < 2 ^ 31) :
    (BitVec.ofNat 32 value).toInt = value := by
  rw [BitVec.toInt_eq_toNat_of_lt (by simp; omega), BitVec.toNat_ofNat,
    Nat.mod_eq_of_lt (by omega)]

theorem sdiv_two_ofNat {value : Nat} (bound : value < 2 ^ 31) :
    (BitVec.ofNat 32 value).sdiv 2 = BitVec.ofNat 32 (value / 2) := by
  apply BitVec.eq_of_toInt_eq
  rw [BitVec.toInt_sdiv_of_ne_or_ne _ _ (.inr (by decide)), toInt_ofNat_of_lt bound,
    toInt_ofNat_of_lt (by omega)]
  rfl

theorem Session.OnTime.measures (onTime : s.OnTime origin skew now)
    (known : s.nextRxId ≠ 0 → s.Aligned origin skew) {origin' skew' : Word} {total : Nat}
    (schedule : s.nextSend.setWidth 32 = origin' + s.packetOffset s.nextTxId)
    (acks : AcksOnTime origin' s.usecPerPkt skew' s.rx.data)
    (present : s.rx.clockdiff ≠ 0) (clockdiff : ntohl s.rx.clockdiff = skew')
    (bound : total < 2 ^ 31) (both : skew + skew' = BitVec.ofNat 32 total) :
    s.Measures quiet now total := by
  have trip : s.roundTrip now = BitVec.ofNat 32 total := by
    rw [onTime.roundTrip_eq known, clockdiff, both]
  obtain ⟨aligned, still⟩ := onTime.after_synchronize known
  obtain ⟨_, _, _, shape⟩ := synchronize_shape s now
  refine ⟨by rw [trip, toInt_ofNat_of_lt bound], ?_, ?_⟩
  · have offered : ¬ ntohl (synchronize s now).rx.clockdiff = 0 := by
      rw [shape]
      simpa using present
    have rtt : ((synchronize s now).clockEstimate now).rtt = BitVec.ofNat 32 total := trip
    have early : ((synchronize s now).clockEstimate now).rxdiff = 0 := by
      rw [aligned.clockEstimate_eq still]
    rw [latRx_handleAckPacket, recordRx, if_neg offered]
    simp only [LatencyStats.record, early, rtt, sdiv_two_ofNat bound, zero_add]
    exact toInt_ofNat_of_lt (by omega)
  · intro round _ before expected
    obtain ⟨rx, rate, send, id⟩ := s.beforeRound_reads quiet now round
    have occupied : ntohl (s.rx.data.ackId (ackIndex before round)) ≠ 0 := by
      simp only [Session.expectsAck, before, rx, Bool.and_eq_true, decide_eq_true_eq] at expected
      exact expected.1
    have delay : before.ackDelay (s.clockOffset now) (ackIndex before round) =
        BitVec.ofNat 32 (total - total / 2) := by
      simp only [Session.ackDelay, Session.packetOffset, before, rx, rate, send, id] at schedule ⊢
      rw [schedule, acks _ occupied, onTime.clockOffset_eq known, trip, sdiv_two_ofNat bound]
      have parts : BitVec.ofNat 32 total =
          BitVec.ofNat 32 (total - total / 2) + BitVec.ofNat 32 (total / 2) := by
        rw [← BitVec.ofNat_add]
        congr 1
        omega
      linear_combination both + parts
    have after : s.beforeRound quiet now (round + 1) =
        ackRound quiet (s.clockOffset now) before round := ackRounds_succ ..
    rw [after]
    simp only [ackRound, expected, if_true, LatencyStats.record, delay]
    exact toInt_ofNat_of_lt (by omega)

end Arrival

/-- The session as the handlers hand it to `handle_ack_packet` for an arriving packet. -/
def Session.taking (isServer : Bool) (s : Session) (rx : Packet) : Session :=
  if rx.packetType = packetTypeHandshake then s.established rx
  else acceptConnection isServer (s.withRx rx)

theorem Session.taking_shape (isServer : Bool) (s : Session) (rx : Packet) :
    ∃ state rx' data, s.taking isServer rx =
      { s with handshakeState := state, rx := rx', tx := { s.tx with data := data } } ∧
      rx' = (if rx.packetType = packetTypeHandshake then rx.withoutHandshake else rx) ∧
      (data = s.tx.data ∧ (rx.packetType = packetTypeHandshake ∧ state = .established ∨
          state = s.handshakeState ∧
            ¬ (isServer = false ∧ s.handshakeState = .cookieGenerated)) ∨
        data = .cleared ∧ state = .established) := by
  unfold Session.taking Session.established acceptConnection Session.withRx
  split
  · rename_i handshake
    exact ⟨_, _, _, rfl, rfl, .inl ⟨rfl, .inl ⟨handshake, rfl⟩⟩⟩
  · split
    · exact ⟨_, _, _, rfl, rfl, .inr ⟨rfl, rfl⟩⟩
    · rename_i other
      exact ⟨_, _, _, rfl, rfl, .inl ⟨rfl, .inr ⟨rfl, by simpa using other⟩⟩⟩

/-- What holds of each party between steps: its own schedule never slips, and once
a packet has arrived it is aligned with the peer's. -/
structure Session.Scheduled (link : Link) (usec : Word) (origin : Party → Word) (party : Party)
    (received : Nat) (s : Session) : Prop where
  rate : s.usecPerPkt = usec
  schedule : s.nextSend.setWidth 32 = origin party + s.packetOffset s.nextTxId
  phase : s.handshakeState = .established ∧
      AcksOnTime (origin party.peer) usec (link.skew party) s.tx.data ∨
    party = .client ∧ s.handshakeState = .cookieGenerated
  timing : received = 0 ∧ s.nextRxId = 0 ∧ s.startRtxtime = 0 ∨
    s.Aligned (origin party.peer) (link.skew party)

structure Flight.Scheduled (link : Link) (usec : Word) (origin : Party → Word) (sender : Party)
    (flight : Flight) : Prop where
  sent : ntohl flight.packet.txtime = origin sender + ntohl flight.packet.id * usec
  departed : flight.scheduled.setWidth 32 = origin sender + ntohl flight.packet.id * usec
  clockdiff : flight.packet.clockdiff = 0 ∨ ntohl flight.packet.clockdiff = link.skew sender
  content : flight.packet.packetType = packetTypeAck ∧
      AcksOnTime (origin sender.peer) usec (link.skew sender) flight.packet.data ∨
    sender = .client ∧ flight.packet.packetType = packetTypeHandshake

structure Exchange.Scheduled (link : Link) (usec : Word) (origin : Party → Word)
    (exchange : Exchange) : Prop where
  session : ∀ party,
    (exchange.session party).Scheduled link usec origin party (exchange.received party)
  flights : ∀ party, ∀ flight ∈ exchange.flights party, flight.Scheduled link usec origin party

theorem Exchange.Fresh.scheduled {usec : Word} {exchange : Exchange}
    (fresh : exchange.Fresh usec) (link : Link) :
    exchange.Scheduled link usec fun party =>
      (exchange.session party).nextSend.setWidth 32 -
        (exchange.session party).packetOffset (exchange.session party).nextTxId := by
  refine ⟨fun party => ?_, fun party flight member => ?_⟩
  · obtain ⟨rate, unstarted, untimed, phase⟩ := fresh.session party
    refine ⟨rate, by ring, ?_, .inl ⟨fresh.received party, unstarted, untimed⟩⟩
    rcases phase with ⟨established, empty⟩ | waiting
    · exact .inl ⟨established, empty ▸ acksOnTime_cleared _ _ _⟩
    · exact .inr waiting
  · rw [fresh.flights party] at member
    cases member

section Steps

variable {quiet : Bool} {link : Link} {usec : Word} {origin : Party → Word} {party : Party}
  {received : Nat} {s : Session}

theorem Session.Scheduled.prepared (scheduled : s.Scheduled link usec origin party received) :
    Flight.Scheduled link usec origin party ⟨(prepareTxPacket s).tx, s.nextSend⟩ := by
  have departed := scheduled.schedule
  simp only [Session.packetOffset, scheduled.rate] at departed
  refine ⟨by simpa [prepareTxPacket] using departed, by simpa [prepareTxPacket] using departed,
    ?_, ?_⟩
  · rcases scheduled.timing with ⟨_, _, untimed⟩ | aligned
    · left
      simp [prepareTxPacket, untimed]
    · by_cases zero : s.startRtxtime = 0
      · left
        simp [prepareTxPacket, zero]
      · right
        simp only [prepareTxPacket, if_neg zero, ntohl_htonl]
        rw [aligned.local_, aligned.remote]
        ring
  · rcases scheduled.phase with ⟨established, acks⟩ | ⟨client, waiting⟩
    · left
      simp only [prepareTxPacket, established]
      exact ⟨trivial, acks⟩
    · right
      simp only [prepareTxPacket, waiting]
      exact ⟨client, trivial⟩

theorem Session.Scheduled.transmit (scheduled : s.Scheduled link usec origin party received)
    {result : SendResult} (running : (Isoping.transmit party.isServer result s).1 = 0) :
    (Isoping.transmit party.isServer result s).2.Scheduled link usec origin party received := by
  have sent : (Isoping.transmit party.isServer result s).2 =
      { prepareTxPacket s with nextSend := s.nextSend + s.usecPerPkt.signExtend 64 } := by
    simp only [Isoping.transmit, sendPacket] at running ⊢
    split at running
    · cases running
    · rename_i accepted
      rw [if_neg accepted, if_pos]
      · rfl
      · rcases scheduled.phase with ⟨established, _⟩ | ⟨_, waiting⟩
        · simp [prepareTxPacket, established]
        · simp [prepareTxPacket, waiting]
  rw [sent]
  refine ⟨scheduled.rate, ?_, scheduled.phase, ?_⟩
  · have departed := scheduled.schedule
    simp only [Session.packetOffset, prepareTxPacket, truncate_add, truncate_signExtend] at departed ⊢
    rw [departed]
    ring
  · rcases scheduled.timing with first | aligned
    · exact .inl first
    · exact .inr ⟨aligned.remote, aligned.local_⟩

variable {flight : Flight}

theorem Flight.Scheduled.receivePacket_eq
    (inFlight : flight.Scheduled link usec origin party.peer) (s : Session) (now : Word64) :
    receivePacket quiet party.isServer s flight.packet now =
      handleAckPacket quiet (s.taking party.isServer flight.packet) now := by
  rcases inFlight.content with ⟨ack, _⟩ | ⟨client, handshake⟩
  · have notHandshake : ¬ flight.packet.packetType = packetTypeHandshake := by
      rw [ack]
      decide
    rw [receivePacket, if_neg notHandshake, if_pos ack, receiveAck, Session.taking,
      if_neg notHandshake]
  · have server : party.isServer = true := by
      cases party with
      | client => cases client
      | server => rfl
    rw [receivePacket, if_pos handshake, server, if_pos rfl, receiveCookieEcho, Session.taking,
      if_pos handshake]

theorem Flight.Scheduled.ack_from_server (inFlight : flight.Scheduled link usec origin .server) :
    ¬ flight.packet.packetType = packetTypeHandshake := by
  rcases inFlight.content with ⟨ack, _⟩ | ⟨client, _⟩
  · rw [ack]
    decide
  · cases client

theorem Flight.Scheduled.rx_taking (inFlight : flight.Scheduled link usec origin party.peer)
    (s : Session) :
    (s.taking party.isServer flight.packet).rx.id = flight.packet.id ∧
      (s.taking party.isServer flight.packet).rx.txtime = flight.packet.txtime ∧
      (s.taking party.isServer flight.packet).rx.clockdiff = flight.packet.clockdiff ∧
      AcksOnTime (origin party) usec (link.skew party.peer)
        (s.taking party.isServer flight.packet).rx.data := by
  obtain ⟨_, _, _, shape, content, _⟩ := s.taking_shape party.isServer flight.packet
  rw [shape, content]
  rcases inFlight.content with ⟨ack, acks⟩ | ⟨_, handshake⟩
  · have notHandshake : ¬ flight.packet.packetType = packetTypeHandshake := by
      rw [ack]
      decide
    rw [Party.peer_peer] at acks
    rw [if_neg notHandshake]
    exact ⟨rfl, rfl, rfl, acks⟩
  · rw [if_pos handshake]
    exact ⟨rfl, rfl, rfl, acksOnTime_cleared _ _ _⟩

theorem Session.Scheduled.onTime (scheduled : s.Scheduled link usec origin party received)
    (inFlight : flight.Scheduled link usec origin party.peer) :
    (s.taking party.isServer flight.packet).OnTime (origin party.peer) (link.skew party)
      (link.arrival party flight.scheduled) := by
  obtain ⟨id, txtime, _, _⟩ := inFlight.rx_taking s
  obtain ⟨_, _, _, shape, _, _⟩ := s.taking_shape party.isServer flight.packet
  have rate : (s.taking party.isServer flight.packet).usecPerPkt = usec := by
    rw [shape]
    exact scheduled.rate
  refine ⟨?_, ?_⟩
  · rw [Session.packetOffset, id, txtime, rate, inFlight.sent]
  · rw [Session.packetOffset, id, rate, link.arrival_truncated, inFlight.departed]

theorem Session.Scheduled.known (scheduled : s.Scheduled link usec origin party received)
    (rx : Packet) :
    (s.taking party.isServer rx).nextRxId ≠ 0 →
      (s.taking party.isServer rx).Aligned (origin party.peer) (link.skew party) := by
  obtain ⟨_, _, _, shape, _, _⟩ := s.taking_shape party.isServer rx
  rw [shape]
  intro started
  rcases scheduled.timing with ⟨_, unstarted, _⟩ | aligned
  · exact absurd unstarted started
  · exact ⟨aligned.remote, aligned.local_⟩

theorem Session.Scheduled.deliver (scheduled : s.Scheduled link usec origin party received)
    (inFlight : flight.Scheduled link usec origin party.peer) :
    (receivePacket quiet party.isServer s flight.packet
      (link.arrival party flight.scheduled)).Scheduled link usec origin party (received + 1) := by
  have onTime := scheduled.onTime inFlight
  have aligned := onTime.aligned_handleAckPacket quiet (scheduled.known flight.packet)
  obtain ⟨id, _, _, _⟩ := inFlight.rx_taking s
  obtain ⟨state, rx, data, shape, _, content⟩ := s.taking_shape party.isServer flight.packet
  have accepted : state = .established ∧
      AcksOnTime (origin party.peer) usec (link.skew party) data := by
    rcases content with ⟨kept, changed⟩ | ⟨cleared, established⟩
    · rcases scheduled.phase with ⟨established, acks⟩ | ⟨client, waiting⟩
      · rcases changed with ⟨_, changed⟩ | ⟨changed, _⟩
        · exact ⟨changed, kept ▸ acks⟩
        · exact ⟨changed.trans established, kept ▸ acks⟩
      · subst client
        rcases changed with ⟨handshake, _⟩ | ⟨_, excluded⟩
        · exact absurd handshake inFlight.ack_from_server
        · exact absurd ⟨rfl, waiting⟩ excluded
    · exact ⟨established, cleared ▸ acksOnTime_cleared _ _ _⟩
  rw [inFlight.receivePacket_eq]
  refine ⟨?_, ?_, .inl ⟨?_, ?_⟩, .inr aligned⟩
  · rw [usecPerPkt_handleAckPacket, shape]
    exact scheduled.rate
  · simp only [Session.packetOffset, usecPerPkt_handleAckPacket, nextSend_handleAckPacket,
      nextTxId_handleAckPacket, shape]
    exact scheduled.schedule
  · rw [handshakeState_handleAckPacket, shape]
    exact accepted.1
  · rw [txData_handleAckPacket]
    apply AcksOnTime.setAck
    · rw [shape]
      exact accepted.2
    · have arrived := onTime.arrived
      rw [Session.packetOffset, show (s.taking party.isServer flight.packet).usecPerPkt = usec by
        rw [shape]; exact scheduled.rate] at arrived
      exact arrived

/-- What exactness means for one step: a delivered packet with a clock
offset is measured exactly, and after the first one the start time stays. -/
def Exchange.Exact (quiet : Bool) (link : Link) (exchange : Exchange) : ExchangeEvent → Prop
  | .transmit _ _ => True
  | .deliver receiver flight =>
      let s := (exchange.session receiver).taking receiver.isServer flight.packet
      let now := link.arrival receiver flight.scheduled
      receivePacket quiet receiver.isServer (exchange.session receiver) flight.packet now =
          handleAckPacket quiet s now ∧
        (flight.packet.clockdiff ≠ 0 → s.Measures quiet now link.roundTrip) ∧
        (0 < exchange.received receiver →
          (handleAckPacket quiet s now).startRxtime.setWidth 32 =
            (exchange.session receiver).startRxtime.setWidth 32)

theorem Exchange.Scheduled.exact_deliver {exchange : Exchange}
    (scheduled : exchange.Scheduled link usec origin) (bound : link.roundTrip < 2 ^ 31)
    (inFlight : flight ∈ exchange.flights party.peer) :
    exchange.Exact quiet link (.deliver party flight) := by
  have flying := scheduled.flights party.peer flight inFlight
  have session := scheduled.session party
  have onTime := session.onTime flying
  have known := session.known flight.packet
  obtain ⟨_, _, clockdiff, acks⟩ := flying.rx_taking (exchange.session party)
  obtain ⟨_, _, _, shape, _, _⟩ :=
    (exchange.session party).taking_shape party.isServer flight.packet
  refine ⟨flying.receivePacket_eq _ _, fun present => ?_, fun positive => ?_⟩
  · generalize taken : (exchange.session party).taking party.isServer flight.packet = s at *
    have rate : s.usecPerPkt = usec := by
      rw [shape]
      exact session.rate
    have schedule : s.nextSend.setWidth 32 = origin party + s.packetOffset s.nextTxId := by
      rw [shape]
      exact session.schedule
    rw [← rate] at acks
    rw [← clockdiff] at present
    have peers : ntohl s.rx.clockdiff = link.skew party.peer := by
      rw [clockdiff] at present ⊢
      exact flying.clockdiff.resolve_left present
    exact onTime.measures known schedule acks present peers bound (link.skew_add_skew party)
  · have after := (onTime.aligned_handleAckPacket quiet known).local_
    rcases session.timing with ⟨none, _, _⟩ | aligned
    · omega
    · rw [after, aligned.local_]

theorem Exchange.Scheduled.step {exchange next : Exchange} {event : ExchangeEvent}
    (scheduled : exchange.Scheduled link usec origin)
    (step : Exchange.Step quiet link exchange event next) :
    next.Scheduled link usec origin := by
  cases step with
  | @transmit sender result running =>
      refine ⟨fun party => ?_, fun party flight member => ?_⟩
      · by_cases same : party = sender
        · subst same
          simp only [Exchange.afterTransmit, Function.update_self]
          exact (scheduled.session party).transmit running
        · simp only [Exchange.afterTransmit, Function.update_of_ne same]
          exact scheduled.session party
      · by_cases recorded : result = .sent ∧ party = sender
        · obtain ⟨sent, same⟩ := recorded
          subst same
          simp only [Exchange.afterTransmit, if_pos sent, Function.update_self,
            List.mem_cons] at member
          rcases member with rfl | earlier
          · exact (scheduled.session party).prepared
          · exact scheduled.flights party flight earlier
        · have kept : (exchange.afterTransmit sender result).flights party =
              exchange.flights party := by
            simp only [Exchange.afterTransmit]
            split
            · rename_i sent
              rw [Function.update_of_ne fun same => recorded ⟨sent, same⟩]
            · rfl
          exact scheduled.flights party flight (kept ▸ member)
  | @deliver receiver flight inFlight =>
      refine ⟨fun party => ?_, scheduled.flights⟩
      by_cases same : party = receiver
      · subst same
        simp only [Exchange.afterDeliver, Function.update_self]
        exact (scheduled.session party).deliver (scheduled.flights party.peer flight inFlight)
      · simp only [Exchange.afterDeliver, Function.update_of_ne same]
        exact scheduled.session party

end Steps

/-- Between two fresh sessions at the same rate, over a link whose two delays
together stay below `2 ^ 31` microseconds, every run measures every packet exactly. -/
theorem latency_exact {quiet : Bool} {link : Link} (bound : link.roundTrip < 2 ^ 31) {usec : Word}
    {start finish : Exchange} {trace : List (Exchange × ExchangeEvent)}
    (fresh : start.Fresh usec) (run : Run (Exchange.Step quiet link) start trace finish) :
    StepsMeet (Exchange.Exact quiet link) trace := by
  refine (run.throughout_observed (fresh.scheduled link) ?_).2
  intro exchange event next scheduled step
  refine ⟨scheduled.step step, ?_⟩
  cases step with
  | transmit => trivial
  | deliver inFlight => exact scheduled.exact_deliver bound inFlight

/-- The clocks, rate and latencies of the repository's own test of the algorithm. -/
def testLink : Link where
  base := fun | .client => 400000 | .server => 600000
  delay := fun | .client => 24000 | .server => 25000

def testAddr : Sockaddr := .inet (.replicate 2 0) (.replicate 4 0)

def testStart : Exchange where
  session := fun
    | .client => { Session.new 0 400000 100000 testAddr with handshakeState := .established }
    | .server => { Session.new 0 634000 100000 testAddr with handshakeState := .established }

def Exchange.departing (exchange : Exchange) (sender : Party) : Flight :=
  ⟨(prepareTxPacket (exchange.session sender)).tx, (exchange.session sender).nextSend⟩

def Exchange.send (exchange : Exchange) (sender : Party) : Exchange :=
  (exchange.afterTransmit sender .sent).afterDeliver true testLink sender.peer
    (exchange.departing sender)

def testTrace : List (Exchange × ExchangeEvent) :=
  let replied := testStart.send .client
  [(testStart, .transmit .client .sent),
    (testStart.afterTransmit .client .sent, .deliver .server (testStart.departing .client)),
    (replied, .transmit .server .sent),
    (replied.afterTransmit .server .sent, .deliver .client (replied.departing .server))]

theorem testStart_fresh : testStart.Fresh 100000 := by
  refine ⟨fun party => ?_, fun _ => rfl, fun _ => rfl⟩
  cases party <;> exact ⟨rfl, rfl, rfl, .inl ⟨rfl, rfl⟩⟩

theorem test_run : Run (Exchange.Step true testLink) testStart testTrace
    ((testStart.send .client).send .server) := by
  have flies (exchange : Exchange) (sender : Party) :
      exchange.departing sender ∈ (exchange.afterTransmit sender .sent).flights sender.peer.peer := by
    simp [Exchange.afterTransmit, Exchange.departing]
  exact Run.cons (.transmit (by decide +kernel)) (Run.cons (.deliver (flies _ .client))
    (Run.cons (.transmit (by decide +kernel)) (Run.cons (.deliver (flies _ .server)) .nil)))

theorem latency_exact_reply :
    StepsMeet (Exchange.Exact true testLink) testTrace ∧
      ((testStart.send .client).departing .server).packet.clockdiff ≠ 0 :=
  ⟨latency_exact (by decide) testStart_fresh test_run, by decide +kernel⟩

end Gfiber.Isoping
