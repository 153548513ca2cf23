import Gfiber.Isoping.Session

/-! `handle_ack_packet`, cut where its comments cut it: initial timing, loss
count, clock correction, receive statistics, clock cycle, own acknowledgement and
the acknowledgements of the peer. -/

set_option autoImplicit false

namespace Gfiber.Isoping
open Lib

def usecPerCycle : Nat := 10 * 1000 * 1000

def Session.packetOffset (s : Session) (id : Word) : Word := id * s.usecPerPkt

def startTiming (s : Session) (now : Word64) : Session :=
  let id := ntohl s.rx.id
  if s.nextRxId = 0 then
    { s with
      startRtxtime := ntohl s.rx.txtime - s.packetOffset id
      startRxtime := now - (s.packetOffset id).setWidth 64
      minCycleRxdiff := 0
      nextRxId := id
      nextCycle := (now + BitVec.ofNat 64 usecPerCycle).setWidth 32 }
  else s

def countLoss (s : Session) : Session :=
  let id := ntohl s.rx.id
  let tmpdiff := id - s.nextRxId
  if 0 < tmpdiff.toInt then
    { s with numLost := s.numLost + tmpdiff, nextRxId := s.nextRxId + tmpdiff + 1 }
  else if tmpdiff = 0 then { s with nextRxId := s.nextRxId + 1 }
  else s

/-- `DIFF64(rxtime, s->start_rxtime + id * s->usec_per_pkt)` as stored in an `int32_t`. -/
def Session.arrivalDiff (s : Session) (now : Word64) : Word :=
  (now - (s.startRxtime + (s.packetOffset (ntohl s.rx.id)).setWidth 64)).setWidth 32

def fixClock (s : Session) (now : Word64) : Session :=
  if (s.arrivalDiff now).toInt < -20 then
    { s with startRxtime := now - (s.packetOffset (ntohl s.rx.id)).setWidth 64 }
  else s

structure ClockEstimate where
  rxdiff : Word
  clockdiff : Word
  rtt : Word
  offset : Word
  deriving DecidableEq, Repr

def Session.clockEstimate (s : Session) (now : Word64) : ClockEstimate :=
  let clockdiff := s.startRxtime.setWidth 32 - s.startRtxtime
  let rtt := clockdiff + ntohl s.rx.clockdiff
  { rxdiff := s.arrivalDiff now
    clockdiff := clockdiff
    rtt := rtt
    offset := clockdiff - rtt.sdiv 2 }

def recordRx (clock : ClockEstimate) (s : Session) (now : Word64) : Session :=
  if ntohl s.rx.clockdiff = 0 then
    { s with lastPrint := (now - s.usecPerPrint.signExtend 64 + 1).setWidth 32 }
  else
    { s with latRx := s.latRx.record (clock.rxdiff + clock.rtt.sdiv 2).toInt }

def printLine (quiet : Bool) (s : Session) (now : Word64) : Session :=
  if !quiet && s.usecPerPrint.toInt ≤ diff (now.setWidth 32) s.lastPrint then
    { s with lastAckinfo := none, lastPrint := now.setWidth 32 }
  else s

def noteRxdiff (clock : ClockEstimate) (s : Session) : Session :=
  { s with
    minCycleRxdiff :=
      if clock.rxdiff.toInt < s.minCycleRxdiff.toInt then clock.rxdiff else s.minCycleRxdiff }

def closeCycle (s : Session) (now : Word64) : Session :=
  if 0 ≤ diff (now.setWidth 32) s.nextCycle then
    { s with
      startRxtime :=
        if 0 < s.minCycleRxdiff.toInt then s.startRxtime + s.minCycleRxdiff.signExtend 64
        else s.startRxtime
      minCycleRxdiff := 0x7fffffff
      nextCycle := s.nextCycle + BitVec.ofNat 32 usecPerCycle }
  else s

def updateCycle (clock : ClockEstimate) (s : Session) (now : Word64) : Session :=
  closeCycle (noteRxdiff clock s) now

def scheduleAck (s : Session) (now : Word64) : Session :=
  { s with
    tx := { s.tx with
      data := s.tx.data.setAck s.nextTxackIndex (htonl (ntohl s.rx.id))
        (htonl (now.setWidth 32)) }
    nextTxackIndex := AckSlot.wrap (s.nextTxackIndex + 1) }

def ackIndex (s : Session) (round : Nat) : AckSlot := AckSlot.wrap (s.rx.firstAck.toNat + round)

def Session.ackDelay (s : Session) (offset : Word) (acki : AckSlot) : Word :=
  let startTxtime := s.nextSend.setWidth 32 - s.packetOffset s.nextTxId
  let txtime := startTxtime + s.packetOffset (ntohl (s.rx.data.ackId acki))
  let rxtime := ntohl (s.rx.data.ackRxtime acki) + offset
  rxtime - txtime

def Session.expectsAck (s : Session) (acki : AckSlot) : Bool :=
  let ackid := ntohl (s.rx.data.ackId acki)
  ackid ≠ 0 && 0 ≤ diff ackid s.nextRxackId

def nextAckinfo (quiet : Bool) (s : Session) (txdiff : Word) : Option Word :=
  let shown := if !quiet && s.usecPerPrint.toInt ≤ 0 then none else s.lastAckinfo
  shown.or (some txdiff)

def ackRound (quiet : Bool) (offset : Word) (s : Session) (round : Nat) : Session :=
  let acki := ackIndex s round
  if s.expectsAck acki then
    let txdiff := s.ackDelay offset acki
    { s with
      lastAckinfo := nextAckinfo quiet s txdiff
      nextRxackId := ntohl (s.rx.data.ackId acki) + 1
      latTx := s.latTx.record txdiff.toInt }
  else s

def ackRounds (quiet : Bool) (offset : Word) (s : Session) (rounds : Nat) : Session :=
  (List.range rounds).foldl (ackRound quiet offset) s

def synchronize (s : Session) (now : Word64) : Session :=
  fixClock (countLoss (startTiming s now)) now

def recordArrival (quiet : Bool) (s : Session) (now : Word64) : Session :=
  let clock := s.clockEstimate now
  scheduleAck (updateCycle clock (printLine quiet (recordRx clock s now) now) now) now

def handleAckPacket (quiet : Bool) (s : Session) (now : Word64) : Session :=
  let s := synchronize s now
  let offset := (s.clockEstimate now).offset
  { ackRounds quiet offset (recordArrival quiet s now) 64 with lastRxtime := now.setWidth 32 }

/-! What each stage can change. -/

theorem recordRx_shape (clock : ClockEstimate) (s : Session) (now : Word64) :
    ∃ lastPrint latRx, recordRx clock s now = { s with lastPrint := lastPrint, latRx := latRx } := by
  unfold recordRx
  split
  · exact ⟨_, s.latRx, rfl⟩
  · exact ⟨s.lastPrint, _, rfl⟩

theorem printLine_shape (quiet : Bool) (s : Session) (now : Word64) :
    ∃ lastAckinfo lastPrint,
      printLine quiet s now = { s with lastAckinfo := lastAckinfo, lastPrint := lastPrint } := by
  unfold printLine
  split
  · exact ⟨none, _, rfl⟩
  · exact ⟨s.lastAckinfo, s.lastPrint, rfl⟩

theorem updateCycle_shape (clock : ClockEstimate) (s : Session) (now : Word64) :
    ∃ startRxtime minCycleRxdiff nextCycle, updateCycle clock s now =
      { s with
        startRxtime := startRxtime
        minCycleRxdiff := minCycleRxdiff
        nextCycle := nextCycle } := by
  unfold updateCycle closeCycle
  split
  · exact ⟨_, _, _, rfl⟩
  · exact ⟨s.startRxtime, _, s.nextCycle, rfl⟩

theorem ackRound_shape (quiet : Bool) (offset : Word) (s : Session) (round : Nat) :
    ∃ lastAckinfo nextRxackId latTx, ackRound quiet offset s round =
      { s with lastAckinfo := lastAckinfo, nextRxackId := nextRxackId, latTx := latTx } := by
  simp only [ackRound]
  split
  · exact ⟨_, _, _, rfl⟩
  · exact ⟨s.lastAckinfo, s.nextRxackId, s.latTx, rfl⟩

theorem ackRounds_zero (quiet : Bool) (offset : Word) (s : Session) :
    ackRounds quiet offset s 0 = s := rfl

theorem ackRounds_succ (quiet : Bool) (offset : Word) (s : Session) (rounds : Nat) :
    ackRounds quiet offset s (rounds + 1) =
      ackRound quiet offset (ackRounds quiet offset s rounds) rounds := by
  simp [ackRounds, List.range_succ]

theorem ackRounds_shape (quiet : Bool) (offset : Word) (s : Session) (rounds : Nat) :
    ∃ lastAckinfo nextRxackId latTx, ackRounds quiet offset s rounds =
      { s with lastAckinfo := lastAckinfo, nextRxackId := nextRxackId, latTx := latTx } := by
  induction rounds with
  | zero => exact ⟨s.lastAckinfo, s.nextRxackId, s.latTx, rfl⟩
  | succ rounds ih =>
      obtain ⟨info, next, lat, before⟩ := ih
      obtain ⟨info', next', lat', after⟩ :=
        ackRound_shape quiet offset (ackRounds quiet offset s rounds) rounds
      rw [ackRounds_succ, after, before]
      exact ⟨info', next', lat', rfl⟩

theorem startTiming_shape (s : Session) (now : Word64) :
    ∃ startRxtime minCycleRxdiff nextCycle, startTiming s now =
      { s with
        startRtxtime := (startTiming s now).startRtxtime
        nextRxId := (startTiming s now).nextRxId
        startRxtime := startRxtime
        minCycleRxdiff := minCycleRxdiff
        nextCycle := nextCycle } := by
  unfold startTiming
  split
  · exact ⟨_, _, _, rfl⟩
  · exact ⟨s.startRxtime, s.minCycleRxdiff, s.nextCycle, rfl⟩

theorem countLoss_shape (s : Session) :
    countLoss s =
      { s with nextRxId := (countLoss s).nextRxId, numLost := (countLoss s).numLost } := by
  simp only [countLoss]
  split
  · rfl
  · split <;> rfl

theorem fixClock_shape (s : Session) (now : Word64) :
    ∃ startRxtime, fixClock s now = { s with startRxtime := startRxtime } := by
  unfold fixClock
  split
  · exact ⟨_, rfl⟩
  · exact ⟨s.startRxtime, rfl⟩

theorem synchronize_shape (s : Session) (now : Word64) :
    ∃ startRxtime minCycleRxdiff nextCycle, synchronize s now =
      { s with
        startRtxtime := (startTiming s now).startRtxtime
        nextRxId := (countLoss (startTiming s now)).nextRxId
        numLost := (countLoss (startTiming s now)).numLost
        startRxtime := startRxtime
        minCycleRxdiff := minCycleRxdiff
        nextCycle := nextCycle } := by
  obtain ⟨_, cycle, next, timed⟩ := startTiming_shape s now
  obtain ⟨start, fixed⟩ := fixClock_shape (countLoss (startTiming s now)) now
  unfold synchronize
  rw [fixed, countLoss_shape, timed]
  exact ⟨start, cycle, next, rfl⟩

theorem recordArrival_shape (quiet : Bool) (s : Session) (now : Word64) :
    ∃ startRxtime minCycleRxdiff nextCycle lastAckinfo lastPrint latRx,
      recordArrival quiet s now =
        { s with
          tx := { s.tx with
            data := s.tx.data.setAck s.nextTxackIndex (htonl (ntohl s.rx.id))
              (htonl (now.setWidth 32)) }
          nextTxackIndex := AckSlot.wrap (s.nextTxackIndex + 1)
          startRxtime := startRxtime
          minCycleRxdiff := minCycleRxdiff
          nextCycle := nextCycle
          lastAckinfo := lastAckinfo
          lastPrint := lastPrint
          latRx := latRx } := by
  unfold recordArrival
  generalize s.clockEstimate now = clock
  obtain ⟨_, latRx, recorded⟩ := recordRx_shape clock s now
  dsimp only
  rw [recorded]
  generalize shown : { s with lastPrint := _, latRx := latRx } = s₁
  obtain ⟨info, print, printed⟩ := printLine_shape quiet s₁ now
  rw [printed]
  generalize kept : { s₁ with lastAckinfo := info, lastPrint := print } = s₂
  obtain ⟨start, cycle, next, cycled⟩ := updateCycle_shape clock s₂ now
  rw [cycled]
  subst kept shown
  exact ⟨start, cycle, next, info, print, latRx, rfl⟩

/-- Everything one received packet can change, with the exact value of the fields
that the sequence accounting and the outgoing packet depend on. -/
theorem handleAckPacket_shape (quiet : Bool) (s : Session) (now : Word64) :
    ∃ startRxtime minCycleRxdiff nextCycle lastAckinfo lastPrint nextRxackId latTx latRx,
      handleAckPacket quiet s now =
        { s with
          startRtxtime := (startTiming s now).startRtxtime
          nextRxId := (countLoss (startTiming s now)).nextRxId
          numLost := (countLoss (startTiming s now)).numLost
          tx := { s.tx with
            data := s.tx.data.setAck s.nextTxackIndex (htonl (ntohl s.rx.id))
              (htonl (now.setWidth 32)) }
          nextTxackIndex := AckSlot.wrap (s.nextTxackIndex + 1)
          lastRxtime := now.setWidth 32
          startRxtime := startRxtime
          minCycleRxdiff := minCycleRxdiff
          nextCycle := nextCycle
          lastAckinfo := lastAckinfo
          lastPrint := lastPrint
          nextRxackId := nextRxackId
          latTx := latTx
          latRx := latRx } := by
  unfold handleAckPacket
  dsimp only
  generalize ((synchronize s now).clockEstimate now).offset = offset
  obtain ⟨_, _, _, synchronized⟩ := synchronize_shape s now
  obtain ⟨start, cycle, next, _, print, latRx, recorded⟩ :=
    recordArrival_shape quiet (synchronize s now) now
  obtain ⟨info, rxack, latTx, acked⟩ :=
    ackRounds_shape quiet offset (recordArrival quiet (synchronize s now) now) 64
  refine ⟨start, cycle, next, info, print, rxack, latTx, latRx, ?_⟩
  rw [acked, recorded, synchronized]

@[simp] theorem usecPerPkt_handleAckPacket (quiet : Bool) (s : Session) (now : Word64) :
    (handleAckPacket quiet s now).usecPerPkt = s.usecPerPkt := by
  obtain ⟨_, _, _, _, _, _, _, _, shape⟩ := handleAckPacket_shape quiet s now
  rw [shape]

@[simp] theorem remoteaddr_handleAckPacket (quiet : Bool) (s : Session) (now : Word64) :
    (handleAckPacket quiet s now).remoteaddr = s.remoteaddr := by
  obtain ⟨_, _, _, _, _, _, _, _, shape⟩ := handleAckPacket_shape quiet s now
  rw [shape]

@[simp] theorem handshakeState_handleAckPacket (quiet : Bool) (s : Session) (now : Word64) :
    (handleAckPacket quiet s now).handshakeState = s.handshakeState := by
  obtain ⟨_, _, _, _, _, _, _, _, shape⟩ := handleAckPacket_shape quiet s now
  rw [shape]

@[simp] theorem nextTxId_handleAckPacket (quiet : Bool) (s : Session) (now : Word64) :
    (handleAckPacket quiet s now).nextTxId = s.nextTxId := by
  obtain ⟨_, _, _, _, _, _, _, _, shape⟩ := handleAckPacket_shape quiet s now
  rw [shape]

@[simp] theorem nextSend_handleAckPacket (quiet : Bool) (s : Session) (now : Word64) :
    (handleAckPacket quiet s now).nextSend = s.nextSend := by
  obtain ⟨_, _, _, _, _, _, _, _, shape⟩ := handleAckPacket_shape quiet s now
  rw [shape]

@[simp] theorem nextRxId_handleAckPacket (quiet : Bool) (s : Session) (now : Word64) :
    (handleAckPacket quiet s now).nextRxId = (countLoss (startTiming s now)).nextRxId := by
  obtain ⟨_, _, _, _, _, _, _, _, shape⟩ := handleAckPacket_shape quiet s now
  rw [shape]

@[simp] theorem numLost_handleAckPacket (quiet : Bool) (s : Session) (now : Word64) :
    (handleAckPacket quiet s now).numLost = (countLoss (startTiming s now)).numLost := by
  obtain ⟨_, _, _, _, _, _, _, _, shape⟩ := handleAckPacket_shape quiet s now
  rw [shape]

@[simp] theorem startRtxtime_handleAckPacket (quiet : Bool) (s : Session) (now : Word64) :
    (handleAckPacket quiet s now).startRtxtime = (startTiming s now).startRtxtime := by
  obtain ⟨_, _, _, _, _, _, _, _, shape⟩ := handleAckPacket_shape quiet s now
  rw [shape]

@[simp] theorem txData_handleAckPacket (quiet : Bool) (s : Session) (now : Word64) :
    (handleAckPacket quiet s now).tx.data =
      s.tx.data.setAck s.nextTxackIndex (htonl (ntohl s.rx.id)) (htonl (now.setWidth 32)) := by
  obtain ⟨_, _, _, _, _, _, _, _, shape⟩ := handleAckPacket_shape quiet s now
  rw [shape]

end Gfiber.Isoping
