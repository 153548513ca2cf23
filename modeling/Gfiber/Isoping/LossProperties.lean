import Gfiber.Lib.Run
import Gfiber.Isoping.PacketHandling
import Mathlib.Data.BitVec
import Mathlib.Tactic

/-! Loss accounting over sequences of received packets. A `Tally` adds to the
session the first id it received and the number of packets that moved
`next_rx_id` on; neither is read by the code. -/

set_option autoImplicit false

namespace Gfiber.Isoping
open Lib

structure Tally where
  session : Session
  firstId : Option Word := none
  advanced : Nat := 0

structure Arrival where
  packet : Packet
  now : Word64

/-- The branches of `handle_ack_packet` that move `next_rx_id` on. -/
def Session.advances (s : Session) (now : Word64) : Bool :=
  0 ≤ diff (ntohl s.rx.id) (startTiming s now).nextRxId

def Tally.receive (quiet : Bool) (tally : Tally) (arrival : Arrival) : Tally :=
  let session := tally.session.withRx arrival.packet
  { session := handleAckPacket quiet session arrival.now
    firstId := tally.firstId.or (some (ntohl arrival.packet.id))
    advanced := tally.advanced + if session.advances arrival.now then 1 else 0 }

def Tally.Step (quiet : Bool) (tally : Tally) (arrival : Arrival) (next : Tally) : Prop :=
  next = tally.receive quiet arrival

/-- Lost packets and packets that advanced `next_rx_id` account for every id from
the first one received up to the expected one. -/
def Tally.Accounted (tally : Tally) : Prop :=
  match tally.firstId with
  | none => tally.session.nextRxId = 0 ∧ tally.session.numLost = 0 ∧ tally.advanced = 0
  | some first =>
      tally.session.numLost + BitVec.ofNat 32 tally.advanced = tally.session.nextRxId - first

/-- One arrival never lowers the count, and one that comes before the expected id
changes neither the count nor the expected id. -/
def Tally.Ordered (quiet : Bool) (tally : Tally) (arrival : Arrival) : Prop :=
  tally.session.numLost.toNat ≤ (tally.receive quiet arrival).session.numLost.toNat ∧
    (tally.firstId.isSome → diff (ntohl arrival.packet.id) tally.session.nextRxId < 0 →
      (tally.receive quiet arrival).session.numLost = tally.session.numLost ∧
        (tally.receive quiet arrival).session.nextRxId = tally.session.nextRxId)

/-- When `next_rx_id` has come round to 0 the next packet carries id 0, and the
ids skipped still fit the 32-bit counter. -/
def Tally.Countable (tally : Tally) (arrival : Arrival) : Prop :=
  tally.firstId.isSome →
    (tally.session.nextRxId = 0 → ntohl arrival.packet.id = 0) ∧
      tally.session.numLost.toNat +
        (diff (ntohl arrival.packet.id) tally.session.nextRxId).toNat < 2 ^ 32

def Tally.start (usecPerPrint : Word) (firstSend : Word64) (usecPerPkt : Word) (raddr : Sockaddr) :
    Tally :=
  { session := Session.new usecPerPrint firstSend usecPerPkt raddr }

/-- The id `handle_ack_packet` compares an arriving one with. -/
def Session.expectedId (s : Session) (id : Word) : Word := if s.nextRxId = 0 then id else s.nextRxId

theorem nextRxId_startTiming (s : Session) (now : Word64) :
    (startTiming s now).nextRxId = s.expectedId (ntohl s.rx.id) := by
  unfold startTiming Session.expectedId
  split <;> rfl

theorem numLost_startTiming (s : Session) (now : Word64) : (startTiming s now).numLost = s.numLost := by
  obtain ⟨_, _, _, timed⟩ := startTiming_shape s now
  rw [timed]

theorem rx_startTiming (s : Session) (now : Word64) : (startTiming s now).rx = s.rx := by
  obtain ⟨_, _, _, timed⟩ := startTiming_shape s now
  rw [timed]

theorem countLoss_ahead (s : Session) (ahead : 0 ≤ diff (ntohl s.rx.id) s.nextRxId) :
    (countLoss s).nextRxId = ntohl s.rx.id + 1 ∧
      (countLoss s).numLost = s.numLost + (ntohl s.rx.id - s.nextRxId) := by
  simp only [countLoss]
  split
  · exact ⟨by ring, rfl⟩
  · rename_i notAhead
    have zero : ntohl s.rx.id - s.nextRxId = 0 := by
      apply BitVec.eq_of_toInt_eq
      simp only [diff] at ahead
      have value : (ntohl s.rx.id - s.nextRxId).toInt = 0 := by omega
      simpa using value
    rw [if_pos zero]
    exact ⟨by rw [← sub_eq_zero.mp zero], by simp [zero]⟩

theorem countLoss_behind (s : Session) (behind : diff (ntohl s.rx.id) s.nextRxId < 0) :
    countLoss s = s := by
  simp only [diff] at behind
  have notAhead : ¬ 0 < (ntohl s.rx.id - s.nextRxId).toInt := by omega
  have notEqual : ntohl s.rx.id - s.nextRxId ≠ 0 := by
    intro equal
    simp [equal] at behind
  simp only [countLoss]
  rw [if_neg notAhead, if_neg notEqual]

theorem Tally.receive_counters (quiet : Bool) (tally : Tally) (arrival : Arrival) :
    let id := ntohl arrival.packet.id
    let expected := tally.session.expectedId id
    let next := tally.receive quiet arrival
    (0 ≤ diff id expected → next.session.nextRxId = id + 1 ∧
      next.session.numLost = tally.session.numLost + (id - expected) ∧
      next.advanced = tally.advanced + 1) ∧
    (diff id expected < 0 → next.session.nextRxId = expected ∧
      next.session.numLost = tally.session.numLost ∧ next.advanced = tally.advanced) := by
  intro id expected next
  have compared : (startTiming (tally.session.withRx arrival.packet) arrival.now).nextRxId = expected :=
    nextRxId_startTiming _ _
  have received : (startTiming (tally.session.withRx arrival.packet) arrival.now).rx = arrival.packet :=
    rx_startTiming _ _
  have lost : (startTiming (tally.session.withRx arrival.packet) arrival.now).numLost =
      tally.session.numLost := numLost_startTiming _ _
  constructor
  · intro ahead
    obtain ⟨moved, counted⟩ := countLoss_ahead
      (startTiming (tally.session.withRx arrival.packet) arrival.now)
      (by rw [received, compared]; exact ahead)
    rw [received] at moved counted
    rw [compared, lost] at counted
    have advances : (tally.session.withRx arrival.packet).advances arrival.now = true := by
      simp only [Session.advances, compared, decide_eq_true_eq]
      exact ahead
    exact ⟨by simpa [next, Tally.receive] using moved, by simpa [next, Tally.receive] using counted,
      by simp [next, Tally.receive, advances]⟩
  · intro behind
    have kept := countLoss_behind (startTiming (tally.session.withRx arrival.packet) arrival.now)
      (by rw [received, compared]; exact behind)
    have stays : (tally.session.withRx arrival.packet).advances arrival.now = false := by
      simp only [Session.advances, compared, decide_eq_false_iff_not, not_le]
      exact behind
    exact ⟨by simp [next, Tally.receive, kept, compared], by simp [next, Tally.receive, kept, lost],
      by simp [next, Tally.receive, stays]⟩

theorem diff_self {width : Nat} (word : BitVec width) : diff word word = 0 := by simp [diff]

theorem Tally.Accounted.first {quiet : Bool} {tally : Tally} {arrival : Arrival}
    (accounted : tally.Accounted) (unstarted : tally.firstId = none) :
    (tally.receive quiet arrival).Accounted ∧ tally.Ordered quiet arrival := by
  simp only [Tally.Accounted, unstarted] at accounted
  obtain ⟨mark, lost, advanced⟩ := accounted
  have expected : tally.session.expectedId (ntohl arrival.packet.id) = ntohl arrival.packet.id := by
    simp [Session.expectedId, mark]
  obtain ⟨moved, counted, one⟩ := (tally.receive_counters quiet arrival).1
    (by simp only [expected, diff_self, le_refl])
  have origin : (tally.receive quiet arrival).firstId = some (ntohl arrival.packet.id) := by
    simp [Tally.receive, unstarted]
  refine ⟨?_, ?_, by simp [unstarted]⟩
  · simp only [Tally.Accounted, origin, moved, counted, one, expected, lost, advanced]
    simp
  · simp [lost]

theorem diff_toNat_of_nonneg {left right : Word} (ahead : 0 ≤ diff left right) :
    (diff left right).toNat = (left - right).toNat := by
  simp only [diff] at ahead ⊢
  rw [BitVec.toInt_eq_toNat_of_msb (by
    by_contra signed
    have negative := BitVec.toInt_neg_of_msb_true (by simpa using signed)
    omega)]
  rfl

theorem ofNat_succ (count : Nat) : (BitVec.ofNat 32 (count + 1) : Word) = BitVec.ofNat 32 count + 1 :=
  BitVec.ofNat_add count 1

theorem Tally.Accounted.later {quiet : Bool} {tally : Tally} {arrival : Arrival}
    (accounted : tally.Accounted) {first : Word} (started : tally.firstId = some first) :
    (tally.receive quiet arrival).Accounted ∧ tally.Ordered quiet arrival ↔
      tally.Countable arrival := by
  have origin : (tally.receive quiet arrival).firstId = some first := by
    simp [Tally.receive, started]
  obtain ⟨onAhead, onBehind⟩ := tally.receive_counters quiet arrival
  simp only [Tally.Accounted, started] at accounted
  simp only [Tally.Accounted, origin, Tally.Ordered, Tally.Countable, started, Option.isSome_some,
    forall_const]
  generalize ntohl arrival.packet.id = id at onAhead onBehind ⊢
  by_cases wrapped : tally.session.nextRxId = 0
  · -- The mark 0 makes the code take the packet for a first one.
    have expected : tally.session.expectedId id = id := by simp [Session.expectedId, wrapped]
    rw [expected] at onAhead
    obtain ⟨moved, counted, one⟩ := onAhead (by simp [diff_self])
    rw [wrapped] at accounted
    rw [moved, counted, one, ofNat_succ, sub_self, add_zero, ← add_assoc, accounted]
    constructor
    · rintro ⟨balance, _⟩
      have zero : id = 0 := by linear_combination -balance
      exact ⟨fun _ => zero, by simpa [wrapped, zero, diff_self] using tally.session.numLost.isLt⟩
    · rintro ⟨zero, _⟩
      have zero := zero wrapped
      exact ⟨by rw [zero]; ring, le_refl _, by simp [wrapped, zero, diff_self]⟩
  · have expected : tally.session.expectedId id = tally.session.nextRxId := by
      rw [Session.expectedId, if_neg wrapped]
    rw [expected] at onAhead onBehind
    simp only [wrapped, false_implies, true_and]
    rcases lt_or_ge (diff id tally.session.nextRxId) 0 with behind | ahead
    · obtain ⟨moved, counted, none⟩ := onBehind behind
      have skipped : (diff id tally.session.nextRxId).toNat = 0 := by omega
      rw [moved, counted, none, skipped]
      exact ⟨fun _ => tally.session.numLost.isLt, fun _ => ⟨accounted, le_refl _, fun _ => ⟨rfl, rfl⟩⟩⟩
    · obtain ⟨moved, counted, one⟩ := onAhead ahead
      have late : ¬ diff id tally.session.nextRxId < 0 := by omega
      simp only [moved, counted, one, late, false_implies, and_true, diff_toNat_of_nonneg ahead]
      have balance : tally.session.numLost + (id - tally.session.nextRxId) +
          BitVec.ofNat 32 (tally.advanced + 1) = id + 1 - first := by
        rw [ofNat_succ]
        linear_combination accounted
      rw [BitVec.toNat_add]
      have lostBound := tally.session.numLost.isLt
      have gapBound := (id - tally.session.nextRxId).isLt
      constructor
      · rintro ⟨_, grows⟩
        by_contra overflow
        rw [Nat.mod_eq_sub_mod (by omega), Nat.mod_eq_of_lt (by omega)] at grows
        omega
      · intro fits
        refine ⟨balance, ?_⟩
        rw [Nat.mod_eq_of_lt fits]
        omega

/-- Over every sequence of arrivals on a fresh session, losses stay accounted for,
the count never falls and late packets change nothing exactly when each arrival
is countable where it comes. -/
theorem loss_accounted_iff_countable (quiet : Bool) (usecPerPrint : Word) (firstSend : Word64)
    (usecPerPkt : Word) (raddr : Sockaddr) {trace : List (Tally × Arrival)} {finish : Tally}
    (run : Run (Tally.Step quiet) (Tally.start usecPerPrint firstSend usecPerPkt raddr) trace finish) :
    Throughout Tally.Accounted trace finish ∧ StepsMeet (Tally.Ordered quiet) trace ↔
      StepsMeet Tally.Countable trace := by
  apply run.throughout_iff
  · simp [Tally.Accounted, Tally.start, Session.new]
  · rintro tally arrival next accounted rfl
    cases origin : tally.firstId with
    | none => simp [accounted.first origin, Tally.Countable, origin]
    | some first => exact accounted.later origin

/-- A session with a peer on this host, and two arrivals across the wrap of the id. -/
def wrapStart : Tally :=
  Tally.start 0 10000 100000 .loopback

def lastId : Arrival := ⟨{ id := htonl 0xffffffff }, 1000000⟩

def wrappedTo (id : Word) : Arrival := ⟨{ id := htonl id }, 1300000⟩

def wrapTrace (id : Word) : List (Tally × Arrival) :=
  traceOf (Tally.receive true) wrapStart [lastId, wrappedTo id]

def wrapFinish (id : Word) : Tally := [lastId, wrappedTo id].foldl (Tally.receive true) wrapStart

theorem wrap_run (id : Word) : Run (Tally.Step true) wrapStart (wrapTrace id) (wrapFinish id) :=
  Run.of_labels _ _ fun _ _ _ => rfl

theorem loss_accounted_without_gap :
    Throughout Tally.Accounted (wrapTrace 0) (wrapFinish 0) ∧
      StepsMeet (Tally.Ordered true) (wrapTrace 0) := by
  refine (loss_accounted_iff_countable true _ _ _ _ (wrap_run 0)).mpr ?_
  intro entry member started
  simp only [wrapTrace, traceOf, List.mem_cons, List.not_mem_nil, or_false] at member
  rcases member with rfl | rfl
  · exact absurd started (by decide)
  · decide +kernel

/-- Ids 0 and 1 are lost just behind the wrap: two packets moved `next_rx_id` on,
no loss is counted, and the ids from the first one on are four. -/
theorem loss_not_counted_at_wrap :
    Run (Tally.Step true) wrapStart (wrapTrace 2) (wrapFinish 2) ∧
      ¬ (Throughout Tally.Accounted (wrapTrace 2) (wrapFinish 2) ∧
        StepsMeet (Tally.Ordered true) (wrapTrace 2)) := by
  refine ⟨wrap_run 2, fun accounted => ?_⟩
  have balance : (wrapFinish 2).session.numLost + BitVec.ofNat 32 (wrapFinish 2).advanced =
      (wrapFinish 2).session.nextRxId - 0xffffffff := accounted.1.2
  exact absurd balance (by decide +kernel)

end Gfiber.Isoping
