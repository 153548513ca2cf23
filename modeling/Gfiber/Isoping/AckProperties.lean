import Gfiber.Isoping.Client
import Mathlib.Data.Set.Card
import Mathlib.Tactic

/-! How a client keeps track of the acknowledgements of its own packets, from one
handshake to the next. -/

set_option autoImplicit false

namespace Gfiber.Isoping
open Lib

def Timely (acked : List Nat) (id : Nat) : Prop :=
  ∃ before after, acked = before ++ id :: after ∧ ∀ earlier ∈ before, earlier ≤ id

theorem Timely.mem {acked : List Nat} {id : Nat} (timely : Timely acked id) : id ∈ acked := by
  obtain ⟨before, after, rfl, _⟩ := timely
  simp

theorem timely_of_latest {acked : List Nat} {id : Nat} (member : id ∈ acked)
    (latest : ∀ other ∈ acked, other ≤ id) : Timely acked id := by
  obtain ⟨before, after, split⟩ := List.append_of_mem member
  refine ⟨before, after, split, fun earlier inside => latest earlier ?_⟩
  rw [split]
  exact List.mem_append_left _ inside

theorem timely_snoc {acked : List Nat} {last id : Nat} :
    Timely (acked ++ [last]) id ↔
      Timely acked id ∨ id = last ∧ ∀ earlier ∈ acked, earlier ≤ last := by
  constructor
  · rintro ⟨before, after, split, latest⟩
    rcases List.eq_nil_or_concat after with rfl | ⟨middle, final, rfl⟩
    · obtain ⟨rfl, same⟩ := List.append_inj' split rfl
      cases same
      exact .inr ⟨rfl, latest⟩
    · rw [List.concat_eq_append, ← List.cons_append, ← List.append_assoc] at split
      obtain ⟨same, _⟩ := List.append_inj' split rfl
      exact .inl ⟨before, middle, same, latest⟩
  · rintro (⟨before, after, rfl, latest⟩ | ⟨rfl, latest⟩)
    · exact ⟨before, after ++ [last], by simp, latest⟩
    · exact ⟨acked, [], rfl, latest⟩

theorem timely_finite (acked : List Nat) : {id | Timely acked id}.Finite :=
  acked.finite_toSet.subset fun _ timely => timely.mem

noncomputable def timelyCount (acked : List Nat) : Nat := {id | Timely acked id}.ncard

@[simp] theorem timelyCount_nil : timelyCount [] = 0 := by
  have empty : {id | Timely [] id} = ∅ := by
    ext id
    simp only [Set.mem_ofPred_eq, Set.mem_empty_iff_false, iff_false]
    exact fun timely => nomatch timely.mem
  rw [timelyCount, empty, Set.ncard_empty]

theorem timelyCount_ahead {acked : List Nat} {id : Nat} (ahead : ∀ other ∈ acked, other < id) :
    timelyCount (acked ++ [id]) = timelyCount acked + 1 := by
  have grown : {other | Timely (acked ++ [id]) other} = insert id {other | Timely acked other} := by
    ext other
    simp only [Set.mem_ofPred_eq, Set.mem_insert_iff, timely_snoc]
    constructor
    · rintro (timely | ⟨same, _⟩)
      · exact .inr timely
      · exact .inl same
    · rintro (same | timely)
      · exact .inr ⟨same, fun earlier member => (ahead earlier member).le⟩
      · exact .inl timely
  have fresh : id ∉ {other | Timely acked other} := fun timely =>
    lt_irrefl id (ahead id (Timely.mem timely))
  rw [timelyCount, grown, Set.ncard_insert_of_notMem fresh (timely_finite acked), timelyCount]

theorem timelyCount_behind {acked : List Nat} {id latest : Nat} (member : latest ∈ acked)
    (top : ∀ other ∈ acked, other ≤ latest) (behind : id ≤ latest) :
    timelyCount (acked ++ [id]) = timelyCount acked := by
  have same : {other | Timely (acked ++ [id]) other} = {other | Timely acked other} := by
    ext other
    simp only [Set.mem_ofPred_eq, timely_snoc, or_iff_left_iff_imp]
    rintro ⟨rfl, above⟩
    have equal : latest = other := le_antisymm (above latest member) behind
    subst equal
    exact timely_of_latest member top
  rw [timelyCount, same, timelyCount]

def Packet.ackAt (packet : Packet) (round : Nat) : Word :=
  ntohl (packet.data.ackId (AckSlot.wrap (packet.firstAck.toNat + round)))

def Packet.ackIds (packet : Packet) : Nat → List Nat
  | 0 => []
  | rounds + 1 =>
      if packet.ackAt rounds = 0 then packet.ackIds rounds
      else packet.ackIds rounds ++ [(packet.ackAt rounds).toNat]

/-- The session expects the id after the latest acknowledged one, and has counted
those that were acknowledged in time. -/
structure Session.Tracks (acked : List Nat) (base : Int) (s : Session) : Prop where
  expected : acked = [] ∧ s.nextRxackId = 0 ∨
    ∃ latest ∈ acked, (∀ other ∈ acked, other ≤ latest) ∧ s.nextRxackId.toNat = latest + 1
  counted : s.latTx.count = base + timelyCount acked

section Rounds

variable {acked : List Nat} {base : Int} {s : Session}

theorem diff_nonneg_iff {left right : Word} (leftSmall : left.toNat < 2 ^ 31)
    (rightSmall : right.toNat ≤ 2 ^ 31) : 0 ≤ diff left right ↔ right.toNat ≤ left.toNat := by
  have value : diff left right = left.toNat - right.toNat := by
    rw [diff, BitVec.toInt_eq_toNat_bmod, BitVec.toNat_sub, Int.natCast_emod, Int.emod_bmod,
      Int.bmod_eq_iff (by norm_num)]
    refine ⟨by omega, by omega, ?_⟩
    push_cast [show right.toNat ≤ 2 ^ 32 by omega]
    omega
  omega

theorem Session.Tracks.nextRxackId_le (tracks : s.Tracks acked base)
    (small : ∀ id ∈ acked, id < 2 ^ 31) : s.nextRxackId.toNat ≤ 2 ^ 31 := by
  rcases tracks.expected with ⟨_, zero⟩ | ⟨latest, member, _, next⟩
  · simp [zero]
  · have bound := small latest member
    omega

theorem Session.Tracks.ackRound (tracks : s.Tracks acked base)
    (small : ∀ id ∈ acked, id < 2 ^ 31) (quiet : Bool) (offset : Word) (round : Nat)
    (fits : (s.rx.ackAt round).toNat < 2 ^ 31) :
    (ackRound quiet offset s round).Tracks
      (if s.rx.ackAt round = 0 then acked else acked ++ [(s.rx.ackAt round).toNat]) base := by
  have next := diff_nonneg_iff fits (tracks.nextRxackId_le small)
  have expects : s.expectsAck (ackIndex s round) = true ↔
      s.rx.ackAt round ≠ 0 ∧ s.nextRxackId.toNat ≤ (s.rx.ackAt round).toNat := by
    simp only [Session.expectsAck, Bool.and_eq_true, decide_eq_true_eq]
    exact and_congr_right fun _ => next
  have acknowledged : ntohl (s.rx.data.ackId (ackIndex s round)) = s.rx.ackAt round := rfl
  simp only [Isoping.ackRound]
  by_cases empty : s.rx.ackAt round = 0
  · have ignored : ¬ s.expectsAck (ackIndex s round) = true := fun hit => (expects.mp hit).1 empty
    rw [if_neg ignored, if_pos empty]
    exact tracks
  · rw [if_neg empty]
    by_cases ahead : s.nextRxackId.toNat ≤ (s.rx.ackAt round).toNat
    · rw [if_pos (expects.mpr ⟨empty, ahead⟩)]
      have above : ∀ other ∈ acked, other < (s.rx.ackAt round).toNat := by
        intro other member
        rcases tracks.expected with ⟨none, _⟩ | ⟨latest, _, top, expected⟩
        · rw [none] at member
          cases member
        · have bound := top other member
          omega
      refine ⟨.inr ⟨(s.rx.ackAt round).toNat, by simp, ?_, ?_⟩, ?_⟩
      · intro other member
        rcases List.mem_append.mp member with earlier | last
        · exact (above other earlier).le
        · exact (List.mem_singleton.mp last).le
      · rw [acknowledged, BitVec.toNat_add]
        exact Nat.mod_eq_of_lt (by simp; omega)
      · rw [timelyCount_ahead above]
        simp only [LatencyStats.record, tracks.counted]
        push_cast
        ring
    · have ignored : ¬ s.expectsAck (ackIndex s round) = true := fun hit =>
        ahead (expects.mp hit).2
      rw [if_neg ignored]
      rcases tracks.expected with ⟨_, zero⟩ | ⟨latest, member, top, expected⟩
      · simp [zero] at ahead
      · have behind : (s.rx.ackAt round).toNat ≤ latest := by omega
        refine ⟨.inr ⟨latest, List.mem_append_left _ member, ?_, expected⟩, ?_⟩
        · intro other inside
          rcases List.mem_append.mp inside with earlier | last
          · exact top other earlier
          · rw [List.mem_singleton.mp last]
            exact behind
        · rw [timelyCount_behind member top behind]
          exact tracks.counted

theorem Packet.mem_ackIds {packet : Packet} {rounds id : Nat} (member : id ∈ packet.ackIds rounds) :
    ∃ round, packet.ackAt round ≠ 0 ∧ id = (packet.ackAt round).toNat := by
  induction rounds with
  | zero => cases member
  | succ rounds ih =>
      simp only [Packet.ackIds] at member
      split at member
      · exact ih member
      · rename_i occupied
        rcases List.mem_append.mp member with earlier | last
        · exact ih earlier
        · exact ⟨rounds, occupied, List.mem_singleton.mp last⟩

theorem Session.Tracks.ackRounds (tracks : s.Tracks acked base)
    (small : ∀ id ∈ acked, id < 2 ^ 31) (fits : ∀ round, (s.rx.ackAt round).toNat < 2 ^ 31)
    (quiet : Bool) (offset : Word) (rounds : Nat) :
    (ackRounds quiet offset s rounds).Tracks (acked ++ s.rx.ackIds rounds) base := by
  induction rounds with
  | zero => simpa [Packet.ackIds, ackRounds_zero] using tracks
  | succ rounds ih =>
      have rx : (Isoping.ackRounds quiet offset s rounds).rx = s.rx := by
        obtain ⟨_, _, _, shape⟩ := ackRounds_shape quiet offset s rounds
        rw [shape]
      have smaller : ∀ id ∈ acked ++ s.rx.ackIds rounds, id < 2 ^ 31 := by
        intro id member
        rcases List.mem_append.mp member with earlier | new
        · exact small id earlier
        · obtain ⟨round, _, rfl⟩ := Packet.mem_ackIds new
          exact fits round
      have step := ih.ackRound smaller quiet offset rounds (by rw [rx]; exact fits rounds)
      rw [rx] at step
      rw [ackRounds_succ, Packet.ackIds]
      split
      · rename_i empty
        rwa [if_pos empty] at step
      · rename_i occupied
        rwa [if_neg occupied, List.append_assoc] at step

theorem Session.Tracks.handleAckPacket (tracks : s.Tracks acked base)
    (small : ∀ id ∈ acked, id < 2 ^ 31) (fits : ∀ round, (s.rx.ackAt round).toNat < 2 ^ 31)
    (quiet : Bool) (now : Word64) :
    (handleAckPacket quiet s now).Tracks (acked ++ s.rx.ackIds 64) base := by
  obtain ⟨_, _, _, synchronized⟩ := synchronize_shape s now
  obtain ⟨_, _, _, _, _, _, recorded⟩ := recordArrival_shape quiet (synchronize s now) now
  have rx : (recordArrival quiet (synchronize s now) now).rx = s.rx := by
    rw [recorded, synchronized]
  have kept : (recordArrival quiet (synchronize s now) now).Tracks acked base := by
    refine ⟨?_, ?_⟩
    · rw [recorded, synchronized]
      exact tracks.expected
    · rw [recorded, synchronized]
      exact tracks.counted
  have looped := kept.ackRounds small (by rw [rx]; exact fits) quiet
    ((synchronize s now).clockEstimate now).offset 64
  rw [rx] at looped
  exact ⟨looped.expected, looped.counted⟩

theorem Session.Tracks.receiveAck (tracks : s.Tracks acked base)
    (small : ∀ id ∈ acked, id < 2 ^ 31) {rx : Packet}
    (fits : ∀ round, (rx.ackAt round).toNat < 2 ^ 31) (quiet : Bool) (now : Word64) :
    (receiveAck quiet false s rx now).Tracks (acked ++ rx.ackIds 64) base := by
  have taken : (acceptConnection false (s.withRx rx)).rx = rx ∧
      (acceptConnection false (s.withRx rx)).Tracks acked base := by
    unfold acceptConnection
    split
    · exact ⟨rfl, tracks.expected, tracks.counted⟩
    · exact ⟨rfl, tracks.expected, tracks.counted⟩
  have handled := taken.2.handleAckPacket small (by rw [taken.1]; exact fits) quiet now
  rw [taken.1] at handled
  exact handled

end Rounds

/-- A client's session with the ids it has sent since the latest handshake reply,
the acknowledgements it has received since, and its count of them at that time. -/
structure Tracking where
  session : Session
  sent : List Nat := []
  acked : List Nat := []
  base : Int := 0

namespace Tracking

def afterTransmit (tracking : Tracking) (result : SendResult) : Tracking :=
  { tracking with
    session := (transmit false result tracking.session).2
    sent :=
      if tracking.session.handshakeState = .cookieGenerated ∨
          tracking.session.handshakeState = .established then
        tracking.session.nextTxId.toNat :: tracking.sent
      else tracking.sent }

def afterHandshake (tracking : Tracking) (packet : Packet) (now : Word64) : Tracking where
  session := receiveCookie tracking.session packet now
  base := tracking.session.latTx.count

def afterAck (quiet : Bool) (tracking : Tracking) (packet : Packet) (now : Word64) : Tracking :=
  { tracking with
    session := receiveAck quiet false tracking.session packet now
    acked := tracking.acked ++ packet.ackIds 64 }

/-- The steps of a client whose ids stay below `2 ^ 31`, against servers that
acknowledge only what it has sent since the latest handshake. -/
inductive Step (quiet : Bool) : Tracking → ClientEvent → Tracking → Prop where
  | transmit {tracking : Tracking} {result : SendResult}
      (running : (Isoping.transmit false result tracking.session).1 = 0)
      (bounded : tracking.session.nextTxId.toNat < 2 ^ 31) :
      Step quiet tracking (.transmit result) (tracking.afterTransmit result)
  | handshake {tracking : Tracking} {packet : Packet} {now : Word64}
      (kind : packet.packetType = packetTypeHandshake) :
      Step quiet tracking (.receive packet now) (tracking.afterHandshake packet now)
  | ack {tracking : Tracking} {packet : Packet} {now : Word64}
      (kind : packet.packetType = packetTypeAck)
      (honest : ∀ slot, ntohl (packet.data.ackId slot) ≠ 0 →
        (ntohl (packet.data.ackId slot)).toNat ∈ tracking.sent) :
      Step quiet tracking (.receive packet now) (tracking.afterAck quiet packet now)

theorem Step.session {quiet : Bool} {tracking next : Tracking} {event : ClientEvent}
    (step : Step quiet tracking event next) :
    ClientStep quiet tracking.session event next.session := by
  cases step with
  | transmit running _ => exact .transmit running
  | @handshake packet now kind =>
      have received : receivePacket quiet false tracking.session packet now =
          receiveCookie tracking.session packet now := by
        rw [receivePacket, if_pos kind, if_neg Bool.false_ne_true]
      rw [afterHandshake, ← received]
      exact .receive
  | @ack packet now kind honest =>
      have received : receivePacket quiet false tracking.session packet now =
          receiveAck quiet false tracking.session packet now := by
        rw [receivePacket, if_neg (by rw [kind]; decide), if_pos kind]
      rw [afterAck, ← received]
      exact .receive

/-- The expected acknowledgement is within the ids sent, and each id acknowledged
before any later one is counted once. -/
def Counts (tracking : Tracking) : Prop :=
  tracking.session.nextRxackId.toNat ≤ tracking.session.nextTxId.toNat ∧
    tracking.session.latTx.count = tracking.base + timelyCount tracking.acked

def Untouched (tracking : Tracking) : ClientEvent → Prop
  | .transmit _ => True
  | .receive packet _ =>
      packet.packetType = packetTypeHandshake → tracking.session.nextRxackId = 0

structure Sound (tracking : Tracking) : Prop where
  tracks : tracking.session.Tracks tracking.acked tracking.base
  first : 0 < tracking.session.nextTxId.toNat
  bounded : tracking.session.nextTxId.toNat ≤ 2 ^ 31
  sent : ∀ id ∈ tracking.sent, 0 < id ∧ id < tracking.session.nextTxId.toNat
  acked : ∀ id ∈ tracking.acked, id ∈ tracking.sent

def start (usecPerPrint : Word) (firstSend : Word64) (usecPerPkt : Word) (raddr : Sockaddr) :
    Tracking where
  session := Session.new usecPerPrint firstSend usecPerPkt raddr

theorem sound_start (usecPerPrint : Word) (firstSend : Word64) (usecPerPkt : Word)
    (raddr : Sockaddr) : (start usecPerPrint firstSend usecPerPkt raddr).Sound where
  tracks := ⟨.inl ⟨rfl, rfl⟩, by simp [start, Session.new]⟩
  first := by simp [start, Session.new]
  bounded := by simp [start, Session.new]
  sent := fun _ none => nomatch none
  acked := fun _ none => nomatch none

variable {quiet : Bool} {tracking next : Tracking} {event : ClientEvent}

theorem Sound.counts (sound : tracking.Sound) : tracking.Counts := by
  refine ⟨?_, sound.tracks.counted⟩
  rcases sound.tracks.expected with ⟨_, zero⟩ | ⟨latest, member, _, expected⟩
  · simp [zero]
  · have below := (sound.sent latest (sound.acked latest member)).2
    omega

theorem transmit_counters {result : SendResult} {s : Session}
    (running : (transmit false result s).1 = 0) :
    (transmit false result s).2.nextRxackId = s.nextRxackId ∧
      (transmit false result s).2.latTx = s.latTx ∧
      (transmit false result s).2.nextTxId =
        if s.handshakeState = .cookieGenerated ∨ s.handshakeState = .established then
          s.nextTxId + 1 else s.nextTxId := by
  simp only [transmit, sendPacket] at running ⊢
  split at running
  · cases running
  · rename_i accepted
    rw [if_neg accepted]
    by_cases sequence : s.handshakeState = .cookieGenerated ∨ s.handshakeState = .established
    · have counted : (false || (prepareTxPacket s).handshakeState = .established ||
          (prepareTxPacket s).handshakeState = .cookieGenerated) = true := by
        rcases sequence with state | state <;> simp [prepareTxPacket, state]
      rw [if_pos counted, if_pos sequence]
      exact ⟨rfl, rfl, rfl⟩
    · have retried : ¬ (false || (prepareTxPacket s).handshakeState = .established ||
          (prepareTxPacket s).handshakeState = .cookieGenerated) = true := by
        obtain ⟨notGenerated, notEstablished⟩ := not_or.mp sequence
        simp [prepareTxPacket, notGenerated, notEstablished]
      rw [if_neg retried, if_neg sequence]
      refine ⟨rfl, rfl, ?_⟩
      simp only [resendHandshake, prepareTxPacket]
      ring

theorem Sound.transmit (sound : tracking.Sound) {result : SendResult}
    (running : (Isoping.transmit false result tracking.session).1 = 0)
    (bounded : tracking.session.nextTxId.toNat < 2 ^ 31) :
    (tracking.afterTransmit result).Sound := by
  obtain ⟨expected, counted, id⟩ := transmit_counters running
  have first := sound.first
  have tracks : (tracking.afterTransmit result).session.Tracks tracking.acked tracking.base := by
    refine ⟨?_, ?_⟩
    · simp only [afterTransmit, expected]
      exact sound.tracks.expected
    · simp only [afterTransmit, counted]
      exact sound.tracks.counted
  by_cases sequence : tracking.session.handshakeState = .cookieGenerated ∨
      tracking.session.handshakeState = .established
  · have advanced : (tracking.afterTransmit result).session.nextTxId.toNat =
        tracking.session.nextTxId.toNat + 1 := by
      simp only [afterTransmit, id, if_pos sequence]
      rw [BitVec.toNat_add]
      exact Nat.mod_eq_of_lt (by simp; omega)
    have grown : (tracking.afterTransmit result).sent =
        tracking.session.nextTxId.toNat :: tracking.sent := by
      simp only [afterTransmit, if_pos sequence]
    refine ⟨tracks, by omega, by omega, ?_, ?_⟩
    · intro used member
      rw [grown] at member
      rcases List.mem_cons.mp member with rfl | earlier
      · omega
      · have bounds := sound.sent used earlier
        omega
    · intro used member
      rw [grown]
      exact List.mem_cons_of_mem _ (sound.acked used member)
  · have kept : (tracking.afterTransmit result).session.nextTxId = tracking.session.nextTxId := by
      simp only [afterTransmit, id, if_neg sequence]
    have same : (tracking.afterTransmit result).sent = tracking.sent := by
      simp only [afterTransmit, if_neg sequence]
    refine ⟨tracks, ?_, ?_, ?_, ?_⟩
    · rw [kept]
      exact first
    · rw [kept]
      exact sound.bounded
    · rw [kept, same]
      exact sound.sent
    · rw [same]
      exact sound.acked

theorem sound_afterHandshake (untouched : tracking.session.nextRxackId = 0)
    (packet : Packet) (now : Word64) : (tracking.afterHandshake packet now).Sound where
  tracks := ⟨.inl ⟨rfl, untouched⟩, by simp [afterHandshake, receiveCookie]⟩
  first := by simp [afterHandshake, receiveCookie]
  bounded := by simp [afterHandshake, receiveCookie]
  sent := fun _ none => nomatch none
  acked := fun _ none => nomatch none

theorem Sound.ack (sound : tracking.Sound) {packet : Packet}
    (honest : ∀ slot, ntohl (packet.data.ackId slot) ≠ 0 →
      (ntohl (packet.data.ackId slot)).toNat ∈ tracking.sent) (now : Word64) :
    (tracking.afterAck quiet packet now).Sound := by
  have bounded := sound.bounded
  have small : ∀ id ∈ tracking.acked, id < 2 ^ 31 := fun id member => by
    have below := (sound.sent id (sound.acked id member)).2
    omega
  have fits : ∀ round, (packet.ackAt round).toNat < 2 ^ 31 := fun round => by
    by_cases empty : packet.ackAt round = 0
    · simp [empty]
    · have below := (sound.sent _ (honest _ empty)).2
      simp only [Packet.ackAt]
      omega
  have id : (receiveAck quiet false tracking.session packet now).nextTxId =
      tracking.session.nextTxId := by
    simp only [receiveAck, nextTxId_handleAckPacket, acceptConnection]
    split <;> rfl
  refine ⟨sound.tracks.receiveAck small fits quiet now, ?_, ?_, ?_, ?_⟩
  · simp only [afterAck, id]
    exact sound.first
  · simp only [afterAck, id]
    exact bounded
  · simp only [afterAck, id]
    exact sound.sent
  · intro used member
    rcases List.mem_append.mp member with earlier | new
    · exact sound.acked used earlier
    · obtain ⟨round, occupied, rfl⟩ := Packet.mem_ackIds new
      exact honest _ occupied

theorem Sound.step (sound : tracking.Sound) (step : Step quiet tracking event next)
    (untouched : tracking.Untouched event) : next.Sound := by
  cases step with
  | transmit running bounded => exact sound.transmit running bounded
  | handshake kind => exact sound_afterHandshake (untouched kind) _ _
  | ack kind honest => exact sound.ack honest _

theorem Sound.untouched (sound : tracking.Sound) (step : Step quiet tracking event next)
    (counts : next.Counts) : tracking.Untouched event := by
  cases step with
  | transmit => trivial
  | @handshake packet now kind =>
      intro _
      have ordered : tracking.session.nextRxackId.toNat ≤ 1 := counts.1
      rcases sound.tracks.expected with ⟨_, zero⟩ | ⟨latest, member, _, expected⟩
      · exact zero
      · have positive := (sound.sent latest (sound.acked latest member)).1
        omega
  | ack kind _ =>
      intro handshake
      rw [kind] at handshake
      exact absurd handshake (by decide)

end Tracking

/-- Over every run of a client, the acknowledgements are tracked correctly in every
state exactly when no handshake reply arrives after one has been counted. -/
theorem acks_counted_iff_untouched (quiet : Bool) (usecPerPrint : Word) (firstSend : Word64)
    (usecPerPkt : Word) (raddr : Sockaddr) {trace : List (Tracking × ClientEvent)}
    {finish : Tracking}
    (run : Run (Tracking.Step quiet) (Tracking.start usecPerPrint firstSend usecPerPkt raddr) trace
      finish) :
    Throughout Tracking.Counts trace finish ↔ StepsMeet Tracking.Untouched trace :=
  run.throughout_iff_met (Tracking.sound_start _ _ _ _) Tracking.Sound.counts
    (fun sound untouched step => sound.step step untouched)
    fun sound step counts => sound.untouched step counts

/-- The events of a client that gets a cookie, sends a packet and sees it
acknowledged, and then is told by a restarted server to negotiate again. -/
def renegotiation : List ClientEvent :=
  let reply : ClientEvent :=
    .receive { packetType := packetTypeHandshake, usecPerPkt := htonl 100000 } 2000000
  [.transmit .sent, reply, .transmit .sent,
    .receive { packetType := packetTypeAck, id := htonl 1,
               data := PacketData.cleared.setAck (AckSlot.wrap 0) (htonl 1) (htonl 2000100) } 2500000,
    reply]

def Tracking.after (tracking : Tracking) : ClientEvent → Tracking
  | .transmit result => tracking.afterTransmit result
  | .receive packet now =>
      if packet.packetType = packetTypeHandshake then tracking.afterHandshake packet now
      else tracking.afterAck true packet now

def trackingStart : Tracking := Tracking.start 0 1000000 100000 (.inet (.replicate 2 0) (.replicate 4 0))

def trackingTrace (events : Nat) : List (Tracking × ClientEvent) :=
  traceOf Tracking.after trackingStart (renegotiation.take events)

def trackingFinish (events : Nat) : Tracking :=
  (renegotiation.take events).foldl Tracking.after trackingStart

theorem tracking_run (events : Nat) :
    Run (Tracking.Step true) trackingStart (trackingTrace events) (trackingFinish events) := by
  refine Run.of_trace _ _ fun entry member => ?_
  rw [traceOf_take] at member
  have whole := List.mem_of_mem_take member
  simp only [renegotiation, traceOf, List.mem_cons, List.not_mem_nil, or_false] at whole
  rcases whole with rfl | rfl | rfl | rfl | rfl
  · exact .transmit (by decide +kernel) (by decide +kernel)
  · exact .handshake rfl
  · exact .transmit (by decide +kernel) (by decide +kernel)
  · exact .ack rfl (by decide +kernel)
  · exact .handshake rfl

theorem acks_counted_once :
    Throughout Tracking.Counts (trackingTrace 4) (trackingFinish 4) ∧
      (trackingFinish 4).session.latTx.count = 1 := by
  refine ⟨(acks_counted_iff_untouched true 0 1000000 100000 _ (tracking_run 4)).mpr ?_,
    by decide +kernel⟩
  intro entry member
  simp only [trackingTrace, renegotiation, List.take, traceOf, List.mem_cons, List.not_mem_nil,
    or_false] at member
  rcases member with rfl | rfl | rfl | rfl
  · trivial
  · exact fun _ => by decide +kernel
  · trivial
  · exact fun handshake => absurd handshake (by decide)

/-- The second handshake starts the ids at 1 again while id 2 is expected next. -/
theorem acks_lost_by_renegotiation :
    Run (Tracking.Step true) trackingStart (trackingTrace 5) (trackingFinish 5) ∧
      ¬ Throughout Tracking.Counts (trackingTrace 5) (trackingFinish 5) := by
  refine ⟨tracking_run 5, fun counts => ?_⟩
  have ordered : (trackingFinish 5).session.nextRxackId.toNat ≤
      (trackingFinish 5).session.nextTxId.toNat := counts.2.1
  exact absurd ordered (by decide +kernel)

end Gfiber.Isoping
