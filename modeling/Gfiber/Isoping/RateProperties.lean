import Gfiber.Isoping.History
import Gfiber.Isoping.QueueProperties

/-! The interval of a session, from the request it was negotiated with to the
sending loop that waits for it. -/

set_option autoImplicit false

namespace Gfiber.Isoping
open Lib

def Settings.shortest (settings : Settings) : Int := ⌊1000000 / settings.packetsPerSec⌋

/-- `packets_per_sec` is at least one and within the limit of the option `-r`. -/
structure Settings.Usual (settings : Settings) : Prop where
  lower : 1 ≤ settings.packetsPerSec
  upper : settings.packetsPerSec ≤ 1000000

namespace Settings.Usual

variable {settings : Settings} (usual : settings.Usual)

include usual

theorem interval_bounds :
    1 ≤ 1000000 / settings.packetsPerSec ∧ 1000000 / settings.packetsPerSec ≤ 1000000 := by
  obtain ⟨lower, upper⟩ := usual
  have positive : 0 < settings.packetsPerSec := by linarith
  constructor
  · rw [le_div_iff₀ positive]
    linarith
  · rw [div_le_iff₀ positive]
    linarith

theorem shortest_pos : 0 < settings.shortest :=
  Int.floor_pos.mpr usual.interval_bounds.1

theorem toInt_usecPerPkt :
    settings.shortest ≤ settings.usecPerPkt.toInt ∧ settings.usecPerPkt.toInt ≤ 1000000 := by
  obtain ⟨one, million⟩ := usual.interval_bounds
  have small : 1000000 / settings.packetsPerSec < 2 ^ 53 := by linarith
  have low : settings.shortest ≤ ⌊roundDouble (1000000 / settings.packetsPerSec)⌋ :=
    Int.le_floor.mpr (le_roundDouble (by linarith) small (Int.floor_le _))
  have high : ⌊roundDouble (1000000 / settings.packetsPerSec)⌋ ≤ 1000000 := by
    have rounded : roundDouble (1000000 / settings.packetsPerSec) ≤ (1000000 : ℤ) :=
      roundDouble_le (by linarith) small (by exact_mod_cast million)
    exact_mod_cast (Int.floor_le _).trans rounded
  have positive := usual.shortest_pos
  have value : settings.usecPerPkt.toInt = ⌊roundDouble (1000000 / settings.packetsPerSec)⌋ := by
    rw [Settings.usecPerPkt, BitVec.toInt_ofInt]
    apply Int.bmod_eq_of_le <;> omega
  rw [value]
  exact ⟨low, high⟩

end Settings.Usual

def Sessions.AsksCookie (st : Sessions) (datagram : Datagram) : Prop :=
  datagram.wellFormed ∧
    (datagram.packet.packetType = packetTypeHandshake ∧ datagram.packet.data.cookieEpoch = 0 ∨
      datagram.packet.packetType = packetTypeAck ∧ st.sessionMap.find datagram.addr = none)

/-- A datagram that gets a cookie asks for an interval that a signed word holds. -/
def Server.Moderate (server : Server) : ServerEvent → Prop
  | .datagram datagram _ =>
      server.sessions.AsksCookie datagram → (ntohl datagram.packet.usecPerPkt).toNat < 2 ^ 31
  | .sendWaiting _ _ => True
  | .maybeRotate _ _ => True

def Sessions.RateSound (settings : Settings) (st : Sessions) : Prop :=
  ∀ node ∈ st.sessionMap.nodes,
    settings.shortest ≤ node.session.usecPerPkt.toInt ∧ 0 < node.session.usecPerPkt.toInt

def Server.OffersSound (settings : Settings) (server : Server) : Prop :=
  ∀ issued ∈ server.issued,
    settings.shortest ≤ (ntohl issued.reply.packet.usecPerPkt).toInt

section Steps

variable {settings : Settings} {oracle : Oracle}

theorem usecPerPkt_initialHandshakeReply (st : Sessions) (rx : Packet) (addr : Sockaddr)
    (now : Word64) :
    (initialHandshakeReply settings oracle st rx addr now).packet.usecPerPkt =
      (prepareHandshakeReplyPacket settings rx now).usecPerPkt := by
  simp [initialHandshakeReply, prepareHandshakeReplyPacket, CookieSecrets.calculateCookie,
    CookieSecrets.calculateCookieWithSecret]

theorem offer_sound (usual : settings.Usual) {rx : Packet}
    (moderate : (ntohl rx.usecPerPkt).toNat < 2 ^ 31) (now : Word64) :
    settings.shortest ≤ (ntohl (prepareHandshakeReplyPacket settings rx now).usecPerPkt).toInt := by
  obtain ⟨low, high⟩ := usual.toInt_usecPerPkt
  simp only [prepareHandshakeReplyPacket, ntohl_htonl]
  split
  · exact low
  · rename_i larger
    have unsigned : settings.usecPerPkt.toNat ≤ (ntohl rx.usecPerPkt).toNat := by
      simpa [BitVec.lt_def] using larger
    have positive := usual.shortest_pos
    rw [BitVec.toInt_eq_toNat_of_lt (by omega)]
    have value : settings.usecPerPkt.toInt = settings.usecPerPkt.toNat := by
      have cases := BitVec.toInt_eq_toNat_cond settings.usecPerPkt
      have bound := settings.usecPerPkt.isLt
      split at cases <;> omega
    omega

theorem Sessions.asks_of_reply {st : Sessions} {datagram : Datagram} {now : Word64} {reply : Reply}
    (sent : reply ∈ (st.readAsServer settings oracle datagram now).replies) :
    st.AsksCookie datagram := by
  have outcome := st.readAsServer_cases settings oracle datagram now
  generalize st.readAsServer settings oracle datagram now = handled at outcome sent
  cases outcome with
  | ignored => cases sent
  | asked greets bare => exact ⟨greets.1, .inl ⟨greets.2.1, bare⟩⟩
  | opened => cases sent
  | unknown formed _ absent ack => exact ⟨formed, .inr ⟨ack, absent⟩⟩
  | acked => cases sent

theorem Server.OffersSound.step (usual : settings.Usual) {server next : Server}
    {event : ServerEvent} (sound : server.OffersSound settings)
    (step : Server.Step settings oracle server event next) (moderate : server.Moderate event) :
    next.OffersSound settings := by
  obtain ⟨sessions, _, rfl⟩ := step
  intro issued member
  rcases List.mem_append.mp member with old | new
  · exact sound issued old
  · obtain ⟨reply, sent, rfl⟩ := List.mem_map.mp new
    cases event with
    | datagram datagram now =>
        have answer := Sessions.replies_readAsServer sent
        rw [answer, usecPerPkt_initialHandshakeReply]
        exact offer_sound usual (moderate (Sessions.asks_of_reply sent)) now
    | sendWaiting => cases sent
    | maybeRotate => cases sent

end Steps

theorem Server.Traceable.rateSound {settings : Settings} {server : Server}
    (usual : settings.Usual) (traceable : server.Traceable)
    (offers : server.OffersSound settings) : server.sessions.RateSound settings := by
  intro node member
  obtain ⟨opening, _, _, _, rate, history, issued, sent, _, offered, _⟩ := traceable node member
  have sound := offers issued (history sent)
  rw [offered, ← rate] at sound
  exact ⟨sound, usual.shortest_pos.trans_le sound⟩

inductive Sessions.Pass (now : Word64) :
    Sessions → SessionNode × SendResult → Sessions → Prop where
  | pass {st : Sessions} {node : SessionNode} {result : SendResult}
      (top : st.top = .ok (some node)) (due : 0 ≤ diff now node.session.nextSend) :
      Pass now st (node, result) (Sessions.sendPass true now result st node).2

def Settings.Advances (settings : Settings) (_ : Sessions) (served : SessionNode × SendResult) :
    Prop :=
  let later := (transmit true served.2 served.1.session).2
  settings.shortest ≤ diff later.nextSend served.1.session.nextSend ∧
    0 < diff later.nextSend served.1.session.nextSend

theorem diff_add_signExtend (time : Word64) (interval : Word) :
    diff (time + interval.signExtend 64) time = interval.toInt := by
  have shift : time + interval.signExtend 64 - time = interval.signExtend 64 := by ring
  rw [diff, shift, BitVec.toInt_signExtend_of_le (by decide)]

theorem nextSend_transmit_server (result : SendResult) (s : Session) :
    (transmit true result s).2.nextSend = s.nextSend + s.usecPerPkt.signExtend 64 := by
  rw [transmit_server]

theorem diff_advanced {now time : Word64} {interval : Word} (due : 0 ≤ diff now time)
    (positive : 0 < interval.toInt) :
    diff now (time + interval.signExtend 64) = diff now time - interval.toInt := by
  have shift : now - (time + interval.signExtend 64) = (now - time) - interval.signExtend 64 := by
    ring
  have upper := BitVec.toInt_lt (x := now - time)
  have small := BitVec.toInt_lt (x := interval)
  simp only [diff] at due ⊢
  rw [shift, BitVec.toInt_sub, BitVec.toInt_signExtend_of_le (by decide)]
  apply Int.bmod_eq_of_le <;> omega

def backlog (now : Word64) (node : SessionNode) : Nat := (diff now node.session.nextSend + 1).toNat

def SessionMap.backlog (now : Word64) (map : SessionMap) : Nat :=
  (map.nodes.map (Isoping.backlog now)).sum

theorem SessionMap.backlog_erase_le (now : Word64) (map : SessionMap) (addr : Sockaddr) :
    (map.erase addr).backlog now ≤ map.backlog now :=
  List.Sublist.sum_le_sum (List.filter_sublist.map _) fun _ _ => Nat.zero_le _

theorem SessionMap.backlog_modify_lt {now : Word64} {map : SessionMap} {node : SessionNode}
    (member : node ∈ map.nodes) {change : Session → Session}
    (keeps : ∀ s, (change s).remoteaddr = s.remoteaddr)
    (less : Isoping.backlog now { node with session := change node.session } <
      Isoping.backlog now node) :
    (map.modify node.id change keeps).backlog now < map.backlog now := by
  obtain ⟨before, after, split⟩ := List.append_of_mem member
  have identified := map.identified
  rw [split, List.map_append, List.map_cons] at identified
  obtain ⟨_, inner, outer⟩ := List.nodup_append.mp identified
  have others (nodes : List SessionNode) (apart : ∀ other ∈ nodes, other.id ≠ node.id) :
      nodes.map (fun other => if other.id = node.id then
        { other with session := change other.session } else other) = nodes := by
    refine (List.map_congr_left fun other inside => ?_).trans (List.map_id nodes)
    rw [if_neg (apart other inside), id]
  have earlier : ∀ other ∈ before, other.id ≠ node.id := fun other inside =>
    outer _ (List.mem_map_of_mem inside) _ List.mem_cons_self
  have later : ∀ other ∈ after, other.id ≠ node.id := fun other inside same =>
    (List.nodup_cons.mp inner).1 (List.mem_map.mpr ⟨other, inside, same⟩)
  simp only [SessionMap.backlog, SessionMap.modify, split, List.map_append, List.map_cons,
    others before earlier, others after later, if_true, List.sum_append, List.sum_cons]
  omega

section Loop

variable {settings : Settings} {st : Sessions} {now : Word64}

theorem Sessions.mapM_lookup_isSome {map : SessionMap} {ids : List Nat} (live : ids ⊆ map.ids) :
    ∃ nodes, ids.mapM map.lookup = some nodes := by
  induction ids with
  | nil => exact ⟨[], rfl⟩
  | cons id rest ih =>
      obtain ⟨node, found⟩ := SessionMap.lookup_isSome (live List.mem_cons_self)
      obtain ⟨nodes, others⟩ := ih fun other member => live (List.mem_cons_of_mem _ member)
      exact ⟨node :: nodes, by simp [List.mapM_cons, found, others]⟩

theorem Sessions.Matched.top_ok (matched : st.Matched) : ∃ top, st.top = .ok top := by
  have live := ((st.matched_iff_perm).mp matched).subset
  obtain ⟨nodes, found⟩ := mapM_lookup_isSome live
  exact ⟨_, by rw [Sessions.top, found]⟩

theorem Sessions.RateSound.sendPass (sound : st.RateSound settings) (result : SendResult)
    (node : SessionNode) : (Sessions.sendPass true now result st node).2.RateSound settings := by
  have within := Sessions.within_sendPass now result node (SessionMap.Within.refl st.sessionMap)
  intro later member
  obtain ⟨old, inside, _, _, rate⟩ := within later member
  rw [rate]
  exact sound old inside

theorem Sessions.RateSound.advances (sound : st.RateSound settings) {node : SessionNode}
    (live : node ∈ st.sessionMap.nodes) (result : SendResult) :
    settings.Advances st (node, result) := by
  simp only [Settings.Advances, nextSend_transmit_server, diff_add_signExtend]
  exact sound node live

theorem Sessions.RateSound.passes (sound : st.RateSound settings)
    {passes : List (Sessions × (SessionNode × SendResult))} {after : Sessions}
    (run : Run (Sessions.Pass now) st passes after) : StepsMeet settings.Advances passes := by
  refine (run.throughout_observed sound ?_).2
  rintro before _ next sound ⟨top, _⟩
  exact ⟨sound.sendPass _ _, sound.advances (Sessions.top_mem top).2 _⟩

theorem Sessions.RateSound.backlog_lt (sound : st.RateSound settings) {node : SessionNode}
    (live : node ∈ st.sessionMap.nodes) (due : 0 ≤ diff now node.session.nextSend)
    (result : SendResult) :
    (Sessions.sendPass true now result st node).2.sessionMap.backlog now <
      st.sessionMap.backlog now := by
  have positive := (sound node live).2
  have less : (st.served result node).backlog now < st.sessionMap.backlog now := by
    apply SessionMap.backlog_modify_lt live
    simp only [backlog, nextSend_transmit_server, diff_advanced due positive]
    omega
  rcases Sessions.sendPass_server now result st node with erased | pushed
  · rw [erased]
    exact (SessionMap.backlog_erase_le now _ _).trans_lt less
  · rw [pushed]
    exact less

theorem Sessions.RateSound.loop_ends (sound : st.RateSound settings) (matched : st.Matched)
    (now : Word64) (results : Nat → SendResult) :
    ∃ fuel next, st.sendWaitingPackets true now fuel results = .ok (0, next) := by
  induction bound : st.sessionMap.backlog now using Nat.strong_induction_on
    generalizing st results with
  | _ bound ih =>
      obtain ⟨top, found⟩ := matched.top_ok
      cases top with
      | none => exact ⟨1, st, by simp only [sendWaitingPackets, found]⟩
      | some node =>
          by_cases due : diff now node.session.nextSend < 0
          · exact ⟨1, st, by simp only [sendWaitingPackets, found, if_pos due]⟩
          · obtain ⟨queued, live⟩ := Sessions.top_mem found
            obtain ⟨fuel, next, returns⟩ := ih _
              (bound ▸ sound.backlog_lt live (not_lt.mp due) (results 0))
              (sound.sendPass (results 0) node) (matched.sendPass queued live now (results 0))
              (fun pass => results (pass + 1)) rfl
            have code : (Sessions.sendPass true now (results 0) st node).1 = 0 := by
              rcases Sessions.sendPass_server now (results 0) st node with erased | pushed
              · rw [erased]
              · rw [pushed]
            refine ⟨fuel + 1, next, ?_⟩
            simp only [sendWaitingPackets, found, if_neg due]
            generalize Sessions.sendPass true now (results 0) st node = passed at code returns ⊢
            obtain ⟨err, after⟩ := passed
            subst code
            exact returns

end Loop

/-- The sessions' intervals are sound, and so every pass of the sending loop moves
the session it serves on, whatever the clock says. -/
def Sessions.Paced (settings : Settings) (st : Sessions) : Prop :=
  st.RateSound settings ∧
    ∀ (now : Word64) {passes : List (Sessions × (SessionNode × SendResult))} {after : Sessions},
      Run (Sessions.Pass now) st passes after → StepsMeet settings.Advances passes

def Sessions.LoopEnds (st : Sessions) : Prop :=
  ∀ (now : Word64) (results : Nat → SendResult),
    ∃ fuel next, st.sendWaitingPackets true now fuel results = .ok (0, next)

/-- In every run of a server whose cookies nobody else makes and whose clients ask
for intervals that fit a signed word, every session keeps the configured pace in
every state; and while no session is greeted a second time the sending loop ends. -/
theorem sessions_paced {settings : Settings} (usual : settings.Usual) {oracle : Oracle}
    (prevCookieEpoch : Word) (prevCookieSecret : Secret)
    {trace : List (Server × ServerEvent)} {finish : Server}
    (run : Run (Server.Step settings oracle)
      (Server.start oracle prevCookieEpoch prevCookieSecret) trace finish)
    (unforged : StepsMeet (Server.Unforged oracle) trace) (ideal : finish.Ideal oracle)
    (moderate : StepsMeet Server.Moderate trace) :
    Throughout (fun server => server.sessions.Paced settings) trace finish ∧
      (StepsMeet (fun server => server.sessions.Unseen oracle) trace →
        Throughout (fun server => server.sessions.LoopEnds) trace finish) := by
  have traceable := Server.traceable_throughout _ _ run unforged
  have ideals := ideal.throughout run
  have offers : Throughout (Server.OffersSound settings) trace finish :=
    run.throughout (fun _ none => nomatch none)
      (fun sound moderate step => sound.step usual step moderate) moderate
  have sound : Throughout (fun server => server.sessions.RateSound settings) trace finish :=
    ⟨fun entry member => ((traceable.1 entry member).2 (ideals.1 entry member)).rateSound usual
      (offers.1 entry member), (traceable.2.2 ideals.2).rateSound usual offers.2⟩
  refine ⟨⟨fun entry member => ⟨sound.1 entry member, fun _ => (sound.1 entry member).passes⟩,
    sound.2, fun _ => sound.2.passes⟩, fun unseen => ?_⟩
  have matched : Throughout (fun server => server.sessions.Matched) trace finish := by
    refine run.throughout (fun _ => rfl) ?_ unseen
    rintro server event next matched fresh ⟨sessions, stepped, rfl⟩
    exact (matched.step_iff stepped).mpr fresh
  exact ⟨fun entry member => (sound.1 entry member).loop_ends (matched.1 entry member),
    sound.2.loop_ends matched.2⟩

theorem sessions_paced_client :
    Throughout (fun server => server.sessions.Paced plainSettings) (plainTrace 100000)
        (plainFinish 100000) ∧
      Throughout (fun server => server.sessions.LoopEnds) (plainTrace 100000)
        (plainFinish 100000) ∧
      (plainFinish 100000).sessions.sessionMap.nodes.length = 1 := by
  have usual : plainSettings.Usual := ⟨by decide +kernel, by decide +kernel⟩
  have moderate : StepsMeet Server.Moderate (plainTrace 100000) := by
    intro entry member
    simp only [plainTrace, handshakeEvents, List.replicate, List.cons_append, List.nil_append,
      traceOf, List.mem_cons, List.not_mem_nil, or_false] at member
    rcases member with rfl | rfl | rfl
    · trivial
    · exact fun _ => by decide +kernel
    · exact fun _ => by decide +kernel
  obtain ⟨paced, ends⟩ := sessions_paced usual 0 (.replicate 16 0) (plain_run 100000)
    (plain_unforged (by decide +kernel)) ⟨by decide +kernel, by decide +kernel⟩ moderate
  refine ⟨paced, ends fun entry member => ?_, by decide +kernel⟩
  simp only [plainTrace, handshakeEvents, List.replicate, List.cons_append, List.nil_append,
    traceOf, List.mem_cons, List.not_mem_nil, or_false] at member
  rcases member with rfl | rfl | rfl
  · trivial
  · exact fun _ => by decide +kernel
  · exact fun _ => by decide +kernel

/-- A client that asks for an interval of `2 ^ 31` microseconds gets it, and the
server's session for it has a negative interval. -/
theorem session_paced_backwards :
    Run (Server.Step plainSettings plainOracle) plainServer (plainTrace 0x80000000)
        (plainFinish 0x80000000) ∧
      StepsMeet (Server.Unforged plainOracle) (plainTrace 0x80000000) ∧
      (plainFinish 0x80000000).Ideal plainOracle ∧
      ¬ Throughout (fun server => server.sessions.Paced plainSettings) (plainTrace 0x80000000)
        (plainFinish 0x80000000) := by
  refine ⟨plain_run _, plain_unforged (by decide +kernel), ⟨by decide +kernel, by decide +kernel⟩,
    fun paced => ?_⟩
  have positive : ∀ node ∈ (plainFinish 0x80000000).sessions.sessionMap.nodes,
      0 < node.session.usecPerPkt.toInt := fun node member => (paced.2.1 node member).2
  exact absurd positive (by decide +kernel)

end Gfiber.Isoping
