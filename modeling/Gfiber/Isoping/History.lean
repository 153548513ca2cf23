import Gfiber.Isoping.Server

/-! A server with its history, and what its history says about the sessions it
holds. Nothing the code does depends on the history. -/

set_option autoImplicit false

namespace Gfiber.Isoping
open Lib

structure Issued where
  rotation : Nat
  reply : Reply

/-- The datagram that made the server allocate a node, with what had been sent by then. -/
structure Opening where
  id : Nat
  datagram : Datagram
  rotation : Nat
  issued : List Issued

/-- A server with its history: the replies it sent, the messages it took digests of
and the datagrams that opened sessions. -/
structure Server where
  sessions : Sessions
  issued : List Issued := []
  digested : List (List Byte) := []
  openings : List Opening := []

def Sessions.rotation (st : Sessions) : Nat := st.cookies.drawn - 1

namespace Sessions

def repliesOf (settings : Settings) (oracle : Oracle) (st : Sessions) : ServerEvent → List Reply
  | .datagram datagram now => (st.readAsServer settings oracle datagram now).replies
  | .sendWaiting _ _ => []
  | .maybeRotate _ _ => []

def goldenMessage (st : Sessions) (datagram : Datagram) : List Byte :=
  cookieMessage (st.cookies.secretFor datagram.packet.data.cookieEpoch) datagram.packet.usecPerPkt
    datagram.addr

/-- Whether `read_incoming_packet` comes to the comparison of cookies. -/
def comparesCookie (st : Sessions) (datagram : Datagram) : Bool :=
  datagram.wellFormed && datagram.packet.packetType = packetTypeHandshake &&
    datagram.packet.data.cookieEpoch ≠ 0 &&
    (datagram.packet.data.cookieEpoch = st.cookies.cookieEpoch ||
      datagram.packet.data.cookieEpoch = st.cookies.prevCookieEpoch)

/-- The messages digested in a step: of the cookie compared and of the cookies sent. -/
def digestedBy (settings : Settings) (oracle : Oracle) (st : Sessions) (event : ServerEvent) :
    List (List Byte) :=
  (match event with
    | .datagram datagram _ => if st.comparesCookie datagram then [st.goldenMessage datagram] else []
    | .sendWaiting _ _ => []
    | .maybeRotate _ _ => []) ++
  (st.repliesOf settings oracle event).map fun reply =>
    cookieMessage st.cookies.cookieSecret reply.packet.usecPerPkt reply.addr

end Sessions

namespace Server

def openedBy (server : Server) (next : Sessions) : ServerEvent → List Opening
  | .datagram datagram _ =>
      if next.sessionMap.allocated = server.sessions.sessionMap.allocated then []
      else
        [{ id := server.sessions.sessionMap.allocated
           datagram := datagram
           rotation := server.sessions.rotation
           issued := server.issued }]
  | .sendWaiting _ _ => []
  | .maybeRotate _ _ => []

def record (settings : Settings) (oracle : Oracle) (server : Server) (event : ServerEvent)
    (next : Sessions) : Server where
  sessions := next
  issued := server.issued ++ (server.sessions.repliesOf settings oracle event).map fun reply =>
    { rotation := server.sessions.rotation, reply := reply }
  digested := server.digested ++ server.sessions.digestedBy settings oracle event
  openings := server.openings ++ server.openedBy next event

def Step (settings : Settings) (oracle : Oracle) (server : Server) (event : ServerEvent)
    (next : Server) : Prop :=
  ∃ sessions, ServerStep settings oracle server.sessions event sessions ∧
    next = server.record settings oracle event sessions

def start (oracle : Oracle) (prevCookieEpoch : Word) (prevCookieSecret : Secret) : Server where
  sessions := Sessions.new oracle prevCookieEpoch prevCookieSecret

/-- No two messages the server took digests of collide, and no two of the secrets
it drew are the same. -/
structure Ideal (oracle : Oracle) (server : Server) : Prop where
  collisionFree : ∀ left ∈ server.digested, ∀ right ∈ server.digested,
    oracle.sha256 left = oracle.sha256 right → left = right
  distinctSecrets : ∀ left < server.sessions.cookies.drawn,
    ∀ right < server.sessions.cookies.drawn, oracle.draw left = oracle.draw right → left = right

def Unforged (oracle : Oracle) (server : Server) : ServerEvent → Prop
  | .datagram datagram _ =>
      server.sessions.comparesCookie datagram →
        oracle.sha256 (server.sessions.goldenMessage datagram) = datagram.packet.data.cookie →
        ∃ issued ∈ server.issued, issued.reply.packet.data.cookie = datagram.packet.data.cookie
  | .sendWaiting _ _ => True
  | .maybeRotate _ _ => True

end Server

/-- The datagram echoes a reply sent to its address for its rate, at most one
rotation before. The epoch is part of the echo once there has been a rotation;
until then the previous epoch is whatever the memory held. -/
def Opening.Echoes (opening : Opening) : Prop :=
  ∃ issued ∈ opening.issued,
    issued.reply.addr = opening.datagram.addr ∧
    issued.reply.packet.usecPerPkt = opening.datagram.packet.usecPerPkt ∧
    issued.reply.packet.data.cookie = opening.datagram.packet.data.cookie ∧
    (0 < opening.rotation →
      issued.reply.packet.data.cookieEpoch = opening.datagram.packet.data.cookieEpoch) ∧
    issued.rotation ≤ opening.rotation ∧ opening.rotation ≤ issued.rotation + 1

/-- Every session was opened by a datagram from its address, at its rate, that
echoes a reply this server had sent. -/
def Server.Traceable (server : Server) : Prop :=
  ∀ node ∈ server.sessions.sessionMap.nodes, ∃ opening ∈ server.openings,
    opening.id = node.id ∧ opening.datagram.addr = node.key ∧
      node.session.usecPerPkt = ntohl opening.datagram.packet.usecPerPkt ∧
      opening.issued ⊆ server.issued ∧ opening.Echoes

def Issued.message (oracle : Oracle) (issued : Issued) : List Byte :=
  cookieMessage (oracle.draw issued.rotation) issued.reply.packet.usecPerPkt issued.reply.addr

structure Issued.Recorded (oracle : Oracle) (cookies : CookieSecrets) (digested : List (List Byte))
    (issued : Issued) : Prop where
  earlier : issued.rotation < cookies.drawn
  digested : issued.message oracle ∈ digested
  cookie : issued.reply.packet.data.cookie = oracle.sha256 (issued.message oracle)
  current : issued.rotation + 1 = cookies.drawn →
    issued.reply.packet.data.cookieEpoch = cookies.cookieEpoch
  previous : issued.rotation + 2 = cookies.drawn →
    issued.reply.packet.data.cookieEpoch = cookies.prevCookieEpoch

structure CookieSecrets.Drawn (oracle : Oracle) (cookies : CookieSecrets) : Prop where
  some : 0 < cookies.drawn
  current : cookies.cookieSecret = oracle.draw (cookies.drawn - 1)
  previous : 1 < cookies.drawn → cookies.prevCookieSecret = oracle.draw (cookies.drawn - 2)

structure Server.Recorded (oracle : Oracle) (server : Server) : Prop where
  secrets : server.sessions.cookies.Drawn oracle
  issued : ∀ issued ∈ server.issued,
    issued.Recorded oracle server.sessions.cookies server.digested

theorem Server.recorded_start (oracle : Oracle) (prevCookieEpoch : Word)
    (prevCookieSecret : Secret) :
    (Server.start oracle prevCookieEpoch prevCookieSecret).Recorded oracle :=
  ⟨⟨Nat.one_pos, rfl, fun rotated => absurd rotated (lt_irrefl 1)⟩, fun _ none => nomatch none⟩

theorem Issued.Recorded.mono {oracle : Oracle} {cookies : CookieSecrets}
    {digested more : List (List Byte)} {issued : Issued}
    (recorded : issued.Recorded oracle cookies digested) (grown : digested ⊆ more) :
    issued.Recorded oracle cookies more :=
  { recorded with digested := grown recorded.digested }

section Rotation

variable {oracle : Oracle} {cookies : CookieSecrets}

theorem CookieSecrets.maybeRotate_cases (oracle : Oracle) (cookies : CookieSecrets)
    (now time : Word64) :
    ∃ newEpoch noted, cookies.maybeRotateCookieSecrets oracle now time true =
        { cookies.rotateCookieSecrets oracle newEpoch with lastSecretUpdateTime := noted } ∨
      cookies.maybeRotateCookieSecrets oracle now time true =
        { cookies with lastSecretUpdateTime := noted } := by
  simp only [maybeRotateCookieSecrets]
  split
  · split
    · exact ⟨_, _, .inl rfl⟩
    · exact ⟨0, _, .inr rfl⟩
  · exact ⟨0, cookies.lastSecretUpdateTime, .inr rfl⟩

theorem CookieSecrets.Drawn.maybeRotate (drawn : cookies.Drawn oracle) (now time : Word64) :
    (cookies.maybeRotateCookieSecrets oracle now time true).Drawn oracle := by
  have positive := drawn.some
  obtain ⟨newEpoch, noted, rotated | kept⟩ := cookies.maybeRotate_cases oracle now time
  · rw [rotated]
    refine ⟨Nat.succ_pos _, rfl, fun _ => ?_⟩
    exact drawn.current.trans (congrArg oracle.draw (by simp only [rotateCookieSecrets]; omega))
  · rw [kept]
    exact ⟨drawn.some, drawn.current, drawn.previous⟩

theorem Issued.Recorded.maybeRotate {digested : List (List Byte)} {issued : Issued}
    (recorded : issued.Recorded oracle cookies digested) (now time : Word64) :
    issued.Recorded oracle (cookies.maybeRotateCookieSecrets oracle now time true) digested := by
  have earlier := recorded.earlier
  obtain ⟨newEpoch, noted, rotated | kept⟩ := cookies.maybeRotate_cases oracle now time
  · rw [rotated]
    refine ⟨?_, recorded.digested, recorded.cookie, ?_, ?_⟩
    · simp only [CookieSecrets.rotateCookieSecrets]
      omega
    · simp only [CookieSecrets.rotateCookieSecrets]
      omega
    · simp only [CookieSecrets.rotateCookieSecrets]
      exact fun last => recorded.current (by omega)
  · rw [kept]
    exact ⟨earlier, recorded.digested, recorded.cookie, recorded.current, recorded.previous⟩

end Rotation

section Steps

variable {settings : Settings} {oracle : Oracle}

@[simp] theorem Sessions.cookies_readAsServer (st : Sessions) (datagram : Datagram) (now : Word64) :
    (st.readAsServer settings oracle datagram now).sessions.cookies = st.cookies := by
  have outcome := st.readAsServer_cases settings oracle datagram now
  generalize st.readAsServer settings oracle datagram now = handled at outcome ⊢
  cases outcome <;> rfl

theorem Sessions.replies_readAsServer {st : Sessions} {datagram : Datagram} {now : Word64}
    {reply : Reply} (sent : reply ∈ (st.readAsServer settings oracle datagram now).replies) :
    reply = initialHandshakeReply settings oracle st datagram.packet datagram.addr now := by
  have outcome := st.readAsServer_cases settings oracle datagram now
  generalize st.readAsServer settings oracle datagram now = handled at outcome sent
  cases outcome with
  | ignored => cases sent
  | asked => exact List.mem_singleton.mp sent
  | opened => cases sent
  | unknown => exact List.mem_singleton.mp sent
  | acked => cases sent

theorem Sessions.cookies_sendWaitingPackets {st next : Sessions} {now : Word64} {fuel : Nat}
    {results : Nat → SendResult} {code : Int}
    (returns : st.sendWaitingPackets true now fuel results = .ok (code, next)) :
    next.cookies = st.cookies := by
  refine sendWaitingPackets_preserves (fun other => other.cookies = st.cookies) ?_ returns rfl
  intro other node result same _ _
  rcases sendPass_server now result other node with erased | pushed
  · rw [erased]
    exact same
  · rw [pushed]
    exact same

theorem Issued.recorded_reply {st : Sessions} (drawn : st.cookies.Drawn oracle) (rx : Packet)
    (addr : Sockaddr) (now : Word64) {digested : List (List Byte)}
    (noted : cookieMessage st.cookies.cookieSecret
      (initialHandshakeReply settings oracle st rx addr now).packet.usecPerPkt addr ∈ digested) :
    Issued.Recorded oracle st.cookies digested
      ⟨st.rotation, initialHandshakeReply settings oracle st rx addr now⟩ := by
  have positive := drawn.some
  have message : Issued.message oracle
      ⟨st.rotation, initialHandshakeReply settings oracle st rx addr now⟩ =
      cookieMessage st.cookies.cookieSecret
        (initialHandshakeReply settings oracle st rx addr now).packet.usecPerPkt addr := by
    rw [Issued.message, drawn.current]
    rfl
  refine ⟨?_, message ▸ noted, ?_, fun _ => ?_, fun last => ?_⟩
  · simp only [Sessions.rotation]
    omega
  · rw [message]
    simp [initialHandshakeReply, prepareHandshakeReplyPacket, CookieSecrets.calculateCookie,
      CookieSecrets.calculateCookieWithSecret]
  · simp [initialHandshakeReply, prepareHandshakeReplyPacket, CookieSecrets.calculateCookie,
      CookieSecrets.calculateCookieWithSecret]
  · simp only [Sessions.rotation] at last
    omega

theorem Server.Recorded.step {server next : Server} {event : ServerEvent}
    (recorded : server.Recorded oracle) (step : Server.Step settings oracle server event next) :
    next.Recorded oracle := by
  obtain ⟨sessions, stepped, rfl⟩ := step
  have grown : server.digested ⊆ (server.record settings oracle event sessions).digested :=
    List.subset_append_left _ _
  cases stepped with
  | @datagram datagram now =>
      refine ⟨?_, ?_⟩
      · simp only [Server.record, Sessions.cookies_readAsServer]
        exact recorded.secrets
      · intro issued member
        simp only [Server.record, Sessions.cookies_readAsServer]
        rcases List.mem_append.mp member with old | new
        · exact (recorded.issued issued old).mono grown
        · obtain ⟨reply, sent, rfl⟩ := List.mem_map.mp new
          have answer := Sessions.replies_readAsServer sent
          subst answer
          refine Issued.recorded_reply recorded.secrets _ _ _ (List.mem_append_right _ ?_)
          exact List.mem_append_right _ (List.mem_map.mpr ⟨_, sent, rfl⟩)
  | sendWaiting returns =>
      have same := Sessions.cookies_sendWaitingPackets returns
      refine ⟨?_, ?_⟩
      · simp only [Server.record, same]
        exact recorded.secrets
      · intro issued member
        simp only [Server.record, same, Sessions.repliesOf, List.map_nil, List.append_nil] at member ⊢
        exact (recorded.issued issued member).mono grown
  | @maybeRotate now time =>
      refine ⟨recorded.secrets.maybeRotate now time, ?_⟩
      intro issued member
      simp only [Server.record, Sessions.repliesOf, List.map_nil, List.append_nil] at member ⊢
      exact ((recorded.issued issued member).mono grown).maybeRotate now time

theorem Sessions.drawn_step {st next : Sessions} {event : ServerEvent}
    (step : ServerStep settings oracle st event next) : st.cookies.drawn ≤ next.cookies.drawn := by
  cases step with
  | datagram => rw [Sessions.cookies_readAsServer]
  | sendWaiting returns => rw [Sessions.cookies_sendWaitingPackets returns]
  | @maybeRotate now time =>
      obtain ⟨newEpoch, noted, rotated | kept⟩ := st.cookies.maybeRotate_cases oracle now time
      · rw [rotated]
        exact Nat.le_succ _
      · rw [kept]

theorem Server.Ideal.before {server : Server} {event : ServerEvent} {sessions : Sessions}
    (ideal : (server.record settings oracle event sessions).Ideal oracle)
    (step : ServerStep settings oracle server.sessions event sessions) : server.Ideal oracle := by
  have drawn := Sessions.drawn_step step
  refine ⟨fun left inside right inside' => ?_, fun left small right small' => ?_⟩
  · exact ideal.collisionFree left (List.mem_append_left _ inside) right
      (List.mem_append_left _ inside')
  · exact ideal.distinctSecrets left (small.trans_le drawn) right (small'.trans_le drawn)

theorem Server.Recorded.echoes {server : Server} {datagram : Datagram} {now : Word64}
    {sessions : Sessions} (recorded : server.Recorded oracle)
    (ideal : (server.record settings oracle (.datagram datagram now) sessions).Ideal oracle)
    (secrets : sessions.cookies = server.sessions.cookies)
    (unforged : server.Unforged oracle (.datagram datagram now))
    (compared : server.sessions.comparesCookie datagram = true)
    (valid : server.sessions.cookies.validateCookie oracle datagram.packet datagram.addr = true)
    (id : Nat) : Opening.Echoes ⟨id, datagram, server.sessions.rotation, server.issued⟩ := by
  obtain ⟨recognised, genuine⟩ := (CookieSecrets.validateCookie_iff _ _ _ _).mp valid
  obtain ⟨issued, sent, same⟩ := unforged compared genuine
  have record := recorded.issued issued sent
  have golden : server.sessions.goldenMessage datagram ∈
      (server.record settings oracle (.datagram datagram now) sessions).digested := by
    simp [Server.record, Sessions.digestedBy, compared]
  have messages := ideal.collisionFree _ (List.mem_append_left _ record.digested) _ golden
    ((record.cookie.symm.trans same).trans genuine.symm)
  obtain ⟨secret, rate, addr⟩ := cookieMessage_injective messages
  have distinct := ideal.distinctSecrets
  simp only [Server.record, secrets] at distinct
  obtain ⟨positive, current, previous⟩ := recorded.secrets
  have earlier := record.earlier
  refine ⟨issued, sent, addr, rate, same, ?_⟩
  simp only [Sessions.rotation]
  by_cases old : datagram.packet.data.cookieEpoch = server.sessions.cookies.prevCookieEpoch
  · rw [CookieSecrets.secretFor, if_pos old] at secret
    by_cases rotated : 1 < server.sessions.cookies.drawn
    · have index := distinct _ earlier _ (by omega) (secret.trans (previous rotated))
      exact ⟨fun _ => (record.previous (by omega)).trans old.symm, by omega, by omega⟩
    · exact ⟨fun later => absurd later (by omega), by omega, by omega⟩
  · rw [CookieSecrets.secretFor, if_neg old] at secret
    have index := distinct _ earlier _ (by omega) (secret.trans current)
    have epoch := recognised.resolve_right old
    exact ⟨fun _ => (record.current (by omega)).trans epoch.symm, by omega, by omega⟩

theorem Server.Traceable.within {server next : Server} (traceable : server.Traceable)
    (within : next.sessions.sessionMap.Within server.sessions.sessionMap)
    (openings : server.openings ⊆ next.openings) (replies : server.issued ⊆ next.issued) :
    next.Traceable := by
  intro node member
  obtain ⟨old, inside, id, key, rate⟩ := within node member
  obtain ⟨opening, kept, id', key', rate', sent, echoes⟩ := traceable old inside
  exact ⟨opening, openings kept, id'.trans id.symm, key'.trans key.symm, rate.trans rate',
    List.Subset.trans sent replies, echoes⟩

theorem Sessions.within_sendPass (now : Word64) (result : SendResult) {st : Sessions}
    (node : SessionNode) {map : SessionMap} (within : st.sessionMap.Within map) :
    (Sessions.sendPass true now result st node).2.sessionMap.Within map := by
  have served : (st.served result node).Within map :=
    within.modify (usecPerPkt_transmit true result)
  rcases sendPass_server now result st node with erased | pushed
  · rw [erased]
    exact served.erase _
  · rw [pushed]
    exact served

theorem Sessions.within_sendWaitingPackets {st next : Sessions} {now : Word64} {fuel : Nat}
    {results : Nat → SendResult} {code : Int}
    (returns : st.sendWaitingPackets true now fuel results = .ok (code, next)) :
    next.sessionMap.Within st.sessionMap := by
  refine sendWaitingPackets_preserves (fun other => other.sessionMap.Within st.sessionMap) ?_
    returns (SessionMap.Within.refl _)
  intro other node result within _ _
  exact within_sendPass now result node within

theorem Sessions.readAsServer_nodes (settings : Settings) (oracle : Oracle) (st : Sessions)
    (datagram : Datagram) (now : Word64) :
    (st.readAsServer settings oracle datagram now).sessions.sessionMap.Within st.sessionMap ∨
      st.comparesCookie datagram = true ∧
        st.cookies.validateCookie oracle datagram.packet datagram.addr = true ∧
        (st.readAsServer settings oracle datagram now).sessions.sessionMap.allocated =
          st.sessionMap.allocated + 1 ∧
        ∀ node ∈ (st.readAsServer settings oracle datagram now).sessions.sessionMap.nodes,
          (∃ old ∈ st.sessionMap.nodes, node.id = old.id ∧ node.key = old.key ∧
            node.session.usecPerPkt = old.session.usecPerPkt) ∨
          node.id = st.sessionMap.allocated ∧ node.key = datagram.addr ∧
            node.session.usecPerPkt = ntohl datagram.packet.usecPerPkt := by
  have outcome := st.readAsServer_cases settings oracle datagram now
  generalize st.readAsServer settings oracle datagram now = handled at outcome ⊢
  have same := SessionMap.Within.refl st.sessionMap
  cases outcome with
  | ignored => exact .inl same
  | asked => exact .inl (same.erase _)
  | unknown => exact .inl same
  | acked => exact .inl (same.modify fun s => usecPerPkt_receiveAck _ _ s _ _)
  | opened greets cookied valid =>
      have echo (s : Session) := usecPerPkt_receiveCookieEcho settings.quiet s datagram.packet now
      cases found : st.sessionMap.find (admitted settings datagram now).remoteaddr with
      | some node =>
          simp only [SessionMap.insert_of_found found]
          exact .inl (same.modify echo)
      | none =>
          simp only [SessionMap.insert_of_absent found]
          obtain ⟨formed, handshake, _⟩ := greets
          obtain ⟨recognised, _⟩ := (CookieSecrets.validateCookie_iff _ _ _ _).mp valid
          refine .inr ⟨?_, valid, rfl, fun node member => ?_⟩
          · simp only [Sessions.comparesCookie, formed, handshake, decide_true, Bool.and_self,
              decide_eq_true cookied, Bool.true_and, Bool.or_eq_true, decide_eq_true_eq]
            exact recognised
          · obtain ⟨old, inside, id, key, changed⟩ := SessionMap.mem_modify member
            have rate : node.session.usecPerPkt = old.session.usecPerPkt := by
              rcases changed with kept | ⟨_, moved⟩
              · rw [kept]
              · rw [moved, echo]
            rcases List.mem_append.mp inside with earlier | new
            · exact .inl ⟨old, earlier, id, key, rate⟩
            · rw [List.mem_singleton.mp new] at id key rate
              exact .inr ⟨id, key, rate⟩

theorem Server.Traceable.step {server next : Server} {event : ServerEvent}
    (traceable : server.Traceable) (recorded : server.Recorded oracle)
    (step : Server.Step settings oracle server event next) (ideal : next.Ideal oracle)
    (unforged : server.Unforged oracle event) : next.Traceable := by
  obtain ⟨sessions, stepped, rfl⟩ := step
  have openings : server.openings ⊆ (server.record settings oracle event sessions).openings :=
    List.subset_append_left _ _
  have replies : server.issued ⊆ (server.record settings oracle event sessions).issued :=
    List.subset_append_left _ _
  cases stepped with
  | @datagram datagram now =>
      rcases server.sessions.readAsServer_nodes settings oracle datagram now with
        within | ⟨compared, valid, allocated, nodes⟩
      · exact traceable.within within openings replies
      · intro node member
        rcases nodes node member with ⟨old, inside, id, key, rate⟩ | ⟨id, key, rate⟩
        · obtain ⟨opening, kept, id', key', rate', sent, echoes⟩ := traceable old inside
          exact ⟨opening, openings kept, id'.trans id.symm, key'.trans key.symm,
            rate.trans rate', List.Subset.trans sent replies, echoes⟩
        · have echoes := recorded.echoes ideal (Sessions.cookies_readAsServer _ _ _) unforged
            compared valid server.sessions.sessionMap.allocated
          refine ⟨⟨server.sessions.sessionMap.allocated, datagram, server.sessions.rotation,
            server.issued⟩, List.mem_append_right _ ?_, id.symm, key.symm, rate, replies, echoes⟩
          simp only [Server.openedBy, allocated, Nat.succ_ne_self, if_false, List.mem_singleton]
  | sendWaiting returns =>
      have within := Sessions.within_sendWaitingPackets returns
      exact traceable.within within openings replies
  | maybeRotate =>
      have within := SessionMap.Within.refl server.sessions.sessionMap
      exact traceable.within within openings replies

end Steps

theorem Server.traceable_throughout {settings : Settings} {oracle : Oracle}
    (prevCookieEpoch : Word) (prevCookieSecret : Secret)
    {trace : List (Server × ServerEvent)} {finish : Server}
    (run : Run (Server.Step settings oracle)
      (Server.start oracle prevCookieEpoch prevCookieSecret) trace finish)
    (unforged : StepsMeet (Server.Unforged oracle) trace) :
    Throughout (fun server => server.Recorded oracle ∧ (server.Ideal oracle → server.Traceable))
      trace finish := by
  refine run.throughout ⟨Server.recorded_start _ _ _, fun _ _ none => nomatch none⟩ ?_ unforged
  rintro server event next ⟨recorded, traceable⟩ genuine step
  refine ⟨recorded.step step, fun ideal => ?_⟩
  obtain ⟨sessions, stepped, same⟩ := step
  have earlier := traceable ((same ▸ ideal : Server.Ideal oracle _).before stepped)
  exact earlier.step recorded ⟨sessions, stepped, same⟩ ideal genuine

theorem Server.Ideal.throughout {settings : Settings} {oracle : Oracle} {start finish : Server}
    {trace : List (Server × ServerEvent)} (ideal : finish.Ideal oracle)
    (run : Run (Server.Step settings oracle) start trace finish) :
    Throughout (Server.Ideal oracle) trace finish := by
  induction run with
  | nil => exact ⟨by simp, ideal⟩
  | snoc _ step ih =>
      obtain ⟨sessions, stepped, same⟩ := step
      subst same
      exact (ih (ideal.before stepped)).snoc ideal

def Server.after (settings : Settings) (oracle : Oracle) (server : Server) (event : ServerEvent) :
    Server :=
  server.record settings oracle event (server.sessions.after settings oracle event)

def plainServer : Server := Server.start plainOracle 0 (.replicate 16 0)

def plainTrace (usecPerPkt : Word) : List (Server × ServerEvent) :=
  traceOf (Server.after plainSettings plainOracle) plainServer (handshakeEvents usecPerPkt 1)

def plainFinish (usecPerPkt : Word) : Server :=
  (handshakeEvents usecPerPkt 1).foldl (Server.after plainSettings plainOracle) plainServer

theorem plain_run (usecPerPkt : Word) :
    Run (Server.Step plainSettings plainOracle) plainServer (plainTrace usecPerPkt)
      (plainFinish usecPerPkt) := by
  refine Run.of_labels _ _ fun server event member => ⟨_, ?_, rfl⟩
  simp only [handshakeEvents, List.cons_append, List.nil_append, List.mem_cons,
    List.mem_replicate] at member
  rcases member with rfl | rfl | ⟨_, rfl⟩
  · exact .maybeRotate
  · exact .datagram
  · exact .datagram

theorem plain_unforged {usecPerPkt : Word}
    (sent : ∃ issued ∈ ((handshakeEvents usecPerPkt 0).foldl
      (Server.after plainSettings plainOracle) plainServer).issued,
      issued.reply.packet.data.cookie = (echo usecPerPkt).packet.data.cookie) :
    StepsMeet (Server.Unforged plainOracle) (plainTrace usecPerPkt) := by
  intro entry member
  simp only [plainTrace, handshakeEvents, List.replicate, List.cons_append, List.nil_append, traceOf,
    List.mem_cons, List.not_mem_nil, or_false] at member
  rcases member with rfl | rfl | rfl
  · trivial
  · intro compared
    exact absurd compared (by simp [Sessions.comparesCookie, request, PacketData.cookieEpoch])
  · exact fun _ _ => sent

end Gfiber.Isoping
