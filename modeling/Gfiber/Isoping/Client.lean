import Gfiber.Lib.Run
import Gfiber.Isoping.Sessions

/-! The client, which has one session. Its steps are taken on the session alone;
the calls of the main loop on `Sessions` are runs of such steps. -/

set_option autoImplicit false

namespace Gfiber.Isoping
open Lib

inductive ClientEvent where
  | transmit (result : SendResult)
  | receive (packet : Packet) (now : Word64)

inductive ClientStep (quiet : Bool) : Session → ClientEvent → Session → Prop where
  | transmit {s : Session} {result : SendResult}
      (running : (Isoping.transmit false result s).1 = 0) :
      ClientStep quiet s (.transmit result) (Isoping.transmit false result s).2
  | receive {s : Session} {packet : Packet} {now : Word64} :
      ClientStep quiet s (.receive packet now) (receivePacket quiet false s packet now)

inductive ClientCall where
  | sendWaiting (now : Word64) (results : Nat → SendResult)
  | readIncoming (datagram : Datagram) (now : Word64)

inductive ClientCallStep (settings : Settings) : Sessions → ClientCall → Sessions → Prop where
  | sendWaiting {st next : Sessions} {now : Word64} {results : Nat → SendResult} {fuel : Nat}
      (returns : st.sendWaitingPackets false now fuel results = .ok (0, next)) :
      ClientCallStep settings st (.sendWaiting now results) next
  | readIncoming {st next : Sessions} {datagram : Datagram} {now : Word64} {code : Int}
      (returns : st.readAsClient settings datagram now = .ok (code, next)) :
      ClientCallStep settings st (.readIncoming datagram now) next

def Sessions.Single (st : Sessions) (s : Session) : Prop :=
  ∃ node, st.sessionMap.nodes = [node] ∧ st.nextSends = [node.id] ∧ node.session = s

theorem Sessions.single_newSession (oracle : Oracle) (prevCookieEpoch : Word)
    (prevCookieSecret : Secret) (session : Session) :
    ((Sessions.new oracle prevCookieEpoch prevCookieSecret).newSession session).1.Single session := by
  have absent : (Sessions.new oracle prevCookieEpoch prevCookieSecret).sessionMap.find
      session.remoteaddr = none := rfl
  simp only [Sessions.newSession, SessionMap.insert_of_absent absent]
  exact ⟨_, rfl, rfl, rfl⟩

section Simulation

variable {settings : Settings} {st next : Sessions} {s : Session}

theorem Sessions.Single.modify {cookies : CookieSecrets} {node : SessionNode}
    (nodes : st.sessionMap.nodes = [node]) {change : Session → Session}
    (keeps : ∀ s, (change s).remoteaddr = s.remoteaddr) :
    Sessions.Single ⟨st.sessionMap.modify node.id change keeps, [node.id], cookies⟩
      (change node.session) :=
  ⟨{ node with session := change node.session }, by simp [SessionMap.modify, nodes], rfl, rfl⟩

theorem Sessions.Single.top (single : st.Single s) :
    ∃ node, st.sessionMap.nodes = [node] ∧ st.nextSends = [node.id] ∧ node.session = s ∧
      st.top = .ok (some node) := by
  obtain ⟨node, nodes, queue, session⟩ := single
  refine ⟨node, nodes, queue, session, ?_⟩
  have found : st.sessionMap.lookup node.id = some node := by
    simp [SessionMap.lookup, nodes]
  simp [Sessions.top, queue, found, least]

theorem Sessions.Single.sendWaiting (single : st.Single s) {now : Word64} {fuel : Nat}
    {results : Nat → SendResult}
    (returns : st.sendWaitingPackets false now fuel results = .ok (0, next)) :
    ∃ trace s', Run (ClientStep settings.quiet) s trace s' ∧ next.Single s' := by
  induction fuel generalizing st s results with
  | zero => cases returns
  | succ fuel ih =>
      obtain ⟨node, nodes, queue, session, top⟩ := single.top
      simp only [sendWaitingPackets, top] at returns
      split at returns
      · cases returns
        exact ⟨[], s, .nil, single⟩
      · by_cases running : (transmit false (results 0) node.session).1 = 0
        · have passed : sendPass false now (results 0) st node =
              (0, ⟨st.sessionMap.modify node.id (fun s => (transmit false (results 0) s).2)
                (remoteaddr_transmit false (results 0)), [node.id], st.cookies⟩) := by
            simp [sendPass, running, queue]
          rw [passed] at returns
          obtain ⟨trace, s', run, after⟩ := ih (Sessions.Single.modify nodes _) returns
          subst session
          exact ⟨_, s', Run.cons (.transmit running) run, after⟩
        · have passed : (sendPass false now (results 0) st node).1 ≠ 0 := by
            simp [sendPass, running]
          split at returns
          · rename_i _ equation
            exact absurd (by rw [equation]) passed
          · rename_i equation
            cases returns
            exact absurd (by rw [equation]) passed

theorem Sessions.Single.readIncoming (single : st.Single s) {datagram : Datagram} {now : Word64}
    {code : Int} (returns : st.readAsClient settings datagram now = .ok (code, next)) :
    ∃ trace s', Run (ClientStep settings.quiet) s trace s' ∧ next.Single s' := by
  obtain ⟨node, nodes, queue, session⟩ := single
  by_cases formed : datagram.wellFormed = true
  · have step : ClientStep settings.quiet s (.receive datagram.packet now)
        (receivePacket settings.quiet false s datagram.packet now) := .receive
    refine ⟨_, _, Run.nil.snoc step, ?_⟩
    subst session
    by_cases handshake : datagram.packet.packetType = packetTypeHandshake
    · simp only [readAsClient, formed, Bool.not_true, Bool.false_eq_true, if_false, nodes,
        List.head?_cons, if_pos handshake, handleServerHandshakePacket, queue, Except.map,
        Except.ok.injEq, Prod.mk.injEq] at returns
      obtain ⟨_, rfl⟩ := returns
      simp only [receivePacket, if_pos handshake, Bool.false_eq_true, if_false]
      exact Sessions.Single.modify nodes _
    · have ack : datagram.packet.packetType = packetTypeAck := by
        simp only [Datagram.wellFormed, Bool.and_eq_true, Bool.or_eq_true,
          decide_eq_true_eq] at formed
        exact formed.2.resolve_left handshake
      simp only [readAsClient, formed, Bool.not_true, Bool.false_eq_true, if_false, nodes,
        List.head?_cons, if_neg handshake, Except.ok.injEq, Prod.mk.injEq] at returns
      obtain ⟨_, rfl⟩ := returns
      simp only [receivePacket, if_neg handshake, if_pos ack, queue]
      exact Sessions.Single.modify nodes _
  · have malformed : datagram.wellFormed = false := by simpa using formed
    simp only [readAsClient, malformed, Bool.not_false, if_true, Except.ok.injEq,
      Prod.mk.injEq] at returns
    obtain ⟨_, rfl⟩ := returns
    exact ⟨[], s, .nil, node, nodes, queue, session⟩

theorem Sessions.Single.call (single : st.Single s) {call : ClientCall}
    (step : ClientCallStep settings st call next) :
    ∃ trace s', Run (ClientStep settings.quiet) s trace s' ∧ next.Single s' := by
  cases step with
  | sendWaiting returns => exact single.sendWaiting returns
  | readIncoming returns => exact single.readIncoming returns

end Simulation

/-- Every run of the client's main loop is a run of steps of its session. -/
theorem client_simulated {settings : Settings} {start finish : Sessions}
    {trace : List (Sessions × ClientCall)} (run : Run (ClientCallStep settings) start trace finish)
    {s : Session} (single : start.Single s) :
    ∃ steps s', Run (ClientStep settings.quiet) s steps s' ∧ finish.Single s' := by
  induction run with
  | nil => exact ⟨[], s, .nil, single⟩
  | snoc _ call ih =>
      obtain ⟨steps, s', earlier, middle⟩ := ih
      obtain ⟨more, s'', later, last⟩ := middle.call call
      exact ⟨steps ++ more, s'', earlier.append later, last⟩

end Gfiber.Isoping
