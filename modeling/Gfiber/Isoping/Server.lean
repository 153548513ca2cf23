import Gfiber.Lib.Run
import Gfiber.Lib.Sha256
import Gfiber.Isoping.Sessions

/-! The server's main loop as a transition system: it may rotate its secrets, send
the packets that are due and read one datagram, at any clock values. -/

set_option autoImplicit false

namespace Gfiber.Isoping
open Lib

inductive ServerEvent where
  | datagram (datagram : Datagram) (now : Word64)
  | sendWaiting (now : Word64) (results : Nat → SendResult)
  | maybeRotate (now time : Word64)

inductive ServerStep (settings : Settings) (oracle : Oracle) :
    Sessions → ServerEvent → Sessions → Prop where
  | datagram {st : Sessions} {datagram : Datagram} {now : Word64} :
      ServerStep settings oracle st (.datagram datagram now)
        (st.readAsServer settings oracle datagram now).sessions
  | sendWaiting {st next : Sessions} {now : Word64} {results : Nat → SendResult} {fuel : Nat}
      {code : Int}
      (returns : st.sendWaitingPackets true now fuel results = .ok (code, next)) :
      ServerStep settings oracle st (.sendWaiting now results) next
  | maybeRotate {st : Sessions} {now time : Word64} :
      ServerStep settings oracle st (.maybeRotate now time)
        { st with cookies := st.cookies.maybeRotateCookieSecrets oracle now time true }

def Sessions.Greets (oracle : Oracle) (st : Sessions) (datagram : Datagram) : Prop :=
  datagram.wellFormed ∧ datagram.packet.packetType = packetTypeHandshake ∧
    (datagram.packet.data.cookieEpoch = 0 ∨
      st.cookies.validateCookie oracle datagram.packet datagram.addr)

namespace Sessions

theorem mapM_lookup_mem {map : SessionMap} {ids : List Nat} {nodes : List SessionNode}
    (found : ids.mapM map.lookup = some nodes) :
    ∀ node ∈ nodes, node.id ∈ ids ∧ map.lookup node.id = some node := by
  induction ids generalizing nodes with
  | nil =>
      simp only [List.mapM_nil] at found
      cases found
      simp
  | cons id rest ih =>
      simp only [List.mapM_cons, Option.bind_eq_bind, Option.bind_eq_some_iff] at found
      obtain ⟨first, here, others, there, whole⟩ := found
      cases whole
      intro node member
      have same : first.id = id := (SessionMap.lookup_mem here).2
      rcases List.mem_cons.mp member with rfl | later
      · exact ⟨by simp [same], by rw [same]; exact here⟩
      · obtain ⟨inside, looked⟩ := ih there node later
        exact ⟨List.mem_cons_of_mem _ inside, looked⟩

theorem top_mem {st : Sessions} {node : SessionNode} (top : st.top = .ok (some node)) :
    node.id ∈ st.nextSends ∧ node ∈ st.sessionMap.nodes := by
  unfold Sessions.top at top
  split at top
  · cases top
  · rename_i nodes found
    obtain ⟨queued, looked⟩ := mapM_lookup_mem found node (least_mem (Except.ok.inj top))
    exact ⟨queued, (SessionMap.lookup_mem looked).1⟩

def served (st : Sessions) (result : SendResult) (node : SessionNode) : SessionMap :=
  st.sessionMap.modify node.id (fun s => (transmit true result s).2)
    (remoteaddr_transmit true result)

theorem sendPass_server (now : Word64) (result : SendResult) (st : Sessions) (node : SessionNode) :
    sendPass true now result st node =
        (0, { st with
          sessionMap := (st.served result node).erase node.session.remoteaddr
          nextSends := st.nextSends.erase node.id }) ∨
      sendPass true now result st node =
        (0, { st with
          sessionMap := st.served result node
          nextSends := st.nextSends.erase node.id ++ [node.id] }) := by
  have code : (transmit true result node.session).1 = 0 := by rw [transmit_server]
  simp only [sendPass, code, ne_eq, not_true, if_false]
  split
  · exact .inl rfl
  · exact .inr rfl

theorem sendWaitingPackets_preserves (property : Sessions → Prop) {now : Word64}
    (pass : ∀ {st : Sessions} {node : SessionNode} (result : SendResult), property st →
      node.id ∈ st.nextSends → node ∈ st.sessionMap.nodes →
      property (sendPass true now result st node).2)
    {st next : Sessions} {fuel : Nat} {results : Nat → SendResult} {code : Int}
    (returns : st.sendWaitingPackets true now fuel results = .ok (code, next))
    (before : property st) : property next := by
  induction fuel generalizing st results with
  | zero => cases returns
  | succ fuel ih =>
      simp only [sendWaitingPackets] at returns
      split at returns
      · cases returns
      · cases returns
        exact before
      · rename_i node top
        obtain ⟨queued, live⟩ := top_mem top
        split at returns
        · cases returns
          exact before
        · split at returns
          · rename_i after passed
            apply ih returns
            have kept := pass (results 0) before queued live
            rw [passed] at kept
            exact kept
          · rename_i after _ passed
            cases returns
            have kept := pass (results 0) before queued live
            rw [passed] at kept
            exact kept

def admitted (settings : Settings) (datagram : Datagram) (now : Word64) : Session :=
  Session.new settings.usecPerPrint (now + 10 * 1000) (ntohl datagram.packet.usecPerPkt) datagram.addr

inductive ServerRead (settings : Settings) (oracle : Oracle) (st : Sessions) (datagram : Datagram)
    (now : Word64) : Handled → Prop where
  | ignored {code : Int} (unanswered : ¬ st.Greets oracle datagram) :
      ServerRead settings oracle st datagram now { code := code, sessions := st }
  | asked (greets : st.Greets oracle datagram) (bare : datagram.packet.data.cookieEpoch = 0) :
      ServerRead settings oracle st datagram now
        { code := 0
          sessions := { st with sessionMap := st.sessionMap.erase datagram.addr }
          replies := [initialHandshakeReply settings oracle st datagram.packet datagram.addr now] }
  | opened (greets : st.Greets oracle datagram) (cookied : datagram.packet.data.cookieEpoch ≠ 0)
      (valid : st.cookies.validateCookie oracle datagram.packet datagram.addr = true) :
      ServerRead settings oracle st datagram now
        { code := 0
          sessions := { st with
            sessionMap := (st.sessionMap.insert (admitted settings datagram now)).1.modify
              (st.sessionMap.insert (admitted settings datagram now)).2
              (fun s => receiveCookieEcho settings.quiet s datagram.packet now)
              (fun s => remoteaddr_receiveCookieEcho settings.quiet s datagram.packet now)
            nextSends :=
              st.nextSends ++ [(st.sessionMap.insert (admitted settings datagram now)).2] } }
  | unknown (formed : datagram.wellFormed = true) (unanswered : ¬ st.Greets oracle datagram)
      (absent : st.sessionMap.find datagram.addr = none)
      (ack : datagram.packet.packetType = packetTypeAck) :
      ServerRead settings oracle st datagram now
        { code := -1
          sessions := st
          replies := [initialHandshakeReply settings oracle st datagram.packet datagram.addr now] }
  | acked {node : SessionNode} (unanswered : ¬ st.Greets oracle datagram)
      (found : st.sessionMap.find datagram.addr = some node) :
      ServerRead settings oracle st datagram now
        { code := 0
          sessions := { st with
            sessionMap := st.sessionMap.modify node.id
              (fun s => receiveAck settings.quiet true s datagram.packet now)
              (fun s => remoteaddr_receiveAck settings.quiet true s datagram.packet now) } }

theorem readAsServer_cases (settings : Settings) (oracle : Oracle) (st : Sessions)
    (datagram : Datagram) (now : Word64) :
    ServerRead settings oracle st datagram now (st.readAsServer settings oracle datagram now) := by
  by_cases formed : datagram.wellFormed = true
  · by_cases handshake : datagram.packet.packetType = packetTypeHandshake
    · simp only [readAsServer, formed, Bool.not_true, Bool.false_eq_true, if_false, if_pos handshake,
        handleNewClientHandshakePacket]
      by_cases bare : datagram.packet.data.cookieEpoch = 0
      · rw [if_pos bare]
        exact .asked ⟨formed, handshake, .inl bare⟩ bare
      · rw [if_neg bare]
        by_cases valid : st.cookies.validateCookie oracle datagram.packet datagram.addr = true
        · simp only [valid, Bool.not_true, Bool.false_eq_true, if_false]
          exact .opened ⟨formed, handshake, .inr valid⟩ bare valid
        · simp only [Bool.not_eq_true] at valid
          simp only [valid, Bool.not_false, if_true]
          exact .ignored fun ⟨_, _, greets⟩ => greets.elim bare (by simp [valid])
    · have unanswered : ¬ st.Greets oracle datagram := fun greets => handshake greets.2.1
      have ack : datagram.packet.packetType = packetTypeAck := by
        simp only [Datagram.wellFormed, Bool.and_eq_true, Bool.or_eq_true,
          decide_eq_true_eq] at formed
        exact formed.2.resolve_left handshake
      simp only [readAsServer, formed, Bool.not_true, Bool.false_eq_true, if_false,
        if_neg handshake]
      split
      · rename_i absent
        exact .unknown formed unanswered absent ack
      · rename_i node found
        exact .acked unanswered found
  · have malformed : datagram.wellFormed = false := by simpa using formed
    simp only [readAsServer, malformed, Bool.not_false, if_true]
    exact .ignored fun greets => formed greets.1

def after (settings : Settings) (oracle : Oracle) (st : Sessions) : ServerEvent → Sessions
  | .datagram datagram now => (st.readAsServer settings oracle datagram now).sessions
  | .sendWaiting _ _ => st
  | .maybeRotate now time =>
      { st with cookies := st.cookies.maybeRotateCookieSecrets oracle now time true }

end Sessions

/-! A small server for examples, with ten packets per second. -/

def plainOracle : Oracle where
  sha256 := Sha256.sha256
  draw index := Vector.replicate 16 (BitVec.ofNat 8 index)

def plainSettings : Settings where
  quiet := true
  usecPerPrint := 0
  packetsPerSec := 10

def plainStart : Sessions := Sessions.new plainOracle 0 (.replicate 16 0)

def firstRotation : ServerEvent := .maybeRotate 2000000 6400

def request (usecPerPkt : Word) : Datagram where
  addr := .loopback
  size := packetSize
  packet := { magic := htonl magicNumber, id := htonl 1, usecPerPkt := htonl usecPerPkt,
              packetType := packetTypeHandshake }

def echo (usecPerPkt : Word) : Datagram where
  addr := .loopback
  size := packetSize
  packet := (initialHandshakeReply plainSettings plainOracle
    (plainStart.after plainSettings plainOracle firstRotation) (request usecPerPkt).packet .loopback
    3000000).packet

def handshakeEvents (usecPerPkt : Word) (echoes : Nat) : List ServerEvent :=
  [firstRotation, .datagram (request usecPerPkt) 3000000] ++
    List.replicate echoes (.datagram (echo usecPerPkt) 4000000)

theorem handshake_run (usecPerPkt : Word) (echoes : Nat) :
    Run (ServerStep plainSettings plainOracle) plainStart
      (traceOf (Sessions.after plainSettings plainOracle) plainStart
        (handshakeEvents usecPerPkt echoes))
      ((handshakeEvents usecPerPkt echoes).foldl (Sessions.after plainSettings plainOracle)
        plainStart) := by
  refine Run.of_labels _ _ fun st event member => ?_
  simp only [handshakeEvents, List.cons_append, List.nil_append, List.mem_cons,
    List.mem_replicate] at member
  rcases member with rfl | rfl | ⟨_, rfl⟩
  · exact .maybeRotate
  · exact .datagram
  · exact .datagram

end Gfiber.Isoping
