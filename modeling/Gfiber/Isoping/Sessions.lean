import Gfiber.Lib.Double
import Gfiber.Lib.Queue
import Gfiber.Isoping.Cookies
import Gfiber.Isoping.PacketHandling
import Gfiber.Isoping.SessionMap

/-! `Sessions` and the functions that work on all of it: `NewSession`, the sending
loop and the dispatch of incoming packets. -/

set_option autoImplicit false

namespace Gfiber.Isoping
open Lib

/-- The global flags, and the value `usec_per_print` gets from `prints_per_sec`. -/
structure Settings where
  quiet : Bool
  usecPerPrint : Word
  packetsPerSec : ℚ

def Settings.usecPerPkt (settings : Settings) : Word :=
  BitVec.ofInt 32 ⌊roundDouble (1000000 / settings.packetsPerSec)⌋

structure Sessions where
  sessionMap : SessionMap
  nextSends : List Nat
  cookies : CookieSecrets

def Sessions.new (oracle : Oracle) (prevCookieEpoch : Word) (prevCookieSecret : Secret) :
    Sessions where
  sessionMap := .empty
  nextSends := []
  cookies := .new oracle prevCookieEpoch prevCookieSecret

/-- Why a call does not return: an iterator in `next_sends` whose node has been
erased, a failed assertion, or a loop that takes more passes than it is given. -/
inductive Fault where
  | danglingIterator
  | assertion
  | outOfFuel
  deriving DecidableEq, Repr

namespace Sessions

def newSession (st : Sessions) (session : Session) : Sessions × Nat :=
  let (sessionMap, id) := st.sessionMap.insert session
  ({ st with sessionMap := sessionMap, nextSends := st.nextSends ++ [id] }, id)

/-- `next_sends.top()`. Keeping the queue in order dereferences every iterator in it. -/
def top (st : Sessions) : Except Fault (Option SessionNode) :=
  match st.nextSends.mapM st.sessionMap.lookup with
  | none => .error .danglingIterator
  | some nodes => .ok (least (fun node => node.session.nextSend.toNat) nodes)

def sendPass (isServer : Bool) (now : Word64) (result : SendResult) (st : Sessions)
    (node : SessionNode) : Int × Sessions :=
  let popped := { st with
    nextSends := st.nextSends.erase node.id
    sessionMap := st.sessionMap.modify node.id (fun s => (transmit isServer result s).2)
      (remoteaddr_transmit isServer result) }
  let err := (transmit isServer result node.session).1
  if err ≠ 0 then (err, popped)
  else if isServer && 60 * 1000 * 1000 < diff (now.setWidth 32) node.session.lastRxtime then
    (0, { popped with sessionMap := popped.sessionMap.erase node.session.remoteaddr })
  else (0, { popped with nextSends := popped.nextSends ++ [node.id] })

/-- `send_waiting_packets`; `results` are the outcomes of its socket calls. -/
def sendWaitingPackets (isServer : Bool) (now : Word64) :
    Nat → (Nat → SendResult) → Sessions → Except Fault (Int × Sessions)
  | 0, _, _ => .error .outOfFuel
  | fuel + 1, results, st =>
      match st.top with
      | .error fault => .error fault
      | .ok none => .ok (0, st)
      | .ok (some node) =>
          if diff now node.session.nextSend < 0 then .ok (0, st)
          else
            match sendPass isServer now (results 0) st node with
            | (0, next) => sendWaitingPackets isServer now fuel (fun pass => results (pass + 1)) next
            | (err, next) => .ok (err, next)

end Sessions

structure Reply where
  addr : Sockaddr
  packet : Packet
  deriving DecidableEq, Repr

def prepareHandshakeReplyPacket (settings : Settings) (rx : Packet) (now : Word64) : Packet where
  magic := htonl magicNumber
  id := rx.id
  usecPerPkt := htonl
    (if ntohl rx.usecPerPkt < settings.usecPerPkt then settings.usecPerPkt else ntohl rx.usecPerPkt)
  txtime := now.setWidth 32
  clockdiff := htonl (now.setWidth 32 - ntohl rx.txtime)
  numLost := htonl 0
  packetType := packetTypeHandshake

/-- `send_initial_handshake_reply`. -/
def initialHandshakeReply (settings : Settings) (oracle : Oracle) (st : Sessions) (rx : Packet)
    (addr : Sockaddr) (now : Word64) : Reply where
  addr := addr
  packet := (st.cookies.calculateCookie oracle (prepareHandshakeReplyPacket settings rx now) addr).2

structure Datagram where
  addr : Sockaddr
  size : Nat
  packet : Packet
  deriving DecidableEq, Repr

/-- The code, the state and the packets sent by a call of `read_incoming_packet`. -/
structure Handled where
  code : Int
  sessions : Sessions
  replies : List Reply := []

def einval : Int := 22

def Datagram.wellFormed (datagram : Datagram) : Bool :=
  datagram.size = packetSize && datagram.packet.magic = htonl magicNumber &&
    (datagram.packet.packetType = packetTypeHandshake ||
      datagram.packet.packetType = packetTypeAck)

namespace Sessions

def handleNewClientHandshakePacket (settings : Settings) (oracle : Oracle) (st : Sessions)
    (rx : Packet) (addr : Sockaddr) (now : Word64) : Handled :=
  if rx.data.cookieEpoch = 0 then
    { code := 0
      sessions := { st with sessionMap := st.sessionMap.erase addr }
      replies := [initialHandshakeReply settings oracle st rx addr now] }
  else if !st.cookies.validateCookie oracle rx addr then { code := 0, sessions := st }
  else
    let (opened, id) := st.newSession
      (Session.new settings.usecPerPrint (now + 10 * 1000) (ntohl rx.usecPerPkt) addr)
    { code := 0
      sessions := { opened with
        sessionMap := opened.sessionMap.modify id
          (fun s => receiveCookieEcho settings.quiet s rx now)
          (fun s => remoteaddr_receiveCookieEcho settings.quiet s rx now) } }

/-- `handle_server_handshake_packet`, which runs on the client. -/
def handleServerHandshakePacket (st : Sessions) (rx : Packet) (now : Word64) :
    Except Fault Sessions :=
  match st.sessionMap.nodes, st.nextSends with
  | [node], [_] =>
      .ok { st with
        nextSends := [node.id]
        sessionMap := st.sessionMap.modify node.id (fun s => receiveCookie s rx now)
          (fun _ => rfl) }
  | _, _ => .error .assertion

/-- `read_incoming_packet` in server mode, with `handle_packet`. -/
def readAsServer (settings : Settings) (oracle : Oracle) (st : Sessions) (datagram : Datagram)
    (now : Word64) : Handled :=
  let rx := datagram.packet
  if !datagram.wellFormed then { code := einval, sessions := st }
  else if rx.packetType = packetTypeHandshake then
    st.handleNewClientHandshakePacket settings oracle rx datagram.addr now
  else
    match st.sessionMap.find datagram.addr with
    | none =>
        { code := -1
          sessions := st
          replies := [initialHandshakeReply settings oracle st rx datagram.addr now] }
    | some node =>
        { code := 0
          sessions := { st with
            sessionMap := st.sessionMap.modify node.id
              (fun s => receiveAck settings.quiet true s rx now)
              (fun s => remoteaddr_receiveAck settings.quiet true s rx now) } }

/-- `read_incoming_packet` in client mode, with `handle_packet`. -/
def readAsClient (settings : Settings) (st : Sessions) (datagram : Datagram) (now : Word64) :
    Except Fault (Int × Sessions) :=
  let rx := datagram.packet
  if !datagram.wellFormed then .ok (einval, st)
  else
    match st.sessionMap.nodes.head? with
    | none => .ok (einval, st)
    | some node =>
        if rx.packetType = packetTypeHandshake then
          (st.handleServerHandshakePacket rx now).map fun next => (0, next)
        else
          .ok (0, { st with
            sessionMap := st.sessionMap.modify node.id
              (fun s => receiveAck settings.quiet false s rx now)
              (fun s => remoteaddr_receiveAck settings.quiet false s rx now) })

end Sessions

end Gfiber.Isoping
