import Gfiber.Isoping.AckHandling

/-! The part of the packet handlers that works on one session: the ack branch of
`handle_packet`, the tail of `handle_new_client_handshake_packet` and the body of
`handle_server_handshake_packet`. -/

set_option autoImplicit false

namespace Gfiber.Isoping
open Lib

def Session.withRx (s : Session) (rx : Packet) : Session := { s with rx := rx }

/-- A client that waits for the server's first ack takes it as acceptance and
empties its send buffer. -/
def acceptConnection (isServer : Bool) (s : Session) : Session :=
  if !isServer && s.handshakeState = .cookieGenerated then
    { s with
      handshakeState := .established
      tx := { s.tx with data := PacketData.cleared } }
  else s

/-- `handle_packet` on a packet of type `PACKET_TYPE_ACK`. -/
def receiveAck (quiet isServer : Bool) (s : Session) (rx : Packet) (now : Word64) : Session :=
  handleAckPacket quiet (acceptConnection isServer (s.withRx rx)) now

def Packet.withoutHandshake (rx : Packet) : Packet :=
  { rx with packetType := packetTypeAck, data := PacketData.cleared }

/-- The session as `handle_new_client_handshake_packet` hands it to `handle_ack_packet`. -/
def Session.established (s : Session) (rx : Packet) : Session :=
  { s with handshakeState := .established, rx := rx.withoutHandshake }

/-- `handle_new_client_handshake_packet` on the session found or made for a client
whose cookie is valid. -/
def receiveCookieEcho (quiet : Bool) (s : Session) (rx : Packet) (now : Word64) : Session :=
  handleAckPacket quiet (s.established rx) now

/-- `handle_server_handshake_packet` on the client's only session. -/
def receiveCookie (s : Session) (rx : Packet) (now : Word64) : Session :=
  { s with
    nextTxId := 1
    nextRxId := 0
    tx := { s.tx with
      packetType := packetTypeHandshake
      data := (s.tx.data.setCookieEpoch rx.data.cookieEpoch).setCookie rx.data.cookie }
    usecPerPkt := ntohl rx.usecPerPkt
    handshakeState := .cookieGenerated
    nextSend := now }

/-- `handle_packet` as far as it concerns the session of the sender, whose cookie
is valid if the packet carries one to the server. -/
def receivePacket (quiet isServer : Bool) (s : Session) (rx : Packet) (now : Word64) : Session :=
  if rx.packetType = packetTypeHandshake then
    if isServer then receiveCookieEcho quiet s rx now else receiveCookie s rx now
  else if rx.packetType = packetTypeAck then receiveAck quiet isServer s rx now
  else s

@[simp] theorem remoteaddr_receiveAck (quiet isServer : Bool) (s : Session) (rx : Packet)
    (now : Word64) : (receiveAck quiet isServer s rx now).remoteaddr = s.remoteaddr := by
  simp only [receiveAck, acceptConnection, remoteaddr_handleAckPacket]
  split <;> rfl

@[simp] theorem usecPerPkt_receiveAck (quiet isServer : Bool) (s : Session) (rx : Packet)
    (now : Word64) : (receiveAck quiet isServer s rx now).usecPerPkt = s.usecPerPkt := by
  simp only [receiveAck, acceptConnection, usecPerPkt_handleAckPacket]
  split <;> rfl

@[simp] theorem remoteaddr_receiveCookieEcho (quiet : Bool) (s : Session) (rx : Packet)
    (now : Word64) : (receiveCookieEcho quiet s rx now).remoteaddr = s.remoteaddr := by
  simp [receiveCookieEcho, Session.established]

@[simp] theorem usecPerPkt_receiveCookieEcho (quiet : Bool) (s : Session) (rx : Packet)
    (now : Word64) : (receiveCookieEcho quiet s rx now).usecPerPkt = s.usecPerPkt := by
  simp [receiveCookieEcho, Session.established]

end Gfiber.Isoping
