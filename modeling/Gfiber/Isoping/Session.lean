import Gfiber.Isoping.Packet
import Gfiber.Isoping.Sockaddr

/-! The per-peer state of `isoping.h` and its transmitting side: the constructor,
`prepare_tx_packet` and `send_packet`. -/

set_option autoImplicit false

namespace Gfiber.Isoping
open Lib

inductive HandshakeState where
  | newSession
  | handshakeRequested
  | cookieGenerated
  | established
  deriving DecidableEq, Repr

/-- The six statistics the source keeps for each direction, such as `lat_tx`,
`lat_tx_min`, `lat_tx_max`, `lat_tx_count`, `lat_tx_sum` and `lat_tx_var_sum`. -/
structure LatencyStats where
  latest : Int := 0
  min : Int := 0x7fffffff
  max : Int := 0
  count : Int := 0
  sum : Int := 0
  varSum : Int := 0
  deriving DecidableEq, Repr

def LatencyStats.record (stats : LatencyStats) (latency : Int) : LatencyStats where
  latest := latency
  min := if stats.min > latency then latency else stats.min
  max := if stats.max < latency then latency else stats.max
  count := stats.count + 1
  sum := stats.sum + latency
  varSum := stats.varSum + latency * latency

/-- `struct Session`. Signed 32-bit members are words read with `BitVec.toInt`; the
`long long` statistics are integers. `lastAckinfo` keeps the delay that the text
buffer renders, and is empty when the buffer is. -/
structure Session where
  usecPerPkt : Word
  usecPerPrint : Word
  remoteaddr : Sockaddr
  handshakeState : HandshakeState := .newSession
  handshakeRetryCount : Nat := 0
  nextTxId : Word := 1
  nextRxId : Word := 0
  nextRxackId : Word := 0
  startRtxtime : Word := 0
  startRxtime : Word64 := 0
  lastRxtime : Word := 0
  minCycleRxdiff : Word := 0
  nextCycle : Word := 0
  nextSend : Word64
  numLost : Word := 0
  nextTxackIndex : AckSlot := AckSlot.wrap 0
  tx : Packet := {}
  rx : Packet := {}
  lastAckinfo : Option Word := none
  lastPrint : Word
  latTx : LatencyStats := {}
  latRx : LatencyStats := {}
  deriving DecidableEq, Repr

/-- `Session::Session`; `usecPerPrint` is the value the constructor derives from
`prints_per_sec`. -/
def Session.new (usecPerPrint : Word) (firstSend : Word64) (usecPerPkt : Word)
    (raddr : Sockaddr) : Session where
  usecPerPkt := usecPerPkt
  usecPerPrint := usecPerPrint
  remoteaddr := raddr
  nextSend := firstSend
  lastPrint := firstSend.setWidth 32 - usecPerPkt

def handshakeTimeoutUsec : Nat := 1000000

def prepareTxPacket (s : Session) : Session :=
  { s with
    nextTxId := s.nextTxId + 1
    tx := { s.tx with
      magic := htonl magicNumber
      id := htonl s.nextTxId
      usecPerPkt := htonl s.usecPerPkt
      txtime := htonl (s.nextSend.setWidth 32)
      clockdiff :=
        if s.startRtxtime = 0 then 0 else htonl (s.startRxtime.setWidth 32 - s.startRtxtime)
      numLost := htonl s.numLost
      firstAck := BitVec.ofNat 8 s.nextTxackIndex.val
      packetType :=
        match s.handshakeState with
        | .newSession | .handshakeRequested | .cookieGenerated => packetTypeHandshake
        | .established => packetTypeAck } }

/-- What the socket call of `send_packet` reports. -/
inductive SendResult where
  | sent
  | failed
  | refused
  deriving DecidableEq, Repr

def handshakeTimeout (retries : Nat) : Nat :=
  handshakeTimeoutUsec * 2 ^ min 10 retries

/-- The branch of `send_packet` that resends the handshake; the packet is taken
back out of the sequence. -/
def resendHandshake (s : Session) : Session :=
  let retries := if s.handshakeState = .newSession then 0 else s.handshakeRetryCount + 1
  { s with
    handshakeState :=
      if s.handshakeState = .newSession then .handshakeRequested else s.handshakeState
    handshakeRetryCount := retries
    nextSend := s.nextSend + BitVec.ofNat 64 (handshakeTimeout retries)
    nextTxId := s.nextTxId - 1 }

/-- `send_packet`: the return code and the session afterwards. -/
def sendPacket (isServer : Bool) (result : SendResult) (s : Session) : Int × Session :=
  if !isServer && result = .refused then (2, s)
  else if isServer || s.handshakeState = .established || s.handshakeState = .cookieGenerated then
    (0, { s with nextSend := s.nextSend + s.usecPerPkt.signExtend 64 })
  else (0, resendHandshake s)

/-- One pass of the sending loop on its session: the packet handed to the socket
is `tx` of the prepared session. -/
def transmit (isServer : Bool) (result : SendResult) (s : Session) : Int × Session :=
  sendPacket isServer result (prepareTxPacket s)

@[simp] theorem remoteaddr_transmit (isServer : Bool) (result : SendResult) (s : Session) :
    (transmit isServer result s).2.remoteaddr = s.remoteaddr := by
  simp only [transmit, sendPacket]
  split
  · rfl
  · split <;> rfl

@[simp] theorem usecPerPkt_transmit (isServer : Bool) (result : SendResult) (s : Session) :
    (transmit isServer result s).2.usecPerPkt = s.usecPerPkt := by
  simp only [transmit, sendPacket]
  split
  · rfl
  · split <;> rfl

theorem transmit_server (result : SendResult) (s : Session) :
    transmit true result s = (0, { prepareTxPacket s with
      nextSend := s.nextSend + s.usecPerPkt.signExtend 64 }) := by
  simp [transmit, sendPacket, prepareTxPacket]

end Gfiber.Isoping
