import Gfiber.Lib.Word

/-! The UDP packet of `isoping.h`. Integer fields hold the words as they lie in
memory, in network byte order, and the union `data` is one array of words, so
that a write to one of its members is seen through the other. -/

set_option autoImplicit false

namespace Gfiber.Isoping
open Lib

def htonl (word : Word) : Word := byteSwap word

def ntohl (word : Word) : Word := byteSwap word

@[simp] theorem ntohl_htonl (word : Word) : ntohl (htonl word) = word := byteSwap_byteSwap word

@[simp] theorem ntohl_zero : ntohl 0#32 = 0#32 := byteSwap_zero

@[simp] theorem ntohl_eq_zero {word : Word} : ntohl word = 0#32 ↔ word = 0#32 := byteSwap_eq_zero

def magicNumber : Word := 0x424c4950

def packetTypeAck : Byte := 0

def packetTypeHandshake : Byte := 1

abbrev AckSlot := Fin 64

/-- An index reduced modulo `ARRAY_LEN(acks)`. -/
abbrev AckSlot.wrap (index : Nat) : AckSlot := Fin.ofNat 64 index

abbrev Cookie := Vector Word 8

abbrev PacketData := Vector Word 128

structure Packet where
  magic : Word := 0
  id : Word := 0
  txtime : Word := 0
  clockdiff : Word := 0
  usecPerPkt : Word := 0
  numLost : Word := 0
  packetType : Byte := 0
  firstAck : Byte := 0
  data : PacketData := Vector.replicate 128 0
  deriving DecidableEq, Repr

/-- `sizeof(Packet)`, two bytes of padding before the union included. -/
def packetSize : Nat := 540

namespace PacketData

def cookieEpoch (data : PacketData) : Word := data[1]

def cookie (data : PacketData) : Cookie := Vector.ofFn fun index => data[index.val + 2]

def setCookieEpoch (data : PacketData) (epoch : Word) : PacketData := data.set 1 epoch

def setCookie (data : PacketData) (cookie : Cookie) : PacketData :=
  Vector.ofFn fun index =>
    if inside : 2 ≤ index.val ∧ index.val < 10 then cookie[index.val - 2] else data[index]

def ackId (data : PacketData) (slot : AckSlot) : Word := data[2 * slot.val]

def ackRxtime (data : PacketData) (slot : AckSlot) : Word := data[2 * slot.val + 1]

def setAck (data : PacketData) (slot : AckSlot) (id rxtime : Word) : PacketData :=
  (data.set (2 * slot.val) id).set (2 * slot.val + 1) rxtime

def cleared : PacketData := Vector.replicate 128 0

@[simp] theorem ackId_cleared (slot : AckSlot) : cleared.ackId slot = 0 := by
  simp [ackId, cleared]

@[simp] theorem cookieEpoch_setCookie (data : PacketData) (cookie : Cookie) :
    (data.setCookie cookie).cookieEpoch = data.cookieEpoch := by
  simp [cookieEpoch, setCookie]

@[simp] theorem cookieEpoch_setCookieEpoch (data : PacketData) (epoch : Word) :
    (data.setCookieEpoch epoch).cookieEpoch = epoch := by
  simp [cookieEpoch, setCookieEpoch]

@[simp] theorem cookie_setCookieEpoch (data : PacketData) (epoch : Word) :
    (data.setCookieEpoch epoch).cookie = data.cookie := by
  simp [cookie, setCookieEpoch]

@[simp] theorem cookie_setCookie (data : PacketData) (cookie : Cookie) :
    (data.setCookie cookie).cookie = cookie := by
  ext index bound
  simp [PacketData.cookie, setCookie, show index + 2 < 10 by omega]

@[simp] theorem ackId_setAck (data : PacketData) (written read : AckSlot) (id rxtime : Word) :
    (data.setAck written id rxtime).ackId read = if read = written then id else data.ackId read := by
  by_cases same : read = written
  · subst same
    simp [ackId, setAck]
  · have apart : written.val ≠ read.val := fun equal => same (Fin.ext equal.symm)
    simp [ackId, setAck, same, show 2 * written.val + 1 ≠ 2 * read.val by omega,
      show ¬ 2 * written.val = 2 * read.val by omega]

@[simp] theorem ackRxtime_setAck (data : PacketData) (written read : AckSlot)
    (id rxtime : Word) :
    (data.setAck written id rxtime).ackRxtime read =
      if read = written then rxtime else data.ackRxtime read := by
  by_cases same : read = written
  · subst same
    simp [ackRxtime, setAck]
  · have apart : written.val ≠ read.val := fun equal => same (Fin.ext equal.symm)
    simp [ackRxtime, setAck, same, apart,
      show ¬ 2 * written.val = 2 * read.val + 1 by omega]

end PacketData

end Gfiber.Isoping
