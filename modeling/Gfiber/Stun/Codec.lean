import Gfiber.Lib.Struct

/-! STUN messages: a header, a transaction id and a list of attributes. -/

set_option autoImplicit false

namespace Gfiber.Stun

open Lib

section Constants

def magicCookie : Nat := 0x2112a442

def attrMask : Nat := 0x07ff

def attrMappedAddress : Nat := 0x0001

def attrXorMappedAddress : Nat := 0x0020

end Constants

section Addresses

inductive Family where
  | ipv4
  | ipv6
deriving DecidableEq, Repr

namespace Family

def number : Family → Nat
  | ipv4 => 0x01
  | ipv6 => 0x02

def size : Family → Nat
  | ipv4 => 4
  | ipv6 => 16

end Family

@[ext] structure Address where
  family : Family
  bytes : List Byte
  sized : bytes.length = family.size
deriving DecidableEq, Repr

inductive Error where
  /-- `ValueError: transactionid %r must be exactly 12 bytes` -/
  | transactionId (id : List Byte)
  /-- `struct.error` -/
  | struct
  /-- `ParseError: packet length %d must be >= 20` -/
  | tooShort (length : Nat)
  /-- `ParseError: cookie %r should be %r` -/
  | cookie (cookie : Nat)
  /-- `ParseError: packet length field: expected %d, got %d` -/
  | lengthField (expected got : Nat)
  /-- `ValueError: invalid family %d: expected 1=IPv4 or 2=IPv6` -/
  | family (family : Nat)
  /-- `ValueError` of `inet_ntop` for an address of another length -/
  | address
deriving DecidableEq, Repr

end Addresses

section Encoding

def pack (fmt : List Field) (values : List Nat) : Except Error (List Byte) :=
  match Struct.pack fmt (values.map fun value : Nat => Value.int value) with
  | some bytes => .ok bytes
  | none => .error .struct

/-- The loop that pads to 32 bits. -/
def align (pkt : List Byte) : List Byte :=
  if pkt.length % 4 ≠ 0 then align (pkt ++ [0]) else pkt
termination_by (4 - pkt.length % 4) % 4
decreasing_by
  rw [List.length_append, List.length_singleton]
  omega

def encodeAttr (attrtype : Nat) (value : List Byte) : Except Error (List Byte) := do
  let header ← pack [.unsigned 2, .unsigned 2] [attrtype, value.length]
  return align (header ++ value)

def encodeAttrs : List (Nat × List Byte) → Except Error (List Byte)
  | [] => .ok []
  | (attrtype, value) :: attrs => do
      let pkt ← encodeAttr attrtype value
      let rest ← encodeAttrs attrs
      return pkt ++ rest

def encode (msgtype : Nat) (transactionId : List Byte) (attrs : List (Nat × List Byte)) :
    Except Error (List Byte) :=
  if transactionId.length ≠ 12 then .error (.transactionId transactionId)
  else do
    let attrtext ← encodeAttrs attrs
    let header ← pack [.unsigned 2, .unsigned 2, .unsigned 4] [msgtype, attrtext.length, magicCookie]
    return header ++ transactionId ++ attrtext

end Encoding

section Decoding

/-- What an attribute is decoded to, with the names that `inet_ntop` gives to addresses. -/
inductive Decoded (Name : Type) where
  | bytes (value : List Byte)
  | address (name : Name) (port : Nat)
deriving DecidableEq, Repr

variable {Name : Type} (inetNtop : Address → Name)

/-- `struct.unpack('!HH', …)` -/
def unpackPair (bytes : List Byte) : Except Error (Nat × Nat) :=
  match Struct.unpack [.unsigned 2, .unsigned 2] bytes with
  | some [.int first, .int second] => .ok (first.toNat, second.toNat)
  | _ => .error .struct

def named (family : Family) (addr : List Byte) : Except Error Name :=
  if sized : addr.length = family.size then .ok (inetNtop ⟨family, addr, sized⟩)
  else .error .address

def decodeAddress (value : List Byte) : Except Error (Name × Nat) := do
  let (family, port) ← unpackPair (value.take 4)
  let addr := value.drop 4
  if family = 0x01 then return (← named inetNtop .ipv4 addr, port)
  else if family = 0x02 then return (← named inetNtop .ipv6 addr, port)
  else throw (.family family)

def xor (s keystr : List Byte) : List Byte :=
  List.zipWith (fun a b => a ^^^ b) s keystr

def unmask (value transactionId : List Byte) : List Byte :=
  let key := bigEndian 4 magicCookie ++ transactionId
  value.take 2 ++ xor ((value.drop 2).take 2) key ++ xor (value.drop 4) key

def decodeAttr (transactionId : List Byte) (attrtype : Nat) (value : List Byte) :
    Except Error (Nat × Decoded Name) := do
  if attrtype &&& attrMask = attrXorMappedAddress &&& attrMask then
    let (name, port) ← decodeAddress inetNtop (unmask value transactionId)
    return (attrMappedAddress, .address name port)
  else if attrtype = attrMappedAddress then
    let (name, port) ← decodeAddress inetNtop value
    return (attrMappedAddress, .address name port)
  else return (attrtype, .bytes value)

def decodeAttrs (transactionId text : List Byte) : Except Error (List (Nat × Decoded Name)) :=
  match text with
  | [] => .ok []
  | first :: others => do
      let (attrtype, length) ← unpackPair ((first :: others).take 4)
      let value := ((first :: others).drop 4).take length
      -- 32-bit alignment
      let length := length + (4 - length % 4) % 4
      let attr ← decodeAttr inetNtop transactionId attrtype value
      let attrs ← decodeAttrs transactionId ((first :: others).drop (4 + length))
      return attr :: attrs
termination_by text.length
decreasing_by
  rw [List.length_drop, List.length_cons]
  omega

def decode (text : List Byte) : Except Error (Nat × List Byte × List (Nat × Decoded Name)) :=
  if text.length < 20 then .error (.tooShort text.length)
  else
    match Struct.unpack [.unsigned 2, .unsigned 2, .unsigned 4] (text.take 8) with
    | some [.int msgtype, .int length, .int cookie] => do
        let transactionId := (text.drop 8).take 12
        let attrtext := text.drop 20
        if cookie ≠ magicCookie then throw (.cookie cookie.toNat)
        if length ≠ attrtext.length then throw (.lengthField attrtext.length length.toNat)
        let attrs ← decodeAttrs inetNtop transactionId attrtext
        return (msgtype.toNat, transactionId, attrs)
    | _ => .error .struct

end Decoding

end Gfiber.Stun
