import Gfiber.Lib.CString

/-! How the uploader takes MAC addresses out of a line, in place. A line may
lie anywhere in the memory, and what comes after it stays readable. -/

set_option autoImplicit false

namespace Gfiber.Logupload

open Lib

def soft : List Byte := bytesOf "AEIOUYV"

def hard : List Byte := bytesOf "BCDFGHJKLMNPQRSTVWXYZAEIOU"

/-- `MAC_ADDR_LEN`. -/
def macAddrLen : Nat := 17

/-- Only values up to 4095 are encoded, which stay inside both tables. -/
def trigraph (num : Nat) : List Byte :=
  let c3 := num % hard.length
  let c2 := num / hard.length % soft.length
  let c1 := num / hard.length / soft.length
  [hard.getD c1 0, soft.getD c2 0, hard.getD c3 0]

def hexChrToInt (hex : Byte) : Byte :=
  if between '0' '9' hex then hex - ascii '0'
  else if between 'a' 'f' hex then hex - ascii 'a' + 10
  else if between 'A' 'F' hex then hex - ascii 'A' + 10
  else 0

def getBinaryMac (mac : List Byte) : List Byte :=
  [0, 3, 6, 9, 12, 15].map fun i =>
    hexChrToInt (mac.getD i 0) <<< 4 ||| hexChrToInt (mac.getD (i + 1) 0)

/-- The bytes of the digest that are used. -/
structure Digest where
  first : Byte
  second : Byte
  third : Byte

/-- `HMAC` with MD5 and the consensus key. -/
abbrev Hmac := List Byte → Digest

def getAnonidForMac (hmac : Hmac) (mac : List Byte) : List Byte :=
  let digest := hmac (getBinaryMac mac)
  let num := digest.first.toNat <<< 16 ||| digest.second.toNat <<< 8 ||| digest.third.toNat
  trigraph (num >>> 12 &&& 0x0fff) ++ trigraph (num &&& 0x0fff)

/-- The bytes are moved from six places past the end of the line on. -/
def anonymizeMacAddress (hmac : Hmac) (memory : Memory Byte) (s len : Nat) : Memory Byte × Nat :=
  let anonid := getAnonidForMac hmac (memory.slice s macAddrLen)
  let offset := macAddrLen - 6
  let memory := memory.write s anonid
  (memory.move (s + 6) (s + 6 + offset) (len - offset), offset)

def isMacAddr (memory : Memory Byte) (s : Nat) (sep : Byte) : Bool :=
  memory (s + 2) = sep && memory (s + 5) = sep && memory (s + 8) = sep &&
    memory (s + 11) = sep && memory (s + 14) = sep &&
    isxdigit (memory s) && isxdigit (memory (s + 1)) &&
    isxdigit (memory (s + 3)) && isxdigit (memory (s + 4)) &&
    isxdigit (memory (s + 6)) && isxdigit (memory (s + 7)) &&
    isxdigit (memory (s + 9)) && isxdigit (memory (s + 10)) &&
    isxdigit (memory (s + 12)) && isxdigit (memory (s + 13)) &&
    isxdigit (memory (s + 15)) && isxdigit (memory (s + 16))

/-- The loop, for at most `passes` rounds. -/
def suppressFrom (hmac : Hmac) :
    (passes : Nat) → Memory Byte → (s len newLen : Nat) → Option (Memory Byte × Nat)
  | 0, _, _, _, _ => none
  | passes + 1, memory, s, len, newLen =>
      if macAddrLen ≤ len then
        if isMacAddr memory s (ascii ':') || isMacAddr memory s (ascii '-') ||
            isMacAddr memory s (ascii '_') then
          let (memory, reduce) := anonymizeMacAddress hmac memory s len
          suppressFrom hmac passes memory s (len - reduce) (newLen - reduce)
        else suppressFrom hmac passes memory (s + 1) (len - 1) newLen
      else some (memory, newLen)

/-- The line afterwards and its length. -/
def suppressMacAddresses (hmac : Hmac) (memory : Memory Byte) (line len : Nat) :
    Option (Memory Byte × Nat) :=
  suppressFrom hmac (len + 1) memory line len len

end Gfiber.Logupload
