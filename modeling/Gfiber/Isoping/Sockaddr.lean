import Gfiber.Lib.Word

/-! Socket addresses and the comparator of the session map. -/

set_option autoImplicit false

namespace Gfiber.Isoping
open Lib

/-- `sockaddr_in` and `sockaddr_in6` inside a `sockaddr_storage`, field by field
as the bytes lie in memory. -/
inductive Sockaddr where
  | inet (port : Vector Byte 2) (addr : Vector Byte 4)
  | inet6 (port : Vector Byte 2) (flowinfo : Vector Byte 4) (addr : Vector Byte 16)
      (scopeId : Vector Byte 4)
  deriving DecidableEq, Repr

namespace Sockaddr

/-- `ss_family`: `AF_INET` is 2 and `AF_INET6` is 10. -/
def family : Sockaddr → Nat
  | .inet _ _ => 2
  | .inet6 _ _ _ _ => 10

/-- The bytes handed to the digest: `sizeof(sockaddr_in)` or `sizeof(sockaddr_in6)` of them. -/
def bytes : Sockaddr → List Byte
  | .inet port addr => [2, 0] ++ port.toList ++ addr.toList ++ List.replicate 8 0
  | .inet6 port flowinfo addr scopeId =>
      [10, 0] ++ port.toList ++ flowinfo.toList ++ addr.toList ++ scopeId.toList

/-- Port 8080 of `::1`. -/
def loopback : Sockaddr :=
  .inet6 #v[0x1f, 0x90] (.replicate 4 0) (.ofFn fun index => if index = 15 then 1 else 0)
    (.replicate 4 0)

theorem bytes_injective : Function.Injective bytes := by
  intro left right same
  cases left with
  | inet port addr =>
      cases right with
      | inet port' addr' =>
          simp only [bytes, List.append_assoc, List.append_cancel_left_eq] at same
          obtain ⟨ports, rest⟩ := List.append_inj same (by simp)
          obtain ⟨addrs, _⟩ := List.append_inj rest (by simp)
          rw [Vector.toList_inj.mp ports, Vector.toList_inj.mp addrs]
      | inet6 port' flowinfo' addr' scopeId' => simp [bytes] at same
  | inet6 port flowinfo addr scopeId =>
      cases right with
      | inet port' addr' => simp [bytes] at same
      | inet6 port' flowinfo' addr' scopeId' =>
          simp only [bytes, List.append_assoc, List.append_cancel_left_eq] at same
          obtain ⟨ports, rest⟩ := List.append_inj same (by simp)
          obtain ⟨flows, rest⟩ := List.append_inj rest (by simp)
          obtain ⟨addrs, scopes⟩ := List.append_inj rest (by simp)
          rw [Vector.toList_inj.mp ports, Vector.toList_inj.mp flows, Vector.toList_inj.mp addrs,
            Vector.toList_inj.mp scopes]

end Sockaddr

def networkValue {width : Nat} (bytes : Vector Byte width) : Nat :=
  bytes.toList.foldl (fun value byte => value * 256 + byte.toNat) 0

def memcmpLess : List Byte → List Byte → Bool
  | left :: lefts, right :: rights =>
      if left = right then memcmpLess lefts rights else left.toNat < right.toNat
  | _, _ => false

/-- `CompareSockaddr::operator()`. For two IPv4 addresses the subtraction is made
on 32-bit unsigned values before it is widened, so `c` is never negative. -/
def compareSockaddr : Sockaddr → Sockaddr → Bool
  | .inet port addr, .inet port' addr' =>
      let c : Int := (BitVec.ofNat 32 (networkValue addr) - BitVec.ofNat 32 (networkValue addr')).toNat
      if c = 0 then networkValue port < networkValue port' else c < 0
  | .inet6 port _ addr _, .inet6 port' _ addr' _ =>
      if addr = addr' then networkValue port < networkValue port'
      else memcmpLess addr.toList addr'.toList
  | left, right => left.family < right.family

def sameKey (left right : Sockaddr) : Bool :=
  !compareSockaddr left right && !compareSockaddr right left

@[simp] theorem sameKey_self (addr : Sockaddr) : sameKey addr addr = true := by
  cases addr <;> simp [sameKey, compareSockaddr]

theorem sameKey_comm (left right : Sockaddr) : sameKey left right = sameKey right left :=
  Bool.and_comm _ _

end Gfiber.Isoping
