import Gfiber.Isoping.Packet
import Gfiber.Isoping.Sockaddr

/-! The handshake cookies of `Sessions`: the two secrets, the digest that makes a
cookie and the check of one that comes back. -/

set_option autoImplicit false

namespace Gfiber.Isoping
open Lib

/-- `COOKIE_SECRET_SIZE` bytes. -/
abbrev Secret := Vector Byte 16

/-- What lies outside the program: the digest function of the library and the
secrets its random generator yields, in the order they are drawn. -/
structure Oracle where
  sha256 : List Byte → Cookie
  draw : Nat → Secret

/-- The cookie members of `Sessions`; `drawn` counts the calls of
`NewRandomCookieSecret`. -/
structure CookieSecrets where
  cookieEpoch : Word
  cookieSecret : Secret
  prevCookieEpoch : Word
  prevCookieSecret : Secret
  lastSecretUpdateTime : Word
  drawn : Nat
  deriving DecidableEq, Repr

/-- The constructor of `Sessions`, which leaves the previous epoch and secret as
they are in memory. -/
def CookieSecrets.new (oracle : Oracle) (prevCookieEpoch : Word) (prevCookieSecret : Secret) :
    CookieSecrets where
  cookieEpoch := 0
  cookieSecret := oracle.draw 0
  prevCookieEpoch := prevCookieEpoch
  prevCookieSecret := prevCookieSecret
  lastSecretUpdateTime := 0
  drawn := 1

def cookieMessage (secret : Secret) (usecPerPkt : Word) (addr : Sockaddr) : List Byte :=
  secret.toList ++ littleEndian usecPerPkt ++ addr.bytes

namespace CookieSecrets

/-- `CalculateCookieWithSecret`; the packet is unchanged when it is no handshake. -/
def calculateCookieWithSecret (oracle : Oracle) (cookies : CookieSecrets) (p : Packet)
    (addr : Sockaddr) (secret : Secret) : Bool × Packet :=
  if p.packetType ≠ packetTypeHandshake then (false, p)
  else
    (true, { p with
      data := (p.data.setCookie (oracle.sha256 (cookieMessage secret p.usecPerPkt addr))).setCookieEpoch
        cookies.cookieEpoch })

def calculateCookie (oracle : Oracle) (cookies : CookieSecrets) (p : Packet) (addr : Sockaddr) :
    Bool × Packet :=
  cookies.calculateCookieWithSecret oracle p addr cookies.cookieSecret

def secretFor (cookies : CookieSecrets) (epoch : Word) : Secret :=
  if epoch = cookies.prevCookieEpoch then cookies.prevCookieSecret else cookies.cookieSecret

def golden (oracle : Oracle) (cookies : CookieSecrets) (p : Packet) (addr : Sockaddr) : Packet :=
  (cookies.calculateCookieWithSecret oracle
    { packetType := packetTypeHandshake, usecPerPkt := p.usecPerPkt } addr
    (cookies.secretFor p.data.cookieEpoch)).2

def validateCookie (oracle : Oracle) (cookies : CookieSecrets) (p : Packet) (addr : Sockaddr) :
    Bool :=
  if p.data.cookieEpoch ≠ cookies.cookieEpoch && p.data.cookieEpoch ≠ cookies.prevCookieEpoch then
    false
  else (cookies.golden oracle p addr).data.cookie = p.data.cookie

def rotateCookieSecrets (oracle : Oracle) (cookies : CookieSecrets) (newEpoch : Word) :
    CookieSecrets :=
  { cookies with
    prevCookieEpoch := cookies.cookieEpoch
    prevCookieSecret := cookies.cookieSecret
    cookieEpoch := newEpoch
    cookieSecret := oracle.draw cookies.drawn
    drawn := cookies.drawn + 1 }

def maybeRotateCookieSecrets (oracle : Oracle) (cookies : CookieSecrets) (now : Word64)
    (time : Word64) (isServer : Bool) : CookieSecrets :=
  if isServer && 1000000 < (now - cookies.lastSecretUpdateTime.setWidth 64).toNat then
    let newEpoch := (time.sshiftRight 6).setWidth 32
    let rotated :=
      if newEpoch ≠ cookies.cookieEpoch then cookies.rotateCookieSecrets oracle newEpoch else cookies
    { rotated with lastSecretUpdateTime := now.setWidth 32 }
  else cookies

@[simp] theorem cookie_golden (oracle : Oracle) (cookies : CookieSecrets) (p : Packet)
    (addr : Sockaddr) :
    (cookies.golden oracle p addr).data.cookie =
      oracle.sha256 (cookieMessage (cookies.secretFor p.data.cookieEpoch) p.usecPerPkt addr) := by
  simp [golden, calculateCookieWithSecret]

theorem validateCookie_iff (oracle : Oracle) (cookies : CookieSecrets) (p : Packet)
    (addr : Sockaddr) :
    cookies.validateCookie oracle p addr = true ↔
      (p.data.cookieEpoch = cookies.cookieEpoch ∨ p.data.cookieEpoch = cookies.prevCookieEpoch) ∧
        oracle.sha256 (cookieMessage (cookies.secretFor p.data.cookieEpoch) p.usecPerPkt addr) =
          p.data.cookie := by
  simp only [validateCookie, cookie_golden]
  split
  · rename_i obsolete
    simp only [Bool.and_eq_true, decide_eq_true_eq] at obsolete
    simp [obsolete]
  · rename_i recognised
    have known : p.data.cookieEpoch = cookies.cookieEpoch ∨
        p.data.cookieEpoch = cookies.prevCookieEpoch := by
      by_contra neither
      exact recognised (by simpa [not_or] using neither)
    simp [known]

end CookieSecrets

theorem cookieMessage_injective {secret secret' : Secret} {usecPerPkt usecPerPkt' : Word}
    {addr addr' : Sockaddr}
    (same : cookieMessage secret usecPerPkt addr = cookieMessage secret' usecPerPkt' addr') :
    secret = secret' ∧ usecPerPkt = usecPerPkt' ∧ addr = addr' := by
  simp only [cookieMessage, List.append_assoc] at same
  obtain ⟨secrets, rest⟩ := List.append_inj same (by simp)
  obtain ⟨rates, addrs⟩ := List.append_inj rest (by simp)
  exact ⟨Vector.toList_inj.mp secrets, littleEndian_injective rates, Sockaddr.bytes_injective addrs⟩

end Gfiber.Isoping
