import Gfiber.Isoping.History

/-! What a valid cookie proves: which digest it is, and, over runs of a server, the
reply it was taken from. -/

set_option autoImplicit false

namespace Gfiber.Isoping
open Lib

namespace CookieSecrets

def rotated (oracle : Oracle) (cookies : CookieSecrets) (epochs : List Word) : CookieSecrets :=
  epochs.foldl (rotateCookieSecrets oracle) cookies

theorem rotated_nil (oracle : Oracle) (cookies : CookieSecrets) :
    cookies.rotated oracle [] = cookies := rfl

theorem rotated_snoc (oracle : Oracle) (cookies : CookieSecrets) (epochs : List Word)
    (last : Word) :
    cookies.rotated oracle (epochs ++ [last]) =
      (cookies.rotated oracle epochs).rotateCookieSecrets oracle last := by
  simp [rotated]

/-- The packet carries the epoch and the cookie that `CalculateCookie` puts into a
handshake of the same rate to the same address. -/
def Produces (oracle : Oracle) (cookies : CookieSecrets) (p : Packet) (addr : Sockaddr) : Prop :=
  let made := (cookies.calculateCookie oracle { p with packetType := packetTypeHandshake } addr).2
  p.data.cookieEpoch = made.data.cookieEpoch ∧ p.data.cookie = made.data.cookie

theorem produces_iff (oracle : Oracle) (cookies : CookieSecrets) (p : Packet) (addr : Sockaddr) :
    cookies.Produces oracle p addr ↔ p.data.cookieEpoch = cookies.cookieEpoch ∧
      p.data.cookie = oracle.sha256 (cookieMessage cookies.cookieSecret p.usecPerPkt addr) := by
  simp [Produces, calculateCookie, calculateCookieWithSecret]

theorem cookieEpoch_rotated (oracle : Oracle) (cookies : CookieSecrets) (epochs : List Word) :
    (cookies.rotated oracle epochs).cookieEpoch ∈ cookies.cookieEpoch :: epochs := by
  induction epochs using List.reverseRecOn with
  | nil => simp [rotated_nil]
  | append_singleton epochs last _ =>
      rw [rotated_snoc]
      simp [rotateCookieSecrets]

theorem secretFor_rotate (oracle : Oracle) (cookies : CookieSecrets) (newEpoch epoch : Word) :
    (cookies.rotateCookieSecrets oracle newEpoch).secretFor epoch =
      if epoch = cookies.cookieEpoch then cookies.cookieSecret else oracle.draw cookies.drawn := rfl

theorem validateCookie_rotate (oracle : Oracle) (cookies : CookieSecrets) {newEpoch : Word}
    (changed : newEpoch ≠ cookies.cookieEpoch) (p : Packet) (addr : Sockaddr) :
    (cookies.rotateCookieSecrets oracle newEpoch).validateCookie oracle p addr = true ↔
      (cookies.rotateCookieSecrets oracle newEpoch).Produces oracle p addr ∨
        cookies.Produces oracle p addr := by
  rw [validateCookie_iff, produces_iff, produces_iff, secretFor_rotate]
  simp only [rotateCookieSecrets]
  by_cases previous : p.data.cookieEpoch = cookies.cookieEpoch
  · rw [if_pos previous]
    constructor
    · rintro ⟨_, same⟩
      exact .inr ⟨previous, same.symm⟩
    · rintro (⟨current, _⟩ | ⟨_, same⟩)
      · exact absurd (current.symm.trans previous) changed
      · exact ⟨.inr previous, same.symm⟩
  · rw [if_neg previous]
    constructor
    · rintro ⟨recognised, same⟩
      exact .inl ⟨recognised.resolve_right previous, same.symm⟩
    · rintro (⟨current, same⟩ | ⟨other, _⟩)
      · exact ⟨.inl current, same.symm⟩
      · exact absurd other previous

/-- Over all histories of rotations to new epochs, a cookie is accepted exactly when
the current or the preceding secrets produce it. -/
theorem validateCookie_rotated (oracle : Oracle) (cookies : CookieSecrets) {epochs : List Word}
    (rotations : epochs ≠ []) (distinct : (cookies.cookieEpoch :: epochs).Nodup) (p : Packet)
    (addr : Sockaddr) :
    (cookies.rotated oracle epochs).validateCookie oracle p addr = true ↔
      (cookies.rotated oracle epochs).Produces oracle p addr ∨
        (cookies.rotated oracle epochs.dropLast).Produces oracle p addr := by
  obtain ⟨earlier, last, split⟩ := List.eq_nil_or_concat epochs |>.resolve_left rotations
  rw [List.concat_eq_append] at split
  subst split
  rw [List.dropLast_concat, rotated_snoc]
  apply validateCookie_rotate
  intro same
  rw [← List.cons_append] at distinct
  have used := cookieEpoch_rotated oracle cookies earlier
  rw [← same] at used
  exact (List.nodup_append.mp distinct).2.2 last used last (by simp) rfl

end CookieSecrets

/-- After any history of rotations to new epochs, a cookie is accepted exactly when
`CalculateCookie` made it for the same rate and address in the current or the
preceding epoch, which the packet carries. So, with no collisions of the digest
among the messages hashed, no secret drawn twice and no cookie made by anyone else,
every session of a server goes back to a reply sent to its address for its rate, at
most one rotation before it was opened. -/
theorem cookies_sound (oracle : Oracle) (prevCookieEpoch : Word) (prevCookieSecret : Secret) :
    (∀ {epochs : List Word}, epochs ≠ [] → 0 ∉ epochs → epochs.Nodup →
      ∀ (p : Packet) (addr : Sockaddr),
        let cookies := CookieSecrets.new oracle prevCookieEpoch prevCookieSecret
        (cookies.rotated oracle epochs).validateCookie oracle p addr = true ↔
          (cookies.rotated oracle epochs).Produces oracle p addr ∨
            (cookies.rotated oracle epochs.dropLast).Produces oracle p addr) ∧
    ∀ {settings : Settings} {trace : List (Server × ServerEvent)} {finish : Server},
      Run (Server.Step settings oracle) (Server.start oracle prevCookieEpoch prevCookieSecret) trace
        finish →
      StepsMeet (Server.Unforged oracle) trace → finish.Ideal oracle →
        Throughout Server.Traceable trace finish := by
  refine ⟨fun rotations nonzero distinct p addr => ?_, fun run unforged ideal => ?_⟩
  · exact CookieSecrets.validateCookie_rotated oracle _ rotations
      (List.nodup_cons.mpr ⟨nonzero, distinct⟩) p addr
  · have traceable := Server.traceable_throughout _ _ run unforged
    have ideals := ideal.throughout run
    exact ⟨fun entry member => (traceable.1 entry member).2 (ideals.1 entry member),
      traceable.2.2 ideals.2⟩

theorem cookies_sound_session :
    ((CookieSecrets.new plainOracle 0 (.replicate 16 0)).rotated plainOracle
        [100, 101]).validateCookie plainOracle (echo 100000).packet .loopback = true ∧
      Throughout Server.Traceable (plainTrace 100000) (plainFinish 100000) ∧
      (plainFinish 100000).sessions.sessionMap.nodes.length = 1 := by
  obtain ⟨accepted, traceable⟩ := cookies_sound plainOracle 0 (.replicate 16 0)
  refine ⟨?_, traceable (plain_run 100000) (plain_unforged ?_) ⟨?_, ?_⟩, ?_⟩
  · refine (accepted (by decide) (by decide) (by decide) _ _).mpr (.inr ?_)
    rw [CookieSecrets.produces_iff]
    decide +kernel
  · decide +kernel
  · decide +kernel
  · decide +kernel
  · decide +kernel

end Gfiber.Isoping
