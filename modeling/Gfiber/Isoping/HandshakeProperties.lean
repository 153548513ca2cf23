import Gfiber.Isoping.Client

/-! What a client's handshake packets carry. The handshake fields and the ring of
acknowledgements share the memory of the send buffer. -/

set_option autoImplicit false

namespace Gfiber.Isoping
open Lib

/-- A client's session with the last handshake packet it received, which the code
does not keep as such. -/
structure Dialog where
  session : Session
  lastHandshake : Option Packet := none

namespace Dialog

def heard (dialog : Dialog) : ClientEvent → Option Packet
  | .transmit _ => dialog.lastHandshake
  | .receive packet _ =>
      if packet.packetType = packetTypeHandshake then some packet else dialog.lastHandshake

def Step (quiet : Bool) (dialog : Dialog) (event : ClientEvent) (next : Dialog) : Prop :=
  ClientStep quiet dialog.session event next.session ∧ next.lastHandshake = dialog.heard event

def sending (dialog : Dialog) : Packet := (prepareTxPacket dialog.session).tx

def AsksBare (dialog : Dialog) : ClientEvent → Prop
  | .transmit _ =>
      dialog.sending.packetType = packetTypeHandshake →
        dialog.session.handshakeState = .newSession ∨
          dialog.session.handshakeState = .handshakeRequested →
        dialog.sending.data.cookieEpoch = 0
  | .receive _ _ => True

def BringsCookie (dialog : Dialog) : ClientEvent → Prop
  | .transmit _ =>
      dialog.sending.packetType = packetTypeHandshake →
        dialog.session.handshakeState = .cookieGenerated →
        ∃ rx, dialog.lastHandshake = some rx ∧
          dialog.sending.data.cookieEpoch = rx.data.cookieEpoch ∧
          dialog.sending.data.cookie = rx.data.cookie
  | .receive _ _ => True

def Greeted (dialog : Dialog) : ClientEvent → Prop
  | .transmit _ => True
  | .receive packet _ =>
      packet.packetType = packetTypeAck →
        dialog.session.handshakeState ≠ .newSession ∧
          dialog.session.handshakeState ≠ .handshakeRequested

def HoldsCookie (dialog : Dialog) : Prop :=
  dialog.session.handshakeState = .cookieGenerated →
    ∃ rx, dialog.lastHandshake = some rx ∧
      dialog.session.tx.data.cookieEpoch = rx.data.cookieEpoch ∧
      dialog.session.tx.data.cookie = rx.data.cookie

def HoldsNone (dialog : Dialog) : Prop :=
  dialog.session.handshakeState = .newSession ∨
      dialog.session.handshakeState = .handshakeRequested →
    dialog.session.tx.data.cookieEpoch = 0

def start (usecPerPrint : Word) (firstSend : Word64) (usecPerPkt : Word) (raddr : Sockaddr) :
    Dialog where
  session := Session.new usecPerPrint firstSend usecPerPkt raddr

end Dialog

section Steps

variable {quiet : Bool} {dialog next : Dialog} {event : ClientEvent}

theorem transmit_handshake (result : SendResult) (s : Session) :
    (transmit false result s).2.tx.data = s.tx.data ∧
      ((transmit false result s).2.handshakeState = s.handshakeState ∨
        s.handshakeState = .newSession ∧
          (transmit false result s).2.handshakeState = .handshakeRequested) := by
  simp only [transmit, sendPacket]
  split
  · exact ⟨rfl, .inl rfl⟩
  · split
    · exact ⟨rfl, .inl rfl⟩
    · refine ⟨rfl, ?_⟩
      simp only [resendHandshake, prepareTxPacket]
      by_cases fresh : s.handshakeState = .newSession
      · exact .inr ⟨fresh, if_pos fresh⟩
      · exact .inl (if_neg fresh)

theorem receiveAck_handshakeState (quiet : Bool) (s : Session) (rx : Packet) (now : Word64) :
    (receiveAck quiet false s rx now).handshakeState =
      if s.handshakeState = .cookieGenerated then .established else s.handshakeState := by
  rw [receiveAck, handshakeState_handleAckPacket]
  by_cases waiting : s.handshakeState = .cookieGenerated
  · simp [acceptConnection, Session.withRx, waiting]
  · simp [acceptConnection, Session.withRx, waiting]

theorem Dialog.HoldsCookie.step (holds : dialog.HoldsCookie)
    (step : Dialog.Step quiet dialog event next) : next.HoldsCookie := by
  obtain ⟨session, last⟩ := next
  obtain ⟨stepped, rfl⟩ := step
  dsimp only at stepped
  intro waiting
  cases stepped with
  | @transmit result running =>
      obtain ⟨data, same | ⟨_, requested⟩⟩ := transmit_handshake result dialog.session
      · rw [same] at waiting
        rw [data]
        exact holds waiting
      · rw [requested] at waiting
        cases waiting
  | @receive packet now =>
      by_cases handshake : packet.packetType = packetTypeHandshake
      · refine ⟨packet, if_pos handshake, ?_, ?_⟩
        · simp [receivePacket, handshake, receiveCookie]
        · simp [receivePacket, handshake, receiveCookie]
      · simp only [Dialog.heard, receivePacket, if_neg handshake] at waiting ⊢
        split at waiting
        · rw [receiveAck_handshakeState] at waiting
          split at waiting
          · cases waiting
          · contradiction
        · rename_i unknown
          rw [if_neg unknown]
          exact holds waiting

theorem Dialog.HoldsNone.step (holds : dialog.HoldsNone)
    (step : Dialog.Step quiet dialog event next) (greeted : dialog.Greeted event) :
    next.HoldsNone := by
  obtain ⟨session, last⟩ := next
  obtain ⟨stepped, rfl⟩ := step
  dsimp only at stepped
  intro waiting
  cases stepped with
  | @transmit result running =>
      obtain ⟨data, same | ⟨fresh, _⟩⟩ := transmit_handshake result dialog.session
      · rw [same] at waiting
        rw [data]
        exact holds waiting
      · rw [data]
        exact holds (.inl fresh)
  | @receive packet now =>
      by_cases handshake : packet.packetType = packetTypeHandshake
      · simp [receivePacket, handshake, receiveCookie] at waiting
      · simp only [receivePacket, if_neg handshake] at waiting ⊢
        split at waiting
        · rename_i ack
          obtain ⟨notNew, notRequested⟩ := greeted ack
          rw [receiveAck_handshakeState] at waiting
          split at waiting
          · simp at waiting
          · exact absurd waiting (by simp [notNew, notRequested])
        · rename_i unknown
          rw [if_neg unknown]
          exact holds waiting

theorem Dialog.HoldsCookie.bringsCookie (holds : dialog.HoldsCookie) (event : ClientEvent) :
    dialog.BringsCookie event := by
  cases event with
  | transmit result => exact fun _ => holds
  | receive => trivial

theorem Dialog.HoldsNone.asksBare (holds : dialog.HoldsNone) (event : ClientEvent) :
    dialog.AsksBare event := by
  cases event with
  | transmit result => exact fun _ => holds
  | receive => trivial

end Steps

/-- In every run of a client, a handshake sent with a cookie brings the last one
received; and while no ack comes before the first handshake reply, every handshake
sent before it has epoch 0. -/
theorem handshake_contents (quiet : Bool) (usecPerPrint : Word) (firstSend : Word64)
    (usecPerPkt : Word) (raddr : Sockaddr) {trace : List (Dialog × ClientEvent)} {finish : Dialog}
    (run : Run (Dialog.Step quiet) (Dialog.start usecPerPrint firstSend usecPerPkt raddr) trace
      finish) :
    StepsMeet Dialog.BringsCookie trace ∧
      (StepsMeet Dialog.Greeted trace → StepsMeet Dialog.AsksBare trace) := by
  refine ⟨?_, fun greeted => ?_⟩
  · have initial : (Dialog.start usecPerPrint firstSend usecPerPkt raddr).HoldsCookie :=
      fun waiting => nomatch waiting
    exact (run.throughout_observed initial fun holds step =>
      ⟨holds.step step, holds.bringsCookie _⟩).2
  · have initial : (Dialog.start usecPerPrint firstSend usecPerPkt raddr).HoldsNone := fun _ => rfl
    have holds := run.throughout initial (fun holds greeted step => holds.step step greeted) greeted
    exact fun entry member => (holds.1 entry member).asksBare entry.2

/-- A client's request is answered, and the cookie goes out with the next packet. -/
def greeting : List ClientEvent :=
  [.transmit .sent,
    .receive { packetType := packetTypeHandshake, usecPerPkt := htonl 100000,
               data := PacketData.cleared.setCookieEpoch 7 } 5000000,
    .transmit .sent]

def earlyAck : List ClientEvent :=
  [.transmit .sent, .receive { packetType := packetTypeAck, id := htonl 9 } 5000000, .transmit .sent]

def Dialog.after (dialog : Dialog) (event : ClientEvent) : Dialog where
  session :=
    match event with
    | .transmit result => (transmit false result dialog.session).2
    | .receive packet now => receivePacket true false dialog.session packet now
  lastHandshake := dialog.heard event

def dialogStart : Dialog := Dialog.start 0 1000000 100000 (.inet (.replicate 2 0) (.replicate 4 0))

theorem dialog_run (events : List ClientEvent)
    (running : ∀ event ∈ events, ∀ result, event = .transmit result → result ≠ .refused) :
    Run (Dialog.Step true) dialogStart (traceOf Dialog.after dialogStart events)
      (events.foldl Dialog.after dialogStart) := by
  refine Run.of_labels _ _ fun dialog event member => ⟨?_, rfl⟩
  cases event with
  | receive packet now => exact .receive
  | transmit result =>
      refine .transmit ?_
      have accepted := running _ member result rfl
      simp only [transmit, sendPacket, accepted, decide_false, Bool.and_false, Bool.false_eq_true,
        if_false]
      split <;> rfl

theorem handshake_contents_greeting :
    StepsMeet Dialog.BringsCookie (traceOf Dialog.after dialogStart greeting) ∧
      StepsMeet Dialog.AsksBare (traceOf Dialog.after dialogStart greeting) := by
  obtain ⟨brings, asks⟩ := handshake_contents true 0 1000000 100000 _
    (dialog_run greeting (by simp [greeting]))
  refine ⟨brings, asks fun entry member => ?_⟩
  simp only [greeting, traceOf, List.mem_cons, List.not_mem_nil, or_false] at member
  rcases member with rfl | rfl | rfl
  · trivial
  · exact fun ack => absurd ack (by decide)
  · trivial

/-- The acknowledgement of the early packet is written over the epoch, and the next
request goes out with the time of its arrival there. -/
theorem handshake_epoch_overwritten :
    Run (Dialog.Step true) dialogStart (traceOf Dialog.after dialogStart earlyAck)
        (earlyAck.foldl Dialog.after dialogStart) ∧
      ¬ (StepsMeet Dialog.BringsCookie (traceOf Dialog.after dialogStart earlyAck) ∧
        StepsMeet Dialog.AsksBare (traceOf Dialog.after dialogStart earlyAck)) := by
  refine ⟨dialog_run earlyAck (by simp [earlyAck]), fun contents => ?_⟩
  have last := contents.2 ((earlyAck.take 2).foldl Dialog.after dialogStart, .transmit .sent)
    (by simp [traceOf, earlyAck])
  have epoch := last (by decide +kernel) (.inr (by decide +kernel))
  exact absurd epoch (by decide +kernel)

end Gfiber.Isoping
