import Gfiber.Stun.DecodeProperties

/-! When a lookup raises nothing else than the errors that it documents. -/

set_option autoImplicit false

namespace Gfiber.Stun

open Lib

section Runs

variable {Server Name : Type} [DecidableEq Server] [DecidableEq Name] (inetNtop : Address → Name)
  (query : Query Server) (pkt : List Byte)

/-- The replies that the loop decodes. -/
def State.decoded (state : State Server Name) : List (Pass Server) → List (List Byte)
  | [] => []
  | pass :: passes =>
      if state.now < query.endTime then
        let state := state.request query pkt
        match pass.datagram with
        | none =>
            if state.waiting.card ≤ query.addrs.length / 3 then []
            else { state with now := pass.now }.decoded passes
        | some (raddr, datagram) =>
            if raddr ∉ state.waiting then { state with now := pass.now }.decoded passes
            else
              let rpkt := datagram.take maxDatagram
              match state.reply inetNtop query raddr rpkt with
              | .error _ => [rpkt]
              | .ok state => rpkt :: { state with now := pass.now }.decoded passes
      else []

/-- Whether a lookup raises nothing else than what its docstring lists. -/
def Outcome.Documented : Outcome Server Name → Prop
  | .running _ => True
  | .returned _ => True
  | .raised error => error.isDocumented = true

omit [DecidableEq Server] in
theorem State.finish_documented (state : State Server Name) : state.finish.Documented := by
  rw [State.finish]
  split
  case isTrue => rfl
  case isFalse => trivial

/-- A reply is read when it can be decoded, and raises what the decoding raises otherwise. -/
theorem State.reply_cases (state : State Server Name) (raddr : Server) (rpkt : List Byte) :
    (Decodable rpkt ∧ ∃ next, state.reply inetNtop query raddr rpkt = .ok next) ∨
      ∃ error, state.reply inetNtop query raddr rpkt = .error error ∧
        (error.isParseError = true ↔ Decodable rpkt) := by
  have parse := isParseError_iff inetNtop rpkt
  rw [State.reply]
  cases result : decode inetNtop rpkt with
  | error error =>
      rw [result] at parse
      refine .inr ⟨error, rfl, ?_⟩
      rw [← parse]
      exact ⟨fun documented other same => by cases same; exact documented,
        fun all => all error rfl⟩
  | ok message =>
      rw [result] at parse
      refine .inl ⟨parse.mp fun error raised => (by cases raised), ?_⟩
      rw [ok_bind]
      split
      split
      case isTrue => exact ⟨_, rfl⟩
      case isFalse =>
        split
        case isTrue => exact ⟨_, rfl⟩
        case isFalse => exact ⟨_, rfl⟩

theorem State.loop_documented_iff (state : State Server Name) (passes : List (Pass Server)) :
    (state.loop inetNtop query pkt passes).Documented ↔
      ∀ rpkt ∈ state.decoded inetNtop query pkt passes, Decodable rpkt := by
  induction passes generalizing state with
  | nil =>
      rw [State.loop, State.decoded]
      split
      case isTrue => exact iff_of_true trivial (by simp)
      case isFalse => exact iff_of_true state.finish_documented (by simp)
  | cons pass passes ih =>
      rw [State.loop, State.decoded]
      by_cases early : state.now < query.endTime
      · simp only [if_pos early]
        cases pass.datagram with
        | none =>
            dsimp only
            split
            case isTrue => exact iff_of_true (State.finish_documented _) (by simp)
            case isFalse => exact ih _
        | some arrival =>
            dsimp only
            by_cases strange : arrival.1 ∉ (state.request query pkt).waiting
            · rw [if_pos strange, if_pos strange]
              exact ih _
            · rw [if_neg strange, if_neg strange]
              rcases State.reply_cases inetNtop query (state.request query pkt) arrival.1
                (arrival.2.take maxDatagram) with ⟨decodable, next, replied⟩ | ⟨error, raised, parse⟩
              · rw [replied]
                simp only [List.forall_mem_cons, decodable, true_and]
                exact ih _
              · rw [raised]
                simp only [List.forall_mem_singleton]
                exact parse
      · simp only [if_neg early]
        exact iff_of_true state.finish_documented (by simp)

end Runs

section Lookups

variable {Server Name : Type} [DecidableEq Server] [DecidableEq Name] (inetNtop : Address → Name)

/-- The replies that a lookup decodes. -/
def decodedReplies (query : Query Server) (now : ℚ) (passes : List (Pass Server)) :
    List (List Byte) :=
  match encode bindRequest query.transactionId [] with
  | .error _ => []
  | .ok pkt => (State.start query now : State Server Name).decoded inetNtop query pkt passes

/-- The request of a lookup is always encoded. -/
theorem encode_bindRequest (transactionId : TransactionId) :
    ∃ pkt, encode bindRequest transactionId [] = .ok pkt := by
  have range : Struct.InRange [.unsigned 2, .unsigned 2, .unsigned 4]
      ([bindRequest, 0, magicCookie].map fun value : Nat => Value.int value) :=
    header_range (by decide) (by decide)
  obtain ⟨header, packed, _⟩ := pack_ok range
  exact ⟨_, encode_eq transactionId.property rfl packed⟩

/-- A datagram is decoded as it is documented exactly when its header is refused, or its attributes
can be read and tile its body; and a lookup raises what it documents exactly when each reply that it
decodes has a header that is refused or attributes that can be read. -/
theorem documented_iff :
    (∀ text, DecodesAsDocumented inetNtop text ↔
      HeaderRejected text ∨ (Readable (bodyOf text) ∧ Tiled (bodyOf text))) ∧
    ∀ (query : Query Server) (now : ℚ) (passes : List (Pass Server)),
      (lookup inetNtop query now passes).Documented ↔
        ∀ rpkt ∈ decodedReplies inetNtop query now passes,
          HeaderRejected rpkt ∨ Readable (bodyOf rpkt) := by
  refine ⟨decodesAsDocumented_iff inetNtop, fun query now passes => ?_⟩
  obtain ⟨pkt, encoded⟩ := encode_bindRequest query.transactionId
  rw [lookup, decodedReplies, encoded]
  exact State.loop_documented_iff inetNtop query pkt _ passes

/-- A message with a byte behind its header. -/
def cutHeader : List Byte :=
  [0x01, 0x01, 0, 1, 0x21, 0x12, 0xa4, 0x42] ++ exampleId ++ [0x80]

/-- A message whose last attribute has a header only. -/
def cutValue : List Byte :=
  [0x01, 0x01, 0, 4, 0x21, 0x12, 0xa4, 0x42] ++ exampleId ++ [0x80, 0x22, 0, 4]

def exampleQuery : Query Nat where
  addrs := [0]
  endTime := 1
  transactionId := ⟨exampleId, rfl⟩

theorem decode_cutHeader : decode exampleNtop cutHeader = .error .struct := by
  have body : bodyOf cutHeader = [0x80] := rfl
  rw [decode_header _ (by decide), if_neg (by decide), if_neg (by decide), body,
    decodeAttrs_step _ _ (by decide)]
  rfl

theorem decode_cutValue :
    decode exampleNtop cutValue = .ok (bindSuccess, exampleId, [(0x8022, .bytes [])]) := by
  have body : bodyOf cutValue = [0x80, 0x22, 0, 4] := rfl
  have header : unpackPair (([0x80, 0x22, 0, 4] : List Byte).take 4) = .ok (0x8022, 4) := by
    decide
  have nothing : decodeAttrs exampleNtop ((cutValue.drop 8).take 12) [] = .ok [] := by
    rw [decodeAttrs.eq_def]
  rw [decode_header _ (by decide), if_neg (by decide), if_neg (by decide), body,
    decodeAttrs_step _ _ (by decide), header, ok_bind]
  change ((decodeAttrs exampleNtop ((cutValue.drop 8).take 12) [] >>= fun attrs =>
    .ok ((0x8022, .bytes []) :: attrs)) >>= fun attrs => .ok (bindSuccess, exampleId, attrs)) = _
  rw [nothing]
  rfl

theorem lookup_cutHeader :
    lookup exampleNtop exampleQuery 0 [⟨some (0, cutHeader), 0⟩] = .raised (.codec .struct) := by
  obtain ⟨pkt, encoded⟩ := encode_bindRequest exampleQuery.transactionId
  have early : (State.start exampleQuery 0 : State Nat (List Char)).now < exampleQuery.endTime := by
    decide
  have waited : ¬0 ∉ ((State.start exampleQuery 0 : State Nat (List Char)).request
      exampleQuery pkt).waiting := by
    rw [State.request, if_pos (by decide)]
    simp [State.start, exampleQuery]
  have whole : cutHeader.take maxDatagram = cutHeader := rfl
  rw [lookup, encoded]
  simp only [State.loop, if_pos early, if_neg waited, whole, State.reply, decode_cutHeader]
  rfl

/-- A cut header raises `struct.error`, also in a lookup, and a cut value is returned. -/
theorem cut_messages :
    ¬DecodesAsDocumented exampleNtop cutHeader ∧ ¬DecodesAsDocumented exampleNtop cutValue ∧
      ¬(lookup exampleNtop exampleQuery 0 [⟨some (0, cutHeader), 0⟩]).Documented := by
  refine ⟨fun documented => ?_, fun documented => ?_, fun documented => ?_⟩
  · rw [DecodesAsDocumented, decode_cutHeader] at documented
    cases documented
  · rw [DecodesAsDocumented, decode_cutValue] at documented
    have extent := ((eachAttr_iff (by decide)).mp documented).1
    exact absurd extent (by decide)
  · rw [lookup_cutHeader] at documented
    cases documented

end Lookups

end Gfiber.Stun
