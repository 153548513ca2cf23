import Gfiber.Isoping.Server

/-! The queue of iterators against the map of sessions, over every run of a server. -/

set_option autoImplicit false

namespace Gfiber.Isoping
open Lib

def Sessions.Matched (st : Sessions) : Prop :=
  ∀ id, st.nextSends.count id = if id ∈ st.sessionMap.ids then 1 else 0

theorem Sessions.matched_iff_perm (st : Sessions) :
    st.Matched ↔ st.nextSends.Perm st.sessionMap.ids := by
  rw [List.perm_iff_count]
  constructor
  · intro matched id
    rw [matched id]
    exact (st.sessionMap.identified.count).symm
  · intro counts id
    rw [counts id]
    exact st.sessionMap.identified.count

def Sessions.Unseen (oracle : Oracle) (st : Sessions) : ServerEvent → Prop
  | .datagram datagram _ => st.Greets oracle datagram → st.sessionMap.find datagram.addr = none
  | .sendWaiting _ _ => True
  | .maybeRotate _ _ => True

section Steps

variable {settings : Settings} {oracle : Oracle} {st : Sessions}

theorem Sessions.Matched.erase_iff (matched : st.Matched) (addr : Sockaddr) :
    ({ st with sessionMap := st.sessionMap.erase addr } : Sessions).Matched ↔
      st.sessionMap.find addr = none := by
  constructor
  · intro after
    cases found : st.sessionMap.find addr with
    | none => rfl
    | some node =>
        obtain ⟨member, same⟩ := SessionMap.find_mem found
        have live : node.id ∈ st.sessionMap.ids := List.mem_map_of_mem member
        have gone : node.id ∉ (st.sessionMap.erase addr).ids := by
          intro kept
          obtain ⟨other, inside, equal⟩ := List.mem_map.mp kept
          obtain ⟨old, apart⟩ := SessionMap.mem_erase.mp inside
          have one := List.inj_on_of_nodup_map st.sessionMap.identified old member equal
          rw [one, same] at apart
          cases apart
        have before := matched node.id
        have entries := after node.id
        rw [if_pos live] at before
        rw [if_neg gone, before] at entries
        cases entries
  · intro absent id
    rw [SessionMap.ids_erase_of_absent absent]
    exact matched id

theorem Sessions.Matched.open_iff (matched : st.Matched) (session : Session)
    {change : Session → Session} (keeps : ∀ s, (change s).remoteaddr = s.remoteaddr) :
    ({ st with
      sessionMap := (st.sessionMap.insert session).1.modify (st.sessionMap.insert session).2 change
        keeps
      nextSends := st.nextSends ++ [(st.sessionMap.insert session).2] } : Sessions).Matched ↔
      st.sessionMap.find session.remoteaddr = none := by
  cases found : st.sessionMap.find session.remoteaddr with
  | none =>
      simp only [SessionMap.insert_of_absent found, iff_true]
      rw [Sessions.matched_iff_perm] at matched ⊢
      simp only [SessionMap.ids_modify, SessionMap.ids_allocate]
      exact matched.append_right _
  | some node =>
      simp only [SessionMap.insert_of_found found, reduceCtorEq, iff_false]
      intro after
      have live : node.id ∈ st.sessionMap.ids :=
        List.mem_map_of_mem (SessionMap.find_mem found).1
      have before := matched node.id
      have entries := after node.id
      rw [if_pos live] at before
      rw [SessionMap.ids_modify, if_pos live, List.count_append, before] at entries
      simp at entries

theorem Sessions.Matched.sendPass (matched : st.Matched) {node : SessionNode}
    (queued : node.id ∈ st.nextSends) (live : node ∈ st.sessionMap.nodes) (now : Word64)
    (result : SendResult) : (Sessions.sendPass true now result st node).2.Matched := by
  rw [Sessions.matched_iff_perm] at matched ⊢
  rcases Sessions.sendPass_server now result st node with erased | pushed
  · rw [erased]
    have transmitted : { node with session := (transmit true result node.session).2 } ∈
        (st.served result node).nodes :=
      List.mem_map.mpr ⟨node, live, if_pos rfl⟩
    have removed := SessionMap.ids_erase_of_mem transmitted
    dsimp only at removed ⊢
    rw [st.sessionMap.addressed node live, removed, Sessions.served, SessionMap.ids_modify]
    exact matched.erase _
  · rw [pushed]
    dsimp only
    rw [Sessions.served, SessionMap.ids_modify]
    exact (List.perm_append_singleton _ _).trans
      ((List.perm_cons_erase queued).symm.trans matched)

theorem Sessions.Matched.step_iff (matched : st.Matched) {event : ServerEvent} {next : Sessions}
    (step : ServerStep settings oracle st event next) :
    next.Matched ↔ st.Unseen oracle event := by
  cases step with
  | @datagram datagram now =>
      simp only [Sessions.Unseen]
      have outcome := st.readAsServer_cases settings oracle datagram now
      generalize st.readAsServer settings oracle datagram now = handled at outcome ⊢
      cases outcome with
      | ignored unanswered => exact ⟨fun _ greets => absurd greets unanswered, fun _ => matched⟩
      | asked greets _ =>
          rw [matched.erase_iff]
          exact ⟨fun absent _ => absent, fun unseen => unseen greets⟩
      | opened greets _ _ =>
          rw [matched.open_iff]
          exact ⟨fun absent _ => absent, fun unseen => unseen greets⟩
      | unknown _ unanswered _ _ =>
          exact ⟨fun _ greets => absurd greets unanswered, fun _ => matched⟩
      | acked unanswered _ =>
          refine ⟨fun _ greets => absurd greets unanswered, fun _ id => ?_⟩
          rw [SessionMap.ids_modify]
          exact matched id
  | sendWaiting returns =>
      refine ⟨fun _ => trivial, fun _ => ?_⟩
      exact Sessions.sendWaitingPackets_preserves Sessions.Matched
        (fun result before queued live => before.sendPass queued live _ result) returns matched
  | maybeRotate => exact ⟨fun _ => trivial, fun _ => matched⟩

end Steps

/-- Over every run of a server from no sessions, the queue matches the map in every
state exactly when no session is greeted a second time. -/
theorem queue_matched_iff_unseen (settings : Settings) (oracle : Oracle) (prevCookieEpoch : Word)
    (prevCookieSecret : Secret) {trace : List (Sessions × ServerEvent)} {finish : Sessions}
    (run : Run (ServerStep settings oracle)
      (Sessions.new oracle prevCookieEpoch prevCookieSecret) trace finish) :
    Throughout Sessions.Matched trace finish ↔ StepsMeet (Sessions.Unseen oracle) trace := by
  have initial : (Sessions.new oracle prevCookieEpoch prevCookieSecret).Matched := fun _ => rfl
  exact run.throughout_iff_met initial id
    (fun matched unseen step => (matched.step_iff step).mpr unseen)
    fun matched step after => (matched.step_iff step).mp after

theorem queue_matched_after_handshake :
    Throughout Sessions.Matched
      (traceOf (Sessions.after plainSettings plainOracle) plainStart (handshakeEvents 100000 1))
      ((handshakeEvents 100000 1).foldl (Sessions.after plainSettings plainOracle) plainStart) := by
  refine (queue_matched_iff_unseen plainSettings plainOracle 0 (.replicate 16 0)
    (handshake_run 100000 1)).mpr ?_
  intro entry member
  simp only [handshakeEvents, List.replicate, List.cons_append, List.nil_append, traceOf,
    List.mem_cons, List.not_mem_nil, or_false] at member
  rcases member with rfl | rfl | rfl
  · trivial
  · intro _
    decide +kernel
  · intro _
    decide +kernel

/-- The network delivers the client's echo twice: its session is in the queue twice. -/
theorem queue_doubled_by_echo :
    Run (ServerStep plainSettings plainOracle) plainStart
        (traceOf (Sessions.after plainSettings plainOracle) plainStart (handshakeEvents 100000 2))
        ((handshakeEvents 100000 2).foldl (Sessions.after plainSettings plainOracle) plainStart) ∧
      ¬ Throughout Sessions.Matched
        (traceOf (Sessions.after plainSettings plainOracle) plainStart (handshakeEvents 100000 2))
        ((handshakeEvents 100000 2).foldl (Sessions.after plainSettings plainOracle) plainStart) := by
  refine ⟨handshake_run 100000 2, fun matched => ?_⟩
  have once := matched.2 0
  have twice : ((handshakeEvents 100000 2).foldl (Sessions.after plainSettings plainOracle)
      plainStart).nextSends.count 0 = 2 := by decide +kernel
  rw [twice] at once
  split at once
  · cases once
  · cases once

end Gfiber.Isoping
