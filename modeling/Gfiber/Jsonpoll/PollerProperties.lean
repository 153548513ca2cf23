import Gfiber.Jsonpoll.Poller
import Gfiber.Lib.Run

/-! When the output files contain what has been obtained for their paths. -/

set_option autoImplicit false

namespace Gfiber.Jsonpoll

open Lib

section Specification

/-- A file contains a value if that, or one that is equal to it, has been written to it. -/
def Contains (file : Option Json) (response : Json) : Prop :=
  ∃ stored, file = some stored ∧ (stored = response ∨ stored.equal response)

/-- A response is written if it is not empty and not equal to the last one. -/
def Poller.Writes (poller : Poller) (response : Json) : Prop :=
  response.truthy = true ∧ poller.unchanged response = false

instance (poller : Poller) (response : Json) : Decidable (poller.Writes response) :=
  inferInstanceAs (Decidable (_ ∧ _))

/-- In the pass the path is requested in this state. -/
def Reaches (pass : Pass) (start : Poller) (path : Path) (before : Poller) : Prop :=
  ∃ front back, pass.paths = front ++ path :: back ∧
    requestPaths pass front start = (.returned (), before)

/-- A JSON object is obtained for the path. -/
def Obtains (pass : Pass) (path : Path) (response : Json) : Prop :=
  getHttpResponse (pass.reply path) = .ok (some response)

section

variable (contains : Option Json → Json → Prop)

/-- After the pass, a path has what was obtained for it unless an operation on its file failed. -/
def FilesCurrent (start : Poller) (pass : Pass) : Prop :=
  ∀ path before response, Reaches pass start path before → Obtains pass path response →
    (before.Writes response → pass.files path = .done) →
    contains ((requestStats pass start).2.outputs path) response

/-- Whatever is not written is in the file of its path already. -/
def SkipsCurrent (start : Poller) (pass : Pass) : Prop :=
  ∀ path before response, Reaches pass start path before → Obtains pass path response →
    ¬before.Writes response → contains (before.outputs path) response

end

end Specification

section Requests

variable {pass : Pass} {path other : Path} {poller : Poller} {response : Json}

/-- Whatever becomes of its file, a response is remembered. -/
theorem storeResponse_run : storeResponse pass path response poller =
    match pass.files path with
    | .done => (.returned (), Poller.write { poller with lastResponse := some response } path response)
    | .noDirectory => (.returned (), { poller with lastResponse := some response })
    | .renameFails => (.returned (), { poller with lastResponse := some response })
    | .raises => (.raised .other, { poller with lastResponse := some response }) := by
  change (match pass.files path with
    | .done => Exec.modify fun poller => Poller.write poller path response
    | .noDirectory => pure ()
    | .renameFails => pure ()
    | .raises => Exec.raise .other : Exec Poller PollError Unit)
      { poller with lastResponse := some response } = _
  cases pass.files path with
  | done => rfl
  | noDirectory => rfl
  | renameFails => rfl
  | raises => rfl

theorem storeResponse_eq : (storeResponse pass path response poller).2 =
    if pass.files path = .done then
      Poller.write { poller with lastResponse := some response } path response
    else { poller with lastResponse := some response } := by
  rw [storeResponse_run]
  cases pass.files path with
  | done => rfl
  | noDirectory => rfl
  | renameFails => rfl
  | raises => rfl

theorem requestPath_writes (obtained : Obtains pass path response) (writes : poller.Writes response) :
    requestPath pass path poller = storeResponse pass path response poller := by
  rw [requestPath, obtained, Exec.ok_bind]
  dsimp only
  rw [Exec.get_bind, writes.1, writes.2, if_neg (Ne.symm Bool.false_ne_true), if_neg Bool.false_ne_true]

theorem requestPath_skips (obtained : Obtains pass path response)
    (skips : ¬poller.Writes response) : requestPath pass path poller = (.returned (), poller) := by
  rw [requestPath, obtained, Exec.ok_bind]
  dsimp only
  rw [Exec.get_bind]
  by_cases empty : response.truthy = false
  · rw [if_pos empty]
    rfl
  · have unchanged : poller.unchanged response = true := by
      rw [← Bool.not_eq_false]
      exact fun changed => skips ⟨Bool.not_eq_false _ ▸ empty, changed⟩
    rw [if_neg empty, if_pos unchanged]
    rfl

theorem requestPath_failed (failed : ∀ response, ¬Obtains pass path response) :
    (requestPath pass path poller).2 = poller := by
  rw [requestPath]
  cases reply : getHttpResponse (pass.reply path) with
  | error error => rfl
  | ok obtained =>
      cases obtained with
      | none => rfl
      | some response => exact absurd reply (failed response)

/-- A request leaves the file of the other path as it is. -/
theorem outputs_requestPath (different : other ≠ path) :
    (requestPath pass path poller).2.outputs other = poller.outputs other := by
  by_cases failed : ∀ response, ¬Obtains pass path response
  · rw [requestPath_failed failed]
  · simp only [not_forall, not_not] at failed
    obtain ⟨response, obtained⟩ := failed
    by_cases writes : poller.Writes response
    · rw [requestPath_writes obtained writes, storeResponse_eq]
      split
      · exact if_neg different
      · rfl
    · rw [requestPath_skips obtained writes]

theorem outputs_requestPaths {paths : List Path} (absent : other ∉ paths) :
    (requestPaths pass paths poller).2.outputs other = poller.outputs other := by
  induction paths generalizing poller with
  | nil => rfl
  | cons path paths ih =>
      have different : other ≠ path := fun same => absent (same ▸ List.mem_cons_self)
      have kept : (requestPath pass path poller).2.outputs other = poller.outputs other :=
        outputs_requestPath different
      rw [requestPaths, Exec.loop, Exec.andThen]
      cases ran : requestPath pass path poller with
      | mk ending after =>
          rw [ran] at kept
          cases ending with
          | returned value =>
              exact (ih fun member => absent (List.mem_cons_of_mem _ member)).trans kept
          | raised error => exact kept
          | cut => exact kept

theorem paths_nodup (pass : Pass) : pass.paths.Nodup :=
  (pass.order.perm [.modem, .radio]).nodup_iff.mpr (by decide)

/-- What a file has after the pass is what the request for its path has left. -/
theorem outputs_requestStats {start before : Poller} (reached : Reaches pass start path before) :
    (requestStats pass start).2.outputs path = (requestPath pass path before).2.outputs path := by
  obtain ⟨front, back, split, ran⟩ := reached
  have nodup := paths_nodup pass
  rw [split] at nodup
  have absent : path ∉ back := (List.nodup_cons.mp (List.nodup_append.mp nodup).2.1).1
  rw [requestStats, split, requestPaths, Exec.loop_append _ ran, Exec.loop, Exec.andThen]
  cases here : requestPath pass path before with
  | mk ending after =>
      cases ending with
      | returned value => exact outputs_requestPaths absent
      | raised error => rfl
      | cut => rfl

/-- A pass shows what it has obtained exactly if whatever it does not write is there already. -/
theorem filesCurrent_iff {contains : Option Json → Json → Prop}
    (written : ∀ response, contains (some response) response) (start : Poller) (pass : Pass) :
    FilesCurrent contains start pass ↔ SkipsCurrent contains start pass := by
  constructor
  · intro current path before response reached obtained skips
    have shown := current path before response reached obtained fun writes => absurd writes skips
    rwa [outputs_requestStats reached, requestPath_skips obtained skips] at shown
  · intro current path before response reached obtained done
    rw [outputs_requestStats reached]
    by_cases writes : before.Writes response
    · have own : (Poller.write { before with lastResponse := some response } path response).outputs
          path = some response := if_pos rfl
      rw [requestPath_writes obtained writes, storeResponse_eq, if_pos (done writes), own]
      exact written response
    · rw [requestPath_skips obtained writes]
      exact current path before response reached obtained writes

end Requests

section Runs

def Poller.next (poller : Poller) (pass : Pass) : Poller :=
  (requestStats pass poller).2

theorem contains_self (response : Json) : Contains (some response) response :=
  ⟨response, rfl, .inl rfl⟩

/-- No file operation fails, no object is empty, and none is equal to one of the other path. -/
structure Distinct (passes : List Pass) : Prop where
  done : ∀ pass ∈ passes, ∀ path, pass.files path = .done
  some_entry : ∀ pass ∈ passes, ∀ path response, Obtains pass path response → response.truthy
  apart : ∀ pass ∈ passes, ∀ other ∈ passes, ∀ path different, path ≠ different →
    ∀ response own, Obtains pass path response → Obtains other different own →
      response.equal own = false

/-- The last response has been obtained for a path and is in its file. -/
def Remembered (passes : List Pass) (poller : Poller) : Prop :=
  ∀ last, poller.lastResponse = some last → ∃ pass ∈ passes, ∃ path,
    Obtains pass path last ∧ poller.outputs path = some last

variable {passes : List Pass} {pass : Pass} {poller : Poller}

theorem Remembered.requestPath (distinct : Distinct passes) (member : pass ∈ passes)
    (remembered : Remembered passes poller) (path : Path) :
    Remembered passes (requestPath pass path poller).2 := by
  by_cases failed : ∀ response, ¬Obtains pass path response
  · rw [requestPath_failed failed]
    exact remembered
  · simp only [not_forall, not_not] at failed
    obtain ⟨response, obtained⟩ := failed
    by_cases writes : poller.Writes response
    · rw [requestPath_writes obtained writes, storeResponse_eq,
        if_pos (distinct.done pass member path)]
      intro last found
      cases found
      exact ⟨pass, member, path, obtained, if_pos rfl⟩
    · rw [requestPath_skips obtained writes]
      exact remembered

theorem Remembered.requestPaths (distinct : Distinct passes) (member : pass ∈ passes)
    (remembered : Remembered passes poller) (paths : List Path) :
    Remembered passes (requestPaths pass paths poller).2 := by
  induction paths generalizing poller with
  | nil => exact remembered
  | cons path paths ih =>
      have once := remembered.requestPath distinct member path
      rw [Jsonpoll.requestPaths, Exec.loop, Exec.andThen]
      cases ran : Jsonpoll.requestPath pass path poller with
      | mk ending after =>
          rw [ran] at once
          cases ending with
          | returned value => exact ih once
          | raised error => exact once
          | cut => exact once

/-- A response that is skipped is then the one of its own path. -/
theorem Remembered.skipsCurrent (distinct : Distinct passes) (member : pass ∈ passes)
    (remembered : Remembered passes poller) : SkipsCurrent Contains poller pass := by
  intro path before response reached obtained skips
  obtain ⟨front, back, _, ran⟩ := reached
  have kept := remembered.requestPaths distinct member front
  rw [ran] at kept
  have truthy := distinct.some_entry pass member path response obtained
  have unchanged : before.unchanged response = true := by
    rw [← Bool.not_eq_false]
    exact fun changed => skips ⟨truthy, changed⟩
  rw [Poller.unchanged, Option.any_eq_true] at unchanged
  obtain ⟨last, found, same⟩ := unchanged
  obtain ⟨earlier, listed, other, own, stored⟩ := kept last found
  have here : other = path := by
    by_contra different
    have apart := distinct.apart earlier listed pass member other path different last response own
      obtained
    rw [same] at apart
    cases apart
  rw [← here]
  exact ⟨last, stored, Or.inr same⟩

/-- Nothing is out of date as long as the responses of the two paths are never equal. -/
theorem files_current_of_distinct (distinct : Distinct passes) {start : Poller}
    (remembered : Remembered passes start) {some_passes : List Pass} (among : some_passes ⊆ passes) :
    StepsMeet (FilesCurrent Contains) (traceOf Poller.next start some_passes) := by
  induction some_passes generalizing start with
  | nil =>
      intro entry member
      cases member
  | cons pass rest ih =>
      have listed : pass ∈ passes := among List.mem_cons_self
      intro entry member
      cases List.mem_cons.mp member with
      | inl here =>
          rw [here]
          exact (filesCurrent_iff contains_self start pass).mpr (remembered.skipsCurrent distinct listed)
      | inr later =>
          exact ih (remembered.requestPaths distinct listed pass.paths)
            (fun other inside => among (List.mem_cons_of_mem _ inside)) entry later

end Runs

end Gfiber.Jsonpoll
