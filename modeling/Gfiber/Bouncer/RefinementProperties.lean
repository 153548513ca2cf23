import Gfiber.Bouncer.PollingProperties

/-! The checkers and their timers, seen as the numbers of tries of the users in progress. -/

set_option autoImplicit false

namespace Gfiber.Bouncer.Polling

open Lib

section States

variable {Time : Type} {process next : Process Time} {state : State Time}

def Process.tries (process : Process Time) (macAddr : MacAddr) : Option Nat :=
  (process.inProgressUsers.lookup macAddr).bind fun id => process.checkers[id]?.map Checker.tries

/-- The state that the process is in when each checker is forgotten but for its tries. -/
structure Represents (process : Process Time) (state : State Time) : Prop where
  known : state.knownUsers = process.knownUsers
  firewall : state.firewall = process.firewall
  tries : ∀ macAddr, state.inProgressUsers.lookup macAddr = process.tries macAddr

theorem Process.tries_checks (registered : Registered process) {id : Nat} {checker : Checker}
    (checks : process.Checks id checker) :
    process.tries checker.macAddr = if checker.callback = .running then some checker.tries else none := by
  rw [Process.tries]
  obtain ⟨found, running | ⟨fresh, missing⟩⟩ := checks
  · simp [(registered _ _).mpr ⟨checker, found, rfl, running⟩, found, running]
  · have absent : checker.callback = .absent := congrArg Checker.callback fresh
    simp [missing, absent]

/-- A check changes the tries of its own user only. -/
theorem Effect.tries_eq (registered : Registered process) {id : Nat} {checker after : Checker}
    (checks : process.Checks id checker) (effect : Effect process next id checker after)
    (macAddr : MacAddr) :
    next.tries macAddr =
      if macAddr = checker.macAddr then
        if after.callback = .running then some (checker.tries + 1) else none
      else process.tries macAddr := by
  have inside : id < process.checkers.length := (List.getElem?_eq_some_iff.mp checks.1).1
  rw [Process.tries, effect.users, effect.checkers]
  by_cases own : macAddr = checker.macAddr
  · rw [if_pos own, if_pos own]
    by_cases running : after.callback = .running
    · simp [running, List.getElem?_set_self inside, effect.tries]
    · simp [running]
  · rw [if_neg own, if_neg own, Process.tries]
    cases user : process.inProgressUsers.lookup macAddr with
    | none => rfl
    | some other =>
        have different : id ≠ other := by
          rintro rfl
          obtain ⟨polling, found, same, _⟩ := (registered macAddr id).mp user
          rw [checks.1] at found
          cases found
          exact own same.symm
        simp [List.getElem?_set_ne different]

theorem lookup_refuse (macAddr : MacAddr) (tries : Nat) (other : MacAddr) :
    (state.refuse macAddr tries).inProgressUsers.lookup other =
      if other = macAddr then if tries ≤ maxTries then some tries else none
      else state.inProgressUsers.lookup other := by
  rw [State.refuse]
  by_cases many : tries > maxTries
  · by_cases own : other = macAddr
    · subst own
      simp [many, Nat.not_le.mpr many]
    · simp [many, own, AList.lookup_erase_ne own]
  · by_cases own : other = macAddr
    · subst own
      simp [many, Nat.not_lt.mp many]
    · simp [many, own, AList.lookup_insert_ne own]

theorem lookup_abandon (macAddr : MacAddr) (tries : Nat) (other : MacAddr) :
    (state.abandon macAddr tries).inProgressUsers.lookup other =
      if other = macAddr then (state.inProgressUsers.lookup macAddr).map fun _ => tries
      else state.inProgressUsers.lookup other := by
  rw [State.abandon]
  by_cases known : macAddr ∈ state.inProgressUsers
  · rw [if_pos known]
    obtain ⟨before, found⟩ := Option.isSome_iff_exists.mp (AList.lookup_isSome.mpr known)
    by_cases own : other = macAddr
    · subst own
      simp [found]
    · simp [own, AList.lookup_insert_ne own]
  · rw [if_neg known]
    by_cases own : other = macAddr
    · subst own
      simp [AList.lookup_eq_none.mpr known]
    · rw [if_neg own]

theorem lookup_grant {opt : Options Time} (macAddr : MacAddr) (response : Response Time)
    (other : MacAddr) :
    (state.grant opt macAddr response).inProgressUsers.lookup other =
      if other = macAddr then none else state.inProgressUsers.lookup other := by
  rw [State.grant]
  by_cases own : other = macAddr
  · subst own
    simp
  · simp [own, AList.lookup_erase_ne own]

variable {opt : Options Time} [Add Time] [LT Time] [DecidableLT Time]

theorem check_knownUsers {id : Nat} {checker : Checker} (found : process.checkers[id]? = some checker)
    (answer : Answer Time) (now : Time) :
    (process.check opt id answer now).knownUsers =
        (match answer.granted opt now with
        | some response => process.knownUsers.insert checker.macAddr response
        | none => process.knownUsers) ∧
      (process.check opt id answer now).firewall =
        (match answer.granted opt now with
        | some _ => updateChains opt .append checker.macAddr process.firewall
        | none => process.firewall) := by
  rw [Process.check, found]
  dsimp only
  cases answer with
  | malformed => exact ⟨rfl, rfl⟩
  | httpError =>
      simp only [Process.settle, Answer.granted]
      split
      case isTrue => exact ⟨rfl, rfl⟩
      case isFalse => exact ⟨rfl, rfl⟩
  | response object =>
      simp only [Process.settle]
      cases (Answer.response object).granted opt now with
      | some response => exact ⟨rfl, rfl⟩
      | none =>
          dsimp only
          split
          case isTrue => exact ⟨rfl, rfl⟩
          case isFalse => exact ⟨rfl, rfl⟩

/-- The user of a check is in progress afterwards when its timer runs. -/
theorem lookup_check {checker after : Checker} {answer : Answer Time} {now : Time}
    (before : state.inProgressUsers.lookup checker.macAddr =
      if checker.callback = .running then some checker.tries else none)
    (more : after.callback = .running ↔ GoesOn opt checker answer now) (other : MacAddr) :
    (Bouncer.check opt checker.macAddr checker.tries answer now state).inProgressUsers.lookup other =
      if other = checker.macAddr then
        if after.callback = .running then some (checker.tries + 1) else none
      else state.inProgressUsers.lookup other := by
  cases answer with
  | malformed =>
      simp only [more, GoesOn, Bouncer.check, Answer.granted, lookup_abandon, before]
      by_cases running : checker.callback = .running
      · simp [running]
      · simp [running]
  | httpError => simp [more, GoesOn, Bouncer.check, Answer.granted, lookup_refuse]
  | response object =>
      cases valid : isValidAcceptance opt now object with
      | false => simp [more, GoesOn, Bouncer.check, Answer.granted, lookup_refuse, valid]
      | true => simp [more, GoesOn, Bouncer.check, Answer.granted, lookup_grant, valid]

theorem check_state (macAddr : MacAddr) (tries : Nat) (answer : Answer Time) (now : Time) :
    (Bouncer.check opt macAddr tries answer now state).knownUsers =
        (match answer.granted opt now with
        | some response => state.knownUsers.insert macAddr response
        | none => state.knownUsers) ∧
      (Bouncer.check opt macAddr tries answer now state).firewall =
        (match answer.granted opt now with
        | some _ => updateChains opt .append macAddr state.firewall
        | none => state.firewall) := by
  cases answer with
  | malformed =>
      simp only [Bouncer.check, Answer.granted, State.abandon]
      split
      case isTrue => exact ⟨rfl, rfl⟩
      case isFalse => exact ⟨rfl, rfl⟩
  | httpError => exact ⟨rfl, rfl⟩
  | response object =>
      simp only [Bouncer.check]
      cases (Answer.response object).granted opt now with
      | some response => exact ⟨rfl, rfl⟩
      | none => exact ⟨rfl, rfl⟩

/-- A check does the same to what it represents. -/
theorem Represents.check (represents : Represents process state)
    (registered : Registered process) {id : Nat} {checker : Checker}
    (checks : process.Checks id checker) (answer : Answer Time) (now : Time) :
    Represents (process.check opt id answer now)
      (Bouncer.check opt checker.macAddr checker.tries answer now state) := by
  obtain ⟨after, effect, more⟩ := check_effect opt registered checks answer now
  have before := represents.tries checker.macAddr
  rw [Process.tries_checks registered checks] at before
  refine ⟨?_, ?_, fun macAddr => ?_⟩
  · rw [(check_state _ _ _ _).1, (check_knownUsers checks.1 answer now).1, represents.known]
  · rw [(check_state _ _ _ _).2, (check_knownUsers checks.1 answer now).2, represents.firewall]
  · rw [lookup_check before more, effect.tries_eq registered checks, represents.tries]

end States

section Runs

variable {Time : Type} {process next : Process Time} {state : State Time}

/-- A new checker has no tries that count. -/
theorem Represents.added (represents : Represents process state) (registered : Registered process)
    (added : List Checker) :
    Represents { process with checkers := process.checkers ++ added } state := by
  refine ⟨represents.known, represents.firewall, fun macAddr => ?_⟩
  rw [represents.tries, Process.tries, Process.tries]
  cases user : process.inProgressUsers.lookup macAddr with
  | none => rfl
  | some id =>
      obtain ⟨checker, found, _⟩ := (registered macAddr id).mp user
      have inside : id < process.checkers.length := (List.getElem?_eq_some_iff.mp found).1
      simp [List.getElem?_append_left inside]

theorem Process.Checks.getD_tries {id : Nat} {checker : Checker} (registered : Registered process)
    (checks : process.Checks id checker) :
    (process.tries checker.macAddr).getD 0 = checker.tries := by
  rw [Process.tries_checks registered checks]
  rcases checks.2 with running | ⟨fresh, _⟩
  · simp [running]
  · have absent : checker.callback = .absent := congrArg Checker.callback fresh
    have untried : checker.tries = 0 := congrArg Checker.tries fresh
    simp [absent, untried]

variable {opt : Options Time} {time : Number → Time} [Add Time] [LT Time] [DecidableLT Time]

/-- Each event is an event of what the process represents. -/
theorem Represents.step {event : Event Time} (represents : Represents process state)
    (registered : Registered process) (step : Step opt time process event next) :
    ∃ seen after, Bouncer.Step opt state seen after ∧ Represents next after := by
  cases step with
  | @check id macAddr outcome now polls =>
      obtain ⟨checker, checks, rfl⟩ := polls.checks
      have tries := represents.tries checker.macAddr
      rw [Process.tries_checks registered checks] at tries
      obtain ⟨polling, found, _, running⟩ := polls
      rw [checks.1] at found
      cases found
      rw [if_pos running] at tries
      exact ⟨_, _, .check tries, represents.check registered checks (outcome.answer time) now⟩
  | @accept line now later outcome =>
      refine ⟨.accept line now (outcome.answer time) later, _, .accept, ?_⟩
      rw [Process.accept, Bouncer.accept]
      cases user : normalizeMacAddr (Text.strip line) with
      | none => exact represents
      | some macAddr =>
          have same : state.cached opt now macAddr = process.cached opt now macAddr := by
            rw [State.cached, Process.cached, represents.known]
          dsimp only
          rw [same]
          cases process.cached opt now macAddr with
          | some known =>
              refine ⟨?_, represents.firewall, represents.tries⟩
              dsimp only
              rw [represents.known]
          | none =>
              obtain ⟨id, checker, added, taken, new, rfl, checks⟩ :=
                checkerFor_cases registered macAddr
              have grown := represents.added registered added
              have tries := checks.getD_tries (registered.added new)
              rw [← grown.tries] at tries
              rw [taken]
              dsimp only
              rw [tries]
              generalize outcome.answer time = answer
              have checked : Represents _
                  (Bouncer.check opt checker.macAddr checker.tries answer later state) :=
                grown.check (registered.added new) checks answer later
              cases answer with
              | response object => exact checked
              | httpError => exact checked
              | malformed => exact checked

/-- The numbers of tries go through a run of their own when the checkers go through one. -/
theorem represents_run {trace : List (Process Time × Event Time)} {finish : Process Time}
    (run : Run (Step opt time) .start trace finish) :
    ∃ seen after, Run (Bouncer.Step opt) State.start seen after ∧ Represents finish after := by
  have registered := registered_throughout run
  induction run with
  | nil =>
      refine ⟨[], State.start, .nil, rfl, rfl, fun macAddr => ?_⟩
      simp [State.start, Process.start, Process.tries]
  | snoc _ step ih =>
      obtain ⟨seen, after, abstract, represents⟩ := ih registered.unsnoc
      obtain ⟨event, later, once, represented⟩ := represents.step registered.unsnoc.2 step
      exact ⟨_, later, abstract.snoc once, represented⟩

end Runs

end Gfiber.Bouncer.Polling
