import Gfiber.Bouncer.Polling

/-! When the users in progress are the users that are polled, and no check raises. -/

set_option autoImplicit false

namespace Gfiber.Bouncer.Polling

open Lib

section Checkers

@[simp] theorem Checker.stop_macAddr (checker : Checker) :
    checker.stop.macAddr = checker.macAddr := by
  rw [Checker.stop]
  split <;> rfl

@[simp] theorem Checker.stop_tries (checker : Checker) : checker.stop.tries = checker.tries := by
  rw [Checker.stop]
  split <;> rfl

theorem Checker.stop_callback (checker : Checker) : checker.stop.callback ≠ .running := by
  rw [Checker.stop]
  split
  case h_1 absent => simp [absent]
  case h_2 => simp

@[simp] theorem Checker.poll_macAddr (checker : Checker) :
    checker.poll.macAddr = checker.macAddr := by
  rw [Checker.poll]
  split <;> rfl

@[simp] theorem Checker.poll_tries (checker : Checker) : checker.poll.tries = checker.tries := by
  rw [Checker.poll]
  split <;> rfl

theorem Checker.poll_callback {checker : Checker}
    (usable : checker.callback = .running ∨ checker.callback = .absent) :
    checker.poll.callback = .running := by
  rcases usable with running | absent
  · simp [Checker.poll, running]
  · simp [Checker.poll, absent]

end Checkers

section Registration

variable {Time : Type} {process next : Process Time}

/-- The users in progress are the ones with a running timer. -/
def Registered (process : Process Time) : Prop :=
  ∀ macAddr id, process.inProgressUsers.lookup macAddr = some id ↔ process.Polls id macAddr

/-- One user has one running timer. -/
theorem Registered.unique (registered : Registered process) {first second : Nat}
    {macAddr : MacAddr} (one : process.Polls first macAddr) (other : process.Polls second macAddr) :
    first = second := by
  have found := (registered macAddr first).mpr one
  rw [(registered macAddr second).mpr other] at found
  exact (Option.some.inj found).symm

/-- A checker that checks: its timer runs, or it is new and its user is not in progress. -/
def Process.Checks (id : Nat) (checker : Checker) (process : Process Time) : Prop :=
  process.checkers[id]? = some checker ∧
    (checker.callback = .running ∨
      checker = .init checker.macAddr ∧ process.inProgressUsers.lookup checker.macAddr = none)

/-- No other checker has a timer for the user of a checker that checks. -/
theorem Process.Checks.alone {id other : Nat} {checker : Checker} (registered : Registered process)
    (checks : process.Checks id checker) (polls : process.Polls other checker.macAddr) :
    other = id := by
  obtain ⟨found, running | ⟨_, missing⟩⟩ := checks
  · exact registered.unique polls ⟨checker, found, rfl, running⟩
  · rw [(registered _ _).mpr polls] at missing
    cases missing

/-- What a check does: it counts a try, and its user is in progress when its timer runs. -/
structure Effect (process next : Process Time) (id : Nat) (checker after : Checker) : Prop where
  checkers : next.checkers = process.checkers.set id after
  macAddr : after.macAddr = checker.macAddr
  tries : after.tries = checker.tries + 1
  users : ∀ macAddr, next.inProgressUsers.lookup macAddr =
    if macAddr = checker.macAddr then if after.callback = .running then some id else none
    else process.inProgressUsers.lookup macAddr

theorem Effect.polls_iff {id : Nat} {checker after : Checker}
    (effect : Effect process next id checker after) (found : process.checkers[id]? = some checker)
    (other : Nat) (macAddr : MacAddr) :
    next.Polls other macAddr ↔
      if other = id then checker.macAddr = macAddr ∧ after.callback = .running
      else process.Polls other macAddr := by
  rw [Process.Polls, effect.checkers, ← effect.macAddr]
  by_cases same : other = id
  · subst same
    have inside : other < process.checkers.length := (List.getElem?_eq_some_iff.mp found).1
    simp [List.getElem?_set_self inside]
  · rw [if_neg same, List.getElem?_set_ne (Ne.symm same)]
    rfl

theorem Effect.registered {id : Nat} {checker after : Checker}
    (effect : Effect process next id checker after) (registered : Registered process)
    (checks : process.Checks id checker) : Registered next := by
  intro macAddr other
  rw [effect.users, effect.polls_iff checks.1]
  by_cases own : macAddr = checker.macAddr
  · subst own
    by_cases same : other = id
    · simp [same]
    · have stranger : ¬process.Polls other checker.macAddr := fun polls =>
        same (checks.alone registered polls)
      simp [same, Ne.symm same, stranger]
  · rw [if_neg own, registered]
    by_cases same : other = id
    · subst same
      have stranger : ¬process.Polls other macAddr := by
        rintro ⟨polling, found, user, _⟩
        rw [checks.1] at found
        cases found
        exact own user.symm
      simp [Ne.symm own, stranger]
    · rw [if_neg same]

theorem effect_finish {id : Nat} {checker : Checker} :
    Effect process (process.finish id { checker with tries := checker.tries + 1 }) id checker
      { checker with tries := checker.tries + 1 }.stop where
  checkers := rfl
  macAddr := by rw [Checker.stop_macAddr]
  tries := by rw [Checker.stop_tries]
  users macAddr := by
    rw [if_neg (Checker.stop_callback _), Process.finish]
    by_cases own : macAddr = checker.macAddr
    · subst own
      simp
    · simp [own, AList.lookup_erase_ne own]

theorem Process.Checks.poll_callback {id : Nat} {checker : Checker}
    (checks : process.Checks id checker) :
    { checker with tries := checker.tries + 1 }.poll.callback = .running := by
  rcases checks.2 with running | ⟨fresh, _⟩
  · exact Checker.poll_callback (.inl running)
  · exact Checker.poll_callback (.inr (congrArg Checker.callback fresh))

theorem effect_proceed {id : Nat} {checker : Checker} (checks : process.Checks id checker) :
    Effect process (process.proceed id { checker with tries := checker.tries + 1 }) id checker
      { checker with tries := checker.tries + 1 }.poll where
  checkers := rfl
  macAddr := by rw [Checker.poll_macAddr]
  tries := by rw [Checker.poll_tries]
  users macAddr := by
    rw [if_pos checks.poll_callback, Process.proceed]
    by_cases own : macAddr = checker.macAddr
    · subst own
      simp
    · simp [own, AList.lookup_insert_ne own]

/-- A check that raises in between counts its try only. -/
theorem effect_malformed {id : Nat} {checker : Checker} (registered : Registered process)
    (checks : process.Checks id checker) :
    Effect process { process with
      checkers := process.checkers.set id { checker with tries := checker.tries + 1 } } id checker
      { checker with tries := checker.tries + 1 } where
  checkers := rfl
  macAddr := rfl
  tries := rfl
  users macAddr := by
    by_cases own : macAddr = checker.macAddr
    · subst own
      obtain ⟨found, running | ⟨fresh, missing⟩⟩ := checks
      · simp [running, (registered _ _).mpr ⟨checker, found, rfl, running⟩]
      · have absent : checker.callback = .absent := congrArg Checker.callback fresh
        simp [absent, missing]
    · rw [if_neg own]

variable (opt : Options Time) [Add Time] [LT Time] [DecidableLT Time]

/-- Whether the timer runs after a check. An answer that cannot be used leaves it as it is. -/
def GoesOn (checker : Checker) (answer : Answer Time) (now : Time) : Prop :=
  match answer with
  | .malformed => checker.callback = .running
  | answer => answer.granted opt now = none ∧ checker.tries + 1 ≤ maxTries

theorem check_effect (registered : Registered process) {id : Nat} {checker : Checker}
    (checks : process.Checks id checker) (answer : Answer Time) (now : Time) :
    ∃ after, Effect process (process.check opt id answer now) id checker after ∧
      (after.callback = .running ↔ GoesOn opt checker answer now) := by
  rw [Process.check, checks.1]
  dsimp only
  have refused : ∃ after, Effect process (if checker.tries + 1 > maxTries then
      process.finish id { checker with tries := checker.tries + 1 }
      else process.proceed id { checker with tries := checker.tries + 1 }) id checker after ∧
      (after.callback = .running ↔ checker.tries + 1 ≤ maxTries) := by
    split
    case isTrue many =>
      exact ⟨_, effect_finish, iff_of_false (Checker.stop_callback _) (Nat.not_le.mpr many)⟩
    case isFalse few =>
      exact ⟨_, effect_proceed checks, iff_of_true checks.poll_callback (Nat.not_lt.mp few)⟩
  cases answer with
  | malformed => exact ⟨_, effect_malformed registered checks, Iff.rfl⟩
  | httpError =>
      obtain ⟨after, effect, running⟩ := refused
      exact ⟨after, effect, by simp [GoesOn, Answer.granted, running]⟩
  | response object =>
      cases valid : isValidAcceptance opt now object with
      | false =>
          obtain ⟨after, effect, running⟩ := refused
          simp only [Process.settle, Answer.granted, valid, Bool.false_eq_true, if_false]
          exact ⟨after, effect, by simp [GoesOn, Answer.granted, valid, running]⟩
      | true =>
          simp only [Process.settle, Answer.granted, valid, if_true]
          have effect : Effect (process.allow opt checker.macAddr object) _ id checker _ :=
            effect_finish
          refine ⟨_, ⟨effect.checkers, effect.macAddr, effect.tries, effect.users⟩,
            iff_of_false (Checker.stop_callback _) ?_⟩
          simp [GoesOn, Answer.granted, valid]

end Registration

section Users

variable {Time : Type} {process : Process Time}

theorem Process.Polls.checks {id : Nat} {macAddr : MacAddr} (polls : process.Polls id macAddr) :
    ∃ checker, process.Checks id checker ∧ checker.macAddr = macAddr := by
  obtain ⟨checker, found, user, running⟩ := polls
  exact ⟨checker, ⟨found, .inl running⟩, user⟩

/-- A new checker has no timer. -/
theorem Process.polls_append (fresh : MacAddr) (id : Nat) (macAddr : MacAddr) :
    { process with checkers := process.checkers ++ [Checker.init fresh] }.Polls id macAddr ↔
      process.Polls id macAddr := by
  constructor
  · rintro ⟨checker, found, user, running⟩
    change (process.checkers ++ [Checker.init fresh])[id]? = some checker at found
    by_cases inside : id < process.checkers.length
    · rw [List.getElem?_append_left inside] at found
      exact ⟨checker, found, user, running⟩
    · rw [List.getElem?_append_right (Nat.not_lt.mp inside)] at found
      have last := List.mem_singleton.mp (List.mem_of_getElem? found)
      rw [last] at running
      cases running
  · rintro ⟨checker, found, user, running⟩
    have inside : id < process.checkers.length := (List.getElem?_eq_some_iff.mp found).1
    exact ⟨checker, by rw [List.getElem?_append_left inside, found], user, running⟩

/-- The checker that `accept` takes is polling, or it is new. -/
theorem checkerFor_cases (registered : Registered process) (macAddr : MacAddr) :
    ∃ id checker added, process.checkerFor macAddr =
        (id, { process with checkers := process.checkers ++ added }) ∧
      (added = [] ∨ added = [Checker.init macAddr]) ∧ checker.macAddr = macAddr ∧
      { process with checkers := process.checkers ++ added }.Checks id checker := by
  rw [Process.checkerFor]
  cases user : process.inProgressUsers.lookup macAddr with
  | some id =>
      obtain ⟨checker, checks, own⟩ := ((registered macAddr id).mp user).checks
      refine ⟨id, checker, [], ?_, .inl rfl, own, ?_⟩
      · rw [List.append_nil]
      · rw [List.append_nil]
        exact checks
  | none =>
      refine ⟨_, Checker.init macAddr, [Checker.init macAddr], rfl, .inr rfl, rfl, ?_, .inr ⟨rfl, user⟩⟩
      simp

theorem Registered.added (registered : Registered process) {macAddr : MacAddr}
    {added : List Checker} (new : added = [] ∨ added = [Checker.init macAddr]) :
    Registered { process with checkers := process.checkers ++ added } := by
  rcases new with rfl | rfl
  · rw [List.append_nil]
    exact registered
  · intro other id
    rw [Process.polls_append]
    exact registered other id

/-- The users in progress are the ones with a running timer, each with one, and no checker checks
more often than it may. -/
structure Consistent (process : Process Time) : Prop where
  registered : Registered process
  bounded : ∀ checker ∈ process.checkers, checker.tries ≤ maxTries + 1

/-- A checker that is polling may check once more. -/
structure Settled (process : Process Time) : Prop extends Consistent process where
  waiting : ∀ checker ∈ process.checkers, checker.callback = .running → checker.tries ≤ maxTries

theorem settled_start : Settled (Process.start : Process Time) where
  registered macAddr id := by simp [Process.start, Process.Polls]
  bounded := by simp [Process.start]
  waiting := by simp [Process.start]

theorem Settled.added (settled : Settled process) {macAddr : MacAddr} {added : List Checker}
    (new : added = [] ∨ added = [Checker.init macAddr]) :
    Settled { process with checkers := process.checkers ++ added } := by
  have none_yet : ∀ checker ∈ added, checker.tries = 0 := by
    rcases new with rfl | rfl
    · simp
    · simp [Checker.init]
  refine ⟨⟨settled.registered.added new, fun checker member => ?_⟩, fun checker member running => ?_⟩
  · rcases List.mem_append.mp member with before | fresh
    · exact settled.bounded checker before
    · rw [none_yet checker fresh]
      exact Nat.zero_le _
  · rcases List.mem_append.mp member with before | fresh
    · exact settled.waiting checker before running
    · rw [none_yet checker fresh]
      exact Nat.zero_le _

/-- A check that goes on only for a checker that may check again keeps the bound. -/
theorem Settled.effect {next : Process Time} {id : Nat} {checker after : Checker}
    (settled : Settled process) (checks : process.Checks id checker)
    (effect : Effect process next id checker after)
    (few : after.callback = .running → checker.tries + 1 ≤ maxTries) : Settled next := by
  have tried : checker.tries ≤ maxTries := by
    rcases checks.2 with running | ⟨fresh, _⟩
    · exact settled.waiting checker (List.mem_of_getElem? checks.1) running
    · rw [fresh]
      exact Nat.zero_le _
  have counted := effect.tries
  refine ⟨⟨effect.registered settled.registered checks, fun other member => ?_⟩,
    fun other member running => ?_⟩
  · rw [effect.checkers] at member
    rcases List.mem_or_eq_of_mem_set member with before | rfl
    · exact settled.bounded other before
    · omega
  · rw [effect.checkers] at member
    rcases List.mem_or_eq_of_mem_set member with before | rfl
    · exact settled.waiting other before running
    · rw [counted]
      exact few running

end Users

section Runs

variable {Time : Type} [Add Time] [LT Time] [DecidableLT Time] {opt : Options Time}
  {time : Number → Time}

/-- The body is an object whose `accepted` is a number. -/
def Outcome.Usable (outcome : Outcome) : Prop :=
  ∃ entries accepted, outcome = .object entries ∧
    entries.lookup (key "accepted") = some (.number accepted)

/-- The outcome of each query that is made can be used. -/
def Answered (opt : Options Time) (process : Process Time) : Event Time → Prop
  | .accept line now outcome _ => ∀ macAddr, normalizeMacAddr (Text.strip line) = some macAddr →
      process.cached opt now macAddr = none → outcome.Usable
  | .check _ outcome _ => outcome.Usable

def Raises (opt : Options Time) (time : Number → Time) (process : Process Time)
    (event : Event Time) : Prop :=
  ∃ error, event.result opt time process = .error error

omit [Add Time] [LT Time] [DecidableLT Time] in
theorem usable_iff (time : Number → Time) (outcome : Outcome) :
    outcome.Usable ↔ ∃ object, outcome.answer time = .response object := by
  constructor
  · rintro ⟨entries, accepted, rfl, found⟩
    simp [Outcome.answer, found]
  · rintro ⟨object, answered⟩
    cases outcome with
    | httpError => cases answered
    | object entries =>
        rw [Outcome.answer] at answered
        split at answered
        case h_1 accepted found => exact ⟨entries, accepted, rfl, found⟩
        case h_2 => cases answered

omit [Add Time] [LT Time] [DecidableLT Time] in
theorem response_error_iff (time : Number → Time) (outcome : Outcome) :
    (∃ error, response (outcome.answer time) = .error error) ↔ ¬outcome.Usable := by
  rw [usable_iff time]
  cases outcome.answer time with
  | response object => simp [response]
  | httpError => simp [response]
  | malformed => simp [response]

theorem raises_iff (process : Process Time) (event : Event Time) :
    Raises opt time process event ↔ ¬Answered opt process event := by
  cases event with
  | check id outcome now =>
      rw [Answered, ← response_error_iff time]
      simp only [Raises, Event.result]
      cases response (outcome.answer time) with
      | ok object => simp [Except.map]
      | error error => simp [Except.map]
  | accept line now outcome later =>
      simp only [Raises, Event.result, Answered, Process.accept]
      cases normalizeMacAddr (Text.strip line) with
      | none => simp [Except.map]
      | some macAddr =>
          cases missing : process.cached opt now macAddr with
          | some known =>
              simp [Except.map, missing]
          | none =>
              have queried := response_error_iff time outcome
              simp only [Option.some.injEq, forall_eq', missing, forall_const, ← queried]
              cases response (outcome.answer time) with
              | ok object => simp [Except.map]
              | error error => simp [Except.map]

theorem goesOn_few {checker : Checker} {outcome : Outcome} {now : Time} (good : outcome.Usable)
    (more : GoesOn opt checker (outcome.answer time) now) : checker.tries + 1 ≤ maxTries := by
  obtain ⟨object, answer⟩ := (usable_iff time outcome).mp good
  rw [answer] at more
  exact more.2

/-- A step leaves the checkers and the users as they are, or it is one check, of a new checker
perhaps. -/
theorem step_cases {process next : Process Time} {event : Event Time}
    (registered : Registered process) (step : Step opt time process event next) :
    (next.checkers = process.checkers ∧ next.inProgressUsers = process.inProgressUsers) ∨
      ∃ id checker after macAddr added, (added = [] ∨ added = [Checker.init macAddr]) ∧
        { process with checkers := process.checkers ++ added }.Checks id checker ∧
        Effect { process with checkers := process.checkers ++ added } next id checker after ∧
        (Answered opt process event → after.callback = .running → checker.tries + 1 ≤ maxTries) := by
  cases step with
  | @check id macAddr outcome now polls =>
      obtain ⟨checker, checks, _⟩ := polls.checks
      obtain ⟨after, effect, more⟩ := check_effect opt registered checks (outcome.answer time) now
      refine .inr ⟨id, checker, after, macAddr, [], .inl rfl, ?_, ?_,
        fun good running => goesOn_few good (more.mp running)⟩
      · rw [List.append_nil]
        exact checks
      · rw [List.append_nil]
        exact effect
  | @accept line now later outcome =>
      rw [Process.accept]
      cases user : normalizeMacAddr (Text.strip line) with
      | none => exact .inl ⟨rfl, rfl⟩
      | some macAddr =>
          dsimp only
          cases missing : process.cached opt now macAddr with
          | some known => exact .inl ⟨rfl, rfl⟩
          | none =>
              obtain ⟨id, checker, added, taken, new, _, checks⟩ := checkerFor_cases registered macAddr
              rw [taken]
              obtain ⟨after, effect, more⟩ := check_effect opt (registered.added new) checks
                (outcome.answer time) later
              exact .inr ⟨id, checker, after, macAddr, added, new, checks, effect,
                fun good running => goesOn_few (good macAddr user missing) (more.mp running)⟩

/-- The timers follow the users in progress whatever the queries bring. -/
theorem registered_step {process next : Process Time} {event : Event Time}
    (registered : Registered process) (step : Step opt time process event next) :
    Registered next := by
  rcases step_cases registered step with ⟨checkers, users⟩ | effect
  · intro macAddr id
    rw [Process.Polls, checkers, users]
    exact registered macAddr id
  · obtain ⟨id, checker, after, macAddr, added, new, checks, effect, _⟩ := effect
    exact effect.registered (registered.added new) checks

theorem settled_step {process next : Process Time} {event : Event Time}
    (settled : Settled process) (answered : Answered opt process event)
    (step : Step opt time process event next) : Settled next := by
  rcases step_cases settled.registered step with ⟨checkers, users⟩ | effect
  · refine ⟨⟨registered_step settled.registered step, ?_⟩, ?_⟩
    · rw [checkers]
      exact settled.bounded
    · rw [checkers]
      exact settled.waiting
  · obtain ⟨id, checker, after, macAddr, added, new, checks, effect, few⟩ := effect
    exact (settled.added new).effect checks effect (few answered)

/-- In every run the users in progress are the ones with a running timer. -/
theorem registered_throughout {trace : List (Process Time × Event Time)} {finish : Process Time}
    (run : Run (Step opt time) .start trace finish) : Throughout Registered trace finish := by
  have always : StepsMeet (fun (_ : Process Time) (_ : Event Time) => True) trace :=
    fun _ _ => trivial
  exact run.throughout settled_start.registered (fun held _ step => registered_step held step) always

/-- The users in progress are the ones that are polled, and nothing raises, exactly in the runs in
which each query that is made gets an object whose `accepted` is a number. -/
theorem polling_consistent_iff {trace : List (Process Time × Event Time)} {finish : Process Time}
    (run : Run (Step opt time) .start trace finish) :
    Throughout Consistent trace finish ∧
        StepsMeet (fun process event => ¬Raises opt time process event) trace ↔
      StepsMeet (Answered opt) trace := by
  constructor
  · rintro ⟨_, quiet⟩ entry member
    exact not_not.mp fun unanswered => quiet entry member ((raises_iff _ _).mpr unanswered)
  · intro met
    have settled := run.throughout settled_start settled_step met
    refine ⟨⟨fun entry member => (settled.1 entry member).toConsistent, settled.2.toConsistent⟩,
      fun entry member raised => (raises_iff _ _).mp raised (met entry member)⟩

end Runs

section Instances

def exampleOptions : Options Rat :=
  ⟨true, 60 * 86400⟩

def exampleTime (number : Number) : Rat :=
  number.finite.getD 0

def exampleLine : Text :=
  "00:11:22:33:44:55\n".toList

/-- An acceptance that is too old, so that the user is polled. -/
def refusal : Outcome :=
  .object [(key "accepted", .number (.int 0))]

def connection (outcome : Outcome) : Event Rat :=
  .accept exampleLine (10 ^ 9) outcome (10 ^ 9)

def connected (outcome : Outcome) : Process Rat :=
  (Process.start.accept exampleOptions exampleLine (10 ^ 9) (outcome.answer exampleTime) (10 ^ 9)).2

theorem run_connected (outcome : Outcome) :
    Run (Step exampleOptions exampleTime) .start [(.start, connection outcome)]
      (connected outcome) :=
  Run.nil.snoc .accept

theorem polling_consistent_refusal :
    Throughout Consistent [(.start, connection refusal)] (connected refusal) ∧
      StepsMeet (fun process event => ¬Raises exampleOptions exampleTime process event)
        [(.start, connection refusal)] := by
  refine (polling_consistent_iff (run_connected refusal)).mpr fun entry member => ?_
  rw [List.mem_singleton.mp member]
  exact fun macAddr _ _ => ⟨_, _, rfl, rfl⟩

/-- An HTTP error and an object without `accepted` both raise in `accept`. -/
theorem failed_queries :
    (Run (Step exampleOptions exampleTime) .start [(.start, connection .httpError)]
        (connected .httpError) ∧
      (connection .httpError).result exampleOptions exampleTime .start = .error .unboundLocal) ∧
    Run (Step exampleOptions exampleTime) .start [(.start, connection (.object []))]
        (connected (.object [])) ∧
      (connection (.object [])).result exampleOptions exampleTime .start = .error .type := by
  exact ⟨⟨run_connected _, rfl⟩, run_connected _, rfl⟩

/-- The user is polled after the first check. -/
theorem connected_refusal :
    (connected refusal).checkers.map (fun checker => (checker.callback, checker.tries)) =
      [(.running, 1)] := by
  decide +kernel

/-- Polls whose answers cannot be used go on without a bound. -/
theorem unusable_polls (count : Nat) :
    ∃ trace finish, Run (Step exampleOptions exampleTime) .start trace finish ∧
      ∃ checker, finish.checkers[0]? = some checker ∧ checker.callback = .running ∧
        checker.tries = count + 1 := by
  induction count with
  | zero =>
      obtain ⟨checker, rest, made, first, _⟩ := List.map_eq_cons_iff.mp connected_refusal
      obtain ⟨running, tries⟩ := Prod.mk.inj first
      refine ⟨_, _, run_connected refusal, checker, ?_, running, tries⟩
      rw [made]
      rfl
  | succ count ih =>
      obtain ⟨trace, finish, run, checker, found, running, tries⟩ := ih
      have polled : Step exampleOptions exampleTime finish (.check 0 (.object []) 0) _ :=
        .check ⟨checker, found, rfl, running⟩
      refine ⟨_, _, run.snoc polled, { checker with tries := checker.tries + 1 }, ?_, running, ?_⟩
      · have inside : 0 < finish.checkers.length := (List.getElem?_eq_some_iff.mp found).1
        rw [Process.check, found]
        exact List.getElem?_set_self inside
      · rw [tries]

end Instances

end Gfiber.Bouncer.Polling
