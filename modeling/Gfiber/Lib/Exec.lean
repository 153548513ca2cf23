import Mathlib.Data.List.Basic

/-! Programs over a state that may raise an error or be cut short at any operation,
with the rules for what holds of the states that they leave. -/

set_option autoImplicit false

namespace Gfiber.Lib

inductive Ending (Error Value : Type) where
  | returned (value : Value)
  | raised (error : Error)
  | cut
deriving DecidableEq, Repr

def Exec (State Error Value : Type) : Type :=
  State → Ending Error Value × State

namespace Exec

section Programs

variable {State Error Value Other : Type}

def ret (value : Value) : Exec State Error Value :=
  fun state => (.returned value, state)

def andThen (program : Exec State Error Value) (next : Value → Exec State Error Other) :
    Exec State Error Other :=
  fun state =>
    match program state with
    | (.returned value, after) => next value after
    | (.raised error, after) => (.raised error, after)
    | (.cut, after) => (.cut, after)

instance : Monad (Exec State Error) where
  pure := ret
  bind := andThen

def raise (error : Error) : Exec State Error Value :=
  fun state => (.raised error, state)

def stop : Exec State Error Value :=
  fun state => (.cut, state)

def get : Exec State Error State :=
  fun state => (.returned state, state)

def modify (update : State → State) : Exec State Error Unit :=
  fun state => (.returned (), update state)

/-- What a computation without effects returns or raises. -/
def ofExcept : Except Error Value → Exec State Error Value
  | .ok value => ret value
  | .error error => raise error

/-- `try: program finally: cleanup`. Nothing runs after a cut. -/
def andFinally (program : Exec State Error Value) (cleanup : Exec State Error Unit) :
    Exec State Error Value :=
  fun state =>
    match program state with
    | (.returned value, after) => andThen cleanup (fun _ => ret value) after
    | (.raised error, after) => andThen cleanup (fun _ => raise error) after
    | (.cut, after) => (.cut, after)

/-- The loop over a list, with what is carried from one round to the next. -/
def loop {Item : Type} (body : Value → Item → Exec State Error Value) (value : Value) :
    List Item → Exec State Error Value
  | [] => ret value
  | item :: items => andThen (body value item) fun value => loop body value items

end Programs

section Rules

variable {State Error Value Other : Type}

/-- Every run from the state either returns in the first assertion or ends otherwise in
the second. -/
def Ensures (program : Exec State Error Value) (returns : Value → State → Prop)
    (breaks : State → Prop) (state : State) : Prop :=
  match program state with
  | (.returned value, after) => returns value after
  | (.raised _, after) => breaks after
  | (.cut, after) => breaks after

variable {returns weaker : Value → State → Prop} {breaks looser : State → Prop} {state : State}

theorem ensures_mono {program : Exec State Error Value}
    (ensured : Ensures program returns breaks state)
    (returned : ∀ value after, returns value after → weaker value after)
    (broken : ∀ after, breaks after → looser after) : Ensures program weaker looser state := by
  rw [Ensures] at ensured ⊢
  cases ran : program state with
  | mk ending after =>
      rw [ran] at ensured
      cases ending with
      | returned value => exact returned value after ensured
      | raised error => exact broken after ensured
      | cut => exact broken after ensured

/-- What two assertions say of one run. -/
theorem ensures_and {program : Exec State Error Value} {also : Value → State → Prop}
    {broken : State → Prop} (first : Ensures program returns breaks state)
    (second : Ensures program also broken state) :
    Ensures program (fun value after => returns value after ∧ also value after)
      (fun after => breaks after ∧ broken after) state := by
  rw [Ensures] at first second ⊢
  cases ran : program state with
  | mk ending after =>
      rw [ran] at first second
      cases ending with
      | returned value => exact ⟨first, second⟩
      | raised error => exact ⟨first, second⟩
      | cut => exact ⟨first, second⟩

/-- What holds however a run ends. -/
theorem ensures_final {program : Exec State Error Value} {final : State → Prop}
    (ensured : Ensures program (fun _ => final) final state) : final (program state).2 := by
  rw [Ensures] at ensured
  cases ran : program state with
  | mk ending after =>
      rw [ran] at ensured
      cases ending with
      | returned value => exact ensured
      | raised error => exact ensured
      | cut => exact ensured

/-- The run itself. -/
theorem ensures_run (program : Exec State Error Value) (state : State) :
    Ensures program (fun value after => program state = (.returned value, after))
      (fun _ => True) state := by
  rw [Ensures]
  cases ran : program state with
  | mk ending after =>
      cases ending with
      | returned value => rfl
      | raised error => trivial
      | cut => trivial

theorem run_of_ending {program : Exec State Error Value} {ending : Ending Error Value}
    (ended : (program state).1 = ending) : program state = (ending, (program state).2) := by
  rw [← ended]

@[simp] theorem ensures_pure (value : Value) :
    Ensures (pure value : Exec State Error Value) returns breaks state ↔ returns value state :=
  Iff.rfl

@[simp] theorem ensures_get {known : State → State → Prop} :
    Ensures (get : Exec State Error State) known breaks state ↔ known state state :=
  Iff.rfl

@[simp] theorem ensures_modify {update : State → State} {done : Unit → State → Prop} :
    Ensures (modify update : Exec State Error Unit) done breaks state ↔ done () (update state) :=
  Iff.rfl

theorem ensures_bind {program : Exec State Error Value} {next : Value → Exec State Error Other}
    {final : Other → State → Prop} :
    Ensures (program >>= next) final breaks state ↔
      Ensures program (fun value => Ensures (next value) final breaks) breaks state := by
  change Ensures (andThen program next) final breaks state ↔ _
  rw [Ensures, Ensures, andThen]
  cases program state with
  | mk ending after => cases ending <;> rfl

/-- A program after another one, by what is known in between. -/
theorem ensures_then {program : Exec State Error Value} {next : Value → Exec State Error Other}
    {final : Other → State → Prop} (first : Ensures program returns breaks state)
    (second : ∀ value after, returns value after → Ensures (next value) final breaks after) :
    Ensures (program >>= next) final breaks state :=
  ensures_bind.mpr (ensures_mono first second fun _ broken => broken)

theorem ensures_ofExcept {computed : Except Error Value}
    (returned : ∀ value, computed = .ok value → returns value state) (broken : breaks state) :
    Ensures (ofExcept computed) returns breaks state := by
  cases computed with
  | ok value => exact returned value rfl
  | error error => exact broken

theorem ok_bind (value : Value) (next : Value → Exec State Error Other) :
    (ofExcept (.ok value) >>= next) = next value :=
  rfl

theorem get_bind (next : State → Exec State Error Other) (state : State) :
    (get >>= next) state = next state state :=
  rfl

theorem ensures_finally {program : Exec State Error Value} {cleanup : Exec State Error Unit}
    {inner : Value → State → Prop} {inside : State → Prop}
    (body : Ensures program inner inside state)
    (returned : ∀ value after, inner value after →
      Ensures cleanup (fun _ => returns value) breaks after)
    (broken : ∀ after, inside after → Ensures cleanup (fun _ => breaks) breaks after)
    (cut : ∀ after, inside after → breaks after) :
    Ensures (andFinally program cleanup) returns breaks state := by
  rw [Ensures] at body
  rw [Ensures, andFinally]
  cases ran : program state with
  | mk ending after =>
      rw [ran] at body
      cases ending with
      | returned value =>
          have cleaned : Ensures cleanup
              (fun _ => Ensures (ret value : Exec State Error Value) returns breaks) breaks after :=
            returned value after body
          exact ensures_bind.mpr cleaned
      | raised error =>
          have cleaned : Ensures cleanup
              (fun _ => Ensures (raise error : Exec State Error Value) returns breaks) breaks after :=
            broken after body
          exact ensures_bind.mpr cleaned
      | cut => exact cut after body

theorem loop_append {Item : Type} {body : Value → Item → Exec State Error Value}
    {items : List Item} {value next : Value} {after : State} (rest : List Item)
    (ran : loop body value items state = (.returned next, after)) :
    loop body value (items ++ rest) state = loop body next rest after := by
  induction items generalizing value state with
  | nil =>
      cases ran
      rfl
  | cons item items ih =>
      rw [List.cons_append, loop, andThen]
      rw [loop, andThen] at ran
      cases here : body value item state with
      | mk ending between =>
          rw [here] at ran
          cases ending with
          | returned value => exact ih ran
          | raised error => cases ran
          | cut => cases ran

/-- A loop keeps an invariant that may speak of the items that are done and of those that
are left. -/
theorem ensures_loop {Item : Type} {body : Value → Item → Exec State Error Value}
    {invariant : List Item → Value → State → Prop} (items : List Item) (before : List Item)
    (value : Value) (holds : invariant before value state)
    (step : ∀ seen item rest value at_item, before ++ items = seen ++ item :: rest →
      invariant seen value at_item →
      Ensures (body value item) (invariant (seen ++ [item])) breaks at_item) :
    Ensures (loop body value items) (invariant (before ++ items)) breaks state := by
  induction items generalizing before value state with
  | nil =>
      rw [List.append_nil]
      exact holds
  | cons item items ih =>
      have here := step before item items value state rfl holds
      rw [loop]
      refine ensures_then here ?_
      intro next after kept
      have later := ih (before ++ [item]) next kept fun seen other rest value at_item split =>
        step seen other rest value at_item (by simpa using split)
      simpa using later

end Rules

end Exec

end Gfiber.Lib
