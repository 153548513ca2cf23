import Mathlib.Data.List.Basic

/-! Finite runs of a labelled transition relation. The trace keeps the state
before each step, so that a condition on the steps of a run and a property of
the states it reaches are stated over the same object. -/

set_option autoImplicit false

namespace Gfiber.Lib

variable {State Label : Type}

inductive Run (Step : State → Label → State → Prop) :
    State → List (State × Label) → State → Prop where
  | nil {state : State} : Run Step state [] state
  | snoc {start middle finish : State} {label : Label} {trace : List (State × Label)}
      (run : Run Step start trace middle) (step : Step middle label finish) :
      Run Step start (trace ++ [(middle, label)]) finish

/-- Every state a run reaches, its first and last one included, satisfies `property`. -/
def Throughout (property : State → Prop) (trace : List (State × Label)) (finish : State) : Prop :=
  (∀ entry ∈ trace, property entry.1) ∧ property finish

def StepsMeet (condition : State → Label → Prop) (trace : List (State × Label)) : Prop :=
  ∀ entry ∈ trace, condition entry.1 entry.2

variable {Step : State → Label → State → Prop}

theorem StepsMeet.split {condition : State → Label → Prop} {trace : List (State × Label)}
    {state : State} {label : Label} (met : StepsMeet condition (trace ++ [(state, label)])) :
    StepsMeet condition trace ∧ condition state label :=
  ⟨fun entry member => met entry (List.mem_append_left _ member), met (state, label) (by simp)⟩

theorem Throughout.snoc {property : State → Prop} {trace : List (State × Label)}
    {middle finish : State} {label : Label} (before : Throughout property trace middle)
    (after : property finish) : Throughout property (trace ++ [(middle, label)]) finish := by
  refine ⟨fun entry member => ?_, after⟩
  rcases List.mem_append.mp member with earlier | last
  · exact before.1 entry earlier
  · have same : entry = (middle, label) := by simpa using last
    exact same ▸ before.2

theorem Throughout.unsnoc {property : State → Prop} {trace : List (State × Label)}
    {middle finish : State} {label : Label}
    (whole : Throughout property (trace ++ [(middle, label)]) finish) :
    Throughout property trace middle :=
  ⟨fun entry member => whole.1 entry (List.mem_append_left _ member),
    whole.1 (middle, label) (by simp)⟩

theorem StepsMeet.snoc {condition : State → Label → Prop} {trace : List (State × Label)}
    {state : State} {label : Label} (before : StepsMeet condition trace)
    (last : condition state label) : StepsMeet condition (trace ++ [(state, label)]) := by
  intro entry member
  rcases List.mem_append.mp member with earlier | final
  · exact before entry earlier
  · have same : entry = (state, label) := by simpa using final
    exact same ▸ last

theorem Run.cons {start middle finish : State} {label : Label} {trace : List (State × Label)}
    (step : Step start label middle) (run : Run Step middle trace finish) :
    Run Step start ((start, label) :: trace) finish := by
  induction run with
  | nil => exact Run.nil.snoc step
  | snoc _ last ih => exact ih.snoc last

theorem Run.append {start middle finish : State} {trace more : List (State × Label)}
    (run : Run Step start trace middle) (later : Run Step middle more finish) :
    Run Step start (trace ++ more) finish := by
  induction later with
  | nil => simpa using run
  | snoc _ step ih =>
      rw [← List.append_assoc]
      exact ih.snoc step

theorem Run.eq_of_nil {start finish : State} (run : Run Step start [] finish) :
    finish = start := by
  generalize empty : [] = trace at run
  cases run with
  | nil => rfl
  | snoc => simp at empty

theorem Run.uncons {start finish : State} {entry : State × Label} {trace : List (State × Label)}
    (run : Run Step start (entry :: trace) finish) :
    entry.1 = start ∧ ∃ next, Step start entry.2 next ∧ Run Step next trace finish := by
  generalize whole : entry :: trace = joined at run
  induction run generalizing trace with
  | nil => cases whole
  | @snoc middle finish label front run step ih =>
      cases front with
      | nil =>
          cases whole
          have same := run.eq_of_nil
          subst same
          exact ⟨rfl, finish, step, .nil⟩
      | cons first front =>
          cases whole
          obtain ⟨same, next, once, rest⟩ := ih rfl
          exact ⟨same, next, once, rest.snoc step⟩

theorem Run.unappend {start finish : State} {trace more : List (State × Label)}
    (run : Run Step start (trace ++ more) finish) :
    ∃ middle, Run Step start trace middle ∧ Run Step middle more finish := by
  induction trace generalizing start with
  | nil => exact ⟨start, .nil, run⟩
  | cons entry trace ih =>
      obtain ⟨same, next, step, rest⟩ := Run.uncons run
      obtain ⟨middle, first, second⟩ := ih rest
      subst same
      exact ⟨middle, Run.cons step first, second⟩

def traceOf (next : State → Label → State) : State → List Label → List (State × Label)
  | _, [] => []
  | state, label :: rest => (state, label) :: traceOf next (next state label) rest

theorem Run.of_trace {next : State → Label → State} (start : State) (labels : List Label)
    (steps : StepsMeet (fun state label => Step state label (next state label))
      (traceOf next start labels)) :
    Run Step start (traceOf next start labels) (labels.foldl next start) := by
  induction labels generalizing start with
  | nil => exact .nil
  | cons label rest ih =>
      have first := steps (start, label) List.mem_cons_self
      exact Run.cons first (ih _ fun entry member => steps entry (List.mem_cons_of_mem _ member))

theorem traceOf_append (next : State → Label → State) (start : State)
    (labels more : List Label) : traceOf next start (labels ++ more) =
      traceOf next start labels ++ traceOf next (labels.foldl next start) more := by
  induction labels generalizing start with
  | nil => rfl
  | cons label labels ih => exact congrArg (List.cons _) (ih _)

theorem traceOf_take (next : State → Label → State) (start : State) (labels : List Label)
    (count : Nat) : traceOf next start (labels.take count) = (traceOf next start labels).take count := by
  induction labels generalizing start count with
  | nil => simp [traceOf]
  | cons label rest ih =>
      cases count with
      | zero => rfl
      | succ count => simp [traceOf, ih]

theorem labels_traceOf (next : State → Label → State) (start : State) (labels : List Label) :
    (traceOf next start labels).map Prod.snd = labels := by
  induction labels generalizing start with
  | nil => rfl
  | cons label rest ih => rw [traceOf, List.map_cons, ih]

theorem mem_traceOf {next : State → Label → State} {start : State} {labels : List Label}
    {entry : State × Label} (member : entry ∈ traceOf next start labels) : entry.2 ∈ labels := by
  induction labels generalizing start with
  | nil => cases member
  | cons label rest ih =>
      rcases List.mem_cons.mp member with rfl | later
      · exact List.mem_cons_self
      · exact List.mem_cons_of_mem _ (ih later)

theorem Run.of_labels {next : State → Label → State} (start : State) (labels : List Label)
    (steps : ∀ state, ∀ label ∈ labels, Step state label (next state label)) :
    Run Step start (traceOf next start labels) (labels.foldl next start) :=
  Run.of_trace start labels fun entry member => steps entry.1 entry.2 (mem_traceOf member)

theorem Run.of_foldlM {next : State → Label → Option State} {start finish : State}
    {labels : List Label} (fed : labels.foldlM next start = some finish) :
    ∃ trace, trace.map Prod.snd = labels ∧
      Run (fun state label after => next state label = some after) start trace finish := by
  induction labels generalizing start with
  | nil =>
      cases fed
      exact ⟨[], rfl, .nil⟩
  | cons label labels ih =>
      rw [List.foldlM_cons] at fed
      obtain ⟨middle, step, rest⟩ := Option.bind_eq_some_iff.mp fed
      obtain ⟨trace, same, run⟩ := ih rest
      exact ⟨(start, label) :: trace, by rw [List.map_cons, same], Run.cons step run⟩

/-- What steps with the same label keep between two states, runs with the same
labels keep. -/
theorem Run.related {relation : State → State → Prop} {condition : Label → Prop}
    (kept : ∀ {left right label leftNext rightNext}, relation left right → condition label →
      Step left label leftNext → Step right label rightNext → relation leftNext rightNext)
    {left right leftEnd rightEnd : State} {leftTrace rightTrace : List (State × Label)}
    (leftRun : Run Step left leftTrace leftEnd) (rightRun : Run Step right rightTrace rightEnd)
    (same : leftTrace.map Prod.snd = rightTrace.map Prod.snd)
    (allowed : ∀ label ∈ leftTrace.map Prod.snd, condition label) (start : relation left right) :
    relation leftEnd rightEnd := by
  induction leftRun generalizing rightTrace rightEnd with
  | nil =>
      have empty : rightTrace = [] := List.map_eq_nil_iff.mp same.symm
      subst empty
      rw [rightRun.eq_of_nil]
      exact start
  | snoc _ step ih =>
      cases rightRun with
      | nil => simp at same
      | snoc rightRun rightStep =>
          simp only [List.map_append, List.map_cons, List.map_nil] at same allowed
          obtain ⟨front, last⟩ := List.append_inj' same rfl
          cases last
          have before := ih rightRun front fun label member =>
            allowed label (List.mem_append_left _ member)
          exact kept before (allowed _ (by simp)) step rightStep

theorem Run.with_met {condition : State → Label → Prop} {start finish : State}
    {trace : List (State × Label)} (run : Run Step start trace finish)
    (met : StepsMeet condition trace) :
    Run (fun state label next => Step state label next ∧ condition state label)
      start trace finish := by
  induction run with
  | nil => exact .nil
  | snoc _ step ih =>
      obtain ⟨earlier, last⟩ := met.split
      exact (ih earlier).snoc ⟨step, last⟩

theorem Run.split_met {condition : State → Label → Prop} {start finish : State}
    {trace : List (State × Label)}
    (run : Run (fun state label next => Step state label next ∧ condition state label)
      start trace finish) : Run Step start trace finish ∧ StepsMeet condition trace := by
  induction run with
  | nil => exact ⟨.nil, by simp [StepsMeet]⟩
  | snoc _ step ih => exact ⟨ih.1.snoc step.1, ih.2.snoc step.2⟩

theorem Run.throughout_start {property : State → Prop} {start finish : State}
    {trace : List (State × Label)} (run : Run Step start trace finish)
    (whole : Throughout property trace finish) : property start := by
  induction run with
  | nil => exact whole.2
  | snoc _ _ ih => exact ih whole.unsnoc

/-- What each step that meets the condition preserves, a run of such steps preserves. -/
theorem Run.throughout {property : State → Prop} {condition : State → Label → Prop}
    {start finish : State} {trace : List (State × Label)} (run : Run Step start trace finish)
    (initial : property start)
    (preserved : ∀ {state label next}, property state → condition state label →
      Step state label next → property next)
    (met : StepsMeet condition trace) : Throughout property trace finish := by
  induction run with
  | nil => exact ⟨by simp, initial⟩
  | snoc _ step ih =>
      obtain ⟨earlier, last⟩ := met.split
      have before := ih earlier
      exact before.snoc (preserved before.2 last step)

/-- When the condition is sufficient and necessary for one step to keep the
property and show the observation, it characterizes the runs that do so throughout. -/
theorem Run.throughout_iff {property : State → Prop} {observation condition : State → Label → Prop}
    {start finish : State} {trace : List (State × Label)} (run : Run Step start trace finish)
    (initial : property start)
    (exact_step : ∀ {state label next}, property state → Step state label next →
      (property next ∧ observation state label ↔ condition state label)) :
    Throughout property trace finish ∧ StepsMeet observation trace ↔ StepsMeet condition trace := by
  induction run with
  | nil => exact ⟨fun _ => by simp [StepsMeet], fun _ => ⟨⟨by simp, initial⟩, by simp [StepsMeet]⟩⟩
  | snoc _ step ih =>
      constructor
      · rintro ⟨whole, observed⟩
        obtain ⟨earlier, last⟩ := observed.split
        exact (ih.mp ⟨whole.unsnoc, earlier⟩).snoc
          ((exact_step whole.unsnoc.2 step).mp ⟨whole.2, last⟩)
      · intro met
        obtain ⟨earlier, last⟩ := met.split
        obtain ⟨before, observed⟩ := ih.mpr earlier
        obtain ⟨after, shown⟩ := (exact_step before.2 step).mpr last
        exact ⟨before.snoc after, observed.snoc shown⟩

/-- The same for a property that needs an invariant: the condition is enough to
keep the invariant and follows where the property is kept. -/
theorem Run.throughout_iff_met {property invariant : State → Prop}
    {condition : State → Label → Prop} {start finish : State} {trace : List (State × Label)}
    (run : Run Step start trace finish) (initial : invariant start)
    (implies : ∀ {state}, invariant state → property state)
    (sufficient : ∀ {state label next}, invariant state → condition state label →
      Step state label next → invariant next)
    (necessary : ∀ {state label next}, invariant state → Step state label next →
      property next → condition state label) :
    Throughout property trace finish ↔ StepsMeet condition trace := by
  constructor
  · intro whole
    suffices met : StepsMeet condition trace ∧ invariant finish from met.1
    induction run with
    | nil => exact ⟨by simp [StepsMeet], initial⟩
    | snoc _ step ih =>
        obtain ⟨earlier, held⟩ := ih whole.unsnoc
        have last := necessary held step whole.2
        exact ⟨earlier.snoc last, sufficient held last step⟩
  · intro met
    have held := run.throughout initial sufficient met
    exact ⟨fun entry member => implies (held.1 entry member), implies held.2⟩

theorem Run.throughout_observed {property : State → Prop} {observation : State → Label → Prop}
    {start finish : State} {trace : List (State × Label)} (run : Run Step start trace finish)
    (initial : property start)
    (kept : ∀ {state label next}, property state → Step state label next →
      property next ∧ observation state label) :
    Throughout property trace finish ∧ StepsMeet observation trace := by
  have always : StepsMeet (fun _ _ => True) trace := fun _ _ => trivial
  refine (run.throughout_iff initial fun held step => ?_).mpr always
  exact ⟨fun _ => trivial, fun _ => kept held step⟩

/-- A run seen through a view that every step of it respects. -/
theorem Run.simulated {Abstract : Type} {AbstractStep : Abstract → Label → Abstract → Prop}
    {view : State → Abstract} {invariant : State → Prop} {condition : State → Label → Prop}
    (kept : ∀ {state label next}, invariant state → condition state label →
      Step state label next → invariant next ∧ AbstractStep (view state) label (view next))
    {start finish : State} {trace : List (State × Label)} (run : Run Step start trace finish)
    (initial : invariant start) (met : StepsMeet condition trace) :
    invariant finish ∧
      Run AbstractStep (view start) (trace.map fun entry => (view entry.1, entry.2))
        (view finish) := by
  induction run with
  | nil => exact ⟨initial, .nil⟩
  | snoc _ step ih =>
      obtain ⟨earlier, last⟩ := met.split
      obtain ⟨before, seen⟩ := ih earlier
      obtain ⟨after, seenStep⟩ := kept before last step
      rw [List.map_append]
      exact ⟨after, seen.snoc seenStep⟩

end Gfiber.Lib
