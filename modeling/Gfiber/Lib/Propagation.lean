import Mathlib.Data.Fintype.Card
import Mathlib.Logic.Relation

/-! Depth-first propagation of literals over a graph of consequences, with an
early return at every literal that already holds. -/

set_option autoImplicit false

namespace Gfiber.Lib

/-- States that hold literals. Giving a state a literal takes its opposite away
and leaves the others as they are. -/
structure Literals (State Literal : Type) where
  holds : State → Literal → Prop
  decidable : ∀ state literal, Decidable (holds state literal)
  assign : State → Literal → State
  opposite : Literal → Literal
  opposite_opposite : ∀ literal, opposite (opposite literal) = literal
  exclusive : ∀ {state literal}, holds state literal → ¬holds state (opposite literal)
  holds_assign : ∀ {state literal other}, holds (assign state literal) other ↔
    other = literal ∨ other ≠ opposite literal ∧ holds state other

namespace Literals

variable {State Literal : Type} (sys : Literals State Literal) (next : Literal → List Literal)

instance (state : State) (literal : Literal) : Decidable (sys.holds state literal) :=
  sys.decidable state literal

/-- The literals are gone through in the order of `next`. -/
def propagate : Nat → State → Literal → Option State
  | 0, _, _ => none
  | fuel + 1, state, literal =>
      if sys.holds state literal then some state
      else (next literal).foldlM (propagate fuel) (sys.assign state literal)

def Leads (next : Literal → List Literal) : Literal → Literal → Prop :=
  Relation.ReflTransGen fun literal consequence => consequence ∈ next literal

/-- A literal that does not lead to a literal and its opposite. -/
def Consistent (root : Literal) : Prop :=
  ∀ literal, Leads next root literal → ¬Leads next root (sys.opposite literal)

def Closed (state : State) : Prop :=
  ∀ literal, sys.holds state literal → ∀ consequence ∈ next literal, sys.holds state consequence

section Visits

/-- What has happened when the propagation comes back from some literals. -/
structure Visited (root : Literal) (state after : State) (literals : List Literal) : Prop where
  kept : ∀ literal, Leads next root literal → sys.holds state literal → sys.holds after literal
  held : ∀ literal ∈ literals, sys.holds after literal
  closed : ∀ literal, Leads next root literal → sys.holds after literal →
    ¬sys.holds state literal → ∀ consequence ∈ next literal, sys.holds after consequence
  added : ∀ literal, sys.holds after literal → sys.holds state literal ∨ Leads next root literal
  untouched : ∀ literal, sys.holds state literal → ¬Leads next root (sys.opposite literal) →
    sys.holds after literal

variable {sys next} {root literal : Literal} {literals : List Literal}
  {state middle after : State}

theorem Visited.refl (root : Literal) (state : State) (held : ∀ literal ∈ literals,
    sys.holds state literal) : sys.Visited next root state state literals :=
  ⟨fun _ _ holds => holds, held, fun _ _ holds new => absurd holds new, fun _ => .inl,
    fun _ holds _ => holds⟩

theorem Visited.cons (leads : Leads next root literal)
    (first : sys.Visited next root state middle [literal])
    (rest : sys.Visited next root middle after literals) :
    sys.Visited next root state after (literal :: literals) where
  kept other reached holds := rest.kept other reached (first.kept other reached holds)
  held other member := by
    rcases List.mem_cons.mp member with rfl | later
    · exact rest.kept _ leads (first.held _ List.mem_cons_self)
    · exact rest.held other later
  closed other reached holds new consequence follows := by
    by_cases early : sys.holds middle other
    · exact rest.kept _ (reached.tail follows)
        (first.closed other reached early new consequence follows)
    · exact rest.closed other reached holds early consequence follows
  added other holds := by
    rcases rest.added other holds with early | reached
    · exact first.added other early
    · exact .inr reached
  untouched other holds clear := rest.untouched other (first.untouched other holds clear) clear

theorem holds_assign_of_leads (consistent : sys.Consistent next root)
    (leads : Leads next root literal) {other : Literal} (reached : Leads next root other)
    (holds : sys.holds state other) : sys.holds (sys.assign state literal) other := by
  refine sys.holds_assign.mpr (.inr ⟨?_, holds⟩)
  rintro rfl
  exact consistent literal leads reached

/-- Assigning a literal and then visiting its consequences visits the literal. -/
theorem Visited.assign (consistent : sys.Consistent next root) (leads : Leads next root literal)
    (rest : sys.Visited next root (sys.assign state literal) after (next literal)) :
    sys.Visited next root state after [literal] where
  kept other reached holds :=
    rest.kept other reached (holds_assign_of_leads consistent leads reached holds)
  held other member := by
    obtain rfl := List.mem_singleton.mp member
    exact rest.kept other leads (sys.holds_assign.mpr (.inl rfl))
  closed other reached holds new := by
    by_cases same : other = literal
    · exact same ▸ rest.held
    · refine rest.closed other reached holds fun early => ?_
      rcases sys.holds_assign.mp early with equal | ⟨-, old⟩
      · exact same equal
      · exact new old
  added other holds := by
    rcases rest.added other holds with early | reached
    · rcases sys.holds_assign.mp early with rfl | ⟨-, old⟩
      · exact .inr leads
      · exact .inl old
    · exact .inr reached
  untouched other holds clear := by
    refine rest.untouched other (sys.holds_assign.mpr (.inr ⟨?_, holds⟩)) clear
    rintro rfl
    rw [sys.opposite_opposite] at clear
    exact clear leads

end Visits

section Termination

open Classical in
/-- The literals still to be given to the state. -/
noncomputable def pending [Fintype Literal] (root : Literal) (state : State) : Finset Literal :=
  Finset.univ.filter fun literal => Leads next root literal ∧ ¬sys.holds state literal

variable {sys next} [Fintype Literal] {root literal : Literal} {state middle after : State}

theorem mem_pending :
    literal ∈ sys.pending next root state ↔ Leads next root literal ∧ ¬sys.holds state literal := by
  simp [pending]

theorem card_pending_le {literals : List Literal}
    (visited : sys.Visited next root state after literals) :
    (sys.pending next root after).card ≤ (sys.pending next root state).card := by
  refine Finset.card_le_card fun other member => ?_
  rw [mem_pending] at member ⊢
  exact ⟨member.1, fun holds => member.2 (visited.kept other member.1 holds)⟩

theorem card_pending_assign (consistent : sys.Consistent next root)
    (leads : Leads next root literal) (new : ¬sys.holds state literal) :
    (sys.pending next root (sys.assign state literal)).card <
      (sys.pending next root state).card := by
  refine Finset.card_lt_card (Finset.ssubset_iff_subset_ne.mpr ⟨fun other member => ?_, ?_⟩)
  · rw [mem_pending] at member ⊢
    exact ⟨member.1,
      fun holds => member.2 (holds_assign_of_leads consistent leads member.1 holds)⟩
  · intro same
    have inside : literal ∈ sys.pending next root state := mem_pending.mpr ⟨leads, new⟩
    rw [← same, mem_pending] at inside
    exact inside.2 (sys.holds_assign.mpr (.inl rfl))

/-- The propagation comes back when it may go as deep as there are literals to give. -/
theorem propagate_visits (consistent : sys.Consistent next root) {fuel : Nat} :
    ∀ {state : State} {literal : Literal}, Leads next root literal →
      (sys.pending next root state).card < fuel →
      ∃ after, sys.propagate next fuel state literal = some after ∧
        sys.Visited next root state after [literal] := by
  induction fuel with
  | zero => exact fun _ enough => absurd enough (Nat.not_lt_zero _)
  | succ fuel ih =>
      -- The loop over the consequences, each visit with the fuel that is left.
      have loop {literals : List Literal} : ∀ {state : State},
          (∀ literal ∈ literals, Leads next root literal) →
          (sys.pending next root state).card < fuel →
          ∃ after, literals.foldlM (sys.propagate next fuel) state = some after ∧
            sys.Visited next root state after literals := by
        induction literals with
        | nil => exact fun {state} _ _ => ⟨state, rfl, .refl root state (by simp)⟩
        | cons first rest inner =>
            intro state leads enough
            obtain ⟨head, tail⟩ := List.forall_mem_cons.mp leads
            obtain ⟨middle, visit, visited⟩ := ih head enough
            obtain ⟨after, visits, others⟩ :=
              inner tail ((card_pending_le visited).trans_lt enough)
            refine ⟨after, ?_, .cons head visited others⟩
            rw [List.foldlM_cons, visit]
            exact visits
      intro state literal leads enough
      by_cases holds : sys.holds state literal
      · refine ⟨state, by rw [propagate, if_pos holds], .refl root state ?_⟩
        simpa using holds
      · have fewer : (sys.pending next root (sys.assign state literal)).card < fuel :=
          (card_pending_assign consistent leads holds).trans_le (Nat.le_of_lt_succ enough)
        obtain ⟨after, visits, visited⟩ :=
          loop (fun consequence follows => leads.tail follows) fewer
        exact ⟨after, by rw [propagate, if_neg holds, visits], .assign consistent leads visited⟩

/-- From a closed state, the literals led to hold afterwards, their opposites do
not, and nothing else changes. -/
theorem propagate_spec (consistent : sys.Consistent next root) (closed : sys.Closed next state)
    {fuel : Nat} (enough : Fintype.card Literal < fuel) :
    ∃ after, sys.propagate next fuel state root = some after ∧
      ∀ literal, sys.holds after literal ↔ Leads next root literal ∨
        sys.holds state literal ∧ ¬Leads next root (sys.opposite literal) := by
  have left : (sys.pending next root state).card < fuel :=
    (Finset.card_le_univ _).trans_lt enough
  obtain ⟨after, visit, visited⟩ := propagate_visits consistent .refl left
  have reached : ∀ literal, Leads next root literal → sys.holds after literal := by
    intro literal leads
    induction leads with
    | refl => exact visited.held root List.mem_cons_self
    | tail leads follows ih =>
        rename_i before consequence
        by_cases old : sys.holds state before
        · exact visited.kept _ (leads.tail follows) (closed before old consequence follows)
        · exact visited.closed before leads ih old consequence follows
  refine ⟨after, visit, fun literal => ⟨fun holds => ?_, ?_⟩⟩
  · rcases visited.added literal holds with old | leads
    · by_cases against : Leads next root (sys.opposite literal)
      · exact absurd (reached _ against) (sys.exclusive holds)
      · exact .inr ⟨old, against⟩
    · exact .inl leads
  · rintro (leads | ⟨old, clear⟩)
    · exact reached literal leads
    · exact visited.untouched literal old clear

end Termination

section Fuel

variable {sys next}

/-- More fuel gives the same result. -/
theorem propagate_more {fuel more : Nat} (enough : fuel ≤ more) {state after : State}
    {literal : Literal} (visit : sys.propagate next fuel state literal = some after) :
    sys.propagate next more state literal = some after := by
  induction fuel generalizing more state literal after with
  | zero => cases visit
  | succ fuel ih =>
      obtain ⟨more, rfl⟩ := Nat.exists_eq_succ_of_ne_zero (by omega : more ≠ 0)
      have loop {literals : List Literal} : ∀ {state after : State},
          literals.foldlM (sys.propagate next fuel) state = some after →
          literals.foldlM (sys.propagate next more) state = some after := by
        induction literals with
        | nil => exact fun visits => visits
        | cons first rest inner =>
            intro state after visits
            rw [List.foldlM_cons] at visits ⊢
            obtain ⟨middle, head, tail⟩ := Option.bind_eq_some_iff.mp visits
            exact Option.bind_eq_some_iff.mpr ⟨middle, ih (by omega) head, inner tail⟩
      rw [propagate] at visit ⊢
      split at visit
      case isTrue holds => rwa [if_pos holds]
      case isFalse new =>
        rw [if_neg new]
        exact loop visit

end Fuel

section Keeping

variable {sys next}

/-- What every assignment preserves, the propagation preserves. -/
theorem propagate_keeps {property : State → Prop}
    (kept : ∀ state literal, property state → property (sys.assign state literal)) {fuel : Nat}
    {state after : State} {literal : Literal}
    (returned : sys.propagate next fuel state literal = some after) (before : property state) :
    property after := by
  induction fuel generalizing state after literal with
  | zero => cases returned
  | succ fuel ih =>
      rw [propagate] at returned
      split at returned
      · cases returned
        exact before
      · have start := kept state literal before
        generalize sys.assign state literal = middle at returned start
        generalize next literal = literals at returned
        induction literals generalizing middle with
        | nil =>
            cases returned
            exact start
        | cons first rest rest_ih =>
            rw [List.foldlM_cons] at returned
            obtain ⟨passed, visited, later⟩ := Option.bind_eq_some_iff.mp returned
            exact rest_ih passed (ih visited start) later

end Keeping

section Closedness

variable {sys next} {root : Literal} {state after : State}

theorem Closed.leads (closed : sys.Closed next state) {literal : Literal}
    (holds : sys.holds state root) (leads : Leads next root literal) :
    sys.holds state literal := by
  induction leads with
  | refl => exact holds
  | tail _ follows ih => exact closed _ ih _ follows

/-- Where every consequence has its contrapositive, the state is closed again. -/
theorem Closed.propagated
    (skew : ∀ literal, ∀ consequence ∈ next literal,
      sys.opposite literal ∈ next (sys.opposite consequence))
    (closed : sys.Closed next state)
    (spec : ∀ literal, sys.holds after literal ↔ Leads next root literal ∨
      sys.holds state literal ∧ ¬Leads next root (sys.opposite literal)) :
    sys.Closed next after := by
  intro literal holds consequence follows
  rw [spec] at holds ⊢
  rcases holds with leads | ⟨old, clear⟩
  · exact .inl (leads.tail follows)
  · refine .inr ⟨closed literal old consequence follows, fun against => clear ?_⟩
    exact against.tail (skew literal consequence follows)

end Closedness

end Literals

end Gfiber.Lib
