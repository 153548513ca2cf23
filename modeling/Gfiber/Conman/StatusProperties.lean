import Mathlib.Data.Fintype.Prod
import Gfiber.Lib.Propagation
import Gfiber.Lib.Run
import Gfiber.Conman.Status

/-! What setting a proposition does to a network of propositions. -/

set_option autoImplicit false

namespace Gfiber.Conman

open Lib

variable {Proposition Disjunction : Type}

namespace Network

variable (net : Network Proposition Disjunction)

def Implies (p q : Proposition) : Prop :=
  q ∈ net.implications p

/-- Implied in any number of steps. -/
def Closure : Proposition → Proposition → Prop :=
  Relation.ReflTransGen net.Implies

/-- One of the two excludes the other. -/
def Excludes (p q : Proposition) : Prop :=
  q ∈ net.counterImplications p ∨ p ∈ net.counterImplications q

/-- Nothing implies two propositions one of which excludes the other. -/
def Consistent : Prop :=
  ∀ p q r, net.Closure p q → net.Closure p r → r ∉ net.counterImplications q

/-- What else gets which value when a proposition is set. -/
def Makes (p : Proposition) : Bool → Proposition → Bool → Prop
  | true, q, true => net.Closure p q
  | true, q, false =>
      ∃ member excluded, net.Closure p member ∧ net.Excludes member excluded ∧
        net.Closure q excluded
  | false, _, true => False
  | false, q, false => net.Closure q p

/-- The sets of the other direction. -/
structure Mirrored : Prop where
  impliers : ∀ p q, q ∈ net.impliers p ↔ p ∈ net.implications q
  counterImpliers : ∀ p q, q ∈ net.counterImpliers p ↔ p ∈ net.counterImplications q

end Network

section Building

variable [DecidableEq Proposition]

@[simp] theorem mem_addTo {set : Proposition → List Proposition} {p member q r : Proposition} :
    r ∈ addTo set p member q ↔ q = p ∧ r = member ∨ r ∈ set q := by
  unfold addTo
  by_cases same : q = p
  · subst same
    simp
  · simp [same]

@[simp] theorem mem_discardFrom {set : Proposition → List Proposition}
    {p member q r : Proposition} :
    r ∈ discardFrom set p member q ↔ ¬(q = p ∧ r = member) ∧ r ∈ set q := by
  unfold discardFrom
  by_cases same : q = p
  · subst same
    simp [and_comm]
  · simp [same]

namespace Network

variable {net : Network Proposition Disjunction}

theorem Mirrored.link (mirrored : net.Mirrored) (link : Link Proposition) :
    (net.link link).Mirrored := by
  cases link with
  | implies p implication =>
      constructor
      · intro q r
        simp [Network.link, implies, impliedBy, mirrored.impliers, and_comm]
      · intro q r
        simp [Network.link, implies, impliedBy, mirrored.counterImpliers, and_comm]
  | impliesNot p counterImplication =>
      constructor
      · intro q r
        simp [Network.link, impliesNot, counterImpliedBy, mirrored.impliers, and_comm]
      · intro q r
        simp [Network.link, impliesNot, counterImpliedBy, mirrored.counterImpliers, and_comm]

theorem Mirrored.links (mirrored : net.Mirrored) (links : List (Link Proposition)) :
    (links.foldl Network.link net).Mirrored := by
  induction links generalizing net with
  | nil => exact mirrored
  | cons link links ih => exact ih (mirrored.link link)

theorem mirrored_build (parents : Proposition → List Disjunction)
    (disjuncts : Disjunction → List Proposition) (links : List (Link Proposition)) :
    (build parents disjuncts links).Mirrored := by
  refine Mirrored.links ⟨?_, ?_⟩ links
  · simp [unlinked]
  · simp [unlinked]

/-- No two calls contradict each other. -/
def Clear (links : List (Link Proposition)) : Prop :=
  ∀ p q, .implies p q ∈ links → .impliesNot p q ∉ links

/-- Each relation is what the calls have made it. -/
theorem mem_links {links : List (Link Proposition)} (clear : Clear links) {p q : Proposition} :
    (q ∈ (links.foldl Network.link net).implications p ↔
        .implies p q ∈ links ∨ q ∈ net.implications p ∧ .impliesNot p q ∉ links) ∧
      (q ∈ (links.foldl Network.link net).counterImplications p ↔
        .impliesNot p q ∈ links ∨ q ∈ net.counterImplications p ∧ .implies p q ∉ links) := by
  induction links generalizing net with
  | nil => simp
  | cons link links ih =>
      have rest : Clear links := fun p q first second =>
        clear p q (List.mem_cons_of_mem _ first) (List.mem_cons_of_mem _ second)
      obtain ⟨implied, excluded⟩ := @ih (net.link link) rest
      rw [List.foldl_cons, implied, excluded]
      cases link with
      | implies a b =>
          have apart : .impliesNot a b ∉ links := fun later =>
            clear a b List.mem_cons_self (List.mem_cons_of_mem _ later)
          simp only [Network.link, implies, impliedBy, mem_addTo, mem_discardFrom, List.mem_cons,
            Link.implies.injEq]
          constructor
          · grind
          · grind
      | impliesNot a b =>
          have apart : .implies a b ∉ links := fun later =>
            clear a b (List.mem_cons_of_mem _ later) List.mem_cons_self
          simp only [Network.link, impliesNot, counterImpliedBy, mem_addTo, mem_discardFrom,
            List.mem_cons, Link.impliesNot.injEq]
          constructor
          · grind
          · grind

end Network

end Building

section Reaching

variable (net : Network Proposition Disjunction) (orders : SetOrders Proposition Disjunction)

/-- What `set` goes on to when a literal is new. -/
def consequences : Proposition × Bool → List (Proposition × Bool)
  | (p, true) =>
      ((orders.implications p).arrange (net.implications p)).map (·, true) ++
        (((orders.counterImplications p).arrange (net.counterImplications p)).map (·, false) ++
        ((orders.counterImpliers p).arrange (net.counterImpliers p)).map (·, false))
  | (p, false) => ((orders.impliers p).arrange (net.impliers p)).map (·, false)

variable {net}

theorem Network.Consistent.makes (consistent : net.Consistent) {p q : Proposition} {value : Bool}
    (true_too : net.Makes p value q true) : ¬net.Makes p value q false := by
  cases value with
  | false => exact true_too.elim
  | true =>
      rintro ⟨member, excluded, closure, excludes, implies⟩
      -- What is made false leads to something excluded, and so does what is made true.
      have both : net.Closure p excluded := Relation.ReflTransGen.trans true_too implies
      rcases excludes with forward | backward
      · exact consistent p member excluded closure both forward
      · exact consistent p excluded member both closure backward

theorem leads_of_closure {p q : Proposition} (closure : net.Closure p q) :
    Literals.Leads (consequences net orders) (p, true) (q, true) := by
  induction closure with
  | refl => exact .refl
  | tail _ implied ih =>
      refine ih.tail ?_
      simpa [consequences, Network.Implies] using implied

variable (mirrored : net.Mirrored)

include mirrored

theorem makes_of_leads {p : Proposition} {value : Bool} {literal : Proposition × Bool}
    (leads : Literals.Leads (consequences net orders) (p, value) literal) :
    net.Makes p value literal.1 literal.2 := by
  induction leads with
  | refl =>
      cases value with
      | true => exact .refl
      | false => exact .refl
  | @tail before after _ follows ih =>
      obtain ⟨q, _ | _⟩ := before
      case false =>
        simp only [consequences, List.mem_map, IterationOrder.mem_arrange] at follows
        obtain ⟨r, implier, rfl⟩ := follows
        rw [mirrored.impliers] at implier
        cases value with
        | true =>
            obtain ⟨member, excluded, closure, excludes, implies⟩ := ih
            exact ⟨member, excluded, closure, excludes, .head implier implies⟩
        | false => exact .head implier ih
      case true =>
        cases value with
        | false => exact ih.elim
        | true =>
            simp only [consequences, List.mem_append, List.mem_map,
              IterationOrder.mem_arrange] at follows
            rcases follows with ⟨r, implied, rfl⟩ | ⟨r, excluded, rfl⟩ | ⟨r, excludes, rfl⟩
            · exact .tail ih implied
            · exact ⟨q, r, ih, .inl excluded, .refl⟩
            · exact ⟨q, r, ih, .inr ((mirrored.counterImpliers _ _).mp excludes), .refl⟩

theorem leads_of_implies {p q : Proposition} (closure : net.Closure q p) :
    Literals.Leads (consequences net orders) (p, false) (q, false) := by
  induction closure using Relation.ReflTransGen.head_induction_on with
  | refl => exact .refl
  | head implied _ ih =>
      refine ih.tail ?_
      simpa [consequences, mirrored.impliers, Network.Implies] using implied

theorem leads_of_makes {p q : Proposition} {value truth : Bool}
    (makes : net.Makes p value q truth) :
    Literals.Leads (consequences net orders) (p, value) (q, truth) := by
  cases value with
  | true =>
      cases truth with
      | true => exact leads_of_closure orders makes
      | false =>
          obtain ⟨member, excluded, closure, excludes, implies⟩ := makes
          have first : (excluded, false) ∈ consequences net orders (member, true) := by
            simpa [consequences, mirrored.counterImpliers, Network.Excludes] using excludes
          exact ((leads_of_closure orders closure).tail first).trans
            (leads_of_implies orders mirrored implies)
  | false =>
      cases truth with
      | true => exact makes.elim
      | false => exact leads_of_implies orders mirrored makes

theorem leads_iff {p q : Proposition} {value truth : Bool} :
    Literals.Leads (consequences net orders) (p, value) (q, truth) ↔ net.Makes p value q truth :=
  ⟨makes_of_leads orders mirrored, leads_of_makes orders mirrored⟩

end Reaching

section Values

variable [DecidableEq Proposition] [DecidableEq Disjunction]
  (net : Network Proposition Disjunction) (orders : SetOrders Proposition Disjunction)

theorem Board.value_change (board : Board Proposition Disjunction) (p : Proposition)
    (value : Bool) :
    (board.change net orders p value).value = Function.update board.value p (some value) := by
  unfold change
  generalize (orders.parents p).arrange (net.parents p) = parents
  have loop : ∀ board : Board Proposition Disjunction,
      (parents.foldl (exportDisjunction net) board).value = board.value := by
    induction parents with
    | nil => exact fun _ => rfl
    | cons parent parents ih => exact fun board => ih _
  exact loop _

/-- The literals of a board: propositions with a value. -/
def literals : Literals (Board Proposition Disjunction) (Proposition × Bool) where
  holds board literal := board.value literal.1 = some literal.2
  decidable _ _ := inferInstance
  assign board literal := board.change net orders literal.1 literal.2
  opposite literal := (literal.1, !literal.2)
  opposite_opposite literal := by simp
  exclusive {board literal} holds := by simp [holds]
  holds_assign {board literal other} := by
    obtain ⟨p, value⟩ := literal
    obtain ⟨q, truth⟩ := other
    rw [Board.value_change]
    by_cases same : q = p
    · subst same
      cases value <;> cases truth <;> simp
    · simp [same]

theorem set_eq_propagate (depth : Nat) (board : Board Proposition Disjunction) (p : Proposition)
    (value : Bool) :
    set net orders depth board p value =
      (literals net orders).propagate (consequences net orders) depth board (p, value) := by
  induction depth generalizing board p value with
  | zero => rfl
  | succ depth ih =>
      rw [set, Literals.propagate]
      by_cases holds : board.value p = some value
      · have same : (literals net orders).holds board (p, value) := holds
        rw [if_pos holds, if_pos same]
      · have new : ¬(literals net orders).holds board (p, value) := holds
        rw [if_neg holds, if_neg new]
        simp only [ih]
        cases value with
        | true =>
            simp only [consequences, List.foldlM_append, List.foldlM_map, if_true]
            rfl
        | false =>
            simp only [consequences, List.foldlM_map]
            rfl

variable {net} (mirrored : net.Mirrored)

include mirrored

theorem consequences_skew (literal : Proposition × Bool) :
    ∀ consequence ∈ consequences net orders literal,
      (literals net orders).opposite literal ∈
        consequences net orders ((literals net orders).opposite consequence) := by
  obtain ⟨p, value⟩ := literal
  rintro ⟨q, truth⟩ follows
  cases value with
  | true =>
      simp only [consequences, List.mem_append, List.mem_map, IterationOrder.mem_arrange,
        Prod.mk.injEq] at follows
      rcases follows with ⟨_, implied, rfl, rfl⟩ | ⟨_, excluded, rfl, rfl⟩ | ⟨_, excludes, rfl, rfl⟩
      · simpa [literals, consequences, mirrored.impliers] using implied
      · simpa [literals, consequences, mirrored.counterImpliers] using .inr excluded
      · rw [mirrored.counterImpliers] at excludes
        simpa [literals, consequences, mirrored.counterImpliers] using .inl excludes
  | false =>
      simp only [consequences, List.mem_map, IterationOrder.mem_arrange, Prod.mk.injEq] at follows
      obtain ⟨_, implier, rfl, rfl⟩ := follows
      simpa [literals, consequences, mirrored.impliers] using implier

theorem consequences_consistent (consistent : net.Consistent) (literal : Proposition × Bool) :
    (literals net orders).Consistent (consequences net orders) literal := by
  obtain ⟨p, value⟩ := literal
  rintro ⟨q, truth⟩ leads against
  have first := (leads_iff orders mirrored).mp leads
  have second := (leads_iff orders mirrored).mp against
  cases truth with
  | true => exact consistent.makes first second
  | false => exact consistent.makes second first

end Values

/-- What setting `p` to `value` has done: the closure is made true, what is
excluded is made false, and nothing else is changed. -/
structure Propagated (net : Network Proposition Disjunction) (p : Proposition) (value : Bool)
    (board next : Board Proposition Disjunction) : Prop where
  made : ∀ q truth, net.Makes p value q truth → next.value q = some truth
  unchanged : ∀ q, (∀ truth, ¬net.Makes p value q truth) → next.value q = board.value q

/-- What is true implies only true propositions and excludes none. -/
structure Coherent (net : Network Proposition Disjunction)
    (board : Board Proposition Disjunction) : Prop where
  implied : ∀ p q, board.value p = some true → net.Implies p q → board.value q = some true
  excluded : ∀ p q, net.Excludes p q → ¬(board.value p = some true ∧ board.value q = some true)

/-- A call of `set`, with the orders the sets are gone through in. -/
structure SetCall (Proposition Disjunction : Type) where
  proposition : Proposition
  value : Bool
  orders : SetOrders Proposition Disjunction

/-- Everything that follows from the values has been propagated. -/
def Settled (net : Network Proposition Disjunction) (board : Board Proposition Disjunction) :
    Prop :=
  ∀ p value q truth, board.value p = some value → net.Makes p value q truth →
    board.value q = some truth

theorem settled_start {net : Network Proposition Disjunction} :
    Settled net (.start : Board Proposition Disjunction) := by
  intro p value q truth holds
  cases holds

theorem Settled.coherent {net : Network Proposition Disjunction}
    {board : Board Proposition Disjunction} (settled : Settled net board) :
    Coherent net board := by
  constructor
  · intro p q holds implied
    exact settled p true q true holds (.single implied)
  · rintro p q excludes ⟨left, right⟩
    have against := settled p true q false left ⟨p, q, .refl, excludes, .refl⟩
    rw [right] at against
    cases against

section Calls

variable [DecidableEq Proposition] [DecidableEq Disjunction]

/-- The call returns. -/
def Called (net : Network Proposition Disjunction) (board : Board Proposition Disjunction)
    (call : SetCall Proposition Disjunction) (next : Board Proposition Disjunction) : Prop :=
  ∃ depth, set net call.orders depth board call.proposition call.value = some next

variable {net : Network Proposition Disjunction} {board next : Board Proposition Disjunction}
  (mirrored : net.Mirrored)

include mirrored

theorem settled_iff_closed (orders : SetOrders Proposition Disjunction) :
    Settled net board ↔ (literals net orders).Closed (consequences net orders) board := by
  constructor
  · rintro settled ⟨p, value⟩ holds ⟨q, truth⟩ follows
    exact settled p value q truth holds ((leads_iff orders mirrored).mp (.single follows))
  · intro closed p value q truth holds makes
    have start : (literals net orders).holds board (p, value) := holds
    exact closed.leads start ((leads_iff orders mirrored).mpr makes)

/-- Setting a proposition terminates, whatever the orders of the sets. -/
theorem Settled.set [Fintype Proposition] (consistent : net.Consistent)
    (settled : Settled net board) (call : SetCall Proposition Disjunction) :
    ∃ next, (∀ depth, Fintype.card (Proposition × Bool) < depth →
        set net call.orders depth board call.proposition call.value = some next) ∧
      Propagated net call.proposition call.value board next ∧ Settled net next := by
  have closed := (settled_iff_closed mirrored call.orders).mp settled
  have clear := consequences_consistent call.orders mirrored consistent
    (call.proposition, call.value)
  obtain ⟨next, returned, spec⟩ := Literals.propagate_spec clear closed (Nat.lt_succ_self _)
  have values (q : Proposition) (truth : Bool) : next.value q = some truth ↔
      net.Makes call.proposition call.value q truth ∨
        board.value q = some truth ∧ ¬net.Makes call.proposition call.value q (!truth) := by
    have both := spec (q, truth)
    simp only [leads_iff call.orders mirrored, literals] at both
    exact both
  refine ⟨next, fun depth enough => ?_, ⟨fun q truth makes => ?_, fun q neither => ?_⟩, ?_⟩
  · rw [set_eq_propagate]
    exact Literals.propagate_more enough returned
  · exact (values q truth).mpr (.inl makes)
  · refine Option.ext fun truth => ?_
    rw [values]
    constructor
    · rintro (makes | ⟨old, -⟩)
      · exact absurd makes (neither truth)
      · exact old
    · exact fun old => .inr ⟨old, neither _⟩
  · rw [settled_iff_closed mirrored call.orders]
    exact closed.propagated (consequences_skew call.orders mirrored) spec

theorem Settled.called [Fintype Proposition] (consistent : net.Consistent)
    (settled : Settled net board) {call : SetCall Proposition Disjunction}
    (called : Called net board call next) : Settled net next := by
  obtain ⟨depth, returned⟩ := called
  obtain ⟨result, always, -, after⟩ := settled.set mirrored consistent call
  have more : Conman.set net call.orders (depth + (Fintype.card (Proposition × Bool) + 1)) board
      call.proposition call.value = some next := by
    rw [set_eq_propagate] at returned ⊢
    exact Literals.propagate_more (Nat.le_add_right _ _) returned
  rw [always _ (by omega), Option.some.injEq] at more
  exact more ▸ after

end Calls

section Table

/-- What is implied stays in a set around the proposition that is closed under
the implications. -/
theorem Network.Closure.mem_around {net : Network Proposition Disjunction}
    {around : Proposition → List Proposition} (self : ∀ p, p ∈ around p)
    (closed : ∀ p, ∀ q ∈ around p, ∀ r ∈ net.implications q, r ∈ around p) {p q : Proposition}
    (closure : net.Closure p q) : q ∈ around p := by
  induction closure with
  | refl => exact self p
  | tail _ implied ih => exact closed p _ ih _ implied

/-- A network is consistent when each proposition has such a set that is free
of exclusions. -/
theorem Network.consistent_of_closed {net : Network Proposition Disjunction}
    (around : Proposition → List Proposition) (self : ∀ p, p ∈ around p)
    (closed : ∀ p, ∀ q ∈ around p, ∀ r ∈ net.implications q, r ∈ around p)
    (apart : ∀ p, ∀ q ∈ around p, ∀ r ∈ around p, r ∉ net.counterImplications q) :
    net.Consistent :=
  fun p q r left right =>
    apart p q (left.mem_around self closed) r (right.mem_around self closed)

variable (order : IterationOrder (P × List P × List P))

theorem mem_setUpLinks {link : Link P} : link ∈ setUpLinks order ↔ link ∈ setUpLinks .inserted := by
  simp [setUpLinks, IterationOrder.mem_arrange]

theorem implies_mem_setUpLinks {p q : P} :
    .implies p q ∈ setUpLinks order ↔ ∃ row ∈ implicationsTable, row.1 = p ∧ q ∈ row.2.1 := by
  simp [setUpLinks, IterationOrder.mem_arrange]

theorem impliesNot_mem_setUpLinks {p q : P} :
    .impliesNot p q ∈ setUpLinks order ↔ ∃ row ∈ implicationsTable, row.1 = p ∧ q ∈ row.2.2 := by
  simp [setUpLinks, IterationOrder.mem_arrange]

theorem setUpLinks_clear : Network.Clear (setUpLinks order) := by
  intro p q implied excluded
  obtain ⟨row, inside, rfl, implies⟩ := (implies_mem_setUpLinks order).mp implied
  obtain ⟨other, inside', same, excludes⟩ := (impliesNot_mem_setUpLinks order).mp excluded
  have apart : ∀ row ∈ implicationsTable, ∀ other ∈ implicationsTable, other.1 = row.1 →
      ∀ q ∈ row.2.1, q ∉ other.2.2 := by decide +kernel
  exact apart row inside other inside' same q implies excludes

theorem statusNetwork_implications {p q : P} :
    q ∈ (statusNetwork order).implications p ↔ .implies p q ∈ setUpLinks .inserted := by
  rw [statusNetwork, Network.build, (Network.mem_links (setUpLinks_clear order)).1,
    mem_setUpLinks]
  simp [Network.unlinked]

theorem statusNetwork_counterImplications {p q : P} :
    q ∈ (statusNetwork order).counterImplications p ↔ .impliesNot p q ∈ setUpLinks .inserted := by
  rw [statusNetwork, Network.build, (Network.mem_links (setUpLinks_clear order)).2,
    mem_setUpLinks]
  simp [Network.unlinked]

/-- All that a proposition of the table implies. -/
def aroundStatus : P → List P
  | .connectedToWlan => [.connectedToWlan, .haveWorkingConfig, .haveConfig]
  | .haveWorkingConfig => [.haveWorkingConfig, .haveConfig]
  | .canReachAcs => [.canReachAcs, .couldReachAcs]
  | .waitingForProvisioning => [.waitingForProvisioning, .connectedToOpen]
  | .waitingForDhcp => [.waitingForDhcp, .waitingForProvisioning, .connectedToOpen]
  | .acsConnectionCheck => [.acsConnectionCheck, .waitingForProvisioning, .connectedToOpen]
  | .waitingForCwmpWakeup => [.waitingForCwmpWakeup, .waitingForProvisioning, .connectedToOpen]
  | .waitingForAcsSession => [.waitingForAcsSession, .waitingForProvisioning, .connectedToOpen]
  | p => [p]

theorem aroundStatus_closed (p q : P) (member : q ∈ aroundStatus p) (r : P)
    (implied : r ∈ (statusNetwork order).implications q) : r ∈ aroundStatus p := by
  obtain ⟨row, inside, rfl, implies⟩ :=
    (implies_mem_setUpLinks .inserted).mp ((statusNetwork_implications order).mp implied)
  have closed : ∀ row ∈ implicationsTable, ∀ r ∈ row.2.1, ∀ p, row.1 ∈ aroundStatus p →
      r ∈ aroundStatus p := by decide +kernel
  exact closed row inside r implies p member

theorem mem_aroundStatus {p q : P} (closure : (statusNetwork order).Closure p q) :
    q ∈ aroundStatus p :=
  closure.mem_around (by decide) (aroundStatus_closed order)

theorem statusNetwork_consistent : (statusNetwork order).Consistent := by
  refine Network.consistent_of_closed aroundStatus (by decide) (aroundStatus_closed order) ?_
  intro p q member r also excluded
  obtain ⟨row, inside, rfl, excludes⟩ :=
    (impliesNot_mem_setUpLinks .inserted).mp ((statusNetwork_counterImplications order).mp excluded)
  have apart : ∀ row ∈ implicationsTable, ∀ r ∈ row.2.2, ∀ p, row.1 ∈ aroundStatus p →
      r ∉ aroundStatus p := by decide +kernel
  exact apart row inside r excludes p member also

end Table

section Assigning

variable {order : IterationOrder (P × List P × List P)} {board : Board P Empty}

/-- The board after an attribute of a `Status` is assigned. -/
def Board.assign (order : IterationOrder (P × List P × List P)) (orders : SetOrders P Empty)
    (board : Board P Empty) (p : P) (value : Bool) : Board P Empty :=
  (set (statusNetwork order) orders 35 board p value).getD board

theorem Settled.assign (settled : Settled (statusNetwork order) board)
    (orders : SetOrders P Empty) (p : P) (value : Bool) :
    Settled (statusNetwork order) (board.assign order orders p value) ∧
      Propagated (statusNetwork order) p value board (board.assign order orders p value) := by
  have mirrored : (statusNetwork order).Mirrored := Network.mirrored_build ..
  obtain ⟨next, returned, propagated, after⟩ :=
    settled.set mirrored (statusNetwork_consistent order) ⟨p, value, orders⟩
  have result : Conman.set (statusNetwork order) orders 35 board p value = some next :=
    returned 35 (by decide)
  rw [Board.assign, result]
  exact ⟨after, propagated⟩

end Assigning

/-- In a network built by `implies` and `implies_not` without contradictions,
after any calls of `set` the next one returns, does just what follows, and
leaves the values coherent, as they were after every call before. -/
theorem set_propagates [DecidableEq Proposition] [DecidableEq Disjunction] [Fintype Proposition]
    (parents : Proposition → List Disjunction) (disjuncts : Disjunction → List Proposition)
    (links : List (Link Proposition))
    (consistent : (Network.build parents disjuncts links).Consistent)
    {trace : List (Board Proposition Disjunction × SetCall Proposition Disjunction)}
    {board : Board Proposition Disjunction}
    (run : Run (Called (Network.build parents disjuncts links)) .start trace board)
    (call : SetCall Proposition Disjunction) :
    Throughout (Coherent (Network.build parents disjuncts links)) trace board ∧
    ∃ next, (∀ depth, 2 * Fintype.card Proposition < depth →
        set (Network.build parents disjuncts links) call.orders depth board call.proposition
          call.value = some next) ∧
      Propagated (Network.build parents disjuncts links) call.proposition call.value board next ∧
      Coherent (Network.build parents disjuncts links) next := by
  have mirrored := Network.mirrored_build parents disjuncts links
  have free : StepsMeet (fun _ _ => True) trace := fun _ _ => trivial
  have settled : Throughout (Settled (Network.build parents disjuncts links)) trace board :=
    run.throughout settled_start
      (fun before _ called => before.called mirrored consistent called) free
  obtain ⟨next, returned, propagated, after⟩ := settled.2.set mirrored consistent call
  refine ⟨⟨fun entry member => (settled.1 entry member).coherent, settled.2.coherent⟩, next,
    fun depth enough => returned depth ?_, propagated, after.coherent⟩
  rw [Fintype.card_prod, Fintype.card_bool]
  omega

/-- The interface is connected with a configuration, and then tries another one. -/
theorem set_propagates_in_status : ∃ first second,
    set (statusNetwork .inserted) .inserted 35 .start .connectedToWlan true = some first ∧
    set (statusNetwork .inserted) .inserted 35 first .tryingWlan true = some second ∧
    Coherent (statusNetwork .inserted) second ∧ first.value .haveConfig = some true ∧
    second.value .connectedToWlan = some false := by
  have consistent := statusNetwork_consistent .inserted
  obtain ⟨-, first, connects, connected, -⟩ :=
    set_propagates _ _ _ consistent .nil ⟨.connectedToWlan, true, .inserted⟩
  have once := connects 35 (by decide)
  obtain ⟨-, second, tries, tried, coherent⟩ :=
    set_propagates _ _ _ consistent (Run.nil.snoc ⟨35, once⟩) ⟨.tryingWlan, true, .inserted⟩
  have working : (statusNetwork .inserted).Implies .connectedToWlan .haveWorkingConfig :=
    (statusNetwork_implications _).mpr (by decide)
  have config : (statusNetwork .inserted).Implies .haveWorkingConfig .haveConfig :=
    (statusNetwork_implications _).mpr (by decide)
  have excludes : (statusNetwork .inserted).Excludes .tryingWlan .connectedToWlan :=
    .inl ((statusNetwork_counterImplications _).mpr (by decide))
  exact ⟨first, second, once, tries 35 (by decide), coherent,
    connected.made .haveConfig true (.tail (.single working) config),
    tried.made .connectedToWlan false ⟨.tryingWlan, .connectedToWlan, .refl, excludes, .refl⟩⟩

end Gfiber.Conman
