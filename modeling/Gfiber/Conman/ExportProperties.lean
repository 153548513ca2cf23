import Mathlib.Data.Fintype.Prod
import Gfiber.Conman.StatusProperties

/-! The files that a status exports, its own and those of the composite status
above it. -/

set_option autoImplicit false

namespace Gfiber.Conman

open Lib

section Exporting

variable {Proposition Disjunction : Type}

/-- The disjunctions of a proposition are those it is a disjunct of. -/
def Network.Parented (net : Network Proposition Disjunction) : Prop :=
  ∀ p parent, parent ∈ net.parents p ↔ p ∈ net.disjuncts parent

def Network.Holds (net : Network Proposition Disjunction) (board : Board Proposition Disjunction)
    (parent : Disjunction) : Prop :=
  ∃ p ∈ net.disjuncts parent, board.value p = some true

/-- Each file is there just when what it is exported for is true. -/
structure Exported (net : Network Proposition Disjunction)
    (board : Board Proposition Disjunction) : Prop where
  file : ∀ p, board.file p = true ↔ board.value p = some true
  parentFile : ∀ parent, board.parentFile parent = true ↔ net.Holds board parent

theorem exportFile_eq (value present : Bool) : exportFile value present = value := by
  cases value <;> cases present <;> rfl

variable {net : Network Proposition Disjunction}

theorem exported_start : Exported net (.start : Board Proposition Disjunction) := by
  constructor
  · intro p
    simp [Board.start]
  · intro parent
    simp [Board.start, Network.Holds]

namespace Board

variable (net) (board : Board Proposition Disjunction)

theorem file_exportProposition [DecidableEq Proposition] (p q : Proposition) :
    (board.exportProposition p).file q = true ↔
      (if q = p then board.value q = some true else board.file q = true) := by
  by_cases same : q = p
  · subst same
    simp [exportProposition, exportFile_eq]
  · simp [exportProposition, same]

variable [DecidableEq Disjunction]

theorem parentFile_exportDisjunction (parent other : Disjunction) :
    (board.exportDisjunction net parent).parentFile other = true ↔
      (if other = parent then net.Holds board other else board.parentFile other = true) := by
  by_cases same : other = parent
  · subst same
    simp [exportDisjunction, exportFile_eq, Network.Holds]
  · simp [exportDisjunction, same]

/-- The exports of some disjunctions touch no value and no other file. -/
theorem exportDisjunctions_spec (parents : List Disjunction) :
    (parents.foldl (exportDisjunction net) board).value = board.value ∧
    (parents.foldl (exportDisjunction net) board).file = board.file ∧
    ∀ other, (parents.foldl (exportDisjunction net) board).parentFile other = true ↔
      (if other ∈ parents then net.Holds board other else board.parentFile other = true) := by
  induction parents generalizing board with
  | nil => simp
  | cons parent parents ih =>
      obtain ⟨values, files, parentFiles⟩ := ih (board.exportDisjunction net parent)
      refine ⟨values, files, fun other => ?_⟩
      rw [List.foldl_cons, parentFiles, parentFile_exportDisjunction]
      by_cases later : other ∈ parents
      · simp only [later, if_true, List.mem_cons, or_true]
        exact Iff.rfl
      · simp [later]

end Board

variable [DecidableEq Proposition] [DecidableEq Disjunction]

/-- One value changes, and the files follow: a disjunction that is not exported
again has no disjunct that changed. -/
theorem Exported.change {board : Board Proposition Disjunction} (parented : net.Parented)
    (exported : Exported net board) (orders : SetOrders Proposition Disjunction) (p : Proposition)
    (value : Bool) : Exported net (board.change net orders p value) := by
  let written : Board Proposition Disjunction :=
    { board with value := Function.update board.value p (some value) }
  obtain ⟨values, files, parentFiles⟩ := Board.exportDisjunctions_spec net
    (written.exportProposition p) ((orders.parents p).arrange (net.parents p))
  constructor
  · intro q
    rw [Board.change, files, values, Board.file_exportProposition]
    by_cases same : q = p
    · simp only [same, if_true]
      exact Iff.rfl
    · have other : written.value q = board.value q := Function.update_of_ne same _ _
      rw [if_neg same]
      exact (exported.file q).trans (by rw [← other]; exact Iff.rfl)
  · intro parent
    have holds : net.Holds (board.change net orders p value) parent ↔ net.Holds written parent := by
      unfold Network.Holds
      rw [Board.value_change]
    rw [Board.change, parentFiles]
    by_cases above : parent ∈ (orders.parents p).arrange (net.parents p)
    · rw [if_pos above]
      exact holds.symm
    · have apart : p ∉ net.disjuncts parent := by
        rw [← parented]
        simpa using above
      rw [if_neg above]
      refine (exported.parentFile parent).trans (Iff.trans ?_ holds.symm)
      have same : ∀ q ∈ net.disjuncts parent, written.value q = board.value q := by
        intro q member
        refine Function.update_of_ne ?_ _ _
        rintro rfl
        exact apart member
      constructor
      · rintro ⟨q, member, true_then⟩
        exact ⟨q, member, (same q member).trans true_then⟩
      · rintro ⟨q, member, true_now⟩
        exact ⟨q, member, (same q member).symm.trans true_now⟩

theorem Exported.called {board next : Board Proposition Disjunction} (parented : net.Parented)
    (exported : Exported net board) {call : SetCall Proposition Disjunction}
    (called : Called net board call next) : Exported net next := by
  obtain ⟨depth, returned⟩ := called
  rw [set_eq_propagate] at returned
  exact Literals.propagate_keeps
    (fun _ literal before => before.change parented call.orders literal.1 literal.2)
    returned exported

end Exporting

section Composite

variable {children : Nat} (order : Fin children → IterationOrder (P × List P × List P))

theorem parents_links {Proposition Disjunction : Type} [DecidableEq Proposition]
    (links : List (Link Proposition)) (net : Network Proposition Disjunction) :
    (links.foldl Network.link net).parents = net.parents ∧
      (links.foldl Network.link net).disjuncts = net.disjuncts := by
  induction links generalizing net with
  | nil => exact ⟨rfl, rfl⟩
  | cons link links ih =>
      cases link with
      | implies => exact ih _
      | impliesNot => exact ih _

theorem compositeNetwork_disjuncts (p : P) :
    (compositeNetwork order).disjuncts p = (List.finRange children).map (·, p) := by
  rw [compositeNetwork, Network.build, (parents_links _ _).2]
  rfl

theorem compositeNetwork_parented : (compositeNetwork order).Parented := by
  intro (child, p) parent
  rw [compositeNetwork_disjuncts, compositeNetwork, Network.build, (parents_links _ _).1]
  simp [Network.unlinked, eq_comm]

theorem mem_childLinks {link : Link (Fin children × P)} : link ∈ childLinks order ↔
    ∃ child, ∃ own ∈ setUpLinks .inserted, own.map (child, ·) = link := by
  simp [childLinks, mem_setUpLinks (order _)]

theorem implies_mem_childLinks {child other : Fin children} {p q : P} :
    .implies (child, p) (other, q) ∈ childLinks order ↔
      other = child ∧ .implies p q ∈ setUpLinks .inserted := by
  rw [mem_childLinks]
  constructor
  · rintro ⟨place, link, member, same⟩
    cases link with
    | implies a b =>
        cases same
        exact ⟨rfl, member⟩
    | impliesNot a b => cases same
  · rintro ⟨rfl, member⟩
    exact ⟨other, _, member, rfl⟩

theorem impliesNot_mem_childLinks {child other : Fin children} {p q : P} :
    .impliesNot (child, p) (other, q) ∈ childLinks order ↔
      other = child ∧ .impliesNot p q ∈ setUpLinks .inserted := by
  rw [mem_childLinks]
  constructor
  · rintro ⟨place, link, member, same⟩
    cases link with
    | implies a b => cases same
    | impliesNot a b =>
        cases same
        exact ⟨rfl, member⟩
  · rintro ⟨rfl, member⟩
    exact ⟨other, _, member, rfl⟩

theorem childLinks_clear : Network.Clear (childLinks order) := by
  intro (child, p) (other, q)
  rw [implies_mem_childLinks, impliesNot_mem_childLinks]
  intro implied excluded
  exact setUpLinks_clear .inserted p q implied.2 excluded.2

/-- The relations of a child are those of a status by itself. -/
theorem compositeNetwork_implications {child other : Fin children} {p q : P} :
    (other, q) ∈ (compositeNetwork order).implications (child, p) ↔
      other = child ∧ q ∈ (statusNetwork .inserted).implications p := by
  rw [statusNetwork_implications, compositeNetwork, Network.build,
    (Network.mem_links (childLinks_clear order)).1, implies_mem_childLinks]
  simp [Network.unlinked]

theorem compositeNetwork_counterImplications {child other : Fin children} {p q : P} :
    (other, q) ∈ (compositeNetwork order).counterImplications (child, p) ↔
      other = child ∧ q ∈ (statusNetwork .inserted).counterImplications p := by
  rw [statusNetwork_counterImplications, compositeNetwork, Network.build,
    (Network.mem_links (childLinks_clear order)).2, impliesNot_mem_childLinks]
  simp [Network.unlinked]

theorem compositeNetwork_closure {start finish : Fin children × P}
    (closure : (compositeNetwork order).Closure start finish) :
    finish.1 = start.1 ∧ (statusNetwork .inserted).Closure start.2 finish.2 := by
  induction closure with
  | refl => exact ⟨rfl, .refl⟩
  | tail _ implied ih =>
      obtain ⟨same, own⟩ := (compositeNetwork_implications order).mp implied
      exact ⟨same.trans ih.1, ih.2.tail own⟩

theorem compositeNetwork_consistent : (compositeNetwork order).Consistent := by
  intro start (child, p) (other, q) left right excluded
  have inside := (compositeNetwork_closure order left).2
  have also_inside := (compositeNetwork_closure order right).2
  exact statusNetwork_consistent .inserted _ _ _ inside also_inside
    ((compositeNetwork_counterImplications order).mp excluded).2

/-- The files of the children, and those of the composite status. -/
structure FilesMatch (board : Board (Fin children × P) P) : Prop where
  child : ∀ child p, board.file (child, p) = true ↔ board.value (child, p) = some true
  composite : ∀ p, board.parentFile p = true ↔ ∃ child, board.value (child, p) = some true

theorem Exported.files {board : Board (Fin children × P) P}
    (exported : Exported (compositeNetwork order) board) : FilesMatch board := by
  constructor
  · intro child p
    exact exported.file (child, p)
  · intro p
    rw [exported.parentFile, Network.Holds, compositeNetwork_disjuncts]
    simp

/-- After any assignments to the attributes of the children the next one
returns, and after every one the files are those of the true propositions. -/
theorem exported_files {trace : List (Board (Fin children × P) P × SetCall (Fin children × P) P)}
    {board : Board (Fin children × P) P}
    (run : Run (Called (compositeNetwork order)) .start trace board)
    (call : SetCall (Fin children × P) P) :
    Throughout FilesMatch trace board ∧
    ∃ next, (∀ depth, 2 * Fintype.card (Fin children × P) < depth →
        set (compositeNetwork order) call.orders depth board call.proposition call.value =
          some next) ∧
      FilesMatch next := by
  have parented := compositeNetwork_parented order
  have free : StepsMeet (fun _ _ => True) trace := fun _ _ => trivial
  have exported : Throughout (Exported (compositeNetwork order)) trace board :=
    run.throughout exported_start (fun before _ called => before.called parented called) free
  obtain ⟨-, next, returned, -⟩ :=
    set_propagates _ _ _ (compositeNetwork_consistent order) run call
  refine ⟨⟨fun entry member => (exported.1 entry member).files order, exported.2.files order⟩,
    next, returned, ?_⟩
  exact (exported.2.called parented ⟨_, returned _ (Nat.lt_succ_self _)⟩).files order

/-- The first of two children waits for its address: a file of its own, and one
of the composite status. -/
theorem exported_files_waiting : ∃ next : Board (Fin 2 × P) P,
    set (compositeNetwork fun _ : Fin 2 => .inserted) .inserted 70 .start (0, .waitingForDhcp)
      true = some next ∧
    next.file (0, .waitingForDhcp) = true ∧ next.parentFile .waitingForDhcp = true ∧
    next.file (1, .waitingForDhcp) = false := by
  obtain ⟨-, next, returned, matched⟩ := exported_files (fun _ : Fin 2 => .inserted) .nil
    ⟨(0, .waitingForDhcp), true, .inserted⟩
  obtain ⟨-, same, again, propagated, -⟩ := set_propagates _ _ _
    (compositeNetwork_consistent fun _ : Fin 2 => .inserted) .nil
    ⟨(0, .waitingForDhcp), true, .inserted⟩
  have once := returned 70 (by decide)
  obtain rfl := Option.some.inj (once.symm.trans (again 70 (by decide)))
  have waits : next.value (0, .waitingForDhcp) = some true := propagated.made _ true .refl
  have other : next.value (1, .waitingForDhcp) = none := by
    refine (propagated.unchanged _ fun truth makes => ?_).trans rfl
    cases truth with
    | true => cases (compositeNetwork_closure _ makes).1
    | false =>
        -- What the first child excludes is its own, and so is what implies that.
        obtain ⟨⟨first, p⟩, ⟨second, q⟩, inside, excludes, implies⟩ := makes
        have here := (compositeNetwork_closure _ inside).1
        have there := (compositeNetwork_closure _ implies).1
        dsimp only at here there
        subst here there
        rcases excludes with forward | backward
        · cases ((compositeNetwork_counterImplications _).mp forward).1
        · cases ((compositeNetwork_counterImplications _).mp backward).1
  refine ⟨next, once, (matched.child 0 .waitingForDhcp).mpr waits,
    (matched.composite .waitingForDhcp).mpr ⟨0, waits⟩, ?_⟩
  rw [Bool.eq_false_iff, ne_eq, matched.child, other]
  simp

end Composite

end Gfiber.Conman
