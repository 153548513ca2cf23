import Mathlib.Data.List.Basic
import Mathlib.Order.RelClasses

/-! Ordered sets of keys as binary search trees under a comparator, after
`std::map`: `find` takes the first key that is not below the one looked for and
rejects it if it is above. How a tree is balanced is left open; only the order
of its keys counts. -/

set_option autoImplicit false

namespace Gfiber.Lib

inductive SearchTree (Key : Type) where
  | leaf
  | node (left : SearchTree Key) (key : Key) (right : SearchTree Key)
deriving DecidableEq, Repr

namespace SearchTree

variable {Key : Type} (less : Key → Key → Bool)

def keys : SearchTree Key → List Key
  | leaf => []
  | node left key right => left.keys ++ key :: right.keys

/-- Neither key is below the other: the map takes them for one. -/
def equivalent (left right : Key) : Bool :=
  !less left right && !less right left

def lowerBound (wanted : Key) : SearchTree Key → Option Key
  | leaf => none
  | node left key right =>
      if less key wanted then lowerBound wanted right
      else (lowerBound wanted left).or (some key)

def find (tree : SearchTree Key) (wanted : Key) : Option Key :=
  (tree.lowerBound less wanted).filter fun key => !less wanted key

/-- A key equivalent to one of the tree is not inserted. -/
def insert (new : Key) : SearchTree Key → SearchTree Key
  | leaf => node leaf new leaf
  | node left key right =>
      if less new key then node (insert new left) key right
      else if less key new then node left key (insert new right)
      else node left key right

/-- Hangs a tree below the smallest key of another. -/
def graft (below : SearchTree Key) : SearchTree Key → SearchTree Key
  | leaf => below
  | node left key right => node (graft below left) key right

def erase (wanted : Key) : SearchTree Key → SearchTree Key
  | leaf => leaf
  | node left key right =>
      if less wanted key then node (erase wanted left) key right
      else if less key wanted then node left key (erase wanted right)
      else graft left right

def Ascending (tree : SearchTree Key) : Prop :=
  tree.keys.Pairwise fun left right => less left right = true

inductive Change (Key : Type) where
  | insert (key : Key)
  | erase (key : Key)
deriving DecidableEq, Repr

def change (tree : SearchTree Key) : Change Key → SearchTree Key
  | .insert key => tree.insert less key
  | .erase key => tree.erase less key

def run (changes : List (Change Key)) : SearchTree Key :=
  changes.foldl (change less) leaf

@[simp] theorem keys_graft (below tree : SearchTree Key) :
    (graft below tree).keys = below.keys ++ tree.keys := by
  induction tree with
  | leaf => simp [graft, keys]
  | node left key right leftIH _ => simp [graft, keys, leftIH]

variable {less}

theorem ascending_node {left right : SearchTree Key} {key : Key} :
    (node left key right).Ascending less ↔ left.Ascending less ∧ right.Ascending less ∧
      (∀ other ∈ left.keys, less other key = true) ∧
      (∀ other ∈ right.keys, less key other = true) ∧
      ∀ first ∈ left.keys, ∀ second ∈ right.keys, less first second = true := by
  simp only [Ascending, keys, List.pairwise_append, List.pairwise_cons, List.mem_cons,
    forall_eq_or_imp]
  grind

theorem mem_keys_insert {new key : Key} {tree : SearchTree Key}
    (member : key ∈ (tree.insert less new).keys) : key = new ∨ key ∈ tree.keys := by
  induction tree with
  | leaf => simpa [insert, keys] using member
  | node left here right leftIH rightIH =>
      unfold insert at member
      split at member
      · simp only [keys, List.mem_append, List.mem_cons] at member ⊢
        grind
      · split at member
        · simp only [keys, List.mem_append, List.mem_cons] at member ⊢
          grind
        · exact .inr member

theorem mem_keys_insert_of_mem {new key : Key} {tree : SearchTree Key} (member : key ∈ tree.keys) :
    key ∈ (tree.insert less new).keys := by
  induction tree with
  | leaf => exact absurd member List.not_mem_nil
  | node left here right leftIH rightIH =>
      unfold insert
      simp only [keys, List.mem_append, List.mem_cons] at member
      split
      · simp only [keys, List.mem_append, List.mem_cons]
        grind
      · split
        · simp only [keys, List.mem_append, List.mem_cons]
          grind
        · simpa only [keys, List.mem_append, List.mem_cons] using member

theorem mem_keys_erase {wanted key : Key} {tree : SearchTree Key}
    (member : key ∈ (tree.erase less wanted).keys) : key ∈ tree.keys := by
  induction tree with
  | leaf => exact member
  | node left here right leftIH rightIH =>
      unfold erase at member
      split at member
      · simp only [keys, List.mem_append, List.mem_cons] at member ⊢
        grind
      · split at member
        · simp only [keys, List.mem_append, List.mem_cons] at member ⊢
          grind
        · simp only [keys_graft, keys, List.mem_append, List.mem_cons] at member ⊢
          grind

/-- What the descent returns is a key of the tree that is not below the one looked for. -/
theorem lowerBound_sound {wanted key : Key} {tree : SearchTree Key}
    (bound : tree.lowerBound less wanted = some key) :
    key ∈ tree.keys ∧ less key wanted = false := by
  induction tree with
  | leaf => cases bound
  | node left here right leftIH rightIH =>
      unfold lowerBound at bound
      simp only [keys, List.mem_append, List.mem_cons]
      split at bound
      case isTrue =>
        have inside := rightIH bound
        exact ⟨.inr (.inr inside.1), inside.2⟩
      case isFalse notBelow =>
        cases lower : left.lowerBound less wanted with
        | none =>
            rw [lower] at bound
            cases bound
            exact ⟨.inr (.inl rfl), Bool.eq_false_iff.mpr notBelow⟩
        | some first =>
            rw [lower] at bound
            cases bound
            have inside := leftIH lower
            exact ⟨.inl inside.1, inside.2⟩

theorem equivalent_comm (left right : Key) :
    equivalent less left right = equivalent less right left :=
  Bool.and_comm _ _

theorem equivalent_iff {left right : Key} :
    equivalent less left right = true ↔ ¬less left right = true ∧ ¬less right left = true := by
  simp [equivalent]

theorem equivalent_of_less {left right : Key} (below : less left right = true) :
    equivalent less left right = false := by
  simp [equivalent, below]

theorem equivalent_of_greater {left right : Key} (above : less right left = true) :
    equivalent less left right = false := by
  simp [equivalent, above]

theorem lowerBound_eq_none {wanted : Key} {tree : SearchTree Key}
    (below : ∀ key ∈ tree.keys, less key wanted = true) :
    tree.lowerBound less wanted = none := by
  induction tree with
  | leaf => rfl
  | node left here right _ rightIH =>
      simp only [keys, List.mem_append, List.mem_cons] at below
      unfold lowerBound
      rw [if_pos (below here (.inr (.inl rfl)))]
      exact rightIH fun key member => below key (.inr (.inr member))

theorem ascending_erase {wanted : Key} {tree : SearchTree Key}
    (ascending : tree.Ascending less) : (tree.erase less wanted).Ascending less := by
  induction tree with
  | leaf => exact ascending
  | node left here right leftIH rightIH =>
      obtain ⟨lefts, rights, below, above, across⟩ := ascending_node.mp ascending
      unfold erase
      split
      · exact ascending_node.mpr ⟨leftIH lefts, rights,
          fun key member => below key (mem_keys_erase member), above,
          fun key member => across key (mem_keys_erase member)⟩
      · split
        · exact ascending_node.mpr ⟨lefts, rightIH rights, below,
            fun key member => above key (mem_keys_erase member),
            fun key member other inside => across key member other (mem_keys_erase inside)⟩
        · unfold Ascending
          rw [keys_graft]
          exact List.pairwise_append.mpr ⟨lefts, rights, across⟩

section Ordered

variable [order : IsStrictWeakOrder Key fun left right => less left right = true]

theorem less_trans {first second third : Key} (low : less first second = true)
    (high : less second third = true) : less first third = true :=
  order.toIsTrans.trans _ _ _ low high

theorem less_irrefl (key : Key) : less key key = false :=
  Bool.eq_false_iff.mpr (order.toIrrefl.irrefl key)

@[simp] theorem equivalent_self (key : Key) : equivalent less key key = true := by
  simp [equivalent, less_irrefl]

/-- A key below another is below all that are equivalent to that one. -/
theorem less_of_equivalent {low high other : Key} (below : less low high = true)
    (same : equivalent less high other = true) : less low other = true := by
  have apart := equivalent_iff.mp same
  by_contra notBelow
  have notAbove : ¬less other low = true := fun above => apart.2 (less_trans above below)
  exact (order.incomp_trans _ _ _ ⟨notBelow, notAbove⟩ ⟨apart.2, apart.1⟩).1 below

theorem less_of_equivalent_left {low high other : Key} (below : less low high = true)
    (same : equivalent less other low = true) : less other high = true := by
  have apart := equivalent_iff.mp same
  by_contra notBelow
  have notAbove : ¬less high other = true := fun above => apart.2 (less_trans below above)
  exact (order.incomp_trans _ _ _ ⟨apart.2, apart.1⟩ ⟨notBelow, notAbove⟩).1 below

/-- In a tree in order the descent reaches the key that is equivalent. -/
theorem lowerBound_complete {wanted key : Key} {tree : SearchTree Key}
    (ascending : tree.Ascending less) (member : key ∈ tree.keys)
    (same : equivalent less wanted key = true) : tree.lowerBound less wanted = some key := by
  have back : equivalent less key wanted = true := (equivalent_comm key wanted).trans same
  have apart := equivalent_iff.mp same
  induction tree with
  | leaf => exact absurd member List.not_mem_nil
  | node left here right leftIH rightIH =>
      obtain ⟨lefts, rights, below, above, _⟩ := ascending_node.mp ascending
      simp only [keys, List.mem_append, List.mem_cons] at member
      unfold lowerBound
      rcases member with inLeft | rfl | inRight
      · have notBelow : ¬less here wanted = true := fun low =>
          apart.2 (less_trans (below key inLeft) low)
        rw [if_neg notBelow, leftIH lefts inLeft]
        rfl
      · have none := @lowerBound_eq_none _ less wanted left fun other inLeft =>
          less_of_equivalent (below other inLeft) back
        rw [if_neg apart.2, none]
        rfl
      · rw [if_pos (less_of_equivalent (above key inRight) back)]
        exact rightIH rights inRight

/-- A search succeeds exactly for the keys with an equivalent one in the tree,
and it returns that one. -/
theorem find_eq_some_iff {wanted key : Key} {tree : SearchTree Key}
    (ascending : tree.Ascending less) :
    tree.find less wanted = some key ↔
      key ∈ tree.keys ∧ equivalent less wanted key = true := by
  constructor
  · intro found
    obtain ⟨bound, kept⟩ := Option.filter_eq_some_iff.mp found
    obtain ⟨member, notBelow⟩ := lowerBound_sound bound
    exact ⟨member, by simpa [equivalent, notBelow] using kept⟩
  · intro held
    refine Option.filter_eq_some_iff.mpr ⟨lowerBound_complete ascending held.1 held.2, ?_⟩
    have apart := equivalent_iff.mp held.2
    simpa using apart.1

theorem find_self {key : Key} {tree : SearchTree Key} (ascending : tree.Ascending less)
    (member : key ∈ tree.keys) : tree.find less key = some key :=
  (find_eq_some_iff ascending).mpr ⟨member, equivalent_self key⟩

theorem ascending_insert {new : Key} {tree : SearchTree Key} (ascending : tree.Ascending less) :
    (tree.insert less new).Ascending less := by
  induction tree with
  | leaf => exact List.pairwise_singleton _ _
  | node left here right leftIH rightIH =>
      obtain ⟨lefts, rights, below, above, across⟩ := ascending_node.mp ascending
      unfold insert
      split
      case isTrue low =>
        refine ascending_node.mpr ⟨leftIH lefts, rights, ?_, above, ?_⟩
        · intro key member
          cases mem_keys_insert member with
          | inl same => exact same ▸ low
          | inr inside => exact below key inside
        · intro key member other inRight
          cases mem_keys_insert member with
          | inl same => exact same ▸ less_trans low (above other inRight)
          | inr inside => exact across key inside other inRight
      case isFalse =>
        split
        case isTrue high =>
          refine ascending_node.mpr ⟨lefts, rightIH rights, below, ?_, ?_⟩
          · intro key member
            cases mem_keys_insert member with
            | inl same => exact same ▸ high
            | inr inside => exact above key inside
          · intro key inLeft other member
            cases mem_keys_insert member with
            | inl same => exact same ▸ less_trans (below key inLeft) high
            | inr inside => exact across key inLeft other inside
        case isFalse => exact ascending

theorem ascending_change {tree : SearchTree Key} (step : Change Key)
    (ascending : tree.Ascending less) : (tree.change less step).Ascending less := by
  cases step with
  | insert key => exact ascending_insert ascending
  | erase key => exact ascending_erase ascending

theorem ascending_run (changes : List (Change Key)) : (run less changes).Ascending less := by
  suffices every : ∀ tree : SearchTree Key, tree.Ascending less →
      (changes.foldl (change less) tree).Ascending less from every leaf .nil
  induction changes with
  | nil => exact fun _ ascending => ascending
  | cons step changes ih => exact fun tree ascending => ih _ (ascending_change step ascending)

/-- After an insertion the tree has a key equivalent to the new one. -/
theorem insert_equivalent (new : Key) (tree : SearchTree Key) :
    ∃ key ∈ (tree.insert less new).keys, equivalent less new key = true := by
  induction tree with
  | leaf => exact ⟨new, List.mem_singleton_self new, equivalent_self new⟩
  | node left here right leftIH rightIH =>
      unfold insert
      split
      case isTrue =>
        obtain ⟨key, member, same⟩ := leftIH
        exact ⟨key, List.mem_append_left _ member, same⟩
      case isFalse notBelow =>
        split
        case isTrue =>
          obtain ⟨key, member, same⟩ := rightIH
          exact ⟨key, List.mem_append_right _ (List.mem_cons_of_mem _ member), same⟩
        case isFalse notAbove =>
          exact ⟨here, List.mem_append_right _ List.mem_cons_self,
            equivalent_iff.mpr ⟨notBelow, notAbove⟩⟩

theorem find_insert {tree : SearchTree Key} (new : Key) (ascending : tree.Ascending less) :
    ∃ key, (tree.insert less new).find less new = some key ∧ equivalent less new key = true := by
  obtain ⟨key, member, same⟩ := @insert_equivalent _ less _ new tree
  exact ⟨key, (find_eq_some_iff (ascending_insert ascending)).mpr ⟨member, same⟩, same⟩

theorem find_eq_none_iff {wanted : Key} {tree : SearchTree Key} (ascending : tree.Ascending less) :
    tree.find less wanted = none ↔ ∀ key ∈ tree.keys, equivalent less wanted key = false := by
  constructor
  · intro absent key member
    by_contra same
    have found := (find_eq_some_iff ascending).mpr ⟨member, by simpa using same⟩
    cases absent.symm.trans found
  · intro apart
    cases found : tree.find less wanted with
    | none => rfl
    | some key =>
        obtain ⟨member, same⟩ := (find_eq_some_iff ascending).mp found
        cases (apart key member).symm.trans same

theorem mem_keys_insert_iff {new key : Key} {tree : SearchTree Key}
    (ascending : tree.Ascending less) :
    key ∈ (tree.insert less new).keys ↔
      key ∈ tree.keys ∨ key = new ∧ tree.find less new = none := by
  constructor
  · intro member
    cases mem_keys_insert member with
    | inr inside => exact .inl inside
    | inl same =>
        subst same
        cases found : tree.find less key with
        | none => exact .inr ⟨rfl, rfl⟩
        | some other =>
            -- The new key and the old one would be found by the same search.
            obtain ⟨inside, equal⟩ := (find_eq_some_iff ascending).mp found
            have ordered := @ascending_insert _ less _ key _ ascending
            have again := (find_eq_some_iff ordered).mpr
              ⟨mem_keys_insert_of_mem inside, equal⟩
            rw [find_self ordered member] at again
            cases again
            exact .inl inside
  · intro held
    cases held with
    | inl inside => exact mem_keys_insert_of_mem inside
    | inr absent =>
        obtain ⟨rfl, none⟩ := absent
        obtain ⟨other, member, same⟩ := @insert_equivalent _ less _ key tree
        cases mem_keys_insert member with
        | inl equal => exact equal ▸ member
        | inr inside =>
            have apart := (find_eq_none_iff ascending).mp none other inside
            cases apart.symm.trans same

theorem mem_keys_erase_iff {wanted key : Key} {tree : SearchTree Key}
    (ascending : tree.Ascending less) :
    key ∈ (tree.erase less wanted).keys ↔
      key ∈ tree.keys ∧ equivalent less wanted key = false := by
  induction tree with
  | leaf => simp [erase, keys]
  | node left here right leftIH rightIH =>
      obtain ⟨lefts, rights, below, above, _⟩ := ascending_node.mp ascending
      unfold erase
      split
      case isTrue low =>
        have apart : ∀ other ∈ right.keys, equivalent less wanted other = false :=
          fun other member => equivalent_of_less (less_trans low (above other member))
        have here := equivalent_of_less low
        simp only [keys, List.mem_append, List.mem_cons, leftIH lefts]
        grind
      case isFalse notBelow =>
        split
        case isTrue high =>
          have apart : ∀ other ∈ left.keys, equivalent less wanted other = false :=
            fun other member => equivalent_of_greater (less_trans (below other member) high)
          have here := equivalent_of_greater high
          simp only [keys, List.mem_append, List.mem_cons, rightIH rights]
          grind
        case isFalse notAbove =>
          have same := equivalent_iff.mpr ⟨notBelow, notAbove⟩
          have lower : ∀ other ∈ left.keys, equivalent less wanted other = false :=
            fun other member => equivalent_of_greater
              (less_of_equivalent (below other member) ((equivalent_comm _ _).trans same))
          have upper : ∀ other ∈ right.keys, equivalent less wanted other = false :=
            fun other member => equivalent_of_less (less_of_equivalent_left (above other member) same)
          simp only [keys_graft, keys, List.mem_append, List.mem_cons]
          grind

end Ordered

end SearchTree

end Gfiber.Lib
