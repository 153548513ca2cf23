import Mathlib.Data.List.Sort
import Mathlib.Order.Basic

/-! Stable sorting by keys that are computed once for each element, in the
order of the list, so that a key may hold a draw of its own. -/

set_option autoImplicit false

namespace Gfiber.Lib

variable {Item Key : Type} [LinearOrder Key]

def sortOn (key : Nat → Item → Key) (items : List Item) : List Item :=
  ((items.mapIdx fun index item => (key index item, item)).insertionSort
    fun left right => left.1 ≤ right.1).map Prod.snd

variable {key : Nat → Item → Key} {items rest : List Item} {best : Item}

theorem length_sortOn (key : Nat → Item → Key) (items : List Item) :
    (sortOn key items).length = items.length := by
  rw [sortOn, List.length_map, List.length_insertionSort, List.length_mapIdx]

theorem mem_sortOn {item : Item} : item ∈ sortOn key items ↔ item ∈ items := by
  rw [sortOn, List.mem_map]
  constructor
  · rintro ⟨entry, member, rfl⟩
    obtain ⟨index, bound, rfl⟩ := List.mem_mapIdx.mp ((List.mem_insertionSort _).mp member)
    exact List.getElem_mem bound
  · intro member
    obtain ⟨index, bound, rfl⟩ := List.mem_iff_getElem.mp member
    exact ⟨_, (List.mem_insertionSort _).mpr (List.mem_mapIdx.mpr ⟨index, bound, rfl⟩), rfl⟩

/-- The first element has a key that no other element's key is below. -/
theorem head_sortOn (sorted : sortOn key items = best :: rest) : ∃ index,
    items[index]? = some best ∧ ∀ (position : Nat) (other : Item),
      items[position]? = some other → key index best ≤ key position other := by
  let keyed := items.mapIdx fun index item => (key index item, item)
  let ordered := keyed.insertionSort fun left right => left.1 ≤ right.1
  have total : Std.Total fun left right : Key × Item => left.1 ≤ right.1 :=
    ⟨fun left right => le_total left.1 right.1⟩
  have trans : IsTrans (Key × Item) fun left right => left.1 ≤ right.1 :=
    ⟨fun _ _ _ first second => le_trans first second⟩
  have pairwise : ordered.Pairwise fun left right => left.1 ≤ right.1 :=
    List.pairwise_insertionSort _ keyed
  have members (entry : Key × Item) : entry ∈ ordered ↔ entry ∈ keyed := List.mem_insertionSort _
  obtain ⟨first, later, whole, same, -⟩ := List.map_eq_cons_iff.mp sorted
  have whole' : ordered = first :: later := whole
  obtain ⟨index, bound, held⟩ := List.mem_mapIdx.mp
    ((members first).mp (whole'.symm ▸ List.mem_cons_self))
  subst held
  have found : items[index] = best := same
  refine ⟨index, by rw [List.getElem?_eq_getElem bound, found], fun position other asked => ?_⟩
  obtain ⟨inside, value⟩ := List.getElem?_eq_some_iff.mp asked
  have listed : (key position other, other) ∈ ordered :=
    (members _).mpr (List.mem_mapIdx.mpr ⟨position, inside, by rw [value]⟩)
  rw [whole'] at listed pairwise
  rcases List.mem_cons.mp listed with equal | after
  · rw [← found]
    exact (congrArg Prod.fst equal).symm.le
  · rw [← found]
    exact (List.pairwise_cons.mp pairwise).1 _ after

theorem sortOn_ne_nil (key : Nat → Item → Key) (some : items ≠ []) : ∃ best rest, sortOn key items = best :: rest := by
  refine List.exists_cons_of_ne_nil fun empty => some ?_
  have length := length_sortOn key items
  rw [empty, List.length_nil] at length
  exact List.length_eq_zero_iff.mp length.symm

/-- An element whose key is below every other key comes first. -/
theorem sortOn_of_least {index : Nat} (found : items[index]? = some best)
    (least : ∀ (position : Nat) (other : Item), position ≠ index →
      items[position]? = some other → key index best < key position other) :
    ∃ rest, sortOn key items = best :: rest := by
  have some : items ≠ [] := List.ne_nil_of_mem (List.mem_of_getElem? found)
  obtain ⟨first, rest, sorted⟩ := sortOn_ne_nil key some
  obtain ⟨position, held, lowest⟩ := head_sortOn sorted
  have same : position = index := by
    by_contra other
    exact absurd (lowest index best found) (not_le_of_gt (least position first other held))
  subst same
  rw [found] at held
  exact ⟨rest, Option.some.inj held ▸ sorted⟩

end Gfiber.Lib
