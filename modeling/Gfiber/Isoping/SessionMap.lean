import Gfiber.Isoping.Session

/-! `session_map`. A node keeps its identity from insertion to erasure, which is
what the iterators in `next_sends` hold; identities are never used again. -/

set_option autoImplicit false

namespace Gfiber.Isoping
open Lib

structure SessionNode where
  id : Nat
  key : Sockaddr
  session : Session
  deriving DecidableEq, Repr

structure SessionMap where
  nodes : List SessionNode
  allocated : Nat
  distinct : nodes.Pairwise fun left right => sameKey left.key right.key = false
  identified : (nodes.map (·.id)).Nodup
  below : ∀ node ∈ nodes, node.id < allocated
  addressed : ∀ node ∈ nodes, node.session.remoteaddr = node.key

namespace SessionMap

def empty : SessionMap where
  nodes := []
  allocated := 0
  distinct := .nil
  identified := .nil
  below := by simp
  addressed := by simp

def ids (map : SessionMap) : List Nat := map.nodes.map (·.id)

def find (map : SessionMap) (addr : Sockaddr) : Option SessionNode :=
  map.nodes.find? fun node => sameKey addr node.key

def lookup (map : SessionMap) (id : Nat) : Option SessionNode :=
  map.nodes.find? fun node => node.id = id

def erase (map : SessionMap) (addr : Sockaddr) : SessionMap where
  nodes := map.nodes.filter fun node => !sameKey addr node.key
  allocated := map.allocated
  distinct := map.distinct.filter _
  identified := map.identified.sublist (List.filter_sublist.map _)
  below node member := map.below node (List.mem_of_mem_filter member)
  addressed node member := map.addressed node (List.mem_of_mem_filter member)

def allocate (map : SessionMap) (session : Session)
    (absent : map.find session.remoteaddr = none) : SessionMap where
  nodes := map.nodes ++ [⟨map.allocated, session.remoteaddr, session⟩]
  allocated := map.allocated + 1
  distinct := by
    refine List.pairwise_append.mpr ⟨map.distinct, List.pairwise_singleton _ _, ?_⟩
    intro node member new same
    have other := List.find?_eq_none.mp absent node member
    rw [List.mem_singleton.mp same, sameKey_comm]
    simpa using other
  identified := by
    rw [List.map_append, List.nodup_append]
    refine ⟨map.identified, by simp, ?_⟩
    intro id member new same
    obtain ⟨node, inside, rfl⟩ := List.mem_map.mp member
    have bound := map.below node inside
    simp only [List.map_cons, List.map_nil, List.mem_singleton] at same
    omega
  below node member := by
    rcases List.mem_append.mp member with old | new
    · have bound := map.below node old
      omega
    · rw [List.mem_singleton.mp new]
      exact Nat.lt_succ_self _
  addressed node member := by
    rcases List.mem_append.mp member with old | new
    · exact map.addressed node old
    · rw [List.mem_singleton.mp new]

def insert (map : SessionMap) (session : Session) : SessionMap × Nat :=
  match found : map.find session.remoteaddr with
  | some node => (map, node.id)
  | none => (map.allocate session found, map.allocated)

def modify (map : SessionMap) (id : Nat) (change : Session → Session)
    (keeps : ∀ s, (change s).remoteaddr = s.remoteaddr) : SessionMap where
  nodes := map.nodes.map fun node =>
    if node.id = id then { node with session := change node.session } else node
  allocated := map.allocated
  distinct := by
    refine List.pairwise_map.mpr (map.distinct.imp ?_)
    intro left right apart
    split <;> split <;> exact apart
  identified := by
    have same : (map.nodes.map fun node =>
        if node.id = id then { node with session := change node.session } else node).map (·.id) =
        map.nodes.map (·.id) := by
      rw [List.map_map]
      refine List.map_congr_left fun node _ => ?_
      simp only [Function.comp_apply]
      split <;> rfl
    rw [same]
    exact map.identified
  below node member := by
    obtain ⟨old, inside, rfl⟩ := List.mem_map.mp member
    have bound := map.below old inside
    split <;> exact bound
  addressed node member := by
    obtain ⟨old, inside, rfl⟩ := List.mem_map.mp member
    have addressed := map.addressed old inside
    split
    · rw [keeps]
      exact addressed
    · exact addressed

@[simp] theorem ids_modify (map : SessionMap) (id : Nat) (change : Session → Session)
    (keeps : ∀ s, (change s).remoteaddr = s.remoteaddr) :
    (map.modify id change keeps).ids = map.ids := by
  simp only [ids, modify, List.map_map]
  refine List.map_congr_left fun node _ => ?_
  simp only [Function.comp_apply]
  split <;> rfl

theorem mem_modify {map : SessionMap} {id : Nat} {change : Session → Session}
    {keeps : ∀ s, (change s).remoteaddr = s.remoteaddr} {node : SessionNode}
    (member : node ∈ (map.modify id change keeps).nodes) :
    ∃ old ∈ map.nodes, node.id = old.id ∧ node.key = old.key ∧
      (node.session = old.session ∨ old.id = id ∧ node.session = change old.session) := by
  obtain ⟨old, inside, rfl⟩ := List.mem_map.mp member
  refine ⟨old, inside, ?_⟩
  split
  · rename_i same
    exact ⟨rfl, rfl, .inr ⟨same, rfl⟩⟩
  · exact ⟨rfl, rfl, .inl rfl⟩

theorem lookup_mem {map : SessionMap} {id : Nat} {node : SessionNode}
    (found : map.lookup id = some node) : node ∈ map.nodes ∧ node.id = id :=
  ⟨List.mem_of_find?_eq_some found, by simpa using List.find?_some found⟩

theorem lookup_isSome {map : SessionMap} {id : Nat} (member : id ∈ map.ids) :
    ∃ node, map.lookup id = some node := by
  obtain ⟨node, inside, same⟩ := List.mem_map.mp member
  exact Option.isSome_iff_exists.mp (List.find?_isSome.mpr ⟨node, inside, by simpa using same⟩)

theorem find_mem {map : SessionMap} {addr : Sockaddr} {node : SessionNode}
    (found : map.find addr = some node) : node ∈ map.nodes ∧ sameKey addr node.key = true :=
  ⟨List.mem_of_find?_eq_some found, by simpa using List.find?_some (p := fun _ => _) found⟩

theorem mem_erase {map : SessionMap} {addr : Sockaddr} {node : SessionNode} :
    node ∈ (map.erase addr).nodes ↔ node ∈ map.nodes ∧ sameKey addr node.key = false := by
  simp [erase]

theorem ids_erase_of_absent {map : SessionMap} {addr : Sockaddr} (absent : map.find addr = none) :
    (map.erase addr).ids = map.ids := by
  have others := List.find?_eq_none.mp absent
  simp only [ids, erase]
  rw [List.filter_eq_self.mpr]
  intro node member
  simpa using others node member

theorem ids_erase_of_mem {map : SessionMap} {node : SessionNode} (member : node ∈ map.nodes) :
    (map.erase node.key).ids = map.ids.erase node.id := by
  obtain ⟨before, after, split⟩ := List.append_of_mem member
  have distinct := map.distinct
  have identified := map.identified
  rw [split] at distinct identified
  obtain ⟨_, inner, outer⟩ := List.pairwise_append.mp distinct
  have earlier : ∀ other ∈ before, (!sameKey node.key other.key) = true := by
    intro other inside
    rw [sameKey_comm, outer other inside node List.mem_cons_self]
    rfl
  have later : ∀ other ∈ after, (!sameKey node.key other.key) = true := by
    intro other inside
    rw [(List.pairwise_cons.mp inner).1 other inside]
    rfl
  have unused : node.id ∉ before.map (·.id) := by
    rw [List.map_append, List.map_cons] at identified
    intro used
    exact (List.nodup_append.mp identified).2.2 _ used _ List.mem_cons_self rfl
  simp only [ids, erase, split, List.filter_append, List.filter_eq_self.mpr earlier,
    List.filter_cons, sameKey_self, List.filter_eq_self.mpr later, List.map_append, List.map_cons]
  rw [List.erase_append_right _ unused, List.erase_cons_head]
  rfl

theorem insert_of_found {map : SessionMap} {session : Session} {node : SessionNode}
    (found : map.find session.remoteaddr = some node) : map.insert session = (map, node.id) := by
  unfold insert
  split
  · rename_i other same
    rw [found] at same
    cases same
    rfl
  · rename_i absent
    rw [found] at absent
    cases absent

theorem insert_of_absent {map : SessionMap} {session : Session}
    (absent : map.find session.remoteaddr = none) :
    map.insert session = (map.allocate session absent, map.allocated) := by
  unfold insert
  split
  · rename_i found
    rw [absent] at found
    cases found
  · rfl

@[simp] theorem ids_allocate (map : SessionMap) (session : Session)
    (absent : map.find session.remoteaddr = none) :
    (map.allocate session absent).ids = map.ids ++ [map.allocated] := by
  simp [ids, allocate]

def Within (later map : SessionMap) : Prop :=
  ∀ node ∈ later.nodes, ∃ old ∈ map.nodes,
    node.id = old.id ∧ node.key = old.key ∧ node.session.usecPerPkt = old.session.usecPerPkt

theorem Within.refl (map : SessionMap) : map.Within map :=
  fun node member => ⟨node, member, rfl, rfl, rfl⟩

theorem Within.erase {later map : SessionMap} (within : later.Within map) (addr : Sockaddr) :
    (later.erase addr).Within map :=
  fun node member => within node (mem_erase.mp member).1

theorem Within.modify {later map : SessionMap} (within : later.Within map) {id : Nat}
    {change : Session → Session} {keeps : ∀ s, (change s).remoteaddr = s.remoteaddr}
    (rate : ∀ s, (change s).usecPerPkt = s.usecPerPkt) :
    (later.modify id change keeps).Within map := by
  intro node member
  obtain ⟨old, inside, sameId, sameKey, changed⟩ := mem_modify member
  obtain ⟨first, original, id', key', rate'⟩ := within old inside
  refine ⟨first, original, sameId.trans id', sameKey.trans key', ?_⟩
  rcases changed with kept | ⟨_, moved⟩
  · rw [kept, rate']
  · rw [moved, rate, rate']

end SessionMap

end Gfiber.Isoping
