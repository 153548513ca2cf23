import Mathlib.Data.Prod.Lex
import Mathlib.Data.Set.Basic
import Gfiber.Lib.SearchTree
import Gfiber.Lib.Struct
import Gfiber.Isoping.SessionMap

/-! The comparator of the session map on a set of addresses: when it orders them
as a map needs, and what the map then does. -/

set_option autoImplicit false

namespace Gfiber.Isoping
open Lib

namespace Sockaddr

def address : Sockaddr → List Byte
  | .inet _ addr => addr.toList
  | .inet6 _ _ addr _ => addr.toList

def port : Sockaddr → Vector Byte 2
  | .inet port _ => port
  | .inet6 port _ _ _ => port

/-- One client: the flow label and the scope of an IPv6 address do not count. -/
structure SameClient (left right : Sockaddr) : Prop where
  family : left.family = right.family
  address : left.address = right.address
  port : left.port = right.port

/-- The order the header promises: "by address family first, then on the IPv4/6
address, then the port number". -/
def rank (addr : Sockaddr) : Nat ×ₗ Nat ×ₗ Nat :=
  toLex (addr.family, toLex (ofBigEndian addr.address, networkValue addr.port))

end Sockaddr

/-- The comparator of the map on the addresses of a set. -/
def compareOn (addrs : Set Sockaddr) (left right : addrs) : Bool :=
  compareSockaddr left right

/-- The keys of a map after insertions and erasures of addresses of a set. -/
def keysAfter (addrs : Set Sockaddr) (changes : List (SearchTree.Change addrs)) :
    SearchTree addrs :=
  SearchTree.run (compareOn addrs) changes

/-- What a `std::map` needs of its comparator, what equivalence should mean for
the addresses of a set, and what follows for every map that has held only them. -/
structure Keyed (addrs : Set Sockaddr) : Prop where
  order : IsStrictWeakOrder addrs fun left right => compareOn addrs left right = true
  equivalent : ∀ left right : addrs, sameKey left right = true ↔ left.val.SameClient right
  found : ∀ (changes : List (SearchTree.Change addrs)) (addr : addrs),
    ∃ key, ((keysAfter addrs changes).insert (compareOn addrs) addr).find (compareOn addrs) addr =
      some key ∧ addr.val.SameClient key
  kept : ∀ (changes : List (SearchTree.Change addrs)) (addr : addrs),
    addr ∈ (keysAfter addrs changes).keys →
      (keysAfter addrs changes).find (compareOn addrs) addr = some addr
  unmerged : ∀ (changes : List (SearchTree.Change addrs)) (addr key : addrs),
    (keysAfter addrs changes).find (compareOn addrs) addr = some key → addr.val.SameClient key

/-- The IPv4 addresses of the set differ in their ports at most. -/
def OneInetAddress (addrs : Set Sockaddr) : Prop :=
  ∀ left ∈ addrs, ∀ right ∈ addrs, left.family = 2 → right.family = 2 →
    left.address = right.address

theorem memcmpLess_iff {left right : List Byte} (width : left.length = right.length) :
    memcmpLess left right = true ↔ ofBigEndian left < ofBigEndian right := by
  induction left generalizing right with
  | nil =>
      cases right with
      | nil => simp [memcmpLess]
      | cons => cases width
  | cons first lefts ih =>
      cases right with
      | nil => cases width
      | cons second rights =>
          have widths : lefts.length = rights.length := Nat.succ.inj width
          unfold memcmpLess
          split
          case isTrue same =>
            rw [ih widths, same, ofBigEndian_cons, ofBigEndian_cons, widths]
            exact (Nat.add_lt_add_iff_left).symm
          case isFalse different =>
            rw [decide_eq_true_iff]
            constructor
            · exact ofBigEndian_lt_of_head widths
            · intro less
              have heads : first.toNat ≠ second.toNat := fun same =>
                different (BitVec.eq_of_toNat_eq same)
              by_contra notLess
              have greater : second.toNat < first.toNat := by omega
              exact Nat.lt_asymm less (ofBigEndian_lt_of_head widths.symm greater)

theorem networkValue_eq {width : Nat} (bytes : Vector Byte width) :
    networkValue bytes = ofBigEndian bytes.toList :=
  rfl

theorem networkValue_inj {width : Nat} {left right : Vector Byte width}
    (same : networkValue left = networkValue right) : left = right :=
  Vector.toList_inj.mp (ofBigEndian_inj (by simp) same)

theorem networkValue_lt {width : Nat} (bytes : Vector Byte width) :
    networkValue bytes < 256 ^ width := by
  have bound := ofBigEndian_lt bytes.toList
  rwa [Vector.length_toList] at bound

/-- The unsigned difference of two IPv4 addresses is never negative: the ports
order one address, and nothing orders two. -/
theorem compareSockaddr_inet (port port' : Vector Byte 2) (addr addr' : Vector Byte 4) :
    compareSockaddr (.inet port addr) (.inet port' addr') = true ↔
      addr = addr' ∧ networkValue port < networkValue port' := by
  have low := networkValue_lt addr
  have low' := networkValue_lt addr'
  have difference :
      (BitVec.ofNat 32 (networkValue addr) - BitVec.ofNat 32 (networkValue addr')).toNat = 0 ↔
        addr = addr' := by
    constructor
    · intro zero
      apply networkValue_inj
      rw [BitVec.toNat_sub, BitVec.toNat_ofNat, BitVec.toNat_ofNat] at zero
      omega
    · intro same
      simp [same]
  rw [← difference]
  dsimp only [compareSockaddr]
  generalize (BitVec.ofNat 32 (networkValue addr) -
    BitVec.ofNat 32 (networkValue addr')).toNat = count
  cases count with
  | zero => simp
  | succ count =>
      rw [if_neg (by omega), decide_eq_true_iff]
      exact ⟨fun negative => absurd negative (by omega), fun zero => absurd zero.1 count.succ_ne_zero⟩

theorem compareSockaddr_inet6 (port port' : Vector Byte 2) (flowinfo flowinfo' : Vector Byte 4)
    (addr addr' : Vector Byte 16) (scope scope' : Vector Byte 4) :
    compareSockaddr (.inet6 port flowinfo addr scope) (.inet6 port' flowinfo' addr' scope') = true ↔
      networkValue addr < networkValue addr' ∨
        addr = addr' ∧ networkValue port < networkValue port' := by
  unfold compareSockaddr
  by_cases same : addr = addr'
  · simp [same]
  · have bytes : memcmpLess addr.toList addr'.toList = true ↔
        networkValue addr < networkValue addr' := memcmpLess_iff (by simp)
    simp [same, bytes]

namespace Sockaddr

theorem rank_lt_iff {left right : Sockaddr} :
    left.rank < right.rank ↔ left.family < right.family ∨ left.family = right.family ∧
      (ofBigEndian left.address < ofBigEndian right.address ∨
        ofBigEndian left.address = ofBigEndian right.address ∧
          networkValue left.port < networkValue right.port) := by
  simp only [rank, Prod.Lex.toLex_lt_toLex]

theorem length_address {left right : Sockaddr} (same : left.family = right.family) :
    left.address.length = right.address.length := by
  cases left with
  | inet =>
      cases right with
      | inet => simp [address]
      | inet6 => cases same
  | inet6 =>
      cases right with
      | inet => cases same
      | inet6 => simp [address]

/-- The rank is that of the client. -/
theorem rank_eq_iff {left right : Sockaddr} :
    left.rank = right.rank ↔ left.SameClient right := by
  constructor
  · intro same
    simp only [rank, EmbeddingLike.apply_eq_iff_eq, Prod.mk.injEq] at same
    obtain ⟨families, addresses, ports⟩ := same
    exact ⟨families, ofBigEndian_inj (length_address families) addresses, networkValue_inj ports⟩
  · intro same
    simp only [rank, same.family, same.address, same.port]

end Sockaddr

/-- Where the IPv4 addresses are one, the comparator is the order of the ranks. -/
theorem compareSockaddr_iff_rank {addrs : Set Sockaddr} (one : OneInetAddress addrs)
    {left right : Sockaddr} (inside : left ∈ addrs) (inside' : right ∈ addrs) :
    compareSockaddr left right = true ↔ left.rank < right.rank := by
  rw [Sockaddr.rank_lt_iff]
  cases left with
  | inet port addr =>
      cases right with
      | inet port' addr' =>
          have same : addr = addr' := Vector.toList_inj.mp (one _ inside _ inside' rfl rfl)
          simp [compareSockaddr_inet, same, Sockaddr.family, Sockaddr.address, Sockaddr.port]
      | inet6 => simp [compareSockaddr, Sockaddr.family]
  | inet6 port flowinfo addr scope =>
      cases right with
      | inet => simp [compareSockaddr, Sockaddr.family]
      | inet6 port' flowinfo' addr' scope' =>
          have values : ofBigEndian addr.toList = ofBigEndian addr'.toList ↔ addr = addr' :=
            ⟨fun same => networkValue_inj same, fun same => by rw [same]⟩
          simp [compareSockaddr_inet6, Sockaddr.family, Sockaddr.address, Sockaddr.port, values,
            networkValue_eq]

/-- Two IPv4 addresses are one key, whatever their ports. -/
theorem sameKey_of_addresses {port port' : Vector Byte 2} {addr addr' : Vector Byte 4}
    (different : addr ≠ addr') : sameKey (.inet port addr) (.inet port' addr') = true := by
  unfold sameKey
  rw [Bool.and_eq_true, Bool.not_eq_true', Bool.not_eq_true', Bool.eq_false_iff,
    Bool.eq_false_iff, Ne, Ne, compareSockaddr_inet, compareSockaddr_inet]
  exact ⟨fun same => different same.1, fun same => different same.1.symm⟩

section OneAddress

variable {addrs : Set Sockaddr} (one : OneInetAddress addrs)

include one

theorem strictWeakOrder : IsStrictWeakOrder addrs fun left right =>
    compareOn addrs left right = true := by
  have same : (fun left right : addrs => compareOn addrs left right = true) =
      Order.Preimage (fun addr : addrs => addr.val.rank) (· < ·) := by
    funext left right
    exact propext (compareSockaddr_iff_rank one left.2 right.2)
  have ranks : IsStrictWeakOrder (Nat ×ₗ Nat ×ₗ Nat) (· < ·) :=
    isStrictWeakOrder_of_isOrderConnected
  rw [same]
  infer_instance

theorem sameKey_iff {left right : Sockaddr} (inside : left ∈ addrs) (inside' : right ∈ addrs) :
    sameKey left right = true ↔ left.SameClient right := by
  unfold sameKey
  rw [Bool.and_eq_true, Bool.not_eq_true', Bool.not_eq_true', Bool.eq_false_iff,
    Bool.eq_false_iff, Ne, Ne, compareSockaddr_iff_rank one inside inside',
    compareSockaddr_iff_rank one inside' inside, ← Sockaddr.rank_eq_iff]
  constructor
  · intro apart
    exact le_antisymm (not_lt.mp apart.2) (not_lt.mp apart.1)
  · intro same
    rw [same]
    exact ⟨lt_irrefl _, lt_irrefl _⟩

end OneAddress

/-- The comparator orders the addresses of a set by client, and every map over
them keeps each client apart and finds it, exactly when no two IPv4 addresses
are among them. -/
theorem keyed_iff_oneInetAddress (addrs : Set Sockaddr) :
    Keyed addrs ↔ OneInetAddress addrs := by
  constructor
  · intro keyed left inside right inside' inet inet'
    cases left with
    | inet6 => cases inet
    | inet port addr =>
        cases right with
        | inet6 => cases inet'
        | inet port' addr' =>
            by_contra different
            have merged : sameKey (.inet port addr) (.inet port' addr') = true :=
              sameKey_of_addresses fun same => different (congrArg Vector.toList same)
            exact different ((keyed.equivalent ⟨_, inside⟩ ⟨_, inside'⟩).mp merged).address
  · intro one
    have order := strictWeakOrder one
    have clients : ∀ left right : addrs,
        sameKey left right = true ↔ left.val.SameClient right :=
      fun left right => sameKey_iff one left.2 right.2
    have ascending := fun changes => @SearchTree.ascending_run _ (compareOn addrs) order changes
    constructor
    · exact order
    · exact clients
    · intro changes addr
      obtain ⟨key, found, same⟩ := SearchTree.find_insert addr (ascending changes)
      exact ⟨key, found, (clients addr key).mp same⟩
    · intro changes addr member
      exact SearchTree.find_self (ascending changes) member
    · intro changes addr key found
      exact (clients addr key).mp ((SearchTree.find_eq_some_iff (ascending changes)).mp found).2

/-- 10.0.0.1 and 10.0.0.2, both on port 8080, are one key. -/
theorem keyed_merges_inet : ¬Keyed Set.univ := by
  intro keyed
  have same := (keyed.equivalent
    ⟨.inet #v[0x1f, 0x90] #v[10, 0, 0, 1], trivial⟩
    ⟨.inet #v[0x1f, 0x90] #v[10, 0, 0, 2], trivial⟩).mp (by decide)
  exact absurd same.address (by decide)

/-- A search tree over the addresses of a set and a session map that went
through the same calls. What is done to a session does not touch the keys. -/
inductive Reached (addrs : Set Sockaddr) : SearchTree addrs → SessionMap → Prop where
  | empty : Reached addrs .leaf .empty
  | insert {tree map} (session : Session) (inside : session.remoteaddr ∈ addrs) :
      Reached addrs tree map →
      Reached addrs (tree.insert (compareOn addrs) ⟨session.remoteaddr, inside⟩)
        (map.insert session).1
  | erase {tree map} (addr : addrs) :
      Reached addrs tree map →
      Reached addrs (tree.erase (compareOn addrs) addr) (map.erase addr)
  | modify {tree map} (id : Nat) (change : Session → Session)
      (keeps : ∀ s, (change s).remoteaddr = s.remoteaddr) :
      Reached addrs tree map → Reached addrs tree (map.modify id change keeps)

/-- The keys of the nodes are those of the tree, and the tree is in order. -/
structure Holds {addrs : Set Sockaddr} (tree : SearchTree addrs) (map : SessionMap) : Prop where
  ascending : tree.Ascending (compareOn addrs)
  keys : ∀ addr : Sockaddr,
    (∃ key ∈ tree.keys, key.val = addr) ↔ ∃ node ∈ map.nodes, node.key = addr

namespace Holds

variable {addrs : Set Sockaddr} {tree : SearchTree addrs} {map : SessionMap}

theorem node_of_key (holds : Holds tree map) {key : addrs} (member : key ∈ tree.keys) :
    ∃ node ∈ map.nodes, node.key = key :=
  (holds.keys key).mp ⟨key, member, rfl⟩

theorem key_of_node (holds : Holds tree map) {node : SessionNode} (member : node ∈ map.nodes) :
    ∃ key ∈ tree.keys, key.val = node.key :=
  (holds.keys node.key).mpr ⟨node, member, rfl⟩

/-- Both searches return the same key. -/
theorem find_eq (one : OneInetAddress addrs) (holds : Holds tree map) (addr : addrs) :
    (tree.find (compareOn addrs) addr).map Subtype.val = (map.find addr).map (·.key) := by
  have order := strictWeakOrder one
  cases found : map.find addr with
  | none =>
      have others := List.find?_eq_none.mp found
      have absent : tree.find (compareOn addrs) addr = none := by
        apply (SearchTree.find_eq_none_iff holds.ascending).mpr
        intro key member
        obtain ⟨node, inside, same⟩ := holds.node_of_key member
        have apart := others node inside
        rw [same] at apart
        exact Bool.eq_false_iff.mpr apart
      rw [absent]
      rfl
  | some node =>
      obtain ⟨inside, same⟩ := SessionMap.find_mem found
      obtain ⟨key, member, equal⟩ := holds.key_of_node inside
      rw [← equal] at same
      rw [(SearchTree.find_eq_some_iff holds.ascending).mpr ⟨member, same⟩]
      exact congrArg some equal

theorem insert (one : OneInetAddress addrs) (holds : Holds tree map) (session : Session)
    (inside : session.remoteaddr ∈ addrs) :
    Holds (tree.insert (compareOn addrs) ⟨session.remoteaddr, inside⟩)
      (map.insert session).1 := by
  have order := strictWeakOrder one
  have agree := holds.find_eq one ⟨session.remoteaddr, inside⟩
  refine ⟨SearchTree.ascending_insert holds.ascending, fun addr => ?_⟩
  simp only [SearchTree.mem_keys_insert_iff holds.ascending]
  cases found : map.find session.remoteaddr with
  | some node =>
      rw [found] at agree
      rw [SessionMap.insert_of_found found, ← holds.keys addr]
      constructor
      · intro held
        obtain ⟨key, old | ⟨_, absent⟩, same⟩ := held
        · exact ⟨key, old, same⟩
        · rw [absent] at agree
          cases agree
      · intro held
        obtain ⟨key, old, same⟩ := held
        exact ⟨key, .inl old, same⟩
  | none =>
      rw [found, Option.map_none, Option.map_eq_none_iff] at agree
      rw [SessionMap.insert_of_absent found]
      simp only [SessionMap.allocate, List.mem_append, List.mem_singleton]
      constructor
      · intro held
        obtain ⟨key, old | ⟨rfl, _⟩, same⟩ := held
        · obtain ⟨node, member, equal⟩ := holds.node_of_key old
          exact ⟨node, .inl member, equal.trans same⟩
        · exact ⟨_, .inr rfl, same⟩
      · intro held
        obtain ⟨node, old | rfl, same⟩ := held
        · obtain ⟨key, member, equal⟩ := holds.key_of_node old
          exact ⟨key, .inl member, equal.trans same⟩
        · exact ⟨_, .inr ⟨rfl, agree⟩, same⟩

theorem erase (one : OneInetAddress addrs) (holds : Holds tree map) (addr : addrs) :
    Holds (tree.erase (compareOn addrs) addr) (map.erase addr) := by
  have order := strictWeakOrder one
  refine ⟨SearchTree.ascending_erase holds.ascending, fun other => ?_⟩
  simp only [SearchTree.mem_keys_erase_iff holds.ascending, SessionMap.mem_erase]
  constructor
  · intro held
    obtain ⟨key, ⟨member, apart⟩, same⟩ := held
    obtain ⟨node, inside, equal⟩ := holds.node_of_key member
    exact ⟨node, ⟨inside, equal ▸ apart⟩, equal.trans same⟩
  · intro held
    obtain ⟨node, ⟨inside, apart⟩, same⟩ := held
    obtain ⟨key, member, equal⟩ := holds.key_of_node inside
    rw [← equal] at apart
    exact ⟨key, ⟨member, apart⟩, equal.trans same⟩

theorem modify (holds : Holds tree map) (id : Nat) (change : Session → Session)
    (keeps : ∀ s, (change s).remoteaddr = s.remoteaddr) :
    Holds tree (map.modify id change keeps) := by
  refine ⟨holds.ascending, fun addr => (holds.keys addr).trans ?_⟩
  have same : (map.modify id change keeps).nodes.map (·.key) = map.nodes.map (·.key) := by
    simp only [SessionMap.modify, List.map_map]
    refine List.map_congr_left fun node _ => ?_
    simp only [Function.comp_apply]
    split <;> rfl
  rw [← List.mem_map, ← List.mem_map, same]

end Holds

theorem Reached.holds {addrs : Set Sockaddr} (one : OneInetAddress addrs)
    {tree : SearchTree addrs} {map : SessionMap} (reached : Reached addrs tree map) :
    Holds tree map := by
  induction reached with
  | empty => exact ⟨.nil, fun addr => by simp [SearchTree.keys, SessionMap.empty]⟩
  | insert session inside _ ih => exact ih.insert one session inside
  | erase addr _ ih => exact ih.erase one addr
  | modify id change keeps _ ih => exact ih.modify id change keeps

/-- The list of nodes answers as the tree does, so where the comparator is an
order the model of the map is the map, and what it finds is the client's own session. -/
theorem Reached.find {addrs : Set Sockaddr} (one : OneInetAddress addrs)
    {tree : SearchTree addrs} {map : SessionMap} (reached : Reached addrs tree map)
    (addr : addrs) :
    (tree.find (compareOn addrs) addr).map Subtype.val = (map.find addr).map (·.key) ∧
      ∀ node, map.find addr = some node → addr.val.SameClient node.session.remoteaddr := by
  have holds := reached.holds one
  refine ⟨holds.find_eq one addr, fun node found => ?_⟩
  obtain ⟨inside, same⟩ := SessionMap.find_mem found
  obtain ⟨key, _, equal⟩ := holds.key_of_node inside
  have member : node.key ∈ addrs := equal ▸ key.2
  rw [map.addressed node inside]
  exact (sameKey_iff one addr.2 member).mp same

end Gfiber.Isoping
