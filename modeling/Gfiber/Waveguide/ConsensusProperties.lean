import Mathlib.Algebra.Order.Field.Rat
import Mathlib.Data.Set.Finite.List
import Mathlib.Data.Set.Finite.Lemmas
import Mathlib.Tactic.Linarith
import Mathlib.Tactic.Ring
import Gfiber.Lib.Run
import Gfiber.Waveguide.Consensus

/-! When the live nodes of a network end up with one consensus key. A node
whose `consensus_start` is not after the start of the longest running live node
is out of reach of every packet, so that a key of a node that left can stay. -/

set_option autoImplicit false

namespace Gfiber.Waveguide

open Lib

variable {Key : Type} [DecidableEq Key]

/-- The nodes that no packet of a live node can reach hold the key of the
longest running one. -/
def Settled (nodes : List (Node Key)) : Prop :=
  ∀ elder ∈ nodes, (∀ other ∈ nodes, elder.start ≤ other.start) →
    ∀ node ∈ nodes, node.consensusStart ≤ elder.start → node.consensus.key = elder.consensus.key

instance (nodes : List (Node Key)) : Decidable (Settled nodes) :=
  inferInstanceAs (Decidable (∀ elder ∈ nodes, (∀ other ∈ nodes, elder.start ≤ other.start) →
    ∀ node ∈ nodes, node.consensusStart ≤ elder.start → node.consensus.key = elder.consensus.key))

/-- Whoever joins or leaves, the nodes then live are settled. -/
def KeepsSettled (net : Network Key) : Network.Event Key → Prop
  | .join age offset key => Settled (net.nodes ++ [Node.boot (net.now - age) offset key])
  | .leave index => Settled (net.nodes.eraseIdx index)
  | _ => True

section Nodes

@[simp] theorem start_boot (now offset : Rat) (key : Key) :
    (Node.boot now offset key).start = now := by
  simp [Node.start, Node.boot]

@[simp] theorem consensusStart_boot (now offset : Rat) (key : Key) :
    (Node.boot now offset key).consensusStart = now := by
  simp [Node.consensusStart, Node.boot, updateConsensus]

@[simp] theorem start_readReady (node : Node Key) (now : Rat) (advert : Advert Key) :
    (node.readReady now advert).start = node.start := rfl

/-- In common time, a node compares the sender's start with its own
`consensus_start`, whatever the clocks of the two show. -/
theorem readReady_cases (source target : Node Key) (now : Rat) :
    (source.start < target.consensusStart ∧ target.consensus.key ≠ source.consensus.key ∧
      (target.readReady now (source.getState now)).consensusStart = source.start ∧
      (target.readReady now (source.getState now)).consensus.key = source.consensus.key) ∨
    (¬(source.start < target.consensusStart ∧ target.consensus.key ≠ source.consensus.key) ∧
      target.readReady now (source.getState now) = target) := by
  have instant : target.gettime now - (source.getState now).uptimeMs / 1000 =
      source.start + target.offset := by
    simp only [Node.gettime, Node.getState, Node.start]
    ring
  have compare : source.start + target.offset < target.consensus.start ↔
      source.start < target.consensusStart := by
    rw [Node.consensusStart, lt_sub_iff_add_lt]
  have advertised : (source.getState now).consensusKey = source.consensus.key := rfl
  by_cases heard : source.start < target.consensusStart ∧
      target.consensus.key ≠ source.consensus.key
  · have taken : target.readReady now (source.getState now) =
        { target with consensus := ⟨source.consensus.key, source.start + target.offset⟩ } := by
      simp only [Node.readReady, updateConsensus, instant, compare, advertised, if_pos heard]
    exact .inl ⟨heard.1, heard.2, by simp [taken, Node.consensusStart], by rw [taken]⟩
  · refine .inr ⟨heard, ?_⟩
    simp only [Node.readReady, updateConsensus, instant, compare, advertised, if_neg heard]

end Nodes

structure Network.Sound (net : Network Key) : Prop where
  distinct : (net.nodes.map Node.start).Nodup
  recorded : ∀ node ∈ net.nodes, node.start ∈ net.started
  early : ∀ node ∈ net.nodes, node.consensusStart ≤ node.start
  settled : Settled net.nodes

section Steps

variable {net next : Network Key} {event : Network.Event Key}

omit [DecidableEq Key] in
theorem exists_elder {nodes : List (Node Key)} {node : Node Key} (member : node ∈ nodes) :
    ∃ elder ∈ nodes, ∀ other ∈ nodes, elder.start ≤ other.start :=
  Set.exists_min_image {each | each ∈ nodes} Node.start (List.finite_toSet nodes) ⟨node, member⟩

theorem Network.Sound.agrees (sound : net.Sound) (quiet : net.Quiet) : net.Agrees := by
  intro left leftLive right rightLive
  obtain ⟨elder, live, eldest⟩ := exists_elder leftLive
  have same : ∀ node ∈ net.nodes, node.consensus.key = elder.consensus.key := by
    intro node member
    by_cases frozen : node.consensusStart ≤ elder.start
    · exact sound.settled elder live eldest node member frozen
    · have silent := quiet elder live node member
      rcases readReady_cases elder node net.now with ⟨-, -, -, taken⟩ | ⟨unheard, -⟩
      · exact silent.symm.trans taken
      · by_contra differs
        exact unheard ⟨not_le.mp frozen, differs⟩
  exact (same left leftLive).trans (same right rightLive).symm

omit [DecidableEq Key] in
theorem starts_set {nodes : List (Node Key)} {index : Nat} {old new : Node Key}
    (found : nodes[index]? = some old) (same : new.start = old.start) :
    (nodes.set index new).map Node.start = nodes.map Node.start := by
  have place : (nodes.map Node.start)[index]? = some new.start := by
    rw [List.getElem?_map, found, same, Option.map_some]
  obtain ⟨inside, value⟩ := List.getElem?_eq_some_iff.mp place
  rw [List.map_set, ← value, List.set_getElem_self]

theorem early_deliver (early : ∀ node ∈ net.nodes, node.consensusStart ≤ node.start)
    {receiver : Nat} (source : Node Key) {target : Node Key}
    (receives : net.nodes[receiver]? = some target) :
    ∀ node ∈ net.nodes.set receiver (target.readReady net.now (source.getState net.now)),
      node.consensusStart ≤ node.start := by
  intro node member
  rcases List.mem_or_eq_of_mem_set member with old | rfl
  · exact early node old
  · have before := early target (List.mem_of_getElem? receives)
    rcases readReady_cases source target net.now with ⟨later, -, taken, -⟩ | ⟨-, same⟩
    · rw [taken, start_readReady]
      exact (later.trans_le before).le
    · rw [same]
      exact before

/-- A delivery only moves nodes that are not out of reach, and only the longest
running node can put one out of reach. -/
theorem Network.Sound.deliver (sound : net.Sound) {receiver : Nat} {source target : Node Key}
    (sends : source ∈ net.nodes) (receives : net.nodes[receiver]? = some target) :
    Network.Sound { net with
      nodes := net.nodes.set receiver (target.readReady net.now (source.getState net.now)) } := by
  have live : target ∈ net.nodes := List.mem_of_getElem? receives
  have early := early_deliver sound.early source receives
  have sameStart := start_readReady target net.now (source.getState net.now)
  have starts := starts_set receives sameStart
  rcases readReady_cases source target net.now with ⟨later, -, taken, key⟩ | ⟨-, same⟩
  · generalize target.readReady net.now (source.getState net.now) = moved at *
    refine ⟨by rw [starts]; exact sound.distinct, ?_, early, ?_⟩
    · intro node member
      rcases List.mem_or_eq_of_mem_set member with old | rfl
      · exact sound.recorded node old
      · exact sameStart ▸ sound.recorded target live
    · intro elder among eldest node member frozen
      have every : ∀ other ∈ net.nodes, elder.start ≤ other.start := by
        intro other old
        have listed : other.start ∈ (net.nodes.set receiver moved).map Node.start :=
          starts ▸ List.mem_map_of_mem old
        obtain ⟨each, present, equal⟩ := List.mem_map.mp listed
        exact equal ▸ eldest each present
      -- the longest running node itself is never moved
      have elderLive : elder ∈ net.nodes := by
        rcases List.mem_or_eq_of_mem_set among with old | rfl
        · exact old
        · have first := every source sends
          have before := sound.early target live
          linarith
      rcases List.mem_or_eq_of_mem_set member with old | rfl
      · exact sound.settled elder elderLive every node old frozen
      · have first := every source sends
        have equal : source.start = elder.start := by linarith
        have giver : source = elder :=
          List.inj_on_of_nodup_map sound.distinct sends elderLive equal
        rw [key, giver]
  · obtain ⟨bound, found⟩ := List.getElem?_eq_some_iff.mp receives
    rw [same, ← found, List.set_getElem_self]
    exact sound

theorem Network.Sound.join (sound : net.Sound) {age offset : Rat} {key : Key}
    (other : net.now - age ∉ net.started)
    (settled : Settled (net.nodes ++ [Node.boot (net.now - age) offset key])) :
    Network.Sound { net with
      nodes := net.nodes ++ [Node.boot (net.now - age) offset key]
      started := (net.now - age) :: net.started } := by
  refine ⟨?_, fun node member => ?_, fun node member => ?_, settled⟩
  · rw [List.map_append, List.nodup_append]
    refine ⟨sound.distinct, by simp, ?_⟩
    intro left old right new equal
    obtain ⟨node, member, rfl⟩ := List.mem_map.mp old
    have fresh : right = net.now - age := by simpa using new
    exact other (fresh ▸ equal ▸ sound.recorded node member)
  · rcases List.mem_append.mp member with old | new
    · exact List.mem_cons_of_mem _ (sound.recorded node old)
    · rw [List.mem_singleton.mp new, start_boot]
      exact List.mem_cons_self
  · rcases List.mem_append.mp member with old | new
    · exact sound.early node old
    · rw [List.mem_singleton.mp new, start_boot, consensusStart_boot]

theorem Network.Sound.step (sound : net.Sound) (keeps : KeepsSettled net event)
    (step : Network.Step net event next) : next.Sound := by
  cases step with
  | pass => exact ⟨sound.distinct, sound.recorded, sound.early, sound.settled⟩
  | join past other => exact sound.join other keeps
  | @leave index =>
      have part := List.eraseIdx_sublist net.nodes index
      exact ⟨sound.distinct.sublist (part.map Node.start),
        fun node member => sound.recorded node (part.subset member),
        fun node member => sound.early node (part.subset member), keeps⟩
  | deliver sends receives => exact sound.deliver (List.mem_of_getElem? sends) receives

end Steps

/-- In every run in which the nodes are settled after each join and departure,
the live nodes hold one key whenever no packet can change a key any more. -/
theorem keys_agree {now : Rat} {finish : Network Key}
    {trace : List (Network Key × Network.Event Key)}
    (run : Run Network.Step (.initial now) trace finish) (keeps : StepsMeet KeepsSettled trace) :
    Throughout (fun net : Network Key => net.Quiet → net.Agrees) trace finish := by
  have initial : (Network.initial now : Network Key).Sound :=
    ⟨List.nodup_nil, by simp [Network.initial], by simp [Network.initial],
      by simp [Network.initial, Settled]⟩
  have sound := run.throughout initial (fun sound keeps step => sound.step keeps step) keeps
  exact ⟨fun entry member => (sound.1 entry member).agrees, sound.2.agrees⟩

section Exactness

variable {net next : Network Key} {event : Network.Event Key}

/-- A node that is out of reach stays as it is in every delivery. -/
theorem mem_deliver_of_frozen {elder node source target : Node Key} {receiver : Nat}
    (member : node ∈ net.nodes) (eldest : ∀ other ∈ net.nodes, elder.start ≤ other.start)
    (frozen : node.consensusStart ≤ elder.start) (sends : source ∈ net.nodes)
    (receives : net.nodes[receiver]? = some target) :
    node ∈ net.nodes.set receiver (target.readReady net.now (source.getState net.now)) := by
  obtain ⟨index, here⟩ := List.getElem?_of_mem member
  by_cases same : receiver = index
  · subst same
    obtain rfl : target = node := Option.some.inj (receives.symm.trans here)
    have first := eldest source sends
    rcases readReady_cases source target net.now with ⟨later, -⟩ | ⟨-, unmoved⟩
    · exact absurd (later.trans_le frozen) (not_lt.mpr first)
    · obtain ⟨bound, found⟩ := List.getElem?_eq_some_iff.mp receives
      rw [unmoved, ← found, List.set_getElem_self]
      exact found ▸ member
  · refine List.mem_of_getElem? (i := index) ?_
    rw [List.getElem?_set_ne same, here]

theorem not_settled_deliver (early : ∀ node ∈ net.nodes, node.consensusStart ≤ node.start)
    (unsettled : ¬Settled net.nodes) {receiver : Nat} {source target : Node Key}
    (sends : source ∈ net.nodes) (receives : net.nodes[receiver]? = some target) :
    ¬Settled (net.nodes.set receiver (target.readReady net.now (source.getState net.now))) := by
  intro settled
  apply unsettled
  intro elder live eldest node member frozen
  have stays := mem_deliver_of_frozen member eldest frozen sends receives
  have elderStays := mem_deliver_of_frozen live eldest (early elder live) sends receives
  have starts := starts_set receives (start_readReady target net.now (source.getState net.now))
  refine settled elder elderStays (fun other among => ?_) node stays frozen
  have listed : other.start ∈ net.nodes.map Node.start := starts ▸ List.mem_map_of_mem among
  obtain ⟨each, present, equal⟩ := List.mem_map.mp listed
  exact equal ▸ eldest each present

/-- The condition cannot be spared: once the live nodes are not settled, no
packets bring them to agree. -/
theorem not_agrees_of_not_settled {start finish : Network Key}
    {trace : List (Network Key × Network.Event Key)}
    (run : Run Network.Step start trace finish)
    (deliveries : StepsMeet (fun _ event => ∃ sender receiver, event = .deliver sender receiver) trace)
    (early : ∀ node ∈ start.nodes, node.consensusStart ≤ node.start)
    (unsettled : ¬Settled start.nodes) : ¬finish.Agrees := by
  have stays : Throughout (fun net : Network Key =>
      (∀ node ∈ net.nodes, node.consensusStart ≤ node.start) ∧ ¬Settled net.nodes) trace finish := by
    refine run.throughout ⟨early, unsettled⟩ (fun held delivery step => ?_) deliveries
    obtain ⟨sender, receiver, rfl⟩ := delivery
    cases step with
    | deliver sends receives =>
        exact ⟨early_deliver held.1 _ receives,
          not_settled_deliver held.1 held.2 (List.mem_of_getElem? sends) receives⟩
  intro agrees
  exact stays.2.2 fun elder live _ node member _ => agrees node member elder live

end Exactness

section Departure

def Network.after (net : Network Key) : Network.Event Key → Network Key
  | .pass elapsed => { net with now := net.now + elapsed }
  | .join age offset key =>
      { net with
        nodes := net.nodes ++ [Node.boot (net.now - age) offset key]
        started := (net.now - age) :: net.started }
  | .leave index => { net with nodes := net.nodes.eraseIdx index }
  | .deliver sender receiver =>
      match net.nodes[sender]?, net.nodes[receiver]? with
      | some source, some target =>
          { net with
            nodes := net.nodes.set receiver (target.readReady net.now (source.getState net.now)) }
      | _, _ => net

/-- Three nodes start one after the other; the third hears the first, which then leaves. -/
def departure : List (Network.Event Nat) :=
  [.join 0 0 1, .pass 1, .join 0 0 2, .pass 1, .join 0 0 3, .deliver 0 2, .leave 0]

theorem departure_run (count : Nat) :
    Run Network.Step (.initial 0) (traceOf Network.after (.initial 0) (departure.take count))
      ((departure.take count).foldl Network.after (.initial 0)) := by
  refine Run.of_trace _ _ fun entry member => ?_
  rw [traceOf_take] at member
  have whole := List.mem_of_mem_take member
  simp only [departure, traceOf, List.mem_cons, List.not_mem_nil, or_false] at whole
  rcases whole with rfl | rfl | rfl | rfl | rfl | rfl | rfl
  · exact .join (by decide) (by decide +kernel)
  · exact .pass (by decide)
  · exact .join (by decide) (by decide +kernel)
  · exact .pass (by decide)
  · exact .join (by decide) (by decide +kernel)
  · exact .deliver rfl rfl
  · exact .leave

/-- The first node's key stays with the third after the first has left, and
the second can neither take it nor replace it. -/
theorem keys_differ_after_departure :
    ∃ (finish : Network Nat) (trace : List (Network Nat × Network.Event Nat)),
      Run Network.Step (.initial 0) trace finish ∧ finish.Quiet ∧ ¬finish.Agrees :=
  ⟨_, _, departure_run 7, by decide +kernel, by decide +kernel⟩

theorem keys_agree_before_departure :
    Throughout (fun net : Network Nat => net.Quiet → net.Agrees)
      (traceOf Network.after (.initial 0) (departure.take 6))
      ((departure.take 6).foldl Network.after (.initial 0)) := by
  refine keys_agree (departure_run 6) fun entry member => ?_
  simp only [departure, List.take, traceOf, List.mem_cons, List.not_mem_nil, or_false] at member
  rcases member with rfl | rfl | rfl | rfl | rfl | rfl
  · show Settled _
    decide +kernel
  · trivial
  · show Settled _
    decide +kernel
  · trivial
  · show Settled _
    decide +kernel
  · trivial

end Departure

end Gfiber.Waveguide
