import Mathlib.Data.Rat.Defs

/-! The consensus key of the waveguide nodes of a network. Times are exact
seconds: a packet is delivered in the instant it is sent or not at all. -/

set_option autoImplicit false

namespace Gfiber.Waveguide

/-- `consensus_key` and `consensus_start`, once they are set. -/
structure Consensus (Key : Type) where
  key : Key
  start : Rat
deriving DecidableEq, Repr

variable {Key : Type} [DecidableEq Key]

/-- `UpdateConsensus` at the local time `gettime`, with its result. -/
def updateConsensus (gettime : Rat) (current : Option (Consensus Key)) (newUptimeMs : Rat)
    (newConsensusKey : Key) : Consensus Key × Bool :=
  let newConsensusStart := gettime - newUptimeMs / 1000
  match current with
  | none => (⟨newConsensusKey, newConsensusStart⟩, true)
  | some current =>
      if newConsensusStart < current.start ∧ current.key ≠ newConsensusKey then
        (⟨newConsensusKey, newConsensusStart⟩, true)
      else (current, false)

/-- The part of a packet's `Me` that the consensus reads. -/
structure Advert (Key : Type) where
  uptimeMs : Rat
  consensusKey : Key
deriving DecidableEq, Repr

/-- A node with its own clock, which is ahead of the common time by `offset`. -/
structure Node (Key : Type) where
  offset : Rat
  starttime : Rat
  consensus : Consensus Key
deriving DecidableEq, Repr

namespace Node

def gettime (node : Node Key) (now : Rat) : Rat :=
  now + node.offset

/-- A process that starts at the time `now` seeds the consensus with its own key. -/
def boot (now offset : Rat) (key : Key) : Node Key where
  offset := offset
  starttime := now + offset
  consensus := (updateConsensus (now + offset) none 0 key).1

def getState (node : Node Key) (now : Rat) : Advert Key where
  uptimeMs := (node.gettime now - node.starttime) * 1000
  consensusKey := node.consensus.key

def readReady (node : Node Key) (now : Rat) (advert : Advert Key) : Node Key :=
  { node with
    consensus :=
      (updateConsensus (node.gettime now) (some node.consensus) advert.uptimeMs
        advert.consensusKey).1 }

/-- The start of the node and the start it compares with, in common time. -/
def start (node : Node Key) : Rat :=
  node.starttime - node.offset

def consensusStart (node : Node Key) : Rat :=
  node.consensus.start - node.offset

end Node

/-- The live nodes, and the start times of all that ever joined. -/
structure Network (Key : Type) where
  now : Rat
  nodes : List (Node Key)
  started : List Rat
deriving DecidableEq, Repr

inductive Network.Event (Key : Type) where
  | pass (elapsed : Rat)
  | join (age offset : Rat) (key : Key)
  | leave (index : Nat)
  | deliver (sender receiver : Nat)
deriving DecidableEq, Repr

namespace Network

/-- Joining nodes may have been running, unheard, for any time. Lost packets
change nothing and have no step. -/
inductive Step : Network Key → Event Key → Network Key → Prop where
  | pass {net : Network Key} {elapsed : Rat} (forward : 0 ≤ elapsed) :
      Step net (.pass elapsed) { net with now := net.now + elapsed }
  | join {net : Network Key} {age offset : Rat} {key : Key} (past : 0 ≤ age)
      (other : net.now - age ∉ net.started) :
      Step net (.join age offset key)
        { net with
          nodes := net.nodes ++ [Node.boot (net.now - age) offset key]
          started := (net.now - age) :: net.started }
  | leave {net : Network Key} {index : Nat} :
      Step net (.leave index) { net with nodes := net.nodes.eraseIdx index }
  | deliver {net : Network Key} {sender receiver : Nat} {source target : Node Key}
      (sends : net.nodes[sender]? = some source) (receives : net.nodes[receiver]? = some target) :
      Step net (.deliver sender receiver)
        { net with
          nodes := net.nodes.set receiver (target.readReady net.now (source.getState net.now)) }

def initial (now : Rat) : Network Key :=
  ⟨now, [], []⟩

/-- No packet that a live node would send changes the key of a live node. -/
def Quiet (net : Network Key) : Prop :=
  ∀ source ∈ net.nodes, ∀ target ∈ net.nodes,
    (target.readReady net.now (source.getState net.now)).consensus.key = target.consensus.key

def Agrees (net : Network Key) : Prop :=
  ∀ left ∈ net.nodes, ∀ right ∈ net.nodes, left.consensus.key = right.consensus.key

instance (net : Network Key) : Decidable net.Quiet :=
  inferInstanceAs (Decidable (∀ source ∈ net.nodes, ∀ target ∈ net.nodes,
    (target.readReady net.now (source.getState net.now)).consensus.key = target.consensus.key))

instance (net : Network Key) : Decidable net.Agrees :=
  inferInstanceAs (Decidable (∀ left ∈ net.nodes, ∀ right ∈ net.nodes,
    left.consensus.key = right.consensus.key))

end Network

end Gfiber.Waveguide
