import Mathlib.Data.Fintype.Basic
import Mathlib.Logic.Function.Basic
import Gfiber.Lib.Iteration

/-! The status of conman: propositions that imply and exclude one another, each
exported as a file, and disjunctions of them over the interfaces. -/

set_option autoImplicit false

namespace Gfiber.Conman

open Lib

/-- The relations between propositions, and the disjunctions they are part of.
The sets are lists without duplicates. -/
structure Network (Proposition Disjunction : Type) where
  implications : Proposition → List Proposition
  counterImplications : Proposition → List Proposition
  impliers : Proposition → List Proposition
  counterImpliers : Proposition → List Proposition
  parents : Proposition → List Disjunction
  disjuncts : Disjunction → List Proposition

/-- The orders in which the sets of a proposition are gone through. -/
structure SetOrders (Proposition Disjunction : Type) where
  implications : Proposition → IterationOrder Proposition
  counterImplications : Proposition → IterationOrder Proposition
  impliers : Proposition → IterationOrder Proposition
  counterImpliers : Proposition → IterationOrder Proposition
  parents : Proposition → IterationOrder Disjunction

def SetOrders.inserted {Proposition Disjunction : Type} : SetOrders Proposition Disjunction :=
  ⟨fun _ => .inserted, fun _ => .inserted, fun _ => .inserted, fun _ => .inserted,
    fun _ => .inserted⟩

/-- The values, and which of the exported files are there. -/
structure Board (Proposition Disjunction : Type) where
  value : Proposition → Option Bool
  file : Proposition → Bool
  parentFile : Disjunction → Bool

variable {Proposition Disjunction : Type}

/-- All values unset, no files. -/
def Board.start : Board Proposition Disjunction :=
  ⟨fun _ => none, fun _ => false, fun _ => false⟩

section Linking

variable [DecidableEq Proposition]

def addTo (set : Proposition → List Proposition) (p member : Proposition) :
    Proposition → List Proposition :=
  Function.update set p ((set p).insert member)

def discardFrom (set : Proposition → List Proposition) (p member : Proposition) :
    Proposition → List Proposition :=
  Function.update set p ((set p).filter fun other => other ≠ member)

namespace Network

variable (net : Network Proposition Disjunction)

def impliedBy (p implier : Proposition) : Network Proposition Disjunction :=
  { net with
    counterImpliers := discardFrom net.counterImpliers p implier
    impliers := addTo net.impliers p implier }

def counterImpliedBy (p counterImplier : Proposition) : Network Proposition Disjunction :=
  { net with
    impliers := discardFrom net.impliers p counterImplier
    counterImpliers := addTo net.counterImpliers p counterImplier }

def implies (p implication : Proposition) : Network Proposition Disjunction :=
  impliedBy
    { net with
      counterImplications := discardFrom net.counterImplications p implication
      implications := addTo net.implications p implication }
    implication p

def impliesNot (p counterImplication : Proposition) : Network Proposition Disjunction :=
  counterImpliedBy
    { net with
      implications := discardFrom net.implications p counterImplication
      counterImplications := addTo net.counterImplications p counterImplication }
    counterImplication p

end Network

/-- A call that builds the network. -/
inductive Link (Proposition : Type) where
  | implies (p implication : Proposition)
  | impliesNot (p counterImplication : Proposition)
deriving DecidableEq, Repr

def Network.link (net : Network Proposition Disjunction) :
    Link Proposition → Network Proposition Disjunction
  | .implies p implication => net.implies p implication
  | .impliesNot p counterImplication => net.impliesNot p counterImplication

/-- Propositions without relations, and the disjunctions with their parts. -/
def Network.unlinked (parents : Proposition → List Disjunction)
    (disjuncts : Disjunction → List Proposition) : Network Proposition Disjunction :=
  ⟨fun _ => [], fun _ => [], fun _ => [], fun _ => [], parents, disjuncts⟩

def Network.build (parents : Proposition → List Disjunction)
    (disjuncts : Disjunction → List Proposition) (links : List (Link Proposition)) :
    Network Proposition Disjunction :=
  links.foldl Network.link (.unlinked parents disjuncts)

end Linking

section Setting

/-- The file is made when it is missing, and removed when it is there. -/
def exportFile (value present : Bool) : Bool :=
  if value then if present then present else true
  else if present then false else present

variable [DecidableEq Proposition] [DecidableEq Disjunction]
  (net : Network Proposition Disjunction) (orders : SetOrders Proposition Disjunction)

namespace Board

variable (board : Board Proposition Disjunction)

def exportProposition (p : Proposition) : Board Proposition Disjunction :=
  { board with
    file := Function.update board.file p
      (exportFile (board.value p = some true) (board.file p)) }

/-- `any(d.value() for d in self.disjuncts)` is exported. -/
def exportDisjunction (parent : Disjunction) : Board Proposition Disjunction :=
  { board with
    parentFile := Function.update board.parentFile parent
      (exportFile ((net.disjuncts parent).any fun p => board.value p = some true)
        (board.parentFile parent)) }

/-- A value changes and is exported, and with it the disjunctions it is part of. -/
def change (p : Proposition) (value : Bool) : Board Proposition Disjunction :=
  ((orders.parents p).arrange (net.parents p)).foldl (exportDisjunction net)
    (exportProposition { board with value := Function.update board.value p (some value) } p)

end Board

/-- `set`, to a bounded depth of recursion. -/
def set : Nat → Board Proposition Disjunction → Proposition → Bool →
    Option (Board Proposition Disjunction)
  | 0, _, _, _ => none
  | depth + 1, board, p, value =>
      if board.value p = some value then some board
      else
        let board := board.change net orders p value
        if value then do
          let board ← ((orders.implications p).arrange (net.implications p)).foldlM
            (fun board implication => set depth board implication true) board
          let board ← ((orders.counterImplications p).arrange (net.counterImplications p)).foldlM
            (fun board counterImplication => set depth board counterImplication false) board
          ((orders.counterImpliers p).arrange (net.counterImpliers p)).foldlM
            (fun board counterImplier => set depth board counterImplier false) board
        else
          ((orders.impliers p).arrange (net.impliers p)).foldlM
            (fun board implier => set depth board implier false) board

end Setting

/-- The propositions about conman's status. -/
inductive P where
  | tryingOpen
  | tryingWlan
  | wlanFailed
  | connectedToOpen
  | connectedToWlan
  | haveConfig
  | haveWorkingConfig
  | canReachAcs
  | couldReachAcs
  | canReachInternet
  | provisioningFailed
  | waitingForProvisioning
  | waitingForDhcp
  | acsConnectionCheck
  | waitingForCwmpWakeup
  | waitingForAcsSession
  | provisioningCompleted
deriving DecidableEq, Repr

/-- The members of the class. -/
def P.members : List P :=
  [.tryingOpen, .tryingWlan, .wlanFailed, .connectedToOpen, .connectedToWlan, .haveConfig,
    .haveWorkingConfig, .canReachAcs, .couldReachAcs, .canReachInternet, .provisioningFailed,
    .waitingForProvisioning, .waitingForDhcp, .acsConnectionCheck, .waitingForCwmpWakeup,
    .waitingForAcsSession, .provisioningCompleted]

instance : Fintype P :=
  .ofList P.members fun p => by cases p <;> decide

/-- The dictionary `IMPLICATIONS`: what each proposition implies and what it excludes. -/
def implicationsTable : List (P × List P × List P) :=
  [(.tryingOpen, [], [.connectedToOpen, .tryingWlan, .connectedToWlan, .waitingForProvisioning]),
    (.tryingWlan, [], [.tryingOpen, .connectedToOpen, .connectedToWlan, .waitingForProvisioning]),
    (.wlanFailed, [], [.tryingWlan, .connectedToWlan]),
    (.connectedToOpen, [], [.connectedToWlan, .tryingOpen, .tryingWlan]),
    (.connectedToWlan, [.haveWorkingConfig],
      [.connectedToOpen, .tryingOpen, .tryingWlan, .waitingForProvisioning]),
    (.canReachAcs, [.couldReachAcs], [.tryingOpen, .tryingWlan]),
    (.couldReachAcs, [], []),
    (.provisioningFailed, [], [.waitingForProvisioning, .provisioningCompleted]),
    (.haveWorkingConfig, [.haveConfig], []),
    (.waitingForProvisioning, [.connectedToOpen], []),
    (.waitingForDhcp, [.waitingForProvisioning], [.waitingForCwmpWakeup, .waitingForAcsSession]),
    (.acsConnectionCheck, [.waitingForProvisioning],
      [.waitingForDhcp, .waitingForCwmpWakeup, .waitingForAcsSession]),
    (.waitingForCwmpWakeup, [.waitingForProvisioning],
      [.waitingForDhcp, .acsConnectionCheck, .waitingForAcsSession]),
    (.waitingForAcsSession, [.waitingForProvisioning],
      [.waitingForDhcp, .acsConnectionCheck, .waitingForCwmpWakeup]),
    (.provisioningCompleted, [], [.waitingForProvisioning, .provisioningFailed])]

/-- The calls that `_set_up_propositions` makes, in the order of the dictionary. -/
def setUpLinks (order : IterationOrder (P × List P × List P)) : List (Link P) :=
  (order.arrange implicationsTable).flatMap fun (p, implications, counterImplications) =>
    implications.map (Link.implies p) ++ counterImplications.map (Link.impliesNot p)

/-- The propositions of one interface, without the composite status. -/
def statusNetwork (order : IterationOrder (P × List P × List P)) : Network P Empty :=
  .build (fun _ => []) Empty.elim (setUpLinks order)

section Composite

def Link.map {Proposition Other : Type} (f : Proposition → Other) : Link Proposition → Link Other
  | .implies p implication => .implies (f p) (f implication)
  | .impliesNot p counterImplication => .impliesNot (f p) (f counterImplication)

/-- The calls that set up the children, one child after the other. Each has an
`IMPLICATIONS.iteritems()` of its own. -/
def childLinks {children : Nat} (order : Fin children → IterationOrder (P × List P × List P)) :
    List (Link (Fin children × P)) :=
  (List.finRange children).flatMap fun child => (setUpLinks (order child)).map (Link.map (child, ·))

/-- A `CompositeStatus`: its proposition is the disjunction of that proposition
in the children, and every child exports into a directory of its own. -/
def compositeNetwork {children : Nat}
    (order : Fin children → IterationOrder (P × List P × List P)) :
    Network (Fin children × P) P :=
  .build (fun (_, p) => [p]) (fun p => (List.finRange children).map (·, p)) (childLinks order)

end Composite

end Gfiber.Conman
