import Mathlib.Data.Finset.Sort
import Gfiber.Lib.Run

/-! The experiments of several processes that share a directory of state files. -/

set_option autoImplicit false

namespace Gfiber.Libexperiments

open Lib

section Objects

variable {Name : Type}

/-- The names for which there is a state file in the directory. -/
structure ConfigDir (Name : Type) where
  active : Finset Name
  requested : Finset Name
  unrequested : Finset Name

/-- The object of a process, with the names that `Refresh` has still to update. -/
structure Experiments (Name : Type) where
  registered : Finset Name
  enabled : Finset Name
  refreshing : List Name

def Experiments.new : Experiments Name :=
  ⟨∅, ∅, []⟩

/-- The answer without a new refresh. -/
def Experiments.isEnabled (experiments : Experiments Name) (name : Name) : Prop :=
  name ∈ experiments.enabled

variable [LinearOrder Name]

instance (experiments : Experiments Name) (name : Name) :
    Decidable (experiments.isEnabled name) :=
  inferInstanceAs (Decidable (name ∈ experiments.enabled))

/-- `Register_Locked` for one name, with the answer of `register_func_`. -/
def Experiments.register (experiments : Experiments Name) (dir : ConfigDir Name) (name : Name)
    (answer : Bool) : Experiments Name :=
  if name ∈ experiments.registered then experiments
  else if !answer then experiments
  else
    { experiments with
      registered := insert name experiments.registered
      enabled :=
        if name ∈ dir.active then insert name experiments.enabled else experiments.enabled }

def Experiments.updateState (experiments : Experiments Name) (dir : ConfigDir Name) (name : Name) :
    Experiments Name × ConfigDir Name :=
  if name ∉ experiments.registered then (experiments, dir)
  else if name ∈ experiments.enabled then
    if name ∈ dir.unrequested then
      ({ experiments with enabled := experiments.enabled.erase name },
        { dir with
          active := dir.active.erase name
          unrequested := dir.unrequested.erase name })
    else (experiments, dir)
  else if name ∈ dir.requested then
    ({ experiments with enabled := insert name experiments.enabled },
      { dir with
        active := insert name dir.active
        requested := dir.requested.erase name })
  else (experiments, dir)

end Objects

section Systems

variable {Process Name : Type}

/-- The processes over their directory, and the one whose refresh has just ended. -/
structure System (Process Name : Type) where
  dir : ConfigDir Name
  objects : Process → Experiments Name
  refreshed : Option Process

def System.start (dir : ConfigDir Name) : System Process Name :=
  ⟨dir, fun _ => .new, none⟩

inductive Event (Process Name : Type) where
  | register (process : Process) (name : Name) (answer : Bool)
  | refresh (process : Process)
  | update (process : Process)
  | request (name : Name)
  | unrequest (name : Name)

variable [DecidableEq Process]

/-- The system after one process has acted. -/
def System.set (system : System Process Name) (dir : ConfigDir Name) (process : Process)
    (object : Experiments Name) (refreshed : Option Process) : System Process Name :=
  ⟨dir, Function.update system.objects process object, refreshed⟩

theorem System.objects_set (system : System Process Name) (dir : ConfigDir Name)
    (process : Process) (object : Experiments Name) (refreshed : Option Process) :
    (system.set dir process object refreshed).objects process = object :=
  Function.update_self _ _ _

theorem System.objects_set_of_ne (system : System Process Name) {dir : ConfigDir Name}
    {process other : Process} {object : Experiments Name} {refreshed : Option Process}
    (apart : other ≠ process) :
    (system.set dir process object refreshed).objects other = system.objects other :=
  Function.update_of_ne apart _ _

def ended (process : Process) (refreshing : List Name) : Option Process :=
  if refreshing = [] then some process else none

variable [LinearOrder Name]

/-- `Refresh` goes through the names in their order. A process does nothing else
until it is through. -/
inductive System.Step :
    System Process Name → Event Process Name → System Process Name → Prop
  | register {system : System Process Name} {process : Process} {name : Name} {answer : Bool}
      (idle : (system.objects process).refreshing = []) :
      Step system (.register process name answer)
        (system.set system.dir process
          ((system.objects process).register system.dir name answer) none)
  | refresh {system : System Process Name} {process : Process} {names : List Name}
      (idle : (system.objects process).refreshing = [])
      (all : names = (system.objects process).registered.sort (· ≤ ·)) :
      Step system (.refresh process)
        (system.set system.dir process { system.objects process with refreshing := names }
          (ended process names))
  | update {system : System Process Name} {process : Process} {name : Name} {rest : List Name}
      {updated : Experiments Name} {dir : ConfigDir Name}
      (pending : (system.objects process).refreshing = name :: rest)
      (update : (system.objects process).updateState system.dir name = (updated, dir)) :
      Step system (.update process)
        (system.set dir process { updated with refreshing := rest } (ended process rest))
  | request {system : System Process Name} {name : Name} :
      Step system (.request name)
        ⟨{ system.dir with requested := insert name system.dir.requested }, system.objects, none⟩
  | unrequest {system : System Process Name} {name : Name} :
      Step system (.unrequest name)
        ⟨{ system.dir with unrequested := insert name system.dir.unrequested }, system.objects,
          none⟩

/-- After its refresh a process answers what the directory says. -/
def System.Agreed (system : System Process Name) : Prop :=
  ∀ process, system.refreshed = some process →
    ∀ name ∈ (system.objects process).registered,
      (system.objects process).isEnabled name ↔ name ∈ system.dir.active

end Systems

end Gfiber.Libexperiments
