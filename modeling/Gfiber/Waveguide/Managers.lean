import Mathlib.Data.List.Sort
import Mathlib.Data.List.Lex
import Mathlib.Data.List.Dedup
import Mathlib.Data.Prod.Lex
import Gfiber.Lib.Text
import Gfiber.Lib.Iteration

/-! The managers of the local AP interfaces: one for each AP vdev that `iw dev`
lists, the first vdev of a phy being the primary one. -/

set_option autoImplicit false

namespace Gfiber.Waveguide

open Lib

section ParseDevList

/-- The variables of `ParseDevList`; `phyDevs` has its keys as they were first used. -/
structure DevParser where
  phy : Option Text
  dev : Option Text
  devtype : Option Text
  phyDevs : List (Text × List Text)
deriving DecidableEq, Repr

def DevParser.start : DevParser := ⟨none, none, none, []⟩

/-- `phy_devs[phy].append(dev)` -/
def appendDev (phy dev : Text) : List (Text × List Text) → List (Text × List Text)
  | [] => [(phy, [dev])]
  | (name, devs) :: rest =>
      if name = phy then (name, devs ++ [dev]) :: rest
      else (name, devs) :: appendDev phy dev rest

def DevParser.addEntry (parser : DevParser) : DevParser :=
  match parser.phy, parser.dev with
  | some phy, some dev =>
      if parser.devtype = some "AP".toList then
        { parser with phyDevs := appendDev phy dev parser.phyDevs }
      else parser
  | _, _ => parser

def isDevChar (char : Char) : Bool :=
  char = '_' || Text.isLetter char || Text.isDigit char || char = '.'

namespace DevParser

def newPhy (parser : DevParser) (line : Text) : DevParser :=
  match Text.matchGroup "phy#".toList Text.isDigit line with
  | some number =>
      { parser.addEntry with phy := some ("phy".toList ++ number), dev := none, devtype := none }
  | none => parser

def newInterface (parser : DevParser) (line : Text) : DevParser :=
  match Text.matchGroup "Interface ".toList isDevChar line with
  | some dev => { parser.addEntry with dev := some dev, devtype := none }
  | none => parser

def newType (parser : DevParser) (line : Text) : DevParser :=
  match Text.matchGroup "type ".toList Text.isWord line with
  | some devtype => { parser with devtype := some devtype }
  | none => parser

def parseLine (parser : DevParser) (line : Text) : DevParser :=
  let line := Text.strip line
  ((parser.newPhy line).newInterface line).newType line

end DevParser

def parseDevList (stdout : Text) : List (Text × List Text) :=
  ((stdout.splitOn '\n').foldl DevParser.parseLine .start).addEntry.phyDevs

end ParseDevList

/-- What the choice of the primary needs of a manager. -/
structure WlanManager where
  phyname : Text
  vdevname : Text
  primary : Bool
deriving DecidableEq, Repr

/-- The key `(len(dev), dev)`. -/
def devKey (dev : Text) : ℕ ×ₗ Text :=
  toLex (dev.length, dev)

def sortDevs (devs : List Text) : List Text :=
  devs.insertionSort fun left right => devKey left ≤ devKey right

/-- The loop over the sorted vdevs of a phy, from index `i` on. -/
def addManagers (existing : List Text) (phy : Text) (i : Nat) :
    List Text → List WlanManager → List WlanManager
  | [], managers => managers
  | dev :: devs, managers =>
      addManagers existing phy (i + 1) devs
        (if dev ∈ existing then managers else managers ++ [⟨phy, dev, i = 0⟩])

/-- `managers.remove(m)` for a vdev that is no longer there. Under its name the
dictionary holds the last manager with it. -/
def forget (newDevs : List Text) (managers : List WlanManager) (dev : Text) : List WlanManager :=
  if dev ∈ newDevs then managers
  else (managers.reverse.eraseP fun m => m.vdevname = dev).reverse

/-- One call, with the orders in which the two dictionaries are gone through.
`none` is the exception for a failed command. -/
structure Call where
  errcode : Int
  stdout : Text
  phyOrder : IterationOrder (Text × List Text)
  devOrder : IterationOrder Text

def createManagers (managers : List WlanManager) (call : Call) : Option (List WlanManager) :=
  if call.errcode ≠ 0 then none
  else
    let phyDevs := call.phyOrder.arrange (parseDevList call.stdout)
    let existing := (managers.map WlanManager.vdevname).dedup
    let newDevs := phyDevs.flatMap Prod.snd
    let added := phyDevs.foldl
      (fun managers entry => addManagers existing entry.1 0 (sortDevs entry.2) managers) managers
    some ((call.devOrder.arrange existing).foldl (forget newDevs) added)

end Gfiber.Waveguide
