import Gfiber.Lib.Json
import Gfiber.Conman.ConnectionManager
import Gfiber.Conman.Routes

/-! The events for files in all the directories that are watched, with the updates of the
routes that they lead to. The commands that are run for them are taken to return. -/

set_option autoImplicit false

namespace Gfiber.Conman

open Lib

inductive WatchedDir where
  | interfaceStatus
  | config
  | tmp
  | mocaTmp
  | interface
deriving DecidableEq, Repr

/-- What comes of opening and reading a file. -/
inductive ReadResult where
  | contents (text : Text)
  | noEntry
  | otherError

/-- What comes of `json.loads`, which raises more than a `ValueError` for values that are
nested too deeply. -/
inductive Loaded where
  | value (json : Json)
  | valueError
  | otherError

/-- What a handler raises, or that a loop of it never ends. -/
inductive EventError where
  | ioError
  | valueError
  | typeError
  | keyError
  | attributeError
  | loadsError
  | endlessLoop
deriving DecidableEq, Repr

/-- The radios with the names of the interfaces, the parser of the standard library, and
the commands for the table of routes. -/
structure Host where
  device : Device
  bridge : Text
  wifi : List Text
  loads : Text → Loaded
  ip : IpRoute

/-- What is done to an interface, by its place in `interfaces()`, and the run of
`ifplugd.action` for `moca0`. -/
inductive InterfaceCall where
  | recentlyReset (interface : Nat)
  | ifplugdAction (up : Bool)
deriving DecidableEq, Repr

/-- The update for which the connection of an interface is checked. -/
inductive UpdateCause where
  | subnet
  | gateway
  | link
deriving DecidableEq, Repr

/-- What the checks find, of which each is for the ACS or for the internet. -/
abbrev ConnectionChecks := UpdateCause → Bool → Option Bool

/-- The settings are those of the interfaces, by their places. -/
structure FileWatcher where
  manager : ConnectionManager
  ethernet : Bool
  mocaStations : List Json
  calls : List InterfaceCall
  settings : Nat → RouteSettings
  table : List Route

def FileWatcher.start (internet ethernet : Bool) (settings : Nat → RouteSettings)
    (table : List Route) : FileWatcher :=
  ⟨.start internet, ethernet, [], [], settings, table⟩

def ethernetStatusFile : Text := "eth0".toList

def gatewayFile : Text := "gateway.".toList

def subnetFile : Text := "subnet.".toList

def mocaNodeFile : Text := "node".toList

/-- `hash(value)` is defined. -/
def hashable : Json → Bool
  | .list _ => false
  | .dict _ => false
  | _ => true

/-- A key of a dictionary, as code points. -/
def jsonKey (key : String) : List Nat :=
  key.toList.map Char.toNat

/-- What follows the last occurrence of a text that does not overlap itself. -/
def afterLast (literal : Text) : Text → Option Text
  | [] => none
  | char :: rest => (afterLast literal rest).or (Text.afterLiteral literal (char :: rest))

/-- `filename.split(literal)[-1]`. -/
def interfaceName (literal filename : Text) : Text :=
  (afterLast literal filename).getD filename

/-- `re.match(r'^node\d+$', filename)`, whose `$` also matches before a newline at the end. -/
def isNodeFile (filename : Text) : Bool :=
  match Text.afterLiteral mocaNodeFile filename with
  | some rest =>
      let digits := if rest.getLast? = some '\n' then rest.dropLast else rest
      digits ≠ [] && digits.all Text.isDigit
  | none => false

def Host.interfaceByName (host : Host) (name : Text) : Option Nat :=
  (host.bridge :: host.wifi).findIdx? fun other => other = name

def Host.interfaceName (host : Host) (ifc : Nat) : Text :=
  (host.bridge :: host.wifi).getD ifc []

namespace FileWatcher

variable (host : Host) (answers : Answers) (checks : ConnectionChecks) (watcher : FileWatcher)

def call (made : InterfaceCall) : FileWatcher :=
  { watcher with calls := watcher.calls ++ [made] }

def setSettings (ifc : Nat) (settings : RouteSettings) : FileWatcher :=
  { watcher with settings := Function.update watcher.settings ifc settings }

/-- The bridge has a link. -/
def linked : Bool :=
  watcher.ethernet || !watcher.mocaStations.isEmpty

/-- The settings of an interface. The links of the bridge are its ethernet and MoCA. -/
def settingsOf (ifc : Nat) : RouteSettings :=
  if ifc = 0 then { watcher.settings 0 with links := watcher.linked } else watcher.settings ifc

def updateRoutes (cause : UpdateCause) (ifc : Nat) : Except EventError FileWatcher :=
  match (watcher.settingsOf ifc).updateRoutes host.ip (host.interfaceName ifc) (checks cause)
      watcher.table with
  | some (settings, table) => .ok { watcher.setSettings ifc settings with table := table }
  | none => .error .endlessLoop

/-- A link of the bridge has come or gone. -/
def relink (isUp : Bool) : FileWatcher :=
  watcher.setSettings 0 ((watcher.settings 0).relinked isUp)

/-- The end of `_set_link_status`. -/
def setLinkStatus (isUp hadLinks : Bool) : Except EventError FileWatcher :=
  if hadLinks = watcher.linked then .ok (watcher.relink isUp)
  else (watcher.relink isUp).updateRoutes host checks .link 0

def setEthernet (isUp : Bool) : Except EventError FileWatcher :=
  if isUp = watcher.ethernet then .ok watcher
  else { watcher with ethernet := isUp }.setLinkStatus host checks isUp watcher.linked

/-- The file of the ethernet status; the `ValueError` of `int` is caught. -/
def processStatusFile (filename contents : Text) : Except EventError FileWatcher :=
  if filename = ethernetStatusFile then
    match parseInt contents with
    | some value => watcher.setEthernet host checks (value ≠ 0)
    | none => .ok watcher
  else .ok watcher

def processConfigFile (filename text : Text) : Except EventError FileWatcher :=
  match watcher.manager.step host.device (.written filename text answers) with
  | some manager => .ok { watcher with manager := manager }
  | none => .error .valueError

def withSubnet (ifc : Nat) (subnet : Text) : FileWatcher :=
  watcher.setSettings ifc { (watcher.settings ifc).expired with subnet := some subnet }

def setSubnet (ifc : Nat) (subnet : Text) : Except EventError FileWatcher :=
  (watcher.withSubnet ifc subnet).updateRoutes host checks .subnet ifc

def withGatewayIp (ifc : Nat) (gatewayIp : Text) : FileWatcher :=
  watcher.setSettings ifc { (watcher.settings ifc).expired with gatewayIp := some gatewayIp }

def setGatewayIp (ifc : Nat) (gatewayIp : Text) : Except EventError FileWatcher :=
  (watcher.withGatewayIp ifc gatewayIp).updateRoutes host checks .gateway ifc

def processSubnetFile (filename contents : Text) : Except EventError FileWatcher :=
  if (Text.afterLiteral subnetFile filename).isSome then
    match host.interfaceByName (interfaceName subnetFile filename) with
    | some ifc => watcher.setSubnet host checks ifc contents
    | none => .ok watcher
  else .ok watcher

def setGateway (name contents : Text) : Except EventError FileWatcher :=
  match host.interfaceByName name with
  | some ifc => watcher.setGatewayIp host checks ifc contents
  | none => .ok watcher

/-- The subnet file is processed before the gateway is set. -/
def processGatewayFile (read : Text → ReadResult) (filename contents : Text) :
    Except EventError FileWatcher :=
  let name := interfaceName gatewayFile filename
  match read (subnetFile ++ name) with
  | .contents text => do
      let watcher ← watcher.processSubnetFile host checks (subnetFile ++ name) (Text.strip text)
      watcher.setGateway host checks name contents
  | .noEntry => watcher.setGateway host checks name contents
  | .otherError => .error .ioError

def processTmpFile (read : Text → ReadResult) (filename contents : Text) :
    Except EventError FileWatcher :=
  if (Text.afterLiteral gatewayFile filename).isSome then
    watcher.processGatewayFile host checks read filename contents
  else watcher.processSubnetFile host checks filename contents

/-- The station goes if it does not receive, and else is added unless it is there. -/
def stationsAfter (node : Json) (receives : Bool) : List Json :=
  if receives then
    if watcher.mocaStations.any node.equal then watcher.mocaStations
    else watcher.mocaStations ++ [node]
  else watcher.mocaStations.filter fun other => !node.equal other

/-- `moca` is a link of the bridge while there is a station. -/
def updateStations (node : Json) (receives : Bool) : Except EventError FileWatcher :=
  let next := { watcher with mocaStations := watcher.stationsAfter node receives }
  if watcher.mocaStations.isEmpty = next.mocaStations.isEmpty then .ok next
  else do
    let isUp := !next.mocaStations.isEmpty
    let next ← next.setLinkStatus host checks isUp watcher.linked
    return next.call (.ifplugdAction isUp)

/-- `json_contents.get('RxNBAS', 0) != 0`. -/
def receives (entries : List (List Nat × Json)) : Bool :=
  !((entries.lookup (jsonKey "RxNBAS")).getD (.number (.int 0))).equal (.number (.int 0))

/-- The node has to be in a dictionary, and be one that can be in a set. -/
def processNode : Json → Except EventError FileWatcher
  | .dict entries =>
      match entries.lookup (jsonKey "NodeId") with
      | none => .error .keyError
      | some node =>
          if hashable node then watcher.updateStations host checks node (receives entries)
          else .error .typeError
  | _ => .error .typeError

def processMocaFile (filename contents : Text) : Except EventError FileWatcher :=
  if isNodeFile filename then
    match host.loads contents with
    | .value json => watcher.processNode host checks json
    | .valueError => .ok watcher
    | .otherError => .error .loadsError
  else .ok watcher

/-- Setting an attribute of the interface, which may be `None`. -/
def processInterfaceFile (filename : Text) : Except EventError FileWatcher :=
  match host.interfaceByName filename with
  | some ifc => .ok (watcher.call (.recentlyReset ifc))
  | none => .error .attributeError

/-- `_process_file`, with what comes of opening any file of the directory. -/
def processFile (dir : WatchedDir) (filename : Text) (read : Text → ReadResult) :
    Except EventError FileWatcher :=
  match read filename with
  | .noEntry => .ok watcher
  | .otherError => .error .ioError
  | .contents text =>
      match dir with
      | .interfaceStatus => watcher.processStatusFile host checks filename (Text.strip text)
      | .config => watcher.processConfigFile host answers filename text
      | .tmp => watcher.processTmpFile host checks read filename (Text.strip text)
      | .mocaTmp => watcher.processMocaFile host checks filename (Text.strip text)
      | .interface => watcher.processInterfaceFile host filename

/-- The interface of a band is told when the last configuration is gone, and may be `None`. -/
def handleDeletedFile (dir : WatchedDir) (filename : Text) : Except EventError FileWatcher :=
  if dir = .config then
    let manager := watcher.manager.handleDeletedFile host.device answers filename
    match watcher.manager.configFor commandFile filename with
    | some (band, _) =>
        if manager.wlanConfiguration .ghz24 = none ∧ manager.wlanConfiguration .ghz5 = none ∧
            host.device.wifiForBand band = none then
          .error .attributeError
        else .ok { watcher with manager := manager }
    | none => .ok { watcher with manager := manager }
  else .ok watcher

def handleEvent (dir : WatchedDir) (filename : Text) (deleted : Bool) (read : Text → ReadResult) :
    Except EventError FileWatcher :=
  if deleted then watcher.handleDeletedFile host answers dir filename
  else watcher.processFile host answers checks dir filename read

end FileWatcher

/-- What happens to the daemon. An event is handled; other programs change the
configuration directory; the bridge gets or loses its internet access; the main loop
passes; other code sets a proposition of an interface; the main loop or another program
changes what is known of an interface, or the routes. -/
inductive DaemonEvent where
  | event (dir : WatchedDir) (filename : Text) (deleted : Bool) (read : Text → ReadResult)
      (answers : Answers) (checks : ConnectionChecks)
  | filesChanged (files : Text → Option Text)
  | internet (up : Bool)
  | runOnce (provisioning : Nat → Bool) (answers : Nat → Band → Answers)
  | assigned (wifi : Nat) (p : P) (value : Bool) (answers : Answers)
  | routesChanged (ifc : Nat) (settings : RouteSettings) (table : List Route)

def FileWatcher.step (host : Host) (watcher : FileWatcher) :
    DaemonEvent → Except EventError FileWatcher
  | .event dir filename deleted read answers checks =>
      watcher.handleEvent host answers checks dir filename deleted read
  | .filesChanged files => .ok { watcher with manager := { watcher.manager with files := files } }
  | .internet up => .ok { watcher with manager := { watcher.manager with internet := up } }
  | .runOnce provisioning answers =>
      .ok { watcher with manager := watcher.manager.runOnce host.device provisioning answers }
  | .assigned wifi p value answers =>
      .ok { watcher with manager := watcher.manager.setStatus host.device answers wifi p value }
  | .routesChanged ifc settings table =>
      .ok { watcher.setSettings ifc settings with table := table }

end Gfiber.Conman
