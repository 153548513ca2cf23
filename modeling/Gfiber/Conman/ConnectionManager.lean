import Gfiber.Conman.Status
import Gfiber.Conman.WlanConfiguration

/-! The connection manager: how the files of the configuration directory and the
passes of the main loop change the configurations, the access points and the
status of the wifi interfaces. -/

set_option autoImplicit false

namespace Gfiber.Conman

open Lib

/-- The wifi interfaces in the order of `self.wifi`, each with its bands. The
propositions of every interface are set up in the same order. -/
structure Device where
  wifi : List (List Band)
  setUpOrder : IterationOrder (P × List P × List P)

def Device.wifiForBand (device : Device) (band : Band) : Option Nat :=
  device.wifi.findIdx? fun bands => band ∈ bands

/-- What the commands and the environment answer while a configuration is worked on. -/
structure Answers where
  /-- The SSID the interface is on when it is first asked for, and after `wifi setclient`. -/
  currentSecureSsid : Option Text
  joinedSsid : Option Text
  /-- Whether the commands succeed. -/
  startAp : Bool
  stopAp : Bool
  stopClient : Bool
  setClient : Bool
  /-- The experiment `WifiNo2GClient`. -/
  wifiNo2GClient : Bool
  /-- The time to wait before the next try is over. -/
  due : Bool
  orders : SetOrders P Empty

/-- The state of the manager and of what it controls. -/
structure ConnectionManager where
  /-- The configuration directory. -/
  files : Text → Option Text
  wlanConfiguration : Band → Option WLANConfiguration
  /-- `bridge.internet()` -/
  internet : Bool
  /-- The access points that are running. -/
  apRunning : Band → Bool
  status : Nat → Board P Empty

/-- No files, no configurations, no access points and no values. -/
def ConnectionManager.start (internet : Bool) : ConnectionManager :=
  ⟨fun _ => none, fun _ => none, internet, fun _ => false, fun _ => .start⟩

namespace ConnectionManager

def setFile (manager : ConnectionManager) (filename : Text) (contents : Option Text) :
    ConnectionManager :=
  { manager with files := Function.update manager.files filename contents }

def put (manager : ConnectionManager) (band : Band) (config : Option WLANConfiguration) :
    ConnectionManager :=
  { manager with wlanConfiguration := Function.update manager.wlanConfiguration band config }

def setAp (manager : ConnectionManager) (band : Band) (running : Bool) : ConnectionManager :=
  { manager with apRunning := Function.update manager.apRunning band running }

variable (device : Device) (answers : Answers) (manager : ConnectionManager)

/-- Assigning an attribute of a `Status`. There are 17 propositions, so the
depth is enough. -/
def setStatus (wifi : Nat) (p : P) (value : Bool) : ConnectionManager :=
  { manager with
    status := Function.update manager.status wifi
      ((set (statusNetwork device.setUpOrder) answers.orders 35 (manager.status wifi) p
        value).getD (manager.status wifi)) }

end ConnectionManager

namespace WLANConfiguration

variable (device : Device) (answers : Answers) (config : WLANConfiguration)
  (manager : ConnectionManager)

def stopClient : ConnectionManager :=
  if ¬config.clientUp answers.currentSecureSsid then manager
  else if answers.stopClient then manager.setStatus device answers config.wifi .connectedToWlan false
  else manager

/-- The flag is whether the command succeeded. -/
def actuallyStartClient : ConnectionManager × Bool :=
  let manager := manager.setStatus device answers config.wifi .tryingWlan true
  if answers.setClient then (manager, true)
  else (manager.setStatus device answers config.wifi .wlanFailed true, false)

def startClient : ConnectionManager :=
  if answers.wifiNo2GClient ∧ config.band = .ghz24 then manager
  else if ¬answers.due then manager
  else if config.clientUp answers.currentSecureSsid then manager
  else
    let (manager, started) := config.actuallyStartClient device answers manager
    if started ∧ config.clientUp answers.joinedSsid then
      manager.setStatus device answers config.wifi .connectedToWlan true
    else manager

def startAccessPoint : ConnectionManager × WLANConfiguration :=
  if ¬config.accessPoint ∨ config.accessPointUp then (manager, config)
  else
    let manager := config.stopClient device answers manager
    if answers.startAp then (manager.setAp config.band true, { config with accessPointUp := true })
    else (manager, config)

def stopAccessPoint : ConnectionManager × WLANConfiguration :=
  if ¬config.accessPointUp then (manager, config)
  else if answers.stopAp then
    (manager.setAp config.band false, { config with accessPointUp := false })
  else (manager, config)

end WLANConfiguration

namespace ConnectionManager

section Configurations

variable (device : Device) (answers : Answers)

/-- The configuration is the one stored for the band, and is stored again. -/
def updateAccessPoint (manager : ConnectionManager) (band : Band) (config : WLANConfiguration) :
    ConnectionManager :=
  if manager.internet ∧ config.accessPoint then
    let (manager, config) := config.startAccessPoint device answers manager
    manager.put band (some config)
  else
    let (manager, config) := config.stopAccessPoint answers manager
    (config.startClient device answers manager).put band (some config)

/-- Assigning `have_config` of the interface of a band. -/
def setHaveConfig (manager : ConnectionManager) (band : Band) (value : Bool) :
    ConnectionManager :=
  match device.wifiForBand band with
  | some wifi => manager.setStatus device answers wifi .haveConfig value
  | none => manager

/-- What `access_point` of a new configuration is set to. -/
def initialAccessPoint (manager : ConnectionManager) (config : WLANConfiguration) : Bool :=
  match manager.wlanConfiguration config.band with
  | some current => current.accessPoint
  | none => (manager.files config.apFile).isSome

def updateWlanConfiguration (manager : ConnectionManager) (config : WLANConfiguration) :
    ConnectionManager :=
  let band := config.band
  if (manager.wlanConfiguration band).all fun current => config.command ≠ current.command then
    let config := { config with accessPoint := manager.initialAccessPoint config }
    let manager := manager.put band (some config)
    let manager := manager.setHaveConfig device answers band true
    manager.updateAccessPoint device answers band config
  else manager

def removeWlanConfiguration (manager : ConnectionManager) (band : Band) (config : WLANConfiguration) :
    ConnectionManager :=
  let manager := config.stopClient device answers manager
  let (manager, _) := config.stopAccessPoint answers manager
  let manager := manager.put band none
  if manager.wlanConfiguration .ghz24 = none ∧ manager.wlanConfiguration .ghz5 = none then
    manager.setHaveConfig device answers band false
  else manager

end Configurations

section Files

variable (device : Device) (answers : Answers)

/-- `band in self._wlan_configuration` for the band a file name matches. -/
def configFor (manager : ConnectionManager) (start name : Text) :
    Option (Band × WLANConfiguration) := do
  let band ← matchWlanFile start name
  let config ← manager.wlanConfiguration band
  return (band, config)

def handleDeletedFile (manager : ConnectionManager) (filename : Text) : ConnectionManager :=
  match manager.configFor commandFile filename with
  | some (band, config) => manager.removeWlanConfiguration device answers band config
  | none =>
      match manager.configFor accessPointFile filename with
      | some (band, config) => manager.put band (some { config with accessPoint := false })
      | none => manager

def processCommandFile (manager : ConnectionManager) (filename contents : Text) :
    Option ConnectionManager :=
  match matchWlanFile commandFile filename with
  | none => some manager
  | some band =>
      match device.wifiForBand band with
      | none => some manager
      | some wifi => do
          let config ← WLANConfiguration.new band wifi contents
          return manager.updateWlanConfiguration device answers config

def processAccessPointFile (manager : ConnectionManager) (filename : Text) : ConnectionManager :=
  match manager.configFor accessPointFile filename with
  | some (band, config) =>
      if (device.wifiForBand band).isSome then
        manager.put band (some { config with accessPoint := true })
      else manager
  | none => manager

/-- `_process_file` in the configuration directory; `none` is the `ValueError`
of a command file without an SSID. -/
def processFile (manager : ConnectionManager) (filename contents : Text) : Option ConnectionManager :=
  let contents := Text.strip contents
  if (Text.afterLiteral commandFile filename).isSome then
    manager.processCommandFile device answers filename contents
  else if (Text.afterLiteral accessPointFile filename).isSome then
    some (manager.processAccessPointFile device filename)
  else some manager

end Files

section MainLoop

variable (device : Device)

/-- The loop of `run_once` over the bands of an interface. The flag is
`continue_wifi`: an access point runs on an earlier band. -/
def updateBands (answers : Band → Answers) (manager : ConnectionManager) (continueWifi : Bool) :
    List Band → ConnectionManager
  | [] => manager
  | band :: bands =>
      match manager.wlanConfiguration band with
      | none => updateBands answers manager continueWifi bands
      | some config =>
          if continueWifi then
            updateBands answers (manager.put band (some { config with accessPointUp := false })) true
              bands
          else
            let manager := manager.updateAccessPoint device (answers band) band config
            updateBands answers manager
              ((manager.wlanConfiguration band).any WLANConfiguration.accessPointUp) bands

/-- The access points in a pass of `run_once`; an interface that is
provisioning is left alone. -/
def runOnce (manager : ConnectionManager) (provisioning : Nat → Bool)
    (answers : Nat → Band → Answers) : ConnectionManager :=
  device.wifi.zipIdx.foldl
    (fun manager wifi =>
      if provisioning wifi.2 then manager
      else manager.updateBands device (answers wifi.2) false wifi.1)
    manager

end MainLoop

end ConnectionManager

/-- What happens to the manager. Files are written and deleted and the events
for them are handled; the bridge gets or loses its internet access; the main
loop passes; other code sets a proposition of an interface. -/
inductive Event where
  | written (filename contents : Text) (answers : Answers)
  | deleted (filename : Text) (answers : Answers)
  | internet (up : Bool)
  | runOnce (provisioning : Nat → Bool) (answers : Nat → Band → Answers)
  | assigned (wifi : Nat) (p : P) (value : Bool) (answers : Answers)

def ConnectionManager.step (device : Device) (manager : ConnectionManager) :
    Event → Option ConnectionManager
  | .written filename contents answers =>
      (manager.setFile filename (some contents)).processFile device answers filename contents
  | .deleted filename answers =>
      if (manager.files filename).isSome then
        some ((manager.setFile filename none).handleDeletedFile device answers filename)
      else none
  | .internet up => some { manager with internet := up }
  | .runOnce provisioning answers => some (manager.runOnce device provisioning answers)
  | .assigned wifi p value answers => some (manager.setStatus device answers wifi p value)

end Gfiber.Conman
