import Gfiber.Lib.Numeral
import Gfiber.Lib.Word

/-! The traffic counters that `wifi_files` keeps for each client of the access point. -/

set_option autoImplicit false

namespace Gfiber.WifiFiles

open Lib

section State

def maxClientAgeSecs : Int :=
  4 * 60 * 60

/-- The six 32-bit counters of the kernel, each of which is accumulated in 64 bits. -/
inductive Counter where
  | rxBytes
  | rxPackets
  | txBytes
  | txPackets
  | txRetries
  | txFailed
deriving DecidableEq, Repr

structure WifiStats where
  counter : Counter → Word
  counter64 : Counter → Word64
  connectedSecs : Word

structure ClientState where
  ifname : Text
  lastSeen : Int
  stats : WifiStats

def ClientState.cleared : ClientState :=
  ⟨[], 0, ⟨fun _ => 0, fun _ => 0, 0⟩⟩

/-- The known clients, by their address in letters. -/
abbrev Clients := Text → Option ClientState

def Clients.set (clients : Clients) (macstr : Text) (state : ClientState) : Clients :=
  fun other => if other = macstr then some state else clients other

end State

section Dump

/-- The attributes of a station, each of which may be missing. -/
structure StaInfo where
  counter : Counter → Option Word
  connectedTime : Option Word

/-- A message of the kernel: the address of the station, and what it says of it unless that
cannot be parsed. -/
structure Message where
  mac : Option (List Byte)
  staInfo : Option (Option StaInfo)

def parseWifiStats (si : StaInfo) (stats : WifiStats) : WifiStats where
  counter which := (si.counter which).getD (stats.counter which)
  counter64 which :=
    match si.counter which with
    | some value => stats.counter64 which + (value - stats.counter which).setWidth 64
    | none => stats.counter64 which
  connectedSecs := si.connectedTime.getD stats.connectedSecs

def findClientState (clients : Clients) (macstr : Text) : ClientState :=
  (clients macstr).getD .cleared

/-- `strcasecmp` of two names. -/
def sameName (first second : Text) : Bool :=
  first.map Char.toLower = second.map Char.toLower

/-- The name of an interface, of which `state->ifname` has room for 15 characters. -/
def stationDumpCallback (ifname : Text) (message : Message) (monotime : Int) (clients : Clients) :
    Clients :=
  match message.staInfo, message.mac with
  | some info, some mac =>
      let macstr := printOctets mac
      let state := findClientState clients macstr
      -- Client moved from one interface to another
      let state := if sameName state.ifname ifname then state else .cleared
      let state := { state with lastSeen := monotime, ifname := ifname.take 15 }
      match info with
      | some si => clients.set macstr { state with stats := parseWifiStats si state.stats }
      | none => clients.set macstr state
  | _, _ => clients

end Dump

section Ageing

def clearClientCounters (state : ClientState) : ClientState :=
  { state with stats := { state.stats with counter := fun _ => 0 } }

/-- A client that has not been seen for long is forgotten. -/
def ageOutClient (monoNow : Int) (state : ClientState) : Option ClientState :=
  if maxClientAgeSecs < monoNow - state.lastSeen then none
  else if state.stats.connectedSecs < 60 then some (clearClientCounters state)
  else some state

/-- The clock is read for each client. -/
def consolidateAssociatedDevices (monotime : Text → Int) (clients : Clients) : Clients :=
  fun macstr => (clients macstr).bind (ageOutClient (monotime macstr))

end Ageing

end Gfiber.WifiFiles
