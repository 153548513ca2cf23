import Mathlib.Data.List.Perm.Basic
import Gfiber.Lib.Text

/-! The routes of an interface, as they are read from the table of `ip route` and
changed by its commands; and `update_routes`: the checks of the connection, which add
the routes, and the routes that are then prioritized, deprioritized or deleted. -/

set_option autoImplicit false

namespace Gfiber.Conman

open Lib

/-- A line of `ip route`: `prefix [via gateway] dev name [metric number]`. -/
structure Route where
  destination : Text
  via : Option Text
  dev : Text
  metric : Option Text
deriving DecidableEq, Repr

/-- The commands that change the table. A route may be added at any place, and of
several routes with a prefix and a device any one may be removed. -/
structure IpRoute where
  add : List Route → Route → List Route
  add_perm : ∀ table route, (add table route).Perm (route :: table)
  del : List Route → Text → Text → List Route
  del_perm : ∀ table destination dev,
    (∃ route, route.destination = destination ∧ route.dev = dev ∧
      table.Perm (route :: del table destination dev)) ∨
    (∀ route ∈ table, ¬(route.destination = destination ∧ route.dev = dev)) ∧
      del table destination dev = table

/-- The keys of `current_routes`. -/
inductive RouteType where
  | default
  | subnet
  | multicast
deriving DecidableEq, Repr

def rfc2385MulticastRoute : Text := "239.0.0.0/8".toList

/-- `re.search(r'/\d{1,2}$', text)`. -/
def endsWithLength (text : Text) : Bool :=
  match text.reverse with
  | last :: '/' :: _ => Text.isDigit last
  | last :: other :: '/' :: _ => Text.isDigit last && Text.isDigit other
  | _ => false

/-- The type of a route, by its first word. -/
def routeType (destination : Text) : Option RouteType :=
  if "default".toList.isPrefixOf destination then some .default
  else if endsWithLength destination then
    if destination = rfc2385MulticastRoute then some .multicast else some .subnet
  else none

def RouteType.name : RouteType → Text
  | .default => "default".toList
  | .subnet => "subnet".toList
  | .multicast => "multicast".toList

/-- `sorted(list(args & set(('default', 'subnet', 'multicast'))))`. -/
def kindsOf (args : List Text) : List RouteType :=
  [RouteType.default, .multicast, .subnet].filter fun kind => kind.name ∈ args

structure Interface where
  name : Text
  subnet : Option Text
  gatewayIp : Option Text
  metric : Text
  initialized : Bool

namespace Interface

variable (ip : IpRoute) (interface : Interface)

/-- What `ip route` prints, unless the interface is not initialized. -/
def listRoutes (table : List Route) : List Route :=
  if interface.initialized then table else []

/-- The dictionary: for each type the last line that has `dev name` in it. -/
def currentRoutes (table : List Route) : RouteType → Option Route :=
  (interface.listRoutes table).foldl (fun result route =>
    if interface.name.isPrefixOf route.dev then
      match routeType route.destination with
      | some kind => Function.update result kind (some route)
      | none => result
    else result) fun _ => none

def ipRouteDel (table : List Route) (destination : Text) : List Route :=
  if interface.initialized then ip.del table destination interface.name else table

def ipRouteAdd (table : List Route) (route : Route) : List Route :=
  if interface.initialized then ip.add table route else table

/-- The loop of `delete_route` for one type, to a bounded number of passes. -/
def deleteType (kind : RouteType) : Nat → List Route → Option (List Route)
  | 0, _ => none
  | passes + 1, table =>
      match interface.currentRoutes table kind with
      | none => some table
      | some route => deleteType kind passes (interface.ipRouteDel ip table route.destination)

/-- Each pass has to remove a route. -/
def deleteRoute (table : List Route) (kind : RouteType) : Option (List Route) :=
  interface.deleteType ip kind (table.length + 1) table

/-- `delete_route(*args)`, with a bounded number of passes in each loop. The error is
its `ValueError`. -/
def deleteRoutes (passes : Nat) (args : List Text) (table : List Route) :
    Except String (Option (List Route)) :=
  if kindsOf args = [] then
    .error "Must specify at least one of default, subnet, multicast to delete."
  else
    .ok ((kindsOf args).foldlM (fun table kind => interface.deleteType ip kind passes table) table)

/-- `if self._subnet` and `if self._gateway_ip`: set and not empty. -/
def isSet (text : Option Text) : Bool :=
  text.any (· ≠ [])

/-- The subnet route to add, unless it is there. -/
def subnetToAdd (current : RouteType → Option Route) : List (RouteType × Route) :=
  match interface.subnet with
  | some (first :: rest) =>
      if (current .subnet).map (·.destination) = some (first :: rest) ∧
          (current .subnet).bind (·.metric) = some interface.metric then []
      else [(.subnet, ⟨first :: rest, none, interface.name, some interface.metric⟩)]
  | _ => []

def defaultToAdd (current : RouteType → Option Route) : List (RouteType × Route) :=
  match interface.gatewayIp with
  | some (first :: rest) =>
      if isSet interface.subnet ∧ ¬((current .default).bind (·.via) = some (first :: rest) ∧
          (current .default).bind (·.metric) = some interface.metric) then
        [(.default, ⟨"default".toList, some (first :: rest), interface.name,
          some interface.metric⟩)]
      else []
  | _ => []

def multicastToAdd (current : RouteType → Option Route) : List (RouteType × Route) :=
  if (current .multicast).bind (·.metric) = some interface.metric then []
  else [(.multicast, ⟨rfc2385MulticastRoute, none, interface.name, some interface.metric⟩)]

def addRoutes (table : List Route) : Option (List Route) := do
  let current := interface.currentRoutes table
  -- Without a subnet `delete_route('default', 'subnet')`, without a gateway
  -- `delete_route('default')`.
  let table ← (if isSet interface.subnet then [] else [.default, .subnet]).foldlM
    (interface.deleteRoute ip) table
  let table ← (if isSet interface.gatewayIp then [] else [.default]).foldlM
    (interface.deleteRoute ip) table
  let toAdd := interface.subnetToAdd current ++ interface.defaultToAdd current ++
    interface.multicastToAdd current
  let table ← (toAdd.reverse.map Prod.fst).foldlM (interface.deleteRoute ip) table
  some ((toAdd.map Prod.snd).foldl (interface.ipRouteAdd ip) table)

end Interface

/-- What the routes of an interface are updated by. -/
structure RouteSettings where
  subnet : Option Text
  gatewayIp : Option Text
  baseMetric : Int
  metricOffset : Int
  initialized : Bool
  links : Bool
  hasAcs : Option Bool
  hasInternet : Option Bool

namespace RouteSettings

def metric (settings : RouteSettings) : Text :=
  (toString (settings.baseMetric + settings.metricOffset)).toList

def interface (name : Text) (settings : RouteSettings) : Interface :=
  ⟨name, settings.subnet, settings.gatewayIp, settings.metric, settings.initialized⟩

/-- `expire_connection_status_cache`. -/
def expired (settings : RouteSettings) : RouteSettings :=
  { settings with hasAcs := none, hasInternet := none }

/-- A link comes or goes: what is known of the access is dropped unless it agrees. -/
def relinked (isUp : Bool) (settings : RouteSettings) : RouteSettings :=
  { settings with
    hasAcs := if settings.hasAcs = some isUp then some isUp else none
    hasInternet := if settings.hasInternet = some isUp then some isUp else none }

-- The name of the interface, and what the checks for the ACS and for the internet find.
-- Without an answer `WifiSimulateWireless` lets the check of the bridge fail.
variable (ip : IpRoute) (name : Text) (check : Bool → Option Bool)

/-- The check gets as far as adding the routes. -/
def Checked (settings : RouteSettings) (checkAcs : Bool) : Prop :=
  (check checkAcs).isSome ∧ settings.initialized ∧ settings.links ∧ settings.gatewayIp.isSome

instance (settings : RouteSettings) (checkAcs : Bool) :
    Decidable (settings.Checked check checkAcs) :=
  inferInstanceAs (Decidable (_ ∧ _))

/-- `_connection_check`. Until the interface is initialized the answer is `None`. -/
def connectionCheck (settings : RouteSettings) (checkAcs : Bool) (table : List Route) :
    Option (Option Bool × List Route) :=
  if settings.Checked check checkAcs then
    ((settings.interface name).addRoutes ip table).map fun after =>
      let routed := ((settings.interface name).currentRoutes after .default).isSome
      (some (routed && check checkAcs = some true), after)
  else if (check checkAcs).isSome ∧ settings.initialized = false then some (none, table)
  else some (some false, table)

/-- `acs` and `internet`, which check what is not known. -/
def known (settings : RouteSettings) (checkAcs : Bool) (cached : Option Bool)
    (table : List Route) : Option (Option Bool × List Route) :=
  match cached with
  | some answer => some (some answer, table)
  | none => settings.connectionCheck ip name check checkAcs table

/-- `self.acs() or self.internet()`, whose answers are kept. -/
def access (settings : RouteSettings) (table : List Route) :
    Option (RouteSettings × List Route) := do
  let (acs, table) ← settings.known ip name check true settings.hasAcs table
  if acs = some true then some ({ settings with hasAcs := acs }, table)
  else
    let (internet, table) ← settings.known ip name check false settings.hasInternet table
    some ({ settings with hasAcs := acs, hasInternet := internet }, table)

/-- `prioritize_routes` and `deprioritize_routes`. -/
def addAt (settings : RouteSettings) (offset : Int) (table : List Route) :
    Option (RouteSettings × List Route) :=
  if settings.initialized then
    let next := { settings with metricOffset := offset }
    ((next.interface name).addRoutes ip table).map fun after => (next, after)
  else some (settings, table)

def Reached (settings : RouteSettings) : Prop :=
  settings.hasAcs = some true ∨ settings.hasInternet = some true

instance (settings : RouteSettings) : Decidable settings.Reached :=
  inferInstanceAs (Decidable (_ ∨ _))

/-- What is done when it is known whether there is access. -/
def settle (settings : RouteSettings) (table : List Route) :
    Option (RouteSettings × List Route) :=
  if settings.Reached then settings.addAt ip name 0 table
  else if settings.links then settings.addAt ip name 50 table
  else
    ([RouteType.default, .multicast, .subnet].foldlM
      ((settings.interface name).deleteRoute ip) table).map fun after => (settings, after)

/-- `update_routes`. Nothing comes of it when one of its loops never ends. -/
def updateRoutes (settings : RouteSettings) (table : List Route) :
    Option (RouteSettings × List Route) := do
  let (settings, table) ← settings.access ip name check table
  settings.settle ip name table

end RouteSettings

end Gfiber.Conman
