import Mathlib.Data.List.Induction
import Gfiber.Conman.Routes

/-! The routes that an interface has after they have been updated. -/

set_option autoImplicit false

namespace Gfiber.Conman

open Lib

namespace Interface

variable (interface : Interface)

/-- The route is one of the interface, of the given type. -/
def Owns (kind : RouteType) (route : Route) : Prop :=
  route.dev = interface.name ∧ routeType route.destination = some kind

instance (kind : RouteType) (route : Route) : Decidable (interface.Owns kind route) :=
  inferInstanceAs (Decidable (_ ∧ _))

/-- The routes of the interface that have the given type. -/
def ofType (kind : RouteType) (table : List Route) : List Route :=
  table.filter fun route => interface.Owns kind route

/-- What is left when the routes of some types are deleted. -/
def without (kinds : List RouteType) (table : List Route) : List Route :=
  table.filter fun route => ∀ kind ∈ kinds, ¬interface.Owns kind route

/-- No other interface in the table has a name that extends the name of this one. -/
def Unextended (table : List Route) : Prop :=
  ∀ route ∈ table, interface.name <+: route.dev → route.dev = interface.name

/-- No route of the type is of an interface whose name extends the name of this one. -/
def UnextendedIn (kind : RouteType) (table : List Route) : Prop :=
  ∀ route ∈ table, interface.name <+: route.dev → routeType route.destination = some kind →
    route.dev = interface.name

variable {interface} {table : List Route}

theorem Unextended.within (unextended : interface.Unextended table) (kind : RouteType) :
    interface.UnextendedIn kind table :=
  fun route member named _ => unextended route member named

theorem UnextendedIn.perm {kind : RouteType} {other : List Route}
    (unextended : interface.UnextendedIn kind table)
    (subset : ∀ route ∈ other, route ∈ table) : interface.UnextendedIn kind other :=
  fun route member => unextended route (subset route member)

section Reading

variable (initialized : interface.initialized = true)

include initialized

/-- The dictionary has the last route of each type. -/
theorem currentRoutes_eq {kind : RouteType} (unextended : interface.UnextendedIn kind table) :
    interface.currentRoutes table kind = (interface.ofType kind table).getLast? := by
  unfold currentRoutes listRoutes
  rw [if_pos initialized]
  induction table using List.reverseRecOn with
  | nil => rfl
  | append_singleton table route ih =>
      have before := ih fun other member => unextended other (List.mem_append_left _ member)
      rw [List.foldl_append, List.foldl_cons, List.foldl_nil, ofType, List.filter_append]
      by_cases here : route.dev = interface.name
      · have named : interface.name.isPrefixOf route.dev = true := by
          rw [here]
          exact List.isPrefixOf_iff_prefix.mpr List.prefix_rfl
        rw [if_pos named]
        cases found : routeType route.destination with
        | none => simpa [Owns, found, ofType] using before
        | some own =>
            by_cases same : kind = own
            · subst same
              simp [Owns, here, found]
            · simpa [Owns, here, found, same, Ne.symm same, ofType] using before
      · by_cases named : interface.name.isPrefixOf route.dev = true
        · rw [if_pos named]
          cases found : routeType route.destination with
          | none => simpa [Owns, here, ofType] using before
          | some own =>
              have other : kind ≠ own := fun same => here
                (unextended route (by simp) (List.isPrefixOf_iff_prefix.mp named) (same ▸ found))
              simpa [Owns, here, other, ofType] using before
        · rw [if_neg named]
          simpa [Owns, here, ofType] using before

end Reading

theorem mem_ofType {kind : RouteType} {route : Route} :
    route ∈ interface.ofType kind table ↔ route ∈ table ∧ interface.Owns kind route := by
  simp [ofType]

theorem Owns.unique {kind other : RouteType} {route : Route} (own : interface.Owns kind route)
    (also : interface.Owns other route) : kind = other :=
  Option.some.inj (own.2.symm.trans also.2)

theorem without_eq_self {kind : RouteType} (none : interface.ofType kind table = []) :
    interface.without [kind] table = table := by
  refine List.filter_eq_self.mpr fun route member => ?_
  have foreign : ¬interface.Owns kind route := fun own => by
    have there := mem_ofType.mpr ⟨member, own⟩
    rw [none] at there
    cases there
  simpa using foreign

section Deleting

variable (ip : IpRoute) (initialized : interface.initialized = true)

include initialized

/-- A route of a type that is in the table can be deleted, and nothing else. -/
theorem ipRouteDel_perm {kind : RouteType} {route : Route}
    (there : route ∈ interface.ofType kind table) :
    ∃ gone, interface.Owns kind gone ∧
      table.Perm (gone :: interface.ipRouteDel ip table route.destination) := by
  obtain ⟨member, own⟩ := mem_ofType.mp there
  rw [ipRouteDel, if_pos initialized]
  rcases ip.del_perm table route.destination interface.name with ⟨gone, same, here, removed⟩ | ⟨no, -⟩
  · exact ⟨gone, ⟨here, same ▸ own.2⟩, removed⟩
  · exact absurd ⟨rfl, own.1⟩ (no route member)

theorem deleteType_perm (kind : RouteType) {passes : Nat}
    (unextended : interface.UnextendedIn kind table)
    (enough : (interface.ofType kind table).length < passes) :
    ∃ after, interface.deleteType ip kind passes table = some after ∧
      after.Perm (interface.without [kind] table) := by
  induction passes generalizing table with
  | zero => exact absurd enough (Nat.not_lt_zero _)
  | succ passes ih =>
      rw [deleteType, currentRoutes_eq initialized unextended]
      cases found : (interface.ofType kind table).getLast? with
      | none =>
          have empty := List.getLast?_eq_none_iff.mp found
          exact ⟨table, rfl, by rw [without_eq_self empty]⟩
      | some route =>
          obtain ⟨gone, own, removed⟩ :=
            ipRouteDel_perm ip initialized (List.mem_of_getLast? found)
          dsimp only
          generalize interface.ipRouteDel ip table route.destination = next at removed ⊢
          have shorter : (interface.ofType kind table).length =
              (interface.ofType kind next).length + 1 := by
            have counted := (removed.filter fun route => interface.Owns kind route).length_eq
            simpa [ofType, own] using counted
          obtain ⟨after, deleted, rest⟩ := ih
            (unextended.perm fun other member => removed.mem_iff.mpr (List.mem_cons_of_mem _ member))
            (by omega)
          refine ⟨after, deleted, rest.trans ?_⟩
          have same := (removed.filter
            fun route => ∀ other ∈ [kind], ¬interface.Owns other route).symm
          simpa [without, own] using same

theorem deleteRoute_idle (kind : RouteType) (unextended : interface.Unextended table)
    (none : interface.ofType kind table = []) :
    interface.deleteRoute ip table kind = some table := by
  rw [deleteRoute, deleteType, currentRoutes_eq initialized (unextended.within kind), none]
  rfl

omit initialized in
/-- Deleting one type after the other, for tables of some length at most. -/
theorem foldlM_without {delete : List Route → RouteType → Option (List Route)} {bound : Nat}
    (deletes : ∀ kind table, table.length ≤ bound → interface.UnextendedIn kind table →
      ∃ after, delete table kind = some after ∧ after.Perm (interface.without [kind] table))
    {kinds : List RouteType} (bounded : table.length ≤ bound)
    (unextended : ∀ kind ∈ kinds, interface.UnextendedIn kind table) :
    ∃ after, kinds.foldlM delete table = some after ∧
      after.Perm (interface.without kinds table) := by
  induction kinds generalizing table with
  | nil => exact ⟨table, rfl, by simp [without]⟩
  | cons kind kinds ih =>
      obtain ⟨middle, first, left⟩ := deletes kind table bounded (unextended kind (by simp))
      have subset : ∀ route ∈ middle, route ∈ table := fun route member =>
        List.mem_of_mem_filter (left.mem_iff.mp member)
      have shorter : middle.length ≤ table.length :=
        left.length_eq.trans_le (List.length_filter_le _ _)
      obtain ⟨after, rest, both⟩ := ih (shorter.trans bounded) fun other among =>
        (unextended other (List.mem_cons_of_mem _ among)).perm subset
      refine ⟨after, ?_, both.trans ?_⟩
      · rw [List.foldlM_cons, first]
        exact rest
      · refine (left.filter _).trans ?_
        rw [without, without, List.filter_filter]
        refine .of_eq (List.filter_congr fun route _ => ?_)
        simp [Bool.and_comm]

theorem foldlM_deleteRoute (kinds : List RouteType) (unextended : interface.Unextended table) :
    ∃ after, kinds.foldlM (interface.deleteRoute ip) table = some after ∧
      after.Perm (interface.without kinds table) :=
  foldlM_without
    (fun kind _ _ unextended => deleteType_perm ip initialized kind unextended
      (Nat.lt_succ_of_le (List.length_filter_le _ _)))
    (Nat.le_refl _) fun kind _ => unextended.within kind

theorem foldl_ipRouteAdd_perm (routes : List Route) :
    (routes.foldl (interface.ipRouteAdd ip) table).Perm (routes ++ table) := by
  induction routes generalizing table with
  | nil => exact .refl _
  | cons route routes ih =>
      refine ih.trans ?_
      rw [ipRouteAdd, if_pos initialized]
      refine ((ip.add_perm table route).append_left routes).trans ?_
      exact List.perm_middle

end Deleting

section Updating

variable (interface) in
/-- The routes that are added, with their types. -/
def toAdd (table : List Route) : List (RouteType × Route) :=
  interface.subnetToAdd (interface.currentRoutes table) ++
    interface.defaultToAdd (interface.currentRoutes table) ++
    interface.multicastToAdd (interface.currentRoutes table)

variable (interface) in
/-- The types whose routes are deleted first. -/
def deleted (table : List Route) : List RouteType :=
  (if isSet interface.subnet then [] else [.default, .subnet]) ++
    (if isSet interface.gatewayIp then [] else [.default]) ++
    (interface.toAdd table).reverse.map Prod.fst

variable (ip : IpRoute)

/-- All deletions come before the additions. -/
theorem addRoutes_eq : interface.addRoutes ip table =
    ((interface.deleted table).foldlM (interface.deleteRoute ip) table).bind fun left =>
      some (((interface.toAdd table).map Prod.snd).foldl (interface.ipRouteAdd ip) left) := by
  simp only [addRoutes, deleted, List.foldlM_append]
  exact ((Option.bind_assoc ..).trans (Option.bind_assoc ..)).symm

variable (initialized : interface.initialized = true)

include initialized

/-- Of the types that are deleted only what is added is there afterwards. -/
theorem addRoutes_perm (unextended : interface.Unextended table) :
    ∃ after, interface.addRoutes ip table = some after ∧
      after.Perm ((interface.toAdd table).map Prod.snd ++
        interface.without (interface.deleted table) table) := by
  obtain ⟨left, removed, rest⟩ :=
    foldlM_deleteRoute ip initialized (interface.deleted table) unextended
  refine ⟨((interface.toAdd table).map Prod.snd).foldl (interface.ipRouteAdd ip) left, ?_,
    (foldl_ipRouteAdd_perm ip initialized _).trans (rest.append_left _)⟩
  rw [addRoutes_eq, removed]
  rfl

omit initialized in
theorem ofType_without (kind : RouteType) (kinds : List RouteType) :
    interface.ofType kind (interface.without kinds table) =
      if kind ∈ kinds then [] else interface.ofType kind table := by
  rw [ofType, without, List.filter_filter]
  split
  case isTrue among =>
    refine List.filter_eq_nil_iff.mpr fun route _ both => ?_
    simp only [Bool.and_eq_true, decide_eq_true_eq] at both
    exact both.2 kind among both.1
  case isFalse outside =>
    refine List.filter_congr fun route _ => ?_
    by_cases own : interface.Owns kind route
    · have others : ∀ other ∈ kinds, ¬interface.Owns other route := fun other among also =>
        outside (own.unique also ▸ among)
      simpa [own] using others
    · simp [own]

/-- The routes of a type that the interface has after an update. -/
theorem ofType_addRoutes {after : List Route} (unextended : interface.Unextended table)
    (updated : interface.addRoutes ip table = some after) (kind : RouteType) :
    (interface.ofType kind after).Perm
      (interface.ofType kind ((interface.toAdd table).map Prod.snd) ++
        if kind ∈ interface.deleted table then [] else interface.ofType kind table) := by
  obtain ⟨same, again, perm⟩ := addRoutes_perm ip initialized unextended
  rw [updated, Option.some.injEq] at again
  subst again
  have owned := perm.filter fun route => interface.Owns kind route
  rw [List.filter_append] at owned
  rw [← ofType_without]
  exact owned

end Updating

section Wanting

variable (interface)

/-- The interface should have a route of the type. -/
def Wants : RouteType → Prop
  | .multicast => True
  | .subnet => isSet interface.subnet = true
  | .default => isSet interface.subnet = true ∧ isSet interface.gatewayIp = true

instance (kind : RouteType) : Decidable (interface.Wants kind) := by
  cases kind
  · exact inferInstanceAs (Decidable (_ ∧ _))
  · exact inferInstanceAs (Decidable (_ = _))
  · exact instDecidableTrue

/-- The route is as the interface should have it. -/
def Fits (kind : RouteType) (route : Route) : Prop :=
  match kind with
  | .multicast => route.metric = some interface.metric
  | .subnet => some route.destination = interface.subnet ∧ route.metric = some interface.metric
  | .default => route.via = interface.gatewayIp ∧ route.metric = some interface.metric

/-- The route that is added. -/
def newRoute : RouteType → Route
  | .multicast => ⟨rfc2385MulticastRoute, none, interface.name, some interface.metric⟩
  | .subnet => ⟨interface.subnet.getD [], none, interface.name, some interface.metric⟩
  | .default =>
      ⟨"default".toList, interface.gatewayIp, interface.name, some interface.metric⟩

def toAddOf (current : RouteType → Option Route) : RouteType → List (RouteType × Route)
  | .multicast => interface.multicastToAdd current
  | .subnet => interface.subnetToAdd current
  | .default => interface.defaultToAdd current

variable {interface} (current : RouteType → Option Route)

theorem isSet_cases (text : Option Text) :
    isSet text = false ∨ ∃ first rest, text = some (first :: rest) := by
  cases text with
  | none => exact .inl rfl
  | some chars =>
      cases chars with
      | nil => exact .inl rfl
      | cons first rest => exact .inr ⟨first, rest, rfl⟩

theorem subnetToAdd_unset (unset : isSet interface.subnet = false) :
    interface.subnetToAdd current = [] := by
  unfold subnetToAdd
  split
  case h_1 set => simp [isSet, set] at unset
  case h_2 => rfl

theorem defaultToAdd_unset
    (unset : ¬(isSet interface.subnet = true ∧ isSet interface.gatewayIp = true)) :
    interface.defaultToAdd current = [] := by
  unfold defaultToAdd
  split
  case h_1 set =>
    rw [if_neg]
    exact fun both => unset ⟨both.1, by simp [isSet, set]⟩
  case h_2 => rfl

theorem toAddOf_unwanted {kind : RouteType} (unwanted : ¬interface.Wants kind) :
    interface.toAddOf current kind = [] := by
  cases kind with
  | multicast => exact absurd trivial unwanted
  | subnet => exact subnetToAdd_unset current (Bool.eq_false_iff.mpr unwanted)
  | default => exact defaultToAdd_unset current unwanted

/-- A wanted type is added unless the last route listed fits. -/
theorem toAddOf_wanted {kind : RouteType} (wants : interface.Wants kind) :
    (∃ route, current kind = some route ∧ interface.Fits kind route) ∧
        interface.toAddOf current kind = [] ∨
      (∀ route, current kind = some route → ¬interface.Fits kind route) ∧
        interface.toAddOf current kind = [(kind, interface.newRoute kind)] := by
  cases kind with
  | multicast =>
      unfold toAddOf multicastToAdd Fits newRoute
      cases current .multicast with
      | none => simp
      | some route => by_cases fits : route.metric = some interface.metric <;> simp [fits]
  | subnet =>
      obtain unset | ⟨first, rest, set⟩ := isSet_cases interface.subnet
      · exact absurd (unset.symm.trans wants) (by simp)
      · unfold toAddOf subnetToAdd Fits newRoute
        rw [set]
        cases current .subnet with
        | none => simp
        | some route =>
            by_cases fits : route.destination = first :: rest ∧ route.metric = some interface.metric
            · simp [fits]
            · simpa [fits] using not_and.mp fits
  | default =>
      obtain unset | ⟨first, rest, set⟩ := isSet_cases interface.gatewayIp
      · exact absurd (unset.symm.trans wants.2) (by simp)
      · unfold toAddOf defaultToAdd Fits newRoute
        rw [set, wants.1]
        cases current .default with
        | none => simp
        | some route =>
            by_cases fits : route.via = some (first :: rest) ∧ route.metric = some interface.metric
            · simp [fits]
            · simpa [fits] using not_and.mp fits

theorem mem_toAddOf {kind : RouteType} {entry : RouteType × Route}
    (member : entry ∈ interface.toAddOf current kind) :
    entry = (kind, interface.newRoute kind) := by
  by_cases wants : interface.Wants kind
  · obtain ⟨-, none⟩ | ⟨-, one⟩ := toAddOf_wanted current wants
    · simp [none] at member
    · simpa [one] using member
  · simp [toAddOf_unwanted current wants] at member

theorem toAdd_eq : interface.toAdd table =
    [RouteType.subnet, .default, .multicast].flatMap
      (interface.toAddOf (interface.currentRoutes table)) := by
  simp [toAdd, toAddOf]

theorem mem_toAdd {entry : RouteType × Route} : entry ∈ interface.toAdd table ↔
    entry ∈ interface.toAddOf (interface.currentRoutes table) entry.1 := by
  rw [toAdd_eq, List.mem_flatMap]
  constructor
  · rintro ⟨kind, -, member⟩
    have same := mem_toAddOf _ member
    rw [same] at member ⊢
    exact member
  · intro member
    refine ⟨entry.1, ?_, member⟩
    cases entry.1 <;> simp

/-- The types that are deleted: those not wanted, and those that are added anew. -/
theorem mem_deleted {kind : RouteType} : kind ∈ interface.deleted table ↔
    ¬interface.Wants kind ∨ interface.toAddOf (interface.currentRoutes table) kind ≠ [] := by
  have added : kind ∈ (interface.toAdd table).reverse.map Prod.fst ↔
      interface.toAddOf (interface.currentRoutes table) kind ≠ [] := by
    rw [List.mem_map]
    constructor
    · rintro ⟨entry, member, rfl⟩
      exact List.ne_nil_of_mem (mem_toAdd.mp (List.mem_reverse.mp member))
    · intro some_entry
      obtain ⟨entry, member⟩ := List.exists_mem_of_ne_nil _ some_entry
      have same := mem_toAddOf _ member
      refine ⟨entry, List.mem_reverse.mpr (mem_toAdd.mpr ?_), by rw [same]⟩
      rw [same] at member ⊢
      exact member
  rw [deleted, List.mem_append, added]
  refine or_congr ?_ Iff.rfl
  cases kind <;> cases subnet : isSet interface.subnet <;>
    cases gateway : isSet interface.gatewayIp <;> simp [Wants, subnet, gateway]

theorem fits_newRoute {kind : RouteType} (wants : interface.Wants kind) :
    interface.Fits kind (interface.newRoute kind) := by
  cases kind with
  | multicast => rfl
  | default => exact ⟨rfl, rfl⟩
  | subnet =>
      obtain unset | ⟨first, rest, set⟩ := isSet_cases interface.subnet
      · exact absurd (unset.symm.trans wants) Bool.false_ne_true
      · have destination : (interface.newRoute .subnet).destination = interface.subnet.getD [] := rfl
        refine ⟨?_, rfl⟩
        rw [destination, set, Option.getD_some]

theorem dev_newRoute (kind : RouteType) : (interface.newRoute kind).dev = interface.name := by
  cases kind <;> rfl

/-- The new route of a type has that type when its destination reads so. -/
def ReadsBack (interface : Interface) (kind : RouteType) : Prop :=
  routeType (interface.newRoute kind).destination = some kind

theorem owns_newRoute {kind : RouteType} (reads : interface.ReadsBack kind) (other : RouteType) :
    interface.Owns other (interface.newRoute kind) ↔ other = kind := by
  have dev : (interface.newRoute kind).dev = interface.name := dev_newRoute kind
  have destination : routeType (interface.newRoute kind).destination = some kind := reads
  rw [Owns, destination]
  simp [dev, eq_comm]

end Wanting

section Meeting

/-- The interface has just the routes it should have. -/
def Desired (interface : Interface) (table : List Route) : Prop :=
  ∀ kind, if interface.Wants kind then
      ∃ route, interface.ofType kind table = [route] ∧ interface.Fits kind route
    else interface.ofType kind table = []

/-- Where the last route listed of a wanted type fits, it is the only one, and
the wanted routes read as what they are. -/
structure Unhidden (interface : Interface) (table : List Route) : Prop where
  only : ∀ kind, interface.Wants kind → ∀ route,
    (interface.ofType kind table).getLast? = some route → interface.Fits kind route →
      interface.ofType kind table = [route]
  reads : isSet interface.subnet = true → routeType (interface.subnet.getD []) = some .subnet

/-- The routes of a type after an update. -/
inductive TypeOutcome (interface : Interface) (table after : List Route) (kind : RouteType) :
    Prop where
  | gone (unwanted : ¬interface.Wants kind) (none : interface.ofType kind after = [])
  | kept (wants : interface.Wants kind) (route : Route)
      (last : (interface.ofType kind table).getLast? = some route)
      (fits : interface.Fits kind route)
      (same : (interface.ofType kind after).Perm (interface.ofType kind table))
  | renewed (wants : interface.Wants kind)
      (stale : ∀ route, (interface.ofType kind table).getLast? = some route →
        ¬interface.Fits kind route)
      (one : interface.ofType kind after = [interface.newRoute kind])

theorem readsBack_of_subnet
    (reads : isSet interface.subnet = true → routeType (interface.subnet.getD []) = some .subnet)
    {kind : RouteType} (wants : interface.Wants kind) : interface.ReadsBack kind := by
  cases kind with
  | multicast => exact (by decide : routeType rfc2385MulticastRoute = some .multicast)
  | default => exact (by decide : routeType "default".toList = some .default)
  | subnet => exact reads wants

theorem ofType_toAddOf
    (reads : isSet interface.subnet = true → routeType (interface.subnet.getD []) = some .subnet)
    (current : RouteType → Option Route) (kind other : RouteType) :
    interface.ofType kind ((interface.toAddOf current other).map Prod.snd) =
      if other = kind then (interface.toAddOf current other).map Prod.snd else [] := by
  by_cases wants : interface.Wants other
  · obtain ⟨-, none⟩ | ⟨-, one⟩ := toAddOf_wanted current wants
    · simp [none, ofType]
    · have owns := owns_newRoute (readsBack_of_subnet reads wants) kind
      by_cases same : other = kind
      · subst same
        simp [one, ofType, owns]
      · simp [one, ofType, owns, same, Ne.symm same]
  · simp [toAddOf_unwanted current wants, ofType]

theorem ofType_toAdd
    (reads : isSet interface.subnet = true → routeType (interface.subnet.getD []) = some .subnet)
    (kind : RouteType) : interface.ofType kind ((interface.toAdd table).map Prod.snd) =
      (interface.toAddOf (interface.currentRoutes table) kind).map Prod.snd := by
  have append (left right : List Route) : interface.ofType kind (left ++ right) =
      interface.ofType kind left ++ interface.ofType kind right := List.filter_append ..
  rw [toAdd_eq]
  simp only [List.flatMap_cons, List.flatMap_nil, List.map_append, append, ofType_toAddOf reads]
  cases kind <;> simp [ofType]

variable (ip : IpRoute) (initialized : interface.initialized = true)
  (unextended : interface.Unextended table) {after : List Route}
  (updated : interface.addRoutes ip table = some after)

include initialized unextended updated

theorem addRoutes_outcome
    (reads : isSet interface.subnet = true → routeType (interface.subnet.getD []) = some .subnet)
    (kind : RouteType) : TypeOutcome interface table after kind := by
  have perm := ofType_addRoutes ip initialized unextended updated kind
  rw [ofType_toAdd reads] at perm
  by_cases wants : interface.Wants kind
  · have current := currentRoutes_eq initialized (unextended.within kind)
    obtain ⟨⟨route, last, fits⟩, none⟩ | ⟨stale, one⟩ :=
      toAddOf_wanted (interface.currentRoutes table) wants
    · have stays : kind ∉ interface.deleted table := by simp [mem_deleted, wants, none]
      refine .kept wants route (current.symm.trans last) fits ?_
      simpa [none, stays] using perm
    · have goes : kind ∈ interface.deleted table := by simp [mem_deleted, one]
      refine .renewed wants (fun route last => stale route (current.trans last)) ?_
      simpa [one, goes] using perm
  · have goes : kind ∈ interface.deleted table := mem_deleted.mpr (.inl wants)
    refine .gone wants ?_
    simpa [toAddOf_unwanted _ wants, goes] using perm

/-- The routes of other interfaces are what they were. -/
theorem addRoutes_others : (after.filter fun route => route.dev ≠ interface.name).Perm
    (table.filter fun route => route.dev ≠ interface.name) := by
  obtain ⟨same, again, perm⟩ := addRoutes_perm ip initialized unextended
  rw [updated, Option.some.injEq] at again
  subst again
  have foreign := perm.filter fun route => route.dev ≠ interface.name
  have own : ((interface.toAdd table).map Prod.snd).filter
      (fun route => route.dev ≠ interface.name) = [] := by
    refine List.filter_eq_nil_iff.mpr fun route member => ?_
    obtain ⟨entry, added, rfl⟩ := List.mem_map.mp member
    have new := mem_toAddOf _ (mem_toAdd.mp added)
    rw [new]
    simp [dev_newRoute]
  rw [List.filter_append, own, List.nil_append, without, List.filter_filter] at foreign
  refine foreign.trans (.of_eq (List.filter_congr fun route _ => ?_))
  by_cases here : route.dev = interface.name
  · simp [here]
  · simp [here, Owns]

omit updated in
theorem foldlM_idle {kinds : List RouteType}
    (none : ∀ kind ∈ kinds, interface.ofType kind table = []) :
    kinds.foldlM (interface.deleteRoute ip) table = some table := by
  induction kinds with
  | nil => rfl
  | cons kind kinds ih =>
      rw [List.foldlM_cons, deleteRoute_idle ip initialized kind unextended (none kind (by simp))]
      exact ih fun other member => none other (List.mem_cons_of_mem _ member)

omit updated in
/-- Where the routes are the desired ones nothing is done. -/
theorem addRoutes_idle (desired : interface.Desired table) :
    interface.addRoutes ip table = some table := by
  have nothing : interface.toAdd table = [] := by
    refine List.eq_nil_iff_forall_not_mem.mpr fun entry member => ?_
    rw [mem_toAdd] at member
    have wanted := desired entry.1
    by_cases wants : interface.Wants entry.1
    · rw [if_pos wants] at wanted
      obtain ⟨route, one, fits⟩ := wanted
      have last : interface.currentRoutes table entry.1 = some route := by
        rw [currentRoutes_eq initialized (unextended.within entry.1), one]
        rfl
      obtain ⟨-, none⟩ | ⟨stale, -⟩ := toAddOf_wanted (interface.currentRoutes table) wants
      · simp [none] at member
      · exact stale route last fits
    · simp [toAddOf_unwanted _ wants] at member
  have idle : (interface.deleted table).foldlM (interface.deleteRoute ip) table = some table := by
    refine foldlM_idle ip initialized unextended fun kind member => ?_
    have unwanted : ¬interface.Wants kind := by
      rcases mem_deleted.mp member with unwanted | added
      · exact unwanted
      · obtain ⟨entry, there⟩ := List.exists_mem_of_ne_nil _ added
        have same := mem_toAddOf _ there
        have listed : entry ∈ interface.toAdd table := mem_toAdd.mpr (by
          rw [same] at there ⊢
          exact there)
        simp [nothing] at listed
    have wanted := desired kind
    rwa [if_neg unwanted] at wanted
  rw [addRoutes_eq, idle, nothing]
  rfl

omit updated

/-- A call of `add_routes` does what is expected of it. -/
def Updates (ip : IpRoute) (interface : Interface) (table : List Route) : Prop :=
  ∃ after, interface.addRoutes ip table = some after ∧ interface.Desired after ∧
    (after.filter fun route => route.dev ≠ interface.name).Perm
      (table.filter fun route => route.dev ≠ interface.name) ∧
    interface.addRoutes ip after = some after

omit initialized unextended in
theorem unhidden_of_desired {after : List Route} (desired : interface.Desired after)
    (outcome : ∀ kind, TypeOutcome interface table after kind)
    (reads : isSet interface.subnet = true → routeType (interface.subnet.getD []) = some .subnet) :
    Unhidden interface table := by
  refine ⟨fun kind wants route last fits => ?_, reads⟩
  cases outcome kind with
  | gone unwanted _ => exact absurd wants unwanted
  | renewed _ stale _ => exact absurd fits (stale route last)
  | kept _ _ _ _ same =>
      have wanted := desired kind
      rw [if_pos wants] at wanted
      obtain ⟨one, single, -⟩ := wanted
      rw [single] at same
      have alone := List.singleton_perm.mp same
      rw [← alone] at last ⊢
      simpa using last

omit initialized unextended in
theorem desired_of_unhidden {after : List Route} (unhidden : Unhidden interface table)
    (outcome : ∀ kind, TypeOutcome interface table after kind) : interface.Desired after := by
  intro kind
  cases outcome kind with
  | gone unwanted none => rwa [if_neg unwanted]
  | kept wants route last fits same =>
      rw [if_pos wants]
      rw [unhidden.only kind wants route last fits] at same
      exact ⟨route, List.perm_singleton.mp same, fits⟩
  | renewed wants _ one =>
      rw [if_pos wants]
      exact ⟨_, one, fits_newRoute wants⟩

/-- The update leaves the desired routes just when no stale route is hidden. -/
theorem addRoutes_updates_iff : Updates ip interface table ↔ Unhidden interface table := by
  constructor
  · rintro ⟨after, updated, desired, -, -⟩
    have reads (set : isSet interface.subnet = true) :
        routeType (interface.subnet.getD []) = some .subnet := by
      have wanted := desired .subnet
      rw [if_pos (show interface.Wants .subnet from set)] at wanted
      obtain ⟨route, one, destination, -⟩ := wanted
      have own : route ∈ interface.ofType .subnet after := by simp [one]
      rw [← destination]
      exact (mem_ofType.mp own).2.2
    exact unhidden_of_desired desired
      (addRoutes_outcome ip initialized unextended updated reads) reads
  · intro unhidden
    obtain ⟨after, updated, perm⟩ := addRoutes_perm ip initialized unextended
    have desired := desired_of_unhidden unhidden
      (addRoutes_outcome ip initialized unextended updated unhidden.reads)
    have still : interface.Unextended after := by
      intro route member named
      rcases List.mem_append.mp (perm.mem_iff.mp member) with added | old
      · obtain ⟨entry, there, rfl⟩ := List.mem_map.mp added
        rw [mem_toAddOf _ (mem_toAdd.mp there)]
        exact dev_newRoute _
      · exact unextended route (List.mem_of_mem_filter old) named
    exact ⟨after, updated, desired, addRoutes_others ip initialized unextended updated,
      addRoutes_idle ip initialized still desired⟩

end Meeting

section Tables

/-- A table in which routes are added at the end and the first one is removed. -/
def orderedTable : IpRoute where
  add table route := table ++ [route]
  add_perm table route := List.perm_append_singleton route table
  del table destination dev :=
    table.eraseP fun route => route.destination = destination ∧ route.dev = dev
  del_perm table destination dev := by
    by_cases present : ∃ route ∈ table, route.destination = destination ∧ route.dev = dev
    · obtain ⟨route, there, both⟩ := present
      obtain ⟨gone, front, back, -, found, whole, rest⟩ := List.exists_of_eraseP
        (p := fun route : Route => route.destination = destination ∧ route.dev = dev) there
        (decide_eq_true both)
      have same := of_decide_eq_true found
      rw [rest]
      exact .inl ⟨gone, same.1, same.2, whole ▸ List.perm_middle⟩
    · refine .inr ⟨fun route there both => present ⟨route, there, both⟩, ?_⟩
      exact List.eraseP_of_forall_not fun route there both =>
        present ⟨route, there, of_decide_eq_true both⟩

def wirelessClient (metric : String) : Interface :=
  ⟨"wcli0".toList, some "192.168.1.0/24".toList, some "192.168.1.1".toList, metric.toList, true⟩

def subnetRoute (metric : String) : Route :=
  ⟨"192.168.1.0/24".toList, none, "wcli0".toList, some metric.toList⟩

def bridgeRoute : Route :=
  ⟨"default".toList, some "10.0.0.1".toList, "br0".toList, some "10".toList⟩

theorem unextended_wireless (metric : String) {table : List Route}
    (devices : table.all (fun route => route.dev = "wcli0".toList ∨ route.dev = "br0".toList)) :
    (wirelessClient metric).Unextended table := by
  intro route member named
  have either := of_decide_eq_true (List.all_eq_true.mp devices route member)
  rcases either with own | bridge
  · exact own
  · rw [bridge] at named
    exact absurd named (by decide : ¬"wcli0".toList <+: "br0".toList)

/-- A stale route of the subnet is hidden by a wanted one behind it. -/
theorem addRoutes_hides_stale : ¬∀ ip interface table,
    interface.initialized = true → interface.Unextended table → Updates ip interface table := by
  intro always
  obtain ⟨after, updated, desired, -⟩ := always orderedTable (wirelessClient "71")
    [subnetRoute "21", subnetRoute "71"] rfl (unextended_wireless "71" (by decide))
  have result : (wirelessClient "71").addRoutes orderedTable [subnetRoute "21", subnetRoute "71"] =
      some [subnetRoute "21", subnetRoute "71",
        (wirelessClient "71").newRoute .default, (wirelessClient "71").newRoute .multicast] := by
    decide +kernel
  rw [result, Option.some.injEq] at updated
  have wanted := desired .subnet
  rw [if_pos (by decide), ← updated] at wanted
  obtain ⟨route, one, -⟩ := wanted
  have both : ((wirelessClient "71").ofType .subnet [subnetRoute "21", subnetRoute "71",
      (wirelessClient "71").newRoute .default,
      (wirelessClient "71").newRoute .multicast]).length = 2 := by decide +kernel
  rw [one] at both
  cases both

/-- A single stale route of each type is replaced. -/
theorem addRoutes_updates_wireless :
    Updates orderedTable (wirelessClient "21") [bridgeRoute, subnetRoute "71"] := by
  refine (addRoutes_updates_iff orderedTable rfl (unextended_wireless "21" (by decide))).mpr ⟨?_, ?_⟩
  · intro kind _ route last _
    have short : ((wirelessClient "21").ofType kind [bridgeRoute, subnetRoute "71"]).length ≤ 1 := by
      cases kind <;> decide
    obtain ⟨front, whole⟩ := List.getLast?_eq_some_iff.mp last
    rw [whole] at short ⊢
    have empty : front = [] := List.eq_nil_of_length_eq_zero (by simpa using short)
    rw [empty, List.nil_append]
  · exact fun _ => by decide

end Tables

end Interface

end Gfiber.Conman
