import Gfiber.Conman.RouteProperties

/-! The loops of `delete_route`: when they end, and what they leave in the table. And the
update of an interface's routes, which ends if at each of its calls no type that is
deleted has a route of an interface whose name extends the name of this one. -/

set_option autoImplicit false

namespace Gfiber.Conman

open Lib

namespace Interface

variable {interface : Interface} {table after : List Route} {kind : RouteType}

/-- The routes of all other interfaces. -/
def others (interface : Interface) (table : List Route) : List Route :=
  table.filter fun route => route.dev ≠ interface.name

/-- A call ends, and afterwards just the routes of the given types are gone. -/
def Deletes (ip : IpRoute) (interface : Interface) (args : List Text) (table : List Route) : Prop :=
  ∃ passes after, interface.deleteRoutes ip passes args table = .ok (some after) ∧
    (∀ kind ∈ kindsOf args, interface.ofType kind after = []) ∧
    (interface.others after).Perm (interface.others table)

/-- No line that is listed for the interface has the type. -/
def Unlisted (interface : Interface) (kind : RouteType) (table : List Route) : Prop :=
  ∀ route ∈ table, interface.name <+: route.dev → routeType route.destination ≠ some kind

section Scanning

theorem unlisted_of_currentRoutes (initialized : interface.initialized = true)
    (none : interface.currentRoutes table kind = none) : interface.Unlisted kind table := by
  unfold currentRoutes listRoutes at none
  rw [if_pos initialized] at none
  induction table using List.reverseRecOn with
  | nil => exact fun _ member => absurd member (by simp)
  | append_singleton table route ih =>
      rw [List.foldl_append, List.foldl_cons, List.foldl_nil] at none
      intro other member named typed
      rcases List.mem_append.mp member with before | last
      · -- A later line can only replace the entry of the type.
        refine ih ?_ other before named typed
        by_cases listed : interface.name.isPrefixOf route.dev
        · rw [if_pos listed] at none
          cases found : routeType route.destination with
          | none => simpa [found] using none
          | some own =>
              by_cases same : kind = own
              · simp [found, same] at none
              · simpa [found, same] using none
        · rwa [if_neg listed] at none
      · have same : other = route := by simpa using last
        subst same
        rw [if_pos (List.isPrefixOf_iff_prefix.mpr named)] at none
        simp [typed] at none

theorem currentRoutes_uninitialized (untouched : interface.initialized = false) :
    interface.currentRoutes table kind = none := by
  simp [currentRoutes, listRoutes, untouched]

end Scanning

section Looping

variable (ip : IpRoute)

/-- A command removes no route of another interface. -/
theorem ipRouteDel_others (destination : Text) :
    (interface.others (interface.ipRouteDel ip table destination)).Perm
      (interface.others table) := by
  unfold ipRouteDel
  split
  case isTrue =>
    rcases ip.del_perm table destination interface.name with ⟨gone, -, here, removed⟩ | ⟨-, same⟩
    · have kept := (removed.filter fun route => route.dev ≠ interface.name).symm
      simpa [others, here] using kept
    · rw [same]
  case isFalse => exact .refl _

variable {ip} {passes : Nat}

theorem deleteType_others (ended : interface.deleteType ip kind passes table = some after) :
    (interface.others after).Perm (interface.others table) := by
  induction passes generalizing table with
  | zero => cases ended
  | succ passes ih =>
      rw [deleteType] at ended
      cases found : interface.currentRoutes table kind with
      | none =>
          rw [found] at ended
          cases ended
          exact .refl _
      | some route =>
          rw [found] at ended
          exact (ih ended).trans (ipRouteDel_others ip route.destination)

/-- A loop ends at a table in which nothing is listed any more. -/
theorem deleteType_ended (ended : interface.deleteType ip kind passes table = some after) :
    interface.currentRoutes after kind = none := by
  induction passes generalizing table with
  | zero => cases ended
  | succ passes ih =>
      rw [deleteType] at ended
      cases found : interface.currentRoutes table kind with
      | none =>
          rw [found] at ended
          cases ended
          exact found
      | some route =>
          rw [found] at ended
          exact ih ended

theorem mem_others {route : Route} :
    route ∈ interface.others table ↔ route ∈ table ∧ route.dev ≠ interface.name := by
  simp [others]

/-- The routes of other interfaces never go, so that none of them may be listed. -/
theorem unextendedIn_of_ended (initialized : interface.initialized = true)
    (ended : interface.deleteType ip kind passes table = some after) :
    interface.UnextendedIn kind table := by
  intro route member named typed
  by_contra foreign
  have stays : route ∈ interface.others after :=
    (deleteType_others ended).mem_iff.mpr (mem_others.mpr ⟨member, foreign⟩)
  exact unlisted_of_currentRoutes initialized (deleteType_ended ended) route
    (mem_others.mp stays).1 named typed

theorem UnextendedIn.of_others {before : List Route}
    (unextended : interface.UnextendedIn kind after)
    (same : (interface.others after).Perm (interface.others before)) :
    interface.UnextendedIn kind before := by
  intro route member named typed
  by_contra foreign
  have there : route ∈ interface.others after :=
    same.mem_iff.mpr (mem_others.mpr ⟨member, foreign⟩)
  exact foreign (unextended route (mem_others.mp there).1 named typed)

theorem foldlM_deleteType_others {kinds : List RouteType}
    (ended : kinds.foldlM (fun table kind => interface.deleteType ip kind passes table) table =
      some after) :
    (interface.others after).Perm (interface.others table) ∧
      (interface.initialized = true → ∀ kind ∈ kinds, interface.UnextendedIn kind table) := by
  induction kinds generalizing table with
  | nil =>
      cases ended
      exact ⟨.refl _, fun _ _ member => absurd member (by simp)⟩
  | cons first kinds ih =>
      rw [List.foldlM_cons] at ended
      obtain ⟨middle, deleted, rest⟩ := Option.bind_eq_some_iff.mp ended
      obtain ⟨same, others⟩ := ih rest
      have before := deleteType_others deleted
      refine ⟨same.trans before, fun initialized kind member => ?_⟩
      rcases List.mem_cons.mp member with here | later
      · subst here
        exact unextendedIn_of_ended initialized deleted
      · exact (others initialized kind later).of_others before

theorem foldlM_deleteType_uninitialized {kinds : List RouteType}
    (untouched : interface.initialized = false) :
    kinds.foldlM (fun table kind => interface.deleteType ip kind (passes + 1) table) table =
      some table := by
  induction kinds with
  | nil => rfl
  | cons kind kinds ih =>
      have idle : interface.deleteType ip kind (passes + 1) table = some table := by
        rw [deleteType, currentRoutes_uninitialized untouched]
      rw [List.foldlM_cons, idle]
      exact ih

end Looping

section Deleting

variable (ip : IpRoute) {args : List Text}

/-- What has to hold of the table for a call to do its work. -/
def Deletable (interface : Interface) (args : List Text) (table : List Route) : Prop :=
  ∀ kind ∈ kindsOf args, if interface.initialized then interface.UnextendedIn kind table
    else interface.ofType kind table = []

theorem deletable_of_deletes (chosen : kindsOf args ≠ [])
    (deletes : Deletes ip interface args table) : interface.Deletable args table := by
  obtain ⟨passes, after, ended, gone, others⟩ := deletes
  rw [deleteRoutes, if_neg chosen, Except.ok.injEq] at ended
  intro kind among
  cases initialized : interface.initialized with
  | true =>
      rw [if_pos rfl]
      exact (foldlM_deleteType_others ended).2 initialized kind among
  | false =>
      rw [if_neg Bool.false_ne_true]
      cases passes with
      | zero =>
          -- Without a pass the first loop has not ended.
          obtain ⟨first, rest, whole⟩ := List.exists_cons_of_ne_nil chosen
          rw [whole, List.foldlM_cons] at ended
          cases ended
      | succ passes =>
          rw [foldlM_deleteType_uninitialized initialized, Option.some.injEq] at ended
          rw [ended]
          exact gone kind among

/-- Passes for all routes of the table are enough. -/
theorem foldlM_deleteType_perm (initialized : interface.initialized = true)
    {kinds : List RouteType} (unextended : ∀ kind ∈ kinds, interface.UnextendedIn kind table) :
    ∃ after, kinds.foldlM
        (fun left kind => interface.deleteType ip kind (table.length + 1) left) table =
          some after ∧ after.Perm (interface.without kinds table) := by
  refine foldlM_without (fun kind left bounded unextended => ?_) (Nat.le_refl _) unextended
  refine deleteType_perm ip initialized kind unextended (Nat.lt_succ_of_le ?_)
  exact (List.length_filter_le _ _).trans bounded

theorem others_without (kinds : List RouteType) :
    interface.others (interface.without kinds table) = interface.others table := by
  rw [others, without, List.filter_filter]
  refine List.filter_congr fun route _ => ?_
  by_cases here : route.dev = interface.name
  · simp [here]
  · simp [here, Owns]

theorem deletes_of_deletable (chosen : kindsOf args ≠ [])
    (deletable : interface.Deletable args table) : Deletes ip interface args table := by
  cases initialized : interface.initialized with
  | true =>
      have unextended : ∀ kind ∈ kindsOf args, interface.UnextendedIn kind table :=
        fun kind among => by simpa [initialized] using deletable kind among
      obtain ⟨after, ended, left⟩ := foldlM_deleteType_perm ip initialized unextended
      refine ⟨table.length + 1, after, ?_, fun kind among => ?_, ?_⟩
      · rw [deleteRoutes, if_neg chosen, ended]
      · have gone : interface.ofType kind (interface.without (kindsOf args) table) = [] :=
          (ofType_without kind (kindsOf args)).trans (if_pos among)
        exact List.perm_nil.mp (gone ▸ left.filter _)
      · have same : interface.others (interface.without (kindsOf args) table) =
            interface.others table := others_without _
        exact same ▸ left.filter _
  | false =>
      refine ⟨1, table, ?_, fun kind among => ?_, .refl _⟩
      · rw [deleteRoutes, if_neg chosen, foldlM_deleteType_uninitialized initialized]
      · simpa [initialized] using deletable kind among

/-- A call does its work just when no route of the types is of an interface whose name
extends the name of this one. An interface that is not initialized leaves the table as it
is, so that it must have no such route. -/
theorem deleteRoutes_deletes_iff (chosen : kindsOf args ≠ []) :
    Deletes ip interface args table ↔ interface.Deletable args table :=
  ⟨deletable_of_deletes ip chosen, deletes_of_deletable ip chosen⟩

/-- The default route of `wcli0` goes, that of another interface stays. -/
theorem deleteRoutes_deletes_default :
    Deletes orderedTable (wirelessClient "71") ["default".toList]
      [bridgeRoute, (wirelessClient "21").newRoute .default] := by
  refine (deleteRoutes_deletes_iff orderedTable (by decide)).mpr fun kind _ => ?_
  rw [if_pos (show (wirelessClient "71").initialized = true from rfl)]
  exact (unextended_wireless "71" (by decide)).within kind

def bridge : Interface := ⟨"br0".toList, none, none, "10".toList, true⟩

def vlanRoute : Route := ⟨"default".toList, some "10.1.0.1".toList, "br0.2".toList, none⟩

/-- With a default route of `br0.2` the call for `br0` never ends. -/
theorem deleteRoutes_endless : ¬∀ ip interface args table, kindsOf args ≠ [] →
    Deletes ip interface args table := by
  intro always
  have chosen : kindsOf ["default".toList] ≠ [] := by decide
  have deletable := deletable_of_deletes orderedTable chosen
    (always orderedTable bridge ["default".toList] [bridgeRoute, vlanRoute] chosen)
  have unextended : bridge.UnextendedIn .default [bridgeRoute, vlanRoute] :=
    deletable .default (by decide)
  have same := unextended vlanRoute (by simp) (by decide) (by decide)
  exact absurd same (by decide)

end Deleting

end Interface

theorem isSome_bind_iff {First Second : Type} {first : Option First} {next : First → Option Second} :
    (first.bind next).isSome ↔ first.isSome ∧ ∀ value, first = some value → (next value).isSome := by
  cases first <;> simp

namespace Interface

variable (ip : IpRoute) {interface : Interface} {table : List Route}

/-- The types can be deleted: no other interface's route of one of them is taken for a
route of this interface. -/
def Clear (interface : Interface) (kinds : List RouteType) (table : List Route) : Prop :=
  interface.initialized = true → ∀ kind ∈ kinds, interface.UnextendedIn kind table

theorem foldlM_deleteRoute_unextended (initialized : interface.initialized = true)
    {kinds : List RouteType} {after : List Route}
    (ended : kinds.foldlM (interface.deleteRoute ip) table = some after) :
    ∀ kind ∈ kinds, interface.UnextendedIn kind table := by
  induction kinds generalizing table with
  | nil => exact fun _ member => absurd member List.not_mem_nil
  | cons first kinds ih =>
      rw [List.foldlM_cons] at ended
      obtain ⟨middle, deleted, rest⟩ := Option.bind_eq_some_iff.mp ended
      intro kind member
      rcases List.mem_cons.mp member with here | later
      · subst here
        exact unextendedIn_of_ended initialized deleted
      · exact (ih rest kind later).of_others (deleteType_others deleted)

theorem foldlM_deleteRoute_isSome_iff {kinds : List RouteType} :
    (kinds.foldlM (interface.deleteRoute ip) table).isSome ↔ interface.Clear kinds table := by
  cases initialized : interface.initialized with
  | true =>
      constructor
      · intro ended _
        obtain ⟨after, ended⟩ := Option.isSome_iff_exists.mp ended
        exact foldlM_deleteRoute_unextended ip initialized ended
      · intro clear
        have deleted : ∃ after, kinds.foldlM (interface.deleteRoute ip) table = some after ∧
            after.Perm (interface.without kinds table) :=
          foldlM_without
            (fun kind _ _ unextended => deleteType_perm ip initialized kind unextended
              (Nat.lt_succ_of_le (List.length_filter_le _ _)))
            (Nat.le_refl _) (clear initialized)
        obtain ⟨after, ended, -⟩ := deleted
        exact Option.isSome_iff_exists.mpr ⟨after, ended⟩
  | false =>
      have idle : kinds.foldlM (interface.deleteRoute ip) table = some table := by
        induction kinds with
        | nil => rfl
        | cons kind kinds ih =>
            rw [List.foldlM_cons, deleteRoute, deleteType, currentRoutes_uninitialized initialized]
            exact ih
      rw [idle]
      exact iff_of_true rfl fun ready => absurd (initialized.symm.trans ready) Bool.false_ne_true

theorem addRoutes_isSome_iff : (interface.addRoutes ip table).isSome ↔
    interface.Clear (interface.deleted table) table := by
  rw [addRoutes_eq, isSome_bind_iff, foldlM_deleteRoute_isSome_iff]
  exact and_iff_left fun _ _ => rfl

/-- Where no other interface's name extends this one's, adding routes keeps it so. -/
theorem Unextended.addRoutes {after : List Route} (unextended : interface.Unextended table)
    (initialized : interface.initialized = true)
    (updated : interface.addRoutes ip table = some after) : interface.Unextended after := by
  intro route member named
  by_contra foreign
  have other : route ∈ interface.others after := mem_others.mpr ⟨member, foreign⟩
  have there : route ∈ interface.others table :=
    (addRoutes_others ip initialized unextended updated).mem_iff.mp other
  exact foreign (unextended route (mem_others.mp there).1 named)

theorem Unextended.clear (unextended : interface.Unextended table) (kinds : List RouteType) :
    interface.Clear kinds table :=
  fun _ kind _ => unextended.within kind

end Interface

namespace RouteSettings

variable (ip : IpRoute) (name : Text) (check : Bool → Option Bool) {settings : RouteSettings}
  {table : List Route}

/-- The routes can be added with what is there. -/
def AddClear (settings : RouteSettings) (table : List Route) : Prop :=
  (settings.interface name).Clear ((settings.interface name).deleted table) table

/-- A check that is made can add the routes. -/
def CheckClear (settings : RouteSettings) (checkAcs : Bool) (cached : Option Bool)
    (table : List Route) : Prop :=
  cached = none → settings.Checked check checkAcs → settings.AddClear name table

def SettleClear (settings : RouteSettings) (table : List Route) : Prop :=
  if settings.Reached then AddClear name { settings with metricOffset := 0 } table
  else if settings.links then AddClear name { settings with metricOffset := 50 } table
  else (settings.interface name).Clear [.default, .multicast, .subnet] table

/-- The condition at each call of an update, on the table that it starts from. -/
structure UpdateClear (settings : RouteSettings) (table : List Route) : Prop where
  acs : settings.CheckClear name check true settings.hasAcs table
  internet : ∀ acs middle, settings.known ip name check true settings.hasAcs table =
    some (acs, middle) → acs ≠ some true →
      settings.CheckClear name check false settings.hasInternet middle
  routes : ∀ next last, settings.access ip name check table = some (next, last) →
    next.SettleClear name last

theorem known_isSome_iff {checkAcs : Bool} {cached : Option Bool} :
    (settings.known ip name check checkAcs cached table).isSome ↔
      settings.CheckClear name check checkAcs cached table := by
  cases cached with
  | some answer => exact iff_of_true rfl nofun
  | none =>
      unfold known CheckClear connectionCheck
      dsimp only
      by_cases checked : settings.Checked check checkAcs
      · rw [if_pos checked, Option.isSome_map, Interface.addRoutes_isSome_iff]
        exact ⟨fun clear _ _ => clear, fun clear => clear rfl checked⟩
      · rw [if_neg checked]
        refine iff_of_true ?_ fun _ asked => absurd asked checked
        split <;> rfl

theorem addAt_isSome_iff {offset : Int} : (settings.addAt ip name offset table).isSome ↔
    AddClear name { settings with metricOffset := offset } table := by
  unfold addAt
  by_cases initialized : settings.initialized = true
  · rw [if_pos initialized]
    dsimp only
    rw [Option.isSome_map, Interface.addRoutes_isSome_iff]
    rfl
  · rw [if_neg initialized]
    exact iff_of_true rfl fun ready => absurd ready initialized

theorem settle_isSome_iff :
    (settings.settle ip name table).isSome ↔ settings.SettleClear name table := by
  unfold settle SettleClear
  split
  · exact addAt_isSome_iff ip name
  · split
    · exact addAt_isSome_iff ip name
    · rw [Option.isSome_map]
      exact Interface.foldlM_deleteRoute_isSome_iff ip

theorem access_isSome_iff : (settings.access ip name check table).isSome ↔
    settings.CheckClear name check true settings.hasAcs table ∧
      ∀ acs middle, settings.known ip name check true settings.hasAcs table = some (acs, middle) →
        acs ≠ some true → settings.CheckClear name check false settings.hasInternet middle := by
  unfold access
  refine isSome_bind_iff.trans (and_congr (known_isSome_iff ip name check) ?_)
  rw [Prod.forall]
  refine forall_congr' fun acs => forall_congr' fun middle => imp_congr_right fun _ => ?_
  dsimp only
  by_cases reached : acs = some true
  · rw [if_pos reached]
    exact iff_of_true rfl fun other => absurd reached other
  · rw [if_neg reached]
    refine (isSome_bind_iff.trans (and_iff_left fun _ _ => rfl)).trans ?_
    rw [known_isSome_iff]
    exact ⟨fun clear _ => clear, fun clear => clear reached⟩

/-- An update ends just when each of its calls does. -/
theorem updateRoutes_isSome_iff : (settings.updateRoutes ip name check table).isSome ↔
    settings.UpdateClear ip name check table := by
  unfold updateRoutes
  refine isSome_bind_iff.trans ?_
  rw [access_isSome_iff, Prod.forall]
  simp only [settle_isSome_iff]
  exact ⟨fun ⟨⟨acs, internet⟩, routes⟩ => ⟨acs, internet, routes⟩,
    fun clear => ⟨⟨clear.acs, clear.internet⟩, clear.routes⟩⟩

/-- What is known of the access changes neither the name nor the table's other routes. -/
theorem known_unextended {checkAcs : Bool} {cached answer : Option Bool} {after : List Route}
    (unextended : (settings.interface name).Unextended table)
    (found : settings.known ip name check checkAcs cached table = some (answer, after)) :
    (settings.interface name).Unextended after := by
  cases cached with
  | some cached =>
      cases found
      exact unextended
  | none =>
      unfold known connectionCheck at found
      dsimp only at found
      split at found
      case isTrue checked =>
        obtain ⟨left, added, same⟩ := Option.map_eq_some_iff.mp found
        cases same
        exact unextended.addRoutes ip checked.2.1 added
      case isFalse =>
        split at found
        · cases found
          exact unextended
        · cases found
          exact unextended

/-- In a table without interfaces whose names extend this one's every update ends. -/
theorem updateRoutes_of_unextended (unextended : (settings.interface name).Unextended table) :
    (settings.updateRoutes ip name check table).isSome := by
  refine (updateRoutes_isSome_iff ip name check).mpr ⟨fun _ _ => unextended.clear _, ?_, ?_⟩
  · intro acs middle found _ _ _
    exact (known_unextended ip name check unextended found).clear _
  · intro next last accessed
    have kept : next.interface name = settings.interface name ∧
        (settings.interface name).Unextended last := by
      unfold access at accessed
      obtain ⟨⟨acs, middle⟩, first, rest⟩ := Option.bind_eq_some_iff.mp accessed
      have between := known_unextended ip name check unextended first
      dsimp only at rest
      split at rest
      · cases rest
        exact ⟨rfl, between⟩
      · obtain ⟨⟨internet, final⟩, second, same⟩ := Option.bind_eq_some_iff.mp rest
        cases same
        exact ⟨rfl, known_unextended ip name check between second⟩
    have named (offset : Int) :
        ({ next with metricOffset := offset }.interface name).Unextended last := by
      exact fun route member prefixed => kept.2 route member prefixed
    unfold SettleClear
    split
    · exact (named 0).clear _
    · split
      · exact (named 50).clear _
      · rw [kept.1]
        exact kept.2.clear _

end RouteSettings

end Gfiber.Conman
