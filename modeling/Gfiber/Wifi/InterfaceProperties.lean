import Gfiber.Wifi.Interfaces

/-! When the lookup with a type finds those of the interfaces that are of that type. -/

set_option autoImplicit false

namespace Gfiber.Wifi

open Lib

section Types

/-- An interface of a type has its name and a digit behind a `w`. -/
def InterfaceType.includes (interfaceType : InterfaceType) (interface : Text) : Bool :=
  (afterType interfaceType.name interface).isSome

theorem name_mem (interfaceType : InterfaceType) : interfaceType.name ∈ interfaceTypes := by
  cases interfaceType with
  | ap => simp [interfaceTypes]
  | client => simp [interfaceTypes]

theorem name_given (interfaceType : InterfaceType) :
    given (some interfaceType.name) = some interfaceType.name := by
  cases interfaceType with
  | ap => rfl
  | client => rfl

theorem afterType_eq_some {interfaceType interface rest : Text}
    (found : afterType interfaceType interface = some rest) :
    ∃ digit, interface = 'w' :: interfaceType ++ digit :: rest ∧ Text.isDigit digit := by
  rw [afterType] at found
  split at found
  case h_1 digit behind after =>
    split at found
    case isTrue decimal =>
      cases found
      exact ⟨digit, Text.eq_append_of_afterLiteral after, decimal⟩
    case isFalse => cases found
  case h_2 => cases found

theorem includes_of_matchesSuffix {interfaceType : InterfaceType} {suffix interface : Text}
    (matched : matchesSuffix interfaceType.name suffix interface) :
    interfaceType.includes interface := by
  rw [InterfaceType.includes, of_decide_eq_true matched]
  rfl

theorem includes_of_matchesType {interfaceType : InterfaceType} {interface : Text}
    (matched : matchesType interfaceType.name interface) : interfaceType.includes interface := by
  rw [matchesType] at matched
  split at matched
  case h_1 rest after => rw [InterfaceType.includes, after]; rfl
  case h_2 => cases matched

theorem eq_of_includes {left right : InterfaceType} {interface : Text}
    (first : left.includes interface) (second : right.includes interface) : left = right := by
  obtain ⟨_, after⟩ := Option.isSome_iff_exists.mp first
  obtain ⟨_, behind⟩ := Option.isSome_iff_exists.mp second
  obtain ⟨_, same, _⟩ := afterType_eq_some after
  obtain ⟨_, other, _⟩ := afterType_eq_some behind
  have equal := same.symm.trans other
  cases left with
  | ap =>
      cases right with
      | ap => rfl
      | client => simp [InterfaceType.name] at equal
  | client =>
      cases right with
      | ap => simp [InterfaceType.name] at equal
      | client => rfl

end Types

section All

variable (devOutput phy : Text)

theorem findAllInterfacesFromPhy_name (interfaceType : InterfaceType) :
    findAllInterfacesFromPhy devOutput phy (some interfaceType.name) =
      (interfacesOf devOutput phy).map fun interfaces =>
        (interfaces.filter (matchesType interfaceType.name)).toFinset := by
  rw [findAllInterfacesFromPhy, name_given]
  cases interfacesOf devOutput phy with
  | error error => rfl
  | ok interfaces => simp [bind, Except.bind, pure, Except.pure, Except.map]

theorem findAllInterfacesFromPhy_none :
    findAllInterfacesFromPhy devOutput phy none =
      (interfacesOf devOutput phy).map fun interfaces =>
        (interfaces.filter (matchesType InterfaceType.ap.name) ++
          interfaces.filter (matchesType InterfaceType.client.name)).toFinset := by
  have types : given none = none := rfl
  rw [findAllInterfacesFromPhy, types]
  cases interfacesOf devOutput phy with
  | error error => rfl
  | ok interfaces => simp [interfaceTypes, bind, Except.bind, pure, Except.pure, Except.map]

/-- Of the interfaces of both types, those of one type are found with the type. -/
theorem filter_includes (interfaceType : InterfaceType) (interfaces : List Text) :
    ((interfaces.filter (matchesType InterfaceType.ap.name) ++
        interfaces.filter (matchesType InterfaceType.client.name)).toFinset.filter
          fun interface => interfaceType.includes interface) =
      (interfaces.filter (matchesType interfaceType.name)).toFinset := by
  ext interface
  simp only [Finset.mem_filter, List.mem_toFinset, List.mem_append, List.mem_filter]
  constructor
  · rintro ⟨⟨member, matched⟩ | ⟨member, matched⟩, included⟩
    · cases eq_of_includes (includes_of_matchesType matched) included
      exact ⟨member, matched⟩
    · cases eq_of_includes (includes_of_matchesType matched) included
      exact ⟨member, matched⟩
  · rintro ⟨member, matched⟩
    refine ⟨?_, includes_of_matchesType matched⟩
    cases interfaceType with
    | ap => exact .inl ⟨member, matched⟩
    | client => exact .inr ⟨member, matched⟩

end All

section Lookup

variable (order : IterationOrder Text) (phyOutput devOutput band : Text)

theorem all_of_type (interfaceType : InterfaceType) :
    findAllInterfacesFromBand order phyOutput devOutput band (some interfaceType.name) =
      (findAllInterfacesFromBand order phyOutput devOutput band none).map
        (Finset.filter fun interface => interfaceType.includes interface) := by
  rw [findAllInterfacesFromBand, findAllInterfacesFromBand]
  cases findPhy order phyOutput band "auto".toList with
  | error error => rfl
  | ok found =>
      cases found with
      | none => rfl
      | some phy =>
          simp only [bind, Except.bind, findAllInterfacesFromPhy_name,
            findAllInterfacesFromPhy_none]
          cases interfacesOf devOutput phy with
          | error error => rfl
          | ok interfaces => simp only [Except.map, filter_includes]

/-- A character of a type is not a type. -/
theorem findInterfaceFromPhy_char (phy suffix : Text) (char : Char) :
    findInterfaceFromPhy devOutput phy [char] suffix = .ok none := by
  have other : [char] ∉ interfaceTypes := by simp [interfaceTypes, InterfaceType.name]
  rw [findInterfaceFromPhy, if_pos other]

theorem addInterface_char (suffix : Text) (interfaces : Finset Text) (char : Char) :
    addInterface order phyOutput devOutput band suffix interfaces [char] =
      (findPhy order phyOutput band "auto".toList).map fun _ => interfaces := by
  rw [addInterface, findInterfaceFromBand]
  cases findPhy order phyOutput band "auto".toList with
  | error error => rfl
  | ok found =>
      cases found with
      | none => rfl
      | some phy => simp [bind, Except.bind, findInterfaceFromPhy_char, Except.map, pure, Except.pure]

/-- With a type and a suffix nothing is found. -/
theorem find_suffix_name {suffix : Text} (named : suffix ≠ "ALL".toList)
    (interfaceType : InterfaceType) :
    findInterfacesFromBandAndSuffix order phyOutput devOutput band suffix
        (some interfaceType.name) =
      (findPhy order phyOutput band "auto".toList).map fun _ => ∅ := by
  have chars : ∃ first second third, interfaceType.name = [first, second, third] := by
    cases interfaceType with
    | ap => exact ⟨_, _, _, rfl⟩
    | client => exact ⟨_, _, _, rfl⟩
  obtain ⟨first, second, third, spelled⟩ := chars
  rw [findInterfacesFromBandAndSuffix, if_neg named, name_given, spelled]
  simp only [List.map_cons, List.map_nil, List.foldlM_cons, List.foldlM_nil, addInterface_char]
  cases findPhy order phyOutput band "auto".toList with
  | error error => rfl
  | ok found => rfl

theorem findInterfaceFromPhy_name (phy suffix : Text) (interfaceType : InterfaceType) :
    findInterfaceFromPhy devOutput phy interfaceType.name suffix =
      (interfacesOf devOutput phy).map
        fun interfaces => interfaces.find? (matchesSuffix interfaceType.name suffix) := by
  rw [findInterfaceFromPhy, if_neg (not_not_intro (name_mem interfaceType))]
  cases interfacesOf devOutput phy with
  | error error => rfl
  | ok interfaces => rfl

theorem ne_nil_of_matchesSuffix {interfaceType suffix interface : Text}
    (matched : matchesSuffix interfaceType suffix interface) : interface ≠ [] := by
  obtain ⟨_, same, _⟩ := afterType_eq_some (of_decide_eq_true matched)
  rw [same]
  exact List.cons_ne_nil _ _

theorem addInterface_name {phy : Text} (suffix : Text) {listed : List Text}
    (found : findPhy order phyOutput band "auto".toList = .ok (some phy))
    (known : interfacesOf devOutput phy = .ok listed) (interfaces : Finset Text)
    (interfaceType : InterfaceType) :
    ∃ more, addInterface order phyOutput devOutput band suffix interfaces interfaceType.name =
        .ok more ∧
      ∀ interface, interface ∈ more ↔ interface ∈ interfaces ∨
        listed.find? (matchesSuffix interfaceType.name suffix) = some interface := by
  rw [addInterface, findInterfaceFromBand, found]
  simp only [bind, Except.bind, findInterfaceFromPhy_name, known, Except.map]
  cases first : listed.find? (matchesSuffix interfaceType.name suffix) with
  | none => exact ⟨interfaces, rfl, by simp⟩
  | some interface =>
      have solid := ne_nil_of_matchesSuffix (List.find?_some first)
      refine ⟨insert interface interfaces, by simp [solid, pure, Except.pure], fun other => ?_⟩
      rw [Finset.mem_insert, Option.some.injEq, or_comm, eq_comm]

/-- Without a type the first interface of each type is found. -/
theorem find_suffix_none {suffix phy : Text} (named : suffix ≠ "ALL".toList) {listed : List Text}
    (found : findPhy order phyOutput band "auto".toList = .ok (some phy))
    (known : interfacesOf devOutput phy = .ok listed) :
    ∃ interfaces,
      findInterfacesFromBandAndSuffix order phyOutput devOutput band suffix none = .ok interfaces ∧
      ∀ interface, interface ∈ interfaces ↔ ∃ interfaceType : InterfaceType,
        listed.find? (matchesSuffix interfaceType.name suffix) = some interface := by
  obtain ⟨first, once, firstFound⟩ :=
    addInterface_name order phyOutput devOutput band suffix found known ∅ .ap
  obtain ⟨second, twice, secondFound⟩ :=
    addInterface_name order phyOutput devOutput band suffix found known first .client
  have types : given none = none := rfl
  refine ⟨second, ?_, fun interface => ?_⟩
  · rw [findInterfacesFromBandAndSuffix, if_neg named, types]
    simp only [interfaceTypes, List.foldlM_cons, List.foldlM_nil, once, bind, Except.bind, twice]
    rfl
  · rw [secondFound, firstFound]
    constructor
    · rintro ((none | ap) | client)
      · exact absurd none (Finset.notMem_empty _)
      · exact ⟨.ap, ap⟩
      · exact ⟨.client, client⟩
    · rintro ⟨interfaceType, typed⟩
      cases interfaceType with
      | ap => exact .inl (.inr typed)
      | client => exact .inr typed

/-- There is no phy for the band, or no interface of the type with the suffix on it. -/
def NothingToFind (suffix : Text) (interfaceType : InterfaceType) : Prop :=
  match findPhy order phyOutput band "auto".toList with
  | .error _ => True
  | .ok none => True
  | .ok (some phy) => ∃ interfaces, interfacesOf devOutput phy = .ok interfaces ∧
      ∀ interface ∈ interfaces, ¬ matchesSuffix interfaceType.name suffix interface

theorem find_suffix_iff {suffix : Text} (named : suffix ≠ "ALL".toList)
    (interfaceType : InterfaceType) :
    findInterfacesFromBandAndSuffix order phyOutput devOutput band suffix
        (some interfaceType.name) =
      (findInterfacesFromBandAndSuffix order phyOutput devOutput band suffix none).map
        (Finset.filter fun interface => interfaceType.includes interface) ↔
    NothingToFind order phyOutput devOutput band suffix interfaceType := by
  have types : given none = none := rfl
  have unfolded : findInterfacesFromBandAndSuffix order phyOutput devOutput band suffix none =
      interfaceTypes.foldlM (addInterface order phyOutput devOutput band suffix) ∅ := by
    rw [findInterfacesFromBandAndSuffix, if_neg named, types]
  rw [find_suffix_name order phyOutput devOutput band named, NothingToFind]
  have fold (interfaces : Except LookupError (Finset Text))
      (first : addInterface order phyOutput devOutput band suffix ∅ InterfaceType.ap.name =
        interfaces) :
      findInterfacesFromBandAndSuffix order phyOutput devOutput band suffix none =
        interfaces.bind fun interfaces => addInterface order phyOutput devOutput band suffix
          interfaces InterfaceType.client.name := by
    rw [unfolded, interfaceTypes, List.foldlM_cons, first]
    cases interfaces with
    | error error => rfl
    | ok interfaces =>
        exact bind_pure
          (addInterface order phyOutput devOutput band suffix interfaces InterfaceType.client.name)
  cases found : findPhy order phyOutput band "auto".toList with
  | error error =>
      have failed : addInterface order phyOutput devOutput band suffix ∅ InterfaceType.ap.name =
          .error error := by
        rw [addInterface, findInterfaceFromBand, found]
        rfl
      rw [fold _ failed]
      exact iff_of_true rfl trivial
  | ok phy =>
      cases phy with
      | none =>
          have nothing (interfaceType : Text) :
              addInterface order phyOutput devOutput band suffix ∅ interfaceType = .ok ∅ := by
            rw [addInterface, findInterfaceFromBand, found]
            rfl
          rw [fold _ (nothing _)]
          simp only [Except.bind, nothing]
          exact iff_of_true rfl trivial
      | some phy =>
          cases known : interfacesOf devOutput phy with
          | error error =>
              have failed : addInterface order phyOutput devOutput band suffix ∅
                  InterfaceType.ap.name = .error error := by
                rw [addInterface, findInterfaceFromBand, found]
                simp only [bind, Except.bind, findInterfaceFromPhy_name, known, Except.map]
              rw [fold _ failed]
              refine iff_of_false (fun same => by cases same) ?_
              rintro ⟨interfaces, same, _⟩
              cases known.symm.trans same
          | ok listed =>
              obtain ⟨interfaces, both, members⟩ :=
                find_suffix_none order phyOutput devOutput band named found known
              rw [both]
              simp only [Except.map, Except.ok.injEq]
              rw [eq_comm, Finset.filter_eq_empty_iff]
              constructor
              · intro none
                refine ⟨listed, known, fun interface member matched => ?_⟩
                cases first : listed.find? (matchesSuffix interfaceType.name suffix) with
                | none => exact List.find?_eq_none.mp first interface member matched
                | some found =>
                    refine none ((members found).mpr ⟨_, first⟩) ?_
                    exact includes_of_matchesSuffix (List.find?_some first)
              · rintro ⟨same, found, none⟩ interface member included
                cases known.symm.trans found
                obtain ⟨other, first⟩ := (members interface).mp member
                have matched := List.find?_some first
                cases eq_of_includes (includes_of_matchesSuffix matched) included
                exact none interface (List.mem_of_find?_eq_some first) matched

/-- With a type the lookup finds those of the interfaces that are of that type for all suffixes, and
for one suffix only where there are none. -/
theorem typed_lookup_iff (suffix : Text) (interfaceType : InterfaceType) :
    findInterfacesFromBandAndSuffix order phyOutput devOutput band suffix
        (some interfaceType.name) =
      (findInterfacesFromBandAndSuffix order phyOutput devOutput band suffix none).map
        (Finset.filter fun interface => interfaceType.includes interface) ↔
    suffix = "ALL".toList ∨ NothingToFind order phyOutput devOutput band suffix interfaceType := by
  by_cases all : suffix = "ALL".toList
  · refine iff_of_true ?_ (.inl all)
    rw [findInterfacesFromBandAndSuffix, findInterfacesFromBandAndSuffix, if_pos all, if_pos all]
    exact all_of_type order phyOutput devOutput band interfaceType
  · rw [find_suffix_iff order phyOutput devOutput band all, or_iff_right all]

end Lookup

/-- One phy with an access point and a client on it. -/
def onePhy : Text :=
  "Wiphy phy0\n * 2412 MHz [1]".toList

def twoInterfaces : Text :=
  "phy#0\n Interface wlan0\n Interface wcli0".toList

/-- The client is found without a type, and not as a client. -/
theorem client_not_found :
    findInterfacesFromBandAndSuffix .inserted onePhy twoInterfaces "2.4".toList [] none =
        .ok {"wcli0".toList, "wlan0".toList} ∧
      InterfaceType.client.includes "wcli0".toList ∧
      findInterfacesFromBandAndSuffix .inserted onePhy twoInterfaces "2.4".toList []
        (some InterfaceType.client.name) = .ok ∅ := by
  refine ⟨?_, ?_, ?_⟩
  · rfl
  · decide
  · rfl

end Gfiber.Wifi
