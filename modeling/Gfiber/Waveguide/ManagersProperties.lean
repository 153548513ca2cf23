import Gfiber.Lib.Run
import Gfiber.Waveguide.Managers

/-! Which managers there are after every call of `CreateManagers`, and which of
them are primary. -/

set_option autoImplicit false

namespace Gfiber.Waveguide

open Lib

section Parsing

def keysOf (phyDevs : List (Text × List Text)) : List Text :=
  phyDevs.map Prod.fst

theorem mem_keysOf_appendDev {phy dev key : Text} {phyDevs : List (Text × List Text)} :
    key ∈ keysOf (appendDev phy dev phyDevs) ↔ key = phy ∨ key ∈ keysOf phyDevs := by
  induction phyDevs with
  | nil => simp [appendDev, keysOf]
  | cons entry rest ih =>
      by_cases same : entry.1 = phy
      · simp [appendDev, keysOf, same]
      · simp only [keysOf, appendDev, if_neg same, List.map_cons, List.mem_cons] at ih ⊢
        rw [ih, or_left_comm]

theorem nodup_appendDev {phy dev : Text} {phyDevs : List (Text × List Text)}
    (nodup : (keysOf phyDevs).Nodup) : (keysOf (appendDev phy dev phyDevs)).Nodup := by
  induction phyDevs with
  | nil => simp [appendDev, keysOf]
  | cons entry rest ih =>
      obtain ⟨fresh, others⟩ := List.nodup_cons.mp nodup
      by_cases same : entry.1 = phy
      · simp only [appendDev, if_pos same]
        exact nodup
      · simp only [appendDev, if_neg same]
        refine List.nodup_cons.mpr ⟨fun member => ?_, ih others⟩
        rcases mem_keysOf_appendDev.mp member with eq | earlier
        · exact same eq
        · exact fresh earlier

namespace DevParser

variable {parser : DevParser}

theorem nodup_addEntry (nodup : (keysOf parser.phyDevs).Nodup) :
    (keysOf parser.addEntry.phyDevs).Nodup := by
  unfold addEntry
  split
  case h_1 =>
    split
    case isTrue => exact nodup_appendDev nodup
    case isFalse => exact nodup
  case h_2 => exact nodup

theorem nodup_newPhy (line : Text) (nodup : (keysOf parser.phyDevs).Nodup) :
    (keysOf (parser.newPhy line).phyDevs).Nodup := by
  unfold newPhy
  split
  case h_1 => exact nodup_addEntry nodup
  case h_2 => exact nodup

theorem nodup_newInterface (line : Text) (nodup : (keysOf parser.phyDevs).Nodup) :
    (keysOf (parser.newInterface line).phyDevs).Nodup := by
  unfold newInterface
  split
  case h_1 => exact nodup_addEntry nodup
  case h_2 => exact nodup

@[simp] theorem phyDevs_newType (line : Text) : (parser.newType line).phyDevs = parser.phyDevs := by
  unfold newType
  split <;> rfl

theorem nodup_parseLine (line : Text) (nodup : (keysOf parser.phyDevs).Nodup) :
    (keysOf (parser.parseLine line).phyDevs).Nodup := by
  rw [parseLine, phyDevs_newType]
  exact nodup_newInterface _ (nodup_newPhy _ nodup)

theorem nodup_parseLines (lines : List Text) (nodup : (keysOf parser.phyDevs).Nodup) :
    (keysOf (lines.foldl parseLine parser).phyDevs).Nodup := by
  induction lines generalizing parser with
  | nil => exact nodup
  | cons line lines ih => exact ih (nodup_parseLine line nodup)

end DevParser

/-- Each phy has one list of vdevs. -/
theorem nodup_parseDevList (stdout : Text) : (keysOf (parseDevList stdout)).Nodup :=
  DevParser.nodup_addEntry (DevParser.nodup_parseLines _ List.nodup_nil)

/-- The AP vdevs with their phys. -/
def pairsOf (phyDevs : List (Text × List Text)) : List (Text × Text) :=
  phyDevs.flatMap fun entry => entry.2.map fun dev => (entry.1, dev)

/-- The AP vdevs that the output lists. -/
def apDevs (stdout : Text) : List (Text × Text) :=
  pairsOf (parseDevList stdout)

theorem mem_pairsOf {phyDevs : List (Text × List Text)} {phy dev : Text} :
    (phy, dev) ∈ pairsOf phyDevs ↔ ∃ devs, (phy, devs) ∈ phyDevs ∧ dev ∈ devs := by
  simp only [pairsOf, List.mem_flatMap, List.mem_map, Prod.mk.injEq]
  constructor
  · rintro ⟨⟨_, devs⟩, member, _, inside, rfl, rfl⟩
    exact ⟨devs, member, inside⟩
  · rintro ⟨devs, member, inside⟩
    exact ⟨(phy, devs), member, dev, inside, rfl, rfl⟩

theorem devs_unique {phyDevs : List (Text × List Text)} (nodup : (keysOf phyDevs).Nodup)
    {phy : Text} {devs others : List Text} (left : (phy, devs) ∈ phyDevs)
    (right : (phy, others) ∈ phyDevs) : devs = others := by
  have same := List.inj_on_of_nodup_map nodup left right rfl
  exact congrArg Prod.snd same

end Parsing

/-! The output as `iw` writes it: a line for each phy, and behind it the lines
of its interfaces. -/

/-- An interface with the lines before and after its type. -/
structure Vdev where
  name : Text
  devtype : Text
  details : List Text
  rest : List Text

structure Phy where
  number : Text
  vdevs : List Vdev

namespace Vdev

def lines (vdev : Vdev) : List Text :=
  ("\t".toList ++ ("Interface ".toList ++ vdev.name)) :: vdev.details ++
    ("\t\t".toList ++ ("type ".toList ++ vdev.devtype)) :: vdev.rest

end Vdev

namespace Phy

def lines (phy : Phy) : List Text :=
  ("phy#".toList ++ phy.number) :: phy.vdevs.flatMap Vdev.lines

def name (phy : Phy) : Text :=
  "phy".toList ++ phy.number

/-- The AP vdevs of the phy. -/
def aps (phy : Phy) : List (Text × Text) :=
  (phy.vdevs.filter fun vdev => vdev.devtype = "AP".toList).map fun vdev => (phy.name, vdev.name)

end Phy

def iwDev (phys : List Phy) : Text :=
  ['\n'].intercalate (phys.flatMap Phy.lines)

/-- A line that names no phy, interface or type. -/
structure Plain (line : Text) : Prop where
  single : '\n' ∉ line
  phy : Text.matchGroup "phy#".toList Text.isDigit (Text.strip line) = none
  interface : Text.matchGroup "Interface ".toList isDevChar (Text.strip line) = none
  devtype : Text.matchGroup "type ".toList Text.isWord (Text.strip line) = none

structure Vdev.WellFormed (vdev : Vdev) : Prop where
  named : vdev.name ≠ []
  name : ∀ char ∈ vdev.name, isDevChar char
  typed : vdev.devtype ≠ []
  devtype : ∀ char ∈ vdev.devtype, Text.isWord char
  details : ∀ line ∈ vdev.details, Plain line
  rest : ∀ line ∈ vdev.rest, Plain line

structure Phy.WellFormed (phy : Phy) : Prop where
  numbered : phy.number ≠ []
  number : ∀ char ∈ phy.number, Text.isDigit char
  vdevs : ∀ vdev ∈ phy.vdevs, vdev.WellFormed

section Listing

theorem pairsOf_appendDev (phy dev : Text) (phyDevs : List (Text × List Text)) :
    (pairsOf (appendDev phy dev phyDevs)).Perm (pairsOf phyDevs ++ [(phy, dev)]) := by
  induction phyDevs with
  | nil => exact .refl _
  | cons entry rest ih =>
      by_cases same : entry.1 = phy
      · simp only [appendDev, same, if_true, pairsOf, List.flatMap_cons, List.map_append,
          List.append_assoc]
        exact (List.perm_append_comm).append_left _
      · simp only [appendDev, same, if_false, pairsOf, List.flatMap_cons, List.append_assoc]
        exact ih.append_left _

namespace DevParser

variable {parser : DevParser}

/-- The AP vdevs found so far, the one being read included. -/
def found (parser : DevParser) : List (Text × Text) :=
  pairsOf parser.addEntry.phyDevs

theorem parseLine_plain {line : Text} (plain : Plain line) : parser.parseLine line = parser := by
  simp only [parseLine, newPhy, newInterface, newType, plain.phy, plain.interface, plain.devtype]

theorem foldl_plain {lines : List Text} (plain : ∀ line ∈ lines, Plain line) :
    lines.foldl parseLine parser = parser := by
  induction lines with
  | nil => rfl
  | cons line lines ih =>
      obtain ⟨first, others⟩ := List.forall_mem_cons.mp plain
      rw [List.foldl_cons, parseLine_plain first, ih others]

theorem parseLine_phy {number : Text} (some_digit : number ≠ [])
    (digits : ∀ char ∈ number, Text.isDigit char) :
    parser.parseLine ("phy#".toList ++ number) =
      { parser.addEntry with phy := some ("phy".toList ++ number), dev := none, devtype := none } := by
  have stripped : Text.strip ("phy#".toList ++ number) = "phy#".toList ++ number :=
    Text.strip_line (rfl : List.all [] Text.isSpace) (by decide) some_digit
      fun char member => Text.solid_of_class (by decide) (digits char member)
  have matched := Text.matchGroup_append "phy#".toList some_digit digits
  simp only [parseLine, stripped, newPhy, matched]
  rfl

theorem parseLine_interface {name : Text} (some_char : name ≠ [])
    (chars : ∀ char ∈ name, isDevChar char) :
    parser.parseLine ("\t".toList ++ ("Interface ".toList ++ name)) =
      { parser.addEntry with dev := some name, devtype := none } := by
  have stripped : Text.strip ("\t".toList ++ ("Interface ".toList ++ name)) =
      "Interface ".toList ++ name :=
    Text.strip_line (by decide) (by decide) some_char
      fun char member => Text.solid_of_class (by decide) (chars char member)
  have matched := Text.matchGroup_append "Interface ".toList some_char chars
  have other : parser.newPhy ("Interface ".toList ++ name) = parser := rfl
  simp only [parseLine, stripped, other, newInterface, matched]
  rfl

theorem parseLine_type {devtype : Text} (some_char : devtype ≠ [])
    (chars : ∀ char ∈ devtype, Text.isWord char) :
    parser.parseLine ("\t\t".toList ++ ("type ".toList ++ devtype)) =
      { parser with devtype := some devtype } := by
  have stripped : Text.strip ("\t\t".toList ++ ("type ".toList ++ devtype)) =
      "type ".toList ++ devtype :=
    Text.strip_line (by decide) (by decide) some_char
      fun char member => Text.solid_of_class (by decide) (chars char member)
  have matched := Text.matchGroup_append "type ".toList some_char chars
  have noPhy : parser.newPhy ("type ".toList ++ devtype) = parser := rfl
  have noInterface : parser.newInterface ("type ".toList ++ devtype) = parser := rfl
  simp only [parseLine, stripped, noPhy, noInterface, newType, matched]

theorem phy_addEntry : parser.addEntry.phy = parser.phy := by
  unfold addEntry
  split
  case h_1 =>
    split
    case isTrue => rfl
    case isFalse => rfl
  case h_2 => rfl

/-- The parser behind the lines of an interface. -/
def after (parser : DevParser) (vdev : Vdev) : DevParser :=
  ⟨parser.phy, some vdev.name, some vdev.devtype, parser.addEntry.phyDevs⟩

theorem foldl_vdev {vdev : Vdev} (formed : vdev.WellFormed) :
    vdev.lines.foldl parseLine parser = parser.after vdev := by
  rw [Vdev.lines, List.cons_append, List.foldl_cons, List.foldl_append, List.foldl_cons,
    parseLine_interface formed.named formed.name, foldl_plain formed.details,
    parseLine_type formed.typed formed.devtype, foldl_plain formed.rest, after, phy_addEntry]

theorem found_after {phy : Text} (reading : parser.phy = some phy) (vdev : Vdev) :
    (parser.after vdev).found.Perm
      (parser.found ++ if vdev.devtype = "AP".toList then [(phy, vdev.name)] else []) := by
  by_cases ap : vdev.devtype = "AP".toList
  · simp only [found, after, addEntry, reading, ap, if_true]
    exact pairsOf_appendDev _ _ _
  · simp only [found, after, addEntry, reading, ap, Option.some.injEq, if_false, List.append_nil]
    exact .refl _

theorem found_vdevs {phy : Text} {vdevs : List Vdev} (formed : ∀ vdev ∈ vdevs, vdev.WellFormed)
    (reading : parser.phy = some phy) :
    ((vdevs.flatMap Vdev.lines).foldl parseLine parser).found.Perm
      (parser.found ++
        (vdevs.filter fun vdev => vdev.devtype = "AP".toList).map fun vdev => (phy, vdev.name)) := by
  induction vdevs generalizing parser with
  | nil => simp
  | cons vdev vdevs ih =>
      obtain ⟨first, others⟩ := List.forall_mem_cons.mp formed
      rw [List.flatMap_cons, List.foldl_append, foldl_vdev first]
      have behind : (parser.after vdev).phy = some phy := reading
      refine (ih others behind).trans ?_
      refine ((found_after reading vdev).append_right _).trans ?_
      rw [List.append_assoc]
      rw [List.filter_cons]
      by_cases ap : vdev.devtype = "AP".toList
      · rw [if_pos ap, if_pos (decide_eq_true ap), List.map_cons]
        exact .refl _
      · rw [if_neg ap, if_neg (by rwa [decide_eq_true_eq]), List.nil_append]

theorem found_phy {phy : Phy} (formed : phy.WellFormed) :
    (phy.lines.foldl parseLine parser).found.Perm (parser.found ++ phy.aps) := by
  rw [Phy.lines, List.foldl_cons, parseLine_phy formed.numbered formed.number]
  exact found_vdevs formed.vdevs rfl

theorem found_phys {phys : List Phy} (formed : ∀ phy ∈ phys, phy.WellFormed) :
    ((phys.flatMap Phy.lines).foldl parseLine parser).found.Perm
      (parser.found ++ phys.flatMap Phy.aps) := by
  induction phys generalizing parser with
  | nil => simp
  | cons phy phys ih =>
      obtain ⟨first, others⟩ := List.forall_mem_cons.mp formed
      rw [List.flatMap_cons, List.foldl_append, List.flatMap_cons, ← List.append_assoc]
      exact (ih others).trans ((found_phy first).append_right _)

end DevParser

theorem Vdev.WellFormed.single_lines {vdev : Vdev} (formed : vdev.WellFormed) :
    ∀ line ∈ vdev.lines, '\n' ∉ line := by
  have name : '\n' ∉ vdev.name := fun member => absurd (formed.name _ member) (by decide)
  have devtype : '\n' ∉ vdev.devtype := fun member => absurd (formed.devtype _ member) (by decide)
  intro line member
  simp only [Vdev.lines, List.cons_append, List.mem_cons, List.mem_append] at member
  rcases member with rfl | detail | rfl | rest
  · simpa using name
  · exact (formed.details line detail).single
  · simpa using devtype
  · exact (formed.rest line rest).single

theorem Phy.WellFormed.single_lines {phy : Phy} (formed : phy.WellFormed) :
    ∀ line ∈ phy.lines, '\n' ∉ line := by
  have number : '\n' ∉ phy.number := fun member => absurd (formed.number _ member) (by decide)
  intro line member
  rcases List.mem_cons.mp member with rfl | later
  · simpa using number
  · obtain ⟨vdev, found, inside⟩ := List.mem_flatMap.mp later
    exact (formed.vdevs vdev found).single_lines line inside

/-- From the output for some phys, the AP vdevs of these phys are read. -/
theorem apDevs_iwDev {phys : List Phy} (formed : ∀ phy ∈ phys, phy.WellFormed) :
    (apDevs (iwDev phys)).Perm (phys.flatMap Phy.aps) := by
  cases phys with
  | nil => exact .refl _
  | cons phy rest =>
      have lines : (iwDev (phy :: rest)).splitOn '\n' = (phy :: rest).flatMap Phy.lines := by
        refine List.splitOn_intercalate _ (fun line member => ?_) (by simp [Phy.lines])
        obtain ⟨each, found, inside⟩ := List.mem_flatMap.mp member
        exact (formed each found).single_lines line inside
      rw [apDevs, parseDevList, lines]
      exact DevParser.found_phys formed

end Listing

section Order

theorem devKey_injective : Function.Injective devKey := by
  intro left right same
  exact congrArg Prod.snd (toLex.injective same)

theorem mem_sortDevs {devs : List Text} {dev : Text} : dev ∈ sortDevs devs ↔ dev ∈ devs :=
  List.mem_insertionSort _

theorem nodup_sortDevs {devs : List Text} (nodup : devs.Nodup) : (sortDevs devs).Nodup :=
  (List.perm_insertionSort _ devs).nodup_iff.mpr nodup

theorem head_sortDevs_iff {devs : List Text} {dev : Text} :
    (sortDevs devs).head? = some dev ↔
      dev ∈ devs ∧ ∀ other ∈ devs, devKey dev ≤ devKey other := by
  have sorted : (sortDevs devs).Pairwise fun left right => devKey left ≤ devKey right :=
    List.pairwise_insertionSort _ devs
  simp only [← @mem_sortDevs devs]
  cases order : sortDevs devs with
  | nil => simp
  | cons first rest =>
      rw [order] at sorted
      have least := (List.pairwise_cons.mp sorted).1
      simp only [List.head?_cons, Option.some.injEq]
      constructor
      · rintro rfl
        refine ⟨List.mem_cons_self, fun other member => ?_⟩
        rcases List.mem_cons.mp member with rfl | later
        · exact le_rfl
        · exact least other later
      · rintro ⟨member, below⟩
        rcases List.mem_cons.mp member with same | later
        · exact same.symm
        · exact devKey_injective (le_antisymm (least dev later) (below first List.mem_cons_self))

/-- The first vdev of a phy: the shortest name, and of several the least. -/
def IsFirst (listed : List (Text × Text)) (phy dev : Text) : Prop :=
  (phy, dev) ∈ listed ∧ ∀ pair ∈ listed, pair.1 = phy → devKey dev ≤ devKey pair.2

instance (listed : List (Text × Text)) (phy dev : Text) : Decidable (IsFirst listed phy dev) :=
  inferInstanceAs (Decidable (_ ∧ _))

theorem IsFirst.unique {listed : List (Text × Text)} {phy dev other : Text}
    (left : IsFirst listed phy dev) (right : IsFirst listed phy other) : dev = other :=
  devKey_injective (le_antisymm (left.2 _ right.1 rfl) (right.2 _ left.1 rfl))

theorem exists_first {listed : List (Text × Text)} {phy dev : Text}
    (member : (phy, dev) ∈ listed) : ∃ first, IsFirst listed phy first := by
  have inside : dev ∈ (listed.filter fun pair => pair.1 = phy).map Prod.snd :=
    List.mem_map.mpr ⟨(phy, dev), by simpa using member, rfl⟩
  cases order : (sortDevs ((listed.filter fun pair => pair.1 = phy).map Prod.snd)).head? with
  | none =>
      rw [List.head?_eq_none_iff] at order
      rw [← mem_sortDevs, order] at inside
      cases inside
  | some first =>
      obtain ⟨found, least⟩ := head_sortDevs_iff.mp order
      simp only [List.mem_map, List.mem_filter, decide_eq_true_eq, Prod.exists,
        exists_eq_right] at found least
      refine ⟨first, found, ?_⟩
      rintro ⟨_, other⟩ later rfl
      exact least other later

end Order

section Loops

/-- The managers made in the loop over the sorted vdevs of a phy. -/
def newManagers (existing : List Text) (phy : Text) (i : Nat) : List Text → List WlanManager
  | [] => []
  | dev :: devs =>
      (if existing.contains dev then [] else [⟨phy, dev, i = 0⟩]) ++
        newManagers existing phy (i + 1) devs

variable {existing : List Text} {phy : Text}

theorem addManagers_eq (i : Nat) (devs : List Text) (managers : List WlanManager) :
    addManagers existing phy i devs managers = managers ++ newManagers existing phy i devs := by
  induction devs generalizing i managers with
  | nil => simp [addManagers, newManagers]
  | cons dev devs ih =>
      rw [addManagers, ih, newManagers]
      by_cases old : dev ∈ existing
      · simp [old]
      · simp [old]

theorem mem_newManagers_succ {i : Nat} {devs : List Text} {m : WlanManager} :
    m ∈ newManagers existing phy (i + 1) devs ↔
      m.phyname = phy ∧ m.vdevname ∈ devs ∧ m.vdevname ∉ existing ∧ m.primary = false := by
  induction devs generalizing i with
  | nil => simp [newManagers]
  | cons dev devs ih =>
      obtain ⟨name, vdev, primary⟩ := m
      rw [newManagers, List.mem_append, ih]
      by_cases old : dev ∈ existing
      · grind
      · grind

theorem mem_newManagers {devs : List Text} (nodup : devs.Nodup) {m : WlanManager} :
    m ∈ newManagers existing phy 0 devs ↔
      m.phyname = phy ∧ m.vdevname ∈ devs ∧ m.vdevname ∉ existing ∧
        (m.primary = true ↔ devs.head? = some m.vdevname) := by
  cases devs with
  | nil => simp [newManagers]
  | cons dev devs =>
      have fresh := (List.nodup_cons.mp nodup).1
      obtain ⟨name, vdev, primary⟩ := m
      rw [newManagers, List.mem_append, mem_newManagers_succ]
      by_cases old : dev ∈ existing
      · grind
      · grind

theorem names_newManagers (i : Nat) (devs : List Text) :
    (newManagers existing phy i devs).map WlanManager.vdevname =
      devs.filter fun dev => dev ∉ existing := by
  induction devs generalizing i with
  | nil => rfl
  | cons dev devs ih =>
      rw [newManagers, List.map_append, ih]
      by_cases old : dev ∈ existing
      · simp [old]
      · simp [old]

/-- All the managers that a call makes. -/
def created (existing : List Text) (phyDevs : List (Text × List Text)) : List WlanManager :=
  phyDevs.flatMap fun entry => newManagers existing entry.1 0 (sortDevs entry.2)

theorem foldl_addManagers (phyDevs : List (Text × List Text)) (managers : List WlanManager) :
    phyDevs.foldl
        (fun managers entry => addManagers existing entry.1 0 (sortDevs entry.2) managers) managers =
      managers ++ created existing phyDevs := by
  induction phyDevs generalizing managers with
  | nil => simp [created]
  | cons entry rest ih =>
      rw [List.foldl_cons, ih, addManagers_eq, List.append_assoc]
      rfl

variable {phyDevs : List (Text × List Text)}

theorem names_pairsOf : (pairsOf phyDevs).map Prod.snd = phyDevs.flatMap Prod.snd := by
  simp [pairsOf, List.map_flatMap, Function.comp_def]

theorem nodup_devs (once : ((pairsOf phyDevs).map Prod.snd).Nodup) {entry : Text × List Text}
    (member : entry ∈ phyDevs) : entry.2.Nodup := by
  rw [names_pairsOf] at once
  exact (List.nodup_flatMap.mp once).1 entry member

theorem mem_created (keys : (keysOf phyDevs).Nodup)
    (once : ((pairsOf phyDevs).map Prod.snd).Nodup) {m : WlanManager} :
    m ∈ created existing phyDevs ↔
      (m.phyname, m.vdevname) ∈ pairsOf phyDevs ∧ m.vdevname ∉ existing ∧
        (m.primary = true ↔ IsFirst (pairsOf phyDevs) m.phyname m.vdevname) := by
  have first {devs : List Text} (member : (m.phyname, devs) ∈ phyDevs) :
      (sortDevs devs).head? = some m.vdevname ↔
        IsFirst (pairsOf phyDevs) m.phyname m.vdevname := by
    have inside {dev : Text} : (m.phyname, dev) ∈ pairsOf phyDevs ↔ dev ∈ devs := by
      rw [mem_pairsOf]
      constructor
      · rintro ⟨others, listed, found⟩
        exact devs_unique keys listed member ▸ found
      · exact fun found => ⟨devs, member, found⟩
    rw [head_sortDevs_iff, IsFirst, inside]
    refine and_congr_right fun _ => ⟨?_, fun least other found => least _ (inside.mpr found) rfl⟩
    rintro least ⟨_, other⟩ listed rfl
    exact least other (inside.mp listed)
  rw [created, List.mem_flatMap, mem_pairsOf]
  constructor
  · rintro ⟨⟨name, devs⟩, member, made⟩
    rw [mem_newManagers (nodup_sortDevs (nodup_devs once member))] at made
    obtain ⟨rfl, found, fresh, primary⟩ := made
    rw [first member] at primary
    exact ⟨⟨devs, member, mem_sortDevs.mp found⟩, fresh, primary⟩
  · rintro ⟨⟨devs, member, found⟩, fresh, primary⟩
    refine ⟨(m.phyname, devs), member, ?_⟩
    rw [mem_newManagers (nodup_sortDevs (nodup_devs once member)), first member]
    exact ⟨rfl, mem_sortDevs.mpr found, fresh, primary⟩

theorem nodup_created (once : ((pairsOf phyDevs).map Prod.snd).Nodup) :
    ((created existing phyDevs).map WlanManager.vdevname).Nodup := by
  have names : (created existing phyDevs).map WlanManager.vdevname =
      (phyDevs.flatMap fun entry => sortDevs entry.2).filter fun dev => dev ∉ existing := by
    simp only [created, List.map_flatMap, names_newManagers, List.filter_flatMap]
  rw [names_pairsOf] at once
  have sorted : (phyDevs.flatMap fun entry => sortDevs entry.2).Perm (phyDevs.flatMap Prod.snd) :=
    List.Perm.flatMap_left _ fun entry _ => List.perm_insertionSort _ _
  rw [names]
  exact (sorted.nodup_iff.mpr once).filter _

end Loops

section Forgetting

theorem eraseP_name {managers : List WlanManager}
    (nodup : (managers.map WlanManager.vdevname).Nodup) (dev : Text) :
    (managers.eraseP fun m => m.vdevname = dev) = managers.filter fun m => m.vdevname ≠ dev := by
  induction managers with
  | nil => rfl
  | cons m rest ih =>
      obtain ⟨fresh, others⟩ := List.nodup_cons.mp nodup
      by_cases same : m.vdevname = dev
      · have kept : rest.filter (fun m => m.vdevname ≠ dev) = rest := by
          rw [List.filter_eq_self]
          intro other member
          have different : other.vdevname ≠ m.vdevname := fun eq =>
            fresh (eq ▸ List.mem_map_of_mem member)
          simpa [← same] using different
        rw [List.eraseP_cons_of_pos (by simpa using same), List.filter_cons_of_neg (by simp [same]),
          kept]
      · simp [same, ih others]

theorem forget_eq {newDevs : List Text} {managers : List WlanManager}
    (nodup : (managers.map WlanManager.vdevname).Nodup) (dev : Text) :
    forget newDevs managers dev =
      managers.filter fun m => m.vdevname ∈ newDevs ∨ m.vdevname ≠ dev := by
  unfold forget
  split
  case isTrue listed =>
    refine (List.filter_eq_self.mpr fun m _ => ?_).symm
    by_cases same : m.vdevname = dev
    · simp [same, listed]
    · simp [same]
  case isFalse unlisted =>
    have reversed : (managers.reverse.map WlanManager.vdevname).Nodup := by
      rw [List.map_reverse]
      exact List.nodup_reverse.mpr nodup
    rw [eraseP_name reversed, List.filter_reverse, List.reverse_reverse]
    refine List.filter_congr fun m _ => ?_
    by_cases same : m.vdevname = dev
    · simp [same, unlisted]
    · simp [same]

/-- The managers of the vdevs that are gone are removed. -/
theorem foldl_forget {newDevs gone : List Text} {managers : List WlanManager}
    (nodup : (managers.map WlanManager.vdevname).Nodup) :
    gone.foldl (forget newDevs) managers =
      managers.filter fun m => m.vdevname ∈ newDevs ∨ m.vdevname ∉ gone := by
  induction gone generalizing managers with
  | nil => simp
  | cons dev gone ih =>
      have fewer : ((forget newDevs managers dev).map WlanManager.vdevname).Nodup := by
        rw [forget_eq nodup]
        exact nodup.sublist (List.filter_sublist.map _)
      rw [List.foldl_cons, ih fewer, forget_eq nodup, List.filter_filter]
      refine List.filter_congr fun m _ => ?_
      by_cases listed : m.vdevname ∈ newDevs
      · simp [listed]
      · simp [listed, Bool.and_comm]

end Forgetting

section Calls

variable {managers after : List WlanManager} {call : Call}

theorem nodup_added {existing : List Text} {phyDevs : List (Text × List Text)}
    (nodup : (managers.map WlanManager.vdevname).Nodup) (keys : (keysOf phyDevs).Nodup)
    (once : ((pairsOf phyDevs).map Prod.snd).Nodup)
    (all : ∀ m ∈ managers, m.vdevname ∈ existing) :
    ((managers ++ created existing phyDevs).map WlanManager.vdevname).Nodup := by
  rw [List.map_append]
  refine nodup.append (nodup_created once) ?_
  intro dev old new
  obtain ⟨m, member, rfl⟩ := List.mem_map.mp old
  obtain ⟨made, fresh, same⟩ := List.mem_map.mp new
  exact ((mem_created keys once).mp fresh).2.1 (same ▸ all m member)

/-- What a call leaves: the managers whose vdevs are still listed, and new ones
for the other vdevs. -/
theorem createManagers_spec (nodup : (managers.map WlanManager.vdevname).Nodup)
    (once : ((apDevs call.stdout).map Prod.snd).Nodup)
    (returned : createManagers managers call = some after) :
    (after.map WlanManager.vdevname).Nodup ∧ ∀ m, m ∈ after ↔
      (m ∈ managers ∧ m.vdevname ∈ (apDevs call.stdout).map Prod.snd) ∨
      ((m.phyname, m.vdevname) ∈ apDevs call.stdout ∧
        m.vdevname ∉ managers.map WlanManager.vdevname ∧
        (m.primary = true ↔ IsFirst (apDevs call.stdout) m.phyname m.vdevname)) := by
  unfold createManagers at returned
  split at returned
  case isTrue => cases returned
  have ordered := call.phyOrder.perm (parseDevList call.stdout)
  generalize call.phyOrder.arrange (parseDevList call.stdout) = phyDevs at ordered returned
  have pairs : (pairsOf phyDevs).Perm (apDevs call.stdout) := ordered.flatMap_right _
  have keys : (keysOf phyDevs).Nodup := (ordered.map _).nodup_iff.mpr (nodup_parseDevList _)
  rw [← (pairs.map _).nodup_iff] at once
  have added := nodup_added nodup keys once fun m member =>
    List.mem_dedup.mpr (List.mem_map_of_mem member)
  have first {phy dev : Text} :
      IsFirst (pairsOf phyDevs) phy dev ↔ IsFirst (apDevs call.stdout) phy dev := by
    simp only [IsFirst, pairs.mem_iff]
  have listed {dev : Text} :
      dev ∈ phyDevs.flatMap Prod.snd ↔ dev ∈ (apDevs call.stdout).map Prod.snd := by
    rw [← names_pairsOf, (pairs.map _).mem_iff]
  simp only [Option.some.injEq] at returned
  rw [foldl_addManagers, foldl_forget added] at returned
  subst returned
  refine ⟨added.sublist (List.filter_sublist.map _), fun m => ?_⟩
  simp only [List.mem_filter, List.mem_append, mem_created keys once, first, pairs.mem_iff, listed,
    IterationOrder.mem_arrange, List.mem_dedup, decide_eq_true_eq]
  constructor
  · rintro ⟨old | new, kept⟩
    · exact .inl ⟨old, kept.resolve_right (not_not_intro (List.mem_map_of_mem old))⟩
    · exact .inr new
  · rintro (⟨old, kept⟩ | new)
    · exact ⟨.inl old, .inl kept⟩
    · exact ⟨.inr new, .inl (List.mem_map_of_mem new.1)⟩

end Calls

/-- The daemon between two calls, with the AP vdevs of the last output. -/
structure Daemon where
  managers : List WlanManager
  listed : List (Text × Text)
deriving DecidableEq, Repr

def Daemon.start : Daemon := ⟨[], []⟩

def Daemon.Called (daemon : Daemon) (call : Call) (next : Daemon) : Prop :=
  createManagers daemon.managers call = some next.managers ∧ next.listed = apDevs call.stdout

/-- There is one manager for each AP vdev listed, and one of each phy is primary,
that of its first vdev. -/
structure Managed (daemon : Daemon) : Prop where
  exact : (daemon.managers.map fun m => (m.phyname, m.vdevname)).Perm daemon.listed
  nodup : (daemon.managers.map WlanManager.vdevname).Nodup
  primary : ∀ pair ∈ daemon.listed,
    ∃! m, m ∈ daemon.managers ∧ m.phyname = pair.1 ∧ m.primary = true
  first : ∀ m ∈ daemon.managers, m.primary = true → IsFirst daemon.listed m.phyname m.vdevname

/-- Each AP vdev is listed once, and on the phy it was on before. -/
@[mk_iff]
structure Plausible (daemon : Daemon) (call : Call) : Prop where
  once : ((apDevs call.stdout).map Prod.snd).Nodup
  stays : ∀ before ∈ daemon.listed, ∀ after ∈ apDevs call.stdout,
    after.2 = before.2 → after.1 = before.1

/-- The first vdev of a phy is still its first one, or it is gone and the vdev
that is now the first was not there before. -/
@[mk_iff]
structure FirstKept (daemon : Daemon) (call : Call) : Prop extends Plausible daemon call where
  kept : ∀ before ∈ daemon.listed, IsFirst daemon.listed before.1 before.2 →
    IsFirst (apDevs call.stdout) before.1 before.2 ∨
      (before ∉ apDevs call.stdout ∧ ∀ after ∈ apDevs call.stdout, after.1 = before.1 →
        IsFirst (apDevs call.stdout) after.1 after.2 → after ∉ daemon.listed)

instance (daemon : Daemon) (call : Call) : Decidable (Plausible daemon call) :=
  decidable_of_iff _ (plausible_iff daemon call).symm

instance (daemon : Daemon) (call : Call) : Decidable (FirstKept daemon call) :=
  decidable_of_iff
    (Plausible daemon call ∧ ∀ before ∈ daemon.listed,
      ¬IsFirst daemon.listed before.1 before.2 ∨
      IsFirst (apDevs call.stdout) before.1 before.2 ∨
        (before ∉ apDevs call.stdout ∧ ∀ after ∈ apDevs call.stdout,
          after.1 ≠ before.1 ∨ ¬IsFirst (apDevs call.stdout) after.1 after.2 ∨
            after ∉ daemon.listed))
    (by simp only [firstKept_iff, imp_iff_not_or, ne_eq])

section Tracking

variable {daemon next : Daemon} {call : Call}

/-- The same with the managers one by one. -/
structure Tracked (daemon : Daemon) : Prop where
  nodup : (daemon.managers.map WlanManager.vdevname).Nodup
  once : (daemon.listed.map Prod.snd).Nodup
  members : ∀ phy dev, (phy, dev) ∈ daemon.listed ↔
    ∃ m ∈ daemon.managers, m.phyname = phy ∧ m.vdevname = dev
  primary : ∀ m ∈ daemon.managers,
    m.primary = true ↔ IsFirst daemon.listed m.phyname m.vdevname

theorem manager_unique {managers : List WlanManager}
    (nodup : (managers.map WlanManager.vdevname).Nodup) {m other : WlanManager}
    (left : m ∈ managers) (right : other ∈ managers) (same : m.vdevname = other.vdevname) :
    m = other :=
  List.inj_on_of_nodup_map nodup left right same

theorem Managed.tracked (managed : Managed daemon) : Tracked daemon where
  nodup := managed.nodup
  once := by
    have names := managed.exact.map Prod.snd
    rw [List.map_map] at names
    exact names.nodup_iff.mp managed.nodup
  members phy dev := by
    rw [← managed.exact.mem_iff, List.mem_map]
    simp only [Prod.mk.injEq]
  primary m member := by
    refine ⟨managed.first m member, fun first => ?_⟩
    obtain ⟨chosen, ⟨found, phy, primary⟩, -⟩ := managed.primary _ first.1
    have least := managed.first chosen found primary
    rw [phy] at least
    exact manager_unique managed.nodup found member (least.unique first) ▸ primary

theorem Tracked.managed (tracked : Tracked daemon) : Managed daemon where
  exact := by
    have pairs : (daemon.managers.map fun m => (m.phyname, m.vdevname)).Nodup :=
      List.Nodup.of_map Prod.snd (by rw [List.map_map]; exact tracked.nodup)
    rw [List.perm_ext_iff_of_nodup pairs (List.Nodup.of_map _ tracked.once)]
    rintro ⟨phy, dev⟩
    rw [tracked.members, List.mem_map]
    simp only [Prod.mk.injEq]
  nodup := tracked.nodup
  primary := by
    rintro ⟨phy, dev⟩ listed
    obtain ⟨first, least⟩ := exists_first listed
    obtain ⟨m, member, rfl, rfl⟩ := (tracked.members _ _).mp least.1
    refine ⟨m, ⟨member, rfl, (tracked.primary m member).mpr least⟩, ?_⟩
    rintro other ⟨found, phy, primary⟩
    have also_least := (tracked.primary other found).mp primary
    rw [phy] at also_least
    exact manager_unique tracked.nodup found member (also_least.unique least)
  first m member primary := (tracked.primary m member).mp primary

/-- What the members of the next list of managers are. -/
theorem Tracked.spec (before : Tracked daemon) (once : ((apDevs call.stdout).map Prod.snd).Nodup)
    (called : daemon.Called call next) :
    (next.managers.map WlanManager.vdevname).Nodup ∧ ∀ m, m ∈ next.managers ↔
      (m ∈ daemon.managers ∧ m.vdevname ∈ next.listed.map Prod.snd) ∨
      ((m.phyname, m.vdevname) ∈ next.listed ∧
        m.vdevname ∉ daemon.managers.map WlanManager.vdevname ∧
        (m.primary = true ↔ IsFirst next.listed m.phyname m.vdevname)) := by
  rw [called.2]
  exact createManagers_spec before.nodup once called.1

theorem FirstKept.of_tracked (before : Tracked daemon) (called : daemon.Called call next)
    (after : Tracked next) : FirstKept daemon call := by
  have once := after.once
  rw [called.2] at once
  obtain ⟨-, members⟩ := before.spec once called
  have survives {m : WlanManager} {phy : Text} (member : m ∈ daemon.managers)
      (listed : (phy, m.vdevname) ∈ next.listed) : m ∈ next.managers :=
    (members m).mpr (.inl ⟨member, List.mem_map_of_mem listed⟩)
  refine ⟨⟨once, ?_⟩, ?_⟩
  · rintro ⟨phy, dev⟩ old ⟨other, _⟩ new rfl
    rw [← called.2] at new
    obtain ⟨m, member, rfl, rfl⟩ := (before.members _ _).mp old
    have listed := (after.members _ _).mpr ⟨m, survives member new, rfl, rfl⟩
    have same := List.inj_on_of_nodup_map after.once new listed rfl
    exact congrArg Prod.fst same
  · rintro ⟨phy, dev⟩ old first
    rw [← called.2]
    obtain ⟨m, member, rfl, rfl⟩ := (before.members _ _).mp old
    by_cases listed : (m.phyname, m.vdevname) ∈ next.listed
    · have primary := (before.primary m member).mpr first
      exact .inl ((after.primary m (survives member listed)).mp primary)
    · refine .inr ⟨listed, ?_⟩
      rintro ⟨_, other⟩ found rfl least kept
      obtain ⟨m', member', phy', rfl⟩ := (before.members _ _).mp kept
      have primary := (after.primary m' (survives member' found)).mpr (phy' ▸ least)
      have same : m.vdevname = m'.vdevname :=
        first.unique (phy' ▸ (before.primary m' member').mp primary)
      rw [same] at listed
      exact listed found

theorem Tracked.step (before : Tracked daemon) (called : daemon.Called call next)
    (kept : FirstKept daemon call) : Tracked next := by
  obtain ⟨⟨once, stays⟩, kept⟩ := kept
  obtain ⟨nodup, members⟩ := before.spec once called
  rw [← called.2] at once stays kept
  have still {m : WlanManager} (old : m ∈ daemon.managers)
      (listed : m.vdevname ∈ next.listed.map Prod.snd) :
      (m.phyname, m.vdevname) ∈ next.listed := by
    obtain ⟨⟨phy, _⟩, found, rfl⟩ := List.mem_map.mp listed
    have same : phy = m.phyname :=
      stays _ ((before.members _ _).mpr ⟨m, old, rfl, rfl⟩) _ found rfl
    exact same ▸ found
  refine ⟨nodup, once, ?_, ?_⟩
  · intro phy dev
    constructor
    · intro listed
      by_cases old : dev ∈ daemon.managers.map WlanManager.vdevname
      · obtain ⟨m, member, rfl⟩ := List.mem_map.mp old
        have names : m.vdevname ∈ next.listed.map Prod.snd := List.mem_map_of_mem listed
        have same := List.inj_on_of_nodup_map once (still member names) listed rfl
        exact ⟨m, (members m).mpr (.inl ⟨member, names⟩), congrArg Prod.fst same, rfl⟩
      · refine ⟨⟨phy, dev, IsFirst next.listed phy dev⟩, (members _).mpr (.inr ⟨listed, old, ?_⟩),
          rfl, rfl⟩
        exact decide_eq_true_iff
    · rintro ⟨m, member, rfl, rfl⟩
      rcases (members m).mp member with ⟨old, listed⟩ | ⟨listed, -⟩
      · exact still old listed
      · exact listed
  · intro m member
    rcases (members m).mp member with ⟨old, listed⟩ | ⟨-, -, primary⟩
    · have earlier := (before.members _ _).mpr ⟨m, old, rfl, rfl⟩
      rw [before.primary m old]
      constructor
      · intro first
        rcases kept _ earlier first with least | ⟨gone, -⟩
        · exact least
        · exact absurd (still old listed) gone
      · -- The phy had a first vdev before, and it cannot have been another one.
        intro least
        obtain ⟨dev, first⟩ := exists_first earlier
        rcases kept _ first.1 first with again | ⟨-, fresh⟩
        · exact least.unique again ▸ first
        · exact absurd earlier (fresh _ (still old listed) rfl least)
    · exact primary

theorem tracked_start : Tracked .start where
  nodup := List.nodup_nil
  once := List.nodup_nil
  members phy dev := by simp [Daemon.start]
  primary m member := by cases member

/-- The managers are right after every call of a run exactly when no call finds
a phy with another first vdev than the one made primary. -/
theorem managed_throughout_iff {trace : List (Daemon × Call)} {finish : Daemon}
    (run : Run Daemon.Called .start trace finish) :
    Throughout Managed trace finish ↔ StepsMeet FirstKept trace := by
  have each : ∀ {daemon call next}, Managed daemon → Daemon.Called daemon call next →
      (Managed next ∧ True ↔ FirstKept daemon call) := by
    intro daemon call next before called
    rw [and_true]
    exact ⟨fun after => .of_tracked before.tracked called after.tracked,
      fun kept => (before.tracked.step called kept).managed⟩
  have whole := run.throughout_iff tracked_start.managed each
  simpa [StepsMeet] using whole

end Tracking

section Sequences

def Daemon.after (daemon : Daemon) (call : Call) : Daemon :=
  ⟨(createManagers daemon.managers call).getD [], apDevs call.stdout⟩

/-- A command that succeeded, with both dictionaries in the order of insertion. -/
def listing (stdout : Text) : Call := ⟨0, stdout, .inserted, .inserted⟩

theorem run_listings (outputs : List Text) :
    Run Daemon.Called .start (traceOf Daemon.after .start (outputs.map listing))
      ((outputs.map listing).foldl Daemon.after .start) := by
  refine Run.of_labels _ _ fun daemon call member => ?_
  obtain ⟨stdout, -, rfl⟩ := List.mem_map.mp member
  exact ⟨rfl, rfl⟩

def portalOnly : Text :=
  "phy#0\n\tInterface wlan0_portal\n\t\tifindex 9\n\t\ttype AP\n".toList

def wlanOnly : Text :=
  "phy#0\n\tInterface wlan0\n\t\tifindex 8\n\t\ttype AP\n".toList

def wlanAndPortal : Text :=
  wlanOnly ++ "\tInterface wlan0_portal\n\t\tifindex 9\n\t\ttype AP\n".toList

/-- The portal comes with the vdev with the shorter name, and goes and comes again. -/
theorem managed_while_first_stays :
    Throughout Managed
      (traceOf Daemon.after .start ([wlanAndPortal, wlanOnly, wlanAndPortal].map listing))
      (([wlanAndPortal, wlanOnly, wlanAndPortal].map listing).foldl Daemon.after .start) := by
  refine (managed_throughout_iff (run_listings _)).mpr ?_
  unfold StepsMeet
  decide +kernel

/-- The portal is there before the vdev with the shorter name: both are primary. -/
theorem two_primaries_after_portal :
    Run Daemon.Called .start
      (traceOf Daemon.after .start ([portalOnly, wlanAndPortal].map listing))
      (([portalOnly, wlanAndPortal].map listing).foldl Daemon.after .start) ∧
    StepsMeet Plausible (traceOf Daemon.after .start ([portalOnly, wlanAndPortal].map listing)) ∧
    ¬Managed (([portalOnly, wlanAndPortal].map listing).foldl Daemon.after .start) := by
  refine ⟨run_listings _, ?_, fun managed => ?_⟩
  · unfold StepsMeet
    decide +kernel
  · have portal := managed.first ⟨"phy0".toList, "wlan0_portal".toList, true⟩
      (by decide +kernel) rfl
    revert portal
    decide +kernel

end Sequences

end Gfiber.Waveguide
