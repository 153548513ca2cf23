import Gfiber.Waveguide.Autochannel

/-! What the sorts of the channel choice can put first, when a choice stands
once it is made, and which groups it is made among. -/

set_option autoImplicit false

namespace Gfiber.Waveguide

open Lib

section Sorting

variable {Key : Type} [LinearOrder Key]

/-- One of the elements with the least key. -/
structure Least (among : ChannelActivity → Prop) (key : ChannelActivity → Key)
    (i : ChannelActivity) : Prop where
  member : among i
  le : ∀ other, among other → key i ≤ key other

/-- The least elements with the hysteresis frequency go before the others. -/
structure Preferred (among : ChannelActivity → Prop) (key : ChannelActivity → Key)
    (hysteresisFreq : Option Freq) (i : ChannelActivity) : Prop where
  least : Least among key i
  sticks : ∀ other, Least among key other → some other.primaryFreq = hysteresisFreq →
    some i.primaryFreq = hysteresisFreq

variable {among : ChannelActivity → Prop} {key : ChannelActivity → Key}
  {hysteresisFreq : Option Freq} {i other best : ChannelActivity}

theorem Least.key_eq (first : Least among key i) (second : Least among key other) :
    key i = key other :=
  le_antisymm (first.le other second.member) (second.le i first.member)

theorem Least.preferred (least : Least among key i) : Preferred among key none i :=
  ⟨least, fun _ _ same => nomatch same⟩

theorem Preferred.primary_eq (preferred : Preferred among key (some i.primaryFreq) other)
    (least : Least among key i) : other.primaryFreq = i.primaryFreq :=
  Option.some.inj (preferred.sticks i least rfl)

theorem sticky_le_iff : sticky hysteresisFreq i ≤ sticky hysteresisFreq other ↔
    (some other.primaryFreq = hysteresisFreq → some i.primaryFreq = hysteresisFreq) := by
  rw [sticky, sticky]
  by_cases first : some i.primaryFreq = hysteresisFreq
  · rw [if_pos first]
    refine iff_of_true ?_ fun _ => first
    split <;> decide
  · rw [if_neg first]
    by_cases second : some other.primaryFreq = hysteresisFreq
    · rw [if_pos second]
      exact iff_of_false (by decide) fun sticks => first (sticks second)
    · rw [if_neg second]
      exact iff_of_true le_rfl fun same => absurd same second

variable {items rest : List ChannelActivity}

theorem head_tieBroken {draws : Nat → Draw}
    (sorted : sortOn (tieBroken key hysteresisFreq draws) items = best :: rest) :
    Preferred (· ∈ items) key hysteresisFreq best := by
  obtain ⟨index, found, lowest⟩ := head_sortOn sorted
  have least : Least (· ∈ items) key best := by
    refine ⟨List.mem_of_getElem? found, fun other member => ?_⟩
    obtain ⟨position, held⟩ := List.mem_iff_getElem?.mp member
    cases Prod.Lex.toLex_le_toLex.mp (lowest position other held) with
    | inl less => exact less.le
    | inr same => exact same.1.le
  refine ⟨least, fun other also => ?_⟩
  obtain ⟨position, held⟩ := List.mem_iff_getElem?.mp also.member
  cases Prod.Lex.toLex_le_toLex.mp (lowest position other held) with
  | inl less => exact absurd (also.key_eq least) (ne_of_gt less)
  | inr same =>
      refine sticky_le_iff.mp ?_
      cases Prod.Lex.toLex_le_toLex.mp same.2 with
      | inl less => exact less.le
      | inr equal => exact equal.1.le

/-- Every preferred element comes first for some draws. -/
theorem tieBroken_of_preferred (preferred : Preferred (· ∈ items) key hysteresisFreq best) :
    ∃ draws rest, sortOn (tieBroken key hysteresisFreq draws) items = best :: rest := by
  obtain ⟨index, found⟩ := List.mem_iff_getElem?.mp preferred.least.member
  refine ⟨fun position => if position = index then 0 else 1, sortOn_of_least found ?_⟩
  intro position other apart held
  have member := List.mem_of_getElem? held
  rw [tieBroken, tieBroken, Prod.Lex.toLex_lt_toLex]
  rcases (preferred.least.le other member).lt_or_eq with less | same
  · exact .inl less
  · have also : Least (· ∈ items) key other :=
      ⟨member, fun third listed => same ▸ preferred.least.le third listed⟩
    refine .inr ⟨same, Prod.Lex.toLex_lt_toLex.mpr ?_⟩
    rcases (sticky_le_iff.mpr (preferred.sticks other also)).lt_or_eq with less | equal
    · exact .inl less
    · refine .inr ⟨equal, ?_⟩
      dsimp only
      rw [if_pos rfl, if_neg apart]
      decide

end Sorting

section Outcomes

variable (now : ℚ) (state : Airspace) (candidates : Candidates) (useActiveTime : Bool)

/-- The activities that the choice is made among. -/
def Listed (i : ChannelActivity) : Prop :=
  i ∈ channelActivityList now state candidates.groups

def Inside (group : Group) (i : ChannelActivity) : Prop :=
  Listed now state candidates i ∧ i.group = group

def sortedActivities (hysteresisFreq : Option Freq) (draws : Draws) : List ChannelActivity :=
  sortOn (tieBroken (activityKey (activeTime useActiveTime)) hysteresisFreq draws.first)
    (channelActivityList now state candidates.groups)

variable {now state candidates useActiveTime} {hysteresisFreq : Option Freq} {draws : Draws}
  {best choice : ChannelActivity} {rest : List ChannelActivity}

theorem isFalse_of_listed {i : ChannelActivity} (listed : Listed now state candidates i) :
    candidates.isFalse = false := by
  cases candidates with
  | generator groups => rfl
  | list groups =>
      cases groups with
      | nil => cases listed
      | cons group rest => rfl

theorem mem_sortedActivities {i : ChannelActivity} :
    i ∈ sortedActivities now state candidates useActiveTime hysteresisFreq draws ↔
      Listed now state candidates i :=
  mem_sortOn

/-- With primary spreading the result is the head of the first sort. -/
theorem spreading_eq (some : candidates.isFalse = false)
    (sorted : sortedActivities now state candidates useActiveTime hysteresisFreq draws =
      best :: rest) :
    soloChooseChannel now state candidates true useActiveTime hysteresisFreq draws = .ok best := by
  have first : soloChooseChannel now state candidates true useActiveTime hysteresisFreq draws =
      firstOf (sortedActivities now state candidates useActiveTime hysteresisFreq draws) := by
    rw [soloChooseChannel, some]
    rfl
  rw [first, sorted, firstOf]

/-- Without it the result is the head of the second sort, of the best group. -/
theorem popular_eq (some : candidates.isFalse = false)
    (sorted : sortedActivities now state candidates useActiveTime hysteresisFreq draws =
      best :: rest) :
    soloChooseChannel now state candidates false useActiveTime hysteresisFreq draws =
      firstOf (sortOn (tieBroken (popularityKey (activeTime useActiveTime)) hysteresisFreq
        draws.second) ((best :: rest).filter fun i => i.group = best.group)) := by
  have steps : soloChooseChannel now state candidates false useActiveTime hysteresisFreq draws =
      (firstOf (sortedActivities now state candidates useActiveTime hysteresisFreq draws) >>=
        fun best => firstOf (sortOn (tieBroken (popularityKey (activeTime useActiveTime))
          hysteresisFreq draws.second)
            ((sortedActivities now state candidates useActiveTime hysteresisFreq draws).filter
              fun i => i.group = best.group))) := by
    rw [soloChooseChannel, some]
    rfl
  rw [steps, sorted]
  rfl

theorem inside_iff (sorted : sortedActivities now state candidates useActiveTime hysteresisFreq
    draws = best :: rest) {i : ChannelActivity} :
    i ∈ (best :: rest).filter (fun i => i.group = best.group) ↔
      Inside now state candidates best.group i := by
  rw [List.mem_filter, ← sorted, mem_sortedActivities, decide_eq_true_iff]
  rfl

theorem sortedActivities_of_listed (hysteresisFreq : Option Freq) (draws : Draws)
    {i : ChannelActivity} (listed : Listed now state candidates i) : ∃ best rest,
      sortedActivities now state candidates useActiveTime hysteresisFreq draws = best :: rest :=
  sortOn_ne_nil _ (List.ne_nil_of_mem listed)

/-- No activity at all: the first element of an empty list is taken, unless the
candidates are seen to be empty. -/
theorem choose_of_none (none : ∀ i, ¬Listed now state candidates i)
    (usePrimarySpreading : Bool) :
    soloChooseChannel now state candidates usePrimarySpreading useActiveTime hysteresisFreq draws =
      .error (if candidates.isFalse then .valueError else .indexError) := by
  have empty : channelActivityList now state candidates.groups = [] :=
    List.eq_nil_iff_forall_not_mem.mpr none
  rw [soloChooseChannel, empty]
  cases candidates.isFalse with
  | true => rfl
  | false => cases usePrimarySpreading <;> rfl

theorem spreading_outcome (hysteresisFreq : Option Freq) (draws : Draws) {i : ChannelActivity}
    (listed : Listed now state candidates i) : ∃ choice,
      soloChooseChannel now state candidates true useActiveTime hysteresisFreq draws =
          .ok choice ∧
        Preferred (Listed now state candidates) (activityKey (activeTime useActiveTime))
          hysteresisFreq choice := by
  obtain ⟨best, rest, sorted⟩ := sortedActivities_of_listed hysteresisFreq draws listed
  exact ⟨best, spreading_eq (isFalse_of_listed listed) sorted, head_tieBroken sorted⟩

theorem popular_outcome (some : candidates.isFalse = false)
    (sorted : sortedActivities now state candidates useActiveTime hysteresisFreq draws =
      best :: rest) : ∃ choice,
      soloChooseChannel now state candidates false useActiveTime hysteresisFreq draws =
          .ok choice ∧
        Preferred (Inside now state candidates best.group)
          (popularityKey (activeTime useActiveTime)) hysteresisFreq choice := by
  rw [popular_eq some sorted]
  have inside (i : ChannelActivity) := inside_iff sorted (i := i)
  have present : best ∈ (best :: rest).filter fun i => i.group = best.group :=
    List.mem_filter.mpr ⟨List.mem_cons_self, decide_eq_true rfl⟩
  obtain ⟨choice, others, picked⟩ := sortOn_ne_nil
    (tieBroken (popularityKey (activeTime useActiveTime)) hysteresisFreq draws.second)
    (List.ne_nil_of_mem present)
  refine ⟨choice, by rw [picked, firstOf], ?_⟩
  have preferred := head_tieBroken picked
  rwa [funext fun i => propext (inside i)] at preferred

/-- A most popular primary of a best group is chosen for some draws. -/
theorem popular_of_preferred
    (first : Preferred (Listed now state candidates) (activityKey (activeTime useActiveTime))
      hysteresisFreq best)
    (second : Preferred (Inside now state candidates best.group)
      (popularityKey (activeTime useActiveTime)) hysteresisFreq choice) :
    ∃ draws, soloChooseChannel now state candidates false useActiveTime hysteresisFreq draws =
      .ok choice := by
  obtain ⟨firstDraws, rest, sorted⟩ := tieBroken_of_preferred first
  have sortedAny (others : Nat → Draw) : sortedActivities now state candidates useActiveTime
      hysteresisFreq ⟨firstDraws, others⟩ = best :: rest := sorted
  rw [← funext fun i => propext (inside_iff (sortedAny firstDraws) (i := i))] at second
  obtain ⟨secondDraws, others, picked⟩ := tieBroken_of_preferred second
  refine ⟨⟨firstDraws, secondDraws⟩, ?_⟩
  rw [popular_eq (isFalse_of_listed first.least.member) (sortedAny secondDraws), picked, firstOf]

end Outcomes

section Stability

variable (now : ℚ) (state : Airspace) (candidates : Candidates) (usePrimarySpreading : Bool)
  (useActiveTime : Bool)

/-- Every choice is made again when its primary is the hysteresis frequency. -/
def Stable : Prop :=
  ∀ (hysteresisFreq : Option Freq) (draws : Draws) (choice : ChannelActivity),
    soloChooseChannel now state candidates usePrimarySpreading useActiveTime hysteresisFreq draws =
        .ok choice →
      ∀ again : Draws, ∃ other : ChannelActivity,
        soloChooseChannel now state candidates usePrimarySpreading useActiveTime
            (some choice.primaryFreq) again = .ok other ∧
          other.primaryFreq = choice.primaryFreq

/-- A most popular primary of a best group is one of the most popular primaries
of each group that the first sort puts first when it prefers this primary. -/
def SharesPopular : Prop :=
  ∀ best choice next : ChannelActivity,
    Least (Listed now state candidates) (activityKey (activeTime useActiveTime)) best →
    Least (Inside now state candidates best.group) (popularityKey (activeTime useActiveTime))
      choice →
    Preferred (Listed now state candidates) (activityKey (activeTime useActiveTime))
      (some choice.primaryFreq) next →
    ∃ same, Least (Inside now state candidates next.group)
      (popularityKey (activeTime useActiveTime)) same ∧ same.primaryFreq = choice.primaryFreq

/-- The choice is stable exactly when the primaries are spread, or the most
popular primaries are shared by the groups that tie. -/
theorem stable_iff : Stable now state candidates usePrimarySpreading useActiveTime ↔
    (usePrimarySpreading = false → SharesPopular now state candidates useActiveTime) := by
  constructor
  · intro stable popular best choice next first second third
    subst popular
    obtain ⟨draws, chosen⟩ := popular_of_preferred first.preferred second.preferred
    obtain ⟨againFirst, rest, sorted⟩ := tieBroken_of_preferred third
    have sorted : sortedActivities now state candidates useActiveTime (some choice.primaryFreq)
        ⟨againFirst, againFirst⟩ = next :: rest := sorted
    obtain ⟨other, result, least⟩ := popular_outcome (isFalse_of_listed first.member) sorted
    obtain ⟨again, repeated, primary⟩ := stable none draws choice chosen ⟨againFirst, againFirst⟩
    obtain rfl := Except.ok.inj (result.symm.trans repeated)
    exact ⟨other, least.least, primary⟩
  · intro shared hysteresisFreq draws choice chosen again
    by_cases some : ∃ i, Listed now state candidates i
    · obtain ⟨i, listed⟩ := some
      cases usePrimarySpreading with
      | true =>
          obtain ⟨found, result, preferred⟩ := spreading_outcome hysteresisFreq draws listed
          obtain rfl := Except.ok.inj (result.symm.trans chosen)
          obtain ⟨other, repeated, kept⟩ := spreading_outcome (some found.primaryFreq) again listed
          exact ⟨other, repeated, kept.primary_eq preferred.least⟩
      | false =>
          have truthy := isFalse_of_listed listed
          obtain ⟨best, rest, sorted⟩ := sortedActivities_of_listed hysteresisFreq draws listed
          obtain ⟨found, result, preferred⟩ := popular_outcome truthy sorted
          obtain rfl := Except.ok.inj (result.symm.trans chosen)
          obtain ⟨next, others, sortedAgain⟩ :=
            sortedActivities_of_listed (some found.primaryFreq) again listed
          obtain ⟨other, repeated, kept⟩ := popular_outcome truthy sortedAgain
          obtain ⟨same, popular, primary⟩ := shared rfl best found next
            (head_tieBroken sorted).least preferred.least (head_tieBroken sortedAgain)
          refine ⟨other, repeated, ?_⟩
          rw [← primary] at kept ⊢
          exact kept.primary_eq popular
    · rw [choose_of_none (fun i listed => some ⟨i, listed⟩)] at chosen
      cases chosen

/-- One network in each of two pairs of channels. -/
def twoNetworks : Airspace where
  seenBss := [⟨5180, 0⟩, ⟨5745, 0⟩]
  channelSurvey := []

def twoPairs : Candidates :=
  .list (legalCombos [5180, 5200, 5745, 5765] c5NonDfs)

/-- The draws that put the activity at an index first. -/
def drawsFor (index : Nat) : Draws where
  first := fun position => if position = index then 0 else 1
  second := fun _ => 0

def chosenFreq (hysteresisFreq : Option Freq) (draws : Draws) : Option Freq :=
  (soloChooseChannel 0 twoNetworks twoPairs false false hysteresisFreq draws).toOption.map
    ChannelActivity.primaryFreq

/-- The networks' own channels are the most popular primaries, but not the ones
that the first sort ties, so that the hysteresis does not keep the pair. -/
theorem choice_jumps : ¬∀ (now : ℚ) (state : Airspace) (allowedFreqs : List Freq)
    (candidates : List Group) (usePrimarySpreading useActiveTime : Bool),
    Stable now state (.list (legalCombos allowedFreqs candidates)) usePrimarySpreading
      useActiveTime := by
  intro alwaysStable
  have first : chosenFreq none (drawsFor 0) = some 5180 := by decide +kernel
  have second : chosenFreq (some 5180) (drawsFor 5) = some 5745 := by decide +kernel
  have stable : Stable 0 twoNetworks twoPairs false false := alwaysStable _ _ _ _ _ _
  obtain ⟨choice, chosen, primary⟩ := Option.map_eq_some_iff.mp first
  obtain ⟨other, repeated, moved⟩ := Option.map_eq_some_iff.mp second
  have result : soloChooseChannel 0 twoNetworks twoPairs false false none (drawsFor 0) =
      .ok choice := by
    cases whole : soloChooseChannel 0 twoNetworks twoPairs false false none (drawsFor 0) with
    | error failure =>
        rw [whole] at chosen
        cases chosen
    | ok value =>
        rw [whole] at chosen
        cases chosen
        rfl
  obtain ⟨again, same, kept⟩ := stable none (drawsFor 0) choice result (drawsFor 5)
  rw [primary] at same kept
  rw [same] at repeated
  cases repeated
  exact absurd (kept.symm.trans moved) (by decide)

end Stability

section Legality

variable {allowedFreqs : List Freq} {candidates : List Group} {combo : Group}

/-- A candidate, an aligned pair of one, or one frequency, all allowed. -/
structure IsLegal (allowedFreqs : List Freq) (candidates : List Group) (combo : Group) : Prop where
  part : ∃ group ∈ candidates,
    combo = group ∨ combo ∈ pairs group ∨ ∃ f ∈ group, combo = [f]
  allowed : ∀ f ∈ combo, f ∈ allowedFreqs

def SomeAllowed (allowedFreqs : List Freq) (candidates : List Group) : Prop :=
  ∃ group ∈ candidates, ∃ f ∈ group, f ∈ allowedFreqs

theorem mem_unseen {already groups : List Group} :
    combo ∈ unseen already groups ↔ combo ∈ groups ∧ combo ∉ already := by
  induction groups generalizing already with
  | nil => simp [unseen]
  | cons group rest ih =>
      rw [unseen]
      by_cases seen : group ∈ already
      · rw [if_pos seen, ih, List.mem_cons]
        constructor
        · rintro ⟨member, fresh⟩
          exact ⟨.inr member, fresh⟩
        · rintro ⟨rfl | member, fresh⟩
          · exact absurd seen fresh
          · exact ⟨member, fresh⟩
      · rw [if_neg seen, List.mem_cons, ih, List.mem_cons, List.mem_cons]
        constructor
        · rintro (rfl | ⟨member, fresh⟩)
          · exact ⟨.inl rfl, seen⟩
          · exact ⟨.inr member, fun old => fresh (.inr old)⟩
        · rintro ⟨rfl | member, fresh⟩
          · exact .inl rfl
          · by_cases same : combo = group
            · exact .inl same
            · exact .inr ⟨member, fun either => either.elim same fresh⟩

/-- `LegalCombos` yields the legal combinations and no others. -/
theorem mem_legalCombos :
    combo ∈ legalCombos allowedFreqs candidates ↔ IsLegal allowedFreqs candidates combo := by
  rw [legalCombos, mem_unseen, List.mem_flatMap, and_iff_left List.not_mem_nil]
  constructor
  · rintro ⟨group, member, found⟩
    obtain ⟨listed, allowed⟩ := List.mem_filter.mp found
    refine ⟨⟨group, member, ?_⟩, fun f inside => ?_⟩
    · simpa [eq_comm] using listed
    · exact of_decide_eq_true (List.all_eq_true.mp allowed f inside)
  · rintro ⟨⟨group, member, part⟩, allowed⟩
    refine ⟨group, member, List.mem_filter.mpr ⟨?_, ?_⟩⟩
    · simpa [eq_comm] using part
    · exact List.all_eq_true.mpr fun f inside => decide_eq_true (allowed f inside)

theorem mem_of_mem_pairs {group : Group} (member : combo ∈ pairs group) {f : Freq}
    (inside : f ∈ combo) : f ∈ group := by
  induction group using pairs.induct with
  | case1 => cases member
  | case2 first =>
      rw [pairs, List.mem_singleton] at member
      rwa [member] at inside
  | case3 first second rest ih =>
      rw [pairs, List.mem_cons] at member
      rcases member with rfl | later
      · simp only [List.mem_cons, List.not_mem_nil, or_false] at inside
        rcases inside with rfl | rfl <;> simp
      · exact List.mem_cons_of_mem _ (List.mem_cons_of_mem _ (ih later))

variable {now : ℚ} {state : Airspace} {i : ChannelActivity}

/-- The activities are those of the primaries of the legal combinations. -/
theorem listed_generator_iff :
    Listed now state (.generator (legalCombos allowedFreqs candidates)) i ↔
      ∃ combo, IsLegal allowedFreqs candidates combo ∧ ∃ f ∈ combo,
        activityOf now state combo f = i := by
  rw [Listed, Candidates.groups, channelActivityList, List.mem_flatMap]
  simp only [mem_legalCombos, List.mem_map]

theorem exists_listed_iff :
    (∃ i, Listed now state (.generator (legalCombos allowedFreqs candidates)) i) ↔
      SomeAllowed allowedFreqs candidates := by
  constructor
  · rintro ⟨i, listed⟩
    obtain ⟨combo, ⟨⟨group, member, part⟩, allowed⟩, f, inside, -⟩ := listed_generator_iff.mp listed
    refine ⟨group, member, f, ?_, allowed f inside⟩
    rcases part with rfl | pair | ⟨g, known, rfl⟩
    · exact inside
    · exact mem_of_mem_pairs pair inside
    · exact List.mem_singleton.mp inside ▸ known
  · rintro ⟨group, member, f, inside, allowed⟩
    refine ⟨activityOf now state [f] f, listed_generator_iff.mpr ⟨[f], ⟨⟨group, member, ?_⟩, ?_⟩,
      f, List.mem_singleton_self f, rfl⟩⟩
    · exact .inr (.inr ⟨f, inside, rfl⟩)
    · exact fun g same => List.mem_singleton.mp same ▸ allowed

theorem longest_of_key_le {atm : ℚ} {other : ChannelActivity}
    (below : activityKey atm i ≤ activityKey atm other) : other.group.length ≤ i.group.length := by
  have lengths : -(i.group.length : ℤ) ≤ -(other.group.length : ℤ) := by
    cases Prod.Lex.toLex_le_toLex.mp below with
    | inl less => exact less.le
    | inr same => exact same.1.le
  omega

/-- What the chosen activity promises about the legal combinations. -/
structure LegalChoice (now : ℚ) (state : Airspace) (allowedFreqs : List Freq)
    (candidates : List Group) (usePrimarySpreading useActiveTime : Bool)
    (choice : ChannelActivity) : Prop where
  legal : IsLegal allowedFreqs candidates choice.group
  primary : choice.primaryFreq ∈ choice.group
  longest : ∀ combo, IsLegal allowedFreqs candidates combo →
    combo.length ≤ choice.group.length
  least : usePrimarySpreading = true → ∀ combo, IsLegal allowedFreqs candidates combo →
    ∀ f ∈ combo, activityKey (activeTime useActiveTime) choice ≤
      activityKey (activeTime useActiveTime) (activityOf now state combo f)

variable {usePrimarySpreading useActiveTime : Bool} {best choice : ChannelActivity}

theorem legalChoice_of_best
    (least : Least (Listed now state (.generator (legalCombos allowedFreqs candidates)))
      (activityKey (activeTime useActiveTime)) best)
    (listed : Listed now state (.generator (legalCombos allowedFreqs candidates)) choice)
    (group : choice.group = best.group) (spread : usePrimarySpreading = true → choice = best) :
    LegalChoice now state allowedFreqs candidates usePrimarySpreading useActiveTime choice := by
  have below (combo : Group) (legal : IsLegal allowedFreqs candidates combo) (f : Freq)
      (inside : f ∈ combo) : activityKey (activeTime useActiveTime) best ≤
        activityKey (activeTime useActiveTime) (activityOf now state combo f) :=
    least.le _ (listed_generator_iff.mpr ⟨combo, legal, f, inside, rfl⟩)
  obtain ⟨combo, legal, f, inside, rfl⟩ := listed_generator_iff.mp listed
  refine ⟨legal, inside, fun other also => ?_, fun spreading other also g member => ?_⟩
  · cases other with
    | nil => exact Nat.zero_le _
    | cons g rest =>
        rw [group]
        exact longest_of_key_le (below _ also g List.mem_cons_self)
  · rw [spread spreading]
    exact below other also g member

/-- The errors and the choice that the composition should give. -/
structure ChoosesLegally (now : ℚ) (state : Airspace) (allowedFreqs : List Freq)
    (candidates : List Group) (usePrimarySpreading useActiveTime : Bool)
    (result : Except ChooseError ChannelActivity) : Prop where
  raises : result = .error .valueError ↔ ¬SomeAllowed allowedFreqs candidates
  returns : SomeAllowed allowedFreqs candidates → ∃ choice, result = .ok choice ∧
    LegalChoice now state allowedFreqs candidates usePrimarySpreading useActiveTime choice

/-- The composition keeps its promises exactly when a candidate has an allowed
frequency: the generator that it passes is never seen to be empty. -/
theorem chooses_legally_iff (now : ℚ) (state : Airspace) (allowedFreqs : List Freq)
    (candidates : List Group) (usePrimarySpreading useActiveTime : Bool)
    (hysteresisFreq : Option Freq) (draws : Draws) :
    ChoosesLegally now state allowedFreqs candidates usePrimarySpreading useActiveTime
        (chooseChannel now state allowedFreqs candidates usePrimarySpreading useActiveTime
          hysteresisFreq draws) ↔
      SomeAllowed allowedFreqs candidates := by
  constructor
  · intro chooses
    by_contra none
    have failed := chooses.raises.mpr none
    have nothing (i : ChannelActivity) :
        ¬Listed now state (.generator (legalCombos allowedFreqs candidates)) i :=
      fun listed => none (exists_listed_iff.mp ⟨i, listed⟩)
    rw [chooseChannel, choose_of_none nothing] at failed
    cases failed
  · intro some
    obtain ⟨i, listed⟩ := exists_listed_iff.mpr some
    suffices returned : ∃ choice, chooseChannel now state allowedFreqs candidates
        usePrimarySpreading useActiveTime hysteresisFreq draws = .ok choice ∧
          LegalChoice now state allowedFreqs candidates usePrimarySpreading useActiveTime choice by
      obtain ⟨choice, result, legal⟩ := returned
      refine ⟨iff_of_false ?_ (not_not.mpr some), fun _ => ⟨choice, result, legal⟩⟩
      rw [result]
      exact nofun
    cases usePrimarySpreading with
    | true =>
        obtain ⟨choice, result, preferred⟩ := spreading_outcome hysteresisFreq draws listed
        exact ⟨choice, result, legalChoice_of_best preferred.least preferred.least.member rfl
          fun _ => rfl⟩
    | false =>
        obtain ⟨best, rest, sorted⟩ := sortedActivities_of_listed hysteresisFreq draws listed
        obtain ⟨choice, result, preferred⟩ := popular_outcome rfl sorted
        obtain ⟨inside, group⟩ := preferred.least.member
        exact ⟨choice, result, legalChoice_of_best (head_tieBroken sorted).least inside group nofun⟩

/-- A device whose only allowed frequency is in no candidate. -/
theorem raises_index_error : ¬∀ (now : ℚ) (state : Airspace) (allowedFreqs : List Freq)
    (candidates : List Group) (usePrimarySpreading useActiveTime : Bool)
    (hysteresisFreq : Option Freq) (draws : Draws),
    ChoosesLegally now state allowedFreqs candidates usePrimarySpreading useActiveTime
      (chooseChannel now state allowedFreqs candidates usePrimarySpreading useActiveTime
        hysteresisFreq draws) := by
  intro alwaysLegal
  have failed := (alwaysLegal 0 ⟨[], []⟩ [5180] c24Main true true none (drawsFor 0)).raises
  have result : chooseChannel 0 ⟨[], []⟩ [5180] c24Main true true none (drawsFor 0) =
      .error .indexError := by rfl
  have absent : ¬SomeAllowed [5180] c24Main := by
    rw [SomeAllowed]
    decide
  rw [result] at failed
  cases failed.mpr absent

end Legality

end Gfiber.Waveguide
