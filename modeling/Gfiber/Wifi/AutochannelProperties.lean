import Gfiber.Wifi.Autochannel

/-! When the channel of a scan is chosen by its survey. -/

set_option autoImplicit false

namespace Gfiber.Wifi

open Lib

section Specification

/-- A line that has a name and then a value, whatever follows. -/
def Shows (name : List Text) (value : Text) (tokens : List Text) : Prop :=
  ∃ more, tokens = name ++ value :: more

def ShowsNumber (name : List Text) (tokens : List Text) : Prop :=
  ∃ value, Shows name value tokens ∧ (parseInt value).isSome

/-- The frequency, the noise, the active time and the receive time of one record, in this order,
with any other lines between them. -/
def CompleteRecord (dump frequency : Text) : Prop :=
  ∃ before start first noise second active third receive after,
    linesTokens dump = before ++ start :: (first ++ noise :: (second ++ active ::
      (third ++ receive :: after))) ∧
    Shows ["frequency:".toList] frequency start ∧
    ShowsNumber ["noise:".toList] noise ∧
    ShowsNumber ["channel".toList, "active".toList, "time:".toList] active ∧
    ShowsNumber ["channel".toList, "receive".toList, "time:".toList] receive ∧
    ∀ tokens ∈ first ++ second ++ third, ∀ other, ¬Shows ["frequency:".toList] other tokens

/-- The channels that are listed for a frequency, each without its brackets. -/
def listings (phy frequency : Text) : List Text :=
  (linesTokens phy).filterMap (channelOf frequency)

/-- A channel that is listed for the frequency, or none if no number is. -/
def ReturnsListed (phy frequency : Text) : Option Text → Prop
  | some channel => channel ∈ listings phy frequency ∧ channel ≠ []
  | none => ∀ channel ∈ listings phy frequency, channel = []

/-- With a complete record of a permitted frequency, such a frequency is chosen whatever the
generator is. The channel that is returned is listed for what is chosen. -/
structure UsesSurvey (band autotype width dump phy permitted : Text) : Prop where
  surveyed : (∃ frequency ∈ permitted.split, CompleteRecord dump frequency) →
    ∃ frequency ∈ permitted.split, CompleteRecord dump frequency ∧
      ∀ random, chooseFrequency random band autotype width dump = .ok (some frequency)
  returned : ∀ random, ∃ frequency channel,
    chooseFrequency random band autotype width dump = .ok (some frequency) ∧
      scan random band autotype width dump phy = .ok channel ∧ ReturnsListed phy frequency channel

def NoiseReadable (dump : Text) : Prop :=
  ∀ tokens ∈ linesTokens dump, ∀ noise, Shows ["noise:".toList] noise tokens →
    (parseInt noise).isSome

/-- The first line for the frequency has a channel, or no line for it has one. -/
def Listed (phy frequency : Text) : Prop :=
  ∃ channel others, listings phy frequency = channel :: others ∧
    (channel = [] → ∀ other ∈ others, other = [])

end Specification

section Permitted

theorem permittedModes_split : ∀ entry ∈ permittedModes,
    (joinModes entry.2).split.Nodup ∧ (joinModes entry.2).split ≠ [] := by
  -- As lists of characters the texts need no decoding when they are evaluated.
  unfold joinModes modes
  repeat rw [@String.toList_ofList]
  decide +kernel

variable {band autotype width permitted : Text}

theorem permitted_split (known : getPermittedFrequencies band autotype width = .ok permitted) :
    permitted.split.Nodup ∧ permitted.split ≠ [] := by
  rw [getPermittedFrequencies] at known
  split at known
  case h_1 entry names found =>
    cases known
    exact permittedModes_split _ (List.mem_of_find?_eq_some found)
  case h_2 => cases known

end Permitted

section Loop

variable {permitted band : Text}

/-- The comparison of a list with a tuple keeps all times from being read. -/
theorem readTimes_eq (survey : Survey) (tokens : List Text) :
    survey.readTimes permitted band tokens = .ok survey := by
  unfold Survey.readTimes
  split
  case h_1 first second third fourth more =>
    rw [if_neg (fun same => by cases same), if_neg (fun same => by cases same)]
  case h_2 => rfl

theorem readTokens_best {survey : Survey} {tokens : List Text}
    (readable : ∀ noise, Shows ["noise:".toList] noise tokens → (parseInt noise).isSome) :
    ∃ next, survey.readTokens permitted band tokens = .ok next ∧ next.best = survey.best := by
  match tokens with
  | [] => exact ⟨survey, rfl, rfl⟩
  | [first] => exact ⟨survey, rfl, rfl⟩
  | first :: second :: rest =>
      rw [Survey.readTokens]
      by_cases frequency : first = "frequency:".toList
      · rw [if_pos frequency]
        exact ⟨_, rfl, rfl⟩
      · rw [if_neg frequency]
        by_cases noise : first = "noise:".toList
        · obtain ⟨value, parsed⟩ := Option.isSome_iff_exists.mp
            (readable second ⟨rest, by rw [noise]; rfl⟩)
          rw [if_pos noise, int, parsed]
          exact ⟨_, rfl, rfl⟩
        · rw [if_neg noise, readTimes_eq]
          exact ⟨survey, rfl, rfl⟩

theorem readTokens_unreadable {survey : Survey} {tokens : List Text} {noise : Text}
    (shown : Shows ["noise:".toList] noise tokens) (unreadable : parseInt noise = none) :
    survey.readTokens permitted band tokens = .error (.notAnInteger noise) := by
  obtain ⟨more, rfl⟩ := shown
  have not_frequency : "noise:".toList ≠ "frequency:".toList := by decide
  rw [List.singleton_append, Survey.readTokens, if_neg not_frequency, if_pos rfl, int, unreadable]
  rfl

theorem readLines_best {lines : List (List Text)} (survey : Survey)
    (readable : ∀ tokens ∈ lines, ∀ noise, Shows ["noise:".toList] noise tokens →
      (parseInt noise).isSome) :
    ∃ next, lines.foldlM (Survey.readTokens permitted band) survey = .ok next ∧
      next.best = survey.best := by
  induction lines generalizing survey with
  | nil => exact ⟨survey, rfl, rfl⟩
  | cons tokens lines ih =>
      obtain ⟨next, read, kept⟩ := readTokens_best (readable tokens List.mem_cons_self)
      obtain ⟨last, others, same⟩ := ih next fun other member =>
        readable other (List.mem_cons_of_mem _ member)
      refine ⟨last, ?_, same.trans kept⟩
      rw [List.foldlM_cons, read]
      exact others

theorem readLines_unreadable {lines : List (List Text)} (survey : Survey) {tokens : List Text}
    (member : tokens ∈ lines) {noise : Text} (shown : Shows ["noise:".toList] noise tokens)
    (unreadable : parseInt noise = none) :
    ∃ error, lines.foldlM (Survey.readTokens permitted band) survey = .error error := by
  induction lines generalizing survey with
  | nil => cases member
  | cons first lines ih =>
      rw [List.foldlM_cons]
      cases read : survey.readTokens permitted band first with
      | error error => exact ⟨error, rfl⟩
      | ok next =>
          cases List.mem_cons.mp member with
          | inl here =>
              rw [← here, readTokens_unreadable shown unreadable] at read
              cases read
          | inr later => exact ih next later

end Loop

section Choice

variable {band autotype width dump phy permitted : Text}

/-- The frequency is always left to the generator. -/
theorem chooseFrequency_eq (known : getPermittedFrequencies band autotype width = .ok permitted)
    (readable : NoiseReadable dump) (random : Random) :
    chooseFrequency random band autotype width dump = .ok (some (random.choice permitted.split)) := by
  obtain ⟨survey, read, best⟩ := readLines_best Survey.start readable
  have some_permitted : permitted ≠ [] := by
    intro empty
    rw [empty] at known
    exact (permitted_split known).2 rfl
  have dumped : surveyDump permitted band dump = .ok survey := read
  have none_best : survey.best = none := best
  rw [chooseFrequency, known]
  change (surveyDump permitted band dump >>= _) = _
  rw [dumped]
  simp only [bind, Except.bind, none_best, if_neg some_permitted]
  rfl

theorem chooseFrequency_unreadable
    (known : getPermittedFrequencies band autotype width = .ok permitted)
    (unreadable : ¬NoiseReadable dump) (random : Random) :
    ∃ error, chooseFrequency random band autotype width dump = .error error := by
  simp only [NoiseReadable, not_forall] at unreadable
  obtain ⟨tokens, member, noise, shown, none_read⟩ := unreadable
  have no_number : parseInt noise = none := by simpa using none_read
  obtain ⟨error, failed⟩ := readLines_unreadable Survey.start member shown no_number
  have dumped : surveyDump permitted band dump = .error error := failed
  refine ⟨error, ?_⟩
  rw [chooseFrequency, known]
  change (surveyDump permitted band dump >>= _) = _
  rw [dumped]
  rfl

theorem scan_eq {frequency : Text} {random : Random}
    (chosen : chooseFrequency random band autotype width dump = .ok (some frequency)) :
    scan random band autotype width dump phy =
      match (listings phy frequency).head? with
      | none => .error .unboundLocal
      | some channel => .ok (if channel = [] then none else some channel) := by
  rw [scan, chosen, listings, List.head?_filterMap]
  change (match (linesTokens phy).findSome? (channelOf frequency) with
    | none => _ | some channel => _) = _
  cases (linesTokens phy).findSome? (channelOf frequency) with
  | none => rfl
  | some channel => rfl

/-- What is listed for a frequency is returned exactly if the first of it is as good as any. -/
theorem returned_iff {frequency : Text} {random : Random}
    (chosen : chooseFrequency random band autotype width dump = .ok (some frequency)) :
    (∃ channel, scan random band autotype width dump phy = .ok channel ∧
      ReturnsListed phy frequency channel) ↔ Listed phy frequency := by
  rw [scan_eq chosen, Listed]
  cases found : listings phy frequency with
  | nil =>
      constructor
      · intro returned
        obtain ⟨channel, failed, _⟩ := returned
        cases failed
      · intro listed
        obtain ⟨channel, others, same, _⟩ := listed
        cases same
  | cons first others =>
      dsimp only [List.head?]
      by_cases empty : first = []
      · rw [if_pos empty]
        constructor
        · intro returned
          obtain ⟨channel, same, none_listed⟩ := returned
          cases same
          refine ⟨first, others, rfl, fun _ other member => ?_⟩
          apply none_listed
          rw [found]
          exact List.mem_cons_of_mem _ member
        · intro listed
          obtain ⟨channel, rest, same, none_listed⟩ := listed
          cases same
          refine ⟨none, rfl, fun channel member => ?_⟩
          rw [found] at member
          cases List.mem_cons.mp member with
          | inl here => rw [here, empty]
          | inr later => exact none_listed empty channel later
      · rw [if_neg empty]
        constructor
        · intro _
          exact ⟨first, others, rfl, fun none => absurd none empty⟩
        · intro _
          refine ⟨some first, rfl, ?_, empty⟩
          rw [found]
          exact List.mem_cons_self

/-- A generator that chooses the frequency whenever it is there. -/
def Random.favour (frequency : Text) : Random where
  choice items := if frequency ∈ items then frequency else items.headD []
  chosen items some_item := by
    split
    case isTrue member => exact member
    case isFalse =>
      cases items with
      | nil => exact absurd rfl some_item
      | cons first others => exact List.mem_cons_self

theorem favour_choice {frequency : Text} {items : List Text} (member : frequency ∈ items) :
    (Random.favour frequency).choice items = frequency :=
  if_pos member

/-- The survey is used exactly if there is no choice to make by it, or nothing to make one by. All
numbers of the noise have to be readable, and all permitted frequencies listed. -/
theorem scan_uses_survey_iff
    (known : getPermittedFrequencies band autotype width = .ok permitted) :
    UsesSurvey band autotype width dump phy permitted ↔
      NoiseReadable dump ∧
      ((∃ frequency ∈ permitted.split, CompleteRecord dump frequency) →
        permitted.split.length = 1) ∧
      ∀ frequency ∈ permitted.split, Listed phy frequency := by
  obtain ⟨nodup, some_frequency⟩ := permitted_split known
  constructor
  · intro uses
    have readable : NoiseReadable dump := by
      by_contra unreadable
      obtain ⟨frequency, _, chosen, _⟩ := uses.returned (Random.favour [])
      obtain ⟨error, failed⟩ := chooseFrequency_unreadable known unreadable (Random.favour [])
      cases failed.symm.trans chosen
    have chosen := chooseFrequency_eq known readable
    refine ⟨readable, ?_, ?_⟩
    · intro complete
      obtain ⟨frequency, _, _, always⟩ := uses.surveyed complete
      have only (other : Text) (member : other ∈ permitted.split) : other = frequency := by
        have same := (chosen (Random.favour other)).symm.trans (always (Random.favour other))
        rw [favour_choice member] at same
        exact Option.some.inj (Except.ok.inj same)
      cases items : permitted.split with
      | nil => exact absurd items some_frequency
      | cons first others =>
          rw [items] at only nodup
          cases others with
          | nil => rfl
          | cons second others =>
              have same : first = second :=
                (only first (by simp)).trans (only second (by simp)).symm
              rw [same] at nodup
              simp at nodup
    · intro frequency member
      have favoured := chosen (Random.favour frequency)
      rw [favour_choice member] at favoured
      obtain ⟨other, channel, own, scanned, listed⟩ := uses.returned (Random.favour frequency)
      cases favoured.symm.trans own
      exact (returned_iff favoured).mp ⟨channel, scanned, listed⟩
  · intro condition
    obtain ⟨readable, single, listed⟩ := condition
    have chosen := chooseFrequency_eq known readable
    constructor
    · intro complete
      obtain ⟨only, items⟩ := List.length_eq_one_iff.mp (single complete)
      obtain ⟨frequency, member, record⟩ := complete
      refine ⟨frequency, member, record, fun random => ?_⟩
      have own := random.chosen permitted.split some_frequency
      rw [items] at own member
      rw [chosen random, items, List.mem_singleton.mp own, List.mem_singleton.mp member]
    · intro random
      have member := random.chosen permitted.split some_frequency
      obtain ⟨channel, scanned, returns⟩ := (returned_iff (chosen random)).mpr (listed _ member)
      exact ⟨_, channel, chosen random, scanned, returns⟩

/-- Whether a line has no noise or one that can be read. -/
def readableTokens : List Text → Bool
  | first :: second :: _ => first ≠ "noise:".toList || (parseInt second).isSome
  | _ => true

theorem noiseReadable_of {dump : Text} (all : (linesTokens dump).all readableTokens) :
    NoiseReadable dump := by
  intro tokens member noise shown
  obtain ⟨more, rfl⟩ := shown
  have readable := List.all_eq_true.mp all _ member
  simpa [readableTokens] using readable

/-- One channel that has been surveyed. -/
def exampleDump (frequency : String) : Text :=
  "Survey data from wlan0\n\tfrequency:\t\t\t".toList ++ frequency.toList ++
    " MHz [in use]\n\tnoise:\t\t\t\t-95 dBm\n\tchannel active time:\t\t100 ms\n".toList ++
    "\tchannel receive time:\t\t5 ms\n".toList

def examplePhy : Text :=
  "Wiphy phy0\n\t\t\t* 2412 MHz [1] (20.0 dBm)\n\t\t\t* 2432 MHz [5] (20.0 dBm)\n".toList ++
    "\t\t\t* 2462 MHz [11] (20.0 dBm)\n\t\t\t* 5180 MHz [36] (20.0 dBm)\n".toList

theorem scan_uses_survey_single :
    UsesSurvey "5".toList "LOW".toList "80".toList (exampleDump "5180") examplePhy "5180".toList := by
  have known : getPermittedFrequencies "5".toList "LOW".toList "80".toList = .ok "5180".toList := by
    unfold getPermittedFrequencies joinModes modes
    simp only [String.toList_inj]
    repeat rw [@String.toList_ofList]
    decide +kernel
  have readable : (linesTokens (exampleDump "5180")).all readableTokens := by
    unfold exampleDump
    repeat rw [@String.toList_ofList]
    decide +kernel
  refine (scan_uses_survey_iff known).mpr ⟨noiseReadable_of readable, ?_, ?_⟩
  · intro _
    decide +kernel
  · intro frequency member
    have only : Text.split "5180".toList = ["5180".toList] := by decide +kernel
    rw [only] at member
    cases List.mem_singleton.mp member
    have listed : listings examplePhy "5180".toList = ["36".toList] := by
      unfold examplePhy
      repeat rw [@String.toList_ofList]
      decide +kernel
    exact ⟨_, [], listed, fun _ other later => by cases later⟩

/-- With three permitted frequencies the one that has been surveyed is not preferred. -/
theorem survey_not_used :
    (∃ frequency ∈ Text.split "2412 2432 2462".toList, CompleteRecord (exampleDump "2412") frequency) ∧
      ¬UsesSurvey "2.4".toList "HIGH".toList "20".toList (exampleDump "2412") examplePhy
        "2412 2432 2462".toList := by
  have known : getPermittedFrequencies "2.4".toList "HIGH".toList "20".toList =
      .ok "2412 2432 2462".toList := by
    unfold getPermittedFrequencies joinModes modes
    simp only [String.toList_inj]
    repeat rw [@String.toList_ofList]
    decide +kernel
  have complete : ∃ frequency ∈ Text.split "2412 2432 2462".toList,
      CompleteRecord (exampleDump "2412") frequency := by
    have lines : linesTokens (exampleDump "2412") =
        [["Survey".toList, "data".toList, "from".toList, "wlan0".toList]] ++
          ["frequency:".toList, "2412".toList, "MHz".toList, "[in".toList, "use]".toList] ::
          ([] ++ ["noise:".toList, "-95".toList, "dBm".toList] ::
          ([] ++ ["channel".toList, "active".toList, "time:".toList, "100".toList, "ms".toList] ::
          ([] ++ ["channel".toList, "receive".toList, "time:".toList, "5".toList, "ms".toList] ::
            [[]]))) := by
      unfold exampleDump
      repeat rw [@String.toList_ofList]
      decide +kernel
    refine ⟨"2412".toList, by decide +kernel, _, _, _, _, _, _, _, _, _, lines, ⟨_, rfl⟩,
      ⟨_, ⟨_, rfl⟩, by decide +kernel⟩, ⟨_, ⟨_, rfl⟩, by decide +kernel⟩,
      ⟨_, ⟨_, rfl⟩, by decide +kernel⟩, ?_⟩
    intro tokens member
    cases member
  refine ⟨complete, fun uses => ?_⟩
  obtain ⟨frequency, _, _, always⟩ := uses.surveyed complete
  have readable : NoiseReadable (exampleDump "2412") := by
    apply noiseReadable_of
    unfold exampleDump
    repeat rw [@String.toList_ofList]
    decide +kernel
  have chosen := chooseFrequency_eq known readable
  have first := (chosen (Random.favour "2412".toList)).symm.trans (always _)
  have second := (chosen (Random.favour "2432".toList)).symm.trans (always _)
  rw [favour_choice (by decide +kernel)] at first second
  have same := Except.ok.inj (first.trans second.symm)
  exact absurd (Option.some.inj same) (by decide +kernel)

end Choice

end Gfiber.Wifi
