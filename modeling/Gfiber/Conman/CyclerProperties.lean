import Mathlib.Tactic.Linarith
import Gfiber.Lib.Run
import Gfiber.Conman.Cycler

/-! How long an open network waits between two attempts. -/

set_option autoImplicit false

namespace Gfiber.Conman

open Lib

section Updating

variable {Item : Type} [BEq Item]

theorem mem_assign {entries : List (Aged Item)} {item : Item} {priority birth : Rat}
    {entry : Aged Item} (member : entry ∈ assign entries item priority birth) :
    entry ∈ entries ∨ (entry.item = item ∨ (entry.item == item) = true) ∧ entry.birth = birth := by
  unfold assign at member
  split at member
  · obtain ⟨old, there, rfl⟩ := List.mem_map.mp member
    by_cases same : (old.item == item) = true
    · simp [same]
    · simpa [same] using .inl there
  · rcases List.mem_append.mp member with there | new
    · exact .inl there
    · obtain rfl := List.mem_singleton.mp new
      exact .inr ⟨.inl rfl, rfl⟩

theorem exists_assign [EquivBEq Item] (entries : List (Aged Item)) (item : Item)
    (priority birth : Rat) : ∃ entry ∈ assign entries item priority birth, entry.item == item := by
  unfold assign
  split
  case isTrue present =>
    obtain ⟨old, there, same⟩ := List.any_eq_true.mp present
    refine ⟨_, List.mem_map.mpr ⟨old, there, rfl⟩, ?_⟩
    simp [same]
  case isFalse => exact ⟨⟨item, priority, birth⟩, by simp, BEq.rfl⟩

/-- What is in the dictionary stays in it. -/
theorem assign_keeps {entries : List (Aged Item)} (item : Item) (priority birth : Rat)
    {entry : Aged Item} (member : entry ∈ entries) :
    ∃ kept ∈ assign entries item priority birth, kept.item = entry.item := by
  unfold assign
  split
  · refine ⟨_, List.mem_map.mpr ⟨entry, member, rfl⟩, ?_⟩
    split <;> rfl
  · exact ⟨entry, List.mem_append_left _ member, rfl⟩

variable [EquivBEq Item]

/-- Items that are written one after the other, each with a birth that depends
only on the item. -/
theorem foldl_assign_sound {birth : Item → Rat}
    (congr : ∀ left right, (left == right) = true → birth left = birth right)
    {items : List (Item × Rat)} {entries : List (Aged Item)}
    (aged : ∀ entry ∈ entries, entry.birth = birth entry.item) {entry : Aged Item}
    (member : entry ∈ items.foldl (fun newItems (item, priority) =>
      assign newItems item priority (birth item)) entries) :
    (entry ∈ entries ∨ ∃ given ∈ items, entry.item == given.1) ∧
      entry.birth = birth entry.item := by
  induction items generalizing entries with
  | nil => exact ⟨.inl member, aged entry member⟩
  | cons given items ih =>
      obtain ⟨item, priority⟩ := given
      have next_aged : ∀ entry ∈ assign entries item priority (birth item),
          entry.birth = birth entry.item := by
        intro entry there
        rcases mem_assign there with old | ⟨rfl | same, made⟩
        · exact aged entry old
        · exact made
        · exact made.trans (congr _ _ same).symm
      obtain ⟨origin, age⟩ := ih next_aged member
      refine ⟨?_, age⟩
      rcases origin with there | ⟨later, among, same⟩
      · rcases mem_assign there with old | ⟨rfl | same, -⟩
        · exact .inl old
        · exact .inr ⟨_, List.mem_cons_self, BEq.rfl⟩
        · exact .inr ⟨_, List.mem_cons_self, same⟩
      · exact .inr ⟨later, List.mem_cons_of_mem _ among, same⟩

omit [EquivBEq Item] in
theorem foldl_assign_keeps {birth : Item → Rat} (items : List (Item × Rat))
    {entries : List (Aged Item)} {entry : Aged Item} (member : entry ∈ entries) :
    ∃ kept ∈ items.foldl (fun newItems (item, priority) =>
      assign newItems item priority (birth item)) entries, kept.item = entry.item := by
  induction items generalizing entries entry with
  | nil => exact ⟨entry, member, rfl⟩
  | cons given items ih =>
      obtain ⟨written, there, equal⟩ := assign_keeps given.1 given.2 (birth given.1) member
      obtain ⟨kept, stays, again⟩ := ih there
      exact ⟨kept, stays, again.trans equal⟩

theorem foldl_assign_complete {birth : Item → Rat} {items : List (Item × Rat)}
    (entries : List (Aged Item)) {given : Item × Rat} (member : given ∈ items) :
    ∃ entry ∈ items.foldl (fun newItems (item, priority) =>
      assign newItems item priority (birth item)) entries, entry.item == given.1 := by
  induction items generalizing entries with
  | nil => cases member
  | cons first items ih =>
      rcases List.mem_cons.mp member with rfl | later
      · obtain ⟨written, there, same⟩ := exists_assign entries given.1 given.2 (birth given.1)
        obtain ⟨kept, stays, equal⟩ := foldl_assign_keeps items there
        exact ⟨kept, stays, equal ▸ same⟩
      · exact ih _ later

variable (cycler : AgingPriorityCycler Item) (now : Rat)

theorem birthOf_congr (left right : Item) (same : (left == right) = true) :
    cycler.birthOf now left = cycler.birthOf now right := by
  have test : (fun entry : Aged Item => entry.item == left) = fun entry => entry.item == right := by
    funext entry
    exact BEq.congr_right same
  unfold AgingPriorityCycler.birthOf
  rw [test]

/-- After an update there are just the given items. -/
theorem mem_update {items : List (Item × Rat)} {entry : Aged Item}
    (member : entry ∈ (cycler.update now items).items) :
    (∃ given ∈ items, entry.item == given.1) ∧ entry.birth = cycler.birthOf now entry.item := by
  obtain ⟨origin, age⟩ := foldl_assign_sound (birthOf_congr cycler now) (by simp) member
  exact ⟨origin.resolve_left (by simp), age⟩

theorem exists_update {items : List (Item × Rat)} {given : Item × Rat} (member : given ∈ items) :
    ∃ entry ∈ (cycler.update now items).items, entry.item == given.1 :=
  foldl_assign_complete [] member

end Updating

section Next

variable {Item : Type} [BEq Item]

/-- The item of the highest priority is returned, unless it is too young. -/
theorem findNext_cases (cycler : AgingPriorityCycler Item) (cycle : Bool) (now : Rat)
    (order : IterationOrder (Aged Item)) :
    (cycler.items = [] ∧ cycler.findNext cycle now order = (none, cycler)) ∨
    ∃ entry ∈ cycler.items,
      (∀ other ∈ cycler.items,
          agedPriority cycler.rounded now other ≤ agedPriority cycler.rounded now entry) ∧
        ((now < entry.birth ∧ cycler.findNext cycle now order = (none, cycler)) ∨
          (entry.birth ≤ now ∧ cycler.findNext cycle now order = (some entry.item,
            if cycle then
              { cycler with
                items := cycler.items.map fun other =>
                  if other.item == entry.item then
                    { other with birth := cycler.rounded (now + cycler.minTimeInQueue) }
                  else other }
            else cycler))) := by
  rw [AgingPriorityCycler.findNext]
  cases found : (order.arrange cycler.items).argmax (agedPriority cycler.rounded now) with
  | none =>
      have empty := List.argmax_eq_none.mp found
      have length := (order.perm cycler.items).length_eq
      rw [empty, List.length_nil] at length
      exact .inl ⟨List.length_eq_zero_iff.mp length.symm, rfl⟩
  | some entry =>
      refine .inr ⟨entry, (IterationOrder.mem_arrange order).mp (List.argmax_mem found),
        fun other member => ?_, ?_⟩
      · exact List.le_of_mem_argmax ((IterationOrder.mem_arrange order).mpr member) found
      · by_cases early : now < entry.birth
        · exact .inl ⟨early, if_pos early⟩
        · refine .inr ⟨le_of_not_gt early, ?_⟩
          dsimp only
          rw [if_neg early]
          cases cycle <;> rfl

end Next

section Finding

theorem BssInfo.beq_iff {left right : BssInfo} :
    (left == right) = true ↔ left.attrs = right.attrs :=
  decide_eq_true_iff

instance : EquivBEq BssInfo where
  rfl := BssInfo.beq_iff.mpr rfl
  symm same := BssInfo.beq_iff.mpr (BssInfo.beq_iff.mp same).symm
  trans first second := BssInfo.beq_iff.mpr
    ((BssInfo.beq_iff.mp first).trans (BssInfo.beq_iff.mp second))

theorem BssInfo.bssid_eq {left right : BssInfo} (same : (left == right) = true) :
    left.bssid = right.bssid :=
  congrArg Prod.fst (BssInfo.beq_iff.mp same)

@[simp] theorem BssInfo.bssid_named (info : BssInfo) : info.named.bssid = info.bssid := rfl

/-- The networks of a scan that can be joined without a key. -/
def openNetworks (parsed : List BssInfo) : List BssInfo :=
  parsed.filter fun info => info.security.isEmpty

theorem collectBssids_eq (parsed : List BssInfo) : collectBssids false parsed =
    ((openNetworks parsed).map BssInfo.named).foldl addBssid [] := by
  rw [collectBssids, openNetworks, List.foldl_map, List.foldl_filter]
  congr
  funext bssids info
  cases info.security <;> simp

theorem mem_addBssid {bssids : List BssInfo} {info found : BssInfo}
    (member : found ∈ addBssid bssids info) : found ∈ bssids ∨ found = info := by
  unfold addBssid at member
  split at member
  · exact .inl member
  · simpa using member

theorem addBssid_keeps {bssids : List BssInfo} (info : BssInfo) {found : BssInfo}
    (member : found ∈ bssids) : found ∈ addBssid bssids info := by
  unfold addBssid
  split
  · exact member
  · exact List.mem_append_left _ member

theorem exists_addBssid (bssids : List BssInfo) (info : BssInfo) :
    ∃ found ∈ addBssid bssids info, found == info := by
  unfold addBssid
  split
  case isTrue present =>
    obtain ⟨found, there, same⟩ := List.contains_iff_exists_mem_beq.mp present
    exact ⟨found, there, BEq.symm same⟩
  case isFalse => exact ⟨info, by simp, BEq.rfl⟩

theorem foldl_addBssid_sound {infos bssids : List BssInfo} {found : BssInfo}
    (member : found ∈ infos.foldl addBssid bssids) : found ∈ bssids ∨ found ∈ infos := by
  induction infos generalizing bssids with
  | nil => exact .inl member
  | cons first infos ih =>
      rcases ih member with there | later
      · rcases mem_addBssid there with old | rfl
        · exact .inl old
        · exact .inr List.mem_cons_self
      · exact .inr (List.mem_cons_of_mem _ later)

theorem foldl_addBssid_keeps (infos : List BssInfo) {bssids : List BssInfo} {found : BssInfo}
    (member : found ∈ bssids) : found ∈ infos.foldl addBssid bssids := by
  induction infos generalizing bssids with
  | nil => exact member
  | cons first infos ih => exact ih (addBssid_keeps first member)

theorem foldl_addBssid_complete {infos : List BssInfo} (bssids : List BssInfo) {info : BssInfo}
    (member : info ∈ infos) : ∃ found ∈ infos.foldl addBssid bssids, found == info := by
  induction infos generalizing bssids with
  | nil => cases member
  | cons first infos ih =>
      rcases List.mem_cons.mp member with rfl | later
      · obtain ⟨found, there, same⟩ := exists_addBssid bssids info
        exact ⟨found, foldl_addBssid_keeps infos there, same⟩
      · exact ih _ later

variable (order : IterationOrder BssInfo) (shuffle : IterationOrder (BssInfo × Rat))

theorem mem_findBssids {parsed : List BssInfo} {given : BssInfo × Rat}
    (member : given ∈ shuffle.arrange (findBssids false order parsed)) :
    ∃ listed ∈ openNetworks parsed, listed.named = given.1 := by
  rw [IterationOrder.mem_arrange, findBssids] at member
  obtain ⟨info, found, rfl⟩ := List.mem_map.mp member
  rw [IterationOrder.mem_arrange, collectBssids_eq] at found
  have listed := (foldl_addBssid_sound found).resolve_left (by simp)
  exact List.mem_map.mp listed

theorem exists_findBssids {parsed : List BssInfo} {listed : BssInfo}
    (member : listed ∈ openNetworks parsed) :
    ∃ given ∈ shuffle.arrange (findBssids false order parsed), given.1 == listed.named := by
  obtain ⟨info, found, same⟩ :=
    foldl_addBssid_complete [] (List.mem_map_of_mem (f := BssInfo.named) member)
  rw [← collectBssids_eq] at found
  refine ⟨(info, bssidPriority info), ?_, same⟩
  rw [IterationOrder.mem_arrange, findBssids]
  exact List.mem_map_of_mem ((IterationOrder.mem_arrange order).mpr found)

end Finding

section Runs

/-- A scan or an attempt, with the time at which the queue is used. -/
inductive WifiEvent where
  | scan (time : Rat) (parsed : List BssInfo) (order : IterationOrder BssInfo)
      (shuffle : IterationOrder (BssInfo × Rat))
  | tryNext (time : Rat) (connects : BssInfo → Bool) (order : IterationOrder (Aged BssInfo))

def WifiEvent.time : WifiEvent → Rat
  | scan time .. => time
  | tryNext time .. => time

structure Cycling where
  now : Rat
  wifi : Wifi

namespace Cycling

def start (time : Rat) : Cycling := ⟨time, .start⟩

def next (cycleLength : Rat) (state : Cycling) : WifiEvent → Cycling
  | .scan time parsed order shuffle =>
      ⟨time, wifiScan cycleLength time parsed order shuffle state.wifi⟩
  | .tryNext time connects order => ⟨time, (tryNextBssid time connects order state.wifi).2⟩

/-- The clock does not go back. -/
def Step (cycleLength : Rat) (state : Cycling) (event : WifiEvent) (after : Cycling) : Prop :=
  state.now ≤ event.time ∧ after = state.next cycleLength event

def items (state : Cycling) : List (Aged BssInfo) :=
  match state.wifi.cycler with
  | none => []
  | some cycler => cycler.items

/-- The network that is tried. -/
def attempt (state : Cycling) : WifiEvent → Option BssInfo
  | .scan .. => none
  | .tryNext time _ order => (nextBssInfo time order state.wifi).1

end Cycling

def Lists (parsed : List BssInfo) (bssid : Text) : Prop :=
  ∃ info ∈ parsed, info.bssid = bssid

/-- The BSSID is in what is scanned, if something is. -/
def WifiEvent.Shows (bssid : Text) : WifiEvent → Prop
  | .scan _ parsed _ _ => Lists parsed bssid
  | .tryNext .. => True

/-- Two attempts at a BSSID that every scan between them has shown are at least
a cycle apart. -/
def AttemptsSpaced (cycleLength : Rat) (trace : List (Cycling × WifiEvent)) : Prop :=
  ∀ before first between second after earlier later,
    trace = before ++ first :: (between ++ second :: after) →
    Cycling.attempt first.1 first.2 = some earlier →
    Cycling.attempt second.1 second.2 = some later →
    later.bssid = earlier.bssid →
    (∀ entry ∈ between, entry.2.Shows earlier.bssid) →
    first.2.time + cycleLength ≤ second.2.time

/-- A BSSID that a scan shows again is still in the queue, as old as before. -/
def KeepsAge (cycleLength : Rat) (state : Cycling) : WifiEvent → Prop
  | .scan time parsed order shuffle =>
      ∀ entry ∈ state.items, Lists parsed entry.item.bssid →
        let after := state.next cycleLength (.scan time parsed order shuffle)
        (∃ kept ∈ after.items, kept.item.bssid = entry.item.bssid) ∧
        ∀ kept ∈ after.items, kept.item.bssid = entry.item.bssid → kept.birth = entry.birth
  | .tryNext .. => True

/-- The open networks of a scan with one BSSID are one item, and where the BSSID
is in the queue and is shown, they are the item that is there. -/
def ListsSameItems (state : Cycling) : WifiEvent → Prop
  | .scan _ parsed _ _ =>
      (∀ left ∈ openNetworks parsed, ∀ right ∈ openNetworks parsed, left.bssid = right.bssid →
        left.named == right.named) ∧
      ∀ entry ∈ state.items, Lists parsed entry.item.bssid →
        ∃ info ∈ openNetworks parsed, info.named == entry.item
  | .tryNext .. => True

/-- The entries of one BSSID are one item. -/
def OneEach (entries : List (Aged BssInfo)) : Prop :=
  ∀ left ∈ entries, ∀ right ∈ entries, left.item.bssid = right.item.bssid →
    left.item == right.item ∧ left.birth = right.birth

/-- The BSSID is in the queue, and not to be tried before `time`. -/
structure Waits (bssid : Text) (time : Rat) (entries : List (Aged BssInfo)) : Prop where
  present : ∃ entry ∈ entries, entry.item.bssid = bssid
  late : ∀ entry ∈ entries, entry.item.bssid = bssid → time ≤ entry.birth

structure Invariant (cycleLength : Rat) (state : Cycling) : Prop where
  unset : state.wifi.lastSuccessfulBssInfo = none
  length : ∀ cycler, state.wifi.cycler = some cycler →
    cycler.minTimeInQueue = cycleLength ∧ cycler.rounded = id
  one : OneEach state.items

theorem invariant_start (cycleLength time : Rat) : Invariant cycleLength (.start time) := by
  constructor
  · rfl
  · intro cycler there
    cases there
  · intro left member
    cases member

section Scan

variable {cycleLength time : Rat} {state : Cycling} {parsed : List BssInfo}
  {order : IterationOrder BssInfo} {shuffle : IterationOrder (BssInfo × Rat)}

theorem scan_items : ((state.next cycleLength (.scan time parsed order shuffle)).items) =
    (AgingPriorityCycler.update ⟨cycleLength, id, state.items⟩ time
      (shuffle.arrange (findBssids false order parsed))).items := by
  unfold Cycling.items Cycling.next wifiScan
  cases state.wifi.cycler with
  | none => rfl
  | some cycler => rfl

/-- An entry after a scan is an open network of it. -/
theorem mem_scan_items {entry : Aged BssInfo}
    (member : entry ∈ (state.next cycleLength (.scan time parsed order shuffle)).items) :
    (∃ listed ∈ openNetworks parsed, entry.item == listed.named) ∧
      entry.birth = AgingPriorityCycler.birthOf ⟨cycleLength, id, state.items⟩ time entry.item := by
  rw [scan_items] at member
  obtain ⟨⟨given, found, same⟩, birth⟩ := mem_update _ _ member
  obtain ⟨listed, open_there, named⟩ := mem_findBssids order shuffle found
  exact ⟨⟨listed, open_there, named ▸ same⟩, birth⟩

theorem exists_scan_items {listed : BssInfo} (member : listed ∈ openNetworks parsed) :
    ∃ entry ∈ (state.next cycleLength (.scan time parsed order shuffle)).items,
      entry.item == listed.named := by
  obtain ⟨given, found, same⟩ := exists_findBssids order shuffle member
  obtain ⟨entry, there, equal⟩ := exists_update ⟨cycleLength, id, state.items⟩ time found
  rw [← scan_items] at there
  exact ⟨entry, there, BEq.trans equal same⟩

variable (same_items : ListsSameItems state (.scan time parsed order shuffle))

include same_items

theorem scan_one : OneEach (state.next cycleLength (.scan time parsed order shuffle)).items := by
  intro left left_there right right_there bssids
  obtain ⟨⟨first, first_open, first_same⟩, left_birth⟩ := mem_scan_items left_there
  obtain ⟨⟨second, second_open, second_same⟩, right_birth⟩ := mem_scan_items right_there
  have listed : first.bssid = second.bssid := by
    rw [← first.bssid_named, ← second.bssid_named, ← BssInfo.bssid_eq first_same,
      ← BssInfo.bssid_eq second_same, bssids]
  have equal : left.item == right.item :=
    BEq.trans first_same (BEq.trans (same_items.1 _ first_open _ second_open listed)
      (BEq.symm second_same))
  exact ⟨equal, by rw [left_birth, right_birth, birthOf_congr _ _ _ _ equal]⟩

theorem scan_keepsAge (one : OneEach state.items) :
    KeepsAge cycleLength state (.scan time parsed order shuffle) := by
  intro entry there shown
  obtain ⟨info, open_there, named⟩ := same_items.2 entry there shown
  constructor
  · obtain ⟨kept, stays, same⟩ := exists_scan_items open_there
    exact ⟨kept, stays, (BssInfo.bssid_eq same).trans (BssInfo.bssid_eq named)⟩
  · intro kept stays bssids
    obtain ⟨⟨listed, listed_open, same⟩, birth⟩ := mem_scan_items stays
    have both : listed.bssid = info.bssid := by
      rw [← listed.bssid_named, ← info.bssid_named, ← BssInfo.bssid_eq same,
        BssInfo.bssid_eq named, bssids]
    have equal : (entry.item == kept.item) = true :=
      BEq.symm (BEq.trans same (BEq.trans (same_items.1 _ listed_open _ open_there both) named))
    -- The entry itself is found, or another one of its BSSID.
    rw [birth, AgingPriorityCycler.birthOf]
    cases found : state.items.find? fun old => old.item == kept.item with
    | none => exact absurd equal (by simpa using List.find?_eq_none.mp found entry there)
    | some old =>
        have matches_kept := List.find?_some found
        exact (one old (List.mem_of_find?_eq_some found) entry there
          ((BssInfo.bssid_eq matches_kept).trans bssids)).2

end Scan

section Attempt

variable {cycleLength : Rat} {state : Cycling} (time : Rat) (connects : BssInfo → Bool)
  (order : IterationOrder (Aged BssInfo))

/-- Nothing is tried, or an item that has waited long enough, which then waits
for a cycle. -/
inductive TryOutcome (cycleLength time : Rat) (state after : Cycling) (info : Option BssInfo) :
    Prop where
  | nothing (idle : info = none) (same : after.items = state.items)
  | tried (entry : Aged BssInfo) (there : entry ∈ state.items) (ready : entry.birth ≤ time)
      (taken : info = some entry.item)
      (moved : after.items = state.items.map fun old =>
        if old.item == entry.item then { old with birth := time + cycleLength } else old)

theorem tryNextBssid_cycler (wifi : Wifi) : (tryNextBssid time connects order wifi).2.cycler =
    (nextBssInfo time order wifi).2.cycler := by
  unfold tryNextBssid
  split
  case h_1 nothing => rw [nothing]
  case h_2 tried =>
    rw [tried]
    dsimp only
    split
    · rfl
    · split <;> rfl

theorem tryNextBssid_unset {wifi : Wifi} (unset : wifi.lastSuccessfulBssInfo = none) :
    (tryNextBssid time connects order wifi).2.lastSuccessfulBssInfo = none := by
  have kept : (nextBssInfo time order wifi).2.lastSuccessfulBssInfo = none := by
    unfold nextBssInfo
    split
    · exact unset
    · rw [unset]
  unfold tryNextBssid
  split
  case h_1 nothing =>
    rw [nothing] at kept
    exact kept
  case h_2 tried =>
    rw [tried] at kept
    dsimp only
    split
    · exact kept
    · split
      · rfl
      · exact kept

theorem next_cases (cycler : AgingPriorityCycler BssInfo) :
    cycler.next time order = (none, cycler) ∨ ∃ entry ∈ cycler.items, entry.birth ≤ time ∧
      cycler.next time order = (some entry.item,
        { cycler with
          items := cycler.items.map fun old =>
            if old.item == entry.item then
              { old with birth := cycler.rounded (time + cycler.minTimeInQueue) }
            else old }) := by
  cases findNext_cases cycler true time order with
  | inl nothing => exact .inl nothing.2
  | inr found =>
      obtain ⟨entry, there, _, outcome⟩ := found
      cases outcome with
      | inl early => exact .inl early.2
      | inr ready => exact .inr ⟨entry, there, ready.1, ready.2⟩

theorem nextBssInfo_eq {wifi : Wifi} (unset : wifi.lastSuccessfulBssInfo = none)
    {cycler : AgingPriorityCycler BssInfo} (there : wifi.cycler = some cycler) :
    nextBssInfo time order wifi =
      ((cycler.next time order).1, { wifi with cycler := some (cycler.next time order).2 }) := by
  unfold nextBssInfo
  rw [there, unset]

theorem Invariant.try_outcome (invariant : Invariant cycleLength state) :
    TryOutcome cycleLength time state (state.next cycleLength (.tryNext time connects order))
      (state.attempt (.tryNext time connects order)) := by
  have after : (state.next cycleLength (.tryNext time connects order)).wifi.cycler =
      (nextBssInfo time order state.wifi).2.cycler := tryNextBssid_cycler time connects order _
  rw [Cycling.attempt]
  cases there : state.wifi.cycler with
  | none =>
      have idle : nextBssInfo time order state.wifi = (none, state.wifi) := by
        rw [nextBssInfo, there]
      rw [idle] at after ⊢
      refine .nothing rfl ?_
      rw [Cycling.items, after, Cycling.items]
  | some cycler =>
      have before : state.items = cycler.items := by rw [Cycling.items, there]
      rw [nextBssInfo_eq time order invariant.unset there] at after ⊢
      rcases next_cases time order cycler with idle | ⟨entry, member, ready, tried⟩
      · rw [idle] at after ⊢
        refine .nothing rfl ?_
        rw [before, Cycling.items, after]
      · rw [tried] at after ⊢
        refine .tried entry (before ▸ member) ready rfl ?_
        obtain ⟨length, exact⟩ := invariant.length cycler there
        rw [before, Cycling.items, after, length, exact]
        rfl

theorem Invariant.try_one (invariant : Invariant cycleLength state) :
    OneEach (state.next cycleLength (.tryNext time connects order)).items := by
  cases invariant.try_outcome time connects order with
  | nothing idle same => exact same ▸ invariant.one
  | tried entry there ready taken moved =>
      rw [moved]
      intro left left_there right right_there bssids
      obtain ⟨first, first_there, rfl⟩ := List.mem_map.mp left_there
      obtain ⟨second, second_there, rfl⟩ := List.mem_map.mp right_there
      have one := invariant.one first first_there second second_there (by
        split at bssids <;> split at bssids <;> exact bssids)
      have test : (first.item == entry.item) = (second.item == entry.item) :=
        BEq.congr_left one.1
      rw [test]
      split
      · exact ⟨one.1, rfl⟩
      · exact one

theorem Invariant.try_length (invariant : Invariant cycleLength state)
    (cycler : AgingPriorityCycler BssInfo)
    (there : (state.next cycleLength (.tryNext time connects order)).wifi.cycler = some cycler) :
    cycler.minTimeInQueue = cycleLength ∧ cycler.rounded = id := by
  change (tryNextBssid time connects order state.wifi).2.cycler = some cycler at there
  rw [tryNextBssid_cycler] at there
  cases old : state.wifi.cycler with
  | none =>
      rw [nextBssInfo, old] at there
      exact invariant.length cycler there
  | some before =>
      have length := invariant.length before old
      rw [nextBssInfo_eq time order invariant.unset old] at there
      have same := Option.some.inj there
      rcases next_cases time order before with idle | ⟨entry, -, -, tried⟩
      · rw [idle] at same
        exact same ▸ length
      · rw [tried] at same
        exact same ▸ length

/-- What waits goes on waiting, whatever is tried. -/
theorem Invariant.try_waits (invariant : Invariant cycleLength state) {bssid : Text} {late : Rat}
    (waits : Waits bssid late state.items) (in_time : late ≤ time + cycleLength) :
    Waits bssid late (state.next cycleLength (.tryNext time connects order)).items := by
  cases invariant.try_outcome time connects order with
  | nothing idle same => exact same ▸ waits
  | tried entry there ready taken moved =>
      rw [moved]
      constructor
      · obtain ⟨old, old_there, named⟩ := waits.present
        refine ⟨_, List.mem_map.mpr ⟨old, old_there, rfl⟩, ?_⟩
        split <;> exact named
      · intro kept kept_there named
        obtain ⟨old, old_there, rfl⟩ := List.mem_map.mp kept_there
        split
        · exact in_time
        case isFalse other =>
          rw [if_neg other] at named
          exact waits.late old old_there named

/-- What is tried was in the queue and ready, and goes to the end of a cycle. -/
theorem Invariant.attempt_entry (invariant : Invariant cycleLength state) {info : BssInfo}
    (tries : state.attempt (.tryNext time connects order) = some info) :
    ∃ entry ∈ state.items, entry.item = info ∧ entry.birth ≤ time ∧
      (state.next cycleLength (.tryNext time connects order)).items = state.items.map fun old =>
        if old.item == info then { old with birth := time + cycleLength } else old := by
  cases invariant.try_outcome time connects order with
  | nothing idle same =>
      rw [idle] at tries
      cases tries
  | tried entry there ready taken moved =>
      rw [taken] at tries
      obtain rfl := Option.some.inj tries
      exact ⟨entry, there, rfl, ready, moved⟩

/-- What has been tried waits for a cycle. -/
theorem Invariant.attempt_waits (invariant : Invariant cycleLength state) {info : BssInfo}
    (tries : state.attempt (.tryNext time connects order) = some info) :
    Waits info.bssid (time + cycleLength)
      (state.next cycleLength (.tryNext time connects order)).items := by
  obtain ⟨entry, there, rfl, -, moved⟩ := invariant.attempt_entry time connects order tries
  rw [moved]
  constructor
  · refine ⟨_, List.mem_map.mpr ⟨entry, there, rfl⟩, ?_⟩
    split <;> rfl
  · intro kept kept_there named
    obtain ⟨old, old_there, rfl⟩ := List.mem_map.mp kept_there
    split
    · exact le_rfl
    case isFalse other =>
      rw [if_neg other] at named
      exact absurd (invariant.one old old_there entry there named).1 other

end Attempt

section Steps

variable {cycleLength : Rat} {state after : Cycling} {event : WifiEvent}

theorem Invariant.step (invariant : Invariant cycleLength state)
    (same_items : ListsSameItems state event) (step : Cycling.Step cycleLength state event after) :
    Invariant cycleLength after ∧ KeepsAge cycleLength state event := by
  obtain ⟨-, rfl⟩ := step
  cases event with
  | scan time parsed order shuffle =>
      refine ⟨⟨invariant.unset, ?_, scan_one same_items⟩, scan_keepsAge same_items invariant.one⟩
      intro cycler there
      obtain rfl := Option.some.inj there
      cases old : state.wifi.cycler with
      | none => exact ⟨rfl, rfl⟩
      | some before => exact invariant.length before old
  | tryNext time connects order =>
      exact ⟨⟨tryNextBssid_unset time connects order invariant.unset,
        invariant.try_length time connects order, invariant.try_one time connects order⟩, trivial⟩

/-- What waits goes on waiting while it is shown. -/
theorem Waits.step {bssid : Text} {late : Rat} (waits : Waits bssid late state.items)
    (invariant : Invariant cycleLength state) (in_time : late ≤ event.time + cycleLength)
    (same_items : ListsSameItems state event) (shows : event.Shows bssid) :
    Waits bssid late (state.next cycleLength event).items := by
  cases event with
  | scan time parsed order shuffle =>
      obtain ⟨entry, there, rfl⟩ := waits.present
      have keeps : KeepsAge cycleLength state (.scan time parsed order shuffle) :=
        scan_keepsAge same_items invariant.one
      obtain ⟨present, aged⟩ := keeps entry there shows
      refine ⟨present, fun kept stays named => ?_⟩
      rw [aged kept stays named]
      exact waits.late entry there rfl
  | tryNext time connects order => exact invariant.try_waits time connects order waits in_time

theorem Cycling.Step.now_eq (step : Cycling.Step cycleLength state event after) :
    after.now = event.time := by
  obtain ⟨-, rfl⟩ := step
  cases event <;> rfl

theorem Waits.run {bssid : Text} {late : Rat} {trace : List (Cycling × WifiEvent)}
    (run : Run (Cycling.Step cycleLength) state trace after)
    (waits : Waits bssid late state.items) (invariant : Invariant cycleLength state)
    (in_time : late ≤ state.now + cycleLength) (met : StepsMeet ListsSameItems trace)
    (shown : ∀ entry ∈ trace, entry.2.Shows bssid) :
    Waits bssid late after.items ∧ Invariant cycleLength after ∧
      late ≤ after.now + cycleLength := by
  induction run with
  | nil => exact ⟨waits, invariant, in_time⟩
  | @snoc middle next event trace _ step ih =>
      obtain ⟨earlier, last⟩ := met.split
      obtain ⟨waiting, sound, early⟩ :=
        ih earlier fun entry member => shown entry (List.mem_append_left _ member)
      have in_time : late ≤ event.time + cycleLength := by linarith [step.1]
      have shows := shown (middle, event) (by simp)
      refine ⟨?_, (sound.step last step).1, ?_⟩
      · rw [step.2]
        exact waiting.step sound in_time last shows
      · rw [step.now_eq]
        exact in_time

/-- What is tried has waited long enough. -/
theorem Waits.attempt {bssid : Text} {late : Rat} (waits : Waits bssid late state.items)
    (invariant : Invariant cycleLength state) {info : BssInfo}
    (tries : state.attempt event = some info) (named : info.bssid = bssid) :
    late ≤ event.time := by
  cases event with
  | scan => cases tries
  | tryNext time connects order =>
      obtain ⟨entry, there, rfl, ready, -⟩ := invariant.attempt_entry time connects order tries
      exact (waits.late entry there named).trans ready

end Steps

/-- In a run in which each scan lists what is in the queue as the item that is
there, attempts at a BSSID that is shown are a cycle apart, and its age does
not restart. -/
theorem attempts_spaced {cycleLength time : Rat} {trace : List (Cycling × WifiEvent)}
    {finish : Cycling} (run : Run (Cycling.Step cycleLength) (.start time) trace finish)
    (met : StepsMeet ListsSameItems trace) :
    AttemptsSpaced cycleLength trace ∧ StepsMeet (KeepsAge cycleLength) trace := by
  have initial := invariant_start cycleLength time
  constructor
  · intro before first between second after earlier later whole tries again named shown
    subst whole
    obtain ⟨state, run, rest⟩ := run.unappend
    obtain ⟨same, next, step, rest⟩ := rest.uncons
    obtain ⟨last, between_run, rest⟩ := rest.unappend
    obtain ⟨same_last, -⟩ := rest.uncons
    subst same same_last
    have sound : Invariant cycleLength first.1 :=
      (run.throughout initial (fun held same_items step => (held.step same_items step).1)
        fun entry member => met entry (by simp [member])).2
    have same_items := met first (by simp)
    have next_sound := (sound.step same_items step).1
    -- The first attempt makes the BSSID wait, and it still waits at the second.
    have waits : Waits earlier.bssid (first.2.time + cycleLength) next.items := by
      rw [step.2]
      obtain ⟨state, event⟩ := first
      cases event with
      | scan => cases tries
      | tryNext time connects order => exact sound.attempt_waits time connects order tries
    obtain ⟨waiting, last_sound, -⟩ := Waits.run between_run waits next_sound
      (by rw [step.now_eq]) (fun entry member => met entry (by simp [member])) shown
    exact waiting.attempt last_sound again named
  · exact ((run.with_met met).throughout_observed initial fun held step =>
      held.step step.2 step.1).2

def neighbour (rssi : Rat) : BssInfo :=
  ⟨"00:11:22:33:44:55".toList, "Neighbour".toList, rssi, some .ghz24, [], []⟩

/-- A network is found and tried, and again at a later time with another signal. -/
def neighbourEvents (time rssi : Rat) : List WifiEvent :=
  [.scan 0 [neighbour (-50)] .inserted .inserted, .tryNext 0 (fun _ => false) .inserted,
    .scan time [neighbour rssi] .inserted .inserted, .tryNext time (fun _ => false) .inserted]

def neighbourTrace (time rssi : Rat) : List (Cycling × WifiEvent) :=
  traceOf (Cycling.next 30) (.start 0) (neighbourEvents time rssi)

theorem neighbourTrace_run {time : Rat} (rssi : Rat) (later : 0 ≤ time) :
    Run (Cycling.Step 30) (.start 0) (neighbourTrace time rssi)
      ((neighbourEvents time rssi).foldl (Cycling.next 30) (.start 0)) := by
  refine Run.of_trace _ _ ?_
  intro entry member
  simp only [neighbourEvents, traceOf, List.mem_cons, List.not_mem_nil, or_false] at member
  rcases member with rfl | rfl | rfl | rfl
  · exact ⟨le_rfl, rfl⟩
  · exact ⟨le_rfl, rfl⟩
  · exact ⟨later, rfl⟩
  · exact ⟨le_rfl, rfl⟩

/-- The BSSIDs that are tried, step by step. -/
def attempts (trace : List (Cycling × WifiEvent)) : List (Option Text) :=
  trace.map fun entry => (entry.1.attempt entry.2).map (·.bssid)

/-- A network whose signal has changed is tried again after one second. -/
theorem attempts_not_spaced : ¬∀ cycleLength time trace finish,
    Run (Cycling.Step cycleLength) (.start time) trace finish →
      AttemptsSpaced cycleLength trace ∧ StepsMeet (KeepsAge cycleLength) trace := by
  intro always
  obtain ⟨spaced, -⟩ := always 30 0 _ _ (neighbourTrace_run (-51) (by decide : (0 : Rat) ≤ 1))
  have tried : attempts (neighbourTrace 1 (-51)) =
      [none, some (neighbour (-51)).bssid, none, some (neighbour (-51)).bssid] := by
    decide +kernel
  simp only [attempts, neighbourTrace, neighbourEvents, traceOf, List.map_cons, List.map_nil,
    List.cons.injEq, Option.map_eq_some_iff] at tried
  obtain ⟨-, ⟨earlier, first, named⟩, -, ⟨later, second, renamed⟩, -⟩ := tried
  have apart := spaced [_] _ [_] _ [] earlier later rfl first second (renamed.trans named.symm)
  refine absurd (apart ?_) (by decide +kernel)
  intro entry member
  obtain rfl := List.mem_singleton.mp member
  exact ⟨neighbour (-51), List.mem_singleton_self _, named.symm⟩

theorem listsSameItems_single {state : Cycling} {time : Rat} {info : BssInfo}
    {order : IterationOrder BssInfo} {shuffle : IterationOrder (BssInfo × Rat)}
    (unsecured : info.security = []) (same : state.items.all (info.named == ·.item) = true) :
    ListsSameItems state (.scan time [info] order shuffle) := by
  have single : openNetworks [info] = [info] := by simp [openNetworks, unsecured]
  rw [ListsSameItems, single]
  constructor
  · intro left left_there right right_there _
    obtain rfl := List.mem_singleton.mp left_there
    obtain rfl := List.mem_singleton.mp right_there
    exact BEq.rfl
  · intro entry there _
    exact ⟨info, List.mem_singleton_self _, List.all_eq_true.mp same entry there⟩

/-- With the same signal it is tried again when the cycle is over. -/
theorem attempts_spaced_neighbour :
    attempts (neighbourTrace 30 (-50)) =
      [none, some (neighbour (-50)).bssid, none, some (neighbour (-50)).bssid] ∧
    AttemptsSpaced 30 (neighbourTrace 30 (-50)) ∧
    StepsMeet (KeepsAge 30) (neighbourTrace 30 (-50)) := by
  refine ⟨by decide +kernel, attempts_spaced (neighbourTrace_run (-50) (by decide)) ?_⟩
  intro entry member
  simp only [neighbourTrace, neighbourEvents, traceOf, List.mem_cons, List.not_mem_nil,
    or_false] at member
  rcases member with rfl | rfl | rfl | rfl
  · exact listsSameItems_single rfl rfl
  · trivial
  · exact listsSameItems_single rfl (by decide +kernel)
  · trivial

end Runs

end Gfiber.Conman
