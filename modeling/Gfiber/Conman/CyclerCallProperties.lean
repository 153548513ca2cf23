import Gfiber.Lib.Double
import Gfiber.Conman.CyclerProperties

/-! The cycler over any calls, in doubles: which item `next` returns, and how long
it is not returned again. -/

set_option autoImplicit false

namespace Gfiber.Conman

open Lib

variable {Item : Type} [BEq Item]

/-- A call, with the time at which it is made. -/
inductive CyclerCall (Item : Type) where
  | insert (time : Rat) (item : Item) (priority : Rat)
  | remove (time : Rat) (item : Item)
  | update (time : Rat) (items : List (Item × Rat))
  | peek (time : Rat) (order : IterationOrder (Aged Item))
  | next (time : Rat) (order : IterationOrder (Aged Item))

namespace CyclerCall

def time : CyclerCall Item → Rat
  | insert time .. | remove time .. | update time .. | peek time .. | next time .. => time

def Positive : CyclerCall Item → Prop
  | insert _ _ priority => 0 < priority
  | update _ items => ∀ given ∈ items, 0 < given.2
  | _ => True

/-- An update lists the item. -/
def Lists (item : Item) : CyclerCall Item → Prop
  | update _ items => ∃ given ∈ items, (given.1 == item) = true
  | _ => True

/-- An update lists the item, and a removal is of another one. -/
def Keeps (item : Item) : CyclerCall Item → Prop
  | update _ items => ∃ given ∈ items, (given.1 == item) = true
  | remove _ other => (item == other) = false
  | _ => True

end CyclerCall

/-- The cycler and the time of the last call. -/
structure Clocked (Item : Type) where
  now : Rat
  cycler : AgingPriorityCycler Item

namespace Clocked

variable (state : Clocked Item)

def called : CyclerCall Item → AgingPriorityCycler Item
  | .insert time item priority => state.cycler.insert time item priority
  | .remove _ item => state.cycler.remove item
  | .update time items => state.cycler.update time items
  | .peek _ _ => state.cycler
  | .next time order => (state.cycler.next time order).2

def after (call : CyclerCall Item) : Clocked Item :=
  ⟨call.time, state.called call⟩

/-- The item that goes to the end of a cycle. -/
def cycled : CyclerCall Item → Option Item
  | .next time order => (state.cycler.next time order).1
  | _ => none

def returned : CyclerCall Item → Option Item
  | .peek time order => state.cycler.peek time order
  | .next time order => (state.cycler.next time order).1
  | _ => none

/-- The clock does not go back, and priorities are positive. -/
structure Step (state : Clocked Item) (call : CyclerCall Item) (next : Clocked Item) : Prop where
  later : state.now ≤ call.time
  positive : call.Positive
  same : next = state.after call

/-- A new cycler. Its initial items are a first update. -/
def start (cycleLength time : Rat) : Clocked Item :=
  ⟨time, ⟨cycleLength, toDouble, []⟩⟩

end Clocked

/-- What a call of `next` returns and does. -/
structure NextReturns (cycleLength time : Rat) (before : AgingPriorityCycler Item)
    (outcome : Option Item × AgingPriorityCycler Item) : Prop where
  idle : outcome.1 = none → outcome.2 = before
  oldest : ∀ item, outcome.1 = some item → ∃ entry ∈ before.items,
    entry.item = item ∧ entry.birth ≤ time ∧
      (∀ other ∈ before.items,
        agedPriority toDouble time other ≤ agedPriority toDouble time entry) ∧
        outcome.2.items = before.items.map fun other =>
          if other.item == item then { other with birth := toDouble (time + cycleLength) }
          else other

def ReturnsOldest (cycleLength : Rat) (state : Clocked Item) : CyclerCall Item → Prop
  | .next time order => NextReturns cycleLength time state.cycler (state.cycler.next time order)
  | _ => True

/-- `next` returns nothing just when no item is ready. -/
def NoneExactly (state : Clocked Item) : CyclerCall Item → Prop
  | .next time order =>
      (state.cycler.next time order).1 = none ↔ ∀ entry ∈ state.cycler.items, ¬entry.birth ≤ time
  | _ => True

/-- The product of an item that waits is negative: it does not underflow to zero. -/
def SignKept (state : Clocked Item) : CyclerCall Item → Prop
  | .next time _ => ∀ entry ∈ state.cycler.items, time < entry.birth →
      agedPriority toDouble time entry ≠ 0
  | _ => True

/-- An item that `next` has returned is not returned again before its cycle is
over, while the calls between keep it. -/
def NotRepeated (keeps : Item → CyclerCall Item → Prop) (cycleLength : Rat)
    (trace : List (Clocked Item × CyclerCall Item)) : Prop :=
  ∀ before first between second after item other,
    trace = before ++ first :: (between ++ second :: after) →
    Clocked.cycled first.1 first.2 = some item →
    Clocked.returned second.1 second.2 = some other → (other == item) = true →
    (∀ entry ∈ between, keeps item entry.2) →
    toDouble (first.2.time + cycleLength) ≤ second.2.time

section Finding

variable {cycler : AgingPriorityCycler Item} {now : Rat} {order : IterationOrder (Aged Item)}

omit [BEq Item] in
/-- Rounding keeps the sign of a product, if not zero. -/
theorem agedPriority_nonneg {entry : Aged Item} (positive : 0 < entry.priority)
    (ready : entry.birth ≤ now) : 0 ≤ agedPriority toDouble now entry :=
  toDouble_nonneg (mul_nonneg positive.le (toDouble_nonneg (sub_nonneg.mpr ready)))

omit [BEq Item] in
theorem agedPriority_nonpos {entry : Aged Item} (positive : 0 < entry.priority)
    (waits : now < entry.birth) : agedPriority toDouble now entry ≤ 0 :=
  toDouble_nonpos (mul_nonpos_of_nonneg_of_nonpos positive.le (toDouble_nonpos (sub_neg.mpr waits).le))

theorem next_returns (rounded : cycler.rounded = toDouble) :
    NextReturns cycler.minTimeInQueue now cycler (cycler.next now order) := by
  rw [AgingPriorityCycler.next]
  rcases findNext_cases cycler true now order with ⟨-, idle⟩ |
    ⟨entry, there, most, ⟨-, idle⟩ | ⟨ready, taken⟩⟩
  · rw [idle]
    exact ⟨fun _ => rfl, nofun⟩
  · rw [idle]
    exact ⟨fun _ => rfl, nofun⟩
  · rw [taken]
    refine ⟨nofun, fun item same => ?_⟩
    cases same
    rw [rounded] at most ⊢
    exact ⟨entry, there, rfl, ready, most, rfl⟩

theorem next_none_iff (rounded : cycler.rounded = toDouble)
    (positive : ∀ entry ∈ cycler.items, 0 < entry.priority)
    (signs : ∀ entry ∈ cycler.items, now < entry.birth → agedPriority toDouble now entry ≠ 0) :
    (cycler.next now order).1 = none ↔ ∀ entry ∈ cycler.items, ¬entry.birth ≤ now := by
  rw [AgingPriorityCycler.next]
  rcases findNext_cases cycler true now order with ⟨empty, idle⟩ |
    ⟨entry, there, most, ⟨early, idle⟩ | ⟨ready, taken⟩⟩
  · rw [idle]
    refine iff_of_true rfl ?_
    rw [empty]
    exact fun _ member => nomatch member
  · rw [idle]
    refine iff_of_true rfl fun other member born => ?_
    -- A ready item is not below zero, so the waiting one that is first is zero.
    rw [rounded] at most
    have above := (agedPriority_nonneg (positive other member) born).trans (most other member)
    have below := agedPriority_nonpos (positive entry there) early
    exact signs entry there early (le_antisymm below above)
  · rw [taken]
    exact iff_of_false nofun fun none => none entry there ready

end Finding

/-- What every call keeps of the cycler. -/
structure Clocked.Sound (cycleLength : Rat) (state : Clocked Item) : Prop where
  length : state.cycler.minTimeInQueue = cycleLength
  rounded : state.cycler.rounded = toDouble
  positive : ∀ entry ∈ state.cycler.items, 0 < entry.priority

/-- The item is there, and not to be returned before `late`. -/
structure Kept (item : Item) (late : Rat) (entries : List (Aged Item)) : Prop where
  present : ∃ entry ∈ entries, (entry.item == item) = true
  late : ∀ entry ∈ entries, (entry.item == item) = true → late ≤ entry.birth

section Calls

variable {cycler : AgingPriorityCycler Item} {time : Rat}

theorem mem_insert {item : Item} {priority : Rat} {entry : Aged Item}
    (member : entry ∈ (cycler.insert time item priority).items) :
    (∃ old ∈ cycler.items, old.item = entry.item ∧ old.birth = entry.birth ∧
      (old.priority = entry.priority ∨ entry.priority = priority)) ∨
        entry = ⟨item, priority, time⟩ ∧
          (cycler.items.any fun entry => entry.item == item) = false := by
  rw [AgingPriorityCycler.insert] at member
  dsimp only at member
  split at member
  case isTrue =>
    obtain ⟨old, there, rfl⟩ := List.mem_map.mp member
    refine .inl ⟨old, there, ?_⟩
    split
    · exact ⟨rfl, rfl, .inr rfl⟩
    · exact ⟨rfl, rfl, .inl rfl⟩
  case isFalse missing =>
    rcases List.mem_append.mp member with old | new
    · exact .inl ⟨entry, old, rfl, rfl, .inl rfl⟩
    · exact .inr ⟨List.mem_singleton.mp new, Bool.eq_false_iff.mpr missing⟩

theorem insert_keeps {entry : Aged Item} (item : Item) (priority : Rat)
    (there : entry ∈ cycler.items) :
    ∃ kept ∈ (cycler.insert time item priority).items, kept.item = entry.item := by
  rw [AgingPriorityCycler.insert]
  dsimp only
  split
  · refine ⟨_, List.mem_map.mpr ⟨entry, there, rfl⟩, ?_⟩
    split <;> rfl
  · exact ⟨entry, List.mem_append_left _ there, rfl⟩

theorem positive_assign {entries : List (Aged Item)} {item : Item} {priority birth : Rat}
    (given : 0 < priority) (positive : ∀ entry ∈ entries, 0 < entry.priority) :
    ∀ entry ∈ assign entries item priority birth, 0 < entry.priority := by
  intro entry member
  unfold assign at member
  split at member
  · obtain ⟨old, there, rfl⟩ := List.mem_map.mp member
    split
    · exact given
    · exact positive old there
  · rcases List.mem_append.mp member with old | new
    · exact positive entry old
    · exact List.mem_singleton.mp new ▸ given

theorem positive_foldl_assign {birth : Item → Rat} {items : List (Item × Rat)}
    {entries : List (Aged Item)} (given : ∀ given ∈ items, 0 < given.2)
    (positive : ∀ entry ∈ entries, 0 < entry.priority) :
    ∀ entry ∈ items.foldl (fun newItems (item, priority) =>
      assign newItems item priority (birth item)) entries, 0 < entry.priority := by
  induction items generalizing entries with
  | nil => exact positive
  | cons first rest ih =>
      exact ih (fun other member => given other (List.mem_cons_of_mem _ member))
        (positive_assign (given first List.mem_cons_self) positive)

variable {cycleLength late : Rat} {state next : Clocked Item} {call : CyclerCall Item} {item : Item}

theorem Clocked.Sound.step (sound : state.Sound cycleLength) (step : state.Step call next) :
    next.Sound cycleLength := by
  obtain ⟨later, given, rfl⟩ := step
  obtain ⟨length, rounded, positive⟩ := sound
  cases call with
  | insert time item priority =>
      refine ⟨length, rounded, fun entry member => ?_⟩
      rcases mem_insert member with ⟨old, there, -, -, same | new⟩ | ⟨rfl, -⟩
      · exact same ▸ positive old there
      · exact new ▸ given
      · exact given
  | remove time item =>
      exact ⟨length, rounded, fun entry member => positive entry (List.mem_of_mem_filter member)⟩
  | update time items => exact ⟨length, rounded, positive_foldl_assign given (by simp)⟩
  | peek time order => exact ⟨length, rounded, positive⟩
  | next time order =>
      rw [Clocked.after, Clocked.called, AgingPriorityCycler.next]
      rcases findNext_cases state.cycler true time order with ⟨-, idle⟩ |
        ⟨entry, there, -, ⟨-, idle⟩ | ⟨-, taken⟩⟩
      · rw [idle]
        exact ⟨length, rounded, positive⟩
      · rw [idle]
        exact ⟨length, rounded, positive⟩
      · rw [taken]
        refine ⟨length, rounded, fun other member => ?_⟩
        obtain ⟨old, known, rfl⟩ := List.mem_map.mp member
        split
        · exact positive old known
        · exact positive old known

variable [EquivBEq Item]

/-- What waits goes on waiting while it is kept. -/
theorem Kept.step (kept : Kept item late state.cycler.items) (sound : state.Sound cycleLength)
    (early : late ≤ toDouble (call.time + cycleLength)) (keeps : call.Keeps item) :
    Kept item late (state.after call).cycler.items := by
  obtain ⟨⟨entry, there, same⟩, waits⟩ := kept
  cases call with
  | insert time other priority =>
      constructor
      · obtain ⟨still, stays, equal⟩ := insert_keeps other priority there
        exact ⟨still, stays, equal ▸ same⟩
      · intro after member asked
        rcases mem_insert member with ⟨old, known, named, born, -⟩ | ⟨rfl, missing⟩
        · exact born ▸ waits old known (named ▸ asked)
        · have absent := List.any_eq_false.mp missing entry there
          exact absurd (BEq.trans same (BEq.symm asked)) absent
  | remove time other =>
      constructor
      · refine ⟨entry, List.mem_filter.mpr ⟨there, ?_⟩, same⟩
        have apart : (entry.item == other) = false := (BEq.congr_left same).trans keeps
        rw [apart]
        rfl
      · exact fun after member => waits after (List.mem_of_mem_filter member)
  | update time items =>
      obtain ⟨given, listed, equal⟩ := keeps
      constructor
      · obtain ⟨still, stays, named⟩ := exists_update state.cycler time listed
        exact ⟨still, stays, BEq.trans named equal⟩
      · intro after member asked
        obtain ⟨-, born⟩ := mem_update state.cycler time member
        rw [born, AgingPriorityCycler.birthOf]
        cases found : state.cycler.items.find? fun old => old.item == after.item with
        | none =>
            have absent := List.find?_eq_none.mp found entry there
            exact absurd (BEq.trans same (BEq.symm asked)) absent
        | some old =>
            have matched : (old.item == after.item) = true := by simpa using List.find?_some found
            exact waits old (List.mem_of_find?_eq_some found) (BEq.trans matched asked)
  | peek time order => exact ⟨⟨entry, there, same⟩, waits⟩
  | next time order =>
      rw [Clocked.after, Clocked.called, AgingPriorityCycler.next]
      rcases findNext_cases state.cycler true time order with ⟨-, idle⟩ |
        ⟨chosen, -, -, ⟨-, idle⟩ | ⟨-, taken⟩⟩
      · rw [idle]
        exact ⟨⟨entry, there, same⟩, waits⟩
      · rw [idle]
        exact ⟨⟨entry, there, same⟩, waits⟩
      · rw [taken]
        constructor
        · refine ⟨_, List.mem_map.mpr ⟨entry, there, rfl⟩, ?_⟩
          split <;> exact same
        · intro after member asked
          obtain ⟨old, known, rfl⟩ := List.mem_map.mp member
          split
          · rw [sound.length, sound.rounded]
            exact early
          case isFalse other =>
            rw [if_neg other] at asked
            exact waits old known asked

/-- An item that `next` has returned waits for a cycle. -/
theorem Kept.of_cycled (sound : state.Sound cycleLength)
    (cycled : state.cycled call = some item) :
    Kept item (toDouble (call.time + cycleLength)) (state.after call).cycler.items := by
  cases call with
  | next time order =>
      rw [Clocked.cycled, AgingPriorityCycler.next] at cycled
      rw [Clocked.after, Clocked.called, AgingPriorityCycler.next]
      rcases findNext_cases state.cycler true time order with ⟨-, idle⟩ |
        ⟨chosen, there, -, ⟨-, idle⟩ | ⟨-, taken⟩⟩
      · rw [idle] at cycled
        cases cycled
      · rw [idle] at cycled
        cases cycled
      · rw [taken] at cycled ⊢
        cases cycled
        constructor
        · refine ⟨_, List.mem_map.mpr ⟨chosen, there, rfl⟩, ?_⟩
          split <;> exact BEq.rfl
        · intro after member asked
          obtain ⟨old, known, rfl⟩ := List.mem_map.mp member
          split
          · rw [sound.length, sound.rounded]
            exact le_rfl
          case isFalse other =>
            rw [if_neg other] at asked
            exact absurd asked other
  | insert | remove | update | peek => cases cycled

omit [EquivBEq Item] in
/-- What is returned has waited long enough. -/
theorem Kept.returned (kept : Kept item late state.cycler.items) {other : Item}
    (returned : state.returned call = some other) (same : (other == item) = true) :
    late ≤ call.time := by
  have found (cycle : Bool) (time : Rat) (order : IterationOrder (Aged Item))
      (result : (state.cycler.findNext cycle time order).1 = some other) : late ≤ time := by
    rcases findNext_cases state.cycler cycle time order with ⟨-, idle⟩ |
      ⟨chosen, there, -, ⟨-, idle⟩ | ⟨ready, taken⟩⟩
    · rw [idle] at result
      cases result
    · rw [idle] at result
      cases result
    · rw [taken] at result
      cases result
      exact (kept.late chosen there same).trans ready
  cases call with
  | peek time order => exact found false time order returned
  | next time order => exact found true time order returned
  | insert | remove | update => cases returned

theorem Kept.run {trace : List (Clocked Item × CyclerCall Item)} {finish : Clocked Item}
    (run : Run Clocked.Step state trace finish) (kept : Kept item late state.cycler.items)
    (sound : state.Sound cycleLength) (early : late ≤ toDouble (state.now + cycleLength))
    (keeps : ∀ entry ∈ trace, entry.2.Keeps item) : Kept item late finish.cycler.items := by
  suffices all : Kept item late finish.cycler.items ∧ finish.Sound cycleLength ∧
      late ≤ toDouble (finish.now + cycleLength) from all.1
  induction run with
  | nil => exact ⟨kept, sound, early⟩
  | @snoc middle next call trace _ step ih =>
      obtain ⟨waiting, still, before⟩ := ih fun entry member =>
        keeps entry (List.mem_append_left _ member)
      have time : late ≤ toDouble (call.time + cycleLength) :=
        before.trans (toDouble_mono (by linarith [step.later]))
      refine ⟨?_, still.step step, ?_⟩
      · rw [step.same]
        exact waiting.step still time (keeps (middle, call) (by simp))
      · rw [step.same]
        exact time

end Calls

variable [EquivBEq Item]

/-- In every run of calls, `next` returns the oldest item, or nothing when none
is ready, unless the product of a waiting item is lost; and an item that it has
returned is not returned again before its cycle is over, as long as it is listed
in every update and not removed. -/
theorem next_cycles {cycleLength time : Rat} {trace : List (Clocked Item × CyclerCall Item)}
    {finish : Clocked Item} (run : Run Clocked.Step (.start cycleLength time) trace finish) :
    StepsMeet (fun state call => SignKept state call → NoneExactly state call) trace ∧
      StepsMeet (ReturnsOldest cycleLength) trace ∧
        NotRepeated CyclerCall.Keeps cycleLength trace := by
  have initial : Clocked.Sound cycleLength (.start cycleLength time : Clocked Item) :=
    ⟨rfl, rfl, fun _ member => nomatch member⟩
  refine ⟨?_, ?_, ?_⟩
  · refine (run.throughout_observed initial fun {state call next} sound step =>
      ⟨sound.step step, ?_⟩).2
    cases call with
    | next time order => exact fun signs => next_none_iff sound.rounded sound.positive signs
    | insert | remove | update | peek => exact fun _ => trivial
  · refine (run.throughout_observed initial fun {state call next} sound step =>
      ⟨sound.step step, ?_⟩).2
    cases call with
    | next time order => exact sound.length ▸ next_returns sound.rounded
    | insert | remove | update | peek => trivial
  · intro before first between second after item other whole cycled returned same keeps
    subst whole
    obtain ⟨state, run, rest⟩ := run.unappend
    obtain ⟨equal, next, step, rest⟩ := rest.uncons
    obtain ⟨last, between_run, rest⟩ := rest.unappend
    obtain ⟨equal_last, -⟩ := rest.uncons
    subst equal equal_last
    have sound : first.1.Sound cycleLength :=
      (run.throughout_observed initial fun sound step => ⟨sound.step step, trivial⟩).1.2
    -- The returned item waits from its call on, and still waits at the second.
    have waits := Kept.of_cycled sound cycled
    rw [← step.same] at waits
    have waiting := waits.run between_run (sound.step step) (by rw [step.same]; rfl) keeps
    exact waiting.returned returned same

section Histories

/-- One item that is inserted and returned, and the calls after that. -/
def historyOf (calls : List (CyclerCall Nat)) : List (CyclerCall Nat) :=
  [.insert 0 7 1, .next 0 .inserted] ++ calls

/-- The clock of a list of calls, and their priorities. -/
def Timely (now : Rat) : List (CyclerCall Nat) → Prop
  | [] => True
  | call :: rest => now ≤ call.time ∧ call.Positive ∧ Timely call.time rest

theorem run_of_timely {state : Clocked Nat} {calls : List (CyclerCall Nat)}
    (timely : Timely state.now calls) :
    Run Clocked.Step state (traceOf Clocked.after state calls) (calls.foldl Clocked.after state) := by
  induction calls generalizing state with
  | nil => exact .nil
  | cons call rest ih =>
      obtain ⟨later, positive, others⟩ := timely
      exact Run.cons ⟨later, positive, rfl⟩ (ih others)

/-- The item is removed and inserted again. -/
def removing : List (CyclerCall Nat) :=
  historyOf [.remove 0 7, .insert 1 7 1, .next 1 .inserted]

theorem timely_removing : Timely 0 removing := by
  simp [Timely, historyOf, removing, CyclerCall.time, CyclerCall.Positive]

/-- An item of the least priority is returned, and a quarter of a second before it
is ready again, another one is inserted. -/
def vanishing : List (CyclerCall Nat) :=
  [.insert 0 7 (1 / 2 ^ 1074), .next 0 .inserted, .insert (39 / 4) 8 1, .next (39 / 4) .inserted]

theorem timely_vanishing : Timely 0 vanishing := by
  norm_num [Timely, vanishing, CyclerCall.time, CyclerCall.Positive]

/-- The product of an item that waits is lost, and it hides one that is ready. And
no update leaves an item out, but once it has been removed and inserted again it is
returned before its cycle is over. -/
theorem ready_hidden_and_removed_repeats :
    (¬∀ (cycleLength time : Rat) (trace : List (Clocked Nat × CyclerCall Nat))
      (finish : Clocked Nat), Run Clocked.Step (.start cycleLength time) trace finish →
        StepsMeet NoneExactly trace) ∧
    ¬∀ (cycleLength time : Rat) (trace : List (Clocked Nat × CyclerCall Nat))
      (finish : Clocked Nat), Run Clocked.Step (.start cycleLength time) trace finish →
        NotRepeated CyclerCall.Lists cycleLength trace := by
  constructor
  · intro exactly
    have last := exactly 10 0 _ _ (run_of_timely timely_vanishing)
      (_, .next (39 / 4) .inserted) (.tail _ (.tail _ (.tail _ (.head _))))
    exact absurd (last.mp (by decide +kernel)) (by decide +kernel)
  · intro spaced
    have apart := spaced 10 0 _ _ (run_of_timely timely_removing) [_] _ [_, _] _ [] 7 7 rfl
      (by decide +kernel) (by decide +kernel) rfl (by
        intro entry member
        simp only [List.mem_cons, List.not_mem_nil, or_false] at member
        rcases member with rfl | rfl <;> trivial)
    exact absurd apart (by decide +kernel)

/-- Nothing is returned while the item waits, then the item again. -/
def waiting : List (CyclerCall Nat) :=
  historyOf [.update 1 [(7, 2)], .next 9 .inserted, .next 10 .inserted]

theorem timely_waiting : Timely 0 waiting := by
  norm_num [Timely, historyOf, waiting, CyclerCall.time, CyclerCall.Positive]

theorem signKept_waiting :
    StepsMeet SignKept (traceOf Clocked.after (.start 10 0 : Clocked Nat) waiting) := by
  intro entry member
  simp only [waiting, historyOf, List.cons_append, List.nil_append, traceOf, List.mem_cons,
    List.not_mem_nil, or_false] at member
  rcases member with rfl | rfl | rfl | rfl | rfl
  · trivial
  · unfold SignKept
    decide +kernel
  · trivial
  · unfold SignKept
    decide +kernel
  · unfold SignKept
    decide +kernel

theorem next_cycles_waiting :
    let trace := traceOf Clocked.after (.start 10 0 : Clocked Nat) waiting
    trace.map (fun entry => entry.1.returned entry.2) = [none, some 7, none, none, some 7] ∧
      StepsMeet NoneExactly trace ∧ StepsMeet (ReturnsOldest 10) trace ∧
        NotRepeated CyclerCall.Keeps 10 trace := by
  obtain ⟨exactly, oldest, spaced⟩ := next_cycles (run_of_timely timely_waiting)
  exact ⟨by decide +kernel,
    fun entry member => exactly entry member (signKept_waiting entry member), oldest, spaced⟩

end Histories

end Gfiber.Conman
