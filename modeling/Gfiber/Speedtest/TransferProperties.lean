import Gfiber.Lib.MovingAverage
import Gfiber.Speedtest.Transfer
import Mathlib.Algebra.Order.Field.Basic
import Mathlib.Algebra.Order.Field.Rat
import Mathlib.Data.List.Chain
import Mathlib.Data.List.GetD

/-! When the averages of a transfer are moving averages of its speed. -/

set_option autoImplicit false

namespace Gfiber.Speedtest

open Lib

section Specification

/-- Bucket 0 is the sentinel. -/
def bucketAt (buckets : List Bucket) (k : Nat) : Bucket :=
  buckets.getD k .empty

def speedBetween (previous bucket : Bucket) : Rat :=
  toMegabits (bucket.totalBytes - previous.totalBytes) (bucket.startTime - previous.startTime)

/-- The speed between a bucket and the next one. -/
def speedAfter (buckets : List Bucket) (k : Nat) : Rat :=
  speedBetween (bucketAt buckets k) (bucketAt buckets (k + 1))

/-- What the newest speed has of an average over so many intervals. -/
def weight (intervals : Int) : Rat :=
  2 / (intervals + 1)

/-- One of the averages is the moving average of the speeds: none is negative or over the largest
speed so far, and all speeds have their weight in it. -/
structure Follows (megabits : Bucket → Rat) (intervals : Int) (buckets : List Bucket) : Prop where
  moving : MovingAverage (weight intervals) (speedAfter buckets)
    (fun k => megabits (bucketAt buckets k)) (buckets.length - 1)
  bounded : ∀ k, k + 1 < buckets.length → 0 ≤ megabits (bucketAt buckets (k + 1)) ∧
    ∃ i ≤ k, megabits (bucketAt buckets (k + 1)) ≤ speedAfter buckets i
  weighted : ∀ k < buckets.length, megabits (bucketAt buckets k) =
    ∑ i ∈ Finset.range k,
      weight intervals * (1 - weight intervals) ^ (k - 1 - i) * speedAfter buckets i

structure FollowsBoth (options : TransferOptions) (buckets : List Bucket) : Prop where
  short : Follows Bucket.shortMegabits options.minIntervals.toInt buckets
  long : Follows Bucket.longMegabits options.maxIntervals.toInt buckets

/-- The bytes that are read in the rounds. -/
def bytesRead (rounds : List Round) : List Int :=
  rounds.filterMap fun
    | .cancelled => none
    | .sample _ bytes => some bytes

/-- The counter of bytes never decreases, and nothing is averaged: there is one interval for both
averages, or no bytes before the last round. The number of intervals is not the largest one, unless
there are no bytes at all. -/
structure Unaveraged (options : TransferOptions) (rounds : List Round) : Prop where
  counted : (0 :: bytesRead rounds).IsChain (· ≤ ·)
  single : (options.minIntervals = 1 ∧ options.maxIntervals = 1) ∨
    ∀ bytes ∈ (bytesRead rounds).dropLast, bytes = 0
  fits : (options.minIntervals ≠ BitVec.intMax 32 ∧ options.maxIntervals ≠ BitVec.intMax 32) ∨
    ∀ bytes ∈ bytesRead rounds, bytes = 0

end Specification

section Updates

variable {options : TransferOptions} {buckets : List Bucket} {bucket : Bucket}

theorem bucketAt_front {k : Nat} (inside : k < buckets.length) :
    bucketAt (buckets ++ [bucket]) k = bucketAt buckets k :=
  List.getD_append buckets [bucket] .empty k inside

theorem bucketAt_last : bucketAt (buckets ++ [bucket]) buckets.length = bucket := by
  rw [bucketAt, List.getD_append_right buckets [bucket] .empty buckets.length le_rfl, Nat.sub_self]
  rfl

theorem speedAfter_front {k : Nat} (inside : k + 1 < buckets.length) :
    speedAfter (buckets ++ [bucket]) k = speedAfter buckets k := by
  rw [speedAfter, speedAfter, bucketAt_front inside, bucketAt_front (Nat.lt_of_succ_lt inside)]

theorem speedAfter_last {last : Nat} (length : buckets.length = last + 1) :
    speedAfter (buckets ++ [bucket]) last = speedBetween (bucketAt buckets last) bucket := by
  rw [speedAfter, ← length, bucketAt_last, bucketAt_front (by omega)]

theorem getSimpleAverage_one {last : Nat} (length : buckets.length = last + 1) :
    getSimpleAverage (buckets ++ [bucket]) 1 = speedBetween (bucketAt buckets last) bucket := by
  have some_bucket : ¬(buckets ++ [bucket] = [] ∨ (1 : BitVec 32).toInt ≤ 0) := by
    rw [not_or]
    exact ⟨by simp, by decide⟩
  have finish : (buckets ++ [bucket]).length - 1 = buckets.length := by simp
  have start : buckets.length - (1 : BitVec 32).toNat = last := by
    rw [length]
    rfl
  rw [getSimpleAverage, if_neg some_bucket, finish]
  dsimp only
  rw [start]
  change speedBetween (bucketAt (buckets ++ [bucket]) last)
    (bucketAt (buckets ++ [bucket]) buckets.length) = _
  rw [bucketAt_last, bucketAt_front (by omega)]

/-- The `percent` of a number of intervals. -/
def share (intervals : BitVec 32) : Rat :=
  2 / (intervals + 1).toInt

/-- The last bucket is the new one, in which there is no average yet. -/
theorem getEma_fresh {megabits : Bucket → Rat} {intervals : BitVec 32} {last : Nat}
    (length : buckets.length = last + 1) (positive : 0 < intervals.toInt)
    (fresh : megabits bucket = 0) :
    getEma megabits (buckets ++ [bucket]) intervals =
      share intervals * speedBetween (bucketAt buckets last) bucket := by
  have some_bucket : ¬(buckets ++ [bucket] = [] ∨ intervals.toInt ≤ 0) := by
    rw [not_or]
    exact ⟨by simp, not_le.mpr positive⟩
  rw [getEma, if_neg some_bucket, List.getLastD_concat, getSimpleAverage_one length]
  dsimp only
  rw [fresh, zero_mul, add_zero, mul_comm]
  rfl

theorem addBucket_exponential {last : Nat} (exponential : options.exponentialMovingAverage = true)
    (short : 0 < options.minIntervals.toInt) (long : 0 < options.maxIntervals.toInt)
    (length : buckets.length = last + 1) (runningTime bytes : Int) :
    ∃ bucket, addBucket options buckets runningTime bytes = buckets ++ [bucket] ∧
      bucket.totalBytes = bytes ∧
      bucket.shortMegabits =
        share options.minIntervals * speedBetween (bucketAt buckets last) bucket ∧
      bucket.longMegabits =
        share options.maxIntervals * speedBetween (bucketAt buckets last) bucket := by
  refine ⟨_, rfl, rfl, ?_, ?_⟩
  · exact (if_pos exponential).trans (getEma_fresh length short rfl)
  · exact (if_pos exponential).trans (getEma_fresh length long rfl)

theorem newest_append {megabits : Bucket → Rat} {percent : Rat} {last : Nat}
    (length : buckets.length = last + 1)
    (before : ∀ k, k + 1 < buckets.length →
      megabits (bucketAt buckets (k + 1)) = percent * speedAfter buckets k)
    (newest : megabits bucket = percent * speedBetween (bucketAt buckets last) bucket) (k : Nat)
    (inside : k + 1 < (buckets ++ [bucket]).length) :
    megabits (bucketAt (buckets ++ [bucket]) (k + 1)) =
      percent * speedAfter (buckets ++ [bucket]) k := by
  rw [List.length_append, List.length_singleton] at inside
  by_cases earlier : k + 1 < buckets.length
  · rw [bucketAt_front earlier, speedAfter_front earlier, before k earlier]
  · have here : k = last := by omega
    rw [here, speedAfter_last length, ← length, bucketAt_last, newest]

/-- Every average is made of the newest speed alone. -/
structure Memoryless (options : TransferOptions) (rounds : List Round) (buckets : List Bucket) :
    Prop where
  bytes : buckets.map Bucket.totalBytes = 0 :: bytesRead rounds
  sentinel : bucketAt buckets 0 = .empty
  short : ∀ k, k + 1 < buckets.length → (bucketAt buckets (k + 1)).shortMegabits =
    share options.minIntervals * speedAfter buckets k
  long : ∀ k, k + 1 < buckets.length → (bucketAt buckets (k + 1)).longMegabits =
    share options.maxIntervals * speedAfter buckets k

variable {rounds : List Round} {transfer after : Transfer} {startTime : Int}

theorem Memoryless.length (memoryless : Memoryless options rounds buckets) :
    buckets.length = (bytesRead rounds).length + 1 := by
  have counted := congrArg List.length memoryless.bytes
  rwa [List.length_map, List.length_cons] at counted

theorem Memoryless.addBucket (memoryless : Memoryless options rounds buckets)
    (exponential : options.exponentialMovingAverage = true) (short : 0 < options.minIntervals.toInt)
    (long : 0 < options.maxIntervals.toInt) (now bytes : Int) :
    Memoryless options (rounds ++ [.sample now bytes])
      (addBucket options buckets (now - startTime) bytes) := by
  have length := memoryless.length
  obtain ⟨bucket, added, total, shorter, longer⟩ :=
    addBucket_exponential exponential short long length (now - startTime) bytes
  rw [added]
  refine ⟨?_, ?_, newest_append length memoryless.short shorter,
    newest_append length memoryless.long longer⟩
  · rw [List.map_append, memoryless.bytes, bytesRead, bytesRead, List.filterMap_append]
    simp [total]
  · rw [bucketAt_front (by omega), memoryless.sentinel]

theorem Memoryless.update (memoryless : Memoryless options rounds transfer.buckets)
    (exponential : options.exponentialMovingAverage = true) (short : 0 < options.minIntervals.toInt)
    (long : 0 < options.maxIntervals.toInt) {round : Round}
    (updated : update options startTime transfer round = some after) :
    Memoryless options (rounds ++ [round]) after.buckets := by
  rw [Speedtest.update.eq_def] at updated
  split at updated
  · cases updated
  · cases round with
    | cancelled =>
        cases updated
        have unread : bytesRead (rounds ++ [.cancelled]) = bytesRead rounds := by
          simp [bytesRead]
        exact ⟨unread ▸ memoryless.bytes, memoryless.sentinel, memoryless.short, memoryless.long⟩
    | sample now bytes =>
        cases updated
        exact memoryless.addBucket exponential short long now bytes

theorem memoryless_runTransfer (exponential : options.exponentialMovingAverage = true)
    (short : 0 < options.minIntervals.toInt) (long : 0 < options.maxIntervals.toInt)
    (ran : runTransfer options startTime rounds = some transfer) :
    Memoryless options rounds transfer.buckets := by
  induction rounds using List.reverseRecOn generalizing transfer with
  | nil =>
      cases ran
      refine ⟨rfl, rfl, fun k inside => ?_, fun k inside => ?_⟩
      · exact absurd inside (by simp [Transfer.start])
      · exact absurd inside (by simp [Transfer.start])
  | append_singleton rounds round ih =>
      rw [runTransfer, List.foldlM_append] at ran
      obtain ⟨before, earlier, updated⟩ := Option.bind_eq_some_iff.mp ran
      rw [List.foldlM_cons] at updated
      obtain ⟨after, last, same⟩ := Option.bind_eq_some_iff.mp updated
      cases same
      exact (ih earlier).update exponential short long last

end Updates

section Averages

variable {options : TransferOptions} {buckets : List Bucket} {bucket previous : Bucket}
  {rounds : List Round} {transfer : Transfer} {startTime : Int}

theorem speedBetween_nonneg_iff (later : previous.startTime < bucket.startTime) :
    0 ≤ speedBetween previous bucket ↔ previous.totalBytes ≤ bucket.totalBytes := by
  have micros : (0 : Rat) < ((bucket.startTime - previous.startTime : Int) : Rat) := by
    exact_mod_cast sub_pos.mpr later
  rw [speedBetween, toMegabits, le_div_iff₀ micros, zero_mul]
  constructor
  · intro speed
    have bytes : (0 : Rat) ≤ ((bucket.totalBytes - previous.totalBytes : Int) : Rat) := by linarith
    exact sub_nonneg.mp (by exact_mod_cast bytes)
  · intro more
    have bytes : (0 : Rat) ≤ ((bucket.totalBytes - previous.totalBytes : Int) : Rat) := by
      exact_mod_cast sub_nonneg.mpr more
    linarith

theorem speedBetween_eq_zero_iff (later : previous.startTime < bucket.startTime) :
    speedBetween previous bucket = 0 ↔ bucket.totalBytes = previous.totalBytes := by
  have micros : ((bucket.startTime - previous.startTime : Int) : Rat) ≠ 0 := by
    exact_mod_cast (sub_pos.mpr later).ne'
  have eight : (8 : Rat) ≠ 0 := by norm_num
  rw [speedBetween, toMegabits, div_eq_zero_iff, or_iff_left micros, mul_eq_zero,
    or_iff_right eight, Int.cast_eq_zero, sub_eq_zero]

theorem weight_pos {intervals : Int} (positive : 0 < intervals) : 0 < weight intervals := by
  have below : (0 : Rat) < intervals := by exact_mod_cast positive
  exact div_pos (by norm_num) (by linarith)

theorem weight_le_one {intervals : Int} (positive : 0 < intervals) : weight intervals ≤ 1 := by
  have below : (1 : Rat) ≤ intervals := by exact_mod_cast positive
  rw [weight, div_le_one (by linarith)]
  linarith

theorem weight_eq_one_iff {intervals : Int} (positive : 0 < intervals) :
    weight intervals = 1 ↔ intervals = 1 := by
  have below : (0 : Rat) < intervals := by exact_mod_cast positive
  rw [weight, div_eq_one_iff_eq (by linarith)]
  constructor
  · intro same
    have one : (intervals : Rat) = 1 := by linarith
    exact_mod_cast one
  · intro one
    rw [one]
    norm_num

theorem isChain_iff_bucketAt {related : Bucket → Bucket → Prop} :
    buckets.IsChain related ↔
      ∀ k, k + 1 < buckets.length → related (bucketAt buckets k) (bucketAt buckets (k + 1)) := by
  rw [List.isChain_iff_getElem]
  refine forall_congr' fun k => forall_congr' fun inside => ?_
  rw [bucketAt, bucketAt, List.getD_eq_getElem _ _ inside,
    List.getD_eq_getElem _ _ (Nat.lt_of_succ_lt inside)]

/-- The newest speed alone is the moving average if it has the whole weight, or if there were no
speeds before it. -/
theorem follows_iff {megabits : Bucket → Rat} {intervals : Int} (positive : 0 < intervals)
    (sentinel : megabits (bucketAt buckets 0) = 0)
    (newest : ∀ k, k + 1 < buckets.length →
      megabits (bucketAt buckets (k + 1)) = weight intervals * speedAfter buckets k) :
    Follows megabits intervals buckets ↔
      (∀ k, k + 1 < buckets.length → 0 ≤ speedAfter buckets k) ∧
        (intervals = 1 ∨ ∀ k, k + 2 < buckets.length → speedAfter buckets k = 0) := by
  have least := weight_pos positive
  constructor
  · intro follows
    refine ⟨fun k inside => ?_, ?_⟩
    · have average := (follows.bounded k inside).1
      rw [newest k inside] at average
      exact nonneg_of_mul_nonneg_right average least
    · by_cases one : intervals = 1
      · exact .inl one
      · refine .inr fun k inside => ?_
        have step := follows.moving.step (k + 1) (by omega)
        rw [newest (k + 1) inside, newest k (by omega), left_eq_add, mul_eq_zero, mul_eq_zero] at step
        have rest : 1 - weight intervals ≠ 0 := by
          rw [sub_ne_zero]
          exact fun whole => one ((weight_eq_one_iff positive).mp whole.symm)
        exact (step.resolve_left rest).resolve_left least.ne'
  · intro condition
    obtain ⟨speeds, single⟩ := condition
    have moving : MovingAverage (weight intervals) (speedAfter buckets)
        (fun k => megabits (bucketAt buckets k)) (buckets.length - 1) := by
      refine ⟨sentinel, fun n inside => ?_⟩
      have faded : (1 - weight intervals) * megabits (bucketAt buckets n) = 0 := by
        cases n with
        | zero => rw [sentinel, mul_zero]
        | succ n =>
            cases single with
            | inl one => rw [(weight_eq_one_iff positive).mpr one, sub_self, zero_mul]
            | inr silent => rw [newest n (by omega), silent n (by omega), mul_zero, mul_zero]
      rw [newest n (by omega), faded, add_zero]
    have samples : ∀ i < buckets.length - 1, 0 ≤ speedAfter buckets i :=
      fun i inside => speeds i (by omega)
    have most := weight_le_one positive
    refine ⟨moving, fun k inside => ⟨?_, ?_⟩, fun k inside => moving.weights (by omega)⟩
    · exact moving.nonneg least.le most samples (by omega)
    · exact moving.le_some least.le most samples (by omega)

theorem share_eq {intervals : BitVec 32} (positive : 0 < intervals.toInt) :
    share intervals =
      if intervals = BitVec.intMax 32 then -weight intervals.toInt else weight intervals.toInt := by
  unfold share weight
  split
  case isTrue largest =>
    have turned : (BitVec.intMax 32 + 1).toInt = -2147483648 := by decide
    have most : (BitVec.intMax 32).toInt = 2147483647 := by decide
    rw [largest, turned, most]
    norm_num
  case isFalse other =>
    have sum : (intervals + 1).toInt = intervals.toInt + 1 := by
      have apart : intervals.toNat ≠ 2 ^ 31 - 1 := fun same => other (BitVec.eq_of_toNat_eq same)
      have bound := intervals.isLt
      simp only [BitVec.toInt_eq_toNat_cond, BitVec.toNat_add] at positive ⊢
      split at positive
      · rw [if_pos (by simp; omega), if_pos (by omega)]
        simp
        omega
      · omega
    rw [sum, Int.cast_add, Int.cast_one]

/-- The largest number of intervals gives a negative share, which leaves an average of no bytes
only. -/
theorem follows_shared_iff {megabits : Bucket → Rat} {intervals : BitVec 32}
    (positive : 0 < intervals.toInt) (sentinel : megabits (bucketAt buckets 0) = 0)
    (newest : ∀ k, k + 1 < buckets.length →
      megabits (bucketAt buckets (k + 1)) = share intervals * speedAfter buckets k) :
    Follows megabits intervals.toInt buckets ↔
      (∀ k, k + 1 < buckets.length → 0 ≤ speedAfter buckets k) ∧
        (intervals = 1 ∨ ∀ k, k + 2 < buckets.length → speedAfter buckets k = 0) ∧
        (intervals ≠ BitVec.intMax 32 ∨
          ∀ k, k + 1 < buckets.length → speedAfter buckets k = 0) := by
  have one : intervals.toInt = 1 ↔ intervals = 1 :=
    ⟨fun same => BitVec.eq_of_toInt_eq same, fun same => same ▸ rfl⟩
  by_cases largest : intervals = BitVec.intMax 32
  case neg =>
    rw [share_eq positive, if_neg largest] at newest
    rw [follows_iff positive sentinel newest, one]
    simp [largest]
  have least := weight_pos positive
  rw [share_eq positive, if_pos largest] at newest
  constructor
  · intro follows
    have silent : ∀ k, k + 1 < buckets.length → speedAfter buckets k = 0 := by
      intro k
      induction k with
      | zero =>
          intro inside
          have step := follows.moving.step 0 (by omega)
          rw [sentinel, newest 0 inside] at step
          have twice : weight intervals.toInt * speedAfter buckets 0 = 0 := by linarith
          exact (mul_eq_zero.mp twice).resolve_left least.ne'
      | succ k ih =>
          intro inside
          have step := follows.moving.step (k + 1) (by omega)
          rw [newest (k + 1) inside, newest k (by omega), ih (by omega)] at step
          have twice : weight intervals.toInt * speedAfter buckets (k + 1) = 0 := by linarith
          exact (mul_eq_zero.mp twice).resolve_left least.ne'
    exact ⟨fun k inside => (silent k inside).ge, .inr fun k inside => silent k (by omega),
      .inr silent⟩
  · rintro ⟨speeds, single, fits⟩
    have silent := fits.resolve_left (not_not_intro largest)
    have newest' : ∀ k, k + 1 < buckets.length →
        megabits (bucketAt buckets (k + 1)) = weight intervals.toInt * speedAfter buckets k := by
      intro k inside
      rw [newest k inside, silent k inside, mul_zero, mul_zero]
    exact (follows_iff positive sentinel newest').mpr ⟨speeds, single.imp_left one.mpr⟩

theorem counted_iff (memoryless : Memoryless options rounds buckets)
    (increasing : buckets.IsChain fun previous bucket => previous.startTime < bucket.startTime) :
    (∀ k, k + 1 < buckets.length → 0 ≤ speedAfter buckets k) ↔
      (0 :: bytesRead rounds).IsChain (· ≤ ·) := by
  rw [← memoryless.bytes, List.isChain_map, isChain_iff_bucketAt]
  refine forall_congr' fun k => forall_congr' fun inside => ?_
  exact speedBetween_nonneg_iff (isChain_iff_bucketAt.mp increasing k inside)

/-- No speed in some first intervals is no byte in as many first rounds. -/
theorem silent_iff (memoryless : Memoryless options rounds buckets)
    (increasing : buckets.IsChain fun previous bucket => previous.startTime < bucket.startTime)
    (count : Nat) (few : count < buckets.length) :
    (∀ k < count, speedAfter buckets k = 0) ↔ ∀ bytes ∈ (bytesRead rounds).take count, bytes = 0 := by
  have length := memoryless.length
  have still : ∀ k < count, (speedAfter buckets k = 0 ↔
      (bucketAt buckets (k + 1)).totalBytes = (bucketAt buckets k).totalBytes) := fun k inside =>
    speedBetween_eq_zero_iff (isChain_iff_bucketAt.mp increasing k (by omega))
  have read : ∀ k (inside : k < (bytesRead rounds).length),
      (bucketAt buckets (k + 1)).totalBytes = (bytesRead rounds)[k] := by
    intro k inside
    have here : k + 1 < buckets.length := by omega
    have same := List.getElem_of_eq memoryless.bytes ((List.length_map _).symm ▸ here)
    rw [List.getElem_map, List.getElem_cons_succ] at same
    rw [bucketAt, List.getD_eq_getElem _ _ here, same]
  have first : (bucketAt buckets 0).totalBytes = 0 := by
    rw [memoryless.sentinel]
    rfl
  constructor
  · intro silent bytes member
    have none_read : ∀ j < count, (bucketAt buckets (j + 1)).totalBytes = 0 := by
      intro j before
      induction j with
      | zero => rw [(still 0 before).mp (silent 0 before), first]
      | succ j ih => rw [(still (j + 1) before).mp (silent (j + 1) before), ih (by omega)]
    obtain ⟨k, inside, same⟩ := List.getElem_of_mem member
    rw [List.length_take] at inside
    rw [← same, List.getElem_take, ← read k (by omega)]
    exact none_read k (by omega)
  · intro empty k inside
    have none_read : ∀ j < count, (bucketAt buckets (j + 1)).totalBytes = 0 := by
      intro j before
      have kept : j < ((bytesRead rounds).take count).length := by
        rw [List.length_take]
        omega
      have zero := empty _ (List.getElem_mem kept)
      rw [List.getElem_take] at zero
      rw [read j (by omega), zero]
    rw [still k inside, none_read k inside]
    cases k with
    | zero => exact first.symm
    | succ k => exact (none_read k (by omega)).symm

/-- The same before the last round, and in all rounds. -/
theorem silence (memoryless : Memoryless options rounds buckets)
    (increasing : buckets.IsChain fun previous bucket => previous.startTime < bucket.startTime) :
    ((∀ k, k + 2 < buckets.length → speedAfter buckets k = 0) ↔
      ∀ bytes ∈ (bytesRead rounds).dropLast, bytes = 0) ∧
    ((∀ k, k + 1 < buckets.length → speedAfter buckets k = 0) ↔
      ∀ bytes ∈ bytesRead rounds, bytes = 0) := by
  have length := memoryless.length
  constructor
  · have early := silent_iff memoryless increasing ((bytesRead rounds).length - 1) (by omega)
    rw [List.dropLast_eq_take, ← early]
    exact forall_congr' fun k => imp_congr_left (by omega)
  · have all := silent_iff memoryless increasing (bytesRead rounds).length (by omega)
    rw [List.take_length] at all
    rw [← all]
    exact forall_congr' fun k => imp_congr_left (by omega)

theorem follows_both_iff (exponential : options.exponentialMovingAverage = true)
    (short : 0 < options.minIntervals.toInt) (long : 0 < options.maxIntervals.toInt)
    (ran : runTransfer options startTime rounds = some transfer)
    (increasing : transfer.buckets.IsChain fun previous bucket =>
      previous.startTime < bucket.startTime) :
    FollowsBoth options transfer.buckets ↔ Unaveraged options rounds := by
  have memoryless := memoryless_runTransfer exponential short long ran
  have shortly := @follows_shared_iff transfer.buckets Bucket.shortMegabits _ short
    (by rw [memoryless.sentinel]; rfl) memoryless.short
  have longly := @follows_shared_iff transfer.buckets Bucket.longMegabits _ long
    (by rw [memoryless.sentinel]; rfl) memoryless.long
  obtain ⟨early, all⟩ := silence memoryless increasing
  rw [counted_iff memoryless increasing, early, all] at shortly longly
  constructor
  · intro follows
    obtain ⟨counted, one, fits⟩ := shortly.mp follows.short
    obtain ⟨_, other, fits'⟩ := longly.mp follows.long
    refine ⟨counted, ?_, ?_⟩
    · cases one with
      | inl one => exact other.imp_left fun other => ⟨one, other⟩
      | inr silent => exact .inr silent
    · cases fits with
      | inl fits => exact fits'.imp_left fun fits' => ⟨fits, fits'⟩
      | inr silent => exact .inr silent
  · intro unaveraged
    exact ⟨shortly.mpr ⟨unaveraged.counted, unaveraged.single.imp_left And.left,
        unaveraged.fits.imp_left And.left⟩,
      longly.mpr ⟨unaveraged.counted, unaveraged.single.imp_left And.right,
        unaveraged.fits.imp_left And.right⟩⟩

/-- With one interval, the averages are the speeds themselves. -/
def singleOptions : TransferOptions where
  minRuntimeMillis := 5000
  maxRuntimeMillis := 20000
  minIntervals := 1
  maxIntervals := 1
  maxVariance := 0
  exponentialMovingAverage := true

def singleTransfer : Transfer where
  buckets := [.empty, ⟨125000, 1000000, 1, 1⟩, ⟨375000, 2000000, 2, 2⟩]
  totalBytes := 375000
  speedMbps := 2
  localCancel := false

theorem follows_both_single : FollowsBoth singleOptions singleTransfer.buckets :=
  (@follows_both_iff singleOptions [.sample 1000000 125000, .sample 2000000 375000] singleTransfer 0
    rfl (by decide) (by decide) (by decide +kernel) (by decide)).mpr
    ⟨by decide, .inl ⟨rfl, rfl⟩, .inl (by decide)⟩

def steadyOptions : TransferOptions :=
  { singleOptions with minIntervals := 3, maxIntervals := 3 }

/-- The speed is one megabit both times. -/
def steadyTransfer : Transfer where
  buckets := [.empty, ⟨125000, 1000000, 1 / 2, 1 / 2⟩, ⟨250000, 2000000, 1 / 2, 1 / 2⟩]
  totalBytes := 250000
  speedMbps := 1 / 2
  localCancel := false

/-- Of the first speed nothing is left in the second average. -/
theorem average_forgets :
    runTransfer steadyOptions 0 [.sample 1000000 125000, .sample 2000000 250000] =
        some steadyTransfer ∧
      ¬FollowsBoth steadyOptions steadyTransfer.buckets := by
  refine ⟨by decide +kernel, fun follows => ?_⟩
  have step := follows.short.moving.step 1 (by decide)
  revert step
  decide +kernel

end Averages

end Gfiber.Speedtest
