import Mathlib.Algebra.BigOperators.Fin
import Mathlib.Algebra.BigOperators.Ring.Finset
import Gfiber.Spectral.Buckets
import Gfiber.Spectral.ScanProperties

/-! When the totals of a full scan are the sums of its buckets, and each channel has some. -/

set_option autoImplicit false

namespace Gfiber.Spectral

open Lib

section Counting

/-- How often a bucket of a frequency and a power is among the updates. -/
def countOf (updates : List (Int × Int)) (freq : Fin numFreqBuckets) (power : Fin numPowerBuckets) :
    Nat :=
  updates.count ((freq : Int), (power : Int))

/-- The buckets hold the number of the updates, as far as they can. -/
structure Counts (buckets : BucketResults) (updates : List (Int × Int)) : Prop where
  counted : ∀ freq power,
    buckets.bucketCount freq power = BitVec.ofNat 32 (countOf updates freq power)
  summed : ∀ freq, buckets.total freq = BitVec.ofNat 16 (∑ power, countOf updates freq power)

theorem counts_start : Counts .start [] where
  counted freq power := rfl
  summed freq := by simp [countOf, BucketResults.start]

theorem countOf_snoc (updates : List (Int × Int)) (freq other : Fin numFreqBuckets)
    (power strength : Fin numPowerBuckets) :
    countOf (updates ++ [((freq : Int), (power : Int))]) other strength =
      countOf updates other strength + if other = freq ∧ strength = power then 1 else 0 := by
  rw [countOf, List.count_append, List.count_singleton, countOf]
  congr 1
  by_cases same : other = freq ∧ strength = power
  · obtain ⟨rfl, rfl⟩ := same
    simp
  · rw [if_neg same, if_neg]
    intro equal
    obtain ⟨first, second⟩ := Prod.mk.inj (beq_iff_eq.mp equal)
    exact same ⟨Fin.ext (by omega), Fin.ext (by omega)⟩

theorem Counts.increment {buckets : BucketResults} {updates : List (Int × Int)}
    (counts : Counts buckets updates) (freq : Fin numFreqBuckets) (power : Fin numPowerBuckets) :
    Counts (buckets.increment freq power) (updates ++ [((freq : Int), (power : Int))]) where
  counted other strength := by
    rw [countOf_snoc, BucketResults.increment]
    dsimp only
    split
    case isTrue same =>
      rw [counts.counted, BitVec.ofNat_add]
      rfl
    case isFalse => rw [counts.counted, Nat.add_zero]
  summed other := by
    simp only [countOf_snoc, Finset.sum_add_distrib, BucketResults.increment]
    by_cases same : other = freq
    · simp only [same, counts.summed, if_true, true_and, Finset.sum_ite_eq', Finset.mem_univ,
        BitVec.ofNat_add]
      rfl
    · simp [same, counts.summed]

theorem Counts.count {buckets : BucketResults} {updates : List (Int × Int)}
    (counts : Counts buckets updates) {update : Int × Int} (inside : InArrays update) :
    ∃ next, buckets.count update = some next ∧ Counts next (updates ++ [update]) := by
  have incremented := counts.increment ⟨update.1.toNat, by have := inside.1; omega⟩
    ⟨update.2.toNat, by have := inside.2; omega⟩
  have same : (((update.1.toNat : Nat) : Int), ((update.2.toNat : Nat) : Int)) = update := by
    have first := inside.1.1
    have second := inside.2.1
    exact Prod.ext (by simp [first]) (by simp [second])
  rw [same] at incremented
  exact ⟨_, dif_pos inside, incremented⟩

/-- When each item is counted as some updates, a list of them is counted as all of these. -/
theorem counts_foldlM {Item : Type} {step : BucketResults → Item → Option BucketResults}
    {updatesOf : Item → List (Int × Int)} {items : List Item}
    (counted : ∀ item ∈ items, ∀ {buckets earlier}, Counts buckets earlier →
      ∃ next, step buckets item = some next ∧ Counts next (earlier ++ updatesOf item))
    {buckets : BucketResults} {earlier : List (Int × Int)} (counts : Counts buckets earlier) :
    ∃ next, items.foldlM step buckets = some next ∧
      Counts next (earlier ++ items.flatMap updatesOf) := by
  induction items generalizing buckets earlier with
  | nil => exact ⟨buckets, rfl, by rwa [List.flatMap_nil, List.append_nil]⟩
  | cons item items ih =>
      rw [List.forall_mem_cons] at counted
      obtain ⟨middle, once, first⟩ := counted.1 counts
      obtain ⟨next, rest, last⟩ := ih counted.2 first
      rw [List.append_assoc] at last
      exact ⟨next, by rw [List.foldlM_cons, once]; exact rest, last⟩

end Counting

section Scans

theorem Counts.addPass {pass : Pass} (inside : ∀ update ∈ pass.updates, InArrays update)
    {buckets : BucketResults} {earlier : List (Int × Int)} (counts : Counts buckets earlier) :
    ∃ next, buckets.addPass pass = some next ∧ Counts next (earlier ++ pass.updates) := by
  have stamped : Counts
      { buckets with timestamp := pass.timestamp.getD buckets.timestamp } earlier :=
    ⟨counts.counted, counts.summed⟩
  have single : ∀ update ∈ pass.updates, ∀ {buckets earlier}, Counts buckets earlier →
      ∃ next, buckets.count update = some next ∧ Counts next (earlier ++ [update]) :=
    fun update member _ _ counts => counts.count (inside update member)
  obtain ⟨next, added, after⟩ := counts_foldlM single stamped
  rw [List.flatMap_singleton'] at after
  exact ⟨next, added, after⟩

/-- What a full scan counts. -/
def scanned (machine : Machine) (buffers : List Buffer) : List (Int × Int) :=
  buffers.flatMap fun buffer => (appendResults machine buffer).flatMap Pass.updates

/-- A full scan whose updates are in the arrays counts them. -/
theorem executeFullScan_counts {machine : Machine} {buffers : List Buffer}
    (inside : ∀ buffer ∈ buffers, ∀ pass ∈ appendResults machine buffer,
      ∀ update ∈ pass.updates, InArrays update) :
    ∃ result, executeFullScan machine buffers = some result ∧
      Counts result (scanned machine buffers) :=
  counts_foldlM (fun buffer called _ _ counts =>
    counts_foldlM (fun pass member _ _ counts => counts.addPass (inside buffer called pass member))
      counts) counts_start

end Scans

section Totals

variable {result : BucketResults} {updates : List (Int × Int)}

/-- The total of each frequency is the sum of its buckets. -/
def TotalsAgree (result : BucketResults) : Prop :=
  ∀ freq, (result.total freq).toNat = ∑ power, (result.bucketCount freq power).toNat

theorem Counts.total_toNat (counts : Counts result updates) (freq : Fin numFreqBuckets) :
    (result.total freq).toNat = (∑ power, (result.bucketCount freq power).toNat) % 2 ^ 16 := by
  have wrapped : ∀ power, (result.bucketCount freq power).toNat % 2 ^ 16 =
      countOf updates freq power % 2 ^ 16 := by
    intro power
    rw [counts.counted, BitVec.toNat_ofNat]
    exact Nat.mod_mod_of_dvd _ (by decide)
  rw [counts.summed, BitVec.toNat_ofNat, Finset.sum_nat_mod,
    Finset.sum_nat_mod _ _ fun power => (result.bucketCount freq power).toNat]
  simp only [wrapped]

/-- The totals are narrower than the buckets. -/
theorem Counts.totalsAgree_iff (counts : Counts result updates) :
    TotalsAgree result ↔ ∀ freq, ∑ power, countOf updates freq power % 2 ^ 32 < 2 ^ 16 := by
  refine forall_congr' fun freq => ?_
  have buckets : ∀ power, (result.bucketCount freq power).toNat =
      countOf updates freq power % 2 ^ 32 := fun power => by
    rw [counts.counted, BitVec.toNat_ofNat]
  rw [counts.total_toNat]
  simp only [buckets]
  exact Nat.mod_eq_iff_lt (by decide)

end Totals

section Windows

variable {result : BucketResults}

theorem foldl_add_eq {Item : Type} (value : Item → Nat) (items : List Item) (first : Nat) :
    items.foldl (fun total item => total + (value item : Int)) (first : Int) =
      ((first + (items.map value).sum : Nat) : Int) := by
  induction items generalizing first with
  | nil => simp
  | cons item items ih =>
      rw [List.foldl_cons, ← Int.natCast_add, ih, List.map_cons, List.sum_cons, Nat.add_assoc]

theorem overallTotal_eq (channel : Channel) :
    overallTotal result channel =
      (((window channel).map fun freq => (result.total freq).toNat).sum : Nat) := by
  have summed := foldl_add_eq (fun freq => (result.total freq).toNat) (window channel) 0
  rw [Nat.zero_add] at summed
  exact summed

theorem toInt_add_eq {total : Nat} {counter : BitVec 32} (small : total + counter.toNat < 2 ^ 31) :
    (BitVec.ofInt 32 (total : Int) + counter).toInt = ((total + counter.toNat : Nat) : Int) := by
  have sum : (BitVec.ofInt 32 (total : Int) + counter).toNat = total + counter.toNat := by
    rw [BitVec.ofInt_natCast, BitVec.toNat_add, BitVec.toNat_ofNat]
    omega
  rw [BitVec.toInt_eq_toNat_of_lt (by omega), sum]

/-- Counters that are small enough are added as they are. -/
theorem foldl_toInt_eq {Item : Type} (counter : Item → BitVec 32) (items : List Item) (first : Nat)
    (small : first + (items.map fun item => (counter item).toNat).sum < 2 ^ 31) :
    items.foldl (fun total item => (BitVec.ofInt 32 total + counter item).toInt) (first : Int) =
      ((first + (items.map fun item => (counter item).toNat).sum : Nat) : Int) := by
  induction items generalizing first with
  | nil => simp
  | cons item items ih =>
      rw [List.map_cons, List.sum_cons, ← Nat.add_assoc] at small ⊢
      rw [List.foldl_cons, toInt_add_eq (by omega), ih _ small]

theorem mapM_some_iff {Item Result : Type} {f : Item → Option Result} {items : List Item}
    {property : Result → Prop} :
    (∃ results, items.mapM f = some results ∧ ∀ result ∈ results, property result) ↔
      ∀ item ∈ items, ∃ result, f item = some result ∧ property result := by
  induction items with
  | nil => simp
  | cons item items ih =>
      rw [List.forall_mem_cons, ← ih]
      constructor
      · rintro ⟨results, found, all⟩
        rw [List.mapM_cons] at found
        obtain ⟨first, once, found⟩ := Option.bind_eq_some_iff.mp found
        obtain ⟨rest, others, same⟩ := Option.bind_eq_some_iff.mp found
        cases same
        rw [List.forall_mem_cons] at all
        exact ⟨⟨first, once, all.1⟩, rest, others, all.2⟩
      · rintro ⟨⟨first, once, held⟩, rest, others, all⟩
        refine ⟨first :: rest, ?_, List.forall_mem_cons.mpr ⟨held, all⟩⟩
        rw [List.mapM_cons, once, others]
        rfl

/-- The percentages are printed, and lie between 0 and 100. -/
def PercentagesShown (result : BucketResults) : Prop :=
  ∃ rows, postBuckets result = some rows ∧ ∀ row ∈ rows, ∀ perct ∈ row, 0 ≤ perct ∧ perct ≤ 100

/-- A part of a total that is not zero is a percentage. -/
theorem percent_shown_iff {part total : Nat} (least : part ≤ total) (small : total < 2 ^ 20) :
    (∃ perct, percent part total = some perct ∧ 0 ≤ perct ∧ perct ≤ 100) ↔ total ≠ 0 := by
  have fits : ¬¬(-2 ^ 31 ≤ (part : Int) * 100 ∧ (part : Int) * 100 < 2 ^ 31) := by
    rw [not_not]
    omega
  rw [percent, if_neg fits]
  by_cases zero : total = 0
  · simp [zero]
  · have whole : ¬(total : Int) = 0 := by omega
    rw [if_neg whole, tdiv_eq_ediv (by omega)]
    have most : (part : Int) * 100 / total ≤ 100 := by
      apply Int.ediv_le_of_le_mul (by omega)
      omega
    have least : 0 ≤ (part : Int) * 100 / total := Int.ediv_nonneg (by omega) (by omega)
    exact iff_of_true ⟨_, rfl, least, most⟩ zero

/-- No bucket of a window has more than the window. -/
theorem window_part_le (agree : TotalsAgree result) (channel : Channel)
    (power : Fin numPowerBuckets) :
    ((window channel).map fun freq => (result.bucketCount freq power).toNat).sum ≤
      ((window channel).map fun freq => (result.total freq).toNat).sum := by
  apply List.sum_le_sum
  intro freq _
  rw [agree freq]
  exact Finset.single_le_sum (f := fun power => (result.bucketCount freq power).toNat)
    (fun _ _ => Nat.zero_le _) (Finset.mem_univ power)

theorem window_total_lt (result : BucketResults) (channel : Channel) :
    ((window channel).map fun freq => (result.total freq).toNat).sum < 2 ^ 20 := by
  have each : ∀ total ∈ (window channel).map fun freq => (result.total freq).toNat,
      total ≤ 2 ^ 16 := by
    intro total member
    obtain ⟨freq, _, rfl⟩ := List.mem_map.mp member
    exact (result.total freq).isLt.le
  have most := List.sum_le_card_nsmul _ _ each
  rw [List.length_map, window, List.length_map, List.length_finRange] at most
  exact lt_of_le_of_lt most (by decide)

theorem percentagesShown_iff (agree : TotalsAgree result) :
    PercentagesShown result ↔
      ∀ channel, ∃ freq ∈ window channel, (result.total freq).toNat ≠ 0 := by
  rw [PercentagesShown, postBuckets, mapM_some_iff]
  simp only [List.mem_finRange, forall_const]
  refine forall_congr' fun channel => ?_
  have least := window_part_le agree channel
  have small := window_total_lt result channel
  have row : ∀ power, (∃ perct, percent (bucketTotal result channel power)
      (overallTotal result channel) = some perct ∧ 0 ≤ perct ∧ perct ≤ 100) ↔
      ((window channel).map fun freq => (result.total freq).toNat).sum ≠ 0 := by
    intro power
    have part : bucketTotal result channel power = _ :=
      foldl_toInt_eq (fun freq => result.bucketCount freq power) (window channel) 0
        (by have := least power; omega)
    rw [part, overallTotal_eq, Nat.zero_add]
    exact percent_shown_iff (least power) small
  have some_power : (∀ _ : Fin numPowerBuckets,
      ((window channel).map fun freq => (result.total freq).toNat).sum ≠ 0) ↔
      ((window channel).map fun freq => (result.total freq).toNat).sum ≠ 0 :=
    ⟨fun all => all ⟨0, by decide⟩, fun nonzero _ => nonzero⟩
  rw [mapM_some_iff]
  simp only [List.mem_finRange, forall_const, row]
  rw [some_power, Ne, List.sum_eq_zero_iff]
  simp

end Windows

section Records

variable (machine : Machine) (buffers : List Buffer)

instance (buffer : Buffer) (pos : Nat) : Decidable (IsFftData buffer pos) :=
  inferInstanceAs (Decidable (_ ∧ _))

/-- The frequency and the power that each group of bins of a record is counted for. -/
def groupsAt (machine : Machine) (buffer : Buffer) (pos : Nat) : List (Int × Int) :=
  if IsFftData buffer pos ∧ squareSum machine buffer pos ≠ 0 then
    (List.range 4).map fun group : Nat =>
      (((buffer.number freq pos : Int) - 2412) / 5 + group,
        powerBucketIndex (groupMax (buffer.signal pos) group))
  else []

def recorded (machine : Machine) (buffers : List Buffer) : List (Int × Int) :=
  buffers.flatMap fun buffer => (starts buffer 0).flatMap (groupsAt machine buffer)

/-- The records of a full scan: they are for its frequencies, and their powers are in range. -/
def ScanRecords (machine : Machine) (buffers : List Buffer) : Prop :=
  ∀ buffer ∈ buffers, ∀ pos ∈ starts buffer 0, IsFftData buffer pos →
    (∃ step ≤ 10, buffer.number freq pos = 2412 + 5 * step) ∧
      ∀ group ∈ groupsAt machine buffer pos, 0 ≤ group.2 ∧ group.2 < numPowerBuckets

theorem groupsAt_eq {buffer : Buffer} {pos : Nat} (known : IsFftData buffer pos →
    ∃ step ≤ 10, buffer.number freq pos = 2412 + 5 * step) :
    (pass machine buffer pos).updates = groupsAt machine buffer pos := by
  by_cases data : IsFftData buffer pos
  · obtain ⟨step, few, tuned⟩ := known data
    have band : InBand buffer pos := by
      rw [InBand, tuned]
      omega
    by_cases empty : squareSum machine buffer pos = 0
    · rw [pass_empty machine buffer data band empty, groupsAt, if_neg fun both => both.2 empty]
    · have offset := binOffset_eq band.1
      have bucket : binOffset (buffer.number freq pos) / 14 =
          ((buffer.number freq pos : Int) - 2412) / 5 := by
        rw [offset, tuned]
        push_cast
        omega
      rw [pass_counted machine buffer data band empty, groupsAt, if_pos ⟨data, empty⟩]
      dsimp only
      rw [updates_eq _ (by omega), bucket]
  · rw [pass_other machine buffer data, groupsAt, if_neg fun both => data both.1]

theorem groupsAt_inArrays {buffer : Buffer} {pos : Nat} {step : Nat} (few : step ≤ 10)
    (tuned : buffer.number freq pos = 2412 + 5 * step)
    (strong : ∀ group ∈ groupsAt machine buffer pos, 0 ≤ group.2 ∧ group.2 < numPowerBuckets) :
    ∀ group ∈ groupsAt machine buffer pos, InArrays group := by
  intro group member
  refine ⟨?_, strong group member⟩
  rw [groupsAt] at member
  split at member
  case isTrue =>
    obtain ⟨index, below, rfl⟩ := List.mem_map.mp member
    have four := List.mem_range.mp below
    simp only [tuned, numFreqBuckets]
    push_cast
    omega
  case isFalse => cases member

theorem scanned_eq (records : ScanRecords machine buffers) :
    scanned machine buffers = recorded machine buffers := by
  rw [scanned, recorded]
  refine List.flatMap_congr fun buffer called => ?_
  rw [appendResults, passes_eq_map, List.flatMap_map]
  exact List.flatMap_congr fun pos start =>
    groupsAt_eq machine fun data => (records buffer called pos start data).1

theorem updates_inArrays (records : ScanRecords machine buffers) :
    ∀ buffer ∈ buffers, ∀ pass ∈ appendResults machine buffer,
      ∀ update ∈ pass.updates, InArrays update := by
  intro buffer called passed member
  rw [appendResults, passes_eq_map] at member
  obtain ⟨pos, start, rfl⟩ := List.mem_map.mp member
  rw [groupsAt_eq machine fun data => (records buffer called pos start data).1]
  by_cases data : IsFftData buffer pos
  · obtain ⟨⟨step, few, tuned⟩, strong⟩ := records buffer called pos start data
    exact groupsAt_inArrays machine few tuned strong
  · rw [groupsAt, if_neg fun both => data both.1]
    simp

theorem Counts.total_ne_zero_iff {result : BucketResults} {updates : List (Int × Int)}
    (counts : Counts result updates) (agree : TotalsAgree result) (freq : Fin numFreqBuckets) :
    (result.total freq).toNat ≠ 0 ↔ ∃ power, countOf updates freq power % 2 ^ 32 ≠ 0 := by
  rw [agree freq, Ne, Finset.sum_eq_zero_iff]
  simp [counts.counted]

/-- After a full scan the totals agree and the percentages are shown exactly when each frequency
has been counted less often than a total can hold, and each channel has been counted. -/
theorem percentages_iff (records : ScanRecords machine buffers) :
    ∃ result, executeFullScan machine buffers = some result ∧
      (TotalsAgree result ∧ PercentagesShown result ↔
        (∀ freq, ∑ power, countOf (recorded machine buffers) freq power % 2 ^ 32 < 2 ^ 16) ∧
        ∀ channel, ∃ freq ∈ window channel, ∃ power,
          countOf (recorded machine buffers) freq power % 2 ^ 32 ≠ 0) := by
  obtain ⟨result, scanned, counts⟩ :=
    executeFullScan_counts (updates_inArrays machine buffers records)
  rw [scanned_eq machine buffers records] at counts
  refine ⟨result, scanned, ?_⟩
  rw [← counts.totalsAgree_iff]
  refine and_congr_right fun agree => ?_
  rw [percentagesShown_iff agree]
  simp only [counts.total_ne_zero_iff agree]

/-- A full scan in which each buffer has one record, on a frequency of its own. -/
def exampleScan : List Buffer :=
  (List.range 11).map fun step => exampleBuffer (exampleRecord (2412 + 5 * step)) (-50)

theorem starts_exampleRecord (freq : Nat) (signal : ℚ) :
    starts (exampleBuffer (exampleRecord freq) signal) 0 = [0] := by
  have size : (exampleBuffer (exampleRecord freq) signal).size = 76 := by
    simp [exampleBuffer, exampleRecord]
  have bytes : (exampleBuffer (exampleRecord freq) signal).read tlvLen 0 = [0, 73] := rfl
  have length : dataLen (exampleBuffer (exampleRecord freq) signal) 0 = 76 := by
    rw [dataLen, Buffer.number, bytes]
    decide
  rw [starts, size, if_pos (by decide), length, starts, size, if_neg (by decide)]

theorem freq_exampleRecord {step : Nat} (below : step < 11) :
    (exampleBuffer (exampleRecord (2412 + 5 * step)) (-50)).number freq 0 = 2412 + 5 * step := by
  have fits : 2412 + 5 * step < 256 ^ 2 := by omega
  have bytes : (exampleBuffer (exampleRecord (2412 + 5 * step)) (-50)).read freq 0 =
      bigEndian 2 (2412 + 5 * step) := rfl
  rw [Buffer.number, bytes]
  exact ofBigEndian_bigEndian fits

theorem groupMax_const (group : Nat) : groupMax (fun _ => -50) group = -50 := by
  norm_num [groupMax, maxFrom, List.range']

/-- A record of the scan is counted for four frequencies. -/
theorem groupsAt_exampleRecord {step : Nat} (below : step < 11) :
    groupsAt exampleMachine (exampleBuffer (exampleRecord (2412 + 5 * step)) (-50)) 0 =
      (List.range 4).map fun group : Nat => ((step : Int) + group, 6) := by
  have data : IsFftData (exampleBuffer (exampleRecord (2412 + 5 * step)) (-50)) 0 := by
    have type : (exampleBuffer (exampleRecord (2412 + 5 * step)) (-50)).read tlvType 0 = [1] := rfl
    have length : (exampleBuffer (exampleRecord (2412 + 5 * step)) (-50)).read tlvLen 0 =
        [0, 73] := rfl
    rw [IsFftData, Buffer.number, Buffer.number, type, length]
    decide
  have sum : squareSum exampleMachine (exampleBuffer (exampleRecord (2412 + 5 * step)) (-50)) 0 ≠
      0 := by
    have values : (exampleBuffer (exampleRecord (2412 + 5 * step)) (-50)).read fftValues 0 =
        1 :: List.replicate 55 0 := rfl
    have exponent : (exampleBuffer (exampleRecord (2412 + 5 * step)) (-50)).read maxExponent 0 =
        [0] := rfl
    rw [squareSum, values, Buffer.number, exponent]
    decide +kernel
  rw [groupsAt, if_pos ⟨data, sum⟩]
  refine List.map_congr_left fun group _ => ?_
  have strong : groupMax ((exampleBuffer (exampleRecord (2412 + 5 * step)) (-50)).signal 0) group =
      -50 := groupMax_const group
  have power : powerBucketIndex (-50) = 6 := by decide +kernel
  rw [freq_exampleRecord below, strong, power]
  refine Prod.ext ?_ rfl
  dsimp only
  omega

theorem exampleScan_records : ScanRecords exampleMachine exampleScan := by
  intro buffer called pos start _
  obtain ⟨step, below, rfl⟩ := List.mem_map.mp called
  have few := List.mem_range.mp below
  rw [starts_exampleRecord, List.mem_singleton] at start
  subst start
  refine ⟨⟨step, by omega, freq_exampleRecord few⟩, fun group member => ?_⟩
  rw [groupsAt_exampleRecord few] at member
  obtain ⟨index, _, rfl⟩ := List.mem_map.mp member
  exact ⟨show (0 : Int) ≤ 6 by decide, show (6 : Int) < numPowerBuckets by decide⟩

theorem recorded_exampleScan : recorded exampleMachine exampleScan =
    (List.range 11).flatMap fun step : Nat =>
      (List.range 4).map fun group : Nat => ((step : Int) + group, 6) := by
  rw [recorded, exampleScan, List.flatMap_map]
  refine List.flatMap_congr fun step member => ?_
  rw [starts_exampleRecord, List.flatMap_singleton,
    groupsAt_exampleRecord (List.mem_range.mp member)]

theorem percentages_example :
    ∃ result, executeFullScan exampleMachine exampleScan = some result ∧
      TotalsAgree result ∧ PercentagesShown result := by
  obtain ⟨result, scanned, agree⟩ :=
    percentages_iff exampleMachine exampleScan exampleScan_records
  rw [recorded_exampleScan] at agree
  exact ⟨result, scanned, agree.mpr ⟨by decide +kernel, by decide +kernel⟩⟩

def emptyScan : List Buffer :=
  List.replicate 11 (exampleBuffer [] 0)

/-- A scan without a record divides by zero. -/
theorem empty_scan :
    ScanRecords exampleMachine emptyScan ∧
      executeFullScan exampleMachine emptyScan = some .start ∧
      overallTotal .start 0 = 0 ∧ postBuckets .start = none := by
  have nothing : appendResults exampleMachine (exampleBuffer [] 0) = [] := by
    rw [appendResults, passes, if_neg (by decide)]
  refine ⟨fun buffer called pos start => ?_, ?_, rfl, by decide +kernel⟩
  · rw [List.eq_of_mem_replicate called, starts, if_neg (by decide)] at start
    cases start
  · simp only [executeFullScan, emptyScan, List.replicate, List.foldlM_cons,
      BucketResults.addResults, nothing]
    rfl

end Records

end Gfiber.Spectral
