import Mathlib.Algebra.Order.Floor.Ring
import Mathlib.Tactic.Linarith
import Gfiber.Spectral.Scan

/-! When a scan reads and counts inside of its arrays. -/

set_option autoImplicit false

namespace Gfiber.Spectral

open Lib

section Indices

theorem tdiv_eq_ediv {value divisor : Int} (natural : 0 ≤ value) :
    value.tdiv divisor = value / divisor :=
  Int.tdiv_eq_ediv_of_nonneg natural

/-- The bins are those of 2412 to 2481 MHz. -/
theorem binOffset_valid_iff (freq : Nat) :
    ¬(binOffset freq < 0 ∨ binOffset freq ≥ numOverallBins) ↔ 2412 ≤ freq ∧ freq ≤ 2481 := by
  simp only [binOffset, freqStepBinOffset, minScanFreq, freqStep, numOverallBins]
  by_cases low : 2412 ≤ freq
  · rw [tdiv_eq_ediv (by omega)]
    omega
  · have mirrored : (14 * ((freq : Int) - 2412)).tdiv 5 = -((14 * (2412 - (freq : Int))) / 5) := by
      rw [← tdiv_eq_ediv (by omega), ← Int.neg_tdiv]
      congr 1
      omega
    rw [mirrored]
    omega

theorem binOffset_eq {freq : Nat} (low : 2412 ≤ freq) :
    binOffset freq = 14 * ((freq : Int) - 2412) / 5 := by
  simp only [binOffset, freqStepBinOffset, minScanFreq, freqStep]
  exact tdiv_eq_ediv (by omega)

/-- The last bin of a group is counted in the bucket of its first. -/
theorem freqBucketIndex_eq {binOffset : Int} (natural : 0 ≤ binOffset) (group : Nat) :
    freqBucketIndex binOffset (14 * group + 13) = binOffset / 14 + group := by
  simp only [freqBucketIndex, binsPerBucket]
  rw [tdiv_eq_ediv (by push_cast; omega)]
  push_cast
  omega

theorem truncate_of_neg {value : ℚ} (negative : value < 0) : truncate value = ⌈value⌉ := by
  rw [truncate, if_pos negative]

/-- Signals just below the upper end are counted behind the last bucket. -/
theorem powerBucketIndex_valid_iff (bucketMax : ℚ) :
    (0 ≤ powerBucketIndex bucketMax ∧ powerBucketIndex bucketMax < numPowerBuckets) ↔
      ¬(-21 < bucketMax ∧ bucketMax < -20) := by
  simp only [powerBucketIndex, lowerPowerBucketMin, upperPowerBucketMax, powerBucketStep,
    numPowerBuckets]
  push_cast
  by_cases low : bucketMax ≤ -80
  · rw [if_pos low]
    refine iff_of_true (by decide) fun between => ?_
    linarith [between.1]
  · rw [if_neg low]
    by_cases high : bucketMax ≥ -20
    · rw [if_pos high]
      refine iff_of_true (by decide) fun between => ?_
      linarith [between.2]
    · rw [if_neg high]
      have above : -80 < bucketMax := not_le.mp low
      have below : bucketMax < -20 := not_le.mp high
      rw [truncate_of_neg (by linarith)]
      have least : -80 < ⌈bucketMax⌉ := by
        rw [Int.lt_ceil]
        exact_mod_cast above
      have most : ⌈bucketMax⌉ ≤ -20 := by
        rw [Int.ceil_le]
        push_cast
        exact below.le
      have edge : ⌈bucketMax⌉ ≤ -21 ↔ bucketMax ≤ -21 := by
        rw [Int.ceil_le]
        push_cast
        exact Iff.rfl
      rw [tdiv_eq_ediv (by omega)]
      constructor
      · rintro ⟨_, inside⟩ ⟨between, _⟩
        exact absurd (edge.mp (by omega)) (not_le.mpr between)
      · intro outside
        have last : bucketMax ≤ -21 := not_lt.mp fun between => outside ⟨between, below⟩
        have ceil := edge.mpr last
        omega

end Indices

section Groups

/-- The strongest of some signals. -/
def maxFrom (signal : Nat → ℚ) (start count : Nat) (bucketMax : ℚ) : ℚ :=
  (List.range' start count).foldl
    (fun bucketMax i => if signal i > bucketMax then signal i else bucketMax) bucketMax

/-- The strongest signal of a group of bins, of which the weakest is -200. -/
def groupMax (signal : Nat → ℚ) (group : Nat) : ℚ :=
  maxFrom signal (14 * group) 14 (-200)

theorem maxFrom_succ (signal : Nat → ℚ) (start count : Nat) (bucketMax : ℚ) :
    maxFrom signal start (count + 1) bucketMax =
      maxFrom signal (start + 1) count (if signal start > bucketMax then signal start else bucketMax) :=
  rfl

/-- A group begins anew. -/
theorem updates_reset (signal : Nat → ℚ) (binOffset : Int) {i : Nat} (first : i % 14 = 0)
    (bucketMax : ℚ) : updates signal binOffset i bucketMax = updates signal binOffset i (-200) := by
  have reset : i % binsPerBucket = 0 := first
  rw [updates, updates.eq_def signal binOffset i (-200)]
  simp only [if_pos reset]

/-- The rest of a group ends in one count. -/
theorem updates_within (signal : Nat → ℚ) (binOffset : Int) {group count i : Nat} (bucketMax : ℚ)
    (few : group < 4) (started : 14 * group ≤ i) (place : i + (count + 1) = 14 * group + 14)
    (fresh : i % 14 = 0 → bucketMax = -200) :
    ∃ last, updates signal binOffset i bucketMax =
      (freqBucketIndex binOffset (14 * group + 13),
        powerBucketIndex (maxFrom signal i (count + 1) bucketMax)) ::
      updates signal binOffset (14 * group + 14) last := by
  have inside : i < numSampleBins := by
    rw [numSampleBins]
    omega
  have kept : (if i % binsPerBucket = 0 then -200 else bucketMax) = bucketMax := by
    rw [binsPerBucket]
    split
    case isTrue first => exact (fresh first).symm
    case isFalse => rfl
  induction count generalizing i bucketMax with
  | zero =>
      have last : i = 14 * group + 13 := by omega
      have ended : (i + 1) % binsPerBucket = 0 := by
        rw [binsPerBucket]
        omega
      rw [updates, if_pos inside, kept]
      simp only [if_pos ended, maxFrom_succ]
      subst last
      exact ⟨_, rfl⟩
  | succ count ih =>
      have goes_on : ¬(i + 1) % binsPerBucket = 0 := by
        rw [binsPerBucket]
        omega
      have later : (i + 1) % 14 = 0 → (if signal i > bucketMax then signal i else bucketMax) = -200 :=
        fun ended => absurd ended goes_on
      rw [updates, if_pos inside, kept]
      simp only [if_neg goes_on]
      rw [maxFrom_succ]
      exact ih _ (by omega) (by omega) later (by rw [numSampleBins]; omega) (if_neg goes_on)

theorem updates_group (signal : Nat → ℚ) {binOffset : Int} (natural : 0 ≤ binOffset) {group : Nat}
    (few : group < 4) :
    updates signal binOffset (14 * group) (-200) =
      (binOffset / 14 + group, powerBucketIndex (groupMax signal group)) ::
        updates signal binOffset (14 * (group + 1)) (-200) := by
  obtain ⟨last, counted⟩ := updates_within signal binOffset (-200) few (Nat.le_refl _)
    (show 14 * group + (13 + 1) = 14 * group + 14 from rfl) fun _ => rfl
  rw [counted, freqBucketIndex_eq natural, ← Nat.mul_succ,
    updates_reset signal binOffset (Nat.mul_mod_right 14 _) last]
  rfl

/-- A record is counted once for each of its four groups, in neighbouring buckets. -/
theorem updates_eq (signal : Nat → ℚ) {binOffset : Int} (natural : 0 ≤ binOffset) :
    updates signal binOffset 0 (-200) = (List.range 4).map fun group : Nat =>
      (binOffset / 14 + group, powerBucketIndex (groupMax signal group)) := by
  have ended : updates signal binOffset (14 * (3 + 1)) (-200) = [] := by
    rw [updates, numSampleBins, if_neg (by decide)]
  calc updates signal binOffset 0 (-200)
      = updates signal binOffset (14 * 0) (-200) := rfl
    _ = _ := by
      rw [updates_group signal natural (by decide), updates_group signal natural (by decide),
        updates_group signal natural (by decide), updates_group signal natural (by decide), ended]
      rfl

end Groups

section Passes

variable (machine : Machine) (buffer : Buffer)

def InArrays (update : Int × Int) : Prop :=
  (0 ≤ update.1 ∧ update.1 < numFreqBuckets) ∧ 0 ≤ update.2 ∧ update.2 < numPowerBuckets

/-- What a pass reads lies in the buffer, and what it counts in the arrays. -/
def Pass.Inside (pass : Pass) : Prop :=
  (∀ place ∈ pass.reads, place < buffer.size) ∧ ∀ update ∈ pass.updates, InArrays update

/-- The record at a position has the type and the length that are understood. -/
def IsFftData (pos : Nat) : Prop :=
  buffer.number tlvType pos = 1 ∧ buffer.number tlvLen pos = 73

def InBand (pos : Nat) : Prop :=
  2412 ≤ buffer.number freq pos ∧ buffer.number freq pos ≤ 2481

def squareSum (pos : Nat) : Int :=
  calcSquareSum machine (buffer.read fftValues pos) (buffer.number maxExponent pos)

/-- A record that is all there, and that no bucket behind the last is counted for. -/
structure Contained (pos : Nat) : Prop where
  header : pos + 3 ≤ buffer.size
  data : IsFftData buffer pos → pos + 20 ≤ buffer.size
  bins : IsFftData buffer pos → InBand buffer pos → pos + 76 ≤ buffer.size
  buckets : IsFftData buffer pos → InBand buffer pos → squareSum machine buffer pos ≠ 0 →
    buffer.number freq pos ≤ 2466 ∧
      ∀ group < 4, ¬(-21 < groupMax (buffer.signal pos) group ∧ groupMax (buffer.signal pos) group < -20)

theorem places_lt_iff {field : Field} (wide : 0 < field.width) (pos size : Nat) :
    (∀ place ∈ field.places pos, place < size) ↔ pos + field.offset + field.width ≤ size := by
  simp only [Field.places, List.mem_range'_1]
  constructor
  · intro all
    have last := all (pos + field.offset + field.width - 1) (by omega)
    omega
  · intro inside place bounds
    omega

theorem updates_inArrays_iff (signal : Nat → ℚ) {freq : Nat} (low : 2412 ≤ freq) :
    (∀ update ∈ updates signal (binOffset freq) 0 (-200), InArrays update) ↔
      freq ≤ 2466 ∧ ∀ group < 4, ¬(-21 < groupMax signal group ∧ groupMax signal group < -20) := by
  have offset := binOffset_eq low
  rw [updates_eq signal (by omega)]
  simp only [List.forall_mem_map, List.mem_range, InArrays, powerBucketIndex_valid_iff,
    numFreqBuckets]
  constructor
  · intro all
    refine ⟨?_, fun group few => (all group few).2⟩
    have last := (all 3 (by decide)).1.2
    push_cast at last
    omega
  · rintro ⟨high, outside⟩ group few
    refine ⟨⟨by omega, ?_⟩, outside group few⟩
    push_cast
    omega

def headerPlaces (pos : Nat) : List Nat :=
  tlvLen.places pos ++ tlvType.places pos

def dataPlaces (pos : Nat) : List Nat :=
  headerPlaces pos ++ freq.places pos ++ timestamp.places pos

def binPlaces (pos : Nat) : List Nat :=
  dataPlaces pos ++ fftValues.places pos ++ maxExponent.places pos

def signalPlaces (pos : Nat) : List Nat :=
  binPlaces pos ++ noise.places pos ++ rssi.places pos

theorem header_lt_iff (pos size : Nat) :
    (∀ place ∈ headerPlaces pos, place < size) ↔ pos + 3 ≤ size := by
  rw [headerPlaces, List.forall_mem_append, places_lt_iff (by decide), places_lt_iff (by decide)]
  simp only [tlvLen, tlvType]
  omega

theorem data_lt_iff (pos size : Nat) :
    (∀ place ∈ dataPlaces pos, place < size) ↔ pos + 20 ≤ size := by
  rw [dataPlaces, List.forall_mem_append, List.forall_mem_append, header_lt_iff,
    places_lt_iff (by decide), places_lt_iff (by decide)]
  simp only [freq, timestamp]
  omega

theorem bins_lt_iff (pos size : Nat) :
    (∀ place ∈ binPlaces pos, place < size) ↔ pos + 76 ≤ size := by
  rw [binPlaces, List.forall_mem_append, List.forall_mem_append, data_lt_iff,
    places_lt_iff (by decide), places_lt_iff (by decide)]
  simp only [fftValues, numSampleBins, maxExponent]
  omega

theorem signals_lt_iff (pos size : Nat) :
    (∀ place ∈ signalPlaces pos, place < size) ↔ pos + 76 ≤ size := by
  rw [signalPlaces, List.forall_mem_append, List.forall_mem_append, bins_lt_iff,
    places_lt_iff (by decide), places_lt_iff (by decide)]
  simp only [noise, rssi]
  omega

theorem isFftData_iff (pos : Nat) :
    IsFftData buffer pos ↔ buffer.number tlvType pos = 1 ∧ dataLen buffer pos = sizeofFftData := by
  rw [IsFftData, dataLen, sizeofTlv, sizeofFftData]
  omega

theorem pass_other {pos : Nat} (other : ¬IsFftData buffer pos) :
    pass machine buffer pos = ⟨headerPlaces pos, none, []⟩ := by
  rw [isFftData_iff] at other
  rw [pass]
  by_cases kind : buffer.number tlvType pos = 1
  · rw [if_neg (not_not_intro kind), if_pos fun length => other ⟨kind, length⟩]
    rfl
  · rw [if_pos kind]
    rfl

theorem pass_outOfBand {pos : Nat} (data : IsFftData buffer pos) (outside : ¬InBand buffer pos) :
    pass machine buffer pos = ⟨dataPlaces pos, some (buffer.number timestamp pos), []⟩ := by
  obtain ⟨kind, length⟩ := (isFftData_iff buffer pos).mp data
  have invalid := not_not.mp (mt (binOffset_valid_iff (buffer.number freq pos)).mp outside)
  rw [pass, if_neg (not_not_intro kind), if_neg (not_not_intro length)]
  exact if_pos invalid

theorem pass_empty {pos : Nat} (data : IsFftData buffer pos) (band : InBand buffer pos)
    (empty : squareSum machine buffer pos = 0) :
    pass machine buffer pos = ⟨binPlaces pos, some (buffer.number timestamp pos), []⟩ := by
  obtain ⟨kind, length⟩ := (isFftData_iff buffer pos).mp data
  have valid := (binOffset_valid_iff (buffer.number freq pos)).mpr band
  rw [pass, if_neg (not_not_intro kind), if_neg (not_not_intro length), if_neg valid]
  exact if_pos empty

theorem pass_counted {pos : Nat} (data : IsFftData buffer pos) (band : InBand buffer pos)
    (filled : squareSum machine buffer pos ≠ 0) :
    pass machine buffer pos = ⟨signalPlaces pos, some (buffer.number timestamp pos),
      updates (buffer.signal pos) (binOffset (buffer.number freq pos)) 0 (-200)⟩ := by
  obtain ⟨kind, length⟩ := (isFftData_iff buffer pos).mp data
  have valid := (binOffset_valid_iff (buffer.number freq pos)).mpr band
  rw [pass, if_neg (not_not_intro kind), if_neg (not_not_intro length), if_neg valid]
  exact if_neg filled

/-- What a pass needs, by what the record is. -/
theorem pass_inside_iff (pos : Nat) :
    (pass machine buffer pos).Inside buffer ↔ Contained machine buffer pos := by
  have nothing : (∀ update ∈ ([] : List (Int × Int)), InArrays update) ↔ True := by simp
  by_cases data : IsFftData buffer pos
  · by_cases band : InBand buffer pos
    · by_cases empty : squareSum machine buffer pos = 0
      · rw [pass_empty machine buffer data band empty, Pass.Inside, bins_lt_iff, nothing, and_true]
        exact ⟨fun whole => ⟨by omega, fun _ => by omega, fun _ _ => whole,
          fun _ _ filled => absurd empty filled⟩, fun contained => contained.bins data band⟩
      · rw [pass_counted machine buffer data band empty, Pass.Inside, signals_lt_iff,
          updates_inArrays_iff _ band.1]
        exact ⟨fun whole => ⟨by omega, fun _ => by omega, fun _ _ => whole.1, fun _ _ _ => whole.2⟩,
          fun contained => ⟨contained.bins data band, contained.buckets data band empty⟩⟩
    · rw [pass_outOfBand machine buffer data band, Pass.Inside, data_lt_iff, nothing, and_true]
      exact ⟨fun whole => ⟨by omega, fun _ => whole, fun _ inside => absurd inside band,
        fun _ inside => absurd inside band⟩, fun contained => contained.data data⟩
  · rw [pass_other machine buffer data, Pass.Inside, header_lt_iff, nothing, and_true]
    exact ⟨fun whole => ⟨whole, fun inside => absurd inside data, fun inside => absurd inside data,
      fun inside => absurd inside data⟩, fun contained => contained.header⟩

end Passes

section Scans

variable (machine : Machine) (buffer : Buffer)

/-- The positions that the loop comes to. -/
def starts (buffer : Buffer) (pos : Nat) : List Nat :=
  if pos < buffer.size then pos :: starts buffer (pos + dataLen buffer pos) else []
termination_by buffer.size - pos
decreasing_by
  rw [dataLen, sizeofTlv]
  omega

theorem passes_eq_map (pos : Nat) :
    passes machine buffer pos = (starts buffer pos).map (pass machine buffer) := by
  induction pos using starts.induct buffer with
  | case1 pos inside ih => rw [passes, starts, if_pos inside, if_pos inside, ih, List.map_cons]
  | case2 pos outside => rw [passes, starts, if_neg outside, if_neg outside, List.map_nil]

/-- Each pass takes three bytes at least. -/
theorem starts_length (pos : Nat) : 3 * (starts buffer pos).length ≤ buffer.size - pos + 2 := by
  induction pos using starts.induct buffer with
  | case1 pos inside ih =>
      rw [starts, if_pos inside, List.length_cons]
      rw [dataLen, sizeofTlv] at ih ⊢
      omega
  | case2 pos outside =>
      rw [starts, if_neg outside, List.length_nil]
      omega

/-- `append_results` ends, and stays in its arrays. -/
def Safe : Prop :=
  3 * (appendResults machine buffer).length ≤ buffer.size + 2 ∧
    ∀ pass ∈ appendResults machine buffer, pass.Inside buffer

/-- A scan is read and counted in its arrays exactly when each record that it comes to is all there,
and none is counted behind the last bucket. -/
theorem safe_iff :
    Safe machine buffer ↔ ∀ pos ∈ starts buffer 0, Contained machine buffer pos := by
  have few := starts_length buffer 0
  rw [Safe, appendResults, passes_eq_map, List.length_map, and_iff_right (by omega),
    List.forall_mem_map]
  simp only [pass_inside_iff]

theorem Safe.first {machine : Machine} {buffer : Buffer} (safe : Safe machine buffer)
    (some_byte : 0 < buffer.size) : Contained machine buffer 0 := by
  have passed := safe.2 (pass machine buffer 0)
  rw [appendResults, passes, if_pos some_byte] at passed
  exact (pass_inside_iff machine buffer 0).mp (passed List.mem_cons_self)

def exampleMachine : Machine :=
  ⟨id, fun _ _ => 0⟩

/-- A record of one byte that is not zero. -/
def exampleRecord (freq : Nat) : List Byte :=
  [1, 0, 73, 0] ++ bigEndian 2 freq ++ List.replicate 14 0 ++ [1] ++ List.replicate 55 0

def exampleBuffer (bytes : List Byte) (signal : ℚ) : Buffer :=
  ⟨fun place => bytes.getD place 0, bytes.length, fun _ _ => signal⟩

/-- The tail of a header, a record above channel 11, and a strong signal. -/
theorem scans_outside :
    ¬Safe exampleMachine (exampleBuffer [2] 0) ∧
      ¬Safe exampleMachine (exampleBuffer (exampleRecord 2467) (-100)) ∧
      ¬Safe exampleMachine (exampleBuffer (exampleRecord 2412) (-41 / 2)) := by
  refine ⟨fun safe => ?_, fun safe => ?_, fun safe => ?_⟩
  · exact absurd (safe.first (by decide)).header (by decide)
  · have buckets := (safe.first (by decide)).buckets ⟨by decide, by decide⟩
      ⟨by decide, by decide⟩ (by decide +kernel)
    exact absurd buckets.1 (by decide)
  · have buckets := (safe.first (by decide)).buckets ⟨by decide, by decide⟩
      ⟨by decide, by decide⟩ (by decide +kernel)
    have strong : groupMax (fun _ => -41 / 2) 0 = -41 / 2 := by decide +kernel
    refine buckets.2 0 (by decide) ?_
    change -21 < groupMax (fun _ => -41 / 2) 0 ∧ groupMax (fun _ => -41 / 2) 0 < -20
    rw [strong]
    norm_num

end Scans


end Gfiber.Spectral
