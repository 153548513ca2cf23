import Gfiber.Spectral.Scan

/-! The buckets that the records of a full scan are counted in, and the percentages of the
channels. -/

set_option autoImplicit false

namespace Gfiber.Spectral

open Lib

section Buckets

structure BucketResults where
  bucketCount : Fin numFreqBuckets → Fin numPowerBuckets → BitVec 32
  total : Fin numFreqBuckets → BitVec 16
  timestamp : Nat

/-- What `memset` makes of the buckets. -/
def BucketResults.start : BucketResults :=
  ⟨fun _ _ => 0, fun _ => 0, 0⟩

namespace BucketResults

def increment (freq : Fin numFreqBuckets) (power : Fin numPowerBuckets) (buckets : BucketResults) :
    BucketResults :=
  { buckets with
    bucketCount := fun f p =>
      if f = freq ∧ p = power then buckets.bucketCount f p + 1 else buckets.bucketCount f p
    total := fun f => if f = freq then buckets.total f + 1 else buckets.total f }

/-- `none` is a write outside of the arrays. -/
def count (buckets : BucketResults) (update : Int × Int) : Option BucketResults :=
  if inside : (0 ≤ update.1 ∧ update.1 < numFreqBuckets) ∧
      0 ≤ update.2 ∧ update.2 < numPowerBuckets then
    some (buckets.increment ⟨update.1.toNat, by omega⟩ ⟨update.2.toNat, by omega⟩)
  else none

def addPass (buckets : BucketResults) (pass : Pass) : Option BucketResults :=
  pass.updates.foldlM count { buckets with timestamp := pass.timestamp.getD buckets.timestamp }

def addResults (machine : Machine) (buckets : BucketResults) (buffer : Buffer) :
    Option BucketResults :=
  (appendResults machine buffer).foldlM addPass buckets

end BucketResults

/-- The calls of `append_results` in one full scan. -/
def executeFullScan (machine : Machine) (buffers : List Buffer) : Option BucketResults :=
  buffers.foldlM (BucketResults.addResults machine) .start

end Buckets

section Percentages

/-- The channels, from 1 on: the buckets `i - 2` to `i + 1` for `i` from 2 to 12. -/
abbrev Channel : Type := Fin 11

def window (channel : Channel) : List (Fin numFreqBuckets) :=
  (List.finRange 4).map fun k : Fin 4 => ⟨channel.val + k.val, by rw [numFreqBuckets]; omega⟩

variable (result : BucketResults)

def overallTotal (channel : Channel) : Int :=
  (window channel).foldl (fun total freq => total + (result.total freq).toNat) 0

/-- The sum of unsigned counters goes through an unsigned number each time. -/
def bucketTotal (channel : Channel) (power : Fin numPowerBuckets) : Int :=
  (window channel).foldl
    (fun total freq => (BitVec.ofInt 32 total + result.bucketCount freq power).toInt) 0

/-- `none` is a division by zero, or a product that is out of range. -/
def percent (bucketTotal overallTotal : Int) : Option Int :=
  if ¬(-2 ^ 31 ≤ bucketTotal * 100 ∧ bucketTotal * 100 < 2 ^ 31) then none
  else if overallTotal = 0 then none
  else some ((bucketTotal * 100).tdiv overallTotal)

/-- The percentages of each channel. One that is not positive is printed as blanks. -/
def postBuckets : Option (List (List Int)) :=
  (List.finRange 11).mapM fun channel => (List.finRange numPowerBuckets).mapM fun power =>
    percent (bucketTotal result channel power) (overallTotal result channel)

end Percentages

end Gfiber.Spectral
