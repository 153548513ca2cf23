import Mathlib.Data.Rat.Defs
import Mathlib.Algebra.Order.Ring.Rat

/-! The updates of a transfer, from which its speed is averaged. Times are in microseconds, and
speeds are rationals. -/

set_option autoImplicit false

namespace Gfiber.Speedtest

structure Bucket where
  totalBytes : Int
  startTime : Int
  shortMegabits : Rat
  longMegabits : Rat
deriving DecidableEq, Repr

/-- `Bucket()`, the sentinel of all zeroes. -/
def Bucket.empty : Bucket :=
  ⟨0, 0, 0, 0⟩

/-- The intervals are of type `int`. -/
structure TransferOptions where
  minRuntimeMillis : Int
  maxRuntimeMillis : Int
  minIntervals : BitVec 32
  maxIntervals : BitVec 32
  maxVariance : Rat
  exponentialMovingAverage : Bool

def variance (first second : Rat) : Rat :=
  if second = 0 then 0 else 1 - min first second / max first second

def toMegabits (bytes micros : Int) : Rat :=
  8 * bytes / micros

section Averages

def getSimpleAverage (buckets : List Bucket) (numBuckets : BitVec 32) : Rat :=
  if buckets = [] ∨ numBuckets.toInt ≤ 0 then 0
  else
    let endIndex := buckets.length - 1
    let startIndex := endIndex - numBuckets.toNat
    let finish := buckets.getD endIndex .empty
    let start := buckets.getD startIndex .empty
    toMegabits (finish.totalBytes - start.totalBytes) (finish.startTime - start.startTime)

/-- Both averages are taken of the last bucket. The sum is one of type `int`, which wraps around. -/
def getEma (megabits : Bucket → Rat) (buckets : List Bucket) (numBuckets : BitVec 32) : Rat :=
  if buckets = [] ∨ numBuckets.toInt ≤ 0 then 0
  else
    let lastBucket := buckets.getLastD .empty
    let percent : Rat := 2 / (numBuckets + 1).toInt
    getSimpleAverage buckets 1 * percent + megabits lastBucket * (1 - percent)

def getShortEma : List Bucket → BitVec 32 → Rat :=
  getEma Bucket.shortMegabits

def getLongEma : List Bucket → BitVec 32 → Rat :=
  getEma Bucket.longMegabits

end Averages

section Updates

/-- What the updating thread leaves in the result, and whether it has stopped. -/
structure Transfer where
  buckets : List Bucket
  totalBytes : Int
  speedMbps : Rat
  localCancel : Bool
deriving DecidableEq, Repr

def Transfer.start : Transfer :=
  ⟨[.empty], 0, 0, false⟩

/-- What a round finds: `*cancel`, or else the clock and the bytes that are transferred. -/
inductive Round where
  | cancelled
  | sample (now bytes : Int)
deriving DecidableEq, Repr

/-- The bucket is in the vector before its averages are computed. -/
def addBucket (options : TransferOptions) (buckets : List Bucket) (runningTime bytes : Int) :
    List Bucket :=
  let bucket : Bucket := { Bucket.empty with startTime := runningTime, totalBytes := bytes }
  let short :=
    if options.exponentialMovingAverage then
      getShortEma (buckets ++ [bucket]) options.minIntervals
    else getSimpleAverage (buckets ++ [bucket]) options.minIntervals
  let bucket := { bucket with shortMegabits := short }
  let long :=
    if options.exponentialMovingAverage then
      getLongEma (buckets ++ [bucket]) options.maxIntervals
    else getSimpleAverage (buckets ++ [bucket]) options.maxIntervals
  buckets ++ [{ bucket with longMegabits := long }]

/-- The averages are close enough to each other. -/
def stable (options : TransferOptions) (bucket : Bucket) : Bool :=
  0 < bucket.shortMegabits && 0 < bucket.longMegabits &&
    variance bucket.shortMegabits bucket.longMegabits ≤ options.maxVariance

/-- One round of `while (!local_cancel)`. -/
def update (options : TransferOptions) (startTime : Int) (transfer : Transfer) (round : Round) :
    Option Transfer :=
  if transfer.localCancel then none
  else
    match round with
    | .cancelled => some { transfer with localCancel := true }
    | .sample now bytes =>
        let runningTime := now - startTime
        let buckets := addBucket options transfer.buckets runningTime bytes
        let lastBucket := buckets.getLastD .empty
        some
          { buckets
            totalBytes := bytes
            speedMbps := lastBucket.longMegabits
            localCancel :=
              options.maxRuntimeMillis * 1000 < runningTime ||
                (options.minRuntimeMillis * 1000 < runningTime && stable options lastBucket) }

/-- The rounds of the updating thread. There is none after it has stopped. -/
def runTransfer (options : TransferOptions) (startTime : Int) (rounds : List Round) :
    Option Transfer :=
  rounds.foldlM (update options startTime) .start

end Updates

end Gfiber.Speedtest
