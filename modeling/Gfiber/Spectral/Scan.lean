import Mathlib.Data.Rat.Floor
import Gfiber.Lib.Struct

/-! The records of a spectral scan, and what is read and counted of each. -/

set_option autoImplicit false

namespace Gfiber.Spectral

open Lib

section Constants

def numSampleBins : Nat := 56

def minScanFreq : Int := 2412

def freqStep : Int := 5

def numOverallBins : Int := 196

/-- How many bins there are to a step of the frequency. -/
def freqStepBinOffset : Int := 14

def lowerPowerBucketMin : Int := -80

def upperPowerBucketMax : Int := -20

def powerBucketStep : Int := 5

def numFreqBuckets : Nat := 14

def numPowerBuckets : Nat := 12

def binsPerBucket : Nat := 14

end Constants

section Layout

/-- A field of a packed record. -/
structure Field where
  offset : Nat
  width : Nat

def tlvType : Field := ⟨0, 1⟩

def tlvLen : Field := ⟨1, 2⟩

def sizeofTlv : Nat := 3

def maxExponent : Field := ⟨3, 1⟩

def freq : Field := ⟨4, 2⟩

def rssi : Field := ⟨6, 1⟩

def noise : Field := ⟨7, 1⟩

def timestamp : Field := ⟨12, 8⟩

def fftValues : Field := ⟨20, numSampleBins⟩

def sizeofFftData : Nat := 76

/-- The places of a field of the record at a position. -/
def Field.places (field : Field) (pos : Nat) : List Nat :=
  List.range' (pos + field.offset) field.width

/-- The bytes from `raw_data` on, what lies behind the first `size` of them included, with the
strength of the signal that is computed for each bin of the record at a position. -/
structure Buffer where
  rawData : Nat → Byte
  size : Nat
  signal : Nat → Nat → ℚ

def Buffer.read (buffer : Buffer) (field : Field) (pos : Nat) : List Byte :=
  (field.places pos).map buffer.rawData

def Buffer.number (buffer : Buffer) (field : Field) (pos : Nat) : Nat :=
  ofBigEndian (buffer.read field pos)

end Layout

section Sums

/-- What the machine makes of what C leaves undefined: an `int` out of range, and a shift by its
width or more. -/
structure Machine where
  overflow : Int → Int
  shift : Nat → Nat → Int

def Machine.int (machine : Machine) (value : Int) : Int :=
  if -2 ^ 31 ≤ value ∧ value < 2 ^ 31 then value else machine.overflow value

def Machine.shiftLeft (machine : Machine) (value exp : Nat) : Int :=
  if exp < 32 then machine.int (value * 2 ^ exp) else machine.shift value exp

def calcSquareSum (machine : Machine) (data : List Byte) (exp : Nat) : Int :=
  data.foldl (fun rv byte =>
    let curr := machine.shiftLeft byte.toNat exp
    machine.int (rv + machine.int (curr * curr))) 0

end Sums

section Records

/-- The conversion to `int`, towards zero. -/
def truncate (value : ℚ) : Int :=
  if value < 0 then ⌈value⌉ else ⌊value⌋

def binOffset (freq : Nat) : Int :=
  (freqStepBinOffset * (freq - minScanFreq)).tdiv freqStep

def freqBucketIndex (binOffset : Int) (i : Nat) : Int :=
  (binOffset + i + 1 - binsPerBucket).tdiv binsPerBucket

def powerBucketIndex (bucketMax : ℚ) : Int :=
  if bucketMax ≤ lowerPowerBucketMin then 0
  else if bucketMax ≥ upperPowerBucketMax then numPowerBuckets - 1
  else (truncate bucketMax - lowerPowerBucketMin).tdiv powerBucketStep

/-- The buckets that the bins from one on are counted in. -/
def updates (signal : Nat → ℚ) (binOffset : Int) (i : Nat) (bucketMax : ℚ) : List (Int × Int) :=
  if i < numSampleBins then
    let bucketMax := if i % binsPerBucket = 0 then -200 else bucketMax
    let bucketMax := if signal i > bucketMax then signal i else bucketMax
    if (i + 1) % binsPerBucket = 0 then
      (freqBucketIndex binOffset i, powerBucketIndex bucketMax) ::
        updates signal binOffset (i + 1) bucketMax
    else updates signal binOffset (i + 1) bucketMax
  else []
termination_by numSampleBins - i

/-- What one pass reads and counts. -/
structure Pass where
  reads : List Nat
  timestamp : Option Nat
  updates : List (Int × Int)

def dataLen (buffer : Buffer) (pos : Nat) : Nat :=
  sizeofTlv + buffer.number tlvLen pos

def pass (machine : Machine) (buffer : Buffer) (pos : Nat) : Pass :=
  let reads := tlvLen.places pos ++ tlvType.places pos
  if buffer.number tlvType pos ≠ 1 then ⟨reads, none, []⟩
  else if dataLen buffer pos ≠ sizeofFftData then ⟨reads, none, []⟩
  else
    let reads := reads ++ freq.places pos ++ timestamp.places pos
    let timestamp := some (buffer.number timestamp pos)
    let binOffset := binOffset (buffer.number freq pos)
    if binOffset < 0 ∨ binOffset ≥ numOverallBins then ⟨reads, timestamp, []⟩
    else
      let reads := reads ++ fftValues.places pos ++ maxExponent.places pos
      let squareSum := calcSquareSum machine (buffer.read fftValues pos)
        (buffer.number maxExponent pos)
      -- Data that is all empty is skipped.
      if squareSum = 0 then ⟨reads, timestamp, []⟩
      else
        ⟨reads ++ noise.places pos ++ rssi.places pos, timestamp,
          updates (buffer.signal pos) binOffset 0 (-200)⟩

/-- The passes of the loop of `append_results`. -/
def passes (machine : Machine) (buffer : Buffer) (pos : Nat) : List Pass :=
  if pos < buffer.size then
    pass machine buffer pos :: passes machine buffer (pos + dataLen buffer pos)
  else []
termination_by buffer.size - pos
decreasing_by
  rw [dataLen, sizeofTlv]
  omega

def appendResults (machine : Machine) (buffer : Buffer) : List Pass :=
  passes machine buffer 0

end Records

end Gfiber.Spectral
