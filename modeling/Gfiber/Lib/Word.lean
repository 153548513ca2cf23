import Mathlib.Data.BitVec
import Mathlib.Tactic.IntervalCases

/-! Fixed-width machine words: byte order and the signed reading of a wrapped
difference. -/

set_option autoImplicit false

namespace Gfiber.Lib

abbrev Byte := BitVec 8

/-- By this name in every module that decides whether a byte is among others. -/
instance lawfulBEqByte : LawfulBEq Byte := inferInstance

abbrev Word := BitVec 32

abbrev Word64 := BitVec 64

def byteSwap (word : Word) : Word :=
  word.extractLsb' 0 8 ++ word.extractLsb' 8 8 ++ word.extractLsb' 16 8 ++ word.extractLsb' 24 8

@[simp] theorem byteSwap_byteSwap (word : Word) : byteSwap (byteSwap word) = word := by
  apply BitVec.eq_of_getLsbD_eq
  intro index bound
  simp only [byteSwap, BitVec.getLsbD_append, BitVec.getLsbD_extractLsb']
  interval_cases index <;> simp only [Nat.reduceLT, Nat.reduceSub, Nat.reduceAdd, decide_true,
    Bool.true_and, ↓reduceIte]

theorem byteSwap_injective : Function.Injective byteSwap :=
  Function.LeftInverse.injective byteSwap_byteSwap

@[simp] theorem byteSwap_zero : byteSwap 0 = 0 := by decide

@[simp] theorem byteSwap_eq_zero {word : Word} : byteSwap word = 0 ↔ word = 0 := by
  rw [← byteSwap_injective.eq_iff (a := word), byteSwap_zero]

def littleEndian (word : Word) : List Byte :=
  [word.extractLsb' 0 8, word.extractLsb' 8 8, word.extractLsb' 16 8, word.extractLsb' 24 8]

@[simp] theorem length_littleEndian (word : Word) : (littleEndian word).length = 4 := rfl

theorem littleEndian_injective : Function.Injective littleEndian := by
  intro left right same
  have swapped : byteSwap left = byteSwap right := by
    simp only [littleEndian, List.cons.injEq, and_true] at same
    obtain ⟨first, second, third, fourth⟩ := same
    simp only [byteSwap, first, second, third, fourth]
  exact byteSwap_injective swapped

def ofLittleEndian (first second third fourth : Byte) : Word :=
  fourth ++ third ++ second ++ first

theorem ofLittleEndian_bytes (word : Word) :
    ofLittleEndian (word.extractLsb' 0 8) (word.extractLsb' 8 8) (word.extractLsb' 16 8)
      (word.extractLsb' 24 8) = word := by
  apply BitVec.eq_of_getLsbD_eq
  intro index bound
  simp only [ofLittleEndian, BitVec.getLsbD_append, BitVec.getLsbD_extractLsb']
  interval_cases index <;> simp only [Nat.reduceLT, Nat.reduceSub, Nat.reduceAdd, decide_true,
    Bool.true_and, ↓reduceIte]

@[simp] theorem truncate_add (left right : Word64) :
    (left + right).setWidth 32 = left.setWidth 32 + right.setWidth 32 :=
  BitVec.setWidth_add left right (by decide)

@[simp] theorem truncate_sub (left right : Word64) :
    (left - right).setWidth 32 = left.setWidth 32 - right.setWidth 32 := by
  rw [BitVec.sub_eq_add_neg, BitVec.sub_eq_add_neg, truncate_add,
    BitVec.setWidth_neg_of_le (by decide)]

@[simp] theorem truncate_setWidth (word : Word) : (word.setWidth 64).setWidth 32 = word := by
  rw [BitVec.setWidth_setWidth_of_le _ (by decide), BitVec.setWidth_eq]

@[simp] theorem truncate_signExtend (word : Word) : (word.signExtend 64).setWidth 32 = word := by
  apply BitVec.eq_of_getLsbD_eq
  intro index bound
  rw [BitVec.getLsbD_setWidth, BitVec.getLsbD_signExtend]
  simp [bound, show index < 64 by omega]

def diff {width : Nat} (left right : BitVec width) : Int :=
  (left - right).toInt

end Gfiber.Lib
