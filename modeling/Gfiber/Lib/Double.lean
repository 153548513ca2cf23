import Mathlib.Data.Int.Log
import Mathlib.Data.Rat.Floor
import Mathlib.Tactic

/-! Rounding of a rational to a binary64 value, to nearest with ties to even: for
results in the normal range, and with underflow and overflow. -/

set_option autoImplicit false

namespace Gfiber.Lib

def roundHalfEven (x : ℚ) : ℤ :=
  let lower := ⌊x⌋
  if x - lower < 1 / 2 then lower
  else if 1 / 2 < x - lower then lower + 1
  else if lower % 2 = 0 then lower
  else lower + 1

theorem roundHalfEven_bounds (x : ℚ) : ⌊x⌋ ≤ roundHalfEven x ∧ roundHalfEven x ≤ ⌈x⌉ := by
  have ceil (apart : 1 / 2 ≤ x - ⌊x⌋) : ⌊x⌋ + 1 ≤ ⌈x⌉ := by
    rw [Int.add_one_le_iff, Int.lt_ceil]
    linarith
  have floor : ⌊x⌋ ≤ ⌈x⌉ := Int.floor_le_ceil x
  simp only [roundHalfEven]
  split
  · exact ⟨le_refl _, floor⟩
  · rename_i near
    have above := ceil (by linarith)
    split
    · exact ⟨by omega, above⟩
    · split
      · exact ⟨le_refl _, floor⟩
      · exact ⟨by omega, above⟩

theorem le_roundHalfEven {bound : ℤ} {x : ℚ} (below : (bound : ℚ) ≤ x) : bound ≤ roundHalfEven x :=
  (Int.le_floor.mpr below).trans (roundHalfEven_bounds x).1

theorem roundHalfEven_le {bound : ℤ} {x : ℚ} (above : x ≤ bound) : roundHalfEven x ≤ bound :=
  (roundHalfEven_bounds x).2.trans (Int.ceil_le.mpr above)

def ulp (x : ℚ) : ℚ := 2 ^ (Int.log 2 |x| - 52)

def roundDouble (x : ℚ) : ℚ := roundHalfEven (x / ulp x) * ulp x

theorem ulp_pos (x : ℚ) : 0 < ulp x := zpow_pos (by norm_num) _

theorem integer_multiple {x : ℚ} (positive : 0 < x) (small : x < 2 ^ 53) (bound : ℤ) :
    ∃ multiple : ℤ, (bound : ℚ) = multiple * ulp x := by
  have exponent : Int.log 2 |x| ≤ 52 := by
    have least : Int.log 2 |x| < 53 := by
      rw [abs_of_pos positive]
      apply (Int.lt_zpow_iff_log_lt (by norm_num) positive).mp
      exact_mod_cast small
    omega
  refine ⟨bound * 2 ^ (52 - Int.log 2 |x|).toNat, ?_⟩
  have scale : ((2 : ℚ) ^ (52 - Int.log 2 |x|).toNat) * ulp x = 1 := by
    rw [ulp, ← zpow_natCast, Int.toNat_of_nonneg (by omega), ← zpow_add₀ (by norm_num)]
    simp
  push_cast
  rw [mul_assoc, scale, mul_one]

theorem le_roundDouble {bound : ℤ} {x : ℚ} (positive : 0 < x) (small : x < 2 ^ 53)
    (below : (bound : ℚ) ≤ x) : (bound : ℚ) ≤ roundDouble x := by
  obtain ⟨multiple, same⟩ := integer_multiple positive small bound
  have scaled : (multiple : ℚ) ≤ x / ulp x := by
    rw [le_div_iff₀ (ulp_pos x), ← same]
    exact below
  rw [same, roundDouble]
  exact mul_le_mul_of_nonneg_right (by exact_mod_cast le_roundHalfEven scaled) (ulp_pos x).le

theorem roundDouble_le {bound : ℤ} {x : ℚ} (positive : 0 < x) (small : x < 2 ^ 53)
    (above : x ≤ bound) : roundDouble x ≤ bound := by
  obtain ⟨multiple, same⟩ := integer_multiple positive small bound
  have scaled : x / ulp x ≤ multiple := by
    rw [div_le_iff₀ (ulp_pos x), ← same]
    exact above
  rw [same, roundDouble]
  exact mul_le_mul_of_nonneg_right (by exact_mod_cast roundHalfEven_le scaled) (ulp_pos x).le

theorem roundHalfEven_mono {x y : ℚ} (le : x ≤ y) : roundHalfEven x ≤ roundHalfEven y := by
  rcases (Int.floor_le_floor le).lt_or_eq with less | same
  · have above := (roundHalfEven_bounds x).2.trans (Int.ceil_le_floor_add_one x)
    exact above.trans ((Int.add_one_le_of_lt less).trans (roundHalfEven_bounds y).1)
  · simp only [roundHalfEven, same]
    split_ifs <;> first | omega | linarith

section Underflow

/-- The step between the doubles around a number. It is not below that of the
subnormal ones. -/
def quantum (x : ℚ) : ℚ := 2 ^ max (Int.log 2 |x| - 52) (-1074)

/-- A magnitude that is too large becomes infinite, which stands at `2 ^ 1024`. -/
def roundMagnitude (x : ℚ) : ℚ := min (roundHalfEven (x / quantum x) * quantum x) (2 ^ 1024)

/-- The double next to a number. -/
def toDouble (x : ℚ) : ℚ := if x < 0 then -roundMagnitude (-x) else roundMagnitude x

theorem quantum_pos (x : ℚ) : 0 < quantum x := zpow_pos (by norm_num) _

theorem roundMagnitude_nonneg {x : ℚ} (nonneg : 0 ≤ x) : 0 ≤ roundMagnitude x := by
  have scaled : ((0 : ℤ) : ℚ) ≤ x / quantum x := by
    rw [Int.cast_zero]
    exact div_nonneg nonneg (quantum_pos x).le
  have rounded : (0 : ℚ) ≤ roundHalfEven (x / quantum x) := by
    exact_mod_cast le_roundHalfEven scaled
  exact le_min (mul_nonneg rounded (quantum_pos x).le) (by positivity)

/-- A number that is a multiple of the step bounds what is rounded. -/
theorem round_le_multiple {x bound : ℚ} {multiple : ℤ} (whole : bound = multiple * quantum x)
    (le : x ≤ bound) : roundHalfEven (x / quantum x) * quantum x ≤ bound := by
  have scaled : x / quantum x ≤ multiple := by
    rw [div_le_iff₀ (quantum_pos x), ← whole]
    exact le
  rw [whole]
  exact mul_le_mul_of_nonneg_right (by exact_mod_cast roundHalfEven_le scaled) (quantum_pos x).le

theorem multiple_le_round {x bound : ℚ} {multiple : ℤ} (whole : bound = multiple * quantum x)
    (le : bound ≤ x) : bound ≤ roundHalfEven (x / quantum x) * quantum x := by
  have scaled : (multiple : ℚ) ≤ x / quantum x := by
    rw [le_div_iff₀ (quantum_pos x), ← whole]
    exact le
  rw [whole]
  exact mul_le_mul_of_nonneg_right (by exact_mod_cast le_roundHalfEven scaled) (quantum_pos x).le

/-- Between two numbers of different steps there is a power of two, which both
steps divide. -/
theorem exists_power_between {x y : ℚ} (positive : 0 < x) (le : x ≤ y)
    (finer : quantum x < quantum y) :
    ∃ bound : ℚ, x ≤ bound ∧ bound ≤ y ∧
      (∃ multiple : ℤ, bound = multiple * quantum x) ∧
      ∃ multiple : ℤ, bound = multiple * quantum y := by
  have order : max (Int.log 2 |x| - 52) (-1074) < max (Int.log 2 |y| - 52) (-1074) :=
    (zpow_lt_zpow_iff_right₀ (by norm_num : (1 : ℚ) < 2)).mp finer
  have normal : max (Int.log 2 |y| - 52) (-1074) = Int.log 2 |y| - 52 := by omega
  have smaller : Int.log 2 |x| + 1 ≤ Int.log 2 |y| := by omega
  refine ⟨2 ^ Int.log 2 |y|, ?_, ?_, ?_, 2 ^ 52, ?_⟩
  · have below : x < 2 ^ (Int.log 2 |x| + 1) := by
      have := Int.lt_zpow_succ_log_self (b := 2) (by norm_num) |x|
      rw [abs_of_pos positive] at this ⊢
      exact_mod_cast this
    exact below.le.trans (zpow_le_zpow_right₀ (by norm_num) smaller)
  · have above := Int.zpow_log_le_self (b := 2) (by norm_num) (abs_pos.mpr (positive.trans_le le).ne')
    rw [abs_of_pos (positive.trans_le le)] at above ⊢
    exact_mod_cast above
  · refine ⟨2 ^ (Int.log 2 |y| - max (Int.log 2 |x| - 52) (-1074)).toNat, ?_⟩
    push_cast
    rw [quantum, ← zpow_natCast, Int.toNat_of_nonneg (by omega), ← zpow_add₀ (by norm_num)]
    congr 1
    omega
  · rw [quantum, normal, zpow_sub₀ (by norm_num)]
    norm_num
    ring

theorem roundMagnitude_mono {x y : ℚ} (nonneg : 0 ≤ x) (le : x ≤ y) :
    roundMagnitude x ≤ roundMagnitude y := by
  rcases nonneg.lt_or_eq with positive | rfl
  case inr =>
    have zero : roundMagnitude 0 = 0 := by decide +kernel
    rw [zero]
    exact roundMagnitude_nonneg le
  refine min_le_min_right _ ?_
  have order : quantum x ≤ quantum y := by
    have logs : Int.log 2 |x| ≤ Int.log 2 |y| := by
      rw [abs_of_pos positive, abs_of_pos (positive.trans_le le)]
      exact Int.log_mono_right positive le
    exact zpow_le_zpow_right₀ (by norm_num) (by omega)
  rcases order.lt_or_eq with finer | same
  · obtain ⟨bound, above, below, ⟨_, whole⟩, ⟨_, entire⟩⟩ := exists_power_between positive le finer
    exact (round_le_multiple whole above).trans (multiple_le_round entire below)
  · rw [← same]
    have scaled : x / quantum x ≤ y / quantum x := div_le_div_of_nonneg_right le (quantum_pos x).le
    exact mul_le_mul_of_nonneg_right (by exact_mod_cast roundHalfEven_mono scaled)
      (quantum_pos x).le

theorem toDouble_nonneg {x : ℚ} (nonneg : 0 ≤ x) : 0 ≤ toDouble x := by
  rw [toDouble, if_neg (not_lt_of_ge nonneg)]
  exact roundMagnitude_nonneg nonneg

theorem toDouble_nonpos {x : ℚ} (nonpos : x ≤ 0) : toDouble x ≤ 0 := by
  rcases nonpos.lt_or_eq with negative | rfl
  · rw [toDouble, if_pos negative]
    exact neg_nonpos.mpr (roundMagnitude_nonneg (neg_nonneg.mpr nonpos))
  · exact le_of_eq (by decide +kernel)

theorem toDouble_mono : Monotone toDouble := by
  intro x y le
  by_cases right : y < 0
  · rw [toDouble, toDouble, if_pos (le.trans_lt right), if_pos right]
    exact neg_le_neg (roundMagnitude_mono (neg_nonneg.mpr right.le) (neg_le_neg le))
  · by_cases left : x < 0
    · exact (toDouble_nonpos left.le).trans (toDouble_nonneg (not_lt.mp right))
    · rw [toDouble, toDouble, if_neg left, if_neg right]
      exact roundMagnitude_mono (not_lt.mp left) le

end Underflow

end Gfiber.Lib
