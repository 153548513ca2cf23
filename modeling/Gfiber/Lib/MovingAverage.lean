import Mathlib.Algebra.BigOperators.Ring.Finset
import Mathlib.Algebra.Order.Ring.Defs
import Mathlib.Tactic.Linarith
import Mathlib.Tactic.Ring

/-! Exponential moving averages: each sample has one weight, and the average before it has the
rest. -/

set_option autoImplicit false

namespace Gfiber.Lib

variable {Value : Type} [Field Value]

/-- The average starts at zero, and the sample of each step is taken into it. -/
structure MovingAverage (weight : Value) (sample average : Nat → Value) (steps : Nat) : Prop where
  start : average 0 = 0
  step : ∀ n < steps, average (n + 1) = weight * sample n + (1 - weight) * average n

namespace MovingAverage

variable {weight : Value} {sample average : Nat → Value} {steps : Nat}

/-- The weight of a sample fades with every step after it. -/
theorem weights (moving : MovingAverage weight sample average steps) {n : Nat} (inside : n ≤ steps) :
    average n = ∑ i ∈ Finset.range n, weight * (1 - weight) ^ (n - 1 - i) * sample i := by
  induction n with
  | zero => exact moving.start
  | succ n ih =>
      have fades : (1 - weight) * average n =
          ∑ i ∈ Finset.range n, weight * (1 - weight) ^ (n - i) * sample i := by
        rw [ih (Nat.le_of_succ_le inside), Finset.mul_sum]
        apply Finset.sum_congr rfl
        intro i member
        have before : n - i = n - 1 - i + 1 := by
          have := Finset.mem_range.mp member
          omega
        rw [before, pow_succ]
        ring
      rw [moving.step n inside, fades, Nat.add_sub_cancel, Finset.sum_range_succ, Nat.sub_self,
        pow_zero, mul_one, add_comm]

section Bounds

variable [LinearOrder Value] [IsStrictOrderedRing Value]

theorem nonneg (moving : MovingAverage weight sample average steps) (least : 0 ≤ weight)
    (most : weight ≤ 1) (samples : ∀ i < steps, 0 ≤ sample i) {n : Nat} (inside : n ≤ steps) :
    0 ≤ average n := by
  induction n with
  | zero => exact le_of_eq moving.start.symm
  | succ n ih =>
      have before := ih (Nat.le_of_succ_le inside)
      rw [moving.step n inside]
      exact add_nonneg (mul_nonneg least (samples n inside))
        (mul_nonneg (sub_nonneg.mpr most) before)

/-- No average is over the largest sample so far. -/
theorem le_some (moving : MovingAverage weight sample average steps) (least : 0 ≤ weight)
    (most : weight ≤ 1) (samples : ∀ i < steps, 0 ≤ sample i) {n : Nat} (inside : n < steps) :
    ∃ i ≤ n, average (n + 1) ≤ sample i := by
  have rest : 0 ≤ 1 - weight := sub_nonneg.mpr most
  -- An average is between the newest sample and the average before it.
  have between : ∀ n < steps, average n ≤ sample n → average (n + 1) ≤ sample n := by
    intro n inside below
    rw [moving.step n inside]
    have scaled := mul_le_mul_of_nonneg_left below rest
    linarith
  induction n with
  | zero =>
      refine ⟨0, le_rfl, between 0 inside ?_⟩
      rw [moving.start]
      exact samples 0 inside
  | succ n ih =>
      cases le_total (average (n + 1)) (sample (n + 1)) with
      | inl below => exact ⟨n + 1, le_rfl, between (n + 1) inside below⟩
      | inr above =>
          obtain ⟨i, earlier, bound⟩ := ih (Nat.lt_of_succ_lt inside)
          refine ⟨i, Nat.le_succ_of_le earlier, le_trans ?_ bound⟩
          rw [moving.step (n + 1) inside]
          have scaled := mul_le_mul_of_nonneg_left above least
          linarith

end Bounds

end MovingAverage

end Gfiber.Lib
