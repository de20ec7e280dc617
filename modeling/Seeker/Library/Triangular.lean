/-
This file develops the moving average with triangular weights.

A signal is read in a window of `width` places on each side of its centre, with weights
that fall by one for each place. The weighted sum is that of two moving sums, one after
the other, and the mean therefore lies between the values of its window.
-/
import Mathlib.Algebra.BigOperators.Intervals
import Mathlib.Algebra.Order.BigOperators.Group.Finset
import Mathlib.Algebra.Order.Field.Basic
import Mathlib.Tactic.Linarith
import Mathlib.Tactic.Positivity
import Mathlib.Tactic.Ring

namespace Triangular

open Finset

section Sums

variable {K : Type*} [Field K]

/-- The centre with the weight `width + 1`, and the places at a distance with weights that fall to
one. -/
def weighted (width : Nat) (signal : Int → K) (centre : Int) : K :=
  signal centre * (width + 1) +
    ∑ i ∈ range width, (signal (centre - (i + 1)) + signal (centre + (i + 1))) *
      ((width : K) + 1 - (i + 1))

/-- The weighted sum over the sum of the weights. -/
def mean (width : Nat) (signal : Int → K) (centre : Int) : K :=
  weighted width signal centre / ((width + 1) * (width + 1))

/-- The moving sum of the moving sum. -/
def twice (width : Nat) (signal : Int → K) (centre : Int) : K :=
  ∑ a ∈ range (width + 1), ∑ b ∈ range (width + 1), signal (centre + a - b)

/-- A wider window adds each of its places once more. -/
theorem weighted_succ (width : Nat) (signal : Int → K) (centre : Int) :
    weighted (width + 1) signal centre = weighted width signal centre + signal centre +
      ∑ i ∈ range (width + 1), (signal (centre - (i + 1)) + signal (centre + (i + 1))) := by
  unfold weighted
  rw [sum_range_succ, sum_range_succ _ width]
  have heavier : ∑ i ∈ range width, (signal (centre - (i + 1)) + signal (centre + (i + 1))) *
      (((width + 1 : Nat) : K) + 1 - (i + 1)) =
      ∑ i ∈ range width, (signal (centre - (i + 1)) + signal (centre + (i + 1))) *
        ((width : K) + 1 - (i + 1)) +
      ∑ i ∈ range width, (signal (centre - (i + 1)) + signal (centre + (i + 1))) := by
    rw [← sum_add_distrib]
    refine sum_congr rfl fun i _ => ?_
    push_cast
    ring
  rw [heavier]
  push_cast
  ring

/-- The places before the centre, read from the far end. -/
theorem sum_before (width : Nat) (signal : Int → K) (centre : Int) :
    ∑ a ∈ range (width + 1), signal (centre + a - ((width : Int) + 1)) =
      ∑ i ∈ range (width + 1), signal (centre - (i + 1)) := by
  rw [← sum_range_reflect fun i => signal (centre - ((i : Int) + 1))]
  refine sum_congr rfl fun a member => ?_
  have small : a ≤ width := Nat.lt_succ_iff.mp (mem_range.mp member)
  congr 1
  omega

/-- The places behind the centre, read from the far end. -/
theorem sum_behind (width : Nat) (signal : Int → K) (centre : Int) :
    ∑ b ∈ range (width + 1), signal (centre + ((width : Int) + 1) - b) =
      ∑ i ∈ range (width + 1), signal (centre + (i + 1)) := by
  rw [← sum_range_reflect fun i => signal (centre + ((i : Int) + 1))]
  refine sum_congr rfl fun b member => ?_
  have small : b ≤ width := Nat.lt_succ_iff.mp (mem_range.mp member)
  congr 1
  omega

theorem weighted_eq_twice (width : Nat) (signal : Int → K) (centre : Int) :
    weighted width signal centre = twice width signal centre := by
  induction width with
  | zero => simp [weighted, twice]
  | succ width inductionHypothesis =>
    have inner : ∀ a : Nat, ∑ b ∈ range (width + 1 + 1), signal (centre + a - b) =
        ∑ b ∈ range (width + 1), signal (centre + a - b) +
          signal (centre + a - ((width : Int) + 1)) := by
      intro a
      rw [sum_range_succ]
      push_cast
      rfl
    have grown : twice (width + 1) signal centre = twice width signal centre +
        ∑ a ∈ range (width + 1), signal (centre + a - ((width : Int) + 1)) +
        (∑ b ∈ range (width + 1), signal (centre + ((width : Int) + 1) - b) + signal centre) := by
      unfold twice
      rw [sum_range_succ, sum_congr rfl fun a _ => inner a, sum_add_distrib, inner]
      push_cast
      rw [add_sub_cancel_right]
    rw [weighted_succ, inductionHypothesis, grown, sum_before, sum_behind, sum_add_distrib]
    ring

end Sums

section Bounds

variable {K : Type*} [Field K] [LinearOrder K] [IsStrictOrderedRing K]
  {width : Nat} {signal : Int → K} {centre : Int} {low high : K}

/-- Every value of the window lies between the bounds. -/
def Within (width : Nat) (signal : Int → K) (centre : Int) (low high : K) : Prop :=
  ∀ place, centre - width ≤ place → place ≤ centre + width →
    low ≤ signal place ∧ signal place ≤ high

/-- The mean lies between the bounds of its window. -/
theorem mean_mem (within : Within width signal centre low high) :
    low ≤ mean width signal centre ∧ mean width signal centre ≤ high := by
  have each : ∀ a ∈ range (width + 1), ∀ b ∈ range (width + 1),
      low ≤ signal (centre + a - b) ∧ signal (centre + a - b) ≤ high := by
    intro a smallA b smallB
    rw [mem_range] at smallA smallB
    exact within _ (by omega) (by omega)
  have size : (0 : K) < (width + 1) * (width + 1) := by positivity
  have least : ((width : K) + 1) * (width + 1) * low ≤ twice width signal centre := by
    calc ((width : K) + 1) * (width + 1) * low
        = ∑ a ∈ range (width + 1), ∑ b ∈ range (width + 1), low := by
          simp only [sum_const, card_range, nsmul_eq_mul]
          push_cast
          ring
      _ ≤ twice width signal centre :=
          sum_le_sum fun a smallA => sum_le_sum fun b smallB => (each a smallA b smallB).1
  have greatest : twice width signal centre ≤ ((width : K) + 1) * (width + 1) * high := by
    calc twice width signal centre
        ≤ ∑ a ∈ range (width + 1), ∑ b ∈ range (width + 1), high :=
          sum_le_sum fun a smallA => sum_le_sum fun b smallB => (each a smallA b smallB).2
      _ = ((width : K) + 1) * (width + 1) * high := by
          simp only [sum_const, card_range, nsmul_eq_mul]
          push_cast
          ring
  unfold mean
  rw [weighted_eq_twice, le_div_iff₀ size, div_le_iff₀ size]
  exact ⟨by linarith, by linarith⟩

end Bounds

end Triangular
