/-
This file divides a whole among owners by their weights and rounds each share.

`share weight total whole` is the integer nearest to `weight * whole / total`, halves
upwards. Rounded shares need not add up to the whole, but each is off by at most one
half and only those of a positive weight are off at all: the error of the sum is at
most half the number of owners with a weight.
-/
import Mathlib.Algebra.Order.BigOperators.Group.Finset
import Mathlib.Algebra.Order.Round
import Mathlib.Algebra.BigOperators.Field
import Mathlib.Data.Rat.BigOperators
import Mathlib.Data.Rat.Floor
import Mathlib.Tactic.FieldSimp
import Mathlib.Tactic.Linarith

namespace Shares

/-! ### Rounding -/

section Rounding

variable {Scalar : Type*} [Field Scalar] [LinearOrder Scalar] [IsStrictOrderedRing Scalar]
  [FloorRing Scalar] {Owner : Type*}

theorem round_mono {first second : Scalar} (ordered : first ≤ second) :
    round first ≤ round second := by
  rw [round_eq, round_eq]
  exact Int.floor_le_floor (by linarith)

/-- Rounded values add up to the sum of the values with an error of at most one half for each
value that is not zero. -/
theorem abs_sum_round_sub_le (owners : Finset Owner) (value : Owner → Scalar) :
    |∑ owner ∈ owners, (round (value owner) : Scalar) - ∑ owner ∈ owners, value owner| ≤
      ((owners.filter fun owner => value owner ≠ 0).card : Scalar) / 2 := by
  have exact : ∀ owner ∈ owners, (round (value owner) : Scalar) - value owner ≠ 0 →
      value owner ≠ 0 := by
    intro owner _ different zero
    rw [zero, round_zero, Int.cast_zero, sub_zero] at different
    exact different rfl
  rw [← Finset.sum_sub_distrib, ← Finset.sum_filter_of_ne exact]
  calc |∑ owner ∈ owners with value owner ≠ 0, ((round (value owner) : Scalar) - value owner)|
      ≤ ∑ owner ∈ owners with value owner ≠ 0, |(round (value owner) : Scalar) - value owner| :=
        Finset.abs_sum_le_sum_abs _ _
    _ ≤ ∑ owner ∈ owners with value owner ≠ 0, (1 / 2 : Scalar) := by
        refine Finset.sum_le_sum fun owner _ => ?_
        rw [abs_sub_comm]
        exact abs_sub_round (value owner)
    _ = ((owners.filter fun owner => value owner ≠ 0).card : Scalar) / 2 := by
        rw [Finset.sum_const, nsmul_eq_mul, mul_one_div]

end Rounding

/-! ### Shares -/

/-- The share of `whole` that `weight` out of `total` is entitled to, to the nearest integer. -/
def share (weight total whole : Int) : Int := round ((weight * whole : ℚ) / total)

variable {weight other total whole : Int} {Owner : Type*}

/-- A quotient is rounded by a division that adds half of the divisor first. -/
theorem round_div {dividend divisor : Int} (positive : 0 < divisor) :
    round ((dividend : ℚ) / divisor) = (2 * dividend + divisor) / (2 * divisor) := by
  obtain ⟨count, rfl⟩ := Int.eq_ofNat_of_zero_le positive.le
  have nonzero : ((count : Int) : ℚ) ≠ 0 := by exact_mod_cast positive.ne'
  have half : (dividend : ℚ) / (count : Int) + 1 / 2 =
      ((2 * dividend + count : Int) : ℚ) / ((2 * count : Nat) : ℚ) := by
    push_cast
    push_cast at nonzero
    field_simp
  rw [round_eq, half, Rat.floor_intCast_div_natCast]
  push_cast
  rfl

theorem share_eq (positive : 0 < total) :
    share weight total whole = (2 * (weight * whole) + total) / (2 * total) := by
  unfold share
  rw [← round_div positive]
  push_cast
  rfl

@[simp]
theorem share_zero (total whole : Int) : share 0 total whole = 0 := by
  simp [share]

/-- All of the weight is entitled to all there is. -/
theorem share_self (nonzero : total ≠ 0) : share total total whole = whole := by
  unfold share
  rw [mul_div_cancel_left₀ _ (Int.cast_ne_zero.mpr nonzero), round_intCast]

theorem share_mono (positive : 0 < total) (nonneg : 0 ≤ whole) (ordered : weight ≤ other) :
    share weight total whole ≤ share other total whole := by
  refine round_mono (div_le_div_of_nonneg_right ?_ (by exact_mod_cast positive.le))
  exact_mod_cast mul_le_mul_of_nonneg_right ordered nonneg

theorem share_nonneg (positive : 0 < total) (nonneg : 0 ≤ whole) (weightNonneg : 0 ≤ weight) :
    0 ≤ share weight total whole :=
  (share_zero total whole).symm.le.trans (share_mono positive nonneg weightNonneg)

theorem share_le (positive : 0 < total) (nonneg : 0 ≤ whole) (part : weight ≤ total) :
    share weight total whole ≤ whole :=
  (share_mono positive nonneg part).trans (share_self positive.ne').le

/-- The rounded shares add up to the whole with an error of at most half the number of owners that
have a weight. -/
theorem sum_share_error (owners : Finset Owner) (weights : Owner → Int)
    (positive : 0 < ∑ owner ∈ owners, weights owner) (whole : Int) :
    2 * |∑ owner ∈ owners, share (weights owner) (∑ owner ∈ owners, weights owner) whole - whole| ≤
      (owners.filter fun owner => weights owner ≠ 0).card := by
  generalize total_eq : ∑ owner ∈ owners, weights owner = total at positive ⊢
  have nonzero : (total : ℚ) ≠ 0 := by exact_mod_cast positive.ne'
  have exact : ∑ owner ∈ owners, (weights owner * whole : ℚ) / total = whole := by
    rw [← Finset.sum_div, ← Finset.sum_mul, ← Int.cast_sum, total_eq, mul_div_cancel_left₀ _ nonzero]
  have error := abs_sum_round_sub_le owners fun owner => (weights owner * whole : ℚ) / total
  rw [exact] at error
  have fewer : (owners.filter fun owner => (weights owner * whole : ℚ) / total ≠ 0).card ≤
      (owners.filter fun owner => weights owner ≠ 0).card := by
    refine Finset.card_le_card fun owner member => ?_
    rw [Finset.mem_filter] at member ⊢
    refine ⟨member.1, fun zero => member.2 ?_⟩
    rw [zero, Int.cast_zero, zero_mul, zero_div]
  have bound : (2 * |∑ owner ∈ owners, (share (weights owner) total whole : ℚ) - whole| : ℚ) ≤
      (owners.filter fun owner => weights owner ≠ 0).card := by
    have fewerCast : ((owners.filter fun owner => (weights owner * whole : ℚ) / total ≠ 0).card : ℚ) ≤
        (owners.filter fun owner => weights owner ≠ 0).card := by exact_mod_cast fewer
    unfold share
    linarith
  exact_mod_cast bound

end Shares
