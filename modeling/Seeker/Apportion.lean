/-
This file proves how the loops of `greedy_delta` before its auction divide the load of
the system among the states.

`procs` works in ints, with two special cases and the division macro of `seeker.h`. As
long as twice the total hints times the load fit an `int`, nothing it computes wraps
and all of its branches give the same thing, the share of the load rounded to the
nearest integer. So the demands are within the load, grow with the hints, and add up to
the load but for the rounding.
-/
import Mathlib.Algebra.Order.BigOperators.Group.Finset
import Mathlib.Tactic.Linarith
import Seeker.Hints
import Seeker.Library.Shares

namespace Seeker

/-! ### Ints that fit -/

/-- The value fits an `int`. -/
def FitsInt (value : Int) : Prop := -2 ^ 31 ≤ value ∧ value < 2 ^ 31

theorem FitsInt.int32_eq {value : Int} (fits : FitsInt value) : int32 value = value :=
  int32_of_fits fits.1 fits.2

theorem fitsInt_of_nonneg {value : Int} (nonneg : 0 ≤ value) (small : value < 2 ^ 31) :
    FitsInt value := ⟨by omega, small⟩

/-- Where nothing wraps, `div` rounds to the nearest integer. -/
theorem div_eq {dividend divisor : Int} (nonneg : 0 ≤ dividend) (positive : 0 < divisor)
    (fits : 2 * dividend + divisor < 2 ^ 31) (small : 2 * divisor < 2 ^ 31) :
    div dividend divisor = (2 * dividend + divisor) / (2 * divisor) := by
  have doubled : int32 (2 * dividend) = 2 * dividend := int32_of_fits (by omega) (by omega)
  have numerator : int32 (2 * dividend + divisor) = 2 * dividend + divisor :=
    int32_of_fits (by omega) (by omega)
  have denominator : int32 (2 * divisor) = 2 * divisor := int32_of_fits (by omega) (by omega)
  unfold div
  rw [if_pos positive.ne', doubled, numerator, denominator]
  exact Int.tdiv_eq_ediv_of_nonneg (by omega)

/-- No state is given a negative demand. -/
theorem procs_nonneg {hints total totalLoad : Int} (load : 0 ≤ totalLoad) :
    0 ≤ procs hints total totalLoad := by
  unfold procs
  dsimp only
  split_ifs <;> omega

/-! ### The demand of one state -/

section Procs

variable {hints total totalLoad : Int} (nonneg : 0 ≤ hints) (part : hints ≤ total)
  (positive : 0 < total) (load : 0 ≤ totalLoad)

include nonneg part load in
/-- The product of the hints and the load is at most that of the total and the load. -/
theorem product_bounds : 0 ≤ hints * totalLoad ∧ hints * totalLoad ≤ total * totalLoad :=
  ⟨mul_nonneg nonneg load, mul_le_mul_of_nonneg_right part load⟩

variable (small : total < 2 ^ 30) (fits : 2 * total * totalLoad + total < 2 ^ 31)
include nonneg part positive load small fits

theorem div_eq_share : div (int32 (hints * totalLoad)) total = Shares.share hints total totalLoad := by
  obtain ⟨productNonneg, productSmall⟩ := product_bounds nonneg part load
  rw [mul_assoc] at fits
  rw [int32_of_fits (by omega) (by omega), div_eq productNonneg positive (by omega) (by omega),
    Shares.share_eq positive]

/-- The two special cases are what the division would give. -/
theorem procs_eq_share : procs hints total totalLoad = Shares.share hints total totalLoad := by
  have divided := div_eq_share nonneg part positive load small fits
  have shareNonneg := Shares.share_nonneg positive load nonneg
  unfold procs
  split_ifs with zero whole
  · rw [zero, Shares.share_zero]
  · rw [whole, Shares.share_self positive.ne']
  · dsimp only
    rw [divided, if_neg (not_lt.mpr shareNonneg)]

omit positive in
/-- A state is given no more cpus than the load. -/
theorem procs_le : procs hints total totalLoad ≤ totalLoad := by
  by_cases zero : hints = 0
  · unfold procs
    rw [if_pos zero]
    exact load
  · have positive : 0 < total := by omega
    rw [procs_eq_share nonneg part positive load small fits]
    exact Shares.share_le positive load part

end Procs

/-! ### The sums of the loops -/

/-- A part of a sum of entries that are not negative is at most the sum. -/
theorem sum_range_bounds {states count : Nat} {entry : Nat → Int}
    (nonneg : ∀ state, state < states → 0 ≤ entry state) (part : count ≤ states) :
    0 ≤ ∑ state ∈ Finset.range count, entry state ∧
      ∑ state ∈ Finset.range count, entry state ≤ ∑ state ∈ Finset.range states, entry state :=
  ⟨Finset.sum_nonneg fun state member => nonneg state ((Finset.mem_range.mp member).trans_le part),
    Finset.sum_le_sum_of_subset_of_nonneg (Finset.range_subset_range.mpr part)
      fun state member _ => nonneg state (Finset.mem_range.mp member)⟩

/-- Where the sum fits an `int` no addition of a loop that adds up the entries wraps. -/
theorem forRange_int32_add {states : Nat} {entry : Nat → Int}
    (nonneg : ∀ state, state < states → 0 ≤ entry state)
    (fits : ∑ state ∈ Finset.range states, entry state < 2 ^ 31) :
    Loops.forRange states (fun state total => int32 (total + entry state)) 0 =
      ∑ state ∈ Finset.range states, entry state := by
  refine Loops.forRange_induction (fun count (total : Int) =>
    total = ∑ state ∈ Finset.range count, entry state) rfl ?_
  rintro state small total rfl
  rw [← Finset.sum_range_succ]
  obtain ⟨sumNonneg, part⟩ := sum_range_bounds nonneg (show state + 1 ≤ states from small)
  exact int32_of_fits (by omega) (by omega)

/-! ### The demand vector -/

/-- The demand of a state as `greedy_delta` computes it: from the hints of all states, added up. -/
def stateDemand (states : Nat) (hints : Nat → Int) (load : Int) (state : Nat) : Int :=
  procs (hints state) (hintSum hints states) load

/-- The `total_demand` of `greedy_delta` before it is set to the load. -/
def totalDemand (states : Nat) (hints : Nat → Int) (load : Int) : Int :=
  Loops.forRange states (fun state total => int32 (total + stateDemand states hints load state)) 0

/-- The demand vector of an interval is computed from the hints of the state table. -/
theorem Interval.demand_eq (interval : Interval) (s : Scheduler) :
    interval.demand s =
      stateDemand s.totalStates (fun state => demandGet state s) (interval.load s) := rfl

/-- `procs` is exact: it returns the share of the load to the nearest integer, halves upwards,
which is within the load; the values it computes on the way fit an `int`; and the result of the
division, which it compares to zero, is not negative. -/
structure ProcsExact (hints total load : Int) : Prop where
  nearest : procs hints total load = round ((hints * load : ℚ) / total)
  nonneg : 0 ≤ procs hints total load
  within : procs hints total load ≤ load
  product : FitsInt (hints * load)
  doubled : FitsInt (2 * (hints * load))
  dividend : FitsInt (2 * (hints * load) + total)
  divisor : FitsInt (2 * total)
  unguarded : 0 ≤ div (int32 (hints * load)) total

theorem procs_exact {hints total load : Int} (nonneg : 0 ≤ hints) (part : hints ≤ total)
    (positive : 0 < total) (loadNonneg : 0 ≤ load) (small : total < 2 ^ 30)
    (fits : 2 * total * load + total < 2 ^ 31) : ProcsExact hints total load := by
  obtain ⟨productNonneg, productSmall⟩ := product_bounds nonneg part loadNonneg
  have room : 2 * (total * load) + total < 2 ^ 31 := by
    rw [← mul_assoc]
    exact fits
  exact
    { nearest := procs_eq_share nonneg part positive loadNonneg small fits
      nonneg := procs_nonneg loadNonneg
      within := procs_le nonneg part loadNonneg small fits
      product := fitsInt_of_nonneg productNonneg (by omega)
      doubled := fitsInt_of_nonneg (by omega) (by omega)
      dividend := fitsInt_of_nonneg (by omega) (by omega)
      divisor := fitsInt_of_nonneg (by omega) (by omega)
      unguarded := by
        rw [div_eq_share nonneg part positive loadNonneg small fits]
        exact Shares.share_nonneg positive loadNonneg nonneg }

theorem procs_mono {smaller larger total load : Int} (nonneg : 0 ≤ smaller)
    (ordered : smaller ≤ larger) (part : larger ≤ total) (positive : 0 < total)
    (loadNonneg : 0 ≤ load) (small : total < 2 ^ 30)
    (fits : 2 * total * load + total < 2 ^ 31) :
    procs smaller total load ≤ procs larger total load := by
  rw [procs_eq_share nonneg (ordered.trans part) positive loadNonneg small fits,
    procs_eq_share (nonneg.trans ordered) part positive loadNonneg small fits]
  exact Shares.share_mono positive loadNonneg ordered

/-- The load is divided among the states by their hints, which add up to `total`. -/
structure Apportions (states : Nat) (hints : Nat → Int) (total load : Int) : Prop where
  exact : ∀ state, state < states → ProcsExact (hints state) total load
  monotone : ∀ smaller larger, 0 ≤ smaller → smaller ≤ larger → larger ≤ total →
    procs smaller total load ≤ procs larger total load
  total_eq : hintSum hints states = total
  balanced : 2 * |∑ state ∈ Finset.range states, stateDemand states hints load state - load| ≤
    ((Finset.range states).filter fun state => hints state ≠ 0).card
  totalDemand_eq : totalDemand states hints load =
    ∑ state ∈ Finset.range states, stateDemand states hints load state
  sums : ∀ count, count ≤ states → FitsInt (∑ state ∈ Finset.range count, hints state) ∧
    FitsInt (∑ state ∈ Finset.range count, stateDemand states hints load state)

section Vector

variable {states : Nat} {hints : Nat → Int} {total load : Int}
  (nonneg : ∀ state, state < states → 0 ≤ hints state)
  (sum : ∑ state ∈ Finset.range states, hints state = total)
include nonneg sum

theorem hints_le_total {state : Nat} (inRange : state < states) : hints state ≤ total := by
  rw [← sum]
  exact Finset.single_le_sum (fun other member => nonneg other (Finset.mem_range.mp member))
    (Finset.mem_range.mpr inRange)

/-- There are no more states with hints than hints. -/
theorem card_hints_le :
    (((Finset.range states).filter fun state => hints state ≠ 0).card : Int) ≤ total := by
  rw [← sum, Finset.card_filter, Nat.cast_sum]
  refine Finset.sum_le_sum fun state member => ?_
  have stateNonneg := nonneg state (Finset.mem_range.mp member)
  split <;> omega

variable (positive : 0 < total) (loadNonneg : 0 ≤ load) (small : total < 2 ^ 30)
  (fits : 2 * total * load + total < 2 ^ 31)
include positive loadNonneg small fits

/-- The demands add up to the load but for the rounding. -/
theorem sum_stateDemand_error :
    2 * |∑ state ∈ Finset.range states, stateDemand states hints load state - load| ≤
      ((Finset.range states).filter fun state => hints state ≠ 0).card := by
  have accumulated : hintSum hints states = total :=
    (forRange_int32_add nonneg (by omega)).trans sum
  have shares : ∀ state ∈ Finset.range states, stateDemand states hints load state =
      Shares.share (hints state) (∑ state ∈ Finset.range states, hints state) load := by
    intro state member
    have inRange := Finset.mem_range.mp member
    unfold stateDemand
    rw [accumulated, sum]
    exact procs_eq_share (nonneg state inRange) (hints_le_total nonneg sum inRange) positive
      loadNonneg small fits
  rw [Finset.sum_congr rfl shares]
  exact Shares.sum_share_error (Finset.range states) hints (sum ▸ positive) load

/-- The sum of the demands fits an `int`: it is the load and at most half the hints. -/
theorem sum_stateDemand_lt :
    ∑ state ∈ Finset.range states, stateDemand states hints load state < 2 ^ 31 := by
  have error := sum_stateDemand_error nonneg sum positive loadNonneg small fits
  have hinted := card_hints_le nonneg sum
  have excess := le_abs_self
    (∑ state ∈ Finset.range states, stateDemand states hints load state - load)
  have product : load ≤ total * load := le_mul_of_one_le_left loadNonneg positive
  rw [mul_assoc] at fits
  omega

end Vector

/-- Whatever the hints, as long as twice their sum times the load fit an `int`, the load is divided
among the states by their hints. -/
theorem procs_apportions {states : Nat} {hints : Nat → Int} {total load : Int}
    (nonneg : ∀ state, state < states → 0 ≤ hints state)
    (sum : ∑ state ∈ Finset.range states, hints state = total) (positive : 0 < total)
    (loadNonneg : 0 ≤ load) (small : total < 2 ^ 30) (fits : 2 * total * load + total < 2 ^ 31) :
    Apportions states hints total load := by
  have demandNonneg : ∀ state, state < states → 0 ≤ stateDemand states hints load state :=
    fun _ _ => procs_nonneg loadNonneg
  have demandSmall := sum_stateDemand_lt nonneg sum positive loadNonneg small fits
  refine
    { exact := fun state inRange => procs_exact (nonneg state inRange)
        (hints_le_total nonneg sum inRange) positive loadNonneg small fits
      monotone := fun _ _ smallerNonneg ordered part =>
        procs_mono smallerNonneg ordered part positive loadNonneg small fits
      total_eq := (forRange_int32_add nonneg (by omega)).trans sum
      balanced := sum_stateDemand_error nonneg sum positive loadNonneg small fits
      totalDemand_eq := forRange_int32_add demandNonneg demandSmall
      sums := fun count within => ?_ }
  obtain ⟨hintNonneg, hintPart⟩ := sum_range_bounds nonneg within
  obtain ⟨sumNonneg, sumPart⟩ := sum_range_bounds demandNonneg within
  exact ⟨fitsInt_of_nonneg hintNonneg (by omega), fitsInt_of_nonneg sumNonneg (by omega)⟩

/-- Two states with one hint each and a load of one: both shares are rounded up, and the sum is as
far from the load as it can be. -/
theorem procs_apportions_two_halves :
    Apportions 2 (fun _ => 1) 2 1 ∧ (List.range 2).map (stateDemand 2 (fun _ => 1) 1) = [1, 1] :=
  ⟨procs_apportions (fun _ _ => Int.one_nonneg) (by decide) (by decide) (by decide) (by decide)
    (by decide), by decide⟩

/-- The demands of an interval add up to its load but for the rounding. -/
theorem Interval.sum_demand_error (interval : Interval) {s : Scheduler} {total : Int}
    (nonneg : ∀ state, state < s.totalStates → 0 ≤ demandGet state s)
    (sum : ∑ state ∈ Finset.range s.totalStates, demandGet state s = total) (positive : 0 < total)
    (small : total < 2 ^ 30) (fits : 2 * total * interval.load s + total < 2 ^ 31) :
    2 * |∑ state ∈ Finset.range s.totalStates, interval.demand s state - interval.load s| ≤
      ((Finset.range s.totalStates).filter fun state => demandGet state s ≠ 0).card := by
  rw [interval.demand_eq s]
  exact sum_stateDemand_error nonneg sum positive (Int.natCast_nonneg _) small fits

end Seeker
