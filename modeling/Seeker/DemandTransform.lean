/-
This file embeds `delta_based_demand_transform`, which takes the demand of the states
that no listed cpu can reach within delta to the nearest state that one can.

The demand a state loses is what another gains, so what the reachable states have in
the end is what all states had to begin with. The file proves that, and with it that
no addition overflows where the whole demand fits an `int`.
-/
import Mathlib.Algebra.BigOperators.Intervals
import Mathlib.Algebra.Order.BigOperators.Group.Finset
import Mathlib.Algebra.Order.Group.Int
import Seeker.Globals
import Seeker.Library.Loops

namespace Seeker

/-! ### The transform -/

/-- `can_win[j]`: some listed cpu is within delta of the state. -/
def canWin (cpus delta : Nat) (curCpuState cpuAwakeProxy : Nat → Nat) (j : Nat) : Bool :=
  (List.range cpus).any fun i => ((curCpuState (cpuAwakeProxy i) : Int) - j).natAbs ≤ delta

/-- `friend`: the nearer of the two states that can win on either side, and of two equally near
ones the one with more demand. Without any, `friend` would be `-1`. -/
def demandFriend (totalStates : Nat) (wins : Nat → Bool) (demand : Nat → Int) (j : Nat) :
    Option Nat :=
  match Loops.lastBelow wins (j + 1), Loops.firstFrom wins j totalStates with
  | none, right => right
  | some left, none => some left
  | some left, some right =>
    if ((left : Int) - j).natAbs = ((right : Int) - j).natAbs then
      some (if demand left > demand right then left else right)
    else some (if ((left : Int) - j).natAbs < ((right : Int) - j).natAbs then left else right)

/-- One turn of the second loop. -/
def transferDemand (totalStates : Nat) (wins : Nat → Bool) (j : Nat) (demand : Nat → Int) :
    Nat → Int :=
  if wins j = true ∨ demand j = 0 then demand
  else
    match demandFriend totalStates wins demand j with
    | none => demand
    | some receiver =>
      Function.update demand receiver (int32 (demand receiver + demand j))

/-- `delta_based_demand_transform`. -/
def deltaBasedDemandTransform (totalStates cpus delta : Nat)
    (curCpuState cpuAwakeProxy : Nat → Nat) (demand : Nat → Int) : Nat → Int :=
  Loops.forRange totalStates
    (transferDemand totalStates (canWin cpus delta curCpuState cpuAwakeProxy)) demand

/-! ### The state that receives -/

/-- A listed cpu's own state can win. -/
theorem canWin_own {cpus i : Nat} (small : i < cpus) (delta : Nat)
    (curCpuState cpuAwakeProxy : Nat → Nat) :
    canWin cpus delta curCpuState cpuAwakeProxy (curCpuState (cpuAwakeProxy i)) = true := by
  refine List.any_eq_true.mpr ⟨i, List.mem_range.mpr small, decide_eq_true ?_⟩
  rw [Int.sub_self]
  exact Nat.zero_le delta

section Friend

variable {totalStates j : Nat} {wins : Nat → Bool}

/-- Where some state can win, the demand of a state goes to one that can. -/
theorem demandFriend_spec (demand : Nat → Int) {winner : Nat} (inTable : winner < totalStates)
    (winnerWins : wins winner = true) (small : j < totalStates) :
    ∃ receiver, demandFriend totalStates wins demand j = some receiver ∧
      receiver < totalStates ∧ wins receiver = true := by
  have rightWins {right : Nat} (found : Loops.firstFrom wins j totalStates = some right) :
      right < totalStates ∧ wins right = true := by
    obtain ⟨⟨_, below⟩, win⟩ := Loops.firstFrom_eq_some found
    exact ⟨below, win⟩
  have leftWins {left : Nat} (found : Loops.lastBelow wins (j + 1) = some left) :
      left < totalStates ∧ wins left = true := by
    obtain ⟨below, win⟩ := Loops.lastBelow_eq_some found
    exact ⟨by omega, win⟩
  unfold demandFriend
  cases below : Loops.lastBelow wins (j + 1) with
  | none =>
    cases above : Loops.firstFrom wins j totalStates with
    | none =>
      have never : wins winner = false := by
        rcases Nat.lt_or_ge winner (j + 1) with before | behind
        · exact Loops.lastBelow_eq_none below before
        · exact Loops.firstFrom_eq_none above (by omega) inTable
      rw [winnerWins] at never
      cases never
    | some right => exact ⟨right, rfl, rightWins above⟩
  | some left =>
    cases above : Loops.firstFrom wins j totalStates with
    | none => exact ⟨left, rfl, leftWins below⟩
    | some right =>
      dsimp only
      split
      · refine ⟨_, rfl, ?_⟩
        split
        · exact leftWins below
        · exact rightWins above
      · refine ⟨_, rfl, ?_⟩
        split
        · exact leftWins below
        · exact rightWins above

end Friend

/-! ### What is conserved -/

/-- The demand of some states of the table. -/
def demandOf (totalStates : Nat) (selected : Nat → Bool) (demand : Nat → Int) : Int :=
  ∑ i ∈ Finset.range totalStates, if selected i then demand i else 0

section Conserved

variable {totalStates : Nat} {selected : Nat → Bool} {demand : Nat → Int}

/-- What is added to one of the states is added to the sum. -/
theorem demandOf_update {receiver : Nat} (inTable : receiver < totalStates)
    (isSelected : selected receiver = true) (amount : Int) :
    demandOf totalStates selected
        (Function.update demand receiver (demand receiver + amount)) =
      demandOf totalStates selected demand + amount := by
  have split (i : Nat) : (if selected i = true then
        Function.update demand receiver (demand receiver + amount) i else 0) =
      (if selected i = true then demand i else 0) + if i = receiver then amount else 0 := by
    by_cases here : i = receiver
    · rw [here, Function.update_self, if_pos isSelected, if_pos isSelected, if_pos rfl]
    · rw [Function.update_of_ne here, if_neg here, add_zero]
  unfold demandOf
  simp only [split]
  rw [Finset.sum_add_distrib, Finset.sum_ite_eq' _ receiver,
    if_pos (Finset.mem_range.mpr inTable)]

/-- One state more is selected. -/
theorem demandOf_insert (selected : Nat → Bool) (demand : Nat → Int) {j : Nat}
    (inTable : j < totalStates) (notYet : selected j = false) :
    demandOf totalStates (fun i => selected i || decide (i = j)) demand =
      demandOf totalStates selected demand + demand j := by
  have split (i : Nat) : (if (selected i || decide (i = j)) = true then demand i else 0) =
      (if selected i = true then demand i else 0) + if i = j then demand j else 0 := by
    by_cases here : i = j
    · subst here
      simp [notYet]
    · simp [here]
  unfold demandOf
  simp only [split]
  rw [Finset.sum_add_distrib, Finset.sum_ite_eq' _ j, if_pos (Finset.mem_range.mpr inTable)]

/-- The demand of one of the states is no more than that of all of them. -/
theorem le_demandOf {receiver : Nat} (nonneg : ∀ i, i < totalStates → 0 ≤ demand i)
    (inTable : receiver < totalStates) (isSelected : selected receiver = true) :
    demand receiver ≤ demandOf totalStates selected demand := by
  have single := Finset.single_le_sum
    (f := fun i => if selected i = true then demand i else 0) (s := Finset.range totalStates)
    (fun i member => by
      split
      · exact nonneg i (Finset.mem_range.mp member)
      · exact le_rfl) (Finset.mem_range.mpr inTable)
  rw [if_pos isSelected] at single
  exact single

theorem demandOf_le_all (selected : Nat → Bool) (nonneg : ∀ i, i < totalStates → 0 ≤ demand i) :
    demandOf totalStates selected demand ≤ ∑ i ∈ Finset.range totalStates, demand i := by
  refine Finset.sum_le_sum fun i member => ?_
  split
  · exact le_rfl
  · exact nonneg i (Finset.mem_range.mp member)

end Conserved

/-- The invariant of the second loop: the states that cannot win have what they had, and those
that can have what they and the states passed so far had. -/
structure Transferred (totalStates : Nat) (wins : Nat → Bool) (origin : Nat → Int) (count : Nat)
    (demand : Nat → Int) : Prop where
  kept : ∀ j, wins j = false → demand j = origin j
  atLeast : ∀ j, j < totalStates → origin j ≤ demand j
  conserved : demandOf totalStates wins demand =
    demandOf totalStates (fun i => wins i || decide (i < count)) origin

section Transfer

variable {totalStates : Nat} {wins : Nat → Bool} {origin : Nat → Int}

/-- The demand of the states that win or have been passed, when one more that loses is passed. -/
theorem demandOf_passed {j : Nat} (small : j < totalStates) (loses : wins j = false) :
    demandOf totalStates (fun i => wins i || decide (i < j + 1)) origin =
      demandOf totalStates (fun i => wins i || decide (i < j)) origin + origin j := by
  have passed : (fun i => wins i || decide (i < j + 1)) =
      fun i => (wins i || decide (i < j)) || decide (i = j) := by
    funext i
    rw [Bool.or_assoc, ← Bool.decide_or]
    simp only [Nat.lt_succ_iff_lt_or_eq]
  rw [passed]
  exact demandOf_insert (fun i => wins i || decide (i < j)) origin small (by simp [loses])

/-- Passing a state that wins, or one with nothing to give, changes nothing. -/
theorem Transferred.skip {j : Nat} {demand : Nat → Int} (small : j < totalStates)
    (transferred : Transferred totalStates wins origin j demand)
    (nothing : wins j = true ∨ demand j = 0) :
    Transferred totalStates wins origin (j + 1) demand := by
  refine ⟨transferred.kept, transferred.atLeast, transferred.conserved.trans ?_⟩
  cases win : wins j with
  | true =>
    congr 1
    funext i
    by_cases here : i = j
    · simp [here, win]
    · have past : i < j + 1 ↔ i < j := by omega
      simp only [past]
  | false =>
    have empty : origin j = 0 :=
      (transferred.kept j win).symm.trans (nothing.resolve_left (win ▸ Bool.false_ne_true))
    rw [demandOf_passed small win, empty, add_zero]

/-- A state that loses gives what it has to one that wins. -/
theorem Transferred.receive {j receiver : Nat} {demand : Nat → Int}
    (receiverSmall : receiver < totalStates) (receives : wins receiver = true)
    (loses : wins j = false) (nonneg : ∀ i, i < totalStates → 0 ≤ origin i)
    (fits : ∑ i ∈ Finset.range totalStates, origin i < 2 ^ 31) (small : j < totalStates)
    (transferred : Transferred totalStates wins origin j demand) :
    Transferred totalStates wins origin (j + 1)
      (Function.update demand receiver (int32 (demand receiver + demand j))) := by
  have here := transferred.kept j loses
  have whole : demandOf totalStates _ origin = _ + origin j := demandOf_passed small loses
  have some (i : Nat) (inside : i < totalStates) : 0 ≤ demand i :=
    (nonneg i inside).trans (transferred.atLeast i inside)
  have part : demand receiver + demand j ≤ ∑ i ∈ Finset.range totalStates, origin i := by
    have most := le_demandOf some receiverSmall receives
    rw [transferred.conserved] at most
    have all := demandOf_le_all (fun i => wins i || decide (i < j + 1)) nonneg
    rw [whole] at all
    omega
  have exactly : int32 (demand receiver + demand j) = demand receiver + demand j := by
    have first := some receiver receiverSmall
    have second := some j small
    exact int32_of_fits (by omega) (by omega)
  rw [exactly]
  refine ⟨fun i lost => ?_, fun i inside => ?_, ?_⟩
  · have different : i ≠ receiver := fun same => by
      rw [same, receives] at lost
      cases lost
    rw [Function.update_of_ne different]
    exact transferred.kept i lost
  · by_cases same : i = receiver
    · rw [same, Function.update_self]
      have before := transferred.atLeast receiver receiverSmall
      have more := some j small
      omega
    · rw [Function.update_of_ne same]
      exact transferred.atLeast i inside
  · rw [demandOf_update receiverSmall receives, transferred.conserved, whole, here]

theorem Transferred.step {winner j : Nat} {demand : Nat → Int} (inTable : winner < totalStates)
    (winnerWins : wins winner = true) (nonneg : ∀ i, i < totalStates → 0 ≤ origin i)
    (fits : ∑ i ∈ Finset.range totalStates, origin i < 2 ^ 31) (small : j < totalStates)
    (transferred : Transferred totalStates wins origin j demand) :
    Transferred totalStates wins origin (j + 1) (transferDemand totalStates wins j demand) := by
  unfold transferDemand
  by_cases nothing : wins j = true ∨ demand j = 0
  · rw [if_pos nothing]
    exact transferred.skip small nothing
  · rw [if_neg nothing]
    obtain ⟨receiver, found, receiverSmall, receives⟩ :=
      demandFriend_spec demand inTable winnerWins small
    rw [found]
    exact transferred.receive receiverSmall receives
      (eq_false_of_ne_true fun win => nothing (Or.inl win)) nonneg fits small

/-- What the transform does where a state can win and the whole demand fits an `int`. -/
theorem deltaBasedDemandTransform_transferred {cpus : Nat} (delta : Nat)
    {curCpuState cpuAwakeProxy : Nat → Nat} (someCpu : 0 < cpus)
    (inTable : curCpuState (cpuAwakeProxy 0) < totalStates)
    (nonneg : ∀ i, i < totalStates → 0 ≤ origin i)
    (fits : ∑ i ∈ Finset.range totalStates, origin i < 2 ^ 31) :
    Transferred totalStates (canWin cpus delta curCpuState cpuAwakeProxy) origin totalStates
      (deltaBasedDemandTransform totalStates cpus delta curCpuState cpuAwakeProxy origin) := by
  refine Loops.forRange_induction (fun count demand =>
    Transferred totalStates (canWin cpus delta curCpuState cpuAwakeProxy) origin count demand) ?_ ?_
  · refine ⟨fun _ _ => rfl, fun _ _ => le_rfl, ?_⟩
    simp only [Nat.not_lt_zero, decide_false, Bool.or_false]
  · intro j small demand transferred
    exact transferred.step inTable (canWin_own someCpu delta curCpuState cpuAwakeProxy) nonneg fits
      small

end Transfer

/-- No state ends up with less than it had, nor with more than all of them had. -/
theorem deltaBasedDemandTransform_bounds {totalStates cpus : Nat} (delta : Nat)
    {curCpuState cpuAwakeProxy : Nat → Nat} {demand : Nat → Int} (someCpu : 0 < cpus)
    (inTable : curCpuState (cpuAwakeProxy 0) < totalStates)
    (nonneg : ∀ i, i < totalStates → 0 ≤ demand i)
    (fits : ∑ i ∈ Finset.range totalStates, demand i < 2 ^ 31) {j : Nat} (small : j < totalStates) :
    demand j ≤ deltaBasedDemandTransform totalStates cpus delta curCpuState cpuAwakeProxy demand j ∧
      deltaBasedDemandTransform totalStates cpus delta curCpuState cpuAwakeProxy demand j ≤
        ∑ i ∈ Finset.range totalStates, demand i := by
  have transferred := deltaBasedDemandTransform_transferred delta someCpu inTable nonneg fits
  refine ⟨transferred.atLeast j small, ?_⟩
  have some (i : Nat) (inside : i < totalStates) := (nonneg i inside).trans
    (transferred.atLeast i inside)
  by_cases win : canWin cpus delta curCpuState cpuAwakeProxy j = true
  · have most := le_demandOf some small win
    rw [transferred.conserved] at most
    exact most.trans (demandOf_le_all _ nonneg)
  · rw [transferred.kept j (eq_false_of_ne_true win)]
    exact Finset.single_le_sum (fun i member => nonneg i (Finset.mem_range.mp member))
      (Finset.mem_range.mpr small)

end Seeker
