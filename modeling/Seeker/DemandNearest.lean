/-
This file says where `delta_based_demand_transform` takes the demand of a state that no
listed cpu can win.

The two searches from such a state find the next winnable states on both sides, and the
friend is the nearer of them, so it is a nearest winnable state of all. Of two equally
near ones it is the one that has more demand at that moment, which depends on what has
been transferred before; the receivers are therefore those of a run. Wherever some cpu
is listed there is a friend, so `demand` is never indexed with `-1`.
-/
import Mathlib.Algebra.BigOperators.ModEq
import Seeker.DemandTransform
import Seeker.Library.Gather
import Seeker.Library.Nearest

namespace Seeker

open Gather Nearest

/-! ### The friend is a nearest winnable state -/

/-- Some listed cpu is within delta of the state. -/
def Winnable (cpus delta : Nat) (curCpuState cpuAwakeProxy : Nat → Nat) (j : Nat) : Prop :=
  ∃ i, i < cpus ∧ ((curCpuState (cpuAwakeProxy i) : Int) - j).natAbs ≤ delta

theorem canWin_iff {cpus delta : Nat} {curCpuState cpuAwakeProxy : Nat → Nat} {j : Nat} :
    canWin cpus delta curCpuState cpuAwakeProxy j = true ↔
      Winnable cpus delta curCpuState cpuAwakeProxy j := by
  unfold canWin Winnable
  simp only [List.any_eq_true, List.mem_range, decide_eq_true_eq]

/-- The distance of two states. -/
def between (j other : Nat) : Nat := ((j : Int) - other).natAbs

/-- A state that wins and is no farther than any other that does. -/
def IsNearestWinner (totalStates : Nat) (wins : Nat → Bool) (j receiver : Nat) : Prop :=
  (receiver < totalStates ∧ wins receiver = true) ∧
    ∀ other, other < totalStates → wins other = true → between j receiver ≤ between j other

section Friend

variable {totalStates j left right : Nat} {wins : Nat → Bool}

/-- One of the next winners on both sides, if it is no farther than the other one, is a nearest
one. -/
theorem isNearestWinner_of {receiver : Nat} (lower : IsDown (indices wins totalStates) j left)
    (upper : IsUp (indices wins totalStates) j right)
    (member : receiver ∈ indices wins totalStates)
    (downNo : between j receiver ≤ between j left) (upNo : between j receiver ≤ between j right) :
    IsNearestWinner totalStates wins j receiver := by
  have gauge : IsGauge j (between j) := isGauge_between j
  refine ⟨member, fun other small win => ?_⟩
  rcases le_total other j with below | above
  · exact downNo.trans (gauge.down_le lower ⟨small, win⟩ below)
  · exact upNo.trans (gauge.up_le upper ⟨small, win⟩ above)

/-- The friend of a state is a nearest winner. -/
theorem demandFriend_nearest {demand : Nat → Int} {receiver : Nat} (small : j < totalStates)
    (loses : wins j = false) (chosen : demandFriend totalStates wins demand j = some receiver) :
    IsNearestWinner totalStates wins j receiver := by
  have leftSame : Loops.lastBelow wins (j + 1) = Loops.lastBelow wins j := by
    rw [Loops.lastBelow, loses, if_neg Bool.false_ne_true]
  have rightSame : Loops.firstFrom wins j totalStates =
      Loops.firstFrom wins (j + 1) totalStates := by
    rw [Loops.firstFrom_of_lt small, loses, if_neg Bool.false_ne_true]
  unfold demandFriend at chosen
  cases leftIs : Loops.lastBelow wins (j + 1) with
  | none =>
    rw [leftIs] at chosen
    dsimp only at chosen
    have down : IsDown (indices wins totalStates) j receiver :=
      isDown_of_searches small (by rw [leftIs, ← rightSame, chosen]; rfl)
    have up : IsUp (indices wins totalStates) j receiver :=
      isUp_of_searches small (by rw [chosen]; rfl)
    exact isNearestWinner_of down up up.mem le_rfl le_rfl
  | some left =>
    have down : IsDown (indices wins totalStates) j left :=
      isDown_of_searches small (by rw [leftIs]; rfl)
    cases rightIs : Loops.firstFrom wins j totalStates with
    | none =>
      rw [leftIs, rightIs] at chosen
      obtain rfl := Option.some.inj chosen
      have up : IsUp (indices wins totalStates) j left :=
        isUp_of_searches small (by rw [rightIs, ← leftSame, leftIs]; rfl)
      exact isNearestWinner_of down up up.mem le_rfl le_rfl
    | some right =>
      have up : IsUp (indices wins totalStates) j right :=
        isUp_of_searches small (by rw [rightIs]; rfl)
      have apart (other : Nat) : ((other : Int) - j).natAbs = between j other := by
        unfold between
        omega
      rw [leftIs, rightIs] at chosen
      dsimp only at chosen
      rw [apart, apart] at chosen
      split at chosen
      · rename_i equallyNear
        obtain rfl := Option.some.inj chosen
        split
        · exact isNearestWinner_of down up down.mem le_rfl equallyNear.le
        · exact isNearestWinner_of down up up.mem equallyNear.ge le_rfl
      · obtain rfl := Option.some.inj chosen
        split
        · rename_i nearer
          exact isNearestWinner_of down up down.mem le_rfl nearer.le
        · rename_i farther
          exact isNearestWinner_of down up up.mem (not_lt.mp farther) le_rfl

end Friend

/-! ### Who gives what to whom -/

/-- The states below `count` that no listed cpu can win. -/
def losers (wins : Nat → Bool) (count : Nat) : Finset Nat :=
  (Finset.range count).filter fun j => wins j = false

theorem losers_succ (wins : Nat → Bool) (count : Nat) :
    losers wins (count + 1) =
      if wins count = false then insert count (losers wins count) else losers wins count := by
  unfold losers
  rw [Finset.range_add_one, Finset.filter_insert]

theorem notMem_losers (wins : Nat → Bool) (count : Nat) : count ∉ losers wins count :=
  fun member => Finset.notMem_range_self (Finset.mem_of_mem_filter count member)

/-- What the second loop has done for the states below `count`: those that lose have given a copy
of their demand to a nearest winner. -/
structure Given (totalStates : Nat) (wins : Nat → Bool) (origin : Nat → Int) (count : Nat)
    (receiver : Nat → Nat) (demand : Nat → Int) : Prop where
  kept : ∀ j, wins j = false → demand j = origin j
  shares : ∀ j, j < totalStates → wins j = true →
    demand j = int32 (gathered (losers wins count) receiver origin j)
  nearest : ∀ j, j < count → wins j = false →
    IsNearestWinner totalStates wins j (receiver j)

section Turn

variable {totalStates j : Nat} {wins : Nat → Bool} {origin demand : Nat → Int}
  {receiver : Nat → Nat}

/-- A winner gives nothing. -/
theorem Given.keep (given : Given totalStates wins origin j receiver demand)
    (win : wins j = true) : Given totalStates wins origin (j + 1) receiver demand := by
  have different : wins j ≠ false := win ▸ Bool.noConfusion
  refine ⟨given.kept, fun other small winner => ?_, fun other before loses => ?_⟩
  · rw [losers_succ, if_neg different]
    exact given.shares other small winner
  · rcases Nat.lt_succ_iff_lt_or_eq.mp before with earlier | rfl
    · exact given.nearest other earlier loses
    · exact absurd loses different

/-- The receiver of a loser is added to those before. -/
theorem Given.nearest_update (given : Given totalStates wins origin j receiver demand)
    {friend : Nat} (near : IsNearestWinner totalStates wins j friend) (other : Nat)
    (before : other < j + 1) (loses : wins other = false) :
    IsNearestWinner totalStates wins other (Function.update receiver j friend other) := by
  rcases Nat.lt_succ_iff_lt_or_eq.mp before with earlier | rfl
  · rw [Function.update_of_ne (Nat.ne_of_lt earlier)]
    exact given.nearest other earlier loses
  · rw [Function.update_self]
    exact near

/-- What the winners are to have when one more state gives its demand. -/
theorem gathered_losers_succ (loses : wins j = false) (friend other : Nat) :
    gathered (losers wins (j + 1)) (Function.update receiver j friend) origin other =
      gathered (losers wins j) receiver origin other + if friend = other then origin j else 0 := by
  rw [losers_succ, if_pos loses, gathered_insert (notMem_losers wins j),
    gathered_update (notMem_losers wins j), Function.update_self]

/-- A loser gives a copy of its demand to its friend. -/
theorem Given.give (given : Given totalStates wins origin j receiver demand)
    (loses : wins j = false) {friend : Nat} (near : IsNearestWinner totalStates wins j friend) :
    Given totalStates wins origin (j + 1) (Function.update receiver j friend)
      (Function.update demand friend (int32 (demand friend + demand j))) := by
  refine ⟨fun other lost => ?_, fun other small win => ?_, given.nearest_update near⟩
  · have apart : other ≠ friend := fun same => by
      rw [same, near.1.2] at lost
      cases lost
    rw [Function.update_of_ne apart]
    exact given.kept other lost
  · rw [gathered_losers_succ loses]
    by_cases here : other = friend
    · rw [here, Function.update_self, if_pos rfl, given.kept j loses,
        given.shares friend near.1.1 near.1.2, int32_add]
    · rw [Function.update_of_ne here, if_neg (Ne.symm here), add_zero]
      exact given.shares other small win

/-- A loser without demand gives nothing, whoever its friend would be. -/
theorem Given.giveNothing (given : Given totalStates wins origin j receiver demand)
    (loses : wins j = false) (nothing : demand j = 0) {friend : Nat}
    (near : IsNearestWinner totalStates wins j friend) :
    Given totalStates wins origin (j + 1) (Function.update receiver j friend) demand := by
  refine ⟨given.kept, fun other small win => ?_, given.nearest_update near⟩
  rw [gathered_losers_succ loses, ← given.kept j loses, nothing, ite_self, add_zero]
  exact given.shares other small win

/-- One turn of the loop. -/
theorem Given.step (given : Given totalStates wins origin j receiver demand) {winner : Nat}
    (inTable : winner < totalStates) (winnerWins : wins winner = true) (small : j < totalStates) :
    ∃ receiver, Given totalStates wins origin (j + 1) receiver
      (transferDemand totalStates wins j demand) := by
  unfold transferDemand
  cases win : wins j with
  | true =>
    rw [if_pos (Or.inl rfl)]
    exact ⟨receiver, given.keep win⟩
  | false =>
    obtain ⟨friend, found, _⟩ := demandFriend_spec demand inTable winnerWins small
    have near := demandFriend_nearest small win found
    by_cases nothing : demand j = 0
    · rw [if_pos (Or.inr nothing)]
      exact ⟨_, given.giveNothing win nothing near⟩
    · rw [if_neg (by simp [nothing]), found]
      exact ⟨_, given.give win near⟩

end Turn

/-! ### What is conserved -/

section Transform

variable {totalStates cpus : Nat} {curCpuState cpuAwakeProxy : Nat → Nat} {origin : Nat → Int}

theorem deltaBasedDemandTransform_given (delta : Nat) (someCpu : 0 < cpus)
    (inTable : curCpuState (cpuAwakeProxy 0) < totalStates)
    (ints : ∀ j, j < totalStates → 0 ≤ origin j ∧ origin j < 2 ^ 31) :
    ∃ receiver, Given totalStates (canWin cpus delta curCpuState cpuAwakeProxy) origin totalStates
      receiver
      (deltaBasedDemandTransform totalStates cpus delta curCpuState cpuAwakeProxy origin) := by
  refine Loops.forRange_induction (fun count demand => ∃ receiver,
    Given totalStates (canWin cpus delta curCpuState cpuAwakeProxy) origin count receiver demand)
    ⟨id, fun _ _ => rfl, fun j small _ => ?_, fun _ before => absurd before (Nat.not_lt_zero _)⟩ ?_
  · obtain ⟨nonneg, fits⟩ := ints j small
    show origin j = int32 (gathered ∅ id origin j)
    rw [gathered_empty, int32_of_fits (by omega) fits]
  · rintro j small demand ⟨receiver, given⟩
    exact given.step inTable (canWin_own someCpu delta curCpuState cpuAwakeProxy) small

/-- What the transform is to do: each state that no listed cpu can win gives its demand to a nearest
one that can be won, and keeps it on record. -/
structure Transforms (totalStates cpus delta : Nat) (curCpuState cpuAwakeProxy : Nat → Nat)
    (origin : Nat → Int) (receiver : Nat → Nat) (demand : Nat → Int) : Prop where
  nearest : ∀ j, j < totalStates → ¬ Winnable cpus delta curCpuState cpuAwakeProxy j →
    (receiver j < totalStates ∧ Winnable cpus delta curCpuState cpuAwakeProxy (receiver j)) ∧
      ∀ other, other < totalStates → Winnable cpus delta curCpuState cpuAwakeProxy other →
        between j (receiver j) ≤ between j other
  kept : ∀ j, j < totalStates → ¬ Winnable cpus delta curCpuState cpuAwakeProxy j →
    demand j = origin j
  shares : ∀ j, j < totalStates → Winnable cpus delta curCpuState cpuAwakeProxy j →
    demand j = int32 (gathered
      (losers (canWin cpus delta curCpuState cpuAwakeProxy) totalStates) receiver origin j)
  sum : ∑ j ∈ Finset.range totalStates, origin j < 2 ^ 31 →
    demandOf totalStates (canWin cpus delta curCpuState cpuAwakeProxy) demand =
      ∑ j ∈ Finset.range totalStates, origin j
  sum_wrapped : demandOf totalStates (canWin cpus delta curCpuState cpuAwakeProxy) demand ≡
    ∑ j ∈ Finset.range totalStates, origin j [ZMOD 2 ^ 32]

section Sum

variable {wins : Nat → Bool} {receiver : Nat → Nat} {demand : Nat → Int}

/-- What the winners are to have is what all states had. -/
theorem Given.sum_gathered (given : Given totalStates wins origin totalStates receiver demand) :
    ∑ j ∈ Finset.range totalStates with wins j = true,
        gathered (losers wins totalStates) receiver origin j =
      ∑ j ∈ Finset.range totalStates, origin j := by
  have maps : ∀ source ∈ losers wins totalStates,
      receiver source ∈ (Finset.range totalStates).filter fun j => wins j = true := by
    intro source member
    obtain ⟨small, loses⟩ := Finset.mem_filter.mp member
    obtain ⟨receiverSmall, win⟩ := (given.nearest source (Finset.mem_range.mp small) loses).1
    exact Finset.mem_filter.mpr ⟨Finset.mem_range.mpr receiverSmall, win⟩
  have whole : ∑ j ∈ Finset.range totalStates with wins j = true, origin j +
      ∑ j ∈ losers wins totalStates, origin j = ∑ j ∈ Finset.range totalStates, origin j := by
    unfold losers
    simp only [← Bool.not_eq_true]
    exact Finset.sum_filter_add_sum_filter_not _ _ _
  rw [Gather.sum_gathered maps, whole]

theorem Given.demandOf_modEq
    (given : Given totalStates wins origin totalStates receiver demand) :
    demandOf totalStates wins demand ≡
      ∑ j ∈ Finset.range totalStates, origin j [ZMOD 2 ^ 32] := by
  unfold demandOf
  rw [← Finset.sum_filter, ← given.sum_gathered]
  refine Int.ModEq.sum fun j member => ?_
  obtain ⟨small, win⟩ := Finset.mem_filter.mp member
  rw [given.shares j (Finset.mem_range.mp small) win]
  exact int32_modEq _

end Sum

/-- What all states that win or have been passed have is, after the last one, the whole demand. -/
theorem Transferred.demandOf_eq {wins : Nat → Bool} {demand : Nat → Int}
    (transferred : Transferred totalStates wins origin totalStates demand) :
    demandOf totalStates wins demand = ∑ j ∈ Finset.range totalStates, origin j := by
  rw [transferred.conserved]
  refine Finset.sum_congr rfl fun j member => if_pos ?_
  dsimp only
  rw [decide_eq_true (Finset.mem_range.mp member), Bool.or_true]

/-- For every demand and all listed cpus, the transform conserves the demand in the states that can
be won, and in no round looks for a state that there is not. -/
theorem demand_transform_conserves (totalStates delta : Nat) (curCpuState cpuAwakeProxy : Nat → Nat)
    (origin : Nat → Int) (someCpu : 0 < cpus)
    (inTable : ∀ i, i < cpus → curCpuState (cpuAwakeProxy i) < totalStates)
    (ints : ∀ j, j < totalStates → 0 ≤ origin j ∧ origin j < 2 ^ 31) :
    (∃ receiver, Transforms totalStates cpus delta curCpuState cpuAwakeProxy origin receiver
      (deltaBasedDemandTransform totalStates cpus delta curCpuState cpuAwakeProxy origin)) ∧
      ∀ demand j, j < totalStates →
        (demandFriend totalStates (canWin cpus delta curCpuState cpuAwakeProxy) demand j).isSome := by
  have first := inTable 0 someCpu
  obtain ⟨receiver, given⟩ := deltaBasedDemandTransform_given delta someCpu first ints
  have loses {j : Nat} (unwinnable : ¬ Winnable cpus delta curCpuState cpuAwakeProxy j) :
      canWin cpus delta curCpuState cpuAwakeProxy j = false :=
    eq_false_of_ne_true fun win => unwinnable (canWin_iff.mp win)
  refine ⟨⟨receiver, ?_, ?_, ?_, fun fits => ?_, given.demandOf_modEq⟩, ?_⟩
  · intro j small unwinnable
    obtain ⟨⟨receiverSmall, win⟩, near⟩ := given.nearest j small (loses unwinnable)
    exact ⟨⟨receiverSmall, canWin_iff.mp win⟩, fun other otherSmall otherWins =>
      near other otherSmall (canWin_iff.mpr otherWins)⟩
  · exact fun j _ unwinnable => given.kept j (loses unwinnable)
  · exact fun j small win => given.shares j small (canWin_iff.mpr win)
  · exact (deltaBasedDemandTransform_transferred delta someCpu first
      (fun j small => (ints j small).1) fits).demandOf_eq
  · intro demand j small
    obtain ⟨friend, found, _⟩ := demandFriend_spec demand first
      (canWin_own someCpu delta curCpuState cpuAwakeProxy) small
    rw [found]
    rfl

end Transform

/-- One listed cpu in the middle one of three states and no delta: the outer states give it their
demand. -/
theorem demand_transform_conserves_middle :
    demandOf 3 (canWin 1 0 (fun _ => 1) fun _ => 0)
        (deltaBasedDemandTransform 3 1 0 (fun _ => 1) (fun _ => 0) fun state => state + 1) = 6 := by
  obtain ⟨⟨receiver, transforms⟩, _⟩ := demand_transform_conserves 3 0 (fun _ => 1) (fun _ => 0)
    (fun state => state + 1) Nat.one_pos (by decide) (by decide)
  exact transforms.sum (by decide)

end Seeker
