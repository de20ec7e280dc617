/-
This file says where `update_demand_field` takes the demand of a state without weight.

In each direction such a state has one friend: the nearest state with weight on the
preferred side, or on the other side where there is none, or the nearest of all. A
state with weight ends up with its own demand and that of the states it is the friend
of, so the sum is kept, and its proxy source is a state with demand. The additions are
those of an `int`, so the sum is kept modulo the number of its values whatever the
demand is.
-/
import Mathlib.Algebra.BigOperators.ModEq
import Seeker.AuctionDemand
import Seeker.Library.Gather
import Seeker.Library.Nearest

namespace Seeker

open Gather Nearest

variable {states : Nat} {dir : Int} {stateWeight demand : Nat → Int}

/-! ### The friend of a state -/

/-- The states with weight. -/
def weightyStates (states : Nat) (stateWeight : Nat → Int) : Set Nat :=
  {state | state < states ∧ stateWeight state ≠ 0}

/-- The friend of a state: in direction `1` the next state with weight downwards, in direction `-1`
upwards, each with the other side to fall back on, and in direction `0` the nearest one, the lower
of two. -/
structure IsFriend (states : Nat) (dir : Int) (stateWeight : Nat → Int) (state friend : Nat) :
    Prop where
  left : dir = 1 → IsDown (weightyStates states stateWeight) state friend
  right : dir = -1 → IsUp (weightyStates states stateWeight) state friend
  nearest : dir = 0 → IsFirstMin (fun other : Nat => ((state : Int) - other).natAbs)
    (weightyStates states stateWeight) friend

/-- The friend that `update_demand_field` chooses. -/
def friendOf (states : Nat) (dir : Int) (stateWeight : Nat → Int) (state : Nat) : Nat :=
  (chooseFriend dir state (getLeftDistance stateWeight state)
    (getRightDistance states stateWeight state) none).getD state

section Friend

variable {state friend : Nat} {left right : Option Nat}

theorem indices_weighs (states : Nat) (stateWeight : Nat → Int) :
    indices (fun state => decide (stateWeight state ≠ 0)) states =
      weightyStates states stateWeight := by
  ext state
  exact and_congr_right fun _ => decide_eq_true_iff

/-- In the directions there are, the friend of the state before does not matter. -/
theorem chooseFriend_carried (known : dir = 1 ∨ dir = 0 ∨ dir = -1) (carried : Option Nat) :
    chooseFriend dir state left right carried = chooseFriend dir state left right none := by
  rcases known with rfl | rfl | rfl <;> rfl

theorem chooseFriend_left : chooseFriend 1 state left right none = left.or right := by
  cases left <;> rfl

theorem chooseFriend_right : chooseFriend (-1) state left right none = right.or left := by
  cases right <;> rfl

/-- In direction `0` the nearer of the two is chosen, and the left one of two equally near. -/
theorem chooseFriend_nearest {down up : Nat} (lower : left.or right = some down)
    (upper : right.or left = some up) (leftBelow : ∀ below, left = some below → below < state)
    (rightAbove : ∀ above, right = some above → state < above) :
    chooseFriend 0 state left right none =
      some (if ((state : Int) - up).natAbs < ((state : Int) - down).natAbs then up else down) := by
  cases left with
  | none =>
    cases right with
    | none => cases lower
    | some above =>
      cases lower
      cases upper
      rw [ite_self]
      rfl
  | some below =>
    cases right with
    | none =>
      cases lower
      cases upper
      rw [ite_self]
      rfl
    | some above =>
      cases lower
      cases upper
      have before := leftBelow down rfl
      have behind := rightAbove up rfl
      show (if state - down > up - state then some up else some down) = _
      by_cases nearer : state - down > up - state
      · rw [if_pos nearer, if_pos (by omega)]
      · rw [if_neg nearer, if_neg (by omega)]

/-- What is chosen for a state without weight is its friend. -/
theorem isFriend_of_chosen (small : state < states) (weightless : stateWeight state = 0)
    (chosen : chooseFriend dir state (getLeftDistance stateWeight state)
      (getRightDistance states stateWeight state) none = some friend) :
    IsFriend states dir stateWeight state friend := by
  rw [getLeftDistance_eq, getRightDistance_eq] at chosen
  generalize foundIs : (fun state => decide (stateWeight state ≠ 0)) = found at chosen
  have absent : found state = false := by
    rw [← foundIs]
    exact decide_eq_false (not_not.mpr weightless)
  have sameIndices : indices found states = weightyStates states stateWeight := by
    rw [← foundIs]
    exact indices_weighs states stateWeight
  have down {index : Nat} (returned : (Loops.lastBelow found state).or
      (Loops.firstFrom found (state + 1) states) = some index) :
      IsDown (weightyStates states stateWeight) state index := by
    rw [← sameIndices]
    refine isDown_of_searches small ?_
    rw [Loops.lastBelow, absent]
    exact returned
  have up {index : Nat} (returned : (Loops.firstFrom found (state + 1) states).or
      (Loops.lastBelow found state) = some index) :
      IsUp (weightyStates states stateWeight) state index := by
    rw [← sameIndices]
    refine isUp_of_searches small ?_
    rw [Loops.firstFrom_of_lt small, absent]
    exact returned
  refine ⟨?_, ?_, ?_⟩
  · rintro rfl
    exact down (chooseFriend_left ▸ chosen)
  · rintro rfl
    exact up (chooseFriend_right ▸ chosen)
  · rintro rfl
    have leftBelow (below : Nat) (returned : Loops.lastBelow found state = some below) :
        below < state := (Loops.lastBelow_eq_some returned).1
    have rightAbove (above : Nat)
        (returned : Loops.firstFrom found (state + 1) states = some above) : state < above :=
      (Loops.firstFrom_eq_some returned).1.1
    cases lower : (Loops.lastBelow found state).or (Loops.firstFrom found (state + 1) states) with
    | none =>
      obtain ⟨noLeft, noRight⟩ := Option.or_eq_none_iff.mp lower
      rw [noLeft, noRight] at chosen
      cases chosen
    | some below =>
      cases upper : (Loops.firstFrom found (state + 1) states).or
          (Loops.lastBelow found state) with
      | none =>
        obtain ⟨noRight, noLeft⟩ := Option.or_eq_none_iff.mp upper
        rw [noLeft, noRight] at chosen
        cases chosen
      | some above =>
        rw [chooseFriend_nearest lower upper leftBelow rightAbove] at chosen
        rw [← Option.some.inj chosen]
        exact (isGauge_between state).isFirstMin_nearer (down lower) (up upper)

end Friend

/-- Where some state has weight, a state without weight has a friend with weight. -/
theorem friendOf_spec (known : dir = 1 ∨ dir = 0 ∨ dir = -1) {weighty state : Nat}
    (inTable : weighty < states) (weighs : stateWeight weighty ≠ 0) (small : state < states)
    (weightless : stateWeight state = 0) (carried : Option Nat) :
    ¬ ((getLeftDistance stateWeight state).isNone ∧
        (getRightDistance states stateWeight state).isNone) ∧
      chooseFriend dir state (getLeftDistance stateWeight state)
          (getRightDistance states stateWeight state) carried =
        some (friendOf states dir stateWeight state) ∧
      IsFriend states dir stateWeight state (friendOf states dir stateWeight state) ∧
      friendOf states dir stateWeight state < states ∧
      stateWeight (friendOf states dir stateWeight state) ≠ 0 := by
  obtain ⟨found, friend, chooses, friendSmall, friendWeighs⟩ :=
    friend_exists known inTable weighs weightless small none
  have same : friendOf states dir stateWeight state = friend := by
    rw [friendOf, chooses]
    rfl
  rw [same, chooseFriend_carried known, chooses]
  exact ⟨found, rfl, isFriend_of_chosen small weightless chooses, friendSmall, friendWeighs⟩

/-! ### Who gives what to whom -/

/-- The states without weight below `count`. -/
def weightlessStates (stateWeight : Nat → Int) (count : Nat) : Finset Nat :=
  (Finset.range count).filter fun state => stateWeight state = 0

theorem weightlessStates_succ (stateWeight : Nat → Int) (count : Nat) :
    weightlessStates stateWeight (count + 1) =
      if stateWeight count = 0 then insert count (weightlessStates stateWeight count)
      else weightlessStates stateWeight count := by
  unfold weightlessStates
  rw [Finset.range_add_one, Finset.filter_insert]

theorem notMem_weightlessStates (stateWeight : Nat → Int) (count : Nat) :
    count ∉ weightlessStates stateWeight count := fun member =>
  Finset.notMem_range_self (Finset.mem_of_mem_filter count member)

/-- What the second loop of `update_demand_field` has done for the states below `count`. -/
structure Handed (states : Nat) (dir : Int) (stateWeight demand : Nat → Int) (count : Nat)
    (field : DemandField) : Prop where
  waiting : ∀ state, count ≤ state → stateWeight state = 0 →
    field.demandField state = demand state
  passed : ∀ state, state < count → stateWeight state = 0 → field.demandField state = 0
  shares : ∀ state, state < states → stateWeight state ≠ 0 → field.demandField state =
    int32 (gathered (weightlessStates stateWeight count) (friendOf states dir stateWeight)
      demand state)
  source : ∀ state, stateWeight state ≠ 0 →
    field.proxySource state = state ∧ field.demandField state = demand state ∨
      field.proxySource state < count ∧ stateWeight (field.proxySource state) = 0 ∧
        friendOf states dir stateWeight (field.proxySource state) = state ∧
        demand (field.proxySource state) ≠ 0

section Turn

variable {count : Nat} {field : DemandField}

theorem Handed.start
    (ints : ∀ state, state < states → 0 ≤ demand state ∧ demand state < 2 ^ 31) :
    Handed states dir stateWeight demand 0
      { demandField := demand, proxySource := id, friend := none } where
  waiting _ _ _ := rfl
  passed _ small := absurd small (Nat.not_lt_zero _)
  shares state small _ := by
    obtain ⟨nonneg, fits⟩ := ints state small
    show demand state = int32 (gathered ∅ _ demand state)
    rw [gathered_empty]
    exact (int32_of_fits (by omega) fits).symm
  source _ _ := Or.inl ⟨rfl, rfl⟩

/-- A source below a count is below the next. -/
theorem Handed.source_succ (handed : Handed states dir stateWeight demand count field)
    {state : Nat} (weighs : stateWeight state ≠ 0) :
    field.proxySource state = state ∧ field.demandField state = demand state ∨
      field.proxySource state < count + 1 ∧ stateWeight (field.proxySource state) = 0 ∧
        friendOf states dir stateWeight (field.proxySource state) = state ∧
        demand (field.proxySource state) ≠ 0 :=
  (handed.source state weighs).imp_right fun ⟨small, rest⟩ => ⟨Nat.lt_succ_of_lt small, rest⟩

/-- A state with weight, or without demand, hands nothing over. -/
theorem Handed.skip (handed : Handed states dir stateWeight demand count field)
    (nothing : ¬ (field.demandField count ≠ 0 ∧ stateWeight count = 0)) :
    Handed states dir stateWeight demand (count + 1) field := by
  refine ⟨fun state after => handed.waiting state (Nat.le_of_succ_le after), ?_, ?_,
    fun state weighs => handed.source_succ weighs⟩
  · intro state before weightless
    rcases Nat.lt_succ_iff_lt_or_eq.mp before with earlier | rfl
    · exact handed.passed state earlier weightless
    · exact not_not.mp fun demanded => nothing ⟨demanded, weightless⟩
  · intro state small weighs
    rw [handed.shares state small weighs, weightlessStates_succ]
    by_cases weightless : stateWeight count = 0
    · have empty : demand count = 0 := by
        rw [← handed.waiting count le_rfl weightless]
        exact not_not.mp fun demanded => nothing ⟨demanded, weightless⟩
      rw [if_pos weightless, gathered_insert (notMem_weightlessStates stateWeight count), empty,
        ite_self, add_zero]
    · rw [if_neg weightless]

/-- A state without weight hands its demand to its friend. -/
theorem Handed.give (handed : Handed states dir stateWeight demand count field)
    (weightless : stateWeight count = 0) (demanded : field.demandField count ≠ 0)
    (friendWeighs : stateWeight (friendOf states dir stateWeight count) ≠ 0) :
    Handed states dir stateWeight demand (count + 1)
      { demandField := Function.update
          (Function.update field.demandField (friendOf states dir stateWeight count)
            (int32 (field.demandField (friendOf states dir stateWeight count) + demand count)))
          count 0
        proxySource := Function.update field.proxySource (friendOf states dir stateWeight count)
          count
        friend := some (friendOf states dir stateWeight count) } := by
  generalize friendIs : friendOf states dir stateWeight count = friend at friendWeighs ⊢
  have notFriend {state : Nat} (noWeight : stateWeight state = 0) : state ≠ friend := fun same =>
    friendWeighs (same ▸ noWeight)
  have notCount {state : Nat} (weighs : stateWeight state ≠ 0) : state ≠ count := fun same =>
    weighs (same ▸ weightless)
  refine ⟨?_, ?_, ?_, ?_⟩
  · intro state after noWeight
    dsimp only
    rw [Function.update_of_ne (by omega), Function.update_of_ne (notFriend noWeight)]
    exact handed.waiting state (Nat.le_of_succ_le after) noWeight
  · intro state before noWeight
    dsimp only
    rcases Nat.lt_succ_iff_lt_or_eq.mp before with earlier | rfl
    · rw [Function.update_of_ne (Nat.ne_of_lt earlier), Function.update_of_ne (notFriend noWeight)]
      exact handed.passed state earlier noWeight
    · rw [Function.update_self]
  · intro state small weighs
    dsimp only
    rw [Function.update_of_ne (notCount weighs), weightlessStates_succ, if_pos weightless,
      gathered_insert (notMem_weightlessStates stateWeight count), friendIs]
    by_cases here : state = friend
    · rw [here, Function.update_self, if_pos rfl, handed.shares friend (here ▸ small) friendWeighs,
        int32_add]
    · rw [Function.update_of_ne here, if_neg (Ne.symm here), add_zero]
      exact handed.shares state small weighs
  · intro state weighs
    dsimp only
    rw [Function.update_of_ne (notCount weighs)]
    by_cases here : state = friend
    · rw [here, Function.update_self, Function.update_self]
      refine Or.inr ⟨Nat.lt_succ_self count, weightless, friendIs, ?_⟩
      rw [← handed.waiting count le_rfl weightless]
      exact demanded
    · rw [Function.update_of_ne here, Function.update_of_ne here]
      exact handed.source_succ weighs

theorem Handed.step {weighty : Nat} (known : dir = 1 ∨ dir = 0 ∨ dir = -1)
    (inTable : weighty < states) (weighs : stateWeight weighty ≠ 0) (small : count < states)
    (handed : Handed states dir stateWeight demand count field) :
    Handed states dir stateWeight demand (count + 1)
      (demandFieldStep states dir stateWeight demand count field) := by
  unfold demandFieldStep
  by_cases moves : field.demandField count ≠ 0 ∧ stateWeight count = 0
  · obtain ⟨demanded, weightless⟩ := moves
    obtain ⟨found, chooses, _, _, friendWeighs⟩ :=
      friendOf_spec known inTable weighs small weightless field.friend
    rw [if_pos ⟨demanded, weightless⟩]
    dsimp only
    rw [if_neg found, chooses]
    exact handed.give weightless demanded friendWeighs
  · rw [if_neg moves]
    exact handed.skip moves

theorem updateDemandField_handed {weighty : Nat} (known : dir = 1 ∨ dir = 0 ∨ dir = -1)
    (inTable : weighty < states) (weighs : stateWeight weighty ≠ 0)
    (ints : ∀ state, state < states → 0 ≤ demand state ∧ demand state < 2 ^ 31) :
    Handed states dir stateWeight demand states
      (updateDemandField states dir stateWeight demand) :=
  Loops.forRange_induction (Handed states dir stateWeight demand) (Handed.start ints)
    fun _ small _ handed => handed.step known inTable weighs small

end Turn

/-! ### What is conserved -/

/-- What the demand field is to be: the demand, that of the states without weight handed to their
friends. -/
structure Conserves (states : Nat) (dir : Int) (stateWeight demand : Nat → Int)
    (friend : Nat → Nat) (field : DemandField) : Prop where
  friends : ∀ state, state < states → stateWeight state = 0 →
    IsFriend states dir stateWeight state (friend state)
  weightless : ∀ state, state < states → stateWeight state = 0 → field.demandField state = 0
  shares : ∀ state, state < states → stateWeight state ≠ 0 → field.demandField state =
    int32 (gathered (weightlessStates stateWeight states) friend demand state)
  sum : ∑ state ∈ Finset.range states, demand state < 2 ^ 31 →
    ∑ state ∈ Finset.range states, field.demandField state =
      ∑ state ∈ Finset.range states, demand state
  sum_wrapped : ∑ state ∈ Finset.range states, field.demandField state ≡
    ∑ state ∈ Finset.range states, demand state [ZMOD 2 ^ 32]
  source : ∀ state, state < states → 0 < field.demandField state →
    0 < demand (field.proxySource state) ∧
      (field.proxySource state = state ∨ field.proxySource state < states ∧
        stateWeight (field.proxySource state) = 0 ∧ friend (field.proxySource state) = state)

section Sum

variable {field : DemandField}

/-- The field of the states with weight is the whole field. -/
theorem Handed.sum_weighty (handed : Handed states dir stateWeight demand states field) :
    ∑ state ∈ Finset.range states with stateWeight state ≠ 0, field.demandField state =
      ∑ state ∈ Finset.range states, field.demandField state := by
  refine Finset.sum_filter_of_ne fun state member share noWeight => share ?_
  exact handed.passed state (Finset.mem_range.mp member) noWeight

theorem Handed.sum_wrapped (handed : Handed states dir stateWeight demand states field)
    (toWeighty : ∀ state, state < states → stateWeight state = 0 →
      friendOf states dir stateWeight state < states ∧
        stateWeight (friendOf states dir stateWeight state) ≠ 0) :
    ∑ state ∈ Finset.range states, field.demandField state ≡
      ∑ state ∈ Finset.range states, demand state [ZMOD 2 ^ 32] := by
  have maps : ∀ source ∈ weightlessStates stateWeight states,
      friendOf states dir stateWeight source ∈
        (Finset.range states).filter fun state => stateWeight state ≠ 0 := by
    intro source member
    obtain ⟨small, noWeight⟩ := Finset.mem_filter.mp member
    obtain ⟨friendSmall, friendWeighs⟩ := toWeighty source (Finset.mem_range.mp small) noWeight
    exact Finset.mem_filter.mpr ⟨Finset.mem_range.mpr friendSmall, friendWeighs⟩
  have whole : ∑ state ∈ Finset.range states with stateWeight state ≠ 0, demand state +
      ∑ state ∈ weightlessStates stateWeight states, demand state =
        ∑ state ∈ Finset.range states, demand state := by
    rw [add_comm]
    exact Finset.sum_filter_add_sum_filter_not _ _ _
  rw [← handed.sum_weighty, ← whole, ← sum_gathered maps]
  refine Int.ModEq.sum fun state member => ?_
  obtain ⟨small, weighs⟩ := Finset.mem_filter.mp member
  rw [handed.shares state (Finset.mem_range.mp small) weighs]
  exact int32_modEq _

end Sum

/-- For every demand and all weights of which one is positive, the demand field conserves the
demand and leaves none at a state without weight. -/
theorem update_demand_field_conserves (known : dir = 1 ∨ dir = 0 ∨ dir = -1) (weighty : Nat)
    (inTable : weighty < states) (weighs : 0 < stateWeight weighty)
    (ints : ∀ state, state < states → 0 ≤ demand state ∧ demand state < 2 ^ 31) :
    ∃ friend, Conserves states dir stateWeight demand friend
      (updateDemandField states dir stateWeight demand) := by
  have handed := updateDemandField_handed known inTable weighs.ne' ints
  have friends (state : Nat) (small : state < states) (noWeight : stateWeight state = 0) :=
    (friendOf_spec known inTable weighs.ne' small noWeight none).2.2
  refine ⟨friendOf states dir stateWeight, fun state small noWeight =>
    (friends state small noWeight).1, handed.passed, handed.shares, fun fits => ?_,
    handed.sum_wrapped fun state small noWeight => (friends state small noWeight).2, ?_⟩
  · exact (updateDemandField_proxied known inTable weighs.ne' fits
      fun state small => (ints state small).1).total
  · intro state small share
    by_cases noWeight : stateWeight state = 0
    · rw [handed.passed state small noWeight] at share
      exact absurd share (lt_irrefl 0)
    · rcases handed.source state noWeight with ⟨own, same⟩ | ⟨sourceSmall, rest⟩
      · rw [own]
        exact ⟨same ▸ share, Or.inl rfl⟩
      · refine ⟨lt_of_le_of_ne (ints _ sourceSmall).1 rest.2.2.symm, Or.inr ?_⟩
        exact ⟨sourceSmall, rest.1, rest.2.1⟩

/-- Three states, the middle one without weight, and no preferred side: the left one has the demand
of both. -/
theorem update_demand_field_conserves_middle :
    ∃ friend, Conserves 3 0 (fun state => if state = 1 then 0 else 6) (fun state => state + 1) friend
      (updateDemandField 3 0 (fun state => if state = 1 then 0 else 6) fun state => state + 1) :=
  update_demand_field_conserves (Or.inr (Or.inl rfl)) 0 (by decide) (by decide)
    (by decide)

end Seeker
