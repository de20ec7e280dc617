/-
This file follows the demand through the auction of `greedy_delta`.

A state that no cpu is near hands its demand to a friend that has weight, so the demand
field sums up to the demand and all of it lies at states with weight. As long as some
demand is left a round is won by a state with demand, which then pays for it. But the
demands are rounded and may add up to less than the load. A round without demand is won
by a state that has none, whose demand becomes negative.
-/
import Mathlib.Algebra.BigOperators.Group.Finset.Piecewise
import Mathlib.Data.Finset.Card
import Seeker.Apportion
import Seeker.AuctionRound

namespace Seeker

/-! ### The weights of the states -/

section Weights

variable {input : AuctionInput} {a : Auction} {state : Nat}

/-- A state weighs at least each of its cells and at most all of them at their largest. -/
theorem updateStateWeight_bounds {cpus : Nat} {stateMatrix : Nat → Nat → Int} {largest : Int}
    (cells : ∀ cpu, cpu < cpus → 0 ≤ stateMatrix cpu state ∧ stateMatrix cpu state ≤ largest)
    (fits : largest * cpus < 2 ^ 31) :
    0 ≤ updateStateWeight cpus stateMatrix state ∧
      updateStateWeight cpus stateMatrix state ≤ largest * cpus ∧
      ∀ cpu, cpu < cpus → stateMatrix cpu state ≤ updateStateWeight cpus stateMatrix state := by
  have nonneg : ∀ cpu, cpu < cpus → 0 ≤ stateMatrix cpu state := fun cpu small =>
    (cells cpu small).1
  have most : ∑ cpu ∈ Finset.range cpus, stateMatrix cpu state ≤ largest * cpus := by
    refine (Finset.sum_le_card_nsmul _ _ largest fun cpu member => ?_).trans_eq ?_
    · exact (cells cpu (Finset.mem_range.mp member)).2
    · rw [Finset.card_range, nsmul_eq_mul, mul_comm]
  have weight : updateStateWeight cpus stateMatrix state =
      ∑ cpu ∈ Finset.range cpus, stateMatrix cpu state :=
    forRange_int32_add nonneg (most.trans_lt fits)
  rw [weight]
  refine ⟨(sum_range_bounds nonneg le_rfl).1, most, fun cpu small => ?_⟩
  exact Finset.single_le_sum (fun other member => nonneg other (Finset.mem_range.mp member))
    (Finset.mem_range.mpr small)

/-- The cells lie between zero and the cell of a cpu's own state. -/
theorem stateMatrix_bounds
    (known : input.direction = 1 ∨ input.direction = 0 ∨ input.direction = -1)
    (inStates : ∀ cpu, cpu < input.cpus → a.newCpuState cpu < input.states)
    (nonneg : 0 ≤ a.delta) {cpu : Nat} (online : cpu < input.cpus)
    (small : state < input.states) :
    0 ≤ a.stateMatrix input cpu state ∧ a.stateMatrix input cpu state ≤ 2 * input.states := by
  have place := inStates cpu online
  obtain ⟨left, _⟩ := leftWeight_bounds known input.states
  obtain ⟨right, _⟩ := rightWeight_bounds known input.states
  constructor
  · unfold Auction.stateMatrix updateStateMatrix
    rw [stateRow_apply place small _ _ nonneg]
    split_ifs <;> omega
  · by_cases own : a.newCpuState cpu = state
    · unfold Auction.stateMatrix
      rw [← own, updateStateMatrix_self place nonneg]
    · exact (updateStateMatrix_lt place small nonneg known own).le

end Weights

/-! ### The demand field -/

section Field

variable {states : Nat} {dir : Int} {stateWeight demand : Nat → Int}

theorem getLeftDistance_eq (stateWeight : Nat → Int) (position : Nat) :
    getLeftDistance stateWeight position =
      Loops.lastBelow (fun state => decide (stateWeight state ≠ 0)) position := by
  induction position with
  | zero => rfl
  | succ position inductionHypothesis =>
    unfold getLeftDistance Loops.lastBelow
    by_cases weighs : stateWeight position ≠ 0
    · rw [if_pos weighs, if_pos (decide_eq_true weighs)]
    · rw [if_neg weighs, if_neg (by rw [decide_eq_false weighs]; decide), inductionHypothesis]

theorem getRightDistance_eq (states : Nat) (stateWeight : Nat → Int) (position : Nat) :
    getRightDistance states stateWeight position =
      Loops.firstFrom (fun state => decide (stateWeight state ≠ 0)) (position + 1) states := rfl

/-- The nearer of two states is one of them. -/
theorem closest_cases (position left right : Nat) :
    closest position (some left) (some right) = some left ∨
      closest position (some left) (some right) = some right := by
  show (if _ then _ else _) = _ ∨ (if _ then _ else _) = _
  split
  · exact Or.inr rfl
  · exact Or.inl rfl

/-- In the directions there are, one of the two states that are found is chosen. -/
theorem chooseFriend_cases (known : dir = 1 ∨ dir = 0 ∨ dir = -1) (position : Nat)
    (left right friend : Option Nat) (found : ¬ (left.isNone ∧ right.isNone)) :
    ∃ chosen, chooseFriend dir position left right friend = some chosen ∧
      (left = some chosen ∨ right = some chosen) := by
  cases left with
  | none =>
    cases right with
    | none => exact absurd ⟨rfl, rfl⟩ found
    | some right => rcases known with rfl | rfl | rfl <;> exact ⟨right, rfl, Or.inr rfl⟩
  | some left =>
    cases right with
    | none => rcases known with rfl | rfl | rfl <;> exact ⟨left, rfl, Or.inl rfl⟩
    | some right =>
      rcases known with rfl | rfl | rfl
      · exact ⟨left, rfl, Or.inl rfl⟩
      · rcases closest_cases position left right with nearer | nearer
        · exact ⟨left, nearer, Or.inl rfl⟩
        · exact ⟨right, nearer, Or.inr rfl⟩
      · exact ⟨right, rfl, Or.inr rfl⟩

/-- Where some state has weight, a state without weight has a friend with weight. -/
theorem friend_exists (known : dir = 1 ∨ dir = 0 ∨ dir = -1) {position weighty : Nat}
    (inTable : weighty < states) (weighs : stateWeight weighty ≠ 0)
    (weightless : stateWeight position = 0) (small : position < states) (friend : Option Nat) :
    ¬ ((getLeftDistance stateWeight position).isNone ∧
        (getRightDistance states stateWeight position).isNone) ∧
      ∃ chosen, chooseFriend dir position (getLeftDistance stateWeight position)
          (getRightDistance states stateWeight position) friend = some chosen ∧
        chosen < states ∧ stateWeight chosen ≠ 0 := by
  rw [getLeftDistance_eq, getRightDistance_eq]
  have found : ¬ ((Loops.lastBelow (fun state => decide (stateWeight state ≠ 0)) position).isNone ∧
      (Loops.firstFrom (fun state => decide (stateWeight state ≠ 0)) (position + 1)
        states).isNone) := by
    rintro ⟨left, right⟩
    have apart : weighty ≠ position := fun same => weighs (same ▸ weightless)
    rcases lt_or_gt_of_ne apart with below | above
    · have missed := Loops.lastBelow_eq_none (Option.isNone_iff_eq_none.mp left) below
      exact of_decide_eq_false missed weighs
    · have missed := Loops.firstFrom_eq_none (Option.isNone_iff_eq_none.mp right) above inTable
      exact of_decide_eq_false missed weighs
  obtain ⟨chosen, chooses, side⟩ := chooseFriend_cases known position _ _ friend found
  refine ⟨found, chosen, chooses, ?_⟩
  rcases side with left | right
  · obtain ⟨below, weighs⟩ := Loops.lastBelow_eq_some left
    exact ⟨below.trans small, of_decide_eq_true weighs⟩
  · obtain ⟨⟨_, below⟩, weighs⟩ := Loops.firstFrom_eq_some right
    exact ⟨below, of_decide_eq_true weighs⟩

/-- What the second loop of `update_demand_field` has done for the states below `count`. -/
structure Proxied (states : Nat) (stateWeight demand : Nat → Int) (count : Nat)
    (field : DemandField) : Prop where
  total : ∑ state ∈ Finset.range states, field.demandField state =
    ∑ state ∈ Finset.range states, demand state
  nonneg : ∀ state, state < states → 0 ≤ field.demandField state
  waiting : ∀ state, count ≤ state → stateWeight state = 0 →
    field.demandField state = demand state
  passed : ∀ state, state < count → stateWeight state = 0 → field.demandField state = 0
  source : ∀ state, state < states → 0 < field.demandField state →
    field.proxySource state < states ∧ 0 < demand (field.proxySource state)

theorem Proxied.start (nonneg : ∀ state, state < states → 0 ≤ demand state) :
    Proxied states stateWeight demand 0
      { demandField := demand, proxySource := id, friend := none } where
  total := rfl
  nonneg := nonneg
  waiting _ _ _ := rfl
  passed _ small := absurd small (Nat.not_lt_zero _)
  source _ small positive := ⟨small, positive⟩

/-- Moving a value from one place to another keeps the sum. -/
theorem sum_moved {values : Nat → Int} {places source target : Nat} (apart : target ≠ source)
    (sourceIn : source < places) (targetIn : target < places) :
    ∑ place ∈ Finset.range places,
        Function.update (Function.update values target (values target + values source)) source 0
          place =
      ∑ place ∈ Finset.range places, values place := by
  have targetLeft : target ∈ Finset.range places \ {source} :=
    Finset.mem_sdiff.mpr ⟨Finset.mem_range.mpr targetIn, Finset.notMem_singleton.mpr apart⟩
  rw [Finset.sum_update_of_mem (Finset.mem_range.mpr sourceIn),
    Finset.sum_update_of_mem targetLeft,
    Finset.sum_eq_add_sum_sdiff_singleton_of_mem (Finset.mem_range.mpr sourceIn) values,
    Finset.sum_eq_add_sum_sdiff_singleton_of_mem targetLeft values, zero_add,
    add_comm (values target), add_assoc]

/-- The demand of `source` handed to `friend`. -/
def DemandField.handed (field : DemandField) (source friend : Nat) : DemandField where
  demandField := Function.update
    (Function.update field.demandField friend
      (field.demandField friend + field.demandField source)) source 0
  proxySource := Function.update field.proxySource friend source
  friend := some friend

section Handed

variable {field : DemandField} {source friend state : Nat}

theorem DemandField.handed_source (field : DemandField) (source friend : Nat) :
    (field.handed source friend).demandField source = 0 := Function.update_self ..

theorem DemandField.handed_friend (apart : friend ≠ source) :
    (field.handed source friend).demandField friend =
      field.demandField friend + field.demandField source :=
  (Function.update_of_ne apart ..).trans (Function.update_self ..)

theorem DemandField.handed_other (notSource : state ≠ source) (notFriend : state ≠ friend) :
    (field.handed source friend).demandField state = field.demandField state :=
  (Function.update_of_ne notSource ..).trans (Function.update_of_ne notFriend ..)

theorem DemandField.handed_proxySource_friend (field : DemandField) (source friend : Nat) :
    (field.handed source friend).proxySource friend = source := Function.update_self ..

theorem DemandField.handed_proxySource_other (notFriend : state ≠ friend) :
    (field.handed source friend).proxySource state = field.proxySource state :=
  Function.update_of_ne notFriend ..

end Handed

section Step

variable {field : DemandField} {count friend : Nat}

/-- Two shares of the demand field are no more than the demand. -/
theorem Proxied.shares_le (proxied : Proxied states stateWeight demand count field)
    (apart : friend ≠ count) (friendSmall : friend < states) (small : count < states) :
    field.demandField friend + field.demandField count ≤
      ∑ state ∈ Finset.range states, demand state := by
  rw [← proxied.total, ← Finset.sum_pair apart]
  refine Finset.sum_le_sum_of_subset_of_nonneg ?_ fun state member _ =>
    proxied.nonneg state (Finset.mem_range.mp member)
  intro state member
  rcases Finset.mem_insert.mp member with rfl | same
  · exact Finset.mem_range.mpr friendSmall
  · rw [Finset.mem_singleton.mp same]
    exact Finset.mem_range.mpr small

/-- A state without weight hands its demand to a friend with weight. -/
theorem Proxied.handed (proxied : Proxied states stateWeight demand count field)
    (small : count < states) (weightless : stateWeight count = 0)
    (demanded : field.demandField count ≠ 0) (friendSmall : friend < states)
    (friendWeighs : stateWeight friend ≠ 0) :
    Proxied states stateWeight demand (count + 1) (field.handed count friend) := by
  have apart : friend ≠ count := fun same => friendWeighs (same ▸ weightless)
  have other : ∀ {state}, stateWeight state = 0 → state ≠ friend := fun noWeight same =>
    friendWeighs (same ▸ noWeight)
  have positive : 0 < field.demandField count :=
    lt_of_le_of_ne (proxied.nonneg count small) demanded.symm
  refine ⟨?_, ?_, ?_, ?_, ?_⟩
  · exact (sum_moved apart small friendSmall).trans proxied.total
  · intro state within
    rcases eq_or_ne state count with rfl | notSource
    · exact (DemandField.handed_source ..).ge
    · rcases eq_or_ne state friend with rfl | notFriend
      · rw [DemandField.handed_friend apart]
        exact add_nonneg (proxied.nonneg state within) positive.le
      · rw [DemandField.handed_other notSource notFriend]
        exact proxied.nonneg state within
  · intro state after noWeight
    rw [DemandField.handed_other (by omega) (other noWeight)]
    exact proxied.waiting state (by omega) noWeight
  · intro state before noWeight
    rcases eq_or_ne state count with rfl | notSource
    · exact DemandField.handed_source ..
    · rw [DemandField.handed_other notSource (other noWeight)]
      exact proxied.passed state (by omega) noWeight
  · intro state within share
    rcases eq_or_ne state friend with rfl | notFriend
    · rw [DemandField.handed_proxySource_friend]
      exact ⟨small, (proxied.waiting count le_rfl weightless) ▸ positive⟩
    · rcases eq_or_ne state count with rfl | notSource
      · rw [DemandField.handed_source] at share
        exact absurd share (lt_irrefl 0)
      · rw [DemandField.handed_other notSource notFriend] at share
        rw [DemandField.handed_proxySource_other notFriend]
        exact proxied.source state within share

/-- One turn of the loop. -/
theorem Proxied.step {weighty : Nat} (known : dir = 1 ∨ dir = 0 ∨ dir = -1)
    (inTable : weighty < states) (weighs : stateWeight weighty ≠ 0)
    (fits : ∑ state ∈ Finset.range states, demand state < 2 ^ 31)
    (small : count < states) (proxied : Proxied states stateWeight demand count field) :
    Proxied states stateWeight demand (count + 1)
      (demandFieldStep states dir stateWeight demand count field) := by
  unfold demandFieldStep
  by_cases moves : field.demandField count ≠ 0 ∧ stateWeight count = 0
  · obtain ⟨demanded, weightless⟩ := moves
    obtain ⟨found, friend, chooses, friendSmall, friendWeighs⟩ :=
      friend_exists known inTable weighs weightless small field.friend
    have apart : friend ≠ count := fun same => friendWeighs (same ▸ weightless)
    have shares := proxied.shares_le apart friendSmall small
    have friendNonneg := proxied.nonneg friend friendSmall
    have countNonneg := proxied.nonneg count small
    have unwrapped : int32 (field.demandField friend + demand count) =
        field.demandField friend + field.demandField count := by
      rw [← proxied.waiting count le_rfl weightless]
      exact int32_of_fits (by omega) (by omega)
    rw [if_pos ⟨demanded, weightless⟩]
    dsimp only
    rw [if_neg found, chooses]
    dsimp only
    rw [unwrapped]
    exact proxied.handed small weightless demanded friendSmall friendWeighs
  · rw [if_neg moves]
    refine { proxied with waiting := ?_, passed := ?_ }
    · exact fun state after => proxied.waiting state (Nat.le_of_succ_le after)
    · intro state before noWeight
      rcases Nat.lt_succ_iff_lt_or_eq.mp before with earlier | rfl
      · exact proxied.passed state earlier noWeight
      · exact not_not.mp fun demanded => moves ⟨demanded, noWeight⟩

end Step

/-- Where some state has weight the loop moves the demand of all states without. -/
theorem updateDemandField_proxied {weighty : Nat} (known : dir = 1 ∨ dir = 0 ∨ dir = -1)
    (inTable : weighty < states) (weighs : stateWeight weighty ≠ 0)
    (fits : ∑ state ∈ Finset.range states, demand state < 2 ^ 31)
    (nonneg : ∀ state, state < states → 0 ≤ demand state) :
    Proxied states stateWeight demand states (updateDemandField states dir stateWeight demand) :=
  Loops.forRange_induction (Proxied states stateWeight demand) (Proxied.start nonneg)
    fun _ small _ proxied => proxied.step known inTable weighs fits small

section Moved

variable {field : DemandField}

/-- No state has more in its field than all states demand. -/
theorem Proxied.share_le {count state : Nat}
    (proxied : Proxied states stateWeight demand count field) (small : state < states) :
    field.demandField state ≤ ∑ other ∈ Finset.range states, demand other := by
  rw [← proxied.total]
  exact Finset.single_le_sum (fun other member =>
    proxied.nonneg other (Finset.mem_range.mp member)) (Finset.mem_range.mpr small)

/-- Once all demand is moved, what there is of it lies at a state with weight. -/
theorem Proxied.exists_pos (proxied : Proxied states stateWeight demand states field)
    (total : 0 < ∑ state ∈ Finset.range states, demand state) :
    ∃ state, state < states ∧ 0 < field.demandField state ∧ stateWeight state ≠ 0 := by
  by_contra none
  refine absurd total (not_lt.mpr ?_)
  rw [← proxied.total]
  refine Finset.sum_nonpos fun state member => not_lt.mp fun positive => ?_
  have small := Finset.mem_range.mp member
  refine none ⟨state, small, positive, fun weightless => ?_⟩
  exact absurd (proxied.passed state small weightless) positive.ne'

end Moved

/-- Without demand there is nothing to move. -/
theorem updateDemandField_of_zero (none : ∀ state, state < states → demand state = 0) :
    (updateDemandField states dir stateWeight demand).demandField = demand := by
  refine Loops.forRange_induction (fun _ (field : DemandField) => field.demandField = demand)
    rfl ?_
  intro state small field same
  unfold demandFieldStep
  rw [if_neg]
  · exact same
  · rintro ⟨demanded, _⟩
    exact demanded ((congrFun same state).trans (none state small))

end Field

/-! ### One round -/

section Round

variable {input : AuctionInput} {delta : Int} {a : Auction}

/-- In a round that goes on some cpu is up for selection. -/
theorem Budget.exists_waiting (budget : Budget input delta a) (held : a.Held input)
    (load : input.load ≤ input.cpus) : ∃ cpu, cpu < input.cpus ∧ a.selectedCpus cpu = 1 := by
  have fewer : a.won.toFinset.card < (Finset.range input.cpus).card := by
    have demanded := held.demand
    rw [budget.demand] at demanded
    rw [List.toFinset_card_of_nodup budget.distinct, Finset.card_range]
    omega
  obtain ⟨cpu, online, notWon⟩ := Finset.exists_mem_notMem_of_card_lt_card fewer
  refine ⟨cpu, Finset.mem_range.mp online, (budget.flags cpu).resolve_left fun taken => ?_⟩
  exact notWon (List.mem_toFinset.mpr ((budget.winners cpu).mpr taken))

variable (proper : input.Proper) (budget : Budget input delta a) (held : a.Held input)

include proper budget held in
/-- Where the largest weight there can be fits an `int`, the weights are sums of cells. -/
theorem stateWeight_bounds (fits : 2 * (input.states : Int) * input.cpus < 2 ^ 31) {state : Nat}
    (small : state < input.states) :
    0 ≤ a.stateWeight input state ∧
      a.stateWeight input state ≤ 2 * (input.states : Int) * input.cpus ∧
      ∀ cpu, cpu < input.cpus → a.stateMatrix input cpu state ≤ a.stateWeight input state :=
  updateStateWeight_bounds
    (fun _ online =>
      stateMatrix_bounds proper.known budget.inStates held.delta.le online small) fits

include proper budget held in
/-- The state of a cpu has weight. -/
theorem stateWeight_own_pos (fits : 2 * (input.states : Int) * input.cpus < 2 ^ 31) {cpu : Nat}
    (online : cpu < input.cpus) : 0 < a.stateWeight input (a.newCpuState cpu) := by
  have place := budget.inStates cpu online
  have own : a.stateMatrix input cpu (a.newCpuState cpu) = 2 * (input.states : Int) :=
    updateStateMatrix_self place held.delta.le input.direction
  have atLeast := (stateWeight_bounds proper budget held fits place).2.2 cpu online
  omega

/-- Where no demand is negative and some is left, the sum of the demands is positive. -/
theorem sum_demand_pos {states : Nat} {demand : Nat → Int}
    (nonneg : ∀ state, state < states → 0 ≤ demand state)
    (left : ∃ state, state < states ∧ 0 < demand state) :
    0 < ∑ state ∈ Finset.range states, demand state := by
  obtain ⟨state, small, positive⟩ := left
  exact Finset.sum_pos' (fun other member => nonneg other (Finset.mem_range.mp member))
    ⟨state, Finset.mem_range.mpr small, positive⟩

variable (load : input.load ≤ input.cpus)
  (nonneg : ∀ state, state < input.states → 0 ≤ a.demand state)

/-- The bids of a round are products that do not wrap, of weights that are not negative and shares
of the demand. -/
structure Auction.Bids (input : AuctionInput) (a : Auction) : Prop where
  weights : ∀ state, state < input.states → 0 ≤ a.stateWeight input state
  cells : ∀ state, state < input.states → ∀ cpu, cpu < input.cpus →
    a.stateMatrix input cpu state ≤ a.stateWeight input state
  proxied : Proxied input.states (a.stateWeight input) a.demand input.states (a.field input)
  products : ∀ state, state < input.states →
    a.bid input state = a.stateWeight input state * (a.field input).demandField state

/-- A state bids more than nothing exactly if it has weight and a share of the demand. -/
theorem Auction.Bids.pos_iff (bids : a.Bids input) {state : Nat} (small : state < input.states) :
    0 < a.bid input state ↔
      a.stateWeight input state ≠ 0 ∧ 0 < (a.field input).demandField state := by
  have weight := bids.weights state small
  have share := bids.proxied.nonneg state small
  rw [bids.products state small]
  constructor
  · intro positive
    exact ⟨left_ne_zero_of_mul positive.ne',
      lt_of_le_of_ne share (right_ne_zero_of_mul positive.ne').symm⟩
  · rintro ⟨weighs, positive⟩
    exact mul_pos (lt_of_le_of_ne weight weighs.symm) positive

include proper budget held load nonneg in
/-- As long as some demand is left the bids are such products. -/
theorem auction_bids (left : ∃ state, state < input.states ∧ 0 < a.demand state)
    (fits : 2 * (input.states : Int) * input.cpus *
      ∑ state ∈ Finset.range input.states, a.demand state < 2 ^ 31) : a.Bids input := by
  have total := sum_demand_pos nonneg left
  obtain ⟨cpu, online, _⟩ := budget.exists_waiting held load
  have place := budget.inStates cpu online
  have capacity : 0 < 2 * (input.states : Int) * input.cpus := by
    refine mul_pos ?_ ?_ <;> omega
  have weightFits : 2 * (input.states : Int) * input.cpus < 2 ^ 31 :=
    (le_mul_of_one_le_right capacity.le total).trans_lt fits
  have totalFits : ∑ state ∈ Finset.range input.states, a.demand state < 2 ^ 31 :=
    (le_mul_of_one_le_left total.le capacity).trans_lt fits
  have weights := fun {state : Nat} (small : state < input.states) =>
    stateWeight_bounds proper budget held weightFits small
  have proxied : Proxied input.states (a.stateWeight input) a.demand input.states
      (a.field input) :=
    updateDemandField_proxied proper.known place
      (stateWeight_own_pos proper budget held weightFits online).ne' totalFits nonneg
  refine ⟨fun state small => (weights small).1, fun state small => (weights small).2.2, proxied,
    fun state small => ?_⟩
  obtain ⟨weightNonneg, weightSmall, _⟩ := weights small
  have product := mul_le_mul weightSmall (proxied.share_le small)
    (proxied.nonneg state small) capacity.le
  have productNonneg := mul_nonneg weightNonneg (proxied.nonneg state small)
  exact int32_of_fits (by omega) (by omega)

include proper budget held load nonneg in
/-- As long as some demand is left, the state that wins has demand in its field and a source that
has demand. -/
theorem winner_demanded (left : ∃ state, state < input.states ∧ 0 < a.demand state)
    (fits : 2 * (input.states : Int) * input.cpus *
      ∑ state ∈ Finset.range input.states, a.demand state < 2 ^ 31) {winner : Nat}
    (wins : (a.winningScan input input.states).max = some winner) :
    0 < (a.field input).demandField winner ∧
      (a.field input).proxySource winner < input.states ∧
      0 < a.demand ((a.field input).proxySource winner) := by
  have bids := auction_bids proper budget held load nonneg left fits
  obtain ⟨small, _, largest⟩ := Auction.winningScan_some wins
  obtain ⟨state, stateSmall, share, weighs⟩ := bids.proxied.exists_pos (sum_demand_pos nonneg left)
  have winnerBids : 0 < a.bid input winner :=
    ((bids.pos_iff stateSmall).mpr ⟨weighs, share⟩).trans_le
      (Prod.Lex.monotone_fst _ _ (largest state stateSmall))
  have demanded := ((bids.pos_iff small).mp winnerBids).2
  exact ⟨demanded, bids.proxied.source winner small demanded⟩

include proper budget held load in
/-- A round without demand grants a cpu, and the state that wins has no demand. -/
theorem grants_without_demand
    (unread : ∀ iteration state, input.outOfRange iteration state = 0)
    (none : ∀ state, state < input.states → a.demand state = 0) :
    ∃ next winner, auctionRound input a = some next ∧
      (a.winningScan input input.states).max = some winner ∧
      (a.field input).demandField winner = 0 := by
  have field : (a.field input).demandField = a.demand := updateDemandField_of_zero none
  have bids : ∀ state, state < input.states → a.bid input state = 0 := by
    intro state small
    unfold Auction.bid
    rw [field, none state small, mul_zero]
    rfl
  obtain ⟨cpu, online, waiting⟩ := budget.exists_waiting held load
  have place := budget.inStates cpu online
  have grantable : a.Grantable input := by
    refine ⟨a.newCpuState cpu, place, ⟨cpu, online, waiting, ?_, Or.inl le_rfl⟩, ?_, ?_⟩
    · have deltaLeft := held.delta
      omega
    · exact (bids _ place).ge
    · intro other small
      rw [bids other small, bids _ place]
  obtain ⟨next, round⟩ := Option.isSome_iff_exists.mp
    ((auctionRound_isSome_iff proper budget unread held).mpr grantable)
  rw [auctionRound_held held] at round
  obtain ⟨winner, wins, _⟩ := Option.bind_eq_some_iff.mp round
  refine ⟨next, winner, ?_, wins, ?_⟩
  · rw [auctionRound_held held]
    exact round
  · rw [field]
    exact none winner (Auction.winningScan_some wins).1

end Round

/-! ### A whole auction -/

section Run

variable {input : AuctionInput} {delta : Int} {demand : Nat → Int}

/-- Some demand is left whenever a round goes on. -/
def DemandLeft (input : AuctionInput) (delta : Int) (demand : Nat → Int) : Prop :=
  ∀ rounds, rounds < input.load → (auctionRounds input delta demand rounds).Held input →
    ∃ state, state < input.states ∧ 0 < (auctionRounds input delta demand rounds).demand state

/-- The bids of an auction fit an `int`, whatever of the demand is left. -/
def BidsFit (input : AuctionInput) (demand : Nat → Int) : Prop :=
  2 * (input.states : Int) * input.cpus * ∑ state ∈ Finset.range input.states, demand state <
    2 ^ 31

/-- Every round that grants a cpu is won by a state with demand in its field, and no demand becomes
negative. -/
structure DemandedWins (input : AuctionInput) (delta : Int) (demand : Nat → Int) : Prop where
  winners : ∀ rounds, rounds < input.load → ∀ next,
    auctionRound input (auctionRounds input delta demand rounds) = some next →
    ∃ winner,
      ((auctionRounds input delta demand rounds).winningScan input input.states).max =
        some winner ∧
      0 < ((auctionRounds input delta demand rounds).field input).demandField winner
  nonneg : ∀ rounds, rounds ≤ input.load → ∀ state, state < input.states →
    0 ≤ (auctionRounds input delta demand rounds).demand state

/-- What is left of the demand lies between nothing and all of it. -/
def DemandWithin (input : AuctionInput) (demand : Nat → Int) (a : Auction) : Prop :=
  ∀ state, state < input.states → 0 ≤ a.demand state ∧ a.demand state ≤ demand state

theorem DemandWithin.fits {a : Auction} (within : DemandWithin input demand a)
    (fits : BidsFit input demand) :
    2 * (input.states : Int) * input.cpus *
      ∑ state ∈ Finset.range input.states, a.demand state < 2 ^ 31 := by
  refine lt_of_le_of_lt (mul_le_mul_of_nonneg_left ?_ ?_) fits
  · exact Finset.sum_le_sum fun state member => (within state (Finset.mem_range.mp member)).2
  · exact mul_nonneg (by omega) (by omega)

/-- A round that is paid for by a state with demand keeps the demand within its bounds. -/
theorem DemandWithin.award {a : Auction} (within : DemandWithin input demand a)
    (bounded : ∀ state, state < input.states → demand state < 2 ^ 31) {cpu winner source : Nat}
    (small : source < input.states) (demanded : 0 < a.demand source) :
    DemandWithin input demand (a.award input cpu winner source) := by
  have upper := bounded source small
  have below := (within source small).2
  have paid : int32 (a.demand source - 1) = a.demand source - 1 :=
    int32_of_fits (by omega) (by omega)
  intro state stateSmall
  show 0 ≤ Function.update a.demand source _ state ∧ Function.update a.demand source _ state ≤ _
  rcases eq_or_ne state source with rfl | apart
  · rw [Function.update_self, paid]
    omega
  · rw [Function.update_of_ne apart]
    exact within state stateSmall

variable (proper : input.Proper) (load : input.load ≤ input.cpus)
  (nonneg : ∀ state, state < input.states → 0 ≤ demand state)

/-- A round that grants a cpu goes on. -/
theorem held_of_auctionRound {a next : Auction} (round : auctionRound input a = some next) :
    a.Held input := by
  by_contra notHeld
  rw [auctionRound_of_not_held notHeld] at round
  cases round

include nonneg in
theorem demand_lt_of_fits (someCpu : 0 < input.cpus) (fits : BidsFit input demand) {state : Nat}
    (small : state < input.states) : demand state < 2 ^ 31 := by
  have share : demand state ≤ ∑ state ∈ Finset.range input.states, demand state :=
    Finset.single_le_sum (fun other member => nonneg other (Finset.mem_range.mp member))
      (Finset.mem_range.mpr small)
  have capacity : 0 < 2 * (input.states : Int) * input.cpus := by
    refine mul_pos ?_ ?_ <;> omega
  have total : 0 ≤ ∑ state ∈ Finset.range input.states, demand state :=
    Finset.sum_nonneg fun other member => nonneg other (Finset.mem_range.mp member)
  exact (share.trans (le_mul_of_one_le_left total capacity)).trans_lt fits

include proper load nonneg in
/-- As long as some demand is left it stays within its bounds. -/
theorem auctionRounds_demandWithin (left : DemandLeft input delta demand)
    (fits : BidsFit input demand) (rounds : Nat) (within : rounds ≤ input.load) :
    DemandWithin input demand (auctionRounds input delta demand rounds) := by
  induction rounds with
  | zero => exact fun state small => ⟨nonneg state small, le_rfl⟩
  | succ rounds inductionHypothesis =>
    have before := inductionHypothesis (Nat.le_of_succ_le within)
    rw [auctionRounds_succ]
    cases round : auctionRound input (auctionRounds input delta demand rounds) with
    | none => exact before
    | some next =>
      have held := held_of_auctionRound round
      have budget := auctionRounds_budget input delta demand proper.inStates rounds
      rw [auctionRound_held held] at round
      obtain ⟨winner, wins, granted⟩ := Option.bind_eq_some_iff.mp round
      obtain ⟨cpu, _, rfl⟩ := Option.map_eq_some_iff.mp granted
      obtain ⟨_, sourceSmall, demanded⟩ := winner_demanded proper budget held load
        (fun state small => (before state small).1) (left rounds within held)
        (before.fits fits) wins
      exact before.award
        (fun state small => demand_lt_of_fits nonneg (by omega) fits small) sourceSmall demanded

include proper load nonneg in
/-- Where the bids fit and some demand is left in every round, only states with demand win. -/
theorem DemandLeft.demandedWins (left : DemandLeft input delta demand)
    (fits : BidsFit input demand) : DemandedWins input delta demand := by
  have within := auctionRounds_demandWithin proper load nonneg left fits
  refine ⟨fun rounds before next round => ?_, fun rounds before state small =>
    (within rounds before state small).1⟩
  have held := held_of_auctionRound round
  have budget := auctionRounds_budget input delta demand proper.inStates rounds
  rw [auctionRound_held held] at round
  obtain ⟨winner, wins, _⟩ := Option.bind_eq_some_iff.mp round
  exact ⟨winner, wins, (winner_demanded proper budget held load
    (fun state small => (within rounds before.le state small).1) (left rounds before held)
    ((within rounds before.le).fits fits) wins).1⟩

include proper load in
/-- Where only states with demand win, some demand is left in every round. -/
theorem DemandedWins.demandLeft (unread : ∀ iteration state, input.outOfRange iteration state = 0)
    (wins : DemandedWins input delta demand) : DemandLeft input delta demand := by
  intro rounds before held
  by_contra nothing
  have none : ∀ state, state < input.states →
      (auctionRounds input delta demand rounds).demand state = 0 := fun state small =>
    le_antisymm (not_lt.mp fun positive => nothing ⟨state, small, positive⟩)
      (wins.nonneg rounds before.le state small)
  have budget := auctionRounds_budget input delta demand proper.inStates rounds
  obtain ⟨next, winner, round, isWinner, empty⟩ :=
    grants_without_demand proper budget held load unread none
  obtain ⟨other, isOther, demanded⟩ := wins.winners rounds before next round
  obtain rfl := Option.some.inj (isWinner.symm.trans isOther)
  exact absurd empty demanded.ne'

end Run

/-! ### What an interval demands and logs -/

section Logged

variable {s : Scheduler} (interval : Interval) (delta : Int)

theorem fillUp_demand (input : AuctionInput) (info : Nat → ProcInfo) (a : Auction) :
    (fillUp input info a).demand = a.demand := by
  refine Loops.forRange_induction (fun _ (current : Auction) => current.demand = a.demand) rfl ?_
  intro cpu _ current same
  unfold fillUpStep
  split_ifs <;> exact same

/-- The layout of an interval has the demand the auction has left. -/
theorem layout_demand (s : Scheduler) :
    (interval.layout delta s).demand =
      (auction (interval.auctionInput s) delta (interval.demand s)).demand := by
  unfold Interval.layout layoutOf ensureCpu
  split <;> exact fillUp_demand ..

theorem Interval.demand_nonneg (s : Scheduler) (state : Nat) : 0 ≤ interval.demand s state :=
  procs_nonneg (Int.natCast_nonneg _)

/-- Where the hints times the load fit an `int`, so do the bids, unless there are very many cpus. -/
theorem Interval.bidsFit (s : Scheduler)
    (nonneg : ∀ state, state < s.totalStates → 0 ≤ demandGet state s)
    (fits : 2 * ((∑ state ∈ Finset.range s.totalStates, demandGet state s) *
      ((interval.load s : Int) + 1)) < 2 ^ 31)
    (cpus : 2 * (s.totalStates : Int) * s.totalOnlineCpus *
      (s.totalStates * interval.load s) < 2 ^ 31) :
    BidsFit (interval.auctionInput s) (interval.demand s) := by
  have sumNonneg : 0 ≤ ∑ state ∈ Finset.range s.totalStates, demandGet state s :=
    Finset.sum_nonneg fun state member => nonneg state (Finset.mem_range.mp member)
  have product : 0 ≤ (∑ state ∈ Finset.range s.totalStates, demandGet state s) *
      (interval.load s : Int) := mul_nonneg sumNonneg (Int.natCast_nonneg _)
  rw [mul_add, mul_one] at fits
  have total : hintTotal s = ∑ state ∈ Finset.range s.totalStates, demandGet state s :=
    forRange_int32_add nonneg (by omega)
  have demands : ∑ state ∈ Finset.range s.totalStates, interval.demand s state ≤
      s.totalStates * interval.load s := by
    refine (Finset.sum_le_card_nsmul _ _ (interval.load s : Int) fun state member => ?_).trans_eq ?_
    · have small := Finset.mem_range.mp member
      unfold Interval.demand
      rw [total]
      refine procs_le (nonneg state small) ?_ (Int.natCast_nonneg _) (by omega) ?_
      · exact Finset.single_le_sum (fun other otherMember =>
          nonneg other (Finset.mem_range.mp otherMember)) member
      · rw [mul_assoc]
        omega
    · rw [Finset.card_range, nsmul_eq_mul]
  refine lt_of_le_of_lt (mul_le_mul_of_nonneg_left demands ?_) cpus
  exact mul_nonneg (by omega) (by omega)

/-- The `cpus_req` of the record the interval logs. -/
def Interval.cpusReq (s : Scheduler) (state : Nat) : Nat :=
  uint32 ((interval.layout delta s).demand state)

/-- The record lists `cpus_req` for the states of the table. -/
theorem mutatorEntry_cpusReq {logged : Scheduler} (limit : logged.totalStates = s.totalStates) :
    ∃ entry, mutatorEntry (interval.layout delta s).demand logged = .mut entry ∧
      entry.cpusReq = (List.range s.totalStates).map (interval.cpusReq delta s) :=
  ⟨_, rfl, by rw [← limit]; rfl⟩

theorem uint32_le_of_nonneg {value : Int} (nonneg : 0 ≤ value) : (uint32 value : Int) ≤ value := by
  unfold uint32
  omega

/-- Only states with demand win the auction of an interval, and it logs no more for a state than was
demanded. -/
structure Interval.OnlyDemanded (s : Scheduler) : Prop where
  wins : DemandedWins (interval.auctionInput s) delta (interval.demand s)
  logged : ∀ state, state < s.totalStates →
    (interval.cpusReq delta s state : Int) ≤ interval.demand s state

/-- Only states with demand win the auction of an interval, and no more is logged than was
demanded, exactly if some demand is left whenever a round goes on; for this to be enough the bids
have to fit an `int`. -/
theorem greedy_only_demanded {s : Scheduler} (inStates : InStates s) (interval : Interval)
    (delta : Int) (unread : ∀ iteration state, interval.outOfRange iteration state = 0) :
    (interval.OnlyDemanded delta s →
      DemandLeft (interval.auctionInput s) delta (interval.demand s)) ∧
    (BidsFit (interval.auctionInput s) (interval.demand s) →
      DemandLeft (interval.auctionInput s) delta (interval.demand s) →
        interval.OnlyDemanded delta s) := by
  have proper := interval.proper inStates
  have load : (interval.auctionInput s).load ≤ (interval.auctionInput s).cpus :=
    getTasksLoad_le _ _
  have nonneg : ∀ state, state < (interval.auctionInput s).states →
      0 ≤ interval.demand s state := fun state _ => interval.demand_nonneg s state
  constructor
  · exact fun only => only.wins.demandLeft proper load unread
  · intro fits left
    refine ⟨left.demandedWins proper load nonneg fits, fun state small => ?_⟩
    obtain ⟨atLeast, atMost⟩ := auctionRounds_demandWithin proper load nonneg left fits
      (interval.auctionInput s).load le_rfl state small
    unfold Interval.cpusReq
    rw [layout_demand]
    exact (uint32_le_of_nonneg atLeast).trans atMost

end Logged

/-- One cpu and hints for its state only. -/
theorem greedy_only_demanded_one_cpu :
    (tasksInterval 1).OnlyDemanded 1
      (hintedScheduler 1 3 (fun _ => 2) fun state => if state = 2 then 4 else 0) := by
  refine (greedy_only_demanded (fun _ _ => Nat.lt_succ_self 2) (tasksInterval 1) 1
    fun _ _ => rfl).2 (by unfold BidsFit; decide) ?_
  intro rounds before _
  have one : ((tasksInterval 1).auctionInput (hintedScheduler 1 3 (fun _ => 2) fun state =>
    if state = 2 then 4 else 0)).load = 1 := by decide
  obtain rfl : rounds = 0 := by omega
  exact ⟨2, by decide, by decide⟩

/-- One cpu and the same hints for three states: each demand is rounded down to none. The state of
the cpu wins all the same, and its demand is logged as `UINT_MAX`. -/
theorem greedy_logs_negative_demand :
    let s := hintedScheduler 1 3 (fun _ => 0) fun _ => 2
    (∀ state, state < 3 → (tasksInterval 1).demand s state = 0) ∧
      (tasksInterval 1).load s = 1 ∧ (tasksInterval 1).cpusReq 1 s 0 = uintMax ∧
      ¬ (tasksInterval 1).OnlyDemanded 1 s := by
  have logged : (tasksInterval 1).cpusReq 1 (hintedScheduler 1 3 (fun _ => 0) fun _ => 2) 0 =
      uintMax := by decide
  refine ⟨by decide, by decide, logged, fun only => ?_⟩
  have atMost := only.logged 0 (by decide)
  rw [logged] at atMost
  exact absurd atMost (by decide)

end Seeker
