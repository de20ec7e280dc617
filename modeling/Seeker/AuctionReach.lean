/-
This file says in terms of the cpus' states and the demand when a round of the auction
reads its matrix in range and when it grants a cpu.

A state is served in a round if some cpu is near it, which may have won already, and if
it is in demand or the demand of a state near no cpu is handed to it. The served states
are those with a positive bid. As long as each of them is in reach of a cpu that is up
for selection, the weights of the cpus that have won do no harm: the round grants, and
it reads a row out of range only for a state below all that are served.
-/
import Seeker.DemandProxy

namespace Seeker

open Nearest

/-! ### The states that are served -/

section Places

variable (input : AuctionInput) (a : Auction)

/-- Some cpu, up for selection or not, is within the delta of the state. -/
def Auction.Near (state : Nat) : Prop :=
  ∃ cpu, cpu < input.cpus ∧ WithinDelta (a.newCpuState cpu) a.delta state

/-- The states of the table that some cpu is near. -/
def Auction.nearStates : Set Nat := {state | state < input.states ∧ a.Near input state}

/-- The demand of a state goes to the next state downwards that some cpu is near in direction `1`,
to the next one upwards in direction `-1`, each with the other side to fall back on, and to the
nearest one, the lower of two, in direction `0`. -/
structure Auction.HandsTo (source friend : Nat) : Prop where
  left : input.direction = 1 → IsDown (a.nearStates input) source friend
  right : input.direction = -1 → IsUp (a.nearStates input) source friend
  nearest : input.direction = 0 → IsFirstMin (fun other : Nat => ((source : Int) - other).natAbs)
    (a.nearStates input) friend

/-- Some cpu is near the state, and it is in demand or is handed the demand of a state that no cpu
is near. -/
def Auction.Served (state : Nat) : Prop :=
  a.Near input state ∧
    (0 < a.demand state ∨ ∃ source, source < input.states ∧ ¬ a.Near input source ∧
      0 < a.demand source ∧ a.HandsTo input source state)

/-- No demand is negative, and the bids fit an `int`. -/
structure Auction.Plain : Prop where
  nonneg : ∀ state, state < input.states → 0 ≤ a.demand state
  fits : 2 * (input.states : Int) * input.cpus *
    ∑ state ∈ Finset.range input.states, a.demand state < 2 ^ 31

/-- Every served state is in reach of a cpu that is up for selection. -/
def Auction.Reaches : Prop :=
  ∀ state, state < input.states → a.Served input state → a.InReach input state

/-- Every other state that is not in reach lies above one that is served. -/
def Auction.Covers : Prop :=
  ∀ state, state < input.states → ¬ a.InReach input state → ¬ a.Served input state →
    ∃ lower, lower < state ∧ a.Served input lower

end Places

variable {input : AuctionInput} {a : Auction} {delta : Int}

/-! ### The served states bid -/

/-- A state without weight has one friend. -/
theorem IsFriend.unique {states : Nat} {dir : Int} {stateWeight : Nat → Int}
    {state friend other : Nat} (known : dir = 1 ∨ dir = 0 ∨ dir = -1)
    (isFriend : IsFriend states dir stateWeight state friend)
    (isOther : IsFriend states dir stateWeight state other) : friend = other := by
  rcases known with down | same | up
  · exact (isFriend.left down).unique (isOther.left down)
  · exact (isFriend.nearest same).unique (isOther.nearest same)
  · exact (isFriend.right up).unique (isOther.right up)

section Round

variable (proper : input.Proper) (budget : Budget input delta a) (held : a.Held input)
  (load : input.load ≤ input.cpus)

include proper budget held in
/-- The states with weight are those some cpu is near. -/
theorem Auction.Bids.weighs_iff (bids : a.Bids input) {state : Nat} (small : state < input.states) :
    a.stateWeight input state ≠ 0 ↔ a.Near input state := by
  have cell : ∀ cpu, cpu < input.cpus →
      (0 < a.stateMatrix input cpu state ↔ WithinDelta (a.newCpuState cpu) a.delta state) :=
    fun cpu online =>
      stateMatrix_pos_iff proper.known budget.inStates held.delta.le online small
  constructor
  · intro weighs
    by_contra apart
    have empty : ∀ cpu, cpu < input.cpus →
        0 ≤ a.stateMatrix input cpu state ∧ a.stateMatrix input cpu state ≤ 0 := by
      intro cpu online
      refine ⟨(stateMatrix_bounds proper.known budget.inStates held.delta.le online small).1, ?_⟩
      exact not_lt.mp fun positive => apart ⟨cpu, online, (cell cpu online).mp positive⟩
    have atMost := (updateStateWeight_bounds empty (by omega)).2.1
    rw [zero_mul] at atMost
    exact weighs (le_antisymm atMost (bids.weights state small))
  · rintro ⟨cpu, online, within⟩
    have positive := (cell cpu online).mpr within
    exact (positive.trans_le (bids.cells state small cpu online)).ne'

include proper budget held in
theorem Auction.Bids.handsTo_iff (bids : a.Bids input) {source friend : Nat} :
    a.HandsTo input source friend ↔
      IsFriend input.states input.direction (a.stateWeight input) source friend := by
  have same : weightyStates input.states (a.stateWeight input) = a.nearStates input := by
    ext state
    exact and_congr_right fun small => bids.weighs_iff proper budget held small
  constructor
  · rintro ⟨left, right, nearest⟩
    rw [← same] at left right nearest
    exact ⟨left, right, nearest⟩
  · rintro ⟨left, right, nearest⟩
    rw [same] at left right nearest
    exact ⟨left, right, nearest⟩

/-- What a state with weight has of the demand fits an `int`, with that of those it is the friend
of. -/
theorem gathered_le_sum {states : Nat} {stateWeight demand : Nat → Int} (friend : Nat → Nat)
    {state : Nat} (small : state < states) (weighs : stateWeight state ≠ 0)
    (nonneg : ∀ other, other < states → 0 ≤ demand other) :
    Gather.gathered (weightlessStates stateWeight states) friend demand state ≤
      ∑ other ∈ Finset.range states, demand other := by
  unfold Gather.gathered weightlessStates
  rw [Finset.filter_filter, ← Finset.sum_insert (a := state)]
  · refine Finset.sum_le_sum_of_subset_of_nonneg ?_ fun other member _ =>
      nonneg other (Finset.mem_range.mp member)
    intro other member
    rcases Finset.mem_insert.mp member with rfl | source
    · exact Finset.mem_range.mpr small
    · exact Finset.mem_of_mem_filter other source
  · intro member
    exact weighs (Finset.mem_filter.mp member).2.1

include proper budget held load in
/-- The states with a share of the demand are those that are served. -/
theorem Auction.Bids.served_iff (bids : a.Bids input) (plain : a.Plain input)
    (left : ∃ state, state < input.states ∧ 0 < a.demand state) {state : Nat}
    (small : state < input.states) :
    a.Served input state ↔
      a.stateWeight input state ≠ 0 ∧ 0 < (a.field input).demandField state := by
  have near {other : Nat} (within : other < input.states) :=
    bids.weighs_iff proper budget held within
  have total : ∑ other ∈ Finset.range input.states, a.demand other < 2 ^ 31 := by
    obtain ⟨cpu, online, _⟩ := budget.exists_waiting held load
    have place := budget.inStates cpu online
    have capacity : 0 < 2 * (input.states : Int) * input.cpus := by
      refine mul_pos ?_ ?_ <;> omega
    exact (le_mul_of_one_le_left (sum_demand_pos plain.nonneg left).le capacity).trans_lt plain.fits
  have ints : ∀ other, other < input.states → 0 ≤ a.demand other ∧ a.demand other < 2 ^ 31 := by
    intro other within
    have share := Finset.single_le_sum (fun other member =>
      plain.nonneg other (Finset.mem_range.mp member)) (Finset.mem_range.mpr within)
    exact ⟨plain.nonneg other within, share.trans_lt total⟩
  unfold Auction.Served
  rw [← near small]
  refine and_congr_right fun weighs => ?_
  have handed : Handed input.states input.direction (a.stateWeight input) a.demand input.states
      (a.field input) := updateDemandField_handed proper.known small weighs ints
  have friends {source : Nat} (within : source < input.states)
      (weightless : a.stateWeight input source = 0) :=
    (friendOf_spec proper.known small weighs within weightless none).2.2.1
  have share := handed.shares state small weighs
  have atMost := gathered_le_sum (friendOf input.states input.direction (a.stateWeight input))
    small weighs plain.nonneg
  have sources : ∀ source ∈ (weightlessStates (a.stateWeight input) input.states).filter
      (fun source => friendOf input.states input.direction (a.stateWeight input) source = state),
      0 ≤ a.demand source := by
    intro source member
    have within := Finset.mem_of_mem_filter source (Finset.mem_of_mem_filter source member)
    exact plain.nonneg source (Finset.mem_range.mp within)
  have given := Finset.sum_nonneg sources
  have own := plain.nonneg state small
  constructor
  · intro served
    have positive : 0 < Gather.gathered (weightlessStates (a.stateWeight input) input.states)
        (friendOf input.states input.direction (a.stateWeight input)) a.demand state := by
      unfold Gather.gathered
      rcases served with demanded | ⟨source, within, apart, demanded, hands⟩
      · omega
      · have weightless : a.stateWeight input source = 0 :=
          not_not.mp ((near within).not.mpr apart)
        have isFriend := (bids.handsTo_iff proper budget held).mp hands
        have chosen := (friends within weightless).unique proper.known isFriend
        have atLeast := Finset.single_le_sum sources (Finset.mem_filter.mpr
          ⟨Finset.mem_filter.mpr ⟨Finset.mem_range.mpr within, weightless⟩, chosen⟩)
        omega
    rw [share, int32_of_fits (by omega) (by omega)]
    exact positive
  · intro positive
    rcases handed.source state weighs with ⟨_, own⟩ | ⟨within, weightless, isFriend, demanded⟩
    · exact Or.inl (own ▸ positive)
    · refine Or.inr ⟨_, within, (near within).not.mp (not_not.mpr weightless), ?_, ?_⟩
      · exact lt_of_le_of_ne (plain.nonneg _ within) demanded.symm
      · refine (bids.handsTo_iff proper budget held).mpr ?_
        have friend := friends within weightless
        rwa [isFriend] at friend

end Round

/-! ### One round -/

/-- Some state bids most. -/
theorem exists_highest_bid {some : Nat} (small : some < input.states) :
    ∃ state, state < input.states ∧
      ∀ other, other < input.states → a.bid input other ≤ a.bid input state := by
  obtain ⟨state, member, highest⟩ := (Finset.range input.states).exists_max_image (a.bid input)
    ⟨some, Finset.mem_range.mpr small⟩
  exact ⟨state, Finset.mem_range.mp member, fun other within =>
    highest other (Finset.mem_range.mpr within)⟩

section Round

variable (proper : input.Proper) (budget : Budget input delta a) (held : a.Held input)
  (load : input.load ≤ input.cpus)

include proper budget held load in
/-- No bid of a round is negative, and the states that bid more than nothing are those that are
served. -/
theorem bids_of_plain (plain : a.Plain input) {state : Nat} (small : state < input.states) :
    0 ≤ a.bid input state ∧ (0 < a.bid input state ↔ a.Served input state) := by
  by_cases left : ∃ state, state < input.states ∧ 0 < a.demand state
  · have bids := auction_bids proper budget held load plain.nonneg left plain.fits
    constructor
    · rw [bids.products state small]
      exact mul_nonneg (bids.weights state small) (bids.proxied.nonneg state small)
    · rw [bids.served_iff proper budget held load plain left small]
      exact bids.pos_iff small
  · have none : ∀ state, state < input.states → a.demand state = 0 := fun state small =>
      le_antisymm (not_lt.mp fun positive => left ⟨state, small, positive⟩)
        (plain.nonneg state small)
    have nothing : a.bid input state = 0 := by
      unfold Auction.bid Auction.field
      rw [updateDemandField_of_zero none, none state small, mul_zero]
      rfl
    rw [nothing]
    refine ⟨le_rfl, fun positive => absurd positive (lt_irrefl 0), ?_⟩
    rintro ⟨_, demanded | ⟨source, within, _, demanded, _⟩⟩
    · exact absurd ⟨state, small, demanded⟩ left
    · exact absurd ⟨source, within, demanded⟩ left

include proper budget held load in
/-- Where every served state is in reach and every other one out of reach lies above a served one,
the rows read in a round are in range. -/
theorem rowsInRange_of_reaches (plain : a.Plain input) (reaches : a.Reaches input)
    (covers : a.Covers input) : a.RowsInRange input := by
  refine (rowsInRange_iff proper budget held).mpr fun state small apart => Or.inr ?_
  have idle : ¬ a.Served input state := fun served => apart (reaches state small served)
  obtain ⟨lower, below, served⟩ := covers state small apart idle
  obtain ⟨_, bids⟩ := bids_of_plain proper budget held load plain small
  obtain ⟨_, lowerBids⟩ := bids_of_plain proper budget held load plain (below.trans small)
  refine ⟨lower, below, ?_⟩
  exact (not_lt.mp (bids.not.mpr idle)).trans_lt (lowerBids.mpr served)

include proper budget held load in
/-- Where the rows read in a round are in range, every state that is neither in reach nor served
lies above a served one, and some served state is in reach, if there is any. -/
theorem Auction.RowsInRange.covers (inRange : a.RowsInRange input) (plain : a.Plain input) :
    a.Covers input ∧ ((∃ state, state < input.states ∧ a.Served input state) →
      ∃ state, state < input.states ∧ a.Served input state ∧ a.InReach input state) := by
  have outbid := (rowsInRange_iff proper budget held).mp inRange
  have nonneg {state : Nat} (small : state < input.states) :=
    (bids_of_plain proper budget held load plain small).1
  have served_iff {state : Nat} (small : state < input.states) :=
    (bids_of_plain proper budget held load plain small).2
  constructor
  · intro state small apart idle
    rcases outbid state small apart with negative | ⟨lower, below, less⟩
    · exact absurd (nonneg small) (not_le.mpr negative)
    · exact ⟨lower, below, (served_iff (below.trans small)).mp ((nonneg small).trans_lt less)⟩
  · rintro ⟨some, someSmall, served⟩
    by_contra none
    -- a state that bids most is served, so it is not in reach, but no state bids more
    obtain ⟨state, small, highest⟩ := exists_highest_bid (a := a) someSmall
    have positive : 0 < a.bid input state :=
      ((served_iff someSmall).mpr served).trans_le (highest some someSmall)
    have apart : ¬ a.InReach input state := fun reach =>
      none ⟨state, small, (served_iff small).mp positive, reach⟩
    rcases outbid state small apart with negative | ⟨lower, below, less⟩
    · exact absurd (nonneg small) (not_le.mpr negative)
    · exact absurd (highest lower (below.trans small)) (not_le.mpr less)

include proper budget held load in
/-- A round with some demand in which every served state is in reach grants a cpu. -/
theorem grantable_of_reaches (plain : a.Plain input) (reaches : a.Reaches input)
    (left : ∃ state, state < input.states ∧ 0 < a.demand state) : a.Grantable input := by
  have served_iff {state : Nat} (small : state < input.states) :=
    (bids_of_plain proper budget held load plain small).2
  have bids := auction_bids proper budget held load plain.nonneg left plain.fits
  obtain ⟨some, someSmall, share, weighs⟩ :=
    bids.proxied.exists_pos (sum_demand_pos plain.nonneg left)
  obtain ⟨state, small, highest⟩ := exists_highest_bid (a := a) someSmall
  have positive : 0 < a.bid input state :=
    ((bids.pos_iff someSmall).mpr ⟨weighs, share⟩).trans_le (highest some someSmall)
  exact ⟨state, small, reaches state small ((served_iff small).mp positive), positive.le, highest⟩

end Round

/-! ### Rows in range -/

/-- Three states and one cpu, in the highest of them. -/
def highestOfThree : AuctionInput where
  cpus := 1
  states := 3
  curCpuState _ := 2
  total := 4
  load := 1
  direction := 0
  outOfRange _ _ := 0

/-- The same with two cpus. -/
def highestOfThreeTwice : AuctionInput := { highestOfThree with cpus := 2, load := 2 }

/-- The demand for the highest of three states. -/
def highestDemand (state : Nat) : Int := if state = 2 then 1 else 0

/-- The demand for the lowest and the highest of three states. -/
def outerDemand (state : Nat) : Int := if state = 1 then 0 else 1

/-- If in every round that finds a cpu near a state in demand the served states are in reach, then
where the auction of an interval stops early with delta left no cpu up for selection is near a
state in demand. -/
theorem greedy_stops_without_grant {s : Scheduler} (inStates : InStates s) (interval : Interval)
    (delta : Int) (requests : minRequests ≤ hintTotal s)
    (unread : ∀ iteration state, interval.outOfRange iteration state = 0)
    (reaches : ∀ rounds, rounds < interval.load s →
      (auctionRounds (interval.auctionInput s) delta (interval.demand s) rounds).Held
        (interval.auctionInput s) →
      DemandNear (interval.auctionInput s)
        (auctionRounds (interval.auctionInput s) delta (interval.demand s) rounds) →
      (auctionRounds (interval.auctionInput s) delta (interval.demand s) rounds).Plain
          (interval.auctionInput s) ∧
        (auctionRounds (interval.auctionInput s) delta (interval.demand s) rounds).Reaches
          (interval.auctionInput s)) :
    (auction (interval.auctionInput s) delta (interval.demand s)).totalIter < interval.load s →
      0 < (auction (interval.auctionInput s) delta (interval.demand s)).delta →
        ¬ DemandNear (interval.auctionInput s)
          (auction (interval.auctionInput s) delta (interval.demand s)) := by
  have proper := interval.proper inStates
  refine (auction_stops_iff proper delta (interval.demand s) requests unread).mpr ?_
  intro rounds before held near
  have budget := auctionRounds_budget (interval.auctionInput s) delta (interval.demand s)
    proper.inStates rounds
  obtain ⟨plain, reach⟩ := reaches rounds before held near
  obtain ⟨_, _, _, state, small, demanded, _⟩ := near
  exact grantable_of_reaches proper budget held (getTasksLoad_le _ _) plain reach
    ⟨state, small, demanded⟩

/-- Two cpus in the lowest of three states, which is in demand three times over, and one in the
highest. With a delta of one both are granted, and the third one is not near the state. -/
theorem greedy_stops_without_grant_apart :
    let s := hintedScheduler 3 3 (fun cpu => if cpu = 2 then 2 else 0) fun state =>
      if state = 0 then 8 else 0
    let input := (tasksInterval 3).auctionInput s
    let final := auction input 1 ((tasksInterval 3).demand s)
    final.totalIter = 2 ∧ (tasksInterval 3).load s = 3 ∧ final.delta = 1 ∧ final.demand 0 = 1 ∧
      ¬ DemandNear input final := by
  let s := hintedScheduler 3 3 (fun cpu => if cpu = 2 then 2 else 0) fun state =>
    if state = 0 then 8 else 0
  let input := (tasksInterval 3).auctionInput s
  let demand := (tasksInterval 3).demand s
  have inStates : InStates s := by decide
  refine ⟨by decide, by decide, by decide, by decide, ?_⟩
  refine greedy_stops_without_grant inStates (tasksInterval 3) 1 (by decide) (fun _ _ => rfl) ?_
    (by decide) (by decide)
  intro rounds before _ near
  have granted : ∀ rounds, rounds < 3 → DemandNear input (auctionRounds input 1 demand rounds) →
      (∀ state, state < 3 → 0 ≤ (auctionRounds input 1 demand rounds).demand state) ∧
      2 * 3 * 3 * ∑ state ∈ Finset.range 3, (auctionRounds input 1 demand rounds).demand state <
        2 ^ 31 ∧
      ∀ state, state < 3 → (auctionRounds input 1 demand rounds).InReach input state := by decide
  have load : (tasksInterval 3).load s = 3 := by decide
  obtain ⟨nonneg, fits, reach⟩ := granted rounds (load ▸ before) near
  exact ⟨⟨nonneg, fits⟩, fun state small _ => reach state small⟩

/-- Two cpus in the lowest of three states and one in the highest, which is in demand, as is the
lowest three times over: the auction stops after two rounds, with the third cpu up for selection. -/
theorem greedy_stops_near_demand :
    let s := hintedScheduler 3 3 (fun cpu => if cpu = 2 then 2 else 0) fun state =>
      if state = 0 then 5 else if state = 2 then 1 else 0
    let input := (tasksInterval 3).auctionInput s
    let final := auction input 1 ((tasksInterval 3).demand s)
    minRequests ≤ hintTotal s ∧ (tasksInterval 3).load s = 3 ∧ final.totalIter = 2 ∧
      final.delta = 1 ∧ DemandNear input final := by
  refine ⟨by decide, by decide, by decide, by decide, 2, by decide, by decide, 2, by decide,
    by decide, by decide⟩

end Seeker
