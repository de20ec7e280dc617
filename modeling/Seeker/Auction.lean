/-
This file embeds the part of `mutate_gd.c` that chooses a layout of the cpus over
the states: the demand of each state, the auction, the loop that fills up with
awake cpus, and the fallback that always provides one cpu.

An auction round recomputes the state matrix within the delta that remains, weighs
the states, lets the best bidding state choose its best cpu, and pays for the move.
The matrix, the weights, the winning cpus and the demand field are written in full
before a round reads them, so they are values of the round; only the read of
`state_matrix[-1][j]`, which happens when no cpu can win a state, has a value of its
own. The file proves the delta constraint: whatever the demand, the direction and
the values read out of range, the rounds never spend more than the delta.

Arithmetic on the demand wraps at 32 bits. The distances between states and the
number of cpus are small, so no wrapping is written there.
-/
import Mathlib.Algebra.BigOperators.Group.Finset.Basic
import Mathlib.Algebra.Order.BigOperators.Group.Finset
import Mathlib.Algebra.Order.Ring.Int
import Mathlib.Tactic.Linarith
import Seeker.Globals

namespace Seeker

/-! ### Demand and direction -/

/-- `MIN_REQUESTS`. -/
def minRequests : Int := 4

/-- `procs`: the cpus a state's hints entitle it to. -/
def procs (hints total totalLoad : Int) : Int :=
  if hints = 0 then 0
  else if hints = total then totalLoad
  else
    let ans := div (int32 (hints * totalLoad)) total
    if ans < 0 then 0 else ans

/-- `transition_direction`. -/
def transitionDirection (states cpus : Nat) (demand : Nat → Int) (info : Nat → ProcInfo)
    (curCpuState : Nat → Nat) : Int :=
  let reqLevel := Loops.forRange states
    (fun state level => int32 (level + demand state * (state + 1))) 0
  let preLevel := Loops.forRange cpus
    (fun cpu level =>
      if (info cpu).sleepTime > 0 then level else int32 (level + (curCpuState cpu + 1))) 0
  if reqLevel > preLevel then 1 else if reqLevel < preLevel then -1 else 0

/-! ### One round of the auction -/

/-- What an auction is held about. `outOfRange iteration state` is the value the read of
`state_matrix[-1][state]` obtains in an iteration. -/
structure AuctionInput where
  cpus : Nat
  states : Nat
  curCpuState : Nat → Nat
  total : Int
  load : Nat
  direction : Int
  outOfRange : Nat → Nat → Int

/-- The variables of the auction. `won` lists the cpus that won a round, latest first; nothing
in the code reads it. -/
structure Auction where
  delta : Int
  demand : Nat → Int
  selectedCpus : Nat → Int
  newCpuState : Nat → Nat
  totalDemand : Int
  totalIter : Nat
  totalSelectedCpus : Nat
  won : List Nat

/-- One row of `update_state_matrix`: the five writes of the row, each loop starting where the
one before it stopped. -/
def stateRow (states newState : Nat) (left right delta : Int) : Nat → Int :=
  let first := ((newState : Int) - delta).toNat
  let second := max first newState
  let third := max (second + 1) (min states (int32 (newState + delta) + 1).toNat)
  let row := Loops.fill 0 first (fun _ => 0) fun _ => 0
  let row := Loops.fill first newState (fun state => left + state - newState) row
  let row := Function.update row second (2 * (states : Int))
  let row := Loops.fill (second + 1) third (fun state => right + newState - state) row
  Loops.fill third states (fun _ => 0) row

/-- `update_state_matrix`. -/
def updateStateMatrix (states : Nat) (newCpuState : Nat → Nat) (delta direction : Int) :
    Nat → Nat → Int :=
  let left := (direction * direction - direction + 2) * states / 2
  let right := (direction * direction + direction + 2) * states / 2
  fun cpu => stateRow states (newCpuState cpu) left right delta

/-- `update_state_weight`. -/
def updateStateWeight (cpus : Nat) (stateMatrix : Nat → Nat → Int) (state : Nat) : Int :=
  Loops.forRange cpus (fun cpu weight => int32 (weight + stateMatrix cpu state)) 0

/-- `get_left_distance`. -/
def getLeftDistance (stateWeight : Nat → Int) : Nat → Option Nat
  | 0 => none
  | position + 1 =>
      if stateWeight position ≠ 0 then some position
      else getLeftDistance stateWeight position

/-- `get_right_distance`. -/
def getRightDistance (states : Nat) (stateWeight : Nat → Int) (position : Nat) : Option Nat :=
  (List.range' (position + 1) (states - (position + 1))).find? fun state =>
    decide (stateWeight state ≠ 0)

/-- `closest`. -/
def closest (position : Nat) : Option Nat → Option Nat → Option Nat
  | none, right => right
  | left, none => left
  | some left, some right =>
      if position - left > right - position then some right else some left

/-- The arrays `update_demand_field` writes, and its variable `friend`, which keeps its value
from one state to the next. -/
structure DemandField where
  demandField : Nat → Int
  proxySource : Nat → Nat
  friend : Option Nat

/-- The chain of conditions of `update_demand_field` that chooses the friend of a state. -/
def chooseFriend (dir : Int) (position : Nat) (left right friend : Option Nat) : Option Nat :=
  if dir = 1 then if left.isSome then left else right
  else if dir = 0 then
    if left.isNone then right
    else if right.isNone then left
    else closest position left right
  else if dir = -1 then if right.isSome then right else left
  else friend

/-- One turn of the second loop of `update_demand_field`. -/
def demandFieldStep (states : Nat) (dir : Int) (stateWeight demand : Nat → Int) (state : Nat)
    (field : DemandField) : DemandField :=
  if field.demandField state ≠ 0 ∧ stateWeight state = 0 then
    let left := getLeftDistance stateWeight state
    let right := getRightDistance states stateWeight state
    if left.isNone ∧ right.isNone then field
    else
      match chooseFriend dir state left right field.friend with
      | none => { field with friend := none }
      | some friend =>
        { demandField := Function.update
            (Function.update field.demandField friend
              (int32 (field.demandField friend + demand state))) state 0
          proxySource := Function.update field.proxySource friend state
          friend := some friend }
  else field

/-- `update_demand_field`. -/
def updateDemandField (states : Nat) (dir : Int) (stateWeight demand : Nat → Int) : DemandField :=
  Loops.forRange states (demandFieldStep states dir stateWeight demand)
    { demandField := demand, proxySource := id, friend := none }

/-- One column of `update_winning_procs`: the largest value so far and where it was found. -/
structure WinningProc where
  maxVal : Int
  max : Option Nat

/-- One turn of the inner loop of `update_winning_procs`. -/
def winningProcStep (selectedCpus : Nat → Int) (stateMatrix : Nat → Nat → Int) (state cpu : Nat)
    (best : WinningProc) : WinningProc :=
  let val := selectedCpus cpu * stateMatrix cpu state
  if val > best.maxVal then { maxVal := val, max := some cpu } else best

/-- `update_winning_procs`. -/
def updateWinningProcs (cpus : Nat) (selectedCpus : Nat → Int) (stateMatrix : Nat → Nat → Int)
    (state : Nat) : Option Nat :=
  (Loops.forRange cpus (winningProcStep selectedCpus stateMatrix state)
    { maxVal := 0, max := none }).max

/-- The variables of `get_winning_state`. -/
structure WinningState where
  maxWeight : Int
  maxProc : Int
  max : Option Nat

/-- `get_winning_state`: `outOfRange` is what the matrix yields at a winning cpu of `-1`. -/
def getWinningState (states : Nat) (stateWeight demandField : Nat → Int)
    (winningProcs : Nat → Option Nat) (stateMatrix : Nat → Nat → Int) (outOfRange : Nat → Int) :
    Option Nat :=
  let cell := fun state =>
    match winningProcs state with
    | some cpu => stateMatrix cpu state
    | none => outOfRange state
  (Loops.forRange states
    (fun state (best : WinningState) =>
      let weight := int32 (stateWeight state * demandField state)
      if weight > best.maxWeight ∨ weight = best.maxWeight ∧ cell state > best.maxProc then
        { maxWeight := weight, maxProc := cell state, max := some state }
      else best)
    { maxWeight := 0, maxProc := 0, max := none }).max

/-- The writes of a round that `cpu` wins for `state`, the demand being taken from `source`. -/
def Auction.award (input : AuctionInput) (cpu state source : Nat) (a : Auction) : Auction where
  delta := a.delta - ((input.curCpuState cpu : Int) - state).natAbs
  demand := Function.update a.demand source (int32 (a.demand source - 1))
  selectedCpus := Function.update a.selectedCpus cpu 0
  newCpuState := Function.update a.newCpuState cpu state
  totalDemand := a.totalDemand - 1
  totalIter := a.totalIter + 1
  totalSelectedCpus := a.totalSelectedCpus + 1
  won := cpu :: a.won

/-- One round of the auction of `greedy_delta`; `none` is a `break`. -/
def auctionRound (input : AuctionInput) (a : Auction) : Option Auction :=
  if input.total < minRequests ∨ input.load = 0 ∨ a.delta ≤ 0 ∨ a.totalDemand ≤ 0 then none
  else
    let stateMatrix := updateStateMatrix input.states a.newCpuState a.delta input.direction
    let stateWeight := updateStateWeight input.cpus stateMatrix
    let winningProcs := updateWinningProcs input.cpus a.selectedCpus stateMatrix
    let field := updateDemandField input.states input.direction stateWeight a.demand
    match getWinningState input.states stateWeight field.demandField winningProcs stateMatrix
        (input.outOfRange a.totalIter) with
    | none => none
    | some winner =>
      if winner ≥ input.states then none
      else
        match winningProcs winner with
        | none => none
        | some winnerProc =>
          if winnerProc ≥ input.cpus then none
          else some (a.award input winnerProc winner (field.proxySource winner))

/-- The variables before the first round: every cpu is up for selection in its own state. -/
def Auction.start (input : AuctionInput) (delta : Int) (demand : Nat → Int) : Auction where
  delta := delta
  demand := demand
  selectedCpus _ := 1
  newCpuState := input.curCpuState
  totalDemand := input.load
  totalIter := 0
  totalSelectedCpus := 0
  won := []

/-- The first `rounds` rounds of the auction loop of `greedy_delta`. -/
def auctionRounds (input : AuctionInput) (delta : Int) (demand : Nat → Int) (rounds : Nat) :
    Auction :=
  Loops.repeatUpTo (auctionRound input) rounds (Auction.start input delta demand)

/-- The auction loop of `greedy_delta`. -/
def auction (input : AuctionInput) (delta : Int) (demand : Nat → Int) : Auction :=
  auctionRounds input delta demand input.load

/-! ### From the auction to a layout -/

/-- One turn of the fill-up loop of `greedy_delta`; its `break` leaves the variables alone for
good. -/
def fillUpStep (load : Nat) (info : Nat → ProcInfo) (cpu : Nat) (a : Auction) : Auction :=
  if a.totalSelectedCpus ≥ load then a
  else if a.selectedCpus cpu = 0 then a
  else if (info cpu).sleepTime = 0 then
    { a with
      totalSelectedCpus := a.totalSelectedCpus + 1
      selectedCpus := Function.update a.selectedCpus cpu 0 }
  else a

/-- The fill-up loop of `greedy_delta`. -/
def fillUp (input : AuctionInput) (info : Nat → ProcInfo) (a : Auction) : Auction :=
  Loops.forRange input.cpus (fillUpStep input.load info) a

/-- The loop that counts `total_provided_cpus`. -/
def providedCpus (cpus : Nat) (a : Auction) : Nat :=
  Loops.forRange cpus (fun cpu total => if a.selectedCpus cpu = 1 then total else total + 1) 0

/-- The fallback of `greedy_delta`: with no cpu provided, cpu 0 is, in state 0. -/
def ensureCpu (cpus : Nat) (a : Auction) : Auction :=
  if providedCpus cpus a = 0 then
    { a with
      newCpuState := Function.update a.newCpuState 0 0
      selectedCpus := Function.update a.selectedCpus 0 0 }
  else a

/-- The layout of `greedy_delta` at its commit point. -/
def layoutOf (input : AuctionInput) (delta : Int) (demand : Nat → Int) (info : Nat → ProcInfo) :
    Auction :=
  ensureCpu input.cpus (fillUp input info (auction input delta demand))

/-! ### The state matrix bids within the delta -/

/-- The row of a cpu in closed form. -/
theorem stateRow_apply {states newState state : Nat} (inStates : newState < states)
    (inRange : state < states) (left right : Int) {delta : Int} (nonneg : 0 ≤ delta) :
    stateRow states newState left right delta state =
      if (state : Int) + delta < newState then 0
      else if state < newState then left + state - newState
      else if state = newState then 2 * (states : Int)
      else if (state : Int) ≤ int32 (newState + delta) then right + newState - state
      else 0 := by
  unfold stateRow
  generalize int32 (newState + delta) = reach
  have second : max ((newState : Int) - delta).toNat newState = newState := by omega
  simp only [second, Loops.fill_apply, Function.update_apply]
  split_ifs <;> first | rfl | omega

/-- A cell that is not zero is for a state within the delta of the cpu's. -/
theorem stateRow_within {states newState state : Nat} (inStates : newState < states)
    (inRange : state < states) {left right delta : Int} (nonneg : 0 ≤ delta)
    (bid : stateRow states newState left right delta state ≠ 0) :
    (((newState : Int) - state).natAbs : Int) ≤ delta := by
  rw [stateRow_apply inStates inRange left right nonneg] at bid
  have reach : int32 (newState + delta) ≤ newState + delta := int32_le_of_nonneg (by omega)
  split_ifs at bid <;> first | exact absurd rfl bid | omega

section Sides

variable {direction : Int} (known : direction = 1 ∨ direction = 0 ∨ direction = -1) (states : Nat)
include known

/-- In the directions there are, the weight of the side to the left. -/
theorem leftWeight_bounds :
    (states : Int) ≤ (direction * direction - direction + 2) * states / 2 ∧
      (direction * direction - direction + 2) * states / 2 ≤ 2 * states := by
  rcases known with rfl | rfl | rfl <;> omega

/-- In the directions there are, the weight of the side to the right. -/
theorem rightWeight_bounds :
    (states : Int) ≤ (direction * direction + direction + 2) * states / 2 ∧
      (direction * direction + direction + 2) * states / 2 ≤ 2 * states := by
  rcases known with rfl | rfl | rfl <;> omega

end Sides

/-- In the directions there are, a cpu's cell for its own state is larger than all others. -/
theorem updateStateMatrix_lt {states cpu state : Nat} {newCpuState : Nat → Nat}
    (inStates : newCpuState cpu < states) (inRange : state < states) {delta direction : Int}
    (nonneg : 0 ≤ delta) (known : direction = 1 ∨ direction = 0 ∨ direction = -1)
    (other : newCpuState cpu ≠ state) :
    updateStateMatrix states newCpuState delta direction cpu state < 2 * states := by
  obtain ⟨_, left⟩ := leftWeight_bounds known states
  obtain ⟨_, right⟩ := rightWeight_bounds known states
  unfold updateStateMatrix
  rw [stateRow_apply inStates inRange _ _ nonneg]
  split_ifs <;> omega

theorem updateStateMatrix_self {states cpu : Nat} {newCpuState : Nat → Nat}
    (inStates : newCpuState cpu < states) {delta : Int} (nonneg : 0 ≤ delta) (direction : Int) :
    updateStateMatrix states newCpuState delta direction cpu (newCpuState cpu) = 2 * states := by
  unfold updateStateMatrix
  rw [stateRow_apply inStates inStates _ _ nonneg, if_neg (by omega), if_neg (lt_irrefl _),
    if_pos rfl]

/-- What the scan of a column has found after looking at `count` cpus. -/
structure ColumnScanned (selectedCpus : Nat → Int) (stateMatrix : Nat → Nat → Int)
    (state count : Nat) (best : WinningProc) : Prop where
  nonneg : 0 ≤ best.maxVal
  largest : ∀ cpu, cpu < count → selectedCpus cpu * stateMatrix cpu state ≤ best.maxVal
  found : ∀ cpu, best.max = some cpu → cpu < count ∧ 0 < best.maxVal ∧
    selectedCpus cpu * stateMatrix cpu state = best.maxVal

theorem columnScanned (cpus : Nat) (selectedCpus : Nat → Int) (stateMatrix : Nat → Nat → Int)
    (state : Nat) :
    ColumnScanned selectedCpus stateMatrix state cpus
      (Loops.forRange cpus (winningProcStep selectedCpus stateMatrix state)
        { maxVal := 0, max := none }) := by
  refine Loops.forRange_induction
    (fun count best => ColumnScanned selectedCpus stateMatrix state count best)
    ⟨le_rfl, fun _ small => absurd small (Nat.not_lt_zero _), fun _ chosen => by cases chosen⟩ ?_
  intro index _ best scanned
  unfold winningProcStep
  dsimp only
  split
  · rename_i larger
    have positive := lt_of_le_of_lt scanned.nonneg larger
    refine ⟨le_of_lt positive, fun other within => ?_, fun chosen isChosen => ?_⟩
    · rcases Nat.lt_succ_iff_lt_or_eq.mp within with earlier | rfl
      · exact le_trans (scanned.largest other earlier) (le_of_lt larger)
      · exact le_rfl
    · obtain rfl : index = chosen := Option.some.inj isChosen
      exact ⟨Nat.lt_succ_self index, positive, rfl⟩
  · rename_i smaller
    refine ⟨scanned.nonneg, fun other within => ?_, fun chosen isChosen => ?_⟩
    · rcases Nat.lt_succ_iff_lt_or_eq.mp within with earlier | rfl
      · exact scanned.largest other earlier
      · exact not_lt.mp smaller
    · obtain ⟨earlier, held⟩ := scanned.found chosen isChosen
      exact ⟨Nat.lt_succ_of_lt earlier, held⟩

/-- A cpu that wins a state is up for selection and bids a positive value, which no other cpu
exceeds. -/
theorem updateWinningProcs_some {cpus : Nat} {selectedCpus : Nat → Int}
    {stateMatrix : Nat → Nat → Int} {state cpu : Nat}
    (wins : updateWinningProcs cpus selectedCpus stateMatrix state = some cpu) :
    cpu < cpus ∧ 0 < selectedCpus cpu * stateMatrix cpu state ∧
      ∀ other, other < cpus → selectedCpus other * stateMatrix other state ≤
        selectedCpus cpu * stateMatrix cpu state := by
  have scanned := columnScanned cpus selectedCpus stateMatrix state
  obtain ⟨online, positive, value⟩ := scanned.found cpu wins
  rw [value]
  exact ⟨online, positive, scanned.largest⟩

/-! ### What a round does -/

/-- A round that is not left is won by a cpu up for selection, for a state within the delta
that remains, while there is delta and demand to spend. A cpu wins a state that is not its
own only if no cpu in that state is up for selection. -/
structure Won (input : AuctionInput) (a : Auction) (cpu state : Nat) : Prop where
  online : cpu < input.cpus
  inStates : state < input.states
  unselected : a.selectedCpus cpu ≠ 0
  nearest : (input.direction = 1 ∨ input.direction = 0 ∨ input.direction = -1) →
    a.newCpuState cpu ≠ state →
    ∀ other, other < input.cpus → a.selectedCpus other ≠ 0 → a.newCpuState other ≠ state
  affordable : (((a.newCpuState cpu : Int) - state).natAbs : Int) ≤ a.delta
  deltaLeft : 0 < a.delta
  demandLeft : 0 < a.totalDemand

theorem auctionRound_won {input : AuctionInput} {a next : Auction}
    (flags : ∀ cpu, a.selectedCpus cpu = 0 ∨ a.selectedCpus cpu = 1)
    (inStates : ∀ cpu, cpu < input.cpus → a.newCpuState cpu < input.states)
    (round : auctionRound input a = some next) :
    ∃ cpu state source, Won input a cpu state ∧ next = a.award input cpu state source := by
  unfold auctionRound at round
  split at round
  · cases round
  · rename_i running
    obtain ⟨-, -, deltaLeft, demandLeft⟩ : ¬ input.total < minRequests ∧ ¬ input.load = 0 ∧
        0 < a.delta ∧ 0 < a.totalDemand := by
      refine ⟨?_, ?_, ?_, ?_⟩ <;> omega
    dsimp only at round
    split at round
    · cases round
    · rename_i winner chosen
      split at round
      · cases round
      · rename_i inRange
        split at round
        · cases round
        · rename_i winnerProc wins
          split at round
          · cases round
          · obtain ⟨online, positive, largest⟩ := updateWinningProcs_some wins
            have unselected := left_ne_zero_of_mul (ne_of_gt positive)
            refine ⟨winnerProc, winner, _, ?_, (Option.some.inj round).symm⟩
            refine ⟨online, not_le.mp inRange, unselected, ?_, ?_, deltaLeft, demandLeft⟩
            · intro known elsewhere other otherOnline waiting here
              have less := updateStateMatrix_lt (inStates winnerProc online) (not_le.mp inRange)
                (le_of_lt deltaLeft) known elsewhere
              have own := updateStateMatrix_self (inStates other otherOnline)
                (le_of_lt deltaLeft) input.direction
              have compared := largest other otherOnline
              rw [(flags winnerProc).resolve_left unselected, (flags other).resolve_left waiting,
                one_mul, one_mul, ← here] at compared
              rw [← here] at less
              omega
            · exact stateRow_within (inStates winnerProc online) (not_le.mp inRange)
                (le_of_lt deltaLeft) (right_ne_zero_of_mul (ne_of_gt positive))

/-! ### Clearing a flag -/

section Cleared

variable (flags : Nat → Int) (cpu other : Nat)

theorem cleared_eq_zero_iff :
    Function.update flags cpu 0 other = 0 ↔ other = cpu ∨ flags other = 0 := by
  by_cases same : other = cpu
  · simp [same]
  · simp [same]

variable {flags}

theorem cleared_flags (isFlag : ∀ other, flags other = 0 ∨ flags other = 1) :
    Function.update flags cpu 0 other = 0 ∨ Function.update flags cpu 0 other = 1 := by
  by_cases same : other = cpu
  · simp [same]
  · rw [Function.update_of_ne same]
    exact isFlag other

end Cleared

/-! ### The budget -/

/-- The distance the cpus have been moved so far. -/
def moved (input : AuctionInput) (a : Auction) : Int :=
  ∑ cpu ∈ Finset.range input.cpus,
    (((a.newCpuState cpu : Int) - input.curCpuState cpu).natAbs : Int)

/-- The invariant of the auction: the delta pays for the moves, a cpu still up for selection has
not moved, and the winners are the cpus that are not, one for each round. -/
structure Budget (input : AuctionInput) (delta : Int) (a : Auction) : Prop where
  paid : moved input a = delta - a.delta
  remains : 0 ≤ a.delta ∨ a.delta = delta
  flags : ∀ cpu, a.selectedCpus cpu = 0 ∨ a.selectedCpus cpu = 1
  waiting : ∀ cpu, a.selectedCpus cpu ≠ 0 → a.newCpuState cpu = input.curCpuState cpu
  inStates : ∀ cpu, cpu < input.cpus → a.newCpuState cpu < input.states
  winners : ∀ cpu, cpu ∈ a.won ↔ a.selectedCpus cpu = 0
  online : ∀ cpu, cpu ∈ a.won → cpu < input.cpus
  distinct : a.won.Nodup
  demand : a.totalDemand = input.load - a.won.length
  rounds : a.won.length ≤ input.load
  selected : a.totalSelectedCpus = a.won.length
  iterations : a.totalIter = a.won.length

theorem Budget.start {input : AuctionInput} (delta : Int) (demand : Nat → Int)
    (inStates : ∀ cpu, cpu < input.cpus → input.curCpuState cpu < input.states) :
    Budget input delta (Auction.start input delta demand) where
  paid := by
    rw [moved, Finset.sum_eq_zero]
    · exact (sub_self delta).symm
    · intro cpu _
      show (((input.curCpuState cpu : Int) - input.curCpuState cpu).natAbs : Int) = 0
      rw [sub_self]
      rfl
  remains := Or.inr rfl
  flags _ := Or.inr rfl
  waiting _ _ := rfl
  inStates := inStates
  winners cpu := ⟨fun won => absurd won List.not_mem_nil, fun selected => by cases selected⟩
  online _ won := absurd won List.not_mem_nil
  distinct := List.nodup_nil
  demand := (sub_zero _).symm
  rounds := Nat.zero_le _
  selected := rfl
  iterations := rfl

/-- The winner's move is what the delta is charged. -/
theorem moved_award {input : AuctionInput} {a : Auction} {cpu state : Nat} (source : Nat)
    (online : cpu < input.cpus) (unmoved : a.newCpuState cpu = input.curCpuState cpu) :
    moved input (a.award input cpu state source) =
      moved input a + (((input.curCpuState cpu : Int) - state).natAbs : Int) := by
  have inside : cpu ∈ Finset.range input.cpus := Finset.mem_range.mpr online
  unfold moved
  rw [← Finset.add_sum_erase _ _ inside, ← Finset.add_sum_erase _ _ inside]
  have others : ∀ other ∈ (Finset.range input.cpus).erase cpu,
      ((((a.award input cpu state source).newCpuState other : Int) -
        input.curCpuState other).natAbs : Int) =
      (((a.newCpuState other : Int) - input.curCpuState other).natAbs : Int) := by
    intro other member
    have moves : (a.award input cpu state source).newCpuState other = a.newCpuState other :=
      Function.update_of_ne (Finset.ne_of_mem_erase member) ..
    rw [moves]
  have placed : (a.award input cpu state source).newCpuState cpu = state :=
    Function.update_self ..
  rw [Finset.sum_congr rfl others, placed, unmoved, sub_self, Int.natAbs_zero]
  omega

/-- A round keeps the budget. -/
theorem Budget.award {input : AuctionInput} {delta : Int} {a : Auction}
    (budget : Budget input delta a) {cpu state : Nat} (won : Won input a cpu state)
    (source : Nat) : Budget input delta (a.award input cpu state source) := by
  have unmoved := budget.waiting cpu won.unselected
  have fresh : cpu ∉ a.won := fun member => won.unselected ((budget.winners cpu).mp member)
  have affordable := won.affordable
  rw [unmoved] at affordable
  refine ⟨?_, ?_, ?_, ?_, ?_, ?_, ?_, List.nodup_cons.mpr ⟨fresh, budget.distinct⟩, ?_, ?_, ?_, ?_⟩
  · rw [moved_award source won.online unmoved, budget.paid]
    show _ = delta - (a.delta - _)
    omega
  · left
    show 0 ≤ a.delta - _
    omega
  · exact fun other => cleared_flags cpu other budget.flags
  · intro other waiting
    obtain ⟨different, earlier⟩ := not_or.mp ((cleared_eq_zero_iff ..).not.mp waiting)
    show Function.update a.newCpuState cpu state other = _
    rw [Function.update_of_ne different]
    exact budget.waiting other earlier
  · intro other online
    show Function.update a.newCpuState cpu state other < _
    by_cases same : other = cpu
    · rw [same, Function.update_self]
      exact won.inStates
    · rw [Function.update_of_ne same]
      exact budget.inStates other online
  · intro other
    show other ∈ cpu :: a.won ↔ Function.update a.selectedCpus cpu 0 other = 0
    rw [List.mem_cons, budget.winners, cleared_eq_zero_iff]
  · intro other member
    rcases List.mem_cons.mp member with rfl | earlier
    · exact won.online
    · exact budget.online other earlier
  · show a.totalDemand - 1 = _ - ((cpu :: a.won).length : Int)
    rw [budget.demand, List.length_cons]
    omega
  · show (cpu :: a.won).length ≤ _
    have left := won.demandLeft
    rw [budget.demand] at left
    rw [List.length_cons]
    omega
  · show a.totalSelectedCpus + 1 = (cpu :: a.won).length
    rw [budget.selected, List.length_cons]
  · show a.totalIter + 1 = (cpu :: a.won).length
    rw [budget.iterations, List.length_cons]

/-- The budget is kept at any point of the auction. -/
theorem auctionRounds_budget (input : AuctionInput) (delta : Int) (demand : Nat → Int)
    (inStates : ∀ cpu, cpu < input.cpus → input.curCpuState cpu < input.states)
    (rounds : Nat) : Budget input delta (auctionRounds input delta demand rounds) := by
  refine Loops.repeatUpTo_induction (Budget input delta) ?_ rounds
    (Budget.start delta demand inStates)
  intro current next budget round
  obtain ⟨cpu, state, source, won, rfl⟩ := auctionRound_won budget.flags budget.inStates round
  exact budget.award won source

/-! ### Moves go one way -/

/-- No cpu has left its state. -/
def Unmoved (input : AuctionInput) (a : Auction) : Prop :=
  ∀ cpu, cpu < input.cpus → a.newCpuState cpu = input.curCpuState cpu

/-- A selected cpu has come to the state and none has left it or will. -/
structure Gains (input : AuctionInput) (a : Auction) (state : Nat) : Prop where
  comes : ∃ cpu, cpu < input.cpus ∧ a.selectedCpus cpu = 0 ∧ a.newCpuState cpu = state ∧
    input.curCpuState cpu ≠ state
  stays : ∀ cpu, cpu < input.cpus → input.curCpuState cpu = state →
    a.selectedCpus cpu = 0 ∧ a.newCpuState cpu = state

/-- A round keeps what its first move has settled: the cpus already in the state moved to. -/
theorem oneWay_award {input : AuctionInput} {delta : Int} {a : Auction}
    (known : input.direction = 1 ∨ input.direction = 0 ∨ input.direction = -1)
    (budget : Budget input delta a) {cpu state : Nat} (won : Won input a cpu state) (source : Nat)
    (oneWay : Unmoved input a ∨ ∃ state, Gains input a state) :
    Unmoved input (a.award input cpu state source) ∨
      ∃ target, Gains input (a.award input cpu state source) target := by
  have selected : ∀ other, a.selectedCpus other = 0 → other ≠ cpu := by
    rintro other taken rfl
    exact won.unselected taken
  have flag : ∀ other, other ≠ cpu →
      (a.award input cpu state source).selectedCpus other = a.selectedCpus other :=
    fun other apart => Function.update_of_ne apart ..
  have place : ∀ other, other ≠ cpu →
      (a.award input cpu state source).newCpuState other = a.newCpuState other := fun other apart =>
    Function.update_of_ne apart ..
  have placed : (a.award input cpu state source).newCpuState cpu = state := Function.update_self ..
  have own := budget.waiting cpu won.unselected
  rcases oneWay with unmoved | ⟨target, gains⟩
  · by_cases home : state = input.curCpuState cpu
    · refine Or.inl fun other online => ?_
      by_cases same : other = cpu
      · rw [same, placed, home]
      · rw [place other same]
        exact unmoved other online
    · refine Or.inr ⟨state, ⟨cpu, won.online, Function.update_self .., placed, Ne.symm home⟩, ?_⟩
      intro other online inState
      have moves : a.newCpuState cpu ≠ state := by
        rw [own]
        exact Ne.symm home
      have here : a.newCpuState other = state := (unmoved other online).trans inState
      have taken : a.selectedCpus other = 0 := by
        by_contra waiting
        exact won.nearest known moves other online waiting here
      have apart := selected other taken
      rw [flag other apart, place other apart]
      exact ⟨taken, here⟩
  · refine Or.inr ⟨target, ?_, ?_⟩
    · obtain ⟨comer, online, taken, here, away⟩ := gains.comes
      have apart := selected comer taken
      exact ⟨comer, online, by rw [flag comer apart, taken], by rw [place comer apart, here], away⟩
    · intro other online inState
      obtain ⟨taken, here⟩ := gains.stays other online inState
      have apart := selected other taken
      rw [flag other apart, place other apart]
      exact ⟨taken, here⟩

/-- After any number of rounds either no cpu has moved or some state has only gained. -/
theorem auctionRounds_oneWay (input : AuctionInput) (delta : Int) (demand : Nat → Int)
    (known : input.direction = 1 ∨ input.direction = 0 ∨ input.direction = -1)
    (inStates : ∀ cpu, cpu < input.cpus → input.curCpuState cpu < input.states)
    (rounds : Nat) :
    Unmoved input (auctionRounds input delta demand rounds) ∨
      ∃ state, Gains input (auctionRounds input delta demand rounds) state := by
  refine (Loops.repeatUpTo_induction (fun a => Budget input delta a ∧
    (Unmoved input a ∨ ∃ state, Gains input a state)) ?_ rounds
    ⟨Budget.start delta demand inStates, Or.inl fun _ _ => rfl⟩).2
  rintro current next ⟨budget, oneWay⟩ round
  obtain ⟨cpu, state, source, won, rfl⟩ := auctionRound_won budget.flags budget.inStates round
  exact ⟨budget.award won source, oneWay_award known budget won source oneWay⟩

theorem transitionDirection_known (states cpus : Nat) (demand : Nat → Int)
    (info : Nat → ProcInfo) (curCpuState : Nat → Nat) :
    transitionDirection states cpus demand info curCpuState = 1 ∨
      transitionDirection states cpus demand info curCpuState = 0 ∨
      transitionDirection states cpus demand info curCpuState = -1 := by
  unfold transitionDirection
  dsimp only
  split_ifs
  · exact Or.inl rfl
  · exact Or.inr (Or.inr rfl)
  · exact Or.inr (Or.inl rfl)

/-! ### The layout -/

/-- The cpus a layout selects. -/
def Auction.selected (cpus : Nat) (a : Auction) : Finset Nat :=
  (Finset.range cpus).filter fun cpu => a.selectedCpus cpu = 0

@[simp]
theorem mem_selected {cpus : Nat} {a : Auction} {cpu : Nat} :
    cpu ∈ a.selected cpus ↔ cpu < cpus ∧ a.selectedCpus cpu = 0 := by
  rw [Auction.selected, Finset.mem_filter, Finset.mem_range]

theorem notMem_selected_self (cpus : Nat) (a : Auction) : cpus ∉ a.selected cpus :=
  fun member => lt_irrefl cpus (mem_selected.mp member).1

theorem selected_succ (cpus : Nat) (a : Auction) :
    a.selected (cpus + 1) =
      if a.selectedCpus cpus = 0 then insert cpus (a.selected cpus) else a.selected cpus := by
  unfold Auction.selected
  rw [Finset.range_add_one, Finset.filter_insert]

/-- The auction selects its winners. -/
theorem Budget.card_selected {input : AuctionInput} {delta : Int} {a : Auction}
    (budget : Budget input delta a) : (a.selected input.cpus).card = a.totalSelectedCpus := by
  have winners : a.selected input.cpus = a.won.toFinset := by
    ext cpu
    rw [mem_selected, List.mem_toFinset, budget.winners]
    constructor
    · exact And.right
    · intro selected
      exact ⟨budget.online cpu ((budget.winners cpu).mpr selected), selected⟩
  rw [winners, List.toFinset_card_of_nodup budget.distinct, budget.selected]

/-- The invariant of the fill-up loop: it has added awake cpus below `count`, in the states the
auction left them in, and stops only at the load. -/
structure Filling (input : AuctionInput) (info : Nat → ProcInfo) (held : Auction) (count : Nat)
    (a : Auction) : Prop where
  newCpuState : a.newCpuState = held.newCpuState
  flags : ∀ cpu, a.selectedCpus cpu = 0 ∨ a.selectedCpus cpu = 1
  kept : ∀ cpu, held.selectedCpus cpu = 0 → a.selectedCpus cpu = 0
  taken : ∀ cpu, a.selectedCpus cpu = 0 → held.selectedCpus cpu = 0 ∨
    cpu < count ∧ (info cpu).sleepTime = 0
  total : a.totalSelectedCpus = (a.selected input.cpus).card
  bound : a.totalSelectedCpus ≤ input.load
  full : a.totalSelectedCpus = input.load ∨
    ∀ cpu, cpu < count → (info cpu).sleepTime = 0 → a.selectedCpus cpu = 0

theorem Filling.start {input : AuctionInput} {delta : Int} {held : Auction}
    (budget : Budget input delta held) (info : Nat → ProcInfo) :
    Filling input info held 0 held where
  newCpuState := rfl
  flags := budget.flags
  kept _ selected := selected
  taken _ selected := Or.inl selected
  total := budget.card_selected.symm
  bound := by
    rw [budget.selected]
    exact budget.rounds
  full := Or.inr fun _ small => absurd small (Nat.not_lt_zero _)

theorem selected_update {cpus cpu : Nat} {a b : Auction} (online : cpu < cpus)
    (written : b.selectedCpus = Function.update a.selectedCpus cpu 0) :
    b.selected cpus = insert cpu (a.selected cpus) := by
  ext other
  rw [mem_selected, Finset.mem_insert, mem_selected, written, cleared_eq_zero_iff]
  refine ⟨fun ⟨small, cleared⟩ => cleared.imp_right fun earlier => ⟨small, earlier⟩, ?_⟩
  rintro (rfl | ⟨small, earlier⟩)
  · exact ⟨online, Or.inl rfl⟩
  · exact ⟨small, Or.inr earlier⟩

/-- One turn of the fill-up loop keeps its invariant. -/
theorem Filling.step {input : AuctionInput} {info : Nat → ProcInfo} {held : Auction}
    {cpu : Nat} {a : Auction} (filling : Filling input info held cpu a)
    (online : cpu < input.cpus) :
    Filling input info held (cpu + 1) (fillUpStep input.load info cpu a) := by
  have taken : ∀ other, a.selectedCpus other = 0 → held.selectedCpus other = 0 ∨
      other < cpu + 1 ∧ (info other).sleepTime = 0 := fun other selected =>
    (filling.taken other selected).imp_right fun earlier => ⟨by omega, earlier.2⟩
  unfold fillUpStep
  split
  · rename_i enough
    exact { filling with
      taken := taken
      full := Or.inl (le_antisymm filling.bound enough) }
  · rename_i few
    split
    · rename_i selected
      refine { filling with taken := taken, full := filling.full.imp_right ?_ }
      intro all other small awake
      by_cases same : other = cpu
      · rw [same]
        exact selected
      · exact all other (by omega) awake
    · rename_i waiting
      split
      · rename_i awake
        refine ⟨filling.newCpuState, ?_, ?_, ?_, ?_, ?_, ?_⟩
        · exact fun other => cleared_flags cpu other filling.flags
        · exact fun other selected =>
            (cleared_eq_zero_iff ..).mpr (Or.inr (filling.kept other selected))
        · intro other selected
          rcases (cleared_eq_zero_iff ..).mp selected with rfl | earlier
          · exact Or.inr ⟨Nat.lt_succ_self other, awake⟩
          · exact taken other earlier
        · rw [selected_update online rfl, Finset.card_insert_of_notMem, filling.total]
          exact fun member => waiting (mem_selected.mp member).2
        · show a.totalSelectedCpus + 1 ≤ input.load
          omega
        · refine filling.full.elim (fun full => absurd full (by omega)) fun all => Or.inr ?_
          intro other small otherAwake
          refine (cleared_eq_zero_iff ..).mpr (or_iff_not_imp_left.mpr fun different => ?_)
          exact all other (by omega) otherAwake
      · rename_i asleep
        refine { filling with taken := taken, full := filling.full.imp_right ?_ }
        intro all other small awake
        by_cases same : other = cpu
        · rw [same] at awake
          exact absurd awake asleep
        · exact all other (by omega) awake

theorem fillUp_filling {input : AuctionInput} {delta : Int} {held : Auction}
    (budget : Budget input delta held) (info : Nat → ProcInfo) :
    Filling input info held input.cpus (fillUp input info held) :=
  Loops.forRange_induction (fun count a => Filling input info held count a)
    (Filling.start budget info) fun _ online _ filling => filling.step online

/-- The loop over the selected cpus counts them. -/
theorem providedCpus_eq (cpus : Nat) {a : Auction}
    (flags : ∀ cpu, a.selectedCpus cpu = 0 ∨ a.selectedCpus cpu = 1) :
    providedCpus cpus a = (a.selected cpus).card := by
  refine Loops.forRange_induction (fun count (total : Nat) => total = (a.selected count).card)
    rfl ?_
  rintro cpu _ total rfl
  rw [selected_succ]
  rcases flags cpu with selected | waiting
  · rw [if_neg (by rw [selected]; decide), if_pos selected,
      Finset.card_insert_of_notMem (notMem_selected_self cpu a)]
  · rw [if_pos waiting, if_neg (by rw [waiting]; decide)]

/-! ### The delta constraint -/

/-- Throughout the auction the remaining delta does not become negative, no cpu wins twice and at
most `load` rounds are won; and unless the fallback is taken, the selected cpus have moved
by at most the delta in all, those the fill-up loop took not at all. -/
theorem auction_delta_constraint {input : AuctionInput} (delta : Int) (demand : Nat → Int)
    (info : Nat → ProcInfo)
    (inStates : ∀ cpu, cpu < input.cpus → input.curCpuState cpu < input.states) :
    (∀ rounds, rounds ≤ input.load →
      (0 ≤ delta → 0 ≤ (auctionRounds input delta demand rounds).delta) ∧
      (auctionRounds input delta demand rounds).won.Nodup ∧
      (auctionRounds input delta demand rounds).won.length ≤ input.load) ∧
    (providedCpus input.cpus (fillUp input info (auction input delta demand)) ≠ 0 →
      ∑ cpu ∈ (layoutOf input delta demand info).selected input.cpus,
        ((((layoutOf input delta demand info).newCpuState cpu : Int) -
          input.curCpuState cpu).natAbs : Int) ≤ max delta 0 ∧
      ∀ cpu, (auction input delta demand).selectedCpus cpu ≠ 0 →
        (layoutOf input delta demand info).newCpuState cpu = input.curCpuState cpu) := by
  have budget := auctionRounds_budget input delta demand inStates
  refine ⟨fun rounds _ => ⟨fun nonneg => ?_, (budget rounds).distinct, (budget rounds).rounds⟩, ?_⟩
  · rcases (budget rounds).remains with remains | untouched
    · exact remains
    · rw [untouched]
      exact nonneg
  · intro provided
    have filling := fillUp_filling (budget input.load) info
    have layout : layoutOf input delta demand info =
        fillUp input info (auction input delta demand) := if_neg provided
    have placed : (layoutOf input delta demand info).newCpuState =
        (auction input delta demand).newCpuState := by
      rw [layout]
      exact filling.newCpuState
    rw [placed]
    refine ⟨?_, fun cpu waiting => (budget input.load).waiting cpu waiting⟩
    have paid := (budget input.load).paid
    calc ∑ cpu ∈ (layoutOf input delta demand info).selected input.cpus,
          ((((auction input delta demand).newCpuState cpu : Int) -
            input.curCpuState cpu).natAbs : Int)
        ≤ moved input (auction input delta demand) :=
          Finset.sum_le_sum_of_subset_of_nonneg (Finset.filter_subset _ _)
            fun _ _ _ => Int.natCast_nonneg _
      _ ≤ max delta 0 := by
          rw [show moved input (auction input delta demand) = _ from paid]
          rcases (budget input.load).remains with remains | untouched <;> omega

/-- Two idle cpus and two states, one request for the higher state and a delta of one. -/
theorem auction_delta_constraint_two_cpus :
    let input : AuctionInput :=
      { cpus := 2, states := 2, curCpuState := fun _ => 0, total := 4, load := 2,
        direction := 1, outOfRange := fun _ _ => 7 }
    0 ≤ (auctionRounds input 1 (fun state => state) 2).delta :=
  ((auction_delta_constraint 1 (fun state => state) (fun _ => ⟨0, 1, 1⟩)
    (fun _ _ => Nat.two_pos)).1 2 le_rfl).1 (by decide)

end Seeker
