/-
This file follows one round of the auction of `greedy_delta` and says when it reads
its matrix out of range and when it stops.

The weight of a state counts all cpus near it, also those that have won already, while
a cpu can win a state only if it is up for selection. So the state with the highest bid
may be one that no cpu can win. `get_winning_state` then reads the matrix at the row
`-1`, and the round ends the auction.
-/
import Mathlib.Data.Prod.Lex
import Seeker.Greedy
import Seeker.Library.Champion

namespace Seeker

/-! ### The arrays of a round -/

section Arrays

variable (input : AuctionInput) (a : Auction)

/-- `state_matrix` in a round. -/
def Auction.stateMatrix : Nat → Nat → Int :=
  updateStateMatrix input.states a.newCpuState a.delta input.direction

/-- `state_weight` in a round. -/
def Auction.stateWeight : Nat → Int := updateStateWeight input.cpus (a.stateMatrix input)

/-- `winning_procs` in a round. -/
def Auction.winningProcs : Nat → Option Nat :=
  updateWinningProcs input.cpus a.selectedCpus (a.stateMatrix input)

/-- `demand_field` and `proxy_source` in a round. -/
def Auction.field : DemandField :=
  updateDemandField input.states input.direction (a.stateWeight input) a.demand

/-- What a state bids: `state_weight[j] * demand_field[j]`. -/
def Auction.bid (state : Nat) : Int :=
  int32 (a.stateWeight input state * (a.field input).demandField state)

/-- `state_matrix[winning_procs[j]][j]`. -/
def Auction.cell (state : Nat) : Int :=
  match a.winningProcs input state with
  | some cpu => a.stateMatrix input cpu state
  | none => input.outOfRange a.totalIter state

/-- The variables of `get_winning_state` after the states below `count`. -/
def Auction.winningScan (count : Nat) : WinningState :=
  Loops.forRange count
    (fun state (best : WinningState) =>
      if a.bid input state > best.maxWeight ∨
          a.bid input state = best.maxWeight ∧ a.cell input state > best.maxProc then
        { maxWeight := a.bid input state, maxProc := a.cell input state, max := some state }
      else best)
    { maxWeight := 0, maxProc := 0, max := none }

/-- `get_winning_state` reads `state_matrix[winning_procs[state]][state]`. -/
def Auction.Reads (state : Nat) : Prop :=
  state < input.states ∧ (a.winningScan input state).maxWeight ≤ a.bid input state

/-- The guard of a round lets it go on. -/
structure Auction.Held : Prop where
  total : minRequests ≤ input.total
  load : 0 < input.load
  delta : 0 < a.delta
  demand : 0 < a.totalDemand

end Arrays

/-- The state is within the delta of a cpu's, as the bounds of `update_state_matrix` have it. -/
def WithinDelta (newState : Nat) (delta : Int) (state : Nat) : Prop :=
  (newState : Int) ≤ state + delta ∧
    (state ≤ newState ∨ (state : Int) ≤ int32 (newState + delta))

instance (newState : Nat) (delta : Int) (state : Nat) : Decidable (WithinDelta newState delta state) :=
  inferInstanceAs (Decidable (_ ∧ (_ ∨ _)))

/-- Some cpu that is up for selection is within the delta of the state. -/
def Auction.InReach (input : AuctionInput) (a : Auction) (state : Nat) : Prop :=
  ∃ cpu, cpu < input.cpus ∧ a.selectedCpus cpu = 1 ∧
    WithinDelta (a.newCpuState cpu) a.delta state

instance (input : AuctionInput) (a : Auction) (state : Nat) : Decidable (a.InReach input state) :=
  inferInstanceAs (Decidable (∃ cpu, cpu < _ ∧ _ ∧ _))

variable {input : AuctionInput} {a : Auction} {state : Nat}

/-- The state the scan ends with is the one `get_winning_state` returns. -/
theorem Auction.winningScan_max (input : AuctionInput) (a : Auction) :
    (a.winningScan input input.states).max =
      getWinningState input.states (a.stateWeight input) (a.field input).demandField
        (a.winningProcs input) (a.stateMatrix input) (input.outOfRange a.totalIter) := rfl

/-! ### The scan for the winner -/

/-- What `get_winning_state` compares: first the bids, then the cells. -/
def Auction.key (input : AuctionInput) (a : Auction) (state : Nat) : Int ×ₗ Int :=
  toLex (a.bid input state, a.cell input state)

/-- The variables of `get_winning_state` for a standing of the scan. -/
def winningStateOf (standing : Champion.Standing (Int ×ₗ Int)) : WinningState where
  maxWeight := (ofLex standing.key).1
  maxProc := (ofLex standing.key).2
  max := standing.holder

theorem Auction.winningScan_eq (input : AuctionInput) (a : Auction) (count : Nat) :
    a.winningScan input count =
      winningStateOf (Champion.champion (a.key input) (toLex (0, 0)) count) := by
  refine (Loops.forRange_map winningStateOf (fun state standing => ?_) count
    { key := toLex (0, 0), holder := none }).symm
  have compares : standing.key < a.key input state ↔
      a.bid input state > (winningStateOf standing).maxWeight ∨
        a.bid input state = (winningStateOf standing).maxWeight ∧
          a.cell input state > (winningStateOf standing).maxProc := by
    rw [Prod.Lex.lt_iff, eq_comm]
    rfl
  unfold Champion.challenge
  by_cases larger : standing.key < a.key input state
  · rw [if_pos larger, if_pos (compares.mp larger)]
    rfl
  · rw [if_neg larger, if_neg (compares.not.mp larger)]

/-- The weight the scan has come to bounds what is bid before. -/
theorem Auction.winningScan_maxWeight_le_iff {count : Nat} {bound : Int} :
    (a.winningScan input count).maxWeight ≤ bound ↔
      0 ≤ bound ∧ ∀ earlier, earlier < count → a.bid input earlier ≤ bound := by
  have leads := Champion.champion_leads (a.key input) (toLex (0, 0)) count
  rw [Auction.winningScan_eq]
  constructor
  · intro bounded
    refine ⟨le_trans (Prod.Lex.monotone_fst _ _ leads.baseline_le) bounded, ?_⟩
    intro earlier before
    exact le_trans (Prod.Lex.monotone_fst _ _ (leads.key_le earlier before)) bounded
  · rintro ⟨nonneg, bids⟩
    unfold winningStateOf
    cases holder : (Champion.champion (a.key input) (toLex (0, 0)) count).holder with
    | none =>
      rw [leads.vacant holder]
      exact nonneg
    | some index =>
      obtain ⟨before, same, _⟩ := leads.held index holder
      rw [← same]
      exact bids index before

/-- A state is not read exactly if its bid is negative or a state before it bids more. -/
theorem Auction.reads_iff :
    a.Reads input state ↔ state < input.states ∧ 0 ≤ a.bid input state ∧
      ∀ earlier, earlier < state → a.bid input earlier ≤ a.bid input state :=
  and_congr_right fun _ => Auction.winningScan_maxWeight_le_iff

/-- The winner has the largest key, and a larger one than the variables start with. -/
theorem Auction.winningScan_some {winner : Nat}
    (wins : (a.winningScan input input.states).max = some winner) :
    winner < input.states ∧ toLex (0, 0) < a.key input winner ∧
      ∀ state, state < input.states → a.key input state ≤ a.key input winner := by
  have leads := Champion.champion_leads (a.key input) (toLex (0, 0)) input.states
  rw [Auction.winningScan_eq] at wins
  obtain ⟨small, same, above⟩ := leads.held winner wins
  rw [same]
  exact ⟨small, above, leads.key_le⟩

theorem Auction.winningScan_none (missed : (a.winningScan input input.states).max = none) :
    ∀ state, state < input.states → a.key input state ≤ toLex (0, 0) := by
  rw [Auction.winningScan_eq] at missed
  exact Champion.champion_holder_eq_none_iff.mp missed

/-! ### The cpus that can win a state -/

/-- What an auction is held about is as `greedy_delta` finds it: a direction it computes, and every
cpu in a state of the table. -/
structure AuctionInput.Proper (input : AuctionInput) : Prop where
  known : input.direction = 1 ∨ input.direction = 0 ∨ input.direction = -1
  inStates : ∀ cpu, cpu < input.cpus → input.curCpuState cpu < input.states

/-- The cells that are positive are those within the delta. -/
theorem stateMatrix_pos_iff
    (known : input.direction = 1 ∨ input.direction = 0 ∨ input.direction = -1)
    (inStates : ∀ cpu, cpu < input.cpus → a.newCpuState cpu < input.states)
    (nonneg : 0 ≤ a.delta) {cpu : Nat} (online : cpu < input.cpus)
    (small : state < input.states) :
    0 < a.stateMatrix input cpu state ↔ WithinDelta (a.newCpuState cpu) a.delta state := by
  have place := inStates cpu online
  obtain ⟨left, _⟩ := leftWeight_bounds known input.states
  obtain ⟨right, _⟩ := rightWeight_bounds known input.states
  unfold Auction.stateMatrix updateStateMatrix WithinDelta
  rw [stateRow_apply place small _ _ nonneg]
  split_ifs <;> omega

/-- The scan of a column in terms of the cpus' bids. -/
theorem updateWinningProcs_eq_none_iff {cpus : Nat} {selectedCpus : Nat → Int}
    {stateMatrix : Nat → Nat → Int} :
    updateWinningProcs cpus selectedCpus stateMatrix state = none ↔
      ∀ cpu, cpu < cpus → selectedCpus cpu * stateMatrix cpu state ≤ 0 := by
  have scan : Loops.forRange cpus (winningProcStep selectedCpus stateMatrix state)
        { maxVal := 0, max := none } =
      { maxVal := (Champion.champion (fun cpu => selectedCpus cpu * stateMatrix cpu state) 0
          cpus).key
        max := (Champion.champion (fun cpu => selectedCpus cpu * stateMatrix cpu state) 0
          cpus).holder } := by
    refine (Loops.forRange_map (fun standing : Champion.Standing Int =>
      ({ maxVal := standing.key, max := standing.holder } : WinningProc)) (fun cpu standing => ?_)
      cpus { key := 0, holder := none }).symm
    unfold Champion.challenge winningProcStep
    by_cases larger : standing.key < selectedCpus cpu * stateMatrix cpu state
    · rw [if_pos larger, if_pos larger]
    · rw [if_neg larger, if_neg larger]
  unfold updateWinningProcs
  rw [scan]
  exact Champion.champion_holder_eq_none_iff

/-- In a round that goes on, no cpu wins a state exactly if none that is up for selection is within
the delta. -/
theorem winningProcs_eq_none_iff {delta : Int} (proper : input.Proper)
    (budget : Budget input delta a) (held : a.Held input) (small : state < input.states) :
    a.winningProcs input state = none ↔ ¬ a.InReach input state := by
  unfold Auction.winningProcs
  rw [updateWinningProcs_eq_none_iff]
  have positive : ∀ cpu, cpu < input.cpus →
      (0 < a.stateMatrix input cpu state ↔ WithinDelta (a.newCpuState cpu) a.delta state) :=
    fun cpu online =>
      stateMatrix_pos_iff proper.known budget.inStates held.delta.le online small
  constructor
  · rintro none ⟨cpu, online, waiting, within⟩
    have value := none cpu online
    rw [waiting, one_mul] at value
    exact absurd ((positive cpu online).mpr within) (not_lt.mpr value)
  · intro apart cpu online
    rcases budget.flags cpu with taken | waiting
    · rw [taken, zero_mul]
    · rw [waiting, one_mul]
      by_contra larger
      exact apart ⟨cpu, online, waiting, (positive cpu online).mp (not_le.mp larger)⟩

/-! ### Rows in range -/

/-- Every row that `get_winning_state` reads in a round is that of a cpu. -/
def Auction.RowsInRange (input : AuctionInput) (a : Auction) : Prop :=
  ∀ state, a.Reads input state →
    ∃ cpu, cpu < input.cpus ∧ a.winningProcs input state = some cpu

/-- The rows read in a round are in range exactly if each state no cpu can be won for bids a
negative value or less than a state before it. -/
theorem rowsInRange_iff {delta : Int} (proper : input.Proper) (budget : Budget input delta a)
    (held : a.Held input) :
    a.RowsInRange input ↔
      ∀ state, state < input.states → ¬ a.InReach input state → a.bid input state < 0 ∨
        ∃ earlier, earlier < state ∧ a.bid input state < a.bid input earlier := by
  constructor
  · intro inRange state small apart
    by_contra bids
    obtain ⟨nonneg, largest⟩ := not_or.mp bids
    have read : a.Reads input state := by
      refine Auction.reads_iff.mpr ⟨small, not_lt.mp nonneg, fun earlier before => ?_⟩
      exact not_lt.mp fun less => largest ⟨earlier, before, less⟩
    obtain ⟨cpu, _, wins⟩ := inRange state read
    have missed := (winningProcs_eq_none_iff proper budget held small).mpr apart
    exact absurd (wins.symm.trans missed) (Option.some_ne_none cpu)
  · intro bids state read
    obtain ⟨small, nonneg, largest⟩ := Auction.reads_iff.mp read
    cases wins : a.winningProcs input state with
    | some cpu => exact ⟨cpu, (updateWinningProcs_some wins).1, rfl⟩
    | none =>
      have apart := (winningProcs_eq_none_iff proper budget held small).mp wins
      rcases bids state small apart with negative | ⟨earlier, before, less⟩
      · exact absurd nonneg (not_le.mpr negative)
      · exact absurd (largest earlier before) (not_le.mpr less)

/-! ### Grants -/

/-- A round that goes on lets the winning state take its best cpu. -/
theorem auctionRound_held (held : a.Held input) :
    auctionRound input a =
      (a.winningScan input input.states).max.bind fun winner =>
        (a.winningProcs input winner).map fun cpu =>
          a.award input cpu winner ((a.field input).proxySource winner) := by
  obtain ⟨total, load, delta, demand⟩ := held
  unfold auctionRound
  rw [if_neg (by omega)]
  dsimp only
  split
  · rename_i missed
    rw [(Auction.winningScan_max input a).trans missed]
    rfl
  · rename_i winner chosen
    have wins := (Auction.winningScan_max input a).trans chosen
    rw [wins, if_neg (not_le.mpr (Auction.winningScan_some wins).1), Option.bind_some]
    split
    · rename_i missed
      rw [show a.winningProcs input winner = none from missed]
      rfl
    · rename_i cpu best
      rw [show a.winningProcs input winner = some cpu from best,
        if_neg (not_le.mpr (updateWinningProcs_some best).1)]
      rfl

theorem auctionRound_of_not_held (notHeld : ¬ a.Held input) : auctionRound input a = none := by
  unfold auctionRound
  refine if_pos ?_
  by_contra guard
  exact notHeld ⟨by omega, by omega, by omega, by omega⟩

/-- Some state that a cpu in reach can win bids a value that is not negative and that no state
exceeds. -/
def Auction.Grantable (input : AuctionInput) (a : Auction) : Prop :=
  ∃ state, state < input.states ∧ a.InReach input state ∧ 0 ≤ a.bid input state ∧
    ∀ other, other < input.states → a.bid input other ≤ a.bid input state

/-- The cell of a state is positive exactly if a cpu can win it, where a read out of range yields
zero. -/
theorem Auction.cell_pos_iff (unread : ∀ iteration state, input.outOfRange iteration state = 0)
    (flags : ∀ cpu, a.selectedCpus cpu = 0 ∨ a.selectedCpus cpu = 1) :
    0 < a.cell input state ↔ a.winningProcs input state ≠ none := by
  unfold Auction.cell
  cases wins : a.winningProcs input state with
  | none =>
    dsimp only
    rw [unread]
    exact ⟨fun positive => absurd positive (lt_irrefl 0), fun some => absurd rfl some⟩
  | some cpu =>
    obtain ⟨_, positive, _⟩ := updateWinningProcs_some wins
    have waiting := (flags cpu).resolve_left (left_ne_zero_of_mul positive.ne')
    rw [waiting, one_mul] at positive
    exact ⟨fun _ => Option.some_ne_none cpu, fun _ => positive⟩

/-- A round that goes on grants a cpu exactly if a state that can be won bids most. -/
theorem auctionRound_isSome_iff {delta : Int} (proper : input.Proper)
    (budget : Budget input delta a)
    (unread : ∀ iteration state, input.outOfRange iteration state = 0)
    (held : a.Held input) : (auctionRound input a).isSome ↔ a.Grantable input := by
  have won : ∀ state, state < input.states →
      (a.winningProcs input state ≠ none ↔ a.InReach input state) := fun state small => by
    rw [Ne, winningProcs_eq_none_iff proper budget held small, not_not]
  rw [auctionRound_held held]
  constructor
  · intro grants
    cases wins : (a.winningScan input input.states).max with
    | none =>
      rw [wins] at grants
      cases grants
    | some winner =>
      obtain ⟨small, above, largest⟩ := Auction.winningScan_some wins
      rw [wins] at grants
      have taken : a.winningProcs input winner ≠ none := by
        intro none
        rw [Option.bind_some, none] at grants
        cases grants
      refine ⟨winner, small, (won winner small).mp taken, ?_, fun other within => ?_⟩
      · exact Prod.Lex.monotone_fst _ _ above.le
      · exact Prod.Lex.monotone_fst _ _ (largest other within)
  · rintro ⟨state, small, reach, nonneg, highest⟩
    have positive := (Auction.cell_pos_iff unread budget.flags).mpr ((won state small).mpr reach)
    have above : toLex (0, 0) < a.key input state := by
      rcases nonneg.lt_or_eq with more | same
      · exact Prod.Lex.toLex_lt_toLex.mpr (Or.inl more)
      · exact Prod.Lex.toLex_lt_toLex.mpr (Or.inr ⟨same, positive⟩)
    cases wins : (a.winningScan input input.states).max with
    | none => exact absurd (Auction.winningScan_none wins state small) (not_le.mpr above)
    | some winner =>
      obtain ⟨winnerSmall, _, largest⟩ := Auction.winningScan_some wins
      have atLeast : a.cell input state ≤ a.cell input winner := by
        rcases Prod.Lex.toLex_le_toLex.mp (largest state small) with less | ⟨_, cells⟩
        · exact absurd (highest winner winnerSmall) (not_le.mpr less)
        · exact cells
      obtain ⟨cpu, taken⟩ := Option.ne_none_iff_exists'.mp
        ((Auction.cell_pos_iff unread budget.flags).mp (positive.trans_le atLeast))
      rw [Option.bind_some, taken]
      rfl

/-! ### Where the auction stops -/

section Stops

variable (input) (delta : Int) (demand : Nat → Int)

theorem auctionRounds_succ (rounds : Nat) :
    auctionRounds input delta demand (rounds + 1) =
      (auctionRound input (auctionRounds input delta demand rounds)).getD
        (auctionRounds input delta demand rounds) :=
  Loops.repeatUpTo_succ ..

/-- Each round has granted a cpu, or one of them has left the loop. -/
theorem auctionRounds_stopped (inStates : ∀ cpu, cpu < input.cpus →
      input.curCpuState cpu < input.states) (rounds : Nat) :
    (auctionRounds input delta demand rounds).totalIter = rounds ∨
      ∃ last, last < rounds ∧ auctionRound input (auctionRounds input delta demand last) = none ∧
        auctionRounds input delta demand rounds = auctionRounds input delta demand last := by
  induction rounds with
  | zero => exact Or.inl rfl
  | succ rounds inductionHypothesis =>
    cases round : auctionRound input (auctionRounds input delta demand rounds) with
    | none =>
      refine Or.inr ⟨rounds, Nat.lt_succ_self rounds, round, ?_⟩
      rw [auctionRounds_succ, round]
      rfl
    | some next =>
      rcases inductionHypothesis with all | ⟨last, _, left, same⟩
      · left
        have budget := auctionRounds_budget input delta demand inStates rounds
        obtain ⟨cpu, state, source, _, rfl⟩ := auctionRound_won budget.flags budget.inStates round
        rw [auctionRounds_succ, round]
        exact congrArg (· + 1) all
      · rw [same, left] at round
        cases round

/-- A round that leaves the loop is the last. -/
theorem auctionRounds_of_left {rounds : Nat}
    (left : auctionRound input (auctionRounds input delta demand rounds) = none) {later : Nat}
    (after : rounds ≤ later) :
    auctionRounds input delta demand later = auctionRounds input delta demand rounds := by
  induction later, after using Nat.le_induction with
  | base => rfl
  | succ later _ inductionHypothesis =>
    rw [auctionRounds_succ, inductionHypothesis, left]
    rfl

end Stops

/-- A cpu up for selection is in a state within the remaining delta of a state in demand. -/
def DemandNear (input : AuctionInput) (a : Auction) : Prop :=
  ∃ cpu, cpu < input.cpus ∧ a.selectedCpus cpu = 1 ∧ ∃ state, state < input.states ∧
    0 < a.demand state ∧ (((input.curCpuState cpu : Int) - state).natAbs : Int) ≤ a.delta

instance (input : AuctionInput) (a : Auction) : Decidable (DemandNear input a) :=
  inferInstanceAs (Decidable (∃ cpu, cpu < _ ∧ _ ∧ ∃ state, state < _ ∧ _))

/-- The auction stops early and near a state in demand exactly if in some round that finds a cpu
near one no state that can be won bids most. -/
theorem auction_stops_iff (proper : input.Proper) (delta : Int)
    (demand : Nat → Int) (requests : minRequests ≤ input.total)
    (unread : ∀ iteration state, input.outOfRange iteration state = 0) :
    ((auction input delta demand).totalIter < input.load →
      0 < (auction input delta demand).delta →
        ¬ DemandNear input (auction input delta demand)) ↔
    ∀ rounds, rounds < input.load → (auctionRounds input delta demand rounds).Held input →
      DemandNear input (auctionRounds input delta demand rounds) →
        (auctionRounds input delta demand rounds).Grantable input := by
  have grants : ∀ rounds, (auctionRounds input delta demand rounds).Held input →
      ((auctionRound input (auctionRounds input delta demand rounds)).isSome ↔
        (auctionRounds input delta demand rounds).Grantable input) := fun rounds held =>
    auctionRound_isSome_iff proper
      (auctionRounds_budget input delta demand proper.inStates rounds) unread held
  constructor
  · intro stops rounds before held near
    by_contra stuck
    have left : auctionRound input (auctionRounds input delta demand rounds) = none :=
      Option.not_isSome_iff_eq_none.mp ((grants rounds held).not.mpr stuck)
    have final : auction input delta demand = auctionRounds input delta demand rounds :=
      auctionRounds_of_left input delta demand left before.le
    have few : (auctionRounds input delta demand rounds).totalIter < input.load := by
      have budget := auctionRounds_budget input delta demand proper.inStates rounds
      have demanded := held.demand
      rw [budget.iterations]
      rw [budget.demand] at demanded
      omega
    rw [final] at stops
    exact stops few held.delta near
  · intro grantable few deltaLeft near
    rcases auctionRounds_stopped input delta demand proper.inStates input.load with
      all | ⟨last, before, left, final⟩
    · exact absurd few (not_lt.mpr (le_of_eq all.symm))
    · have budget := auctionRounds_budget input delta demand proper.inStates last
      rw [show auction input delta demand = auctionRounds input delta demand last from final]
        at few deltaLeft near
      rw [budget.iterations] at few
      have held : (auctionRounds input delta demand last).Held input :=
        ⟨requests, Nat.zero_lt_of_lt before, deltaLeft, by rw [budget.demand]; omega⟩
      have some := (grants last held).mpr (grantable last before held near)
      rw [left] at some
      cases some

theorem Interval.proper {s : Scheduler} (inStates : InStates s) (interval : Interval) :
    (interval.auctionInput s).Proper where
  known := transitionDirection_known ..
  inStates := inStates

/-- The globals with a hint for each state. -/
def hintedScheduler (cpus states : Nat) (curCpuState : Nat → Nat) (hints : Nat → Int) :
    Scheduler :=
  { (runningMachine cpus states curCpuState).scheduler with
    states := fun state => { state := state, cpumask := ∅, cpus := 0, demand := hints state } }

/-- An interval in which each of the first `tasks` cpus runs a task, and a read out of range
yields zero. -/
def tasksInterval (tasks : Nat) : Interval where
  nrRunning cpu := if cpu < tasks then 1 else 0
  outOfRange _ _ := 0
  driver _ := acceptingDriver

end Seeker
