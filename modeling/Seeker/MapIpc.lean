/-
This file embeds `map_ipc.c`: the three ways a task's measured IPC becomes a request
for a state, and the state the search finds for the request.

`select_evaluation` counts its index upwards. The table it compares with has
`MAX_STATES` entries, and what the memory behind it holds is an argument. The file
proves that the two ladders request a state of the table.
-/
import Mathlib.Tactic.Common
import Seeker.SearchState

namespace Seeker

/-! ### The tables and the saturating operations -/

/-- `IPC_HIGH`, in eighths of an instruction per cycle. -/
def ipcHigh : Int := 6

/-- `IPC_LOW`. -/
def ipcLow : Int := 4

/-- `min_states`, with what the memory holds past the array. -/
def minStates (pastMinStates : Nat → Int) (index : Nat) : Int :=
  if index < maxStates then [0, 2, 4, 6, 9].getD index 0 else pastMinStates index

/-- `sat_inc`, with an exclusive limit. -/
def satInc (state exLimit : Int) : Int := if state < exLimit - 1 then state + 1 else exLimit - 1

/-- `sat_dec`, with an inclusive limit. -/
def satDec (state incLimit : Int) : Int := if state > incLimit then state - 1 else incLimit

/-- `sat_sum`, with an inclusive lower and an exclusive upper limit. -/
def satSum (first second incLow exHigh : Int) : Int :=
  if first + second ≥ exHigh then exHigh - 1
  else if first + second < incLow then incLow else first + second

/-! ### The evaluations -/

/-- What an evaluation leaves behind: its result, `*state_req` and `*step`. -/
structure Evaluation where
  newState : Option Nat
  stateReq : Nat
  step : Int
  deriving DecidableEq, Repr

variable (snapshot : Snapshot)

/-- `ladder_evaluation`, which does not touch `step`. -/
def ladderEvaluation (ipc : Int) (curState : Nat) (step : Int) : Evaluation :=
  if ipc ≥ ipcHigh then
    let stateReq := (satInc curState snapshot.totalStates).toNat
    { newState := searchStateUp snapshot curState stateReq, stateReq := stateReq, step := step }
  else if ipc ≤ ipcLow then
    let stateReq := (satDec curState 0).toNat
    { newState := searchStateDown snapshot curState stateReq, stateReq := stateReq, step := step }
  else
    { newState := searchStateClosest snapshot curState curState, stateReq := curState,
      step := step }

/-- `adaptive_ladder_evaluation`. -/
def adaptiveLadderEvaluation (ipc : Int) (curState : Nat) (step : Int) : Evaluation :=
  if ipc ≥ ipcHigh then
    if step > 0 then
      let stateReq := (satSum curState step 0 snapshot.totalStates).toNat
      { newState := searchStateUp snapshot curState stateReq, stateReq := stateReq,
        step := satInc step snapshot.totalStates }
    else
      { newState := searchStateClosest snapshot curState curState, stateReq := curState,
        step := if step = 0 then 1 else 0 }
  else if ipc ≤ ipcLow then
    if step < 0 then
      let stateReq := (satSum curState step 0 snapshot.totalStates).toNat
      { newState := searchStateDown snapshot curState stateReq, stateReq := stateReq,
        step := satDec step (-1 * snapshot.totalStates) }
    else
      { newState := searchStateClosest snapshot curState curState, stateReq := curState,
        step := if step = 0 then -1 else 0 }
  else
    { newState := searchStateClosest snapshot curState curState, stateReq := curState, step := 0 }

/-- `select_evaluation`: where the loop finds no index `*state_req` keeps its value. The loop
ends at the latest when the index leaves the range of an `int`. -/
def selectEvaluation (pastMinStates : Nat → Int) (ipc : Int) (curState : Nat) (step : Int)
    (stateReq : Nat) : Evaluation :=
  let stateReq := (Loops.firstFrom (fun index => decide (ipc ≥ minStates pastMinStates index))
    (snapshot.totalStates - 1) (2 ^ 31)).getD stateReq
  { newState := searchStateClosest snapshot curState stateReq, stateReq := stateReq, step := step }

/-- `LADDER_SCHEDULING`. -/
def ladderScheduling : Nat := 0

/-- `SELECT_SCHEDULING`. -/
def selectScheduling : Nat := 1

/-- `ADAPTIVE_LADDER_SCHEDULING`. -/
def adaptiveLadderScheduling : Nat := 2

/-- `evaluate_ipc`. -/
def evaluateIpc (schedulingMethod : Nat) (pastMinStates : Nat → Int) (ipc : Int) (curState : Nat)
    (step : Int) (stateReq : Nat) : Evaluation :=
  if schedulingMethod = ladderScheduling then ladderEvaluation snapshot ipc curState step
  else if schedulingMethod = adaptiveLadderScheduling then
    adaptiveLadderEvaluation snapshot ipc curState step
  else if schedulingMethod = selectScheduling then
    selectEvaluation snapshot pastMinStates ipc curState step stateReq
  else { newState := some curState, stateReq := stateReq, step := step }

/-! ### What the ladders request -/

theorem satInc_mem {state exLimit : Int} (nonneg : 0 ≤ state) (small : state < exLimit) :
    0 ≤ satInc state exLimit ∧ satInc state exLimit < exLimit := by
  unfold satInc
  split <;> omega

theorem satDec_mem {state exLimit : Int} (nonneg : 0 ≤ state) (small : state < exLimit) :
    0 ≤ satDec state 0 ∧ satDec state 0 < exLimit := by
  unfold satDec
  split <;> omega

theorem satSum_mem (first second : Int) {exHigh : Int} (nonempty : 0 < exHigh) :
    0 ≤ satSum first second 0 exHigh ∧ satSum first second 0 exHigh < exHigh := by
  unfold satSum
  split_ifs <;> omega

variable {snapshot} {curState : Nat}

/-- Both ladders turn a state of the table into a request for a state of the table, and find a
state of the table for it. -/
structure Evaluation.InTable (snapshot : Snapshot) (evaluation : Evaluation) : Prop where
  stateReq : evaluation.stateReq < snapshot.totalStates
  newState : ∀ state, evaluation.newState = some state →
    (snapshot.states state).cpus ≠ 0 ∧ state < snapshot.totalStates

theorem inTable_of_reachable {search : Option Nat} {stateReq : Nat} {step : Int}
    (inRange : stateReq < snapshot.totalStates)
    (found : ∀ state, search = some state → Reachable snapshot stateReq state) :
    Evaluation.InTable snapshot { newState := search, stateReq := stateReq, step := step } where
  stateReq := inRange
  newState state chosen := ⟨(found state chosen).1, (found state chosen).2 inRange⟩

theorem inTable_closest (inRange : curState < snapshot.totalStates) (step : Int) :
    Evaluation.InTable snapshot
      { newState := searchStateClosest snapshot curState curState, stateReq := curState,
        step := step } :=
  inTable_of_reachable inRange fun _ => searchStateClosest_reachable

theorem ladderEvaluation_inTable (inRange : curState < snapshot.totalStates) (ipc step : Int) :
    (ladderEvaluation snapshot ipc curState step).InTable snapshot := by
  unfold ladderEvaluation
  split
  · obtain ⟨nonneg, small⟩ := satInc_mem (Int.natCast_nonneg curState)
      (Int.ofNat_lt.mpr inRange)
    exact inTable_of_reachable (by omega) fun _ => searchStateUp_reachable
  · split
    · obtain ⟨nonneg, small⟩ := satDec_mem (Int.natCast_nonneg curState)
        (Int.ofNat_lt.mpr inRange)
      exact inTable_of_reachable (by omega) fun _ => searchStateDown_reachable
    · exact inTable_closest inRange step

theorem adaptiveLadderEvaluation_inTable (inRange : curState < snapshot.totalStates)
    (ipc step : Int) :
    (adaptiveLadderEvaluation snapshot ipc curState step).InTable snapshot := by
  obtain ⟨nonneg, small⟩ := satSum_mem (curState : Int) step
    (show (0 : Int) < snapshot.totalStates by omega)
  unfold adaptiveLadderEvaluation
  split
  · split
    · exact inTable_of_reachable (by omega) fun _ => searchStateUp_reachable
    · exact inTable_closest inRange _
  · split
    · split
      · exact inTable_of_reachable (by omega) fun _ => searchStateDown_reachable
      · exact inTable_closest inRange _
    · exact inTable_closest inRange _

end Seeker
