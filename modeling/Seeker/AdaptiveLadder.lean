/-
This file follows the step of one task through any number of adaptive ladder
evaluations.

The step remembers in which direction the measured IPC has been pointing and for how
long. Its sign changes by one at a time, and only in a call that requests the state
the cpu is in. So a task that has asked for a higher state asks for the state it has
in at least two calls before it asks for a lower one.
-/
import Mathlib.Data.Int.Order.Basic
import Mathlib.Tactic.Common
import Seeker.MapIpc

namespace Seeker

/-! ### Runs of one task -/

/-- One call of `adaptive_ladder_evaluation`: the measured IPC, the state of the cpu, and what the
search finds of the other cpus. -/
structure LadderCall where
  snapshot : Snapshot
  ipc : Int
  curState : Nat

/-- The result of a call. -/
def LadderCall.evaluate (call : LadderCall) (step : Int) : Evaluation :=
  adaptiveLadderEvaluation call.snapshot call.ipc call.curState step

/-- The call is made on a cpu in a state of a table of that many states. -/
structure LadderCall.Within (limit : Nat) (call : LadderCall) : Prop where
  totalStates : call.snapshot.totalStates = limit
  curState : call.curState < limit

/-- The step after some calls. -/
def stepAfter (step : Int) (calls : List LadderCall) : Int :=
  calls.foldl (fun step call => (call.evaluate step).step) step

/-- What a call has requested, and the state the cpu was in. -/
structure LadderRequest where
  curState : Nat
  stateReq : Nat
  deriving DecidableEq, Repr

/-- The requests of some calls. -/
def ladderRequests : Int → List LadderCall → List LadderRequest
  | _, [] => []
  | step, call :: rest =>
    ⟨call.curState, (call.evaluate step).stateReq⟩ ::
      ladderRequests (call.evaluate step).step rest

/-- The number of requests for the state the cpu is in. -/
def restingRequests (requests : List LadderRequest) : Nat :=
  requests.countP fun request => decide (request.stateReq = request.curState)

@[simp]
theorem stepAfter_nil (step : Int) : stepAfter step [] = step := rfl

@[simp]
theorem stepAfter_cons (step : Int) (call : LadderCall) (rest : List LadderCall) :
    stepAfter step (call :: rest) = stepAfter (call.evaluate step).step rest := rfl

theorem stepAfter_append (step : Int) (first second : List LadderCall) :
    stepAfter step (first ++ second) = stepAfter (stepAfter step first) second :=
  List.foldl_append

/-- A prefix of the requests belongs to a prefix of the calls. -/
theorem ladderRequests_split {step : Int} {calls : List LadderCall}
    {before rest : List LadderRequest} (split : ladderRequests step calls = before ++ rest) :
    ∃ first second, calls = first ++ second ∧ ladderRequests step first = before ∧
      ladderRequests (stepAfter step first) second = rest := by
  induction before generalizing step calls with
  | nil => exact ⟨[], calls, rfl, rfl, split⟩
  | cons request before inductionHypothesis =>
    cases calls with
    | nil => cases split
    | cons call calls =>
      obtain ⟨same, later⟩ := List.cons.inj split
      obtain ⟨first, second, callsEq, made, remaining⟩ := inductionHypothesis later
      refine ⟨call :: first, second, ?_, ?_, remaining⟩
      · rw [callsEq, List.cons_append]
      · rw [ladderRequests, same, made]

/-! ### One call -/

section Call

variable {limit : Nat} {call : LadderCall}

/-- A call with a high IPC. -/
theorem LadderCall.Within.step_of_high (within : call.Within limit)
    (high : call.ipc ≥ ipcHigh) (step : Int) :
    (call.evaluate step).step =
      if step > 0 then satInc step limit else if step = 0 then 1 else 0 := by
  unfold LadderCall.evaluate adaptiveLadderEvaluation
  rw [if_pos high, within.totalStates]
  split <;> rfl

/-- A call with a low IPC. -/
theorem LadderCall.Within.step_of_low (within : call.Within limit)
    (low : call.ipc ≤ ipcLow) (step : Int) :
    (call.evaluate step).step =
      if step < 0 then satDec step (-1 * limit) else if step = 0 then -1 else 0 := by
  have notHigh : ¬ call.ipc ≥ ipcHigh := by
    simp only [ipcLow, ipcHigh] at *
    omega
  unfold LadderCall.evaluate adaptiveLadderEvaluation
  rw [if_neg notHigh, if_pos low, within.totalStates]
  split <;> rfl

/-- A call with an IPC in between forgets the step. -/
theorem LadderCall.step_of_between (notHigh : ¬ call.ipc ≥ ipcHigh)
    (notLow : ¬ call.ipc ≤ ipcLow) (step : Int) : (call.evaluate step).step = 0 := by
  unfold LadderCall.evaluate adaptiveLadderEvaluation
  rw [if_neg notHigh, if_neg notLow]

/-- Another state than the cpu's is requested only upwards with a positive step, which stays
positive, or downwards with a negative one, which stays negative. -/
theorem LadderCall.Within.stateReq_cases (within : call.Within limit) (two : 2 ≤ limit)
    (step : Int) :
    (call.evaluate step).stateReq = call.curState ∨
      0 < step ∧ 0 < (call.evaluate step).step ∧
        call.curState ≤ (call.evaluate step).stateReq ∨
      step < 0 ∧ (call.evaluate step).step < 0 ∧
        (call.evaluate step).stateReq ≤ call.curState := by
  have small := within.curState
  unfold LadderCall.evaluate adaptiveLadderEvaluation
  rw [within.totalStates]
  split
  · split
    · refine Or.inr (Or.inl ⟨by assumption, ?_, ?_⟩)
      · show 0 < satInc step limit
        unfold satInc
        split <;> omega
      · show call.curState ≤ (satSum call.curState step 0 limit).toNat
        unfold satSum
        split_ifs <;> omega
    · exact Or.inl rfl
  · split
    · split
      · refine Or.inr (Or.inr ⟨by assumption, ?_, ?_⟩)
        · show satDec step (-1 * limit) < 0
          unfold satDec
          split <;> omega
        · show (satSum call.curState step 0 limit).toNat ≤ call.curState
          unfold satSum
          split_ifs <;> omega
      · exact Or.inl rfl
    · exact Or.inl rfl

/-- A request for a higher state is made with a positive step. -/
theorem LadderCall.Within.rise (within : call.Within limit) (two : 2 ≤ limit) {step : Int}
    (up : call.curState < (call.evaluate step).stateReq) :
    0 < step ∧ 0 < (call.evaluate step).step := by
  rcases within.stateReq_cases two step with resting | ⟨before, after, _⟩ | ⟨_, _, lower⟩
  · exact absurd resting (Nat.ne_of_gt up)
  · exact ⟨before, after⟩
  · exact absurd lower (Nat.not_le.mpr up)

/-- A request for a lower state is made with a negative step. -/
theorem LadderCall.Within.fall (within : call.Within limit) (two : 2 ≤ limit) {step : Int}
    (down : (call.evaluate step).stateReq < call.curState) :
    step < 0 ∧ (call.evaluate step).step < 0 := by
  rcases within.stateReq_cases two step with resting | ⟨_, _, higher⟩ | ⟨before, after, _⟩
  · exact absurd resting (Nat.ne_of_lt down)
  · exact absurd higher (Nat.not_le.mpr down)
  · exact ⟨before, after⟩

/-- The step stays within the table. -/
theorem LadderCall.Within.step_mem (within : call.Within limit) (two : 2 ≤ limit) {step : Int}
    (low : -(limit : Int) ≤ step) (high : step ≤ limit - 1) :
    -(limit : Int) ≤ (call.evaluate step).step ∧ (call.evaluate step).step ≤ limit - 1 := by
  by_cases above : call.ipc ≥ ipcHigh
  · rw [within.step_of_high above]
    unfold satInc
    split_ifs <;> omega
  · by_cases below : call.ipc ≤ ipcLow
    · rw [within.step_of_low below]
      unfold satDec
      split_ifs <;> omega
    · rw [LadderCall.step_of_between above below]
      omega

/-- A positive step does not turn negative in one call. -/
theorem LadderCall.Within.step_nonneg (within : call.Within limit) (two : 2 ≤ limit) {step : Int}
    (positive : 0 < step) : 0 ≤ (call.evaluate step).step := by
  by_cases above : call.ipc ≥ ipcHigh
  · rw [within.step_of_high above, if_pos positive]
    unfold satInc
    split <;> omega
  · by_cases below : call.ipc ≤ ipcLow
    · rw [within.step_of_low below, if_neg (by omega), if_neg (by omega)]
    · rw [LadderCall.step_of_between above below]

/-- A negative step does not turn positive in one call. -/
theorem LadderCall.Within.step_nonpos (within : call.Within limit) {step : Int}
    (negative : step < 0) : (call.evaluate step).step ≤ 0 := by
  by_cases above : call.ipc ≥ ipcHigh
  · rw [within.step_of_high above, if_neg (by omega), if_neg (by omega)]
  · by_cases below : call.ipc ≤ ipcLow
    · rw [within.step_of_low below, if_pos negative]
      unfold satDec
      split <;> omega
    · rw [LadderCall.step_of_between above below]

/-- The sign of the step changes by one at most, and only in a call that requests the state of the
cpu. -/
theorem LadderCall.Within.sign_step (within : call.Within limit) (two : 2 ≤ limit) (step : Int) :
    ((call.evaluate step).step.sign - step.sign).natAbs ≤
      if (call.evaluate step).stateReq = call.curState then 1 else 0 := by
  rcases within.stateReq_cases two step with resting | ⟨before, after, _⟩ | ⟨before, after, _⟩
  · rw [if_pos resting]
    rcases lt_trichotomy step 0 with negative | rfl | positive
    · have next := within.step_nonpos negative
      rw [Int.sign_eq_neg_one_of_neg negative]
      rcases eq_or_lt_of_le next with zero | below
      · rw [zero]
        decide
      · rw [Int.sign_eq_neg_one_of_neg below]
        decide
    · rcases Int.sign_trichotomy (call.evaluate 0).step with next | next | next
      · rw [next]
        decide
      · rw [next]
        decide
      · rw [next]
        decide
    · have next := within.step_nonneg two positive
      rw [Int.sign_eq_one_of_pos positive]
      rcases eq_or_lt_of_le next with zero | above
      · rw [← zero]
        decide
      · rw [Int.sign_eq_one_of_pos above]
        decide
  · rw [Int.sign_eq_one_of_pos before, Int.sign_eq_one_of_pos after]
    exact Nat.zero_le _
  · rw [Int.sign_eq_neg_one_of_neg before, Int.sign_eq_neg_one_of_neg after]
    exact Nat.zero_le _

end Call

/-! ### Runs -/

section Run

variable {limit : Nat} {calls : List LadderCall}

/-- The step stays within the table. -/
theorem stepAfter_mem (two : 2 ≤ limit) (within : ∀ call ∈ calls, call.Within limit) {step : Int}
    (low : -(limit : Int) ≤ step) (high : step ≤ limit - 1) :
    -(limit : Int) ≤ stepAfter step calls ∧ stepAfter step calls ≤ limit - 1 := by
  induction calls generalizing step with
  | nil => exact ⟨low, high⟩
  | cons call rest inductionHypothesis =>
    obtain ⟨below, above⟩ := (within call List.mem_cons_self).step_mem two low high
    exact inductionHypothesis (fun other member => within other (List.mem_cons_of_mem _ member))
      below above

/-- The sign of the step changes by no more than the number of resting requests. -/
theorem sign_stepAfter (two : 2 ≤ limit) (within : ∀ call ∈ calls, call.Within limit)
    (step : Int) :
    ((stepAfter step calls).sign - step.sign).natAbs ≤
      restingRequests (ladderRequests step calls) := by
  induction calls generalizing step with
  | nil => simp [stepAfter]
  | cons call rest inductionHypothesis =>
    have first := (within call List.mem_cons_self).sign_step two step
    have later := inductionHypothesis
      (fun other member => within other (List.mem_cons_of_mem _ member)) (call.evaluate step).step
    rw [stepAfter_cons, ladderRequests, restingRequests, List.countP_cons]
    rw [restingRequests] at later
    simp only [decide_eq_true_eq]
    omega

/-- Every request is one for a state of the table. -/
theorem ladderRequests_lt (within : ∀ call ∈ calls, call.Within limit) (step : Int) :
    ∀ request ∈ ladderRequests step calls, request.stateReq < limit := by
  induction calls generalizing step with
  | nil => simp [ladderRequests]
  | cons call rest inductionHypothesis =>
    intro request member
    rcases List.mem_cons.mp member with rfl | later
    · have mine := within call List.mem_cons_self
      have inTable : call.curState < call.snapshot.totalStates := by
        rw [mine.totalStates]
        exact mine.curState
      have small := (adaptiveLadderEvaluation_inTable inTable call.ipc step).stateReq
      rw [mine.totalStates] at small
      exact small
    · exact inductionHypothesis
        (fun other member => within other (List.mem_cons_of_mem _ member)) _ request later

/-- Calls with a high IPC raise the step by one each. -/
theorem stepAfter_of_high (two : 2 ≤ limit) (within : ∀ call ∈ calls, call.Within limit)
    (high : ∀ call ∈ calls, call.ipc ≥ ipcHigh) (count : Nat) :
    stepAfter (min (count : Int) (limit - 1)) calls =
      min ((count + calls.length : Nat) : Int) (limit - 1) := by
  induction calls generalizing count with
  | nil => rfl
  | cons call rest inductionHypothesis =>
    have next : (call.evaluate (min (count : Int) (limit - 1))).step =
        min ((count + 1 : Nat) : Int) (limit - 1) := by
      rw [(within call List.mem_cons_self).step_of_high (high call List.mem_cons_self)]
      unfold satInc
      split_ifs <;> omega
    rw [stepAfter_cons, next, inductionHypothesis
      (fun other member => within other (List.mem_cons_of_mem _ member))
      (fun other member => high other (List.mem_cons_of_mem _ member)), List.length_cons,
      Nat.add_right_comm, Nat.add_assoc]

/-- Calls with a low IPC lower the step by one each. -/
theorem stepAfter_of_low (someState : 0 < limit) (within : ∀ call ∈ calls, call.Within limit)
    (low : ∀ call ∈ calls, call.ipc ≤ ipcLow) (count : Nat) :
    stepAfter (max (-(count : Int)) (-limit)) calls =
      max (-((count + calls.length : Nat) : Int)) (-limit) := by
  induction calls generalizing count with
  | nil => rfl
  | cons call rest inductionHypothesis =>
    have next : (call.evaluate (max (-(count : Int)) (-limit))).step =
        max (-((count + 1 : Nat) : Int)) (-limit) := by
      rw [(within call List.mem_cons_self).step_of_low (low call List.mem_cons_self)]
      unfold satDec
      split_ifs <;> omega
    rw [stepAfter_cons, next, inductionHypothesis
      (fun other member => within other (List.mem_cons_of_mem _ member))
      (fun other member => low other (List.mem_cons_of_mem _ member)), List.length_cons,
      Nat.add_right_comm, Nat.add_assoc]

/-- Two requests of one run, what the steps around them have been, and the calls between them. -/
theorem ladderRequests_between {step : Int} {before between after : List LadderRequest}
    {first last : LadderRequest}
    (requests : ladderRequests step calls = before ++ first :: (between ++ last :: after))
    (within : ∀ call ∈ calls, call.Within limit) :
    ∃ (start : Int) (opening closing : LadderCall) (middle : List LadderCall),
      opening.Within limit ∧ closing.Within limit ∧ (∀ call ∈ middle, call.Within limit) ∧
      first = ⟨opening.curState, (opening.evaluate start).stateReq⟩ ∧
      last = ⟨closing.curState, (closing.evaluate
        (stepAfter (opening.evaluate start).step middle)).stateReq⟩ ∧
      ladderRequests (opening.evaluate start).step middle = between := by
  obtain ⟨earlier, rest, callsEq, _, remaining⟩ := ladderRequests_split requests
  rw [callsEq] at within
  cases rest with
  | nil => cases remaining
  | cons opening rest =>
    obtain ⟨firstEq, later⟩ := List.cons.inj remaining
    obtain ⟨middle, rest, restEq, made, remaining⟩ := ladderRequests_split later
    cases rest with
    | nil => cases remaining
    | cons closing rest =>
      rw [restEq] at within
      refine ⟨_, opening, closing, middle, within opening (by simp), within closing (by simp),
        fun call member => within call (by simp [member]), firstEq.symm,
        (List.cons.inj remaining).1.symm, made⟩

end Run

/-- For every run of adaptive ladder evaluations of a task that starts with step `0`: the step and
the requests stay within the table; from step `0`, calls with a high IPC raise the step by one each
up to the highest state, and calls with a low IPC lower it by one each; and between a request for a
higher state and one for a lower state, in either order, there are two for the state of the cpu. -/
theorem adaptive_ladder_runs {limit : Nat} (two : 2 ≤ limit) (calls : List LadderCall)
    (within : ∀ call ∈ calls, call.Within limit) :
    (-(limit : Int) ≤ stepAfter 0 calls ∧ stepAfter 0 calls ≤ limit - 1) ∧
      (∀ request ∈ ladderRequests 0 calls, request.stateReq < limit) ∧
      (∀ earlier later, calls = earlier ++ later → stepAfter 0 earlier = 0 →
        ((∀ call ∈ later, call.ipc ≥ ipcHigh) →
          stepAfter 0 calls = min (later.length : Int) (limit - 1)) ∧
        ((∀ call ∈ later, call.ipc ≤ ipcLow) →
          stepAfter 0 calls = max (-(later.length : Int)) (-limit))) ∧
      ∀ before first between last after,
        ladderRequests 0 calls = before ++ first :: (between ++ last :: after) →
        first.curState < first.stateReq ∧ last.stateReq < last.curState ∨
          first.stateReq < first.curState ∧ last.curState < last.stateReq →
        2 ≤ restingRequests between := by
  refine ⟨stepAfter_mem two within (by omega) (by omega), ladderRequests_lt within 0, ?_, ?_⟩
  · rintro earlier later rfl zero
    have inTable : ∀ call ∈ later, call.Within limit :=
      fun call member => within call (List.mem_append_right _ member)
    rw [stepAfter_append, zero]
    refine ⟨fun high => ?_, fun low => ?_⟩
    · have raised := stepAfter_of_high two inTable high 0
      rw [Nat.zero_add, Nat.cast_zero, min_eq_left (by omega)] at raised
      exact raised
    · have lowered := stepAfter_of_low (by omega) inTable low 0
      rw [Nat.zero_add, Nat.cast_zero, neg_zero, max_eq_left (by omega)] at lowered
      exact lowered
  · intro before first between last after requests opposite
    obtain ⟨start, opening, closing, middle, openingIn, closingIn, middleIn, rfl, rfl, rfl⟩ :=
      ladderRequests_between requests within
    have changed := sign_stepAfter two middleIn (opening.evaluate start).step
    rcases opposite with ⟨up, down⟩ | ⟨down, up⟩
    · rw [Int.sign_eq_one_of_pos (openingIn.rise two up).2,
        Int.sign_eq_neg_one_of_neg (closingIn.fall two down).1] at changed
      exact changed
    · rw [Int.sign_eq_neg_one_of_neg (openingIn.fall two down).2,
        Int.sign_eq_one_of_pos (closingIn.rise two up).1] at changed
      exact changed

/-- A call on a cpu in state `1` of four states that have a cpu each. -/
def ladderCall (ipc : Int) : LadderCall where
  snapshot :=
    { totalStates := 4
      states := fun state => { state := state, cpumask := {state}, cpus := 1, demand := 0 }
      curCpuState := id
      nrRunning := fun _ => 0 }
  ipc := ipc
  curState := 1

/-- The IPC is high and then low: two requests for state `1` lie between that for state `2` and that
for state `0`. -/
theorem adaptive_ladder_runs_turning :
    ladderRequests 0 ([8, 8, 4, 4, 4].map ladderCall) =
        [⟨1, 1⟩] ++ ⟨1, 2⟩ :: ([⟨1, 1⟩, ⟨1, 1⟩] ++ ⟨1, 0⟩ :: []) ∧
      2 ≤ restingRequests [⟨1, 1⟩, ⟨1, 1⟩] := by
  have requests : ladderRequests 0 ([8, 8, 4, 4, 4].map ladderCall) =
      [⟨1, 1⟩] ++ ⟨1, 2⟩ :: ([⟨1, 1⟩, ⟨1, 1⟩] ++ ⟨1, 0⟩ :: []) := by
    decide
  have within : ∀ call ∈ [8, 8, 4, 4, 4].map ladderCall, call.Within 4 := by
    intro call member
    obtain ⟨ipc, _, rfl⟩ := List.mem_map.mp member
    exact ⟨rfl, (by decide : 1 < 4)⟩
  have runs := adaptive_ladder_runs (by decide) ([8, 8, 4, 4, 4].map ladderCall) within
  exact ⟨requests, runs.2.2.2 _ _ _ _ _ requests (by decide)⟩

end Seeker
