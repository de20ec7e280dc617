/-
This file compares what `map_ipc.c` requests, and finds, for different IPCs.

The ladder goes one state up for a high IPC, one state down for a low one and stays in
between, and both the request and the state that is found grow with the IPC. The
selection is to find the highest state whose threshold the IPC reaches, but its loop
starts at the highest state and counts upwards. The file says exactly for which IPCs
it finds that state without reading past the thresholds of the states.
-/
import Seeker.MapIpc
import Seeker.SearchChoice

namespace Seeker

open Nearest

/-! ### The ladder -/

section Ladder

variable {snapshot : Snapshot} {curState : Nat} {ipc ipc' step step' : Int}

section Bands

variable (snapshot : Snapshot) (curState : Nat) (step : Int)

/-- The evaluation of a low IPC. -/
def ladderDown : Evaluation where
  newState := searchStateDown snapshot curState (satDec curState 0).toNat
  stateReq := (satDec curState 0).toNat
  step := step

/-- The evaluation of an IPC in between. -/
def ladderStay : Evaluation where
  newState := searchStateClosest snapshot curState curState
  stateReq := curState
  step := step

/-- The evaluation of a high IPC. -/
def ladderUp : Evaluation where
  newState := searchStateUp snapshot curState (satInc curState snapshot.totalStates).toNat
  stateReq := (satInc curState snapshot.totalStates).toNat
  step := step

/-- The three bands of the IPC. -/
theorem ladderEvaluation_bands (ipc : Int) :
    (ipc ≤ ipcLow ∧ ladderEvaluation snapshot ipc curState step =
      ladderDown snapshot curState step) ∨
    ((ipcLow < ipc ∧ ipc < ipcHigh) ∧ ladderEvaluation snapshot ipc curState step =
      ladderStay snapshot curState step) ∨
    (ipcHigh ≤ ipc ∧ ladderEvaluation snapshot ipc curState step =
      ladderUp snapshot curState step) := by
  have lowBelowHigh : ipcLow < ipcHigh := by decide
  unfold ladderEvaluation
  rcases le_or_gt ipc ipcLow with low | aboveLow
  · rw [if_neg (not_le.mpr (low.trans_lt lowBelowHigh)), if_pos low]
    exact Or.inl ⟨low, rfl⟩
  · rcases lt_or_ge ipc ipcHigh with belowHigh | high
    · rw [if_neg (not_le.mpr belowHigh), if_neg (not_le.mpr aboveLow)]
      exact Or.inr (Or.inl ⟨⟨aboveLow, belowHigh⟩, rfl⟩)
    · rw [if_pos high]
      exact Or.inr (Or.inr ⟨high, rfl⟩)

variable {snapshot curState step} in
/-- What relates the evaluations of a band to those of the same and of the higher bands relates
those of an IPC to those of a higher one. -/
theorem ladderEvaluation_related (Related : Evaluation → Evaluation → Prop) {step' : Int}
    (downDown : Related (ladderDown snapshot curState step) (ladderDown snapshot curState step'))
    (downStay : Related (ladderDown snapshot curState step) (ladderStay snapshot curState step'))
    (downUp : Related (ladderDown snapshot curState step) (ladderUp snapshot curState step'))
    (stayStay : Related (ladderStay snapshot curState step) (ladderStay snapshot curState step'))
    (stayUp : Related (ladderStay snapshot curState step) (ladderUp snapshot curState step'))
    (upUp : Related (ladderUp snapshot curState step) (ladderUp snapshot curState step'))
    {ipc ipc' : Int} (ordered : ipc ≤ ipc') :
    Related (ladderEvaluation snapshot ipc curState step)
      (ladderEvaluation snapshot ipc' curState step') := by
  rcases ladderEvaluation_bands snapshot curState step ipc with
      ⟨_, down⟩ | ⟨between, stay⟩ | ⟨high, up⟩ <;>
    rcases ladderEvaluation_bands snapshot curState step' ipc' with
      ⟨low', down'⟩ | ⟨between', stay'⟩ | ⟨_, up'⟩
  · rw [down, down']
    exact downDown
  · rw [down, stay']
    exact downStay
  · rw [down, up']
    exact downUp
  · exact absurd (ordered.trans low') (not_le.mpr between.1)
  · rw [stay, stay']
    exact stayStay
  · rw [stay, up']
    exact stayUp
  · exact absurd ((high.trans ordered).trans low') (by decide)
  · exact absurd (high.trans ordered) (not_le.mpr between'.2)
  · rw [up, up']
    exact upUp

end Bands

/-- The request upwards lies from the state of the cpu on, within the table. -/
theorem satInc_toNat (inRange : curState < snapshot.totalStates) :
    curState ≤ (satInc curState snapshot.totalStates).toNat ∧
      (satInc curState snapshot.totalStates).toNat < snapshot.totalStates := by
  unfold satInc
  split <;> omega

/-- The request downwards lies up to the state of the cpu. -/
theorem satDec_toNat (curState : Nat) : (satDec curState 0).toNat ≤ curState := by
  unfold satDec
  split <;> omega

/-- The first of two searches finds no higher state. -/
def NoHigher (first second : Option Nat) : Prop :=
  ∃ state state', first = some state ∧ second = some state' ∧ state ≤ state'

variable (inRange : curState < snapshot.totalStates)
include inRange

/-- Where no state is free every evaluation ends with the least loaded state. -/
theorem ladderEvaluation_busy (busy : freeStates snapshot curState = ∅) (ipc step : Int) :
    (ladderEvaluation snapshot ipc curState step).newState = lowestLoadedState snapshot := by
  rcases ladderEvaluation_bands snapshot curState step ipc with
    ⟨_, down⟩ | ⟨_, stay⟩ | ⟨_, up⟩
  · rw [down]
    exact searchStateDown_busy ((satDec_toNat curState).trans_lt inRange) busy
  · rw [stay]
    exact searchStateClosest_busy inRange busy
  · rw [up]
    exact searchStateUp_busy (satInc_toNat inRange).2 busy

/-- The request grows with the IPC. -/
theorem ladderEvaluation_stateReq_le (ordered : ipc ≤ ipc') :
    (ladderEvaluation snapshot ipc curState step).stateReq ≤
      (ladderEvaluation snapshot ipc' curState step').stateReq := by
  have upwards := (satInc_toNat inRange).1
  have downwards := satDec_toNat curState
  refine ladderEvaluation_related (fun first second => first.stateReq ≤ second.stateReq)
    ?_ ?_ ?_ ?_ ?_ ?_ ordered
  · exact le_refl (satDec curState 0).toNat
  · exact downwards
  · exact downwards.trans upwards
  · exact le_refl curState
  · exact upwards
  · exact le_refl (satInc curState snapshot.totalStates).toNat

/-- Where a state is free the state that is found grows with the IPC. -/
theorem ladderEvaluation_noHigher (free : (freeStates snapshot curState).Nonempty)
    (ordered : ipc ≤ ipc') :
    NoHigher (ladderEvaluation snapshot ipc curState step).newState
      (ladderEvaluation snapshot ipc' curState step').newState := by
  obtain ⟨low, lowFound, lower⟩ :=
    searchStateDown_free ((satDec_toNat curState).trans_lt inRange) free
  obtain ⟨near, nearFound, nearest⟩ := searchStateClosest_free inRange free
  obtain ⟨high, highFound, upper⟩ := searchStateUp_free (satInc_toNat inRange).2 free
  have gauge := isGauge_stateDistance curState
  have upwards := (satInc_toNat inRange).1
  have downwards := satDec_toNat curState
  refine ladderEvaluation_related
    (fun first second => NoHigher first.newState second.newState) ?_ ?_ ?_ ?_ ?_ ?_ ordered
  · exact ⟨low, low, lowFound, lowFound, le_rfl⟩
  · exact ⟨low, near, lowFound, nearFound, lower.le_isLastMin gauge nearest downwards⟩
  · exact ⟨low, high, lowFound, highFound, lower.le_isUp upper (downwards.trans upwards)⟩
  · exact ⟨near, near, nearFound, nearFound, le_rfl⟩
  · exact ⟨near, high, nearFound, highFound, upper.isLastMin_le gauge nearest upwards⟩
  · exact ⟨high, high, highFound, highFound, le_rfl⟩

omit inRange in
/-- The least loaded state is found if some state has a cpu. -/
theorem noHigher_lowest
    (occupied : ∃ state, state < snapshot.totalStates ∧ (snapshot.states state).cpus ≠ 0) :
    NoHigher (lowestLoadedState snapshot) (lowestLoadedState snapshot) := by
  cases found : lowestLoadedState snapshot with
  | none =>
    obtain ⟨state, small, hasCpu⟩ := occupied
    exact absurd (lowestLoadedState_eq_none_iff.mp found state small) hasCpu
  | some state => exact ⟨state, state, rfl, rfl, le_rfl⟩

end Ladder

/-- A higher IPC is answered by a request that is no lower, and by a state that is no lower; where
no state has a cpu both evaluations return none. -/
theorem ladder_evaluation_monotone {snapshot : Snapshot} {curState : Nat} {ipc ipc' : Int}
    (inRange : curState < snapshot.totalStates) (ordered : ipc ≤ ipc') (step step' : Int) :
    (ladderEvaluation snapshot ipc curState step).stateReq ≤
        (ladderEvaluation snapshot ipc' curState step').stateReq ∧
      ((∃ state, state < snapshot.totalStates ∧ (snapshot.states state).cpus ≠ 0) →
        NoHigher (ladderEvaluation snapshot ipc curState step).newState
          (ladderEvaluation snapshot ipc' curState step').newState) ∧
      ((∀ state, state < snapshot.totalStates → (snapshot.states state).cpus = 0) →
        (ladderEvaluation snapshot ipc curState step).newState = none ∧
          (ladderEvaluation snapshot ipc' curState step').newState = none) := by
  refine ⟨ladderEvaluation_stateReq_le inRange ordered, fun occupied => ?_, fun unstaffed => ?_⟩
  · rcases Set.eq_empty_or_nonempty (freeStates snapshot curState) with busy | free
    · rw [ladderEvaluation_busy inRange busy, ladderEvaluation_busy inRange busy]
      exact noHigher_lowest occupied
    · exact ladderEvaluation_noHigher inRange free ordered
  · have busy : freeStates snapshot curState = ∅ := by
      refine Set.eq_empty_of_forall_notMem fun state member => ?_
      exact absurd (unstaffed state member.1) (isStateFree_cpus member.2).ne'
    rw [ladderEvaluation_busy inRange busy, ladderEvaluation_busy inRange busy]
    have missed := lowestLoadedState_eq_none_iff.mpr unstaffed
    exact ⟨missed, missed⟩

/-- A low IPC against one in between, in the middle of three states. -/
theorem ladder_evaluation_monotone_idle_ends :
    (ladderEvaluation idleEnds 3 1 0).stateReq ≤ (ladderEvaluation idleEnds 5 1 0).stateReq ∧
      NoHigher (ladderEvaluation idleEnds 3 1 0).newState
        (ladderEvaluation idleEnds 5 1 0).newState := by
  have inRange : 1 < idleEnds.totalStates := by decide
  have ordered : (3 : Int) ≤ 5 := by decide
  have monotone := ladder_evaluation_monotone inRange ordered 0 0
  exact ⟨monotone.1, monotone.2.1 ⟨0, by decide, by decide⟩⟩

/-! ### The selection -/

section Selection

variable (snapshot : Snapshot) (pastMinStates : Nat → Int) (ipc : Int)

/-- The comparison of `select_evaluation`. -/
def reachesThreshold (index : Nat) : Bool := decide (ipc ≥ minStates pastMinStates index)

/-- The loop of `select_evaluation` reads `min_states[index]`. -/
def ReadsThreshold (index : Nat) : Prop :=
  Loops.Visits (reachesThreshold pastMinStates ipc) (snapshot.totalStates - 1) (2 ^ 31) index

/-- The evaluation stops, reads the thresholds of the states only, and searches near the highest
state whose threshold the IPC reaches. -/
structure SelectsBand (curState : Nat) (step : Int) (stateReq : Nat) : Prop where
  stops : ∃ index, Loops.firstFrom (reachesThreshold pastMinStates ipc)
    (snapshot.totalStates - 1) (2 ^ 31) = some index
  reads : ∀ index, ReadsThreshold snapshot pastMinStates ipc index →
    index < snapshot.totalStates
  request : IsGreatest
    {state | state < snapshot.totalStates ∧ minStates pastMinStates state ≤ ipc}
    (selectEvaluation snapshot pastMinStates ipc curState step stateReq).stateReq
  newState : (selectEvaluation snapshot pastMinStates ipc curState step stateReq).newState =
    searchStateClosest snapshot curState
      (selectEvaluation snapshot pastMinStates ipc curState step stateReq).stateReq

end Selection

section Band

variable {snapshot : Snapshot} {pastMinStates : Nat → Int} {ipc ipc' : Int}
  {curState curState' stateReq stateReq' : Nat} {step step' : Int}

/-- Where the evaluation selects its band the request is a state of the table. -/
theorem SelectsBand.stateReq_lt
    (selects : SelectsBand snapshot pastMinStates ipc curState step stateReq) :
    (selectEvaluation snapshot pastMinStates ipc curState step stateReq).stateReq <
      snapshot.totalStates :=
  selects.request.1.1

/-- Where the evaluation selects its band the request grows with the IPC. -/
theorem SelectsBand.stateReq_le
    (selects : SelectsBand snapshot pastMinStates ipc curState step stateReq)
    (selects' : SelectsBand snapshot pastMinStates ipc' curState' step' stateReq')
    (ordered : ipc ≤ ipc') :
    (selectEvaluation snapshot pastMinStates ipc curState step stateReq).stateReq ≤
      (selectEvaluation snapshot pastMinStates ipc' curState' step' stateReq').stateReq :=
  selects'.request.2 ⟨selects.request.1.1, selects.request.1.2.trans ordered⟩

/-- An IPC that reaches the threshold of the highest state stops the loop at once. -/
theorem firstFrom_highest (states : snapshot.totalStates ≤ 2 ^ 31)
    (nonempty : 1 ≤ snapshot.totalStates)
    (reached : minStates pastMinStates (snapshot.totalStates - 1) ≤ ipc) :
    Loops.firstFrom (reachesThreshold pastMinStates ipc) (snapshot.totalStates - 1) (2 ^ 31) =
      some (snapshot.totalStates - 1) := by
  rw [Loops.firstFrom_of_lt (by omega)]
  exact if_pos (decide_eq_true reached)

/-- The band of the IPC is selected exactly if the IPC reaches the threshold of the highest
state; otherwise the loop goes on with what follows the thresholds of the states. -/
theorem select_evaluation_band_iff (nonempty : 1 ≤ snapshot.totalStates)
    (states : snapshot.totalStates ≤ maxStates) (pastMinStates : Nat → Int) (ipc : Int)
    (curState : Nat) (step : Int) (stateReq : Nat) :
    SelectsBand snapshot pastMinStates ipc curState step stateReq ↔
      minStates pastMinStates (snapshot.totalStates - 1) ≤ ipc := by
  have small : snapshot.totalStates < 2 ^ 31 := states.trans_lt (by decide)
  constructor
  · intro selects
    by_contra missed
    have start : ReadsThreshold snapshot pastMinStates ipc (snapshot.totalStates - 1) :=
      Loops.visits_start (by omega)
    have next := start.next (decide_eq_false missed) (by omega)
    have past := selects.reads _ next
    omega
  · intro reached
    have found := firstFrom_highest small.le nonempty reached
    have request : (selectEvaluation snapshot pastMinStates ipc curState step stateReq).stateReq =
        snapshot.totalStates - 1 := by
      show (Loops.firstFrom (reachesThreshold pastMinStates ipc) _ _).getD _ = _
      rw [found]
      rfl
    refine ⟨⟨_, found⟩, fun index read => ?_, ?_, rfl⟩
    · have within := read.le le_rfl (decide_eq_true reached)
      omega
    · rw [request]
      refine ⟨⟨by omega, reached⟩, fun state member => ?_⟩
      have below : state < snapshot.totalStates := member.1
      omega

end Band

/-- At three states an IPC of a half selects the highest. -/
theorem select_evaluation_band_iff_half :
    SelectsBand idleEnds (fun _ => 0) 4 0 0 0 :=
  (select_evaluation_band_iff (by decide) (by decide) (fun _ => 0) 4 0 0 0).mpr (by decide)

/-- At three states an IPC of zero makes the loop read the thresholds of states there are not. -/
theorem select_evaluation_past_band :
    idleEnds.totalStates = 3 ∧ ReadsThreshold idleEnds (fun _ => 0) 0 3 ∧
      ¬ SelectsBand idleEnds (fun _ => 0) 0 0 0 0 := by
  have start : ReadsThreshold idleEnds (fun _ => 0) 0 2 := Loops.visits_start (by decide)
  have next : ReadsThreshold idleEnds (fun _ => 0) 0 3 := start.next (by decide) (by decide)
  refine ⟨rfl, next, fun selects => ?_⟩
  exact absurd (selects.reads 3 next) (by decide)

end Seeker
