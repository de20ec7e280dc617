/-
This file follows the two read sections of `pds.c` through their retries.

A pass that a callback disturbs is discarded and made again, over whatever the table
looked like in between. A pass reads the step of the task and writes it back, so an
adaptive ladder evaluation that is repeated moves the step once for every pass, and
requests a state by the moved step. The file says exactly when the passes that were
discarded leave no trace.
-/
import Mathlib.Algebra.Group.Nat.Even
import Mathlib.Logic.Function.Iterate
import Seeker.AdaptiveLadder
import Seeker.Confinement

namespace Seeker

/-! ### The passes -/

/-- What one pass reads of the globals a callback writes, and of the run queues. -/
structure Sight where
  states : Nat → StateDesc
  curCpuState : Nat → Nat
  nrRunning : Nat → Nat

/-- The globals as a pass has read them. -/
def Scheduler.seen (sight : Sight) (s : Scheduler) : Scheduler :=
  { s with states := sight.states, curCpuState := sight.curCpuState }

/-- The surroundings as a pass has read them. -/
def Surroundings.seen (sight : Sight) (around : Surroundings) : Surroundings :=
  { around with nrRunning := sight.nrRunning }

@[simp]
theorem Reading.start_histStep (task : TaskStruct) : (start task).histStep = task.histStep := rfl

@[simp]
theorem Reading.start_stateReq (task : TaskStruct) : (start task).stateReq = 0 := rfl

@[simp]
theorem Scheduler.seen_schedulingMethod (s : Scheduler) (sight : Sight) :
    (s.seen sight).schedulingMethod = s.schedulingMethod := rfl

@[simp]
theorem Surroundings.seen_pastMinStates (sight : Sight) (around : Surroundings) :
    (around.seen sight).pastMinStates = around.pastMinStates := rfl

section Passes

variable (around : Surroundings) (s : Scheduler) (task : TaskStruct)

/-- A pass of `put_mask_from_stats` that is discarded: what it has written stays. -/
def discardedPass (reading : Reading) (sight : Sight) : Reading :=
  readSection (around.seen sight) (s.seen sight) task reading

/-- What the discarded passes have written. -/
def discardedPasses (discarded : List Sight) : Reading :=
  discarded.foldl (discardedPass around s task) (Reading.start task)

/-- The read section of `put_mask_from_stats`, some passes of which are discarded. -/
def retriedSection (discarded : List Sight) : Reading :=
  readSection around s task (discardedPasses around s task discarded)

/-- The read section that makes one pass. -/
def singleSection : Reading := readSection around s task (Reading.start task)

/-- A pass of `initial_mask`, which leaves the mask alone where it finds no state. -/
def initialPass (choice : Option Nat × Cpumask) : Option Nat × Cpumask :=
  let state := searchStateClosest (s.snapshot around.nrRunning) (s.curCpuState around.thisCpu)
    s.baseState.toNat
  (state, maskOf s state choice.2)

/-- The read section of `initial_mask`, some passes of which are discarded. -/
def retriedChoice (discarded : List Sight) : Option Nat × Cpumask :=
  initialPass around s <|
    discarded.foldl
      (fun choice sight => initialPass (around.seen sight) (s.seen sight) choice)
      (some s.baseState.toNat, ∅)

end Passes

/-- `put_mask_from_stats`, some passes of which are discarded. -/
def putMaskFromStatsRetried (around : Surroundings) (ts : Nat) (discarded : List Sight) (p : Pds) :
    Pds :=
  if (p.tasks ts).inst < instThreshold then p
  else assignMask around ts (retriedSection around p.scheduler (p.tasks ts) discarded) p

/-- `initial_mask`, some passes of which are discarded. -/
def initialMaskRetried (around : Surroundings) (ts : Nat) (discarded : List Sight) (p : Pds) :
    Pds :=
  let s := p.scheduler
  let (state, mask) := retriedChoice around s discarded
  let task := { p.tasks ts with histStep := 0 }
  if mask = ∅ then
    (p.setTask ts { task with cpustate := some (s.curCpuState around.thisCpu) }).putWork ts
      s.totalOnlineMask
  else (p.setTask ts { task with cpustate := state }).putWork ts mask

/-- Without retries it is the function that makes one pass. -/
theorem putMaskFromStatsRetried_nil (around : Surroundings) (ts : Nat) (p : Pds) :
    putMaskFromStatsRetried around ts [] p = putMaskFromStats around ts p := rfl

theorem initialMaskRetried_nil (around : Surroundings) (ts : Nat) (p : Pds) :
    initialMaskRetried around ts [] p = initialMask around ts p := rfl

/-- What the rest of `put_mask_from_stats` uses of a reading: the step, the request, the state and
the mask. -/
structure SameResult (first second : Reading) : Prop where
  histStep : first.histStep = second.histStep
  stateReq : first.stateReq = second.stateReq
  newState : first.newState = second.newState
  mask : first.mask = second.mask

/-! ### The last pass sees a consistent table -/

/-- The pass sees a table some state of which has a cpu, no descriptor past which has one, and in
which the state of the cpu it runs on is listed. -/
structure Consistent (around : Surroundings) (s : Scheduler) : Prop where
  curState : s.curCpuState around.thisCpu < s.totalStates
  occupied : ∃ state, state < s.totalStates ∧ (s.states state).cpus ≠ 0
  beyond : ∀ state, s.totalStates ≤ state → (s.states state).cpus = 0

/-- The table of the online cpus is consistent. -/
theorem Tabulated.consistent {s : Scheduler} (tabulated : Tabulated s) {around : Surroundings}
    (online : around.thisCpu < s.totalOnlineCpus)
    (beyond : ∀ state, s.totalStates ≤ state → (s.states state).cpus = 0) :
    Consistent around s where
  curState := tabulated.inStates _ online
  occupied := by
    refine ⟨_, tabulated.inStates _ online, ?_⟩
    have inMask : around.thisCpu ∈ (s.states (s.curCpuState around.thisCpu)).cpumask := by
      rw [tabulated.table.set_eq _ (tabulated.inStates _ online), Occupancy.mem_fiber]
      exact ⟨mem_onlineCpus.mpr online, rfl⟩
    rw [tabulated.table.count_eq _ (tabulated.inStates _ online)]
    exact Int.natCast_ne_zero.mpr (Finset.card_ne_zero_of_mem inMask)
  beyond := beyond

section Search

variable {snapshot : Snapshot}

/-- The scan stops with a state when some state has a cpu. -/
theorem lowestLoadedState_isSome
    (occupied : ∃ state, state < snapshot.totalStates ∧ (snapshot.states state).cpus ≠ 0) :
    (lowestLoadedState snapshot).isSome := by
  have scanned : (∃ state, state < snapshot.totalStates ∧ (snapshot.states state).cpus ≠ 0) →
      (lowestLoadedState snapshot).isSome := by
    refine Loops.forRange_induction (fun count (scan : LoadScan) =>
      (∃ state, state < count ∧ (snapshot.states state).cpus ≠ 0) → scan.minState.isSome) ?_ ?_
    · rintro ⟨state, small, _⟩
      exact absurd small (Nat.not_lt_zero state)
    · rintro index _ scan kept ⟨state, small, hasCpu⟩
      unfold loadScanStep
      by_cases empty : (snapshot.states index).cpus = 0
      · rw [if_pos empty]
        refine kept ⟨state, lt_of_le_of_ne (Nat.lt_succ_iff.mp small) ?_, hasCpu⟩
        rintro rfl
        exact hasCpu empty
      · rw [if_neg empty]
        dsimp only
        split
        · rfl
        · rename_i found
          split
          · rfl
          · rw [found]
            rfl
  exact scanned occupied

variable (occupied : ∃ state, state < snapshot.totalStates ∧ (snapshot.states state).cpus ≠ 0)
include occupied

theorem searchStateUp_isSome (old req : Nat) : (searchStateUp snapshot old req).isSome := by
  unfold searchStateUp
  rw [Option.isSome_or, Option.isSome_or, lowestLoadedState_isSome occupied, Bool.or_true,
    Bool.or_true]

theorem searchStateDown_isSome (old req : Nat) : (searchStateDown snapshot old req).isSome := by
  unfold searchStateDown
  rw [Option.isSome_or, Option.isSome_or, lowestLoadedState_isSome occupied, Bool.or_true,
    Bool.or_true]

theorem searchStateClosest_isSome (old req : Nat) :
    (searchStateClosest snapshot old req).isSome := by
  unfold searchStateClosest
  split
  · rfl
  · split
    · exact lowestLoadedState_isSome occupied
    · rfl
    · rfl
    · split <;> rfl

omit occupied

/-- Where both directions find the same state, so does the search of the closest one. -/
theorem searchStateClosest_of_same {old req : Nat}
    (same : searchStateDown snapshot old req = searchStateUp snapshot old req)
    (free : isStateFree snapshot old req = true → searchStateUp snapshot old req = some req) :
    searchStateClosest snapshot old req = searchStateUp snapshot old req := by
  unfold searchStateClosest
  rw [same]
  by_cases here : isStateFree snapshot old req = true
  · rw [if_pos here, free here]
  · rw [if_neg here]
    cases found : searchStateUp snapshot old req with
    | none =>
      unfold searchStateUp at found
      exact (Option.or_eq_none_iff.mp (Option.or_eq_none_iff.mp found).2).2
    | some state => exact if_neg (lt_irrefl _)

/-- At the lowest state of a table there is nothing below. -/
theorem searchStateUp_zero (old : Nat) (someState : 0 < snapshot.totalStates) :
    searchStateDown snapshot old 0 = searchStateUp snapshot old 0 := by
  unfold searchStateDown searchStateUp
  simp only [Loops.lastBelow, Option.none_or]
  rw [Loops.firstFrom_of_lt someState]
  split
  · rfl
  · rw [Option.none_or]

/-- At the highest state there is nothing above. -/
theorem searchStateUp_last (old : Nat) {req : Nat} (last : req + 1 = snapshot.totalStates) :
    searchStateDown snapshot old req = searchStateUp snapshot old req := by
  unfold searchStateDown searchStateUp
  rw [Loops.firstFrom_of_lt (by omega : req < snapshot.totalStates),
    Loops.firstFrom_of_le (by omega : snapshot.totalStates ≤ req + 1)]
  simp only [Loops.lastBelow, Option.none_or]
  split
  · rfl
  · rw [Option.none_or]

theorem searchStateUp_of_free {old req : Nat} (small : req < snapshot.totalStates)
    (free : isStateFree snapshot old req = true) :
    searchStateUp snapshot old req = some req := by
  unfold searchStateUp
  rw [Loops.firstFrom_of_lt small, if_pos free]
  rfl

end Search

/-! ### What the last pass finds -/

section Found

variable {around : Surroundings} {s : Scheduler} (consistent : Consistent around s)
include consistent

/-- A search that stops with a state that has a cpu stops with a state of the table. -/
theorem Consistent.found {search : Option Nat} (stops : search.isSome)
    (hasCpu : ∀ state, search = some state → (s.states state).cpus ≠ 0) :
    ∃ state, state < s.totalStates ∧ search = some state := by
  obtain ⟨state, found⟩ := Option.isSome_iff_exists.mp stops
  refine ⟨state, ?_, found⟩
  by_contra past
  exact hasCpu state found (consistent.beyond state (not_lt.mp past))

theorem Consistent.up (old req : Nat) : ∃ state, state < s.totalStates ∧
    searchStateUp (s.snapshot around.nrRunning) old req = some state :=
  consistent.found (searchStateUp_isSome consistent.occupied old req)
    fun _ found => (searchStateUp_reachable found).1

theorem Consistent.down (old req : Nat) : ∃ state, state < s.totalStates ∧
    searchStateDown (s.snapshot around.nrRunning) old req = some state :=
  consistent.found (searchStateDown_isSome consistent.occupied old req)
    fun _ found => (searchStateDown_reachable found).1

theorem Consistent.closest (old req : Nat) : ∃ state, state < s.totalStates ∧
    searchStateClosest (s.snapshot around.nrRunning) old req = some state :=
  consistent.found (searchStateClosest_isSome consistent.occupied old req)
    fun _ found => (searchStateClosest_reachable found).1

/-- Every scheduling method finds a state of a consistent table. -/
theorem Consistent.evaluateIpc (pastMinStates : Nat → Int) (ipc step : Int) (stateReq : Nat) :
    ∃ state, state < s.totalStates ∧
      (evaluateIpc (s.snapshot around.nrRunning) s.schedulingMethod pastMinStates ipc
        (s.curCpuState around.thisCpu) step stateReq).newState = some state := by
  unfold Seeker.evaluateIpc
  split
  · unfold ladderEvaluation
    split
    · exact consistent.up _ _
    · split
      · exact consistent.down _ _
      · exact consistent.closest _ _
  · split
    · unfold adaptiveLadderEvaluation
      split
      · split
        · exact consistent.up _ _
        · exact consistent.closest _ _
      · split
        · split
          · exact consistent.down _ _
          · exact consistent.closest _ _
        · exact consistent.closest _ _
    · split
      · exact consistent.closest _ _
      · exact ⟨_, consistent.curState, rfl⟩

omit consistent in
/-- The mask of a state that is found does not depend on what the mask was before. -/
theorem maskOf_of_found {newState : Option Nat}
    (found : ∃ state, state < s.totalStates ∧ newState = some state) (mask mask' : Cpumask) :
    maskOf s newState mask = maskOf s newState mask' := by
  obtain ⟨state, small, rfl⟩ := found
  show (if state < s.totalStates then (s.states state).cpumask else mask) =
    if state < s.totalStates then (s.states state).cpumask else mask'
  rw [if_pos small, if_pos small]

end Found

/-! ### The adaptive ladder over the passes -/

attribute [ext] Evaluation Reading

section Ladder

variable {limit : Nat} {call : LadderCall}

/-- The step a call leaves does not depend on what it finds of the cpus. -/
theorem LadderCall.evaluate_step_congr {other : LadderCall}
    (totalStates : other.snapshot.totalStates = call.snapshot.totalStates)
    (ipc : other.ipc = call.ipc) (step : Int) :
    (other.evaluate step).step = (call.evaluate step).step := by
  unfold LadderCall.evaluate adaptiveLadderEvaluation
  rw [totalStates, ipc]
  split_ifs <;> rfl

/-- The call that comes after some calls like it, seen from its first step. -/
theorem LadderCall.evaluate_stepAfter_replicate (call : LadderCall) (step : Int) (count : Nat) :
    (call.evaluate (stepAfter step (List.replicate count call))).step =
      stepAfter (call.evaluate step).step (List.replicate count call) := by
  rw [← stepAfter_cons, ← List.replicate_succ, List.replicate_succ', stepAfter_append]
  rfl

/-- The condition under which repeated evaluations with one IPC leave what a single one leaves:
the IPC is between the limits, or the step stands where its direction ends. -/
def LadderSettled (limit : Nat) (ipc : Int) (curState : Nat) (step : Int) (retries : Nat) : Prop :=
  (ipcLow < ipc ∧ ipc < ipcHigh) ∨
    (ipc ≤ ipcLow ∧ step ≤ 1 - limit) ∨
    ipcHigh ≤ ipc ∧ (2 ≤ limit ∧ (limit - 1 ≤ step ∨ step = limit - 2 ∧ 1 ≤ curState) ∨
      limit = 1 ∧ Even retries)

variable {retries : Nat} (again : 0 < retries)
include again

/-- With a high IPC and at least two states, repeated calls leave the step of a single one exactly
when it is one below the highest at least, and then the last call starts from the highest step. -/
theorem LadderCall.Within.repeated_high (within : call.Within limit) (two : 2 ≤ limit)
    (high : call.ipc ≥ ipcHigh) (step : Int) :
    ((call.evaluate (stepAfter step (List.replicate retries call))).step =
        (call.evaluate step).step ↔ limit - 2 ≤ step) ∧
      (limit - 2 ≤ step → stepAfter step (List.replicate retries call) = limit - 1) := by
  have first := within.step_of_high high step
  have closed : ∀ count, stepAfter (call.evaluate step).step (List.replicate count call) =
      min (((call.evaluate step).step.toNat + count : Nat) : Int) (limit - 1) := by
    intro count
    have start : (call.evaluate step).step =
        min ((call.evaluate step).step.toNat : Int) (limit - 1) := by
      rw [first]
      unfold satInc
      split_ifs <;> omega
    have raised := stepAfter_of_high two
      (fun other member => List.eq_of_mem_replicate member ▸ within)
      (fun other (member : other ∈ List.replicate count call) =>
        List.eq_of_mem_replicate member ▸ high) (call.evaluate step).step.toNat
    rwa [List.length_replicate, ← start] at raised
  refine ⟨?_, fun settled => ?_⟩
  · rw [call.evaluate_stepAfter_replicate, closed, first]
    unfold satInc
    split_ifs <;> omega
  · obtain ⟨earlier, rfl⟩ := Nat.exists_eq_add_of_lt again
    rw [Nat.zero_add, List.replicate_succ, stepAfter_cons, closed, first]
    unfold satInc
    split_ifs <;> omega

/-- With a low IPC, repeated calls leave the step of a single one exactly when it is one above the
lowest at most, and then the last call starts from the lowest step. -/
theorem LadderCall.Within.repeated_low (within : call.Within limit)
    (low : call.ipc ≤ ipcLow) (step : Int) :
    ((call.evaluate (stepAfter step (List.replicate retries call))).step =
        (call.evaluate step).step ↔ step ≤ 1 - limit) ∧
      (step ≤ 1 - limit → stepAfter step (List.replicate retries call) = -limit) := by
  have someState : 0 < limit := Nat.zero_lt_of_lt within.curState
  have first := within.step_of_low low step
  have closed : ∀ count, stepAfter (call.evaluate step).step (List.replicate count call) =
      max (-(((call.evaluate step).step.natAbs + count : Nat) : Int)) (-limit) := by
    intro count
    have start : (call.evaluate step).step =
        max (-((call.evaluate step).step.natAbs : Int)) (-limit) := by
      rw [first]
      unfold satDec
      split_ifs <;> omega
    have lowered := stepAfter_of_low someState
      (fun other member => List.eq_of_mem_replicate member ▸ within)
      (fun other (member : other ∈ List.replicate count call) =>
        List.eq_of_mem_replicate member ▸ low) (call.evaluate step).step.natAbs
    rwa [List.length_replicate, ← start] at lowered
  refine ⟨?_, fun settled => ?_⟩
  · rw [call.evaluate_stepAfter_replicate, closed, first]
    unfold satDec
    split_ifs <;> omega
  · obtain ⟨earlier, rfl⟩ := Nat.exists_eq_add_of_lt again
    rw [Nat.zero_add, List.replicate_succ, stepAfter_cons, closed, first]
    unfold satDec
    split_ifs <;> omega

omit again

/-- With a high IPC and a single state the step goes back and forth between `0` and `1`. -/
theorem LadderCall.Within.repeated_single (within : call.Within 1) (high : call.ipc ≥ ipcHigh)
    (step : Int) (count : Nat) :
    (call.evaluate (stepAfter step (List.replicate count call))).step =
        (call.evaluate step).step ↔ Even count := by
  have swaps : ∀ start : Int, (call.evaluate start).step = if start = 0 then 1 else 0 := by
    intro start
    rw [within.step_of_high high]
    unfold satInc
    split_ifs <;> omega
  have alternates : ∀ count, stepAfter (call.evaluate step).step (List.replicate count call) =
      if Even count then (call.evaluate step).step else 1 - (call.evaluate step).step := by
    intro count
    induction count with
    | zero => rfl
    | succ count inductionHypothesis =>
      have parity : Even (count + 1) ↔ ¬ Even count := Nat.even_add_one
      rw [List.replicate_succ', stepAfter_append, inductionHypothesis, stepAfter_cons, swaps,
        swaps step]
      show (if _ = _ then (1 : Int) else 0) = _
      by_cases even : Even count
      · rw [if_pos even, if_neg (parity.not.mpr (not_not.mpr even))]
        split_ifs <;> omega
      · rw [if_neg even, if_pos (parity.mpr even)]
        split_ifs <;> omega
  rw [call.evaluate_stepAfter_replicate, alternates, swaps]
  split_ifs with even zero zero
  · simp [even]
  · simp [even]
  · simp [even]
  · simp [even]

/-- A call with a high IPC that asks for the highest state finds what the search upwards does. -/
theorem LadderCall.Within.evaluate_top (within : call.Within limit) (high : call.ipc ≥ ipcHigh)
    (step : Int) (top : call.curState + 1 = limit ∨ 0 < step ∧ limit ≤ call.curState + step + 1) :
    (call.evaluate step).stateReq = limit - 1 ∧
      (call.evaluate step).newState = searchStateUp call.snapshot call.curState (limit - 1) := by
  have small := within.curState
  unfold LadderCall.evaluate adaptiveLadderEvaluation
  rw [if_pos high, within.totalStates]
  split
  · have request : (satSum call.curState step 0 limit).toNat = limit - 1 := by
      unfold satSum
      split_ifs <;> omega
    rw [request]
    exact ⟨rfl, rfl⟩
  · have last : limit - 1 = call.curState := by omega
    rw [last]
    have highest : call.curState + 1 = call.snapshot.totalStates := by
      rw [within.totalStates]
      omega
    refine ⟨rfl, ?_⟩
    exact searchStateClosest_of_same (searchStateUp_last _ highest)
      (searchStateUp_of_free (by omega))

/-- A call with a low IPC that asks for the lowest state finds what the search downwards does. -/
theorem LadderCall.Within.evaluate_bottom (within : call.Within limit) (low : call.ipc ≤ ipcLow)
    (step : Int) (bottom : call.curState = 0 ∨ step < 0 ∧ call.curState + step ≤ 0) :
    (call.evaluate step).stateReq = 0 ∧
      (call.evaluate step).newState = searchStateDown call.snapshot call.curState 0 := by
  have notHigh : ¬ call.ipc ≥ ipcHigh := by
    simp only [ipcLow, ipcHigh] at *
    omega
  have small := within.curState
  unfold LadderCall.evaluate adaptiveLadderEvaluation
  rw [if_neg notHigh, if_pos low, within.totalStates]
  split
  · have request : (satSum call.curState step 0 limit).toNat = 0 := by
      unfold satSum
      split_ifs <;> omega
    rw [request]
    exact ⟨rfl, rfl⟩
  · have first : call.curState = 0 := by omega
    have someState : 0 < call.snapshot.totalStates := by
      rw [within.totalStates]
      omega
    rw [first]
    refine ⟨rfl, ?_⟩
    rw [searchStateUp_zero 0 someState]
    exact searchStateClosest_of_same (searchStateUp_zero 0 someState)
      (searchStateUp_of_free someState)

/-- With a high IPC, the request of a call below the highest state. -/
theorem LadderCall.Within.stateReq_below (within : call.Within limit) (high : call.ipc ≥ ipcHigh)
    (step : Int) (first : call.curState = 0) (notLast : 0 ≤ step) (below : step + 1 < limit) :
    (call.evaluate step).stateReq < limit - 1 := by
  unfold LadderCall.evaluate adaptiveLadderEvaluation
  rw [if_pos high, within.totalStates, first]
  split
  · show (satSum ((0 : Nat) : Int) step 0 limit).toNat < limit - 1
    unfold satSum
    split_ifs <;> omega
  · show 0 < limit - 1
    omega

/-- Repeated evaluations with one IPC leave what a single one leaves exactly in the settled
cases. -/
theorem LadderCall.Within.repeated_iff (within : call.Within limit) (step : Int) {retries : Nat}
    (again : 0 < retries) :
    call.evaluate (stepAfter step (List.replicate retries call)) = call.evaluate step ↔
      LadderSettled limit call.ipc call.curState step retries := by
  have small := within.curState
  rcases lt_or_ge call.ipc ipcHigh with notHigh | high
  · rcases lt_or_ge ipcLow call.ipc with notLow | low
    · -- Neither limit is reached: the request is the state of the cpu and the step is forgotten.
      refine iff_of_true ?_ (Or.inl ⟨notLow, notHigh⟩)
      unfold LadderCall.evaluate adaptiveLadderEvaluation
      rw [if_neg (not_le.mpr notHigh), if_neg (not_le.mpr notLow), if_neg (not_le.mpr notHigh),
        if_neg (not_le.mpr notLow)]
    · obtain ⟨sameStep, last⟩ := within.repeated_low again low step
      have settled : LadderSettled limit call.ipc call.curState step retries ↔
          step ≤ 1 - limit := by
        unfold LadderSettled
        simp [not_lt.mpr low, not_le.mpr notHigh, low]
      rw [settled, ← sameStep]
      refine ⟨fun same => congrArg Evaluation.step same, fun same => ?_⟩
      have lowest := sameStep.mp same
      obtain ⟨repeatedReq, repeatedState⟩ :=
        within.evaluate_bottom low (stepAfter step (List.replicate retries call))
          (Or.inr (by omega))
      obtain ⟨singleReq, singleState⟩ := within.evaluate_bottom low step (by omega)
      exact Evaluation.ext (repeatedState.trans singleState.symm)
        (repeatedReq.trans singleReq.symm) same
  · have notLow : ¬ call.ipc ≤ ipcLow := by
      simp only [ipcLow, ipcHigh] at *
      omega
    have settled : LadderSettled limit call.ipc call.curState step retries ↔
        2 ≤ limit ∧ (limit - 1 ≤ step ∨ step = limit - 2 ∧ 1 ≤ call.curState) ∨
          limit = 1 ∧ Even retries := by
      unfold LadderSettled
      simp [not_lt.mpr high, notLow, high]
    rw [settled]
    by_cases two : 2 ≤ limit
    · obtain ⟨sameStep, last⟩ := within.repeated_high again two high step
      have several : limit ≠ 1 := by omega
      simp only [two, several, true_and, false_and, or_false]
      refine ⟨fun same => ?_, fun reached => ?_⟩
      · have reached := sameStep.mp (congrArg Evaluation.step same)
        by_contra unsettled
        obtain ⟨repeatedReq, _⟩ :=
          within.evaluate_top high (stepAfter step (List.replicate retries call)) (by omega)
        have singleReq := within.stateReq_below high step (by omega) (by omega) (by omega)
        rw [← same, repeatedReq] at singleReq
        exact lt_irrefl _ singleReq
      · have same := sameStep.mpr (by omega)
        obtain ⟨repeatedReq, repeatedState⟩ :=
          within.evaluate_top high (stepAfter step (List.replicate retries call)) (by omega)
        obtain ⟨singleReq, singleState⟩ := within.evaluate_top high step (by omega)
        exact Evaluation.ext (repeatedState.trans singleState.symm)
          (repeatedReq.trans singleReq.symm) same
    · obtain rfl : limit = 1 := by omega
      rw [← within.repeated_single high step retries]
      simp only [two, true_and, false_and, false_or]
      refine ⟨fun same => congrArg Evaluation.step same, fun same => ?_⟩
      obtain ⟨repeatedReq, repeatedState⟩ :=
        within.evaluate_top high (stepAfter step (List.replicate retries call))
          (Or.inl (by omega))
      obtain ⟨singleReq, singleState⟩ := within.evaluate_top high step (Or.inl (by omega))
      exact Evaluation.ext (repeatedState.trans singleState.symm)
        (repeatedReq.trans singleReq.symm) same

end Ladder

/-! ### The read sections over their passes -/

/-- The condition under which the discarded passes leave no trace: there are none, the state of the
task is fixed, another scheduling method is used, or the ladder is settled. -/
def RetriesHarmless (around : Surroundings) (s : Scheduler) (task : TaskStruct) (retries : Nat) :
    Prop :=
  retries = 0 ∨ fixedRequest s task.fixedState ≠ none ∨
    s.schedulingMethod ≠ adaptiveLadderScheduling ∨
    LadderSettled s.totalStates (ipcOf task.inst task.reCy) (s.curCpuState around.thisCpu)
      task.histStep retries

/-- The request of a pass is forgotten by the next one. -/
theorem evaluateIpc_forgets {snapshot earlier : Snapshot}
    (totalStates : earlier.totalStates = snapshot.totalStates) (method : Nat)
    (pastMinStates : Nat → Int) (ipc : Int) (curState curState' : Nat) (step step' : Int)
    (stateReq : Nat) :
    evaluateIpc snapshot method pastMinStates ipc curState step
        (evaluateIpc earlier method pastMinStates ipc curState' step' stateReq).stateReq =
      evaluateIpc snapshot method pastMinStates ipc curState step stateReq := by
  unfold evaluateIpc
  split
  · rfl
  · split
    · rfl
    · split
      · have kept : (selectEvaluation earlier pastMinStates ipc curState' step' stateReq).stateReq =
            (selectEvaluation snapshot pastMinStates ipc curState step stateReq).stateReq := by
          unfold selectEvaluation
          rw [totalStates]
        rw [kept]
        unfold selectEvaluation
        cases Loops.firstFrom (fun index => decide (ipc ≥ minStates pastMinStates index))
          (snapshot.totalStates - 1) (2 ^ 31) <;> rfl
      · rfl

section Sections

variable {around : Surroundings} {s : Scheduler} {task : TaskStruct}

/-- The evaluation of the last pass, from what the earlier ones have left. -/
def lastEvaluation (around : Surroundings) (s : Scheduler) (task : TaskStruct)
    (reading : Reading) : Evaluation :=
  evaluateIpc (s.snapshot around.nrRunning) s.schedulingMethod around.pastMinStates
    (ipcOf task.inst task.reCy) (s.curCpuState around.thisCpu) reading.histStep reading.stateReq

/-- A pass of a task whose state is not fixed. -/
theorem readSection_of_free (free : fixedRequest s task.fixedState = none) (reading : Reading) :
    readSection around s task reading =
      { state := s.curCpuState around.thisCpu
        ipc := ipcOf task.inst task.reCy
        newState := (lastEvaluation around s task reading).newState
        stateReq := (lastEvaluation around s task reading).stateReq
        histStep := (lastEvaluation around s task reading).step
        mask := maskOf s (lastEvaluation around s task reading).newState reading.mask } := by
  unfold readSection
  rw [free]
  rfl

/-- A pass of a task whose state is fixed. -/
theorem readSection_of_fixed {stateReq : Nat}
    (fixed : fixedRequest s task.fixedState = some stateReq) (reading : Reading) :
    readSection around s task reading =
      { reading with
        state := s.curCpuState around.thisCpu
        newState := searchStateClosest (s.snapshot around.nrRunning)
          (s.curCpuState around.thisCpu) stateReq
        stateReq := stateReq
        mask := maskOf s (searchStateClosest (s.snapshot around.nrRunning)
          (s.curCpuState around.thisCpu) stateReq) reading.mask } := by
  unfold readSection
  rw [fixed]

/-- What a task's fixed state requests is the same in every pass. -/
theorem seenFixed (sight : Sight) {request : Option Nat}
    (fixed : fixedRequest s task.fixedState = request) :
    fixedRequest (s.seen sight) task.fixedState = request := fixed

/-- One more discarded pass. -/
theorem discardedPasses_concat (discarded : List Sight) (sight : Sight) :
    discardedPasses around s task (discarded ++ [sight]) =
      discardedPass around s task (discardedPasses around s task discarded) sight :=
  List.foldl_append

/-- What the passes have requested makes no difference to the last one. -/
theorem lastEvaluation_discardedPasses (free : fixedRequest s task.fixedState = none)
    (discarded : List Sight) (step : Int) :
    evaluateIpc (s.snapshot around.nrRunning) s.schedulingMethod around.pastMinStates
        (ipcOf task.inst task.reCy) (s.curCpuState around.thisCpu) step
        (discardedPasses around s task discarded).stateReq =
      evaluateIpc (s.snapshot around.nrRunning) s.schedulingMethod around.pastMinStates
        (ipcOf task.inst task.reCy) (s.curCpuState around.thisCpu) step 0 := by
  induction discarded using List.reverseRecOn with
  | nil => rfl
  | append_singleton earlier sight inductionHypothesis =>
    have pass : (discardedPasses around s task (earlier ++ [sight])).stateReq =
        (lastEvaluation (around.seen sight) (s.seen sight) task
          (discardedPasses around s task earlier)).stateReq := by
      rw [discardedPasses_concat, discardedPass, readSection_of_free (seenFixed sight free)]
    have sameStates : ((s.seen sight).snapshot (around.seen sight).nrRunning).totalStates =
        (s.snapshot around.nrRunning).totalStates := rfl
    rw [pass, lastEvaluation, Scheduler.seen_schedulingMethod, Surroundings.seen_pastMinStates,
      evaluateIpc_forgets sameStates, inductionHypothesis]

/-- Passes of a task whose state is fixed leave its step and the IPC alone. -/
theorem discardedPasses_of_fixed {stateReq : Nat}
    (fixed : fixedRequest s task.fixedState = some stateReq) (discarded : List Sight) :
    (discardedPasses around s task discarded).histStep = task.histStep ∧
      (discardedPasses around s task discarded).ipc = 0 := by
  induction discarded using List.reverseRecOn with
  | nil => exact ⟨rfl, rfl⟩
  | append_singleton earlier sight inductionHypothesis =>
    rw [discardedPasses_concat, discardedPass, readSection_of_fixed (seenFixed sight fixed)]
    exact inductionHypothesis

/-- The adaptive ladder is the only method that writes the step. -/
theorem evaluateIpc_step {snapshot : Snapshot} {method : Nat}
    (other : method ≠ adaptiveLadderScheduling) (pastMinStates : Nat → Int) (ipc : Int)
    (curState : Nat) (step : Int) (stateReq : Nat) :
    (evaluateIpc snapshot method pastMinStates ipc curState step stateReq).step = step := by
  unfold evaluateIpc
  rw [if_neg other]
  split
  · unfold ladderEvaluation
    split
    · rfl
    · split <;> rfl
  · split <;> rfl

/-- Passes of another method than the adaptive ladder leave the step alone. -/
theorem discardedPasses_of_other (free : fixedRequest s task.fixedState = none)
    (other : s.schedulingMethod ≠ adaptiveLadderScheduling) (discarded : List Sight) :
    (discardedPasses around s task discarded).histStep = task.histStep := by
  induction discarded using List.reverseRecOn with
  | nil => rfl
  | append_singleton earlier sight inductionHypothesis =>
    rw [discardedPasses_concat, discardedPass, readSection_of_free (seenFixed sight free)]
    exact (evaluateIpc_step other _ _ _ _ _).trans inductionHypothesis

/-- The evaluation of the last pass, as a call of the adaptive ladder. -/
def ladderCallOf (around : Surroundings) (s : Scheduler) (task : TaskStruct) : LadderCall where
  snapshot := s.snapshot around.nrRunning
  ipc := ipcOf task.inst task.reCy
  curState := s.curCpuState around.thisCpu

theorem lastEvaluation_adaptive (adaptive : s.schedulingMethod = adaptiveLadderScheduling)
    (reading : Reading) :
    lastEvaluation around s task reading =
      (ladderCallOf around s task).evaluate reading.histStep := by
  have notLadder : adaptiveLadderScheduling ≠ ladderScheduling := by decide
  unfold lastEvaluation evaluateIpc LadderCall.evaluate ladderCallOf
  rw [adaptive, if_neg notLadder, if_pos rfl]

/-- Passes of the adaptive ladder move the step once each. -/
theorem discardedPasses_of_adaptive (free : fixedRequest s task.fixedState = none)
    (adaptive : s.schedulingMethod = adaptiveLadderScheduling) (discarded : List Sight) :
    (discardedPasses around s task discarded).histStep =
      stepAfter task.histStep
        (List.replicate discarded.length (ladderCallOf around s task)) := by
  induction discarded using List.reverseRecOn with
  | nil => rfl
  | append_singleton earlier sight inductionHypothesis =>
    have pass : (discardedPasses around s task (earlier ++ [sight])).histStep =
        (lastEvaluation (around.seen sight) (s.seen sight) task
          (discardedPasses around s task earlier)).step := by
      rw [discardedPasses_concat, discardedPass, readSection_of_free (seenFixed sight free)]
    have last : stepAfter task.histStep
          (List.replicate (earlier ++ [sight]).length (ladderCallOf around s task)) =
        ((ladderCallOf around s task).evaluate (stepAfter task.histStep
          (List.replicate earlier.length (ladderCallOf around s task)))).step := by
      rw [List.length_append, List.length_singleton, List.replicate_succ', stepAfter_append,
        stepAfter_cons, stepAfter_nil]
    have sameStates : (ladderCallOf (around.seen sight) (s.seen sight) task).snapshot.totalStates =
        (ladderCallOf around s task).snapshot.totalStates := rfl
    have sameIpc : (ladderCallOf (around.seen sight) (s.seen sight) task).ipc =
        (ladderCallOf around s task).ipc := rfl
    rw [pass, lastEvaluation_adaptive ((s.seen_schedulingMethod sight).trans adaptive), last,
      inductionHypothesis, LadderCall.evaluate_step_congr sameStates sameIpc]

/-- The results of two last passes agree when their evaluations do. -/
theorem sameResult_of_free (consistent : Consistent around s)
    (free : fixedRequest s task.fixedState = none) (first second : Reading) :
    SameResult (readSection around s task first) (readSection around s task second) ↔
      lastEvaluation around s task first = lastEvaluation around s task second := by
  rw [readSection_of_free free, readSection_of_free free]
  refine ⟨fun same => Evaluation.ext same.newState same.stateReq same.histStep, fun same => ?_⟩
  rw [same]
  exact ⟨rfl, rfl, rfl, maskOf_of_found (consistent.evaluateIpc _ _ _ _) _ _⟩

/-- The discarded passes leave no trace on the last one exactly when they are harmless. -/
theorem retriedSection_sameResult_iff (consistent : Consistent around s)
    (discarded : List Sight) :
    SameResult (retriedSection around s task discarded) (singleSection around s task) ↔
      RetriesHarmless around s task discarded.length := by
  unfold retriedSection singleSection RetriesHarmless
  cases fixed : fixedRequest s task.fixedState with
  | some stateReq =>
    refine iff_of_true ?_ (Or.inr (Or.inl (Option.some_ne_none _)))
    rw [readSection_of_fixed fixed, readSection_of_fixed fixed]
    exact ⟨(discardedPasses_of_fixed fixed discarded).1, rfl, rfl,
      maskOf_of_found (consistent.closest _ _) _ _⟩
  | none =>
    rw [sameResult_of_free consistent fixed]
    by_cases adaptive : s.schedulingMethod = adaptiveLadderScheduling
    · rw [lastEvaluation_adaptive adaptive, lastEvaluation_adaptive adaptive,
        discardedPasses_of_adaptive fixed adaptive, Reading.start_histStep]
      have within : (ladderCallOf around s task).Within s.totalStates :=
        ⟨rfl, consistent.curState⟩
      rcases Nat.eq_zero_or_pos discarded.length with none | again
      · rw [none]
        exact iff_of_true rfl (Or.inl rfl)
      · have repeated := within.repeated_iff task.histStep again
        simp only [again.ne', adaptive, ne_eq, not_true_eq_false, false_or]
        simp only [ladderCallOf] at repeated ⊢
        exact repeated
    · refine iff_of_true ?_ (Or.inr (Or.inr (Or.inl adaptive)))
      unfold lastEvaluation
      rw [lastEvaluation_discardedPasses fixed, discardedPasses_of_other fixed adaptive,
        Reading.start_histStep, Reading.start_stateReq]

/-- The discarded passes leave no trace on the choice of the first mask. -/
theorem retriedChoice_eq (consistent : Consistent around s) (discarded : List Sight) :
    retriedChoice around s discarded = initialChoice around s :=
  Prod.ext rfl (maskOf_of_found (consistent.closest _ _) _ _)

end Sections

/-- Passes that are harmless leave no trace on `put_mask_from_stats`. -/
theorem putMaskFromStatsRetried_eq {around : Surroundings} {p : Pds}
    (consistent : Consistent around p.scheduler) (ts : Nat) (discarded : List Sight)
    (harmless : RetriesHarmless around p.scheduler (p.tasks ts) discarded.length) :
    putMaskFromStatsRetried around ts discarded p = putMaskFromStats around ts p := by
  have same := (retriedSection_sameResult_iff consistent discarded).mpr harmless
  have equal : retriedSection around p.scheduler (p.tasks ts) discarded =
      singleSection around p.scheduler (p.tasks ts) := by
    unfold retriedSection singleSection at *
    cases fixed : fixedRequest p.scheduler (p.tasks ts).fixedState with
    | some stateReq =>
      rw [readSection_of_fixed fixed, readSection_of_fixed fixed] at *
      exact Reading.ext same.newState (discardedPasses_of_fixed fixed discarded).2 rfl rfl
        same.mask same.histStep
    | none =>
      rw [readSection_of_free fixed, readSection_of_free fixed] at *
      exact Reading.ext same.newState rfl rfl same.stateReq same.mask same.histStep
  unfold putMaskFromStatsRetried putMaskFromStats
  rw [equal]
  rfl

/-- For every scheduling method, every task and all discarded passes before one over a consistent
table: both functions leave what they leave without the discarded passes exactly when no adaptive
ladder evaluation was repeated, or its ladder is settled. -/
theorem retries_invisible_iff {around : Surroundings} {p : Pds}
    (consistent : Consistent around p.scheduler) (ts : Nat) (discarded : List Sight) :
    SameResult (retriedSection around p.scheduler (p.tasks ts) discarded)
          (singleSection around p.scheduler (p.tasks ts)) ∧
        initialMaskRetried around ts discarded p = initialMask around ts p ↔
      RetriesHarmless around p.scheduler (p.tasks ts) discarded.length := by
  rw [retriedSection_sameResult_iff consistent]
  refine and_iff_left ?_
  unfold initialMaskRetried initialMask
  dsimp only
  rw [retriedChoice_eq consistent]

/-- Two cpus in state `0` of two, and a task that has run with an IPC of one, under a scheduling
method. -/
def evaluatedPds (method : Nat) : Pds where
  scheduler :=
    { loadedScheduler 2 [] with
      totalStates := 2
      highState := 1
      midState := 1
      states := fun state =>
        if state = 0 then { state := 0, cpumask := {0, 1}, cpus := 2, demand := 0 }
        else { state := state, cpumask := ∅, cpus := 0, demand := 0 }
      schedulingMethod := method }
  tasks pid := { freshTask pid "sh" with inst := 10000000, reCy := 10000000 }
  size := 8
  migPool := initMigPool 8 staticPool
  handed := []

theorem evaluatedPds_consistent (method : Nat) :
    Consistent (idleSurroundings 0) (evaluatedPds method).scheduler where
  curState := Nat.zero_lt_two
  occupied := ⟨0, Nat.zero_lt_two, by
    show (2 : Int) ≠ 0
    decide⟩
  beyond state past := by
    have notZero : state ≠ 0 := (Nat.lt_of_lt_of_le Nat.zero_lt_two past).ne'
    show (if state = 0 then _ else _ : StateDesc).cpus = 0
    rw [if_neg notZero]

/-- The table as a pass sees it that is then discarded. -/
def evaluatedSight : Sight where
  states := (evaluatedPds 0).scheduler.states
  curCpuState _ := 0
  nrRunning _ := 0

/-- A ladder evaluation that is repeated twice. -/
theorem retries_invisible_iff_ladder :
    RetriesHarmless (idleSurroundings 0) (evaluatedPds ladderScheduling).scheduler
        ((evaluatedPds ladderScheduling).tasks 7) 2 ∧
      SameResult
        (retriedSection (idleSurroundings 0) (evaluatedPds ladderScheduling).scheduler
          ((evaluatedPds ladderScheduling).tasks 7) [evaluatedSight, evaluatedSight])
        (singleSection (idleSurroundings 0) (evaluatedPds ladderScheduling).scheduler
          ((evaluatedPds ladderScheduling).tasks 7)) := by
  have harmless : RetriesHarmless (idleSurroundings 0) (evaluatedPds ladderScheduling).scheduler
      ((evaluatedPds ladderScheduling).tasks 7) 2 :=
    Or.inr (Or.inr (Or.inl (by decide : ladderScheduling ≠ adaptiveLadderScheduling)))
  exact ⟨harmless, ((retries_invisible_iff (evaluatedPds_consistent ladderScheduling) 7
    [evaluatedSight, evaluatedSight]).mpr harmless).1⟩

/-- An adaptive ladder evaluation of a new task that is repeated once: the request is for state `1`
instead of state `0`, and the step has moved twice. -/
theorem retries_visible :
    let p := evaluatedPds adaptiveLadderScheduling
    let retried := retriedSection (idleSurroundings 0) p.scheduler (p.tasks 7) [evaluatedSight]
    let single := singleSection (idleSurroundings 0) p.scheduler (p.tasks 7)
    Consistent (idleSurroundings 0) p.scheduler ∧ retried.stateReq = 1 ∧ single.stateReq = 0 ∧
      ¬ SameResult retried single := by
  refine ⟨evaluatedPds_consistent adaptiveLadderScheduling, by decide, by decide, fun same => ?_⟩
  exact absurd same.stateReq (by decide)

end Seeker
