/-
This file embeds `nrtasks.c` and `search_state.c`: the number of tasks on the cpus
of a state and the search for a state a task can be sent to.

A search takes a free state near the requested one, and where no state is free the
least loaded one. `none` is the result `-1`. The file proves that whatever a search
returns is a state that has a cpu, and lies below `totalStates` when the request
does.
-/
import Mathlib.Algebra.BigOperators.Group.Finset.Basic
import Seeker.Globals

namespace Seeker

/-! ### What the search reads -/

/-- The globals the search and its callers read, and the number of tasks on each cpu that
`get_cpu_nr_running` answers. There is at least one state. -/
structure Snapshot where
  totalStates : Nat
  states : Nat → StateDesc
  curCpuState : Nat → Nat
  nrRunning : Nat → Nat

/-- The globals at one moment. -/
def Scheduler.snapshot (s : Scheduler) (nrRunning : Nat → Nat) : Snapshot :=
  { totalStates := s.totalStates, states := s.states, curCpuState := s.curCpuState,
    nrRunning := nrRunning }

variable (snapshot : Snapshot)

/-- The sum both task counts start with, an `unsigned long`. -/
def maskTasks (state : Nat) : Nat :=
  (∑ cpu ∈ (snapshot.states state).cpumask, snapshot.nrRunning cpu) % ulongRange

/-- `get_state_tasks`. -/
def getStateTasks (state : Nat) : Int := int32 (maskTasks snapshot state)

/-- `get_state_tasks_exself`. -/
def getStateTasksExself (state : Nat) : Int :=
  if maskTasks snapshot state ≠ 0 then int32 ((maskTasks snapshot state - 1 : Nat) : Int)
  else int32 (maskTasks snapshot state)

/-! ### The search -/

/-- `is_state_free`. -/
def isStateFree (old state : Nat) : Bool :=
  if old = state ∧ (snapshot.states state).cpus > 0 ∧
      getStateTasksExself snapshot state < (snapshot.states state).cpus then true
  else if (snapshot.states state).cpus > 0 ∧
      getStateTasks snapshot state < (snapshot.states state).cpus then true
  else false

/-- The variables of `lowest_loaded_state`: `minState` is `none` while `min_found` is `0`. -/
structure LoadScan where
  minLoad : Int
  minState : Option Nat

/-- One turn of the loop of `lowest_loaded_state`. -/
def loadScanStep (state : Nat) (scan : LoadScan) : LoadScan :=
  if (snapshot.states state).cpus = 0 then scan
  else
    let thisLoad := int32 (getStateTasks snapshot state - (snapshot.states state).cpus)
    match scan.minState with
    | none => { minLoad := thisLoad, minState := some state }
    | some _ =>
      if thisLoad < scan.minLoad then { minLoad := thisLoad, minState := some state } else scan

/-- `lowest_loaded_state`. -/
def lowestLoadedState : Option Nat :=
  (Loops.forRange snapshot.totalStates (loadScanStep snapshot)
    { minLoad := 100000, minState := none }).minState

/-- `search_state_down`. -/
def searchStateDown (oldState reqState : Nat) : Option Nat :=
  (Loops.lastBelow (isStateFree snapshot oldState) (reqState + 1)).or <|
    (Loops.firstFrom (isStateFree snapshot oldState) (reqState + 1) snapshot.totalStates).or
      (lowestLoadedState snapshot)

/-- `search_state_up`. -/
def searchStateUp (oldState reqState : Nat) : Option Nat :=
  (Loops.firstFrom (isStateFree snapshot oldState) reqState snapshot.totalStates).or <|
    (Loops.lastBelow (isStateFree snapshot oldState) reqState).or (lowestLoadedState snapshot)

/-- The number of states between two states: `ABS(first - second)`. -/
def stateDistance (first second : Nat) : Nat := ((first : Int) - second).natAbs

/-- `search_state_closest`: on equal distances the state found upwards is taken. -/
def searchStateClosest (oldState reqState : Nat) : Option Nat :=
  if isStateFree snapshot oldState reqState then some reqState
  else
    match searchStateDown snapshot oldState reqState, searchStateUp snapshot oldState reqState with
    | none, none => lowestLoadedState snapshot
    | none, some up => some up
    | some down, none => some down
    | some down, some up =>
      if stateDistance reqState down < stateDistance reqState up then some down else some up

/-! ### What a search returns -/

variable {snapshot} {oldState reqState state : Nat}

theorem isStateFree_cpus (free : isStateFree snapshot oldState state = true) :
    0 < (snapshot.states state).cpus := by
  unfold isStateFree at free
  split at free
  · rename_i self
    exact self.2.1
  · split at free
    · rename_i other
      exact other.1
    · cases free

/-- The state has a cpu, and is a state of the table if the requested one is. -/
def Reachable (snapshot : Snapshot) (reqState state : Nat) : Prop :=
  (snapshot.states state).cpus ≠ 0 ∧ (reqState < snapshot.totalStates →
    state < snapshot.totalStates)

theorem lowestLoadedState_reachable (found : lowestLoadedState snapshot = some state) :
    Reachable snapshot reqState state := by
  have scanned : ∀ state, lowestLoadedState snapshot = some state →
      (snapshot.states state).cpus ≠ 0 ∧ state < snapshot.totalStates := by
    refine Loops.forRange_induction (fun count (scan : LoadScan) =>
      ∀ state, scan.minState = some state → (snapshot.states state).cpus ≠ 0 ∧ state < count)
      (fun _ chosen => by cases chosen) ?_
    intro index _ scan kept state chosen
    have weaken : ∀ {state}, scan.minState = some state →
        (snapshot.states state).cpus ≠ 0 ∧ state < index + 1 := fun chosen =>
      ⟨(kept _ chosen).1, Nat.lt_succ_of_lt (kept _ chosen).2⟩
    unfold loadScanStep at chosen
    split at chosen
    · exact weaken chosen
    · rename_i occupied
      have taken : ∀ {state}, some index = some state →
          (snapshot.states state).cpus ≠ 0 ∧ state < index + 1 := by
        rintro _ ⟨⟩
        exact ⟨occupied, Nat.lt_succ_self index⟩
      dsimp only at chosen
      split at chosen
      · exact taken chosen
      · split at chosen
        · exact taken chosen
        · exact weaken chosen
  obtain ⟨occupied, small⟩ := scanned state found
  exact ⟨occupied, fun _ => small⟩

theorem firstFrom_reachable {start : Nat}
    (found : Loops.firstFrom (isStateFree snapshot oldState) start snapshot.totalStates =
      some state) : Reachable snapshot reqState state := by
  obtain ⟨⟨_, small⟩, free⟩ := Loops.firstFrom_eq_some found
  exact ⟨(isStateFree_cpus free).ne', fun _ => small⟩

theorem lastBelow_reachable {stop : Nat} (within : stop ≤ reqState + 1)
    (found : Loops.lastBelow (isStateFree snapshot oldState) stop = some state) :
    Reachable snapshot reqState state := by
  obtain ⟨small, free⟩ := Loops.lastBelow_eq_some found
  exact ⟨(isStateFree_cpus free).ne', fun inRange => by omega⟩

theorem searchStateDown_reachable
    (found : searchStateDown snapshot oldState reqState = some state) :
    Reachable snapshot reqState state := by
  rcases Option.or_eq_some_iff.mp found with down | ⟨_, rest⟩
  · exact lastBelow_reachable le_rfl down
  · rcases Option.or_eq_some_iff.mp rest with up | ⟨_, lowest⟩
    · exact firstFrom_reachable up
    · exact lowestLoadedState_reachable lowest

theorem searchStateUp_reachable (found : searchStateUp snapshot oldState reqState = some state) :
    Reachable snapshot reqState state := by
  rcases Option.or_eq_some_iff.mp found with up | ⟨_, rest⟩
  · exact firstFrom_reachable up
  · rcases Option.or_eq_some_iff.mp rest with down | ⟨_, lowest⟩
    · exact lastBelow_reachable (Nat.le_succ reqState) down
    · exact lowestLoadedState_reachable lowest

/-- The search returns a state that has a cpu, within the table when asked within it. -/
theorem searchStateClosest_reachable
    (found : searchStateClosest snapshot oldState reqState = some state) :
    Reachable snapshot reqState state := by
  unfold searchStateClosest at found
  split at found
  · rename_i free
    cases found
    exact ⟨(isStateFree_cpus free).ne', id⟩
  · split at found
    · exact lowestLoadedState_reachable found
    · rename_i upFound
      exact searchStateUp_reachable (upFound.trans found)
    · rename_i downFound _
      exact searchStateDown_reachable (downFound.trans found)
    · rename_i downFound upFound
      split at found
      · exact searchStateDown_reachable (downFound.trans found)
      · exact searchStateUp_reachable (upFound.trans found)

end Seeker
