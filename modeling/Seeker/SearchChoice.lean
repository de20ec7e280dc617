/-
This file says which state the three searches of `search_state.c` return.

Where a state is free, each search returns a free one: the nearest to the request, the
next one downwards or the next one upwards. Where none is, all three return the least
loaded state, and they return none exactly if no state has a cpu.
-/
import Seeker.Library.Nearest
import Seeker.SearchState

namespace Seeker

open Nearest

/-! ### The states a search chooses from -/

section Choice

variable (snapshot : Snapshot)

/-- The states that are free for a task on a cpu in the state `oldState`. -/
def freeStates (oldState : Nat) : Set Nat :=
  {state | state < snapshot.totalStates ∧ isStateFree snapshot oldState state = true}

/-- The states that have a cpu. -/
def staffedStates : Set Nat :=
  {state | state < snapshot.totalStates ∧ 0 < (snapshot.states state).cpus}

/-- How many tasks more than cpus a state has. -/
def stateLoad (state : Nat) : Int :=
  getStateTasks snapshot state - (snapshot.states state).cpus

/-- The lowest of the states with the smallest load. -/
def IsLeastLoaded (state : Nat) : Prop :=
  IsFirstMin (stateLoad snapshot) (staffedStates snapshot) state

end Choice

/-- The number of states in between grows on both sides of a request. -/
theorem isGauge_stateDistance (reqState : Nat) : IsGauge reqState (stateDistance reqState) :=
  isGauge_between reqState

variable {snapshot : Snapshot} {oldState reqState state : Nat}

/-! ### The least loaded state -/

section Loaded

/-- What `lowest_loaded_state` compares. -/
def scannedLoad (snapshot : Snapshot) (state : Nat) : Int := int32 (stateLoad snapshot state)

/-- The states the scan has not skipped. -/
def scannedStates (snapshot : Snapshot) (count : Nat) : Set Nat :=
  {state | state < count ∧ (snapshot.states state).cpus ≠ 0}

theorem scannedStates_skip {count : Nat} (skipped : (snapshot.states count).cpus = 0) :
    scannedStates snapshot (count + 1) = scannedStates snapshot count := by
  ext state
  refine and_congr_left fun hasCpu => ⟨fun small => ?_, Nat.lt_succ_of_lt⟩
  refine lt_of_le_of_ne (Nat.lt_succ_iff.mp small) ?_
  rintro rfl
  exact hasCpu skipped

theorem scannedStates_add {count : Nat} (hasCpu : (snapshot.states count).cpus ≠ 0) :
    scannedStates snapshot (count + 1) = insert count (scannedStates snapshot count) := by
  ext state
  constructor
  · rintro ⟨small, other⟩
    rcases Nat.lt_succ_iff_lt_or_eq.mp small with below | rfl
    · exact Or.inr ⟨below, other⟩
    · exact Or.inl rfl
  · rintro (rfl | ⟨below, other⟩)
    · exact ⟨Nat.lt_succ_self _, hasCpu⟩
    · exact ⟨Nat.lt_succ_of_lt below, other⟩

theorem loadScanStep_skip {count : Nat} {scan : LoadScan}
    (skipped : (snapshot.states count).cpus = 0) : loadScanStep snapshot count scan = scan :=
  if_pos skipped

/-- The first state, and then every one with a smaller load, is taken. -/
theorem loadScanStep_take {count : Nat} {scan : LoadScan}
    (hasCpu : (snapshot.states count).cpus ≠ 0)
    (better : ∀ state, scan.minState = some state → scannedLoad snapshot count < scan.minLoad) :
    loadScanStep snapshot count scan =
      { minLoad := scannedLoad snapshot count, minState := some count } := by
  unfold loadScanStep
  rw [if_neg hasCpu]
  cases found : scan.minState with
  | none => rfl
  | some state => exact if_pos (better state found)

theorem loadScanStep_keep {count : Nat} {scan : LoadScan} (found : scan.minState = some state)
    (worse : scan.minLoad ≤ scannedLoad snapshot count) :
    loadScanStep snapshot count scan = scan := by
  by_cases skipped : (snapshot.states count).cpus = 0
  · exact loadScanStep_skip skipped
  · unfold loadScanStep
    rw [if_neg skipped, found]
    exact if_neg (not_lt.mpr worse)

/-- What the scan knows after the states below `count`. -/
structure LoadScanned (snapshot : Snapshot) (count : Nat) (scan : LoadScan) : Prop where
  missed : scan.minState = none → scannedStates snapshot count = ∅
  least : ∀ state, scan.minState = some state →
    scan.minLoad = scannedLoad snapshot state ∧
      IsFirstMin (scannedLoad snapshot) (scannedStates snapshot count) state

theorem LoadScanned.take {count : Nat} (least : IsFirstMin (scannedLoad snapshot)
    (scannedStates snapshot (count + 1)) count) :
    LoadScanned snapshot (count + 1)
      { minLoad := scannedLoad snapshot count, minState := some count } where
  missed none := absurd none (Option.some_ne_none count)
  least state chosen := by
    have same : count = state := Option.some.inj chosen
    dsimp only
    rw [← same]
    exact ⟨rfl, least⟩

theorem LoadScanned.step {count : Nat} {scan : LoadScan}
    (scanned : LoadScanned snapshot count scan) :
    LoadScanned snapshot (count + 1) (loadScanStep snapshot count scan) := by
  by_cases skipped : (snapshot.states count).cpus = 0
  · rw [loadScanStep_skip skipped]
    refine ⟨?_, ?_⟩
    · rw [scannedStates_skip skipped]
      exact scanned.missed
    · rw [scannedStates_skip skipped]
      exact scanned.least
  · cases found : scan.minState with
    | none =>
      rw [loadScanStep_take skipped fun state chosen =>
        absurd (chosen.symm.trans found) (Option.some_ne_none state)]
      refine LoadScanned.take ?_
      rw [scannedStates_add skipped, scanned.missed found, insert_empty_eq]
      exact isFirstMin_singleton count
    | some state =>
      obtain ⟨load, least⟩ := scanned.least state found
      have grown := least.insert fun _ (member : _ ∈ scannedStates snapshot count) => member.1
      rw [← scannedStates_add skipped] at grown
      by_cases better : scannedLoad snapshot count < scannedLoad snapshot state
      · rw [loadScanStep_take skipped fun _ _ => better.trans_eq load.symm]
        rw [if_pos better] at grown
        exact LoadScanned.take grown
      · rw [loadScanStep_keep found (load.trans_le (not_lt.mp better))]
        rw [if_neg better] at grown
        refine ⟨fun none => absurd (found.symm.trans none) (Option.some_ne_none state),
          fun other chosen => ?_⟩
        obtain rfl := Option.some.inj (found.symm.trans chosen)
        exact ⟨load, grown⟩

theorem loadScanned_lowest (snapshot : Snapshot) :
    LoadScanned snapshot snapshot.totalStates
      (Loops.forRange snapshot.totalStates (loadScanStep snapshot)
        { minLoad := 100000, minState := none }) := by
  refine Loops.forRange_induction (LoadScanned snapshot)
    ⟨fun _ => ?_, fun _ none => by cases none⟩ fun _ _ _ scanned => scanned.step
  exact Set.eq_empty_of_forall_notMem fun state member => Nat.not_lt_zero state member.1

variable (nonneg : ∀ state, state < snapshot.totalStates → 0 ≤ (snapshot.states state).cpus)

include nonneg in
theorem scannedStates_totalStates :
    scannedStates snapshot snapshot.totalStates = staffedStates snapshot := by
  ext state
  refine and_congr_right fun small => ⟨fun hasCpu => ?_, fun positive => positive.ne'⟩
  exact lt_of_le_of_ne (nonneg state small) hasCpu.symm

/-- The scan misses every state exactly if none has a cpu. -/
theorem lowestLoadedState_eq_none_iff :
    lowestLoadedState snapshot = none ↔
      ∀ state, state < snapshot.totalStates → (snapshot.states state).cpus = 0 := by
  have scanned := loadScanned_lowest snapshot
  constructor
  · intro missed state small
    by_contra hasCpu
    have member : state ∈ scannedStates snapshot snapshot.totalStates := ⟨small, hasCpu⟩
    rw [scanned.missed missed] at member
    exact member
  · intro empty
    cases found : lowestLoadedState snapshot with
    | none => rfl
    | some state =>
      have member := (scanned.least state found).2.mem
      exact absurd (empty state member.1) member.2

/-- A state that is not free has at least as many tasks as cpus. -/
theorem cpus_le_getStateTasks (busy : isStateFree snapshot oldState state = false)
    (hasCpu : 0 < (snapshot.states state).cpus) :
    (snapshot.states state).cpus ≤ getStateTasks snapshot state := by
  by_contra fewer
  unfold isStateFree at busy
  split at busy
  · cases busy
  · rw [if_pos ⟨hasCpu, not_le.mp fewer⟩] at busy
    cases busy

/-- The load of a state that is not free fits an `int`. -/
theorem scannedLoad_of_busy (busy : isStateFree snapshot oldState state = false)
    (hasCpu : 0 < (snapshot.states state).cpus) :
    scannedLoad snapshot state = stateLoad snapshot state := by
  have atLeast := cpus_le_getStateTasks busy hasCpu
  have fits : getStateTasks snapshot state < 2 ^ 31 := (int32_bounds _).2
  exact int32_of_fits (by unfold stateLoad; omega) (by unfold stateLoad; omega)

include nonneg in
/-- Where no state is free the scan returns the least loaded state. -/
theorem lowestLoadedState_eq_some_iff (busy : freeStates snapshot oldState = ∅) :
    lowestLoadedState snapshot = some state ↔ IsLeastLoaded snapshot state := by
  have scanned := loadScanned_lowest snapshot
  have sameLoad : Set.EqOn (scannedLoad snapshot) (stateLoad snapshot)
      (staffedStates snapshot) := by
    rintro other ⟨small, hasCpu⟩
    have notFree : other ∉ freeStates snapshot oldState := busy ▸ Set.notMem_empty other
    have busyHere : isStateFree snapshot oldState other = false :=
      eq_false_of_ne_true fun free => notFree ⟨small, free⟩
    exact scannedLoad_of_busy busyHere hasCpu
  have isLeast : ∀ other, lowestLoadedState snapshot = some other →
      IsLeastLoaded snapshot other := by
    intro other found
    have least := (scanned.least other found).2
    rw [scannedStates_totalStates nonneg] at least
    exact least.congr sameLoad
  refine ⟨isLeast state, fun least => ?_⟩
  cases found : lowestLoadedState snapshot with
  | none =>
    have empty := (lowestLoadedState_eq_none_iff).mp found state least.mem.1
    exact absurd empty least.mem.2.ne'
  | some other => exact congrArg some ((isLeast other found).unique least)

end Loaded

/-! ### The directed searches -/

section Directed

theorem searchStateDown_eq (snapshot : Snapshot) (oldState reqState : Nat) :
    searchStateDown snapshot oldState reqState =
      ((Loops.lastBelow (isStateFree snapshot oldState) (reqState + 1)).or
        (Loops.firstFrom (isStateFree snapshot oldState) (reqState + 1)
          snapshot.totalStates)).or (lowestLoadedState snapshot) :=
  Option.or_assoc.symm

theorem searchStateUp_eq (snapshot : Snapshot) (oldState reqState : Nat) :
    searchStateUp snapshot oldState reqState =
      ((Loops.firstFrom (isStateFree snapshot oldState) reqState snapshot.totalStates).or
        (Loops.lastBelow (isStateFree snapshot oldState) reqState)).or
          (lowestLoadedState snapshot) :=
  Option.or_assoc.symm

/-- A search that finds a free state returns it. -/
theorem found_or_lowest {search fallback : Option Nat} {Chosen : Nat → Prop}
    (chosen : ∀ state, search = some state → Chosen state)
    (missed : search = none → freeStates snapshot oldState = ∅)
    (free : (freeStates snapshot oldState).Nonempty) :
    ∃ state, search.or fallback = some state ∧ Chosen state := by
  cases found : search with
  | none => exact absurd (missed found) free.ne_empty
  | some state => exact ⟨state, rfl, chosen state found⟩

/-- A search that would find free states only falls back where there is none. -/
theorem or_lowest_of_busy {search fallback : Option Nat}
    (chosen : ∀ state, search = some state → state ∈ freeStates snapshot oldState)
    (busy : freeStates snapshot oldState = ∅) : search.or fallback = fallback := by
  cases found : search with
  | none => rfl
  | some state => exact absurd (chosen state found) (busy ▸ Set.notMem_empty state)

theorem searchStateDown_free (small : reqState < snapshot.totalStates)
    (free : (freeStates snapshot oldState).Nonempty) :
    ∃ state, searchStateDown snapshot oldState reqState = some state ∧
      IsDown (freeStates snapshot oldState) reqState state := by
  rw [searchStateDown_eq]
  exact found_or_lowest (fun _ => isDown_of_searches small) (searches_eq_none le_rfl) free

theorem searchStateUp_free (small : reqState < snapshot.totalStates)
    (free : (freeStates snapshot oldState).Nonempty) :
    ∃ state, searchStateUp snapshot oldState reqState = some state ∧
      IsUp (freeStates snapshot oldState) reqState state := by
  rw [searchStateUp_eq]
  refine found_or_lowest (fun _ => isUp_of_searches small) (fun missed => ?_) free
  obtain ⟨above, below⟩ := Option.or_eq_none_iff.mp missed
  exact searches_eq_none le_rfl (Option.or_eq_none_iff.mpr ⟨below, above⟩)

/-- Where no state is free the search downwards ends with the least loaded state. -/
theorem searchStateDown_busy (small : reqState < snapshot.totalStates)
    (busy : freeStates snapshot oldState = ∅) :
    searchStateDown snapshot oldState reqState = lowestLoadedState snapshot := by
  rw [searchStateDown_eq]
  exact or_lowest_of_busy (fun _ found => (isDown_of_searches small found).mem) busy

theorem searchStateUp_busy (small : reqState < snapshot.totalStates)
    (busy : freeStates snapshot oldState = ∅) :
    searchStateUp snapshot oldState reqState = lowestLoadedState snapshot := by
  rw [searchStateUp_eq]
  exact or_lowest_of_busy (fun _ found => (isUp_of_searches small found).mem) busy

end Directed

/-! ### The nearest state -/

section Closest

variable (small : reqState < snapshot.totalStates)
include small

/-- The nearer of the states found in the two directions is the nearest free one. -/
theorem searchStateClosest_free (free : (freeStates snapshot oldState).Nonempty) :
    ∃ state, searchStateClosest snapshot oldState reqState = some state ∧
      IsLastMin (stateDistance reqState) (freeStates snapshot oldState) state := by
  by_cases here : isStateFree snapshot oldState reqState = true
  · refine ⟨reqState, if_pos here, ?_⟩
    exact (isGauge_stateDistance reqState).isLastMin_self ⟨small, here⟩
  · obtain ⟨down, downFound, lower⟩ := searchStateDown_free small free
    obtain ⟨up, upFound, upper⟩ := searchStateUp_free small free
    refine ⟨_, ?_, (isGauge_stateDistance reqState).isLastMin_nearer lower upper⟩
    unfold searchStateClosest
    rw [if_neg here, downFound, upFound]
    exact (apply_ite some _ _ _).symm

theorem searchStateClosest_busy (busy : freeStates snapshot oldState = ∅) :
    searchStateClosest snapshot oldState reqState = lowestLoadedState snapshot := by
  have notFree : reqState ∉ freeStates snapshot oldState := busy ▸ Set.notMem_empty reqState
  have notHere : ¬ isStateFree snapshot oldState reqState = true := fun free =>
    notFree ⟨small, free⟩
  unfold searchStateClosest
  rw [if_neg notHere, searchStateDown_busy small busy, searchStateUp_busy small busy]
  cases lowestLoadedState snapshot with
  | none => rfl
  | some state => exact ite_self _

end Closest

/-! ### All three searches -/

/-- A search that returns a free state or the least loaded one returns none exactly if no state
has a cpu. -/
theorem search_eq_none_iff {search : Option Nat}
    (free : (freeStates snapshot oldState).Nonempty → ∃ state, search = some state)
    (busy : freeStates snapshot oldState = ∅ → search = lowestLoadedState snapshot) :
    search = none ↔
      ∀ state, state < snapshot.totalStates → (snapshot.states state).cpus = 0 := by
  rcases Set.eq_empty_or_nonempty (freeStates snapshot oldState) with empty | nonempty
  · rw [busy empty, lowestLoadedState_eq_none_iff]
  · obtain ⟨found, returned⟩ := free nonempty
    obtain ⟨state, small, here⟩ := nonempty
    refine ⟨fun missed => ?_, fun unstaffed => ?_⟩
    · exact absurd (returned.symm.trans missed) (Option.some_ne_none found)
    · exact absurd (unstaffed state small) (isStateFree_cpus here).ne'

/-- The searches return the best free state, the least loaded state where none is free, and none
exactly if no state has a cpu. -/
theorem search_state_best
    (nonneg : ∀ state, state < snapshot.totalStates → 0 ≤ (snapshot.states state).cpus)
    (oldState : Nat) (small : reqState < snapshot.totalStates) :
    ((freeStates snapshot oldState).Nonempty →
      (∃ state, searchStateClosest snapshot oldState reqState = some state ∧
        IsLastMin (stateDistance reqState) (freeStates snapshot oldState) state) ∧
      (∃ state, searchStateDown snapshot oldState reqState = some state ∧
        IsDown (freeStates snapshot oldState) reqState state) ∧
      ∃ state, searchStateUp snapshot oldState reqState = some state ∧
        IsUp (freeStates snapshot oldState) reqState state) ∧
    (freeStates snapshot oldState = ∅ → ∀ state,
      (searchStateClosest snapshot oldState reqState = some state ↔
        IsLeastLoaded snapshot state) ∧
      (searchStateDown snapshot oldState reqState = some state ↔
        IsLeastLoaded snapshot state) ∧
      (searchStateUp snapshot oldState reqState = some state ↔
        IsLeastLoaded snapshot state)) ∧
    (searchStateClosest snapshot oldState reqState = none ↔
      ∀ state, state < snapshot.totalStates → (snapshot.states state).cpus = 0) ∧
    (searchStateDown snapshot oldState reqState = none ↔
      ∀ state, state < snapshot.totalStates → (snapshot.states state).cpus = 0) ∧
    (searchStateUp snapshot oldState reqState = none ↔
      ∀ state, state < snapshot.totalStates → (snapshot.states state).cpus = 0) := by
  refine ⟨fun free => ?_, fun busy state => ?_, ?_, ?_, ?_⟩
  · exact ⟨searchStateClosest_free small free, searchStateDown_free small free,
      searchStateUp_free small free⟩
  · have least : lowestLoadedState snapshot = some state ↔ IsLeastLoaded snapshot state :=
      lowestLoadedState_eq_some_iff nonneg busy
    rw [searchStateClosest_busy small busy, searchStateDown_busy small busy,
      searchStateUp_busy small busy]
    exact ⟨least, least, least⟩
  · exact search_eq_none_iff
      (fun free => (searchStateClosest_free small free).imp fun _ => And.left)
      (searchStateClosest_busy small)
  · exact search_eq_none_iff
      (fun free => (searchStateDown_free small free).imp fun _ => And.left)
      (searchStateDown_busy small)
  · exact search_eq_none_iff
      (fun free => (searchStateUp_free small free).imp fun _ => And.left)
      (searchStateUp_busy small)

/-- Three states the lowest and the highest of which have an idle cpu. -/
def idleEnds : Snapshot :=
  { totalStates := 3
    states := fun state =>
      { state := state, cpumask := ∅, cpus := if state = 1 then 0 else 1, demand := 0 }
    curCpuState := fun _ => 0
    nrRunning := fun _ => 0 }

/-- A request for the state in the middle is answered by the higher end. -/
theorem search_state_best_idle_ends :
    IsLastMin (stateDistance 1) (freeStates idleEnds 0) 2 ∧
      IsDown (freeStates idleEnds 0) 1 0 ∧ IsUp (freeStates idleEnds 0) 1 2 := by
  have nonneg : ∀ state, state < idleEnds.totalStates → 0 ≤ (idleEnds.states state).cpus := by
    decide
  have free : (freeStates idleEnds 0).Nonempty := ⟨0, by decide, by decide⟩
  obtain ⟨⟨_, closestFound, nearest⟩, ⟨_, downFound, lower⟩, _, upFound, upper⟩ :=
    (search_state_best nonneg 0 (by decide : 1 < idleEnds.totalStates)).1 free
  have closestIs : searchStateClosest idleEnds 0 1 = some 2 := by decide
  have downIs : searchStateDown idleEnds 0 1 = some 0 := by decide
  have upIs : searchStateUp idleEnds 0 1 = some 2 := by decide
  obtain rfl := Option.some.inj (closestIs.symm.trans closestFound)
  obtain rfl := Option.some.inj (downIs.symm.trans downFound)
  obtain rfl := Option.some.inj (upIs.symm.trans upFound)
  exact ⟨nearest, lower, upper⟩

end Seeker
