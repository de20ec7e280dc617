/-
This file is about the state table after `greedy_delta`. The table is written twice:
the commit replaces it by the layout, and each frequency change the bookkeeping loop
then asks for is called back and written again as a move.

The masks survive the second write where the layout already has the cpu in its new
state, but the counts do not: a cpu that moves is counted in its new state by the
commit and by the callback, and is taken from a state that no longer counts it. A
cpu that is put to sleep re-enters the lowest state. So the table is right exactly
when the interval makes no request at all. Seen from one cpu the picture is better:
the only state that holds an awake cpu is its own, unless its request was refused.
-/
import Seeker.Greedy

namespace Seeker

/-! ### The table after the bookkeeping loop -/

section SettledStates

variable {grant : Nat → Option Nat} {place : Nat → Nat}

theorem mem_moveIf_of_ne {cpu old bystander : Nat} {state : Option Nat} (moved : state ≠ some old)
    (different : bystander ≠ cpu) (states : Nat → StateDesc) (other : Nat) :
    bystander ∈ (moveIf cpu old state states other).cpumask ↔
      bystander ∈ (states other).cpumask := by
  cases state with
  | none => rfl
  | some state =>
    exact mem_moveCpu_of_ne (fun same => moved (congrArg some same.symm)) different other

/-- What a turn does to the cpu's own memberships depends on these only. -/
theorem mem_moveIf_congr {cpu old : Nat} {state : Option Nat} (moved : state ≠ some old)
    {first second : Nat → StateDesc}
    (same : ∀ other, cpu ∈ (first other).cpumask ↔ cpu ∈ (second other).cpumask) (other : Nat) :
    cpu ∈ (moveIf cpu old state first other).cpumask ↔
      cpu ∈ (moveIf cpu old state second other).cpumask := by
  cases state with
  | none => exact same other
  | some state =>
    have different : old ≠ state := fun same => moved (congrArg some same.symm)
    show cpu ∈ (moveCpu cpu old state first other).cpumask ↔
      cpu ∈ (moveCpu cpu old state second other).cpumask
    rw [mem_moveCpu_self different, mem_moveCpu_self different, same]

/-- The loop moves a cpu once, from where the commit put it. -/
theorem mem_settledStates (moved : ∀ cpu, grant cpu ≠ some (place cpu)) (count cpu : Nat)
    (states : Nat → StateDesc) (state : Nat) :
    cpu ∈ (settledStates grant place count states state).cpumask ↔
      if cpu < count then cpu ∈ (moveIf cpu (place cpu) (grant cpu) states state).cpumask
      else cpu ∈ (states state).cpumask := by
  refine Loops.forRange_induction (fun count (current : Nat → StateDesc) => ∀ state,
    cpu ∈ (current state).cpumask ↔
      if cpu < count then cpu ∈ (moveIf cpu (place cpu) (grant cpu) states state).cpumask
      else cpu ∈ (states state).cpumask) ?_ ?_ state
  · intro state
    rw [if_neg (Nat.not_lt_zero cpu)]
  · intro index _ current settled state
    by_cases here : cpu = index
    · subst here
      rw [if_pos (Nat.lt_succ_self cpu)]
      refine mem_moveIf_congr (moved cpu) (fun other => ?_) state
      rw [settled other, if_neg (lt_irrefl cpu)]
    · rw [mem_moveIf_of_ne (moved index) here, settled state]
      exact iff_of_eq (if_congr (by omega) rfl rfl)

/-- What a cpu's request adds to the count of a state. -/
def flow (grant : Nat → Option Nat) (place : Nat → Nat) (state cpu : Nat) : Int :=
  (if grant cpu = some state then 1 else 0) -
    if (grant cpu).isSome ∧ place cpu = state then 1 else 0

theorem cpus_settledStates (moved : ∀ cpu, grant cpu ≠ some (place cpu)) (count : Nat)
    (states : Nat → StateDesc) (state : Nat) :
    (settledStates grant place count states state).cpus =
      (states state).cpus + ∑ cpu ∈ Finset.range count, flow grant place state cpu := by
  refine Loops.forRange_induction (fun count (current : Nat → StateDesc) =>
    (current state).cpus =
      (states state).cpus + ∑ cpu ∈ Finset.range count, flow grant place state cpu) ?_ ?_
  · rw [Finset.range_zero, Finset.sum_empty, add_zero]
  · intro index _ current counted
    rw [Finset.sum_range_succ, ← add_assoc, ← counted]
    unfold flow
    have different := moved index
    cases chosen : grant index with
    | none => simp [moveIf]
    | some target =>
      rw [chosen] at different
      have apart : place index ≠ target := fun same => different (congrArg some same.symm)
      show (moveCpu index (place index) target current state).cpus = _
      rw [moveCpu_cpus apart]
      simp [eq_comm]

end SettledStates

/-! ### The table at the commit -/

theorem newStates_loop_tabulates (cpus limit : Nat) {filled : Auction}
    (flags : ∀ cpu, filled.selectedCpus cpu = 0 ∨ filled.selectedCpus cpu = 1) :
    let provided := Loops.forRange cpus
      (fun cpu states =>
        if filled.selectedCpus cpu = 1 then states
        else enterCpu cpu (filled.newCpuState cpu) states)
      fun state => ({ state := state, cpumask := ∅, cpus := 0, demand := 0 } : StateDesc)
    Occupancy.Tabulates (filled.selected cpus) filled.newCpuState (· < limit)
      (fun state => (provided state).cpumask) (fun state => (provided state).cpus) := by
  refine Loops.forRange_induction (fun count (current : Nat → StateDesc) =>
    Occupancy.Tabulates (filled.selected count) filled.newCpuState (· < limit)
      (fun state => (current state).cpumask) (fun state => (current state).cpus)) ?_ ?_
  · exact Occupancy.Tabulates.empty (fun _ _ => rfl) fun _ _ => rfl
  · intro cpu _ current table
    rw [selected_succ]
    rcases flags cpu with selected | waiting
    · rw [if_pos selected, if_neg (by rw [selected]; decide)]
      have entered := tabulates_enterCpu table (notMem_selected_self cpu filled)
        (filled.newCpuState cpu)
      rwa [Function.update_eq_self] at entered
    · rw [if_neg (by rw [waiting]; decide), if_pos waiting]
      exact table

/-- The commit writes the table of the layout. -/
theorem commit_tabulates {s : Scheduler} (inStates : InStates s)
    (someCpu : 1 ≤ s.totalOnlineCpus) (interval : Interval) (delta : Int) :
    Occupancy.Tabulates ((interval.layout delta s).selected s.totalOnlineCpus)
      (interval.layout delta s).newCpuState (· < s.totalStates)
      (fun state => ((commitLayout interval delta s).states state).cpumask)
      (fun state => ((commitLayout interval delta s).states state).cpus) := by
  have flags := (filled_filling inStates interval delta).flags
  have provided := newStates_loop_tabulates s.totalOnlineCpus s.totalStates flags
  have counted := providedCpus_eq s.totalOnlineCpus flags
  have table : Occupancy.Tabulates ((interval.layout delta s).selected s.totalOnlineCpus)
      (interval.layout delta s).newCpuState (· < s.totalStates)
      (fun state => (newStates s.totalOnlineCpus (interval.filled delta s) state).cpumask)
      (fun state => (newStates s.totalOnlineCpus (interval.filled delta s) state).cpus) := by
    unfold newStates
    rcases layout_cases inStates interval delta with ⟨same, some⟩ | ⟨none, selected, placed⟩
    · rw [same, if_neg]
      · exact provided
      · rw [counted]
        exact fun zero => some (Finset.card_eq_zero.mp zero)
    · rw [selected_update someCpu selected, placed, if_pos (by rw [counted, none]; rfl)]
      rw [none] at provided ⊢
      exact tabulates_enterCpu provided (Finset.notMem_empty 0) 0
  have written : ∀ state, state < s.totalStates →
      (commitLayout interval delta s).states state = StateDesc.demandClear
        { s.states state with
          cpumask := (newStates s.totalOnlineCpus (interval.filled delta s) state).cpumask
          cpus := (newStates s.totalOnlineCpus (interval.filled delta s) state).cpus } :=
    fun _ inRange => if_pos inRange
  refine ⟨fun state inRange => ?_, fun state inRange => ?_⟩
  · rw [written state inRange]
    exact table.set_eq state inRange
  · show ((commitLayout interval delta s).states state).cpus =
      (((commitLayout interval delta s).states state).cpumask.card : Int)
    rw [written state inRange]
    exact table.count_eq state inRange

/-! ### When the table is right -/

/-- The table describes the awake cpus: each is in the mask of its state only, and the counts are
the sizes of the masks. -/
structure AwakeTable (s : Scheduler) : Prop where
  mask : ∀ state, state < s.totalStates → (s.states state).cpumask =
    (Finset.range s.totalOnlineCpus).filter fun cpu =>
      (s.info cpu).awake = 1 ∧ s.curCpuState cpu = state
  cpus : ∀ state, state < s.totalStates →
    (s.states state).cpus = ((s.states state).cpumask.card : Int)
  disjoint : ∀ first second, first < s.totalStates → second < s.totalStates → first ≠ second →
    Disjoint (s.states first).cpumask (s.states second).cpumask
  asleep : ∀ cpu, cpu < s.totalOnlineCpus → (s.info cpu).awake ≠ 1 →
    ∀ state, state < s.totalStates → cpu ∉ (s.states state).cpumask

/-- The interval takes neither branch that asks for a frequency change: its layout keeps every
selected cpu in its state, and the awake cpus it does not select are in state `0`. -/
structure Interval.Still (interval : Interval) (delta : Int) (s : Scheduler) : Prop where
  kept : ∀ cpu, cpu < s.totalOnlineCpus → (interval.layout delta s).selectedCpus cpu = 0 →
    (interval.layout delta s).newCpuState cpu = s.curCpuState cpu
  retired : ∀ cpu, cpu < s.totalOnlineCpus → (interval.layout delta s).selectedCpus cpu ≠ 0 →
    (interval.woken s cpu).awake ≠ 0 → s.curCpuState cpu = 0

/-- Either the layout keeps every selected cpu in its state, or some state gains a selected cpu
and loses none. -/
theorem layout_oneWay {s : Scheduler} (inStates : InStates s) (interval : Interval) (delta : Int) :
    (∀ cpu, cpu < s.totalOnlineCpus → (interval.layout delta s).selectedCpus cpu = 0 →
      (interval.layout delta s).newCpuState cpu = s.curCpuState cpu) ∨
    ∃ state,
      (∃ cpu, cpu < s.totalOnlineCpus ∧ (interval.layout delta s).selectedCpus cpu = 0 ∧
        (interval.layout delta s).newCpuState cpu = state ∧ s.curCpuState cpu ≠ state) ∧
      ∀ cpu, cpu < s.totalOnlineCpus → (interval.layout delta s).selectedCpus cpu = 0 →
        s.curCpuState cpu = state → (interval.layout delta s).newCpuState cpu = state := by
  have filling := filled_filling inStates interval delta
  rcases layout_cases inStates interval delta with ⟨same, _⟩ | ⟨none, selected, placed⟩
  · rw [same, filling.newCpuState]
    rcases auctionRounds_oneWay (interval.auctionInput s) delta (interval.demand s)
      (transitionDirection_known ..) inStates (interval.auctionInput s).load with
      unmoved | ⟨state, gains⟩
    · exact Or.inl fun cpu online _ => unmoved cpu online
    · refine Or.inr ⟨state, ?_, fun cpu online _ here => (gains.stays cpu online here).2⟩
      obtain ⟨cpu, online, taken, moves⟩ := gains.comes
      exact ⟨cpu, online, filling.kept cpu taken, moves⟩
  · have only : ∀ cpu, cpu < s.totalOnlineCpus →
        (interval.layout delta s).selectedCpus cpu = 0 → cpu = 0 := by
      intro cpu online taken
      by_contra other
      rw [selected, Function.update_of_ne other] at taken
      have member : cpu ∈ (interval.filled delta s).selected s.totalOnlineCpus :=
        mem_selected.mpr ⟨online, taken⟩
      rw [none] at member
      exact Finset.notMem_empty cpu member
    have first : (interval.layout delta s).newCpuState 0 = 0 := by
      rw [placed, Function.update_self]
    by_cases lowest : s.curCpuState 0 = 0
    · refine Or.inl fun cpu online taken => ?_
      rw [only cpu online taken, first, lowest]
    · by_cases someCpu : 0 < s.totalOnlineCpus
      · refine Or.inr ⟨0, ⟨0, someCpu, by rw [selected, Function.update_self], first, lowest⟩, ?_⟩
        intro cpu online taken _
        rw [only cpu online taken, first]
      · exact Or.inl fun cpu online _ => absurd (Nat.zero_lt_of_lt online) someCpu

/-- A request is for another state than the cpu's. -/
theorem granted_moves (driver : Nat → Driver) (layout : Auction) (m : Machine) (cpu : Nat) :
    granted driver layout m cpu ≠ some (m.scheduler.curCpuState cpu) := by
  intro grant
  have requested := Option.eq_some_of_filter_eq_some grant
  unfold settleRequest at requested
  split_ifs at requested with _ moves _ raised
  · exact moves (Option.some.inj requested)
  · exact raised (Option.some.inj requested).symm

theorem greedyDelta_states {m : Machine} (callsBack : CallsBack m) (interval : Interval)
    (delta : Int) :
    (greedyDelta delta interval m).scheduler.states =
      settledStates
        (granted interval.driver (interval.layout delta m.scheduler) (m.commit interval delta))
        m.scheduler.curCpuState m.scheduler.totalOnlineCpus
        (commitLayout interval delta m.scheduler).states := by
  obtain ⟨log, final⟩ := greedyDelta_eq delta interval m
  rw [final]
  exact (settled_settling callsBack interval delta).table

/-- The states that hold a cpu after an interval. -/
theorem mem_greedyDelta {m : Machine} (callsBack : CallsBack m) (interval : Interval)
    (delta : Int) {cpu : Nat} (online : cpu < m.scheduler.totalOnlineCpus) (state : Nat) :
    cpu ∈ ((greedyDelta delta interval m).scheduler.states state).cpumask ↔
      cpu ∈ (moveIf cpu (m.scheduler.curCpuState cpu)
        (granted interval.driver (interval.layout delta m.scheduler) (m.commit interval delta) cpu)
        (commitLayout interval delta m.scheduler).states state).cpumask := by
  have moves : ∀ other, granted interval.driver (interval.layout delta m.scheduler)
      (m.commit interval delta) other ≠ some (m.scheduler.curCpuState other) :=
    granted_moves interval.driver _ (m.commit interval delta)
  rw [greedyDelta_states callsBack, mem_settledStates moves, if_pos online]

theorem greedyDelta_cpus {m : Machine} (callsBack : CallsBack m) (interval : Interval)
    (delta : Int) (state : Nat) :
    ((greedyDelta delta interval m).scheduler.states state).cpus =
      ((commitLayout interval delta m.scheduler).states state).cpus +
        ∑ cpu ∈ Finset.range m.scheduler.totalOnlineCpus,
          flow (granted interval.driver (interval.layout delta m.scheduler)
            (m.commit interval delta)) m.scheduler.curCpuState state cpu := by
  rw [greedyDelta_states callsBack]
  exact cpus_settledStates (granted_moves interval.driver _ (m.commit interval delta)) _ _ _

/-- The commit puts a cpu in the state the layout selects it for. -/
theorem mem_commit {s : Scheduler} (inStates : InStates s) (interval : Interval) (delta : Int)
    {cpu state : Nat} (online : cpu < s.totalOnlineCpus) (inRange : state < s.totalStates) :
    cpu ∈ ((commitLayout interval delta s).states state).cpumask ↔
      (interval.layout delta s).selectedCpus cpu = 0 ∧
        (interval.layout delta s).newCpuState cpu = state := by
  have table := commit_tabulates inStates (Nat.one_le_of_lt online) interval delta
  rw [table.set_eq state inRange, Occupancy.mem_fiber, mem_selected]
  exact ⟨fun held => ⟨held.1.2, held.2⟩, fun held => ⟨⟨online, held.1⟩, held.2⟩⟩

/-- No mask ever holds a cpu that is not online. -/
theorem online_of_mem_greedyDelta {m : Machine} (callsBack : CallsBack m)
    (inStates : InStates m.scheduler) (someCpu : 1 ≤ m.scheduler.totalOnlineCpus)
    (interval : Interval) (delta : Int) {cpu state : Nat}
    (inRange : state < m.scheduler.totalStates)
    (member : cpu ∈ ((greedyDelta delta interval m).scheduler.states state).cpumask) :
    cpu < m.scheduler.totalOnlineCpus := by
  by_contra offline
  have moves : ∀ other, granted interval.driver (interval.layout delta m.scheduler)
      (m.commit interval delta) other ≠ some (m.scheduler.curCpuState other) :=
    granted_moves interval.driver _ (m.commit interval delta)
  have table := commit_tabulates inStates someCpu interval delta
  rw [greedyDelta_states callsBack, mem_settledStates moves, if_neg offline,
    table.set_eq state inRange, Occupancy.mem_fiber, mem_selected] at member
  exact offline member.1.1

/-- A selected cpu whose request is granted is in its new state's mask only. -/
theorem mem_greedyDelta_of_selected {m : Machine} (callsBack : CallsBack m)
    (inStates : InStates m.scheduler) {interval : Interval} {delta : Int} {cpu state : Nat}
    (online : cpu < m.scheduler.totalOnlineCpus) (inRange : state < m.scheduler.totalStates)
    (taken : (interval.layout delta m.scheduler).selectedCpus cpu = 0)
    (grant : granted interval.driver (interval.layout delta m.scheduler) (m.commit interval delta)
      cpu = settleRequest (interval.layout delta m.scheduler) (m.commit interval delta).scheduler
        cpu) :
    cpu ∈ ((greedyDelta delta interval m).scheduler.states state).cpumask ↔
      state = (interval.layout delta m.scheduler).newCpuState cpu := by
  have committed := mem_commit inStates interval delta online inRange
  have place : (m.commit interval delta).scheduler.curCpuState cpu = m.scheduler.curCpuState cpu :=
    rfl
  rw [mem_greedyDelta callsBack interval delta online, grant, settleRequest, if_pos taken, place]
  by_cases moves : (interval.layout delta m.scheduler).newCpuState cpu ≠ m.scheduler.curCpuState cpu
  · rw [if_pos moves]
    refine (mem_moveCpu_self moves.symm state).trans ?_
    rw [committed]
    exact ⟨fun held => held.elim id fun held => held.2.2.symm, Or.inl⟩
  · rw [if_neg moves]
    refine committed.trans ?_
    exact ⟨fun held => held.2.symm, fun here => ⟨taken, here.symm⟩⟩

/-- A cpu that is not selected is in a mask only when it is retired from a state that is not the
lowest. -/
theorem mem_greedyDelta_of_waiting {m : Machine} (callsBack : CallsBack m)
    (inStates : InStates m.scheduler) {interval : Interval} {delta : Int} {cpu state : Nat}
    (online : cpu < m.scheduler.totalOnlineCpus) (inRange : state < m.scheduler.totalStates)
    (waiting : (interval.layout delta m.scheduler).selectedCpus cpu ≠ 0)
    (grant : granted interval.driver (interval.layout delta m.scheduler) (m.commit interval delta)
      cpu = settleRequest (interval.layout delta m.scheduler) (m.commit interval delta).scheduler
        cpu) :
    cpu ∈ ((greedyDelta delta interval m).scheduler.states state).cpumask ↔
      state = 0 ∧ (interval.woken m.scheduler cpu).awake ≠ 0 ∧ m.scheduler.curCpuState cpu ≠ 0 := by
  have committed := mem_commit inStates interval delta online inRange
  have place : (m.commit interval delta).scheduler.curCpuState cpu = m.scheduler.curCpuState cpu :=
    rfl
  have record : (m.commit interval delta).scheduler.info cpu = interval.woken m.scheduler cpu := rfl
  rw [mem_greedyDelta callsBack interval delta online, grant, settleRequest, if_neg waiting, place,
    record]
  by_cases asleep : (interval.woken m.scheduler cpu).awake = 0
  · rw [if_pos asleep]
    refine committed.trans ?_
    exact ⟨fun held => absurd held.1 waiting, fun held => absurd asleep held.2.1⟩
  · rw [if_neg asleep]
    by_cases raised : m.scheduler.curCpuState cpu ≠ 0
    · rw [if_pos raised]
      refine (mem_moveCpu_self raised state).trans ?_
      rw [committed]
      exact ⟨fun held => ⟨held.resolve_right fun held => waiting held.2.1, asleep, raised⟩,
        fun held => Or.inl held.1⟩
    · rw [if_neg raised]
      refine committed.trans ?_
      exact ⟨fun held => absurd held.1 waiting, fun held => absurd held.2.2 raised⟩

section AwakeTable

variable {m : Machine} {interval : Interval} {delta : Int}

/-- Unless a cpu is retired from a state that is not the lowest, the masks are the layout's. -/
theorem greedyDelta_cpumask (callsBack : CallsBack m) (inStates : InStates m.scheduler)
    (someCpu : 1 ≤ m.scheduler.totalOnlineCpus) (grants : interval.Granted delta m)
    (retired : ∀ cpu, cpu < m.scheduler.totalOnlineCpus →
      (interval.layout delta m.scheduler).selectedCpus cpu ≠ 0 →
      (interval.woken m.scheduler cpu).awake ≠ 0 → m.scheduler.curCpuState cpu = 0)
    {state : Nat} (inRange : state < m.scheduler.totalStates) :
    ((greedyDelta delta interval m).scheduler.states state).cpumask =
      ((commitLayout interval delta m.scheduler).states state).cpumask := by
  ext cpu
  by_cases online : cpu < m.scheduler.totalOnlineCpus
  · rw [mem_commit inStates interval delta online inRange]
    by_cases taken : (interval.layout delta m.scheduler).selectedCpus cpu = 0
    · rw [mem_greedyDelta_of_selected callsBack inStates online inRange taken (grants.eq online)]
      exact ⟨fun here => ⟨taken, here.symm⟩, fun held => held.2.symm⟩
    · rw [mem_greedyDelta_of_waiting callsBack inStates online inRange taken (grants.eq online)]
      refine ⟨fun held => ?_, fun held => absurd held.1 taken⟩
      exact absurd (retired cpu online taken held.2.1) held.2.2
  · have table := commit_tabulates inStates someCpu interval delta
    refine ⟨fun member => ?_, fun member => ?_⟩
    · exact absurd (online_of_mem_greedyDelta callsBack inStates someCpu interval delta inRange
        member) online
    · rw [table.set_eq state inRange, Occupancy.mem_fiber, mem_selected] at member
      exact absurd member.1.1 online

/-- An interval that asks for nothing leaves the right table. -/
theorem Interval.Still.awakeTable (still : interval.Still delta m.scheduler)
    (callsBack : CallsBack m) (inStates : InStates m.scheduler)
    (someCpu : 1 ≤ m.scheduler.totalOnlineCpus) (grants : interval.Granted delta m) :
    AwakeTable (greedyDelta delta interval m).scheduler := by
  have table := commit_tabulates inStates someCpu interval delta
  have silent : ∀ cpu, cpu < m.scheduler.totalOnlineCpus →
      granted interval.driver (interval.layout delta m.scheduler) (m.commit interval delta) cpu =
        none := by
    intro cpu online
    rw [grants.eq online, settleRequest]
    split_ifs with taken moves asleep raised
    · exact absurd (still.kept cpu online taken) moves
    · rfl
    · rfl
    · exact absurd (still.retired cpu online taken asleep) raised
    · rfl
  have place : ∀ cpu, cpu < m.scheduler.totalOnlineCpus →
      (greedyDelta delta interval m).scheduler.curCpuState cpu = m.scheduler.curCpuState cpu := by
    intro cpu online
    rw [greedyDelta_curCpuState callsBack interval delta online, silent cpu online]
    rfl
  have mask : ∀ state, state < m.scheduler.totalStates →
      ((greedyDelta delta interval m).scheduler.states state).cpumask =
        (Finset.range m.scheduler.totalOnlineCpus).filter fun cpu =>
          ((greedyDelta delta interval m).scheduler.info cpu).awake = 1 ∧
            (greedyDelta delta interval m).scheduler.curCpuState cpu = state := by
    intro state inRange
    rw [greedyDelta_cpumask callsBack inStates someCpu grants still.retired inRange,
      table.set_eq state inRange]
    ext cpu
    rw [Occupancy.mem_fiber, mem_selected, Finset.mem_filter, Finset.mem_range, and_assoc]
    refine and_congr_right fun online => ?_
    rw [greedyDelta_info callsBack interval delta online, settleInfo_awake, place cpu online]
    exact and_congr_right fun taken => by rw [still.kept cpu online taken]
  refine ⟨?_, ?_, ?_, ?_⟩
  · rw [greedyDelta_totalStates callsBack, greedyDelta_totalOnlineCpus callsBack]
    exact mask
  · rw [greedyDelta_totalStates callsBack]
    intro state inRange
    have nothing : ∑ cpu ∈ Finset.range m.scheduler.totalOnlineCpus,
        flow (granted interval.driver (interval.layout delta m.scheduler)
          (m.commit interval delta)) m.scheduler.curCpuState state cpu = 0 := by
      refine Finset.sum_eq_zero fun cpu member => ?_
      rw [flow, silent cpu (Finset.mem_range.mp member)]
      rfl
    rw [greedyDelta_cpus callsBack, nothing, add_zero, greedyDelta_cpumask callsBack inStates
      someCpu grants still.retired inRange]
    exact table.count_eq state inRange
  · rw [greedyDelta_totalStates callsBack]
    intro first second firstState secondState different
    rw [mask first firstState, mask second secondState, Finset.disjoint_filter]
    exact fun cpu _ here there => different (here.2.symm.trans there.2)
  · rw [greedyDelta_totalStates callsBack]
    intro cpu _ asleep state inRange member
    rw [mask state inRange, Finset.mem_filter] at member
    exact asleep member.2.1

/-- A table that is right comes from an interval that asked for nothing. -/
theorem AwakeTable.still (right : AwakeTable (greedyDelta delta interval m).scheduler)
    (callsBack : CallsBack m) (inStates : InStates m.scheduler)
    (someCpu : 1 ≤ m.scheduler.totalOnlineCpus) (grants : interval.Granted delta m) :
    interval.Still delta m.scheduler := by
  have retired : ∀ cpu, cpu < m.scheduler.totalOnlineCpus →
      (interval.layout delta m.scheduler).selectedCpus cpu ≠ 0 →
      (interval.woken m.scheduler cpu).awake ≠ 0 → m.scheduler.curCpuState cpu = 0 := by
    intro cpu online waiting awake
    by_contra raised
    have inRange : 0 < m.scheduler.totalStates := Nat.zero_lt_of_lt (inStates cpu online)
    have member := (mem_greedyDelta_of_waiting callsBack inStates online inRange waiting
      (grants.eq online)).mpr ⟨rfl, awake, raised⟩
    refine right.asleep cpu ?_ ?_ 0 ?_ member
    · rw [greedyDelta_totalOnlineCpus callsBack]
      exact online
    · rw [greedyDelta_info callsBack interval delta online]
      exact fun awake => waiting ((settleInfo_awake ..).mp awake)
    · rw [greedyDelta_totalStates callsBack]
      exact inRange
  refine ⟨?_, retired⟩
  rcases layout_oneWay inStates interval delta with kept | ⟨state, comes, stays⟩
  · exact kept
  -- The state that only gains is counted once too often for each cpu it gains.
  obtain ⟨comer, comerOnline, comerTaken, comerPlaced, comerAway⟩ := comes
  have inRange : state < m.scheduler.totalStates := by
    rw [← comerPlaced]
    exact layout_inStates inStates interval delta comerOnline
  have table := commit_tabulates inStates someCpu interval delta
  have balanced : ∑ cpu ∈ Finset.range m.scheduler.totalOnlineCpus,
      flow (granted interval.driver (interval.layout delta m.scheduler) (m.commit interval delta))
        m.scheduler.curCpuState state cpu = 0 := by
    have counted := right.cpus state (by rw [greedyDelta_totalStates callsBack]; exact inRange)
    rw [greedyDelta_cpus callsBack, greedyDelta_cpumask callsBack inStates someCpu grants retired
      inRange, ← table.count_eq state inRange] at counted
    exact left_eq_add.mp counted.symm
  have noneLeaves : ∀ cpu, cpu < m.scheduler.totalOnlineCpus →
      ¬ ((granted interval.driver (interval.layout delta m.scheduler) (m.commit interval delta)
        cpu).isSome ∧ m.scheduler.curCpuState cpu = state) := by
    rintro cpu online ⟨some, here⟩
    rw [grants.eq online, settleRequest] at some
    split_ifs at some with taken moves asleep raised
    · exact moves ((stays cpu online taken here).trans here.symm)
    · cases some
    · cases some
    · exact raised (retired cpu online taken asleep)
    · cases some
  have positive : 0 < ∑ cpu ∈ Finset.range m.scheduler.totalOnlineCpus,
      flow (granted interval.driver (interval.layout delta m.scheduler) (m.commit interval delta))
        m.scheduler.curCpuState state cpu := by
    refine Finset.sum_pos' (fun cpu member => ?_) ⟨comer, Finset.mem_range.mpr comerOnline, ?_⟩
    · rw [flow, if_neg (noneLeaves cpu (Finset.mem_range.mp member)), sub_zero]
      split <;> decide
    · have request : settleRequest (interval.layout delta m.scheduler)
          (m.commit interval delta).scheduler comer = some state := by
        rw [settleRequest, if_pos comerTaken, comerPlaced]
        exact if_pos (Ne.symm comerAway)
      rw [flow, if_neg (noneLeaves comer comerOnline), sub_zero, grants.eq comerOnline, request,
        if_pos rfl]
      decide
  rw [balanced] at positive
  exact absurd positive (lt_irrefl 0)

end AwakeTable

/-- With every request granted, an interval leaves a table that describes the awake cpus exactly
when it makes no request. -/
theorem greedyDelta_awakeTable_iff {m : Machine} (registered : Registered m)
    (inStates : InStates m.scheduler) (someCpu : 1 ≤ m.scheduler.totalOnlineCpus) (delta : Int)
    (interval : Interval) (grants : interval.Granted delta m) :
    AwakeTable (greedyDelta delta interval m).scheduler ↔ interval.Still delta m.scheduler :=
  ⟨fun right => right.still registered.callsBack inStates someCpu grants,
    fun still => still.awakeTable registered.callsBack inStates someCpu grants⟩

/-- Two cpus in states `1, 0` that both have work and no hints are kept as they are. -/
theorem greedyDelta_awakeTable_iff_two_cpus :
    AwakeTable (greedyDelta 1 ⟨fun _ => 1, fun _ _ => 7, fun _ => acceptingDriver⟩
      ((runningMachine 2 2 fun cpu => 1 - cpu).mapScheduler initMutator)).scheduler :=
  (greedyDelta_awakeTable_iff
    ((runningMachine_registered 2 2 fun cpu => 1 - cpu).mapScheduler initMutator) (by decide)
    (by decide) 1 _ (by decide)).mpr ⟨by decide, by decide⟩

/-- One awake cpu in state `0` of two, one task, and four hints for state `1`: the cpu is moved,
and state `1` counts it twice. -/
theorem greedyDelta_counts_twice :
    let m := greedyStep ((runningMachine 1 2 fun _ => 0).mapScheduler initMutator)
      (.hints fun state => 4 * state)
    let interval : Interval := ⟨fun _ => 1, fun _ _ => 7, fun _ => acceptingDriver⟩
    Registered m ∧ InStates m.scheduler ∧ 1 ≤ m.scheduler.totalOnlineCpus ∧
      interval.Granted 1 m ∧ ¬ AwakeTable (greedyDelta 1 interval m).scheduler := by
  refine ⟨((runningMachine_registered 1 2 fun _ => 0).mapScheduler initMutator).mapScheduler _,
    by decide, by decide, by decide, ?_⟩
  intro right
  exact absurd (right.cpus 1 (by decide)) (by decide)

/-! ### One cpu's view along every run -/

/-- The interval's requests for the cpus it selects are granted; those for the cpus it retires
may be refused. -/
def GreedyEvent.Obeyed (m : Machine) : GreedyEvent → Prop
  | .hints _ => True
  | .mutate delta interval => ∀ cpu, cpu < m.scheduler.totalOnlineCpus →
      (interval.layout delta m.scheduler).selectedCpus cpu = 0 →
      (interval.layout delta m.scheduler).newCpuState cpu ≠ m.scheduler.curCpuState cpu →
      m.Accepts (interval.driver cpu) cpu ((interval.layout delta m.scheduler).newCpuState cpu)

instance (m : Machine) : ∀ event : GreedyEvent, Decidable (event.Obeyed m)
  | .hints _ => isTrue trivial
  | .mutate _ _ =>
      inferInstanceAs (Decidable (∀ cpu, cpu < m.scheduler.totalOnlineCpus → _))

/-- The scheduler's view of its cpus: the recorded state is the one last programmed, and an awake
cpu is in the mask of that state and of no other. -/
structure Viewed (cpus : Nat) (m : Machine) : Prop where
  programmed : ∀ cpu, cpu < cpus →
    m.scheduler.curCpuState cpu = (m.programmed cpu).getD 0
  inStates : ∀ cpu, cpu < cpus → m.scheduler.curCpuState cpu < m.scheduler.totalStates
  mask : ∀ cpu, cpu < cpus → (m.scheduler.info cpu).awake = 1 →
    ∀ state, state < m.scheduler.totalStates →
      (cpu ∈ (m.scheduler.states state).cpumask ↔ state = m.scheduler.curCpuState cpu)

theorem greedyDelta_programmed {m : Machine} (callsBack : CallsBack m) (interval : Interval)
    (delta : Int) {cpu : Nat} (online : cpu < m.scheduler.totalOnlineCpus) :
    (greedyDelta delta interval m).programmed cpu =
      (granted interval.driver (interval.layout delta m.scheduler) (m.commit interval delta)
        cpu).or (m.programmed cpu) := by
  obtain ⟨log, final⟩ := greedyDelta_eq delta interval m
  rw [final]
  show (m.settled interval delta).programmed cpu = _
  rw [(settled_settling callsBack interval delta).programmed]
  cases granted interval.driver (interval.layout delta m.scheduler) (m.commit interval delta) cpu
    with
  | none => exact if_neg fun held => nomatch held.2
  | some state => exact if_pos ⟨online, rfl⟩

/-- An interval whose requests for the selected cpus are granted keeps the view. -/
theorem Viewed.greedyDelta {m : Machine} (viewed : Viewed m.scheduler.totalOnlineCpus m)
    (callsBack : CallsBack m) {delta : Int} {interval : Interval}
    (obeyed : (GreedyEvent.mutate delta interval).Obeyed m) :
    Viewed m.scheduler.totalOnlineCpus (Seeker.greedyDelta delta interval m) := by
  have inStates : InStates m.scheduler := viewed.inStates
  refine ⟨?_, ?_, ?_⟩
  · intro cpu online
    rw [greedyDelta_curCpuState callsBack interval delta online,
      greedyDelta_programmed callsBack interval delta online]
    cases granted interval.driver (interval.layout delta m.scheduler) (m.commit interval delta) cpu
      with
    | none => exact viewed.programmed cpu online
    | some state => rfl
  · intro cpu online
    refine greedyDelta_inStates callsBack inStates interval delta cpu ?_
    rw [greedyDelta_totalOnlineCpus callsBack]
    exact online
  · intro cpu online awake state inRange
    rw [greedyDelta_totalStates callsBack] at inRange
    rw [greedyDelta_info callsBack interval delta online, settleInfo_awake] at awake
    have place : (m.commit interval delta).scheduler.curCpuState cpu =
        m.scheduler.curCpuState cpu := rfl
    have grant : granted interval.driver (interval.layout delta m.scheduler)
        (m.commit interval delta) cpu =
          settleRequest (interval.layout delta m.scheduler) (m.commit interval delta).scheduler
            cpu := by
      unfold granted
      rw [settleRequest, if_pos awake, place]
      by_cases moves :
          (interval.layout delta m.scheduler).newCpuState cpu ≠ m.scheduler.curCpuState cpu
      · rw [if_pos moves, Option.filter_some, if_pos]
        exact decide_eq_true (obeyed cpu online awake moves)
      · rw [if_neg moves]
        rfl
    have settled : (Seeker.greedyDelta delta interval m).scheduler.curCpuState cpu =
        (interval.layout delta m.scheduler).newCpuState cpu := by
      rw [greedyDelta_curCpuState callsBack interval delta online, grant, settleRequest,
        if_pos awake, place]
      by_cases moves :
          (interval.layout delta m.scheduler).newCpuState cpu ≠ m.scheduler.curCpuState cpu
      · rw [if_pos moves]
        rfl
      · rw [if_neg moves]
        exact (not_not.mp moves).symm
    rw [settled]
    exact mem_greedyDelta_of_selected callsBack inStates online inRange awake grant

/-- Registering returns `0` only with memory for the new node. -/
theorem memory_of_initCpuStates {m : Machine} (loaded : Loaded m) {driver : Nat → Driver}
    {memory : Bool} (registers : (initCpuStates driver memory m).1 = 0) : memory = true := by
  cases memory with
  | true => rfl
  | false =>
    have callback :
        ((placeCpus driver m.reset).cpufreq.user seekerSchedulerUser).inform.isSome := by
      rw [(placing_placeCpus loaded driver).user]
      exact Option.isSome_iff_exists.mpr ⟨_, loaded.callback⟩
    have failed : (registerScpufreqUser false (some seekerSchedulerUser)
        (placeCpus driver m.reset).cpufreq).1 ≠ 0 := by
      rw [registerScpufreqUser, createUser_of_no_memory callback]
      exact show errUserMemLow ≠ 0 by decide
    have returned : (initCpuStates driver false m).1 = -1 := if_pos failed
    rw [returned] at registers
    cases registers

/-- Initialisation starts the view, if the changes to states above the lowest go through. -/
theorem Viewed.initCpuStates {m : Machine} (loaded : Loaded m) (driver : Nat → Driver)
    (memory : Bool) (unprogrammed : ∀ cpu, m.programmed cpu = none)
    (someState : 1 ≤ (countStates m).totalStates)
    (obeyed : ∀ cpu, cpu < m.scheduler.totalOnlineCpus →
      layoutState m.reset.scheduler cpu ≠ 0 →
      m.Accepts (driver cpu) cpu (layoutState m.reset.scheduler cpu)) :
    Viewed m.scheduler.totalOnlineCpus (Seeker.initCpuStates driver memory m).2 := by
  have initialised := initCpuStates_initialised loaded driver memory
  have tabulated := initialised.tabulated someState
  obtain ⟨placed, placing, scheduler, programmed⟩ := initialised.placing
  have cpus := initialised.totalOnlineCpus
  refine ⟨?_, ?_, ?_⟩
  · intro cpu online
    rw [scheduler, programmed, placing.placed cpu online, placing.programmed cpu]
    by_cases accepted : m.Accepts (driver cpu) cpu (layoutState m.reset.scheduler cpu)
    · rw [if_pos ⟨online, accepted⟩]
      rfl
    · rw [if_neg fun held => accepted held.2,
        show m.reset.programmed cpu = none from unprogrammed cpu]
      by_contra raised
      exact accepted (obeyed cpu online raised)
  · intro cpu online
    exact tabulated.inStates cpu (by rw [cpus]; exact online)
  · intro cpu online _ state inRange
    rw [tabulated.table.set_eq state inRange, Occupancy.mem_fiber, mem_onlineCpus, cpus]
    exact ⟨fun held => held.2.symm, fun here => ⟨online, here.symm⟩⟩

/-- In every run of intervals after an initialisation that registers the scheduler, the recorded
state of a cpu is the one last programmed and the only one whose mask holds the cpu while it is
awake, provided the initial states above the lowest and the new states of selected cpus are
granted. -/
theorem greedy_viewed {m : Machine} (loaded : Loaded m)
    (unprogrammed : ∀ cpu, m.programmed cpu = none) (driver : Nat → Driver) (memory : Bool)
    (registers : (initCpuStates driver memory m).1 = 0)
    (someState : 1 ≤ (countStates m).totalStates)
    (initObeyed : ∀ cpu, cpu < m.scheduler.totalOnlineCpus →
      layoutState m.reset.scheduler cpu ≠ 0 →
      m.Accepts (driver cpu) cpu (layoutState m.reset.scheduler cpu))
    (events : List GreedyEvent)
    (obeyed : Exec.Meets greedyStep GreedyEvent.Obeyed (initCpuStates driver memory m).2 events) :
    Viewed m.scheduler.totalOnlineCpus
      (Exec.run greedyStep (initCpuStates driver memory m).2 events) := by
  have initialised := initCpuStates_initialised loaded driver memory
  refine (Exec.run_invariant (fun current : Machine => CallsBack current ∧
    current.scheduler.totalOnlineCpus = m.scheduler.totalOnlineCpus ∧
    Viewed m.scheduler.totalOnlineCpus current) ?_
    ⟨initialised.callsBack (memory_of_initCpuStates loaded registers),
      initialised.totalOnlineCpus,
      Viewed.initCpuStates loaded driver memory unprogrammed someState initObeyed⟩ obeyed).2.2
  rintro current event ⟨callsBack, cpus, viewed⟩ meets
  cases event with
  | hints demand =>
    exact ⟨callsBack, cpus, viewed.programmed, viewed.inStates, viewed.mask⟩
  | mutate delta interval =>
    refine ⟨greedyDelta_callsBack callsBack interval delta,
      (greedyDelta_totalOnlineCpus callsBack interval delta).trans cpus, ?_⟩
    rw [← cpus] at viewed ⊢
    exact viewed.greedyDelta callsBack meets

/-- Two cpus and two states, the second cpu started in state `1`: it is put to sleep, and
refusing its request for state `0` does no harm. -/
theorem greedy_viewed_two_cpus :
    Viewed 2 (Exec.run greedyStep
      (initCpuStates (fun _ => acceptingDriver) true (loadedMachine 2 2 2 [0, 1])).2
      [.mutate 1 ⟨fun cpu => 1 - cpu, fun _ _ => 7, fun _ => refusingDriver⟩]) :=
  greedy_viewed (loadedMachine_loaded 2 2 2 [0, 1]) (fun _ => rfl) (fun _ => acceptingDriver) true
    (by decide) (by decide) (by decide) _ (by decide)

/-- A cpu asked to start in state `1` whose request is refused: state `1` is recorded, and
nothing was programmed. -/
theorem greedy_view_diverges :
    let m := loadedMachine 1 1 2 [1]
    Loaded m ∧ (∀ cpu, m.programmed cpu = none) ∧
      (initCpuStates (fun _ => refusingDriver) true m).1 = 0 ∧
      ¬ Viewed 1 (initCpuStates (fun _ => refusingDriver) true m).2 := by
  refine ⟨loadedMachine_loaded 1 1 2 [1], fun _ => rfl, by decide, fun viewed => ?_⟩
  exact absurd (viewed.programmed 0 (by decide)) (by decide)

end Seeker
