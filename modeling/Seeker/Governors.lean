/-
This file embeds the two load governors, `ondemand` and `conservative`, and proves
that the state table survives everything that happens to a machine they run on.

The cpus are told apart three times over: by `curCpuState`, by the masks of the
states and by their counts. The governors only ask for frequency changes, and the
table is rewritten by the callbacks of those that succeed. A callback maintains the
table, so a governor does, whatever the loads are and whichever requests fail; so
do the callbacks other modules cause, and so does any sequence of all of these.
-/
import Mathlib.Algebra.BigOperators.Ring.Finset
import Seeker.Machine

namespace Seeker

/-! ### The governors -/

/-- `LOAD_0_875`. -/
def load0875 : Nat := 7

/-- The request both governors make of a cpu whose state is not the wanted one. -/
def requestState (driver : Driver) (cpu state : Nat) (m : Machine) : Machine :=
  if m.scheduler.curCpuState cpu ≠ state then setFreq driver cpu state m else m

/-- The state `ondemand` wants. -/
def ondemandState (s : Scheduler) (load : Nat) : Nat :=
  if load > load0875 then s.totalStates - 1 else 0

/-- The state `conservative` wants. -/
def conservativeState (s : Scheduler) (cpu load : Nat) : Nat :=
  if load > load0875 then
    if s.curCpuState cpu = s.totalStates - 1 then s.totalStates - 1 else s.curCpuState cpu + 1
  else if s.curCpuState cpu = 0 then 0 else s.curCpuState cpu - 1

/-- `ondemand`: `load cpu` is what `get_cpu_load` returns and `driver cpu` answers the request
made for the cpu, if any. -/
def ondemand (driver : Nat → Driver) (load : Nat → Nat) (m : Machine) : Machine :=
  Loops.forRange m.scheduler.totalOnlineCpus
    (fun cpu m => requestState (driver cpu) cpu (ondemandState m.scheduler (load cpu)) m) m

/-- `conservative`. -/
def conservative (driver : Nat → Driver) (load : Nat → Nat) (m : Machine) : Machine :=
  Loops.forRange m.scheduler.totalOnlineCpus
    (fun cpu m =>
      requestState (driver cpu) cpu (conservativeState m.scheduler cpu (load cpu)) m) m

/-- `gov_init_freq_info_cpu` and `gov_exit_freq_info_cpu`: the governor is started on a cpu or
stopped there. -/
def setGovernor (cpu : Nat) (policy : Option Policy) (m : Machine) : Machine :=
  { m with
    cpufreq := { m.cpufreq with
      freqInfo := Function.update m.cpufreq.freqInfo cpu
        { m.cpufreq.freqInfo cpu with policy := policy } } }

/-- What happens to a machine run by the load governors. -/
inductive GovernorEvent where
  | inform (cpu state : Nat)
  | ondemand (driver : Nat → Driver) (load : Nat → Nat)
  | conservative (driver : Nat → Driver) (load : Nat → Nat)
  | governor (cpu : Nat) (policy : Option Policy)

/-- One event. -/
def governorStep (m : Machine) : GovernorEvent → Machine
  | .inform cpu state => m.mapScheduler (seekerCpufreqInform cpu state)
  | .ondemand driver load => ondemand driver load m
  | .conservative driver load => conservative driver load m
  | .governor cpu policy => setGovernor cpu policy m

/-- Callbacks are about online cpus and existing states. -/
def GovernorEvent.InRange (m : Machine) : GovernorEvent → Prop
  | .inform cpu state => cpu < m.scheduler.totalOnlineCpus ∧ state < m.scheduler.totalStates
  | _ => True

instance (m : Machine) : ∀ event : GovernorEvent, Decidable (event.InRange m)
  | .inform _ _ => inferInstanceAs (Decidable (_ ∧ _))
  | .ondemand _ _ | .conservative _ _ | .governor _ _ => isTrue trivial

/-! ### The invariant -/

/-- The registry answers, the table is that of `curCpuState`, and the number of cpus and of
states is fixed. -/
structure Governed (cpus states : Nat) (m : Machine) : Prop where
  answers : Answers m
  tabulated : Tabulated m.scheduler
  cpus : m.scheduler.totalOnlineCpus = cpus
  states : m.scheduler.totalStates = states

variable {cpus states : Nat}

theorem Governed.requestState {m : Machine} (governed : Governed cpus states m) (driver : Driver)
    {cpu state : Nat} (online : cpu < cpus) (inRange : state < states) :
    Governed cpus states (requestState driver cpu state m) := by
  unfold Seeker.requestState
  split
  · have answers := governed.answers.setFreq driver cpu state
    rcases setFreq_scheduler governed.answers driver cpu state with informed | alone
    · refine ⟨answers, ?_, ?_, ?_⟩
      · rw [informed]
        exact governed.tabulated.seekerCpufreqInform (by rw [governed.cpus]; exact online)
          (by rw [governed.states]; exact inRange)
      · rw [informed, seekerCpufreqInform_totalOnlineCpus, governed.cpus]
      · rw [informed, seekerCpufreqInform_totalStates, governed.states]
    · refine ⟨answers, ?_, ?_, ?_⟩
      · rw [alone]
        exact governed.tabulated
      · rw [alone, governed.cpus]
      · rw [alone, governed.states]
  · exact governed

theorem ondemandState_lt {s : Scheduler} (someState : 1 ≤ s.totalStates) (load : Nat) :
    ondemandState s load < s.totalStates := by
  unfold ondemandState
  split <;> omega

theorem conservativeState_lt {s : Scheduler} {cpu : Nat}
    (inStates : s.curCpuState cpu < s.totalStates) (load : Nat) :
    conservativeState s cpu load < s.totalStates := by
  unfold conservativeState
  split_ifs <;> omega

/-- A governor asks for one state on each cpu. -/
theorem Governed.requestEach {m : Machine} (governed : Governed cpus states m)
    (driver : Nat → Driver) {state : Machine → Nat → Nat}
    (inRange : ∀ current, Governed cpus states current → ∀ cpu, cpu < cpus →
      state current cpu < states) :
    Governed cpus states
      (Loops.forRange m.scheduler.totalOnlineCpus
        (fun cpu m => Seeker.requestState (driver cpu) cpu (state m cpu) m) m) := by
  refine Loops.forRange_induction (fun _ current => Governed cpus states current)
    governed ?_
  intro cpu online current kept
  rw [governed.cpus] at online
  exact kept.requestState (driver cpu) online (inRange current kept cpu online)

theorem Governed.ondemand {m : Machine} (governed : Governed cpus states m)
    (someState : 1 ≤ states) (driver : Nat → Driver) (load : Nat → Nat) :
    Governed cpus states (ondemand driver load m) := by
  refine governed.requestEach driver fun current kept cpu _ => ?_
  have inRange := ondemandState_lt (by rw [kept.states]; exact someState) (load cpu)
  rwa [kept.states] at inRange

theorem Governed.conservative {m : Machine} (governed : Governed cpus states m)
    (driver : Nat → Driver) (load : Nat → Nat) :
    Governed cpus states (conservative driver load m) := by
  refine governed.requestEach driver fun current kept cpu online => ?_
  have inRange := conservativeState_lt
    (kept.tabulated.inStates cpu (by rw [kept.cpus]; exact online)) (load cpu)
  rwa [kept.states] at inRange

/-- One event keeps the invariant. -/
theorem Governed.step {m : Machine} (governed : Governed cpus states m) (someState : 1 ≤ states)
    {event : GovernorEvent} (inRange : event.InRange m) :
    Governed cpus states (governorStep m event) := by
  cases event with
  | inform cpu state =>
    refine ⟨governed.answers, governed.tabulated.seekerCpufreqInform inRange.1 inRange.2, ?_, ?_⟩
    · exact (seekerCpufreqInform_totalOnlineCpus ..).trans governed.cpus
    · exact (seekerCpufreqInform_totalStates ..).trans governed.states
  | ondemand driver load => exact governed.ondemand someState driver load
  | conservative driver load => exact governed.conservative driver load
  | governor cpu policy =>
    exact ⟨governed.answers, governed.tabulated, governed.cpus, governed.states⟩

/-! ### One conservative interval -/

/-- Two states at most one apart. -/
def Adjacent (first second : Nat) : Prop := first ≤ second + 1 ∧ second ≤ first + 1

theorem conservativeState_adjacent (s : Scheduler) (cpu load : Nat) :
    Adjacent (s.curCpuState cpu) (conservativeState s cpu load) := by
  unfold Adjacent conservativeState
  split_ifs <;> omega

/-- A request changes the state of its own cpu only, to the requested one or not at all. -/
theorem requestState_curCpuState {m : Machine} (answers : Answers m) (driver : Driver)
    (cpu state : Nat) :
    (requestState driver cpu state m).scheduler.curCpuState =
        Function.update m.scheduler.curCpuState cpu state ∨
      (requestState driver cpu state m).scheduler.curCpuState = m.scheduler.curCpuState := by
  unfold requestState
  split
  · rcases setFreq_scheduler answers driver cpu state with informed | alone
    · rw [informed]
      exact Or.inl (seekerCpufreqInform_curCpuState ..)
    · rw [alone]
      exact Or.inr rfl
  · exact Or.inr rfl

theorem Answers.requestState {m : Machine} (answers : Answers m) (driver : Driver)
    (cpu state : Nat) : Answers (requestState driver cpu state m) := by
  unfold Seeker.requestState
  split
  · exact answers.setFreq driver cpu state
  · exact answers

/-- A conservative interval moves each cpu by at most one state. -/
theorem conservative_adjacent {m : Machine} (answers : Answers m) (driver : Nat → Driver)
    (load : Nat → Nat) (cpu : Nat) :
    Adjacent (m.scheduler.curCpuState cpu)
      ((conservative driver load m).scheduler.curCpuState cpu) := by
  suffices moved : Answers (conservative driver load m) ∧
      (∀ other, Adjacent (m.scheduler.curCpuState other)
        ((conservative driver load m).scheduler.curCpuState other)) ∧
      ∀ other, m.scheduler.totalOnlineCpus ≤ other →
        (conservative driver load m).scheduler.curCpuState other =
          m.scheduler.curCpuState other from
    moved.2.1 cpu
  refine Loops.forRange_induction (fun count current => Answers current ∧
    (∀ other, Adjacent (m.scheduler.curCpuState other)
      (current.scheduler.curCpuState other)) ∧
    ∀ other, count ≤ other → current.scheduler.curCpuState other =
      m.scheduler.curCpuState other) ⟨answers, fun _ => ⟨by omega, by omega⟩, fun _ _ => rfl⟩ ?_
  rintro count _ current ⟨kept, adjacent, untouched⟩
  refine ⟨kept.requestState _ _ _, ?_⟩
  rcases requestState_curCpuState kept (driver count) count
    (conservativeState current.scheduler count (load count)) with changed | same
  · rw [changed]
    refine ⟨fun other => ?_, fun other later => ?_⟩
    · by_cases here : other = count
      · rw [here, Function.update_self, ← untouched count le_rfl]
        exact conservativeState_adjacent current.scheduler count (load count)
      · rw [Function.update_of_ne here]
        exact adjacent other
    · rw [Function.update_of_ne (by omega), untouched other (by omega)]
  · rw [same]
    exact ⟨adjacent, fun other later => untouched other (by omega)⟩

/-! ### The partition along every run -/

/-- The masks partition the online cpus by their state, and the counts are their sizes. -/
structure StatePartition (s : Scheduler) : Prop where
  mask : ∀ state, state < s.totalStates → (s.states state).cpumask =
    (Finset.range s.totalOnlineCpus).filter fun cpu => s.curCpuState cpu = state
  cpus : ∀ state, state < s.totalStates →
    (s.states state).cpus = ((s.states state).cpumask.card : Int)
  disjoint : ∀ first second, first < s.totalStates → second < s.totalStates → first ≠ second →
    Disjoint (s.states first).cpumask (s.states second).cpumask
  cover : (Finset.range s.totalStates).biUnion (fun state => (s.states state).cpumask) =
    Finset.range s.totalOnlineCpus
  total : ∑ state ∈ Finset.range s.totalStates, (s.states state).cpus = s.totalOnlineCpus
  current : ∀ cpu, cpu < s.totalOnlineCpus → s.curCpuState cpu < s.totalStates

theorem Tabulated.statePartition {s : Scheduler} (tabulated : Tabulated s) : StatePartition s := by
  have placed : ∀ cpu ∈ s.onlineCpus, s.curCpuState cpu ∈ Finset.range s.totalStates := by
    intro cpu online
    exact Finset.mem_range.mpr (tabulated.inStates cpu (mem_onlineCpus.mp online))
  refine ⟨tabulated.table.set_eq, tabulated.table.count_eq, ?_, ?_, ?_, tabulated.inStates⟩
  · intro first second firstState secondState different
    exact tabulated.table.disjoint firstState secondState different
  · rw [Finset.biUnion_congr rfl fun state inRange =>
      tabulated.table.set_eq state (Finset.mem_range.mp inRange)]
    exact Occupancy.biUnion_fiber placed
  · have sizes : ∀ state ∈ Finset.range s.totalStates, (s.states state).cpus =
        ((Occupancy.fiber s.onlineCpus s.curCpuState state).card : Int) := by
      intro state inRange
      rw [tabulated.table.count_eq state (Finset.mem_range.mp inRange),
        tabulated.table.set_eq state (Finset.mem_range.mp inRange)]
    rw [Finset.sum_congr rfl sizes, ← Nat.cast_sum, Occupancy.sum_card_fiber placed,
      Scheduler.onlineCpus, Finset.card_range]

/-- After initialisation and any sequence of callbacks, governor intervals, and starts and stops
of the frequency governor, the state table partitions the online cpus, and one more
conservative interval moves each cpu by at most one state. -/
theorem governors_statePartition {m : Machine} (loaded : Loaded m) (driver : Nat → Driver)
    (memory : Bool) (someState : 1 ≤ (countStates m).totalStates) (events : List GovernorEvent)
    (inRange : Exec.Meets governorStep GovernorEvent.InRange
      (initCpuStates driver memory m).2 events) :
    StatePartition (Exec.run governorStep (initCpuStates driver memory m).2 events).scheduler ∧
      ∀ driver' load cpu,
        Adjacent
          ((Exec.run governorStep (initCpuStates driver memory m).2 events).scheduler.curCpuState
            cpu)
          ((conservative driver' load
            (Exec.run governorStep (initCpuStates driver memory m).2 events)).scheduler.curCpuState
              cpu) := by
  have initialised := initCpuStates_initialised loaded driver memory
  have kept := Exec.run_invariant
    (Governed m.scheduler.totalOnlineCpus (countStates m).totalStates)
    (fun _ _ governed meets => governed.step someState meets)
    ⟨initialised.answers, initialised.tabulated someState, initialised.totalOnlineCpus,
      initialised.totalStates⟩ inRange
  exact ⟨kept.tabulated.statePartition, conservative_adjacent kept.answers⟩

/-- Two cpus with two states, laid out as `1, 0`: cpu 1 is raised from outside and both cpus are
then left idle for a conservative interval. -/
theorem governors_statePartition_two_cpus :
    StatePartition (Exec.run governorStep
      (initCpuStates (fun _ => acceptingDriver) true (loadedMachine 2 2 2 [1])).2
      [.inform 1 1, .conservative (fun _ => acceptingDriver) fun _ => 0]).scheduler :=
  (governors_statePartition (loadedMachine_loaded 2 2 2 [1]) (fun _ => acceptingDriver) true
    (by decide) [.inform 1 1, .conservative (fun _ => acceptingDriver) fun _ => 0]
    (by decide)).1

end Seeker
