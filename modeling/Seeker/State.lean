/-
This file embeds the part of `state.c` that works on the scheduler's own data: the
demand counters, the log of a cpu's state, the callback that seeker-cpufreq runs
after a frequency change, and the state logger.

The state table is written incrementally: a callback enters the cpu in its new
state and withdraws it from its old one. The file gives the exact effect of one
callback on every descriptor, and proves that the callback maintains the table of
`curCpuState` over the online cpus. A demand counter, an `atomic_t` of the source, is an
`Int` without bounds.
-/
import Seeker.Globals
import Seeker.Library.Occupancy

namespace Seeker

/-! ### Demand -/

/-- Rewrite one descriptor of the state table. -/
def modifyState (state : Nat) (change : StateDesc → StateDesc) (states : Nat → StateDesc) :
    Nat → StateDesc :=
  Function.update states state (change (states state))

@[simp]
theorem modifyState_self (state : Nat) (change : StateDesc → StateDesc)
    (states : Nat → StateDesc) : modifyState state change states state = change (states state) :=
  Function.update_self ..

theorem modifyState_of_ne {state other : Nat} (different : other ≠ state)
    (change : StateDesc → StateDesc) (states : Nat → StateDesc) :
    modifyState state change states other = states other :=
  Function.update_of_ne different ..

/-- `demand_inc`. -/
def demandInc (state : Nat) (s : Scheduler) : Scheduler :=
  { s with states := modifyState state (fun d => { d with demand := d.demand + 1 }) s.states }

/-- `demand_get`. -/
def demandGet (state : Nat) (s : Scheduler) : Int := (s.states state).demand

/-- `demand_clear`, on a descriptor. -/
def StateDesc.demandClear (d : StateDesc) : StateDesc := { d with demand := 0 }

/-! ### The callback and the log of a cpu's state -/

/-- `log_cpu_state`. The elapsed jiffies are charged to the state `curCpuState` holds when the
function runs; nothing is logged when no jiffy has passed. -/
def logCpuState (cpu : Nat) (s : Scheduler) : Scheduler :=
  if s.jiffies = s.currentJiffies cpu then s
  else
    let residency := (s.jiffies - s.currentJiffies cpu) * 1000 % ulongRange / s.hz
    let s := putLog (.state ⟨cpu, s.curCpuState cpu, residency⟩) s
    { s with currentJiffies := Function.update s.currentJiffies cpu s.jiffies }

/-- `cpu_set` on a descriptor's mask. -/
def StateDesc.cpuSet (cpu : Nat) (d : StateDesc) : StateDesc :=
  { d with cpumask := insert cpu d.cpumask }

/-- `cpu_clear` on a descriptor's mask. -/
def StateDesc.cpuClear (cpu : Nat) (d : StateDesc) : StateDesc :=
  { d with cpumask := d.cpumask.erase cpu }

/-- A change of a descriptor's cpu count. -/
def StateDesc.addCpus (change : Int) (d : StateDesc) : StateDesc :=
  { d with cpus := d.cpus + change }

/-- A cpu entered in a state by one `cpu_set` and one increment. -/
def enterCpu (cpu state : Nat) (states : Nat → StateDesc) : Nat → StateDesc :=
  modifyState state (fun d => (d.cpuSet cpu).addCpus 1) states

/-- The writes of `seeker_cpufreq_inform` to the state table. -/
def moveCpu (cpu old state : Nat) (states : Nat → StateDesc) : Nat → StateDesc :=
  modifyState old (.addCpus (-1))
    (modifyState state (.addCpus 1)
      (modifyState old (.cpuClear cpu) (modifyState state (.cpuSet cpu) states)))

/-- `seeker_cpufreq_inform`: `curCpuState` is changed before `log_cpu_state` runs. -/
def seekerCpufreqInform (cpu state : Nat) (s : Scheduler) : Scheduler :=
  let moved :=
    if s.curCpuState cpu ≠ state then
      { s with
        states := moveCpu cpu (s.curCpuState cpu) state s.states
        curCpuState := Function.update s.curCpuState cpu state }
    else s
  let logged := logCpuState cpu moved
  { logged with curCpuState := Function.update logged.curCpuState cpu state }

/-- `state_logger`, without the rescheduling of the work. -/
def stateLogger (s : Scheduler) : Scheduler :=
  Loops.forRange s.totalOnlineCpus logCpuState s

/-! ### What a callback changes -/

/-- Everything but the log and `currentJiffies` is left alone by `logCpuState`. -/
theorem logCpuState_eq (cpu : Nat) (s : Scheduler) :
    ∃ log currentJiffies,
      logCpuState cpu s = { s with log := log, currentJiffies := currentJiffies } := by
  unfold logCpuState
  split
  · exact ⟨s.log, s.currentJiffies, rfl⟩
  · obtain ⟨log, written⟩ := putLog_eq (.state ⟨cpu, s.curCpuState cpu,
      (s.jiffies - s.currentJiffies cpu) * 1000 % ulongRange / s.hz⟩) s
    dsimp only
    rw [written]
    exact ⟨log, _, rfl⟩

/-- A callback touches the log, the clocks, the cpu's own state and, when that changes, the
descriptors. -/
theorem seekerCpufreqInform_eq (cpu state : Nat) (s : Scheduler) :
    ∃ log currentJiffies,
      seekerCpufreqInform cpu state s =
        { s with
          log := log
          currentJiffies := currentJiffies
          curCpuState := Function.update s.curCpuState cpu state
          states := if s.curCpuState cpu ≠ state then
            moveCpu cpu (s.curCpuState cpu) state s.states else s.states } := by
  unfold seekerCpufreqInform
  by_cases change : s.curCpuState cpu ≠ state
  · simp only [if_pos change]
    obtain ⟨log, clocks, logged⟩ := logCpuState_eq cpu
      { s with
        states := moveCpu cpu (s.curCpuState cpu) state s.states
        curCpuState := Function.update s.curCpuState cpu state }
    refine ⟨log, clocks, ?_⟩
    rw [logged]
    simp only [Function.update_idem]
  · simp only [if_neg change]
    obtain ⟨log, clocks, logged⟩ := logCpuState_eq cpu s
    refine ⟨log, clocks, ?_⟩
    rw [logged]

@[simp]
theorem seekerCpufreqInform_curCpuState (cpu state : Nat) (s : Scheduler) :
    (seekerCpufreqInform cpu state s).curCpuState =
      Function.update s.curCpuState cpu state := by
  obtain ⟨_, _, informed⟩ := seekerCpufreqInform_eq cpu state s
  rw [informed]

theorem seekerCpufreqInform_states (cpu state : Nat) (s : Scheduler) :
    (seekerCpufreqInform cpu state s).states =
      if s.curCpuState cpu ≠ state then
        moveCpu cpu (s.curCpuState cpu) state s.states else s.states := by
  obtain ⟨_, _, informed⟩ := seekerCpufreqInform_eq cpu state s
  rw [informed]

@[simp]
theorem seekerCpufreqInform_totalOnlineCpus (cpu state : Nat) (s : Scheduler) :
    (seekerCpufreqInform cpu state s).totalOnlineCpus = s.totalOnlineCpus := by
  obtain ⟨_, _, informed⟩ := seekerCpufreqInform_eq cpu state s
  rw [informed]

@[simp]
theorem seekerCpufreqInform_totalStates (cpu state : Nat) (s : Scheduler) :
    (seekerCpufreqInform cpu state s).totalStates = s.totalStates := by
  obtain ⟨_, _, informed⟩ := seekerCpufreqInform_eq cpu state s
  rw [informed]

@[simp]
theorem seekerCpufreqInform_info (cpu state : Nat) (s : Scheduler) :
    (seekerCpufreqInform cpu state s).info = s.info := by
  obtain ⟨_, _, informed⟩ := seekerCpufreqInform_eq cpu state s
  rw [informed]

section MoveCpu

variable {cpu old state : Nat} {states : Nat → StateDesc}

/-- The new state gains the cpu. -/
theorem moveCpu_target (moved : old ≠ state) :
    moveCpu cpu old state states state =
      { states state with
        cpumask := insert cpu (states state).cpumask
        cpus := (states state).cpus + 1 } := by
  unfold moveCpu
  rw [modifyState_of_ne moved.symm, modifyState_self, modifyState_of_ne moved.symm,
    modifyState_self]
  rfl

/-- The old state loses the cpu. -/
theorem moveCpu_source (moved : old ≠ state) :
    moveCpu cpu old state states old =
      { states old with
        cpumask := (states old).cpumask.erase cpu
        cpus := (states old).cpus - 1 } := by
  unfold moveCpu
  rw [modifyState_self, modifyState_of_ne moved, modifyState_self, modifyState_of_ne moved]
  rfl

theorem moveCpu_other {other : Nat} (notTarget : other ≠ state) (notSource : other ≠ old) :
    moveCpu cpu old state states other = states other := by
  unfold moveCpu
  rw [modifyState_of_ne notSource, modifyState_of_ne notTarget, modifyState_of_ne notSource,
    modifyState_of_ne notTarget]

/-- The moved cpu is in its new state's mask and no longer in its old one's. -/
theorem mem_moveCpu_self (moved : old ≠ state) (other : Nat) :
    cpu ∈ (moveCpu cpu old state states other).cpumask ↔
      other = state ∨ other ≠ old ∧ cpu ∈ (states other).cpumask := by
  by_cases target : other = state
  · rw [target, moveCpu_target moved]
    exact ⟨fun _ => Or.inl rfl, fun _ => Finset.mem_insert_self ..⟩
  · by_cases source : other = old
    · rw [source, moveCpu_source moved]
      exact ⟨fun member => absurd rfl (Finset.ne_of_mem_erase member),
        fun held => held.elim (fun same => absurd same moved) fun held => absurd rfl held.1⟩
    · rw [moveCpu_other target source]
      exact ⟨fun member => Or.inr ⟨source, member⟩, fun held => (held.resolve_left target).2⟩

/-- The other cpus stay in the masks they are in. -/
theorem mem_moveCpu_of_ne (moved : old ≠ state) {bystander : Nat} (different : bystander ≠ cpu)
    (other : Nat) :
    bystander ∈ (moveCpu cpu old state states other).cpumask ↔
      bystander ∈ (states other).cpumask := by
  by_cases target : other = state
  · rw [target, moveCpu_target moved]
    exact Finset.mem_insert.trans ⟨fun held => held.resolve_left different, Or.inr⟩
  · by_cases source : other = old
    · rw [source, moveCpu_source moved]
      exact Finset.mem_erase.trans ⟨And.right, fun member => ⟨different, member⟩⟩
    · rw [moveCpu_other target source]

/-- The counts of the two states change by one. -/
theorem moveCpu_cpus (moved : old ≠ state) (other : Nat) :
    (moveCpu cpu old state states other).cpus = (states other).cpus +
      ((if other = state then 1 else 0) - if other = old then 1 else 0) := by
  by_cases target : other = state
  · rw [target, moveCpu_target moved, if_pos rfl, if_neg moved.symm, sub_zero]
  · by_cases source : other = old
    · rw [source, moveCpu_source moved, if_neg moved, if_pos rfl, zero_sub]
      rfl
    · rw [moveCpu_other target source, if_neg target, if_neg source, sub_zero, add_zero]

end MoveCpu

/-! ### The state table of the online cpus -/

/-- The cpus the scheduler manages. -/
def Scheduler.onlineCpus (s : Scheduler) : Finset Nat := Finset.range s.totalOnlineCpus

@[simp]
theorem mem_onlineCpus {s : Scheduler} {cpu : Nat} :
    cpu ∈ s.onlineCpus ↔ cpu < s.totalOnlineCpus :=
  Finset.mem_range

/-- The masks and the counts of the states tabulate `curCpuState` over the online cpus, and
every online cpu is in one of the states. -/
structure Tabulated (s : Scheduler) : Prop where
  table : Occupancy.Tabulates s.onlineCpus s.curCpuState (· < s.totalStates)
    (fun state => (s.states state).cpumask) (fun state => (s.states state).cpus)
  inStates : ∀ cpu, cpu < s.totalOnlineCpus → s.curCpuState cpu < s.totalStates

/-- Entering a new cpu maintains the table of the placement it is entered in. -/
theorem tabulates_enterCpu {members : Finset Nat} {place : Nat → Nat} {limit : Nat}
    {states : Nat → StateDesc}
    (table : Occupancy.Tabulates members place (· < limit)
      (fun state => (states state).cpumask) (fun state => (states state).cpus))
    {cpu : Nat} (absent : cpu ∉ members) (state : Nat) :
    Occupancy.Tabulates (insert cpu members) (Function.update place cpu state) (· < limit)
      (fun other => (enterCpu cpu state states other).cpumask)
      (fun other => (enterCpu cpu state states other).cpus) := by
  unfold enterCpu
  refine table.enter absent state ?_ ?_ ?_ ?_
  · rw [modifyState_self]
    rfl
  · rw [modifyState_self]
    rfl
  · intro other different
    rw [modifyState_of_ne different]
  · intro other different
    rw [modifyState_of_ne different]

/-- The writes of a callback maintain the table of the placement the callback records. -/
theorem tabulates_moveCpu {members : Finset Nat} {place : Nat → Nat} {limit : Nat}
    {states : Nat → StateDesc}
    (table : Occupancy.Tabulates members place (· < limit)
      (fun state => (states state).cpumask) (fun state => (states state).cpus))
    {cpu state : Nat} (inside : cpu ∈ members) (moved : place cpu ≠ state)
    (placed : place cpu < limit) :
    Occupancy.Tabulates members (Function.update place cpu state) (· < limit)
      (fun other => (moveCpu cpu (place cpu) state states other).cpumask)
      (fun other => (moveCpu cpu (place cpu) state states other).cpus) := by
  refine table.move inside moved placed ?_ ?_ ?_ ?_ ?_ ?_
  · rw [moveCpu_target moved]
  · rw [moveCpu_source moved]
  · rw [moveCpu_target moved]
  · rw [moveCpu_source moved]
  · intro other notTarget notSource
    rw [moveCpu_other notTarget notSource]
  · intro other notTarget notSource
    rw [moveCpu_other notTarget notSource]

/-- A callback for an online cpu maintains the table. -/
theorem Tabulated.seekerCpufreqInform {s : Scheduler} (tabulated : Tabulated s) {cpu state : Nat}
    (online : cpu < s.totalOnlineCpus) (inRange : state < s.totalStates) :
    Tabulated (seekerCpufreqInform cpu state s) := by
  refine ⟨?_, ?_⟩
  · unfold Scheduler.onlineCpus
    rw [seekerCpufreqInform_totalOnlineCpus, seekerCpufreqInform_totalStates,
      seekerCpufreqInform_curCpuState, seekerCpufreqInform_states]
    by_cases moved : s.curCpuState cpu = state
    · rw [if_neg (not_not.mpr moved), ← moved, Function.update_eq_self]
      exact tabulated.table
    · rw [if_pos moved]
      exact tabulates_moveCpu tabulated.table (mem_onlineCpus.mpr online) moved
        (tabulated.inStates cpu online)
  · intro other otherOnline
    rw [seekerCpufreqInform_totalOnlineCpus] at otherOnline
    rw [seekerCpufreqInform_curCpuState, seekerCpufreqInform_totalStates]
    by_cases same : other = cpu
    · rw [same, Function.update_self]
      exact inRange
    · rw [Function.update_of_ne same]
      exact tabulated.inStates other otherOnline

end Seeker
