/-
This file embeds `pds.c`: the mask a task is given when it starts and the mask it is
given from its measured IPC.

Both functions read the state table in a section that is repeated until no callback
has run during it. `readSection` is one pass of that section over the locals it
writes; an evaluation that no callback disturbs makes one pass. `handed` lists what
is handed to `put_work`; nothing in the code reads it.
-/
import Mathlib.Data.Finset.Defs
import Seeker.MapIpc
import Seeker.Migrate
import Seeker.State

namespace Seeker

/-! ### The data -/

/-- The fields of `struct task_struct` that the scheduler reads or writes. `cpustate` is `none`
where it holds `-1`. -/
structure TaskStruct where
  pid : Nat
  comm : String
  cpusAllowed : Cpumask
  seekerScheduled : Int
  fixedState : Int
  cpustate : Option Nat
  interval : Nat
  inst : Nat
  reCy : Nat
  refCy : Nat
  histStep : Int

/-- The scheduler, the tasks by the address of their structure, and the migration pool. -/
structure Pds where
  scheduler : Scheduler
  tasks : Nat → TaskStruct
  size : Nat
  migPool : Nat → MaskWork
  handed : List (Nat × Cpumask)

/-- What a call reads from outside: the cpu it runs on, the number of tasks on each cpu, and the
memory past `min_states`. -/
structure Surroundings where
  thisCpu : Nat
  nrRunning : Nat → Nat
  pastMinStates : Nat → Int

/-- `INST_THRESHOLD`. -/
def instThreshold : Nat := 10000000

/-- `FIXED_STATE_LOW`. -/
def fixedStateLow : Int := 0

/-- `FIXED_STATE_MID`. -/
def fixedStateMid : Int := 1

/-- `FIXED_STATE_HIGH`. -/
def fixedStateHigh : Int := 2

/-- `IPC`, with `div` in 64 bit arithmetic, as it is kept in a `short`. -/
def ipcOf (inst cy : Nat) : Int :=
  let scaled := inst * 8 % ulongRange
  let quotient :=
    if cy ≠ 0 then (scaled * 2 % ulongRange + cy) % ulongRange / (cy * 2 % ulongRange) else 0
  Int.bmod quotient (2 ^ 16)

/-- The value of an `unsigned int` that is assigned the result of a search. -/
def stateGiven (newState : Option Nat) : Nat := newState.getD uintMax

/-- `put_work`. -/
def Pds.putWork (ts : Nat) (mask : Cpumask) (p : Pds) : Pds :=
  { p with
    migPool := Seeker.putWork p.size ts mask p.migPool
    handed := p.handed ++ [(ts, mask)] }

/-- A write to a task. -/
def Pds.setTask (ts : Nat) (task : TaskStruct) (p : Pds) : Pds :=
  { p with tasks := Function.update p.tasks ts task }

/-! ### The evaluation of a task -/

/-- The locals the read section of `put_mask_from_stats` writes, and the task's `hist_step`, which
it writes too. -/
structure Reading where
  newState : Option Nat
  ipc : Int
  state : Nat
  stateReq : Nat
  mask : Cpumask
  histStep : Int

/-- The locals before the first pass. -/
def Reading.start (task : TaskStruct) : Reading :=
  { newState := none, ipc := 0, state := 0, stateReq := 0, mask := ∅, histStep := task.histStep }

/-- The mask of a state the search has found, or what the mask was before. -/
def maskOf (s : Scheduler) (newState : Option Nat) (mask : Cpumask) : Cpumask :=
  match newState with
  | none => mask
  | some state => if state < s.totalStates then (s.states state).cpumask else mask

/-- The request of a task whose state is fixed. -/
def fixedRequest (s : Scheduler) (fixedState : Int) : Option Nat :=
  if fixedState = fixedStateLow then some s.lowState
  else if fixedState = fixedStateMid then some s.midState
  else if fixedState = fixedStateHigh then some s.highState
  else none

/-- One pass of the read section of `put_mask_from_stats`. -/
def readSection (around : Surroundings) (s : Scheduler) (task : TaskStruct) (reading : Reading) :
    Reading :=
  let snapshot := s.snapshot around.nrRunning
  let state := s.curCpuState around.thisCpu
  match fixedRequest s task.fixedState with
  | some stateReq =>
    let newState := searchStateClosest snapshot state stateReq
    { reading with
      state := state
      newState := newState
      stateReq := stateReq
      mask := maskOf s newState reading.mask }
  | none =>
    let ipc := ipcOf task.inst task.reCy
    let evaluation := evaluateIpc snapshot s.schedulingMethod around.pastMinStates ipc state
      reading.histStep reading.stateReq
    { state := state
      ipc := ipc
      newState := evaluation.newState
      stateReq := evaluation.stateReq
      histStep := evaluation.step
      mask := maskOf s evaluation.newState reading.mask }

/-- `put_mask_from_stats` after its read section. -/
def assignMask (around : Surroundings) (ts : Nat) (reading : Reading) (p : Pds) : Pds :=
  let task := p.tasks ts
  let entry : LogEntry := .sch
    { interval := task.interval
      inst := task.inst
      ipc := uint32 reading.ipc
      pid := task.pid
      stateReq := reading.stateReq
      stateGiven := stateGiven reading.newState
      cpu := around.thisCpu
      state := reading.state
      cycles := task.refCy }
  let p : Pds := { p with scheduler := putLog entry (demandInc reading.stateReq p.scheduler) }
  let p := p.setTask ts
    { task with
      interval := p.scheduler.intervalCount
      inst := 0
      refCy := 0
      reCy := 0
      cpustate := reading.newState
      histStep := reading.histStep }
  if reading.mask = ∅ then p
  else if p.scheduler.disableScheduling = false then p.putWork ts reading.mask
  else p

/-- `put_mask_from_stats`. -/
def putMaskFromStats (around : Surroundings) (ts : Nat) (p : Pds) : Pds :=
  if (p.tasks ts).inst < instThreshold then p
  else
    assignMask around ts
      (readSection around p.scheduler (p.tasks ts) (Reading.start (p.tasks ts))) p

/-! ### The first mask of a task -/

/-- What `initial_mask` finds: the state, and the mask, which stays empty where there is none.
`init_cpu_states` has put `base_state` among the states. -/
def initialChoice (around : Surroundings) (s : Scheduler) : Option Nat × Cpumask :=
  let state := searchStateClosest (s.snapshot around.nrRunning) (s.curCpuState around.thisCpu)
    s.baseState.toNat
  (state, maskOf s state ∅)

/-- `initial_mask`. -/
def initialMask (around : Surroundings) (ts : Nat) (p : Pds) : Pds :=
  let s := p.scheduler
  let (state, mask) := initialChoice around s
  let task := { p.tasks ts with histStep := 0 }
  if mask = ∅ then
    (p.setTask ts { task with cpustate := some (s.curCpuState around.thisCpu) }).putWork ts
      s.totalOnlineMask
  else (p.setTask ts { task with cpustate := state }).putWork ts mask

/-! ### What the two functions change -/

section Frames

variable {around : Surroundings} {ts : Nat} {p : Pds} {reading : Reading}

/-- The demand counters are apart from the masks. -/
theorem demandInc_cpumask (state other : Nat) (s : Scheduler) :
    ((demandInc state s).states other).cpumask = (s.states other).cpumask := by
  show ((modifyState state _ s.states) other).cpumask = _
  by_cases same : other = state
  · rw [same, modifyState_self]
  · rw [modifyState_of_ne same]

/-- What happens to the pool and the list of masks in one call: nothing, or one `put_work` of a
mask that is not empty. -/
inductive Hands (ts : Nat) (mask : Cpumask) (p p' : Pds) : Prop
  | nothing (migPool : p'.migPool = p.migPool) (handed : p'.handed = p.handed)
  | work (nonempty : mask ≠ ∅) (migPool : p'.migPool = Seeker.putWork p.size ts mask p.migPool)
      (handed : p'.handed = p.handed ++ [(ts, mask)])

/-- What `put_mask_from_stats` leaves alone after its read section. -/
structure Assigned (p p' : Pds) : Prop where
  size : p'.size = p.size
  totalStates : p'.scheduler.totalStates = p.scheduler.totalStates
  totalOnlineCpus : p'.scheduler.totalOnlineCpus = p.scheduler.totalOnlineCpus
  totalOnlineMask : p'.scheduler.totalOnlineMask = p.scheduler.totalOnlineMask
  curCpuState : p'.scheduler.curCpuState = p.scheduler.curCpuState
  cpumask : ∀ state, (p'.scheduler.states state).cpumask = (p.scheduler.states state).cpumask

theorem Assigned.refl (p : Pds) : Assigned p p := ⟨rfl, rfl, rfl, rfl, rfl, fun _ => rfl⟩

theorem assignMask_spec (around : Surroundings) (ts : Nat) (reading : Reading) (p : Pds) :
    Assigned p (assignMask around ts reading p) ∧
      Hands ts reading.mask p (assignMask around ts reading p) := by
  unfold assignMask
  dsimp only
  generalize LogEntry.sch _ = entry
  obtain ⟨log, logged⟩ := putLog_eq entry (demandInc reading.stateReq p.scheduler)
  rw [logged]
  have kept : ∀ (tasks : Nat → TaskStruct) (migPool : Nat → MaskWork)
      (handed : List (Nat × Cpumask)),
      Assigned p
        { scheduler := { demandInc reading.stateReq p.scheduler with log := log }, tasks := tasks,
          size := p.size, migPool := migPool, handed := handed } :=
    fun _ _ _ => ⟨rfl, rfl, rfl, rfl, rfl, fun other => demandInc_cpumask _ other _⟩
  split
  · exact ⟨kept _ _ _, .nothing rfl rfl⟩
  · rename_i nonempty
    split
    · exact ⟨kept _ _ _, .work nonempty rfl rfl⟩
    · exact ⟨kept _ _ _, .nothing rfl rfl⟩

/-- A mask that is read is the mask of a state, or what it was before. -/
theorem maskOf_mem (s : Scheduler) (newState : Option Nat) (mask : Cpumask) :
    maskOf s newState mask = mask ∨
      ∃ state, state < s.totalStates ∧ maskOf s newState mask = (s.states state).cpumask := by
  unfold maskOf
  split
  · exact Or.inl rfl
  · rename_i state
    split
    · rename_i inRange
      exact Or.inr ⟨state, inRange, rfl⟩
    · exact Or.inl rfl

theorem readSection_mask (around : Surroundings) (s : Scheduler) (task : TaskStruct)
    (reading : Reading) :
    (readSection around s task reading).mask = reading.mask ∨
      ∃ state, state < s.totalStates ∧
        (readSection around s task reading).mask = (s.states state).cpumask := by
  unfold readSection
  dsimp only
  split
  · exact maskOf_mem ..
  · exact maskOf_mem ..

/-- An evaluation hands over nothing or the mask of a state. -/
theorem putMaskFromStats_spec (around : Surroundings) (ts : Nat) (p : Pds) :
    Assigned p (putMaskFromStats around ts p) ∧
      ∃ mask, Hands ts mask p (putMaskFromStats around ts p) ∧
        (mask = ∅ ∨ ∃ state, state < p.scheduler.totalStates ∧
          mask = (p.scheduler.states state).cpumask) := by
  unfold putMaskFromStats
  split
  · exact ⟨Assigned.refl p, ∅, .nothing rfl rfl, Or.inl rfl⟩
  · obtain ⟨assigned, hands⟩ := assignMask_spec around ts
      (readSection around p.scheduler (p.tasks ts) (Reading.start (p.tasks ts))) p
    exact ⟨assigned, _, hands, readSection_mask ..⟩

/-- A new task is handed the mask of a state or, where that is empty, all the online cpus. -/
theorem initialMask_spec (around : Surroundings) (ts : Nat) (p : Pds) :
    Assigned p (initialMask around ts p) ∧
      ∃ mask, (initialMask around ts p).migPool = Seeker.putWork p.size ts mask p.migPool ∧
        (initialMask around ts p).handed = p.handed ++ [(ts, mask)] ∧
        (mask = p.scheduler.totalOnlineMask ∨
          mask ≠ ∅ ∧ ∃ state, state < p.scheduler.totalStates ∧
            mask = (p.scheduler.states state).cpumask) := by
  have chosen : (initialChoice around p.scheduler).2 = ∅ ∨
      ∃ state, state < p.scheduler.totalStates ∧
        (initialChoice around p.scheduler).2 = (p.scheduler.states state).cpumask :=
    maskOf_mem ..
  unfold initialMask
  dsimp only
  split
  · exact ⟨⟨rfl, rfl, rfl, rfl, rfl, fun _ => rfl⟩, _, rfl, rfl, Or.inl rfl⟩
  · rename_i nonempty
    exact ⟨⟨rfl, rfl, rfl, rfl, rfl, fun _ => rfl⟩, _, rfl, rfl,
      Or.inr ⟨nonempty, chosen.resolve_left nonempty⟩⟩

end Frames

end Seeker
