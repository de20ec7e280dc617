/-
This file puts the scheduler and seeker-cpufreq together.

A frequency change that the scheduler asks for re-enters it: seeker-cpufreq calls
back the registered users, and the scheduler is one of them. `setFreq` is that round
trip. The machine also remembers, for each cpu, the index of the last change the
driver accepted; nothing in the code reads it, it is what the scheduler's own view
is measured against.

`initCpuStates` runs before the scheduler registers, so its changes are not called
back, and it writes the state table itself. The file proves what it leaves behind.
-/
import Mathlib.Algebra.Order.Group.Nat
import Seeker.State
import Seeker.Cpufreq
import Seeker.Library.Exec

namespace Seeker

/-! ### The machine -/

/-- The scheduler module, seeker-cpufreq with the scheduler's state as the users' shared state,
and the frequency indices the driver last accepted. -/
structure Machine where
  scheduler : Scheduler
  cpufreq : Cpufreq Scheduler
  programmed : Nat → Option Nat

/-- The address of `seeker_scheduler_user`. -/
def seekerSchedulerUser : Nat := 0

/-- `set_freq`, called by the scheduler, which drops the return code. -/
def setFreq (driver : Driver) (cpu freqInd : Nat) (m : Machine) : Machine :=
  let result := internalSetFreq driver .driverTargetLocking cpu freqInd m.cpufreq m.scheduler
  { scheduler := result.2.2
    cpufreq := result.2.1
    programmed :=
      if result.1 = 0 then Function.update m.programmed cpu (some freqInd) else m.programmed }

/-- The driver, the governor and the tables let the change through. -/
abbrev Machine.Accepts (m : Machine) (driver : Driver) (cpu freqInd : Nat) : Prop :=
  Seeker.Accepts driver .driverTargetLocking cpu freqInd m.cpufreq

/-- The scheduler's structure holds its callback. -/
def Machine.HasCallback (m : Machine) : Prop :=
  (m.cpufreq.user seekerSchedulerUser).inform = some seekerCpufreqInform

/-- The scheduler is registered, and no other user's callback touches it. -/
structure Registered (m : Machine) : Prop where
  callback : m.HasCallback
  only : OnlyUser seekerSchedulerUser m.cpufreq

/-- Telling the users of a change runs the scheduler's callback. -/
def CallsBack (m : Machine) : Prop :=
  ∀ cpu state s, informFreqChange cpu state m.cpufreq s = seekerCpufreqInform cpu state s

/-- Telling the users of a change does not reach the scheduler. -/
def Silent (m : Machine) : Prop :=
  ∀ cpu state s, informFreqChange cpu state m.cpufreq s = s

theorem Registered.callsBack {m : Machine} (registered : Registered m) : CallsBack m := by
  intro cpu state s
  rw [informFreqChange_of_onlyUser registered.only]
  unfold informUser
  rw [registered.callback]

theorem setFreq_scheduler_of_accepts {m : Machine} {driver : Driver} {cpu freqInd : Nat}
    (accepted : m.Accepts driver cpu freqInd) :
    (setFreq driver cpu freqInd m).scheduler =
      informFreqChange cpu freqInd m.cpufreq m.scheduler := by
  unfold setFreq
  rw [internalSetFreq_of_accepts accepted]

theorem setFreq_scheduler_of_not_accepts {m : Machine} {driver : Driver} {cpu freqInd : Nat}
    (refused : ¬ m.Accepts driver cpu freqInd) :
    (setFreq driver cpu freqInd m).scheduler = m.scheduler :=
  (internalSetFreq_of_not_accepts refused m.scheduler).2

theorem setFreq_programmed_of_accepts {m : Machine} {driver : Driver} {cpu freqInd : Nat}
    (accepted : m.Accepts driver cpu freqInd) :
    (setFreq driver cpu freqInd m).programmed =
      Function.update m.programmed cpu (some freqInd) :=
  if_pos (internalSetFreq_eq_zero_iff.mpr accepted)

theorem setFreq_programmed_of_not_accepts {m : Machine} {driver : Driver} {cpu freqInd : Nat}
    (refused : ¬ m.Accepts driver cpu freqInd) :
    (setFreq driver cpu freqInd m).programmed = m.programmed :=
  if_neg fun succeeded => refused (internalSetFreq_eq_zero_iff.mp succeeded)

/-- A change, whatever becomes of it, decides no later change. -/
@[simp]
theorem accepts_setFreq {m : Machine} {driver driver' : Driver} {cpu freqInd other index : Nat} :
    (setFreq driver' other index m).Accepts driver cpu freqInd ↔
      m.Accepts driver cpu freqInd :=
  accepts_internalSetFreq

theorem setFreq_user (driver : Driver) (cpu freqInd : Nat) (m : Machine) :
    (setFreq driver cpu freqInd m).cpufreq.user = m.cpufreq.user := by
  rcases internalSetFreq_cpufreq driver .driverTargetLocking cpu freqInd m.cpufreq m.scheduler
    with same | ⟨_, written⟩
  · exact congrArg Cpufreq.user same
  · exact (congrArg Cpufreq.user written).trans rfl

theorem setFreq_userHead (driver : Driver) (cpu freqInd : Nat) (m : Machine) :
    (setFreq driver cpu freqInd m).cpufreq.userHead = m.cpufreq.userHead := by
  rcases internalSetFreq_cpufreq driver .driverTargetLocking cpu freqInd m.cpufreq m.scheduler
    with same | ⟨_, written⟩
  · exact congrArg Cpufreq.userHead same
  · exact (congrArg Cpufreq.userHead written).trans rfl

/-- The registry either calls the scheduler back or does not reach it. -/
def Answers (m : Machine) : Prop := CallsBack m ∨ Silent m

/-- A change leaves the registry alone, so the users of later changes are the same. -/
theorem setFreq_informFreqChange (driver : Driver) (cpu freqInd other state : Nat) (m : Machine) :
    informFreqChange other state (setFreq driver cpu freqInd m).cpufreq =
      informFreqChange other state m.cpufreq := by
  funext s
  unfold informFreqChange
  rw [setFreq_user, setFreq_userHead]

theorem CallsBack.setFreq {m : Machine} (callsBack : CallsBack m) (driver : Driver)
    (cpu freqInd : Nat) : CallsBack (setFreq driver cpu freqInd m) := by
  intro other state s
  rw [setFreq_informFreqChange]
  exact callsBack other state s

theorem Silent.setFreq {m : Machine} (silent : Silent m) (driver : Driver) (cpu freqInd : Nat) :
    Silent (setFreq driver cpu freqInd m) := by
  intro other state s
  rw [setFreq_informFreqChange]
  exact silent other state s

theorem setFreq_scheduler_of_silent {m : Machine} (silent : Silent m) (driver : Driver)
    (cpu freqInd : Nat) : (setFreq driver cpu freqInd m).scheduler = m.scheduler := by
  by_cases accepted : m.Accepts driver cpu freqInd
  · rw [setFreq_scheduler_of_accepts accepted, silent]
  · exact setFreq_scheduler_of_not_accepts accepted

theorem Answers.setFreq {m : Machine} (answers : Answers m) (driver : Driver)
    (cpu freqInd : Nat) : Answers (setFreq driver cpu freqInd m) :=
  answers.imp (fun callsBack => callsBack.setFreq driver cpu freqInd)
    fun silent => silent.setFreq driver cpu freqInd

/-- A change either is called back or leaves the scheduler alone. -/
theorem setFreq_scheduler {m : Machine} (answers : Answers m) (driver : Driver)
    (cpu freqInd : Nat) :
    (setFreq driver cpu freqInd m).scheduler = seekerCpufreqInform cpu freqInd m.scheduler ∨
      (setFreq driver cpu freqInd m).scheduler = m.scheduler := by
  by_cases accepted : m.Accepts driver cpu freqInd
  · rw [setFreq_scheduler_of_accepts accepted]
    exact answers.imp (fun callsBack => callsBack _ _ _) fun silent => silent _ _ _
  · exact Or.inr (setFreq_scheduler_of_not_accepts accepted)

/-! ### Initialisation -/

/-- A write to the scheduler's globals. -/
def Machine.mapScheduler (change : Scheduler → Scheduler) (m : Machine) : Machine :=
  { m with scheduler := change m.scheduler }

/-- The writes of `init_cpu_states` that give a cpu its first state. -/
def enterState (cpu state : Nat) (s : Scheduler) : Scheduler :=
  { s with
    states := enterCpu cpu state s.states
    curCpuState := Function.update s.curCpuState cpu state }

/-- One turn of the two placement loops of `init_cpu_states`: the change is requested and the
state is recorded, whether or not the change succeeded. -/
def placeCpu (driver : Nat → Driver) (cpu state : Nat) (m : Machine) : Machine :=
  (setFreq (driver cpu) cpu state m).mapScheduler (enterState cpu state)

/-- The number of states of the system: the largest `get_max_states` of an online cpu. -/
def countStates (m : Machine) : Scheduler :=
  Loops.forRange m.scheduler.totalOnlineCpus
    (fun cpu s =>
      let maximum := (m.cpufreq.freqInfo cpu).numStates
      { s with
        maxStatePossible := Function.update s.maxStatePossible cpu maximum
        totalStates := if s.totalStates < maximum then maximum else s.totalStates })
    m.scheduler

/-- The part of `init_cpu_states` before the placement loops. -/
def resetStates (s : Scheduler) : Scheduler :=
  { s with
    currentJiffies := fun cpu =>
      if cpu < s.totalOnlineCpus then s.jiffies else s.currentJiffies cpu
    lowState := 0
    highState := s.totalStates - 1
    midState := s.totalStates / 2
    baseState := bounds s.baseState 0 s.totalStates
    states := fun state =>
      if state < s.totalStates then { state := state, cpumask := ∅, cpus := 0, demand := 0 }
      else s.states state
    initLayout := fun cpu =>
      if s.initLayoutLength = 0 ∧ cpu < s.totalOnlineCpus then 0 else s.initLayout cpu
    initLayoutLength :=
      if s.initLayoutLength = 0 then s.totalOnlineCpus
      else min s.initLayoutLength s.totalOnlineCpus }

/-- The clamping of one requested state. -/
def clampLayout (cpu : Nat) (s : Scheduler) : Scheduler :=
  { s with
    initLayout := Function.update s.initLayout cpu (bounds (s.initLayout cpu) 0 s.totalStates) }

/-- One turn of the loop over the requested layout. -/
def placeLayout (driver : Nat → Driver) (cpu : Nat) (m : Machine) : Machine :=
  let m := m.mapScheduler (clampLayout cpu)
  placeCpu driver cpu (m.scheduler.initLayout cpu).toNat m

/-- The loop over the cpus the requested layout does not reach. -/
def placeRest (driver : Nat → Driver) (m : Machine) : Machine :=
  Loops.forRange (m.scheduler.totalOnlineCpus - m.scheduler.initLayoutLength)
    (fun index => placeCpu driver (m.scheduler.initLayoutLength + index) 0) m

/-- The two placement loops. -/
def placeCpus (driver : Nat → Driver) (m : Machine) : Machine :=
  placeRest driver (Loops.forRange m.scheduler.initLayoutLength (placeLayout driver) m)

/-- `init_cpu_states`. `driver cpu` answers the one request made for a cpu and `memory` says
whether the registration finds memory. -/
def initCpuStates (driver : Nat → Driver) (memory : Bool) (m : Machine) : Int × Machine :=
  let m := placeCpus driver { m with scheduler := resetStates (countStates m) }
  let (failed, cpufreq) := registerScpufreqUser memory (some seekerSchedulerUser) m.cpufreq
  (if failed ≠ 0 then -1 else 0, { m with cpufreq := cpufreq })

theorem Registered.mapScheduler {m : Machine} (registered : Registered m)
    (change : Scheduler → Scheduler) : Registered (m.mapScheduler change) :=
  ⟨registered.callback, registered.only⟩

/-! ### What initialisation leaves behind -/

/-- The module is loaded and not yet registered: its structure holds its callback and no other
user touches it. -/
structure Loaded (m : Machine) : Prop where
  callback : m.HasCallback
  absent : seekerSchedulerUser ∉ m.cpufreq.userHead
  others : ∀ other ∈ m.cpufreq.userHead, ∀ cpu state s,
    informUser cpu state m.cpufreq.user s other = s

/-- The scheduler's globals as loading the module leaves them, with the parameters that say how
many cpus are used and how their first states are laid out. -/
def loadedScheduler (cpus : Nat) (layout : List Int) : Scheduler where
  totalOnlineCpus := cpus
  totalOnlineMask := Finset.range cpus
  totalStates := 0
  maxStatePossible _ := 0
  curCpuState _ := 0
  states _ := { state := 0, cpumask := ∅, cpus := 0, demand := 0 }
  lowState := 0
  highState := 0
  midState := 0
  baseState := 0
  initLayout cpu := layout.getD cpu 0
  initLayoutLength := layout.length
  hz := 1000
  jiffies := 0
  currentJiffies _ := 0
  logAvailable := true
  log := []
  info _ := { sleepTime := 0, awake := 0, awakeTime := 0 }
  intervalCount := 0
  intervalJiffies := 0
  timerStarted := false
  mutationMethod := 0
  changeInterval := 1000
  disableScheduling := false
  schedulingMethod := 0

/-- The scheduler loaded on a machine whose `count` cpus have `numStates` states each and a
started governor, with no other user registered. -/
def loadedMachine (count cpus numStates : Nat) (layout : List Int) : Machine where
  scheduler := loadedScheduler cpus layout
  cpufreq :=
    { nrCpus := count
      freqInfo := fun cpu =>
        { cpu := cpu
          curFreq := uintMax
          numStates := if cpu < count then numStates else 0
          table := fun state => 1000 * (state + 1)
          validEntry := fun state => if state < numStates then 1 else 0
          policy := if cpu < count then some { cur := 1000 } else none }
      user := fun _ => { inform := some seekerCpufreqInform, userId := 0 }
      userHead := []
      currentHighestId := 0 }
  programmed _ := none

theorem loadedMachine_loaded (count cpus numStates : Nat) (layout : List Int) :
    Loaded (loadedMachine count cpus numStates layout) where
  callback := rfl
  absent := List.not_mem_nil
  others _ member := absurd member List.not_mem_nil

/-- The scheduler in use on such a machine, its cpus in given states: it is registered, and its
state table is yet to be written. -/
def runningMachine (cpus numStates : Nat) (curCpuState : Nat → Nat) : Machine :=
  let m := loadedMachine cpus cpus numStates []
  { m with
    scheduler := { m.scheduler with totalStates := numStates, curCpuState := curCpuState }
    cpufreq := { m.cpufreq with userHead := [seekerSchedulerUser] } }

theorem runningMachine_registered (cpus numStates : Nat) (curCpuState : Nat → Nat) :
    Registered (runningMachine cpus numStates curCpuState) where
  callback := rfl
  only :=
    { once := rfl
      others := fun _ member different => absurd (List.mem_singleton.mp member) different }

/-- A driver that accepts every request. -/
def acceptingDriver : Driver := ⟨fun _ => 0, fun _ => 0⟩

/-- A driver that refuses every request. -/
def refusingDriver : Driver := ⟨fun _ => -22, fun _ => -22⟩

theorem Loaded.silent {m : Machine} (loaded : Loaded m) : Silent m := by
  intro cpu state s
  exact foldl_informUser_of_notMem loaded.absent
    (fun other member _ s => loaded.others other member cpu state s) s

/-- The state a cpu is given first: the requested one, clamped, or `0` past the layout. -/
def layoutState (s : Scheduler) (cpu : Nat) : Nat :=
  if cpu < s.initLayoutLength then (bounds (s.initLayout cpu) 0 s.totalStates).toNat else 0

theorem layoutState_lt {s : Scheduler} (someState : 1 ≤ s.totalStates) (cpu : Nat) :
    layoutState s cpu < s.totalStates := by
  unfold layoutState
  split
  · obtain ⟨nonneg, small⟩ := bounds_mem (s.initLayout cpu)
      (show (0 : Int) < s.totalStates by omega)
    omega
  · omega

/-- What the scheduler keeps of the time: the clock, when each cpu was last logged, and the log. -/
def Scheduler.clock (s : Scheduler) : Nat × Nat × (Nat → Nat) × Bool × List LogEntry :=
  (s.hz, s.jiffies, s.currentJiffies, s.logAvailable, s.log)

/-- The invariant of the placement loops: `count` cpus have been placed, each in its first
state, which is programmed if the change went through. -/
structure Placing (driver : Nat → Driver) (origin : Machine) (count : Nat) (m : Machine) :
    Prop where
  cpus : m.scheduler.totalOnlineCpus = origin.scheduler.totalOnlineCpus
  onlineMask : m.scheduler.totalOnlineMask = origin.scheduler.totalOnlineMask
  limit : m.scheduler.totalStates = origin.scheduler.totalStates
  layoutLength : m.scheduler.initLayoutLength = origin.scheduler.initLayoutLength
  clock : m.scheduler.clock = origin.scheduler.clock
  user : m.cpufreq.user = origin.cpufreq.user
  userHead : m.cpufreq.userHead = origin.cpufreq.userHead
  accepts : ∀ driver cpu freqInd, m.Accepts driver cpu freqInd ↔ origin.Accepts driver cpu freqInd
  table : Occupancy.Tabulates (Finset.range count) m.scheduler.curCpuState
    (· < origin.scheduler.totalStates)
    (fun state => (m.scheduler.states state).cpumask)
    (fun state => (m.scheduler.states state).cpus)
  placed : ∀ cpu, cpu < count → m.scheduler.curCpuState cpu = layoutState origin.scheduler cpu
  programmed : ∀ cpu, m.programmed cpu =
    if cpu < count ∧ origin.Accepts (driver cpu) cpu (layoutState origin.scheduler cpu) then
      some (layoutState origin.scheduler cpu) else origin.programmed cpu

theorem Placing.silent {driver : Nat → Driver} {origin m : Machine} {count : Nat}
    (placing : Placing driver origin count m) (silent : Silent origin) : Silent m := by
  intro cpu state s
  have told := silent cpu state s
  unfold informFreqChange at told ⊢
  rw [placing.user, placing.userHead]
  exact told

/-- Placing the next cpu in its first state keeps the invariant. -/
theorem Placing.placeCpu {driver : Nat → Driver} {origin m : Machine} {count : Nat}
    (placing : Placing driver origin count m) (silent : Silent origin) :
    Placing driver origin (count + 1)
      (placeCpu driver count (layoutState origin.scheduler count) m) := by
  have scheduler : (setFreq (driver count) count (layoutState origin.scheduler count)
      m).scheduler = m.scheduler :=
    setFreq_scheduler_of_silent (placing.silent silent) _ _ _
  refine ⟨?_, ?_, ?_, ?_, ?_, ?_, ?_, ?_, ?_, ?_, ?_⟩
  · show (setFreq _ _ _ m).scheduler.totalOnlineCpus = _
    rw [scheduler, placing.cpus]
  · show (setFreq _ _ _ m).scheduler.totalOnlineMask = _
    rw [scheduler, placing.onlineMask]
  · show (setFreq _ _ _ m).scheduler.totalStates = _
    rw [scheduler, placing.limit]
  · show (setFreq _ _ _ m).scheduler.initLayoutLength = _
    rw [scheduler, placing.layoutLength]
  · show (setFreq _ _ _ m).scheduler.clock = _
    rw [scheduler, placing.clock]
  · show (setFreq _ _ _ m).cpufreq.user = _
    rw [setFreq_user, placing.user]
  · show (setFreq _ _ _ m).cpufreq.userHead = _
    rw [setFreq_userHead, placing.userHead]
  · intro anyDriver cpu freqInd
    show (setFreq _ _ _ m).Accepts anyDriver cpu freqInd ↔ _
    rw [accepts_setFreq, placing.accepts]
  · show Occupancy.Tabulates _
      (enterState count _ (setFreq _ _ _ m).scheduler).curCpuState _
      (fun state => ((enterState count _ (setFreq _ _ _ m).scheduler).states state).cpumask)
      (fun state => ((enterState count _ (setFreq _ _ _ m).scheduler).states state).cpus)
    rw [scheduler, Finset.range_add_one]
    exact tabulates_enterCpu placing.table Finset.notMem_range_self _
  · intro cpu small
    show Function.update (setFreq _ _ _ m).scheduler.curCpuState count _ cpu = _
    rw [scheduler]
    by_cases same : cpu = count
    · rw [same, Function.update_self]
    · rw [Function.update_of_ne same]
      exact placing.placed cpu (by omega)
  · intro cpu
    show (setFreq (driver count) count (layoutState origin.scheduler count) m).programmed cpu = _
    by_cases accepted : m.Accepts (driver count) count (layoutState origin.scheduler count)
    · rw [setFreq_programmed_of_accepts accepted]
      rw [placing.accepts] at accepted
      by_cases same : cpu = count
      · subst same
        rw [Function.update_self, if_pos ⟨Nat.lt_succ_self cpu, accepted⟩]
      · rw [Function.update_of_ne same, placing.programmed cpu]
        exact if_congr (by rw [show cpu < count + 1 ↔ cpu < count by omega]) rfl rfl
    · rw [setFreq_programmed_of_not_accepts accepted, placing.programmed cpu]
      rw [placing.accepts] at accepted
      refine if_congr ?_ rfl rfl
      by_cases same : cpu = count
      · subst same
        exact ⟨fun held => absurd held.2 accepted, fun held => absurd held.2 accepted⟩
      · rw [show cpu < count + 1 ↔ cpu < count by omega]

/-- The machine at the start of the placement loops. -/
def Machine.reset (m : Machine) : Machine :=
  { m with scheduler := resetStates (countStates m) }

theorem countStates_eq (m : Machine) :
    ∃ maxStatePossible totalStates, countStates m =
      { m.scheduler with maxStatePossible := maxStatePossible, totalStates := totalStates } := by
  unfold countStates
  refine Loops.forRange_induction (fun _ s => ∃ maxStatePossible totalStates, s =
    { m.scheduler with maxStatePossible := maxStatePossible, totalStates := totalStates }) ?_ ?_
  · exact ⟨_, _, rfl⟩
  · rintro cpu _ s ⟨maxStatePossible, totalStates, rfl⟩
    exact ⟨_, _, rfl⟩

@[simp]
theorem reset_totalOnlineCpus (m : Machine) :
    m.reset.scheduler.totalOnlineCpus = m.scheduler.totalOnlineCpus := by
  obtain ⟨_, _, counted⟩ := countStates_eq m
  show (countStates m).totalOnlineCpus = _
  rw [counted]

theorem reset_layoutLength_le (m : Machine) :
    m.reset.scheduler.initLayoutLength ≤ m.reset.scheduler.totalOnlineCpus := by
  unfold Machine.reset resetStates
  dsimp only
  split
  · exact le_rfl
  · exact min_le_right _ _

/-- No cpu has been placed at the start of the placement loops. -/
theorem Placing.reset (m : Machine) (driver : Nat → Driver) :
    Placing driver m.reset 0 m.reset where
  cpus := rfl
  onlineMask := rfl
  limit := rfl
  layoutLength := rfl
  clock := rfl
  user := rfl
  userHead := rfl
  accepts _ _ _ := Iff.rfl
  table := by
    rw [Finset.range_zero]
    refine Occupancy.Tabulates.empty ?_ ?_ <;> intro state small <;>
      exact congrArg _ (if_pos small)
  placed cpu small := absurd small (Nat.not_lt_zero cpu)
  programmed cpu := by
    rw [if_neg (fun held => Nat.not_lt_zero cpu held.1)]

theorem Placing.clampLayout {driver : Nat → Driver} {origin m : Machine} {count : Nat}
    (placing : Placing driver origin count m) (cpu : Nat) :
    Placing driver origin count (m.mapScheduler (clampLayout cpu)) :=
  ⟨placing.cpus, placing.onlineMask, placing.limit, placing.layoutLength, placing.clock,
    placing.user, placing.userHead, placing.accepts, placing.table, placing.placed,
    placing.programmed⟩

/-- The loop over the requested layout places its cpus in their first states. -/
theorem placing_layout {m : Machine} (loaded : Loaded m) (driver : Nat → Driver) :
    Placing driver m.reset m.reset.scheduler.initLayoutLength
      (Loops.forRange m.reset.scheduler.initLayoutLength (placeLayout driver) m.reset) := by
  refine (Loops.forRange_induction (fun count current =>
    Placing driver m.reset count current ∧ ∀ cpu, count ≤ cpu →
      current.scheduler.initLayout cpu = m.reset.scheduler.initLayout cpu)
    ⟨Placing.reset m driver, fun _ _ => rfl⟩ ?_).1
  rintro count inLayout current ⟨placing, unread⟩
  have state : ((current.mapScheduler (clampLayout count)).scheduler.initLayout count).toNat =
      layoutState m.reset.scheduler count := by
    show (Function.update current.scheduler.initLayout count _ count).toNat = _
    rw [Function.update_self, unread count le_rfl, placing.limit, layoutState, if_pos inLayout]
  have silent : Silent m.reset := loaded.silent
  refine ⟨?_, ?_⟩
  · unfold placeLayout
    dsimp only
    rw [state]
    exact (placing.clampLayout count).placeCpu silent
  · intro cpu later
    show (setFreq _ _ _ (current.mapScheduler (clampLayout count))).scheduler.initLayout cpu = _
    rw [setFreq_scheduler_of_silent ((placing.clampLayout count).silent silent)]
    show Function.update current.scheduler.initLayout count _ cpu = _
    rw [Function.update_of_ne (by omega), unread cpu (by omega)]

/-- The loop over the remaining cpus places them in state `0`. -/
theorem placing_rest {m current : Machine} {driver : Nat → Driver} (silent : Silent m)
    (fits : m.scheduler.initLayoutLength ≤ m.scheduler.totalOnlineCpus)
    (placing : Placing driver m m.scheduler.initLayoutLength current) :
    Placing driver m m.scheduler.totalOnlineCpus (placeRest driver current) := by
  have placed : Placing driver m
      (m.scheduler.initLayoutLength +
        (current.scheduler.totalOnlineCpus - current.scheduler.initLayoutLength))
      (placeRest driver current) := by
    unfold placeRest
    refine Loops.forRange_induction (fun index current =>
      Placing driver m (m.scheduler.initLayoutLength + index) current) placing ?_
    intro index _ next placingNext
    have state : layoutState m.scheduler (m.scheduler.initLayoutLength + index) = 0 := by
      rw [layoutState, if_neg (by omega)]
    rw [placing.layoutLength, ← state]
    exact placingNext.placeCpu silent
  rwa [placing.cpus, placing.layoutLength, Nat.add_sub_cancel' fits] at placed

theorem placing_placeCpus {m : Machine} (loaded : Loaded m) (driver : Nat → Driver) :
    Placing driver m.reset m.scheduler.totalOnlineCpus (placeCpus driver m.reset) := by
  have placing := placing_rest (show Silent m.reset from loaded.silent) (reset_layoutLength_le m)
    (placing_layout loaded driver)
  rwa [reset_totalOnlineCpus] at placing

/-- Registering with memory available puts the scheduler behind users that do not touch it. -/
theorem callsBack_register {m : Machine} (loaded : Loaded m) {placed : Machine}
    (user : placed.cpufreq.user = m.cpufreq.user)
    (userHead : placed.cpufreq.userHead = m.cpufreq.userHead) :
    CallsBack { placed with
      cpufreq := (registerScpufreqUser true (some seekerSchedulerUser) placed.cpufreq).2 } := by
  intro cpu state s
  have callback : (placed.cpufreq.user seekerSchedulerUser).inform.isSome := by
    rw [user, loaded.callback]
    rfl
  have kept : ∀ address, ((placed.cpufreq.addUser seekerSchedulerUser).user address).inform =
      (m.cpufreq.user address).inform := by
    intro address
    rw [addUser_inform, user]
  unfold registerScpufreqUser informFreqChange
  rw [createUser_of_memory callback]
  show (placed.cpufreq.userHead ++ [seekerSchedulerUser]).foldl
    (informUser cpu state (placed.cpufreq.addUser seekerSchedulerUser).user) s = _
  rw [userHead, List.foldl_append, foldl_informUser_of_notMem loaded.absent]
  · rw [List.foldl_cons, List.foldl_nil, informUser_congr (kept seekerSchedulerUser)]
    unfold informUser
    rw [loaded.callback]
  · intro other member _ world
    rw [informUser_congr (kept other)]
    exact loaded.others other member cpu state world

/-- What initialisation leaves behind: the state table of the first states, the driver's record
of those that went through, and a registration if there was memory for it. -/
structure Initialised (driver : Nat → Driver) (memory : Bool) (m m' : Machine) : Prop where
  placing : ∃ placed, Placing driver m.reset m.scheduler.totalOnlineCpus placed ∧
    m'.scheduler = placed.scheduler ∧ m'.programmed = placed.programmed
  callsBack : memory = true → CallsBack m'
  silent : memory = false → Silent m'

theorem Initialised.answers {driver : Nat → Driver} {memory : Bool} {m m' : Machine}
    (initialised : Initialised driver memory m m') : Answers m' := by
  cases memory with
  | true => exact Or.inl (initialised.callsBack rfl)
  | false => exact Or.inr (initialised.silent rfl)

theorem Initialised.totalOnlineCpus {driver : Nat → Driver} {memory : Bool} {m m' : Machine}
    (initialised : Initialised driver memory m m') :
    m'.scheduler.totalOnlineCpus = m.scheduler.totalOnlineCpus := by
  obtain ⟨placed, placing, scheduler, _⟩ := initialised.placing
  rw [scheduler, placing.cpus, reset_totalOnlineCpus]

theorem Initialised.totalOnlineMask {driver : Nat → Driver} {memory : Bool} {m m' : Machine}
    (initialised : Initialised driver memory m m') :
    m'.scheduler.totalOnlineMask = m.scheduler.totalOnlineMask := by
  obtain ⟨placed, placing, scheduler, _⟩ := initialised.placing
  obtain ⟨_, _, counted⟩ := countStates_eq m
  rw [scheduler, placing.onlineMask, Machine.reset, counted]
  rfl

/-- Initialisation enters in the masks of the states the online cpus only. -/
theorem Initialised.cpumask_subset {driver : Nat → Driver} {memory : Bool} {m m' : Machine}
    (initialised : Initialised driver memory m m') {state : Nat}
    (inRange : state < m'.scheduler.totalStates) :
    (m'.scheduler.states state).cpumask ⊆ Finset.range m.scheduler.totalOnlineCpus := by
  obtain ⟨placed, placing, scheduler, _⟩ := initialised.placing
  rw [scheduler, placing.limit] at inRange
  rw [scheduler, placing.table.set_eq state inRange]
  exact Occupancy.fiber_subset _ _ _

theorem Initialised.totalStates {driver : Nat → Driver} {memory : Bool} {m m' : Machine}
    (initialised : Initialised driver memory m m') :
    m'.scheduler.totalStates = (countStates m).totalStates := by
  obtain ⟨placed, placing, scheduler, _⟩ := initialised.placing
  rw [scheduler, placing.limit]
  rfl

/-- Initialisation stamps the online cpus with the present and leaves the log alone. -/
theorem Initialised.clock {driver : Nat → Driver} {memory : Bool} {m m' : Machine}
    (initialised : Initialised driver memory m m') :
    m'.scheduler.clock =
      (m.scheduler.hz, m.scheduler.jiffies, fun cpu =>
        if cpu < m.scheduler.totalOnlineCpus then m.scheduler.jiffies
        else m.scheduler.currentJiffies cpu, m.scheduler.logAvailable, m.scheduler.log) := by
  obtain ⟨placed, placing, scheduler, _⟩ := initialised.placing
  obtain ⟨_, _, counted⟩ := countStates_eq m
  rw [scheduler, placing.clock, Machine.reset, counted]
  rfl

/-- The state table after initialisation is the table of `curCpuState`. -/
theorem Initialised.tabulated {driver : Nat → Driver} {memory : Bool} {m m' : Machine}
    (initialised : Initialised driver memory m m') (someState : 1 ≤ (countStates m).totalStates) :
    Tabulated m'.scheduler := by
  obtain ⟨placed, placing, scheduler, _⟩ := initialised.placing
  refine ⟨?_, ?_⟩
  · unfold Scheduler.onlineCpus
    rw [scheduler, placing.cpus, placing.limit, reset_totalOnlineCpus]
    exact placing.table
  · intro cpu online
    rw [scheduler] at online ⊢
    rw [placing.cpus, reset_totalOnlineCpus] at online
    rw [placing.placed cpu online, placing.limit]
    exact layoutState_lt (show 1 ≤ m.reset.scheduler.totalStates from someState) cpu

theorem initCpuStates_initialised {m : Machine} (loaded : Loaded m) (driver : Nat → Driver)
    (memory : Bool) : Initialised driver memory m (initCpuStates driver memory m).2 := by
  have placing := placing_placeCpus loaded driver
  refine ⟨⟨_, placing, rfl, rfl⟩, ?_, ?_⟩
  · rintro rfl
    exact callsBack_register loaded placing.user placing.userHead
  · rintro rfl
    have unchanged : (registerScpufreqUser false (some seekerSchedulerUser)
        (placeCpus driver m.reset).cpufreq).2 = (placeCpus driver m.reset).cpufreq := by
      unfold registerScpufreqUser createUser
      dsimp only
      split <;> rfl
    show Silent { placeCpus driver m.reset with
      cpufreq := (registerScpufreqUser false (some seekerSchedulerUser)
        (placeCpus driver m.reset).cpufreq).2 }
    rw [unchanged]
    exact placing.silent loaded.silent

end Seeker
