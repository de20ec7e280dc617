/-
This file embeds `greedy_delta` around the auction: what the interval reads, the
commit of the layout to the state table, and the bookkeeping loop that asks for the
frequency changes and puts cpus to sleep.

Each turn of the bookkeeping loop concerns one cpu. It writes that cpu's record and
makes at most one request, `settleRequest`, and the callback of a request that is
granted moves that cpu only. So the loop is described cpu by cpu: `Settling` gives
every record after any number of turns in terms of the state at the commit. The
awake-processor invariant over whole runs is read off from it.
-/
import Seeker.Auction
import Seeker.Machine
import Seeker.MutateCommon

namespace Seeker

/-! ### One interval -/

/-- What an interval finds: the running tasks of each cpu, the values read out of range, and the
driver's answers to the request it makes of a cpu. -/
structure Interval where
  nrRunning : Nat → Nat
  outOfRange : Nat → Nat → Int
  driver : Nat → Driver

/-- `get_tasks_load`. -/
def getTasksLoad (cpus : Nat) (nrRunning : Nat → Nat) : Nat :=
  let total := Loops.forRange cpus (fun cpu total => (total + nrRunning cpu) % ulongRange) 0
  if total > cpus then cpus else total

theorem getTasksLoad_le (cpus : Nat) (nrRunning : Nat → Nat) :
    getTasksLoad cpus nrRunning ≤ cpus := by
  unfold getTasksLoad
  dsimp only
  split <;> omega

/-- The load of an interval. -/
def Interval.load (interval : Interval) (s : Scheduler) : Nat :=
  getTasksLoad s.totalOnlineCpus interval.nrRunning

/-- The sum of the hints. -/
def hintTotal (s : Scheduler) : Int :=
  Loops.forRange s.totalStates (fun state total => int32 (total + demandGet state s)) 0

/-- The demand vector of an interval. -/
def Interval.demand (interval : Interval) (s : Scheduler) (state : Nat) : Int :=
  procs (demandGet state s) (hintTotal s) (interval.load s)

/-- The records after `wake_up_procs`. -/
def Interval.woken (interval : Interval) (s : Scheduler) : Nat → ProcInfo :=
  wakeUpProcs s.totalOnlineCpus (interval.load s) s.info

/-- What the auction of an interval is held about. -/
def Interval.auctionInput (interval : Interval) (s : Scheduler) : AuctionInput where
  cpus := s.totalOnlineCpus
  states := s.totalStates
  curCpuState := s.curCpuState
  total := hintTotal s
  load := interval.load s
  direction := transitionDirection s.totalStates s.totalOnlineCpus (interval.demand s)
    (interval.woken s) s.curCpuState
  outOfRange := interval.outOfRange

/-- The variables of an interval after the fill-up loop. -/
def Interval.filled (interval : Interval) (delta : Int) (s : Scheduler) : Auction :=
  fillUp (interval.auctionInput s) (interval.woken s)
    (auction (interval.auctionInput s) delta (interval.demand s))

/-- The layout an interval commits. -/
def Interval.layout (interval : Interval) (delta : Int) (s : Scheduler) : Auction :=
  layoutOf (interval.auctionInput s) delta (interval.demand s) (interval.woken s)

/-- `new_states`: the selected cpus entered in their new states, or cpu 0 in state 0. -/
def newStates (cpus : Nat) (filled : Auction) : Nat → StateDesc :=
  let provided := Loops.forRange cpus
    (fun cpu states =>
      if filled.selectedCpus cpu = 1 then states
      else enterCpu cpu (filled.newCpuState cpu) states)
    fun state => { state := state, cpumask := ∅, cpus := 0, demand := 0 }
  if providedCpus cpus filled = 0 then enterCpu 0 0 provided else provided

/-- The writes of `greedy_delta` before its bookkeeping loop. -/
def commitLayout (interval : Interval) (delta : Int) (s : Scheduler) : Scheduler :=
  let new := newStates s.totalOnlineCpus (interval.filled delta s)
  { s with
    intervalCount := (s.intervalCount + 1) % ulongRange
    info := interval.woken s
    states := fun state =>
      if state < s.totalStates then
        StateDesc.demandClear
          { s.states state with cpumask := (new state).cpumask, cpus := (new state).cpus }
      else s.states state }

/-- A write to a cpu's record. -/
def writeInfo (cpu : Nat) (change : ProcInfo → ProcInfo) (s : Scheduler) : Scheduler :=
  { s with info := Function.update s.info cpu (change (s.info cpu)) }

/-- The record of a cpu that is used. -/
def ProcInfo.use (p : ProcInfo) : ProcInfo := { p with sleepTime := 0, awake := 1 }

/-- The record of a cpu that stays asleep. -/
def ProcInfo.sleepOn (p : ProcInfo) : ProcInfo :=
  { p with sleepTime := (p.sleepTime + 1) % 2 ^ 32 }

/-- The record of a cpu that is put to sleep. -/
def ProcInfo.putToSleep (p : ProcInfo) : ProcInfo := { p with awake := 0, sleepTime := 1 }

/-- One turn of the bookkeeping loop. -/
def settleCpu (driver : Nat → Driver) (layout : Auction) (cpu : Nat) (m : Machine) : Machine :=
  if layout.selectedCpus cpu = 0 then
    let m := m.mapScheduler (writeInfo cpu ProcInfo.use)
    if layout.newCpuState cpu ≠ m.scheduler.curCpuState cpu then
      setFreq (driver cpu) cpu (layout.newCpuState cpu) m
    else m
  else if (m.scheduler.info cpu).awake = 0 then
    m.mapScheduler (writeInfo cpu ProcInfo.sleepOn)
  else
    let m := if m.scheduler.curCpuState cpu ≠ 0 then setFreq (driver cpu) cpu 0 m else m
    m.mapScheduler (writeInfo cpu ProcInfo.putToSleep)

/-- The record `greedy_delta` logs. -/
def mutatorEntry (demand : Nat → Int) (s : Scheduler) : LogEntry :=
  let given := Loops.forRange s.totalOnlineCpus
    (fun cpu given => Function.update given (s.curCpuState cpu) (given (s.curCpuState cpu) + 1))
    fun _ => 0
  .mut
    { interval := s.intervalCount
      count := s.totalStates
      cpusReq := (List.range s.totalStates).map fun state => uint32 (demand state)
      cpusGiven := (List.range s.totalStates).map given }

/-- `greedy_delta`. -/
def greedyDelta (delta : Int) (interval : Interval) (m : Machine) : Machine :=
  let layout := interval.layout delta m.scheduler
  let m := m.mapScheduler (commitLayout interval delta)
  let m := Loops.forRange m.scheduler.totalOnlineCpus (settleCpu interval.driver layout) m
  m.mapScheduler fun s => putLog (mutatorEntry layout.demand s) s

/-! ### What one turn of the bookkeeping loop does -/

/-- The state the bookkeeping loop requests for a cpu, if it makes a request. -/
def settleRequest (layout : Auction) (s : Scheduler) (cpu : Nat) : Option Nat :=
  if layout.selectedCpus cpu = 0 then
    if layout.newCpuState cpu ≠ s.curCpuState cpu then some (layout.newCpuState cpu) else none
  else if (s.info cpu).awake = 0 then none
  else if s.curCpuState cpu ≠ 0 then some 0 else none

/-- The record the bookkeeping loop leaves a cpu with. -/
def settleInfo (layout : Auction) (cpu : Nat) (p : ProcInfo) : ProcInfo :=
  if layout.selectedCpus cpu = 0 then p.use
  else if p.awake = 0 then p.sleepOn
  else p.putToSleep

/-- The request that is made and granted. -/
def granted (driver : Nat → Driver) (layout : Auction) (m : Machine) (cpu : Nat) : Option Nat :=
  (settleRequest layout m.scheduler cpu).filter fun state =>
    decide (m.Accepts (driver cpu) cpu state)

/-- A cpu's state after a request that may have been granted. -/
def placeIf (cpu : Nat) (state : Option Nat) (curCpuState : Nat → Nat) : Nat → Nat :=
  state.elim curCpuState fun state => Function.update curCpuState cpu state

/-- The state table after a request that may have been granted. -/
def moveIf (cpu old : Nat) (state : Option Nat) (states : Nat → StateDesc) : Nat → StateDesc :=
  state.elim states fun state => moveCpu cpu old state states

/-- One turn of the loop, as a relation between the machines: the cpu's record is `p` and the
request that was granted, if any, is `state`. -/
structure Settles (cpu : Nat) (state : Option Nat) (p : ProcInfo) (m m' : Machine) : Prop where
  callsBack : CallsBack m'
  accepts : ∀ driver other freqInd, m'.Accepts driver other freqInd ↔ m.Accepts driver other freqInd
  cpus : m'.scheduler.totalOnlineCpus = m.scheduler.totalOnlineCpus
  limit : m'.scheduler.totalStates = m.scheduler.totalStates
  info : m'.scheduler.info = Function.update m.scheduler.info cpu p
  place : m'.scheduler.curCpuState = placeIf cpu state m.scheduler.curCpuState
  table : m'.scheduler.states = moveIf cpu (m.scheduler.curCpuState cpu) state m.scheduler.states
  programmed : ∀ other, m'.programmed other =
    if other = cpu ∧ state.isSome then state else m.programmed other

theorem setFreq_settles {m : Machine} (callsBack : CallsBack m) (driver : Driver) {cpu state : Nat}
    (moves : state ≠ m.scheduler.curCpuState cpu) :
    Settles cpu ((some state).filter fun state => decide (m.Accepts driver cpu state))
      (m.scheduler.info cpu) m (setFreq driver cpu state m) := by
  by_cases accepted : m.Accepts driver cpu state
  · have scheduler : (setFreq driver cpu state m).scheduler =
        seekerCpufreqInform cpu state m.scheduler :=
      (setFreq_scheduler_of_accepts accepted).trans (callsBack _ _ _)
    rw [Option.filter_some, if_pos (decide_eq_true accepted)]
    refine ⟨callsBack.setFreq driver cpu state, fun _ _ _ => accepts_setFreq, ?_, ?_, ?_, ?_, ?_,
      ?_⟩
    · rw [scheduler, seekerCpufreqInform_totalOnlineCpus]
    · rw [scheduler, seekerCpufreqInform_totalStates]
    · rw [scheduler, seekerCpufreqInform_info, Function.update_eq_self]
    · rw [scheduler, seekerCpufreqInform_curCpuState]
      rfl
    · rw [scheduler, seekerCpufreqInform_states, if_pos moves.symm]
      rfl
    · intro other
      rw [setFreq_programmed_of_accepts accepted]
      by_cases same : other = cpu
      · rw [same, Function.update_self, if_pos ⟨rfl, rfl⟩]
      · rw [Function.update_of_ne same, if_neg fun held => same held.1]
  · have scheduler := setFreq_scheduler_of_not_accepts accepted
    rw [Option.filter_some, if_neg (by rw [decide_eq_false accepted]; decide)]
    refine ⟨callsBack.setFreq driver cpu state, fun _ _ _ => accepts_setFreq, ?_, ?_, ?_, ?_, ?_,
      ?_⟩
    · rw [scheduler]
    · rw [scheduler]
    · rw [scheduler, Function.update_eq_self]
    · rw [scheduler]
      rfl
    · rw [scheduler]
      rfl
    · intro other
      rw [setFreq_programmed_of_not_accepts accepted]
      exact (if_neg fun held => by cases held.2).symm

/-- A turn without a request. -/
theorem settles_none {m : Machine} (callsBack : CallsBack m) (cpu : Nat) :
    Settles cpu none (m.scheduler.info cpu) m m where
  callsBack := callsBack
  accepts _ _ _ := Iff.rfl
  cpus := rfl
  limit := rfl
  info := (Function.update_eq_self ..).symm
  place := rfl
  table := rfl
  programmed _ := (if_neg fun held => by cases held.2).symm

/-- The write to the record may come after the request. -/
theorem Settles.writeInfo {cpu : Nat} {state : Option Nat} {p : ProcInfo} {m m' : Machine}
    (settles : Settles cpu state p m m') (change : ProcInfo → ProcInfo) :
    Settles cpu state (change p) m (m'.mapScheduler (writeInfo cpu change)) where
  callsBack := settles.callsBack
  accepts := settles.accepts
  cpus := settles.cpus
  limit := settles.limit
  info := by
    show Function.update m'.scheduler.info cpu (change (m'.scheduler.info cpu)) = _
    rw [settles.info, Function.update_self, Function.update_idem]
  place := settles.place
  table := settles.table
  programmed := settles.programmed

/-- The write to the record may come before the request. -/
theorem Settles.of_writeInfo {cpu : Nat} {state : Option Nat} {p : ProcInfo} {m m' : Machine}
    {change : ProcInfo → ProcInfo}
    (settles : Settles cpu state p (m.mapScheduler (Seeker.writeInfo cpu change)) m') :
    Settles cpu state p m m' where
  callsBack := settles.callsBack
  accepts := settles.accepts
  cpus := settles.cpus
  limit := settles.limit
  info := by
    rw [settles.info]
    exact Function.update_idem ..
  place := settles.place
  table := settles.table
  programmed := settles.programmed

theorem settleCpu_settles {m : Machine} (callsBack : CallsBack m) (driver : Nat → Driver)
    (layout : Auction) (cpu : Nat) :
    Settles cpu (granted driver layout m cpu) (settleInfo layout cpu (m.scheduler.info cpu)) m
      (settleCpu driver layout cpu m) := by
  unfold settleCpu granted settleRequest settleInfo
  by_cases selected : layout.selectedCpus cpu = 0
  · simp only [if_pos selected]
    have written : CallsBack (m.mapScheduler (writeInfo cpu ProcInfo.use)) := callsBack
    have record : (m.mapScheduler (writeInfo cpu ProcInfo.use)).scheduler.info cpu =
        (m.scheduler.info cpu).use := Function.update_self ..
    have place : (m.mapScheduler (writeInfo cpu ProcInfo.use)).scheduler.curCpuState cpu =
        m.scheduler.curCpuState cpu := rfl
    rw [place]
    by_cases moves : layout.newCpuState cpu ≠ m.scheduler.curCpuState cpu
    · have settles := setFreq_settles written (driver cpu) moves
      rw [record] at settles
      rw [if_pos moves, if_pos moves]
      exact settles.of_writeInfo
    · rw [if_neg moves, if_neg moves]
      exact (settles_none callsBack cpu).writeInfo ProcInfo.use
  · simp only [if_neg selected]
    by_cases asleep : (m.scheduler.info cpu).awake = 0
    · simp only [if_pos asleep]
      exact (settles_none callsBack cpu).writeInfo ProcInfo.sleepOn
    · simp only [if_neg asleep]
      by_cases raised : m.scheduler.curCpuState cpu ≠ 0
      · simp only [if_pos raised]
        exact (setFreq_settles callsBack (driver cpu) raised.symm).writeInfo ProcInfo.putToSleep
      · simp only [if_neg raised]
        exact (settles_none callsBack cpu).writeInfo ProcInfo.putToSleep

/-! ### What the bookkeeping loop does -/

/-- The table after the granted requests of the first `count` cpus. -/
def settledStates (grant : Nat → Option Nat) (curCpuState : Nat → Nat) (count : Nat)
    (states : Nat → StateDesc) : Nat → StateDesc :=
  Loops.forRange count (fun cpu => moveIf cpu (curCpuState cpu) (grant cpu)) states

/-- The invariant of the bookkeeping loop: the first `count` cpus have been settled, each from
what the loop found of it at the start. -/
structure Settling (driver : Nat → Driver) (layout : Auction) (origin : Machine) (count : Nat)
    (m : Machine) : Prop where
  callsBack : CallsBack m
  accepts : ∀ driver cpu freqInd, m.Accepts driver cpu freqInd ↔ origin.Accepts driver cpu freqInd
  cpus : m.scheduler.totalOnlineCpus = origin.scheduler.totalOnlineCpus
  limit : m.scheduler.totalStates = origin.scheduler.totalStates
  info : ∀ cpu, m.scheduler.info cpu =
    if cpu < count then settleInfo layout cpu (origin.scheduler.info cpu)
    else origin.scheduler.info cpu
  place : ∀ cpu, m.scheduler.curCpuState cpu =
    if cpu < count then
      (granted driver layout origin cpu).getD (origin.scheduler.curCpuState cpu)
    else origin.scheduler.curCpuState cpu
  programmed : ∀ cpu, m.programmed cpu =
    if cpu < count ∧ (granted driver layout origin cpu).isSome then granted driver layout origin cpu
    else origin.programmed cpu
  table : m.scheduler.states =
    settledStates (granted driver layout origin) origin.scheduler.curCpuState count
      origin.scheduler.states

theorem Settling.start {m : Machine} (callsBack : CallsBack m) (driver : Nat → Driver)
    (layout : Auction) : Settling driver layout m 0 m where
  callsBack := callsBack
  accepts _ _ _ := Iff.rfl
  cpus := rfl
  limit := rfl
  info _ := rfl
  place _ := rfl
  programmed cpu := (if_neg fun held => Nat.not_lt_zero cpu held.1).symm
  table := rfl

/-- The next cpu's request is the one the loop would have made of it at the start. -/
theorem Settling.granted {driver : Nat → Driver} {layout : Auction} {origin m : Machine}
    {count : Nat} (settling : Settling driver layout origin count m) :
    granted driver layout m count = granted driver layout origin count := by
  have request : settleRequest layout m.scheduler count =
      settleRequest layout origin.scheduler count := by
    unfold settleRequest
    rw [settling.info, settling.place, if_neg (lt_irrefl count), if_neg (lt_irrefl count)]
  unfold Seeker.granted
  rw [request]
  refine congrArg (fun filter => Option.filter filter _) (funext fun state => ?_)
  exact decide_eq_decide.mpr (settling.accepts _ _ _)

/-- One turn of the bookkeeping loop keeps its invariant. -/
theorem Settling.step {driver : Nat → Driver} {layout : Auction} {origin m : Machine} {cpu : Nat}
    (settling : Settling driver layout origin cpu m) :
    Settling driver layout origin (cpu + 1) (settleCpu driver layout cpu m) := by
  have settles := settleCpu_settles settling.callsBack driver layout cpu
  rw [settling.granted] at settles
  have record : m.scheduler.info cpu = origin.scheduler.info cpu := by
    rw [settling.info, if_neg (lt_irrefl cpu)]
  have placed : m.scheduler.curCpuState cpu = origin.scheduler.curCpuState cpu := by
    rw [settling.place, if_neg (lt_irrefl cpu)]
  have others : ∀ other, other ≠ cpu → (other < cpu + 1 ↔ other < cpu) := by omega
  refine ⟨settles.callsBack, ?_, ?_, ?_, ?_, ?_, ?_, ?_⟩
  · intro anyDriver other freqInd
    rw [settles.accepts, settling.accepts]
  · rw [settles.cpus, settling.cpus]
  · rw [settles.limit, settling.limit]
  · intro other
    rw [settles.info]
    by_cases same : other = cpu
    · subst same
      rw [Function.update_self, record, if_pos (Nat.lt_succ_self other)]
    · rw [Function.update_of_ne same, settling.info]
      exact if_congr (others other same).symm rfl rfl
  · intro other
    rw [settles.place]
    by_cases same : other = cpu
    · subst same
      rw [if_pos (Nat.lt_succ_self other)]
      cases Seeker.granted driver layout origin other with
      | none => exact placed
      | some state => exact Function.update_self ..
    · have kept : placeIf cpu (Seeker.granted driver layout origin cpu)
          m.scheduler.curCpuState other = m.scheduler.curCpuState other := by
        cases Seeker.granted driver layout origin cpu with
        | none => rfl
        | some state => exact Function.update_of_ne same ..
      rw [kept, settling.place]
      exact if_congr (others other same).symm rfl rfl
  · intro other
    rw [settles.programmed, settling.programmed]
    by_cases same : other = cpu
    · subst same
      by_cases grant : (Seeker.granted driver layout origin other).isSome
      · rw [if_pos ⟨rfl, grant⟩, if_pos ⟨Nat.lt_succ_self other, grant⟩]
      · rw [if_neg fun held => grant held.2, if_neg fun held => grant held.2,
          if_neg fun held => grant held.2]
    · rw [if_neg fun held => same held.1]
      exact if_congr (and_congr_left' (others other same).symm) rfl rfl
  · rw [settles.table, placed, settling.table]
    rfl

/-- The machine at the start of the bookkeeping loop. -/
def Machine.commit (interval : Interval) (delta : Int) (m : Machine) : Machine :=
  m.mapScheduler (commitLayout interval delta)

/-- The machine at the end of the bookkeeping loop. -/
def Machine.settled (interval : Interval) (delta : Int) (m : Machine) : Machine :=
  Loops.forRange m.scheduler.totalOnlineCpus
    (settleCpu interval.driver (interval.layout delta m.scheduler)) (m.commit interval delta)

theorem settled_settling {m : Machine} (callsBack : CallsBack m) (interval : Interval)
    (delta : Int) :
    Settling interval.driver (interval.layout delta m.scheduler) (m.commit interval delta)
      m.scheduler.totalOnlineCpus (m.settled interval delta) :=
  Loops.forRange_induction
    (fun count current => Settling interval.driver (interval.layout delta m.scheduler)
      (m.commit interval delta) count current)
    (Settling.start (show CallsBack (m.commit interval delta) from callsBack) _ _)
    fun _ _ _ settling => settling.step

/-- The log entry at the end of an interval is all that follows the bookkeeping loop. -/
theorem greedyDelta_eq (delta : Int) (interval : Interval) (m : Machine) :
    ∃ log, greedyDelta delta interval m =
      (m.settled interval delta).mapScheduler fun s => { s with log := log } := by
  show ∃ log, (m.settled interval delta).mapScheduler (fun s => putLog _ s) = _
  unfold putLog Machine.mapScheduler
  dsimp only
  split
  · exact ⟨_, rfl⟩
  · exact ⟨_, rfl⟩

/-! ### Runs of the mutator -/

/-- What happens between two readings of the clock: the tasks leave new hints, or the mutator's
interval elapses. -/
inductive GreedyEvent where
  | hints (demand : Nat → Int)
  | mutate (delta : Int) (interval : Interval)

/-- The hints the tasks have left since the last interval. -/
def setHints (demand : Nat → Int) (s : Scheduler) : Scheduler :=
  { s with states := fun state => { s.states state with demand := demand state } }

/-- One event. -/
def greedyStep (m : Machine) : GreedyEvent → Machine
  | .hints demand => m.mapScheduler (setHints demand)
  | .mutate delta interval => greedyDelta delta interval m

/-! ### The layout of an interval -/

/-- Every online cpu is in one of the states. -/
def InStates (s : Scheduler) : Prop :=
  ∀ cpu, cpu < s.totalOnlineCpus → s.curCpuState cpu < s.totalStates

instance (s : Scheduler) : Decidable (InStates s) :=
  inferInstanceAs (Decidable (∀ cpu, cpu < s.totalOnlineCpus → _))

theorem filled_filling {s : Scheduler} (inStates : InStates s) (interval : Interval)
    (delta : Int) :
    Filling (interval.auctionInput s) (interval.woken s)
      (auction (interval.auctionInput s) delta (interval.demand s)) s.totalOnlineCpus
      (interval.filled delta s) :=
  fillUp_filling
    (auctionRounds_budget (interval.auctionInput s) delta (interval.demand s) inStates _)
    (interval.woken s)

/-- The layout is what the fill-up loop leaves, unless that selects no cpu; then it is cpu 0 in
state 0. -/
theorem layout_cases {s : Scheduler} (inStates : InStates s) (interval : Interval) (delta : Int) :
    (interval.layout delta s = interval.filled delta s ∧
      (interval.filled delta s).selected s.totalOnlineCpus ≠ ∅) ∨
    ((interval.filled delta s).selected s.totalOnlineCpus = ∅ ∧
      (interval.layout delta s).selectedCpus =
        Function.update (interval.filled delta s).selectedCpus 0 0 ∧
      (interval.layout delta s).newCpuState =
        Function.update (interval.filled delta s).newCpuState 0 0) := by
  have counted := providedCpus_eq s.totalOnlineCpus
    (filled_filling inStates interval delta).flags
  by_cases none : (interval.filled delta s).selected s.totalOnlineCpus = ∅
  · have layout : interval.layout delta s = _ :=
      if_pos (show providedCpus s.totalOnlineCpus (interval.filled delta s) = 0 by
        rw [counted, none, Finset.card_empty])
    exact Or.inr ⟨none, by rw [layout]; rfl, by rw [layout]; rfl⟩
  · have layout : interval.layout delta s = interval.filled delta s :=
      if_neg (show providedCpus s.totalOnlineCpus (interval.filled delta s) ≠ 0 by
        rw [counted]
        exact fun zero => none (Finset.card_eq_zero.mp zero))
    exact Or.inl ⟨layout, none⟩

/-- The layout places every online cpu in one of the states. -/
theorem layout_inStates {s : Scheduler} (inStates : InStates s) (interval : Interval)
    (delta : Int) {cpu : Nat} (online : cpu < s.totalOnlineCpus) :
    (interval.layout delta s).newCpuState cpu < s.totalStates := by
  have filled : (interval.filled delta s).newCpuState cpu < s.totalStates := by
    rw [(filled_filling inStates interval delta).newCpuState]
    exact (auctionRounds_budget (interval.auctionInput s) delta (interval.demand s) inStates
      _).inStates cpu online
  rcases layout_cases inStates interval delta with ⟨same, _⟩ | ⟨_, _, placed⟩
  · rw [same]
    exact filled
  · rw [placed]
    by_cases first : cpu = 0
    · rw [first, Function.update_self]
      omega
    · rw [Function.update_of_ne first]
      exact filled

/-! ### The awake cpus along every run -/

/-- Every request of the interval is granted. -/
def Interval.Granted (interval : Interval) (delta : Int) (m : Machine) : Prop :=
  ∀ cpu, cpu < m.scheduler.totalOnlineCpus →
    ∀ state ∈ settleRequest (interval.layout delta m.scheduler)
      (m.commit interval delta).scheduler cpu,
      m.Accepts (interval.driver cpu) cpu state

/-- No sleep counter that the interval increments reaches its range. -/
def Interval.Counts (interval : Interval) (delta : Int) (m : Machine) : Prop :=
  ∀ cpu, cpu < m.scheduler.totalOnlineCpus →
    (interval.layout delta m.scheduler).selectedCpus cpu ≠ 0 →
    (interval.woken m.scheduler cpu).awake = 0 →
    (interval.woken m.scheduler cpu).sleepTime + 1 < 2 ^ 32

instance (interval : Interval) (delta : Int) (m : Machine) :
    Decidable (interval.Granted delta m) :=
  inferInstanceAs (Decidable (∀ cpu, cpu < m.scheduler.totalOnlineCpus → _))

instance (interval : Interval) (delta : Int) (m : Machine) :
    Decidable (interval.Counts delta m) :=
  inferInstanceAs (Decidable (∀ cpu, cpu < m.scheduler.totalOnlineCpus → _))

/-- Frequency changes succeed and no sleep counter overflows. -/
def GreedyEvent.Smooth (m : Machine) : GreedyEvent → Prop
  | .hints _ => True
  | .mutate delta interval => interval.Granted delta m ∧ interval.Counts delta m

instance (m : Machine) : ∀ event : GreedyEvent, Decidable (event.Smooth m)
  | .hints _ => isTrue trivial
  | .mutate _ _ => inferInstanceAs (Decidable (_ ∧ _))

/-- The invariant of the runs: the wake records are consistent, some cpu is awake, and sleeping
cpus are in the lowest state. -/
structure Rested (m : Machine) : Prop where
  callsBack : CallsBack m
  inStates : InStates m.scheduler
  consistent : WakeConsistent m.scheduler.totalOnlineCpus m.scheduler.info
  someAwake : ∃ cpu, cpu < m.scheduler.totalOnlineCpus ∧ (m.scheduler.info cpu).awake = 1
  asleep : ∀ cpu, cpu < m.scheduler.totalOnlineCpus → (m.scheduler.info cpu).awake = 0 →
    m.scheduler.curCpuState cpu = 0

/-- The fill-up loop reaches the load: the awake cpus do, unless every sleeper is stuck, and a
stuck sleeper that is not selected overflows its counter. -/
theorem Rested.totalSelectedCpus {m : Machine} (rested : Rested m) {interval : Interval}
    {delta : Int} (counts : interval.Counts delta m) :
    (interval.filled delta m.scheduler).totalSelectedCpus = interval.load m.scheduler := by
  have filling := filled_filling rested.inStates interval delta
  obtain ⟨consistent, framed⟩ :=
    wakeUpProcs_frame (interval.load m.scheduler : Int) rested.consistent
  rcases filling.full with full | all
  · exact full
  have awakeSelected : ∀ cpu, cpu < m.scheduler.totalOnlineCpus →
      (interval.woken m.scheduler cpu).awake = 1 →
      (interval.filled delta m.scheduler).selectedCpus cpu = 0 := fun cpu online awake =>
    all cpu online ((consistent cpu online).2.mp awake)
  refine le_antisymm filling.bound ?_
  rcases wakeUpProcs_enough (interval.load m.scheduler : Int) rested.consistent with enough | stuck
  · have fewer : (awakeCpus m.scheduler.totalOnlineCpus (interval.woken m.scheduler)).card ≤
        ((interval.filled delta m.scheduler).selected m.scheduler.totalOnlineCpus).card := by
      refine Finset.card_le_card fun cpu member => ?_
      obtain ⟨online, awake⟩ := mem_awakeCpus.mp member
      exact mem_selected.mpr ⟨online, awakeSelected cpu online awake⟩
    rw [filling.total]
    exact le_trans (Int.ofNat_le.mp enough) fewer
  · obtain ⟨someone, someoneOnline, someoneAwake⟩ := rested.someAwake
    have stillAwake : (interval.woken m.scheduler someone).awake = 1 := by
      rcases framed someone with same | awake
      · rw [show interval.woken m.scheduler someone = _ from same]
        exact someoneAwake
      · exact awake
    have layout : interval.layout delta m.scheduler = interval.filled delta m.scheduler := by
      rcases layout_cases rested.inStates interval delta with ⟨same, _⟩ | ⟨none, _⟩
      · exact same
      · have member : someone ∈ (interval.filled delta m.scheduler).selected
            m.scheduler.totalOnlineCpus :=
          mem_selected.mpr ⟨someoneOnline, awakeSelected someone someoneOnline stillAwake⟩
        rw [none] at member
        exact absurd member (Finset.notMem_empty someone)
    have everyone : (interval.filled delta m.scheduler).selected m.scheduler.totalOnlineCpus =
        Finset.range m.scheduler.totalOnlineCpus := by
      refine Finset.filter_true_of_mem fun cpu member => ?_
      have online := Finset.mem_range.mp member
      by_contra waiting
      have notAwake : (interval.woken m.scheduler cpu).awake ≠ 1 := fun awake =>
        waiting (awakeSelected cpu online awake)
      have asleep := (consistent cpu online).1.resolve_right notAwake
      have counter : (interval.woken m.scheduler cpu).sleepTime + 1 < 2 ^ 32 :=
        counts cpu online (by rw [layout]; exact waiting) asleep
      have largest : uintMax ≤ (interval.woken m.scheduler cpu).sleepTime :=
        stuck cpu online fun zero => notAwake ((consistent cpu online).2.mpr zero)
      have range : uintMax + 1 = 2 ^ 32 := rfl
      omega
    rw [filling.total]
    show _ ≤ ((interval.filled delta m.scheduler).selected m.scheduler.totalOnlineCpus).card
    rw [everyone, Finset.card_range]
    exact getTasksLoad_le ..

/-- An interval selects `max 1 load` cpus. -/
theorem Rested.card_selected {m : Machine} (rested : Rested m) {interval : Interval} {delta : Int}
    (counts : interval.Counts delta m) :
    ((interval.layout delta m.scheduler).selected m.scheduler.totalOnlineCpus).card =
      max 1 (interval.load m.scheduler) := by
  have filling := filled_filling rested.inStates interval delta
  have total := filling.total
  rw [rested.totalSelectedCpus counts] at total
  obtain ⟨someone, someoneOnline, _⟩ := rested.someAwake
  rcases layout_cases rested.inStates interval delta with ⟨same, some⟩ | ⟨none, selected, _⟩
  · rw [same]
    have positive : 0 < ((interval.filled delta m.scheduler).selected
        m.scheduler.totalOnlineCpus).card := Finset.card_pos.mpr
      (Finset.nonempty_iff_ne_empty.mpr some)
    rw [show (interval.auctionInput m.scheduler).cpus = m.scheduler.totalOnlineCpus from rfl]
      at total
    omega
  · rw [selected_update (show 0 < m.scheduler.totalOnlineCpus by omega) selected, none]
    rw [show (interval.auctionInput m.scheduler).cpus = m.scheduler.totalOnlineCpus from rfl, none,
      Finset.card_empty] at total
    rw [total]
    rfl

/-- A settled cpu is awake exactly when the layout selects it. -/
theorem settleInfo_awake (layout : Auction) (cpu : Nat) (p : ProcInfo) :
    (settleInfo layout cpu p).awake = 1 ↔ layout.selectedCpus cpu = 0 := by
  unfold settleInfo
  split
  · rename_i selected
    exact ⟨fun _ => selected, fun _ => rfl⟩
  · rename_i waiting
    split
    · rename_i asleep
      refine ⟨fun awake => ?_, fun selected => absurd selected waiting⟩
      rw [show p.sleepOn.awake = p.awake from rfl, asleep] at awake
      cases awake
    · exact ⟨fun awake => (nomatch awake), fun selected => absurd selected waiting⟩

/-- A settled cpu's counter is zero exactly when it is awake, unless the counter overflowed. -/
theorem settleInfo_consistent {layout : Auction} {cpu : Nat} {p : ProcInfo}
    (counts : layout.selectedCpus cpu ≠ 0 → p.awake = 0 → p.sleepTime + 1 < 2 ^ 32) :
    ((settleInfo layout cpu p).awake = 0 ∨ (settleInfo layout cpu p).awake = 1) ∧
      ((settleInfo layout cpu p).awake = 1 ↔ (settleInfo layout cpu p).sleepTime = 0) := by
  unfold settleInfo
  split
  · exact ⟨Or.inr rfl, fun _ => rfl, fun _ => rfl⟩
  · rename_i waiting
    split
    · rename_i asleep
      refine ⟨Or.inl asleep, ?_⟩
      have counter : p.sleepOn.sleepTime = p.sleepTime + 1 :=
        Nat.mod_eq_of_lt (counts waiting asleep)
      rw [counter, show p.sleepOn.awake = p.awake from rfl, asleep]
      exact ⟨fun awake => (nomatch awake), fun zero => (nomatch zero)⟩
    · exact ⟨Or.inl rfl, fun awake => (nomatch awake), fun zero => (nomatch zero)⟩

/-- What an interval makes of a cpu's record. -/
theorem greedyDelta_info {m : Machine} (callsBack : CallsBack m) (interval : Interval)
    (delta : Int) {cpu : Nat} (online : cpu < m.scheduler.totalOnlineCpus) :
    (greedyDelta delta interval m).scheduler.info cpu =
      settleInfo (interval.layout delta m.scheduler) cpu (interval.woken m.scheduler cpu) := by
  obtain ⟨log, final⟩ := greedyDelta_eq delta interval m
  rw [final]
  show (m.settled interval delta).scheduler.info cpu = _
  rw [(settled_settling callsBack interval delta).info, if_pos online]
  rfl

/-- What an interval makes of a cpu's state. -/
theorem greedyDelta_curCpuState {m : Machine} (callsBack : CallsBack m) (interval : Interval)
    (delta : Int) {cpu : Nat} (online : cpu < m.scheduler.totalOnlineCpus) :
    (greedyDelta delta interval m).scheduler.curCpuState cpu =
      (granted interval.driver (interval.layout delta m.scheduler) (m.commit interval delta)
        cpu).getD (m.scheduler.curCpuState cpu) := by
  obtain ⟨log, final⟩ := greedyDelta_eq delta interval m
  rw [final]
  show (m.settled interval delta).scheduler.curCpuState cpu = _
  rw [(settled_settling callsBack interval delta).place, if_pos online]
  rfl

theorem greedyDelta_totalOnlineCpus {m : Machine} (callsBack : CallsBack m) (interval : Interval)
    (delta : Int) :
    (greedyDelta delta interval m).scheduler.totalOnlineCpus = m.scheduler.totalOnlineCpus := by
  obtain ⟨log, final⟩ := greedyDelta_eq delta interval m
  rw [final]
  exact (settled_settling callsBack interval delta).cpus

theorem greedyDelta_totalStates {m : Machine} (callsBack : CallsBack m) (interval : Interval)
    (delta : Int) :
    (greedyDelta delta interval m).scheduler.totalStates = m.scheduler.totalStates := by
  obtain ⟨log, final⟩ := greedyDelta_eq delta interval m
  rw [final]
  exact (settled_settling callsBack interval delta).limit

theorem greedyDelta_callsBack {m : Machine} (callsBack : CallsBack m) (interval : Interval)
    (delta : Int) : CallsBack (greedyDelta delta interval m) := by
  obtain ⟨log, final⟩ := greedyDelta_eq delta interval m
  rw [final]
  exact (settled_settling callsBack interval delta).callsBack

/-- Where a cpu ends up: a selected one where the layout puts it or, if that was refused, where
it was; any other in state `0` or where it was. -/
theorem granted_cases (driver : Nat → Driver) (layout : Auction) (m : Machine) (cpu : Nat) :
    granted driver layout m cpu = none ∨
      (layout.selectedCpus cpu = 0 ∧ granted driver layout m cpu = some (layout.newCpuState cpu)) ∨
      (layout.selectedCpus cpu ≠ 0 ∧ granted driver layout m cpu = some 0) := by
  unfold granted settleRequest
  split
  · rename_i selected
    split
    · rw [Option.filter_some]
      split
      · exact Or.inr (Or.inl ⟨selected, rfl⟩)
      · exact Or.inl rfl
    · exact Or.inl rfl
  · rename_i waiting
    split
    · exact Or.inl rfl
    · split
      · rw [Option.filter_some]
        split
        · exact Or.inr (Or.inr ⟨waiting, rfl⟩)
        · exact Or.inl rfl
      · exact Or.inl rfl

theorem greedyDelta_inStates {m : Machine} (callsBack : CallsBack m)
    (inStates : InStates m.scheduler) (interval : Interval) (delta : Int) :
    InStates (greedyDelta delta interval m).scheduler := by
  intro cpu online
  rw [greedyDelta_totalOnlineCpus callsBack] at online
  rw [greedyDelta_curCpuState callsBack interval delta online, greedyDelta_totalStates callsBack]
  have current := inStates cpu online
  rcases granted_cases interval.driver (interval.layout delta m.scheduler)
    (m.commit interval delta) cpu with none | ⟨_, placed⟩ | ⟨_, retired⟩
  · rw [none]
    exact current
  · rw [placed]
    exact layout_inStates inStates interval delta online
  · rw [retired]
    exact Nat.lt_of_le_of_lt (Nat.zero_le _) current

/-- A request of an interval whose requests are all granted. -/
theorem Interval.Granted.eq {interval : Interval} {delta : Int} {m : Machine}
    (grants : interval.Granted delta m) {cpu : Nat} (online : cpu < m.scheduler.totalOnlineCpus) :
    granted interval.driver (interval.layout delta m.scheduler) (m.commit interval delta) cpu =
      settleRequest (interval.layout delta m.scheduler) (m.commit interval delta).scheduler
        cpu := by
  have accepted := grants cpu online
  unfold Seeker.granted
  cases requested : settleRequest (interval.layout delta m.scheduler)
    (m.commit interval delta).scheduler cpu with
  | none => rfl
  | some state =>
    rw [Option.filter_some, if_pos]
    exact decide_eq_true (accepted state requested)

/-- What an interval that goes smoothly leaves behind: `max 1 load` cpus awake, and the
invariant. -/
theorem Rested.greedyDelta {m : Machine} (rested : Rested m) {interval : Interval} {delta : Int}
    (grants : interval.Granted delta m) (counts : interval.Counts delta m) :
    (awakeCpus m.scheduler.totalOnlineCpus
        (Seeker.greedyDelta delta interval m).scheduler.info).card =
      max 1 (interval.load m.scheduler) ∧
    Rested (Seeker.greedyDelta delta interval m) := by
  obtain ⟨_, framed⟩ := wakeUpProcs_frame (interval.load m.scheduler : Int) rested.consistent
  have awakeIff : ∀ cpu, cpu < m.scheduler.totalOnlineCpus →
      (((Seeker.greedyDelta delta interval m).scheduler.info cpu).awake = 1 ↔
        (interval.layout delta m.scheduler).selectedCpus cpu = 0) := fun cpu online => by
    rw [greedyDelta_info rested.callsBack interval delta online]
    exact settleInfo_awake ..
  have awake : awakeCpus m.scheduler.totalOnlineCpus
      (Seeker.greedyDelta delta interval m).scheduler.info =
        (interval.layout delta m.scheduler).selected m.scheduler.totalOnlineCpus := by
    ext cpu
    rw [mem_awakeCpus, mem_selected]
    exact and_congr_right fun online => awakeIff cpu online
  have card := rested.card_selected counts
  rw [← awake] at card
  refine ⟨card, greedyDelta_callsBack rested.callsBack interval delta,
    greedyDelta_inStates rested.callsBack rested.inStates interval delta, ?_, ?_, ?_⟩
  · intro cpu online
    rw [greedyDelta_totalOnlineCpus rested.callsBack] at online
    rw [greedyDelta_info rested.callsBack interval delta online]
    exact settleInfo_consistent fun waiting asleep => counts cpu online waiting asleep
  · rw [greedyDelta_totalOnlineCpus rested.callsBack]
    obtain ⟨cpu, member⟩ := Finset.card_pos.mp
      (show 0 < (awakeCpus m.scheduler.totalOnlineCpus
        (Seeker.greedyDelta delta interval m).scheduler.info).card by omega)
    exact ⟨cpu, mem_awakeCpus.mp member⟩
  · intro cpu online asleep
    rw [greedyDelta_totalOnlineCpus rested.callsBack] at online
    have waiting : (interval.layout delta m.scheduler).selectedCpus cpu ≠ 0 := by
      intro selected
      rw [(awakeIff cpu online).mpr selected] at asleep
      cases asleep
    rw [greedyDelta_curCpuState rested.callsBack interval delta online, grants.eq online]
    unfold settleRequest
    rw [if_neg waiting]
    split
    · rename_i wasAsleep
      -- A cpu that is asleep after the wake-up was asleep before it.
      rcases framed cpu with same | woken
      · refine rested.asleep cpu online ?_
        rw [← same]
        exact wasAsleep
      · rw [show ((m.commit interval delta).scheduler.info cpu).awake = 1 from woken] at wasAsleep
        cases wasAsleep
    · split
      · rfl
      · rename_i lowest
        exact not_not.mp lowest

theorem Rested.step {m : Machine} (rested : Rested m) {event : GreedyEvent}
    (smooth : event.Smooth m) :
    Rested (greedyStep m event) ∧
      (greedyStep m event).scheduler.totalOnlineCpus = m.scheduler.totalOnlineCpus := by
  cases event with
  | hints demand =>
    exact ⟨⟨rested.callsBack, rested.inStates, rested.consistent, rested.someAwake,
      rested.asleep⟩, rfl⟩
  | mutate delta interval =>
    exact ⟨(rested.greedyDelta smooth.1 smooth.2).2,
      greedyDelta_totalOnlineCpus rested.callsBack interval delta⟩

theorem initMutator_totalOnlineCpus (s : Scheduler) :
    (initMutator s).totalOnlineCpus = s.totalOnlineCpus := by
  unfold initMutator
  split <;> rfl

/-- The mutator starts with every cpu awake. -/
theorem Rested.initMutator {m : Machine} (callsBack : CallsBack m) (inStates : InStates m.scheduler)
    (someCpu : 1 ≤ m.scheduler.totalOnlineCpus)
    (dynamic : m.scheduler.mutationMethod ≠ staticMutator) :
    Rested (m.mapScheduler initMutator) := by
  have started : ∃ jiffies change, Seeker.initMutator m.scheduler =
      { m.scheduler with
        info := fun _ => { sleepTime := 0, awake := 1, awakeTime := 1 }
        intervalJiffies := jiffies
        changeInterval := change
        timerStarted := true } := ⟨_, _, if_neg dynamic⟩
  obtain ⟨jiffies, change, started⟩ := started
  refine ⟨callsBack, ?_, ?_, ?_, ?_⟩
  · show InStates (Seeker.initMutator m.scheduler)
    rw [started]
    exact inStates
  · show WakeConsistent (Seeker.initMutator m.scheduler).totalOnlineCpus
      (Seeker.initMutator m.scheduler).info
    rw [started]
    exact fun _ _ => ⟨Or.inr rfl, fun _ => rfl, fun _ => rfl⟩
  · show ∃ cpu, cpu < (Seeker.initMutator m.scheduler).totalOnlineCpus ∧
      ((Seeker.initMutator m.scheduler).info cpu).awake = 1
    rw [started]
    exact ⟨0, someCpu, rfl⟩
  · show ∀ cpu, _ → ((Seeker.initMutator m.scheduler).info cpu).awake = 0 → _
    rw [started]
    exact fun _ _ asleep => nomatch asleep

/-- After every interval of a run in which the frequency changes succeed and no sleep counter
overflows, `max 1 load` cpus are awake, a cpu is awake exactly when its counter is zero, and
sleeping cpus are in state `0`. -/
theorem greedy_awake_cpus {m : Machine} (registered : Registered m)
    (inStates : InStates m.scheduler) (someCpu : 1 ≤ m.scheduler.totalOnlineCpus)
    (dynamic : m.scheduler.mutationMethod ≠ staticMutator) (events : List GreedyEvent)
    (delta : Int) (interval : Interval)
    (smooth : Exec.Meets greedyStep GreedyEvent.Smooth (m.mapScheduler initMutator)
      (events ++ [.mutate delta interval])) :
    let final := Exec.run greedyStep (m.mapScheduler initMutator)
      (events ++ [.mutate delta interval])
    final.scheduler.totalOnlineCpus = m.scheduler.totalOnlineCpus ∧
    (awakeCpus m.scheduler.totalOnlineCpus final.scheduler.info).card =
      max 1 (getTasksLoad m.scheduler.totalOnlineCpus interval.nrRunning) ∧
    (∀ cpu, cpu < m.scheduler.totalOnlineCpus →
      ((final.scheduler.info cpu).awake = 1 ↔ (final.scheduler.info cpu).sleepTime = 0)) ∧
    ∀ cpu, cpu < m.scheduler.totalOnlineCpus → (final.scheduler.info cpu).awake = 0 →
      final.scheduler.curCpuState cpu = 0 := by
  obtain ⟨before, last⟩ := Exec.meets_append.mp smooth
  obtain ⟨rested, cpus⟩ := Exec.run_invariant
    (fun current : Machine => Rested current ∧
      current.scheduler.totalOnlineCpus = m.scheduler.totalOnlineCpus)
    (fun current event held meets =>
      ⟨(held.1.step meets).1, (held.1.step meets).2.trans held.2⟩)
    ⟨Rested.initMutator registered.callsBack inStates someCpu dynamic,
      initMutator_totalOnlineCpus m.scheduler⟩ before
  obtain ⟨awake, restedAfter⟩ := rested.greedyDelta last.1.1 last.1.2
  have cpusAfter := greedyDelta_totalOnlineCpus rested.callsBack interval delta
  rw [cpus] at cpusAfter awake
  intro final
  have final_eq : final = greedyDelta delta interval
      (Exec.run greedyStep (m.mapScheduler initMutator) events) := Exec.run_concat ..
  rw [final_eq]
  refine ⟨cpusAfter, ?_, ?_, ?_⟩
  · rw [awake, Interval.load, cpus]
  · intro cpu online
    exact (restedAfter.consistent cpu (by rw [cpusAfter]; exact online)).2
  · intro cpu online asleep
    exact restedAfter.asleep cpu (by rw [cpusAfter]; exact online) asleep

/-- Two cpus in states `1, 0`. With nothing to run cpu 0 is kept in state `0` and cpu 1 is put to
sleep; with two tasks and hints for the higher state both cpus are used. -/
theorem greedy_awake_cpus_two_cpus :
    let m := runningMachine 2 2 fun cpu => 1 - cpu
    let idle : Interval := ⟨fun _ => 0, fun _ _ => 7, fun _ => acceptingDriver⟩
    let busy : Interval := ⟨fun _ => 1, fun _ _ => 7, fun _ => acceptingDriver⟩
    (awakeCpus 2 (Exec.run greedyStep (m.mapScheduler initMutator)
      ([.mutate 1 idle, .hints fun state => 4 * state] ++ [.mutate 1 busy])).scheduler.info).card =
        2 :=
  (greedy_awake_cpus (runningMachine_registered 2 2 fun cpu => 1 - cpu) (by decide) (by decide)
    (by decide) _ 1 ⟨fun _ => 1, fun _ _ => 7, fun _ => acceptingDriver⟩ (by decide)).2.1

end Seeker
