/-
This file is about the residency times in the log. The elapsed jiffies are measured
by `log_cpu_state`, which charges them to the state `curCpuState` holds when it runs;
a callback that changes the state writes `curCpuState` first.

The run is observed: `history` holds, for each jiffy that has passed, the states of
the cpus during it, and `lastRecord` when each cpu was last logged. The recorded
residency of a state is then compared with the time the history says was spent in
it. They agree as long as a cpu's state changes only when nothing has elapsed since
its last record.
-/
import Mathlib.Data.List.Count
import Mathlib.Tactic.Ring
import Seeker.Machine

namespace Seeker

/-! ### What the log says -/

/-- The records of one cpu's states. -/
def stateRecords (cpu : Nat) (log : List LogEntry) : List LogState :=
  log.filterMap fun
    | .state record => if record.cpu = cpu then some record else none
    | _ => none

/-- The residency time recorded for a cpu in a state. -/
def residency (cpu state : Nat) (log : List LogEntry) : Nat :=
  (((stateRecords cpu log).filter fun record => record.state = state).map
    LogState.residencyTime).sum

theorem stateRecords_append (cpu : Nat) (first second : List LogEntry) :
    stateRecords cpu (first ++ second) = stateRecords cpu first ++ stateRecords cpu second :=
  List.filterMap_append

theorem stateRecords_record (cpu : Nat) (record : LogState) :
    stateRecords cpu [.state record] = if record.cpu = cpu then [record] else [] := by
  unfold stateRecords
  split
  · rename_i same
    exact List.filterMap_cons_some (if_pos same)
  · rename_i different
    exact List.filterMap_cons_none (if_neg different)

/-- A new record adds its time to the residency of its cpu in its state. -/
theorem residency_record (cpu state : Nat) (log : List LogEntry) (record : LogState) :
    residency cpu state (log ++ [.state record]) = residency cpu state log +
      if record.cpu = cpu ∧ record.state = state then record.residencyTime else 0 := by
  unfold residency
  rw [stateRecords_append, stateRecords_record, List.filter_append, List.map_append,
    List.sum_append]
  by_cases same : record.cpu = cpu
  · by_cases here : record.state = state
    · simp [same, here]
    · simp [same, here]
  · simp [same]

/-! ### The observed run -/

/-- The scheduler with the states of the cpus during each jiffy since the start and the jiffy
before which each cpu was last logged. -/
structure Observed where
  scheduler : Scheduler
  history : List (Nat → Nat)
  lastRecord : Nat → Nat

/-- The start of the observation. -/
def Observed.start (s : Scheduler) : Observed where
  scheduler := s
  history := []
  lastRecord _ := 0

/-- The scheduler has run some code: a cpu with new records has been logged now. -/
def Observed.observe (o : Observed) (s : Scheduler) : Observed where
  scheduler := s
  history := o.history
  lastRecord cpu :=
    if stateRecords cpu s.log = stateRecords cpu o.scheduler.log then o.lastRecord cpu
    else o.history.length

/-- What happens: jiffies pass, a frequency change is called back, the state logger runs. -/
inductive ClockEvent where
  | pass (elapsed : Nat)
  | inform (cpu state : Nat)
  | stateLogger

/-- One event. -/
def clockStep (o : Observed) : ClockEvent → Observed
  | .pass elapsed =>
    { o with
      scheduler := { o.scheduler with jiffies := o.scheduler.jiffies + elapsed }
      history := o.history ++ List.replicate elapsed o.scheduler.curCpuState }
  | .inform cpu state => o.observe (seekerCpufreqInform cpu state o.scheduler)
  | .stateLogger =>
    Loops.forRange o.scheduler.totalOnlineCpus
      (fun cpu o => o.observe (logCpuState cpu o.scheduler)) o

/-- Observed or not, the state logger does the same. -/
theorem clockStep_stateLogger (o : Observed) :
    (clockStep o .stateLogger).scheduler = stateLogger o.scheduler := by
  have same : ∀ count,
      (Loops.forRange count (fun cpu o => Observed.observe o (logCpuState cpu o.scheduler))
        o).scheduler = Loops.forRange count logCpuState o.scheduler := by
    intro count
    induction count with
    | zero => rfl
    | succ count inductionHypothesis =>
      rw [Loops.forRange_succ, Loops.forRange_succ, ← inductionHypothesis]
      rfl
  exact same _

/-- What has elapsed since a cpu was last logged. -/
def Scheduler.elapsed (s : Scheduler) (cpu : Nat) : Nat := s.jiffies - s.currentJiffies cpu

/-- A callback changes a cpu's state only when nothing has elapsed since it was last logged, and
no record's time overflows. -/
def ClockEvent.Timely (o : Observed) : ClockEvent → Prop
  | .pass _ => True
  | .inform cpu state =>
      (o.scheduler.curCpuState cpu ≠ state → o.scheduler.jiffies = o.scheduler.currentJiffies cpu) ∧
        o.scheduler.elapsed cpu * 1000 < ulongRange
  | .stateLogger => ∀ cpu, cpu < o.scheduler.totalOnlineCpus →
      o.scheduler.elapsed cpu * 1000 < ulongRange

instance (o : Observed) : ∀ event : ClockEvent, Decidable (event.Timely o)
  | .pass _ => isTrue trivial
  | .inform _ _ => inferInstanceAs (Decidable (_ ∧ _))
  | .stateLogger => inferInstanceAs (Decidable (∀ cpu, cpu < o.scheduler.totalOnlineCpus → _))

/-! ### The accounts -/

/-- The milliseconds a cpu spent in a state during some jiffies. -/
def millisecondsIn (hz cpu state : Nat) (jiffies : List (Nat → Nat)) : Nat :=
  jiffies.countP (fun place => place cpu = state) * 1000 / hz

/-- The accounts of the cpus in scope: each was last logged when the scheduler thinks it was, has
not changed its state since, and has the residency times it should. -/
structure Accounted (scope : Nat → Prop) (hz cpus origin : Nat) (o : Observed) : Prop where
  rate : o.scheduler.hz = hz
  cpus : o.scheduler.totalOnlineCpus = cpus
  available : o.scheduler.logAvailable = true
  now : o.scheduler.jiffies = origin + o.history.length
  stamped : ∀ cpu, scope cpu → o.scheduler.currentJiffies cpu = origin + o.lastRecord cpu
  past : ∀ cpu, scope cpu → o.lastRecord cpu ≤ o.history.length
  since : ∀ cpu, scope cpu → ∀ place ∈ o.history.drop (o.lastRecord cpu),
    place cpu = o.scheduler.curCpuState cpu
  residency : ∀ cpu, scope cpu → ∀ state, residency cpu state o.scheduler.log =
    millisecondsIn hz cpu state (o.history.take (o.lastRecord cpu))

variable {scope : Nat → Prop} {hz cpus origin : Nat}

theorem millisecondsIn_nil (cpu state : Nat) : millisecondsIn hz cpu state [] = 0 := by
  rw [millisecondsIn, List.countP_nil, Nat.zero_mul, Nat.zero_div]

theorem millisecondsIn_append (divides : hz ∣ 1000) (cpu state : Nat)
    (first second : List (Nat → Nat)) :
    millisecondsIn hz cpu state (first ++ second) =
      millisecondsIn hz cpu state first + millisecondsIn hz cpu state second := by
  unfold millisecondsIn
  rw [List.countP_append, Nat.mul_div_assoc _ divides, Nat.mul_div_assoc _ divides,
    Nat.mul_div_assoc _ divides, Nat.add_mul]

/-- Time spent in one state. -/
theorem millisecondsIn_of_constant {cpu current : Nat} {jiffies : List (Nat → Nat)}
    (constant : ∀ place ∈ jiffies, place cpu = current) (state : Nat) :
    millisecondsIn hz cpu state jiffies =
      if current = state then jiffies.length * 1000 / hz else 0 := by
  unfold millisecondsIn
  split
  · rename_i same
    rw [List.countP_eq_length.mpr]
    intro place member
    exact decide_eq_true ((constant place member).trans same)
  · rename_i different
    rw [List.countP_eq_zero.mpr, Nat.zero_mul, Nat.zero_div]
    intro place member here
    exact different ((constant place member).symm.trans (of_decide_eq_true here))

/-- Jiffies pass. -/
theorem Accounted.pass {o : Observed} (accounted : Accounted scope hz cpus origin o)
    (elapsed : Nat) : Accounted scope hz cpus origin (clockStep o (.pass elapsed)) := by
  refine ⟨accounted.rate, accounted.cpus, accounted.available, ?_, accounted.stamped, ?_, ?_, ?_⟩
  · show o.scheduler.jiffies + elapsed = _
    rw [accounted.now]
    show _ = origin + (o.history ++ List.replicate elapsed o.scheduler.curCpuState).length
    rw [List.length_append, List.length_replicate, Nat.add_assoc]
  · intro cpu inScope
    show o.lastRecord cpu ≤ (o.history ++ List.replicate elapsed o.scheduler.curCpuState).length
    rw [List.length_append]
    exact le_trans (accounted.past cpu inScope) (Nat.le_add_right _ _)
  · intro cpu inScope place member
    have after : (clockStep o (.pass elapsed)).history.drop
        ((clockStep o (.pass elapsed)).lastRecord cpu) =
          o.history.drop (o.lastRecord cpu) ++ List.replicate elapsed o.scheduler.curCpuState :=
      List.drop_append_of_le_length (accounted.past cpu inScope)
    rw [after] at member
    rcases List.mem_append.mp member with earlier | passed
    · exact accounted.since cpu inScope place earlier
    · rw [List.eq_of_mem_replicate passed]
      rfl
  · intro cpu inScope state
    show Seeker.residency cpu state o.scheduler.log = millisecondsIn hz cpu state
      ((o.history ++ List.replicate elapsed o.scheduler.curCpuState).take (o.lastRecord cpu))
    rw [List.take_append_of_le_length (accounted.past cpu inScope)]
    exact accounted.residency cpu inScope state

theorem observe_self (o : Observed) : o.observe o.scheduler = o := by
  unfold Observed.observe
  simp only [if_true]

/-- The record of a cpu for which something has elapsed. -/
theorem logCpuState_of_elapsed {s : Scheduler} {cpu : Nat} (available : s.logAvailable = true)
    (passed : s.jiffies ≠ s.currentJiffies cpu) :
    logCpuState cpu s =
      { s with
        log := s.log ++
          [.state ⟨cpu, s.curCpuState cpu, s.elapsed cpu * 1000 % ulongRange / s.hz⟩]
        currentJiffies := Function.update s.currentJiffies cpu s.jiffies } := by
  unfold logCpuState putLog
  rw [if_neg passed]
  dsimp only
  rw [if_pos available]
  rfl

/-- Logging a cpu charges what has elapsed to the state the cpu is in. -/
theorem Accounted.logCpuState {o : Observed} (accounted : Accounted scope hz cpus origin o)
    (divides : hz ∣ 1000) {cpu : Nat} (fits : o.scheduler.elapsed cpu * 1000 < ulongRange) :
    Accounted scope hz cpus origin (o.observe (logCpuState cpu o.scheduler)) := by
  by_cases passed : o.scheduler.jiffies = o.scheduler.currentJiffies cpu
  · have nothing : Seeker.logCpuState cpu o.scheduler = o.scheduler := if_pos passed
    rw [nothing, observe_self]
    exact accounted
  · rw [logCpuState_of_elapsed accounted.available passed, Nat.mod_eq_of_lt fits]
    generalize record_eq : (⟨cpu, o.scheduler.curCpuState cpu,
      o.scheduler.elapsed cpu * 1000 / o.scheduler.hz⟩ : LogState) = record
    have ofCpu : record.cpu = cpu := by rw [← record_eq]
    have lastRecord : ∀ other, (o.observe
        { o.scheduler with
          log := o.scheduler.log ++ [.state record]
          currentJiffies := Function.update o.scheduler.currentJiffies cpu o.scheduler.jiffies
          }).lastRecord other =
        if other = cpu then o.history.length else o.lastRecord other := by
      intro other
      show (if stateRecords other (o.scheduler.log ++ [.state record]) =
        stateRecords other o.scheduler.log then _ else _) = _
      rw [stateRecords_append, stateRecords_record, ofCpu]
      by_cases same : other = cpu
      · rw [if_pos same.symm, if_pos same, if_neg]
        exact fun equal => List.cons_ne_nil _ _ (List.append_right_eq_self.mp equal)
      · rw [if_neg (Ne.symm same), if_neg same, List.append_nil, if_pos rfl]
    refine ⟨accounted.rate, accounted.cpus, accounted.available, accounted.now, ?_, ?_, ?_, ?_⟩
    · intro other inScope
      rw [lastRecord]
      show Function.update o.scheduler.currentJiffies cpu o.scheduler.jiffies other = _
      by_cases same : other = cpu
      · rw [same, Function.update_self, if_pos rfl, accounted.now]
      · rw [Function.update_of_ne same, if_neg same]
        exact accounted.stamped other inScope
    · intro other inScope
      rw [lastRecord]
      show _ ≤ o.history.length
      split
      · exact le_rfl
      · exact accounted.past other inScope
    · intro other inScope place member
      rw [lastRecord] at member
      by_cases same : other = cpu
      · rw [if_pos same] at member
        rw [show (o.observe _).history.drop o.history.length = [] from
          List.drop_length] at member
        exact absurd member List.not_mem_nil
      · rw [if_neg same] at member
        exact accounted.since other inScope place member
    · intro other inScope state
      rw [lastRecord]
      show Seeker.residency other state (o.scheduler.log ++ [.state record]) =
        millisecondsIn hz other state (o.history.take _)
      rw [residency_record, ofCpu, accounted.residency other inScope state]
      by_cases same : other = cpu
      · subst same
        have length : (o.history.drop (o.lastRecord other)).length = o.scheduler.elapsed other := by
          rw [List.length_drop, Scheduler.elapsed, accounted.now, accounted.stamped other inScope]
          omega
        rw [if_pos rfl, List.take_length]
        conv_rhs => rw [← List.take_append_drop (o.lastRecord other) o.history]
        rw [millisecondsIn_append divides,
          millisecondsIn_of_constant (accounted.since other inScope), length, ← record_eq,
          accounted.rate]
        simp only [true_and]
      · rw [if_neg fun held => same held.1.symm, if_neg same, Nat.add_zero]

theorem elapsed_logCpuState_of_ne {cpu other : Nat} (different : other ≠ cpu) (s : Scheduler) :
    (Seeker.logCpuState cpu s).elapsed other = s.elapsed other := by
  unfold Seeker.logCpuState
  split
  · rfl
  · unfold putLog Scheduler.elapsed
    dsimp only
    split
    · rw [Function.update_of_ne different]
    · rw [Function.update_of_ne different]

/-- The state logger logs the online cpus one by one. -/
theorem Accounted.stateLogger {o : Observed} (accounted : Accounted scope hz cpus origin o)
    (divides : hz ∣ 1000)
    (fits : ∀ cpu, cpu < o.scheduler.totalOnlineCpus →
      o.scheduler.elapsed cpu * 1000 < ulongRange) :
    Accounted scope hz cpus origin (clockStep o .stateLogger) := by
  refine (Loops.forRange_induction (fun count (current : Observed) =>
    Accounted scope hz cpus origin current ∧
      ∀ other, count ≤ other → current.scheduler.elapsed other = o.scheduler.elapsed other)
    ⟨accounted, fun _ _ => rfl⟩ ?_).1
  rintro cpu online current ⟨kept, waiting⟩
  refine ⟨kept.logCpuState divides ?_, fun other later => ?_⟩
  · rw [waiting cpu le_rfl]
    exact fits cpu online
  · show (Seeker.logCpuState cpu current.scheduler).elapsed other = _
    rw [elapsed_logCpuState_of_ne (by omega), waiting other (by omega)]

/-- A callback for the state a cpu is already in only logs it. -/
theorem seekerCpufreqInform_same {cpu state : Nat} {s : Scheduler}
    (same : s.curCpuState cpu = state) :
    seekerCpufreqInform cpu state s = Seeker.logCpuState cpu s := by
  obtain ⟨log, currentJiffies, logged⟩ := logCpuState_eq cpu s
  unfold seekerCpufreqInform
  rw [if_neg (not_not.mpr same)]
  dsimp only
  rw [logged, ← same]
  dsimp only
  rw [Function.update_eq_self]

/-- A callback that changes a cpu's state when nothing has elapsed logs nothing. -/
theorem seekerCpufreqInform_moved {cpu state : Nat} {s : Scheduler}
    (moved : s.curCpuState cpu ≠ state) (nothing : s.jiffies = s.currentJiffies cpu) :
    seekerCpufreqInform cpu state s =
      { s with
        states := moveCpu cpu (s.curCpuState cpu) state s.states
        curCpuState := Function.update s.curCpuState cpu state } := by
  unfold seekerCpufreqInform Seeker.logCpuState
  rw [if_pos moved]
  dsimp only
  rw [if_pos nothing]
  dsimp only
  rw [Function.update_idem]

/-- A callback at its time. -/
theorem Accounted.inform {o : Observed} (accounted : Accounted scope hz cpus origin o)
    (divides : hz ∣ 1000) {cpu state : Nat} (timely : (ClockEvent.inform cpu state).Timely o) :
    Accounted scope hz cpus origin (clockStep o (.inform cpu state)) := by
  by_cases moved : o.scheduler.curCpuState cpu ≠ state
  · have nothing := timely.1 moved
    show Accounted scope hz cpus origin (o.observe (seekerCpufreqInform cpu state o.scheduler))
    rw [seekerCpufreqInform_moved moved nothing]
    have lastRecord : ∀ other, (o.observe
        { o.scheduler with
          states := moveCpu cpu (o.scheduler.curCpuState cpu) state o.scheduler.states
          curCpuState := Function.update o.scheduler.curCpuState cpu state }).lastRecord other =
        o.lastRecord other := fun other => if_pos rfl
    refine ⟨accounted.rate, accounted.cpus, accounted.available, accounted.now, ?_, ?_, ?_, ?_⟩
    · intro other inScope
      rw [lastRecord]
      exact accounted.stamped other inScope
    · intro other inScope
      rw [lastRecord]
      exact accounted.past other inScope
    · intro other inScope place member
      rw [lastRecord] at member
      show place other = Function.update o.scheduler.curCpuState cpu state other
      by_cases same : other = cpu
      · -- The history since the last record is empty, so the new state has nothing to answer for.
        subst same
        have stamped := accounted.stamped other inScope
        have now := accounted.now
        have present : o.lastRecord other = o.history.length := by omega
        rw [present] at member
        rw [show (o.observe _).history.drop o.history.length = [] from List.drop_length] at member
        exact absurd member List.not_mem_nil
      · rw [Function.update_of_ne same]
        exact accounted.since other inScope place member
    · intro other inScope state
      rw [lastRecord]
      exact accounted.residency other inScope state
  · show Accounted scope hz cpus origin (o.observe (seekerCpufreqInform cpu state o.scheduler))
    rw [seekerCpufreqInform_same (not_not.mp moved)]
    exact accounted.logCpuState divides timely.2

/-- One timely event keeps the accounts. -/
theorem Accounted.step {o : Observed} (accounted : Accounted scope hz cpus origin o)
    (divides : hz ∣ 1000) {event : ClockEvent} (timely : event.Timely o) :
    Accounted scope hz cpus origin (clockStep o event) := by
  cases event with
  | pass elapsed => exact accounted.pass elapsed
  | inform cpu state => exact accounted.inform divides timely
  | stateLogger => exact accounted.stateLogger divides timely

/-- Initialisation opens the accounts of the online cpus. -/
theorem Accounted.start {m : Machine} (loaded : Loaded m) (driver : Nat → Driver) (memory : Bool)
    (available : m.scheduler.logAvailable = true) (unlogged : m.scheduler.log = []) :
    Accounted (fun cpu => cpu < m.scheduler.totalOnlineCpus ∨
        m.scheduler.currentJiffies cpu = m.scheduler.jiffies)
      m.scheduler.hz m.scheduler.totalOnlineCpus m.scheduler.jiffies
      (Observed.start (initCpuStates driver memory m).2.scheduler) := by
  have initialised := initCpuStates_initialised loaded driver memory
  have clock := initialised.clock
  unfold Scheduler.clock at clock
  obtain ⟨rate, now, stamped, found, log⟩ : _ ∧ _ ∧ _ ∧ _ ∧ _ := by
    simpa only [Prod.mk.injEq] using clock
  refine ⟨rate, initialised.totalOnlineCpus, found.trans available, now, ?_, ?_, ?_, ?_⟩
  · intro cpu inScope
    show (initCpuStates driver memory m).2.scheduler.currentJiffies cpu = _
    rw [stamped]
    dsimp only
    split
    · rfl
    · rename_i offline
      exact inScope.resolve_left offline
  · exact fun _ _ => le_rfl
  · intro cpu _ place member
    exact absurd member List.not_mem_nil
  · intro cpu _ state
    show Seeker.residency cpu state (initCpuStates driver memory m).2.scheduler.log = _
    rw [log, unlogged]
    exact (millisecondsIn_nil cpu state).symm

/-- In every run of callbacks and state logger ticks after initialisation in which callbacks
change a cpu's state only when nothing has elapsed since its last record, the residency
recorded for a cpu in a state is the time it was in that state up to its last record. -/
theorem residency_accounted {m : Machine} (loaded : Loaded m) (driver : Nat → Driver)
    (memory : Bool) (divides : m.scheduler.hz ∣ 1000)
    (available : m.scheduler.logAvailable = true) (unlogged : m.scheduler.log = [])
    (events : List ClockEvent)
    (timely : Exec.Meets clockStep ClockEvent.Timely
      (Observed.start (initCpuStates driver memory m).2.scheduler) events)
    {cpu : Nat} (known : cpu < m.scheduler.totalOnlineCpus ∨
      m.scheduler.currentJiffies cpu = m.scheduler.jiffies) (state : Nat) :
    let final := Exec.run clockStep (Observed.start (initCpuStates driver memory m).2.scheduler)
      events
    residency cpu state final.scheduler.log =
      millisecondsIn m.scheduler.hz cpu state (final.history.take (final.lastRecord cpu)) := by
  have accounted := Exec.run_invariant
    (Accounted (fun cpu => cpu < m.scheduler.totalOnlineCpus ∨
        m.scheduler.currentJiffies cpu = m.scheduler.jiffies)
      m.scheduler.hz m.scheduler.totalOnlineCpus m.scheduler.jiffies)
    (fun _ _ kept meets => kept.step divides meets)
    (Accounted.start loaded driver memory available unlogged) timely
  exact accounted.residency cpu known state

/-- One cpu is logged after five jiffies and its state is changed in the same jiffy. -/
theorem residency_accounted_one_cpu :
    residency 0 0 (Exec.run clockStep (Observed.start
      (initCpuStates (fun _ => acceptingDriver) true (loadedMachine 1 1 2 [])).2.scheduler)
      [.pass 5, .stateLogger, .inform 0 1, .pass 3]).scheduler.log = 5 :=
  residency_accounted (loadedMachine_loaded 1 1 2 []) (fun _ => acceptingDriver) true (by decide)
    (by decide) (by decide) [.pass 5, .stateLogger, .inform 0 1, .pass 3] (by decide)
    (Or.inl (by decide)) 0

/-- One cpu in state `0` is moved to state `1` after five jiffies: the five milliseconds are
recorded for state `1`, in which it spent none. -/
theorem residency_misattributed :
    let m := loadedMachine 1 1 2 []
    let final := Exec.run clockStep (Observed.start
      (initCpuStates (fun _ => acceptingDriver) true m).2.scheduler) [.pass 5, .inform 0 1]
    Loaded m ∧ m.scheduler.hz ∣ 1000 ∧ m.scheduler.logAvailable = true ∧ m.scheduler.log = [] ∧
      0 < m.scheduler.totalOnlineCpus ∧
      residency 0 1 final.scheduler.log = 5 ∧
      millisecondsIn m.scheduler.hz 0 1 (final.history.take (final.lastRecord 0)) = 0 := by
  refine ⟨loadedMachine_loaded 1 1 2 [], ?_⟩
  decide

end Seeker
