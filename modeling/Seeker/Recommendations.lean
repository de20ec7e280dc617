/-
This file follows what a task says about itself, with the system call of the kernel
patch, through every run of the probes, the pending works and the callbacks.

A task that asks for a state gets records that ask for this state and for nothing
else, whatever its counters say. A task that asks to be ignored is left alone: no
record, no new work, and no mask but those of works that were pending when it asked.
Nothing but a fork under its address takes this back.
-/
import Seeker.Probe

namespace Seeker

/-! ### Entries and works -/

/-- The entry is the record of an evaluation or of the end of a task with the pid. -/
def LogEntry.IsAbout (pid : Nat) : LogEntry → Prop
  | .sch record => record.pid = pid
  | .pid record => record.pid = pid
  | .mut _ => False
  | .state _ => False

/-- The entry asks for the state if it is the record of an evaluation of the pid, and it tells no
IPC then. -/
def LogEntry.Asks (pid state : Nat) : LogEntry → Prop
  | .sch record => record.pid = pid → record.stateReq = state ∧ record.ipc = 0
  | .pid _ => True
  | .mut _ => True
  | .state _ => True

/-- The log is continued by entries of one kind. -/
def Appends (allowed : LogEntry → Prop) (s s' : Scheduler) : Prop :=
  ∃ appended, s'.log = s.log ++ appended ∧ ∀ entry ∈ appended, allowed entry

/-- A work that is claimed for the task was claimed for it before, with the same mask. -/
def ClaimedBefore (ts : Nat) (pool pool' : Nat → MaskWork) : Prop :=
  ∀ slot, (pool' slot).free = false → (pool' slot).task = some ts →
    (pool slot).free = false ∧ (pool slot).task = some ts ∧
      (pool' slot).mask = (pool slot).mask

section Entries

variable {allowed allowed' : LogEntry → Prop} {s s' s'' : Scheduler}

theorem Appends.of_log (same : s'.log = s.log) : Appends allowed s s' :=
  ⟨[], by rw [same, List.append_nil], fun _ member => absurd member List.not_mem_nil⟩

theorem Appends.refl (allowed : LogEntry → Prop) (s : Scheduler) : Appends allowed s s :=
  Appends.of_log rfl

theorem Appends.trans (first : Appends allowed s s') (second : Appends allowed s' s'') :
    Appends allowed s s'' := by
  obtain ⟨earlier, before, allowedEarlier⟩ := first
  obtain ⟨later, after, allowedLater⟩ := second
  refine ⟨earlier ++ later, ?_, fun entry member => ?_⟩
  · rw [after, before, List.append_assoc]
  · rcases List.mem_append.mp member with old | new
    · exact allowedEarlier entry old
    · exact allowedLater entry new

theorem Appends.then_log (appends : Appends allowed s s') (same : s''.log = s'.log) :
    Appends allowed s s'' := appends.trans (Appends.of_log same)

theorem Appends.imp (appends : Appends allowed s s') (weaker : ∀ entry, allowed entry →
    allowed' entry) : Appends allowed' s s' := by
  obtain ⟨appended, continued, each⟩ := appends
  exact ⟨appended, continued, fun entry member => weaker entry (each entry member)⟩

theorem appends_putLog {entry : LogEntry} (permitted : allowed entry) (s : Scheduler) :
    Appends allowed s (putLog entry s) := by
  unfold putLog
  split
  · refine ⟨[entry], rfl, fun other member => ?_⟩
    rw [List.mem_singleton.mp member]
    exact permitted
  · exact Appends.refl allowed s

/-- A callback of seeker-cpufreq appends records of states only. -/
theorem appends_seekerCpufreqInform (permitted : ∀ record, allowed (.state record))
    (cpu state : Nat) (s : Scheduler) : Appends allowed s (seekerCpufreqInform cpu state s) := by
  have logged : ∀ current : Scheduler, Appends allowed current (logCpuState cpu current) := by
    intro current
    unfold logCpuState
    split
    · exact Appends.refl allowed current
    · exact (appends_putLog (permitted _) current).then_log rfl
  unfold seekerCpufreqInform
  dsimp only
  split
  · have moved : Appends allowed s
        { s with
          states := moveCpu cpu (s.curCpuState cpu) state s.states
          curCpuState := Function.update s.curCpuState cpu state } := Appends.of_log rfl
    exact (moved.trans (logged _)).then_log rfl
  · exact (logged s).then_log rfl

/-- A callback of seeker-cpufreq does not move the states tasks ask for. -/
theorem fixedRequest_seekerCpufreqInform (cpu state : Nat) (s : Scheduler) (fixedState : Int) :
    fixedRequest (seekerCpufreqInform cpu state s) fixedState = fixedRequest s fixedState := by
  obtain ⟨_, _, informed⟩ := seekerCpufreqInform_eq cpu state s
  rw [informed]
  rfl

end Entries

section Works

variable {ts other : Nat} {pool pool' pool'' : Nat → MaskWork}

theorem ClaimedBefore.refl (ts : Nat) (pool : Nat → MaskWork) : ClaimedBefore ts pool pool :=
  fun _ busy task => ⟨busy, task, rfl⟩

theorem ClaimedBefore.trans (first : ClaimedBefore ts pool pool')
    (second : ClaimedBefore ts pool' pool'') : ClaimedBefore ts pool pool'' := by
  intro slot busy task
  obtain ⟨busy', task', mask'⟩ := second slot busy task
  obtain ⟨busy, task, mask⟩ := first slot busy' task'
  exact ⟨busy, task, mask'.trans mask⟩

/-- A write to one slot that claims it for nobody. -/
theorem claimedBefore_update {slot : Nat} {work : MaskWork}
    (kept : work.free = false → (pool slot).free = false ∧ work.task = (pool slot).task ∧
      work.mask = (pool slot).mask) :
    ClaimedBefore ts pool (Function.update pool slot work) := by
  intro cell busy task
  by_cases here : cell = slot
  · subst here
    rw [Function.update_self] at busy task ⊢
    obtain ⟨before, sameTask, sameMask⟩ := kept busy
    exact ⟨before, sameTask ▸ task, sameMask⟩
  · rw [Function.update_of_ne here] at busy task ⊢
    exact ⟨busy, task, rfl⟩

theorem claimedBefore_putWork (different : ts ≠ other) (size : Nat) (mask : Cpumask)
    (pool : Nat → MaskWork) : ClaimedBefore ts pool (putWork size other mask pool) := by
  intro slot busy task
  rcases putWork_apply size other mask pool slot with same | ⟨_, _, claimed⟩
  · rw [same] at busy task ⊢
    exact ⟨busy, task, rfl⟩
  · rw [claimed] at task
    exact absurd (Option.some.inj task).symm different

theorem claimedBefore_cancelTaskWork (ts size : Nat) (pid : Nat → Nat) (other : Nat)
    (pool : Nat → MaskWork) : ClaimedBefore ts pool (cancelTaskWork size pid other pool) := by
  intro slot busy task
  obtain ⟨same, _⟩ := cancelTaskWork_claimed busy
  rw [same] at busy task ⊢
  exact ⟨busy, task, rfl⟩

theorem claimedBefore_expireTimer (ts slot : Nat) (pool : Nat → MaskWork) :
    ClaimedBefore ts pool (expireTimer slot pool) := by
  unfold expireTimer
  split
  · exact claimedBefore_update fun busy => ⟨busy, rfl, rfl⟩
  · exact ClaimedBefore.refl ts pool

theorem claimedBefore_changeCpus (ts : Nat) (cpusAllowed : Nat → Cpumask) (slot : Nat)
    (pool : Nat → MaskWork) : ClaimedBefore ts pool (changeCpus cpusAllowed slot pool).2 := by
  have released : ClaimedBefore ts pool
      (Function.update pool slot { pool slot with free := true }) := claimedBefore_update nofun
  unfold changeCpus
  split
  · exact ClaimedBefore.refl ts pool
  · dsimp only
    split
    · exact released
    · split
      · exact released
      · exact released

theorem claimedBefore_executeWork (ts : Nat) (cpusAllowed : Nat → Cpumask) (slot : Nat)
    (pool : Nat → MaskWork) : ClaimedBefore ts pool (executeWork cpusAllowed slot pool).2 := by
  unfold executeWork
  split
  · have taken : ClaimedBefore ts pool
        (Function.update pool slot { pool slot with queued := false }) :=
      claimedBefore_update fun busy => ⟨busy, rfl, rfl⟩
    exact taken.trans (claimedBefore_changeCpus ts cpusAllowed slot _)
  · exact ClaimedBefore.refl ts pool

/-- The mask an execution applies is that of a work that was claimed for the task. -/
theorem executeWork_call {cpusAllowed : Nat → Cpumask} {slot : Nat} {mask : Cpumask}
    (call : (executeWork cpusAllowed slot pool).1 = some (ts, mask)) :
    (pool slot).free = false ∧ (pool slot).task = some ts ∧ (pool slot).mask = mask := by
  unfold executeWork at call
  split at call
  · unfold changeCpus at call
    rw [Function.update_self] at call
    dsimp only at call
    split at call
    · cases call
    · rename_i busy
      split at call
      · cases call
      · rename_i owner task
        split at call
        · cases call
        · obtain ⟨rfl, rfl⟩ := Prod.mk.inj (Option.some.inj call)
          exact ⟨Bool.eq_false_iff.mpr busy, task, rfl⟩
  · cases call

end Works

/-! ### What an event about one task may do -/

/-- The masks that were handed over for a task. -/
def Pds.masksFor (ts : Nat) (p : Pds) : List (Nat × Cpumask) :=
  p.handed.filter fun given => given.1 = ts

/-- Nothing is done to another task, no work is put for it, and each record is about the one. -/
structure ActsOn (other : Nat) (p p' : Pds) : Prop where
  tasks : ∀ ts, ts ≠ other → p'.tasks ts = p.tasks ts
  pid : (p'.tasks other).pid = (p.tasks other).pid
  works : ∀ ts, ts ≠ other → ClaimedBefore ts p.migPool p'.migPool
  masks : ∀ ts, ts ≠ other → p'.masksFor ts = p.masksFor ts
  requests : ∀ fixedState,
    fixedRequest p'.scheduler fixedState = fixedRequest p.scheduler fixedState
  log : Appends (LogEntry.IsAbout (p.tasks other).pid) p.scheduler p'.scheduler

section Probes

variable {other : Nat} {p p' p'' : Pds}

theorem ActsOn.refl (other : Nat) (p : Pds) : ActsOn other p p :=
  ⟨fun _ _ => rfl, rfl, fun ts _ => ClaimedBefore.refl ts p.migPool, fun _ _ => rfl, fun _ => rfl,
    Appends.refl _ _⟩

theorem ActsOn.trans (first : ActsOn other p p') (second : ActsOn other p' p'') :
    ActsOn other p p'' where
  tasks ts different := (second.tasks ts different).trans (first.tasks ts different)
  pid := second.pid.trans first.pid
  works ts different := (first.works ts different).trans (second.works ts different)
  masks ts different := (second.masks ts different).trans (first.masks ts different)
  requests fixedState := (second.requests fixedState).trans (first.requests fixedState)
  log := by
    have later := second.log
    rw [first.pid] at later
    exact first.log.trans later

theorem actsOn_setTask {task : TaskStruct} (same : task.pid = (p.tasks other).pid) :
    ActsOn other p (p.setTask other task) where
  tasks _ different := Function.update_of_ne different ..
  pid := by
    show (Function.update p.tasks other task other).pid = _
    rw [Function.update_self, same]
  works ts _ := ClaimedBefore.refl ts p.migPool
  masks _ _ := rfl
  requests _ := rfl
  log := Appends.refl _ _

theorem actsOn_putWork (other : Nat) (mask : Cpumask) (p : Pds) :
    ActsOn other p (p.putWork other mask) where
  tasks _ _ := rfl
  pid := rfl
  works _ different := claimedBefore_putWork different p.size mask p.migPool
  masks ts different := by
    show (p.handed ++ [(other, mask)]).filter _ = p.handed.filter _
    rw [List.filter_append, List.filter_cons_of_neg (by simpa using different.symm),
      List.filter_nil, List.append_nil]
  requests _ := rfl
  log := Appends.refl _ _

theorem actsOn_putLog (entry : LogEntry) (about : entry.IsAbout (p.tasks other).pid) :
    ActsOn other p { p with scheduler := putLog entry p.scheduler } where
  tasks _ _ := rfl
  pid := rfl
  works ts _ := ClaimedBefore.refl ts p.migPool
  masks _ _ := rfl
  requests fixedState := by
    obtain ⟨log, logged⟩ := putLog_eq entry p.scheduler
    show fixedRequest (putLog entry p.scheduler) fixedState = _
    rw [logged]
    rfl
  log := appends_putLog about p.scheduler

theorem actsOn_assignMask (around : Surroundings) (ts : Nat) (reading : Reading) (p : Pds) :
    ActsOn ts p (assignMask around ts reading p) := by
  have demanded : ActsOn ts p { p with scheduler := demandInc reading.stateReq p.scheduler } :=
    ⟨fun _ _ => rfl, rfl, fun other _ => ClaimedBefore.refl other p.migPool, fun _ _ => rfl,
      fun _ => rfl, Appends.of_log rfl⟩
  unfold assignMask
  dsimp only
  generalize recorded : LogEntry.sch _ = entry
  have written := demanded.trans (actsOn_putLog entry (by rw [← recorded]; rfl))
  split
  · refine written.trans (actsOn_setTask ?_)
    rfl
  · split
    · refine (written.trans (actsOn_setTask ?_)).trans (actsOn_putWork ts reading.mask _)
      rfl
    · refine written.trans (actsOn_setTask ?_)
      rfl

theorem actsOn_putMaskFromStats (around : Surroundings) (ts : Nat) (p : Pds) :
    ActsOn ts p (putMaskFromStats around ts p) := by
  unfold putMaskFromStats
  split
  · exact ActsOn.refl ts p
  · exact actsOn_assignMask around ts _ p

theorem actsOn_initialMask (around : Surroundings) (ts : Nat) (p : Pds) :
    ActsOn ts p (initialMask around ts p) := by
  unfold initialMask
  dsimp only
  split
  · refine ActsOn.trans (actsOn_setTask ?_) (actsOn_putWork ts _ _)
    rfl
  · refine ActsOn.trans (actsOn_setTask ?_) (actsOn_putWork ts _ _)
    rfl

theorem actsOn_instSchedFork (around : Surroundings) (new : Nat) (p : Pds) :
    ActsOn new p (instSchedFork around new p) := by
  unfold instSchedFork
  dsimp only
  split
  · refine ActsOn.trans ((actsOn_setTask ?_).trans (actsOn_setTask ?_))
      (actsOn_initialMask around new _)
    · rfl
    · rfl
  · exact actsOn_setTask rfl

/-- A fork appends no record. -/
theorem instSchedFork_scheduler (around : Surroundings) (new : Nat) (p : Pds) :
    (instSchedFork around new p).scheduler = p.scheduler := by
  unfold instSchedFork initialMask
  dsimp only
  split
  · split <;> rfl
  · rfl

theorem actsOn_instSwitchTo (around : Surroundings) (counters : Counters) (prev : Nat) (p : Pds) :
    ActsOn prev p (instSwitchTo around counters prev p) := by
  unfold instSwitchTo
  dsimp only
  split
  · exact actsOn_setTask rfl
  · split
    · exact actsOn_setTask rfl
    · split
      · refine ActsOn.trans (actsOn_setTask ?_) (actsOn_putMaskFromStats around prev _)
        rfl
      · exact actsOn_setTask rfl

/-- A release appends the end of its task, or nothing. -/
theorem appends_instReleaseThread {allowed : LogEntry → Prop} {ts : Nat}
    (permitted : allowed (.pid ⟨(p.tasks ts).comm, (p.tasks ts).pid⟩)) :
    Appends allowed p.scheduler (instReleaseThread ts p).scheduler := by
  unfold instReleaseThread
  dsimp only
  split
  · exact Appends.refl allowed p.scheduler
  · split
    · exact Appends.refl allowed p.scheduler
    · exact appends_putLog permitted p.scheduler

theorem actsOn_instReleaseThread (ts : Nat) (p : Pds) : ActsOn ts p (instReleaseThread ts p) := by
  unfold instReleaseThread
  dsimp only
  split
  · exact ActsOn.refl ts p
  · split
    · exact ActsOn.refl ts p
    · refine (actsOn_putLog (.pid ⟨(p.tasks ts).comm, (p.tasks ts).pid⟩) rfl).trans ?_
      exact ⟨fun _ _ => rfl, rfl, fun other _ => claimedBefore_cancelTaskWork other _ _ _ _,
        fun _ _ => rfl, fun _ => rfl, Appends.refl _ _⟩

theorem instReleaseThread_tasks (ts : Nat) (p : Pds) :
    (instReleaseThread ts p).tasks = p.tasks := by
  unfold instReleaseThread
  dsimp only
  split
  · rfl
  · split <;> rfl

/-- An execution writes nothing but the mask of a task for which its work was claimed. -/
theorem execute_task (slot : Nat) (accepted : Bool) (ts : Nat) (p : Pds) :
    ∃ mask, (p.execute slot accepted).tasks ts = { p.tasks ts with cpusAllowed := mask } ∧
      (mask = (p.tasks ts).cpusAllowed ∨
        (p.migPool slot).free = false ∧ (p.migPool slot).task = some ts ∧
          (p.migPool slot).mask = mask) := by
  unfold Pds.execute
  dsimp only
  cases call : (executeWork (fun ts => (p.tasks ts).cpusAllowed) slot p.migPool).1 with
  | none => exact ⟨_, rfl, Or.inl rfl⟩
  | some given =>
    obtain ⟨owner, mask⟩ := given
    unfold Pds.setCpusAllowed
    dsimp only
    split
    · by_cases own : ts = owner
      · subst own
        exact ⟨mask, Function.update_self .., Or.inr (executeWork_call call)⟩
      · exact ⟨_, Function.update_of_ne own .., Or.inl rfl⟩
    · exact ⟨_, rfl, Or.inl rfl⟩

theorem claimedBefore_execute (ts slot : Nat) (accepted : Bool) (p : Pds) :
    ClaimedBefore ts p.migPool (p.execute slot accepted).migPool := by
  unfold Pds.execute
  dsimp only
  rw [(setCpusAllowed_migPool ..).1]
  exact claimedBefore_executeWork ts _ slot p.migPool

theorem execute_rest (slot : Nat) (accepted : Bool) (p : Pds) :
    (p.execute slot accepted).scheduler = p.scheduler ∧
      (p.execute slot accepted).handed = p.handed := by
  unfold Pds.execute Pds.setCpusAllowed
  dsimp only
  split
  · exact ⟨rfl, rfl⟩
  · split <;> exact ⟨rfl, rfl⟩

end Probes

/-! ### A task that asks for a state -/

theorem sysSeeker_pid (cmd parm : Int) (task : TaskStruct) :
    (sysSeeker cmd parm task).2.pid = task.pid := by
  unfold sysSeeker
  split
  · split <;> rfl
  · split
    · rfl
    · split <;> rfl

/-- The pass of an evaluation whose task asks for a state. -/
theorem readSection_asks {s : Scheduler} {task : TaskStruct} {state : Nat}
    (request : fixedRequest s task.fixedState = some state) (around : Surroundings)
    (reading : Reading) :
    (readSection around s task reading).stateReq = state ∧
      (readSection around s task reading).ipc = reading.ipc ∧
      (readSection around s task reading).histStep = reading.histStep := by
  unfold readSection
  rw [request]
  exact ⟨rfl, rfl, rfl⟩

/-- The entry is the record of an evaluation with this reading. -/
def EvaluationOf (reading : Reading) (entry : LogEntry) : Prop :=
  ∃ record, entry = .sch record ∧ record.stateReq = reading.stateReq ∧
    record.ipc = uint32 reading.ipc

/-- What the evaluation writes to its task and to the log. -/
theorem assignMask_evaluated (around : Surroundings) (ts : Nat) (reading : Reading) (p : Pds) :
    ((assignMask around ts reading p).tasks ts).fixedState = (p.tasks ts).fixedState ∧
      ((assignMask around ts reading p).tasks ts).histStep = reading.histStep ∧
      Appends (EvaluationOf reading) p.scheduler (assignMask around ts reading p).scheduler := by
  unfold assignMask
  dsimp only
  generalize recorded : LogEntry.sch _ = entry
  have logged : Appends (EvaluationOf reading) p.scheduler
      (putLog entry (demandInc reading.stateReq p.scheduler)) := by
    have demanded : Appends (EvaluationOf reading) p.scheduler
        (demandInc reading.stateReq p.scheduler) := Appends.of_log rfl
    exact demanded.trans (appends_putLog ⟨_, recorded.symm, rfl, rfl⟩ _)
  split
  · refine ⟨?_, ?_, logged⟩
    · simp [Pds.setTask]
    · simp [Pds.setTask]
  · split
    · refine ⟨?_, ?_, logged⟩
      · simp [Pds.setTask, Pds.putWork]
      · simp [Pds.setTask, Pds.putWork]
    · refine ⟨?_, ?_, logged⟩
      · simp [Pds.setTask]
      · simp [Pds.setTask]

/-- A task that asks for a state is switched out: it goes on asking for it, and its record says
so. -/
theorem instSwitchTo_of_fixed {p : Pds} {ts state : Nat}
    (request : fixedRequest p.scheduler (p.tasks ts).fixedState = some state)
    (around : Surroundings) (counters : Counters) :
    ((instSwitchTo around counters ts p).tasks ts).fixedState = (p.tasks ts).fixedState ∧
      ((instSwitchTo around counters ts p).tasks ts).histStep = (p.tasks ts).histStep ∧
      Appends (LogEntry.Asks (p.tasks ts).pid state) p.scheduler
        (instSwitchTo around counters ts p).scheduler := by
  unfold instSwitchTo
  dsimp only
  generalize charged : p.setTask ts _ = q
  have same : (q.tasks ts).fixedState = (p.tasks ts).fixedState ∧
      (q.tasks ts).histStep = (p.tasks ts).histStep ∧ q.scheduler = p.scheduler := by
    rw [← charged]
    simp [Pds.setTask]
  have unevaluated : (q.tasks ts).fixedState = (p.tasks ts).fixedState ∧
      (q.tasks ts).histStep = (p.tasks ts).histStep ∧
      Appends (LogEntry.Asks (p.tasks ts).pid state) p.scheduler q.scheduler :=
    ⟨same.1, same.2.1, Appends.of_log (by rw [same.2.2])⟩
  split
  · exact unevaluated
  split
  · exact unevaluated
  split
  swap
  · exact unevaluated
  unfold putMaskFromStats
  split
  · exact unevaluated
  · obtain ⟨fixedState, histStep, log⟩ := assignMask_evaluated around ts
      (readSection around q.scheduler (q.tasks ts) (Reading.start (q.tasks ts))) q
    have asked : fixedRequest q.scheduler (q.tasks ts).fixedState = some state := by
      rw [same.1, same.2.2]
      exact request
    obtain ⟨stateReq, ipc, unchanged⟩ :=
      readSection_asks asked around (Reading.start (q.tasks ts))
    refine ⟨fixedState.trans same.1, histStep.trans (unchanged.trans same.2.1), ?_⟩
    have continued : Appends (LogEntry.Asks (p.tasks ts).pid state) q.scheduler
        (assignMask around ts (readSection around q.scheduler (q.tasks ts)
          (Reading.start (q.tasks ts))) q).scheduler := by
      refine log.imp ?_
      rintro _ ⟨record, rfl, asks, tells⟩ _
      rw [asks, tells, stateReq, ipc]
      exact ⟨rfl, rfl⟩
    exact unevaluated.2.2.trans continued

/-- What the scheduler keeps of a task's call and of its evaluations. -/
structure SameCall (task task' : TaskStruct) : Prop where
  pid : task'.pid = task.pid
  fixedState : task'.fixedState = task.fixedState
  histStep : task'.histStep = task.histStep

/-- The task is not forked anew and does not call again, no other task with its pid is switched out,
and whoever writes to it leaves what the scheduler keeps of it. -/
def LifeEvent.LeavesCall (ts : Nat) (l : Lives) : LifeEvent → Prop
  | .fork _ new => new ≠ ts
  | .switchTo _ _ prev => prev = ts ∨ (l.pds.tasks prev).pid ≠ (l.pds.tasks ts).pid
  | .sysSeeker other _ _ => other ≠ ts
  | .task other written => other = ts → SameCall (l.pds.tasks ts) written
  | _ => True

/-- The task asks for the state, and has done so since the start. -/
structure AsksFor (ts state : Nat) (start l : Lives) : Prop where
  pid : (l.pds.tasks ts).pid = (start.pds.tasks ts).pid
  request : fixedRequest l.pds.scheduler (l.pds.tasks ts).fixedState = some state
  histStep : (l.pds.tasks ts).histStep = (start.pds.tasks ts).histStep
  log : Appends (LogEntry.Asks (start.pds.tasks ts).pid state) start.pds.scheduler l.pds.scheduler

section Asking

variable {ts state : Nat} {start l l' : Lives}

/-- An event that leaves the call of the task, with no record of its evaluation. -/
theorem AsksFor.frame (asksFor : AsksFor ts state start l)
    (same : SameCall (l.pds.tasks ts) (l'.pds.tasks ts))
    (requests : ∀ fixedState, fixedRequest l'.pds.scheduler fixedState =
      fixedRequest l.pds.scheduler fixedState)
    (log : Appends (LogEntry.Asks (start.pds.tasks ts).pid state) l.pds.scheduler
      l'.pds.scheduler) : AsksFor ts state start l' where
  pid := same.pid.trans asksFor.pid
  request := by rw [same.fixedState, requests, asksFor.request]
  histStep := same.histStep.trans asksFor.histStep
  log := asksFor.log.trans log

/-- An event about another task, whose pid is another one. -/
theorem AsksFor.actsOn (asksFor : AsksFor ts state start l) {other : Nat} (different : other ≠ ts)
    {p' : Pds} (acts : ActsOn other l.pds p')
    (foreign : (l.pds.tasks other).pid ≠ (l.pds.tasks ts).pid) :
    AsksFor ts state start { l with pds := p' } := by
  have task : p'.tasks ts = l.pds.tasks ts := acts.tasks ts different.symm
  refine asksFor.frame ⟨by rw [task], by rw [task], by rw [task]⟩ acts.requests (acts.log.imp ?_)
  intro entry about
  cases entry with
  | sch record =>
    intro here
    have same : record.pid = (l.pds.tasks other).pid := about
    exact absurd (same.symm.trans (here.trans asksFor.pid.symm)) foreign
  | _ => exact trivial

/-- Another task is forked, perhaps with the same pid. -/
theorem AsksFor.fork (asksFor : AsksFor ts state start l) {new : Nat} (different : new ≠ ts)
    (around : Surroundings) :
    AsksFor ts state start { l with pds := instSchedFork around new l.pds } := by
  have acts := actsOn_instSchedFork around new l.pds
  have task : (instSchedFork around new l.pds).tasks ts = l.pds.tasks ts :=
    acts.tasks ts different.symm
  have log := congrArg Scheduler.log (instSchedFork_scheduler around new l.pds)
  exact asksFor.frame ⟨by rw [task], by rw [task], by rw [task]⟩ acts.requests (Appends.of_log log)

/-- The task itself is switched out. -/
theorem AsksFor.switchTo (asksFor : AsksFor ts state start l) (around : Surroundings)
    (counters : Counters) :
    AsksFor ts state start { l with pds := instSwitchTo around counters ts l.pds } := by
  obtain ⟨fixedState, histStep, log⟩ := instSwitchTo_of_fixed asksFor.request around counters
  have acts := actsOn_instSwitchTo around counters ts l.pds
  rw [asksFor.pid] at log
  exact asksFor.frame ⟨acts.pid, fixedState, histStep⟩ acts.requests log

/-- One event. -/
theorem AsksFor.step (asksFor : AsksFor ts state start l) {event : LifeEvent}
    (leaves : event.LeavesCall ts l) : AsksFor ts state start (lifeStep l event) := by
  cases event with
  | fork around new => exact asksFor.fork leaves around
  | switchTo around counters prev =>
    by_cases own : prev = ts
    · rw [own]
      exact asksFor.switchTo around counters
    · exact asksFor.actsOn own (actsOn_instSwitchTo around counters prev l.pds)
        (leaves.resolve_left own)
  | sysSeeker other cmd parm =>
    have different : other ≠ ts := leaves
    have task : (lifeStep l (.sysSeeker other cmd parm)).pds.tasks ts = l.pds.tasks ts :=
      Function.update_of_ne different.symm ..
    exact asksFor.frame ⟨by rw [task], by rw [task], by rw [task]⟩ (fun _ => rfl)
      (Appends.refl _ _)
  | expire slot => exact asksFor.frame ⟨rfl, rfl, rfl⟩ (fun _ => rfl) (Appends.refl _ _)
  | execute slot accepted =>
    obtain ⟨mask, task, _⟩ := execute_task slot accepted ts l.pds
    have scheduler := (execute_rest slot accepted l.pds).1
    have kept : SameCall (l.pds.tasks ts) ((l.pds.execute slot accepted).tasks ts) := by
      rw [task]
      exact ⟨rfl, rfl, rfl⟩
    exact asksFor.frame kept (fun fixedState => congrArg (fixedRequest · fixedState) scheduler)
      (Appends.of_log (congrArg Scheduler.log scheduler))
  | release other =>
    have kept : SameCall (l.pds.tasks ts) ((instReleaseThread other l.pds).tasks ts) := by
      rw [instReleaseThread_tasks]
      exact ⟨rfl, rfl, rfl⟩
    exact asksFor.frame kept (actsOn_instReleaseThread other l.pds).requests
      (appends_instReleaseThread trivial)
  | inform cpu moved =>
    exact asksFor.frame ⟨rfl, rfl, rfl⟩
      (fixedRequest_seekerCpufreqInform cpu moved l.pds.scheduler)
      (appends_seekerCpufreqInform (fun _ => trivial) cpu moved l.pds.scheduler)
  | task other task =>
    have kept : SameCall (l.pds.tasks ts) ((l.pds.setTask other task).tasks ts) := by
      by_cases own : other = ts
      · rw [own]
        show SameCall _ (Function.update l.pds.tasks ts task ts)
        rw [Function.update_self]
        exact leaves own
      · show SameCall _ (Function.update l.pds.tasks other task ts)
        rw [Function.update_of_ne (Ne.symm own)]
        exact ⟨rfl, rfl, rfl⟩
    exact asksFor.frame kept (fun _ => rfl) (Appends.refl _ _)

/-- `sys_seeker` of a task with a state it may ask for. -/
theorem asksFor_sysSeeker {parm : Int} (valid : 0 ≤ parm ∧ parm < 3) (ts : Nat) (l : Lives) :
    ∃ state, fixedRequest l.pds.scheduler parm = some state ∧
      AsksFor ts state l (lifeStep l (.sysSeeker ts 0 parm)) := by
  have task : (lifeStep l (.sysSeeker ts 0 parm)).pds.tasks ts =
      { l.pds.tasks ts with fixedState := parm } := by
    show Function.update l.pds.tasks ts (sysSeeker 0 parm (l.pds.tasks ts)).2 ts = _
    rw [Function.update_self, sysSeeker, if_pos rfl, if_pos valid]
  have known : ∃ state, fixedRequest l.pds.scheduler parm = some state := by
    have cases : parm = 0 ∨ parm = 1 ∨ parm = 2 := by omega
    rcases cases with rfl | rfl | rfl
    · exact ⟨_, rfl⟩
    · exact ⟨_, rfl⟩
    · exact ⟨_, rfl⟩
  obtain ⟨state, request⟩ := known
  refine ⟨state, request, by rw [task], ?_, by rw [task], Appends.refl _ _⟩
  rw [task]
  exact request

end Asking

/-- A task has asked for a state. In every run in which it neither calls again nor is forked anew,
each record of its evaluations asks for this state and tells no IPC, and its place on the ladder
stays. -/
theorem sys_seeker_state_asked (l : Lives) (ts : Nat) {parm : Int} (valid : 0 ≤ parm ∧ parm < 3)
    (events : List LifeEvent)
    (leaves : Exec.Meets lifeStep (LifeEvent.LeavesCall ts) (lifeStep l (.sysSeeker ts 0 parm))
      events) :
    let final := Exec.run lifeStep (lifeStep l (.sysSeeker ts 0 parm)) events
    (final.pds.tasks ts).histStep = (l.pds.tasks ts).histStep ∧
      ∃ state, fixedRequest l.pds.scheduler parm = some state ∧
        Appends (LogEntry.Asks (l.pds.tasks ts).pid state) l.pds.scheduler
          final.pds.scheduler := by
  intro final
  obtain ⟨state, request, asksFor⟩ := asksFor_sysSeeker valid ts l
  have kept : AsksFor ts state l final := Exec.run_invariant (AsksFor ts state l)
    (fun _ _ asks meets => asks.step meets) asksFor leaves
  exact ⟨kept.histStep, state, request, kept.log⟩

/-- The tasks of a machine with one cpu and two states, none of them started. -/
def twoStatePds (size : Nat) : Pds :=
  Pds.start (fun _ => acceptingDriver) true 1 1 size (fun pid => freshTask pid "sh")
    (loadedMachine 2 1 2 [])

/-- The task runs, another one is forked and runs, and the first one runs again. -/
def askingRun : List LifeEvent :=
  [.switchTo (idleSurroundings 0) ⟨20000000, 1, 1⟩ 7, .fork (idleSurroundings 0) 8,
    .switchTo (idleSurroundings 0) ⟨20000000, 1, 1⟩ 8,
    .switchTo (idleSurroundings 0) ⟨20000000, 1, 1⟩ 7]

/-- The task asks for the high state, and both its records do. -/
theorem sys_seeker_state_asked_high :
    let forked := lifeStep (Lives.start (twoStatePds 2)) (.fork (idleSurroundings 0) 7)
    let final := Exec.run lifeStep (lifeStep forked (.sysSeeker 7 0 2)) askingRun
    (final.pds.tasks 7).histStep = (forked.pds.tasks 7).histStep ∧
      forked.pds.scheduler.highState = 1 ∧ final.pds.scheduler.log.length = 3 := by
  refine ⟨(sys_seeker_state_asked _ 7 (by decide) askingRun ?_).1, by decide +kernel,
    by decide +kernel⟩
  exact ⟨Or.inl rfl, (by decide : 8 ≠ 7), Or.inr (by decide +kernel), Or.inl rfl, trivial⟩

/-! ### A task that asks to be ignored -/

/-- The task is not forked anew, no other task with its pid is switched out or released, and whoever
writes to it leaves its pid and its mark. -/
def LifeEvent.LeavesMark (ts : Nat) (l : Lives) : LifeEvent → Prop
  | .fork _ new => new ≠ ts
  | .switchTo _ _ prev => prev = ts ∨ (l.pds.tasks prev).pid ≠ (l.pds.tasks ts).pid
  | .release other => other = ts ∨ (l.pds.tasks other).pid ≠ (l.pds.tasks ts).pid
  | .task other written => other = ts → written.pid = (l.pds.tasks ts).pid ∧
      written.seekerScheduled = (l.pds.tasks ts).seekerScheduled
  | _ => True

/-- Whoever writes to the task leaves its mask. -/
def LifeEvent.LeavesMask (ts : Nat) (l : Lives) : LifeEvent → Prop
  | .task other written => other = ts → written.cpusAllowed = (l.pds.tasks ts).cpusAllowed
  | _ => True

/-- The mask is that of the task, or that of a work that is claimed for it. -/
def Pds.MayApply (ts : Nat) (mask : Cpumask) (p : Pds) : Prop :=
  mask = (p.tasks ts).cpusAllowed ∨
    ∃ slot, (p.migPool slot).free = false ∧ (p.migPool slot).task = some ts ∧
      (p.migPool slot).mask = mask

/-- The task is ignored, and has been left alone since the start. -/
structure Ignored (ts : Nat) (start l : Lives) : Prop where
  pid : (l.pds.tasks ts).pid = (start.pds.tasks ts).pid
  mark : (l.pds.tasks ts).seekerScheduled ≠ seekerMagicNumber
  works : ClaimedBefore ts start.pds.migPool l.pds.migPool
  masks : l.pds.masksFor ts = start.pds.masksFor ts
  log : Appends (fun entry => ¬ entry.IsAbout (start.pds.tasks ts).pid) start.pds.scheduler
    l.pds.scheduler

section Ignoring

variable {ts : Nat} {start l l' : Lives}

/-- An event that leaves the task, its works and its masks, with records of other tasks only. -/
theorem Ignored.frame (ignored : Ignored ts start l)
    (pid : (l'.pds.tasks ts).pid = (l.pds.tasks ts).pid)
    (mark : (l'.pds.tasks ts).seekerScheduled ≠ seekerMagicNumber)
    (works : ClaimedBefore ts l.pds.migPool l'.pds.migPool)
    (masks : l'.pds.masksFor ts = l.pds.masksFor ts)
    (log : Appends (fun entry => ¬ entry.IsAbout (start.pds.tasks ts).pid) l.pds.scheduler
      l'.pds.scheduler) : Ignored ts start l' where
  pid := pid.trans ignored.pid
  mark := mark
  works := ignored.works.trans works
  masks := masks.trans ignored.masks
  log := ignored.log.trans log

/-- An entry is about one pid only. -/
theorem LogEntry.IsAbout.unique {entry : LogEntry} {pid pid' : Nat} (about : entry.IsAbout pid)
    (about' : entry.IsAbout pid') : pid = pid' := by
  cases entry with
  | sch record => exact (show record.pid = pid from about).symm.trans about'
  | pid record => exact (show record.pid = pid from about).symm.trans about'
  | _ => exact about.elim

/-- An event about another task, whose pid is another one. -/
theorem Ignored.actsOn (ignored : Ignored ts start l) {other : Nat} (different : other ≠ ts)
    {p' : Pds} {released : List Nat} (acts : ActsOn other l.pds p')
    (foreign : (l.pds.tasks other).pid ≠ (l.pds.tasks ts).pid) :
    Ignored ts start { pds := p', released := released } := by
  have task : p'.tasks ts = l.pds.tasks ts := acts.tasks ts different.symm
  refine ignored.frame ?_ ?_ (acts.works ts different.symm) (acts.masks ts different.symm)
    (acts.log.imp fun entry about own => ?_)
  · exact congrArg TaskStruct.pid task
  · show (p'.tasks ts).seekerScheduled ≠ seekerMagicNumber
    rw [task]
    exact ignored.mark
  · exact foreign ((about.unique own).trans ignored.pid.symm)

/-- Another task is forked, perhaps with the same pid. -/
theorem Ignored.fork (ignored : Ignored ts start l) {new : Nat} (different : new ≠ ts)
    (around : Surroundings) :
    Ignored ts start { l with pds := instSchedFork around new l.pds } := by
  have acts := actsOn_instSchedFork around new l.pds
  have task : (instSchedFork around new l.pds).tasks ts = l.pds.tasks ts :=
    acts.tasks ts different.symm
  refine ignored.frame (congrArg TaskStruct.pid task) ?_ (acts.works ts different.symm)
    (acts.masks ts different.symm)
    (Appends.of_log (congrArg Scheduler.log (instSchedFork_scheduler around new l.pds)))
  show ((instSchedFork around new l.pds).tasks ts).seekerScheduled ≠ seekerMagicNumber
  rw [task]
  exact ignored.mark

/-- A write to the task that leaves its pid and its mark. -/
theorem Ignored.write (ignored : Ignored ts start l) {written : TaskStruct}
    (pid : written.pid = (l.pds.tasks ts).pid)
    (mark : written.seekerScheduled ≠ seekerMagicNumber) :
    Ignored ts start { l with pds := l.pds.setTask ts written } := by
  have task : (l.pds.setTask ts written).tasks ts = written := Function.update_self ..
  refine ignored.frame ?_ ?_ (ClaimedBefore.refl _ _) rfl (Appends.refl _ _)
  · exact (congrArg TaskStruct.pid task).trans pid
  · show ((l.pds.setTask ts written).tasks ts).seekerScheduled ≠ seekerMagicNumber
    rw [task]
    exact mark

/-- A write to another task. -/
theorem Ignored.writeOther (ignored : Ignored ts start l) {other : Nat} (different : other ≠ ts)
    (written : TaskStruct) : Ignored ts start { l with pds := l.pds.setTask other written } := by
  have task : (l.pds.setTask other written).tasks ts = l.pds.tasks ts :=
    Function.update_of_ne different.symm ..
  refine ignored.frame (congrArg TaskStruct.pid task) ?_ (ClaimedBefore.refl _ _) rfl
    (Appends.refl _ _)
  show ((l.pds.setTask other written).tasks ts).seekerScheduled ≠ seekerMagicNumber
  rw [task]
  exact ignored.mark

/-- The ignored task is switched out: its counts grow, and nothing else is done. -/
theorem Ignored.instSwitchTo_eq (ignored : Ignored ts start l) (around : Surroundings)
    (counters : Counters) :
    instSwitchTo around counters ts l.pds = l.pds.setTask ts
      { l.pds.tasks ts with
        inst := ((l.pds.tasks ts).inst + counters.inst) % ulongRange
        reCy := ((l.pds.tasks ts).reCy + counters.reCy) % ulongRange
        refCy := ((l.pds.tasks ts).refCy + counters.refCy) % ulongRange } := by
  unfold instSwitchTo
  dsimp only
  rw [if_pos]
  show (Function.update l.pds.tasks ts _ ts).seekerScheduled ≠ seekerMagicNumber
  rw [Function.update_self]
  exact ignored.mark

/-- A work is executed. -/
theorem Ignored.execute (ignored : Ignored ts start l) (slot : Nat) (accepted : Bool) :
    Ignored ts start { l with pds := l.pds.execute slot accepted } := by
  obtain ⟨mask, task, _⟩ := execute_task slot accepted ts l.pds
  obtain ⟨scheduler, handed⟩ := execute_rest slot accepted l.pds
  refine ignored.frame ?_ ?_ (claimedBefore_execute ts slot accepted l.pds) ?_
    (Appends.of_log (congrArg Scheduler.log scheduler))
  · show ((l.pds.execute slot accepted).tasks ts).pid = _
    rw [task]
  · show ((l.pds.execute slot accepted).tasks ts).seekerScheduled ≠ seekerMagicNumber
    rw [task]
    exact ignored.mark
  · show (l.pds.execute slot accepted).handed.filter _ = l.pds.handed.filter _
    rw [handed]

/-- The ignored task is released: the release returns at its first test. -/
theorem Ignored.instReleaseThread_eq (ignored : Ignored ts start l) :
    instReleaseThread ts l.pds = l.pds := by
  unfold instReleaseThread
  exact if_pos ignored.mark

/-- No call brings the mark back. -/
theorem sysSeeker_unmarked (cmd parm : Int) {task : TaskStruct}
    (unmarked : task.seekerScheduled ≠ seekerMagicNumber) :
    (sysSeeker cmd parm task).2.seekerScheduled ≠ seekerMagicNumber ∧
      (sysSeeker cmd parm task).2.cpusAllowed = task.cpusAllowed := by
  unfold sysSeeker
  split
  · split <;> exact ⟨unmarked, rfl⟩
  · split
    · exact ⟨unmarked, rfl⟩
    · split
      · exact ⟨(by decide : (0 : Int) ≠ seekerMagicNumber), rfl⟩
      · exact ⟨unmarked, rfl⟩

/-- One event. -/
theorem Ignored.step (ignored : Ignored ts start l) {event : LifeEvent}
    (leaves : event.LeavesMark ts l) : Ignored ts start (lifeStep l event) := by
  cases event with
  | fork around new => exact ignored.fork leaves around
  | switchTo around counters prev =>
    by_cases own : prev = ts
    · rw [own]
      show Ignored ts start { l with pds := instSwitchTo around counters ts l.pds }
      rw [ignored.instSwitchTo_eq]
      exact ignored.write rfl ignored.mark
    · exact ignored.actsOn own (actsOn_instSwitchTo around counters prev l.pds)
        (leaves.resolve_left own)
  | sysSeeker other cmd parm =>
    by_cases own : other = ts
    · rw [own]
      exact ignored.write (sysSeeker_pid cmd parm _) (sysSeeker_unmarked cmd parm ignored.mark).1
    · exact ignored.writeOther own _
  | expire slot =>
    exact ignored.frame rfl ignored.mark (claimedBefore_expireTimer ts slot _) rfl
      (Appends.refl _ _)
  | execute slot accepted => exact ignored.execute slot accepted
  | release other =>
    by_cases own : other = ts
    · rw [own]
      show Ignored ts start { pds := instReleaseThread ts l.pds, released := _ }
      rw [ignored.instReleaseThread_eq]
      exact ignored.frame rfl ignored.mark (ClaimedBefore.refl _ _) rfl (Appends.refl _ _)
    · exact ignored.actsOn own (actsOn_instReleaseThread other l.pds) (leaves.resolve_left own)
  | inform cpu state =>
    exact ignored.frame rfl ignored.mark (ClaimedBefore.refl _ _) rfl
      (appends_seekerCpufreqInform (fun _ about => about.elim) cpu state l.pds.scheduler)
  | task other written =>
    by_cases own : other = ts
    · obtain ⟨pid, mark⟩ := leaves own
      rw [own]
      exact ignored.write pid (mark ▸ ignored.mark)
    · exact ignored.writeOther own written

/-- One event, if whoever writes to the task leaves its mask: the mask stays, or that of a work is
applied which was claimed at the start. -/
theorem Ignored.mayApply_step (ignored : Ignored ts start l)
    (allowed : start.pds.MayApply ts (l.pds.tasks ts).cpusAllowed) {event : LifeEvent}
    (leaves : event.LeavesMark ts l) (leavesMask : event.LeavesMask ts l) :
    start.pds.MayApply ts ((lifeStep l event).pds.tasks ts).cpusAllowed := by
  have unchanged {p' : Pds} (same : (p'.tasks ts).cpusAllowed = (l.pds.tasks ts).cpusAllowed) :
      start.pds.MayApply ts (p'.tasks ts).cpusAllowed := by
    rw [same]
    exact allowed
  have written {task : TaskStruct} (same : task.cpusAllowed = (l.pds.tasks ts).cpusAllowed) :
      ((l.pds.setTask ts task).tasks ts).cpusAllowed = (l.pds.tasks ts).cpusAllowed :=
    (congrArg TaskStruct.cpusAllowed (Function.update_self ..)).trans same
  have elsewhere {other : Nat} (apart : other ≠ ts) (task : TaskStruct) :
      ((l.pds.setTask other task).tasks ts).cpusAllowed = (l.pds.tasks ts).cpusAllowed :=
    congrArg TaskStruct.cpusAllowed (Function.update_of_ne apart.symm ..)
  cases event with
  | fork around new =>
    have acts := actsOn_instSchedFork around new l.pds
    exact unchanged (congrArg TaskStruct.cpusAllowed (acts.tasks ts (Ne.symm leaves)))
  | switchTo around counters prev =>
    by_cases own : prev = ts
    · rw [own]
      show start.pds.MayApply ts ((instSwitchTo around counters ts l.pds).tasks ts).cpusAllowed
      rw [ignored.instSwitchTo_eq]
      exact unchanged (written rfl)
    · have acts := actsOn_instSwitchTo around counters prev l.pds
      exact unchanged (congrArg TaskStruct.cpusAllowed (acts.tasks ts (Ne.symm own)))
  | sysSeeker other cmd parm =>
    by_cases own : other = ts
    · rw [own]
      exact unchanged (written (sysSeeker_unmarked cmd parm ignored.mark).2)
    · exact unchanged (elsewhere own _)
  | expire slot => exact allowed
  | execute slot accepted =>
    obtain ⟨mask, task, source⟩ := execute_task slot accepted ts l.pds
    show start.pds.MayApply ts ((l.pds.execute slot accepted).tasks ts).cpusAllowed
    rw [task]
    rcases source with same | ⟨busy, owner, given⟩
    · rw [same]
      exact allowed
    · obtain ⟨before, ownerBefore, sameMask⟩ := ignored.works slot busy owner
      exact Or.inr ⟨slot, before, ownerBefore, sameMask.symm.trans given⟩
  | release other =>
    show start.pds.MayApply ts ((instReleaseThread other l.pds).tasks ts).cpusAllowed
    rw [instReleaseThread_tasks]
    exact allowed
  | inform cpu state => exact allowed
  | task other task =>
    by_cases own : other = ts
    · rw [own]
      exact unchanged (written (leavesMask own))
    · exact unchanged (elsewhere own _)

/-- `sys_seeker` of a task that asks to be ignored. -/
theorem ignored_sysSeeker (ts : Nat) (parm : Int) (l : Lives) :
    Ignored ts l (lifeStep l (.sysSeeker ts 2 parm)) := by
  have task : (lifeStep l (.sysSeeker ts 2 parm)).pds.tasks ts =
      { l.pds.tasks ts with seekerScheduled := 0 } := by
    show Function.update l.pds.tasks ts (sysSeeker 2 parm (l.pds.tasks ts)).2 ts = _
    rw [Function.update_self]
    rfl
  refine ⟨by rw [task], ?_, ClaimedBefore.refl _ _, rfl, Appends.refl _ _⟩
  rw [task]
  exact (by decide : (0 : Int) ≠ seekerMagicNumber)

end Ignoring

/-- A task has asked to be ignored. In every run in which it is not forked anew, no mask is handed
over for it and no record is about it, whatever it calls later, and the works that are claimed for it
were claimed when it asked. If nobody else writes its mask, that is the one it had or that of such a
work. -/
theorem sys_seeker_ignored (l : Lives) (ts : Nat) (parm : Int) (events : List LifeEvent)
    (leaves : Exec.Meets lifeStep (LifeEvent.LeavesMark ts) (lifeStep l (.sysSeeker ts 2 parm))
      events) :
    let final := Exec.run lifeStep (lifeStep l (.sysSeeker ts 2 parm)) events
    final.pds.masksFor ts = l.pds.masksFor ts ∧
      Appends (fun entry => ¬ entry.IsAbout (l.pds.tasks ts).pid) l.pds.scheduler
        final.pds.scheduler ∧
      ClaimedBefore ts l.pds.migPool final.pds.migPool ∧
      (Exec.Meets lifeStep (LifeEvent.LeavesMask ts) (lifeStep l (.sysSeeker ts 2 parm)) events →
        l.pds.MayApply ts (final.pds.tasks ts).cpusAllowed) := by
  intro final
  have kept : Ignored ts l final := Exec.run_invariant (Ignored ts l)
    (fun _ _ ignored meets => ignored.step meets) (ignored_sysSeeker ts parm l) leaves
  refine ⟨kept.masks, kept.log, kept.works, fun leavesMask => ?_⟩
  have asked : l.pds.MayApply ts ((lifeStep l (.sysSeeker ts 2 parm)).pds.tasks ts).cpusAllowed := by
    refine Or.inl ?_
    show (Function.update l.pds.tasks ts (sysSeeker 2 parm (l.pds.tasks ts)).2 ts).cpusAllowed = _
    rw [Function.update_self]
    rfl
  have both : Ignored ts l final ∧ l.pds.MayApply ts (final.pds.tasks ts).cpusAllowed :=
    Exec.run_invariant
      (fun current => Ignored ts l current ∧ l.pds.MayApply ts (current.pds.tasks ts).cpusAllowed)
      (fun _ _ before meets => ⟨before.1.step meets.1, before.1.mayApply_step before.2 meets.1 meets.2⟩)
      ⟨ignored_sysSeeker ts parm l, asked⟩ (leaves.and leavesMask)
  exact both.2

/-- The ignored task runs, lets the scheduler decide again and runs once more, and the work of its
fork is executed. -/
def ignoredRun : List LifeEvent :=
  [.switchTo (idleSurroundings 0) ⟨20000000, 1, 1⟩ 7, .fork (idleSurroundings 0) 8,
    .sysSeeker 7 1 0, .expire 0, .execute 0 true,
    .switchTo (idleSurroundings 0) ⟨20000000, 1, 1⟩ 7, .release 7]

/-- Only the mask of its fork reaches it. -/
theorem sys_seeker_ignored_after_fork :
    let forked := lifeStep (Lives.start (twoStatePds 2)) (.fork (idleSurroundings 0) 7)
    let final := Exec.run lifeStep (lifeStep forked (.sysSeeker 7 2 0)) ignoredRun
    final.pds.masksFor 7 = forked.pds.masksFor 7 ∧ (forked.pds.masksFor 7).length = 1 ∧
      (final.pds.tasks 7).cpusAllowed = {0} ∧ (forked.pds.tasks 7).cpusAllowed = ∅ := by
  refine ⟨(sys_seeker_ignored _ 7 0 ignoredRun ?_).1, by decide +kernel, by decide +kernel,
    by decide +kernel⟩
  exact ⟨Or.inl rfl, (by decide : 8 ≠ 7), trivial, trivial, trivial, Or.inl rfl, Or.inl rfl, trivial⟩

end Seeker
