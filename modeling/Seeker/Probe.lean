/-
This file embeds the probes of `probe.c` that start, evaluate and end a task, and the
system call of the kernel patch, and follows the pending work of a task through its
life.

Work is queued when a task is forked and at each of its evaluations, and it is
cancelled by one branch of the release probe only: the task must still carry the
mark it was given at its fork, and a name that is not blacklisted. The file proves
that a release leaves no work of its task behind exactly when it takes that branch
or there is no such work, and that none comes back afterwards.
-/
import Mathlib.Tactic.Common
import Seeker.Confinement

namespace Seeker

/-! ### The probes -/

/-- `SEEKER_MAGIC_NUMBER`. -/
def seekerMagicNumber : Int := 0xdea

/-- `is_blacklist_task`. -/
def isBlacklistTask (task : TaskStruct) : Bool :=
  task.comm = "debugd" || task.comm.toList.take 7 = "events/".toList ||
    task.comm.toList.take 10 = "migration/".toList ||
    task.comm.toList.take 10 = "ksoftirqd/".toList

/-- The task carries the mark of its fork and is not blacklisted. -/
def Managed (task : TaskStruct) : Prop :=
  task.seekerScheduled = seekerMagicNumber ∧ isBlacklistTask task = false

instance (task : TaskStruct) : Decidable (Managed task) := inferInstanceAs (Decidable (_ ∧ _))

/-- The pid of a task. -/
def Pds.pid (p : Pds) (ts : Nat) : Nat := (p.tasks ts).pid

/-- `inst_release_thread`. -/
def instReleaseThread (ts : Nat) (p : Pds) : Pds :=
  let task := p.tasks ts
  if task.seekerScheduled ≠ seekerMagicNumber then p
  else if isBlacklistTask task then p
  else
    { p with
      scheduler := putLog (.pid { name := task.comm, pid := task.pid }) p.scheduler
      migPool := cancelTaskWork p.size p.pid ts p.migPool }

/-- `inst_sched_fork`. -/
def instSchedFork (around : Surroundings) (new : Nat) (p : Pds) : Pds :=
  let p := p.setTask new
    { p.tasks new with
      fixedState := -1
      interval := p.scheduler.intervalCount
      inst := 0
      refCy := 0
      reCy := 0 }
  if isBlacklistTask (p.tasks new) = false then
    initialMask around new
      (p.setTask new { p.tasks new with seekerScheduled := seekerMagicNumber })
  else p

/-- The counters of a cpu that a probe reads: `pmu_val` and `get_tsc_cycles`. -/
structure Counters where
  inst : Nat
  reCy : Nat
  refCy : Nat

/-- `inst___switch_to`, for the task switched out. -/
def instSwitchTo (around : Surroundings) (counters : Counters) (prev : Nat) (p : Pds) : Pds :=
  let task := p.tasks prev
  let p := p.setTask prev
    { task with
      inst := (task.inst + counters.inst) % ulongRange
      reCy := (task.reCy + counters.reCy) % ulongRange
      refCy := (task.refCy + counters.refCy) % ulongRange }
  if (p.tasks prev).seekerScheduled ≠ seekerMagicNumber then p
  else if isBlacklistTask (p.tasks prev) then p
  else if isBlacklistTask (p.tasks prev) = false then putMaskFromStats around prev p
  else p

/-- `sys_seeker`, called by a task: its result and what it does to the task. -/
def sysSeeker (cmd parm : Int) (task : TaskStruct) : Int × TaskStruct :=
  if cmd = 0 then
    if parm ≥ 0 ∧ parm < 3 then (0, { task with fixedState := parm }) else (-1, task)
  else if cmd = 1 then (0, { task with fixedState := -1 })
  else if cmd = 2 then (0, { task with seekerScheduled := 0 })
  else (-1, task)

/-- The call of `set_cpus_allowed_ptr` an execution makes, which the kernel may refuse. -/
def Pds.setCpusAllowed (accepted : Bool) (call : Option (Nat × Cpumask)) (p : Pds) : Pds :=
  match call with
  | none => p
  | some (ts, mask) =>
    if accepted then p.setTask ts { p.tasks ts with cpusAllowed := mask } else p

/-- The pending work of a slot is executed. -/
def Pds.execute (slot : Nat) (accepted : Bool) (p : Pds) : Pds :=
  let (call, migPool) := executeWork (fun ts => (p.tasks ts).cpusAllowed) slot p.migPool
  ({ p with migPool := migPool }).setCpusAllowed accepted call

/-! ### The lives of the tasks -/

/-- The scheduler and the tasks that have been released. -/
structure Lives where
  pds : Pds
  released : List Nat

/-- What happens to the tasks: the probes and the system call, the steps of the pending work, a
callback of seeker-cpufreq, and whatever else changes a task, such as a change of its name. -/
inductive LifeEvent where
  | fork (around : Surroundings) (new : Nat)
  | switchTo (around : Surroundings) (counters : Counters) (prev : Nat)
  | sysSeeker (ts : Nat) (cmd parm : Int)
  | expire (slot : Nat)
  | execute (slot : Nat) (accepted : Bool)
  | release (ts : Nat)
  | inform (cpu state : Nat)
  | task (ts : Nat) (task : TaskStruct)

/-- One event. -/
def lifeStep (l : Lives) : LifeEvent → Lives
  | .fork around new => { l with pds := instSchedFork around new l.pds }
  | .switchTo around counters prev => { l with pds := instSwitchTo around counters prev l.pds }
  | .sysSeeker ts cmd parm =>
      { l with pds := l.pds.setTask ts (Seeker.sysSeeker cmd parm (l.pds.tasks ts)).2 }
  | .expire slot => { l with pds := { l.pds with migPool := expireTimer slot l.pds.migPool } }
  | .execute slot accepted => { l with pds := l.pds.execute slot accepted }
  | .release ts => { pds := instReleaseThread ts l.pds, released := ts :: l.released }
  | .inform cpu state =>
      { l with pds :=
        { l.pds with scheduler := seekerCpufreqInform cpu state l.pds.scheduler } }
  | .task ts task => { l with pds := l.pds.setTask ts task }

/-- The kernel releases a task once and raises no event of it afterwards. -/
def LifeEvent.Alive (l : Lives) : LifeEvent → Prop
  | .fork _ new => new ∉ l.released
  | .switchTo _ _ prev => prev ∉ l.released
  | .sysSeeker ts _ _ => ts ∉ l.released
  | .release ts => ts ∉ l.released
  | _ => True

/-- A released task is managed or has no pending work. -/
def LifeEvent.Released (l : Lives) : LifeEvent → Prop
  | .release ts =>
      Managed (l.pds.tasks ts) ∨ ¬ HasPendingWork l.pds.size l.pds.migPool ts
  | _ => True

/-- The two rules together. -/
def LifeEvent.Proper (l : Lives) (event : LifeEvent) : Prop := event.Alive l ∧ event.Released l

instance (l : Lives) (event : LifeEvent) : Decidable (event.Alive l) :=
  match event with
  | .fork _ new => inferInstanceAs (Decidable (new ∉ l.released))
  | .switchTo _ _ prev => inferInstanceAs (Decidable (prev ∉ l.released))
  | .sysSeeker ts _ _ => inferInstanceAs (Decidable (ts ∉ l.released))
  | .release ts => inferInstanceAs (Decidable (ts ∉ l.released))
  | .expire _ => isTrue trivial
  | .execute _ _ => isTrue trivial
  | .inform _ _ => isTrue trivial
  | .task _ _ => isTrue trivial

instance (l : Lives) (event : LifeEvent) : Decidable (event.Released l) :=
  match event with
  | .release _ => inferInstanceAs (Decidable (_ ∨ ¬ _))
  | .fork _ _ => isTrue trivial
  | .switchTo _ _ _ => isTrue trivial
  | .sysSeeker _ _ _ => isTrue trivial
  | .expire _ => isTrue trivial
  | .execute _ _ => isTrue trivial
  | .inform _ _ => isTrue trivial
  | .task _ _ => isTrue trivial

instance (l : Lives) (event : LifeEvent) : Decidable (event.Proper l) :=
  inferInstanceAs (Decidable (_ ∧ _))

/-! ### What the probes do to the pool -/

section Probes

variable {p : Pds} {ts other : Nat}

/-- The release of a task leaves none of its work behind exactly when the task is managed or has
no pending work. -/
theorem instReleaseThread_clears_iff (ts : Nat) (p : Pds) :
    ¬ HasPendingWork p.size (instReleaseThread ts p).migPool ts ↔
      Managed (p.tasks ts) ∨ ¬ HasPendingWork p.size p.migPool ts := by
  unfold instReleaseThread Managed
  dsimp only
  split
  · rename_i unmarked
    exact ⟨Or.inr, fun clear => clear.resolve_left fun managed => unmarked managed.1⟩
  · rename_i marked
    split
    · rename_i blacklisted
      refine ⟨Or.inr, fun clear => clear.resolve_left fun managed => ?_⟩
      rw [managed.2] at blacklisted
      cases blacklisted
    · rename_i notBlacklisted
      refine ⟨fun _ => Or.inl ⟨not_not.mp marked, Bool.eq_false_iff.mpr notBlacklisted⟩,
        fun _ => not_hasPendingWork_cancelTaskWork _ _ _ _⟩

/-- A release brings no pending work to any task. -/
theorem HasPendingWork.of_instReleaseThread
    (pending : HasPendingWork p.size (instReleaseThread other p).migPool ts) :
    HasPendingWork p.size p.migPool ts := by
  unfold instReleaseThread at pending
  dsimp only at pending
  split at pending
  · exact pending
  · split at pending
    · exact pending
    · exact pending.of_cancelTaskWork

theorem instReleaseThread_size (ts : Nat) (p : Pds) : (instReleaseThread ts p).size = p.size := by
  unfold instReleaseThread
  dsimp only
  split
  · rfl
  · split <;> rfl

/-- What an event about one task may do to the pool: bring pending work to that task only. -/
structure WorksFor (other : Nat) (p p' : Pds) : Prop where
  size : p'.size = p.size
  pending : ∀ ts, ts ≠ other → HasPendingWork p.size p'.migPool ts →
    HasPendingWork p.size p.migPool ts

theorem WorksFor.refl (other : Nat) (p : Pds) : WorksFor other p p := ⟨rfl, fun _ _ => id⟩

/-- A write to a task beforehand makes no difference to the pool. -/
theorem WorksFor.of_setTask {p p' : Pds} {task : TaskStruct}
    (worksFor : WorksFor other (p.setTask ts task) p') : WorksFor other p p' :=
  ⟨worksFor.size, worksFor.pending⟩

theorem worksFor_initialMask (around : Surroundings) (ts : Nat) (p : Pds) :
    WorksFor ts p (initialMask around ts p) := by
  obtain ⟨assigned, mask, migPool, _⟩ := initialMask_spec around ts p
  refine ⟨assigned.size, fun other different pending => ?_⟩
  rw [migPool] at pending
  exact pending.of_putWork different

theorem worksFor_putMaskFromStats (around : Surroundings) (ts : Nat) (p : Pds) :
    WorksFor ts p (putMaskFromStats around ts p) := by
  obtain ⟨assigned, mask, hands, _⟩ := putMaskFromStats_spec around ts p
  refine ⟨assigned.size, fun other different pending => ?_⟩
  rcases hands with ⟨migPool, _⟩ | ⟨_, migPool, _⟩
  · exact migPool ▸ pending
  · rw [migPool] at pending
    exact pending.of_putWork different

theorem worksFor_instSchedFork (around : Surroundings) (new : Nat) (p : Pds) :
    WorksFor new p (instSchedFork around new p) := by
  unfold instSchedFork
  dsimp only
  split
  · exact (worksFor_initialMask around new _).of_setTask.of_setTask
  · exact (WorksFor.refl new _).of_setTask

theorem worksFor_instSwitchTo (around : Surroundings) (counters : Counters) (prev : Nat)
    (p : Pds) : WorksFor prev p (instSwitchTo around counters prev p) := by
  unfold instSwitchTo
  dsimp only
  split
  · exact (WorksFor.refl prev _).of_setTask
  · split
    · exact (WorksFor.refl prev _).of_setTask
    · split
      · exact (worksFor_putMaskFromStats around prev _).of_setTask
      · exact (WorksFor.refl prev _).of_setTask

theorem setCpusAllowed_migPool (accepted : Bool) (call : Option (Nat × Cpumask)) (p : Pds) :
    (p.setCpusAllowed accepted call).migPool = p.migPool ∧
      (p.setCpusAllowed accepted call).size = p.size := by
  unfold Pds.setCpusAllowed
  split
  · exact ⟨rfl, rfl⟩
  · split <;> exact ⟨rfl, rfl⟩

/-- An execution brings no pending work to any task. -/
theorem HasPendingWork.of_execute {slot : Nat} {accepted : Bool}
    (pending : HasPendingWork p.size (p.execute slot accepted).migPool ts) :
    HasPendingWork p.size p.migPool ts := by
  unfold Pds.execute at pending
  dsimp only at pending
  rw [(setCpusAllowed_migPool ..).1] at pending
  exact pending.of_executeWork

end Probes

/-! ### No work survives its task -/

/-- No released task has pending work. -/
structure Settled (slots : Nat) (l : Lives) : Prop where
  size : l.pds.size = slots
  clear : ∀ ts ∈ l.released, ¬ HasPendingWork slots l.pds.migPool ts

variable {slots : Nat} {l : Lives}

/-- An event that brings pending work to one living task only. -/
theorem Settled.worksFor (settled : Settled slots l) {other : Nat} (living : other ∉ l.released)
    {p' : Pds} (worksFor : WorksFor other l.pds p') : Settled slots { l with pds := p' } where
  size := worksFor.size.trans settled.size
  clear ts member pending := by
    have different : ts ≠ other := fun same => living (same ▸ member)
    have before := worksFor.pending ts different
    rw [settled.size] at before
    exact settled.clear ts member (before pending)

/-- An event that brings pending work to no task. -/
theorem Settled.of_imp (settled : Settled slots l) {p' : Pds} (kept : p'.size = l.pds.size)
    (brings : ∀ ts, HasPendingWork l.pds.size p'.migPool ts →
      HasPendingWork l.pds.size l.pds.migPool ts) : Settled slots { l with pds := p' } where
  size := kept.trans settled.size
  clear ts member pending := by
    have before := brings ts
    rw [settled.size] at before
    exact settled.clear ts member (before pending)

theorem Settled.release (settled : Settled slots l) {ts : Nat}
    (released : (LifeEvent.release ts).Released l) :
    Settled slots (lifeStep l (.release ts)) where
  size := (instReleaseThread_size ts l.pds).trans settled.size
  clear other member pending := by
    rw [← settled.size] at pending
    rcases List.mem_cons.mp member with rfl | earlier
    · exact (instReleaseThread_clears_iff other l.pds).mpr released pending
    · have before := pending.of_instReleaseThread
      rw [settled.size] at before
      exact settled.clear other earlier before

/-- One event leaves no released task with pending work. -/
theorem Settled.step (settled : Settled slots l) {event : LifeEvent} (proper : event.Proper l) :
    Settled slots (lifeStep l event) := by
  cases event with
  | fork around new =>
    exact settled.worksFor proper.1 (worksFor_instSchedFork around new l.pds)
  | switchTo around counters prev =>
    exact settled.worksFor proper.1 (worksFor_instSwitchTo around counters prev l.pds)
  | sysSeeker ts cmd parm => exact settled.worksFor proper.1 (WorksFor.refl ts _).of_setTask
  | expire slot => exact settled.of_imp rfl fun _ pending => pending.of_expireTimer
  | execute slot accepted =>
    exact settled.of_imp (setCpusAllowed_migPool ..).2 fun _ pending => pending.of_execute
  | release ts => exact settled.release proper.2
  | inform cpu state => exact settled.of_imp rfl fun _ => id
  | task ts task => exact settled.of_imp rfl fun _ => id

/-- The start of a run: no task has been released. -/
def Lives.start (p : Pds) : Lives := { pds := p, released := [] }

/-- In every run in which the kernel keeps to its protocol and each task that is released is
managed or has no pending work, no claimed slot belongs to a released task. -/
theorem released_work_cancelled (p : Pds) (events : List LifeEvent)
    (proper : Exec.Meets lifeStep LifeEvent.Proper (Lives.start p) events) :
    let final := Exec.run lifeStep (Lives.start p) events
    ∀ ts ∈ final.released, ∀ slot, slot < p.size → (final.pds.migPool slot).free = false →
      (final.pds.migPool slot).task ≠ some ts := by
  have settled := Exec.run_invariant (Settled p.size) (fun _ _ kept meets => kept.step meets)
    ⟨rfl, fun _ member => absurd member List.not_mem_nil⟩ proper
  intro final ts member slot small busy task
  exact settled.clear ts member ⟨slot, small, busy, task⟩

/-- The tasks of a machine with one cpu and one state, none of them started. -/
def restingPds (size : Nat) : Pds :=
  Pds.start (fun _ => acceptingDriver) true 1 1 size (fun pid => freshTask pid "sh")
    (loadedMachine 1 1 1 [])

/-- Two tasks are forked and the first is released: the slot that stays claimed is not its own. -/
theorem released_work_cancelled_of_two :
    ((Exec.run lifeStep (Lives.start (restingPds 2))
      [.fork (idleSurroundings 0) 7, .fork (idleSurroundings 0) 8, .release 7]).pds.migPool
        1).task ≠ some 7 :=
  released_work_cancelled (restingPds 2)
    [.fork (idleSurroundings 0) 7, .fork (idleSurroundings 0) 8, .release 7] (by decide)
    7 (by decide) 1 (by decide) (by decide)

/-- A task is forked, takes its mark away with `sys_seeker(2)` and is released: its work is left
behind. -/
theorem released_work_survives :
    let final := Exec.run lifeStep (Lives.start (restingPds 2))
      [.fork (idleSurroundings 0) 7, .sysSeeker 7 2 0, .release 7]
    Exec.Meets lifeStep LifeEvent.Alive (Lives.start (restingPds 2))
        [.fork (idleSurroundings 0) 7, .sysSeeker 7 2 0, .release 7] ∧
      7 ∈ final.released ∧ 0 < final.pds.size ∧ (final.pds.migPool 0).free = false ∧
      (final.pds.migPool 0).task = some 7 := by
  decide

end Seeker
