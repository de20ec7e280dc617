/-
This file asks whether tasks stay on the cpus `allowed_cpus` names.

The masks tasks are given are the masks of the states, and those are edited by the
callbacks of seeker-cpufreq, which knows nothing of `allowed_cpus`. A callback for a
cpu beyond the allowed ones that moves it to a state of the table enters it in that
state's mask. As long as none does, every mask handed to `put_work` is a non-empty
set of allowed cpus; the example at the end is a run in which one does.
-/
import Mathlib.Tactic.Common
import Seeker.Machine
import Seeker.Pds

namespace Seeker

/-! ### The allowed cpus -/

/-- The part of `scheduler_init` that applies the parameter `allowed_cpus`; `numOnline` is
`num_online_cpus()`. -/
def limitCpus (numOnline : Nat) (allowedCpus : Int) (s : Scheduler) : Scheduler :=
  let total :=
    if allowedCpus ≠ 0 ∧ allowedCpus > 0 ∧ allowedCpus ≤ numOnline then allowedCpus.toNat
    else numOnline
  { s with totalOnlineCpus := total, totalOnlineMask := Finset.range total }

theorem limitCpus_totalOnlineCpus_pos {numOnline : Nat} (someCpu : 0 < numOnline)
    (allowedCpus : Int) (s : Scheduler) :
    0 < (limitCpus numOnline allowedCpus s).totalOnlineCpus := by
  unfold limitCpus
  dsimp only
  split
  · rename_i limited
    exact Int.lt_toNat.mpr limited.2.1
  · exact someCpu

/-! ### The runs -/

/-- What happens between initialisation and a moment of a run: callbacks, task starts, task
evaluations, and whatever else changes a task. -/
inductive PdsEvent where
  | inform (cpu state : Nat)
  | initialMask (around : Surroundings) (ts : Nat)
  | putMaskFromStats (around : Surroundings) (ts : Nat)
  | task (ts : Nat) (task : TaskStruct)

/-- One event. -/
def pdsStep (p : Pds) : PdsEvent → Pds
  | .inform cpu state => { p with scheduler := seekerCpufreqInform cpu state p.scheduler }
  | .initialMask around ts => initialMask around ts p
  | .putMaskFromStats around ts => putMaskFromStats around ts p
  | .task ts task => p.setTask ts task

/-- The scheduler loaded with `allowed_cpus` and its states initialised, before the first task. -/
def Pds.start (driver : Nat → Driver) (memory : Bool) (numOnline : Nat) (allowedCpus : Int)
    (size : Nat) (tasks : Nat → TaskStruct) (m : Machine) : Pds where
  scheduler :=
    (initCpuStates driver memory (m.mapScheduler (limitCpus numOnline allowedCpus))).2.scheduler
  tasks := tasks
  size := size
  migPool := initMigPool size staticPool
  handed := []

/-- The event is no callback that moves a cpu beyond the allowed ones to a state of the table. -/
def PdsEvent.Inside (p : Pds) : PdsEvent → Prop
  | .inform cpu state =>
      cpu < p.scheduler.totalOnlineCpus ∨ p.scheduler.curCpuState cpu = state ∨
        p.scheduler.totalStates ≤ state
  | _ => True

instance (p : Pds) (event : PdsEvent) : Decidable (event.Inside p) :=
  match event with
  | .inform _ _ => inferInstanceAs (Decidable (_ ∨ _ ∨ _))
  | .initialMask _ _ => isTrue trivial
  | .putMaskFromStats _ _ => isTrue trivial
  | .task _ _ => isTrue trivial

/-! ### Confinement -/

/-- The masks of the states, and the masks handed out so far, lie within the allowed cpus. -/
structure Confined (allowed : Nat) (p : Pds) : Prop where
  totalOnlineCpus : p.scheduler.totalOnlineCpus = allowed
  totalOnlineMask : p.scheduler.totalOnlineMask = Finset.range allowed
  states : ∀ state, state < p.scheduler.totalStates →
    (p.scheduler.states state).cpumask ⊆ Finset.range allowed
  handed : ∀ given ∈ p.handed, given.2.Nonempty ∧ given.2 ⊆ Finset.range allowed

variable {allowed : Nat} {p p' : Pds}

/-- What leaves the masks of the states alone and hands out at most one more good mask. -/
theorem Confined.assigned (confined : Confined allowed p) (assigned : Assigned p p')
    (handed : ∀ given ∈ p'.handed, given ∈ p.handed ∨
      (given.2.Nonempty ∧ given.2 ⊆ Finset.range allowed)) : Confined allowed p' where
  totalOnlineCpus := assigned.totalOnlineCpus.trans confined.totalOnlineCpus
  totalOnlineMask := assigned.totalOnlineMask.trans confined.totalOnlineMask
  states state inRange := by
    rw [assigned.totalStates] at inRange
    rw [assigned.cpumask]
    exact confined.states state inRange
  handed given member := (handed given member).elim (confined.handed given) id

theorem Confined.putMaskFromStats (confined : Confined allowed p) (around : Surroundings)
    (ts : Nat) : Confined allowed (putMaskFromStats around ts p) := by
  obtain ⟨assigned, mask, hands, source⟩ := putMaskFromStats_spec around ts p
  refine confined.assigned assigned fun given member => ?_
  rcases hands with ⟨_, handed⟩ | ⟨nonempty, _, handed⟩
  · rw [handed] at member
    exact Or.inl member
  · rw [handed, List.mem_append, List.mem_singleton] at member
    rcases member with earlier | rfl
    · exact Or.inl earlier
    · obtain ⟨state, inRange, rfl⟩ := source.resolve_left nonempty
      exact Or.inr ⟨Finset.nonempty_iff_ne_empty.mpr nonempty, confined.states state inRange⟩

theorem Confined.initialMask (confined : Confined allowed p) (someCpu : 0 < allowed)
    (around : Surroundings) (ts : Nat) : Confined allowed (initialMask around ts p) := by
  obtain ⟨assigned, mask, _, handed, source⟩ := initialMask_spec around ts p
  refine confined.assigned assigned fun given member => ?_
  rw [handed, List.mem_append, List.mem_singleton] at member
  rcases member with earlier | rfl
  · exact Or.inl earlier
  · rcases source with rfl | ⟨nonempty, state, inRange, rfl⟩
    · rw [confined.totalOnlineMask]
      exact Or.inr ⟨Finset.nonempty_range_iff.mpr someCpu.ne', Finset.Subset.refl _⟩
    · exact Or.inr ⟨Finset.nonempty_iff_ne_empty.mpr nonempty, confined.states state inRange⟩

/-- A callback that stays inside keeps the masks of the states inside. -/
theorem Confined.inform (confined : Confined allowed p) {cpu state : Nat}
    (inside : (PdsEvent.inform cpu state).Inside p) :
    Confined allowed (pdsStep p (.inform cpu state)) where
  totalOnlineCpus := (seekerCpufreqInform_totalOnlineCpus ..).trans confined.totalOnlineCpus
  totalOnlineMask := by
    obtain ⟨_, _, informed⟩ := seekerCpufreqInform_eq cpu state p.scheduler
    show (seekerCpufreqInform cpu state p.scheduler).totalOnlineMask = _
    rw [informed]
    exact confined.totalOnlineMask
  states other inRange := by
    have kept := confined.states other
      ((seekerCpufreqInform_totalStates cpu state p.scheduler) ▸ inRange)
    show ((seekerCpufreqInform cpu state p.scheduler).states other).cpumask ⊆ _
    rw [seekerCpufreqInform_states]
    by_cases same : p.scheduler.curCpuState cpu = state
    · rw [if_neg (not_not.mpr same)]
      exact kept
    · rw [if_pos same]
      intro bystander member
      by_cases moved : bystander = cpu
      · subst moved
        rcases (mem_moveCpu_self same other).mp member with target | ⟨_, before⟩
        · -- The callback enters the cpu in a state of the table, so it is an allowed one.
          subst target
          have online := inside.resolve_right fun outside => outside.elim same
            (not_le.mpr ((seekerCpufreqInform_totalStates bystander other p.scheduler) ▸ inRange))
          exact Finset.mem_range.mpr (confined.totalOnlineCpus ▸ online)
        · exact kept before
      · exact kept ((mem_moveCpu_of_ne same moved other).mp member)
  handed := confined.handed

/-- One event keeps the masks inside. -/
theorem Confined.step (confined : Confined allowed p) (someCpu : 0 < allowed) {event : PdsEvent}
    (inside : event.Inside p) : Confined allowed (pdsStep p event) := by
  cases event with
  | inform cpu state => exact confined.inform inside
  | initialMask around ts => exact confined.initialMask someCpu around ts
  | putMaskFromStats around ts => exact confined.putMaskFromStats around ts
  | task ts task =>
    exact ⟨confined.totalOnlineCpus, confined.totalOnlineMask, confined.states, confined.handed⟩

theorem Confined.start {m : Machine} (loaded : Loaded m) (driver : Nat → Driver) (memory : Bool)
    (numOnline : Nat) (allowedCpus : Int) (size : Nat) (tasks : Nat → TaskStruct) :
    Confined (limitCpus numOnline allowedCpus m.scheduler).totalOnlineCpus
      (Pds.start driver memory numOnline allowedCpus size tasks m) := by
  have limited : Loaded (m.mapScheduler (limitCpus numOnline allowedCpus)) :=
    ⟨loaded.callback, loaded.absent, loaded.others⟩
  have initialised := initCpuStates_initialised limited driver memory
  exact ⟨initialised.totalOnlineCpus, initialised.totalOnlineMask,
    fun _ inRange => initialised.cpumask_subset inRange, fun _ member => absurd member
      List.not_mem_nil⟩

/-- In every run after initialisation in which no callback moves a cpu beyond the allowed ones to
a state of the table, every mask handed to `put_work` is a non-empty set of allowed cpus. -/
theorem masks_confined {m : Machine} (loaded : Loaded m) (driver : Nat → Driver) (memory : Bool)
    {numOnline : Nat} (someCpu : 0 < numOnline) (allowedCpus : Int) (size : Nat)
    (tasks : Nat → TaskStruct) (events : List PdsEvent)
    (inside : Exec.Meets pdsStep PdsEvent.Inside
      (Pds.start driver memory numOnline allowedCpus size tasks m) events) :
    let final := Exec.run pdsStep (Pds.start driver memory numOnline allowedCpus size tasks m)
      events
    ∀ given ∈ final.handed, given.2.Nonempty ∧ given.2 ⊆ final.scheduler.totalOnlineMask := by
  have confined := Exec.run_invariant
    (Confined (limitCpus numOnline allowedCpus m.scheduler).totalOnlineCpus)
    (fun _ _ kept meets => kept.step (limitCpus_totalOnlineCpus_pos someCpu _ _) meets)
    (Confined.start loaded driver memory numOnline allowedCpus size tasks) inside
  intro final given member
  rw [confined.totalOnlineMask]
  exact confined.handed given member

/-- A task that has just been forked. -/
def freshTask (pid : Nat) (comm : String) : TaskStruct where
  pid := pid
  comm := comm
  cpusAllowed := ∅
  seekerScheduled := 0
  fixedState := -1
  cpustate := none
  interval := 0
  inst := 0
  reCy := 0
  refCy := 0
  histStep := 0

/-- A call on a cpu of an idle machine. -/
def idleSurroundings (cpu : Nat) : Surroundings := ⟨cpu, fun _ => 0, fun _ => 0⟩

/-- One of two cpus is allowed: a callback for it, and one for the other cpu that changes
nothing, leave a new task with the allowed cpu. -/
theorem masks_confined_one_of_two :
    let final := Exec.run pdsStep
      (Pds.start (fun _ => acceptingDriver) true 2 1 8 (fun pid => freshTask pid "sh")
        (loadedMachine 2 1 2 []))
      [.inform 0 1, .inform 1 0, .initialMask (idleSurroundings 0) 7]
    final.handed.map Prod.fst = [7] ∧
      ∀ given ∈ final.handed, given.2.Nonempty ∧ given.2 ⊆ final.scheduler.totalOnlineMask := by
  refine ⟨by decide, ?_⟩
  exact masks_confined (loadedMachine_loaded 2 1 2 []) (fun _ => acceptingDriver) true (by decide)
    1 8 (fun pid => freshTask pid "sh")
    [.inform 0 1, .inform 1 0, .initialMask (idleSurroundings 0) 7] (by decide)

/-- One of two cpus is allowed and the speed of the other one is set by a user: the callback
enters it in the mask of state `1`, and a new task is sent there. -/
theorem masks_not_confined :
    let m := loadedMachine 2 1 2 []
    let final := Exec.run pdsStep
      (Pds.start (fun _ => acceptingDriver) true 2 1 8 (fun pid => freshTask pid "sh") m)
      [.inform 1 1, .initialMask (idleSurroundings 0) 7]
    Loaded m ∧ 1 < m.cpufreq.nrCpus ∧ final.scheduler.totalOnlineMask = {0} ∧
      ∃ given ∈ final.handed, ¬ given.2 ⊆ final.scheduler.totalOnlineMask := by
  refine ⟨loadedMachine_loaded 2 1 2 [], ?_⟩
  decide

end Seeker
