/-
This file embeds `exit_mig_pool`, one access at a time, and follows the works of the pool
past it.

The call stops the timer of every claimed slot and marks every slot as busy. It does not
reach a work that waits in the queue or is executing, and it waits for none. The file
says what comes of these: no timer is left, and a work whose execution is still due is
applied once, for `change_cpus` finds its slot busy. That includes the works that
`cancel_task_work` had taken back by freeing their slots.
-/
import Mathlib.Data.Fintype.Basic
import Seeker.MigrationPool

namespace Seeker

/-! ### The call -/

/-- The next access of `exit_mig_pool` to the slot its loop has come to. -/
inductive ExitStage where
  | readFree
  | cancelWork
  | markBusy
  deriving DecidableEq

/-- How far `exit_mig_pool` has come. While its loop runs, it holds `mig_pool_lock`. -/
inductive ExitProgress where
  | uncalled
  | visiting (slot : Nat) (stage : ExitStage)
  | returned
  deriving DecidableEq

/-- How the execution of a slot's work ends: the mask is applied to the task, which may have it
already, or the slot is found free. -/
inductive Outcome where
  | applied (slot : Nat)
  | dropped (slot : Nat)
  deriving DecidableEq

/-- The pool with the call of `exit_mig_pool`, and how the executions have ended, which the code
does not keep. -/
structure ExitingPool (cpus : Nat) extends MigrationPool cpus where
  exit : ExitProgress
  outcomes : List Outcome

variable {cpus : Nat}

/-- One access of `exit_mig_pool` to a slot. -/
def exitMigPoolStep (slot : Nat) (stage : ExitStage) (e : ExitingPool cpus) : ExitingPool cpus :=
  match stage with
  | .readFree =>
    if e.size ≤ slot then { e with exit := .returned }
    else if (e.pool slot).free then { e with exit := .visiting slot .markBusy }
    else { e with exit := .visiting slot .cancelWork }
  | .cancelWork =>
    { e with
      toPoolState := e.toPoolState.modify slot .cancelDelayedWork
      exit := .visiting slot .markBusy }
  | .markBusy =>
    { e with
      toPoolState := e.toPoolState.modify slot fun work => { work with free := false }
      exit := .visiting (slot + 1) .readFree }

/-- How the next access of a cpu's execution ends it, if it does. -/
def PoolState.outcome (c : PoolState cpus) (cpu : Fin cpus) (cpusAllowed : Cpumask) :
    Option Outcome :=
  match c.workers cpu with
  | some ⟨slot, .readFree _⟩ => if (c.pool slot).free then some (.dropped slot) else none
  | some ⟨slot, .readMask _⟩ =>
    if (c.pool slot).mask = cpusAllowed then some (.applied slot) else none
  | some ⟨slot, .apply _⟩ => some (.applied slot)
  | _ => none

/-- An event of the pool; `exit_mig_pool` is called and takes the lock; it makes its next
access. -/
inductive ExitEvent (cpus : Nat) where
  | pool (event : PoolEvent cpus)
  | exitMigPool
  | exit

/-- The event is a put or a cancellation that takes the lock. -/
def PoolEvent.locks : PoolEvent cpus → Bool
  | .putWork _ _ _ => true
  | .cancelTaskWork _ => true
  | _ => false

/-- How an event of the pool ends an execution, if it does. -/
def PoolEvent.outcome (c : PoolState cpus) : PoolEvent cpus → Option Outcome
  | .execution cpu cpusAllowed => c.outcome cpu cpusAllowed
  | _ => none

/-- The lock is held by `exit_mig_pool`. -/
def ExitProgress.holds : ExitProgress → Bool
  | .visiting _ _ => true
  | _ => false

/-- One event. -/
def exitStep (e : ExitingPool cpus) : ExitEvent cpus → ExitingPool cpus
  | .pool event =>
    if event.locks && e.exit.holds then e
    else
      { e with
        toMigrationPool := poolStep e.toMigrationPool event
        outcomes := e.outcomes ++ (event.outcome e.toPoolState).toList }
  | .exitMigPool =>
    match e.lock, e.exit with
    | none, .uncalled => { e with exit := .visiting 0 .readFree }
    | _, _ => e
  | .exit =>
    match e.exit with
    | .visiting slot stage => exitMigPoolStep slot stage e
    | _ => e

/-- The pool after `init_mig_pool`. -/
def ExitingPool.start (cpus size : Nat) : ExitingPool cpus :=
  { MigrationPool.start cpus size with exit := .uncalled, outcomes := [] }

/-! ### The conditions -/

/-- `scheduler_exit` has removed the probes before it calls `exit_mig_pool`: no put is unfinished
then, and no put and no cancellation is called afterwards. Before that the pool is timely. -/
def ExitEvent.Orderly (e : ExitingPool cpus) : ExitEvent cpus → Prop
  | .pool event => event.Timely e.toMigrationPool ∧ (e.exit = .uncalled ∨ event.locks = false)
  | .exitMigPool => ∀ cpu, e.puts cpu = none
  | .exit => True

instance exitOrderlyDecidable (e : ExitingPool cpus) (event : ExitEvent cpus) :
    Decidable (event.Orderly e) :=
  match event with
  | .pool _ => inferInstanceAs (Decidable (_ ∧ _))
  | .exitMigPool => inferInstanceAs (Decidable (∀ cpu, e.puts cpu = none))
  | .exit => isTrue trivial

/-- The execution has yet to end. -/
def ExecutionStage.due : ExecutionStage → Bool
  | .release => false
  | _ => true

/-- The work of a slot has yet to be executed, or its execution has yet to end. -/
def PoolState.outstanding (c : PoolState cpus) (slot : Nat) : Bool :=
  (c.pool slot).queued ||
    decide (∃ cpu, (c.workers cpu).any fun execution =>
      decide (execution.slot = slot) && execution.stage.due)

/-! ### A work is in one place -/

/-- No execution works on the slot. -/
def PoolState.Idle (c : PoolState cpus) (slot : Nat) : Prop :=
  ∀ cpu, ∀ execution ∈ c.workers cpu, execution.slot ≠ slot

/-- The work of a slot waits for its timer, waits in the queue or executes on one cpu; while it
waits for its timer, its slot is claimed. -/
structure SlotAlone (c : PoolState cpus) (slot : Nat) : Prop where
  timer : (c.pool slot).timer = true →
    (c.pool slot).free = false ∧ (c.pool slot).queued = false ∧ c.Idle slot
  queued : (c.pool slot).queued = true → c.Idle slot
  unique : ∀ first second, ∀ execution ∈ c.workers first, ∀ rival ∈ c.workers second,
    execution.slot = slot → rival.slot = slot → first = second

/-- What a step does to a slot that it does not touch. -/
structure Untouched (c c' : PoolState cpus) (slot : Nat) : Prop where
  pool : c'.pool slot = c.pool slot
  workers : ∀ cpu execution, execution.slot = slot →
    (execution ∈ c'.workers cpu ↔ execution ∈ c.workers cpu)

section Alone

variable {c c' : PoolState cpus} {slot : Nat} {cpu : Fin cpus} {execution : Execution}

/-- A step that leaves the executions alone. -/
theorem SlotAlone.of_workers (alone : SlotAlone c slot) (workers : c'.workers = c.workers)
    (timer : (c'.pool slot).timer = true →
      (c'.pool slot).free = false ∧ (c'.pool slot).queued = false ∧ c.Idle slot)
    (queued : (c'.pool slot).queued = true → c.Idle slot) : SlotAlone c' slot := by
  have idle : c.Idle slot → c'.Idle slot := fun free => by
    unfold PoolState.Idle
    rw [workers]
    exact free
  refine ⟨fun armed => ?_, fun waits => idle (queued waits), ?_⟩
  · obtain ⟨busy, unqueued, free⟩ := timer armed
    exact ⟨busy, unqueued, idle free⟩
  · rw [workers]
    exact alone.unique

/-- A step that leaves the executions and the state of the slot's work alone. -/
theorem SlotAlone.congr (alone : SlotAlone c slot) (workers : c'.workers = c.workers)
    (timer : (c'.pool slot).timer = (c.pool slot).timer)
    (free : (c'.pool slot).free = (c.pool slot).free)
    (queued : (c'.pool slot).queued = (c.pool slot).queued) : SlotAlone c' slot := by
  refine alone.of_workers workers ?_ ?_
  · rw [timer, free, queued]
    exact alone.timer
  · rw [queued]
    exact alone.queued

/-- A step that leaves a slot and the executions on it alone. -/
theorem SlotAlone.frame (alone : SlotAlone c slot) (untouched : Untouched c c' slot) :
    SlotAlone c' slot := by
  have idle : c.Idle slot → c'.Idle slot := fun free cpu execution member here =>
    free cpu execution ((untouched.workers cpu execution here).mp member) here
  refine ⟨?_, ?_, ?_⟩
  · rw [untouched.pool]
    exact fun armed =>
      ⟨(alone.timer armed).1, (alone.timer armed).2.1, idle (alone.timer armed).2.2⟩
  · rw [untouched.pool]
    exact fun waits => idle (alone.queued waits)
  · intro first second execution member rival other here there
    exact alone.unique first second execution
      ((untouched.workers first execution here).mp member) rival
      ((untouched.workers second rival there).mp other) here there

/-- A step of an execution, which goes on or ends: its slot's timer does not run. -/
theorem SlotAlone.of_execution (alone : SlotAlone c execution.slot)
    (running : c.workers cpu = some execution) {new : Option Execution}
    (workers : c'.workers = Function.update c.workers cpu new)
    (timer : (c'.pool execution.slot).timer = (c.pool execution.slot).timer)
    (queued : (c'.pool execution.slot).queued = (c.pool execution.slot).queued) :
    SlotAlone c' execution.slot := by
  have unarmed : (c.pool execution.slot).timer = false := by
    by_contra armed
    exact (alone.timer (Bool.not_eq_false _ ▸ armed)).2.2 cpu execution running rfl
  have unqueued : (c.pool execution.slot).queued = false := by
    by_contra waits
    exact alone.queued (Bool.not_eq_false _ ▸ waits) cpu execution running rfl
  have only : ∀ other, ∀ item ∈ c'.workers other, item.slot = execution.slot → other = cpu := by
    intro other item member here
    by_contra different
    rw [workers, Function.update_of_ne different] at member
    exact different (alone.unique other cpu item member execution running here rfl)
  refine ⟨?_, ?_, fun first second item member rival other here there => ?_⟩
  · rw [timer, unarmed]
    exact fun armed => Bool.noConfusion armed
  · rw [queued, unqueued]
    exact fun waits => Bool.noConfusion waits
  · rw [only first item member here, only second rival other there]

/-- A cpu takes up the work of a slot. -/
theorem SlotAlone.of_execute (alone : SlotAlone c slot) (waits : (c.pool slot).queued = true)
    {stage : ExecutionStage}
    (workers : c'.workers = Function.update c.workers cpu (some ⟨slot, stage⟩))
    (timer : (c'.pool slot).timer = (c.pool slot).timer)
    (queued : (c'.pool slot).queued = false) : SlotAlone c' slot := by
  have unarmed : (c.pool slot).timer = false := by
    by_contra armed
    have unqueued := (alone.timer (Bool.not_eq_false _ ▸ armed)).2.1
    rw [waits] at unqueued
    cases unqueued
  have only : ∀ other, ∀ item ∈ c'.workers other, item.slot = slot → other = cpu := by
    intro other item member here
    by_contra different
    rw [workers, Function.update_of_ne different] at member
    exact alone.queued waits other item member here
  refine ⟨?_, ?_, fun first second item member rival other here there => ?_⟩
  · rw [timer, unarmed]
    exact fun armed => Bool.noConfusion armed
  · rw [queued]
    exact fun waiting => Bool.noConfusion waiting
  · rw [only first item member here, only second rival other there]

end Alone

/-! ### What the kernel does to the pool -/

/-- The steps of the kernel on the work of a slot, and how they end an execution: nothing happens,
the timer of the work expires, a cpu takes it up, its execution goes on, comes to its end, finds the
slot free, or releases it. -/
inductive KernelStep (c : PoolState cpus) : Nat → Option Outcome → PoolState cpus → Prop
  | rest (slot : Nat) : KernelStep c slot none c
  | expire (slot : Nat) (timer : (c.pool slot).timer = true) :
      KernelStep c slot none
        (c.modify slot fun work => { work with timer := false, queued := true })
  | execute (cpu : Fin cpus) (slot : Nat) (idle : c.workers cpu = none)
      (queued : (c.pool slot).queued = true) :
      KernelStep c slot none
        ((c.modify slot fun work => { work with queued := false }).setWorker cpu
          (some ⟨slot, .readTask⟩))
  | proceed (cpu : Fin cpus) (execution : Execution) (stage : ExecutionStage)
      (running : c.workers cpu = some execution) (due : execution.stage.due = true)
      (next : stage.due = true) :
      KernelStep c execution.slot none (c.setWorker cpu (some { execution with stage := stage }))
  | apply (cpu : Fin cpus) (execution : Execution) (running : c.workers cpu = some execution)
      (due : execution.stage.due = true) :
      KernelStep c execution.slot (some (.applied execution.slot))
        (c.setWorker cpu (some { execution with stage := .release }))
  | drop (cpu : Fin cpus) (execution : Execution) (running : c.workers cpu = some execution)
      (due : execution.stage.due = true) (free : (c.pool execution.slot).free = true) :
      KernelStep c execution.slot (some (.dropped execution.slot)) (c.setWorker cpu none)
  | release (cpu : Fin cpus) (execution : Execution) (running : c.workers cpu = some execution)
      (ended : execution.stage.due = false) :
      KernelStep c execution.slot none ((c.release execution.slot).setWorker cpu none)

section Kernel

variable {m : MigrationPool cpus} {c c' : PoolState cpus} {touched : Nat} {ended : Option Outcome}

/-- Each access of an execution is a step of the kernel on its slot. -/
theorem kernelStep_execution {cpu : Fin cpus} {execution : Execution}
    (running : m.workers cpu = some execution) (cpusAllowed : Cpumask) :
    KernelStep m.toPoolState execution.slot (m.toPoolState.outcome cpu cpusAllowed)
      (executionStep cpu execution cpusAllowed m).toPoolState := by
  obtain ⟨slot, stage⟩ := execution
  unfold PoolState.outcome executionStep
  rw [running]
  cases stage with
  | readTask => exact .proceed cpu _ _ running rfl rfl
  | readFree ts =>
    dsimp only
    split
    · rename_i free
      exact .drop cpu _ running rfl free
    · exact .proceed cpu _ _ running rfl rfl
  | readMask ts =>
    dsimp only
    split
    · exact .apply cpu _ running rfl
    · exact .proceed cpu _ _ running rfl rfl
  | apply ts => exact .apply cpu _ running rfl
  | release => exact .release cpu _ running rfl

theorem kernelStep_expire (slot : Nat) (c : PoolState cpus) :
    KernelStep c slot none { c with pool := expireTimer slot c.pool } := by
  unfold expireTimer
  split
  · rename_i timer
    exact .expire slot timer
  · exact .rest slot

theorem kernelStep_execute (cpu : Fin cpus) (slot : Nat) (m : MigrationPool cpus) :
    KernelStep m.toPoolState slot none (poolStep m (.execute cpu slot)).toPoolState := by
  simp only [poolStep]
  split
  · exact .rest slot
  · rename_i idle
    split
    · rename_i queued
      exact .execute cpu slot idle queued
    · exact .rest slot

theorem kernelStep_worker (cpu : Fin cpus) (cpusAllowed : Cpumask) (m : MigrationPool cpus) :
    ∃ slot, KernelStep m.toPoolState slot (m.toPoolState.outcome cpu cpusAllowed)
      (poolStep m (.execution cpu cpusAllowed)).toPoolState := by
  simp only [poolStep]
  cases running : m.workers cpu with
  | none =>
    unfold PoolState.outcome
    rw [running]
    exact ⟨0, .rest 0⟩
  | some execution => exact ⟨execution.slot, kernelStep_execution running cpusAllowed⟩

/-- While no put and no cancellation is in progress or called, the pool is the kernel's. -/
theorem kernelStep_poolStep (unlocked : m.lock = none) (finished : ∀ cpu, m.puts cpu = none)
    {event : PoolEvent cpus} (locks : event.locks = false) :
    ∃ slot, KernelStep m.toPoolState slot (event.outcome m.toPoolState)
      (poolStep m event).toPoolState := by
  cases event with
  | putWork cpu ts mask => cases locks
  | cancelTaskWork ts => cases locks
  | holder =>
    simp only [poolStep, holderStep, unlocked]
    exact ⟨0, .rest 0⟩
  | fill cpu =>
    simp only [poolStep, finished cpu]
    exact ⟨0, .rest 0⟩
  | expire slot => exact ⟨slot, kernelStep_expire slot m.toPoolState⟩
  | execute cpu slot => exact ⟨slot, kernelStep_execute cpu slot m⟩
  | execution cpu cpusAllowed => exact kernelStep_worker cpu cpusAllowed m

theorem executionStep_lock (cpu : Fin cpus) (execution : Execution) (cpusAllowed : Cpumask)
    (m : MigrationPool cpus) : (executionStep cpu execution cpusAllowed m).lock = m.lock := by
  unfold executionStep
  dsimp only
  split
  · rfl
  · split <;> rfl
  · split <;> rfl
  · rfl
  · rfl

/-- The kernel does not take the lock. -/
theorem poolStep_unlocked (unlocked : m.lock = none) (finished : ∀ cpu, m.puts cpu = none)
    {event : PoolEvent cpus} (locks : event.locks = false) : (poolStep m event).lock = none := by
  cases event with
  | putWork cpu ts mask => cases locks
  | cancelTaskWork ts => cases locks
  | holder => simp only [poolStep, holderStep, unlocked]
  | fill cpu => simp only [poolStep, finished cpu, unlocked]
  | expire slot => exact unlocked
  | execute cpu slot =>
    simp only [poolStep]
    split
    · exact unlocked
    · split <;> exact unlocked
  | execution cpu cpusAllowed =>
    simp only [poolStep]
    split
    · exact unlocked
    · exact (executionStep_lock ..).trans unlocked

theorem KernelStep.size (step : KernelStep c touched ended c') : c'.size = c.size := by
  cases step <;> rfl

theorem KernelStep.puts (step : KernelStep c touched ended c') : c'.puts = c.puts := by
  cases step <;> rfl

/-- An execution that ends is one on the slot of the step. -/
theorem KernelStep.ended_elsewhere (step : KernelStep c touched ended c') {slot : Nat}
    (different : slot ≠ touched) :
    ended ≠ some (.applied slot) ∧ ended ≠ some (.dropped slot) := by
  cases step <;> simp [Ne.symm different]

/-- A step of the kernel touches no other slot. -/
theorem KernelStep.untouched (step : KernelStep c touched ended c') {slot : Nat}
    (different : slot ≠ touched) : Untouched c c' slot := by
  have running : ∀ {cpu : Fin cpus} {execution : Execution},
      c.workers cpu = some execution → ∀ item ∈ c.workers cpu, item.slot = execution.slot := by
    intro cpu execution running item member
    rw [running] at member
    rw [← Option.some.inj member]
  cases step with
  | rest => exact ⟨rfl, fun _ _ _ => Iff.rfl⟩
  | expire _ timer => exact ⟨Function.update_of_ne different .., fun _ _ _ => Iff.rfl⟩
  | execute cpu _ idle queued =>
    refine ⟨Function.update_of_ne different .., mem_update_of_slot ?_ ?_ different⟩
    · intro item member
      have none : c.workers cpu = some item := member
      rw [idle] at none
      cases none
    · intro item member
      rw [← Option.some.inj member]
  | proceed cpu execution stage mine due next =>
    refine ⟨rfl, mem_update_of_slot (running mine) ?_ different⟩
    intro item member
    rw [← Option.some.inj member]
  | apply cpu execution mine due =>
    refine ⟨rfl, mem_update_of_slot (running mine) ?_ different⟩
    intro item member
    rw [← Option.some.inj member]
  | drop cpu execution mine due free =>
    refine ⟨rfl, mem_update_of_slot (running mine) ?_ different⟩
    intro item member
    cases member
  | release cpu execution mine ended =>
    refine ⟨Function.update_of_ne different .., mem_update_of_slot (running mine) ?_ different⟩
    intro item member
    cases member

/-- The kernel keeps every work in one place. -/
theorem SlotAlone.kernel (alone : ∀ slot, SlotAlone c slot) (step : KernelStep c touched ended c')
    (slot : Nat) : SlotAlone c' slot := by
  by_cases here : slot = touched
  swap
  · exact (alone slot).frame (step.untouched here)
  subst here
  cases step with
  | rest => exact alone slot
  | expire _ timer =>
    have pool : (c.modify slot fun work => { work with timer := false, queued := true }).pool
        slot = { c.pool slot with timer := false, queued := true } := Function.update_self ..
    refine (alone slot).of_workers rfl ?_ fun _ => ((alone slot).timer timer).2.2
    rw [pool]
    exact fun armed => Bool.noConfusion armed
  | execute cpu _ idle queued =>
    have pool : ((c.modify slot fun work => { work with queued := false }).setWorker cpu
        (some ⟨slot, .readTask⟩)).pool slot = { c.pool slot with queued := false } :=
      Function.update_self ..
    refine (alone slot).of_execute queued rfl ?_ ?_
    · rw [pool]
    · rw [pool]
  | proceed cpu execution stage running due next =>
    exact (alone execution.slot).of_execution running rfl rfl rfl
  | apply cpu execution running due =>
    exact (alone execution.slot).of_execution running rfl rfl rfl
  | drop cpu execution running due free =>
    exact (alone execution.slot).of_execution running rfl rfl rfl
  | release cpu execution running ended =>
    have pool : ((c.release execution.slot).setWorker cpu none).pool execution.slot =
        { c.pool execution.slot with free := true } := Function.update_self ..
    refine (alone execution.slot).of_execution running rfl ?_ ?_
    · rw [pool]
    · rw [pool]

/-- The kernel sets no timer. -/
theorem KernelStep.timer (step : KernelStep c touched ended c') {slot : Nat}
    (stopped : (c.pool slot).timer = false) : (c'.pool slot).timer = false := by
  by_cases here : slot = touched
  swap
  · rw [(step.untouched here).pool]
    exact stopped
  subst here
  have modified : ∀ change : MaskWork → MaskWork, (change (c.pool slot)).timer = false →
      ((c.modify slot change).pool slot).timer = false := by
    intro change changed
    show (Function.update c.pool slot _ slot).timer = false
    rw [Function.update_self]
    exact changed
  cases step with
  | rest => exact stopped
  | expire _ timer => exact modified _ rfl
  | execute cpu _ idle queued =>
    exact modified (fun work => { work with queued := false }) stopped
  | proceed cpu execution stage running due next => exact stopped
  | apply cpu execution running due => exact stopped
  | drop cpu execution running due free => exact stopped
  | release cpu execution running ended =>
    exact modified (fun work => { work with free := true }) stopped

end Kernel

/-! ### Up to the call -/

/-- Every slot has one owner and its work is in one place; a cancellation has stopped the timer of
the slot it is about to free. -/
structure PoolAlone (m : MigrationPool cpus) : Prop where
  sound : Sound m
  alone : ∀ slot, SlotAlone m.toPoolState slot
  stopped : ∀ ts slot, m.lock = some (.cancel ts slot .release) → (m.pool slot).timer = false

section Uncalled

variable {c : PoolState cpus} {m : MigrationPool cpus} {cpu : Fin cpus} {slot : Nat}

/-- A step that changes one slot at most and no execution. -/
theorem SlotAlone.of_touched (alone : ∀ slot, SlotAlone c slot) (c' : PoolState cpus)
    {touched : Nat} (workers : c'.workers = c.workers)
    (pool : ∀ slot, slot ≠ touched → c'.pool slot = c.pool slot)
    (changed : SlotAlone c' touched) (slot : Nat) : SlotAlone c' slot := by
  by_cases here : slot = touched
  · exact here ▸ changed
  · refine (alone slot).frame ⟨pool slot here, fun cpu execution _ => ?_⟩
    rw [workers]

/-- A slot at rest is claimed. -/
theorem SlotAlone.claim (alone : ∀ slot, SlotAlone c slot) {ts : Nat} {mask : Cpumask}
    (rest : c.AtRest slot) (other : Nat) : SlotAlone (c.claim cpu ts mask slot) other := by
  have pool : (c.claim cpu ts mask slot).pool slot = { c.pool slot with free := false } :=
    Function.update_self ..
  refine SlotAlone.of_touched alone (c.claim cpu ts mask slot) rfl
    (fun other here => Function.update_of_ne here ..)
    ((alone slot).of_workers rfl ?_ ?_) other
  · rw [pool]
    exact fun _ => ⟨rfl, rest.2.1, rest.2.2⟩
  · exact fun _ => rest.2.2

/-- An unfinished put makes its next access: the timer it sets is that of a claimed slot whose work
is at rest. -/
theorem SlotAlone.fill (owned : Owned c) (alone : ∀ slot, SlotAlone c slot) {put : UnfinishedPut}
    (mine : c.puts cpu = some put) (other : Nat) : SlotAlone (c.fill cpu put) other := by
  obtain ⟨kept, rest⟩ := (owned put.slot).put cpu put mine rfl
  unfold PoolState.fill
  split
  · have pool : (c.writeMask cpu put).pool put.slot =
        { c.pool put.slot with mask := put.mask } := Function.update_self ..
    refine SlotAlone.of_touched alone (c.writeMask cpu put) rfl
      (fun other here => Function.update_of_ne here ..)
      ((alone put.slot).congr rfl ?_ ?_ ?_) other <;> rw [pool]
  · have pool : (c.writeTask cpu put).pool put.slot =
        { c.pool put.slot with task := some put.ts } := Function.update_self ..
    refine SlotAlone.of_touched alone (c.writeTask cpu put) rfl
      (fun other here => Function.update_of_ne here ..)
      ((alone put.slot).congr rfl ?_ ?_ ?_) other <;> rw [pool]
  · have pool : (c.schedule cpu put).pool put.slot = (c.pool put.slot).scheduleDelayedWork :=
      Function.update_self ..
    have unqueued : (c.pool put.slot).scheduleDelayedWork.queued = false := by
      unfold MaskWork.scheduleDelayedWork
      split <;> exact rest.2.1
    refine SlotAlone.of_touched alone (c.schedule cpu put) rfl
      (fun other here => Function.update_of_ne here ..)
      ((alone put.slot).of_workers rfl ?_ fun _ => rest.2.2) other
    rw [pool]
    exact fun _ => ⟨(scheduleDelayedWork_free _).trans kept.busy, unqueued, rest.2.2⟩

/-- The timer of a slot is stopped. -/
theorem SlotAlone.cancelWork (alone : ∀ slot, SlotAlone c slot) (slot other : Nat) :
    SlotAlone (c.modify slot .cancelDelayedWork) other := by
  have pool : (c.modify slot .cancelDelayedWork).pool slot = (c.pool slot).cancelDelayedWork :=
    Function.update_self ..
  refine SlotAlone.of_touched alone (c.modify slot .cancelDelayedWork) rfl
    (fun other here => Function.update_of_ne here ..)
    ((alone slot).of_workers rfl ?_ ?_) other
  · rw [pool]
    exact fun armed => Bool.noConfusion armed
  · rw [pool]
    exact (alone slot).queued

/-- A slot whose timer is stopped is released. -/
theorem SlotAlone.release (alone : ∀ slot, SlotAlone c slot)
    (stopped : (c.pool slot).timer = false) (other : Nat) : SlotAlone (c.release slot) other := by
  have pool : (c.release slot).pool slot = { c.pool slot with free := true } :=
    Function.update_self ..
  refine SlotAlone.of_touched alone (c.release slot) rfl
    (fun other here => Function.update_of_ne here ..)
    ((alone slot).of_workers rfl ?_ ?_) other
  · rw [pool, stopped]
    exact fun armed => Bool.noConfusion armed
  · rw [pool]
    exact (alone slot).queued

/-- The kernel keeps what a cancellation has stopped. -/
theorem PoolAlone.kernel (kept : PoolAlone m) {m' : MigrationPool cpus} {touched : Nat}
    {ended : Option Outcome} (sound : Sound m') (lock : m'.lock = m.lock)
    (step : KernelStep m.toPoolState touched ended m'.toPoolState) : PoolAlone m' where
  sound := sound
  alone := SlotAlone.kernel kept.alone step
  stopped ts slot held := step.timer (kept.stopped ts slot (lock ▸ held))

theorem PoolAlone.scan (kept : PoolAlone m) {ts : Nat} {mask : Cpumask}
    (sound : Sound (scanStep cpu ts mask slot m))
    (timely : slot < m.size → (m.pool slot).free = true → m.toPoolState.AtRest slot) :
    PoolAlone (scanStep cpu ts mask slot m) := by
  refine ⟨sound, ?_, ?_⟩
  · unfold scanStep
    split
    · exact kept.alone
    · rename_i inside
      split
      · rename_i free
        exact SlotAlone.claim kept.alone (timely (by omega) free)
      · exact kept.alone
  · unfold scanStep
    intro _ _ held
    split at held
    · cases held
    · split at held <;> cases held

theorem PoolAlone.cancel (kept : PoolAlone m) {ts : Nat} {stage : CancelStage}
    (held : m.lock = some (.cancel ts slot stage)) (sound : Sound (cancelStep ts slot stage m)) :
    PoolAlone (cancelStep ts slot stage m) := by
  cases stage with
  | readFree =>
    refine ⟨sound, ?_, ?_⟩
    · simp only [cancelStep]
      split
      · exact kept.alone
      · split <;> exact kept.alone
    · simp only [cancelStep]
      intro _ _ later
      split at later
      · cases later
      · split at later <;> cases later
  | readTask =>
    refine ⟨sound, ?_, ?_⟩
    · simp only [cancelStep]
      split <;> exact kept.alone
    · simp only [cancelStep]
      intro _ _ later
      split at later <;> cases later
  | cancelWork =>
    refine ⟨sound, SlotAlone.cancelWork kept.alone slot, ?_⟩
    rintro _ _ later
    cases later
    show (Function.update m.pool slot (m.pool slot).cancelDelayedWork slot).timer = false
    rw [Function.update_self]
    rfl
  | release =>
    refine ⟨sound, SlotAlone.release kept.alone (kept.stopped ts slot held), ?_⟩
    rintro _ _ later
    cases later

/-- One timely event. -/
theorem PoolAlone.step (kept : PoolAlone m) {event : PoolEvent cpus} (timely : event.Timely m) :
    PoolAlone (poolStep m event) := by
  have sound := kept.sound.step timely
  cases event with
  | putWork cpu ts mask =>
    refine ⟨sound, ?_, ?_⟩
    · simp only [poolStep]
      split <;> exact kept.alone
    · simp only [poolStep]
      intro _ _ later
      split at later
      · cases later
      · exact kept.stopped _ _ later
  | cancelTaskWork ts =>
    refine ⟨sound, ?_, ?_⟩
    · simp only [poolStep]
      split <;> exact kept.alone
    · simp only [poolStep]
      intro _ _ later
      split at later
      · cases later
      · exact kept.stopped _ _ later
  | holder =>
    simp only [poolStep, holderStep] at sound ⊢
    split
    · exact kept
    · rename_i held
      rw [held] at sound
      exact kept.scan sound (timely _ held)
    · rename_i held
      rw [held] at sound
      exact kept.cancel held sound
  | fill cpu =>
    simp only [poolStep] at sound ⊢
    split
    · exact kept
    · rename_i put mine
      rw [mine] at sound
      refine ⟨sound, SlotAlone.fill kept.sound.owned kept.alone mine, fun ts slot held => ?_⟩
      -- The slot that is about to be freed is not the one whose timer the put sets.
      have finished : m.toPoolState.Finished slot := by
        have holder := kept.sound.holder
        rw [held] at holder
        exact holder.2
      have elsewhere : slot ≠ put.slot := fun same => finished cpu put mine same.symm
      have same : (m.toPoolState.fill cpu put).pool slot = m.pool slot := by
        unfold PoolState.fill
        split <;> exact Function.update_of_ne elsewhere ..
      show ((m.toPoolState.fill cpu put).pool slot).timer = false
      rw [same]
      exact kept.stopped ts slot held
  | expire slot => exact kept.kernel sound rfl (kernelStep_expire slot m.toPoolState)
  | execute cpu slot =>
    refine kept.kernel sound ?_ (kernelStep_execute cpu slot m)
    simp only [poolStep]
    split
    · rfl
    · split <;> rfl
  | execution cpu cpusAllowed =>
    obtain ⟨touched, stepped⟩ := kernelStep_worker cpu cpusAllowed m
    refine kept.kernel sound ?_ stepped
    simp only [poolStep]
    split
    · rfl
    · exact executionStep_lock ..

end Uncalled

/-! ### Past the call -/

/-- `exit_mig_pool` has come past the slot. -/
def ExitProgress.Past (size slot : Nat) : ExitProgress → Prop
  | .uncalled => False
  | .visiting position _ => slot < position
  | .returned => slot < size

/-- The timer of the slot is stopped, and it is busy while its work is pending or executing. -/
structure SlotMarked (c : PoolState cpus) (slot : Nat) : Prop where
  timer : (c.pool slot).timer = false
  busy : ¬ c.AtRest slot → (c.pool slot).free = false

section Marked

variable {c c' : PoolState cpus} {slot : Nat} {cpu : Fin cpus} {execution : Execution}

theorem PoolState.not_atRest_of_running (running : c.workers cpu = some execution) :
    ¬ c.AtRest execution.slot :=
  fun rest => rest.2.2 cpu execution running rfl

theorem outstanding_eq_true_iff :
    c.outstanding slot = true ↔ (c.pool slot).queued = true ∨
      ∃ cpu, ∃ execution ∈ c.workers cpu, execution.slot = slot ∧ execution.stage.due = true := by
  simp only [PoolState.outstanding, Bool.or_eq_true, decide_eq_true_eq, Option.any_eq_true,
    Bool.and_eq_true, Option.mem_def]

/-- A slot whose work is not queued and executes nowhere else. -/
theorem outstanding_eq_false (unqueued : (c.pool slot).queued = false)
    (ended : ∀ cpu, ∀ execution ∈ c.workers cpu, execution.slot = slot →
      execution.stage.due = false) : c.outstanding slot = false := by
  rw [Bool.eq_false_iff, ne_eq, outstanding_eq_true_iff]
  rintro (queued | ⟨cpu, execution, member, here, due⟩)
  · rw [unqueued] at queued
    cases queued
  · rw [ended cpu execution member here] at due
    cases due

theorem outstanding_of_running {running : Execution} (mine : c.workers cpu = some running)
    (due : running.stage.due = true) : c.outstanding running.slot = true :=
  outstanding_eq_true_iff.mpr (Or.inr ⟨cpu, running, mine, rfl, due⟩)

theorem Untouched.marked (untouched : Untouched c c' slot) (marked : SlotMarked c slot) :
    SlotMarked c' slot := by
  refine ⟨untouched.pool ▸ marked.timer, fun active => ?_⟩
  rw [untouched.pool]
  refine marked.busy fun rest => active ⟨untouched.pool ▸ rest.1, untouched.pool ▸ rest.2.1, ?_⟩
  exact fun cpu execution member here =>
    rest.2.2 cpu execution ((untouched.workers cpu execution here).mp member) here

theorem Untouched.outstanding (untouched : Untouched c c' slot) :
    c'.outstanding slot = c.outstanding slot := by
  rw [Bool.eq_iff_iff, outstanding_eq_true_iff, outstanding_eq_true_iff, untouched.pool]
  refine or_congr_right (exists_congr fun cpu => exists_congr fun execution => ?_)
  constructor
  · rintro ⟨member, here, due⟩
    exact ⟨(untouched.workers cpu execution here).mp member, here, due⟩
  · rintro ⟨member, here, due⟩
    exact ⟨(untouched.workers cpu execution here).mpr member, here, due⟩

/-- What the end of an execution adds to the count of the works applied on a slot. -/
def appliedOn (slot : Nat) (ended : Option Outcome) : Nat :=
  ended.toList.count (.applied slot)

/-- A step of the kernel on a marked slot: it stays marked, its work is not dropped, and is
outstanding or applied if it was outstanding. -/
structure SlotServed (c : PoolState cpus) (ended : Option Outcome) (c' : PoolState cpus)
    (slot : Nat) : Prop where
  marked : SlotMarked c' slot
  kept : ended ≠ some (.dropped slot)
  balance : appliedOn slot ended + (c'.outstanding slot).toNat = (c.outstanding slot).toNat

/-- A step of the kernel on another slot. -/
theorem KernelStep.served {touched : Nat} {ended : Option Outcome}
    (step : KernelStep c touched ended c') (different : slot ≠ touched)
    (marked : SlotMarked c slot) : SlotServed c ended c' slot := by
  have untouched := step.untouched different
  obtain ⟨applied, dropped⟩ := step.ended_elsewhere different
  refine ⟨untouched.marked marked, dropped, ?_⟩
  have none : appliedOn slot ended = 0 :=
    List.count_eq_zero.mpr fun member => applied (Option.mem_toList.mp member)
  rw [none, Nat.zero_add, untouched.outstanding]

/-- An execution on a slot that is alone keeps the work out of the queue. -/
theorem SlotAlone.unqueued (alone : SlotAlone c execution.slot)
    (running : c.workers cpu = some execution) : (c.pool execution.slot).queued = false := by
  by_contra waits
  exact alone.queued (Bool.not_eq_false _ ▸ waits) cpu execution running rfl

/-- After a step of the execution of a slot, no other cpu executes its work. -/
theorem SlotAlone.only (alone : SlotAlone c execution.slot)
    (running : c.workers cpu = some execution) (new : Option Execution) :
    ∀ other, ∀ item ∈ Function.update c.workers cpu new other, item.slot = execution.slot →
      item ∈ new := by
  intro other item member here
  by_cases same : other = cpu
  · subst same
    rwa [Function.update_self] at member
  · rw [Function.update_of_ne same] at member
    exact absurd (alone.unique other cpu item member execution running here rfl) same

/-- A cpu takes up the work of a marked slot. -/
theorem SlotMarked.execute (marked : SlotMarked c slot) (cpu : Fin cpus)
    (queued : (c.pool slot).queued = true) :
    SlotServed c none ((c.modify slot fun work => { work with queued := false }).setWorker cpu
      (some ⟨slot, .readTask⟩)) slot := by
  have pool : ((c.modify slot fun work => { work with queued := false }).setWorker cpu
      (some ⟨slot, .readTask⟩)).pool slot = { c.pool slot with queued := false } :=
    Function.update_self ..
  have running : ((c.modify slot fun work => { work with queued := false }).setWorker cpu
      (some ⟨slot, .readTask⟩)).workers cpu = some ⟨slot, .readTask⟩ :=
    Function.update_self ..
  have active : ¬ c.AtRest slot := fun rest => Bool.noConfusion (queued.symm.trans rest.2.1)
  refine ⟨⟨?_, fun _ => ?_⟩, by simp, ?_⟩
  · rw [pool]
    exact marked.timer
  · rw [pool]
    exact marked.busy active
  · rw [outstanding_of_running running rfl, outstanding_eq_true_iff.mpr (Or.inl queued)]
    rfl

/-- An execution whose work is done frees its marked slot, and the slot is at rest. -/
theorem SlotMarked.release (alone : SlotAlone c execution.slot)
    (marked : SlotMarked c execution.slot) (running : c.workers cpu = some execution)
    (ended : execution.stage.due = false) :
    SlotServed c none ((c.release execution.slot).setWorker cpu none) execution.slot := by
  have pool : ((c.release execution.slot).setWorker cpu none).pool execution.slot =
      { c.pool execution.slot with free := true } := Function.update_self ..
  have unqueued := alone.unqueued running
  have only := alone.only running none
  have before : c.outstanding execution.slot = false := by
    refine outstanding_eq_false unqueued fun other item member same => ?_
    obtain rfl := alone.unique other cpu item member execution running same rfl
    obtain rfl := Option.some.inj (running.symm.trans member)
    exact ended
  have after : ((c.release execution.slot).setWorker cpu none).outstanding execution.slot =
      false := by
    refine outstanding_eq_false ?_ fun other item member same => ?_
    · rw [pool]
      exact unqueued
    · cases only other item member same
  have rest : ((c.release execution.slot).setWorker cpu none).AtRest execution.slot := by
    refine ⟨?_, ?_, fun other item member same => ?_⟩
    · rw [pool]
      exact marked.timer
    · rw [pool]
      exact unqueued
    · cases only other item member same
  refine ⟨⟨rest.1, fun active => absurd rest active⟩, by simp, ?_⟩
  rw [before, after]
  rfl

/-- The kernel applies the work of a marked slot, and does not drop it. -/
theorem SlotMarked.kernel (alone : ∀ slot, SlotAlone c slot) (marked : SlotMarked c slot)
    {touched : Nat} {ended : Option Outcome} (step : KernelStep c touched ended c') :
    SlotServed c ended c' slot := by
  by_cases here : slot = touched
  swap
  · exact step.served here marked
  subst here
  cases step with
  | rest => exact ⟨marked, by simp, Nat.zero_add _⟩
  | expire _ timer =>
    rw [marked.timer] at timer
    cases timer
  | execute cpu _ idle queued => exact marked.execute cpu queued
  | proceed cpu execution stage running due next =>
    have now : (c.setWorker cpu (some { execution with stage := stage })).workers cpu =
        some { execution with stage := stage } := Function.update_self ..
    have still : (c.setWorker cpu (some { execution with stage := stage })).outstanding
        execution.slot = true :=
      outstanding_eq_true_iff.mpr (Or.inr ⟨cpu, _, now, rfl, next⟩)
    refine ⟨⟨marked.timer, fun _ => marked.busy (PoolState.not_atRest_of_running running)⟩,
      by simp, ?_⟩
    rw [still, outstanding_of_running running due]
    rfl
  | apply cpu execution running due =>
    have completed : (c.setWorker cpu (some { execution with stage := .release })).outstanding
        execution.slot = false := by
      refine outstanding_eq_false ((alone execution.slot).unqueued running) ?_
      intro other item member same
      rw [← Option.some.inj ((alone execution.slot).only running _ other item member same)]
      rfl
    refine ⟨⟨marked.timer, fun _ => marked.busy (PoolState.not_atRest_of_running running)⟩,
      by simp, ?_⟩
    rw [completed, outstanding_of_running running due]
    simp [appliedOn]
  | drop cpu execution running due free =>
    rw [marked.busy (PoolState.not_atRest_of_running running)] at free
    cases free
  | release cpu execution running ended =>
    exact marked.release (alone execution.slot) running ended

end Marked

/-! ### Runs -/

/-- The works are in one place each, and once `exit_mig_pool` is called nothing but it holds the
lock and every slot it has come past is marked. -/
structure ExitKept (e : ExitingPool cpus) : Prop where
  alone : ∀ slot, SlotAlone e.toPoolState slot
  uncalled : e.exit = .uncalled → PoolAlone e.toMigrationPool
  called : e.exit ≠ .uncalled → e.lock = none ∧ ∀ cpu, e.puts cpu = none
  marked : ∀ slot, e.exit.Past e.size slot → SlotMarked e.toPoolState slot
  stopped : ∀ slot, e.exit = .visiting slot .markBusy → (e.pool slot).timer = false

/-- A slot whose timer is stopped is marked as busy. -/
theorem SlotMarked.mark {c : PoolState cpus} {slot : Nat} (alone : ∀ slot, SlotAlone c slot)
    (stopped : (c.pool slot).timer = false) :
    SlotMarked (c.modify slot fun work => { work with free := false }) slot ∧
      ∀ other, SlotAlone (c.modify slot fun work => { work with free := false }) other := by
  have pool : (c.modify slot fun work => { work with free := false }).pool slot =
      { c.pool slot with free := false } := Function.update_self ..
  constructor
  · refine ⟨?_, fun _ => ?_⟩
    · rw [pool]
      exact stopped
    · rw [pool]
  · refine SlotAlone.of_touched alone _ rfl (fun other here => Function.update_of_ne here ..)
      ((alone slot).of_workers rfl ?_ ?_)
    · rw [pool, stopped]
      exact fun armed => Bool.noConfusion armed
    · rw [pool]
      exact (alone slot).queued

section Runs

variable {e : ExitingPool cpus} {slot : Nat}

/-- One access of `exit_mig_pool`. -/
theorem ExitKept.visit (kept : ExitKept e) {stage : ExitStage}
    (visiting : e.exit = .visiting slot stage) : ExitKept (exitMigPoolStep slot stage e) := by
  have called := kept.called (by rw [visiting]; exact ExitProgress.noConfusion)
  have marked : ∀ other, other < slot → SlotMarked e.toPoolState other := fun other before =>
    kept.marked other (by rw [visiting]; exact before)
  cases stage with
  | readFree =>
    unfold exitMigPoolStep
    dsimp only
    split
    · rename_i beyond
      refine ⟨kept.alone, nofun, fun _ => called,
        fun other inside => marked other (Nat.lt_of_lt_of_le inside beyond),
        nofun⟩
    · split
      · rename_i free
        refine ⟨kept.alone, nofun, fun _ => called, marked, ?_⟩
        rintro _ ⟨⟩
        -- The timer of a free slot does not run.
        by_contra armed
        have busy := ((kept.alone slot).timer (Bool.not_eq_false _ ▸ armed)).1
        rw [free] at busy
        cases busy
      · exact ⟨kept.alone, nofun, fun _ => called, marked,
          nofun⟩
  | cancelWork =>
    refine ⟨SlotAlone.cancelWork kept.alone slot, nofun, fun _ => called,
      fun other before => ?_, ?_⟩
    · exact Untouched.marked ⟨Function.update_of_ne (Nat.ne_of_lt before) .., fun _ _ _ => Iff.rfl⟩
        (marked other before)
    · rintro _ ⟨⟩
      show (Function.update e.pool slot (e.pool slot).cancelDelayedWork slot).timer = false
      rw [Function.update_self]
      rfl
  | markBusy =>
    obtain ⟨here, alone⟩ := SlotMarked.mark kept.alone (kept.stopped slot visiting)
    refine ⟨alone, nofun, fun _ => called, fun other before => ?_, nofun⟩
    by_cases same : other = slot
    · exact same ▸ here
    · exact Untouched.marked ⟨Function.update_of_ne same .., fun _ _ _ => Iff.rfl⟩
        (marked other (Nat.lt_of_le_of_ne (Nat.le_of_lt_succ before) same))

/-- An event of the pool that does not wait for `exit_mig_pool`. -/
theorem exitStep_pool {event : PoolEvent cpus}
    (free : event.locks = false ∨ e.exit.holds = false) :
    exitStep e (.pool event) =
      { e with
        toMigrationPool := poolStep e.toMigrationPool event
        outcomes := e.outcomes ++ (event.outcome e.toPoolState).toList } := by
  have unlocked : ¬ (event.locks && e.exit.holds) = true := by
    rw [Bool.and_eq_true]
    rintro ⟨locks, holds⟩
    rw [locks, holds] at free
    exact free.elim Bool.noConfusion Bool.noConfusion
  exact if_neg unlocked

/-- An event of the pool once `exit_mig_pool` is called. -/
theorem ExitKept.kernel (kept : ExitKept e) (called : e.exit ≠ .uncalled)
    {event : PoolEvent cpus} (locks : event.locks = false) :
    ExitKept (exitStep e (.pool event)) ∧ ∀ slot, SlotMarked e.toPoolState slot →
      SlotServed e.toPoolState (event.outcome e.toPoolState)
        (poolStep e.toMigrationPool event).toPoolState slot := by
  obtain ⟨unlocked, finished⟩ := kept.called called
  obtain ⟨touched, step⟩ := kernelStep_poolStep unlocked finished locks
  have served : ∀ slot, SlotMarked e.toPoolState slot → _ := fun slot marked =>
    marked.kernel kept.alone step
  refine ⟨?_, served⟩
  rw [exitStep_pool (Or.inl locks)]
  refine ⟨SlotAlone.kernel kept.alone step, fun same => absurd same called, fun _ => ⟨?_, ?_⟩,
    fun slot past => ?_, fun slot visiting => step.timer (kept.stopped slot visiting)⟩
  · exact poolStep_unlocked unlocked finished locks
  · intro cpu
    show (poolStep e.toMigrationPool event).puts cpu = none
    rw [step.puts]
    exact finished cpu
  · refine (served slot (kept.marked slot ?_)).marked
    have size : (poolStep e.toMigrationPool event).size = e.size := step.size
    rw [← size]
    exact past

/-- One orderly event. -/
theorem ExitKept.step (kept : ExitKept e) {event : ExitEvent cpus} (orderly : event.Orderly e) :
    ExitKept (exitStep e event) := by
  cases event with
  | pool event =>
    by_cases uncalled : e.exit = .uncalled
    · have alone := (kept.uncalled uncalled).step orderly.1
      rw [exitStep_pool (Or.inr (by rw [uncalled]; rfl))]
      refine ⟨alone.alone, fun _ => alone, fun called => absurd uncalled called,
        fun slot past => ?_, fun slot visiting => ?_⟩
      · rw [uncalled] at past
        cases past
      · rw [uncalled] at visiting
        cases visiting
    · exact (kept.kernel uncalled (orderly.2.resolve_left uncalled)).1
  | exitMigPool =>
    simp only [exitStep]
    split
    · rename_i unlocked uncalled
      refine ⟨kept.alone, nofun, fun _ => ⟨unlocked, orderly⟩,
        fun slot before => absurd before (Nat.not_lt_zero slot), nofun⟩
    · exact kept
  | exit =>
    simp only [exitStep]
    split
    · rename_i visiting
      exact kept.visit visiting
    · exact kept

/-- Every work is at rest. -/
theorem ExitKept.start (cpus size : Nat) : ExitKept (ExitingPool.start cpus size) := by
  have unarmed : ∀ slot, (initMigPool size staticPool slot).timer = false ∧
      (initMigPool size staticPool slot).queued = false := by
    intro slot
    rw [initMigPool_apply]
    split <;> exact ⟨rfl, rfl⟩
  have alone : ∀ slot, SlotAlone (MigrationPool.start cpus size).toPoolState slot := by
    refine fun slot => ⟨fun armed => ?_, nofun, nofun⟩
    rw [show ((MigrationPool.start cpus size).pool slot).timer = false from (unarmed slot).1]
      at armed
    cases armed
  exact ⟨alone, fun _ => ⟨Sound.start cpus size, alone, nofun⟩,
    fun called => absurd rfl called, nofun, nofun⟩

/-- What has become of the works since `exit_mig_pool` has returned. -/
structure SinceReturned (before after : ExitingPool cpus) : Prop where
  kept : ExitKept after
  returned : after.exit = .returned
  size : after.size = before.size
  dropped : ∀ slot < before.size,
    after.outcomes.count (.dropped slot) = before.outcomes.count (.dropped slot)
  balance : ∀ slot < before.size,
    after.outcomes.count (.applied slot) + (after.outstanding slot).toNat =
      before.outcomes.count (.applied slot) + (before.outstanding slot).toNat

theorem SinceReturned.step {before after : ExitingPool cpus} (since : SinceReturned before after)
    {event : ExitEvent cpus} (orderly : event.Orderly after) :
    SinceReturned before (exitStep after event) := by
  have kept := since.kept.step orderly
  cases event with
  | pool event =>
    have called : after.exit ≠ .uncalled := by
      rw [since.returned]
      exact ExitProgress.noConfusion
    have locks := orderly.2.resolve_left called
    have served := (since.kept.kernel called locks).2
    obtain ⟨touched, step⟩ := kernelStep_poolStep (since.kept.called called).1
      (since.kept.called called).2 locks
    rw [exitStep_pool (Or.inl locks)] at kept ⊢
    refine ⟨kept, since.returned, step.size.trans since.size, fun slot inside => ?_,
      fun slot inside => ?_⟩
    · have marked := since.kept.marked slot (by rw [since.returned, since.size]; exact inside)
      have none : (event.outcome after.toPoolState).toList.count (.dropped slot) = 0 :=
        List.count_eq_zero.mpr fun member =>
          (served slot marked).kept (Option.mem_toList.mp member)
      rw [List.count_append, none, since.dropped slot inside]
      rfl
    · have marked := since.kept.marked slot (by rw [since.returned, since.size]; exact inside)
      have balance := (served slot marked).balance
      have earlier := since.balance slot inside
      unfold appliedOn at balance
      show (after.outcomes ++ _).count (.applied slot) +
        ((poolStep after.toMigrationPool event).outstanding slot).toNat = _
      rw [List.count_append]
      omega
  | exitMigPool =>
    have same : exitStep after .exitMigPool = after := by
      simp only [exitStep, since.returned]
      cases after.lock <;> rfl
    rw [same]
    exact since
  | exit =>
    have same : exitStep after .exit = after := by
      simp only [exitStep, since.returned]
    rw [same]
    exact since

/-- Once `exit_mig_pool` has returned, in every run up to it in which the pool is timely, the probes
are removed first and no put is called afterwards: no timer is left, and each work that was queued
or executing is applied, once, or is still outstanding; none is dropped. -/
theorem exit_mig_pool_applies (cpus size : Nat) (events later : List (ExitEvent cpus))
    (orderly : Exec.Meets exitStep ExitEvent.Orderly (ExitingPool.start cpus size)
      (events ++ later))
    (returned : (Exec.run exitStep (ExitingPool.start cpus size) events).exit = .returned) :
    let before := Exec.run exitStep (ExitingPool.start cpus size) events
    let after := Exec.run exitStep (ExitingPool.start cpus size) (events ++ later)
    ∀ slot < before.size, (after.pool slot).timer = false ∧
      after.outcomes.count (.dropped slot) = before.outcomes.count (.dropped slot) ∧
      after.outcomes.count (.applied slot) + (after.outstanding slot).toNat =
        before.outcomes.count (.applied slot) + (before.outstanding slot).toNat := by
  intro before after slot inside
  obtain ⟨first, second⟩ := Exec.meets_append.mp orderly
  have kept : ExitKept before := Exec.run_invariant ExitKept
    (fun _ _ kept meets => kept.step meets) (ExitKept.start cpus size) first
  have since : SinceReturned before after := by
    show SinceReturned before (Exec.run exitStep _ (events ++ later))
    rw [Exec.run_append]
    exact Exec.run_invariant (SinceReturned before) (fun _ _ since meets => since.step meets)
      ⟨kept, returned, rfl, fun _ _ => rfl, fun _ _ => rfl⟩ second
  have marked := since.kept.marked slot (by rw [since.returned, since.size]; exact inside)
  exact ⟨marked.timer, since.dropped slot inside, since.balance slot inside⟩

/-- The work of task `7` is queued, `cancel_task_work` frees its slot, and `exit_mig_pool` marks it
as busy. -/
def cancelledRun : List (ExitEvent 1) :=
  [.putWork 0 7 {0}, .holder, .fill 0, .fill 0, .fill 0, .expire 0, .cancelTaskWork 7, .holder,
      .holder, .holder, .holder, .holder].map ExitEvent.pool ++
    [.exitMigPool, .exit, .exit, .exit]

/-- The cancelled work is executed after `exit_mig_pool` has returned, and applied. -/
theorem exit_mig_pool_applies_cancelled :
    let before := Exec.run exitStep (ExitingPool.start 1 1) cancelledRun
    let later := [.execute 0 0, .execution 0 ∅, .execution 0 ∅, .execution 0 ∅,
      .execution 0 ∅].map ExitEvent.pool
    let after := Exec.run exitStep (ExitingPool.start 1 1) (cancelledRun ++ later)
    .freed 7 (some 7) ∈ before.records ∧ before.outstanding 0 = true ∧
      after.outstanding 0 = false ∧ after.outcomes.count (.applied 0) = 1 := by
  have applied := exit_mig_pool_applies 1 1 cancelledRun
    ([.execute 0 0, .execution 0 ∅, .execution 0 ∅, .execution 0 ∅, .execution 0 ∅].map
      ExitEvent.pool) (by decide +kernel) (by decide +kernel) 0 (by decide +kernel)
  have nobody : (Exec.run exitStep (ExitingPool.start 1 1) cancelledRun).outcomes.count
      (.applied 0) = 0 := by decide +kernel
  have outstanding : (Exec.run exitStep (ExitingPool.start 1 1) cancelledRun).outstanding 0 =
      true := by decide +kernel
  have completed : (Exec.run exitStep (ExitingPool.start 1 1) (cancelledRun ++
      [.execute 0 0, .execution 0 ∅, .execution 0 ∅, .execution 0 ∅, .execution 0 ∅].map
        ExitEvent.pool)).outstanding 0 = false := by decide +kernel
  have balance := applied.2.2
  rw [nobody, outstanding, completed] at balance
  exact ⟨by decide +kernel, outstanding, completed, balance⟩

end Runs

end Seeker
