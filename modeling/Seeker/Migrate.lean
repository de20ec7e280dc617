/-
This file embeds `migrate.c`, each function run from its start to its end: a slot of
the pool is claimed for a task and its mask, the delayed work of the slot applies
the mask, and the work of a task can be cancelled.

A task is the address of its structure. The state of a slot's delayed work is the
kernel's: the timer runs from `schedule_delayed_work` until it expires, and the work
is then queued until a worker takes it up.
-/
import Mathlib.Tactic.Common
import Seeker.Globals

namespace Seeker

/-! ### The pool -/

/-- `struct mask_work`: `task` is `none` while it is a null pointer, and `timer` and `queued` are
the state of the delayed work. -/
structure MaskWork where
  task : Option Nat
  mask : Cpumask
  free : Bool
  timer : Bool
  queued : Bool
  deriving DecidableEq

/-- `MIG_POOL_SIZE`. -/
def migPoolSize (nrCpus : Nat) : Nat := nrCpus * 8

/-- The pool before `init_mig_pool`: static memory. -/
def staticPool : Nat → MaskWork := fun _ =>
  { task := none, mask := ∅, free := false, timer := false, queued := false }

/-- `init_mig_pool`. -/
def initMigPool (size : Nat) (pool : Nat → MaskWork) : Nat → MaskWork :=
  Loops.forRange size
    (fun slot pool => Function.update pool slot
      { pool slot with free := true, timer := false, queued := false })
    pool

/-- `schedule_delayed_work`, which leaves a work that is pending alone. -/
def MaskWork.scheduleDelayedWork (work : MaskWork) : MaskWork :=
  if work.timer ∨ work.queued then work else { work with timer := true }

/-- `cancel_delayed_work`, which stops the timer and does not reach a work that is queued. -/
def MaskWork.cancelDelayedWork (work : MaskWork) : MaskWork := { work with timer := false }

/-- The slot the loop of `put_work` claims. -/
def freeSlot (size : Nat) (pool : Nat → MaskWork) : Option Nat :=
  Loops.firstFrom (fun slot => (pool slot).free) 0 size

/-- `put_work`. -/
def putWork (size ts : Nat) (mask : Cpumask) (pool : Nat → MaskWork) : Nat → MaskWork :=
  match freeSlot size pool with
  | none => pool
  | some slot => Function.update pool slot
      { pool slot with free := false, mask := mask, task := some ts }.scheduleDelayedWork

/-- The turn of the loop of `cancel_task_work`. -/
def cancelSlot (pid : Nat → Nat) (ts slot : Nat) (pool : Nat → MaskWork) : Nat → MaskWork :=
  if (pool slot).free = false ∧ some (pid ts) = (pool slot).task.map pid then
    Function.update pool slot { (pool slot).cancelDelayedWork with free := true }
  else pool

/-- `cancel_task_work`: tasks are told apart by their pids. -/
def cancelTaskWork (size : Nat) (pid : Nat → Nat) (ts : Nat) (pool : Nat → MaskWork) :
    Nat → MaskWork :=
  Loops.forRange size (cancelSlot pid ts) pool

/-- The timer of a slot expires. -/
def expireTimer (slot : Nat) (pool : Nat → MaskWork) : Nat → MaskWork :=
  if (pool slot).timer then
    Function.update pool slot { pool slot with timer := false, queued := true }
  else pool

/-- `change_cpus`: the call of `set_cpus_allowed_ptr` it makes, if any, and the pool. -/
def changeCpus (cpusAllowed : Nat → Cpumask) (slot : Nat) (pool : Nat → MaskWork) :
    Option (Nat × Cpumask) × (Nat → MaskWork) :=
  if (pool slot).free then (none, pool)
  else
    let released := Function.update pool slot { pool slot with free := true }
    match (pool slot).task with
    | none => (none, released)
    | some ts =>
      if (pool slot).mask = cpusAllowed ts then (none, released)
      else (some (ts, (pool slot).mask), released)

/-- A worker takes up the queued work of a slot. -/
def executeWork (cpusAllowed : Nat → Cpumask) (slot : Nat) (pool : Nat → MaskWork) :
    Option (Nat × Cpumask) × (Nat → MaskWork) :=
  if (pool slot).queued then
    changeCpus cpusAllowed slot (Function.update pool slot { pool slot with queued := false })
  else (none, pool)

/-! ### What the operations do to a slot -/

section Slots

variable {size ts slot : Nat} {pool : Nat → MaskWork}

theorem initMigPool_apply (size : Nat) (pool : Nat → MaskWork) (slot : Nat) :
    initMigPool size pool slot =
      if slot < size then { pool slot with free := true, timer := false, queued := false }
      else pool slot := by
  exact Loops.forRange_update
    (fun _ work => { work with free := true, timer := false, queued := false }) size pool slot

theorem freeSlot_eq_some (claimed : freeSlot size pool = some slot) :
    slot < size ∧ (pool slot).free = true := by
  obtain ⟨⟨_, small⟩, free⟩ := Loops.firstFrom_eq_some claimed
  exact ⟨small, free⟩

@[simp]
theorem scheduleDelayedWork_task (work : MaskWork) : work.scheduleDelayedWork.task = work.task := by
  unfold MaskWork.scheduleDelayedWork
  split <;> rfl

@[simp]
theorem scheduleDelayedWork_free (work : MaskWork) : work.scheduleDelayedWork.free = work.free := by
  unfold MaskWork.scheduleDelayedWork
  split <;> rfl

/-- `put_work` either leaves a slot alone or claims it for its task. -/
theorem putWork_apply (size ts : Nat) (mask : Cpumask) (pool : Nat → MaskWork) (slot : Nat) :
    putWork size ts mask pool slot = pool slot ∨
      ((pool slot).free = true ∧ (putWork size ts mask pool slot).free = false ∧
        (putWork size ts mask pool slot).task = some ts) := by
  unfold putWork
  cases claimed : freeSlot size pool with
  | none => exact Or.inl rfl
  | some chosen =>
    dsimp only
    by_cases here : slot = chosen
    · subst here
      refine Or.inr ⟨(freeSlot_eq_some claimed).2, ?_, ?_⟩
      · rw [Function.update_self, scheduleDelayedWork_free]
      · rw [Function.update_self, scheduleDelayedWork_task]
    · exact Or.inl (Function.update_of_ne here ..)

/-- A cancellation frees exactly the claimed slots whose task has the pid. -/
theorem cancelTaskWork_apply (size : Nat) (pid : Nat → Nat) (ts : Nat) (pool : Nat → MaskWork)
    (slot : Nat) :
    cancelTaskWork size pid ts pool slot =
      if slot < size ∧ (pool slot).free = false ∧ some (pid ts) = (pool slot).task.map pid then
        { (pool slot).cancelDelayedWork with free := true }
      else pool slot := by
  have own : ∀ index (current : Nat → MaskWork), cancelSlot pid ts index current index =
      if (current index).free = false ∧ some (pid ts) = (current index).task.map pid then
        { (current index).cancelDelayedWork with free := true }
      else current index := by
    intro index current
    unfold cancelSlot
    split
    · exact Function.update_self ..
    · rfl
  have others : ∀ index (current : Nat → MaskWork) cell, cell ≠ index →
      cancelSlot pid ts index current cell = current cell := by
    intro index current cell other
    unfold cancelSlot
    split
    · exact Function.update_of_ne other ..
    · rfl
  rw [ite_and]
  exact Loops.forRange_cells id
    (fun _ work => if work.free = false ∧ some (pid ts) = work.task.map pid then
      { work.cancelDelayedWork with free := true } else work) own others size pool slot

/-- An expiring timer changes no task and frees and claims no slot. -/
theorem expireTimer_apply (expiring : Nat) (pool : Nat → MaskWork) (slot : Nat) :
    (expireTimer expiring pool slot).free = (pool slot).free ∧
      (expireTimer expiring pool slot).task = (pool slot).task := by
  unfold expireTimer
  split
  · by_cases here : slot = expiring
    · subst here
      rw [Function.update_self]
      exact ⟨rfl, rfl⟩
    · rw [Function.update_of_ne here]
      exact ⟨rfl, rfl⟩
  · exact ⟨rfl, rfl⟩

/-- An execution claims no slot and changes no task. -/
theorem changeCpus_apply (cpusAllowed : Nat → Cpumask) (executed : Nat) (pool : Nat → MaskWork)
    (slot : Nat) :
    ((changeCpus cpusAllowed executed pool).2 slot).task = (pool slot).task ∧
      (((changeCpus cpusAllowed executed pool).2 slot).free = false →
        (pool slot).free = false) := by
  have released : ((Function.update pool executed { pool executed with free := true }) slot).task =
      (pool slot).task ∧
        (((Function.update pool executed { pool executed with free := true }) slot).free = false →
          (pool slot).free = false) := by
    by_cases here : slot = executed
    · subst here
      rw [Function.update_self]
      exact ⟨rfl, fun busy => by cases busy⟩
    · rw [Function.update_of_ne here]
      exact ⟨rfl, id⟩
  unfold changeCpus
  split
  · exact ⟨rfl, id⟩
  · dsimp only
    split
    · exact released
    · split
      · exact released
      · exact released

theorem executeWork_apply (cpusAllowed : Nat → Cpumask) (executed : Nat) (pool : Nat → MaskWork)
    (slot : Nat) :
    ((executeWork cpusAllowed executed pool).2 slot).task = (pool slot).task ∧
      (((executeWork cpusAllowed executed pool).2 slot).free = false →
        (pool slot).free = false) := by
  unfold executeWork
  split
  · obtain ⟨task, busy⟩ := changeCpus_apply cpusAllowed executed
      (Function.update pool executed { pool executed with queued := false }) slot
    by_cases here : slot = executed
    · subst here
      rw [Function.update_self] at task busy
      exact ⟨task, busy⟩
    · rw [Function.update_of_ne here] at task busy
      exact ⟨task, busy⟩
  · exact ⟨rfl, id⟩

end Slots

/-! ### Pending work of a task -/

/-- Some claimed slot of the pool belongs to the task. -/
def HasPendingWork (size : Nat) (pool : Nat → MaskWork) (ts : Nat) : Prop :=
  ∃ slot, slot < size ∧ (pool slot).free = false ∧ (pool slot).task = some ts

instance (size : Nat) (pool : Nat → MaskWork) (ts : Nat) :
    Decidable (HasPendingWork size pool ts) :=
  inferInstanceAs (Decidable (∃ slot, slot < size ∧ _))

variable {size ts : Nat} {pool : Nat → MaskWork}

/-- A slot that is claimed after a cancellation was left alone by it. -/
theorem cancelTaskWork_claimed {pid : Nat → Nat} {slot : Nat}
    (busy : (cancelTaskWork size pid ts pool slot).free = false) :
    cancelTaskWork size pid ts pool slot = pool slot ∧
      ¬ (slot < size ∧ (pool slot).free = false ∧
        some (pid ts) = (pool slot).task.map pid) := by
  rw [cancelTaskWork_apply] at busy ⊢
  split at busy
  · cases busy
  · rename_i unmatched
    exact ⟨if_neg unmatched, unmatched⟩

/-- After the cancellation of a task's work none is pending. -/
theorem not_hasPendingWork_cancelTaskWork (size : Nat) (pid : Nat → Nat) (ts : Nat)
    (pool : Nat → MaskWork) : ¬ HasPendingWork size (cancelTaskWork size pid ts pool) ts := by
  rintro ⟨slot, small, busy, task⟩
  obtain ⟨same, unmatched⟩ := cancelTaskWork_claimed busy
  rw [same] at busy task
  exact unmatched ⟨small, busy, by rw [task, Option.map_some]⟩

/-- A cancellation brings no pending work to any task. -/
theorem HasPendingWork.of_cancelTaskWork {pid : Nat → Nat} {other : Nat}
    (pending : HasPendingWork size (cancelTaskWork size pid other pool) ts) :
    HasPendingWork size pool ts := by
  obtain ⟨slot, small, busy, task⟩ := pending
  obtain ⟨same, _⟩ := cancelTaskWork_claimed busy
  rw [same] at busy task
  exact ⟨slot, small, busy, task⟩

/-- `put_work` brings pending work to no task but its own. -/
theorem HasPendingWork.of_putWork {other : Nat} {mask : Cpumask}
    (pending : HasPendingWork size (putWork size other mask pool) ts) (different : ts ≠ other) :
    HasPendingWork size pool ts := by
  obtain ⟨slot, small, busy, task⟩ := pending
  rcases putWork_apply size other mask pool slot with same | ⟨_, _, claimed⟩
  · rw [same] at busy task
    exact ⟨slot, small, busy, task⟩
  · rw [claimed] at task
    exact absurd (Option.some.inj task).symm different

theorem HasPendingWork.of_expireTimer {expiring : Nat}
    (pending : HasPendingWork size (expireTimer expiring pool) ts) :
    HasPendingWork size pool ts := by
  obtain ⟨slot, small, busy, task⟩ := pending
  obtain ⟨free, kept⟩ := expireTimer_apply expiring pool slot
  exact ⟨slot, small, free ▸ busy, kept ▸ task⟩

theorem HasPendingWork.of_executeWork {cpusAllowed : Nat → Cpumask} {executed : Nat}
    (pending : HasPendingWork size (executeWork cpusAllowed executed pool).2 ts) :
    HasPendingWork size pool ts := by
  obtain ⟨slot, small, busy, task⟩ := pending
  obtain ⟨kept, free⟩ := executeWork_apply cpusAllowed executed pool slot
  exact ⟨slot, small, free busy, kept ▸ task⟩

end Seeker
