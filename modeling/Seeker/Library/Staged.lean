/-
This file states what a ladder of `goto`s buys.

A sequence of stages each of which acquires something, or fails, is unwound when one
of them fails: what the earlier stages acquired is released, the last one first. When
every stage's release takes back what its acquisition did, such a sequence either
acquires everything or leaves the state as it found it.
-/
import Mathlib.Data.List.Basic
import Mathlib.Tactic.Common

namespace Staged

/-- Something that is acquired, which may fail and then changes nothing, and released. -/
structure Stage (State : Type*) where
  acquire : State → Option State
  release : State → State

variable {State : Type*}

/-- Releasing what was just acquired gives the state back. -/
def Stage.Undoes (stage : Stage State) : Prop :=
  ∀ state acquired, stage.acquire state = some acquired → stage.release acquired = state

/-- The stages in turn; on a failure, the releases of those before it in reverse. -/
def run : List (Stage State) → State → Bool × State
  | [], state => (true, state)
  | stage :: rest, state =>
    match stage.acquire state with
    | none => (false, state)
    | some acquired =>
      let result := run rest acquired
      if result.1 then result else (false, stage.release result.2)

/-- The acquisitions alone. -/
def acquireAll (stages : List (Stage State)) (state : State) : Option State :=
  stages.foldlM (fun state stage => stage.acquire state) state

@[simp]
theorem acquireAll_nil (state : State) :
    acquireAll ([] : List (Stage State)) state = some state := rfl

theorem acquireAll_cons (stage : Stage State) (rest : List (Stage State)) (state : State) :
    acquireAll (stage :: rest) state = (stage.acquire state).bind (acquireAll rest) := rfl

/-- A sequence of stages that undo themselves acquires everything or nothing. -/
theorem run_eq {stages : List (Stage State)} (undoes : ∀ stage ∈ stages, stage.Undoes)
    (state : State) :
    run stages state =
      match acquireAll stages state with
      | none => (false, state)
      | some acquired => (true, acquired) := by
  induction stages generalizing state with
  | nil => rfl
  | cons stage rest inductionHypothesis =>
    rw [acquireAll_cons, run]
    cases first : stage.acquire state with
    | none => rfl
    | some acquired =>
      dsimp only
      rw [inductionHypothesis (fun later member => undoes later (List.mem_cons_of_mem _ member)),
        Option.bind_some]
      cases acquireAll rest acquired with
      | some last => rfl
      | none =>
        have undone : stage.release acquired = state :=
          undoes stage List.mem_cons_self state acquired first
        simp only [Bool.false_eq_true, if_false, undone]

end Staged
