/-
This file states the two induction rules every run in the development uses.

A component is a state, a set of events and a total step function; an event that
the component is not ready for leaves the state alone, so that an interleaving is
nothing but a list of events. A run folds the step over such a list. A rule that
only some runs obey is a predicate on the state before a step and the event, and
`Meets` says that every step of a run obeys it.
-/
import Mathlib.Data.List.Basic
import Mathlib.Tactic.Common

namespace Exec

variable {State Event : Type*} (step : State → Event → State)

/-- The state after a list of events. -/
def run (start : State) (events : List Event) : State := events.foldl step start

@[simp]
theorem run_nil (start : State) : run step start [] = start := rfl

@[simp]
theorem run_cons (start : State) (event : Event) (rest : List Event) :
    run step start (event :: rest) = run step (step start event) rest := rfl

theorem run_append (start : State) (first second : List Event) :
    run step start (first ++ second) = run step (run step start first) second :=
  List.foldl_append

theorem run_concat (start : State) (events : List Event) (event : Event) :
    run step start (events ++ [event]) = step (run step start events) event :=
  run_append step start events [event]

/-- Every step of the run obeys the rule, read in the state the step starts from. -/
def Meets (rule : State → Event → Prop) : State → List Event → Prop
  | _, [] => True
  | state, event :: rest => rule state event ∧ Meets rule (step state event) rest

instance meetsDecidable (rule : State → Event → Prop)
    [ruleDecidable : ∀ state event, Decidable (rule state event)] :
    ∀ (start : State) (events : List Event), Decidable (Meets step rule start events)
  | _, [] => isTrue trivial
  | start, event :: rest =>
      haveI := meetsDecidable rule (step start event) rest
      inferInstanceAs (Decidable (rule start event ∧ Meets step rule (step start event) rest))

variable {step}

theorem meets_append {rule : State → Event → Prop} {start : State}
    {first second : List Event} :
    Meets step rule start (first ++ second) ↔
      Meets step rule start first ∧ Meets step rule (run step start first) second := by
  induction first generalizing start with
  | nil => simp [Meets]
  | cons event rest inductionHypothesis =>
    simp only [List.cons_append, Meets, run_cons, inductionHypothesis, and_assoc]

/-- A run that obeys two rules obeys both at once. -/
theorem Meets.and {rule law : State → Event → Prop} {start : State} {events : List Event}
    (first : Meets step rule start events) (second : Meets step law start events) :
    Meets step (fun state event => rule state event ∧ law state event) start events := by
  induction events generalizing start with
  | nil => exact trivial
  | cons event rest inductionHypothesis =>
    exact ⟨⟨first.1, second.1⟩, inductionHypothesis first.2 second.2⟩

/-- The invariant rule: what holds at the start and is kept by every step that obeys the
rule holds at the end of every run whose steps all do. -/
theorem run_invariant (invariant : State → Prop) {rule : State → Event → Prop}
    (kept : ∀ state event, invariant state → rule state event → invariant (step state event))
    {start : State} (initial : invariant start) {events : List Event}
    (meets : Meets step rule start events) : invariant (run step start events) := by
  induction events generalizing start with
  | nil => exact initial
  | cons event rest inductionHypothesis =>
    exact inductionHypothesis (kept start event initial meets.1) meets.2

/-- A rule that follows from another one in the states of an invariant. -/
theorem meets_of_invariant (invariant : State → Prop) {rule law : State → Event → Prop}
    (kept : ∀ state event, invariant state → rule state event → invariant (step state event))
    (obeys : ∀ state event, invariant state → rule state event → law state event)
    {start : State} (initial : invariant start) {events : List Event}
    (meets : Meets step rule start events) : Meets step law start events := by
  induction events generalizing start with
  | nil => exact trivial
  | cons event rest inductionHypothesis =>
    exact ⟨obeys start event initial meets.1,
      inductionHypothesis (kept start event initial meets.1) meets.2⟩

/-- The invariant rule for steps that all keep the invariant. -/
theorem run_invariant_of_forall (invariant : State → Prop)
    (kept : ∀ state event, invariant state → invariant (step state event))
    {start : State} (initial : invariant start) (events : List Event) :
    invariant (run step start events) := by
  induction events generalizing start with
  | nil => exact initial
  | cons event rest inductionHypothesis =>
    exact inductionHypothesis (kept start event initial)

end Exec
