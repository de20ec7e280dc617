/-
This file models places that give what they have to others.

`gathered sources receiver values` is what each place has once every source has given
its value to its receiver, the sources keeping a copy. What a set of places has then is
what it had itself and what the sources had, if all receivers are in it.
-/
import Mathlib.Algebra.BigOperators.Group.Finset.Sigma
import Mathlib.Data.Finset.Filter

namespace Gather

variable {Place Value : Type*} [DecidableEq Place] [AddCommMonoid Value]
  {sources targets : Finset Place} {receiver : Place → Place} {values : Place → Value}
  {source place : Place}

/-- What a place has when the sources have given their values to their receivers. -/
def gathered (sources : Finset Place) (receiver : Place → Place) (values : Place → Value)
    (place : Place) : Value :=
  values place + ∑ source ∈ sources with receiver source = place, values source

@[simp]
theorem gathered_empty (receiver : Place → Place) (values : Place → Value) :
    gathered ∅ receiver values = values := by
  funext place
  rw [gathered, Finset.filter_empty, Finset.sum_empty, add_zero]

/-- One more source gives to its receiver. -/
theorem gathered_insert (new : source ∉ sources) :
    gathered (insert source sources) receiver values place =
      gathered sources receiver values place +
        if receiver source = place then values source else 0 := by
  unfold gathered
  rw [Finset.filter_insert]
  split
  · rw [Finset.sum_insert fun member => new (Finset.mem_of_mem_filter source member),
      add_comm (values source), add_assoc]
  · rw [add_zero]

/-- The receiver of a place that is no source does not matter. -/
theorem gathered_update (absent : source ∉ sources) (target : Place) :
    gathered sources (Function.update receiver source target) values =
      gathered sources receiver values := by
  funext place
  have same : ∀ other ∈ sources, Function.update receiver source target other = receiver other := by
    intro other member
    have apart : other ≠ source := by
      rintro rfl
      exact absent member
    exact Function.update_of_ne apart target receiver
  unfold gathered
  rw [Finset.filter_congr fun other member => by rw [same other member]]

/-- What the targets have is what they had and what the sources had. -/
theorem sum_gathered (toTargets : ∀ source ∈ sources, receiver source ∈ targets) :
    ∑ place ∈ targets, gathered sources receiver values place =
      ∑ place ∈ targets, values place + ∑ source ∈ sources, values source := by
  unfold gathered
  rw [Finset.sum_add_distrib, Finset.sum_fiberwise_of_maps_to toTargets]

end Gather
