/-
This file sums the entries of a ledger.

A ledger is a list of entries, each an owner and a record. `total who amount entries`
adds up what `amount` reads from the records of the owners that `who` selects: of one
owner, or of all of them. Posting an entry adds its amount to the totals that select
its owner.
-/
import Mathlib.Algebra.BigOperators.Group.Finset.Piecewise
import Mathlib.Algebra.GroupWithZero.Nat
import Mathlib.Algebra.Order.Group.Nat
import Mathlib.Tactic.Common

namespace Ledger

variable {Owner Record : Type*}

/-- What the records of the selected owners add up to. -/
def total (who : Owner → Bool) (amount : Record → Nat) (entries : List (Owner × Record)) : Nat :=
  ((entries.filter fun entry => who entry.1).map fun entry => amount entry.2).sum

variable {who : Owner → Bool} {amount : Record → Nat} {entries : List (Owner × Record)}

@[simp]
theorem total_nil : total who amount [] = 0 := rfl

/-- An entry that is posted adds its amount where its owner is selected. -/
theorem total_post (owner : Owner) (record : Record) :
    total who amount (entries ++ [(owner, record)]) =
      total who amount entries + if who owner then amount record else 0 := by
  unfold total
  rw [List.filter_append, List.map_append, List.sum_append, List.filter_cons]
  split <;> simp

/-- The totals are zero exactly when every entry of a selected owner is. -/
theorem total_eq_zero_iff :
    total who amount entries = 0 ↔
      ∀ entry ∈ entries, who entry.1 = true → amount entry.2 = 0 := by
  unfold total
  rw [List.sum_eq_zero_iff_forall_eq_nat]
  simp only [List.mem_map, List.mem_filter, forall_exists_index, and_imp]
  exact ⟨fun zero entry member selected => zero _ entry member selected rfl,
    fun zero _ entry member selected same => same ▸ zero entry member selected⟩

/-- What the owners have adds up to what all of them have. -/
theorem sum_total [DecidableEq Owner] {owners : Finset Owner}
    (covers : ∀ entry ∈ entries, entry.1 ∈ owners) :
    ∑ owner ∈ owners, total (fun other => decide (other = owner)) amount entries =
      total (fun _ => true) amount entries := by
  induction entries using List.reverseRecOn with
  | nil => simp
  | append_singleton earlier entry inductionHypothesis =>
    obtain ⟨owner, record⟩ := entry
    have mine : owner ∈ owners := covers (owner, record) (by simp)
    simp only [total_post, decide_eq_true_eq, if_true]
    rw [Finset.sum_add_distrib, Finset.sum_ite_eq, if_pos mine,
      inductionHypothesis fun other member => covers other (List.mem_append_left _ member)]

end Ledger
