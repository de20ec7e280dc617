/-
This file models a row that several loops fill one after the other, each going on
with the index where the loop before it stopped.

A sweep is the row, the index, and the list of the cells written so far. `put` is
`row[j++] = value` and `loop` is `for (; going(j); j++) row[j] = value(j)`.
`Swept value before after` says what has happened between two moments of a sweep: the
cells between the two indices have been written, each once and with its `value`, and
no others. A loop whose condition is a bound on the index continues a sweep up to that
bound.
-/
import Mathlib.Data.List.Count
import Mathlib.Tactic.Common
import Seeker.Library.Loops

variable {Value : Type*}

/-- A row being filled, with the cells written so far, the latest first. -/
structure Sweep (Value : Type*) where
  cells : Nat → Value
  index : Nat
  writes : List Nat

namespace Sweep

/-- `row[j++] = value`. -/
def put (value : Value) (sweep : Sweep Value) : Sweep Value where
  cells := Function.update sweep.cells sweep.index value
  index := sweep.index + 1
  writes := sweep.index :: sweep.writes

/-- One turn of a loop, or `none` where its condition fails. -/
def turn (going : Nat → Bool) (value : Nat → Value) (sweep : Sweep Value) :
    Option (Sweep Value) :=
  if going sweep.index then some (sweep.put (value sweep.index)) else none

/-- `for (; going(j); j++) row[j] = value(j)`, with at most `limit` turns. -/
def loop (limit : Nat) (going : Nat → Bool) (value : Nat → Value) (sweep : Sweep Value) :
    Sweep Value :=
  Loops.repeatUpTo (turn going value) limit sweep

/-- From `before` to `after`, the cells between the indices have been written, each once. -/
structure Swept (value : Nat → Value) (before after : Sweep Value) : Prop where
  forward : before.index ≤ after.index
  cells : ∀ cell, after.cells cell =
    if before.index ≤ cell ∧ cell < after.index then value cell else before.cells cell
  writes : ∀ cell, after.writes.count cell =
    before.writes.count cell + if before.index ≤ cell ∧ cell < after.index then 1 else 0

variable {value : Nat → Value} {before after : Sweep Value}

theorem Swept.refl (value : Nat → Value) (sweep : Sweep Value) : Swept value sweep sweep where
  forward := le_rfl
  cells cell := by rw [if_neg (by omega)]
  writes cell := by rw [if_neg (by omega), Nat.add_zero]

/-- One more write continues a sweep. -/
theorem Swept.put (swept : Swept value before after) {written : Value}
    (right : written = value after.index) : Swept value before (after.put written) where
  forward := Nat.le_succ_of_le swept.forward
  cells cell := by
    have forward := swept.forward
    unfold Sweep.put
    dsimp only
    by_cases here : cell = after.index
    · rw [here, Function.update_self, if_pos (by omega), right]
    · rw [Function.update_of_ne here, swept.cells cell]
      exact if_congr (by omega) rfl rfl
  writes cell := by
    have forward := swept.forward
    unfold Sweep.put
    dsimp only
    by_cases here : cell = after.index
    · rw [here, List.count_cons_self, swept.writes, if_neg (by omega), if_pos (by omega)]
    · rw [List.count_cons_of_ne (Ne.symm here), swept.writes cell]
      congr 1
      exact if_congr (by omega) rfl rfl

/-- A loop that runs while the index is below `stop` continues a sweep up to `stop`, where its
condition fails, if it is allowed enough turns. -/
theorem Swept.loop {stop : Nat} {going : Nat → Bool} {written : Nat → Value}
    (bound : ∀ cell, going cell = true ↔ cell < stop) (limit : Nat)
    (swept : Swept value before after) (enough : stop ≤ after.index + limit)
    (right : ∀ cell, after.index ≤ cell → cell < stop → written cell = value cell) :
    Swept value before (after.loop limit going written) ∧
      (after.loop limit going written).index = max after.index stop := by
  induction limit generalizing after with
  | zero => exact ⟨swept, (max_eq_left enough).symm⟩
  | succ limit inductionHypothesis =>
    by_cases within : after.index < stop
    · have taken : turn going written after = some (after.put (written after.index)) :=
        if_pos ((bound after.index).mpr within)
      have more := inductionHypothesis (swept.put (right after.index le_rfl within))
        (by show stop ≤ after.index + 1 + limit; omega)
        (fun cell past => right cell (Nat.le_of_succ_le past))
      have next : (after.put (written after.index)).index = after.index + 1 := rfl
      unfold Sweep.loop at more ⊢
      rw [Loops.repeatUpTo_succ_some limit taken]
      rw [next] at more
      exact ⟨more.1, more.2.trans (by omega)⟩
    · have left : turn going written after = none :=
        if_neg fun goes => within ((bound after.index).mp goes)
      unfold Sweep.loop
      rw [Loops.repeatUpTo_succ_none limit left]
      exact ⟨swept, (max_eq_left (Nat.not_lt.mp within)).symm⟩

/-- A sweep from the first cell gives every cell up to its index its value. -/
theorem Swept.whole_cells (swept : Swept value before after) (first : before.index = 0)
    (cell : Nat) :
    after.cells cell = if cell < after.index then value cell else before.cells cell := by
  rw [swept.cells cell, first]
  exact if_congr (and_iff_right (Nat.zero_le cell)) rfl rfl

/-- A sweep from the first cell writes every cell up to its index once. -/
theorem Swept.whole_writes (swept : Swept value before after) (first : before.index = 0)
    (none : before.writes = []) (cell : Nat) :
    after.writes.count cell = if cell < after.index then 1 else 0 := by
  rw [swept.writes cell, none, List.count_nil, Nat.zero_add, first]
  exact if_congr (and_iff_right (Nat.zero_le cell)) rfl rfl

end Sweep
