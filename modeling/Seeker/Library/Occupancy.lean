/-
This file is about a finite set of members, each placed in one cell, and about the
two redundant records a program keeps of such a placement: for each cell the set of
members in it, and the size of that set.

`Tabulates` says that the two records describe the placement. The file proves what
such a table is good for (the cells' sets are disjoint, they cover the members, the
sizes add up) and how it is maintained: entering a member in one cell and
withdrawing it from another keeps the table of the moved placement.
-/
import Mathlib.Algebra.Order.BigOperators.Group.Finset
import Mathlib.Algebra.Order.Ring.Int
import Mathlib.Data.Nat.Cast.Basic

namespace Occupancy

variable {Member Cell : Type*} [DecidableEq Cell]

/-- The members placed in a cell. -/
def fiber (members : Finset Member) (place : Member → Cell) (cell : Cell) : Finset Member :=
  members.filter fun member => place member = cell

@[simp]
theorem mem_fiber {members : Finset Member} {place : Member → Cell} {cell : Cell}
    {member : Member} :
    member ∈ fiber members place cell ↔ member ∈ members ∧ place member = cell :=
  Finset.mem_filter

theorem fiber_subset (members : Finset Member) (place : Member → Cell) (cell : Cell) :
    fiber members place cell ⊆ members :=
  Finset.filter_subset _ _

/-- Only the places of the members matter. -/
theorem fiber_congr {members : Finset Member} {first second : Member → Cell} (cell : Cell)
    (same : ∀ member ∈ members, first member = second member) :
    fiber members first cell = fiber members second cell :=
  Finset.filter_congr fun member inside => by rw [same member inside]

theorem fiber_disjoint (members : Finset Member) (place : Member → Cell) {first second : Cell}
    (different : first ≠ second) :
    Disjoint (fiber members place first) (fiber members place second) := by
  rw [Finset.disjoint_left]
  intro member inFirst inSecond
  exact different ((mem_fiber.mp inFirst).2.symm.trans (mem_fiber.mp inSecond).2)

/-- The cells of a set that every member is placed in cover the members. -/
theorem biUnion_fiber [DecidableEq Member] {members : Finset Member} {place : Member → Cell}
    {cells : Finset Cell} (placed : ∀ member ∈ members, place member ∈ cells) :
    cells.biUnion (fiber members place) = members := by
  ext member
  simp only [Finset.mem_biUnion, mem_fiber]
  constructor
  · rintro ⟨_, _, inside, _⟩
    exact inside
  · intro inside
    exact ⟨place member, placed member inside, inside, rfl⟩

/-- The sizes of these cells add up to the number of members. -/
theorem sum_card_fiber {members : Finset Member} {place : Member → Cell} {cells : Finset Cell}
    (placed : ∀ member ∈ members, place member ∈ cells) :
    ∑ cell ∈ cells, (fiber members place cell).card = members.card :=
  (Finset.card_eq_sum_card_fiberwise placed).symm

/-! ### Moving one member -/

theorem fiber_update_self [DecidableEq Member] (members : Finset Member)
    (place : Member → Cell) (member : Member) (inside : member ∈ members) (target : Cell) :
    fiber members (Function.update place member target) target =
      insert member (fiber members place target) := by
  ext other
  simp only [mem_fiber, Finset.mem_insert, Function.update_apply]
  by_cases same : other = member
  · simp [same, inside]
  · simp [same]

theorem fiber_update_of_ne [DecidableEq Member] (members : Finset Member)
    (place : Member → Cell) (member : Member) {target cell : Cell}
    (different : cell ≠ target) :
    fiber members (Function.update place member target) cell =
      (fiber members place cell).erase member := by
  ext other
  simp only [mem_fiber, Finset.mem_erase, Function.update_apply]
  by_cases same : other = member
  · simp [same, different.symm]
  · simp [same]

/-! ### The table of a placement -/

/-- The sets and the counts describe the placement on the cells in question. -/
structure Tabulates (members : Finset Member) (place : Member → Cell) (cells : Cell → Prop)
    (set : Cell → Finset Member) (count : Cell → Int) : Prop where
  set_eq : ∀ cell, cells cell → set cell = fiber members place cell
  count_eq : ∀ cell, cells cell → count cell = (set cell).card

namespace Tabulates

variable {members : Finset Member} {place : Member → Cell} {cells : Cell → Prop}
  {set : Cell → Finset Member} {count : Cell → Int}

theorem disjoint (table : Tabulates members place cells set count) {first second : Cell}
    (firstCell : cells first) (secondCell : cells second) (different : first ≠ second) :
    Disjoint (set first) (set second) := by
  rw [table.set_eq first firstCell, table.set_eq second secondCell]
  exact fiber_disjoint members place different

/-- A table of a placement is the table of every placement that agrees on the members. -/
theorem congr (table : Tabulates members place cells set count) {other : Member → Cell}
    (same : ∀ member ∈ members, place member = other member) :
    Tabulates members other cells set count where
  set_eq cell inside := by rw [table.set_eq cell inside, fiber_congr cell same]
  count_eq := table.count_eq

/-- The table of no members has empty sets and zero counts. -/
theorem empty (emptySet : ∀ cell, cells cell → set cell = ∅)
    (zeroCount : ∀ cell, cells cell → count cell = 0) :
    Tabulates (∅ : Finset Member) place cells set count where
  set_eq cell inCells := by
    rw [emptySet cell inCells]
    exact (Finset.filter_empty _).symm
  count_eq cell inCells := by
    rw [emptySet cell inCells, zeroCount cell inCells, Finset.card_empty, Nat.cast_zero]

/-- Entering a new member in a cell maintains the table. -/
theorem enter [DecidableEq Member] (table : Tabulates members place cells set count)
    {member : Member} (absent : member ∉ members) (target : Cell)
    {set' : Cell → Finset Member} {count' : Cell → Int}
    (entered : set' target = insert member (set target))
    (incremented : count' target = count target + 1)
    (set_frame : ∀ cell, cell ≠ target → set' cell = set cell)
    (count_frame : ∀ cell, cell ≠ target → count' cell = count cell) :
    Tabulates (insert member members) (Function.update place member target) cells set' count' := by
  have others : ∀ cell, fiber members (Function.update place member target) cell =
      fiber members place cell := by
    intro cell
    refine fiber_congr cell fun other inside => ?_
    have different : other ≠ member := fun same => absent (same ▸ inside)
    rw [Function.update_of_ne different]
  have placed : fiber (insert member members) (Function.update place member target) target =
      insert member (fiber members place target) := by
    rw [fiber, Finset.filter_insert, if_pos (Function.update_self ..), ← fiber, others]
  have elsewhere : ∀ cell, cell ≠ target →
      fiber (insert member members) (Function.update place member target) cell =
        fiber members place cell := by
    intro cell different
    rw [fiber, Finset.filter_insert, if_neg, ← fiber, others]
    rw [Function.update_self]
    exact different.symm
  refine ⟨fun cell inCells => ?_, fun cell inCells => ?_⟩
  · by_cases atTarget : cell = target
    · subst atTarget
      rw [placed, entered, table.set_eq cell inCells]
    · rw [elsewhere cell atTarget, set_frame cell atTarget, table.set_eq cell inCells]
  · by_cases atTarget : cell = target
    · subst atTarget
      have new : member ∉ set cell := by
        rw [table.set_eq cell inCells]
        exact fun here => absent (mem_fiber.mp here).1
      rw [incremented, entered, Finset.card_insert_of_notMem new, table.count_eq cell inCells,
        Nat.cast_succ]
    · rw [count_frame cell atTarget, set_frame cell atTarget, table.count_eq cell inCells]

/-- Entering a member in its new cell, withdrawing it from its old one and adjusting the
two counts maintains the table. -/
theorem move [DecidableEq Member] (table : Tabulates members place cells set count)
    {member : Member} (inside : member ∈ members) {target : Cell} (moved : place member ≠ target)
    (fromCell : cells (place member))
    {set' : Cell → Finset Member} {count' : Cell → Int}
    (entered : set' target = insert member (set target))
    (withdrawn : set' (place member) = (set (place member)).erase member)
    (incremented : count' target = count target + 1)
    (decremented : count' (place member) = count (place member) - 1)
    (set_frame : ∀ cell, cell ≠ target → cell ≠ place member → set' cell = set cell)
    (count_frame : ∀ cell, cell ≠ target → cell ≠ place member → count' cell = count cell) :
    Tabulates members (Function.update place member target) cells set' count' where
  set_eq cell inCells := by
    by_cases atTarget : cell = target
    · subst atTarget
      rw [fiber_update_self members place member inside, entered, table.set_eq cell inCells]
    · rw [fiber_update_of_ne members place member atTarget]
      by_cases atSource : cell = place member
      · rw [atSource, withdrawn, table.set_eq _ fromCell]
      · rw [set_frame cell atTarget atSource, table.set_eq cell inCells,
          Finset.erase_eq_of_notMem]
        intro here
        exact atSource (mem_fiber.mp here).2.symm
  count_eq cell inCells := by
    by_cases atTarget : cell = target
    · subst atTarget
      have absent : member ∉ set cell := by
        rw [table.set_eq cell inCells]
        intro here
        exact moved (mem_fiber.mp here).2
      rw [incremented, entered, Finset.card_insert_of_notMem absent, table.count_eq cell inCells]
      push_cast
      rfl
    · by_cases atSource : cell = place member
      · have present : member ∈ set cell := by
          rw [table.set_eq cell inCells]
          exact mem_fiber.mpr ⟨inside, atSource.symm⟩
        have positive : 1 ≤ (set cell).card := Finset.card_pos.mpr ⟨member, present⟩
        rw [atSource] at present positive ⊢
        rw [decremented, withdrawn, table.count_eq _ fromCell,
          Finset.card_erase_of_mem present]
        omega
      · rw [count_frame cell atTarget atSource, set_frame cell atTarget atSource,
          table.count_eq cell inCells]

end Tabulates

end Occupancy
