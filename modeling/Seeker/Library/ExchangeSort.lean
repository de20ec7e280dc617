/-
This file proves a sort correct that makes a fixed number of passes over an array
and exchanges neighbouring cells which are out of order.

A pass carries the largest of the cells that are not in place yet to their right
end, and does not touch the cells in place. So one pass less than there are cells
suffices, whatever the cells hold, and the result is the sorted list of the cells.
-/
import Mathlib.Data.List.Sort
import Mathlib.Logic.Equiv.Basic
import Mathlib.Order.MinMax
import Seeker.Library.Loops

namespace ExchangeSort

variable {Value : Type*} [LinearOrder Value]

/-- The cells at `index` and `index + 1` are put in order. -/
def exchange (index : Nat) (row : Nat → Value) : Nat → Value :=
  if row index ≤ row (index + 1) then row
  else Function.update (Function.update row index (row (index + 1))) (index + 1) (row index)

/-- A pass over the first `len` cells. -/
def pass (len : Nat) (row : Nat → Value) : Nat → Value :=
  Loops.forRange (len - 1) exchange row

/-- The passes over the first `len` cells. -/
def sort (len : Nat) (row : Nat → Value) : Nat → Value :=
  Loops.forRange (len - 1) (fun _ row => pass len row) row

/-- The first `len` cells. -/
def cells (len : Nat) (row : Nat → Value) : List Value := (List.range len).map row

omit [LinearOrder Value] in
@[simp]
theorem length_cells (len : Nat) (row : Nat → Value) : (cells len row).length = len := by
  rw [cells, List.length_map, List.length_range]

omit [LinearOrder Value] in
theorem cells_inj {len : Nat} {row row' : Nat → Value} :
    cells len row = cells len row' ↔ ∀ cell, cell < len → row cell = row' cell := by
  unfold cells
  rw [List.map_inj_left]
  simp only [List.mem_range]

/-! ### One exchange -/

theorem exchange_apply (index : Nat) (row : Nat → Value) (cell : Nat) :
    exchange index row cell =
      if cell = index then min (row index) (row (index + 1))
      else if cell = index + 1 then max (row index) (row (index + 1))
      else row cell := by
  unfold exchange
  by_cases ordered : row index ≤ row (index + 1)
  · rw [if_pos ordered, min_eq_left ordered, max_eq_right ordered]
    split_ifs with first second
    · rw [first]
    · rw [second]
    · rfl
  · have reversed := le_of_not_ge ordered
    rw [if_neg ordered, min_eq_right reversed, max_eq_left reversed]
    simp only [Function.update_apply]
    split_ifs <;> first | rfl | omega

/-- An exchange does nothing or swaps its two cells. -/
theorem exchange_eq_swap (index : Nat) (row : Nat → Value) :
    exchange index row = row ∨ exchange index row = row ∘ Equiv.swap index (index + 1) := by
  unfold exchange
  split
  · exact Or.inl rfl
  · rw [Equiv.comp_swap_eq_update]
    refine Or.inr ?_
    rw [Function.update_comm (by omega)]

omit [LinearOrder Value] in
theorem cells_comp_perm {len : Nat} (row : Nat → Value) (arrange : Equiv.Perm Nat)
    (within : ∀ cell, arrange cell < len ↔ cell < len) :
    (cells len (row ∘ arrange)).Perm (cells len row) := by
  have rearranged : ((List.range len).map arrange).Perm (List.range len) := by
    rw [List.perm_ext_iff_of_nodup (List.nodup_range.map arrange.injective) List.nodup_range]
    intro cell
    rw [List.mem_map, List.mem_range]
    constructor
    · rintro ⟨other, member, rfl⟩
      exact (within other).mpr (List.mem_range.mp member)
    · intro small
      refine ⟨arrange.symm cell, ?_, arrange.apply_symm_apply cell⟩
      rw [List.mem_range, ← within, arrange.apply_symm_apply]
      exact small
  unfold cells
  rw [← List.map_map]
  exact rearranged.map row

theorem exchange_perm {len index : Nat} (inside : index + 1 < len) (row : Nat → Value) :
    (cells len (exchange index row)).Perm (cells len row) := by
  rcases exchange_eq_swap index row with same | swapped
  · rw [same]
  · rw [swapped]
    refine cells_comp_perm row _ fun cell => ?_
    rw [Equiv.swap_apply_def]
    split_ifs <;> omega

/-! ### Passes keep the cells -/

theorem pass_perm (len : Nat) (row : Nat → Value) :
    (cells len (pass len row)).Perm (cells len row) :=
  Loops.forRange_induction (fun _ current => (cells len current).Perm (cells len row))
    (List.Perm.refl _) fun index small current kept =>
      (exchange_perm (by omega) current).trans kept

theorem sort_perm (len : Nat) (row : Nat → Value) :
    (cells len (sort len row)).Perm (cells len row) :=
  Loops.forRange_induction (fun _ current => (cells len current).Perm (cells len row))
    (List.Perm.refl _) fun _ _ current kept => (pass_perm len current).trans kept

/-- The cells behind the first `len` are not touched. -/
theorem sort_apply_of_le {len cell : Nat} (past : len ≤ cell) (row : Nat → Value) :
    sort len row cell = row cell := by
  refine Loops.forRange_induction (fun _ (current : Nat → Value) => current cell = row cell) rfl ?_
  rintro _ _ current kept
  rw [← kept]
  refine Loops.forRange_induction (fun _ (passing : Nat → Value) =>
    passing cell = current cell) rfl ?_
  intro index small passing same
  rw [exchange_apply, if_neg (by omega), if_neg (by omega)]
  exact same

/-! ### Passes put the cells in order -/

/-- The cells from `first` on are in place: no earlier cell is larger. -/
def InPlace (len first : Nat) (row : Nat → Value) : Prop :=
  ∀ earlier cell, earlier < cell → first ≤ cell → cell < len → row earlier ≤ row cell

/-- The invariant of a pass that has looked at `count` pairs: the cells in place stay so, and the
largest cell below them has been carried along. -/
structure Carrying (len first count : Nat) (row : Nat → Value) : Prop where
  inPlace : InPlace len (first + 1) row
  largest : ∀ cell, cell ≤ min count first → row cell ≤ row (min count first)

theorem Carrying.exchange {len first count : Nat} {row : Nat → Value}
    (carrying : Carrying len first count row) (inside : count + 1 < len) :
    Carrying len first (count + 1) (exchange count row) := by
  by_cases reached : first ≤ count
  · -- The two cells are in order: the second one is in place.
    have ordered : row count ≤ row (count + 1) :=
      carrying.inPlace count (count + 1) (Nat.lt_succ_self count) (by omega) inside
    have same : ExchangeSort.exchange count row = row := if_pos ordered
    rw [same]
    refine ⟨carrying.inPlace, ?_⟩
    have largest := carrying.largest
    rw [min_eq_right reached] at largest
    rw [min_eq_right (Nat.le_succ_of_le reached)]
    exact largest
  · have short : count < first := not_le.mp reached
    have largest := carrying.largest
    rw [min_eq_left (le_of_lt short)] at largest
    refine ⟨?_, ?_⟩
    · intro earlier cell before from_first small
      have placed := fun other (lower : other < cell) =>
        carrying.inPlace other cell lower from_first small
      rw [exchange_apply, exchange_apply count row cell, if_neg (by omega : cell ≠ count),
        if_neg (by omega : cell ≠ count + 1)]
      split_ifs
      · exact min_le_of_left_le (placed count (by omega))
      · exact max_le (placed count (by omega)) (placed (count + 1) (by omega))
      · exact placed earlier before
    · rw [min_eq_left short]
      intro cell within
      rw [exchange_apply count row (count + 1), if_neg (by omega), if_pos rfl, exchange_apply]
      split_ifs
      · exact min_le_of_left_le (le_max_left _ _)
      · exact le_rfl
      · exact le_max_of_le_left (largest cell (by omega))

/-- A pass puts one more cell in place. -/
theorem InPlace.pass {len first : Nat} {row : Nat → Value} (below : first < len)
    (inPlace : InPlace len (first + 1) row) : InPlace len first (pass len row) := by
  have carried : Carrying len first (len - 1) (ExchangeSort.pass len row) := by
    refine Loops.forRange_induction (fun count current => Carrying len first count current)
      ⟨inPlace, fun cell within => ?_⟩ fun count small current carrying =>
        carrying.exchange (by omega)
    obtain rfl : cell = 0 := by omega
    rw [Nat.zero_min]
  intro earlier cell before from_first small
  rcases Nat.eq_or_lt_of_le from_first with rfl | later
  · have largest := carried.largest
    rw [min_eq_right (by omega)] at largest
    exact largest earlier (le_of_lt before)
  · exact carried.inPlace earlier cell before later small

theorem sort_inPlace (len : Nat) (row : Nat → Value) : InPlace len 1 (sort len row) := by
  rcases Nat.eq_zero_or_pos len with rfl | positive
  · exact fun _ cell _ _ small => absurd small (Nat.not_lt_zero cell)
  · have sorted : InPlace len (len - (len - 1)) (sort len row) := by
      refine Loops.forRange_induction (fun count current => InPlace len (len - count) current)
        (fun _ cell _ past small => absurd small (by omega)) ?_
      intro count small current inPlace
      rw [show len - count = len - (count + 1) + 1 by omega] at inPlace
      exact inPlace.pass (by omega)
    rwa [show len - (len - 1) = 1 by omega] at sorted

/-- The sorted cells do not decrease. -/
theorem sort_le_sort {len first second : Nat} (row : Nat → Value) (ordered : first ≤ second)
    (small : second < len) : sort len row first ≤ sort len row second := by
  rcases Nat.eq_or_lt_of_le ordered with rfl | before
  · exact le_rfl
  · exact sort_inPlace len row first second before (by omega) small

/-- The sort leaves the sorted list of the cells. -/
theorem cells_sort (len : Nat) (row : Nat → Value) :
    cells len (sort len row) = (cells len row).insertionSort (· ≤ ·) := by
  have sorted : (cells len (sort len row)).Pairwise (· ≤ ·) := by
    unfold cells
    rw [List.pairwise_map]
    refine List.pairwise_lt_range.imp_of_mem fun _ second before => ?_
    exact sort_le_sort row (le_of_lt before) (List.mem_range.mp second)
  exact ((sort_perm len row).trans (List.perm_insertionSort _ _).symm).eq_of_pairwise' sorted
    (List.pairwise_insertionSort _ _)

end ExchangeSort
