/-
This file embeds `mck`, the knapsack that the dynamic-programming mutator uses to
choose states, and proves it optimal.

The classes are the cpus that `cpu_awake_proxy` lists, the items are the states, the
weight of a state is its distance from the cpu's current one, and it is worth its
demand. The table keeps the best sum and the state of the last cpu, with `-1` for
none; the backtrack skips cells without a state. Where every demand is positive each
cell has a state, nothing is skipped, and the table is one that the library solves.
-/
import Seeker.Globals
import Seeker.Library.Knapsack
import Seeker.Library.Loops

namespace Seeker

/-! ### The knapsack -/

/-- `struct struct_f`, a cell of `dyna`. -/
structure DynaCell where
  f : Int
  sol : Int
  deriving DecidableEq, Repr

/-- `wt[i][j]`. -/
def mckWt (curCpuState cpuAwakeProxy : Nat → Nat) (i j : Nat) : Nat :=
  ((j : Int) - curCpuState (cpuAwakeProxy i)).natAbs

/-- `max` and `ind`. -/
structure MckScan where
  max : Int
  ind : Int

/-- The scan for the state with the largest value among those that are admitted, the first of them
if there are several. -/
def mckScan (m : Nat) (admitted : Nat → Bool) (value : Nat → Int) : MckScan :=
  Loops.forRange m
    (fun j scan => if admitted j ∧ scan.max < value j then { max := value j, ind := j } else scan)
    { max := -1, ind := -1 }

/-- A cell of the first row, `row` being the row so far. -/
def mckFirstCell (m : Nat) (wt : Nat → Nat) (demand : Nat → Int) (b : Nat)
    (row : Nat → DynaCell) : DynaCell :=
  let scan := mckScan m (fun j => wt j ≤ b) demand
  { f := if 0 < b ∧ (row (b - 1)).f > scan.max then (row (b - 1)).f else scan.max
    sol := if scan.max > 0 then scan.ind else (row b).sol }

/-- `demand1`. -/
def mckDemand (wt : Nat → Nat) (before : Nat → DynaCell) (b j : Nat) : Int :=
  if wt j ≤ b then (before (b - wt j)).f else 0

/-- A cell of a later row, `before` being the row before it and `row` the row so far. -/
def mckCell (m : Nat) (wt : Nat → Nat) (demand : Nat → Int) (before : Nat → DynaCell) (b : Nat)
    (row : Nat → DynaCell) : DynaCell :=
  let scan := mckScan m (fun j => wt j ≤ b ∧ 0 < mckDemand wt before b j)
    (fun j => int32 (mckDemand wt before b j + demand j))
  if 0 < b ∧ (row (b - 1)).f > scan.max then { row b with f := (row (b - 1)).f }
  else if scan.max > 0 then { f := scan.max, sol := scan.ind }
  else row b

/-- A row is filled from the smallest budget to the largest. -/
def mckRow (w : Nat) (cell : Nat → (Nat → DynaCell) → DynaCell) (row : Nat → DynaCell) :
    Nat → DynaCell :=
  Loops.forRange (w + 1) (fun b row => Function.update row b (cell b row)) row

/-- `dyna` as the loop that clears it leaves it. The rest of the array is not read. -/
def mckCleared : Nat → Nat → DynaCell := fun _ _ => { f := 0, sol := -1 }

/-- `dyna` before the backtrack. -/
def mckTable (n m w : Nat) (demand : Nat → Int) (wt : Nat → Nat → Nat) : Nat → Nat → DynaCell :=
  let first := Function.update mckCleared 1
    (mckRow w (mckFirstCell m (wt 0) demand) (mckCleared 1))
  Loops.forRange (n - 1)
    (fun i dyna =>
      Function.update dyna (i + 2)
        (mckRow w (mckCell m (wt (i + 1)) demand (dyna (i + 1))) (dyna (i + 2))))
    first

/-- The backtrack for the first `k` cpus, with `b` left of the budget. The search for a cell that
has a state leaves `b` at `-1` when it finds none. -/
def mckBacktrack (dyna : Nat → Nat → DynaCell) (wt : Nat → Nat → Nat) (cpuAwakeProxy : Nat → Nat) :
    Nat → Int → (Nat → Nat) → Nat → Nat
  | 0, _, newCpuState => newCpuState
  | k + 1, b, newCpuState =>
    match Loops.lastBelow (fun b => 0 ≤ (dyna (k + 1) b).sol) (b + 1).toNat with
    | none => mckBacktrack dyna wt cpuAwakeProxy k (-1) newCpuState
    | some b =>
      let sol := (dyna (k + 1) b).sol.toNat
      mckBacktrack dyna wt cpuAwakeProxy k (b - wt k sol)
        (Function.update newCpuState (cpuAwakeProxy k) sol)

/-- `mck`. -/
def mck (n m w : Nat) (demand : Nat → Int) (curCpuState cpuAwakeProxy newCpuState : Nat → Nat) :
    Nat → Nat :=
  let wt := mckWt curCpuState cpuAwakeProxy
  mckBacktrack (mckTable n m w demand wt) wt cpuAwakeProxy n w newCpuState

/-! ### The scan -/

section Scan

variable {m : Nat}

/-- What the scan has found after the first states: nothing, or the best of those admitted. -/
structure Scanned (admitted : Nat → Bool) (value : Nat → Int) (count : Nat) (scan : MckScan) :
    Prop where
  found : scan.max = -1 ∧ scan.ind = -1 ∨ ∃ j, j < count ∧ admitted j = true ∧
    scan.ind = j ∧ scan.max = value j
  bound : ∀ j, j < count → admitted j = true → value j ≤ scan.max

theorem mckScan_scanned (m : Nat) (admitted : Nat → Bool) (value : Nat → Int) :
    Scanned admitted value m (mckScan m admitted value) := by
  refine Loops.forRange_induction (fun count scan => Scanned admitted value count scan)
    ⟨Or.inl ⟨rfl, rfl⟩, fun j small => absurd small (Nat.not_lt_zero j)⟩ ?_
  intro index _ scan scanned
  by_cases better : admitted index ∧ scan.max < value index
  · rw [if_pos better]
    refine ⟨Or.inr ⟨index, Nat.lt_succ_self index, better.1, rfl, rfl⟩, fun j small fits => ?_⟩
    rcases Nat.lt_succ_iff_lt_or_eq.mp small with before | here
    · exact (scanned.bound j before fits).trans better.2.le
    · rw [here]
  · rw [if_neg better]
    refine ⟨scanned.found.imp id ?_, fun j small fits => ?_⟩
    · rintro ⟨j, before, rest⟩
      exact ⟨j, Nat.lt_succ_of_lt before, rest⟩
    · rcases Nat.lt_succ_iff_lt_or_eq.mp small with before | here
      · exact scanned.bound j before fits
      · rw [here] at fits ⊢
        exact not_lt.mp fun above => better ⟨fits, above⟩

/-- Where a state of positive value is admitted, the scan finds one, and none is better. -/
theorem mckScan_spec (admitted : Nat → Bool) (value : Nat → Int) {some : Nat}
    (inTable : some < m) (fits : admitted some = true) (positive : 0 < value some) :
    ∃ j, j < m ∧ admitted j = true ∧ (mckScan m admitted value).ind = j ∧
      (mckScan m admitted value).max = value j ∧ 0 < value j ∧
      ∀ other, other < m → admitted other = true → value other ≤ value j := by
  have scanned := mckScan_scanned m admitted value
  have above := scanned.bound some inTable fits
  rcases scanned.found with ⟨none, _⟩ | ⟨j, small, admits, index, worth⟩
  · omega
  · refine ⟨j, small, admits, index, worth, by omega, fun other inTable fits => ?_⟩
    rw [← worth]
    exact scanned.bound other inTable fits

end Scan

/-! ### The rows -/

/-- A cell of a row whose cells do not look past themselves. -/
theorem mckRow_apply (good : Nat → DynaCell → Prop) {w : Nat}
    {cell : Nat → (Nat → DynaCell) → DynaCell} {row : Nat → DynaCell}
    (cells : ∀ b, b ≤ w → ∀ current : Nat → DynaCell,
      (∀ smaller, smaller < b → good smaller (current smaller)) → current b = row b →
      good b (cell b current)) :
    ∀ b, b ≤ w → good b (mckRow w cell row b) := by
  suffices filled : (∀ b, b < w + 1 → good b (mckRow w cell row b)) ∧
      ∀ b, w + 1 ≤ b → mckRow w cell row b = row b by
    exact fun b within => filled.1 b (Nat.lt_succ_of_le within)
  refine Loops.forRange_induction (fun count (current : Nat → DynaCell) =>
    (∀ b, b < count → good b (current b)) ∧ ∀ b, count ≤ b → current b = row b)
    ⟨fun b small => absurd small (Nat.not_lt_zero b), fun _ _ => rfl⟩ ?_
  intro index small current held
  refine ⟨fun b before => ?_, fun b past => ?_⟩
  · by_cases here : b = index
    · rw [here, Function.update_self]
      exact cells index (Nat.le_of_lt_succ small) current held.1 (held.2 index le_rfl)
    · rw [Function.update_of_ne here]
      exact held.1 b (by omega)
  · rw [Function.update_of_ne (by omega)]
    exact held.2 b (by omega)

/-- The knapsack of some cpus. -/
def mckProblem (m : Nat) (wt : Nat → Nat → Nat) (demand : Nat → Int) : Knapsack.Problem where
  items := m
  weight := wt
  value _ j := demand j

section Cells

variable {m w k : Nat} {wt : Nat → Nat → Nat} {demand : Nat → Int} {row : Nat → Int}

/-- A cell that has a state, which is a best one, and a positive sum. -/
structure MckGood (m : Nat) (wt : Nat → Nat → Nat) (demand : Nat → Int) (row : Nat → Int)
    (k b : Nat) (cell : DynaCell) : Prop where
  found : 0 ≤ cell.sol
  positive : 0 < cell.f
  recorded : (mckProblem m wt demand).Recorded row k b cell.sol.toNat cell.f

/-- The cell before a cell is no better than what the scan finds for it. -/
theorem MckGood.earlier_le {b item : Nat} {best : Int} {cell : DynaCell}
    (optima : ∀ smaller, smaller ≤ b → (mckProblem m wt demand).Optimum k smaller (row smaller))
    (earlier : 0 < b → MckGood m wt demand row k (b - 1) cell)
    (recorded : (mckProblem m wt demand).Recorded row k b item best) :
    ¬ (0 < b ∧ cell.f > best) := by
  rintro ⟨positive, better⟩
  have before := (earlier positive).recorded.optimum fun smaller within =>
    optima smaller (within.trans (Nat.sub_le b 1))
  have worth := before.mono (Nat.sub_le b 1) (recorded.optimum optima)
  exact absurd better (not_lt.mpr worth)

/-- The first row: every state within the budget is admitted. -/
theorem mckFirstCell_good {b own : Nat} {current : Nat → DynaCell}
    (positive : ∀ j, j < m → 1 ≤ demand j) (inTable : own < m) (stays : wt 0 own = 0)
    (earlier : 0 < b → MckGood m wt demand (fun _ => 0) 0 (b - 1) (current (b - 1))) :
    MckGood m wt demand (fun _ => 0) 0 b (mckFirstCell m (wt 0) demand b current) := by
  obtain ⟨j, small, admitted, ind, max, worth, best⟩ :=
    mckScan_spec (fun j => wt 0 j ≤ b) demand inTable (decide_eq_true (by omega))
      (positive own inTable)
  have recorded : (mckProblem m wt demand).Recorded (fun _ => 0) 0 b j (demand j) := by
    refine ⟨small, of_decide_eq_true admitted, (Int.zero_add _).symm, fun other inTable fits => ?_⟩
    rw [Int.zero_add]
    exact best other inTable (decide_eq_true fits)
  have noEarlier := MckGood.earlier_le
    (fun smaller _ => Knapsack.Problem.optimum_zero smaller) earlier recorded
  have cell : mckFirstCell m (wt 0) demand b current = { f := demand j, sol := j } := by
    unfold mckFirstCell
    dsimp only
    rw [max, ind, if_neg noEarlier, if_pos worth]
  rw [cell]
  exact ⟨Int.natCast_nonneg j, worth, recorded⟩

/-- A later row: the cells of the row before it are positive, so that every state within the
budget is admitted, and their sums fit an `int`. -/
theorem mckCell_good {b own : Nat} {before current : Nat → DynaCell}
    (positive : ∀ j, j < m → 1 ≤ demand j) (inTable : own < m) (stays : wt k own = 0)
    (sums : ∀ smaller, smaller ≤ b → 0 < (before smaller).f)
    (optima : ∀ smaller, smaller ≤ b →
      (mckProblem m wt demand).Optimum k smaller (before smaller).f)
    (fits : ∀ choice, (mckProblem m wt demand).Feasible (k + 1) b choice →
      (mckProblem m wt demand).gain choice (k + 1) < 2 ^ 31)
    (earlier : 0 < b →
      MckGood m wt demand (fun smaller => (before smaller).f) k (b - 1) (current (b - 1))) :
    MckGood m wt demand (fun smaller => (before smaller).f) k b
      (mckCell m (wt k) demand before b current) := by
  have demand1 (j : Nat) (light : wt k j ≤ b) :
      mckDemand (wt k) before b j = (before (b - wt k j)).f := if_pos light
  have sum (j : Nat) (small : j < m) (light : wt k j ≤ b) :
      int32 (mckDemand (wt k) before b j + demand j) = (before (b - wt k j)).f + demand j := by
    obtain ⟨choice, feasible, worth⟩ := (optima (b - wt k j) (Nat.sub_le _ _)).reached
    have whole := fits _ (Knapsack.Problem.Feasible.extend small light feasible)
    rw [Knapsack.Problem.gain_extend, worth] at whole
    have nonneg := sums (b - wt k j) (Nat.sub_le _ _)
    have more := positive j small
    rw [demand1 j light]
    exact int32_of_fits (by omega) whole
  have admits (j : Nat) (light : wt k j ≤ b) :
      decide (wt k j ≤ b ∧ 0 < mckDemand (wt k) before b j) = true := by
    refine decide_eq_true ⟨light, ?_⟩
    rw [demand1 j light]
    exact sums _ (Nat.sub_le _ _)
  have stayFits : wt k own ≤ b := by omega
  obtain ⟨j, small, admitted, ind, max, worth, best⟩ :=
    mckScan_spec (fun j => wt k j ≤ b ∧ 0 < mckDemand (wt k) before b j)
      (fun j => int32 (mckDemand (wt k) before b j + demand j)) inTable (admits own stayFits) (by
        show 0 < int32 _
        rw [sum own inTable stayFits]
        exact Int.add_pos (sums _ (Nat.sub_le _ _)) (positive own inTable))
  have light := (of_decide_eq_true admitted).1
  have recorded : (mckProblem m wt demand).Recorded (fun smaller => (before smaller).f) k b j
      (int32 (mckDemand (wt k) before b j + demand j)) := by
    refine ⟨small, light, sum j small light, fun other inTable fits => ?_⟩
    have more := best other inTable (admits other fits)
    rw [sum other inTable fits] at more
    exact more
  have noEarlier := MckGood.earlier_le optima earlier recorded
  have cell : mckCell m (wt k) demand before b current =
      { f := int32 (mckDemand (wt k) before b j + demand j), sol := j } := by
    unfold mckCell
    dsimp only
    rw [max, ind, if_neg noEarlier, if_pos worth]
  rw [cell]
  exact ⟨Int.natCast_nonneg j, worth, recorded⟩

end Cells

/-! ### The table -/

section Table

variable {n m w : Nat} {wt : Nat → Nat → Nat} {demand : Nat → Int} {own : Nat → Nat}

/-- What a call of `mck` may rely on: a demand for every state, a state that each of the cpus can
keep, and sums that fit an `int`. -/
structure MckCall (n m : Nat) (wt : Nat → Nat → Nat) (demand : Nat → Int) (own : Nat → Nat) :
    Prop where
  positive : ∀ j, j < m → 1 ≤ demand j
  inTable : ∀ k, k < n → own k < m
  stays : ∀ k, k < n → wt k (own k) = 0
  fits : ∀ choice : Nat → Nat, (∀ k, k < n → choice k < m) →
    (mckProblem m wt demand).gain choice n < 2 ^ 31

/-- The sums over the first cpus fit as well. -/
theorem MckCall.prefix_fits (call : MckCall n m wt demand own) {classes b : Nat}
    (within : classes ≤ n) (choice : Nat → Nat)
    (feasible : (mckProblem m wt demand).Feasible classes b choice) :
    (mckProblem m wt demand).gain choice classes < 2 ^ 31 := by
  have whole := call.fits (fun k => if k < classes then choice k else own k) fun k small => by
    split
    · rename_i inside
      exact feasible.inClass k inside
    · exact call.inTable k small
  have same : (mckProblem m wt demand).gain choice classes =
      (mckProblem m wt demand).gain (fun k => if k < classes then choice k else own k) classes :=
    Knapsack.Problem.gain_congr fun k inside => (if_pos inside).symm
  rw [same]
  refine lt_of_le_of_lt ?_ whole
  refine Finset.sum_le_sum_of_subset_of_nonneg
    (Finset.range_subset_range.mpr within) fun k member outside => ?_
  show 0 ≤ demand (if k < classes then choice k else own k)
  rw [if_neg fun inside => outside (Finset.mem_range.mpr inside)]
  have small := Finset.mem_range.mp member
  exact le_trans (by decide) (call.positive _ (call.inTable k small))

/-- The rows of the table up to a number of cpus are good ones, and the rest is cleared. -/
structure MckFilled (m w : Nat) (wt : Nat → Nat → Nat) (demand : Nat → Int) (rows : Nat)
    (dyna : Nat → Nat → DynaCell) : Prop where
  first : dyna 0 = mckCleared 0
  good : ∀ k, k < rows → ∀ b, b ≤ w →
    MckGood m wt demand (fun smaller => (dyna k smaller).f) k b (dyna (k + 1) b)
  rest : ∀ k, rows < k → dyna k = mckCleared k

/-- A filled table is one that the library solves. -/
theorem MckFilled.solved {rows : Nat} {dyna : Nat → Nat → DynaCell}
    (filled : MckFilled m w wt demand rows dyna) :
    (mckProblem m wt demand).Solved (fun k b => (dyna k b).f) (fun k b => (dyna k b).sol.toNat)
      rows w where
  first b _ := by
    show (dyna 0 b).f = 0
    rw [filled.first]
    rfl
  recorded k small b within := (filled.good k small b within).recorded

theorem MckCall.firstRow (call : MckCall n m wt demand own) (someCpu : 1 ≤ n) :
    MckFilled m w wt demand 1 (Function.update mckCleared 1
      (mckRow w (mckFirstCell m (wt 0) demand) (mckCleared 1))) := by
  refine ⟨rfl, fun k small b within => ?_, fun k past => Function.update_of_ne (by omega) _ _⟩
  obtain rfl : k = 0 := by omega
  rw [Function.update_self]
  refine mckRow_apply (MckGood m wt demand (fun _ => 0) 0) ?_ b within
  intro b _ current earlier _
  exact mckFirstCell_good call.positive (call.inTable 0 someCpu) (call.stays 0 someCpu)
    fun positive => earlier (b - 1) (by omega)

/-- One turn of the loop over the other cpus. -/
theorem MckCall.nextRow (call : MckCall n m wt demand own) {rows : Nat} (someRow : 1 ≤ rows)
    (small : rows < n) {dyna : Nat → Nat → DynaCell}
    (filled : MckFilled m w wt demand rows dyna) :
    MckFilled m w wt demand (rows + 1) (Function.update dyna (rows + 1)
      (mckRow w (mckCell m (wt rows) demand (dyna rows)) (dyna (rows + 1)))) := by
  have kept (k : Nat) (before : k < rows + 1) (row : Nat → DynaCell) :
      Function.update dyna (rows + 1) row k = dyna k :=
    Function.update_of_ne (Nat.ne_of_lt before) _ _
  refine ⟨?_, fun k before b within => ?_, fun k past => ?_⟩
  · rw [kept 0 (Nat.succ_pos rows)]
    exact filled.first
  · rw [kept k before]
    by_cases here : k = rows
    · subst here
      rw [Function.update_self]
      have sums (smaller : Nat) (less : smaller ≤ w) : 0 < (dyna k smaller).f := by
        have positive := (filled.good (k - 1) (by omega) smaller less).positive
        rw [Nat.sub_add_cancel someRow] at positive
        exact positive
      have optima := filled.solved.optimum
      refine mckRow_apply (MckGood m wt demand (fun smaller => (dyna k smaller).f) k) ?_ b within
      intro b within current earlier _
      exact mckCell_good call.positive (call.inTable k small) (call.stays k small)
        (fun smaller less => sums smaller (less.trans within))
        (fun smaller less => optima smaller (less.trans within))
        (fun choice feasible => call.prefix_fits small choice feasible)
        fun positive => earlier (b - 1) (by omega)
    · rw [kept (k + 1) (by omega)]
      exact filled.good k (by omega) b within
  · rw [Function.update_of_ne (by omega)]
    exact filled.rest k (by omega)

theorem MckCall.filled (call : MckCall n m wt demand own) (someCpu : 1 ≤ n) :
    MckFilled m w wt demand n (mckTable n m w demand wt) := by
  suffices filled : MckFilled m w wt demand (n - 1 + 1) (mckTable n m w demand wt) by
    rw [Nat.sub_add_cancel someCpu] at filled
    exact filled
  refine Loops.forRange_induction (fun count dyna => MckFilled m w wt demand (count + 1) dyna)
    (call.firstRow someCpu) ?_
  intro index small dyna filled
  exact call.nextRow (Nat.le_add_left 1 index) (by omega) filled

end Table

/-! ### The backtrack -/

section Backtrack

variable {n m w : Nat} {wt : Nat → Nat → Nat} {demand : Nat → Int} {cpuAwakeProxy : Nat → Nat}
  {dyna : Nat → Nat → DynaCell}

/-- Where every cell has a state the backtrack skips none: it follows the recorded states. -/
theorem mckBacktrack_succ (filled : MckFilled m w wt demand n dyna) {k b : Nat} (small : k < n)
    (within : b ≤ w) (newCpuState : Nat → Nat) :
    mckBacktrack dyna wt cpuAwakeProxy (k + 1) b newCpuState =
      mckBacktrack dyna wt cpuAwakeProxy k ((b - wt k (dyna (k + 1) b).sol.toNat : Nat) : Int)
        (Function.update newCpuState (cpuAwakeProxy k) (dyna (k + 1) b).sol.toNat) := by
  have good := filled.good k small b within
  have here : ((b : Int) + 1).toNat = b + 1 := Int.toNat_natCast_add_one
  have found : Loops.lastBelow (fun b => 0 ≤ (dyna (k + 1) b).sol) ((b : Int) + 1).toNat =
      some b := by
    rw [here, Loops.lastBelow, if_pos (decide_eq_true good.found)]
  have light : wt k (dyna (k + 1) b).sol.toNat ≤ b := good.recorded.light
  rw [mckBacktrack, found, Nat.cast_sub light]

/-- The backtrack gives a listed cpu a recorded state of one of its places, and leaves the cpus that
are not listed alone. -/
theorem mckBacktrack_cases (filled : MckFilled m w wt demand n dyna) {k : Nat} (within : k ≤ n)
    {b : Nat} (budget : b ≤ w) (newCpuState : Nat → Nat) (cpu : Nat) :
    (∃ i, i < k ∧ cpu = cpuAwakeProxy i ∧
      mckBacktrack dyna wt cpuAwakeProxy k b newCpuState cpu =
        (mckProblem m wt demand).replay (fun k b => (dyna k b).sol.toNat) k b i) ∨
    ((∀ i, i < k → cpu ≠ cpuAwakeProxy i) ∧
      mckBacktrack dyna wt cpuAwakeProxy k b newCpuState cpu = newCpuState cpu) := by
  induction k generalizing b newCpuState with
  | zero => exact Or.inr ⟨fun i small => absurd small (Nat.not_lt_zero i), rfl⟩
  | succ k inductionHypothesis =>
    rw [mckBacktrack_succ filled within budget, Knapsack.Problem.replay]
    rcases inductionHypothesis (Nat.le_of_succ_le within)
      ((Nat.sub_le b (wt k (dyna (k + 1) b).sol.toNat)).trans budget)
      (Function.update newCpuState (cpuAwakeProxy k) (dyna (k + 1) b).sol.toNat)
      with ⟨i, small, place, given⟩ | ⟨apart, given⟩
    · refine Or.inl ⟨i, Nat.lt_succ_of_lt small, place, ?_⟩
      rw [given, Function.update_of_ne (Nat.ne_of_lt small)]
      rfl
    · by_cases last : cpu = cpuAwakeProxy k
      · refine Or.inl ⟨k, Nat.lt_succ_self k, last, ?_⟩
        rw [given, last, Function.update_self, Function.update_self]
      · refine Or.inr ⟨fun i small => ?_, ?_⟩
        · rcases Nat.lt_succ_iff_lt_or_eq.mp small with before | here
          · exact apart i before
          · rw [here]
            exact last
        · rw [given, Function.update_of_ne last]

end Backtrack

/-! ### What the knapsack gives -/

section Given

variable {n m w : Nat} {demand : Nat → Int} {curCpuState cpuAwakeProxy : Nat → Nat}

/-- The choice that `mck` follows. -/
def mckChoice (n m w : Nat) (demand : Nat → Int) (wt : Nat → Nat → Nat) : Nat → Nat :=
  (mckProblem m wt demand).replay (fun k b => (mckTable n m w demand wt k b).sol.toNat) n w

theorem MckCall.start (positive : ∀ j, j < m → 1 ≤ demand j)
    (inTable : ∀ k, k < n → curCpuState (cpuAwakeProxy k) < m)
    (fits : ∀ choice : Nat → Nat, (∀ k, k < n → choice k < m) →
      ∑ k ∈ Finset.range n, demand (choice k) < 2 ^ 31) :
    MckCall n m (mckWt curCpuState cpuAwakeProxy) demand
      fun k => curCpuState (cpuAwakeProxy k) := by
  refine ⟨positive, inTable, fun k _ => ?_, fits⟩
  unfold mckWt
  rw [Int.sub_self]
  rfl

variable {own : Nat → Nat}
  (call : MckCall n m (mckWt curCpuState cpuAwakeProxy) demand own) (someCpu : 1 ≤ n)

include call someCpu

theorem MckCall.choice_feasible :
    (mckProblem m (mckWt curCpuState cpuAwakeProxy) demand).Feasible n w
      (mckChoice n m w demand (mckWt curCpuState cpuAwakeProxy)) :=
  ((call.filled someCpu).solved.replay w le_rfl).1

theorem MckCall.choice_best {choice : Nat → Nat}
    (feasible : (mckProblem m (mckWt curCpuState cpuAwakeProxy) demand).Feasible n w choice) :
    (mckProblem m (mckWt curCpuState cpuAwakeProxy) demand).gain choice n ≤
      (mckProblem m (mckWt curCpuState cpuAwakeProxy) demand).gain
        (mckChoice n m w demand (mckWt curCpuState cpuAwakeProxy)) n :=
  (call.filled someCpu).solved.replay_best feasible

/-- A listed cpu is given the chosen state of one of its places, and the others are left alone. -/
theorem MckCall.given_cases (newCpuState : Nat → Nat) (cpu : Nat) :
    (∃ k, k < n ∧ cpu = cpuAwakeProxy k ∧
      mck n m w demand curCpuState cpuAwakeProxy newCpuState cpu =
        mckChoice n m w demand (mckWt curCpuState cpuAwakeProxy) k) ∨
    ((∀ k, k < n → cpu ≠ cpuAwakeProxy k) ∧
      mck n m w demand curCpuState cpuAwakeProxy newCpuState cpu = newCpuState cpu) :=
  mckBacktrack_cases (call.filled someCpu) le_rfl le_rfl newCpuState cpu

/-- The listed cpus move within the budget, also where a cpu is listed more than once. -/
theorem MckCall.moved_le (newCpuState : Nat → Nat) {cpus : Finset Nat}
    (listed : ∀ cpu ∈ cpus, ∃ k, k < n ∧ cpu = cpuAwakeProxy k) :
    ∑ cpu ∈ cpus, ((mck n m w demand curCpuState cpuAwakeProxy newCpuState cpu : Int) -
      curCpuState cpu).natAbs ≤ w := by
  have places (cpu : Nat) (member : cpu ∈ cpus) : ∃ k, k < n ∧ cpu = cpuAwakeProxy k ∧
      mck n m w demand curCpuState cpuAwakeProxy newCpuState cpu =
        mckChoice n m w demand (mckWt curCpuState cpuAwakeProxy) k := by
    rcases call.given_cases someCpu newCpuState cpu with place | ⟨apart, _⟩
    · exact place
    · obtain ⟨k, small, place⟩ := listed cpu member
      exact absurd place (apart k small)
  choose! place small isPlace given using places
  have distinct : Set.InjOn place cpus := by
    intro first firstMember second secondMember same
    rw [isPlace first firstMember, isPlace second secondMember, same]
  calc ∑ cpu ∈ cpus, ((mck n m w demand curCpuState cpuAwakeProxy newCpuState cpu : Int) -
        curCpuState cpu).natAbs
      = ∑ cpu ∈ cpus, mckWt curCpuState cpuAwakeProxy (place cpu)
          (mckChoice n m w demand (mckWt curCpuState cpuAwakeProxy) (place cpu)) := by
        refine Finset.sum_congr rfl fun cpu member => ?_
        rw [given cpu member, mckWt, ← isPlace cpu member]
    _ = ∑ k ∈ cpus.image place, mckWt curCpuState cpuAwakeProxy k
          (mckChoice n m w demand (mckWt curCpuState cpuAwakeProxy) k) := by
        rw [Finset.sum_image distinct]
    _ ≤ ∑ k ∈ Finset.range n, mckWt curCpuState cpuAwakeProxy k
          (mckChoice n m w demand (mckWt curCpuState cpuAwakeProxy) k) := by
        refine Finset.sum_le_sum_of_subset fun k member => ?_
        obtain ⟨cpu, inside, rfl⟩ := Finset.mem_image.mp member
        exact Finset.mem_range.mpr (small cpu inside)
    _ ≤ w := (call.choice_feasible someCpu).cost_le

end Given

/-- `mck` gives every listed cpu a state of the table, within the budget, so that no other choice
within the budget has more demand, and touches no other cpu. -/
theorem mck_optimal (n m w : Nat) (demand : Nat → Int)
    (curCpuState cpuAwakeProxy newCpuState : Nat → Nat) (someCpu : 1 ≤ n)
    (positive : ∀ j, j < m → 1 ≤ demand j)
    (fits : ∀ choice : Nat → Nat, (∀ k, k < n → choice k < m) →
      ∑ k ∈ Finset.range n, demand (choice k) < 2 ^ 31)
    (injective : ∀ i, i < n → ∀ j, j < n → cpuAwakeProxy i = cpuAwakeProxy j → i = j)
    (inTable : ∀ k, k < n → curCpuState (cpuAwakeProxy k) < m) :
    let given := mck n m w demand curCpuState cpuAwakeProxy newCpuState
    (∀ k, k < n → given (cpuAwakeProxy k) < m) ∧
      ∑ k ∈ Finset.range n,
        ((given (cpuAwakeProxy k) : Int) - curCpuState (cpuAwakeProxy k)).natAbs ≤ w ∧
      (∀ choice : Nat → Nat, (∀ k, k < n → choice k < m) →
        ∑ k ∈ Finset.range n, ((choice k : Int) - curCpuState (cpuAwakeProxy k)).natAbs ≤ w →
        ∑ k ∈ Finset.range n, demand (choice k) ≤
          ∑ k ∈ Finset.range n, demand (given (cpuAwakeProxy k))) ∧
      ∀ cpu, (∀ k, k < n → cpu ≠ cpuAwakeProxy k) → given cpu = newCpuState cpu := by
  intro given
  have call := MckCall.start positive inTable fits
  have listed (k : Nat) (small : k < n) : given (cpuAwakeProxy k) =
      mckChoice n m w demand (mckWt curCpuState cpuAwakeProxy) k := by
    rcases call.given_cases someCpu newCpuState (cpuAwakeProxy k) with
      ⟨i, inside, same, chosen⟩ | ⟨apart, _⟩
    · rw [injective k small i inside same]
      rw [injective k small i inside same] at chosen
      exact chosen
    · exact absurd rfl (apart k small)
  have followed := (call.choice_feasible someCpu (w := w)).congr fun k small =>
    (listed k small).symm
  refine ⟨followed.inClass, followed.cost_le, fun choice inTable within => ?_, fun cpu apart => ?_⟩
  · have best := call.choice_best someCpu ⟨inTable, within⟩
    rw [Knapsack.Problem.gain_congr fun k small => (listed k small).symm] at best
    exact best
  · rcases call.given_cases someCpu newCpuState cpu with ⟨k, small, place, _⟩ | ⟨_, same⟩
    · exact absurd place (apart k small)
    · exact same

/-- Two cpus in states `0` and `2` of three, with most demand for state `1` and room for one step:
one of the cpus takes it, and a third cpu is left alone. -/
theorem mck_optimal_two_cpus :
    let demand : Nat → Int := fun state => if state = 1 then 9 else 4
    let given := mck 2 3 1 demand (fun cpu => 2 * cpu) id fun _ => 7
    13 ≤ ∑ k ∈ Finset.range 2, demand (given k) ∧ given 2 = 7 := by
  have fits (choice : Nat → Nat) (_ : ∀ k, k < 2 → choice k < 3) :
      ∑ k ∈ Finset.range 2, (if choice k = 1 then (9 : Int) else 4) < 2 ^ 31 := by
    refine lt_of_le_of_lt (Finset.sum_le_card_nsmul _ _ 9 fun k _ => ?_) (by decide)
    split <;> decide
  have optimal := mck_optimal 2 3 1 (fun state => if state = 1 then 9 else 4) (fun cpu => 2 * cpu)
    id (fun _ => 7) (by decide) (by decide) fits (fun _ _ _ _ same => same) (by decide)
  exact ⟨optimal.2.2.1 (fun k => if k = 0 then 1 else 2) (by decide) (by decide),
    optimal.2.2.2 2 (by decide)⟩

end Seeker
