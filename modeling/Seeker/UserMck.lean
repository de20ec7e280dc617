/-
This file embeds the user-space `mck` of the scripts, the proof of concept of the kernel's
knapsack, and proves that the two programs choose the same states.

They differ in one test. Where the kernel asks for a smaller budget first, the user-space
program compares the first cell of a row with the one in front of it in memory, the last
cell of the row before. That cell is cleared as long as the budget is below `MAX_DELTA`.
With the whole of `MAX_DELTA` it holds a sum, and the first cells of the rows go wrong:
but then the budget is no bound, and the backtrack never comes to them.
-/
import Seeker.Mck

namespace Seeker

/-! ### The program -/

/-- `MAX_DELTA`. -/
def userMaxDelta (nrCpus nrStates : Nat) : Nat := nrCpus * (nrStates - 1)

/-- A cell of a later row. `dyna[k][-1]` is `dyna[k - 1][MAX_DELTA]`. -/
def userMckCell (maxDelta m : Nat) (wt : Nat → Nat) (demand : Nat → Int)
    (before : Nat → DynaCell) (b : Nat) (row : Nat → DynaCell) : DynaCell :=
  let scan := mckScan m (fun j => wt j ≤ b ∧ 0 < mckDemand wt before b j)
    (fun j => int32 (mckDemand wt before b j + demand j))
  let earlier := if b = 0 then (before maxDelta).f else (row (b - 1)).f
  if earlier > scan.max then { row b with f := earlier }
  else if scan.max > 0 then { f := scan.max, sol := scan.ind }
  else row b

/-- `dyna` as the loop that clears it leaves it: the rest of the array is zero. -/
def userMckCleared (n w : Nat) : Nat → Nat → DynaCell :=
  fun i j => { f := 0, sol := if i ≤ n ∧ j ≤ w then -1 else 0 }

/-- `dyna` before the backtrack. -/
def userMckTable (maxDelta n m w : Nat) (demand : Nat → Int) (wt : Nat → Nat → Nat) :
    Nat → Nat → DynaCell :=
  let first := Function.update (userMckCleared n w) 1
    (mckRow w (mckFirstCell m (wt 0) demand) (userMckCleared n w 1))
  Loops.forRange (n - 1)
    (fun i dyna =>
      Function.update dyna (i + 2)
        (mckRow w (userMckCell maxDelta m (wt (i + 1)) demand (dyna (i + 1))) (dyna (i + 2))))
    first

/-- `mck` of the scripts, without what it prints. -/
def userMck (nrCpus nrStates n m w : Nat) (demand : Nat → Int)
    (curCpuState newCpuState : Nat → Nat) : Nat → Nat :=
  let wt := mckWt curCpuState id
  mckBacktrack (userMckTable (userMaxDelta nrCpus nrStates) n m w demand wt) wt id n w newCpuState

/-! ### What the programs share -/

/-- A cell is compared with an earlier one, if there is one, and takes what the scan has found
unless the earlier one has more. -/
def settledCell (earlier : Option Int) (scan : MckScan) (old : DynaCell) : DynaCell :=
  match earlier with
  | some sum =>
    if sum > scan.max then { old with f := sum }
    else if scan.max > 0 then { f := scan.max, sol := scan.ind } else old
  | none => if scan.max > 0 then { f := scan.max, sol := scan.ind } else old

/-- The scan for a cell of a later row. -/
def laterScan (m : Nat) (wt : Nat → Nat) (demand : Nat → Int) (before : Nat → DynaCell) (b : Nat) :
    MckScan :=
  mckScan m (fun j => wt j ≤ b ∧ 0 < mckDemand wt before b j)
    (fun j => int32 (mckDemand wt before b j + demand j))

/-- A cell of a later row, whose first cell is compared with what `front` gives. -/
def laterCell (front : (Nat → DynaCell) → Option Int) (m : Nat) (wt : Nat → Nat)
    (demand : Nat → Int) (before : Nat → DynaCell) (b : Nat) (row : Nat → DynaCell) : DynaCell :=
  settledCell (if b = 0 then front before else some (row (b - 1)).f)
    (laterScan m wt demand before b) (row b)

/-- The table of either program. -/
def laterTable (front : (Nat → DynaCell) → Option Int) (n m w : Nat) (demand : Nat → Int)
    (wt : Nat → Nat → Nat) (cleared : Nat → Nat → DynaCell) : Nat → Nat → DynaCell :=
  let first := Function.update cleared 1 (mckRow w (mckFirstCell m (wt 0) demand) (cleared 1))
  Loops.forRange (n - 1)
    (fun i dyna =>
      Function.update dyna (i + 2)
        (mckRow w (laterCell front m (wt (i + 1)) demand (dyna (i + 1))) (dyna (i + 2))))
    first

section Shared

variable {m w n : Nat} {demand : Nat → Int}

theorem mckCell_eq (wt : Nat → Nat) (before : Nat → DynaCell) :
    mckCell m wt demand before = laterCell (fun _ => none) m wt demand before := by
  funext b row
  unfold mckCell laterCell settledCell laterScan
  by_cases first : b = 0
  · simp [first]
  · simp only [first, if_false, Nat.pos_of_ne_zero first, true_and]

theorem userMckCell_eq (maxDelta : Nat) (wt : Nat → Nat) (before : Nat → DynaCell) :
    userMckCell maxDelta m wt demand before =
      laterCell (fun before => some (before maxDelta).f) m wt demand before := by
  funext b row
  unfold userMckCell laterCell settledCell laterScan
  by_cases first : b = 0
  · simp [first]
  · simp only [first, if_false]

theorem mckTable_eq (wt : Nat → Nat → Nat) :
    mckTable n m w demand wt = laterTable (fun _ => none) n m w demand wt mckCleared := by
  unfold mckTable laterTable
  simp only [mckCell_eq]

theorem userMckTable_eq (maxDelta : Nat) (wt : Nat → Nat → Nat) :
    userMckTable maxDelta n m w demand wt =
      laterTable (fun before => some (before maxDelta).f) n m w demand wt (userMckCleared n w) := by
  unfold userMckTable laterTable
  simp only [userMckCell_eq]

end Shared

/-! ### The scans -/

section Scans

variable {m : Nat} {demand : Nat → Int}

/-- The scan of all states by their demand alone. -/
def fullScan (m : Nat) (demand : Nat → Int) : MckScan := mckScan m (fun _ => true) demand

theorem mckScan_max_le {admitted : Nat → Bool} {value : Nat → Int} {bound : Int}
    (some : 0 ≤ bound) (below : ∀ j, j < m → admitted j = true → value j ≤ bound) :
    (mckScan m admitted value).max ≤ bound := by
  rcases (mckScan_scanned m admitted value).found with ⟨none, _⟩ | ⟨j, small, admits, _, worth⟩
  · omega
  · rw [worth]
    exact below j small admits

theorem demand_le_fullScan {j : Nat} (small : j < m) : demand j ≤ (fullScan m demand).max :=
  (mckScan_scanned m _ demand).bound j small rfl

theorem fullScan_spec (someState : 0 < m) (positive : ∀ j, j < m → 1 ≤ demand j) :
    ∃ j, j < m ∧ (fullScan m demand).ind = j ∧ (fullScan m demand).max = demand j ∧
      0 < (fullScan m demand).max := by
  obtain ⟨j, small, _, ind, max, worth, _⟩ := mckScan_spec (fun _ => true) demand someState rfl
    (positive 0 someState)
  exact ⟨j, small, ind, max, max ▸ worth⟩

/-- Where every state is admitted, with the same sum for the cpus before, the scan finds the state
that has the most demand. -/
theorem mckScan_of_all {admitted : Nat → Bool} {value : Nat → Int} {sum : Int} (some : 0 ≤ sum)
    (someState : 0 < m) (positive : ∀ j, j < m → 1 ≤ demand j)
    (all : ∀ j, j < m → admitted j = true) (values : ∀ j, j < m → value j = sum + demand j) :
    mckScan m admitted value =
      { max := sum + (fullScan m demand).max, ind := (fullScan m demand).ind } := by
  have related : (m = 0 ∧ mckScan m admitted value = { max := -1, ind := -1 } ∧
        fullScan m demand = { max := -1, ind := -1 }) ∨
      0 < m ∧ mckScan m admitted value =
        { max := sum + (fullScan m demand).max, ind := (fullScan m demand).ind } := by
    refine Loops.forRange_relation (fun count (scan full : MckScan) =>
      (count = 0 ∧ scan = { max := -1, ind := -1 } ∧ full = { max := -1, ind := -1 }) ∨
        0 < count ∧ scan = { max := sum + full.max, ind := full.ind })
      (Or.inl ⟨rfl, rfl, rfl⟩) ?_
    intro index small scan full held
    refine Or.inr ⟨Nat.succ_pos index, ?_⟩
    have worth := positive index small
    rw [values index small, all index small]
    rcases held with ⟨_, rfl, rfl⟩ | ⟨_, rfl⟩
    · rw [if_pos ⟨rfl, by dsimp only; omega⟩, if_pos ⟨rfl, by dsimp only; omega⟩]
    · by_cases better : full.max < demand index
      · rw [if_pos ⟨rfl, by dsimp only; omega⟩, if_pos ⟨rfl, better⟩]
      · rw [if_neg fun found => better (by dsimp only at found; omega),
          if_neg fun found => better found.2]
  rcases related with ⟨none, _⟩ | ⟨_, found⟩
  · exact absurd none (Nat.ne_of_gt someState)
  · exact found

end Scans

/-! ### The backtrack -/

section Backtrack

variable {n w : Nat} {wt : Nat → Nat → Nat} {cpuAwakeProxy : Nat → Nat}
  {dyna dyna' : Nat → Nat → DynaCell}

/-- The backtrack takes the state of the cell it comes to, if it has one. -/
theorem mckBacktrack_of_found {k b : Nat} (found : 0 ≤ (dyna (k + 1) b).sol)
    (light : wt k (dyna (k + 1) b).sol.toNat ≤ b) (newCpuState : Nat → Nat) :
    mckBacktrack dyna wt cpuAwakeProxy (k + 1) b newCpuState =
      mckBacktrack dyna wt cpuAwakeProxy k ((b - wt k (dyna (k + 1) b).sol.toNat : Nat) : Int)
        (Function.update newCpuState (cpuAwakeProxy k) (dyna (k + 1) b).sol.toNat) := by
  have here : ((b : Int) + 1).toNat = b + 1 := Int.toNat_natCast_add_one
  have search : Loops.lastBelow (fun b => 0 ≤ (dyna (k + 1) b).sol) ((b : Int) + 1).toNat =
      some b := by
    rw [here, Loops.lastBelow, if_pos (decide_eq_true found)]
  rw [mckBacktrack, search, Nat.cast_sub light]

/-- Two tables that agree on the cells the backtrack can come to give the same states. -/
theorem mckBacktrack_agree (low : Nat → Nat)
    (agree : ∀ k, k < n → ∀ b, b ≤ w → low (k + 1) ≤ b →
      dyna' (k + 1) b = dyna (k + 1) b ∧ 0 ≤ (dyna (k + 1) b).sol ∧
        wt k (dyna (k + 1) b).sol.toNat ≤ b ∧ low k ≤ b - wt k (dyna (k + 1) b).sol.toNat)
    {k : Nat} (within : k ≤ n) {b : Nat} (budget : b ≤ w) (above : low k ≤ b)
    (newCpuState : Nat → Nat) :
    mckBacktrack dyna' wt cpuAwakeProxy k b newCpuState =
      mckBacktrack dyna wt cpuAwakeProxy k b newCpuState := by
  induction k generalizing b newCpuState with
  | zero => rfl
  | succ k inductionHypothesis =>
    obtain ⟨same, found, light, left⟩ := agree k within b budget above
    rw [mckBacktrack_of_found found light, mckBacktrack_of_found (same ▸ found) (same ▸ light),
      same]
    exact inductionHypothesis (Nat.le_of_succ_le within) ((Nat.sub_le _ _).trans budget) left _

end Backtrack

/-! ### Within the budget of the array -/

section Narrow

variable {maxDelta n m w : Nat} {demand : Nat → Int}

theorem mckRow_past {cell : Nat → (Nat → DynaCell) → DynaCell} {row : Nat → DynaCell} {b : Nat}
    (past : w < b) : mckRow w cell row b = row b := by
  refine Loops.forRange_induction (fun _ (current : Nat → DynaCell) => current b = row b) rfl ?_
  intro index small current kept
  rw [Function.update_of_ne (by omega)]
  exact kept

/-- A comparison with zero changes nothing in a cleared cell. -/
theorem settledCell_zero (scan : MckScan) {old : DynaCell} (cleared : old.f = 0) :
    settledCell (some 0) scan old = settledCell none scan old := by
  unfold settledCell
  dsimp only
  by_cases lower : (0 : Int) > scan.max
  · rw [if_pos lower, if_neg (not_lt.mpr lower.le), ← cleared]
  · rw [if_neg lower]

/-- Two rows over rows that agree within the budget agree there, if the last cell of the array is
cleared. -/
theorem laterRow_agree {wt : Nat → Nat} {before before' row row' : Nat → DynaCell}
    (same : ∀ b, b ≤ w → before' b = before b) (front : (before' maxDelta).f = 0)
    (cleared : ∀ b, b ≤ w → row' b = row b ∧ (row b).f = 0) :
    ∀ b, b ≤ w →
      mckRow w (laterCell (fun before => some (before maxDelta).f) m wt demand before') row' b =
        mckRow w (laterCell (fun _ => none) m wt demand before) row b := by
  have scans (b : Nat) (within : b ≤ w) :
      laterScan m wt demand before' b = laterScan m wt demand before b := by
    have demands (j : Nat) : mckDemand wt before' b j = mckDemand wt before b j := by
      unfold mckDemand
      rw [same _ ((Nat.sub_le _ _).trans within)]
    unfold laterScan
    simp only [demands]
  have filled : (∀ b, b ≤ w →
      mckRow w (laterCell (fun before => some (before maxDelta).f) m wt demand before') row' b =
        mckRow w (laterCell (fun _ => none) m wt demand before) row b) ∧
      ∀ b, w + 1 ≤ b → b ≤ w →
        mckRow w (laterCell (fun _ => none) m wt demand before) row b = row b := by
    refine Loops.forRange_relation (fun count (current current' : Nat → DynaCell) =>
      (∀ b, b ≤ w → current b = current' b) ∧ ∀ b, count ≤ b → b ≤ w → current' b = row b)
      ⟨fun b within => (cleared b within).1, fun _ _ _ => rfl⟩ ?_
    rintro index small current current' ⟨alike, rest⟩
    have within : index ≤ w := Nat.le_of_lt_succ small
    have cells : laterCell (fun before => some (before maxDelta).f) m wt demand before' index
        current = laterCell (fun _ => none) m wt demand before index current' := by
      unfold laterCell
      rw [scans index within, alike index within]
      by_cases first : index = 0
      · rw [if_pos first, if_pos first]
        dsimp only
        rw [front]
        refine settledCell_zero _ ?_
        rw [rest index (Nat.le_refl _) within]
        exact (cleared index within).2
      · rw [if_neg first, if_neg first, alike (index - 1) (by omega)]
    refine ⟨fun b inside => ?_, fun b past inside => ?_⟩
    · rw [cells]
      by_cases here : b = index
      · rw [here, Function.update_self, Function.update_self]
      · rw [Function.update_of_ne here, Function.update_of_ne here]
        exact alike b inside
    · rw [Function.update_of_ne (by omega)]
      exact rest b (by omega) inside
  exact filled.1

/-- The two tables within the budget, while their later rows are cleared. -/
structure TablesAgree (maxDelta n w rows : Nat) (dyna' dyna : Nat → Nat → DynaCell) : Prop where
  same : ∀ k, k ≤ n → ∀ b, b ≤ w → dyna' k b = dyna k b
  last : ∀ k, (dyna' k maxDelta).f = 0
  rest : ∀ k, rows < k → dyna' k = userMckCleared n w k ∧ dyna k = mckCleared k

theorem userMckCleared_of_le {k b : Nat} (row : k ≤ n) (within : b ≤ w) :
    userMckCleared n w k b = mckCleared k b := by
  unfold userMckCleared mckCleared
  rw [if_pos ⟨row, within⟩]

/-- One row more. -/
theorem TablesAgree.row {rows : Nat} {dyna' dyna : Nat → Nat → DynaCell}
    (agree : TablesAgree maxDelta n w rows dyna' dyna) (array : w < maxDelta)
    {cell' cell : Nat → (Nat → DynaCell) → DynaCell}
    (filled : rows + 1 ≤ n → ∀ b, b ≤ w →
      mckRow w cell' (dyna' (rows + 1)) b = mckRow w cell (dyna (rows + 1)) b) :
    TablesAgree maxDelta n w (rows + 1)
      (Function.update dyna' (rows + 1) (mckRow w cell' (dyna' (rows + 1))))
      (Function.update dyna (rows + 1) (mckRow w cell (dyna (rows + 1)))) := by
  refine ⟨fun k row b within => ?_, fun k => ?_, fun k past => ?_⟩
  · by_cases here : k = rows + 1
    · subst here
      rw [Function.update_self, Function.update_self]
      exact filled row b within
    · rw [Function.update_of_ne here, Function.update_of_ne here]
      exact agree.same k row b within
  · by_cases here : k = rows + 1
    · rw [here, Function.update_self, mckRow_past array]
      exact agree.last (rows + 1)
    · rw [Function.update_of_ne here]
      exact agree.last k
  · rw [Function.update_of_ne (Nat.ne_of_gt past), Function.update_of_ne (Nat.ne_of_gt past)]
    exact agree.rest k (Nat.lt_of_succ_lt past)

/-- With less than `MAX_DELTA` the tables of the two programs agree within the budget. -/
theorem userMckTable_agree (wt : Nat → Nat → Nat) (array : w < maxDelta) :
    ∀ k, k ≤ n → ∀ b, b ≤ w →
      userMckTable maxDelta n m w demand wt k b = mckTable n m w demand wt k b := by
  rw [userMckTable_eq, mckTable_eq]
  have start : TablesAgree maxDelta n w 0 (userMckCleared n w) mckCleared :=
    ⟨fun k row b within => userMckCleared_of_le row within, fun _ => rfl, fun _ _ => ⟨rfl, rfl⟩⟩
  suffices agree : TablesAgree maxDelta n w (n - 1 + 1)
      (laterTable (fun before => some (before maxDelta).f) n m w demand wt (userMckCleared n w))
      (laterTable (fun _ => none) n m w demand wt mckCleared) by
    exact agree.same
  refine Loops.forRange_relation (fun count dyna' dyna =>
    TablesAgree maxDelta n w (count + 1) dyna' dyna) ?_ ?_
  · refine start.row array fun row b within => ?_
    -- The first rows are filled by the same cells from cells that are cleared alike.
    suffices filled : ∀ b, b ≤ w → mckRow w (mckFirstCell m (wt 0) demand)
        (userMckCleared n w 1) b = mckRow w (mckFirstCell m (wt 0) demand) (mckCleared 1) b by
      exact filled b within
    refine Loops.forRange_relation (fun _ (current' current : Nat → DynaCell) =>
      ∀ b, b ≤ w → current' b = current b) (fun b within => userMckCleared_of_le row within) ?_
    intro index small current' current alike b within
    have cells : mckFirstCell m (wt 0) demand index current' =
        mckFirstCell m (wt 0) demand index current := by
      unfold mckFirstCell
      rw [alike index (by omega), alike (index - 1) (by omega)]
    rw [cells]
    by_cases here : b = index
    · rw [here, Function.update_self, Function.update_self]
    · rw [Function.update_of_ne here, Function.update_of_ne here]
      exact alike b within
  · intro index small dyna' dyna agree
    refine agree.row array fun row => ?_
    obtain ⟨cleared', cleared⟩ := agree.rest (index + 2) (by omega)
    refine laterRow_agree (agree.same (index + 1) (by omega)) (agree.last (index + 1)) ?_
    intro b within
    rw [cleared', cleared]
    exact ⟨userMckCleared_of_le row within, rfl⟩

end Narrow

/-! ### With a budget that is no bound -/

section Wide

variable {n m w steps : Nat} {wt : Nat → Nat → Nat} {demand : Nat → Int}

/-- The cells of some rows: none holds more than every cpu in the state of most demand gives, and
those whose budget takes all cpus there hold that. -/
def WideRows (m w steps rows : Nat) (demand : Nat → Int) (dyna : Nat → Nat → DynaCell) : Prop :=
  ∀ k, k < rows → ∀ b, b ≤ w →
    (dyna (k + 1) b).f ≤ ((k + 1 : Nat) : Int) * (fullScan m demand).max ∧
      ((k + 1) * steps ≤ b → dyna (k + 1) b =
        { f := ((k + 1 : Nat) : Int) * (fullScan m demand).max, sol := (fullScan m demand).ind })

/-- A call whose states are all within some steps of each other. -/
structure WideCall (n m steps : Nat) (wt : Nat → Nat → Nat) (demand : Nat → Int) : Prop where
  someState : 0 < m
  positive : ∀ j, j < m → 1 ≤ demand j
  near : ∀ k, k < n → ∀ j, j < m → wt k j ≤ steps
  fits : (n : Int) * (fullScan m demand).max < 2 ^ 31

/-- A cell that is not better than the scan. -/
theorem settledCell_f_le {earlier : Option Int} {scan : MckScan} {old : DynaCell} {bound : Int}
    (front : ∀ sum ∈ earlier, sum ≤ bound) (scanned : scan.max ≤ bound) (cleared : old.f ≤ bound) :
    (settledCell earlier scan old).f ≤ bound := by
  unfold settledCell
  split
  · rename_i sum
    split
    · exact front sum rfl
    · split
      · exact scanned
      · exact cleared
  · split
    · exact scanned
    · exact cleared

/-- A cell whose scan reaches the bound takes it. -/
theorem settledCell_of_reached {earlier : Option Int} {scan : MckScan} {old : DynaCell}
    (front : ∀ sum ∈ earlier, sum ≤ scan.max) (positive : 0 < scan.max) :
    settledCell earlier scan old = { f := scan.max, sol := scan.ind } := by
  unfold settledCell
  split
  · rename_i sum
    rw [if_neg (not_lt.mpr (front sum rfl)), if_pos positive]
  · rw [if_pos positive]

/-- The first row. -/
theorem WideCall.firstCell (call : WideCall n m steps wt demand) (someCpu : 1 ≤ n) {b : Nat}
    {current : Nat → DynaCell} (earlier : 0 < b → (current (b - 1)).f ≤ (fullScan m demand).max) :
    (mckFirstCell m (wt 0) demand b current).f ≤ (fullScan m demand).max ∧
      (steps ≤ b → mckFirstCell m (wt 0) demand b current =
        { f := (fullScan m demand).max, sol := (fullScan m demand).ind }) := by
  obtain ⟨_, _, _, _, most⟩ := fullScan_spec call.someState call.positive
  have scanned : (mckScan m (fun j => wt 0 j ≤ b) demand).max ≤ (fullScan m demand).max :=
    mckScan_max_le most.le fun j small _ => demand_le_fullScan small
  unfold mckFirstCell
  dsimp only
  refine ⟨?_, fun wide => ?_⟩
  · split
    · rename_i better
      exact earlier better.1
    · exact scanned
  · have all : mckScan m (fun j => wt 0 j ≤ b) demand =
        { max := 0 + (fullScan m demand).max, ind := (fullScan m demand).ind } :=
      mckScan_of_all le_rfl call.someState call.positive
        (fun j small => decide_eq_true ((call.near 0 someCpu j small).trans wide))
        fun j _ => (Int.zero_add _).symm
    rw [Int.zero_add] at all
    rw [all]
    dsimp only
    rw [if_neg fun better => absurd better.2 (not_lt.mpr (earlier better.1)), if_pos most]

/-- What is compared with the first cell of a row is no more than the row before it holds. -/
def FrontBelow (w : Nat) (front : (Nat → DynaCell) → Option Int) : Prop :=
  ∀ (before : Nat → DynaCell) (bound : Int), (∀ b, b ≤ w → (before b).f ≤ bound) →
    ∀ sum ∈ front before, sum ≤ bound

/-- A cell of a later row. -/
theorem WideCall.laterCell (call : WideCall n m steps wt demand)
    {front : (Nat → DynaCell) → Option Int} (below : FrontBelow w front) {rows : Nat}
    (someRow : 1 ≤ rows) (small : rows < n) {before current : Nat → DynaCell}
    (sums : ∀ b, b ≤ w → (before b).f ≤ (rows : Int) * (fullScan m demand).max ∧
      (rows * steps ≤ b → (before b).f = (rows : Int) * (fullScan m demand).max))
    {b : Nat} (within : b ≤ w) (cleared : (current b).f = 0)
    (earlier : 0 < b →
      (current (b - 1)).f ≤ ((rows + 1 : Nat) : Int) * (fullScan m demand).max) :
    (laterCell front m (wt rows) demand before b current).f ≤
        ((rows + 1 : Nat) : Int) * (fullScan m demand).max ∧
      ((rows + 1) * steps ≤ b → laterCell front m (wt rows) demand before b current =
        { f := ((rows + 1 : Nat) : Int) * (fullScan m demand).max
          sol := (fullScan m demand).ind }) := by
  obtain ⟨_, _, _, _, most⟩ := fullScan_spec call.someState call.positive
  have demands (j : Nat) (state : j < m) : demand j ≤ (fullScan m demand).max :=
    demand_le_fullScan state
  have fits : ((rows + 1 : Nat) : Int) * (fullScan m demand).max < 2 ^ 31 :=
    lt_of_le_of_lt (Int.mul_le_mul_of_nonneg_right (by omega) most.le) call.fits
  generalize mostEq : (fullScan m demand).max = most' at *
  have grown : ((rows + 1 : Nat) : Int) * most' = (rows : Int) * most' + most' := by
    rw [Nat.cast_succ, add_mul, one_mul]
  have someSum : 0 < (rows : Int) * most' := Int.mul_pos (by omega) most
  have others : ∀ sum ∈ (if b = 0 then front before else some (current (b - 1)).f),
      sum ≤ ((rows + 1 : Nat) : Int) * most' := by
    intro sum member
    split at member
    · have less := below before _ (fun b within => (sums b within).1) sum member
      omega
    · rename_i later
      rw [← Option.mem_some_iff.mp member]
      exact earlier (Nat.pos_of_ne_zero later)
  have scanned : (laterScan m (wt rows) demand before b).max ≤ ((rows + 1 : Nat) : Int) * most' := by
    refine mckScan_max_le (by omega) fun j state admitted => ?_
    obtain ⟨light, positive⟩ := of_decide_eq_true admitted
    have sum : mckDemand (wt rows) before b j ≤ (rows : Int) * most' := by
      rw [mckDemand, if_pos light]
      exact (sums _ ((Nat.sub_le _ _).trans within)).1
    have worth := demands j state
    have wanted := call.positive j state
    exact (int32_le_of_nonneg (by omega)).trans (by omega)
  refine ⟨settledCell_f_le others scanned (by omega), fun wide => ?_⟩
  have reached (j : Nat) (state : j < m) :
      wt rows j ≤ b ∧ mckDemand (wt rows) before b j = (rows : Int) * most' := by
    have near := call.near rows small j state
    rw [Nat.succ_mul] at wide
    have light : wt rows j ≤ b := by omega
    rw [mckDemand, if_pos light]
    exact ⟨light, (sums _ ((Nat.sub_le _ _).trans within)).2 (by omega)⟩
  have all : laterScan m (wt rows) demand before b =
      { max := (rows : Int) * most' + most', ind := (fullScan m demand).ind } := by
    rw [← mostEq]
    refine mckScan_of_all (mostEq ▸ someSum.le) call.someState call.positive (fun j state => ?_)
      fun j state => ?_
    · obtain ⟨light, sum⟩ := reached j state
      exact decide_eq_true ⟨light, by omega⟩
    · have worth := demands j state
      have wanted := call.positive j state
      rw [(reached j state).2, mostEq]
      exact int32_of_fits (by omega) (by omega)
  unfold Seeker.laterCell
  rw [all, settledCell_of_reached]
  · rw [grown]
  · intro sum member
    exact (others sum member).trans (le_of_eq grown)
  · dsimp only
    omega

/-- The rows of a table with a budget that is no bound. -/
theorem WideCall.table (call : WideCall n m steps wt demand)
    {front : (Nat → DynaCell) → Option Int} (below : FrontBelow w front) (someCpu : 1 ≤ n)
    {cleared : Nat → Nat → DynaCell} (zero : ∀ k b, (cleared k b).f = 0) :
    WideRows m w steps n demand (laterTable front n m w demand wt cleared) := by
  obtain ⟨_, _, _, _, most⟩ := fullScan_spec call.someState call.positive
  suffices filled : WideRows m w steps (n - 1 + 1) demand
      (laterTable front n m w demand wt cleared) ∧
      ∀ k, n - 1 + 1 < k → laterTable front n m w demand wt cleared k = cleared k by
    rw [Nat.sub_add_cancel someCpu] at filled
    exact filled.1
  refine Loops.forRange_induction (fun count dyna =>
    WideRows m w steps (count + 1) demand dyna ∧ ∀ k, count + 1 < k → dyna k = cleared k) ?_ ?_
  · refine ⟨fun k small b within => ?_, fun k past => Function.update_of_ne (by omega) _ _⟩
    obtain rfl : k = 0 := by omega
    rw [Function.update_self, Nat.zero_add, Nat.cast_one, one_mul, one_mul]
    refine mckRow_apply (fun b cell => cell.f ≤ (fullScan m demand).max ∧ (steps ≤ b → cell =
      { f := (fullScan m demand).max, sol := (fullScan m demand).ind })) ?_ b within
    intro b _ current earlier _
    exact call.firstCell someCpu fun positive => (earlier (b - 1) (by omega)).1
  · rintro index small dyna ⟨rows, rest⟩
    refine ⟨fun k inside b within => ?_, fun k past => ?_⟩
    · by_cases here : k = index + 1
      · subst here
        rw [Function.update_self]
        refine mckRow_apply (fun b cell =>
          cell.f ≤ ((index + 1 + 1 : Nat) : Int) * (fullScan m demand).max ∧
            ((index + 1 + 1) * steps ≤ b → cell =
              { f := ((index + 1 + 1 : Nat) : Int) * (fullScan m demand).max
                sol := (fullScan m demand).ind })) ?_ b within
        intro b within current earlier old
        refine call.laterCell below (Nat.le_add_left 1 index) (by omega) ?_ within ?_
          fun positive => (earlier (b - 1) (by omega)).1
        · intro smaller less
          obtain ⟨bound, reached⟩ := rows index (Nat.lt_succ_self index) smaller less
          exact ⟨bound, fun wide => by rw [reached wide]⟩
        · rw [old, rest (index + 2) (by omega)]
          exact zero _ _
      · rw [Function.update_of_ne (by omega)]
        exact rows k (by omega) b within
    · rw [Function.update_of_ne (by omega)]
      exact rest k (by omega)

end Wide

/-! ### The two programs -/

section Agreement

variable {nrCpus nrStates n m w : Nat} {demand : Nat → Int} {curCpuState : Nat → Nat}

/-- States of one table are less than its length apart. -/
theorem mckWt_le_of_table {i j : Nat} (state : j < m) (own : curCpuState i < m)
    (table : m ≤ nrStates) : mckWt curCpuState id i j ≤ nrStates - 1 := by
  unfold mckWt
  dsimp only [id]
  omega

/-- With the whole of `MAX_DELTA` every cpu can be given any state. -/
theorem wideCall_of_array (someState : 0 < m) (positive : ∀ j, j < m → 1 ≤ demand j)
    (table : m ≤ nrStates) (inTable : ∀ k, k < n → curCpuState k < m)
    (fits : ∀ choice : Nat → Nat, (∀ k, k < n → choice k < m) →
      ∑ k ∈ Finset.range n, demand (choice k) < 2 ^ 31) :
    WideCall n m (nrStates - 1) (mckWt curCpuState id) demand := by
  refine ⟨someState, positive, fun k small j state => mckWt_le_of_table state (inTable k small)
    table, ?_⟩
  obtain ⟨best, small, _, most, _⟩ := fullScan_spec someState positive
  have whole := fits (fun _ => best) fun _ _ => small
  rw [Finset.sum_const, Finset.card_range, nsmul_eq_mul] at whole
  rw [most]
  exact whole

end Agreement

/-- For all cpus, states, demands and budgets that the arrays of the user-space program hold, it
chooses for every cpu the state that the kernel's `mck` chooses, although it reads in front of the
rows of `dyna`. -/
theorem user_mck_as_kernel (nrCpus nrStates n m w : Nat) (demand : Nat → Int)
    (curCpuState newCpuState : Nat → Nat) (someCpu : 1 ≤ n) (cpus : n ≤ nrCpus)
    (table : m ≤ nrStates) (budget : w ≤ userMaxDelta nrCpus nrStates)
    (positive : ∀ j, j < m → 1 ≤ demand j) (inTable : ∀ k, k < n → curCpuState k < m)
    (fits : ∀ choice : Nat → Nat, (∀ k, k < n → choice k < m) →
      ∑ k ∈ Finset.range n, demand (choice k) < 2 ^ 31) :
    userMck nrCpus nrStates n m w demand curCpuState newCpuState =
      mck n m w demand curCpuState id newCpuState := by
  have someState : 0 < m := Nat.zero_lt_of_lt (inTable 0 someCpu)
  have call : MckCall n m (mckWt curCpuState id) demand fun k => curCpuState (id k) :=
    MckCall.start positive inTable fits
  unfold userMck mck
  dsimp only
  rcases Nat.lt_or_eq_of_le budget with narrow | whole
  · have filled := call.filled someCpu (w := w)
    refine mckBacktrack_agree (fun _ => 0) (fun k small b within _ => ?_) le_rfl le_rfl
      (Nat.zero_le w) newCpuState
    have good := filled.good k small b within
    exact ⟨userMckTable_agree _ narrow (k + 1) small b within, good.found, good.recorded.light,
      Nat.zero_le _⟩
  · have wide : WideCall n m (nrStates - 1) (mckWt curCpuState id) demand :=
      wideCall_of_array someState positive table inTable fits
    have kernelRows : WideRows m w (nrStates - 1) n demand
        (mckTable n m w demand (mckWt curCpuState id)) := by
      rw [mckTable_eq]
      exact wide.table (fun _ _ _ _ none => absurd none (by simp)) someCpu fun _ _ => rfl
    have userRows : WideRows m w (nrStates - 1) n demand
        (userMckTable (userMaxDelta nrCpus nrStates) n m w demand (mckWt curCpuState id)) := by
      rw [userMckTable_eq]
      refine wide.table (fun before bound below sum member => ?_) someCpu fun _ _ => rfl
      rw [← Option.mem_some_iff.mp member]
      exact below _ (le_of_eq whole.symm)
    obtain ⟨best, small, ind, _, _⟩ := fullScan_spec someState positive
    refine mckBacktrack_agree (fun k => k * (nrStates - 1)) (fun k inside b within above => ?_)
      le_rfl le_rfl ?_ newCpuState
    · have cell := (kernelRows k inside b within).2 above
      have near := wide.near k inside best small
      rw [(userRows k inside b within).2 above, cell]
      dsimp only
      rw [ind, Int.toNat_natCast]
      rw [Nat.succ_mul] at above
      exact ⟨rfl, Int.natCast_nonneg best, by omega, by omega⟩
    · rw [whole]
      exact Nat.mul_le_mul_right _ cpus

/-- The user-space program's own arrays, a budget of all of `MAX_DELTA` and of two steps. -/
theorem user_mck_as_kernel_scripts :
    let demand : Nat → Int := fun state => if state = 2 then 5 else 1
    let current : Nat → Nat := fun cpu => if cpu < 2 then 1 else 0
    userMck 4 5 4 5 16 demand current (fun _ => 0) = mck 4 5 16 demand current id (fun _ => 0) ∧
      userMck 4 5 4 5 2 demand current (fun _ => 0) = mck 4 5 2 demand current id (fun _ => 0) := by
  have fits (choice : Nat → Nat) (_ : ∀ k, k < 4 → choice k < 5) :
      ∑ k ∈ Finset.range 4, (if choice k = 2 then (5 : Int) else 1) < 2 ^ 31 := by
    refine lt_of_le_of_lt (Finset.sum_le_card_nsmul _ _ 5 fun k _ => ?_) (by decide)
    split <;> decide
  exact ⟨user_mck_as_kernel 4 5 4 5 16 _ _ _ (by decide) (by decide) (by decide) (by decide)
      (by decide) (by decide) fits,
    user_mck_as_kernel 4 5 4 5 2 _ _ _ (by decide) (by decide) (by decide) (by decide) (by decide)
      (by decide) fits⟩

end Seeker
