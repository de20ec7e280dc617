/-
This file embeds the loops of `update_state_matrix` write by write and proves the shape
of the matrix they leave.

The auction is held with the matrix as a value, computed in exact arithmetic. Here the
row is filled by four loops that share an index, every write is recorded, and the
arithmetic is that of the code: `total_states` is an unsigned int, so the weights of
the two sides and the largest bid are unsigned products, and the cells are ints. Where
`2 * total_states` fits an `int` the two agree, and the matrix has the shape the auction
relies on; where it does not fit, the bid of a cpu for its own state is negative.
-/
import Mathlib.Algebra.Order.Ring.Int
import Mathlib.Tactic.Linarith
import Seeker.Auction
import Seeker.Library.Sweep

namespace Seeker

/-! ### The loops -/

/-- `state_matrix`, with the cells written so far, the latest first. -/
structure StateMatrix where
  cells : Nat → Nat → Int
  writes : List (Nat × Nat)

/-- The `left` of `update_state_matrix`. -/
def leftBase (states : Nat) (direction : Int) : Int :=
  int32 (uint32 ((direction * direction - direction + 2) * states) / 2 : Nat)

/-- The `right` of `update_state_matrix`. -/
def rightBase (states : Nat) (direction : Int) : Int :=
  int32 (uint32 ((direction * direction + direction + 2) * states) / 2 : Nat)

/-- The bid of a cpu for its own state: `total_states << 1`, stored to an `int`. -/
def peakBid (states : Nat) : Int := int32 (uint32 (2 * states))

/-- A cell to the left of the cpu's state. -/
def leftBid (newState : Nat) (left : Int) (state : Nat) : Int :=
  int32 (int32 (left + state) - newState)

/-- A cell to the right of the cpu's state. -/
def rightBid (newState : Nat) (right : Int) (state : Nat) : Int :=
  int32 (int32 (right + newState) - state)

/-- The loop of a row from `0 to L[i]-delta`. None of the four makes more than `states` turns. -/
def clearLeft (states newState : Nat) (delta : Int) (row : Sweep Int) : Sweep Int :=
  row.loop states (fun state => (state : Int) < int32 (newState - delta)) fun _ => 0

/-- The loop from `L-Delta to L[i]`. -/
def bidLeft (states newState : Nat) (left : Int) (row : Sweep Int) : Sweep Int :=
  row.loop states (fun state => state < newState) (leftBid newState left)

/-- The loop from `L[i] to L[i] + delta`. -/
def bidRight (states newState : Nat) (right delta : Int) (row : Sweep Int) : Sweep Int :=
  row.loop states (fun state => state < states ∧ (state : Int) ≤ int32 (newState + delta))
    (rightBid newState right)

/-- The loop from `L[i] + delta to T`. -/
def clearRight (states : Nat) (row : Sweep Int) : Sweep Int :=
  row.loop states (fun state => state < states) fun _ => 0

/-- The body of the outer loop of `update_state_matrix`. -/
def writeRow (states newState : Nat) (left right delta : Int) (row : Sweep Int) : Sweep Int :=
  let row := clearLeft states newState delta row
  let row := bidLeft states newState left row
  let row := row.put (peakBid states)
  let row := bidRight states newState right delta row
  clearRight states row

/-- One turn of the outer loop of `update_state_matrix`. -/
def writeCpu (states : Nat) (newCpuState : Nat → Nat) (left right delta : Int) (cpu : Nat)
    (m : StateMatrix) : StateMatrix :=
  let row := writeRow states (newCpuState cpu) left right delta
    { cells := m.cells cpu, index := 0, writes := [] }
  { cells := Function.update m.cells cpu row.cells
    writes := row.writes.map (fun state => (cpu, state)) ++ m.writes }

/-- `update_state_matrix`, with every write. -/
def writeStateMatrix (states cpus : Nat) (newCpuState : Nat → Nat) (delta direction : Int)
    (matrix : Nat → Nat → Int) : StateMatrix :=
  Loops.forRange cpus
    (writeCpu states newCpuState (leftBase states direction) (rightBase states direction) delta)
    { cells := matrix, writes := [] }

/-! ### What the loops write -/

/-- The cell a row is given, in the arithmetic of the code. -/
def rowBid (states newState : Nat) (left right delta : Int) (state : Nat) : Int :=
  if (state : Int) + delta < newState then 0
  else if state < newState then leftBid newState left state
  else if state = newState then peakBid states
  else if (state : Int) ≤ newState + delta then rightBid newState right state
  else 0

section Row

variable {states newState : Nat} {delta : Int} (inStates : newState < states)
  (positive : 0 < delta) (fits : delta < 2 ^ 31 - states) (left right : Int)
  {before row : Sweep Int}

section Loops

variable (swept : Sweep.Swept (rowBid states newState left right delta) before row)
include inStates positive swept

include fits in
theorem clearLeft_swept (start : row.index = 0) :
    Sweep.Swept (rowBid states newState left right delta) before
        (clearLeft states newState delta row) ∧
      (clearLeft states newState delta row).index = ((newState : Int) - delta).toNat := by
  have reach : int32 (newState - delta) = newState - delta := int32_of_fits (by omega) (by omega)
  have bound : ∀ state : Nat, decide ((state : Int) < int32 (newState - delta)) = true ↔
      state < ((newState : Int) - delta).toNat := by
    intro state
    rw [decide_eq_true_iff, reach]
    omega
  have cleared := swept.loop bound states (by omega) fun state _ small => by
    show (0 : Int) = _
    rw [rowBid, if_pos (by omega)]
  exact ⟨cleared.1, cleared.2.trans (by omega)⟩

theorem bidLeft_swept (start : row.index = ((newState : Int) - delta).toNat) :
    Sweep.Swept (rowBid states newState left right delta) before
        (bidLeft states newState left row) ∧
      (bidLeft states newState left row).index = newState := by
  have bound : ∀ state : Nat, decide (state < newState) = true ↔ state < newState :=
    fun _ => decide_eq_true_iff
  have bid := swept.loop bound states (by omega) fun state past small => by
    show leftBid newState left state = _
    rw [rowBid, if_neg (by omega), if_pos small]
  exact ⟨bid.1, bid.2.trans (by omega)⟩

include fits in
theorem bidRight_swept (start : row.index = newState + 1) :
    Sweep.Swept (rowBid states newState left right delta) before
        (bidRight states newState right delta row) ∧
      (bidRight states newState right delta row).index =
        min states ((newState : Int) + delta + 1).toNat := by
  have reach : int32 (newState + delta) = newState + delta := int32_of_fits (by omega) (by omega)
  have bound : ∀ state : Nat,
      decide (state < states ∧ (state : Int) ≤ int32 (newState + delta)) = true ↔
        state < min states ((newState : Int) + delta + 1).toNat := by
    intro state
    rw [decide_eq_true_iff, reach]
    omega
  have bid := swept.loop bound states (by omega) fun state past small => by
    show rightBid newState right state = _
    rw [rowBid, if_neg (by omega), if_neg (by omega), if_neg (by omega), if_pos (by omega)]
  exact ⟨bid.1, bid.2.trans (by omega)⟩

omit inStates in
theorem clearRight_swept (start : row.index = min states ((newState : Int) + delta + 1).toNat) :
    Sweep.Swept (rowBid states newState left right delta) before (clearRight states row) ∧
      (clearRight states row).index = states := by
  have bound : ∀ state : Nat, decide (state < states) = true ↔ state < states :=
    fun _ => decide_eq_true_iff
  have cleared := swept.loop bound states (by omega) fun state past small => by
    show (0 : Int) = _
    rw [rowBid, if_neg (by omega), if_neg (by omega), if_neg (by omega), if_neg (by omega)]
  exact ⟨cleared.1, cleared.2.trans (by omega)⟩

end Loops

include inStates positive fits

/-- The four loops and the write between them fill the row from its first cell to its last. -/
theorem writeRow_swept (start : row.index = 0) :
    Sweep.Swept (rowBid states newState left right delta) row
        (writeRow states newState left right delta row) ∧
      (writeRow states newState left right delta row).index = states := by
  obtain ⟨cleared, reach⟩ := clearLeft_swept inStates positive fits left right
    (Sweep.Swept.refl _ row) start
  obtain ⟨bid, here⟩ := bidLeft_swept inStates positive left right cleared reach
  have peak : peakBid states = rowBid states newState left right delta newState := by
    rw [rowBid, if_neg (by omega), if_neg (by omega), if_pos rfl]
  have put := bid.put (peak.trans (by rw [here]))
  obtain ⟨bidRight, reachRight⟩ := bidRight_swept inStates positive fits left right put
    (congrArg (· + 1) here)
  exact clearRight_swept positive left right bidRight reachRight

end Row

/-- The first `count` rows have been written, each cell once, and nothing else. -/
structure RowsWritten (states count : Nat) (bid matrix : Nat → Nat → Int) (m : StateMatrix) :
    Prop where
  cells : ∀ cpu state, m.cells cpu state =
    if cpu < count ∧ state < states then bid cpu state else matrix cpu state
  writes : ∀ cpu state, m.writes.count (cpu, state) =
    if cpu < count ∧ state < states then 1 else 0

/-- The writes of a row are counted in the row only. -/
theorem count_map_row (cpu other state : Nat) (writes : List Nat) :
    (writes.map fun state => (cpu, state)).count (other, state) =
      if other = cpu then writes.count state else 0 := by
  split
  · rename_i same
    rw [same]
    exact List.count_map_of_injective writes (fun state => (cpu, state))
      (fun _ _ equal => congrArg Prod.snd equal) state
  · rename_i different
    refine List.count_eq_zero.mpr fun member => ?_
    obtain ⟨_, _, equal⟩ := List.mem_map.mp member
    exact different (congrArg Prod.fst equal).symm

/-- The outer loop writes one row after the other. -/
theorem writeStateMatrix_written {states cpus : Nat} {newCpuState : Nat → Nat} {delta : Int}
    (inStates : ∀ cpu, cpu < cpus → newCpuState cpu < states) (positive : 0 < delta)
    (fits : delta < 2 ^ 31 - states) (direction : Int) (matrix : Nat → Nat → Int) :
    RowsWritten states cpus
      (fun cpu => rowBid states (newCpuState cpu) (leftBase states direction)
        (rightBase states direction) delta)
      matrix (writeStateMatrix states cpus newCpuState delta direction matrix) := by
  unfold writeStateMatrix
  generalize leftBase states direction = left
  generalize rightBase states direction = right
  refine Loops.forRange_induction (fun count m => RowsWritten states count
    (fun cpu => rowBid states (newCpuState cpu) left right delta) matrix m) ?_ ?_
  · exact ⟨fun cpu state => (if_neg (by omega)).symm, fun cpu state => (if_neg (by omega)).symm⟩
  · intro cpu small m written
    obtain ⟨swept, ended⟩ := writeRow_swept (inStates cpu small) positive fits left right
      (show (Sweep.mk (m.cells cpu) 0 []).index = 0 from rfl)
    constructor
    · intro other state
      show Function.update m.cells cpu _ other state = _
      by_cases same : other = cpu
      · have untouched : m.cells cpu state = matrix cpu state := by
          rw [written.cells cpu state, if_neg (by omega)]
        rw [same, Function.update_self, swept.whole_cells rfl state, ended, ← untouched]
        exact if_congr (by omega) rfl rfl
      · rw [Function.update_of_ne same, written.cells other state]
        exact if_congr (by omega) rfl rfl
    · intro other state
      show (List.map _ _ ++ m.writes).count (other, state) = _
      rw [List.count_append, count_map_row, written.writes other state]
      by_cases same : other = cpu
      · rw [if_pos same, swept.whole_writes rfl rfl state, ended,
          if_neg (show ¬ (other < cpu ∧ state < states) by omega), Nat.add_zero]
        exact if_congr (by omega) rfl rfl
      · rw [if_neg same, Nat.zero_add]
        exact if_congr (by omega) rfl rfl

/-! ### Where nothing wraps -/

section Fits

variable {states : Nat} {direction : Int} (known : direction = 1 ∨ direction = 0 ∨ direction = -1)
  (small : states < 2 ^ 30)
include small

include known in
theorem leftBase_eq :
    leftBase states direction = (direction * direction - direction + 2) * states / 2 := by
  unfold leftBase uint32
  rw [int32_of_fits] <;> rcases known with rfl | rfl | rfl <;> omega

include known in
theorem rightBase_eq :
    rightBase states direction = (direction * direction + direction + 2) * states / 2 := by
  unfold rightBase uint32
  rw [int32_of_fits] <;> rcases known with rfl | rfl | rfl <;> omega

theorem peakBid_eq : peakBid states = 2 * states := by
  unfold peakBid uint32
  rw [int32_of_fits] <;> omega

theorem leftBid_eq {newState state : Nat} {left : Int} (inStates : newState < states)
    (before : state < newState) (positive : 0 ≤ left) (bounded : left ≤ 2 * states) :
    leftBid newState left state = left + state - newState := by
  unfold leftBid
  rw [sub_eq_add_neg, int32_add]
  exact int32_of_fits (by omega) (by omega)

theorem rightBid_eq {newState state : Nat} {right : Int} (inStates : state < states)
    (behind : newState < state) (positive : 0 ≤ right) (bounded : right ≤ 2 * states) :
    rightBid newState right state = right + newState - state := by
  unfold rightBid
  rw [sub_eq_add_neg, int32_add]
  exact int32_of_fits (by omega) (by omega)

include known in
/-- The cells are those of the matrix the auction is held with. -/
theorem rowBid_eq {newCpuState : Nat → Nat} {cpu state : Nat} {delta : Int}
    (inStates : newCpuState cpu < states) (inRange : state < states) (positive : 0 < delta)
    (fits : delta < 2 ^ 31 - states) :
    rowBid states (newCpuState cpu) (leftBase states direction) (rightBase states direction)
        delta state =
      updateStateMatrix states newCpuState delta direction cpu state := by
  obtain ⟨leftLeast, leftMost⟩ := leftWeight_bounds known states
  obtain ⟨rightLeast, rightMost⟩ := rightWeight_bounds known states
  have reach : int32 (newCpuState cpu + delta) = newCpuState cpu + delta :=
    int32_of_fits (by omega) (by omega)
  unfold updateStateMatrix
  rw [stateRow_apply inStates inRange _ _ positive.le, reach, rowBid, leftBase_eq known small,
    rightBase_eq known small, peakBid_eq small]
  split_ifs with far below here above
  · rfl
  · exact leftBid_eq small inStates below (by omega) leftMost
  · rfl
  · exact rightBid_eq small inRange (by omega) (by omega) rightMost
  · rfl

end Fits

/-! ### The shape of the matrix -/

/-- The shape of a row: it bids for the states within the delta and for no others, most for the
cpu's own, less the further away, and on one side always more than on the other if there is a
direction. -/
structure RowShape (states newState : Nat) (delta direction : Int) (cells : Nat → Int) : Prop where
  bids : ∀ state, state < states → (0 < cells state ↔ |(state : Int) - newState| ≤ delta)
  zero : ∀ state, state < states → ¬ |(state : Int) - newState| ≤ delta → cells state = 0
  peak : cells newState = 2 * states
  top : ∀ state, state < states → state ≠ newState → cells state < 2 * states
  fallsLeft : ∀ farther nearer, farther < nearer → nearer < newState →
    0 < cells farther → cells farther < cells nearer
  fallsRight : ∀ nearer farther, newState < nearer → nearer < farther → farther < states →
    0 < cells farther → cells farther < cells nearer
  upward : direction = 1 → ∀ below above, below < newState → newState < above → above < states →
    0 < cells below → 0 < cells above → cells below < cells above
  downward : direction = -1 → ∀ below above, below < newState → newState < above →
    above < states → 0 < cells below → 0 < cells above → cells above < cells below

/-- The shape of the matrix: each of its cells has been written once and no other cell at all, and
every row has its shape. -/
structure MatrixShape (states cpus : Nat) (newCpuState : Nat → Nat) (delta direction : Int)
    (matrix : Nat → Nat → Int) (m : StateMatrix) : Prop where
  writtenOnce : ∀ cpu state, m.writes.count (cpu, state) =
    if cpu < cpus ∧ state < states then 1 else 0
  untouched : ∀ cpu state, ¬ (cpu < cpus ∧ state < states) → m.cells cpu state = matrix cpu state
  rows : ∀ cpu, cpu < cpus → RowShape states (newCpuState cpu) delta direction (m.cells cpu)

/-- The cells of a row: those within the delta on either side of the cpu's own state, the own one,
and the rest. -/
structure RowCells (states newState : Nat) (left right delta : Int) (cells : Nat → Int) : Prop where
  left : ∀ state : Nat, state < newState → newState ≤ state + delta →
    cells state = left + state - newState
  own : cells newState = 2 * states
  right : ∀ state : Nat, newState < state → state < states → (state : Int) ≤ newState + delta →
    cells state = right + newState - state
  far : ∀ state : Nat, state < states → delta < |(state : Int) - newState| → cells state = 0

section Row

variable {states newState : Nat} {left right delta direction : Int} {cells : Nat → Int}
  (row : RowCells states newState left right delta cells)
  (inStates : newState < states)
include row inStates

/-- A row bids exactly for the states within the delta. -/
theorem RowCells.bids_iff (leftLeast : states ≤ left) (rightLeast : states ≤ right)
    (state : Nat) (inRange : state < states) :
    0 < cells state ↔ |(state : Int) - newState| ≤ delta := by
  constructor
  · intro bid
    by_contra beyond
    exact bid.ne (row.far state inRange (not_le.mp beyond)).symm
  · intro within
    rw [abs_le] at within
    rcases lt_trichotomy state newState with below | rfl | above
    · rw [row.left state below (by omega)]
      omega
    · rw [row.own]
      omega
    · rw [row.right state above inRange (by omega)]
      omega

/-- The cells of a row have its shape, if the bids of each side are at least the number of states
and those of the side of the direction twice that. -/
theorem RowCells.shape (leftLeast : states ≤ left) (leftMost : left ≤ 2 * states)
    (rightLeast : states ≤ right) (rightMost : right ≤ 2 * states)
    (upward : direction = 1 → left = states ∧ right = 2 * states)
    (downward : direction = -1 → left = 2 * states ∧ right = states) :
    RowShape states newState delta direction cells := by
  have bids := row.bids_iff inStates leftLeast rightLeast
  have within := fun state inRange bid => abs_le.mp ((bids state inRange).mp bid)
  refine
    { bids := bids, zero := fun state inRange beyond => row.far state inRange (not_le.mp beyond)
      peak := row.own, top := ?_, fallsLeft := ?_, fallsRight := ?_, upward := ?_
      downward := ?_ }
  · intro state inRange other
    by_cases near : |(state : Int) - newState| ≤ delta
    · rw [abs_le] at near
      rcases Nat.lt_or_gt_of_ne other with below | above
      · rw [row.left state below (by omega)]
        omega
      · rw [row.right state above inRange (by omega)]
        omega
    · rw [row.far state inRange (not_le.mp near)]
      omega
  · intro farther nearer closer below bid
    have reach := within farther (by omega) bid
    rw [row.left farther (by omega) (by omega), row.left nearer below (by omega)]
    omega
  · intro nearer farther above closer inRange bid
    have reach := within farther inRange bid
    rw [row.right farther (by omega) inRange (by omega),
      row.right nearer above (by omega) (by omega)]
    omega
  · intro up lower upper below above inRange lowerBid upperBid
    obtain ⟨leftSide, rightSide⟩ := upward up
    have lowerReach := within lower (by omega) lowerBid
    have upperReach := within upper inRange upperBid
    rw [row.left lower below (by omega), row.right upper above inRange (by omega)]
    omega
  · intro down lower upper below above inRange lowerBid upperBid
    obtain ⟨leftSide, rightSide⟩ := downward down
    have lowerReach := within lower (by omega) lowerBid
    have upperReach := within upper inRange upperBid
    rw [row.left lower below (by omega), row.right upper above inRange (by omega)]
    omega

end Row

section Shape

variable {states : Nat} {newCpuState : Nat → Nat} {delta direction : Int}
  (positive : 0 < delta) (fits : delta < 2 ^ 31 - states)
  (known : direction = 1 ∨ direction = 0 ∨ direction = -1)
include positive fits

variable (direction) in
/-- The cells of the matrix of an auction. -/
theorem rowCells_of_updateStateMatrix {cpu : Nat} (inStates : newCpuState cpu < states)
    {cells : Nat → Int} (same : ∀ state, state < states →
      cells state = updateStateMatrix states newCpuState delta direction cpu state) :
    RowCells states (newCpuState cpu) ((direction * direction - direction + 2) * states / 2)
      ((direction * direction + direction + 2) * states / 2) delta cells := by
  have reach : int32 (newCpuState cpu + delta) = newCpuState cpu + delta :=
    int32_of_fits (by omega) (by omega)
  have cell := fun state (inRange : state < states) =>
    (same state inRange).trans (stateRow_apply inStates inRange _ _ positive.le)
  rw [reach] at cell
  refine ⟨fun state below near => ?_, ?_, fun state above inRange near => ?_,
    fun state inRange far => ?_⟩
  · rw [cell state (by omega), if_neg (by omega), if_pos below]
  · rw [cell _ inStates, if_neg (by omega), if_neg (by omega), if_pos rfl]
  · rw [cell state inRange, if_neg (by omega), if_neg (by omega), if_neg (by omega), if_pos near]
  · rw [lt_abs] at far
    rw [cell state inRange]
    by_cases below : (state : Int) + delta < newCpuState cpu
    · rw [if_pos below]
    · rw [if_neg below, if_neg (by omega), if_neg (by omega), if_neg (by omega)]

include known in
/-- A row with the cells of the matrix of an auction has its shape. -/
theorem rowShape_of_updateStateMatrix {cpu : Nat} (inStates : newCpuState cpu < states)
    {cells : Nat → Int} (same : ∀ state, state < states →
      cells state = updateStateMatrix states newCpuState delta direction cpu state) :
    RowShape states (newCpuState cpu) delta direction cells := by
  obtain ⟨leftLeast, leftMost⟩ := leftWeight_bounds known states
  obtain ⟨rightLeast, rightMost⟩ := rightWeight_bounds known states
  refine (rowCells_of_updateStateMatrix direction positive fits inStates same).shape inStates
    leftLeast leftMost rightLeast rightMost ?_ ?_
  · rintro rfl
    omega
  · rintro rfl
    omega

/-- So has every row of an auction's matrix, in the direction `transition_direction` computes. -/
theorem transitionDirection_rowShape (cpus : Nat) (demand : Nat → Int) (info : Nat → ProcInfo)
    (curCpuState : Nat → Nat) {cpu : Nat} (inStates : newCpuState cpu < states) :
    let direction := transitionDirection states cpus demand info curCpuState
    RowShape states (newCpuState cpu) delta direction
      (updateStateMatrix states newCpuState delta direction cpu) :=
  rowShape_of_updateStateMatrix positive fits
    (transitionDirection_known states cpus demand info curCpuState) inStates fun _ _ => rfl

variable {cpus : Nat} (inStates : ∀ cpu, cpu < cpus → newCpuState cpu < states)
  (matrix : Nat → Nat → Int)
include inStates

include known in
theorem writeStateMatrix_shape (small : states < 2 ^ 30) :
    MatrixShape states cpus newCpuState delta direction matrix
      (writeStateMatrix states cpus newCpuState delta direction matrix) := by
  have written := writeStateMatrix_written inStates positive fits direction matrix
  refine ⟨written.writes, fun cpu state outside => ?_, fun cpu smallCpu => ?_⟩
  · rw [written.cells cpu state, if_neg outside]
  · refine rowShape_of_updateStateMatrix positive fits known (inStates cpu smallCpu) fun state inRange => ?_
    rw [written.cells cpu state, if_pos ⟨smallCpu, inRange⟩]
    exact rowBid_eq known small (inStates cpu smallCpu) inRange positive fits

variable (direction) in
/-- With too many states, a cpu's bid for its own state is negative. -/
theorem writeStateMatrix_peak_negative (large : 2 ^ 30 ≤ states) {cpu : Nat} (small : cpu < cpus) :
    (writeStateMatrix states cpus newCpuState delta direction matrix).cells cpu
      (newCpuState cpu) < 0 := by
  have written := writeStateMatrix_written inStates positive fits direction matrix
  have own := inStates cpu small
  rw [written.cells cpu (newCpuState cpu), if_pos ⟨small, own⟩, rowBid, if_neg (by omega),
    if_neg (by omega), if_pos rfl]
  unfold peakBid int32 uint32
  rw [Int.bmod_def]
  split <;> omega

theorem not_matrixShape (large : 2 ^ 30 ≤ states) (some : 0 < cpus) :
    ¬ MatrixShape states cpus newCpuState delta direction matrix
      (writeStateMatrix states cpus newCpuState delta direction matrix) := by
  intro shape
  have negative := writeStateMatrix_peak_negative direction positive fits inStates matrix large some
  have peak := (shape.rows 0 some).peak
  omega

end Shape

/-- `update_state_matrix` leaves a matrix of its shape if twice the number of states fits an `int`,
and otherwise leaves none, unless there is no cpu. -/
theorem update_state_matrix_shape {states cpus : Nat} {newCpuState : Nat → Nat}
    {delta direction : Int} (inStates : ∀ cpu, cpu < cpus → newCpuState cpu < states)
    (positive : 0 < delta) (fits : delta < 2 ^ 31 - states)
    (known : direction = 1 ∨ direction = 0 ∨ direction = -1) (matrix : Nat → Nat → Int) :
    (states < 2 ^ 30 → MatrixShape states cpus newCpuState delta direction matrix
      (writeStateMatrix states cpus newCpuState delta direction matrix)) ∧
    (2 ^ 30 ≤ states → 0 < cpus → ¬ MatrixShape states cpus newCpuState delta direction matrix
      (writeStateMatrix states cpus newCpuState delta direction matrix)) :=
  ⟨writeStateMatrix_shape positive fits known inStates matrix,
    not_matrixShape positive fits inStates matrix⟩

/-- Three states, the cpu in the middle one, and the direction upwards. -/
theorem update_state_matrix_shape_three_states :
    MatrixShape 3 1 (fun _ => 1) 1 1 (fun _ _ => 0)
        (writeStateMatrix 3 1 (fun _ => 1) 1 1 fun _ _ => 0) ∧
      (List.range 3).map ((writeStateMatrix 3 1 (fun _ => 1) 1 1 fun _ _ => 0).cells 0) =
        [2, 6, 5] :=
  ⟨(update_state_matrix_shape (fun _ _ => by decide) (by decide) (by decide) (Or.inl rfl)
    _).1 (by decide), by decide⟩

/-- With `2^30` states the bid for the cpu's own state does not fit an `int`. -/
theorem update_state_matrix_without_shape :
    ¬ ∀ (states cpus : Nat) (newCpuState : Nat → Nat) (delta direction : Int)
      (matrix : Nat → Nat → Int), 1 ≤ states →
      (∀ cpu, cpu < cpus → newCpuState cpu < states) → 0 < delta → delta < 2 ^ 31 - states →
      direction = 1 ∨ direction = 0 ∨ direction = -1 →
        MatrixShape states cpus newCpuState delta direction matrix
          (writeStateMatrix states cpus newCpuState delta direction matrix) := by
  intro always
  have inStates : ∀ cpu, cpu < 1 → (fun _ => 0 : Nat → Nat) cpu < 2 ^ 30 :=
    fun _ _ => Nat.two_pow_pos 30
  have fits : (1 : Int) < 2 ^ 31 - (2 ^ 30 : Nat) := by decide
  exact not_matrixShape Int.one_pos fits inStates (fun _ _ => 0) le_rfl Nat.one_pos
    (always (2 ^ 30) 1 (fun _ => 0) 1 0 (fun _ _ => 0) (by decide) inStates Int.one_pos fits
      (Or.inr (Or.inl rfl)))

end Seeker
