/-
This file says what `prune_states` leaves of a table, and when it ends.

The first loop clamps the entries of `allowed_states` and marks their states. The
second one withdraws states that are not marked until as many marked ones have come
up as the parameter has entries, which `Withdrawal.kept` computes on the list of the
states. It ends if there are that many. If there are not it runs over the end of the
table, where it reads what the shifts have left there, the last entry of the full
table over and over. So it ends also if the table has no room left and its last state is
marked.
-/
import Seeker.FreqOrder
import Seeker.Library.Withdrawal

namespace Seeker

/-! ### The marks -/

/-- An entry of `allowed_states` as the marking loop clamps it. -/
def clampState (numStates : Nat) (allowed : Int) : Int :=
  let allowed := if allowed < 0 then 0 else allowed
  if allowed ≥ numStates then (numStates : Int) - 1 else allowed

/-- The array `allowed_states` after the marking loop. -/
def clampBelow (numStates : Nat) (allowedStates : Nat → Int) (index : Nat) : Int :=
  if index < numStates then clampState numStates (allowedStates index) else allowedStates index

/-- The states the marking loop marks. It looks at as many entries as the cpu has states. -/
def allowedMarks (numStates : Nat) (allowedStates : Nat → Int) : Finset Nat :=
  (Finset.range numStates).image fun index => (clampState numStates (allowedStates index)).toNat

theorem clampState_mem {numStates : Nat} (someState : 0 < numStates) (allowed : Int) :
    0 ≤ clampState numStates allowed ∧ clampState numStates allowed < numStates := by
  unfold clampState
  dsimp only
  split_ifs <;> omega

theorem mem_allowedMarks {numStates state : Nat} {allowedStates : Nat → Int} :
    state ∈ allowedMarks numStates allowedStates ↔
      ∃ index, index < numStates ∧ (clampState numStates (allowedStates index)).toNat = state := by
  simp only [allowedMarks, Finset.mem_image, Finset.mem_range]

theorem lt_of_mem_allowedMarks {numStates state : Nat} {allowedStates : Nat → Int}
    (mark : state ∈ allowedMarks numStates allowedStates) : state < numStates := by
  obtain ⟨index, small, rfl⟩ := mem_allowedMarks.mp mark
  have within := clampState_mem (by omega : 0 < numStates) (allowedStates index)
  omega

/-- What the marking loop does to the array and to the marks. -/
theorem markAllowed_loop (numStates : Nat) (allowedStates : Nat → Int) (validEntry : Nat → Nat) :
    Loops.forRange numStates (markAllowed numStates) (allowedStates, validEntry) =
      (clampBelow numStates allowedStates, fun state =>
        if state ∈ allowedMarks numStates allowedStates then 2 else validEntry state) := by
  have looped : ∀ bound, (∀ index,
        (Loops.forRange bound (markAllowed numStates) (allowedStates, validEntry)).1 index =
          if index < bound then clampState numStates (allowedStates index)
          else allowedStates index) ∧
      ∀ state, (Loops.forRange bound (markAllowed numStates) (allowedStates, validEntry)).2 state =
        if ∃ index, index < bound ∧ (clampState numStates (allowedStates index)).toNat = state
        then 2 else validEntry state := by
    intro bound
    refine Loops.forRange_induction (fun count (marks : (Nat → Int) × (Nat → Nat)) =>
      (∀ index, marks.1 index =
        if index < count then clampState numStates (allowedStates index)
        else allowedStates index) ∧
      ∀ state, marks.2 state =
        if ∃ index, index < count ∧ (clampState numStates (allowedStates index)).toNat = state
        then 2 else validEntry state) ?_ ?_
    · exact ⟨fun _ => rfl, fun _ => (if_neg (by simp)).symm⟩
    · rintro count _ marks ⟨array, marked⟩
      have entry : marks.1 count = allowedStates count := by
        rw [array, if_neg (lt_irrefl count)]
      have step : markAllowed numStates count marks =
          (Function.update marks.1 count (clampState numStates (allowedStates count)),
            Function.update marks.2 (clampState numStates (allowedStates count)).toNat 2) := by
        rw [← entry]
        rfl
      rw [step]
      refine ⟨fun index => ?_, fun state => ?_⟩
      · show Function.update marks.1 count _ index = _
        by_cases here : index = count
        · rw [here, Function.update_self, if_pos (Nat.lt_succ_self count)]
        · rw [Function.update_of_ne here, array]
          exact if_congr (by omega) rfl rfl
      · show Function.update marks.2 _ 2 state = _
        by_cases here : state = (clampState numStates (allowedStates count)).toNat
        · rw [here, Function.update_self, if_pos ⟨count, Nat.lt_succ_self count, rfl⟩]
        · rw [Function.update_of_ne here, marked]
          refine if_congr ⟨?_, ?_⟩ rfl rfl
          · rintro ⟨index, small, same⟩
            exact ⟨index, Nat.lt_succ_of_lt small, same⟩
          · rintro ⟨index, small, same⟩
            rcases Nat.lt_succ_iff_lt_or_eq.mp small with earlier | rfl
            · exact ⟨index, earlier, same⟩
            · exact absurd same.symm here
  refine Prod.ext (funext (looped numStates).1) (funext fun state => ?_)
  rw [(looped numStates).2 state]
  exact if_congr mem_allowedMarks.symm rfl rfl

/-! ### One turn of the withdrawing loop -/

namespace Pruning

/-- The frequencies of the table. -/
def frequencies (p : Pruning) : List Nat := ExchangeSort.cells p.numStates p.table

/-- The frequencies of the states the loop has passed. -/
def front (p : Pruning) : List Nat := ExchangeSort.cells (min p.index p.numStates) p.table

/-- The states the loop has not come to, with their marks. -/
def rest (p : Pruning) : List (Nat × Bool) :=
  (List.range (p.numStates - p.index)).map fun offset =>
    (p.table (p.index + offset), decide (p.validEntry (p.index + offset) = 2))

/-- The last cell of the marks, which no shift changes. -/
def lastMark (p : Pruning) : Nat := p.validEntry (maxStates - 1)

variable {p : Pruning}

theorem rest_eq_nil (past : p.numStates ≤ p.index) : p.rest = [] := by
  rw [rest, Nat.sub_eq_zero_of_le past, List.range_zero, List.map_nil]

theorem rest_cons (inTable : p.index < p.numStates) :
    p.rest = (p.table p.index, decide (p.validEntry p.index = 2)) ::
      (List.range (p.numStates - (p.index + 1))).map fun offset =>
        (p.table (p.index + 1 + offset), decide (p.validEntry (p.index + 1 + offset) = 2)) := by
  have longer : p.numStates - p.index = p.numStates - (p.index + 1) + 1 := by omega
  rw [rest, longer, List.range_succ_eq_map, List.map_cons, List.map_map, Nat.add_zero]
  congr 1
  refine List.map_congr_left fun offset _ => ?_
  rw [Function.comp_apply, Nat.succ_eq_add_one, Nat.add_right_comm, Nat.add_assoc]

theorem front_append_rest : p.front ++ p.rest.map Prod.fst = p.frequencies := by
  rcases le_total p.index p.numStates with within | past
  · have whole : p.numStates = p.index + (p.numStates - p.index) := by omega
    rw [front, rest, frequencies, min_eq_left within, List.map_map]
    unfold ExchangeSort.cells
    conv_rhs => rw [whole, List.range_add, List.map_append, List.map_map]
    rfl
  · rw [rest_eq_nil past, List.map_nil, List.append_nil, front, min_eq_right past, frequencies]

/-- What one turn of the loop does: it passes a marked state, withdraws one that is not marked, or
passes a copy of the last mark behind the table. -/
inductive Turn (p q : Pruning) : Prop where
  | pass (frequency : Nat) (rest : p.rest = (frequency, true) :: q.rest)
      (front : q.front = p.front ++ [frequency]) (index : q.index = p.index + 1)
  | withdraw (frequency : Nat) (rest : p.rest = (frequency, false) :: q.rest)
      (front : q.front = p.front) (index : q.index = p.index)
  | overrun (before : p.rest = []) (after : q.rest = []) (copies : p.lastMark = 2)
      (front : q.front = p.front) (index : q.index = p.index + 1)

/-- The turn passes a state of the table or a copy of a mark. -/
def Alive (p : Pruning) : Prop := p.index < p.numStates ∨ p.lastMark = 2

theorem turn_of_marked (padded : p.Padded) (inRow : p.index < maxStates)
    (mark : p.validEntry p.index = 2) :
    p.Turn (pruneStep p) ∧ (pruneStep p).Padded ∧ (pruneStep p).lastMark = p.lastMark := by
  have passed : pruneStep p = { p with index := p.index + 1 } := if_pos mark
  rw [passed]
  refine ⟨?_, padded, rfl⟩
  by_cases inTable : p.index < p.numStates
  · refine Turn.pass (p.table p.index) ?_ ?_ rfl
    · rw [rest_cons inTable, decide_eq_true mark]
      rfl
    · show ExchangeSort.cells (min (p.index + 1) p.numStates) p.table =
        ExchangeSort.cells (min p.index p.numStates) p.table ++ [p.table p.index]
      rw [min_eq_left inTable, min_eq_left (le_of_lt inTable)]
      unfold ExchangeSort.cells
      rw [List.range_succ, List.map_append, List.map_singleton]
  · have past := not_lt.mp inTable
    refine Turn.overrun (rest_eq_nil past) (rest_eq_nil (Nat.le_succ_of_le past)) ?_ ?_ rfl
    · exact (padded.2 p.index past inRow).symm.trans mark
    · show ExchangeSort.cells (min (p.index + 1) p.numStates) p.table =
        ExchangeSort.cells (min p.index p.numStates) p.table
      rw [min_eq_right past, min_eq_right (Nat.le_succ_of_le past)]

theorem turn_of_unmarked (padded : p.Padded) (inTable : p.index < p.numStates)
    (unmarked : p.validEntry p.index ≠ 2) :
    p.Turn (pruneStep p) ∧ (pruneStep p).Padded ∧ (pruneStep p).lastMark = p.lastMark := by
  have small := padded.1
  rw [pruneStep_unmarked small inTable unmarked]
  refine ⟨Turn.withdraw (p.table p.index) ?_ ?_ rfl, padded.withdraw inTable, ?_⟩
  · refine (rest_cons inTable).trans (congrArg₂ List.cons ?_ ?_)
    · rw [decide_eq_false unmarked]
    · have shorter : p.numStates - (p.index + 1) = p.numStates - 1 - p.index := by omega
      rw [shorter]
      refine List.map_congr_left fun offset member => ?_
      have below := List.mem_range.mp member
      have shifted : ∀ row, shiftDown p.index row (p.index + offset) =
          row (p.index + 1 + offset) := fun row => by
        rw [shiftDown_apply, if_pos (by omega), Nat.add_right_comm]
      simp only [shifted]
  · show ExchangeSort.cells (min p.index (p.numStates - 1)) _ =
      ExchangeSort.cells (min p.index p.numStates) p.table
    rw [min_eq_left (by omega), min_eq_left (le_of_lt inTable), ExchangeSort.cells_inj]
    intro cell before
    show shiftDown p.index p.table cell = p.table cell
    rw [shiftDown_apply, if_neg (by omega)]
  · show shiftDown p.index p.validEntry (maxStates - 1) = p.validEntry (maxStates - 1)
    rw [shiftDown_apply, if_neg (by omega)]

theorem turn (padded : p.Padded) (inRow : p.index < maxStates) (alive : p.Alive) :
    p.Turn (pruneStep p) ∧ (pruneStep p).Padded ∧ (pruneStep p).lastMark = p.lastMark := by
  by_cases mark : p.validEntry p.index = 2
  · exact turn_of_marked padded inRow mark
  · refine turn_of_unmarked padded ?_ mark
    by_contra past
    have copies := alive.resolve_left past
    exact mark ((padded.2 p.index (not_lt.mp past) inRow).trans copies)

/-! ### The withdrawing loop -/

/-- There are enough marks for the loop to come to its end. -/
def Enough (length : Nat) (p : Pruning) : Prop :=
  length ≤ p.index + Withdrawal.marked p.rest ∨ p.lastMark = 2

/-- A loop that goes on with a dead state does not end. -/
theorem endless {length : Nat} (padded : p.Padded) (inRow : p.index < maxStates)
    (more : p.index < length) (dead : ¬ p.Alive) (fuel : Nat) :
    pruneLoop length fuel p = none := by
  obtain ⟨past, unmarked⟩ := not_or.mp dead
  refine pruneLoop_stuck fuel more (fun cell from_index below => ?_) inRow
  rw [padded.2 cell ((not_lt.mp past).trans from_index) below]
  exact unmarked

theorem pruneLoop_spec {length : Nat} (fits : length ≤ maxStates) (fuel : Nat) {p q : Pruning}
    (padded : p.Padded) (returned : pruneLoop length fuel p = some q) :
    p.Enough length ∧
      q.frequencies = p.front ++ Withdrawal.kept (length - p.index) p.rest := by
  induction fuel generalizing p with
  | zero => cases returned
  | succ fuel inductionHypothesis =>
    by_cases more : p.index < length
    · have inRow := Nat.lt_of_lt_of_le more fits
      have alive : p.Alive := by
        by_contra dead
        rw [endless padded inRow more dead] at returned
        cases returned
      obtain ⟨turn, paddedNext, lastNext⟩ := Pruning.turn padded inRow alive
      rw [pruneLoop, if_pos more] at returned
      obtain ⟨enough, left⟩ := inductionHypothesis paddedNext returned
      unfold Enough at enough ⊢
      rw [lastNext] at enough
      cases turn with
      | pass frequency rest front index =>
        have counted : length - p.index = length - (p.index + 1) + 1 := by omega
        rw [index] at enough left
        refine ⟨enough.imp_left fun enough => ?_, ?_⟩
        · rw [rest, Withdrawal.marked_true]
          omega
        · rw [left, front, rest, counted, Withdrawal.kept, List.append_assoc,
            List.singleton_append]
      | withdraw frequency rest front index =>
        have counted : length - p.index = length - (p.index + 1) + 1 := by omega
        rw [index] at enough left
        refine ⟨enough.imp_left fun enough => ?_, ?_⟩
        · rw [rest, Withdrawal.marked_false]
          exact enough
        · rw [left, front, rest, counted, Withdrawal.kept]
      | overrun before after copies front index =>
        refine ⟨Or.inr copies, ?_⟩
        rw [left, front, before, after, Withdrawal.kept_nil, Withdrawal.kept_nil]
    · have ended : p.index ≥ length := not_lt.mp more
      rw [pruneLoop, if_neg more] at returned
      obtain rfl := Option.some.inj returned
      refine ⟨Or.inl (ended.trans (Nat.le_add_right ..)), ?_⟩
      rw [Nat.sub_eq_zero_of_le ended, Withdrawal.kept_zero, front_append_rest]

/-- Every turn comes closer to the limit or leaves fewer states. -/
theorem pruneLoop_isSome {length : Nat} (fits : length ≤ maxStates) (fuel : Nat) {p : Pruning}
    (padded : p.Padded) (enough : p.Enough length)
    (fueled : (length - p.index) + p.rest.length < fuel) :
    (pruneLoop length fuel p).isSome := by
  induction fuel generalizing p with
  | zero => exact absurd fueled (Nat.not_lt_zero _)
  | succ fuel inductionHypothesis =>
    unfold pruneLoop
    split
    · rename_i more
      have alive : p.Alive := by
        by_contra dead
        obtain ⟨past, unmarked⟩ := not_or.mp dead
        have counted := enough.resolve_right unmarked
        rw [rest_eq_nil (not_lt.mp past), Withdrawal.marked_nil] at counted
        omega
      obtain ⟨turn, paddedNext, lastNext⟩ :=
        Pruning.turn padded (Nat.lt_of_lt_of_le more fits) alive
      unfold Enough at enough
      refine inductionHypothesis paddedNext ?_ ?_
      · unfold Enough
        rw [lastNext]
        refine enough.imp_left fun counted => ?_
        cases turn with
        | pass frequency rest front index =>
          rw [rest, Withdrawal.marked_true] at counted
          rw [index]
          omega
        | withdraw frequency rest front index =>
          rw [rest, Withdrawal.marked_false] at counted
          rw [index]
          exact counted
        | overrun before after copies front index =>
          rw [before, Withdrawal.marked_nil] at counted
          omega
      · cases turn with
        | pass frequency rest front index =>
          rw [rest, List.length_cons] at fueled
          omega
        | withdraw frequency rest front index =>
          rw [rest, List.length_cons] at fueled
          omega
        | overrun before after copies front index =>
          rw [before] at fueled
          rw [after]
          omega
    · rfl

end Pruning

/-! ### `prune_states` -/

/-- What `init_freqs` has made of a cpu when it calls `prune_states`: the entries of its states are
valid and the rest of the table is not. -/
structure FreqInfo.Filled (info : FreqInfo) : Prop where
  numStates : info.numStates ≤ maxStates
  validEntry : ∀ state, state < maxStates →
    info.validEntry state = if state < info.numStates then 1 else 0

theorem fillInfo_filled (frequencies : List Nat) (cpu : Nat) (info : FreqInfo) :
    (fillInfo frequencies cpu info).Filled where
  numStates := (fillInfo_unknown frequencies cpu info).numStates
  validEntry state small := by
    rw [fillInfo_validEntry_apply, fillInfo_numStates, if_pos small]

@[simp]
theorem FreqInfo.length_frequencies (info : FreqInfo) :
    info.frequencies.length = info.numStates :=
  ExchangeSort.length_cells ..

/-- The states of a table with the marks the parameter gives them. -/
def markedTable (full : List Nat) (allowedStates : Nat → Int) : List (Nat × Bool) :=
  full.mapIdx fun state frequency =>
    (frequency, decide (state ∈ allowedMarks full.length allowedStates))

/-- As many states are marked as the parameter has entries, or the last state of a table without
room is marked. -/
def Prunable (numStates length : Nat) (allowedStates : Nat → Int) : Prop :=
  length ≤ (allowedMarks numStates allowedStates).card ∨
    numStates = maxStates ∧ numStates - 1 ∈ allowedMarks numStates allowedStates

instance (numStates length : Nat) (allowedStates : Nat → Int) :
    Decidable (Prunable numStates length allowedStates) :=
  inferInstanceAs (Decidable (_ ∨ _))

/-- The variables of `prune_states` between its loops. -/
def pruningStart (info : FreqInfo) (allowedStates : Nat → Int) : Pruning where
  index := 0
  numStates := info.numStates
  table := info.table
  validEntry state :=
    if state ∈ allowedMarks info.numStates allowedStates then 2 else info.validEntry state

theorem pruneStates_eq (fuel cpu : Nat) (f : FreqModule) :
    pruneStates fuel cpu f =
      (pruneLoop f.allowedStatesLength fuel (pruningStart (f.freqInfo cpu) f.allowedStates)).map
        fun p =>
          { f with
            allowedStates := clampBelow (f.freqInfo cpu).numStates f.allowedStates }.setInfo cpu
            { f.freqInfo cpu with
              numStates := p.numStates, table := p.table, validEntry := p.validEntry } := by
  unfold pruneStates
  dsimp only
  rw [markAllowed_loop]
  rfl

theorem marked_markedTable (full : List Nat) (allowedStates : Nat → Int) :
    Withdrawal.marked (markedTable full allowedStates) =
      (allowedMarks full.length allowedStates).card := by
  have columns : (markedTable full allowedStates).map Prod.snd =
      (List.range full.length).map fun state =>
        decide (state ∈ allowedMarks full.length allowedStates) := by
    refine List.ext_getElem (by simp [markedTable]) fun state _ _ => ?_
    simp [markedTable]
  have marks : allowedMarks full.length allowedStates =
      ((List.range full.length).filter fun state =>
        decide (state ∈ allowedMarks full.length allowedStates)).toFinset := by
    ext state
    simp only [List.mem_toFinset, List.mem_filter, List.mem_range, decide_eq_true_eq]
    exact ⟨fun mark => ⟨lt_of_mem_allowedMarks mark, mark⟩, And.right⟩
  have counted : Withdrawal.marked (markedTable full allowedStates) =
      ((markedTable full allowedStates).map Prod.snd).countP id := by
    rw [List.countP_map]
    rfl
  conv_rhs => rw [marks, List.toFinset_card_of_nodup (List.nodup_range.filter _)]
  rw [counted, columns, List.countP_map, List.countP_eq_length_filter]
  rfl

section Start

variable {info : FreqInfo} (filled : info.Filled) (allowedStates : Nat → Int)
include filled

theorem FreqInfo.Filled.rest :
    (pruningStart info allowedStates).rest = markedTable info.frequencies allowedStates := by
  refine List.ext_getElem (by simp [Pruning.rest, markedTable, pruningStart])
    fun state small _ => ?_
  have inTable : state < info.numStates := by
    simpa [Pruning.rest, pruningStart] using small
  have valid := filled.validEntry state (inTable.trans_le filled.numStates)
  rw [if_pos inTable] at valid
  simp only [Pruning.rest, markedTable, pruningStart, List.getElem_map, List.getElem_range,
    List.getElem_mapIdx, FreqInfo.length_frequencies, Nat.zero_add, Prod.mk.injEq]
  refine ⟨?_, ?_⟩
  · simp [FreqInfo.frequencies, ExchangeSort.cells]
  · rw [decide_eq_decide]
    split_ifs with mark
    · exact iff_of_true rfl mark
    · rw [valid]
      exact iff_of_false (by decide) mark

theorem FreqInfo.Filled.padded : (pruningStart info allowedStates).Padded := by
  refine ⟨filled.numStates, fun cell past below => ?_⟩
  have past : info.numStates ≤ cell := past
  have unmarked : ∀ state, info.numStates ≤ state → state < maxStates →
      (pruningStart info allowedStates).validEntry state = 0 := by
    intro state outside inRow
    show (if _ then 2 else info.validEntry state) = 0
    rw [if_neg fun mark => absurd (lt_of_mem_allowedMarks mark) (not_lt.mpr outside),
      filled.validEntry state inRow, if_neg (not_lt.mpr outside)]
  rw [unmarked cell past below, unmarked (maxStates - 1) (by omega) (by omega)]

theorem FreqInfo.Filled.enough_iff (length : Nat) :
    (pruningStart info allowedStates).Enough length ↔
      Prunable info.numStates length allowedStates := by
  have index : (pruningStart info allowedStates).index = 0 := rfl
  unfold Pruning.Enough Prunable
  rw [index, Nat.zero_add, filled.rest allowedStates, marked_markedTable,
    FreqInfo.length_frequencies]
  refine or_congr_right ?_
  show (if _ then 2 else info.validEntry (maxStates - 1)) = 2 ↔ _
  have small := filled.numStates
  split_ifs with mark
  · have full := lt_of_mem_allowedMarks mark
    have states : info.numStates = maxStates := by omega
    rw [states] at mark ⊢
    exact iff_of_true rfl ⟨rfl, mark⟩
  · rw [filled.validEntry (maxStates - 1) (by decide)]
    refine iff_of_false (by split_ifs <;> decide) ?_
    rintro ⟨full, last⟩
    rw [full] at last mark
    exact mark last

end Start

/-- What `prune_states` has done when it returns. -/
structure Pruned (cpu : Nat) (f f' : FreqModule) : Prop where
  prunable : Prunable (f.freqInfo cpu).numStates f.allowedStatesLength f.allowedStates
  allowedStates : f'.allowedStates = clampBelow (f.freqInfo cpu).numStates f.allowedStates
  length : f'.allowedStatesLength = f.allowedStatesLength
  frequencies : (f'.freqInfo cpu).frequencies =
    Withdrawal.kept f.allowedStatesLength
      (markedTable (f.freqInfo cpu).frequencies f.allowedStates)
  others : ∀ other, other ≠ cpu → f'.freqInfo other = f.freqInfo other

section Prune

variable {f : FreqModule} {cpu : Nat} (filled : (f.freqInfo cpu).Filled)
  (fits : f.allowedStatesLength ≤ maxStates)
include filled fits

theorem pruneStates_pruned {fuel : Nat} {f' : FreqModule}
    (returned : pruneStates fuel cpu f = some f') : Pruned cpu f f' := by
  rw [pruneStates_eq] at returned
  obtain ⟨p, looped, rfl⟩ := Option.map_eq_some_iff.mp returned
  obtain ⟨enough, left⟩ := Pruning.pruneLoop_spec fits fuel (filled.padded _) looped
  refine ⟨(filled.enough_iff _ _).mp enough, rfl, rfl, ?_,
    fun other different => FreqModule.setInfo_of_ne different _ _⟩
  rw [FreqModule.setInfo_self, ← filled.rest]
  exact left

/-- Sixteen turns suffice. -/
theorem pruneStates_isSome {fuel : Nat} (fueled : 2 * maxStates < fuel)
    (prunable : Prunable (f.freqInfo cpu).numStates f.allowedStatesLength f.allowedStates) :
    (pruneStates fuel cpu f).isSome := by
  rw [pruneStates_eq, Option.isSome_map]
  refine Pruning.pruneLoop_isSome fits fuel (filled.padded _)
    ((filled.enough_iff _ _).mpr prunable) ?_
  have states : (pruningStart (f.freqInfo cpu) f.allowedStates).rest.length =
      (f.freqInfo cpu).numStates := by
    rw [filled.rest, markedTable, List.length_mapIdx, FreqInfo.length_frequencies]
  have small := filled.numStates
  rw [states]
  omega

end Prune

/-- For every cpu and every parameter, cut to the cpu's states: `prune_states` ends, leaving at
least one state and no more than there were, exactly if as many states are marked as the parameter
has entries or the table has no room left and its last state is marked. -/
theorem prune_states_ends_iff {f : FreqModule} {cpu : Nat} (filled : (f.freqInfo cpu).Filled)
    (someEntry : 1 ≤ f.allowedStatesLength)
    (truncated : f.allowedStatesLength ≤ (f.freqInfo cpu).numStates) :
    (∃ fuel f', pruneStates fuel cpu f = some f' ∧ 1 ≤ (f'.freqInfo cpu).numStates ∧
        (f'.freqInfo cpu).numStates ≤ (f.freqInfo cpu).numStates) ↔
      Prunable (f.freqInfo cpu).numStates f.allowedStatesLength f.allowedStates := by
  have fits := truncated.trans filled.numStates
  constructor
  · rintro ⟨fuel, f', returned, _⟩
    exact (pruneStates_pruned filled fits returned).prunable
  · intro prunable
    obtain ⟨f', returned⟩ := Option.isSome_iff_exists.mp
      (pruneStates_isSome filled fits (Nat.lt_succ_self _) prunable)
    have pruned := pruneStates_pruned filled fits returned
    have left := Withdrawal.min_marked_le_length_kept f.allowedStatesLength
      (markedTable (f.freqInfo cpu).frequencies f.allowedStates)
    have fewer := Withdrawal.length_kept_le f.allowedStatesLength
      (markedTable (f.freqInfo cpu).frequencies f.allowedStates)
    have someMark : 0 < (allowedMarks (f.freqInfo cpu).numStates f.allowedStates).card :=
      Finset.card_pos.mpr ⟨_, mem_allowedMarks.mpr ⟨0, by omega, rfl⟩⟩
    rw [← pruned.frequencies, FreqInfo.length_frequencies] at left fewer
    rw [marked_markedTable, FreqInfo.length_frequencies] at left
    rw [markedTable, List.length_mapIdx, FreqInfo.length_frequencies] at fewer
    exact ⟨_, f', returned, by omega, fewer⟩

/-- A cpu with two frequencies when `prune_states` is called with a list of two entries. -/
def twoEntryModule (first second : Int) : FreqModule :=
  { unreadModule with
    allowedStates := fun index => if index = 0 then first else if index = 1 then second else 0
    allowedStatesLength := 2 }.fillCpu [2000, 1000] 0

theorem twoEntryModule_filled (first second : Int) :
    ((twoEntryModule first second).freqInfo 0).Filled :=
  fillInfo_filled ..

/-- Both states are listed. -/
theorem prune_states_ends_iff_both :
    ∃ fuel f', pruneStates fuel 0 (twoEntryModule 1 0) = some f' ∧
      1 ≤ (f'.freqInfo 0).numStates ∧
      (f'.freqInfo 0).numStates ≤ ((twoEntryModule 1 0).freqInfo 0).numStates :=
  (prune_states_ends_iff (twoEntryModule_filled 1 0) (by decide) (by decide)).mpr (by decide)

/-- The list names state `0` twice. No number of turns suffices. -/
theorem prune_states_endless :
    ((twoEntryModule 0 0).freqInfo 0).numStates = 2 ∧ (twoEntryModule 0 0).allowedStatesLength = 2 ∧
      ∀ fuel, pruneStates fuel 0 (twoEntryModule 0 0) = none := by
  refine ⟨by decide, by decide, fun fuel => ?_⟩
  cases returned : pruneStates fuel 0 (twoEntryModule 0 0) with
  | none => rfl
  | some f' =>
    have pruned := pruneStates_pruned (twoEntryModule_filled 0 0) (by decide) returned
    exact absurd pruned.prunable (by decide)

end Seeker
