/-
This file says what a turn of `init_freqs` does to its cpu and to the parameter, and
when the parameter `allowed_states` has the effect it is documented with.

The marking loop of `prune_states` looks at as many entries of the array as the cpu
has states, and the entries past the list the user gave are zero. So state `0` is
marked unless the list names every state. The withdrawing loop stops at the last marked
state it counts, and what lies behind that stays. A list selects exactly its states if
it names both the lowest and the highest one.
-/
import Seeker.PruneStates

namespace Seeker

/-! ### One turn of `init_freqs` -/

/-- The table a cpu is left with by the parameter as `init_freqs` finds it. -/
def prunedTable (full : List Nat) (allowedStates : Nat → Int) (length : Nat) : List Nat :=
  Withdrawal.kept (min length full.length) (markedTable full allowedStates)

/-- What a turn of `init_freqs` has done when it returns. -/
structure TurnMade (frequencies : List Nat) (cpu : Nat) (f f' : FreqModule) : Prop where
  length : f'.allowedStatesLength = min f.allowedStatesLength (fullTable frequencies).length
  prunable : f'.allowedStatesLength = 0 ∨
    Prunable (fullTable frequencies).length f'.allowedStatesLength f.allowedStates
  allowedStates : f'.allowedStates =
    if f'.allowedStatesLength = 0 then f.allowedStates
    else clampBelow (fullTable frequencies).length f.allowedStates
  frequencies : (f'.freqInfo cpu).frequencies =
    prunedTable (fullTable frequencies) f.allowedStates f.allowedStatesLength
  others : ∀ other, other ≠ cpu → f'.freqInfo other = f.freqInfo other

theorem length_fullTable (frequencies : List Nat) :
    (fullTable frequencies).length = min maxStates (validEntries frequencies).length := by
  rw [fullTable, List.length_insertionSort, List.length_take]

@[simp]
theorem map_fst_markedTable (full : List Nat) (allowedStates : Nat → Int) :
    (markedTable full allowedStates).map Prod.fst = full := by
  refine List.ext_getElem (by simp [markedTable]) fun state _ _ => ?_
  simp [markedTable]

/-- A list without entries withdraws nothing. -/
theorem prunedTable_eq_full {full : List Nat} {length : Nat} (none : min length full.length = 0)
    (allowedStates : Nat → Int) : prunedTable full allowedStates length = full := by
  rw [prunedTable, none, Withdrawal.kept_zero, map_fst_markedTable]

section Turn

variable (frequencies : List Nat) (cpu : Nat) (f : FreqModule)

theorem fillCpu_freqInfo :
    (f.fillCpu frequencies cpu).freqInfo cpu = fillInfo frequencies cpu (f.freqInfo cpu) :=
  f.setInfo_self cpu _

theorem fillCpu_allowedStatesLength :
    (f.fillCpu frequencies cpu).allowedStatesLength =
      min f.allowedStatesLength (fullTable frequencies).length := by
  have states : (fillInfo frequencies cpu (f.freqInfo cpu)).numStates =
      (fullTable frequencies).length := by
    rw [← FreqInfo.length_frequencies, fillInfo_frequencies]
  show (if f.allowedStatesLength > _ then _ else f.allowedStatesLength) = _
  rw [states]
  split <;> omega

theorem fillCpu_fits : (f.fillCpu frequencies cpu).allowedStatesLength ≤ maxStates := by
  rw [fillCpu_allowedStatesLength, length_fullTable]
  omega

theorem fillCpu_filled : ((f.fillCpu frequencies cpu).freqInfo cpu).Filled := by
  rw [fillCpu_freqInfo]
  exact fillInfo_filled ..

variable {frequencies} {cpu} {f}

theorem initFreqsCpu_turn {fuel : Nat} {f' : FreqModule}
    (returned : initFreqsCpu fuel frequencies cpu f = some f') : TurnMade frequencies cpu f f' := by
  have others : ∀ other, other ≠ cpu →
      (f.fillCpu frequencies cpu).freqInfo other = f.freqInfo other :=
    fun other different => FreqModule.setInfo_of_ne different _ f
  have length := fillCpu_allowedStatesLength frequencies cpu f
  unfold initFreqsCpu at returned
  dsimp only at returned
  split at returned
  · rename_i some
    have pruned := pruneStates_pruned (fillCpu_filled frequencies cpu f)
      (fillCpu_fits frequencies cpu f) returned
    have states : ((f.fillCpu frequencies cpu).freqInfo cpu).numStates =
        (fullTable frequencies).length := by
      rw [fillCpu_freqInfo, ← FreqInfo.length_frequencies, fillInfo_frequencies]
    have prunable := pruned.prunable
    have array := pruned.allowedStates
    have left := pruned.frequencies
    rw [states] at prunable array
    rw [fillCpu_freqInfo, fillInfo_frequencies] at left
    refine ⟨pruned.length.trans length, Or.inr ?_, ?_, ?_, fun other different =>
      (pruned.others other different).trans (others other different)⟩
    · rw [pruned.length]
      exact prunable
    · rw [pruned.length, if_neg (by omega)]
      exact array
    · rw [left, prunedTable, ← length]
      rfl
  · rename_i none
    obtain rfl := Option.some.inj returned
    have zero : (f.fillCpu frequencies cpu).allowedStatesLength = 0 := by omega
    refine ⟨length, Or.inl zero, ?_, ?_, others⟩
    · rw [if_pos zero]
      rfl
    · rw [fillCpu_freqInfo, fillInfo_frequencies, prunedTable_eq_full (length.symm.trans zero)]

theorem initFreqsCpu_isSome {fuel : Nat} (fueled : 2 * maxStates < fuel)
    (prunable : min f.allowedStatesLength (fullTable frequencies).length = 0 ∨
      Prunable (fullTable frequencies).length
        (min f.allowedStatesLength (fullTable frequencies).length) f.allowedStates) :
    (initFreqsCpu fuel frequencies cpu f).isSome := by
  have length := fillCpu_allowedStatesLength frequencies cpu f
  unfold initFreqsCpu
  dsimp only
  split
  · rename_i some
    refine pruneStates_isSome (fillCpu_filled frequencies cpu f) (fillCpu_fits frequencies cpu f)
      fueled ?_
    rw [fillCpu_freqInfo, ← FreqInfo.length_frequencies, fillInfo_frequencies, length]
    exact prunable.resolve_left (by omega)
  · rfl

end Turn

/-! ### The documented effect -/

/-- A cpu has exactly the listed states of a table, in ascending order. -/
structure Selected (full : List Nat) (states : List Nat) (info : FreqInfo) : Prop where
  numStates : info.numStates = states.length
  ascending : info.frequencies.Pairwise (· < ·)
  listed : ∀ frequency, frequency ∈ info.frequencies ↔
    ∃ state ∈ states, full[state]? = some frequency

/-- The array of the module parameter after the user's list, the rest of it being zero. -/
def parameterArray (states : List Nat) (index : Nat) : Int := (states.getD index 0 : Nat)

theorem endsMarked_markedTable {full : List Nat} (someState : 0 < full.length)
    (allowedStates : Nat → Int) :
    Withdrawal.EndsMarked (markedTable full allowedStates) ↔
      full.length - 1 ∈ allowedMarks full.length allowedStates := by
  have last : (markedTable full allowedStates).getLast? =
      some (full[full.length - 1], decide (full.length - 1 ∈
        allowedMarks full.length allowedStates)) := by
    rw [List.getLast?_eq_getElem?, markedTable, List.length_mapIdx, List.getElem?_mapIdx,
      List.getElem?_eq_getElem (by omega)]
    rfl
  constructor
  · intro ends
    obtain ⟨front, split⟩ := List.getLast?_eq_some_iff.mp last
    exact of_decide_eq_true (ends front _ split)
  · rintro mark front row split
    rw [split, List.getLast?_concat] at last
    rw [Option.some.inj last]
    exact decide_eq_true mark

section List

variable {states : List Nat} {count : Nat} (distinct : states.Nodup)
  (within : ∀ state ∈ states, state < count)

section Within

include distinct within

theorem length_le_of_distinct : states.length ≤ count := by
  have subset : states.toFinset ⊆ Finset.range count := fun state member =>
    Finset.mem_range.mpr (within state (List.mem_toFinset.mp member))
  have small := Finset.card_le_card subset
  rwa [List.toFinset_card_of_nodup distinct, Finset.card_range] at small

omit distinct in
/-- The entries of such an array are not clamped. -/
theorem clampState_parameterArray (someState : 0 < count) (index : Nat) :
    clampState count (parameterArray states index) = parameterArray states index := by
  have small : states.getD index 0 < count := by
    rw [List.getD_eq_getElem?_getD]
    cases found : states[index]? with
    | none => exact someState
    | some state => exact within state (List.mem_of_getElem? found)
  unfold clampState parameterArray
  dsimp only
  rw [if_neg (by omega), if_neg (by omega)]

theorem toFinset_subset_allowedMarks :
    states.toFinset ⊆ allowedMarks count (parameterArray states) := by
  intro state member
  obtain ⟨index, small, rfl⟩ := List.mem_iff_getElem.mp (List.mem_toFinset.mp member)
  have fits := length_le_of_distinct distinct within
  refine mem_allowedMarks.mpr ⟨index, by omega, ?_⟩
  rw [clampState_parameterArray within (by omega), parameterArray,
    List.getD_eq_getElem?_getD, List.getElem?_eq_getElem small]
  rfl

/-- The marked states are the listed ones if state `0` is listed. -/
theorem allowedMarks_parameterArray (zero : 0 ∈ states) :
    allowedMarks count (parameterArray states) = states.toFinset := by
  refine Finset.Subset.antisymm (fun state mark => ?_)
    (toFinset_subset_allowedMarks distinct within)
  obtain ⟨index, small, rfl⟩ := mem_allowedMarks.mp mark
  rw [clampState_parameterArray within (within 0 zero), parameterArray, Int.toNat_natCast,
    List.mem_toFinset, List.getD_eq_getElem?_getD]
  cases found : states[index]? with
  | none => exact zero
  | some state => exact List.mem_of_getElem? found

/-- If no more states are marked than are listed, state `0` is listed. -/
theorem zero_mem_of_card (someState : 0 < count)
    (card : (allowedMarks count (parameterArray states)).card = states.length) :
    allowedMarks count (parameterArray states) = states.toFinset ∧ 0 ∈ states := by
  have fits := length_le_of_distinct distinct within
  have same : states.toFinset = allowedMarks count (parameterArray states) := by
    refine Finset.eq_of_subset_of_card_le (toFinset_subset_allowedMarks distinct within) ?_
    rw [card, List.toFinset_card_of_nodup distinct]
  refine ⟨same.symm, List.mem_toFinset.mp ?_⟩
  rcases Nat.eq_or_lt_of_le fits with whole | short
  · -- A list as long as the table names every state.
    have all : states.toFinset = Finset.range count := by
      refine Finset.eq_of_subset_of_card_le (fun state member =>
        Finset.mem_range.mpr (within state (List.mem_toFinset.mp member))) ?_
      rw [List.toFinset_card_of_nodup distinct, Finset.card_range, whole]
    rw [all]
    exact Finset.mem_range.mpr someState
  · -- The entry behind a shorter list is zero, and the marking loop looks at it.
    rw [same]
    refine mem_allowedMarks.mpr ⟨states.length, short, ?_⟩
    rw [clampState_parameterArray within someState, parameterArray,
      List.getD_eq_getElem?_getD, List.getElem?_eq_none le_rfl]
    rfl

end Within

variable {full : List Nat} {info : FreqInfo}

/-- A cpu has the listed states exactly if the list names the lowest and the highest state. -/
theorem selected_iff (distinct : states.Nodup) (within : ∀ state ∈ states, state < full.length)
    (someState : states ≠ []) (ascending : full.Pairwise (· < ·))
    (left : info.frequencies = prunedTable full (parameterArray states) states.length) :
    Selected full states info ↔ 0 ∈ states ∧ full.length - 1 ∈ states := by
  have fits := length_le_of_distinct distinct within
  have nonempty : 0 < full.length :=
    Nat.lt_of_lt_of_le (List.length_pos_iff.mpr someState) fits
  have enough : states.length ≤
      Withdrawal.marked (markedTable full (parameterArray states)) := by
    rw [marked_markedTable, ← List.toFinset_card_of_nodup distinct]
    exact Finset.card_le_card (toFinset_subset_allowedMarks distinct within)
  rw [prunedTable, min_eq_left fits] at left
  constructor
  · intro selected
    have length := selected.numStates
    rw [← FreqInfo.length_frequencies, left] at length
    obtain ⟨count, ends⟩ := Withdrawal.of_length_kept_eq enough length
    rw [marked_markedTable] at count
    obtain ⟨marks, zero⟩ := zero_mem_of_card distinct within nonempty count
    rw [endsMarked_markedTable nonempty, marks, List.mem_toFinset] at ends
    exact ⟨zero, ends⟩
  · rintro ⟨zero, last⟩
    have marks := allowedMarks_parameterArray distinct within zero
    have ends : Withdrawal.EndsMarked (markedTable full (parameterArray states)) := by
      rw [endsMarked_markedTable nonempty, marks, List.mem_toFinset]
      exact last
    have count : Withdrawal.marked (markedTable full (parameterArray states)) = states.length := by
      rw [marked_markedTable, marks, List.toFinset_card_of_nodup distinct]
    have just := left.trans (Withdrawal.kept_eq_filter ends (le_of_eq count))
    refine ⟨?_, ?_, fun frequency => ?_⟩
    · rw [← FreqInfo.length_frequencies, just, List.length_map, ← List.countP_eq_length_filter]
      exact count
    · have sublist := Withdrawal.kept_sublist states.length
        (markedTable full (parameterArray states))
      rw [← left, map_fst_markedTable] at sublist
      exact ascending.sublist sublist
    · rw [just, List.mem_map]
      constructor
      · rintro ⟨row, member, rfl⟩
        obtain ⟨inTable, mark⟩ := List.mem_filter.mp member
        obtain ⟨state, small, rfl⟩ := List.mem_mapIdx.mp inTable
        refine ⟨state, ?_, List.getElem?_eq_getElem small⟩
        rw [← List.mem_toFinset, ← marks]
        exact of_decide_eq_true mark
      · rintro ⟨state, listed, found⟩
        obtain ⟨small, rfl⟩ := List.getElem?_eq_some_iff.mp found
        refine ⟨(full[state], true), List.mem_filter.mpr ⟨?_, rfl⟩, rfl⟩
        refine List.mem_mapIdx.mpr ⟨state, small, ?_⟩
        rw [marks, decide_eq_true (List.mem_toFinset.mpr listed)]

/-- With tables that have all listed states, `init_freqs` returns, leaves the parameter alone, and
prunes every cpu by it. -/
theorem initFreqs_parameterArray {f : FreqModule} {frequencyTable : Nat → List Nat}
    {cpus fuel : Nat} (distinct : states.Nodup) (array : f.allowedStates = parameterArray states)
    (length : f.allowedStatesLength = states.length)
    (within : ∀ cpu, cpu < cpus → ∀ state ∈ states,
      state < (fullTable (frequencyTable cpu)).length)
    (someState : states ≠ []) (fueled : 2 * maxStates < fuel) :
    ∃ f', initFreqs fuel frequencyTable cpus f = some f' ∧
      f'.allowedStates = parameterArray states ∧ f'.allowedStatesLength = states.length ∧
      ∀ cpu, cpu < cpus → (f'.freqInfo cpu).frequencies =
        prunedTable (fullTable (frequencyTable cpu)) (parameterArray states) states.length := by
  induction cpus with
  | zero => exact ⟨f, rfl, array, length, fun _ small => absurd small (Nat.not_lt_zero _)⟩
  | succ cpus inductionHypothesis =>
    obtain ⟨before, returned, array, length, pruned⟩ :=
      inductionHypothesis fun cpu small => within cpu (Nat.lt_succ_of_lt small)
    have listed := within cpus (Nat.lt_succ_self cpus)
    have fits := length_le_of_distinct distinct listed
    have positive := List.length_pos_iff.mpr someState
    have stays : min before.allowedStatesLength (fullTable (frequencyTable cpus)).length =
        states.length := by
      rw [length, min_eq_left fits]
    have returns : (initFreqsCpu fuel (frequencyTable cpus) cpus before).isSome := by
      refine initFreqsCpu_isSome fueled (Or.inr ?_)
      rw [stays, array]
      refine Or.inl ?_
      rw [← List.toFinset_card_of_nodup distinct]
      exact Finset.card_le_card (toFinset_subset_allowedMarks distinct listed)
    obtain ⟨f', turned⟩ := Option.isSome_iff_exists.mp returns
    have made := initFreqsCpu_turn turned
    have kept := made.length.trans stays
    refine ⟨f', ?_, ?_, kept, fun cpu small => ?_⟩
    · rw [initFreqs, returned, Option.bind_some, turned]
    · rw [made.allowedStates, if_neg (by omega), array]
      funext index
      unfold clampBelow
      split
      · exact clampState_parameterArray listed (by omega) index
      · rfl
    · by_cases here : cpu = cpus
      · rw [here, made.frequencies, array, length]
      · rw [made.others cpu here]
        exact pruned cpu (by omega)

end List

theorem fullTable_ascending {frequencies : List Nat} (distinct : (validEntries frequencies).Nodup) :
    (fullTable frequencies).Pairwise (· < ·) := by
  have nodup : (fullTable frequencies).Nodup :=
    (List.perm_insertionSort _ _).nodup_iff.mpr (distinct.sublist (List.take_sublist _ _))
  exact ((List.pairwise_insertionSort _ _).and nodup).imp fun both => lt_of_le_of_ne both.1 both.2

/-- For every family of tables with at most as many valid entries as there is room for and distinct
frequencies, and every list of distinct states that each table has: `init_freqs` returns, and a cpu
is left with exactly the listed states exactly if the list names its lowest and its highest
state. -/
theorem allowed_states_selected_iff {f : FreqModule} {frequencyTable : Nat → List Nat}
    {cpus fuel : Nat} {states : List Nat} (distinct : states.Nodup) (someState : states ≠ [])
    (array : f.allowedStates = parameterArray states)
    (length : f.allowedStatesLength = states.length)
    (room : ∀ cpu, cpu < cpus → (validEntries (frequencyTable cpu)).length ≤ maxStates)
    (frequencies : ∀ cpu, cpu < cpus → (validEntries (frequencyTable cpu)).Nodup)
    (within : ∀ cpu, cpu < cpus → ∀ state ∈ states,
      state < (validEntries (frequencyTable cpu)).length)
    (fueled : 2 * maxStates < fuel) :
    ∃ f', initFreqs fuel frequencyTable cpus f = some f' ∧ ∀ cpu, cpu < cpus →
      (Selected (fullTable (frequencyTable cpu)) states (f'.freqInfo cpu) ↔
        0 ∈ states ∧ (validEntries (frequencyTable cpu)).length - 1 ∈ states) := by
  have whole : ∀ cpu, cpu < cpus → (fullTable (frequencyTable cpu)).length =
      (validEntries (frequencyTable cpu)).length := fun cpu online => by
    rw [length_fullTable, min_eq_right (room cpu online)]
  have listed : ∀ cpu, cpu < cpus → ∀ state ∈ states,
      state < (fullTable (frequencyTable cpu)).length := fun cpu online => by
    rw [whole cpu online]
    exact within cpu online
  obtain ⟨f', returned, _, _, pruned⟩ :=
    initFreqs_parameterArray distinct array length listed someState fueled
  refine ⟨f', returned, fun cpu online => ?_⟩
  rw [← whole cpu online]
  exact selected_iff distinct (listed cpu online) someState
    (fullTable_ascending (frequencies cpu online)) (pruned cpu online)

/-- The module before `init_freqs`, with a list for `allowed_states`. -/
def givenModule (states : List Nat) : FreqModule :=
  { unreadModule with
    allowedStates := parameterArray states, allowedStatesLength := states.length }

/-- Five states of which the lowest two and the highest are allowed. -/
theorem allowed_states_selected_iff_three_of_five :
    ∃ f', initFreqs 17 (fun _ => [2200, 2000, 1700, 1400, 1100]) 1 (givenModule [0, 1, 4]) =
        some f' ∧
      Selected [1100, 1400, 1700, 2000, 2200] [0, 1, 4] (f'.freqInfo 0) := by
  have full : fullTable [2200, 2000, 1700, 1400, 1100] = [1100, 1400, 1700, 2000, 2200] := by
    decide
  have run : ∃ f', initFreqs 17 (fun _ => [2200, 2000, 1700, 1400, 1100]) 1
        (givenModule [0, 1, 4]) = some f' ∧ ∀ cpu, cpu < 1 →
      (Selected (fullTable [2200, 2000, 1700, 1400, 1100]) [0, 1, 4] (f'.freqInfo cpu) ↔
        0 ∈ [0, 1, 4] ∧ (validEntries [2200, 2000, 1700, 1400, 1100]).length - 1 ∈ [0, 1, 4]) :=
    allowed_states_selected_iff (by decide) (by decide) rfl rfl (fun _ _ => by decide)
      (fun _ _ => by decide) (fun _ _ => by decide) (Nat.lt_succ_self _)
  obtain ⟨f', returned, selects⟩ := run
  refine ⟨f', returned, ?_⟩
  rw [← full]
  exact (selects 0 Nat.one_pos).mpr (by decide)

/-- Two states of which only the higher one is allowed: both are left. -/
theorem allowed_states_not_selected :
    ∃ f', initFreqs 17 (fun _ => [1100, 1400]) 1 (givenModule [1]) = some f' ∧
      (f'.freqInfo 0).numStates = 2 ∧
      ¬ Selected (fullTable [1100, 1400]) [1] (f'.freqInfo 0) := by
  have run : ∃ f', initFreqs 17 (fun _ => [1100, 1400]) 1 (givenModule [1]) = some f' ∧
      f'.allowedStates = parameterArray [1] ∧ f'.allowedStatesLength = 1 ∧ ∀ cpu, cpu < 1 →
      (f'.freqInfo cpu).frequencies =
        prunedTable (fullTable [1100, 1400]) (parameterArray [1]) 1 :=
    initFreqs_parameterArray (by decide) rfl rfl (fun _ _ => by decide) (by decide)
      (Nat.lt_succ_self _)
  obtain ⟨f', returned, _, _, pruned⟩ := run
  have both : (f'.freqInfo 0).numStates = 2 := by
    rw [← FreqInfo.length_frequencies, pruned 0 Nat.one_pos]
    decide
  refine ⟨f', returned, both, fun selected => ?_⟩
  have one := selected.numStates
  rw [both] at one
  cases one

end Seeker
