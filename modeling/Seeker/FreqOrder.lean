/-
This file says what `init_freqs` makes of the kernel's table of a cpu before it
prunes: the valid entries, as many as there is room for, in ascending order.

The loop over the kernel's table is a fold over those entries, each of which it
appends to the module's table. The sort then puts them in order. So without the
parameter `allowed_states` a larger performance number never stands for a lower
frequency, and to run `init_freqs` once more changes nothing at all.
-/
import Seeker.FreqTable
import Seeker.Library.ExchangeSort

namespace Seeker

/-! ### Reading the kernel's table -/

/-- The valid entries of a table of the kernel. -/
def validEntries (frequencies : List Nat) : List Nat :=
  frequencies.filter fun frequency => decide (frequency ≠ cpufreqEntryInvalid)

/-- The frequencies of the states of a cpu, by performance number. -/
def FreqInfo.frequencies (info : FreqInfo) : List Nat :=
  ExchangeSort.cells info.numStates info.table

/-- The frequencies a cpu is given before states are withdrawn. -/
def fullTable (frequencies : List Nat) : List Nat :=
  ((validEntries frequencies).take maxStates).insertionSort (· ≤ ·)

/-- The writes for one valid entry. -/
def FreqInfo.append (info : FreqInfo) (frequency : Nat) : FreqInfo :=
  { info with
    table := Function.update info.table info.numStates frequency
    validEntry := Function.update info.validEntry info.numStates 1
    numStates := info.numStates + 1 }

/-- The loop appends the valid entries while there is room. -/
theorem readTable_eq (frequencies : List Nat) (info : FreqInfo) :
    readTable frequencies info =
      ((validEntries frequencies).take (maxStates - info.numStates)).foldl FreqInfo.append
        info := by
  induction frequencies generalizing info with
  | nil => rw [validEntries, List.filter_nil, List.take_nil, List.foldl_nil, readTable]
  | cons frequency rest inductionHypothesis =>
    unfold readTable validEntries
    split
    · rename_i invalid
      rw [inductionHypothesis, validEntries, List.filter_cons_of_neg (by simp [invalid])]
    · rename_i valid
      rw [List.filter_cons_of_pos (by simp [valid])]
      split
      · rename_i full
        rw [Nat.sub_eq_zero_of_le full, List.take_zero, List.foldl_nil]
      · rename_i room
        have left : maxStates - info.numStates = maxStates - (info.numStates + 1) + 1 := by omega
        rw [left, List.take_succ_cons, List.foldl_cons]
        exact inductionHypothesis (info.append frequency)

section Appended

variable (entries : List Nat) (info : FreqInfo)

@[simp]
theorem numStates_appended :
    (entries.foldl FreqInfo.append info).numStates = info.numStates + entries.length := by
  induction entries generalizing info with
  | nil => rfl
  | cons frequency rest inductionHypothesis =>
    rw [List.foldl_cons, inductionHypothesis, List.length_cons]
    show info.numStates + 1 + rest.length = _
    omega

/-- The cells outside the stretch that is appended keep what they hold. -/
theorem table_appended_of_not {cell : Nat}
    (outside : cell < info.numStates ∨ info.numStates + entries.length ≤ cell) :
    (entries.foldl FreqInfo.append info).table cell = info.table cell := by
  induction entries generalizing info with
  | nil => rfl
  | cons frequency rest inductionHypothesis =>
    rw [List.length_cons] at outside
    rw [List.foldl_cons, inductionHypothesis]
    · exact Function.update_of_ne (by omega) ..
    · show cell < info.numStates + 1 ∨ info.numStates + 1 + rest.length ≤ cell
      omega

theorem validEntry_appended (cell : Nat) :
    (entries.foldl FreqInfo.append info).validEntry cell =
      if info.numStates ≤ cell ∧ cell < info.numStates + entries.length then 1
      else info.validEntry cell := by
  induction entries generalizing info with
  | nil => exact (if_neg (by simp)).symm
  | cons frequency rest inductionHypothesis =>
    rw [List.foldl_cons, inductionHypothesis, List.length_cons]
    show (if info.numStates + 1 ≤ cell ∧ cell < info.numStates + 1 + rest.length then 1
      else Function.update info.validEntry info.numStates 1 cell) = _
    by_cases here : cell = info.numStates
    · rw [here, Function.update_self, if_neg (by omega), if_pos (by omega)]
    · rw [Function.update_of_ne here]
      exact if_congr (by omega) rfl rfl

theorem frequencies_append (frequency : Nat) :
    (info.append frequency).frequencies = info.frequencies ++ [frequency] := by
  show (List.range (info.numStates + 1)).map (Function.update info.table info.numStates frequency) =
    (List.range info.numStates).map info.table ++ [frequency]
  rw [List.range_succ, List.map_append, List.map_singleton, Function.update_self]
  congr 1
  refine List.map_congr_left fun cell member => ?_
  exact Function.update_of_ne (Nat.ne_of_lt (List.mem_range.mp member)) ..

theorem frequencies_appended :
    (entries.foldl FreqInfo.append info).frequencies = info.frequencies ++ entries := by
  induction entries generalizing info with
  | nil => rw [List.foldl_nil, List.append_nil]
  | cons frequency rest inductionHypothesis =>
    rw [List.foldl_cons, inductionHypothesis, frequencies_append, List.append_assoc,
      List.singleton_append]

/-- Appending touches the table, its marks and its length only. -/
theorem appended_frame :
    (entries.foldl FreqInfo.append info).cpu = info.cpu ∧
      (entries.foldl FreqInfo.append info).curFreq = info.curFreq ∧
      (entries.foldl FreqInfo.append info).policy = info.policy := by
  induction entries generalizing info with
  | nil => exact ⟨rfl, rfl, rfl⟩
  | cons frequency rest inductionHypothesis => exact inductionHypothesis (info.append frequency)

end Appended

/-! ### The table before pruning -/

section Filled

variable (frequencies : List Nat) (cpu : Nat) (info : FreqInfo)

/-- The loop over the kernel's table, started with an empty table. -/
theorem readTable_empty (empty : info.numStates = 0) :
    readTable frequencies info =
      ((validEntries frequencies).take maxStates).foldl FreqInfo.append info := by
  rw [readTable_eq, empty, Nat.sub_zero]

theorem fillInfo_numStates :
    (fillInfo frequencies cpu info).numStates =
      ((validEntries frequencies).take maxStates).length := by
  show (readTable frequencies _).numStates = _
  rw [readTable_empty frequencies _ rfl, numStates_appended, Nat.zero_add]

/-- The states of a cpu are the valid entries in ascending order. -/
theorem fillInfo_frequencies :
    (fillInfo frequencies cpu info).frequencies = fullTable frequencies := by
  refine (ExchangeSort.cells_sort (readTable frequencies _).numStates _).trans ?_
  show (FreqInfo.frequencies (readTable frequencies _)).insertionSort _ = _
  rw [readTable_empty frequencies _ rfl, frequencies_appended]
  rfl

theorem fillInfo_table_of_le {cell : Nat}
    (past : ((validEntries frequencies).take maxStates).length ≤ cell) :
    (fillInfo frequencies cpu info).table cell = info.table cell := by
  show ExchangeSort.sort _ _ cell = _
  rw [readTable_empty frequencies _ rfl, ExchangeSort.sort_apply_of_le, table_appended_of_not]
  · exact Or.inr (by rw [Nat.zero_add]; exact past)
  · rw [numStates_appended, Nat.zero_add]
    exact past

/-- Below the number of states the entries are valid, and from there to the end of the table they
are not. -/
theorem fillInfo_validEntry_apply (cell : Nat) :
    (fillInfo frequencies cpu info).validEntry cell =
      if cell < ((validEntries frequencies).take maxStates).length then 1
      else if cell < maxStates then 0 else info.validEntry cell := by
  have short : ((validEntries frequencies).take maxStates).length ≤ maxStates :=
    List.length_take_le ..
  show Loops.fill _ maxStates (fun _ => 0) _ cell = _
  rw [Loops.fill_apply, readTable_empty frequencies _ rfl, numStates_appended,
    validEntry_appended, Nat.zero_add]
  dsimp only
  split_ifs <;> first | rfl | omega

theorem fillInfo_frame :
    (fillInfo frequencies cpu info).cpu = cpu ∧
      (fillInfo frequencies cpu info).curFreq = uintMax ∧
      (fillInfo frequencies cpu info).policy = info.policy := by
  show (readTable frequencies _).cpu = _ ∧ (readTable frequencies _).curFreq = _ ∧
    (readTable frequencies _).policy = _
  rw [readTable_empty frequencies _ rfl]
  exact appended_frame _ _

attribute [ext] FreqInfo

/-- To fill in what has been filled in changes nothing. -/
theorem fillInfo_fillInfo :
    fillInfo frequencies cpu (fillInfo frequencies cpu info) = fillInfo frequencies cpu info := by
  have sameCells := (fillInfo_frequencies frequencies cpu (fillInfo frequencies cpu info)).trans
    (fillInfo_frequencies frequencies cpu info).symm
  unfold FreqInfo.frequencies at sameCells
  rw [fillInfo_numStates, fillInfo_numStates, ExchangeSort.cells_inj] at sameCells
  have again := fillInfo_frame frequencies cpu (fillInfo frequencies cpu info)
  have once := fillInfo_frame frequencies cpu info
  ext cell
  · rw [again.1, once.1]
  · rw [again.2.1, once.2.1]
  · rw [fillInfo_numStates, fillInfo_numStates]
  · by_cases small : cell < ((validEntries frequencies).take maxStates).length
    · exact sameCells cell small
    · exact fillInfo_table_of_le frequencies cpu _ (not_lt.mp small)
  · rw [fillInfo_validEntry_apply, fillInfo_validEntry_apply]
    split_ifs <;> rfl
  · rw [again.2.2]

end Filled

/-! ### Without the parameter -/

section Unpruned

variable {f : FreqModule} (unset : f.allowedStatesLength = 0)
include unset

/-- A cpu whose states are not pruned. -/
theorem initFreqsCpu_unset (fuel : Nat) (frequencies : List Nat) (cpu : Nat) :
    initFreqsCpu fuel frequencies cpu f =
      some (f.setInfo cpu (fillInfo frequencies cpu (f.freqInfo cpu))) := by
  have kept : f.fillCpu frequencies cpu =
      f.setInfo cpu (fillInfo frequencies cpu (f.freqInfo cpu)) := by
    show FreqModule.truncate _ (f.setInfo cpu _) = _
    unfold FreqModule.truncate
    rw [show (f.setInfo cpu _).allowedStatesLength = 0 from unset, if_neg (Nat.not_lt_zero _)]
    rw [← unset]
    rfl
  have none : ¬ (f.fillCpu frequencies cpu).allowedStatesLength > 0 := by
    rw [kept]
    show ¬ f.allowedStatesLength > 0
    omega
  unfold initFreqsCpu
  rw [if_neg none, kept]

/-- Without the parameter `init_freqs` fills in every cpu and does nothing else. -/
theorem initFreqs_unset (fuel : Nat) (frequencyTable : Nat → List Nat) (cpus : Nat) :
    initFreqs fuel frequencyTable cpus f = some
      { f with
        freqInfo := fun cpu =>
          if cpu < cpus then fillInfo (frequencyTable cpu) cpu (f.freqInfo cpu)
          else f.freqInfo cpu } := by
  induction cpus with
  | zero => rfl
  | succ cpus inductionHypothesis =>
    unfold initFreqs
    rw [inductionHypothesis, Option.bind_some, initFreqsCpu_unset (by exact unset)]
    unfold FreqModule.setInfo
    dsimp only
    rw [if_neg (lt_irrefl cpus)]
    congr 2
    funext cpu
    by_cases here : cpu = cpus
    · rw [here, Function.update_self, if_pos (Nat.lt_succ_self cpus)]
    · rw [Function.update_of_ne here]
      exact if_congr (by omega) rfl rfl

end Unpruned

/-- Without the parameter `allowed_states`, `init_freqs` gives every cpu its first valid entries,
as many as there is room for, in ascending order; and a second call changes nothing. -/
theorem init_freqs_ordered {f : FreqModule} (unset : f.allowedStatesLength = 0) (fuel : Nat)
    (frequencyTable : Nat → List Nat) (cpus : Nat) :
    ∃ f', initFreqs fuel frequencyTable cpus f = some f' ∧
      (∀ cpu, cpu < cpus →
        (f'.freqInfo cpu).numStates = min maxStates (validEntries (frequencyTable cpu)).length ∧
        (f'.freqInfo cpu).frequencies.Perm
          ((validEntries (frequencyTable cpu)).take (f'.freqInfo cpu).numStates) ∧
        ∀ low high, low ≤ high → high < (f'.freqInfo cpu).numStates →
          (f'.freqInfo cpu).table low ≤ (f'.freqInfo cpu).table high) ∧
      initFreqs fuel frequencyTable cpus f' = some f' := by
  refine ⟨_, initFreqs_unset unset fuel frequencyTable cpus, ?_, ?_⟩
  · intro cpu online
    dsimp only
    rw [if_pos online, fillInfo_numStates, List.length_take]
    refine ⟨rfl, ?_, ?_⟩
    · rw [fillInfo_frequencies, ← List.take_eq_take_min]
      exact List.perm_insertionSort _ _
    · intro low high ordered small
      have inTable : high < (readTable (frequencyTable cpu)
          { f.freqInfo cpu with cpu := cpu, curFreq := uintMax, numStates := 0 }).numStates := by
        rw [readTable_empty _ _ rfl, numStates_appended, Nat.zero_add, List.length_take]
        exact small
      exact ExchangeSort.sort_le_sort _ ordered inTable
  · rw [initFreqs_unset (by exact unset)]
    congr 2
    funext cpu
    dsimp only
    by_cases online : cpu < cpus
    · rw [if_pos online, if_pos online, fillInfo_fillInfo]
    · rw [if_neg online, if_neg online]

/-- Three valid entries and an invalid one. -/
theorem init_freqs_ordered_three_states :
    ∃ f', initFreqs 0 (fun _ => [2200, cpufreqEntryInvalid, 1100, 1700]) 1 unreadModule = some f' ∧
      (f'.freqInfo 0).numStates = 3 := by
  obtain ⟨f', returned, states, _⟩ := init_freqs_ordered (f := unreadModule) rfl 0
    (fun _ => [2200, cpufreqEntryInvalid, 1100, 1700]) 1
  refine ⟨f', returned, ?_⟩
  rw [(states 0 Nat.one_pos).1]
  decide

end Seeker
