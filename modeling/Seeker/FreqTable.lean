/-
This file embeds `init_freqs`: the table of frequencies of each cpu, read from the
kernel's, sorted, and cut to the states the user has allowed.

The loop of `prune_states` that withdraws the states that are not allowed steps back
whenever it withdraws one, and ends when enough marked states have come up. It need
not end, so the file runs it with fuel: the functions return `none` when the fuel
does not suffice. The file proves that a run that ends has withdrawn no more states
than there were.
-/
import Seeker.Globals
import Seeker.Cpufreq

namespace Seeker

/-! ### The module's globals -/

/-- `freq_info` of every cpu and the module parameter `allowed_states`, which `init_freqs`
writes too. -/
structure FreqModule where
  freqInfo : Nat → FreqInfo
  allowedStates : Nat → Int
  allowedStatesLength : Nat

/-- The module before `init_freqs`, with no parameter given. -/
def unreadModule : FreqModule where
  freqInfo cpu :=
    { cpu := cpu, curFreq := 0, numStates := 0, table := fun _ => 0, validEntry := fun _ => 0,
      policy := none }
  allowedStates _ := 0
  allowedStatesLength := 0

/-- `CPUFREQ_ENTRY_INVALID`. -/
def cpufreqEntryInvalid : Nat := 2 ^ 32 - 1

/-- A write to the information of one cpu. -/
def FreqModule.setInfo (cpu : Nat) (info : FreqInfo) (f : FreqModule) : FreqModule :=
  { f with freqInfo := Function.update f.freqInfo cpu info }

@[simp]
theorem FreqModule.setInfo_self (f : FreqModule) (cpu : Nat) (info : FreqInfo) :
    (f.setInfo cpu info).freqInfo cpu = info :=
  Function.update_self ..

theorem FreqModule.setInfo_of_ne {cpu other : Nat} (different : other ≠ cpu) (info : FreqInfo)
    (f : FreqModule) : (f.setInfo cpu info).freqInfo other = f.freqInfo other :=
  Function.update_of_ne different ..

/-! ### The table of one cpu -/

/-- The loop of `init_freqs` over the kernel's table, which is given up to
`CPUFREQ_TABLE_END`. -/
def readTable : List Nat → FreqInfo → FreqInfo
  | [], info => info
  | frequency :: rest, info =>
    if frequency = cpufreqEntryInvalid then readTable rest info
    else if info.numStates ≥ maxStates then info
    else
      readTable rest
        { info with
          table := Function.update info.table info.numStates frequency
          validEntry := Function.update info.validEntry info.numStates 1
          numStates := info.numStates + 1 }

/-- One turn of the inner loop of `sort_table`. -/
def sortStep (index : Nat) (table : Nat → Nat) : Nat → Nat :=
  if table index ≤ table (index + 1) then table
  else
    Function.update (Function.update table index (table (index + 1))) (index + 1) (table index)

/-- `sort_table`. -/
def sortTable (table : Nat → Nat) (len : Nat) : Nat → Nat :=
  Loops.forRange (len - 1) (fun _ table => Loops.forRange (len - 1) sortStep table) table

/-! ### Pruning -/

/-- One turn of the loop of `prune_states` that clamps an entry of `allowed_states` and marks its
state. -/
def markAllowed (numStates index : Nat) (marks : (Nat → Int) × (Nat → Nat)) :
    (Nat → Int) × (Nat → Nat) :=
  let allowed := if marks.1 index < 0 then 0 else marks.1 index
  let allowed := if allowed ≥ numStates then (numStates : Int) - 1 else allowed
  (Function.update marks.1 index allowed, Function.update marks.2 allowed.toNat 2)

/-- The variables of the second loop of `prune_states`. -/
structure Pruning where
  index : Nat
  numStates : Nat
  table : Nat → Nat
  validEntry : Nat → Nat

/-- `for (j = i; j < MAX_STATES - 1; j++) row[j] = row[j + 1]`. -/
def shiftDown (start : Nat) (row : Nat → Nat) : Nat → Nat :=
  Loops.forRange (maxStates - 1 - start)
    (fun turn row => Function.update row (start + turn) (row (start + turn + 1))) row

/-- One turn of the second loop. A state that is not marked is withdrawn, and `i--` undoes the
`i++` of the loop. -/
def pruneStep (p : Pruning) : Pruning :=
  if p.validEntry p.index = 2 then { p with index := p.index + 1 }
  else
    { p with
      table := shiftDown p.index p.table
      validEntry := shiftDown p.index p.validEntry
      numStates := (p.numStates + uintMax) % 2 ^ 32 }

/-- The second loop of `prune_states`. -/
def pruneLoop (allowedStatesLength : Nat) : Nat → Pruning → Option Pruning
  | 0, _ => none
  | fuel + 1, p =>
    if p.index < allowedStatesLength then pruneLoop allowedStatesLength fuel (pruneStep p)
    else some p

/-- `prune_states`. -/
def pruneStates (fuel cpu : Nat) (f : FreqModule) : Option FreqModule :=
  let info := f.freqInfo cpu
  let marks := Loops.forRange info.numStates (markAllowed info.numStates)
    (f.allowedStates, info.validEntry)
  (pruneLoop f.allowedStatesLength fuel
    { index := 0, numStates := info.numStates, table := info.table, validEntry := marks.2 }).map
    fun p =>
      { f with allowedStates := marks.1 }.setInfo cpu
        { info with numStates := p.numStates, table := p.table, validEntry := p.validEntry }

/-! ### All cpus -/

/-- What the loop of `init_freqs` writes to the information of a cpu before it prunes. -/
def fillInfo (frequencies : List Nat) (cpu : Nat) (info : FreqInfo) : FreqInfo :=
  let info := readTable frequencies { info with cpu := cpu, curFreq := uintMax, numStates := 0 }
  { info with
    validEntry := Loops.fill info.numStates maxStates (fun _ => 0) info.validEntry
    table := sortTable info.table info.numStates }

/-- The truncation of `allowed_states` to the states of a cpu. -/
def FreqModule.truncate (numStates : Nat) (f : FreqModule) : FreqModule :=
  { f with
    allowedStatesLength :=
      if f.allowedStatesLength > numStates then numStates else f.allowedStatesLength }

/-- One turn of the loop of `init_freqs` up to the truncation. -/
def FreqModule.fillCpu (frequencies : List Nat) (cpu : Nat) (f : FreqModule) : FreqModule :=
  let info := fillInfo frequencies cpu (f.freqInfo cpu)
  (f.setInfo cpu info).truncate info.numStates

/-- One turn of the loop of `init_freqs`. -/
def initFreqsCpu (fuel : Nat) (frequencies : List Nat) (cpu : Nat) (f : FreqModule) :
    Option FreqModule :=
  let f := f.fillCpu frequencies cpu
  if f.allowedStatesLength > 0 then pruneStates fuel cpu f else some f

/-- `init_freqs` on a number of online cpus: `frequencyTable` is what the kernel's
`cpufreq_frequency_get_table` answers for a cpu. -/
def initFreqs (fuel : Nat) (frequencyTable : Nat → List Nat) : Nat → FreqModule →
    Option FreqModule
  | 0, f => some f
  | cpu + 1, f =>
    (initFreqs fuel frequencyTable cpu f).bind (initFreqsCpu fuel (frequencyTable cpu) cpu)

/-! ### What a run of `init_freqs` that ends leaves behind -/

theorem readTable_numStates_le (frequencies : List Nat) {info : FreqInfo}
    (small : info.numStates ≤ maxStates) :
    (readTable frequencies info).numStates ≤ maxStates := by
  induction frequencies generalizing info with
  | nil => exact small
  | cons frequency rest inductionHypothesis =>
    unfold readTable
    split
    · exact inductionHypothesis small
    · split
      · exact small
      · rename_i notFull
        exact inductionHypothesis (Nat.lt_of_not_le notFull)

/-- The loop over the kernel's table fills the table and nothing else. -/
theorem readTable_frame (frequencies : List Nat) (info : FreqInfo) :
    (readTable frequencies info).curFreq = info.curFreq ∧
      (readTable frequencies info).policy = info.policy := by
  induction frequencies generalizing info with
  | nil => exact ⟨rfl, rfl⟩
  | cons frequency rest inductionHypothesis =>
    unfold readTable
    split
    · exact inductionHypothesis info
    · split
      · exact ⟨rfl, rfl⟩
      · exact inductionHypothesis _

theorem shiftDown_apply (start : Nat) (row : Nat → Nat) (cell : Nat) :
    shiftDown start row cell =
      if start ≤ cell ∧ cell < maxStates - 1 then row (cell + 1) else row cell := by
  have shifted : shiftDown start row cell =
      if start ≤ cell ∧ cell < start + (maxStates - 1 - start) then row (cell + 1)
      else row cell := by
    refine (Loops.forRange_induction (fun count (current : Nat → Nat) => ∀ cell, current cell =
      if start ≤ cell ∧ cell < start + count then row (cell + 1) else row cell) ?_ ?_) cell
    · intro cell
      rw [if_neg (by omega)]
    · intro turn _ current written cell
      by_cases here : cell = start + turn
      · rw [here, Function.update_self, written, if_neg (by omega), if_pos (by omega)]
      · rw [Function.update_of_ne here, written]
        exact if_congr (by omega) rfl rfl
  rw [shifted]
  exact if_congr (by omega) rfl rfl

/-- The marks lie below the number of states. -/
theorem markAllowed_validEntry {numStates : Nat} (bound : Nat)
    (marks : (Nat → Int) × (Nat → Nat)) {cell : Nat} (past : numStates ≤ cell)
    (within : bound ≤ numStates) :
    (Loops.forRange bound (markAllowed numStates) marks).2 cell = marks.2 cell := by
  refine Loops.forRange_induction
    (fun _ (current : (Nat → Int) × (Nat → Nat)) => current.2 cell = marks.2 cell) rfl ?_
  intro index small current kept
  unfold markAllowed
  dsimp only
  rw [Function.update_of_ne ?_, kept]
  split_ifs <;> omega

/-- The entries from the number of states on repeat the last one. -/
def Pruning.Padded (p : Pruning) : Prop :=
  p.numStates ≤ maxStates ∧ ∀ cell, p.numStates ≤ cell → cell < maxStates →
    p.validEntry cell = p.validEntry (maxStates - 1)

/-- The step withdraws a state that is not marked. -/
theorem pruneStep_unmarked {p : Pruning} (small : p.numStates ≤ maxStates)
    (inTable : p.index < p.numStates) (unmarked : p.validEntry p.index ≠ 2) :
    pruneStep p =
      { p with
        table := shiftDown p.index p.table
        validEntry := shiftDown p.index p.validEntry
        numStates := p.numStates - 1 } := by
  have fewer : (p.numStates + uintMax) % 2 ^ 32 = p.numStates - 1 := by
    simp only [uintMax, maxStates] at *
    omega
  rw [← fewer]
  exact if_neg unmarked

/-- The entries that move down leave the end padded. -/
theorem Pruning.Padded.withdraw {p : Pruning} (padded : p.Padded)
    (inTable : p.index < p.numStates) :
    Pruning.Padded
      { p with
        table := shiftDown p.index p.table
        validEntry := shiftDown p.index p.validEntry
        numStates := p.numStates - 1 } := by
  refine ⟨(Nat.sub_le _ _).trans padded.1, fun cell from_last below => ?_⟩
  have from_last : p.numStates - 1 ≤ cell := from_last
  show shiftDown p.index p.validEntry cell = shiftDown p.index p.validEntry (maxStates - 1)
  rw [shiftDown_apply, shiftDown_apply, if_neg (by omega : ¬ (p.index ≤ maxStates - 1 ∧
    maxStates - 1 < maxStates - 1))]
  split
  · exact padded.2 (cell + 1) (by omega) (by omega)
  · have last : cell = maxStates - 1 := by omega
    rw [last]

/-- Where no mark is left the loop does not end. -/
theorem pruneLoop_stuck {length : Nat} (fuel : Nat) {p : Pruning} (more : p.index < length)
    (stuck : ∀ cell, p.index ≤ cell → cell < maxStates → p.validEntry cell ≠ 2)
    (inRow : p.index < maxStates) : pruneLoop length fuel p = none := by
  induction fuel generalizing p with
  | zero => rfl
  | succ fuel inductionHypothesis =>
    unfold pruneLoop
    rw [if_pos more]
    have withdrawn : pruneStep p =
        { p with
          table := shiftDown p.index p.table
          validEntry := shiftDown p.index p.validEntry
          numStates := (p.numStates + uintMax) % 2 ^ 32 } :=
      if_neg (stuck p.index le_rfl inRow)
    rw [withdrawn]
    refine inductionHypothesis more (fun cell from_index below => ?_) inRow
    show shiftDown p.index p.validEntry cell ≠ 2
    rw [shiftDown_apply]
    split
    · exact stuck (cell + 1) (by omega) (by omega)
    · exact stuck cell from_index below

/-- A run of the loop that ends has withdrawn no more states than there were. -/
theorem pruneLoop_numStates_le {length : Nat} (fits : length ≤ maxStates) (fuel : Nat)
    {p q : Pruning} (padded : p.Padded) (returned : pruneLoop length fuel p = some q) :
    q.numStates ≤ p.numStates := by
  induction fuel generalizing p with
  | zero => cases returned
  | succ fuel inductionHypothesis =>
    by_cases more : p.index < length
    · have again : pruneLoop length (fuel + 1) p = pruneLoop length fuel (pruneStep p) :=
        if_pos more
      rw [again] at returned
      by_cases marked : p.validEntry p.index = 2
      · have passed : pruneStep p = { p with index := p.index + 1 } := if_pos marked
        have moved : Pruning.Padded { p with index := p.index + 1 } := padded
        rw [passed] at returned
        have fewer := inductionHypothesis moved returned
        exact fewer
      · have inTable : p.index < p.numStates := by
          -- Otherwise all entries to come repeat one that is not marked.
          by_contra past
          have last := padded.2 p.index (by omega) (by omega)
          have endless := pruneLoop_stuck (fuel + 1) more (fun cell from_index below => by
            rw [padded.2 cell (by omega) below, ← last]
            exact marked) (by omega)
          rw [again, returned] at endless
          cases endless
        rw [pruneStep_unmarked padded.1 inTable marked] at returned
        have fewer := inductionHypothesis (padded.withdraw inTable) returned
        exact fewer.trans (Nat.sub_le _ _)
    · have ended : pruneLoop length (fuel + 1) p = some p := if_neg more
      rw [ended] at returned
      rw [Option.some.inj returned]

/-- What `init_freqs` leaves in the information of a cpu: the index it is at is not known, and the
table has no more states than it has room for. -/
structure FreqInfo.Unknown (info : FreqInfo) : Prop where
  curFreq : info.curFreq = uintMax
  numStates : info.numStates ≤ maxStates

theorem fillInfo_unknown (frequencies : List Nat) (cpu : Nat) (info : FreqInfo) :
    (fillInfo frequencies cpu info).Unknown where
  curFreq := (readTable_frame frequencies _).1
  numStates := readTable_numStates_le frequencies (Nat.zero_le _)

/-- The entries past the kernel's table are not valid. -/
theorem fillInfo_validEntry (frequencies : List Nat) (cpu : Nat) (info : FreqInfo) {cell : Nat}
    (past : (fillInfo frequencies cpu info).numStates ≤ cell) (below : cell < maxStates) :
    (fillInfo frequencies cpu info).validEntry cell = 0 := by
  show Loops.fill _ maxStates (fun _ => 0) _ cell = 0
  rw [Loops.fill_apply, if_pos ⟨past, below⟩]

/-- Pruning leaves the index of its cpu unknown, and the other cpus alone. -/
theorem pruneStates_unknown {fuel cpu : Nat} {f f' : FreqModule}
    (unknown : (f.freqInfo cpu).Unknown) (fits : f.allowedStatesLength ≤ maxStates)
    (filled : ∀ cell, (f.freqInfo cpu).numStates ≤ cell → cell < maxStates →
      (f.freqInfo cpu).validEntry cell = 0)
    (returned : pruneStates fuel cpu f = some f') :
    (f'.freqInfo cpu).Unknown ∧ ∀ other, other ≠ cpu → f'.freqInfo other = f.freqInfo other := by
  obtain ⟨p, looped, rfl⟩ := Option.map_eq_some_iff.mp returned
  have unmarked : ∀ cell, (f.freqInfo cpu).numStates ≤ cell → cell < maxStates →
      (Loops.forRange (f.freqInfo cpu).numStates (markAllowed (f.freqInfo cpu).numStates)
        (f.allowedStates, (f.freqInfo cpu).validEntry)).2 cell = 0 := by
    intro cell past below
    rw [markAllowed_validEntry _ _ past le_rfl]
    exact filled cell past below
  have fewer := pruneLoop_numStates_le fits fuel ⟨unknown.numStates, fun cell past below => by
    show (Loops.forRange (f.freqInfo cpu).numStates _ _ : (Nat → Int) × (Nat → Nat)).2 cell =
      (Loops.forRange (f.freqInfo cpu).numStates _ _ : (Nat → Int) × (Nat → Nat)).2 _
    have past : (f.freqInfo cpu).numStates ≤ cell := past
    rw [unmarked cell past below, unmarked (maxStates - 1) (by omega) (by omega)]⟩ looped
  refine ⟨?_, fun other different => FreqModule.setInfo_of_ne different _ _⟩
  rw [FreqModule.setInfo_self]
  exact ⟨unknown.curFreq, le_trans fewer unknown.numStates⟩

/-- One turn of `init_freqs` leaves the index of its cpu unknown, and the other cpus alone. -/
theorem initFreqsCpu_unknown {fuel cpu : Nat} {frequencies : List Nat} {f f' : FreqModule}
    (returned : initFreqsCpu fuel frequencies cpu f = some f') :
    (f'.freqInfo cpu).Unknown ∧ ∀ other, other ≠ cpu → f'.freqInfo other = f.freqInfo other := by
  have mine : (f.fillCpu frequencies cpu).freqInfo cpu =
      fillInfo frequencies cpu (f.freqInfo cpu) := f.setInfo_self cpu _
  have others : ∀ other, other ≠ cpu →
      (f.fillCpu frequencies cpu).freqInfo other = f.freqInfo other :=
    fun other different => FreqModule.setInfo_of_ne different _ f
  have unknown : ((f.fillCpu frequencies cpu).freqInfo cpu).Unknown := by
    rw [mine]
    exact fillInfo_unknown frequencies cpu (f.freqInfo cpu)
  have fits : (f.fillCpu frequencies cpu).allowedStatesLength ≤ maxStates := by
    have small := (fillInfo_unknown frequencies cpu (f.freqInfo cpu)).numStates
    unfold FreqModule.fillCpu FreqModule.truncate
    dsimp only
    split <;> omega
  unfold initFreqsCpu at returned
  dsimp only at returned
  split at returned
  · obtain ⟨pruned, kept⟩ := pruneStates_unknown unknown fits
      (by
        rw [mine]
        exact fun cell past below => fillInfo_validEntry frequencies cpu _ past below) returned
    exact ⟨pruned, fun other different => (kept other different).trans (others other different)⟩
  · obtain rfl := Option.some.inj returned
    exact ⟨unknown, others⟩

/-- After `init_freqs` no cpu's index is known. -/
theorem initFreqs_unknown {fuel cpus : Nat} {frequencyTable : Nat → List Nat} {f f' : FreqModule}
    (returned : initFreqs fuel frequencyTable cpus f = some f') :
    ∀ cpu, cpu < cpus → (f'.freqInfo cpu).Unknown := by
  induction cpus generalizing f' with
  | zero =>
    intro cpu small
    exact absurd small (Nat.not_lt_zero cpu)
  | succ cpus inductionHypothesis =>
    obtain ⟨before, earlier, last⟩ := Option.bind_eq_some_iff.mp returned
    obtain ⟨mine, others⟩ := initFreqsCpu_unknown last
    intro cpu small
    by_cases same : cpu = cpus
    · rw [same]
      exact mine
    · rw [others cpu same]
      exact inductionHypothesis earlier cpu (by omega)

end Seeker
