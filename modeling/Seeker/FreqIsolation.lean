/-
This file asks whether the tables of different cpus get in each other's way.

The turns of `init_freqs` share the parameter. A turn clamps its entries in place and
cuts its length, and the turns after it, as well as the whole second call that
`seeker_cpufreq_init` makes, find what it has left. That does no harm on a machine to
all cpus of which the parameter means the same. And no machine does harm to a cpu
exactly if the parameter withdraws none of its states.
-/
import Seeker.AllowedStates

namespace Seeker

/-! ### The two calls -/

/-- The calls of `init_freqs` in `seeker_cpufreq_init` return, the first one with the module `once`
and the second one with `twice`. -/
structure InitRun (frequencyTable : Nat → List Nat) (cpus : Nat) (f once twice : FreqModule) :
    Prop where
  first : ∃ fuel, initFreqs fuel frequencyTable cpus f = some once
  second : ∃ fuel, initFreqs fuel frequencyTable cpus once = some twice

/-- The cpu is left with the table it would have on a machine of its own, and already was after the
first call. -/
structure Undisturbed (frequencies : List Nat) (cpu : Nat) (f once twice : FreqModule) : Prop where
  alone : ∃ once' twice', InitRun (fun _ => frequencies) 1 f once' twice' ∧
    (twice.freqInfo cpu).numStates = (twice'.freqInfo 0).numStates ∧
    (twice.freqInfo cpu).frequencies = (twice'.freqInfo 0).frequencies
  again : (twice.freqInfo cpu).numStates = (once.freqInfo cpu).numStates ∧
    (twice.freqInfo cpu).frequencies = (once.freqInfo cpu).frequencies

/-- The number of states is the length of the table. -/
theorem numStates_of_frequencies {info info' : FreqInfo}
    (same : info.frequencies = info'.frequencies) : info.numStates = info'.numStates := by
  rw [← FreqInfo.length_frequencies, same, FreqInfo.length_frequencies]

/-! ### The parameter from turn to turn -/

/-- The array after the turn of a cpu with that many states. -/
def arrayAfter (states length : Nat) (allowedStates : Nat → Int) : Nat → Int :=
  if min length states = 0 then allowedStates else clampBelow states allowedStates

/-- The rule for `init_freqs`: what every turn keeps of the parameter holds after the call, and held
when a cpu had its turn. -/
theorem initFreqs_induction {frequencyTable : Nat → List Nat} {fuel cpus : Nat}
    {f f' : FreqModule} (invariant : (Nat → Int) → Nat → Prop)
    (initial : invariant f.allowedStates f.allowedStatesLength)
    (kept : ∀ cpu, cpu < cpus → ∀ allowedStates length, invariant allowedStates length →
      invariant (arrayAfter (fullTable (frequencyTable cpu)).length length allowedStates)
        (min length (fullTable (frequencyTable cpu)).length))
    (returned : initFreqs fuel frequencyTable cpus f = some f') :
    invariant f'.allowedStates f'.allowedStatesLength ∧ ∀ cpu, cpu < cpus →
      ∃ allowedStates length, invariant allowedStates length ∧
        (f'.freqInfo cpu).frequencies =
          prunedTable (fullTable (frequencyTable cpu)) allowedStates length ∧
        (min length (fullTable (frequencyTable cpu)).length = 0 ∨
          Prunable (fullTable (frequencyTable cpu)).length
            (min length (fullTable (frequencyTable cpu)).length) allowedStates) := by
  induction cpus generalizing f' with
  | zero =>
    obtain rfl := Option.some.inj returned
    exact ⟨initial, fun _ small => absurd small (Nat.not_lt_zero _)⟩
  | succ cpus inductionHypothesis =>
    obtain ⟨before, earlier, turned⟩ := Option.bind_eq_some_iff.mp returned
    obtain ⟨held, tables⟩ := inductionHypothesis
      (fun cpu small => kept cpu (Nat.lt_succ_of_lt small)) earlier
    have made := initFreqsCpu_turn turned
    have next := kept cpus (Nat.lt_succ_self cpus) _ _ held
    rw [arrayAfter, ← made.length, ← made.allowedStates] at next
    refine ⟨next, fun cpu small => ?_⟩
    by_cases here : cpu = cpus
    · refine ⟨before.allowedStates, before.allowedStatesLength, held, ?_, ?_⟩
      · rw [here]
        exact made.frequencies
      · rw [here, ← made.length]
        exact made.prunable
    · rw [made.others cpu here]
      exact tables cpu (by omega)

/-! ### What a parameter means to a cpu -/

/-- Two parameters mean the same to a cpu with that many states. -/
structure SameMeaning (states : Nat) (allowedStates other : Nat → Int) (length otherLength : Nat) :
    Prop where
  length : min length states = min otherLength states
  entries : ∀ index, index < states →
    clampState states (allowedStates index) = clampState states (other index)

theorem SameMeaning.refl (states length : Nat) (allowedStates : Nat → Int) :
    SameMeaning states allowedStates allowedStates length length :=
  ⟨rfl, fun _ _ => rfl⟩

theorem clampState_clampState {states : Nat} (someState : 0 < states) (allowed : Int) :
    clampState states (clampState states allowed) = clampState states allowed := by
  obtain ⟨nonneg, small⟩ := clampState_mem someState allowed
  conv_lhs => rw [clampState]
  rw [if_neg (not_lt.mpr nonneg), if_neg (not_le.mpr small)]

section SameMeaning

variable {states length otherLength : Nat} {allowedStates other : Nat → Int}

theorem SameMeaning.allowedMarks
    (same : SameMeaning states allowedStates other length otherLength) :
    allowedMarks states allowedStates = Seeker.allowedMarks states other := by
  refine Finset.image_congr fun index member => ?_
  rw [same.entries index (Finset.mem_range.mp member)]

theorem SameMeaning.prunedTable {full : List Nat}
    (same : SameMeaning full.length allowedStates other length otherLength) :
    prunedTable full allowedStates length = Seeker.prunedTable full other otherLength := by
  unfold Seeker.prunedTable markedTable
  rw [same.length, same.allowedMarks]

theorem SameMeaning.prunable {count : Nat}
    (same : SameMeaning states allowedStates other length otherLength) :
    Prunable states count allowedStates ↔ Prunable states count other := by
  unfold Prunable
  rw [same.allowedMarks]

end SameMeaning

/-- To all cpus the parameter means the same: they cut it to one length and clamp an entry that
they look at to one state. -/
structure Uniform (frequencyTable : Nat → List Nat) (cpus : Nat) (f : FreqModule) : Prop where
  length : ∀ first second, first < cpus → second < cpus →
    min f.allowedStatesLength (fullTable (frequencyTable first)).length =
      min f.allowedStatesLength (fullTable (frequencyTable second)).length
  entries : ∀ first second, first < cpus → second < cpus → ∀ index,
    index < (fullTable (frequencyTable first)).length →
    index < (fullTable (frequencyTable second)).length →
    clampState (fullTable (frequencyTable first)).length (f.allowedStates index) =
      clampState (fullTable (frequencyTable second)).length (f.allowedStates index)

/-- A machine of one cpu is uniform. -/
theorem Uniform.alone (frequencies : List Nat) (f : FreqModule) :
    Uniform (fun _ => frequencies) 1 f :=
  ⟨fun _ _ _ _ => rfl, fun _ _ _ _ _ _ _ => rfl⟩

section Uniform

variable {frequencyTable : Nat → List Nat} {cpus : Nat} {f : FreqModule}
  (uniform : Uniform frequencyTable cpus f)

/-- The parameter still means to every cpu what it meant at first. -/
def MeansTheSame (frequencyTable : Nat → List Nat) (cpus : Nat) (f : FreqModule)
    (allowedStates : Nat → Int) (length : Nat) : Prop :=
  ∀ cpu, cpu < cpus → SameMeaning (fullTable (frequencyTable cpu)).length allowedStates
    f.allowedStates length f.allowedStatesLength

include uniform

theorem MeansTheSame.turn {cpu : Nat} (online : cpu < cpus) {allowedStates : Nat → Int}
    {length : Nat} (same : MeansTheSame frequencyTable cpus f allowedStates length) :
    MeansTheSame frequencyTable cpus f
      (arrayAfter (fullTable (frequencyTable cpu)).length length allowedStates)
      (min length (fullTable (frequencyTable cpu)).length) := by
  intro other otherOnline
  have mine := same cpu online
  have others := same other otherOnline
  refine ⟨?_, fun index small => ?_⟩
  · have lengths := uniform.length cpu other online otherOnline
    have mineLength := mine.length
    have othersLength := others.length
    omega
  · unfold arrayAfter
    split
    · exact others.entries index small
    · unfold clampBelow
      split
      · rename_i looked
        rw [mine.entries index looked, uniform.entries cpu other online otherOnline index looked
          small, clampState_clampState (by omega)]
      · exact others.entries index small

/-- On a uniform machine every call prunes every cpu by the parameter as it was given. -/
theorem Uniform.frequencies {fuel : Nat} {g g' : FreqModule}
    (same : MeansTheSame frequencyTable cpus f g.allowedStates g.allowedStatesLength)
    (returned : initFreqs fuel frequencyTable cpus g = some g') :
    MeansTheSame frequencyTable cpus f g'.allowedStates g'.allowedStatesLength ∧
      ∀ cpu, cpu < cpus →
        (g'.freqInfo cpu).frequencies = prunedTable (fullTable (frequencyTable cpu))
          f.allowedStates f.allowedStatesLength ∧
        (min f.allowedStatesLength (fullTable (frequencyTable cpu)).length = 0 ∨
          Prunable (fullTable (frequencyTable cpu)).length
            (min f.allowedStatesLength (fullTable (frequencyTable cpu)).length)
            f.allowedStates) := by
  obtain ⟨held, tables⟩ := initFreqs_induction (MeansTheSame frequencyTable cpus f) same
    (fun cpu online allowedStates length kept => MeansTheSame.turn uniform online kept) returned
  refine ⟨held, fun cpu online => ?_⟩
  obtain ⟨allowedStates, length, kept, left, prunable⟩ := tables cpu online
  have mine := kept cpu online
  rw [mine.length, mine.prunable] at prunable
  exact ⟨left.trans mine.prunedTable, prunable⟩

end Uniform

/-- A cpu that can be pruned by the parameter is, on a machine of its own, by both calls. -/
theorem alone_run (frequencies : List Nat) (f : FreqModule)
    (prunable : min f.allowedStatesLength (fullTable frequencies).length = 0 ∨
      Prunable (fullTable frequencies).length
        (min f.allowedStatesLength (fullTable frequencies).length) f.allowedStates) :
    ∃ once twice, InitRun (fun _ => frequencies) 1 f once twice := by
  have uniform := Uniform.alone frequencies f
  have call : ∀ g : FreqModule,
      MeansTheSame (fun _ => frequencies) 1 f g.allowedStates g.allowedStatesLength →
      ∃ g', initFreqs (2 * maxStates + 1) (fun _ => frequencies) 1 g = some g' := by
    intro g same
    have mine := same 0 Nat.one_pos
    refine Option.isSome_iff_exists.mp (initFreqsCpu_isSome (Nat.lt_succ_self _) ?_)
    rw [mine.length, mine.prunable]
    exact prunable
  obtain ⟨once, first⟩ := call f fun _ _ => SameMeaning.refl ..
  obtain ⟨same, _⟩ := uniform.frequencies (fun _ _ => SameMeaning.refl ..) first
  obtain ⟨twice, second⟩ := call once same
  exact ⟨once, twice, ⟨⟨_, first⟩, ⟨_, second⟩⟩⟩

/-- A machine of one cpu prunes it by the parameter as it was given. -/
theorem InitRun.alone {frequencies : List Nat} {f once twice : FreqModule}
    (run : InitRun (fun _ => frequencies) 1 f once twice) :
    (twice.freqInfo 0).frequencies =
      prunedTable (fullTable frequencies) f.allowedStates f.allowedStatesLength := by
  obtain ⟨⟨_, first⟩, ⟨_, second⟩⟩ := run
  have uniform := Uniform.alone frequencies f
  obtain ⟨same, _⟩ := uniform.frequencies (fun _ _ => SameMeaning.refl ..) first
  obtain ⟨_, tables⟩ := uniform.frequencies same second
  exact (tables 0 Nat.one_pos).1

/-! ### Parameters that withdraw nothing -/

/-- The parameter withdraws no state of a cpu with that many: all states below its length are
marked. -/
def WithdrawsNone (states : Nat) (allowedStates : Nat → Int) (length : Nat) : Prop :=
  ∀ state, state < min length states → state ∈ allowedMarks states allowedStates

theorem prunedTable_eq_full_iff {full : List Nat} {allowedStates : Nat → Int} {length : Nat} :
    prunedTable full allowedStates length = full ↔
      WithdrawsNone full.length allowedStates length := by
  have kept : prunedTable full allowedStates length = full ↔
      prunedTable full allowedStates length = (markedTable full allowedStates).map Prod.fst := by
    rw [map_fst_markedTable]
  rw [kept, prunedTable, Withdrawal.kept_eq_all_iff]
  constructor
  · intro marks state small
    have inTable : state < full.length := by omega
    have member : (full[state], decide (state ∈ allowedMarks full.length allowedStates)) ∈
        (markedTable full allowedStates).take (min length full.length) := by
      refine List.mem_iff_getElem?.mpr ⟨state, ?_⟩
      rw [List.getElem?_take_of_lt small, markedTable, List.getElem?_mapIdx,
        List.getElem?_eq_getElem inTable]
      rfl
    exact of_decide_eq_true (marks _ member)
  · intro none row member
    obtain ⟨state, found⟩ := List.mem_iff_getElem?.mp member
    obtain ⟨small, here⟩ : state < min length full.length ∧
        (markedTable full allowedStates)[state]? = some row := by
      rw [List.getElem?_take] at found
      split at found
      · rename_i small
        exact ⟨small, found⟩
      · cases found
    rw [markedTable, List.getElem?_mapIdx, List.getElem?_eq_getElem (by omega)] at here
    rw [← Option.some.inj here]
    exact decide_eq_true (none state small)

/-- No turn of any cpu changes that. -/
theorem WithdrawsNone.turn {states other : Nat} {allowedStates : Nat → Int} {length : Nat}
    (none : WithdrawsNone states allowedStates length) :
    WithdrawsNone states (arrayAfter other length allowedStates) (min length other) := by
  intro state small
  obtain ⟨index, looked, here⟩ := mem_allowedMarks.mp (none state (by omega))
  refine mem_allowedMarks.mpr ⟨index, looked, ?_⟩
  unfold arrayAfter
  split
  · exact here
  · unfold clampBelow
    split
    · rw [← here]
      have below : state < other := by omega
      have inTable : state < states := by omega
      unfold clampState at here ⊢
      dsimp only at here ⊢
      split_ifs at here ⊢ <;> omega
    · exact here

theorem WithdrawsNone.prunable {states : Nat} {allowedStates : Nat → Int} {length : Nat}
    (none : WithdrawsNone states allowedStates length) :
    Prunable states (min length states) allowedStates := by
  have subset : Finset.range (min length states) ⊆ allowedMarks states allowedStates :=
    fun state member => none state (Finset.mem_range.mp member)
  have fewer := Finset.card_le_card subset
  rw [Finset.card_range] at fewer
  exact Or.inl fewer

/-! ### When tables do not interfere -/

section Undisturbed

variable {frequencyTable : Nat → List Nat} {cpus : Nat} {f once twice : FreqModule}

theorem Undisturbed.of_frequencies {cpu : Nat} {alone alone' : FreqModule}
    (run : InitRun (fun _ => frequencyTable cpu) 1 f alone alone')
    (same : (twice.freqInfo cpu).frequencies = (alone'.freqInfo 0).frequencies)
    (again : (twice.freqInfo cpu).frequencies = (once.freqInfo cpu).frequencies) :
    Undisturbed (frequencyTable cpu) cpu f once twice :=
  ⟨⟨alone, alone', run, numStates_of_frequencies same, same⟩,
    numStates_of_frequencies again, again⟩

/-- On a uniform machine no cpu is disturbed. -/
theorem Uniform.undisturbed (uniform : Uniform frequencyTable cpus f)
    (run : InitRun frequencyTable cpus f once twice) {cpu : Nat} (online : cpu < cpus) :
    Undisturbed (frequencyTable cpu) cpu f once twice := by
  obtain ⟨⟨_, first⟩, ⟨_, second⟩⟩ := run
  obtain ⟨same, firstTables⟩ := uniform.frequencies (fun _ _ => SameMeaning.refl ..) first
  obtain ⟨_, secondTables⟩ := uniform.frequencies same second
  obtain ⟨before, prunable⟩ := firstTables cpu online
  have after := (secondTables cpu online).1
  obtain ⟨alone, alone', aloneRun⟩ := alone_run (frequencyTable cpu) f prunable
  exact Undisturbed.of_frequencies aloneRun (after.trans aloneRun.alone.symm)
    (after.trans before.symm)

/-- A cpu from which the parameter withdraws nothing keeps its full table in every call. -/
theorem WithdrawsNone.frequencies {fuel cpu : Nat} {g g' : FreqModule}
    (none : WithdrawsNone (fullTable (frequencyTable cpu)).length g.allowedStates
      g.allowedStatesLength)
    (returned : initFreqs fuel frequencyTable cpus g = some g') (online : cpu < cpus) :
    WithdrawsNone (fullTable (frequencyTable cpu)).length g'.allowedStates
        g'.allowedStatesLength ∧
      (g'.freqInfo cpu).frequencies = fullTable (frequencyTable cpu) := by
  obtain ⟨held, tables⟩ := initFreqs_induction
    (fun allowedStates length =>
      WithdrawsNone (fullTable (frequencyTable cpu)).length allowedStates length) none
    (fun _ _ _ _ kept => kept.turn) returned
  obtain ⟨allowedStates, length, kept, left, _⟩ := tables cpu online
  exact ⟨held, left.trans (prunedTable_eq_full_iff.mpr kept)⟩

theorem WithdrawsNone.undisturbed {cpu : Nat}
    (none : WithdrawsNone (fullTable (frequencyTable cpu)).length f.allowedStates
      f.allowedStatesLength)
    (run : InitRun frequencyTable cpus f once twice) (online : cpu < cpus) :
    Undisturbed (frequencyTable cpu) cpu f once twice := by
  obtain ⟨⟨_, first⟩, ⟨_, second⟩⟩ := run
  obtain ⟨still, before⟩ := none.frequencies first online
  obtain ⟨_, after⟩ := still.frequencies second online
  obtain ⟨alone, alone', aloneRun⟩ :=
    alone_run (frequencyTable cpu) f (Or.inr none.prunable)
  refine Undisturbed.of_frequencies aloneRun ?_ (after.trans before.symm)
  rw [aloneRun.alone, prunedTable_eq_full_iff.mpr none, after]

end Undisturbed

/-- A cpu without states that has its turn first switches the pruning off for the cpu next to it. -/
theorem emptyNeighbour_run (frequencies : List Nat) (f : FreqModule) :
    ∃ once twice, InitRun (fun cpu => if cpu = 0 then [] else frequencies) 2 f once twice ∧
      (twice.freqInfo 1).frequencies = fullTable frequencies := by
  have call : ∀ g : FreqModule, ∃ g',
      initFreqs (2 * maxStates + 1) (fun cpu => if cpu = 0 then [] else frequencies) 2 g =
        some g' ∧ (g'.freqInfo 1).frequencies = fullTable frequencies := by
    intro g
    have empty : (fullTable []).length = 0 := rfl
    obtain ⟨h, first⟩ := Option.isSome_iff_exists.mp <| show
        (initFreqsCpu (2 * maxStates + 1) [] 0 g).isSome from
      initFreqsCpu_isSome (Nat.lt_succ_self _) (Or.inl (Nat.min_zero _))
    have off : h.allowedStatesLength = 0 := by
      rw [(initFreqsCpu_turn first).length, empty, Nat.min_zero]
    obtain ⟨g', second⟩ := Option.isSome_iff_exists.mp <| show
        (initFreqsCpu (2 * maxStates + 1) frequencies 1 h).isSome from
      initFreqsCpu_isSome (Nat.lt_succ_self _) (Or.inl (by rw [off, Nat.zero_min]))
    refine ⟨g', ?_, ?_⟩
    · show ((some g).bind (initFreqsCpu _ [] 0)).bind (initFreqsCpu _ frequencies 1) = some g'
      rw [Option.bind_some, first, Option.bind_some, second]
    · rw [(initFreqsCpu_turn second).frequencies,
        prunedTable_eq_full (by rw [off, Nat.zero_min])]
  obtain ⟨once, first, _⟩ := call f
  obtain ⟨twice, second, table⟩ := call once
  exact ⟨once, twice, ⟨⟨_, first⟩, ⟨_, second⟩⟩, table⟩

/-- On a machine to all cpus of which the parameter means the same, no cpu is disturbed by the
others; and a cpu with a given table is disturbed on no machine exactly if the parameter withdraws
none of its states. -/
theorem freq_tables_isolated_iff (f : FreqModule) :
    (∀ frequencyTable cpus once twice, Uniform frequencyTable cpus f →
      InitRun frequencyTable cpus f once twice → ∀ cpu, cpu < cpus →
        Undisturbed (frequencyTable cpu) cpu f once twice) ∧
    ∀ frequencies,
      (∀ frequencyTable cpus once twice cpu, InitRun frequencyTable cpus f once twice →
        cpu < cpus → frequencyTable cpu = frequencies →
        Undisturbed frequencies cpu f once twice) ↔
      WithdrawsNone (fullTable frequencies).length f.allowedStates f.allowedStatesLength := by
  refine ⟨fun _ _ _ _ uniform run _ online => uniform.undisturbed run online, fun frequencies => ?_⟩
  constructor
  · intro isolated
    obtain ⟨once, twice, run, full⟩ := emptyNeighbour_run frequencies f
    have undisturbed := isolated _ 2 once twice 1 run Nat.one_lt_two rfl
    obtain ⟨alone, alone', aloneRun, _, same⟩ := undisturbed.alone
    rw [full, aloneRun.alone] at same
    exact prunedTable_eq_full_iff.mp same.symm
  · rintro none frequencyTable cpus once twice cpu run online rfl
    exact none.undisturbed run online

/-- The tables of two cpus with three states each, of which the lowest and the highest are
allowed. -/
theorem freq_tables_isolated_iff_two_cpus :
    ∃ once twice, InitRun (fun _ => [1000, 1400, 1700]) 2 (givenModule [0, 2]) once twice ∧
      Undisturbed [1000, 1400, 1700] 1 (givenModule [0, 2]) once twice := by
  have uniform : Uniform (fun _ => [1000, 1400, 1700]) 2 (givenModule [0, 2]) :=
    ⟨fun _ _ _ _ => rfl, fun _ _ _ _ _ _ _ => rfl⟩
  have call : ((initFreqs 17 (fun _ => [1000, 1400, 1700]) 2 (givenModule [0, 2])).bind
      (initFreqs 17 (fun _ => [1000, 1400, 1700]) 2)).isSome := by
    decide +kernel
  obtain ⟨twice, returned⟩ := Option.isSome_iff_exists.mp call
  obtain ⟨once, first, second⟩ := Option.bind_eq_some_iff.mp returned
  have run : InitRun (fun _ => [1000, 1400, 1700]) 2 (givenModule [0, 2]) once twice :=
    ⟨⟨17, first⟩, ⟨17, second⟩⟩
  exact ⟨once, twice, run, (freq_tables_isolated_iff (givenModule [0, 2])).1 _ 2 once twice
    uniform run 1 Nat.one_lt_two⟩

/-- A cpu with one state and one with three, of which the lowest and the highest are allowed: the
second cpu keeps all three, but would have two on its own. -/
theorem freq_tables_not_isolated :
    ∃ once twice,
      InitRun (fun cpu => if cpu = 0 then [1000] else [1000, 1400, 1700]) 2 (givenModule [0, 2])
        once twice ∧
      (twice.freqInfo 1).numStates = 3 ∧
      ¬ Undisturbed [1000, 1400, 1700] 1 (givenModule [0, 2]) once twice := by
  have call : ((initFreqs 17 (fun cpu => if cpu = 0 then [1000] else [1000, 1400, 1700]) 2
      (givenModule [0, 2])).bind
      (initFreqs 17 (fun cpu => if cpu = 0 then [1000] else [1000, 1400, 1700]) 2)).map
        (fun f => (f.freqInfo 1).numStates) = some 3 := by
    decide +kernel
  obtain ⟨twice, returned, three⟩ := Option.map_eq_some_iff.mp call
  obtain ⟨once, first, second⟩ := Option.bind_eq_some_iff.mp returned
  refine ⟨once, twice, ⟨⟨17, first⟩, ⟨17, second⟩⟩, three, fun undisturbed => ?_⟩
  obtain ⟨_, _, run, same, _⟩ := undisturbed.alone
  have two : (prunedTable (fullTable [1000, 1400, 1700]) (parameterArray [0, 2]) 2).length = 2 := by
    decide
  rw [three, ← FreqInfo.length_frequencies, run.alone] at same
  exact absurd (same.trans two) (by decide)

end Seeker
