/-
This file embeds `pmu_init` and says what it leaves on the cpus it ran on.

A cpu other than the first copies the rows of the first one, which no cpu's turn
changes. Then the event select registers are cleared, which is what writing a blank
descriptor does, so that descriptors and registers agree from the start.
-/
import Seeker.PmuMirror

namespace Seeker

open BitFields

section Init

variable {nrCpus : Nat} {cpu : Fin nrCpus} {p p' : PmuModule} {cpuId counter : Nat}

/-! ### The initialisation -/

/-- The descriptors of a general counter are as in the file. -/
structure Fresh (cpu counter : Nat) (p : PmuModule) : Prop where
  evtsel : p.hw.evtsel cpu counter = Evtsel.blank (evtselAddress counter)
  counter : p.counters cpu counter = ⟨0, 0, pmcAddress counter, counter, 0, 0⟩

theorem fresh_loaded (msr : Nat → BitVec 32 → BitVec 64) (counter : Nat) :
    Fresh 0 counter (PmuModule.loaded msr) := ⟨rfl, rfl⟩

/-- A cpu's copy of a fresh descriptor is fresh, and what was fresh before still is. -/
theorem fresh_copyCounter (cpu : Fin nrCpus) (source : Fresh 0 counter p) :
    Fresh cpu counter (copyCounter cpu counter p) ∧
      ∀ other index, Fresh other index p → Fresh other index (copyCounter cpu counter p) := by
  have copied : Fresh cpu counter (copyCounter cpu counter p) := by
    refine ⟨putCell_self.trans source.evtsel, putCell_self.trans source.counter⟩
  refine ⟨copied, fun other index fresh => ?_⟩
  by_cases same : other = cpu ∧ index = counter
  · obtain ⟨rfl, rfl⟩ := same
    exact copied
  · have unchanged : ∀ {Value : Type} (table : Nat → Nat → Value) (value : Value),
        putCell table cpu counter value other index = table other index := by
      intro Value table value
      by_cases row : other = cpu
      · exact putCell_of_index_ne fun held => same ⟨row, held⟩
      · rw [putCell_of_ne row]
    exact ⟨(unchanged _ _).trans fresh.evtsel, (unchanged _ _).trans fresh.counter⟩

/-- A blank descriptor adds nothing to what `evtsel_clear` keeps. -/
theorem evtselClear_of_fresh (fresh : Fresh cpu counter p) :
    evtselClear cpu counter p.hw = evtselWrite cpu counter p.hw := by
  have nothing : pack 32 (p.hw.evtsel cpu counter).fields = 0#32 := by
    rw [fresh.evtsel]
    show pack 32 (Evtsel.blank 0).fields = 0#32
    decide
  rw [evtselClear_eq, evtselWrite_eq, merge, nothing, BitVec.or_zero]

theorem counterDisable_of_idle (idle : (p.counters cpu counter).enabled = 0) :
    counterDisable cpu counter p = p := by
  unfold counterDisable
  rw [if_pos idle, ite_self]

/-- The second loop of `pmu_init_msrs` finds its counters idle: it writes two registers. -/
theorem resetCounter_of_fresh (fresh : Fresh cpu counter p) :
    resetCounter cpu counter p =
      counterClear cpu counter { p with hw := evtselWrite cpu counter p.hw } := by
  have idle : (p.counters cpu counter).enabled = 0 := by
    rw [fresh.counter]
  unfold resetCounter
  rw [evtselClear_of_fresh fresh]
  exact congrArg (counterClear cpu counter) (counterDisable_of_idle idle)

theorem mirrored_counterClear {other index : Nat} (small : counter < numCounters)
    (placed : (p.counters cpu counter).addr = pmcAddress counter) (inRange : index < numCounters)
    (mirrored : Mirrored other index p) : Mirrored other index (counterClear cpu counter p) := by
  have apart : ∀ index < numCounters, ∀ counter < numCounters,
      evtselAddress index ∉ [pmcAddress counter] := by decide
  refine mirrored.of_kept ((Touches.refl cpu [pmcAddress counter] p).counterClear (fun _ => placed)
    List.mem_cons_self) (slotKept_counterClear counter) fun held => ?_
  exact apart index inRange counter small held.2

/-- It leaves the descriptors alone and the counter mirrored, and the others as they were. -/
theorem fresh_resetCounter (fresh : Fresh cpu counter p) (small : counter < numCounters) :
    Mirrored cpu counter (resetCounter cpu counter p) ∧
      (∀ other index, Fresh other index p → Fresh other index (resetCounter cpu counter p)) ∧
      ∀ other index, index < numCounters → Mirrored other index p →
        Mirrored other index (resetCounter cpu counter p) := by
  have placed : (p.hw.evtsel cpu counter).addr = evtselAddress counter := by
    rw [fresh.evtsel]
    rfl
  have numbered : (p.counters cpu counter).addr = pmcAddress counter := by
    rw [fresh.counter]
  have agree : (p.counters cpu counter).enabled =
      (p.hw.evtsel cpu counter).enabled.setWidth 32 := by
    rw [fresh.counter, fresh.evtsel]
    rfl
  have written := mirrored_evtselWrite placed agree
  rw [resetCounter_of_fresh fresh]
  refine ⟨mirrored_counterClear small numbered small written, fun other index freshIndex => ?_,
    fun other index inRange mirrored => mirrored_counterClear small numbered inRange ?_⟩
  · rw [counterClear_of_lt small]
    refine ⟨?_, freshIndex.counter⟩
    exact (slotKept_evtselWrite counter).evtsel.trans freshIndex.evtsel
  · by_cases same : other = cpu ∧ index = counter
    · obtain ⟨rfl, rfl⟩ := same
      exact written
    · refine mirrored.of_kept ((Touches.refl cpu [evtselAddress counter, pmcAddress counter]
        p).evtselWrite placed List.mem_cons_self) (slotKept_evtselWrite counter) fun held => ?_
      have apart := (evtselAddress_apart index inRange).1 counter small fun held' =>
        same ⟨held.1, held'⟩
      exact apart held.2

/-- The first loop of `pmu_init_msrs` makes the descriptors of its cpu fresh. -/
theorem copyCounters_fresh (source : ∀ counter < numCounters, Fresh 0 counter p) :
    (∀ counter < numCounters,
      Fresh cpu counter (Loops.forRange numCounters (copyCounter cpu) p)) ∧
    (∀ other counter, Fresh other counter p →
      Fresh other counter (Loops.forRange numCounters (copyCounter cpu) p)) ∧
    ∀ other, other ≠ cpu.val → ∀ counter, Mirrored other counter p →
      Mirrored other counter (Loops.forRange numCounters (copyCounter cpu) p) := by
  refine Loops.forRange_induction (fun bound current =>
    (∀ counter < bound, Fresh cpu counter current) ∧
    (∀ other counter, Fresh other counter p → Fresh other counter current) ∧
    ∀ other, other ≠ cpu.val → ∀ counter, Mirrored other counter p →
      Mirrored other counter current) ?_ ?_
  · exact ⟨fun counter small => absurd small (Nat.not_lt_zero counter), fun _ _ => id,
      fun _ _ _ => id⟩
  · rintro index inRange current ⟨soFar, kept, mirrored⟩
    obtain ⟨copied, keeps⟩ :=
      fresh_copyCounter cpu (kept 0 index (source index inRange))
    refine ⟨fun counter small => ?_, fun other counter fresh => ?_,
      fun other apart counter before => ?_⟩
    · rcases Nat.lt_succ_iff_lt_or_eq.mp small with below | rfl
      · exact keeps cpu counter (soFar counter below)
      · exact copied
    · exact keeps other counter (kept other counter fresh)
    · have evtselRow : (copyCounter cpu index current).hw.evtsel other = current.hw.evtsel other :=
        putCell_of_ne apart
      have counterRow : (copyCounter cpu index current).counters other = current.counters other :=
        putCell_of_ne apart
      obtain ⟨holds, agree⟩ := mirrored other apart counter before
      refine ⟨?_, ?_⟩
      · rw [evtselRow]
        exact holds
      · rw [evtselRow, counterRow]
        exact agree

/-- `pmu_init_msrs` makes the counters of its cpu fresh and mirrored, and undoes no other. -/
theorem pmuInitMsrs_fresh (cpu : Fin nrCpus) (source : ∀ counter < numCounters, Fresh 0 counter p) :
    (∀ counter < numCounters, Fresh cpu counter (pmuInitMsrs cpu p) ∧
      Mirrored cpu counter (pmuInitMsrs cpu p)) ∧
    (∀ other counter, Fresh other counter p → Fresh other counter (pmuInitMsrs cpu p)) ∧
    ∀ other, other ≠ cpu.val → ∀ counter < numCounters, Mirrored other counter p →
      Mirrored other counter (pmuInitMsrs cpu p) := by
  have copied : ∃ q, pmuInitMsrs cpu p = Loops.forRange numCounters (resetCounter cpu) q ∧
      (∀ counter < numCounters, Fresh cpu counter q) ∧
      (∀ other counter, Fresh other counter p → Fresh other counter q) ∧
      ∀ other, other ≠ cpu.val → ∀ counter, Mirrored other counter p →
        Mirrored other counter q := by
    by_cases first : cpu.val = 0
    · refine ⟨p, ?_, fun counter small => ?_, fun _ _ => id, fun _ _ _ => id⟩
      · unfold pmuInitMsrs
        rw [if_neg (not_not.mpr first)]
      · rw [first]
        exact source counter small
    · refine ⟨_, ?_, copyCounters_fresh source⟩
      unfold pmuInitMsrs
      rw [if_pos first]
  obtain ⟨q, same, fresh, kept, others⟩ := copied
  rw [same]
  have reset : (∀ counter < numCounters,
        Mirrored cpu counter (Loops.forRange numCounters (resetCounter cpu) q)) ∧
      (∀ other counter, Fresh other counter q →
        Fresh other counter (Loops.forRange numCounters (resetCounter cpu) q)) ∧
      ∀ other, ∀ counter < numCounters, Mirrored other counter q →
        Mirrored other counter (Loops.forRange numCounters (resetCounter cpu) q) := by
    refine Loops.forRange_induction (fun bound current =>
      (∀ counter < bound, Mirrored cpu counter current) ∧
      (∀ other counter, Fresh other counter q → Fresh other counter current) ∧
      ∀ other, ∀ counter < numCounters, Mirrored other counter q →
        Mirrored other counter current) ?_ ?_
    · exact ⟨fun counter small => absurd small (Nat.not_lt_zero counter), fun _ _ => id,
        fun _ _ _ => id⟩
    · rintro index inRange current ⟨soFar, keptFresh, keptMirrored⟩
      obtain ⟨done, freshAfter, mirroredAfter⟩ :=
        fresh_resetCounter (keptFresh cpu index (fresh index inRange)) inRange
      refine ⟨fun counter small => ?_, fun other counter before => ?_,
        fun other counter small before => ?_⟩
      · rcases Nat.lt_succ_iff_lt_or_eq.mp small with below | rfl
        · exact mirroredAfter cpu counter (below.trans inRange) (soFar counter below)
        · exact done
      · exact freshAfter other counter (keptFresh other counter before)
      · exact mirroredAfter other counter small (keptMirrored other counter small before)
  exact ⟨fun counter small => ⟨reset.2.1 cpu counter (fresh counter small), reset.1 counter small⟩,
    fun other counter before => reset.2.1 other counter (kept other counter before),
    fun other apart counter small before =>
      reset.2.2 other counter small (others other apart counter before)⟩

/-- The descriptor of a fixed counter is as in the file. -/
def FcounterFresh (cpu counter : Nat) (p : PmuModule) : Prop :=
  p.fcounters cpu counter = ⟨0, 0, fixedAddress counter⟩

/-- `fcontrol` as in the file. -/
def Fixctrl.blank : Fixctrl := ⟨0, 0, 0, 0, 0, 0, 0, 0, 0⟩

/-- The tables of the fixed counters are as in the file, but for the addresses of other cpus. -/
structure FixedLoaded (p : PmuModule) : Prop where
  fcontrol : ∀ cpu, p.hw.fcontrol cpu = Fixctrl.blank
  fcleared : ∀ cpu counter, p.fcleared cpu counter = ⟨0, 0, 0⟩
  first : ∀ counter < numFixedCounters, FcounterFresh 0 counter p

/-- What a cpu's part of `fpmu_init_msrs` keeps. -/
structure FixedInit (cpu : Nat) (p p' : PmuModule) : Prop where
  evtsel : p'.hw.evtsel = p.hw.evtsel
  counters : p'.counters = p.counters
  fcontrol : p'.hw.fcontrol = p.hw.fcontrol
  fcleared : p'.fcleared = p.fcleared
  msr : ∀ other address, ¬ (other = cpu ∧ address ∈ [fixedAddress 0, fixedAddress 1,
    fixedAddress 2, msrPerfFixedCtrCtrl]) → p'.hw.msr other address = p.hw.msr other address
  fresh : ∀ other counter, FcounterFresh other counter p → FcounterFresh other counter p'

theorem FixedInit.refl (cpuId : Nat) (p : PmuModule) : FixedInit cpuId p p :=
  ⟨rfl, rfl, rfl, rfl, fun _ _ _ => rfl, fun _ _ => id⟩

theorem FixedInit.trans {p'' : PmuModule} (first : FixedInit cpuId p p')
    (second : FixedInit cpuId p' p'') : FixedInit cpuId p p'' :=
  ⟨second.evtsel.trans first.evtsel, second.counters.trans first.counters,
    second.fcontrol.trans first.fcontrol, second.fcleared.trans first.fcleared,
    fun other address outside => (second.msr other address outside).trans
      (first.msr other address outside),
    fun other counter fresh => second.fresh other counter (first.fresh other counter fresh)⟩

theorem FixedInit.loaded (kept : FixedInit cpuId p p') (loaded : FixedLoaded p) :
    FixedLoaded p' where
  fcontrol other := (congrFun kept.fcontrol other).trans (loaded.fcontrol other)
  fcleared other counter :=
    (congrFun (congrFun kept.fcleared other) counter).trans (loaded.fcleared other counter)
  first counter small := kept.fresh 0 counter (loaded.first counter small)

theorem fixedInit_write {address : BitVec 32} (low high : BitVec 32)
    (inside : address ∈ [fixedAddress 0, fixedAddress 1, fixedAddress 2, msrPerfFixedCtrCtrl]) :
    FixedInit cpuId p (p.write cpuId address low high) :=
  { FixedInit.refl cpuId p with msr := ((Touches.refl cpuId _ p).write inside low high).msr }

theorem fixedInit_fcounterClear (small : counter < numFixedCounters)
    (fresh : FcounterFresh cpu counter p) :
    FixedInit cpu p (fcounterClear cpu counter p) := by
  have inside : ∀ counter < numFixedCounters, fixedAddress counter ∈ [fixedAddress 0,
      fixedAddress 1, fixedAddress 2, msrPerfFixedCtrCtrl] := by decide
  rw [fcounterClear_eq]
  refine fixedInit_write _ _ ?_
  rw [fresh]
  exact inside counter small

theorem fixedInit_resetFcounter (loaded : FixedLoaded p) (small : counter < numFixedCounters) :
    FixedInit cpu p (resetFcounter cpu counter p) ∧
      FcounterFresh cpu counter (resetFcounter cpu counter p) := by
  have copied : ∃ q, resetFcounter cpu counter p = fcounterClear cpu counter q ∧
      FixedInit cpu p q ∧ FcounterFresh cpu counter q := by
    by_cases first : cpu.val = 0
    · refine ⟨p, ?_, FixedInit.refl .., ?_⟩
      · unfold resetFcounter
        rw [if_neg (not_not.mpr first)]
      · rw [first]
        exact loaded.first counter small
    · refine ⟨(p.putFcounter cpu counter (p.fcounters 0 counter)).putFcleared cpu counter
        (p.fcleared 0 counter), ?_, ?_, putCell_self.trans (loaded.first counter small)⟩
      · unfold resetFcounter
        rw [if_pos first]
      · refine { FixedInit.refl cpu p with fcleared := ?_, fresh := ?_ }
        · refine putCell_eq_self ?_
          exact (loaded.fcleared cpu counter).trans (loaded.fcleared 0 counter).symm
        · intro other index fresh
          by_cases same : index = counter
          · subst same
            by_cases row : other = cpu
            · subst row
              exact putCell_self.trans (loaded.first index small)
            · exact (congrFun (putCell_of_ne row) index).trans fresh
          · exact (putCell_of_index_ne same).trans fresh
  obtain ⟨q, same, kept, fresh⟩ := copied
  rw [same]
  have cleared := fixedInit_fcounterClear small fresh
  exact ⟨kept.trans cleared, cleared.fresh cpu counter fresh⟩

theorem fixedInit_controlClear :
    FixedInit cpu p { p with hw := controlClear cpu p.hw } :=
  fixedInit_write _ _ (by simp)

theorem fixedInit_fcountersDisable
    (fresh : ∀ counter < numFixedCounters, FcounterFresh cpu counter p) :
    FixedInit cpu p (fcountersDisable cpu p) := by
  unfold fcountersDisable
  rw [if_pos cpu.isLt]
  refine FixedInit.trans ?_ fixedInit_controlClear
  refine Loops.forRange_induction (fun _ current => FixedInit cpu p current) (FixedInit.refl ..) ?_
  intro index small current soFar
  exact soFar.trans (fixedInit_fcounterClear small (soFar.fresh cpu index (fresh index small)))

/-- `control_clear` leaves zeros in the fields. -/
theorem holdsFields_controlClear :
    HoldsFields Fixctrl.blank.fields (controlRegister cpu (controlClear cpu p.hw)) := by
  have nothing : pack 32 Fixctrl.blank.fields = 0#32 := by decide
  rw [controlClear_register]
  refine holdsFields_of fixctrlSpans_fit fun field member index inLow covers => ?_
  have merged : (merge fixselReservedBits ((controlRegister cpu p.hw).setWidth 32)
      Fixctrl.blank.fields).getLsbD index = _ :=
    getLsbD_merge_of_covers fixselReservedBits_isReserved fixctrlSpans_apart member inLow covers
  rwa [merge, nothing, BitVec.or_zero] at merged

theorem holdsFields_fcountersDisable :
    HoldsFields Fixctrl.blank.fields (controlRegister cpu (fcountersDisable cpu p).hw) := by
  unfold fcountersDisable
  rw [if_pos cpu.isLt]
  exact holdsFields_controlClear

/-- `fpmu_init_msrs` gives the cpu its addresses and clears its control register. -/
theorem fpmuInitMsrs_spec (cpu : Fin nrCpus) (loaded : FixedLoaded p) :
    FixedInit cpu p (fpmuInitMsrs cpu p) ∧
      (∀ counter < numFixedCounters, FcounterFresh cpu counter (fpmuInitMsrs cpu p)) ∧
      HoldsFields Fixctrl.blank.fields (controlRegister cpu (fpmuInitMsrs cpu p).hw) := by
  have looped : FixedInit cpu p (Loops.forRange numFixedCounters (resetFcounter cpu) p) ∧
      ∀ counter < numFixedCounters, FcounterFresh cpu counter
        (Loops.forRange numFixedCounters (resetFcounter cpu) p) := by
    refine Loops.forRange_induction (fun bound current => FixedInit cpu p current ∧
      ∀ counter < bound, FcounterFresh cpu counter current)
      ⟨FixedInit.refl .., fun counter small => absurd small (Nat.not_lt_zero counter)⟩ ?_
    rintro index inRange current ⟨kept, fresh⟩
    obtain ⟨keptIndex, freshIndex⟩ := fixedInit_resetFcounter (kept.loaded loaded) inRange
    refine ⟨kept.trans keptIndex, fun counter small => ?_⟩
    rcases Nat.lt_succ_iff_lt_or_eq.mp small with below | rfl
    · exact keptIndex.fresh cpu counter (fresh counter below)
    · exact freshIndex
  obtain ⟨kept, fresh⟩ := looped
  have control : ∀ q : PmuModule, FixedLoaded q →
      (if cpu.val ≠ 0 then q.putFcontrol cpu (q.hw.fcontrol 0) else q) = q := by
    intro q loaded
    split
    · have same : q.hw.fcontrol 0 = q.hw.fcontrol cpu :=
        (loaded.fcontrol 0).trans (loaded.fcontrol cpu).symm
      unfold PmuModule.putFcontrol
      rw [same, Function.update_eq_self]
    · rfl
  unfold fpmuInitMsrs
  rw [if_pos cpu.isLt]
  dsimp only
  rw [control _ (kept.loaded loaded)]
  generalize Loops.forRange numFixedCounters (resetFcounter cpu) p = q at kept fresh ⊢
  have cleared : FixedInit cpu q { q with hw := controlClear cpu q.hw } := fixedInit_controlClear
  have disabled := fixedInit_fcountersDisable
    fun counter small => cleared.fresh cpu counter (fresh counter small)
  refine ⟨(kept.trans cleared).trans disabled, fun counter small => ?_,
    holdsFields_fcountersDisable⟩
  exact disabled.fresh cpu counter (cleared.fresh cpu counter (fresh counter small))

/-- The tables of the fixed counters are the same in both states. -/
structure FixedKept (p p' : PmuModule) : Prop where
  fcontrol : p'.hw.fcontrol = p.hw.fcontrol
  fcleared : p'.fcleared = p.fcleared
  fcounters : p'.fcounters = p.fcounters

theorem FixedKept.refl (p : PmuModule) : FixedKept p p := ⟨rfl, rfl, rfl⟩

theorem FixedKept.trans {p'' : PmuModule} (first : FixedKept p p') (second : FixedKept p' p'') :
    FixedKept p p'' :=
  ⟨second.fcontrol.trans first.fcontrol, second.fcleared.trans first.fcleared,
    second.fcounters.trans first.fcounters⟩

theorem FixedKept.loaded (kept : FixedKept p p') (loaded : FixedLoaded p) : FixedLoaded p' where
  fcontrol cpu := (congrFun kept.fcontrol cpu).trans (loaded.fcontrol cpu)
  fcleared cpu counter :=
    (congrFun (congrFun kept.fcleared cpu) counter).trans (loaded.fcleared cpu counter)
  first counter small :=
    (congrFun (congrFun kept.fcounters 0) counter).trans (loaded.first counter small)

theorem fixedKept_evtselWrite : FixedKept p { p with hw := evtselWrite cpu counter p.hw } := by
  rw [evtselWrite_eq]
  exact ⟨rfl, rfl, rfl⟩

theorem fixedKept_evtselClear : FixedKept p { p with hw := evtselClear cpu counter p.hw } :=
  ⟨rfl, rfl, rfl⟩

theorem fixedKept_counterClear : FixedKept p (counterClear cpu counter p) := by
  unfold counterClear
  split
  · exact FixedKept.refl p
  · split <;> exact ⟨rfl, rfl, rfl⟩

theorem fixedKept_counterDisable : FixedKept p (counterDisable cpu counter p) := by
  unfold counterDisable
  split
  · exact FixedKept.refl p
  · split
    · exact FixedKept.refl p
    · refine FixedKept.trans ?_ fixedKept_evtselWrite
      exact (fixedKept_evtselClear.trans fixedKept_counterClear).trans ⟨rfl, rfl, rfl⟩

theorem fixedKept_pmuInitMsrs : FixedKept p (pmuInitMsrs cpu p) := by
  have reset : ∀ q, FixedKept q (Loops.forRange numCounters (resetCounter cpu) q) := by
    intro q
    refine Loops.forRange_induction (fun _ current => FixedKept q current) (FixedKept.refl q) ?_
    intro index _ current kept
    refine kept.trans (FixedKept.trans ?_ fixedKept_counterClear)
    exact fixedKept_evtselClear.trans fixedKept_counterDisable
  unfold pmuInitMsrs
  split
  · refine FixedKept.trans ?_ (reset _)
    exact Loops.forRange_induction (fun _ current => FixedKept p current) (FixedKept.refl p)
      fun index _ current kept => kept.trans ⟨rfl, rfl, rfl⟩
  · exact reset p

/-- `pmu_init_msrs` on one cpu after the other. -/
theorem pmuInitMsrs_foldl (cpus : List (Fin nrCpus))
    (source : ∀ counter < numCounters, Fresh 0 counter p) :
    (∀ counter < numCounters,
      Fresh 0 counter (cpus.foldl (fun p cpu => pmuInitMsrs cpu p) p)) ∧
    FixedKept p (cpus.foldl (fun p cpu => pmuInitMsrs cpu p) p) ∧
    ∀ cpu : Fin nrCpus, (cpu ∈ cpus ∨ ∀ counter < numCounters, Fresh cpu counter p ∧
        Mirrored cpu counter p) →
      ∀ counter < numCounters,
        Fresh cpu counter (cpus.foldl (fun p cpu => pmuInitMsrs cpu p) p) ∧
          Mirrored cpu counter (cpus.foldl (fun p cpu => pmuInitMsrs cpu p) p) := by
  induction cpus generalizing p with
  | nil => exact ⟨source, FixedKept.refl p, fun cpu held => held.resolve_left (by simp)⟩
  | cons first rest inductionHypothesis =>
    obtain ⟨done, fresh, mirrored⟩ := pmuInitMsrs_fresh first source
    have sourceAfter : ∀ counter < numCounters, Fresh 0 counter (pmuInitMsrs first p) :=
      fun counter small => fresh 0 counter (source counter small)
    obtain ⟨sourceRest, kept, rest⟩ := inductionHypothesis sourceAfter
    refine ⟨sourceRest, fixedKept_pmuInitMsrs.trans kept, fun cpu held => rest cpu ?_⟩
    by_cases here : cpu = first
    · subst here
      exact Or.inr done
    · rcases held with member | before
      · exact Or.inl ((List.mem_cons.mp member).resolve_left here)
      · refine Or.inr fun counter small => ⟨fresh cpu counter (before counter small).1, ?_⟩
        exact mirrored cpu (fun same => here (Fin.ext same)) counter small (before counter small).2

/-- What a part of `fpmu_init_msrs` keeps of the general counters. -/
theorem FixedInit.general (kept : FixedInit cpu p p') {other : Nat} (small : counter < numCounters)
    (before : Fresh other counter p ∧ Mirrored other counter p) :
    Fresh other counter p' ∧ Mirrored other counter p' := by
  have apart : ∀ counter < numCounters, evtselAddress counter ∉ [fixedAddress 0, fixedAddress 1,
      fixedAddress 2, msrPerfFixedCtrCtrl] := by decide
  obtain ⟨fresh, mirrored⟩ := before
  refine ⟨⟨?_, ?_⟩, ?_, ?_⟩
  · rw [kept.evtsel]
    exact fresh.evtsel
  · rw [kept.counters]
    exact fresh.counter
  · rw [kept.evtsel, kept.msr _ _ fun held => apart counter small held.2]
    exact mirrored.holds
  · rw [kept.counters, kept.evtsel]
    exact mirrored.agree

/-- The addresses of the fixed counters of a cpu are set, and its control register is clear. -/
def FixedReady (cpu : Nat) (p : PmuModule) : Prop :=
  (∀ counter < numFixedCounters, FcounterFresh cpu counter p) ∧
    HoldsFields Fixctrl.blank.fields (p.hw.msr cpu msrPerfFixedCtrCtrl)

/-- `fpmu_init_msrs` on one cpu after the other. -/
theorem fpmuInitMsrs_foldl (cpus : List (Fin nrCpus)) (loaded : FixedLoaded p) :
    FixedLoaded (cpus.foldl (fun p cpu => fpmuInitMsrs cpu p) p) ∧
    (∀ cpu, ∀ counter < numCounters, Fresh cpu counter p ∧ Mirrored cpu counter p →
      Fresh cpu counter (cpus.foldl (fun p cpu => fpmuInitMsrs cpu p) p) ∧
        Mirrored cpu counter (cpus.foldl (fun p cpu => fpmuInitMsrs cpu p) p)) ∧
    ∀ cpu : Fin nrCpus, (cpu ∈ cpus ∨ FixedReady cpu p) →
      FixedReady cpu (cpus.foldl (fun p cpu => fpmuInitMsrs cpu p) p) := by
  induction cpus generalizing p with
  | nil => exact ⟨loaded, fun _ _ _ => id, fun cpu held => held.resolve_left (by simp)⟩
  | cons first rest inductionHypothesis =>
    obtain ⟨kept, addressed, control⟩ := fpmuInitMsrs_spec first loaded
    obtain ⟨loadedRest, general, rest⟩ := inductionHypothesis (kept.loaded loaded)
    refine ⟨loadedRest, fun cpu counter small before =>
      general cpu counter small (kept.general small before), fun cpu held => rest cpu ?_⟩
    by_cases here : cpu = first
    · subst here
      exact Or.inr ⟨addressed, control⟩
    · rcases held with member | ⟨fresh, before⟩
      · exact Or.inl ((List.mem_cons.mp member).resolve_left here)
      · refine Or.inr ⟨fun counter small => kept.fresh cpu counter (fresh counter small), ?_⟩
        rw [kept.msr _ _ fun held => here (Fin.ext held.1)]
        exact before

/-- The state after `pmu_init`, on the cpus it ran on. -/
structure PmuReady (online : List (Fin nrCpus)) (p : PmuModule) : Prop where
  fresh : ∀ cpu ∈ online, ∀ counter < numCounters, Fresh cpu counter p
  mirrored : ∀ cpu ∈ online, ∀ counter < numCounters, Mirrored cpu counter p
  loaded : FixedLoaded p
  fixed : ∀ cpu ∈ online, FixedReady cpu p

theorem PmuReady.addressed {online : List (Fin nrCpus)} (ready : PmuReady online p) {cpu}
    (member : cpu ∈ online) : p.Addressed cpu where
  evtsel counter small := by
    rw [(ready.fresh cpu member counter small).evtsel]
    rfl
  counter counter small := by
    rw [(ready.fresh cpu member counter small).counter]
  fcounter counter small := by
    rw [(ready.fixed cpu member).1 counter small]

/-- `pmu_init`, when it succeeds, prepares the cpus both its parts ran on. -/
theorem pmuInit_ready {general fixed : RanOn nrCpus} {msr : Nat → BitVec 32 → BitVec 64}
    (succeeds : (pmuInit general fixed (PmuModule.loaded msr)).1 = 0) :
    PmuReady (general.cpus.filter (· ∈ fixed.cpus))
      (pmuInit general fixed (PmuModule.loaded msr)).2 := by
  have loaded : FixedLoaded (PmuModule.loaded msr) :=
    ⟨fun _ => rfl, fun _ _ => rfl, fun _ _ => rfl⟩
  obtain ⟨_, kept, generalDone⟩ :=
    pmuInitMsrs_foldl general.cpus fun counter _ => fresh_loaded msr counter
  obtain ⟨loadedAfter, generalKept, fixedDone⟩ :=
    fpmuInitMsrs_foldl fixed.cpus (kept.loaded loaded)
  unfold pmuInit at succeeds ⊢
  dsimp only at succeeds ⊢
  split at succeeds
  · exact absurd succeeds (show -enodev ≠ 0 by decide)
  · split at succeeds
    · exact absurd succeeds (show -enodev ≠ 0 by decide)
    · rename_i ranGeneral ranFixed
      rw [if_neg ranGeneral, if_neg ranFixed]
      refine ⟨fun cpu member counter small => ?_, fun cpu member counter small => ?_, loadedAfter,
        fun cpu member => ?_⟩
      · have ran := generalDone cpu (Or.inl (List.mem_of_mem_filter member)) counter small
        exact (generalKept cpu counter small ran).1
      · have ran := generalDone cpu (Or.inl (List.mem_of_mem_filter member)) counter small
        exact (generalKept cpu counter small ran).2
      · refine fixedDone cpu (Or.inl ?_)
        exact of_decide_eq_true (List.mem_filter.mp member).2

end Init

end Seeker
