/-
This file says what a call to the pmu module leaves alone.

A call works on the row and the registers of the cpu it runs on, and each call has a
small set of registers that it may write. `Touches` is the relation between the states
before and after; every write of the module goes on with it, so that a call is followed
write by write.
-/
import Seeker.PmuCounters

namespace Seeker

/-! ### What a call touches -/

section Cells

variable {Value : Type*} {table : Nat → Nat → Value} {cpu other index cell : Nat} {value : Value}

theorem putCell_of_ne (apart : other ≠ cpu) : putCell table cpu index value other = table other :=
  Function.update_of_ne apart _ _

@[simp]
theorem putCell_self : putCell table cpu index value cpu index = value := by
  simp [putCell]

theorem putCell_of_index_ne (apart : cell ≠ index) :
    putCell table cpu index value other cell = table other cell := by
  by_cases same : other = cpu
  · subst same
    simp [putCell, Function.update_of_ne apart]
  · rw [putCell_of_ne same]

theorem putCell_eq_self (same : table cpu index = value) : putCell table cpu index value = table := by
  unfold putCell
  rw [← same, Function.update_eq_self, Function.update_eq_self]

/-- What every cell keeps that is written as it was. -/
theorem putCell_keeps {Part : Type*} {part : Value → Part}
    (kept : part value = part (table cpu index)) :
    part (putCell table cpu index value other cell) = part (table other cell) := by
  by_cases apart : cell = index
  · subst apart
    by_cases same : other = cpu
    · subst same
      rw [putCell_self, kept]
    · rw [putCell_of_ne same]
  · rw [putCell_of_index_ne apart]

end Cells

/-- The second state differs from the first one in the registers given and in the tables of one
cpu only, and no address in a table is another one. -/
structure Touches (cpu : Nat) (registers : List (BitVec 32)) (p p' : PmuModule) : Prop where
  msr : ∀ other address, ¬ (other = cpu ∧ address ∈ registers) →
    p'.hw.msr other address = p.hw.msr other address
  evtsel : ∀ other, other ≠ cpu → p'.hw.evtsel other = p.hw.evtsel other
  fcontrol : ∀ other, other ≠ cpu → p'.hw.fcontrol other = p.hw.fcontrol other
  counters : ∀ other, other ≠ cpu → p'.counters other = p.counters other
  cleared : ∀ other, other ≠ cpu → p'.cleared other = p.cleared other
  fcounters : ∀ other, other ≠ cpu → p'.fcounters other = p.fcounters other
  fcleared : ∀ other, other ≠ cpu → p'.fcleared other = p.fcleared other
  evtselAddr : ∀ other counter,
    (p'.hw.evtsel other counter).addr = (p.hw.evtsel other counter).addr
  counterAddr : ∀ other counter, (p'.counters other counter).addr = (p.counters other counter).addr
  fcounterAddr : ∀ other counter,
    (p'.fcounters other counter).addr = (p.fcounters other counter).addr

section Touches

variable {cpu : Nat} {registers : List (BitVec 32)} {p p' p'' : PmuModule}

theorem Touches.refl (cpu : Nat) (registers : List (BitVec 32)) (p : PmuModule) :
    Touches cpu registers p p :=
  ⟨fun _ _ _ => rfl, fun _ _ => rfl, fun _ _ => rfl, fun _ _ => rfl, fun _ _ => rfl,
    fun _ _ => rfl, fun _ _ => rfl, fun _ _ => rfl, fun _ _ => rfl, fun _ _ => rfl⟩

theorem Touches.trans (first : Touches cpu registers p p') (second : Touches cpu registers p' p'') :
    Touches cpu registers p p'' where
  msr other address outside :=
    (second.msr other address outside).trans (first.msr other address outside)
  evtsel other apart := (second.evtsel other apart).trans (first.evtsel other apart)
  fcontrol other apart := (second.fcontrol other apart).trans (first.fcontrol other apart)
  counters other apart := (second.counters other apart).trans (first.counters other apart)
  cleared other apart := (second.cleared other apart).trans (first.cleared other apart)
  fcounters other apart := (second.fcounters other apart).trans (first.fcounters other apart)
  fcleared other apart := (second.fcleared other apart).trans (first.fcleared other apart)
  evtselAddr other counter :=
    (second.evtselAddr other counter).trans (first.evtselAddr other counter)
  counterAddr other counter :=
    (second.counterAddr other counter).trans (first.counterAddr other counter)
  fcounterAddr other counter :=
    (second.fcounterAddr other counter).trans (first.fcounterAddr other counter)

theorem Touches.mono {more : List (BitVec 32)} (touches : Touches cpu registers p p')
    (included : registers ⊆ more) : Touches cpu more p p' :=
  { touches with
    msr := fun other address outside =>
      touches.msr other address fun held => outside ⟨held.1, included held.2⟩ }

/-- A chain of writes goes on with one to a register. -/
theorem Touches.write {address : BitVec 32} (touches : Touches cpu registers p p')
    (inside : address ∈ registers) (low high : BitVec 32) :
    Touches cpu registers p (p'.write cpu address low high) :=
  { touches with
    msr := by
      intro other register outside
      show (wrmsr cpu address low high p'.hw).msr other register = p.hw.msr other register
      refine Eq.trans (wrmsr_other (Fin.last cpu) p'.hw fun same => outside ?_)
        (touches.msr other register outside)
      obtain ⟨rfl, rfl⟩ := Prod.ext_iff.mp same
      exact ⟨rfl, inside⟩ }

theorem Touches.putEvtsel (touches : Touches cpu registers p p') {counter : Nat} {e : Evtsel}
    (same : e.addr = (p'.hw.evtsel cpu counter).addr) :
    Touches cpu registers p (p'.putEvtsel cpu counter e) :=
  { touches with
    evtsel := fun other apart => (putCell_of_ne apart).trans (touches.evtsel other apart)
    evtselAddr := fun other counter => (putCell_keeps same).trans (touches.evtselAddr other counter) }

theorem Touches.putFcontrol (touches : Touches cpu registers p p') (f : Fixctrl) :
    Touches cpu registers p (p'.putFcontrol cpu f) :=
  { touches with
    fcontrol := fun other apart =>
      (Function.update_of_ne apart _ _).trans (touches.fcontrol other apart) }

theorem Touches.putCounter (touches : Touches cpu registers p p') {counter : Nat} {c : PmuCounter}
    (same : c.addr = (p'.counters cpu counter).addr) :
    Touches cpu registers p (p'.putCounter cpu counter c) :=
  { touches with
    counters := fun other apart => (putCell_of_ne apart).trans (touches.counters other apart)
    counterAddr := fun other counter =>
      (putCell_keeps same).trans (touches.counterAddr other counter) }

theorem Touches.putFcounter (touches : Touches cpu registers p p') {counter : Nat}
    {c : FixedCounter} (same : c.addr = (p'.fcounters cpu counter).addr) :
    Touches cpu registers p (p'.putFcounter cpu counter c) :=
  { touches with
    fcounters := fun other apart => (putCell_of_ne apart).trans (touches.fcounters other apart)
    fcounterAddr := fun other counter =>
      (putCell_keeps same).trans (touches.fcounterAddr other counter) }

theorem Touches.putCleared (touches : Touches cpu registers p p') (counter : Nat) (c : Cleared) :
    Touches cpu registers p (p'.putCleared cpu counter c) :=
  { touches with
    cleared := fun other apart => (putCell_of_ne apart).trans (touches.cleared other apart) }

theorem Touches.putFcleared (touches : Touches cpu registers p p') (counter : Nat) (c : Cleared) :
    Touches cpu registers p (p'.putFcleared cpu counter c) :=
  { touches with
    fcleared := fun other apart => (putCell_of_ne apart).trans (touches.fcleared other apart) }

end Touches

/-- The addresses in the rows of a cpu are those of its registers. -/
structure PmuModule.Addressed (p : PmuModule) (cpu : Nat) : Prop where
  evtsel : ∀ counter < numCounters, (p.hw.evtsel cpu counter).addr = evtselAddress counter
  counter : ∀ counter < numCounters, (p.counters cpu counter).addr = pmcAddress counter
  fcounter : ∀ counter < numFixedCounters, (p.fcounters cpu counter).addr = fixedAddress counter

theorem Touches.addressed {cpu other : Nat} {registers : List (BitVec 32)} {p p' : PmuModule}
    (touches : Touches cpu registers p p') (addressed : p.Addressed other) :
    p'.Addressed other where
  evtsel counter small := (touches.evtselAddr other counter).trans (addressed.evtsel counter small)
  counter counter small :=
    (touches.counterAddr other counter).trans (addressed.counter counter small)
  fcounter counter small :=
    (touches.fcounterAddr other counter).trans (addressed.fcounter counter small)

section Frames

variable {nrCpus : Nat} {cpu : Fin nrCpus} {registers : List (BitVec 32)} {p p' : PmuModule}
  {counter : Nat}

theorem Touches.evtselWrite (touches : Touches cpu registers p p')
    (placed : (p.hw.evtsel cpu counter).addr = evtselAddress counter)
    (inside : evtselAddress counter ∈ registers) :
    Touches cpu registers p { p' with hw := evtselWrite cpu counter p'.hw } := by
  rw [evtselWrite_eq]
  exact touches.write (((touches.evtselAddr cpu counter).trans placed).symm ▸ inside) _ _

theorem Touches.evtselClear (touches : Touches cpu registers p p')
    (placed : (p.hw.evtsel cpu counter).addr = evtselAddress counter)
    (inside : evtselAddress counter ∈ registers) :
    Touches cpu registers p { p' with hw := evtselClear cpu counter p'.hw } := by
  rw [evtselClear_eq]
  exact touches.write (((touches.evtselAddr cpu counter).trans placed).symm ▸ inside) _ _

theorem Touches.controlWrite (touches : Touches cpu registers p p')
    (inside : msrPerfFixedCtrCtrl ∈ registers) :
    Touches cpu registers p { p' with hw := controlWrite cpu p'.hw } := by
  rw [controlWrite_eq]
  exact touches.write inside _ _

theorem Touches.controlClear (touches : Touches cpu registers p p')
    (inside : msrPerfFixedCtrCtrl ∈ registers) :
    Touches cpu registers p { p' with hw := controlClear cpu p'.hw } :=
  touches.write inside _ _

theorem counterClear_of_lt (small : counter < numCounters) :
    counterClear cpu counter p = p.write cpu (p.counters cpu counter).addr 0 0 := by
  unfold counterClear
  rw [if_neg (not_le.mpr small), if_pos cpu.isLt]

theorem counterClear_of_le (large : numCounters ≤ counter) : counterClear cpu counter p = p :=
  if_pos large

theorem Touches.counterClear (touches : Touches cpu registers p p')
    (placed : counter < numCounters → (p.counters cpu counter).addr = pmcAddress counter)
    (inside : pmcAddress counter ∈ registers) :
    Touches cpu registers p (counterClear cpu counter p') := by
  by_cases small : counter < numCounters
  · rw [counterClear_of_lt small]
    exact touches.write (((touches.counterAddr cpu counter).trans (placed small)).symm ▸ inside) _ _
  · rwa [counterClear_of_le (not_lt.mp small)]

/-- The second write of `fcounter_clear` writes what the first one has written. -/
theorem fcounterClear_eq (counter : Nat) : fcounterClear cpu counter p =
    p.write cpu (p.fcounters cpu counter).addr (p.fcleared cpu counter).low
      (p.fcleared cpu counter).high := by
  unfold fcounterClear
  rw [if_pos cpu.isLt]
  simp [PmuModule.write, wrmsr]

theorem Touches.fcounterClear (touches : Touches cpu registers p p')
    (placed : (p.fcounters cpu counter).addr = fixedAddress counter)
    (inside : fixedAddress counter ∈ registers) :
    Touches cpu registers p (fcounterClear cpu counter p') := by
  rw [fcounterClear_eq]
  exact touches.write (((touches.fcounterAddr cpu counter).trans placed).symm ▸ inside) _ _

/-- The three clears that `fcounters_enable` and `fcounters_disable` begin with. -/
theorem Touches.fcounterClears (touches : Touches cpu registers p p') (addressed : p.Addressed cpu)
    (inside : ∀ counter < numFixedCounters, fixedAddress counter ∈ registers) :
    Touches cpu registers p
      (Loops.forRange numFixedCounters (Seeker.fcounterClear cpu) p') := by
  refine Loops.forRange_induction (fun _ current => Touches cpu registers p current) touches ?_
  intro counter small current soFar
  exact soFar.fcounterClear (addressed.fcounter counter small) (inside counter small)

theorem touches_counterRead : Touches cpu registers p (counterRead cpu p) := by
  unfold counterRead
  rw [if_pos cpu.isLt]
  refine Loops.forRange_induction (fun _ current => Touches cpu registers p current)
    (Touches.refl ..) fun counter _ current touches => ?_
  unfold readCounter
  split
  · exact touches
  · exact touches.putCounter rfl

theorem touches_fcounterRead : Touches cpu registers p (fcounterRead cpu p) := by
  unfold fcounterRead
  rw [if_pos cpu.isLt]
  refine Loops.forRange_induction (fun _ current => Touches cpu registers p current)
    (Touches.refl ..) fun counter _ current touches => ?_
  exact touches.putFcounter rfl

theorem Touches.claimCounter {event evMask os : BitVec 32} (touches : Touches cpu registers p p')
    (addressed : p.Addressed cpu) (small : counter < numCounters)
    (evtselInside : evtselAddress counter ∈ registers)
    (pmcInside : pmcAddress counter ∈ registers) :
    Touches cpu registers p (claimCounter cpu event evMask os counter p') := by
  refine Touches.evtselWrite ?_ (addressed.evtsel counter small) evtselInside
  refine Touches.putEvtsel ?_ rfl
  refine Touches.putCounter ?_ rfl
  refine Touches.counterClear ?_ (addressed.counter counter) pmcInside
  exact touches.evtselClear (addressed.evtsel counter small) evtselInside

theorem Touches.counterDisable (touches : Touches cpu registers p p') (addressed : p.Addressed cpu)
    (evtselInside : evtselAddress counter ∈ registers)
    (pmcInside : pmcAddress counter ∈ registers) :
    Touches cpu registers p (counterDisable cpu counter p') := by
  unfold Seeker.counterDisable
  split
  · exact touches
  · rename_i inRange
    have small : counter < numCounters := not_le.mp fun large => inRange (Or.inl large)
    split
    · exact touches
    · refine Touches.evtselWrite ?_ (addressed.evtsel counter small) evtselInside
      refine Touches.putCounter ?_ rfl
      refine Touches.putEvtsel ?_ rfl
      refine Touches.counterClear ?_ (addressed.counter counter) pmcInside
      exact touches.evtselClear (addressed.evtsel counter small) evtselInside

/-- `counter_enable` fails when no counter is idle, and claims the first idle one otherwise. -/
theorem pmuCounterEnable_cases (cpu : Fin nrCpus) (event evMask os : BitVec 32) (p : PmuModule) :
    ((∀ counter < numCounters, (p.counters cpu counter).enabled ≠ 0) ∧
      pmuCounterEnable cpu event evMask os p = (-1, p)) ∨
    ∃ counter < numCounters, (p.counters cpu counter).enabled = 0 ∧
      pmuCounterEnable cpu event evMask os p =
        ((counter : Int), claimCounter cpu event evMask os counter p) := by
  unfold pmuCounterEnable
  rw [if_neg (not_le.mpr cpu.isLt)]
  cases found : Loops.firstFrom (fun counter => (p.counters cpu counter).enabled = 0) 0
    numCounters with
  | none =>
    refine Or.inl ⟨fun counter small => ?_, rfl⟩
    have busy := Loops.firstFrom_eq_none found (Nat.zero_le counter) small
    simpa using busy
  | some counter =>
    obtain ⟨⟨_, small⟩, idle⟩ := Loops.firstFrom_eq_some found
    exact Or.inr ⟨counter, small, by simpa using idle, rfl⟩

/-- A call touches the row of its cpu and the registers it may write, and nothing else. -/
theorem PmuCall.touches (addressed : p.Addressed cpu) (call : PmuCall) :
    Touches cpu call.writes p (call.perform cpu p).2 := by
  have start : ∀ {registers}, Touches cpu registers p p := Touches.refl ..
  have generalInside : ∀ counter < numCounters,
      evtselAddress counter ∈
          [evtselAddress 0, pmcAddress 0, evtselAddress 1, pmcAddress 1] ∧
        pmcAddress counter ∈
          [evtselAddress 0, pmcAddress 0, evtselAddress 1, pmcAddress 1] := by decide
  have fixedInside : ∀ counter < numFixedCounters, fixedAddress counter ∈
      [fixedAddress 0, fixedAddress 1, fixedAddress 2, msrPerfFixedCtrCtrl] := by decide
  cases call with
  | counterEnable event evMask os =>
    rcases pmuCounterEnable_cases cpu event evMask os p with
      ⟨_, failed⟩ | ⟨counter, small, _, claimed⟩
    · show Touches _ _ _ (pmuCounterEnable cpu event evMask os p).2
      rw [failed]
      exact start
    · show Touches _ _ _ (pmuCounterEnable cpu event evMask os p).2
      rw [claimed]
      exact start.claimCounter addressed small (generalInside counter small).1
        (generalInside counter small).2
  | counterDisable counter =>
    exact start.counterDisable addressed List.mem_cons_self
      (List.mem_cons_of_mem _ List.mem_cons_self)
  | counterClear counter => exact start.counterClear (addressed.counter counter) List.mem_cons_self
  | counterRead => exact touches_counterRead
  | fcountersEnable os =>
    show Touches _ _ _ (pmuFcountersEnable cpu os p)
    unfold pmuFcountersEnable
    rw [if_pos cpu.isLt]
    refine Touches.controlWrite ?_ (by simp [PmuCall.writes])
    refine Touches.putFcontrol ?_ _
    exact start.fcounterClears addressed fixedInside
  | fcountersDisable =>
    show Touches _ _ _ (Seeker.fcountersDisable cpu p)
    unfold Seeker.fcountersDisable
    rw [if_pos cpu.isLt]
    refine Touches.controlClear ?_ (by simp [PmuCall.writes])
    exact start.fcounterClears addressed fixedInside
  | fcounterClear counter =>
    exact start.fcounterClear (addressed.fcounter counter counter.isLt) List.mem_cons_self
  | fcounterRead => exact touches_fcounterRead
  | pmuConfigureInterrupt ctr low high =>
    show Touches _ _ _ (if ctr < numCounters then _ else _)
    split
    · exact start.putCleared ctr _
    · exact start
  | pmuEnableInterrupt ctr =>
    show Touches _ _ _ (Seeker.pmuEnableInterrupt cpu ctr p).2
    unfold Seeker.pmuEnableInterrupt
    split
    · rename_i inRange
      refine Touches.evtselWrite ?_ (addressed.evtsel ctr inRange.2) List.mem_cons_self
      exact start.putEvtsel rfl
    · exact start
  | pmuDisableInterrupt ctr =>
    show Touches _ _ _ (Seeker.pmuDisableInterrupt cpu ctr p).2
    unfold Seeker.pmuDisableInterrupt
    split
    · rename_i inRange
      refine Touches.evtselWrite ?_ (addressed.evtsel ctr inRange.1) List.mem_cons_self
      refine Touches.putEvtsel ?_ rfl
      exact start.putCleared ctr _
    · exact start
  | pmuClearOvfStatus ctr =>
    show Touches _ _ _ (Seeker.pmuClearOvfStatus cpu ctr p).2
    unfold Seeker.pmuClearOvfStatus
    split
    · exact start
    · dsimp only
      split
      · exact start.write List.mem_cons_self _ _
      · exact start
  | fpmuConfigureInterrupt ctr low high =>
    show Touches _ _ _ (if ctr < numFixedCounters then _ else _)
    split
    · exact start.putFcleared ctr _
    · exact start
  | fpmuEnableInterrupt ctr =>
    show Touches _ _ _ (Seeker.fpmuEnableInterrupt cpu ctr p).2
    unfold Seeker.fpmuEnableInterrupt
    split
    · exact start
    · refine Touches.controlWrite ?_ List.mem_cons_self
      exact start.putFcontrol _
  | fpmuDisableInterrupt ctr =>
    have zeroed : Touches cpu (PmuCall.writes (.fpmuDisableInterrupt ctr)) p
        (if ctr < numFixedCounters then p.putFcleared cpu ctr (Cleared.of 0 0) else p) := by
      split
      · exact start.putFcleared ctr _
      · exact start
    show Touches _ _ _ (Seeker.fpmuDisableInterrupt cpu ctr p).2
    unfold Seeker.fpmuDisableInterrupt
    dsimp only
    split
    · exact zeroed
    · refine Touches.controlWrite ?_ List.mem_cons_self
      exact zeroed.putFcontrol _
  | fpmuClearOvfStatus ctr =>
    show Touches _ _ _ (Seeker.fpmuClearOvfStatus cpu ctr p).2
    unfold Seeker.fpmuClearOvfStatus
    dsimp only
    split
    · exact start.write List.mem_cons_self _ _
    · exact start

end Frames

end Seeker
