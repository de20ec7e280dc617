/-
This file proves that a call to the pmu module keeps the descriptors of the general
counters in their registers.

The descriptor of a general counter is in its register after every call, and the mark of
a counter that is claimed is the enabled bit of the descriptor. Four of the calls write
an event select register; each ends with `evtsel_write`. The others keep all descriptors
and write none of these registers.
-/
import Seeker.PmuFrames

namespace Seeker

open BitFields

section Mirror

variable {nrCpus : Nat} {cpu : Fin nrCpus} {p p' : PmuModule}

/-! ### A general counter and its register -/

/-- The register of a general counter holds its descriptor, and the counter is marked exactly as
the descriptor is. -/
structure Mirrored (cpu counter : Nat) (p : PmuModule) : Prop where
  holds : HoldsFields (p.hw.evtsel cpu counter).fields (p.hw.msr cpu (evtselAddress counter))
  agree : (p.counters cpu counter).enabled = (p.hw.evtsel cpu counter).enabled.setWidth 32

/-- The descriptor and the mark of a counter are the same in both states. -/
structure SlotKept (cpu counter : Nat) (p p' : PmuModule) : Prop where
  evtsel : p'.hw.evtsel cpu counter = p.hw.evtsel cpu counter
  enabled : (p'.counters cpu counter).enabled = (p.counters cpu counter).enabled

variable {cpuId counter : Nat}

theorem SlotKept.refl (cpuId counter : Nat) (p : PmuModule) : SlotKept cpuId counter p p :=
  ⟨rfl, rfl⟩

theorem SlotKept.trans {p'' : PmuModule} (first : SlotKept cpuId counter p p')
    (second : SlotKept cpuId counter p' p'') : SlotKept cpuId counter p p'' :=
  ⟨second.evtsel.trans first.evtsel, second.enabled.trans first.enabled⟩

/-- A counter whose register is not written stays mirrored with its descriptor. -/
theorem Mirrored.of_kept {registers : List (BitVec 32)} (mirrored : Mirrored cpuId counter p)
    (touches : Touches cpu registers p p') (kept : SlotKept cpuId counter p p')
    (untouched : ¬ (cpuId = cpu ∧ evtselAddress counter ∈ registers)) :
    Mirrored cpuId counter p' := by
  refine ⟨?_, ?_⟩
  · rw [kept.evtsel, touches.msr _ _ untouched]
    exact mirrored.holds
  · rw [kept.enabled, kept.evtsel]
    exact mirrored.agree

@[simp]
theorem evtselWrite_evtsel (h : Pmu) : (evtselWrite cpu counter h).evtsel = h.evtsel := by
  rw [evtselWrite_eq]
  rfl

theorem slotKept_evtselWrite (written : Nat) :
    SlotKept cpuId counter p { p with hw := evtselWrite cpu written p.hw } :=
  ⟨congrArg (fun table => table cpuId counter) (evtselWrite_evtsel p.hw), rfl⟩

/-- After `evtsel_write` the register holds the descriptor. -/
theorem mirrored_evtselWrite
    (placed : (p.hw.evtsel cpu counter).addr = evtselAddress counter)
    (agree : (p.counters cpu counter).enabled = (p.hw.evtsel cpu counter).enabled.setWidth 32) :
    Mirrored cpu counter { p with hw := evtselWrite cpu counter p.hw } := by
  refine ⟨?_, ?_⟩
  · have written : evtselRegister cpu counter p.hw (evtselWrite cpu counter p.hw) = _ :=
      evtselWrite_register
    rw [evtselRegister, placed] at written
    show HoldsFields ((evtselWrite cpu counter p.hw).evtsel cpu counter).fields _
    rw [evtselWrite_evtsel, written]
    refine holdsFields_of evtselSpans_fit fun field member index inLow covers => ?_
    exact getLsbD_merge_of_covers evtselReservedBits_isReserved evtselSpans_apart member inLow
      covers
  · show _ = ((evtselWrite cpu counter p.hw).evtsel cpu counter).enabled.setWidth 32
    rw [evtselWrite_evtsel]
    exact agree

/-- The two event select registers are no other registers. -/
theorem evtselAddress_apart : ∀ counter < numCounters,
    (∀ other < numCounters, counter ≠ other →
      evtselAddress counter ∉ [evtselAddress other, pmcAddress other]) ∧
    evtselAddress counter ∉ [fixedAddress 0, fixedAddress 1, fixedAddress 2, msrPerfFixedCtrCtrl,
      msrPerfGlobalOvfCtrl, msrPerfGlobalStatus, pmcAddress 0, pmcAddress 1] := by
  decide

/-- A call that ends with `evtsel_write` leaves every counter of its cpu mirrored: the one it
writes, and the others because it keeps them. -/
theorem mirrored_rewrite {written : Nat} {q : PmuModule}
    (placed : (p.hw.evtsel cpu written).addr = evtselAddress written)
    (small : written < numCounters)
    (touches : Touches cpu [evtselAddress written, pmcAddress written] p q)
    (kept : ∀ counter, counter ≠ written → SlotKept cpu counter p q)
    (agree : (q.counters cpu written).enabled = (q.hw.evtsel cpu written).enabled.setWidth 32)
    (mirrored : ∀ counter < numCounters, Mirrored cpu counter p) :
    ∀ counter < numCounters,
      Mirrored cpu counter { q with hw := evtselWrite cpu written q.hw } := by
  intro counter inRange
  by_cases same : counter = written
  · subst same
    exact mirrored_evtselWrite ((touches.evtselAddr cpu counter).trans placed) agree
  · refine (mirrored counter inRange).of_kept
      (touches.evtselWrite placed List.mem_cons_self)
      ((kept counter same).trans (slotKept_evtselWrite written)) fun held => ?_
    exact (evtselAddress_apart counter inRange).1 written small same held.2

theorem slotKept_counterClear (cleared : Nat) :
    SlotKept cpuId counter p (counterClear cpu cleared p) := by
  unfold counterClear
  split
  · exact SlotKept.refl ..
  · split
    · exact ⟨rfl, rfl⟩
    · exact SlotKept.refl ..

theorem slotKept_putEvtsel {written : Nat} {e : Evtsel} (apart : counter ≠ written) :
    SlotKept cpuId counter p (p.putEvtsel cpu written e) :=
  ⟨putCell_of_index_ne apart, rfl⟩

theorem slotKept_putCounter {written : Nat} {c : PmuCounter} (apart : counter ≠ written) :
    SlotKept cpuId counter p (p.putCounter cpu written c) :=
  ⟨rfl, congrArg PmuCounter.enabled (putCell_of_index_ne apart)⟩

theorem slotKept_evtselClear (cleared : Nat) :
    SlotKept cpuId counter p { p with hw := evtselClear cpu cleared p.hw } :=
  ⟨rfl, rfl⟩

theorem mirrored_claimCounter {event evMask os : BitVec 32} {claimed : Nat}
    (addressed : p.Addressed cpu) (small : claimed < numCounters)
    (mirrored : ∀ counter < numCounters, Mirrored cpu counter p) :
    ∀ counter < numCounters,
      Mirrored cpu counter (claimCounter cpu event evMask os claimed p) := by
  refine mirrored_rewrite (addressed.evtsel claimed small) small ?_ (fun counter apart => ?_) ?_
    mirrored
  · refine Touches.putEvtsel ?_ rfl
    refine Touches.putCounter ?_ rfl
    refine Touches.counterClear ?_ (addressed.counter claimed)
      (List.mem_cons_of_mem _ List.mem_cons_self)
    exact (Touches.refl ..).evtselClear (addressed.evtsel claimed small) List.mem_cons_self
  · refine SlotKept.trans ?_ (slotKept_putEvtsel apart)
    refine SlotKept.trans ?_ (slotKept_putCounter apart)
    exact (slotKept_evtselClear claimed).trans (slotKept_counterClear claimed)
  · simp [PmuModule.putEvtsel, PmuModule.putCounter, Evtsel.counting]

theorem mirrored_counterDisable {disabled : Nat} (addressed : p.Addressed cpu)
    (mirrored : ∀ counter < numCounters, Mirrored cpu counter p) :
    ∀ counter < numCounters, Mirrored cpu counter (counterDisable cpu disabled p) := by
  unfold counterDisable
  split
  · exact mirrored
  · rename_i inRange
    have small : disabled < numCounters := not_le.mp fun large => inRange (Or.inl large)
    split
    · exact mirrored
    · refine mirrored_rewrite (addressed.evtsel disabled small) small ?_ (fun counter apart => ?_)
        ?_ mirrored
      · refine Touches.putCounter ?_ rfl
        refine Touches.putEvtsel ?_ rfl
        refine Touches.counterClear ?_ (addressed.counter disabled)
          (List.mem_cons_of_mem _ List.mem_cons_self)
        exact (Touches.refl ..).evtselClear (addressed.evtsel disabled small) List.mem_cons_self
      · refine SlotKept.trans ?_ (slotKept_putCounter apart)
        refine SlotKept.trans ?_ (slotKept_putEvtsel apart)
        exact (slotKept_evtselClear disabled).trans (slotKept_counterClear disabled)
      · simp [PmuModule.putEvtsel, PmuModule.putCounter]

/-- An interrupt that is switched on or off changes one bit of a descriptor. -/
theorem mirrored_intFlag {ctr : Nat} {q : PmuModule} (flag : BitVec 1)
    (addressed : p.Addressed cpu) (small : ctr < numCounters)
    (touches : Touches cpu [evtselAddress ctr, pmcAddress ctr] p q)
    (kept : ∀ counter, SlotKept cpu counter p q)
    (mirrored : ∀ counter < numCounters, Mirrored cpu counter p) :
    ∀ counter < numCounters, Mirrored cpu counter
      { q.putEvtsel cpu ctr { q.hw.evtsel cpu ctr with intFlag := flag } with
        hw := evtselWrite cpu ctr
          (q.putEvtsel cpu ctr { q.hw.evtsel cpu ctr with intFlag := flag }).hw } := by
  refine mirrored_rewrite (addressed.evtsel ctr small) small (touches.putEvtsel rfl)
    (fun counter apart => ?_) ?_ mirrored
  · exact (kept counter).trans (slotKept_putEvtsel apart)
  · have before := (mirrored ctr small).agree
    rw [← (kept ctr).enabled, ← (kept ctr).evtsel] at before
    simpa [PmuModule.putEvtsel] using before

theorem slotKept_counterRead : SlotKept cpuId counter p (counterRead cpu p) := by
  unfold counterRead
  rw [if_pos cpu.isLt]
  refine Loops.forRange_induction (fun _ current => SlotKept cpuId counter p current)
    (SlotKept.refl ..) fun index _ current kept => kept.trans ?_
  unfold readCounter
  split
  · exact SlotKept.refl ..
  · exact ⟨rfl, putCell_keeps rfl⟩

theorem slotKept_fcounterRead : SlotKept cpuId counter p (fcounterRead cpu p) := by
  unfold fcounterRead
  rw [if_pos cpu.isLt]
  refine Loops.forRange_induction (fun _ current => SlotKept cpuId counter p current)
    (SlotKept.refl ..) fun index _ current kept => kept.trans ?_
  exact ⟨rfl, rfl⟩

theorem slotKept_fcounterClear (cleared : Nat) :
    SlotKept cpuId counter p (fcounterClear cpu cleared p) := by
  rw [fcounterClear_eq]
  exact ⟨rfl, rfl⟩

theorem slotKept_fcounterClears :
    SlotKept cpuId counter p (Loops.forRange numFixedCounters (fcounterClear cpu) p) :=
  Loops.forRange_induction (fun _ current => SlotKept cpuId counter p current) (SlotKept.refl ..)
    fun index _ _ kept => kept.trans (slotKept_fcounterClear index)

theorem slotKept_controlWrite :
    SlotKept cpuId counter p { p with hw := controlWrite cpu p.hw } := by
  rw [controlWrite_eq]
  exact ⟨rfl, rfl⟩

/-- The calls that write an event select register. -/
def PmuCall.Selects : PmuCall → Bool
  | .counterEnable _ _ _ | .counterDisable _ | .pmuEnableInterrupt _ | .pmuDisableInterrupt _ =>
      true
  | _ => false

/-- The other calls keep all descriptors and marks. -/
theorem slotKept_call {request : PmuCall} (plain : request.Selects = false) :
    SlotKept cpuId counter p (request.perform cpu p).2 := by
  cases request with
  | counterEnable event evMask os => cases plain
  | counterDisable other => cases plain
  | counterClear other => exact slotKept_counterClear other
  | counterRead => exact slotKept_counterRead
  | fcountersEnable os =>
    show SlotKept _ _ _ (pmuFcountersEnable cpu os p)
    unfold pmuFcountersEnable
    rw [if_pos cpu.isLt]
    refine SlotKept.trans ?_ slotKept_controlWrite
    exact slotKept_fcounterClears.trans ⟨rfl, rfl⟩
  | fcountersDisable =>
    show SlotKept _ _ _ (Seeker.fcountersDisable cpu p)
    unfold Seeker.fcountersDisable
    rw [if_pos cpu.isLt]
    exact slotKept_fcounterClears.trans ⟨rfl, rfl⟩
  | fcounterClear other => exact slotKept_fcounterClear other
  | fcounterRead => exact slotKept_fcounterRead
  | pmuConfigureInterrupt ctr low high =>
    show SlotKept _ _ _ (if ctr < numCounters then _ else _)
    split <;> exact ⟨rfl, rfl⟩
  | pmuEnableInterrupt ctr => cases plain
  | pmuDisableInterrupt ctr => cases plain
  | pmuClearOvfStatus ctr =>
    show SlotKept _ _ _ (Seeker.pmuClearOvfStatus cpu ctr p).2
    unfold Seeker.pmuClearOvfStatus
    dsimp only
    split
    · exact SlotKept.refl ..
    · split <;> exact ⟨rfl, rfl⟩
  | fpmuConfigureInterrupt ctr low high =>
    show SlotKept _ _ _ (if ctr < numFixedCounters then _ else _)
    split <;> exact ⟨rfl, rfl⟩
  | fpmuEnableInterrupt ctr =>
    show SlotKept _ _ _ (Seeker.fpmuEnableInterrupt cpu ctr p).2
    unfold Seeker.fpmuEnableInterrupt
    split
    · exact SlotKept.refl ..
    · refine SlotKept.trans ?_ slotKept_controlWrite
      exact ⟨rfl, rfl⟩
  | fpmuDisableInterrupt ctr =>
    have zeroed : SlotKept cpuId counter p
        (if ctr < numFixedCounters then p.putFcleared cpu ctr (Cleared.of 0 0) else p) := by
      split <;> exact ⟨rfl, rfl⟩
    show SlotKept _ _ _ (Seeker.fpmuDisableInterrupt cpu ctr p).2
    unfold Seeker.fpmuDisableInterrupt
    dsimp only
    split
    · exact zeroed
    · refine SlotKept.trans ?_ slotKept_controlWrite
      exact zeroed.trans ⟨rfl, rfl⟩
  | fpmuClearOvfStatus ctr =>
    show SlotKept _ _ _ (Seeker.fpmuClearOvfStatus cpu ctr p).2
    unfold Seeker.fpmuClearOvfStatus
    dsimp only
    split <;> exact ⟨rfl, rfl⟩

/-- The other calls write no event select register. -/
theorem evtselAddress_notMem_writes {request : PmuCall} (plain : request.Selects = false)
    (small : counter < numCounters) : evtselAddress counter ∉ request.writes := by
  have apart := (evtselAddress_apart counter small).2
  have pmcInside : ∀ other, pmcAddress other ∈ [fixedAddress 0, fixedAddress 1, fixedAddress 2,
      msrPerfFixedCtrCtrl, msrPerfGlobalOvfCtrl, msrPerfGlobalStatus, pmcAddress 0,
      pmcAddress 1] := by
    intro other
    match other with
    | 0 => decide
    | _ + 1 =>
      show pmcAddress 1 ∈ _
      decide
  have fixedInside : ∀ other : Fin numFixedCounters, fixedAddress other ∈ [fixedAddress 0,
      fixedAddress 1, fixedAddress 2, msrPerfFixedCtrCtrl, msrPerfGlobalOvfCtrl,
      msrPerfGlobalStatus, pmcAddress 0, pmcAddress 1] := by decide
  refine fun written => apart ?_
  cases request with
  | counterEnable event evMask os => cases plain
  | counterDisable other => cases plain
  | pmuEnableInterrupt ctr => cases plain
  | pmuDisableInterrupt ctr => cases plain
  | counterClear other =>
    rw [List.mem_singleton.mp written]
    exact pmcInside other
  | fcounterClear other =>
    rw [List.mem_singleton.mp written]
    exact fixedInside other
  | _ => simp_all [PmuCall.writes]

/-- A call keeps the counters of its cpu mirrored. -/
theorem mirrored_call (addressed : p.Addressed cpu)
    (mirrored : ∀ counter < numCounters, Mirrored cpu counter p) (request : PmuCall) :
    ∀ counter < numCounters, Mirrored cpu counter (request.perform cpu p).2 := by
  by_cases plain : request.Selects = false
  · intro counter small
    refine (mirrored counter small).of_kept (request.touches addressed) (slotKept_call plain) ?_
    exact fun held => evtselAddress_notMem_writes plain small held.2
  · cases request with
    | counterEnable event evMask os =>
      show ∀ counter < numCounters,
        Mirrored cpu counter (pmuCounterEnable cpu event evMask os p).2
      rcases pmuCounterEnable_cases cpu event evMask os p with
        ⟨_, failed⟩ | ⟨claimed, small, _, done⟩
      · rw [failed]
        exact mirrored
      · rw [done]
        exact mirrored_claimCounter addressed small mirrored
    | counterDisable disabled => exact mirrored_counterDisable addressed mirrored
    | pmuEnableInterrupt ctr =>
      show ∀ counter < numCounters, Mirrored cpu counter (Seeker.pmuEnableInterrupt cpu ctr p).2
      unfold Seeker.pmuEnableInterrupt
      split
      · rename_i inRange
        exact mirrored_intFlag 1 addressed inRange.2 (Touches.refl ..)
          (fun counter => SlotKept.refl ..) mirrored
      · exact mirrored
    | pmuDisableInterrupt ctr =>
      show ∀ counter < numCounters, Mirrored cpu counter (Seeker.pmuDisableInterrupt cpu ctr p).2
      unfold Seeker.pmuDisableInterrupt
      split
      · rename_i inRange
        exact mirrored_intFlag 0 addressed inRange.1 ((Touches.refl ..).putCleared ctr _)
          (fun counter => ⟨rfl, rfl⟩) mirrored
      · exact mirrored
    | _ => exact absurd rfl plain

end Mirror

end Seeker
