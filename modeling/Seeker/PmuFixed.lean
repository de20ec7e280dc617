/-
This file proves what runs of calls to the pmu module keep of its fixed counters.

A reading of a fixed counter is what the counter has counted since it was last cleared,
corrected by what the reset value has changed since then. Whether the fixed counters
count is decided by the last call that writes the control register: the interrupt calls
write it too, and switch counters on again that `fcounters_disable` has switched off,
because the descriptor still asks for them.
-/
import Mathlib.Data.BitVec
import Seeker.PmuRuns

namespace Seeker

open BitFields

section Fixed

variable {nrCpus : Nat} {cpu : Fin nrCpus} {p p' : PmuModule}

/-! ### Reset values -/

theorem u64_eq_append (low high : BitVec 32) : u64 low high = high ++ low := by
  unfold u64
  refine BitVec.eq_of_getLsbD_eq fun index small => ?_
  rw [BitVec.getLsbD_append, BitVec.getLsbD_or, BitVec.getLsbD_setWidth, BitVec.getLsbD_shiftLeft,
    BitVec.getLsbD_setWidth]
  by_cases lower : index < 32
  · simp [lower, small]
  · have beyond : low.getLsbD index = false := BitVec.getLsbD_of_ge low index (by omega)
    have upper : index - 32 < 64 := by omega
    simp [lower, small, beyond, upper]

/-- The calls about the fixed counters that change more than a register of status. -/
def PmuCall.Fixed : PmuCall → Bool
  | .fcountersEnable _ | .fcountersDisable | .fcounterClear _ | .fcounterRead
  | .fpmuConfigureInterrupt _ _ _ | .fpmuEnableInterrupt _ | .fpmuDisableInterrupt _ => true
  | _ => false

/-- The other calls keep the tables of the fixed counters. -/
theorem fixedKept_call {request : PmuCall} (other : request.Fixed = false) :
    FixedKept p (request.perform cpu p).2 := by
  cases request with
  | counterEnable event evMask os =>
    show FixedKept p (pmuCounterEnable cpu event evMask os p).2
    rcases pmuCounterEnable_cases cpu event evMask os p with ⟨_, failed⟩ | ⟨counter, _, _, done⟩
    · rw [failed]
      exact FixedKept.refl p
    · rw [done]
      refine FixedKept.trans ?_ fixedKept_evtselWrite
      exact (fixedKept_evtselClear.trans fixedKept_counterClear).trans ⟨rfl, rfl, rfl⟩
  | counterDisable counter => exact fixedKept_counterDisable
  | counterClear counter => exact fixedKept_counterClear
  | counterRead =>
    show FixedKept p (Seeker.counterRead cpu p)
    unfold Seeker.counterRead
    rw [if_pos cpu.isLt]
    refine Loops.forRange_induction (fun _ current => FixedKept p current) (FixedKept.refl p) ?_
    intro index _ current kept
    refine kept.trans ?_
    unfold readCounter
    split <;> exact ⟨rfl, rfl, rfl⟩
  | pmuConfigureInterrupt ctr low high =>
    show FixedKept p (if ctr < numCounters then _ else _)
    split <;> exact ⟨rfl, rfl, rfl⟩
  | pmuEnableInterrupt ctr =>
    show FixedKept p (Seeker.pmuEnableInterrupt cpu ctr p).2
    unfold Seeker.pmuEnableInterrupt
    split
    · refine FixedKept.trans ?_ fixedKept_evtselWrite
      exact ⟨rfl, rfl, rfl⟩
    · exact FixedKept.refl p
  | pmuDisableInterrupt ctr =>
    show FixedKept p (Seeker.pmuDisableInterrupt cpu ctr p).2
    unfold Seeker.pmuDisableInterrupt
    split
    · refine FixedKept.trans ?_ fixedKept_evtselWrite
      exact ⟨rfl, rfl, rfl⟩
    · exact FixedKept.refl p
  | pmuClearOvfStatus ctr =>
    show FixedKept p (Seeker.pmuClearOvfStatus cpu ctr p).2
    unfold Seeker.pmuClearOvfStatus
    dsimp only
    split_ifs <;> exact ⟨rfl, rfl, rfl⟩
  | fpmuClearOvfStatus ctr =>
    show FixedKept p (Seeker.fpmuClearOvfStatus cpu ctr p).2
    unfold Seeker.fpmuClearOvfStatus
    dsimp only
    split_ifs <;> exact ⟨rfl, rfl, rfl⟩
  | _ => cases other

/-- The three clears write registers and nothing else. -/
theorem fixedKept_fcounterClears :
    FixedKept p (Loops.forRange numFixedCounters (fcounterClear cpu) p) := by
  refine Loops.forRange_induction (fun _ current => FixedKept p current) (FixedKept.refl p) ?_
  intro index _ current kept
  refine kept.trans ?_
  rw [fcounterClear_eq]
  exact ⟨rfl, rfl, rfl⟩

/-- Each `all` is the `low` and `high` beside it. -/
def WholeResets (p : PmuModule) : Prop :=
  ∀ cpu counter, (p.fcleared cpu counter).all =
    u64 (p.fcleared cpu counter).low (p.fcleared cpu counter).high

theorem WholeResets.putFcleared (whole : WholeResets p) (cpuId counter : Nat)
    (low high : BitVec 32) :
    WholeResets (p.putFcleared cpuId counter (Cleared.of low high)) := by
  intro other index
  show (putCell p.fcleared cpuId counter (Cleared.of low high) other index).all = _
  by_cases same : other = cpuId ∧ index = counter
  · obtain ⟨rfl, rfl⟩ := same
    simp [PmuModule.putFcleared, Cleared.of]
  · have kept : putCell p.fcleared cpuId counter (Cleared.of low high) other index =
        p.fcleared other index := by
      by_cases row : other = cpuId
      · exact putCell_of_index_ne fun held => same ⟨row, held⟩
      · rw [putCell_of_ne row]
    simp only [PmuModule.putFcleared, kept]
    exact whole other index

theorem WholeResets.congr (whole : WholeResets p) (same : p'.fcleared = p.fcleared) :
    WholeResets p' := by
  intro cpuId counter
  rw [same]
  exact whole cpuId counter

/-- Every event keeps the reset values whole. -/
theorem WholeResets.step (whole : WholeResets p) (event : PmuEvent nrCpus) :
    WholeResets (pmuStep p event) := by
  cases event with
  | call cpu request =>
    show WholeResets (request.perform cpu p).2
    cases request with
    | fcountersEnable os =>
      show WholeResets (pmuFcountersEnable cpu os p)
      unfold pmuFcountersEnable
      rw [if_pos cpu.isLt]
      have kept : FixedKept p (Loops.forRange numFixedCounters (Seeker.fcounterClear cpu) p) :=
        fixedKept_fcounterClears
      exact whole.congr kept.fcleared
    | fcountersDisable =>
      show WholeResets (Seeker.fcountersDisable cpu p)
      unfold Seeker.fcountersDisable
      rw [if_pos cpu.isLt]
      have kept : FixedKept p (Loops.forRange numFixedCounters (Seeker.fcounterClear cpu) p) :=
        fixedKept_fcounterClears
      exact whole.congr kept.fcleared
    | fcounterClear counter =>
      show WholeResets (Seeker.fcounterClear cpu counter p)
      rw [fcounterClear_eq]
      exact whole
    | fcounterRead =>
      show WholeResets (Seeker.fcounterRead cpu p)
      unfold Seeker.fcounterRead
      rw [if_pos cpu.isLt]
      exact Loops.forRange_induction (fun _ current => WholeResets current) whole
        fun _ _ _ kept => kept
    | fpmuConfigureInterrupt ctr low high =>
      show WholeResets (if ctr < numFixedCounters then _ else _)
      split
      · exact whole.putFcleared cpu ctr low high
      · exact whole
    | fpmuEnableInterrupt ctr =>
      show WholeResets (Seeker.fpmuEnableInterrupt cpu ctr p).2
      unfold Seeker.fpmuEnableInterrupt
      split
      · exact whole
      · exact whole
    | fpmuDisableInterrupt ctr =>
      have zeroed : WholeResets
          (if ctr < numFixedCounters then p.putFcleared cpu ctr (Cleared.of 0 0) else p) := by
        split
        · exact whole.putFcleared cpu ctr 0 0
        · exact whole
      show WholeResets (Seeker.fpmuDisableInterrupt cpu ctr p).2
      unfold Seeker.fpmuDisableInterrupt
      dsimp only
      split
      · exact zeroed
      · exact zeroed
    | _ => exact whole.congr (fixedKept_call rfl).fcleared
  | count cpu counter events => exact whole
  | fixedCount cpu counter events => exact whole
  | status cpu value => exact whole

theorem WholeResets.run (whole : WholeResets p) (events : List (PmuEvent nrCpus)) :
    WholeResets (Exec.run pmuStep p events) :=
  Exec.run_invariant_of_forall WholeResets (fun _ event kept => kept.step event) whole events

/-! ### Readings -/

/-- A call clears a fixed counter. -/
def PmuCall.Clears (counter : Fin numFixedCounters) : PmuCall → Bool
  | .fcountersEnable _ | .fcountersDisable => true
  | .fcounterClear cleared => cleared = counter
  | _ => false

/-- The events that a fixed counter of a cpu counts in the course of a run. -/
def fixedCounted (cpu : Fin nrCpus) (counter : Fin numFixedCounters) :
    List (PmuEvent nrCpus) → Nat
  | [] => 0
  | .fixedCount on counted events :: rest =>
      (if on = cpu ∧ counted = counter then events else 0) + fixedCounted cpu counter rest
  | _ :: rest => fixedCounted cpu counter rest

/-- No event of the run clears the fixed counter of the cpu. -/
def Uncleared (cpu : Fin nrCpus) (counter : Fin numFixedCounters)
    (events : List (PmuEvent nrCpus)) : Prop :=
  ∀ request, PmuEvent.call cpu request ∈ events → request.Clears counter = false

variable {counter : Fin numFixedCounters}

theorem fixedAddress_notMem_writes {request : PmuCall} (keeps : request.Clears counter = false) :
    fixedAddress counter ∉ request.writes := by
  have apart : ∀ counter : Fin numFixedCounters, fixedAddress counter ∉ [evtselAddress 0,
      pmcAddress 0, evtselAddress 1, pmcAddress 1, msrPerfFixedCtrCtrl, msrPerfGlobalOvfCtrl] := by
    decide
  have distinct : ∀ counter cleared : Fin numFixedCounters, cleared ≠ counter →
      fixedAddress counter ∉ [fixedAddress cleared] := by decide
  have evtselInside : ∀ other, evtselAddress other ∈ [evtselAddress 0, pmcAddress 0,
      evtselAddress 1, pmcAddress 1, msrPerfFixedCtrCtrl, msrPerfGlobalOvfCtrl] := by
    rintro (_ | other)
    · decide
    · show evtselAddress 1 ∈ _
      decide
  have pmcInside : ∀ other, pmcAddress other ∈ [evtselAddress 0, pmcAddress 0,
      evtselAddress 1, pmcAddress 1, msrPerfFixedCtrCtrl, msrPerfGlobalOvfCtrl] := by
    rintro (_ | other)
    · decide
    · show pmcAddress 1 ∈ _
      decide
  intro written
  cases request with
  | fcountersEnable os => cases keeps
  | fcountersDisable => cases keeps
  | fcounterClear cleared =>
    exact distinct counter cleared (of_decide_eq_false keeps) written
  | counterDisable other =>
    refine apart counter ?_
    rcases List.mem_cons.mp written with same | same
    · exact same ▸ evtselInside other
    · exact List.mem_singleton.mp same ▸ pmcInside other
  | counterClear other => exact apart counter (List.mem_singleton.mp written ▸ pmcInside other)
  | pmuEnableInterrupt ctr => exact apart counter (List.mem_singleton.mp written ▸ evtselInside ctr)
  | pmuDisableInterrupt ctr =>
    exact apart counter (List.mem_singleton.mp written ▸ evtselInside ctr)
  | counterEnable event evMask os =>
    refine apart counter ?_
    simp only [PmuCall.writes, List.mem_cons, List.not_mem_nil, or_false] at written ⊢
    tauto
  | counterRead => exact absurd written List.not_mem_nil
  | fcounterRead => exact absurd written List.not_mem_nil
  | pmuConfigureInterrupt ctr low high => exact absurd written List.not_mem_nil
  | fpmuConfigureInterrupt ctr low high => exact absurd written List.not_mem_nil
  | _ =>
    refine apart counter ?_
    rw [List.mem_singleton.mp written]
    decide

theorem append_halves (register : BitVec 64) :
    register.extractLsb' 32 32 ++ register.setWidth 32 = register := by
  refine BitVec.eq_of_getLsbD_eq fun index small => ?_
  rw [BitVec.getLsbD_append, BitVec.getLsbD_setWidth, BitVec.getLsbD_extractLsb']
  by_cases lower : index < 32
  · simp [lower]
  · have upper : index - 32 < 32 := by omega
    have place : 32 + (index - 32) = index := by omega
    simp [lower, upper, place]

@[simp]
theorem change_msr (cpuId : Nat) (address : BitVec 32) (value : BitVec 64) (p : PmuModule) :
    (p.change cpuId address value).hw.msr cpuId address = value := by
  exact (wrmsr_self (Fin.last cpuId) p.hw address _ _).trans (append_halves value)

/-- What one event adds to a fixed counter that it does not clear. -/
theorem fixedRegister_step {event : PmuEvent nrCpus} (addressed : p.Addressed event.cpu)
    (keeps : ∀ request, event = .call cpu request → request.Clears counter = false) :
    (pmuStep p event).hw.msr cpu (fixedAddress counter) =
      p.hw.msr cpu (fixedAddress counter) + fixedCounted cpu counter [event] := by
  have touches := event.touches addressed
  have distinct : ∀ first second : Fin numFixedCounters, first ≠ second →
      fixedAddress first ∉ [fixedAddress second] := by decide
  cases event with
  | call on request =>
    rw [touches.msr _ _ fun held => ?_]
    · simp [fixedCounted]
    · have same : on = cpu := Fin.ext held.1.symm
      subst same
      exact fixedAddress_notMem_writes (keeps request rfl) held.2
  | count on counted events =>
    have apart : ∀ counter : Fin numFixedCounters, ∀ counted : Fin numCounters,
        fixedAddress counter ∉ [pmcAddress counted] := by decide
    rw [touches.msr _ _ fun held => apart counter counted held.2]
    simp [fixedCounted]
  | status on value =>
    have apart : ∀ counter : Fin numFixedCounters,
        fixedAddress counter ∉ [msrPerfGlobalStatus] := by decide
    rw [touches.msr _ _ fun held => apart counter held.2]
    simp [fixedCounted]
  | fixedCount on counted events =>
    by_cases own : on = cpu ∧ counted = counter
    · obtain ⟨rfl, rfl⟩ := own
      refine (change_msr ..).trans ?_
      simp [fixedCounted]
    · rw [touches.msr _ _ fun held => ?_]
      · simp [fixedCounted, own]
      · refine distinct counter counted (fun same => own ⟨Fin.ext held.1.symm, same.symm⟩) held.2

theorem fixedCounted_cons (event : PmuEvent nrCpus) (rest : List (PmuEvent nrCpus)) :
    fixedCounted cpu counter (event :: rest) =
      fixedCounted cpu counter [event] + fixedCounted cpu counter rest := by
  cases event <;> simp [fixedCounted]

/-- A fixed counter that no call clears grows by what it counts. -/
theorem fixedRegister_run {online : List (Fin nrCpus)} {events : List (PmuEvent nrCpus)}
    (running : Running online p) (isOnline : ∀ event ∈ events, event.cpu ∈ online)
    (uncleared : Uncleared cpu counter events) :
    (Exec.run pmuStep p events).hw.msr cpu (fixedAddress counter) =
      p.hw.msr cpu (fixedAddress counter) + fixedCounted cpu counter events := by
  induction events generalizing p with
  | nil => simp [fixedCounted]
  | cons event rest inductionHypothesis =>
    obtain ⟨first, others⟩ := List.forall_mem_cons.mp isOnline
    have step : (pmuStep p event).hw.msr cpu (fixedAddress counter) = _ :=
      fixedRegister_step (running.addressed event.cpu first) fun request made =>
        uncleared request (made ▸ List.mem_cons_self)
    rw [Exec.run_cons, inductionHypothesis (running.step first) others fun request member =>
      uncleared request (List.mem_cons_of_mem _ member), step, fixedCounted_cons event rest]
    push_cast
    rw [BitVec.add_assoc]

/-- The three clears leave each fixed counter at its reset value. -/
theorem fcounterClears_register (addressed : p.Addressed cpu) :
    ∀ counter < numFixedCounters,
      (Loops.forRange numFixedCounters (fcounterClear cpu) p).hw.msr cpu (fixedAddress counter) =
        (p.fcleared cpu counter).high ++ (p.fcleared cpu counter).low := by
  have distinct : ∀ first < numFixedCounters, ∀ second < numFixedCounters, first ≠ second →
      fixedAddress first ∉ [fixedAddress second] := by decide
  refine (Loops.forRange_induction (fun bound (current : PmuModule) => (current.Addressed cpu ∧
    current.fcleared = p.fcleared) ∧ ∀ counter < bound, current.hw.msr cpu (fixedAddress counter) =
      (p.fcleared cpu counter).high ++ (p.fcleared cpu counter).low)
    ⟨⟨addressed, rfl⟩, fun counter small => absurd small (Nat.not_lt_zero counter)⟩ ?_).2
  rintro index inRange current ⟨⟨placed, resets⟩, done⟩
  have touches : Touches cpu [fixedAddress index] current (fcounterClear cpu index current) :=
    (Touches.refl ..).fcounterClear (placed.fcounter index inRange) List.mem_cons_self
  refine ⟨⟨touches.addressed placed, ?_⟩, fun counter small => ?_⟩
  · rw [fcounterClear_eq]
    exact resets
  · rcases Nat.lt_succ_iff_lt_or_eq.mp small with below | rfl
    · have apart := distinct counter (below.trans inRange) index inRange (Nat.ne_of_lt below)
      rw [touches.msr _ _ fun held => apart held.2]
      exact done counter below
    · rw [fcounterClear_eq, placed.fcounter counter inRange, resets]
      exact wrmsr_self cpu current.hw (fixedAddress counter) _ _

/-- A call that clears a fixed counter leaves it at its reset value, which it keeps. -/
theorem fixedRegister_clear {request : PmuCall} (addressed : p.Addressed cpu)
    (clears : request.Clears counter = true) :
    (request.perform cpu p).2.hw.msr cpu (fixedAddress counter) =
      (p.fcleared cpu counter).high ++ (p.fcleared cpu counter).low := by
  have loop := fcounterClears_register addressed counter counter.isLt
  have apart : ∀ counter : Fin numFixedCounters,
      fixedAddress counter ∉ [msrPerfFixedCtrCtrl] := by decide
  cases request with
  | fcountersEnable os =>
    show (pmuFcountersEnable cpu os p).hw.msr cpu (fixedAddress counter) = _
    unfold pmuFcountersEnable
    rw [if_pos cpu.isLt, ← loop]
    dsimp only
    generalize Loops.forRange numFixedCounters (fcounterClear cpu) p = q
    have touches : Touches cpu [msrPerfFixedCtrCtrl] q
        { q.putFcontrol cpu (Fixctrl.counting os) with
          hw := controlWrite cpu (q.putFcontrol cpu (Fixctrl.counting os)).hw } :=
      ((Touches.refl ..).putFcontrol _).controlWrite List.mem_cons_self
    exact touches.msr _ _ fun held => apart counter held.2
  | fcountersDisable =>
    show (Seeker.fcountersDisable cpu p).hw.msr cpu (fixedAddress counter) = _
    unfold Seeker.fcountersDisable
    rw [if_pos cpu.isLt, ← loop]
    dsimp only
    generalize Loops.forRange numFixedCounters (fcounterClear cpu) p = q
    have touches : Touches cpu [msrPerfFixedCtrCtrl] q
        { q with hw := controlClear cpu q.hw } :=
      (Touches.refl ..).controlClear List.mem_cons_self
    exact touches.msr _ _ fun held => apart counter held.2
  | fcounterClear cleared =>
    obtain rfl : cleared = counter := of_decide_eq_true clears
    show (Seeker.fcounterClear cpu cleared p).hw.msr cpu (fixedAddress cleared) = _
    rw [fcounterClear_eq, addressed.fcounter cleared cleared.isLt]
    exact wrmsr_self cpu p.hw (fixedAddress cleared) _ _
  | _ => cases clears

/-- A read changes neither the registers nor the reset values. -/
theorem fcounterRead_kept (cpu : Fin nrCpus) (p : PmuModule) :
    (fcounterRead cpu p).hw = p.hw ∧ (fcounterRead cpu p).fcleared = p.fcleared := by
  unfold fcounterRead
  rw [if_pos cpu.isLt]
  exact Loops.forRange_induction (fun _ (current : PmuModule) =>
    current.hw = p.hw ∧ current.fcleared = p.fcleared) ⟨rfl, rfl⟩ fun _ _ _ kept => kept

/-- A reading is the register less the reset value. -/
theorem getFcounterData_fcounterRead (addressed : p.Addressed cpu)
    (counter : Fin numFixedCounters) :
    @getFcounterData nrCpus counter cpu (fcounterRead cpu p) =
      p.hw.msr cpu (fixedAddress counter) - (p.fcleared cpu counter).all := by
  have halves : ∀ register : BitVec 64,
      u64 (register.setWidth 32) (register.extractLsb' 32 32) = register := by
    intro register
    rw [u64_eq_append]
    exact append_halves register
  have read : ∀ counter < numFixedCounters,
      u64 ((fcounterRead cpu p).fcounters cpu counter).low
        ((fcounterRead cpu p).fcounters cpu counter).high =
          p.hw.msr cpu (fixedAddress counter) := by
    unfold fcounterRead
    rw [if_pos cpu.isLt]
    refine (Loops.forRange_induction (fun bound (current : PmuModule) => (current.hw = p.hw ∧
      current.Addressed cpu) ∧ ∀ counter < bound,
      u64 (current.fcounters cpu counter).low (current.fcounters cpu counter).high =
        p.hw.msr cpu (fixedAddress counter))
      ⟨⟨rfl, addressed⟩, fun counter small => absurd small (Nat.not_lt_zero counter)⟩ ?_).2
    rintro index inRange current ⟨⟨sameHw, placed⟩, done⟩
    have touches : Touches cpu [] current (readFcounter cpu index current) :=
      (Touches.refl ..).putFcounter rfl
    refine ⟨⟨sameHw, touches.addressed placed⟩, fun counter small => ?_⟩
    rcases Nat.lt_succ_iff_lt_or_eq.mp small with below | rfl
    · have kept : (readFcounter cpu index current).fcounters cpu counter =
          current.fcounters cpu counter := putCell_of_index_ne (Nat.ne_of_lt below)
      rw [kept]
      exact done counter below
    · have written : (readFcounter cpu counter current).fcounters cpu counter = _ := putCell_self
      rw [written, placed.fcounter counter inRange, sameHw]
      exact halves _
  have inRange : ¬ (numFixedCounters ≤ counter.val ∧ nrCpus ≤ cpu.val) :=
    fun held => absurd held.2 (not_le.mpr cpu.isLt)
  unfold getFcounterData
  rw [if_neg inRange, read counter counter.isLt, (fcounterRead_kept cpu p).2]

/-- In every run, what is read from a fixed counter is what it has counted since the last call that
cleared it, plus the reset value it was cleared to and less the one that is configured now. -/
theorem fcounter_reading_exact {general fixed : RanOn nrCpus}
    {msr : Nat → BitVec 32 → BitVec 64}
    (succeeds : (pmuInit general fixed (PmuModule.loaded msr)).1 = 0)
    {before between : List (PmuEvent nrCpus)} {request : PmuCall}
    (isOnline : ∀ event ∈ before ++ between, event.cpu ∈ onlineCpus general fixed)
    (member : cpu ∈ onlineCpus general fixed) {counter : Fin numFixedCounters}
    (clears : request.Clears counter = true) (uncleared : Uncleared cpu counter between) :
    let then_ := Exec.run pmuStep (pmuInit general fixed (PmuModule.loaded msr)).2 before
    let now := Exec.run pmuStep (pmuStep then_ (.call cpu request)) between
    @getFcounterData nrCpus counter cpu (fcounterRead cpu now) =
      fixedCounted cpu counter between + (then_.fcleared cpu counter).all -
        (now.fcleared cpu counter).all := by
  intro then_ now
  have ready := pmuInit_ready succeeds
  have runningThen : Running (onlineCpus general fixed) then_ :=
    ready.running.run fun event inBefore => isOnline event (List.mem_append_left _ inBefore)
  have runningClear : Running (onlineCpus general fixed) (pmuStep then_ (.call cpu request)) :=
    runningThen.step member
  have onlineBetween : ∀ event ∈ between, event.cpu ∈ onlineCpus general fixed :=
    fun event inBetween => isOnline event (List.mem_append_right _ inBetween)
  have runningNow : Running (onlineCpus general fixed) now := runningClear.run onlineBetween
  have whole : WholeResets then_ := by
    refine WholeResets.run (fun cpuId index => ?_) before
    rw [ready.loaded.fcleared]
    decide
  have cleared : (pmuStep then_ (.call cpu request)).hw.msr cpu (fixedAddress counter) =
      (then_.fcleared cpu counter).all := by
    rw [whole cpu counter, u64_eq_append]
    exact fixedRegister_clear (runningThen.addressed cpu member) clears
  rw [getFcounterData_fcounterRead (runningNow.addressed cpu member),
    fixedRegister_run runningClear onlineBetween uncleared, cleared]
  rw [BitVec.add_comm]

/-- On a single cpu whose second fixed counter is given a reset value between the clear and the
reading. -/
theorem fcounter_reading_exact_configured :
    let before : List (PmuEvent 1) := [.fixedCount 0 ⟨1, by decide⟩ 9]
    let between : List (PmuEvent 1) := [.call 0 (.fpmuConfigureInterrupt 1 3 0),
      .fixedCount 0 ⟨1, by decide⟩ 5]
    let then_ := Exec.run pmuStep
      (pmuInit ⟨0, [(0 : Fin 1)]⟩ ⟨0, [(0 : Fin 1)]⟩ (PmuModule.loaded fun _ _ => 0)).2 before
    let now := Exec.run pmuStep (pmuStep then_ (.call (0 : Fin 1) (.fcountersEnable 0))) between
    @getFcounterData 1 1 0 (fcounterRead (0 : Fin 1) now) =
      fixedCounted (0 : Fin 1) ⟨1, by decide⟩ between + (then_.fcleared 0 1).all -
        (now.fcleared 0 1).all := by
  intro before between
  have uncleared : Uncleared (0 : Fin 1) ⟨1, by decide⟩ between := by
    intro request member
    rcases List.mem_cons.mp member with made | member
    · cases made
      rfl
    · cases List.mem_singleton.mp member
  have member : (0 : Fin 1) ∈ onlineCpus ⟨0, [0]⟩ ⟨0, [0]⟩ := by decide
  exact fcounter_reading_exact rfl (by decide) member rfl uncleared

/-! ### Whether the fixed counters count -/

/-- What the calls about the control register of a cpu have come to: `fcounters_enable` has been
called, and the last of them was not `fcounters_disable`. -/
structure ControlHistory where
  enabled : Bool
  written : Bool
  deriving DecidableEq

/-- One event. -/
def controlStep (cpu : Fin nrCpus) (h : ControlHistory) : PmuEvent nrCpus → ControlHistory
  | .call on (.fcountersEnable _) => if on = cpu then ⟨true, true⟩ else h
  | .call on .fcountersDisable => if on = cpu then { h with written := false } else h
  | .call on (.fpmuEnableInterrupt ctr) | .call on (.fpmuDisableInterrupt ctr) =>
      if on = cpu ∧ ctr < numFixedCounters then { h with written := true } else h
  | _ => h

/-- The bits of the register that make the fixed counters count in user mode. -/
def usrSpans : List Span := [spanFixUsr0, spanFixUsr1, spanFixUsr2]

/-- The register holds the descriptor after a write and zeros after a clear, and the descriptor
asks for user mode since the counters were enabled. -/
structure ControlExact (cpu : Nat) (h : ControlHistory) (p : PmuModule) : Prop where
  register : HoldsFields (if h.written then p.hw.fcontrol cpu else Fixctrl.blank).fields
    (p.hw.msr cpu msrPerfFixedCtrCtrl)
  usr : ∀ bit ∈ [(p.hw.fcontrol cpu).usr0, (p.hw.fcontrol cpu).usr1, (p.hw.fcontrol cpu).usr2],
    bit = BitVec.ofBool h.enabled

/-- What the register of a descriptor says about user mode. -/
theorem holdsFields_usr {f : Fixctrl} {register : BitVec 64} {bit : Bool}
    (holds : HoldsFields f.fields register)
    (usr : ∀ value ∈ [f.usr0, f.usr1, f.usr2], value = BitVec.ofBool bit) :
    ∀ span ∈ usrSpans, register.extractLsb' span.shift 1 = BitVec.ofBool bit := by
  obtain ⟨usr0, usr1, usr2⟩ : f.usr0 = BitVec.ofBool bit ∧ f.usr1 = BitVec.ofBool bit ∧
      f.usr2 = BitVec.ofBool bit := by simpa using usr
  have field0 : register.extractLsb' 1 1 = f.usr0 :=
    holds ⟨spanFixUsr0, f.usr0⟩ (by simp [Fixctrl.fields])
  have field1 : register.extractLsb' 5 1 = f.usr1 :=
    holds ⟨spanFixUsr1, f.usr1⟩ (by simp [Fixctrl.fields])
  have field2 : register.extractLsb' 9 1 = f.usr2 :=
    holds ⟨spanFixUsr2, f.usr2⟩ (by simp [Fixctrl.fields])
  intro span inSpans
  simp only [usrSpans, List.mem_cons, List.not_mem_nil, or_false] at inSpans
  rcases inSpans with rfl | rfl | rfl
  · exact field0.trans usr0
  · exact field1.trans usr1
  · exact field2.trans usr2

theorem holdsFields_controlWrite : HoldsFields (p.hw.fcontrol cpu).fields
    ((controlWrite cpu p.hw).msr cpu msrPerfFixedCtrCtrl) := by
  have written : (controlWrite cpu p.hw).msr cpu msrPerfFixedCtrCtrl = _ :=
    controlWrite_register
  rw [written]
  refine holdsFields_of fixctrlSpans_fit fun field inFields index inLow covers => ?_
  exact getLsbD_pack_of_covers fixctrlSpans_apart inFields inLow covers

theorem controlWrite_fcontrol (h : Pmu) : (controlWrite cpu h).fcontrol = h.fcontrol := by
  rw [controlWrite_eq]
  rfl

/-- A call that sets the descriptor and ends with `control_write`. -/
theorem controlExact_write {f : Fixctrl} {h : ControlHistory} (q : PmuModule)
    (usr : ∀ bit ∈ [f.usr0, f.usr1, f.usr2], bit = BitVec.ofBool h.enabled)
    (written : h.written = true) :
    ControlExact cpu h
      { q.putFcontrol cpu f with hw := controlWrite cpu (q.putFcontrol cpu f).hw } := by
  have table : (controlWrite cpu (q.putFcontrol cpu f).hw).fcontrol cpu = f := by
    rw [controlWrite_fcontrol]
    exact Function.update_self ..
  have own : (q.putFcontrol cpu f).hw.fcontrol cpu = f := Function.update_self ..
  refine ⟨?_, ?_⟩
  · show HoldsFields (if h.written then (controlWrite cpu (q.putFcontrol cpu f).hw).fcontrol cpu
      else Fixctrl.blank).fields _
    rw [written, if_pos rfl, table]
    have holds : HoldsFields ((q.putFcontrol cpu f).hw.fcontrol cpu).fields _ :=
      holdsFields_controlWrite
    rwa [own] at holds
  · show ∀ bit ∈ [((controlWrite cpu (q.putFcontrol cpu f).hw).fcontrol cpu).usr0,
      ((controlWrite cpu (q.putFcontrol cpu f).hw).fcontrol cpu).usr1,
      ((controlWrite cpu (q.putFcontrol cpu f).hw).fcontrol cpu).usr2], _
    rw [table]
    exact usr

theorem Fixctrl.setPmi_some {ctr : Nat} {value : BitVec 1} {f f' : Fixctrl}
    (set : f.setPmi ctr value = some f') :
    ctr < numFixedCounters ∧ f'.usr0 = f.usr0 ∧ f'.usr1 = f.usr1 ∧ f'.usr2 = f.usr2 := by
  match ctr with
  | 0 | 1 | 2 =>
    obtain rfl := Option.some.inj set
    exact ⟨by decide, rfl, rfl, rfl⟩
  | _ + 3 => cases set

theorem Fixctrl.setPmi_none {ctr : Nat} {value : BitVec 1} {f : Fixctrl}
    (unset : f.setPmi ctr value = none) : ¬ ctr < numFixedCounters := by
  match ctr with
  | 0 | 1 | 2 => cases unset
  | _ + 3 => exact fun small => absurd small (by simp [numFixedCounters, Arch.numFixedCounters])

/-- What keeps the control register and its descriptor keeps the statement. -/
theorem ControlExact.of_kept {cpuId : Nat} {h : ControlHistory}
    {registers : List (BitVec 32)} (controlled : ControlExact cpuId h p)
    (touches : Touches cpu registers p p')
    (same : p'.hw.fcontrol cpuId = p.hw.fcontrol cpuId)
    (untouched : ¬ (cpuId = cpu ∧ msrPerfFixedCtrCtrl ∈ registers)) :
    ControlExact cpuId h p' := by
  refine ⟨?_, ?_⟩
  · rw [same, touches.msr _ _ untouched]
    exact controlled.register
  · rw [same]
    exact controlled.usr

/-- The calls that write the control register. -/
def PmuCall.Controls : PmuCall → Bool
  | .fcountersEnable _ | .fcountersDisable | .fpmuEnableInterrupt _ | .fpmuDisableInterrupt _ => true
  | _ => false

/-- The other calls write no control register. -/
theorem control_notMem_writes {request : PmuCall} (other : request.Controls = false) :
    msrPerfFixedCtrCtrl ∉ request.writes := by
  have evtselApart : ∀ counter, msrPerfFixedCtrCtrl ≠ evtselAddress counter := by
    rintro (_ | counter)
    · decide
    · show msrPerfFixedCtrCtrl ≠ evtselAddress 1
      decide
  have pmcApart : ∀ counter, msrPerfFixedCtrCtrl ≠ pmcAddress counter := by
    rintro (_ | counter)
    · decide
    · show msrPerfFixedCtrCtrl ≠ pmcAddress 1
      decide
  have fixedApart : ∀ counter : Fin numFixedCounters,
      msrPerfFixedCtrCtrl ≠ fixedAddress counter := by decide
  have statusApart : msrPerfFixedCtrCtrl ≠ msrPerfGlobalOvfCtrl := by decide
  cases request with
  | fcountersEnable os => cases other
  | fcountersDisable => cases other
  | fpmuEnableInterrupt ctr => cases other
  | fpmuDisableInterrupt ctr => cases other
  | _ => simp [PmuCall.writes, evtselApart, pmcApart, fixedApart, statusApart]

theorem fcontrol_call {request : PmuCall} (other : request.Controls = false) :
    (request.perform cpu p).2.hw.fcontrol = p.hw.fcontrol := by
  cases request with
  | fcountersEnable os => cases other
  | fcountersDisable => cases other
  | fpmuEnableInterrupt ctr => cases other
  | fpmuDisableInterrupt ctr => cases other
  | fcounterClear counter =>
    show (Seeker.fcounterClear cpu counter p).hw.fcontrol = _
    rw [fcounterClear_eq]
    rfl
  | fcounterRead =>
    show (Seeker.fcounterRead cpu p).hw.fcontrol = _
    unfold Seeker.fcounterRead
    rw [if_pos cpu.isLt]
    exact Loops.forRange_induction (fun _ (current : PmuModule) =>
      current.hw.fcontrol = p.hw.fcontrol) rfl fun _ _ _ kept => kept
  | fpmuConfigureInterrupt ctr low high =>
    show (if ctr < numFixedCounters then _ else _ : PmuModule).hw.fcontrol = _
    split <;> rfl
  | _ => exact (fixedKept_call rfl).fcontrol

/-- A call on the cpu. -/
theorem ControlExact.call {h : ControlHistory} (controlled : ControlExact cpu h p)
    (addressed : p.Addressed cpu) (request : PmuCall) :
    ControlExact cpu (controlStep cpu h (.call cpu request)) (request.perform cpu p).2 := by
  by_cases other : request.Controls = false
  · have same : controlStep cpu h (.call cpu request) = h := by
      cases request <;> first | rfl | cases other
    rw [same]
    exact controlled.of_kept (request.touches addressed)
      (congrFun (fcontrol_call other) cpu) fun held => control_notMem_writes other held.2
  · cases request with
    | fcountersEnable os =>
      show ControlExact cpu (if cpu = cpu then ⟨true, true⟩ else h) (pmuFcountersEnable cpu os p)
      unfold pmuFcountersEnable
      rw [if_pos rfl, if_pos cpu.isLt]
      exact controlExact_write _ (by simp [Fixctrl.counting]) rfl
    | fcountersDisable =>
      show ControlExact cpu (if cpu = cpu then { h with written := false } else h)
        (Seeker.fcountersDisable cpu p)
      rw [if_pos rfl]
      have kept : (Seeker.fcountersDisable cpu p).hw.fcontrol = p.hw.fcontrol := by
        have loop : FixedKept p
            (Loops.forRange numFixedCounters (Seeker.fcounterClear cpu) p) :=
          fixedKept_fcounterClears
        unfold Seeker.fcountersDisable
        rw [if_pos cpu.isLt]
        exact loop.fcontrol
      refine ⟨holdsFields_fcountersDisable, ?_⟩
      rw [kept]
      exact controlled.usr
    | fpmuEnableInterrupt ctr =>
      show ControlExact cpu
        (if cpu = cpu ∧ ctr < numFixedCounters then { h with written := true } else h)
        (Seeker.fpmuEnableInterrupt cpu ctr p).2
      unfold Seeker.fpmuEnableInterrupt
      cases set : (p.hw.fcontrol cpu).setPmi ctr 1 with
      | none =>
        rw [if_neg fun held => Fixctrl.setPmi_none set held.2]
        exact controlled
      | some f =>
        obtain ⟨small, usr0, usr1, usr2⟩ := Fixctrl.setPmi_some set
        rw [if_pos ⟨rfl, small⟩]
        refine controlExact_write p ?_ rfl
        rw [usr0, usr1, usr2]
        exact controlled.usr
    | fpmuDisableInterrupt ctr =>
      have zeroed : ∀ q, q.hw = p.hw → ControlExact cpu h q := by
        intro q same
        refine ⟨?_, ?_⟩
        · rw [same]
          exact controlled.register
        · rw [same]
          exact controlled.usr
      show ControlExact cpu
        (if cpu = cpu ∧ ctr < numFixedCounters then { h with written := true } else h)
        (Seeker.fpmuDisableInterrupt cpu ctr p).2
      have sameHw : (if ctr < numFixedCounters then p.putFcleared cpu ctr (Cleared.of 0 0)
          else p).hw = p.hw := by
        split <;> rfl
      unfold Seeker.fpmuDisableInterrupt
      dsimp only
      rw [sameHw]
      cases set : (p.hw.fcontrol cpu).setPmi ctr 0 with
      | none =>
        rw [if_neg fun held => Fixctrl.setPmi_none set held.2]
        exact zeroed _ sameHw
      | some f =>
        obtain ⟨small, usr0, usr1, usr2⟩ := Fixctrl.setPmi_some set
        rw [if_pos ⟨rfl, small⟩]
        refine controlExact_write _ ?_ rfl
        rw [usr0, usr1, usr2]
        exact controlled.usr
    | _ => exact absurd rfl other

theorem ControlExact.step {h : ControlHistory} (controlled : ControlExact cpu h p)
    {event : PmuEvent nrCpus} (addressed : p.Addressed event.cpu) :
    ControlExact cpu (controlStep cpu h event) (pmuStep p event) := by
  have touches := event.touches addressed
  cases event with
  | call on request =>
    by_cases same : on = cpu
    · subst same
      exact controlled.call addressed request
    · have apart : cpu.val ≠ on := fun held => same (Fin.ext held).symm
      have unchanged : controlStep cpu h (.call on request) = h := by
        cases request <;> simp [controlStep, same]
      rw [unchanged]
      exact controlled.of_kept touches (touches.fcontrol cpu apart) fun held => apart held.1
  | count on counted events =>
    have outside : ∀ counted : Fin numCounters,
        msrPerfFixedCtrCtrl ∉ [pmcAddress counted] := by decide
    exact controlled.of_kept touches rfl fun held => outside counted held.2
  | fixedCount on counted events =>
    have outside : ∀ counted : Fin numFixedCounters,
        msrPerfFixedCtrCtrl ∉ [fixedAddress counted] := by decide
    exact controlled.of_kept touches rfl fun held => outside counted held.2
  | status on value =>
    have outside : msrPerfFixedCtrCtrl ∉ [msrPerfGlobalStatus] := by decide
    exact controlled.of_kept touches rfl fun held => outside held.2

theorem ControlExact.run {h : ControlHistory} {online : List (Fin nrCpus)}
    {events : List (PmuEvent nrCpus)} (controlled : ControlExact cpu h p)
    (running : Running online p) (isOnline : ∀ event ∈ events, event.cpu ∈ online) :
    ControlExact cpu (Exec.run (controlStep cpu) h events) (Exec.run pmuStep p events) := by
  induction events generalizing p h with
  | nil => exact controlled
  | cons event rest inductionHypothesis =>
    obtain ⟨first, others⟩ := List.forall_mem_cons.mp isOnline
    exact inductionHypothesis (controlled.step (running.addressed event.cpu first))
      (running.step first) others

/-- In every run the fixed counters of a cpu count in user mode exactly if `fcounters_enable` has
been called there and the last call that wrote the control register was not `fcounters_disable`: an
interrupt call after `fcounters_disable` switches them on again. -/
theorem fixed_counters_count_iff {general fixed : RanOn nrCpus}
    {msr : Nat → BitVec 32 → BitVec 64}
    (succeeds : (pmuInit general fixed (PmuModule.loaded msr)).1 = 0)
    {events : List (PmuEvent nrCpus)}
    (isOnline : ∀ event ∈ events, event.cpu ∈ onlineCpus general fixed)
    (member : cpu ∈ onlineCpus general fixed) :
    let p := Exec.run pmuStep (pmuInit general fixed (PmuModule.loaded msr)).2 events
    let h := Exec.run (controlStep cpu) ⟨false, false⟩ events
    ∀ span ∈ usrSpans,
      (p.hw.msr cpu msrPerfFixedCtrCtrl).extractLsb' span.shift 1 = 1 ↔
        h.enabled = true ∧ h.written = true := by
  intro p h span inSpans
  have ready := pmuInit_ready succeeds
  have start : ControlExact cpu ⟨false, false⟩
      (pmuInit general fixed (PmuModule.loaded msr)).2 := by
    refine ⟨(ready.fixed cpu member).2, ?_⟩
    rw [ready.loaded.fcontrol]
    decide
  have controlled : ControlExact cpu h p := start.run ready.running isOnline
  have shown : (p.hw.msr cpu msrPerfFixedCtrCtrl).extractLsb' span.shift 1 =
      BitVec.ofBool (h.enabled && h.written) := by
    have register := controlled.register
    cases written : h.written with
    | true =>
      rw [written, if_pos rfl] at register
      rw [Bool.and_true]
      exact holdsFields_usr register controlled.usr span inSpans
    | false =>
      rw [written, if_neg Bool.false_ne_true] at register
      rw [Bool.and_false]
      exact holdsFields_usr register (by decide) span inSpans
  rw [shown, ← Bool.and_eq_true]
  cases h.enabled && h.written <;> decide

/-- On a single cpu that switches the fixed counters off and then an interrupt on. -/
theorem fixed_counters_count_iff_again :
    let events : List (PmuEvent 1) := [.call 0 (.fcountersEnable 0), .call 0 .fcountersDisable,
      .call 0 (.fpmuEnableInterrupt 0)]
    let p := Exec.run pmuStep
      (pmuInit ⟨0, [(0 : Fin 1)]⟩ ⟨0, [(0 : Fin 1)]⟩ (PmuModule.loaded fun _ _ => 0)).2 events
    let h := Exec.run (controlStep (0 : Fin 1)) ⟨false, false⟩ events
    ∀ span ∈ usrSpans,
      (p.hw.msr 0 msrPerfFixedCtrCtrl).extractLsb' span.shift 1 = 1 ↔
        h.enabled = true ∧ h.written = true :=
  fixed_counters_count_iff rfl (by decide) (by decide : (0 : Fin 1) ∈ _)

end Fixed

end Seeker
