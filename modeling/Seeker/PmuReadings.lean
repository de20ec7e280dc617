/-
This file embeds the readings of `hwcounters.c` with fixed counters, and proves that the
counters of a cpu as the accounting has them are what the pmu module delivers.

The accounting has two numbers that grow and are set to zero when they are cleared. Here
they are two registers, a reset value and a cached copy. The two agree, modulo the width
of a register, through every run in which nobody else clears or configures the first two
fixed counters of the cpu; whatever else the other users of the module do is allowed.
-/
import Seeker.Accounting
import Seeker.PmuFixed

namespace Seeker

section Readings

variable {nrCpus : Nat} (cpu : Fin nrCpus)

/-! ### The scheduler's use of the module -/

/-- The fixed counter of the instructions. -/
def instCounter : Fin numFixedCounters := ⟨0, by decide⟩

/-- The fixed counter of the real cycles. -/
def reCyCounter : Fin numFixedCounters := ⟨1, by decide⟩

/-- `read_counters`, with `pmu_val` of the cpu. -/
def readCounters (p : PmuModule) : (BitVec 64 × BitVec 64) × PmuModule :=
  let p := fcounterRead cpu p
  ((@getFcounterData nrCpus instCounter cpu p, @getFcounterData nrCpus reCyCounter cpu p), p)

/-- `clear_counters` of `hwcounters.c`. -/
def pmuClearCounters (p : PmuModule) : PmuModule :=
  fcounterClear cpu reCyCounter (fcounterClear cpu instCounter p)

/-- `enable_pmu_counters` of `hwcounters.c`. -/
def pmuEnableCounters (p : PmuModule) : PmuModule :=
  pmuClearCounters cpu (pmuFcountersEnable cpu 0 p)

/-- What happens on the cpu: the counters grow, a probe reads and clears them, or something else
happens to the pmu module. -/
inductive ReadingStep (nrCpus : Nat) where
  | grow (counters : Counters)
  | reading
  | other (event : PmuEvent nrCpus)

/-- The module in one step, with the readings so far. -/
def readingStep (current : PmuModule × List (BitVec 64 × BitVec 64)) :
    ReadingStep nrCpus → PmuModule × List (BitVec 64 × BitVec 64)
  | .grow counters =>
      (pmuStep (pmuStep current.1 (.fixedCount cpu instCounter counters.inst))
        (.fixedCount cpu reCyCounter counters.reCy), current.2)
  | .reading =>
      let (pmuVal, p) := readCounters cpu current.1
      (pmuClearCounters cpu p, current.2 ++ [pmuVal])
  | .other event => (pmuStep current.1 event, current.2)

/-- The accounting's counters in one step, with the readings so far. -/
def accountingStep (current : CpuCounters × List Counters) :
    ReadingStep nrCpus → CpuCounters × List Counters
  | .grow counters => (current.1.grow counters, current.2)
  | .reading =>
      let (counters, c) := takeReading current.1
      (c, current.2 ++ [counters])
  | .other _ => current

/-- The event leaves the first two fixed counters of the cpu and their reset values alone. -/
def PmuEvent.Undisturbing : PmuEvent nrCpus → Bool
  | .fixedCount on counter _ => !(on = cpu ∧ counter.val < 2)
  | .call on (.fcountersEnable _) | .call on .fcountersDisable => on ≠ cpu
  | .call on (.fpmuConfigureInterrupt ctr _ _) | .call on (.fpmuDisableInterrupt ctr) =>
      !(on = cpu ∧ ctr < 2)
  | .call on (.fcounterClear counter) => !(on = cpu ∧ counter.val < 2)
  | _ => true

/-- Everything else that happens is about online cpus and disturbs nothing. -/
def ReadingStep.Allowed (online : List (Fin nrCpus)) : ReadingStep nrCpus → Prop
  | .other event => event.cpu ∈ online ∧ event.Undisturbing cpu = true
  | _ => True

/-- The two registers are the reset values with what the accounting's counters have grown. -/
structure Delivers (p : PmuModule) (c : CpuCounters) : Prop where
  whole : WholeResets p
  inst : p.hw.msr cpu (fixedAddress instCounter) = (p.fcleared cpu instCounter).all + c.inst
  reCy : p.hw.msr cpu (fixedAddress reCyCounter) = (p.fcleared cpu reCyCounter).all + c.reCy

/-! ### The readings agree -/

variable {cpu} {p : PmuModule} {c : CpuCounters} {online : List (Fin nrCpus)}

/-- The reset values of a fixed counter from the third on are apart from those of the first two. -/
theorem putFcleared_of_lt_two {cpuId ctr counter : Nat} (beyond : ¬ ctr < 2) (first : counter < 2)
    (cleared : Cleared) (p : PmuModule) :
    (p.putFcleared cpuId ctr cleared).fcleared cpuId counter = p.fcleared cpuId counter := by
  have apart : counter ≠ ctr := by omega
  exact putCell_of_index_ne apart

/-- An undisturbing event keeps the reset values of the first two fixed counters of the cpu. -/
theorem fcleared_undisturbed {event : PmuEvent nrCpus} (addressed : p.Addressed event.cpu)
    (undisturbing : event.Undisturbing cpu = true) {counter : Nat} (first : counter < 2) :
    (pmuStep p event).fcleared cpu counter = p.fcleared cpu counter := by
  by_cases same : event.cpu = cpu
  · cases event with
    | call on request =>
      obtain rfl : on = cpu := same
      cases request with
      | fcountersEnable os => simp [PmuEvent.Undisturbing] at undisturbing
      | fcountersDisable => simp [PmuEvent.Undisturbing] at undisturbing
      | fpmuConfigureInterrupt ctr low high =>
        have beyond : ¬ ctr < 2 := by simpa [PmuEvent.Undisturbing] using undisturbing
        show (if ctr < numFixedCounters then _ else p : PmuModule).fcleared on counter = _
        split
        · exact putFcleared_of_lt_two beyond first (Cleared.of low high) p
        · rfl
      | fpmuDisableInterrupt ctr =>
        have beyond : ¬ ctr < 2 := by simpa [PmuEvent.Undisturbing] using undisturbing
        have zeroed : (if ctr < numFixedCounters then p.putFcleared on ctr (Cleared.of 0 0)
            else p).fcleared on counter = p.fcleared on counter := by
          split
          · exact putFcleared_of_lt_two beyond first (Cleared.of 0 0) p
          · rfl
        show (Seeker.fpmuDisableInterrupt on ctr p).2.fcleared on counter = _
        unfold Seeker.fpmuDisableInterrupt
        dsimp only
        split
        · exact zeroed
        · exact zeroed
      | fcounterClear cleared =>
        show (Seeker.fcounterClear on cleared p).fcleared on counter = _
        rw [fcounterClear_eq]
        rfl
      | fcounterRead => exact congrFun (congrFun (fcounterRead_kept on p).2 on) counter
      | fpmuEnableInterrupt ctr =>
        show (Seeker.fpmuEnableInterrupt on ctr p).2.fcleared on counter = _
        unfold Seeker.fpmuEnableInterrupt
        split <;> rfl
      | _ => exact congrFun (congrFun (fixedKept_call rfl).fcleared on) counter
    | count on counted events => rfl
    | fixedCount on counted events => rfl
    | status on value => rfl
  · have kept := (event.touches addressed).fcleared cpu fun held => same (Fin.ext held).symm
    exact congrFun kept counter

/-- It keeps the registers of the first two fixed counters of the cpu. -/
theorem fixedRegister_undisturbed {event : PmuEvent nrCpus} (addressed : p.Addressed event.cpu)
    (undisturbing : event.Undisturbing cpu = true) {counter : Fin numFixedCounters}
    (first : counter.val < 2) :
    (pmuStep p event).hw.msr cpu (fixedAddress counter) = p.hw.msr cpu (fixedAddress counter) := by
  have keeps : ∀ request, event = .call cpu request → request.Clears counter = false := by
    rintro request rfl
    cases request with
    | fcountersEnable os => simp [PmuEvent.Undisturbing] at undisturbing
    | fcountersDisable => simp [PmuEvent.Undisturbing] at undisturbing
    | fcounterClear cleared =>
      refine decide_eq_false fun same => ?_
      subst same
      simp [PmuEvent.Undisturbing, first] at undisturbing
    | _ => rfl
  have nothing : fixedCounted cpu counter [event] = 0 := by
    cases event with
    | fixedCount on counted events =>
      refine (if_neg fun held => ?_ : _ = 0)
      obtain ⟨rfl, rfl⟩ := held
      simp [PmuEvent.Undisturbing, first] at undisturbing
    | _ => rfl
  rw [fixedRegister_step addressed keeps, nothing]
  exact BitVec.add_zero _

theorem Delivers.other (delivers : Delivers cpu p c) {event : PmuEvent nrCpus}
    (addressed : p.Addressed event.cpu) (undisturbing : event.Undisturbing cpu = true) :
    Delivers cpu (pmuStep p event) c := by
  refine ⟨delivers.whole.step event, ?_, ?_⟩
  · rw [fixedRegister_undisturbed addressed undisturbing (by decide),
      fcleared_undisturbed addressed undisturbing (by decide)]
    exact delivers.inst
  · rw [fixedRegister_undisturbed addressed undisturbing (by decide),
      fcleared_undisturbed addressed undisturbing (by decide)]
    exact delivers.reCy

theorem fixedCount_register (addressed : p.Addressed cpu) (counted counter : Fin numFixedCounters)
    (events : Nat) :
    (pmuStep p (.fixedCount cpu counted events)).hw.msr cpu (fixedAddress counter) =
      p.hw.msr cpu (fixedAddress counter) + (if counted = counter then events else 0 : Nat) := by
  have adds : fixedCounted cpu counter [.fixedCount cpu counted events] =
      if counted = counter then events else 0 := by
    simp [fixedCounted]
  have kept : ∀ request, PmuEvent.fixedCount cpu counted events = .call cpu request →
      request.Clears counter = false := by
    intro request made
    cases made
  have stepped : (pmuStep p (.fixedCount cpu counted events)).hw.msr cpu (fixedAddress counter) =
      _ := fixedRegister_step addressed kept
  rw [stepped, adds]

/-- The counters grow on both sides. -/
theorem Delivers.grow (delivers : Delivers cpu p c) (addressed : p.Addressed cpu)
    (counters : Counters) :
    Delivers cpu (pmuStep (pmuStep p (.fixedCount cpu instCounter counters.inst))
      (.fixedCount cpu reCyCounter counters.reCy)) (c.grow counters) := by
  have again : (pmuStep p (.fixedCount cpu instCounter counters.inst)).Addressed cpu :=
    (PmuEvent.touches (.fixedCount cpu instCounter counters.inst) addressed).addressed addressed
  have distinct : instCounter ≠ reCyCounter := by decide
  have grows : ∀ (reset : BitVec 64) (counted more : Nat),
      reset + (counted : BitVec 64) + (more : BitVec 64) =
        reset + ((counted + more : Nat) : BitVec 64) := by
    intro reset counted more
    rw [BitVec.natCast_eq_ofNat, BitVec.natCast_eq_ofNat, BitVec.natCast_eq_ofNat,
      BitVec.ofNat_add, BitVec.add_assoc]
  refine ⟨(delivers.whole.step (.fixedCount cpu instCounter counters.inst)).step
    (.fixedCount cpu reCyCounter counters.reCy), ?_, ?_⟩
  · rw [fixedCount_register again, fixedCount_register addressed, if_pos rfl,
      if_neg distinct.symm, delivers.inst]
    exact (BitVec.add_zero _).trans (grows _ c.inst counters.inst)
  · rw [fixedCount_register again, fixedCount_register addressed, if_pos rfl,
      if_neg distinct, delivers.reCy]
    refine (congrArg (· + (counters.reCy : BitVec 64)) (BitVec.add_zero _)).trans ?_
    exact grows _ c.reCy counters.reCy

/-- The two clears leave both registers at their reset values. -/
theorem delivers_pmuClearCounters (whole : WholeResets p) (addressed : p.Addressed cpu)
    (c : CpuCounters) : Delivers cpu (pmuClearCounters cpu p) (clearCounters c) := by
  have distinct : fixedAddress instCounter ∉ [fixedAddress reCyCounter] := by decide
  have clearsInst : (PmuCall.fcounterClear instCounter).Clears instCounter = true := by decide
  have clearsReCy : (PmuCall.fcounterClear reCyCounter).Clears reCyCounter = true := by decide
  have first : (fcounterClear cpu instCounter p).hw.msr cpu (fixedAddress instCounter) = _ :=
    fixedRegister_clear addressed clearsInst
  have again : (fcounterClear cpu instCounter p).Addressed cpu :=
    (PmuCall.touches addressed (.fcounterClear instCounter)).addressed addressed
  have kept : (fcounterClear cpu instCounter p).fcleared = p.fcleared := by
    rw [fcounterClear_eq]
    rfl
  have resets : (pmuClearCounters cpu p).fcleared = p.fcleared := by
    unfold pmuClearCounters
    rw [fcounterClear_eq]
    exact kept
  have touches := PmuCall.touches again (.fcounterClear reCyCounter)
  refine ⟨whole.congr resets, ?_, ?_⟩
  · rw [resets, whole cpu instCounter, u64_eq_append]
    refine (touches.msr _ _ fun held => distinct held.2).trans (first.trans ?_)
    exact (BitVec.add_zero _).symm
  · have second : (pmuClearCounters cpu p).hw.msr cpu (fixedAddress reCyCounter) = _ :=
      fixedRegister_clear again clearsReCy
    rw [resets, whole cpu reCyCounter, u64_eq_append, second, kept]
    exact (BitVec.add_zero _).symm

/-- What the accounting reads, in the width of a register. -/
def Counters.asRead (counters : Counters) : BitVec 64 × BitVec 64 :=
  (BitVec.ofNat 64 counters.inst, BitVec.ofNat 64 counters.reCy)

/-- A reading delivers what the accounting's counters have grown, and clears both. -/
theorem Delivers.reading (delivers : Delivers cpu p c) (addressed : p.Addressed cpu) :
    (readCounters cpu p).1 = (takeReading c).1.asRead ∧
      Delivers cpu (pmuClearCounters cpu (readCounters cpu p).2) (takeReading c).2 := by
  obtain ⟨sameHw, resets⟩ := fcounterRead_kept cpu p
  refine ⟨Prod.ext ?_ ?_, ?_⟩
  · show @getFcounterData nrCpus instCounter cpu (fcounterRead cpu p) = (c.inst : BitVec 64)
    rw [getFcounterData_fcounterRead addressed, delivers.inst, BitVec.add_comm,
      BitVec.add_sub_cancel]
  · show @getFcounterData nrCpus reCyCounter cpu (fcounterRead cpu p) = (c.reCy : BitVec 64)
    rw [getFcounterData_fcounterRead addressed, delivers.reCy, BitVec.add_comm,
      BitVec.add_sub_cancel]
  · exact delivers_pmuClearCounters (delivers.whole.congr resets)
      ((PmuCall.touches addressed .fcounterRead).addressed addressed) _

/-! ### Runs -/

theorem Running.readingStep (running : Running online p) (member : cpu ∈ online)
    (readings : List (BitVec 64 × BitVec 64)) {step : ReadingStep nrCpus}
    (allowed : step.Allowed cpu online) :
    Running online (Seeker.readingStep cpu (p, readings) step).1 := by
  have call : ∀ {q : PmuModule} (request : PmuCall), Running online q →
      Running online (pmuStep q (.call cpu request)) :=
    fun request kept => kept.step member
  have counted : ∀ {q : PmuModule} (counter : Fin numFixedCounters) (events : Nat),
      Running online q → Running online (pmuStep q (.fixedCount cpu counter events)) :=
    fun counter events kept => kept.step member
  cases step with
  | grow counters =>
    exact counted reCyCounter counters.reCy (counted instCounter counters.inst running)
  | reading =>
    exact call (.fcounterClear reCyCounter)
      (call (.fcounterClear instCounter) (call .fcounterRead running))
  | other event => exact running.step allowed.1

/-- One step keeps the two sides together. -/
theorem Delivers.step (delivers : Delivers cpu p c) (running : Running online p)
    (member : cpu ∈ online) (readings : List Counters) {step : ReadingStep nrCpus}
    (allowed : step.Allowed cpu online) :
    let pmu := readingStep cpu (p, readings.map Counters.asRead) step
    let accounting := accountingStep (c, readings) step
    Delivers cpu pmu.1 accounting.1 ∧ pmu.2 = accounting.2.map Counters.asRead := by
  intro pmu accounting
  have addressed := running.addressed cpu member
  cases step with
  | grow counters => exact ⟨delivers.grow addressed counters, rfl⟩
  | reading =>
    obtain ⟨delivered, cleared⟩ := delivers.reading addressed
    refine ⟨cleared, ?_⟩
    show readings.map Counters.asRead ++ [(readCounters cpu p).1] =
      (readings ++ [(takeReading c).1]).map Counters.asRead
    rw [delivered, List.map_append]
    rfl
  | other event =>
    exact ⟨delivers.other (running.addressed event.cpu allowed.1) allowed.2, rfl⟩

theorem Delivers.run {steps : List (ReadingStep nrCpus)} (readings : List Counters)
    (delivers : Delivers cpu p c) (running : Running online p) (member : cpu ∈ online)
    (allowed : ∀ step ∈ steps, step.Allowed cpu online) :
    (Exec.run (readingStep cpu) (p, readings.map Counters.asRead) steps).2 =
      (Exec.run accountingStep (c, readings) steps).2.map Counters.asRead := by
  induction steps generalizing p c readings with
  | nil => rfl
  | cons step rest inductionHypothesis =>
    obtain ⟨first, others⟩ := List.forall_mem_cons.mp allowed
    obtain ⟨delivered, same⟩ := delivers.step running member readings first
    have kept := running.readingStep member (readings.map Counters.asRead) first
    rw [Exec.run_cons, Exec.run_cons]
    have rest := inductionHypothesis (accountingStep (c, readings) step).2 delivered kept others
    rw [← same] at rest
    exact rest

/-- What the scheduler reads from the pmu module on a cpu, from `enable_pmu_counters` on, are the
readings of the accounting's two counters modulo the width of a register, whatever else uses the
module, as long as nobody else clears or configures the two fixed counters of the cpu. -/
theorem pmu_readings_refine {general fixed : RanOn nrCpus}
    {msr : Nat → BitVec 32 → BitVec 64}
    (succeeds : (pmuInit general fixed (PmuModule.loaded msr)).1 = 0)
    {before : List (PmuEvent nrCpus)} {steps : List (ReadingStep nrCpus)}
    (isOnline : ∀ event ∈ before, event.cpu ∈ onlineCpus general fixed)
    (member : cpu ∈ onlineCpus general fixed)
    (allowed : ∀ step ∈ steps, step.Allowed cpu (onlineCpus general fixed))
    (c : CpuCounters) :
    let p := Exec.run pmuStep (pmuInit general fixed (PmuModule.loaded msr)).2 before
    (Exec.run (readingStep cpu) (pmuEnableCounters cpu p, []) steps).2 =
      (Exec.run accountingStep (clearCounters c, []) steps).2.map Counters.asRead := by
  intro p
  have ready := pmuInit_ready succeeds
  have running : Running (onlineCpus general fixed) p := ready.running.run isOnline
  have whole : WholeResets p := by
    refine WholeResets.run (fun cpuId index => ?_) before
    rw [ready.loaded.fcleared]
    decide
  let enabled := pmuStep p (.call cpu (.fcountersEnable 0))
  have runningEnabled : Running (onlineCpus general fixed) enabled := running.step member
  have wholeEnabled : WholeResets enabled := whole.step _
  have delivers : Delivers cpu (pmuEnableCounters cpu p) (clearCounters c) :=
    delivers_pmuClearCounters wholeEnabled (runningEnabled.addressed cpu member) c
  have first : Running (onlineCpus general fixed)
      (pmuStep enabled (.call cpu (.fcounterClear instCounter))) := runningEnabled.step member
  have second : Running (onlineCpus general fixed) (pmuStep
      (pmuStep enabled (.call cpu (.fcounterClear instCounter)))
      (.call cpu (.fcounterClear reCyCounter))) := first.step member
  exact delivers.run [] second member allowed

/-- On a single cpu where the third fixed counter is in use by somebody else, who clears it and
configures its interrupt. -/
theorem pmu_readings_refine_shared :
    let steps : List (ReadingStep 1) := [.grow ⟨5, 7, 9⟩,
      .other (.call 0 (.fcounterClear ⟨2, by decide⟩)),
      .other (.call 0 (.fpmuConfigureInterrupt 2 1 0)), .reading, .grow ⟨1, 2, 3⟩, .reading]
    let p := Exec.run pmuStep (pmuInit ⟨0, [(0 : Fin 1)]⟩ ⟨0, [(0 : Fin 1)]⟩
      (PmuModule.loaded fun _ _ => 0)).2 ([] : List (PmuEvent 1))
    (Exec.run (readingStep (0 : Fin 1)) (pmuEnableCounters (0 : Fin 1) p, []) steps).2 =
      (Exec.run accountingStep (clearCounters ⟨0, 0, 0, 0, none⟩, []) steps).2.map
        Counters.asRead :=
  pmu_readings_refine rfl (by decide) (by decide : (0 : Fin 1) ∈ _) (by
    intro step member
    simp only [List.mem_cons, List.not_mem_nil, or_false] at member
    rcases member with rfl | rfl | rfl | rfl | rfl | rfl
    · trivial
    · exact ⟨by decide, by decide⟩
    · exact ⟨by decide, by decide⟩
    · trivial
    · trivial
    · trivial) _

end Readings

end Seeker
