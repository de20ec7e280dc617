/-
This file proves what runs of calls to the pmu module keep of its general counters.

A run interleaves the calls of all cpus with what the hardware does by itself: the
counters grow and the overflow status changes. A counter that `counter_enable` hands out
as idle does not count, and no counter is handed out twice before it is given back. What
`pmu_configure_interrupt` is told never reaches a register.
-/
import Seeker.Library.Exec
import Seeker.PmuInit

namespace Seeker

open BitFields

/-! ### Runs -/

/-- A call on a cpu; a general or a fixed counter of a cpu has counted events; the overflow status
of a cpu has changed. -/
inductive PmuEvent (nrCpus : Nat) where
  | call (cpu : Fin nrCpus) (request : PmuCall)
  | count (cpu : Fin nrCpus) (counter : Fin numCounters) (events : Nat)
  | fixedCount (cpu : Fin nrCpus) (counter : Fin numFixedCounters) (events : Nat)
  | status (cpu : Fin nrCpus) (value : BitVec 64)

/-- The hardware changes a register by itself. -/
def PmuModule.change (cpu : Nat) (address : BitVec 32) (value : BitVec 64) (p : PmuModule) :
    PmuModule :=
  p.write cpu address (value.setWidth 32) (value.extractLsb' 32 32)

/-- The cpu an event is about. -/
def PmuEvent.cpu {nrCpus : Nat} : PmuEvent nrCpus → Fin nrCpus
  | .call cpu _ | .count cpu _ _ | .fixedCount cpu _ _ | .status cpu _ => cpu

/-- The registers an event may change. -/
def PmuEvent.writes {nrCpus : Nat} : PmuEvent nrCpus → List (BitVec 32)
  | .call _ request => request.writes
  | .count _ counter _ => [pmcAddress counter]
  | .fixedCount _ counter _ => [fixedAddress counter]
  | .status _ _ => [msrPerfGlobalStatus]

section Runs

variable {nrCpus : Nat}

/-- One event. -/
def pmuStep (p : PmuModule) : PmuEvent nrCpus → PmuModule
  | .call cpu request => (request.perform cpu p).2
  | .count cpu counter events =>
      p.change cpu (pmcAddress counter) (p.hw.msr cpu (pmcAddress counter) + events)
  | .fixedCount cpu counter events =>
      p.change cpu (fixedAddress counter) (p.hw.msr cpu (fixedAddress counter) + events)
  | .status cpu value => p.change cpu msrPerfGlobalStatus value

variable {cpu : Fin nrCpus} {p p' : PmuModule}

theorem touches_change (cpu : Nat) (address : BitVec 32) (value : BitVec 64) (p : PmuModule) :
    Touches cpu [address] p (p.change cpu address value) :=
  (Touches.refl cpu [address] p).write List.mem_cons_self _ _

theorem PmuEvent.touches (event : PmuEvent nrCpus) (addressed : p.Addressed event.cpu) :
    Touches event.cpu event.writes p (pmuStep p event) := by
  cases event with
  | call cpu request => exact request.touches addressed
  | count cpu counter events => exact touches_change cpu (pmcAddress counter) _ p
  | fixedCount cpu counter events => exact touches_change cpu (fixedAddress counter) _ p
  | status cpu value => exact touches_change cpu msrPerfGlobalStatus value p

/-- An event keeps the counters of every cpu mirrored. -/
theorem mirrored_step {event : PmuEvent nrCpus} (addressed : p.Addressed event.cpu)
    (mirrored : ∀ counter < numCounters, Mirrored cpu counter p) :
    ∀ counter < numCounters, Mirrored cpu counter (pmuStep p event) := by
  have touches := event.touches addressed
  by_cases same : cpu = event.cpu
  · subst same
    cases event with
    | call cpu request => exact mirrored_call addressed mirrored request
    | count cpu counted events =>
      intro counter small
      refine (mirrored counter small).of_kept touches ⟨rfl, rfl⟩ fun held => ?_
      have apart : ∀ counted : Fin numCounters, ∀ counter < numCounters,
          evtselAddress counter ∉ [pmcAddress counted] := by decide
      exact apart counted counter small held.2
    | fixedCount cpu counted events =>
      intro counter small
      refine (mirrored counter small).of_kept touches ⟨rfl, rfl⟩ fun held => ?_
      have apart : ∀ counted : Fin numFixedCounters, ∀ counter < numCounters,
          evtselAddress counter ∉ [fixedAddress counted] := by decide
      exact apart counted counter small held.2
    | status cpu value =>
      intro counter small
      refine (mirrored counter small).of_kept touches ⟨rfl, rfl⟩ fun held => ?_
      have apart : ∀ counter < numCounters,
          evtselAddress counter ∉ [msrPerfGlobalStatus] := by decide
      exact apart counter small held.2
  · intro counter small
    have apart : cpu.val ≠ event.cpu := fun held => same (Fin.ext held)
    refine (mirrored counter small).of_kept touches ⟨?_, ?_⟩ fun held => apart held.1
    · rw [touches.evtsel cpu apart]
    · rw [touches.counters cpu apart]

/-- The cpus that both parts of `pmu_init` ran on. -/
def onlineCpus (general fixed : RanOn nrCpus) : List (Fin nrCpus) :=
  general.cpus.filter (· ∈ fixed.cpus)

/-- On the online cpus the addresses are set and the general counters mirrored. -/
structure Running (online : List (Fin nrCpus)) (p : PmuModule) : Prop where
  addressed : ∀ cpu ∈ online, p.Addressed cpu
  mirrored : ∀ cpu ∈ online, ∀ counter < numCounters, Mirrored cpu counter p

theorem Running.step {online : List (Fin nrCpus)} {event : PmuEvent nrCpus}
    (running : Running online p) (isOnline : event.cpu ∈ online) :
    Running online (pmuStep p event) where
  addressed cpu member :=
    (event.touches (running.addressed event.cpu isOnline)).addressed (running.addressed cpu member)
  mirrored cpu member :=
    mirrored_step (running.addressed event.cpu isOnline) (running.mirrored cpu member)

theorem Running.run {online : List (Fin nrCpus)} {events : List (PmuEvent nrCpus)}
    (running : Running online p) (isOnline : ∀ event ∈ events, event.cpu ∈ online) :
    Running online (Exec.run pmuStep p events) := by
  induction events generalizing p with
  | nil => exact running
  | cons event rest inductionHypothesis =>
    obtain ⟨first, others⟩ := List.forall_mem_cons.mp isOnline
    exact inductionHypothesis (running.step first) others

theorem PmuReady.running {online : List (Fin nrCpus)} (ready : PmuReady online p) :
    Running online p :=
  ⟨fun _ member => ready.addressed member, ready.mirrored⟩

theorem Evtsel.enabled_mem_fields (e : Evtsel) : ⟨spanEnabled, e.enabled⟩ ∈ e.fields := by
  simp [Evtsel.fields]

/-- In every run the register of a general counter holds the counter's descriptor, and the counter
is claimed exactly when the register has the enabled bit: what `counter_enable` takes for idle does
not count. -/
theorem pmu_registers_mirrored {general fixed : RanOn nrCpus} {msr : Nat → BitVec 32 → BitVec 64}
    (succeeds : (pmuInit general fixed (PmuModule.loaded msr)).1 = 0)
    {events : List (PmuEvent nrCpus)}
    (isOnline : ∀ event ∈ events, event.cpu ∈ onlineCpus general fixed)
    {cpu : Fin nrCpus} (member : cpu ∈ onlineCpus general fixed) {counter : Nat}
    (small : counter < numCounters) :
    let p := Exec.run pmuStep (pmuInit general fixed (PmuModule.loaded msr)).2 events
    HoldsFields (p.hw.evtsel cpu counter).fields (p.hw.msr cpu (evtselAddress counter)) ∧
      (p.counters cpu counter).enabled =
        ((p.hw.msr cpu (evtselAddress counter)).extractLsb' spanEnabled.shift
          spanEnabled.size).setWidth 32 := by
  intro p
  have running := (pmuInit_ready succeeds).running.run isOnline
  obtain ⟨holds, agree⟩ := running.mirrored cpu member counter small
  refine ⟨holds, agree.trans ?_⟩
  have enabled := holds _ (p.hw.evtsel cpu counter).enabled_mem_fields
  exact congrArg (fun bit : BitVec spanEnabled.size => bit.setWidth 32) enabled.symm

/-- On a single cpu that claims a counter and has its interrupt switched on. -/
theorem pmu_registers_mirrored_claimed :
    let events : List (PmuEvent 1) := [.call 0 (.counterEnable 0xc0 0 0),
      .call 0 (.pmuEnableInterrupt 0), .count 0 ⟨0, by decide⟩ 5]
    let p := Exec.run pmuStep
      (pmuInit ⟨0, [(0 : Fin 1)]⟩ ⟨0, [(0 : Fin 1)]⟩ (PmuModule.loaded fun _ _ => 0)).2 events
    HoldsFields (p.hw.evtsel 0 0).fields (p.hw.msr 0 (evtselAddress 0)) ∧
      (p.counters 0 0).enabled =
        ((p.hw.msr 0 (evtselAddress 0)).extractLsb' spanEnabled.shift
          spanEnabled.size).setWidth 32 :=
  pmu_registers_mirrored rfl (by decide) (by decide : (0 : Fin 1) ∈ _) (by decide)

/-! ### Who has a counter -/

/-- One event, with the counters of a cpu that `counter_enable` has handed out and that have not
been given back. -/
def ledgerStep (cpu : Fin nrCpus) (current : PmuModule × List Nat) (event : PmuEvent nrCpus) :
    PmuModule × List Nat :=
  (pmuStep current.1 event,
    match event with
    | .call on (.counterEnable event evMask os) =>
        let counter := (pmuCounterEnable on event evMask os current.1).1
        if on = cpu ∧ 0 ≤ counter then counter.toNat :: current.2 else current.2
    | .call on (.counterDisable counter) =>
        if on = cpu then current.2.erase counter else current.2
    | _ => current.2)

/-- The counters handed out are those that are marked, each once. -/
structure LedgerExact (cpu : Fin nrCpus) (current : PmuModule × List Nat) : Prop where
  nodup : current.2.Nodup
  mem : ∀ counter, counter ∈ current.2 ↔
    counter < numCounters ∧ (current.1.counters cpu counter).enabled ≠ 0

theorem claimCounter_enabled (cpu : Fin nrCpus) (event evMask os : BitVec 32) (claimed : Nat)
    (p : PmuModule) :
    ((claimCounter cpu event evMask os claimed p).counters cpu claimed).enabled = 1 ∧
      ∀ other, other ≠ claimed →
        ((claimCounter cpu event evMask os claimed p).counters cpu other).enabled =
          (p.counters cpu other).enabled := by
  refine ⟨congrArg PmuCounter.enabled putCell_self, fun other apart => ?_⟩
  refine (congrArg PmuCounter.enabled (putCell_of_index_ne apart)).trans ?_
  exact (slotKept_counterClear claimed).enabled

theorem counterDisable_enabled {disabled : Nat} (small : disabled < numCounters) :
    ((counterDisable cpu disabled p).counters cpu disabled).enabled = 0 := by
  unfold counterDisable
  rw [if_neg (not_or.mpr ⟨not_le.mpr small, not_le.mpr cpu.isLt⟩)]
  split
  · rename_i idle
    exact idle
  · exact congrArg PmuCounter.enabled putCell_self

theorem counterDisable_enabled_other {disabled other : Nat} (apart : other ≠ disabled) :
    ((counterDisable cpu disabled p).counters cpu other).enabled =
      (p.counters cpu other).enabled := by
  unfold counterDisable
  split
  · rfl
  · split
    · rfl
    · refine (congrArg PmuCounter.enabled (putCell_of_index_ne apart)).trans ?_
      exact (slotKept_counterClear disabled).enabled

/-- An event that is neither of the two leaves the marks of every cpu alone. -/
theorem enabled_step {event : PmuEvent nrCpus} (addressed : p.Addressed event.cpu) (counter : Nat)
    (claims : ∀ on event' evMask os, event = .call on (.counterEnable event' evMask os) → on ≠ cpu)
    (frees : ∀ on disabled, event = .call on (.counterDisable disabled) → on ≠ cpu) :
    ((pmuStep p event).counters cpu counter).enabled = (p.counters cpu counter).enabled := by
  by_cases same : event.cpu = cpu
  · cases event with
    | call on request =>
      obtain rfl : on = cpu := same
      cases request with
      | counterEnable event' evMask os => exact absurd rfl (claims on event' evMask os rfl)
      | counterDisable disabled => exact absurd rfl (frees on disabled rfl)
      | pmuEnableInterrupt ctr =>
        show ((Seeker.pmuEnableInterrupt on ctr p).2.counters on counter).enabled = _
        unfold Seeker.pmuEnableInterrupt
        split <;> rfl
      | pmuDisableInterrupt ctr =>
        show ((Seeker.pmuDisableInterrupt on ctr p).2.counters on counter).enabled = _
        unfold Seeker.pmuDisableInterrupt
        split <;> rfl
      | _ => exact (slotKept_call rfl).enabled
    | _ => rfl
  · have apart : cpu.val ≠ event.cpu := fun held => same (Fin.ext held).symm
    rw [(event.touches addressed).counters cpu apart]

/-- `counter_enable` hands out a counter that nobody has. -/
theorem LedgerExact.claim {out : List Nat} (exact_ : LedgerExact cpu (p, out))
    (event evMask os : BitVec 32) :
    LedgerExact cpu (ledgerStep cpu (p, out) (.call cpu (.counterEnable event evMask os))) := by
  show LedgerExact cpu ((pmuCounterEnable cpu event evMask os p).2,
    if cpu = cpu ∧ 0 ≤ (pmuCounterEnable cpu event evMask os p).1 then
      (pmuCounterEnable cpu event evMask os p).1.toNat :: out else out)
  rcases pmuCounterEnable_cases cpu event evMask os p with ⟨_, failed⟩ | ⟨claimed, small, idle, done⟩
  · rw [failed, if_neg (by simp)]
    exact exact_
  · rw [done, if_pos ⟨rfl, Int.natCast_nonneg claimed⟩, Int.toNat_natCast]
    have free : claimed ∉ out := fun member => ((exact_.mem claimed).mp member).2 idle
    obtain ⟨marked, others⟩ := claimCounter_enabled cpu event evMask os claimed p
    refine ⟨List.nodup_cons.mpr ⟨free, exact_.nodup⟩, fun counter => ?_⟩
    rw [List.mem_cons]
    by_cases same : counter = claimed
    · subst same
      simp [marked, small]
    · rw [others counter same]
      simp only [same, false_or]
      exact exact_.mem counter

/-- `counter_disable` takes back the counter, whoever has it. -/
theorem LedgerExact.free {out : List Nat} (exact_ : LedgerExact cpu (p, out)) (disabled : Nat) :
    LedgerExact cpu (ledgerStep cpu (p, out) (.call cpu (.counterDisable disabled))) := by
  show LedgerExact cpu (counterDisable cpu disabled p, if cpu = cpu then out.erase disabled else out)
  rw [if_pos rfl]
  refine ⟨exact_.nodup.erase disabled, fun counter => ?_⟩
  rw [exact_.nodup.mem_erase_iff, exact_.mem counter]
  by_cases same : counter = disabled
  · subst same
    refine iff_of_false (fun held => held.1 rfl) fun held => held.2 ?_
    exact counterDisable_enabled held.1
  · rw [counterDisable_enabled_other same]
    exact and_iff_right same

theorem LedgerExact.step {current : PmuModule × List Nat} {event : PmuEvent nrCpus}
    (exact_ : LedgerExact cpu current) (addressed : current.1.Addressed event.cpu) :
    LedgerExact cpu (ledgerStep cpu current event) := by
  obtain ⟨p, out⟩ := current
  have unchanged : (∀ counter,
      ((pmuStep p event).counters cpu counter).enabled = (p.counters cpu counter).enabled) →
      LedgerExact cpu (pmuStep p event, out) := by
    intro same
    refine ⟨exact_.nodup, fun counter => ?_⟩
    rw [same counter]
    exact exact_.mem counter
  by_cases claims : ∃ event' evMask os, event = .call cpu (.counterEnable event' evMask os)
  · obtain ⟨event', evMask, os, rfl⟩ := claims
    exact exact_.claim event' evMask os
  by_cases frees : ∃ disabled, event = .call cpu (.counterDisable disabled)
  · obtain ⟨disabled, rfl⟩ := frees
    exact exact_.free disabled
  have kept := unchanged fun counter => enabled_step addressed counter
    (fun on event' evMask os made same => claims ⟨event', evMask, os, same ▸ made⟩)
    fun on disabled made same => frees ⟨disabled, same ▸ made⟩
  have same : ledgerStep cpu (p, out) event = (pmuStep p event, out) := by
    cases event with
    | call on request =>
      cases request with
      | counterEnable event' evMask os =>
        refine congrArg (Prod.mk _) (if_neg fun held => claims ⟨event', evMask, os, ?_⟩)
        rw [held.1]
      | counterDisable disabled =>
        refine congrArg (Prod.mk _) (if_neg fun held => frees ⟨disabled, ?_⟩)
        rw [held]
      | _ => rfl
    | _ => rfl
  rw [same]
  exact kept

theorem LedgerExact.run {online : List (Fin nrCpus)} {current : PmuModule × List Nat}
    {events : List (PmuEvent nrCpus)} (exact_ : LedgerExact cpu current)
    (running : Running online current.1) (isOnline : ∀ event ∈ events, event.cpu ∈ online) :
    LedgerExact cpu (Exec.run (ledgerStep cpu) current events) := by
  induction events generalizing current with
  | nil => exact exact_
  | cons event rest inductionHypothesis =>
    obtain ⟨first, others⟩ := List.forall_mem_cons.mp isOnline
    exact inductionHypothesis (exact_.step (running.addressed event.cpu first))
      (running.step first) others

/-- All counters are handed out exactly when all are marked. -/
theorem LedgerExact.length_eq_iff {current : PmuModule × List Nat}
    (exact_ : LedgerExact cpu current) : current.2.length = numCounters ↔
      ∀ counter < numCounters, (current.1.counters cpu counter).enabled ≠ 0 := by
  have same : current.2.Perm ((List.range numCounters).filter
      fun counter => (current.1.counters cpu counter).enabled ≠ 0) := by
    refine (List.perm_ext_iff_of_nodup exact_.nodup (List.nodup_range.filter _)).mpr ?_
    intro counter
    rw [exact_.mem counter, List.mem_filter, List.mem_range]
    simp only [decide_eq_true_eq]
  have whole : ((List.range numCounters).filter
      fun counter => (current.1.counters cpu counter).enabled ≠ 0).length =
        (List.range numCounters).length ↔ _ := List.length_filter_eq_length_iff
  rw [List.length_range] at whole
  rw [same.length_eq, whole]
  simp only [List.mem_range, decide_eq_true_eq]

/-- In every run the counters of a cpu that are handed out are distinct, and they are those that
are marked; `counter_enable` fails exactly when all are handed out, and otherwise hands out one that
is not. -/
theorem pmu_counters_exclusive {general fixed : RanOn nrCpus}
    {msr : Nat → BitVec 32 → BitVec 64}
    (succeeds : (pmuInit general fixed (PmuModule.loaded msr)).1 = 0)
    {events : List (PmuEvent nrCpus)}
    (isOnline : ∀ event ∈ events, event.cpu ∈ onlineCpus general fixed)
    {cpu : Fin nrCpus} (member : cpu ∈ onlineCpus general fixed) (event evMask os : BitVec 32) :
    let current := Exec.run (ledgerStep cpu)
      ((pmuInit general fixed (PmuModule.loaded msr)).2, []) events
    let counter := (pmuCounterEnable cpu event evMask os current.1).1
    LedgerExact cpu current ∧
      (counter = -1 ↔ current.2.length = numCounters) ∧
      (counter ≠ -1 → 0 ≤ counter ∧ counter.toNat < numCounters ∧ counter.toNat ∉ current.2) := by
  intro current counter
  have ready := pmuInit_ready succeeds
  have started : LedgerExact cpu ((pmuInit general fixed (PmuModule.loaded msr)).2, []) := by
    refine ⟨List.nodup_nil, fun counter => iff_of_false (List.not_mem_nil) fun held => held.2 ?_⟩
    rw [(ready.fresh cpu member counter held.1).counter]
  have exact_ : LedgerExact cpu current := started.run ready.running isOnline
  refine ⟨exact_, ?_, fun handed => ?_⟩
  · rw [exact_.length_eq_iff]
    rcases pmuCounterEnable_cases cpu event evMask os current.1 with
      ⟨full, failed⟩ | ⟨claimed, small, idle, done⟩
    · exact iff_of_true (congrArg Prod.fst failed) full
    · refine iff_of_false (fun held => ?_) fun full => full claimed small idle
      have same : counter = claimed := congrArg Prod.fst done
      omega
  · rcases pmuCounterEnable_cases cpu event evMask os current.1 with
      ⟨_, failed⟩ | ⟨claimed, small, idle, done⟩
    · exact absurd (congrArg Prod.fst failed) handed
    · have same : counter = claimed := congrArg Prod.fst done
      rw [same, Int.toNat_natCast]
      exact ⟨Int.natCast_nonneg claimed, small, fun member => ((exact_.mem claimed).mp member).2 idle⟩

/-- On a single cpu that claims both counters and gives the first one back. -/
theorem pmu_counters_exclusive_claimed :
    let events : List (PmuEvent 1) := [.call 0 (.counterEnable 0xc0 0 0),
      .call 0 (.counterEnable 0x3c 0 0), .call 0 (.counterDisable 0)]
    let current := Exec.run (ledgerStep 0)
      ((pmuInit ⟨0, [(0 : Fin 1)]⟩ ⟨0, [(0 : Fin 1)]⟩ (PmuModule.loaded fun _ _ => 0)).2, []) events
    let counter := (pmuCounterEnable (0 : Fin 1) 0xc0 0 0 current.1).1
    LedgerExact (0 : Fin 1) current ∧
      (counter = -1 ↔ current.2.length = numCounters) ∧
      (counter ≠ -1 → 0 ≤ counter ∧ counter.toNat < numCounters ∧ counter.toNat ∉ current.2) :=
  pmu_counters_exclusive rfl (by decide) (by decide : (0 : Fin 1) ∈ _) 0xc0 0 0

/-! ### The reset values of the general counters -/

/-- The module with other values in `cleared`. -/
def PmuModule.withCleared (cleared : Nat → Nat → Cleared) (p : PmuModule) : PmuModule :=
  { p with cleared := cleared }

section Forget

variable (cleared : Nat → Nat → Cleared)

theorem counterClear_withCleared (counter : Nat) (p : PmuModule) :
    counterClear cpu counter (p.withCleared cleared) =
      (counterClear cpu counter p).withCleared cleared := by
  unfold counterClear
  split_ifs <;> rfl

theorem counterDisable_withCleared (counter : Nat) (p : PmuModule) :
    counterDisable cpu counter (p.withCleared cleared) =
      (counterDisable cpu counter p).withCleared cleared := by
  unfold counterDisable counterClear PmuModule.withCleared
  dsimp only
  split_ifs <;> rfl

theorem claimCounter_withCleared (event evMask os : BitVec 32) (counter : Nat) (p : PmuModule) :
    claimCounter cpu event evMask os counter (p.withCleared cleared) =
      (claimCounter cpu event evMask os counter p).withCleared cleared := by
  unfold claimCounter counterClear PmuModule.withCleared
  dsimp only
  split_ifs <;> rfl

theorem counterRead_withCleared (p : PmuModule) :
    counterRead cpu (p.withCleared cleared) = (counterRead cpu p).withCleared cleared := by
  unfold counterRead
  rw [if_pos cpu.isLt, if_pos cpu.isLt]
  refine (Loops.forRange_map (PmuModule.withCleared cleared) (fun index current => ?_)
    numCounters p).symm
  unfold readCounter PmuModule.withCleared
  dsimp only
  split_ifs <;> rfl

theorem fcounterClears_withCleared (p : PmuModule) :
    Loops.forRange numFixedCounters (fcounterClear cpu) (p.withCleared cleared) =
      (Loops.forRange numFixedCounters (fcounterClear cpu) p).withCleared cleared := by
  refine (Loops.forRange_map (PmuModule.withCleared cleared) (fun index current => ?_)
    numFixedCounters p).symm
  rw [fcounterClear_eq, fcounterClear_eq]
  rfl

/-- Two states that agree but for `cleared` agree after a call too. -/
theorem perform_withCleared (request : PmuCall) (p : PmuModule) :
    ∃ after, (request.perform cpu (p.withCleared cleared)).2 =
      ((request.perform cpu p).2).withCleared after := by
  cases request with
  | counterEnable event evMask os =>
    refine ⟨cleared, ?_⟩
    show (pmuCounterEnable cpu event evMask os (p.withCleared cleared)).2 =
      (pmuCounterEnable cpu event evMask os p).2.withCleared cleared
    have same : ∀ counter, ((p.withCleared cleared).counters cpu counter).enabled =
        (p.counters cpu counter).enabled := fun _ => rfl
    unfold pmuCounterEnable
    simp only [same]
    split
    · rfl
    · split
      · rfl
      · exact claimCounter_withCleared cleared event evMask os _ p
  | counterDisable counter => exact ⟨cleared, counterDisable_withCleared cleared counter p⟩
  | counterClear counter => exact ⟨cleared, counterClear_withCleared cleared counter p⟩
  | counterRead => exact ⟨cleared, counterRead_withCleared cleared p⟩
  | fcountersEnable os =>
    refine ⟨cleared, ?_⟩
    show pmuFcountersEnable cpu os (p.withCleared cleared) =
      (pmuFcountersEnable cpu os p).withCleared _
    unfold pmuFcountersEnable
    rw [if_pos cpu.isLt, if_pos cpu.isLt, fcounterClears_withCleared]
    rfl
  | fcountersDisable =>
    refine ⟨cleared, ?_⟩
    show Seeker.fcountersDisable cpu (p.withCleared cleared) =
      (Seeker.fcountersDisable cpu p).withCleared _
    unfold Seeker.fcountersDisable
    rw [if_pos cpu.isLt, if_pos cpu.isLt, fcounterClears_withCleared]
    rfl
  | fcounterClear counter =>
    refine ⟨cleared, ?_⟩
    show Seeker.fcounterClear cpu counter (p.withCleared cleared) =
      (Seeker.fcounterClear cpu counter p).withCleared _
    rw [fcounterClear_eq, fcounterClear_eq]
    rfl
  | fcounterRead =>
    refine ⟨cleared, ?_⟩
    show Seeker.fcounterRead cpu (p.withCleared cleared) =
      (Seeker.fcounterRead cpu p).withCleared _
    unfold Seeker.fcounterRead
    rw [if_pos cpu.isLt, if_pos cpu.isLt]
    refine (Loops.forRange_map (PmuModule.withCleared cleared) (fun index current => ?_)
      numFixedCounters p).symm
    rfl
  | pmuConfigureInterrupt ctr low high =>
    refine ⟨((Seeker.pmuConfigureInterrupt cpu ctr low high (p.withCleared cleared)).2).cleared, ?_⟩
    show (Seeker.pmuConfigureInterrupt cpu ctr low high (p.withCleared cleared)).2 =
      ((Seeker.pmuConfigureInterrupt cpu ctr low high p).2).withCleared _
    unfold Seeker.pmuConfigureInterrupt
    split_ifs <;> rfl
  | pmuEnableInterrupt ctr =>
    refine ⟨cleared, ?_⟩
    show (Seeker.pmuEnableInterrupt cpu ctr (p.withCleared cleared)).2 =
      ((Seeker.pmuEnableInterrupt cpu ctr p).2).withCleared _
    unfold Seeker.pmuEnableInterrupt
    split_ifs <;> rfl
  | pmuDisableInterrupt ctr =>
    refine ⟨((Seeker.pmuDisableInterrupt cpu ctr (p.withCleared cleared)).2).cleared, ?_⟩
    show (Seeker.pmuDisableInterrupt cpu ctr (p.withCleared cleared)).2 =
      ((Seeker.pmuDisableInterrupt cpu ctr p).2).withCleared _
    unfold Seeker.pmuDisableInterrupt
    split_ifs <;> rfl
  | pmuClearOvfStatus ctr =>
    refine ⟨cleared, ?_⟩
    show (Seeker.pmuClearOvfStatus cpu ctr (p.withCleared cleared)).2 =
      ((Seeker.pmuClearOvfStatus cpu ctr p).2).withCleared _
    unfold Seeker.pmuClearOvfStatus
    dsimp only
    split_ifs <;> rfl
  | fpmuConfigureInterrupt ctr low high =>
    refine ⟨cleared, ?_⟩
    show (Seeker.fpmuConfigureInterrupt cpu ctr low high (p.withCleared cleared)).2 =
      ((Seeker.fpmuConfigureInterrupt cpu ctr low high p).2).withCleared _
    unfold Seeker.fpmuConfigureInterrupt
    split_ifs <;> rfl
  | fpmuEnableInterrupt ctr =>
    refine ⟨cleared, ?_⟩
    show (Seeker.fpmuEnableInterrupt cpu ctr (p.withCleared cleared)).2 =
      ((Seeker.fpmuEnableInterrupt cpu ctr p).2).withCleared _
    unfold Seeker.fpmuEnableInterrupt PmuModule.withCleared
    dsimp only
    split <;> rfl
  | fpmuDisableInterrupt ctr =>
    refine ⟨cleared, ?_⟩
    show (Seeker.fpmuDisableInterrupt cpu ctr (p.withCleared cleared)).2 =
      ((Seeker.fpmuDisableInterrupt cpu ctr p).2).withCleared _
    unfold Seeker.fpmuDisableInterrupt PmuModule.withCleared
    dsimp only
    split_ifs <;> dsimp only [PmuModule.putFcleared] <;> split <;> rfl
  | fpmuClearOvfStatus ctr =>
    refine ⟨cleared, ?_⟩
    show (Seeker.fpmuClearOvfStatus cpu ctr (p.withCleared cleared)).2 =
      ((Seeker.fpmuClearOvfStatus cpu ctr p).2).withCleared _
    unfold Seeker.fpmuClearOvfStatus
    dsimp only
    split_ifs <;> rfl

end Forget

/-- The event is a `pmu_configure_interrupt`. -/
def PmuEvent.Configures : PmuEvent nrCpus → Bool
  | .call _ (.pmuConfigureInterrupt _ _ _) => true
  | _ => false

/-- The two states agree but for the values in `cleared`. -/
def AgreeButCleared (p p' : PmuModule) : Prop := p' = p.withCleared p'.cleared

theorem AgreeButCleared.step (agree : AgreeButCleared p p') (event : PmuEvent nrCpus) :
    AgreeButCleared (pmuStep p event) (pmuStep p' event) := by
  rw [agree]
  cases event with
  | call cpu request =>
    obtain ⟨after, same⟩ := perform_withCleared p'.cleared request p
    show AgreeButCleared _ (request.perform cpu (p.withCleared p'.cleared)).2
    rw [same]
    rfl
  | count cpu counter events => rfl
  | fixedCount cpu counter events => rfl
  | status cpu value => rfl

theorem AgreeButCleared.configure (agree : AgreeButCleared p p') {event : PmuEvent nrCpus}
    (configures : event.Configures = true) : AgreeButCleared p (pmuStep p' event) := by
  rw [agree]
  cases event with
  | call cpu request =>
    cases request with
    | pmuConfigureInterrupt ctr low high =>
      show AgreeButCleared p (if ctr < numCounters then _ else _)
      split <;> rfl
    | _ => cases configures
  | _ => cases configures

/-- What `pmu_configure_interrupt` is told has no effect: a run and the same run without these
calls end with the same registers, descriptors and counters, whatever they start from. -/
theorem pmu_configure_interrupt_dead (p : PmuModule) (events : List (PmuEvent nrCpus)) :
    let told := Exec.run pmuStep p events
    let untold := Exec.run pmuStep p (events.filter fun event => !event.Configures)
    told.hw = untold.hw ∧ told.counters = untold.counters ∧ told.fcounters = untold.fcounters ∧
      told.fcleared = untold.fcleared := by
  have agree : ∀ p p', AgreeButCleared p p' →
      AgreeButCleared (Exec.run pmuStep p (events.filter fun event => !event.Configures))
        (Exec.run pmuStep p' events) := by
    induction events with
    | nil => exact fun _ _ => id
    | cons event rest inductionHypothesis =>
      intro p p' agree
      by_cases configures : event.Configures = true
      · rw [List.filter_cons_of_neg (by simp [configures])]
        exact inductionHypothesis _ _ (agree.configure configures)
      · rw [List.filter_cons_of_pos (by simp [configures])]
        exact inductionHypothesis _ _ (agree.step event)
  intro told untold
  have same : told = untold.withCleared told.cleared := agree p p rfl
  rw [same]
  exact ⟨rfl, rfl, rfl, rfl⟩

end Runs

end Seeker
