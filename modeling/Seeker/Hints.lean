/-
This file follows the demand counters through `greedy_delta` intervals that are
interleaved with the increments of tasks evaluated on other cpus.

An interval reads every counter twice, in two loops, and clears it at the commit. An
increment that lands after the first reading of its counter and before the clear is
read once at most, by the loop that divides, and then forgotten. The file runs an
interval one access at a time, shows that an interval nobody disturbs is
`greedyDelta`, and proves that no increment is lost exactly when each lands on a
counter whose first reading is still to come.
-/
import Mathlib.Data.List.Range
import Seeker.Greedy

namespace Seeker

/-! ### An interval, one access at a time -/

/-- The variables of an interval that is reading the counters: its arguments, the sum of the hints
so far, and the hints the second loop has read. -/
structure Pass where
  delta : Int
  interval : Interval
  total : Int
  hints : Nat → Int

/-- Where an interval stands: before it begins, in one of the two loops over the counters, or in
the loop of the commit. -/
inductive Stage where
  | idle
  | totalling (state : Nat) (pass : Pass)
  | demanding (state : Nat) (pass : Pass)
  | committing (state : Nat) (pass : Pass) (filled : Auction)

/-- The demand vector of an interval. What lies past the table is what the array holds. -/
def Pass.demand (pass : Pass) (s : Scheduler) (state : Nat) : Int :=
  procs (if state < s.totalStates then pass.hints state else demandGet state s) pass.total
    (pass.interval.load s)

/-- What the auction of an interval is held about. -/
def Pass.auctionInput (pass : Pass) (s : Scheduler) : AuctionInput :=
  { pass.interval.auctionInput s with
    total := pass.total
    direction := transitionDirection s.totalStates s.totalOnlineCpus (pass.demand s)
      (pass.interval.woken s) s.curCpuState }

/-- The variables of an interval after the fill-up loop. -/
def Pass.filled (pass : Pass) (s : Scheduler) : Auction :=
  fillUp (pass.auctionInput s) (pass.interval.woken s)
    (auction (pass.auctionInput s) pass.delta (pass.demand s))

/-- `wake_up_procs`, called by an interval. -/
def Pass.wake (pass : Pass) (s : Scheduler) : Scheduler :=
  { s with info := pass.interval.woken s }

/-- One turn of the loop of the commit. -/
def commitState (filled : Auction) (state : Nat) (s : Scheduler) : Scheduler :=
  let new := newStates s.totalOnlineCpus filled
  { s with
    states := modifyState state
      (fun d => StateDesc.demandClear
        { d with cpumask := (new state).cpumask, cpus := (new state).cpus }) s.states }

/-- The rest of an interval after its commit. -/
def Pass.finish (pass : Pass) (filled : Auction) (m : Machine) : Machine :=
  let layout := ensureCpu m.scheduler.totalOnlineCpus filled
  let m := Loops.forRange m.scheduler.totalOnlineCpus (settleCpu pass.interval.driver layout) m
  m.mapScheduler fun s => putLog (mutatorEntry layout.demand s) s

/-- An interval begins. -/
def beginInterval (delta : Int) (interval : Interval) (m : Machine) : Machine × Stage :=
  (m.mapScheduler fun s => { s with intervalCount := (s.intervalCount + 1) % ulongRange },
    .totalling 0 { delta := delta, interval := interval, total := 0, hints := fun _ => 0 })

/-- The next access of the interval that is under way, or its last step. -/
def mutatorStep (m : Machine) : Stage → Machine × Stage
  | .idle => (m, .idle)
  | .totalling state pass =>
    if state < m.scheduler.totalStates then
      (m, .totalling (state + 1)
        { pass with total := int32 (pass.total + demandGet state m.scheduler) })
    else (m, .demanding 0 pass)
  | .demanding state pass =>
    if state < m.scheduler.totalStates then
      (m, .demanding (state + 1)
        { pass with hints := Function.update pass.hints state (demandGet state m.scheduler) })
    else (m.mapScheduler pass.wake, .committing 0 pass (pass.filled m.scheduler))
  | .committing state pass filled =>
    if state < m.scheduler.totalStates then
      (m.mapScheduler (commitState filled state), .committing (state + 1) pass filled)
    else (pass.finish filled m, .idle)

/-! ### An interval that nobody disturbs -/

/-- A number of accesses of one interval. -/
def mutatorSteps (count : Nat) (m : Machine) (stage : Stage) : Machine × Stage :=
  Loops.forRange count (fun _ current => mutatorStep current.1 current.2) (m, stage)

theorem mutatorSteps_add (first second : Nat) (m : Machine) (stage : Stage) :
    mutatorSteps (first + second) m stage =
      mutatorSteps second (mutatorSteps first m stage).1 (mutatorSteps first m stage).2 := by
  induction second with
  | zero => rfl
  | succ second inductionHypothesis =>
    have left : mutatorSteps (first + (second + 1)) m stage =
        mutatorStep (mutatorSteps (first + second) m stage).1
          (mutatorSteps (first + second) m stage).2 := rfl
    rw [left, inductionHypothesis]
    rfl

/-- The sum of some hints, as the loops compute it. -/
def hintSum (hints : Nat → Int) (count : Nat) : Int :=
  Loops.forRange count (fun state total => int32 (total + hints state)) 0

theorem hintSum_congr {first second : Nat → Int} {count : Nat}
    (same : ∀ state, state < count → first state = second state) :
    hintSum first count = hintSum second count := by
  induction count with
  | zero => rfl
  | succ count inductionHypothesis =>
    show int32 (hintSum first count + first count) = int32 (hintSum second count + second count)
    rw [inductionHypothesis fun state small => same state (Nat.lt_succ_of_lt small),
      same count (Nat.lt_succ_self count)]

section Undisturbed

variable (m : Machine) (pass : Pass)

theorem mutatorSteps_totalling {count : Nat} (within : count ≤ m.scheduler.totalStates)
    (zero : pass.total = 0) :
    mutatorSteps count m (.totalling 0 pass) =
      (m, .totalling count
        { pass with total := hintSum (fun state => demandGet state m.scheduler) count }) := by
  induction count with
  | zero =>
    show (m, Stage.totalling 0 pass) = (m, Stage.totalling 0 { pass with total := 0 })
    rw [← zero]
  | succ count inductionHypothesis =>
    have step : mutatorSteps (count + 1) m (.totalling 0 pass) =
        mutatorStep (mutatorSteps count m (.totalling 0 pass)).1
          (mutatorSteps count m (.totalling 0 pass)).2 := rfl
    rw [step, inductionHypothesis (Nat.le_of_succ_le within)]
    exact if_pos within

theorem mutatorSteps_demanding {count : Nat} (within : count ≤ m.scheduler.totalStates) :
    ∃ hints, mutatorSteps count m (.demanding 0 pass) =
        (m, .demanding count { pass with hints := hints }) ∧
      ∀ state, state < count → hints state = demandGet state m.scheduler := by
  induction count with
  | zero => exact ⟨pass.hints, rfl, fun state small => absurd small (Nat.not_lt_zero state)⟩
  | succ count inductionHypothesis =>
    obtain ⟨hints, reached, read⟩ := inductionHypothesis (Nat.le_of_succ_le within)
    have step : mutatorSteps (count + 1) m (.demanding 0 pass) =
        mutatorStep (mutatorSteps count m (.demanding 0 pass)).1
          (mutatorSteps count m (.demanding 0 pass)).2 := rfl
    refine ⟨Function.update hints count (demandGet count m.scheduler), ?_, fun state small => ?_⟩
    · rw [step, reached]
      exact if_pos within
    · by_cases here : state = count
      · rw [here, Function.update_self]
      · rw [Function.update_of_ne here]
        exact read state (by omega)

/-- The scheduler after some turns of the loop of the commit. -/
def committed (filled : Auction) (count : Nat) (s : Scheduler) : Scheduler :=
  { s with
    states := fun state =>
      if state < count then
        StateDesc.demandClear
          { s.states state with
            cpumask := (newStates s.totalOnlineCpus filled state).cpumask
            cpus := (newStates s.totalOnlineCpus filled state).cpus }
      else s.states state }

theorem commitState_committed (filled : Auction) (count : Nat) (s : Scheduler) :
    commitState filled count (committed filled count s) = committed filled (count + 1) s := by
  have states : (commitState filled count (committed filled count s)).states =
      (committed filled (count + 1) s).states := by
    funext state
    unfold commitState
    dsimp only
    by_cases here : state = count
    · subst here
      rw [modifyState_self]
      simp [committed]
    · rw [modifyState_of_ne here]
      exact if_congr (by omega) rfl rfl
  show { committed filled count s with
    states := (commitState filled count (committed filled count s)).states } = _
  rw [states]
  rfl

theorem mutatorSteps_committing (filled : Auction) {count : Nat}
    (within : count ≤ m.scheduler.totalStates) :
    mutatorSteps count m (.committing 0 pass filled) =
      (m.mapScheduler (committed filled count), .committing count pass filled) := by
  induction count with
  | zero =>
    have nothing : committed filled 0 m.scheduler = m.scheduler := rfl
    show (m, _) = ({ m with scheduler := committed filled 0 m.scheduler }, _)
    rw [nothing]
  | succ count inductionHypothesis =>
    have step : mutatorSteps (count + 1) m (.committing 0 pass filled) =
        mutatorStep (mutatorSteps count m (.committing 0 pass filled)).1
          (mutatorSteps count m (.committing 0 pass filled)).2 := rfl
    have next : (m.mapScheduler (committed filled count)).mapScheduler
        (commitState filled count) = m.mapScheduler (committed filled (count + 1)) := by
      unfold Machine.mapScheduler
      dsimp only
      rw [commitState_committed]
    rw [step, inductionHypothesis (Nat.le_of_succ_le within), ← next]
    exact if_pos within

/-- The first loop, to its end. -/
theorem mutatorSteps_totalled (zero : pass.total = 0) :
    mutatorSteps (m.scheduler.totalStates + 1) m (.totalling 0 pass) =
      (m, .demanding 0
        { pass with
          total := hintSum (fun state => demandGet state m.scheduler) m.scheduler.totalStates }) := by
  rw [mutatorSteps_add, mutatorSteps_totalling m pass le_rfl zero]
  exact if_neg (lt_irrefl _)

/-- The second loop, to its end. -/
theorem mutatorSteps_demanded :
    ∃ hints, mutatorSteps (m.scheduler.totalStates + 1) m (.demanding 0 pass) =
        (m.mapScheduler pass.wake,
          .committing 0 { pass with hints := hints }
            ({ pass with hints := hints }.filled m.scheduler)) ∧
      ∀ state, state < m.scheduler.totalStates → hints state = demandGet state m.scheduler := by
  obtain ⟨hints, reached, read⟩ := mutatorSteps_demanding m pass le_rfl
  refine ⟨hints, ?_, read⟩
  rw [mutatorSteps_add, reached]
  exact if_neg (lt_irrefl _)

/-- The loop of the commit, to its end, and the rest. -/
theorem mutatorSteps_committed (filled : Auction) :
    mutatorSteps (m.scheduler.totalStates + 1) m (.committing 0 pass filled) =
      (pass.finish filled (m.mapScheduler (committed filled m.scheduler.totalStates)), .idle) := by
  rw [mutatorSteps_add, mutatorSteps_committing m pass filled le_rfl]
  exact if_neg (lt_irrefl _)

/-- What an interval computes from the hints it has read is what `greedyDelta` computes from the
counters. -/
theorem Pass.filled_eq {s : Scheduler} (total : pass.total = hintTotal s)
    (read : ∀ state, state < s.totalStates → pass.hints state = demandGet state s) :
    pass.filled s = pass.interval.filled pass.delta s := by
  have demand : pass.demand s = pass.interval.demand s := by
    funext state
    unfold Pass.demand Interval.demand
    rw [total]
    by_cases inTable : state < s.totalStates
    · rw [if_pos inTable, read state inTable]
    · rw [if_neg inTable]
  have input : pass.auctionInput s = pass.interval.auctionInput s := by
    unfold Pass.auctionInput
    rw [total, demand]
    rfl
  unfold Pass.filled
  rw [input, demand]
  rfl

/-- An interval that nobody disturbs is `greedy_delta`. -/
theorem mutatorSteps_eq_greedyDelta (delta : Int) (interval : Interval) (m : Machine) :
    mutatorSteps (m.scheduler.totalStates + 1 + (m.scheduler.totalStates + 1) +
        (m.scheduler.totalStates + 1)) (beginInterval delta interval m).1
          (beginInterval delta interval m).2 =
      (greedyDelta delta interval m, .idle) := by
  obtain ⟨begun, begunEq⟩ : ∃ begun, begun = (beginInterval delta interval m).1 := ⟨_, rfl⟩
  have limit : m.scheduler.totalStates = begun.scheduler.totalStates := by rw [begunEq]; rfl
  have stage : (beginInterval delta interval m).2 = .totalling 0
    { delta := delta, interval := interval, total := 0, hints := fun _ => 0 } := rfl
  obtain ⟨hints, demanded, read⟩ := mutatorSteps_demanded begun
    { delta := delta
      interval := interval
      total := hintSum (fun state => demandGet state begun.scheduler) begun.scheduler.totalStates
      hints := fun _ => 0 }
  rw [← begunEq, stage, limit, mutatorSteps_add (_ + 1 + (_ + 1)) (_ + 1),
    mutatorSteps_add (_ + 1) (_ + 1), mutatorSteps_totalled begun _ rfl, demanded,
    Pass.filled_eq _ rfl read]
  have woken (waking finishing : Pass) (filled : Auction) :
      mutatorSteps (begun.scheduler.totalStates + 1) (begun.mapScheduler waking.wake)
          (.committing 0 finishing filled) =
        (finishing.finish filled ((begun.mapScheduler waking.wake).mapScheduler
          (committed filled begun.scheduler.totalStates)), .idle) :=
    mutatorSteps_committed (begun.mapScheduler waking.wake) finishing filled
  refine (woken _ _ _).trans ?_
  rw [begunEq]
  rfl

end Undisturbed

/-! ### Intervals and increments -/

/-- A machine whose counters are incremented while an interval may be under way. The increments are
numbered: `waiting` says which of them each counter holds, `counted` which of them have gone into
the total of an interval, and `divided` keeps, for every interval that has divided, its total and
the sum of the hints it divided. -/
structure HintState where
  machine : Machine
  stage : Stage
  issued : Nat
  waiting : Nat → List Nat
  counted : List Nat
  divided : List (Int × Int)

/-- A machine whose counters are clear, between two intervals. -/
def HintState.start (m : Machine) : HintState where
  machine := m
  stage := .idle
  issued := 0
  waiting _ := []
  counted := []
  divided := []

/-- The increment of an evaluated task, the start of an interval, and the next access of the
interval that is under way. -/
inductive HintEvent where
  | demandInc (stateReq : Nat)
  | greedyDelta (delta : Int) (interval : Interval)
  | access

/-- What the next access does to the increments: the first loop counts those it reads, the commit
drops those it clears, and an interval has divided when its second loop ends. -/
def HintState.recordAccess (h : HintState) : HintState :=
  match h.stage with
  | .idle => h
  | .totalling state _ =>
    if state < h.machine.scheduler.totalStates then
      { h with counted := h.counted ++ h.waiting state }
    else h
  | .demanding state pass =>
    if state < h.machine.scheduler.totalStates then h
    else
      { h with
        divided := h.divided ++
          [(pass.total, hintSum pass.hints h.machine.scheduler.totalStates)] }
  | .committing state _ _ =>
    if state < h.machine.scheduler.totalStates then
      { h with waiting := Function.update h.waiting state [] }
    else h

/-- One step. A second interval does not begin before the first has ended. -/
def hintStep (h : HintState) : HintEvent → HintState
  | .demandInc stateReq =>
    { h with
      machine := h.machine.mapScheduler (demandInc stateReq)
      issued := h.issued + 1
      waiting := Function.update h.waiting stateReq (h.waiting stateReq ++ [h.issued]) }
  | .greedyDelta delta interval =>
    match h.stage with
    | .idle =>
      { h with
        machine := (beginInterval delta interval h.machine).1
        stage := (beginInterval delta interval h.machine).2 }
    | _ => h
  | .access =>
    { h.recordAccess with
      machine := (mutatorStep h.machine h.stage).1
      stage := (mutatorStep h.machine h.stage).2 }

/-- An interval starts where the mutator is idle; a mutator at work is left alone. -/
theorem hintStep_greedyDelta_cases (h : HintState) (delta : Int) (interval : Interval) :
    (h.stage = .idle ∧ hintStep h (.greedyDelta delta interval) =
      { h with
        machine := (beginInterval delta interval h.machine).1
        stage := (beginInterval delta interval h.machine).2 }) ∨
      hintStep h (.greedyDelta delta interval) = h := by
  cases stage : h.stage with
  | idle => exact Or.inl ⟨rfl, by simp only [hintStep, stage]⟩
  | totalling | demanding | committing => exact Or.inr (by simp only [hintStep, stage])

/-- The counters whose next access by the mutator is a reading of the first loop. -/
def Stage.pending (limit : Nat) : Stage → List Nat
  | .idle => List.range limit
  | .totalling state _ => List.range' state (limit - state)
  | .demanding _ _ => []
  | .committing state _ _ => List.range state

/-- The increments that wait for a total. -/
def HintState.uncounted (h : HintState) : List Nat :=
  (h.stage.pending h.machine.scheduler.totalStates).flatMap h.waiting

/-- No increment is lost or used inconsistently: the counters hold the increments that wait in
them, every increment has been counted once or waits for the first loop, and what every interval
divided adds up to what it divided by. -/
structure HintsKept (h : HintState) : Prop where
  counter : ∀ state, demandGet state h.machine.scheduler = ((h.waiting state).length : Int)
  counted : (List.range h.issued).Perm (h.counted ++ h.uncounted)
  divided : ∀ totals ∈ h.divided, totals.2 = totals.1

/-- An increment lands on a counter that the first loop has still to read. -/
def InTime (h : HintState) : HintEvent → Prop
  | .demandInc stateReq => stateReq ∈ h.stage.pending h.machine.scheduler.totalStates
  | .greedyDelta _ _ => True
  | .access => True

instance inTimeDecidable (h : HintState) (event : HintEvent) : Decidable (InTime h event) :=
  match event with
  | .demandInc stateReq => List.instDecidableMemOfLawfulBEq stateReq _
  | .greedyDelta _ _ => isTrue trivial
  | .access => isTrue trivial

/-! ### What the bookkeeping loop leaves alone -/

/-- The counters and the number of states are as they were. -/
structure SameDemand (s s' : Scheduler) : Prop where
  limit : s'.totalStates = s.totalStates
  demand : ∀ state, demandGet state s' = demandGet state s

theorem SameDemand.refl (s : Scheduler) : SameDemand s s := ⟨rfl, fun _ => rfl⟩

theorem SameDemand.trans {first second third : Scheduler} (left : SameDemand first second)
    (right : SameDemand second third) : SameDemand first third :=
  ⟨right.limit.trans left.limit, fun state => (right.demand state).trans (left.demand state)⟩

theorem sameDemand_writeInfo (cpu : Nat) (change : ProcInfo → ProcInfo) (s : Scheduler) :
    SameDemand s (writeInfo cpu change s) := ⟨rfl, fun _ => rfl⟩

/-- A write to a descriptor that keeps its counter keeps every counter. -/
theorem modifyState_demand (change : StateDesc → StateDesc)
    (keeps : ∀ d, (change d).demand = d.demand) (state other : Nat) (states : Nat → StateDesc) :
    (modifyState state change states other).demand = (states other).demand := by
  by_cases here : other = state
  · rw [here, modifyState_self, keeps]
  · rw [modifyState_of_ne here]

theorem moveCpu_demand (cpu old state other : Nat) (states : Nat → StateDesc) :
    (moveCpu cpu old state states other).demand = (states other).demand := by
  unfold moveCpu
  rw [modifyState_demand (.addCpus (-1)) fun _ => rfl, modifyState_demand (.addCpus 1) fun _ => rfl,
    modifyState_demand (.cpuClear cpu) fun _ => rfl, modifyState_demand (.cpuSet cpu) fun _ => rfl]

theorem seekerCpufreqInform_sameDemand (cpu state : Nat) (s : Scheduler) :
    SameDemand s (seekerCpufreqInform cpu state s) := by
  refine ⟨seekerCpufreqInform_totalStates cpu state s, fun other => ?_⟩
  show ((seekerCpufreqInform cpu state s).states other).demand = (s.states other).demand
  rw [seekerCpufreqInform_states]
  split
  · exact moveCpu_demand cpu _ state other s.states
  · rfl

theorem setFreq_sameDemand {m : Machine} (answers : Answers m) (driver : Driver)
    (cpu state : Nat) : SameDemand m.scheduler (setFreq driver cpu state m).scheduler := by
  rcases setFreq_scheduler answers driver cpu state with informed | same
  · rw [informed]
    exact seekerCpufreqInform_sameDemand cpu state m.scheduler
  · rw [same]
    exact SameDemand.refl m.scheduler

theorem settleCpu_sameDemand {m : Machine} (answers : Answers m) (driver : Nat → Driver)
    (layout : Auction) (cpu : Nat) :
    Answers (settleCpu driver layout cpu m) ∧
      SameDemand m.scheduler (settleCpu driver layout cpu m).scheduler := by
  have written (change : ProcInfo → ProcInfo) :
      Answers (m.mapScheduler (writeInfo cpu change)) := answers
  unfold settleCpu
  by_cases selected : layout.selectedCpus cpu = 0
  · simp only [if_pos selected]
    have used := sameDemand_writeInfo cpu ProcInfo.use m.scheduler
    split
    · exact ⟨(written _).setFreq _ _ _, used.trans (setFreq_sameDemand (written _) _ _ _)⟩
    · exact ⟨written _, used⟩
  · simp only [if_neg selected]
    by_cases asleep : (m.scheduler.info cpu).awake = 0
    · rw [if_pos asleep]
      exact ⟨written _, sameDemand_writeInfo cpu ProcInfo.sleepOn m.scheduler⟩
    · rw [if_neg asleep]
      by_cases raised : m.scheduler.curCpuState cpu ≠ 0
      · rw [if_pos raised]
        exact ⟨answers.setFreq _ _ _, (setFreq_sameDemand answers _ _ _).trans
          (sameDemand_writeInfo cpu ProcInfo.putToSleep _)⟩
      · rw [if_neg raised]
        exact ⟨written _, sameDemand_writeInfo cpu ProcInfo.putToSleep m.scheduler⟩

/-- The rest of an interval after its commit touches no counter. -/
theorem Pass.finish_sameDemand {m : Machine} (answers : Answers m) (pass : Pass)
    (filled : Auction) :
    Answers (pass.finish filled m) ∧
      SameDemand m.scheduler (pass.finish filled m).scheduler := by
  have settled : Answers (Loops.forRange m.scheduler.totalOnlineCpus
        (settleCpu pass.interval.driver (ensureCpu m.scheduler.totalOnlineCpus filled)) m) ∧
      SameDemand m.scheduler (Loops.forRange m.scheduler.totalOnlineCpus
        (settleCpu pass.interval.driver (ensureCpu m.scheduler.totalOnlineCpus filled))
        m).scheduler := by
    refine Loops.forRange_induction (fun _ (current : Machine) =>
      Answers current ∧ SameDemand m.scheduler current.scheduler)
      ⟨answers, SameDemand.refl m.scheduler⟩ ?_
    intro cpu _ current held
    obtain ⟨still, same⟩ := settleCpu_sameDemand held.1 pass.interval.driver
      (ensureCpu m.scheduler.totalOnlineCpus filled) cpu
    exact ⟨still, held.2.trans same⟩
  have logged (entry : LogEntry) (s : Scheduler) : SameDemand s (putLog entry s) := by
    obtain ⟨log, written⟩ := putLog_eq entry s
    rw [written]
    exact ⟨rfl, fun _ => rfl⟩
  exact ⟨settled.1, settled.2.trans (logged _ _)⟩

/-! ### What one access does -/

/-- What an access of the mutator makes of a state, by the stage it finds. -/
inductive Accessed (h : HintState) : HintState → Prop
  | idle (stage : h.stage = .idle) : Accessed h h
  | totalling {state : Nat} {pass : Pass} (stage : h.stage = .totalling state pass)
      (small : state < h.machine.scheduler.totalStates) :
      Accessed h
        { h with
          stage := .totalling (state + 1)
            { pass with total := int32 (pass.total + demandGet state h.machine.scheduler) }
          counted := h.counted ++ h.waiting state }
  | totalled {state : Nat} {pass : Pass} (stage : h.stage = .totalling state pass)
      (large : ¬ state < h.machine.scheduler.totalStates) :
      Accessed h { h with stage := .demanding 0 pass }
  | demanding {state : Nat} {pass : Pass} (stage : h.stage = .demanding state pass)
      (small : state < h.machine.scheduler.totalStates) :
      Accessed h
        { h with
          stage := .demanding (state + 1)
            { pass with
              hints := Function.update pass.hints state (demandGet state h.machine.scheduler) } }
  | demanded {state : Nat} {pass : Pass} (stage : h.stage = .demanding state pass)
      (large : ¬ state < h.machine.scheduler.totalStates) :
      Accessed h
        { h with
          machine := h.machine.mapScheduler pass.wake
          stage := .committing 0 pass (pass.filled h.machine.scheduler)
          divided := h.divided ++
            [(pass.total, hintSum pass.hints h.machine.scheduler.totalStates)] }
  | committing {state : Nat} {pass : Pass} {filled : Auction}
      (stage : h.stage = .committing state pass filled)
      (small : state < h.machine.scheduler.totalStates) :
      Accessed h
        { h with
          machine := h.machine.mapScheduler (commitState filled state)
          stage := .committing (state + 1) pass filled
          waiting := Function.update h.waiting state [] }
  | committed {state : Nat} {pass : Pass} {filled : Auction}
      (stage : h.stage = .committing state pass filled)
      (large : ¬ state < h.machine.scheduler.totalStates) :
      Accessed h { h with machine := pass.finish filled h.machine, stage := .idle }

theorem hintStep_access (h : HintState) : Accessed h (hintStep h .access) := by
  cases stage : h.stage with
  | idle =>
    have step : hintStep h .access = h := by
      simp only [hintStep, HintState.recordAccess, mutatorStep, stage]
      rw [← stage]
    rw [step]
    exact .idle stage
  | totalling state pass =>
    by_cases small : state < h.machine.scheduler.totalStates
    · simp only [hintStep, HintState.recordAccess, mutatorStep, stage, if_pos small]
      exact .totalling stage small
    · simp only [hintStep, HintState.recordAccess, mutatorStep, stage, if_neg small]
      exact .totalled stage small
  | demanding state pass =>
    by_cases small : state < h.machine.scheduler.totalStates
    · simp only [hintStep, HintState.recordAccess, mutatorStep, stage, if_pos small]
      exact .demanding stage small
    · simp only [hintStep, HintState.recordAccess, mutatorStep, stage, if_neg small]
      exact .demanded stage small
  | committing state pass filled =>
    by_cases small : state < h.machine.scheduler.totalStates
    · simp only [hintStep, HintState.recordAccess, mutatorStep, stage, if_pos small]
      exact .committing stage small
    · simp only [hintStep, HintState.recordAccess, mutatorStep, stage, if_neg small]
      exact .committed stage small

/-! ### What one step does to the increments -/

theorem Stage.pending_nodup (limit : Nat) (stage : Stage) : (stage.pending limit).Nodup := by
  cases stage with
  | idle => exact List.nodup_range
  | totalling state pass => exact List.nodup_range'
  | demanding state pass => exact List.nodup_nil
  | committing state pass filled => exact List.nodup_range

theorem flatMap_update_of_notMem {states : List Nat} {state : Nat} (apart : state ∉ states)
    (waiting : Nat → List Nat) (value : List Nat) :
    states.flatMap (Function.update waiting state value) = states.flatMap waiting := by
  rw [List.flatMap_def, List.flatMap_def]
  refine congrArg List.flatten (List.map_congr_left fun other member => ?_)
  have different : other ≠ state := fun same => apart (same ▸ member)
  exact Function.update_of_ne different ..

/-- One more increment in one of some counters. -/
theorem flatMap_update_concat {states : List Nat} {state : Nat} (nodup : states.Nodup)
    (member : state ∈ states) (waiting : Nat → List Nat) (increment : Nat) :
    (states.flatMap (Function.update waiting state (waiting state ++ [increment]))).Perm
      (states.flatMap waiting ++ [increment]) := by
  obtain ⟨before, after, split⟩ := List.append_of_mem member
  rw [split] at nodup ⊢
  have apart := List.nodup_middle.mp nodup
  have notBefore : state ∉ before := fun inside =>
    (List.nodup_cons.mp apart).1 (List.mem_append_left after inside)
  have notAfter : state ∉ after := fun inside =>
    (List.nodup_cons.mp apart).1 (List.mem_append_right before inside)
  rw [List.flatMap_append, List.flatMap_cons, List.flatMap_append, List.flatMap_cons,
    flatMap_update_of_notMem notBefore, flatMap_update_of_notMem notAfter, Function.update_self]
  refine List.perm_iff_count.mpr fun number => ?_
  simp only [List.count_append]
  omega

/-- What every state reached satisfies, `lost` being the increments that were not in time. -/
structure HintsHeld (lost : List Nat) (h : HintState) : Prop where
  answers : Answers h.machine
  within : ∀ state pass filled, h.stage = .committing state pass filled →
    state ≤ h.machine.scheduler.totalStates
  counter : ∀ state, demandGet state h.machine.scheduler = ((h.waiting state).length : Int)
  split : (List.range h.issued).Perm (h.counted ++ (h.uncounted ++ lost))

section Step

variable {lost : List Nat} {h : HintState}

/-- The counters after an increment. -/
theorem HintsHeld.counter_demandInc (held : HintsHeld lost h) (stateReq state : Nat) :
    demandGet state (demandInc stateReq h.machine.scheduler) =
      ((Function.update h.waiting stateReq (h.waiting stateReq ++ [h.issued]) state).length :
        Int) := by
  unfold demandGet demandInc
  dsimp only
  by_cases here : state = stateReq
  · subst here
    rw [modifyState_self, Function.update_self, List.length_append]
    show demandGet state h.machine.scheduler + 1 = _
    rw [held.counter]
    rfl
  · rw [modifyState_of_ne here, Function.update_of_ne here]
    exact held.counter state

/-- An increment that lands in time waits. -/
theorem HintsHeld.demandInc_inTime (held : HintsHeld lost h) {stateReq : Nat}
    (inTime : InTime h (.demandInc stateReq)) :
    HintsHeld lost (hintStep h (.demandInc stateReq)) where
  answers := held.answers
  within := held.within
  counter := held.counter_demandInc stateReq
  split := by
    have waits : (hintStep h (.demandInc stateReq)).uncounted.Perm (h.uncounted ++ [h.issued]) :=
      flatMap_update_concat (h.stage.pending_nodup _) inTime h.waiting h.issued
    refine List.perm_iff_count.mpr fun number => ?_
    have before := held.split.count_eq number
    have after := waits.count_eq number
    show List.count number (List.range (h.issued + 1)) = List.count number (h.counted ++ _)
    rw [List.range_succ]
    simp only [List.count_append] at before after ⊢
    omega

/-- An increment that lands too late is lost. -/
theorem HintsHeld.demandInc_late (held : HintsHeld lost h) {stateReq : Nat}
    (late : ¬ InTime h (.demandInc stateReq)) :
    HintsHeld (h.issued :: lost) (hintStep h (.demandInc stateReq)) where
  answers := held.answers
  within := held.within
  counter := held.counter_demandInc stateReq
  split := by
    have same : (hintStep h (.demandInc stateReq)).uncounted = h.uncounted :=
      flatMap_update_of_notMem late h.waiting _
    refine List.perm_iff_count.mpr fun number => ?_
    have before := held.split.count_eq number
    rw [same]
    show List.count number (List.range (h.issued + 1)) = List.count number (h.counted ++ _)
    rw [List.range_succ]
    simp only [List.count_append, List.count_cons] at before ⊢
    simp only [List.count_nil] at before ⊢
    omega

/-- The start of an interval loses nothing: an idle mutator and one that has read nothing have the
same counters to read. -/
theorem HintsHeld.greedyDelta (held : HintsHeld lost h) (delta : Int) (interval : Interval) :
    HintsHeld lost (hintStep h (.greedyDelta delta interval)) := by
  obtain ⟨stage, step⟩ | step := hintStep_greedyDelta_cases h delta interval
  · have pending : (hintStep h (.greedyDelta delta interval)).uncounted = h.uncounted := by
      rw [step]
      unfold HintState.uncounted
      rw [stage]
      show (List.range' 0 _).flatMap _ = (List.range _).flatMap _
      rw [List.range_eq_range']
      rfl
    refine ⟨?_, ?_, ?_, ?_⟩
    · rw [step]
      exact held.answers
    · rw [step]
      intro state pass filled committing
      cases committing
    · rw [step]
      exact held.counter
    · rw [pending, step]
      exact held.split
  · rw [step]
    exact held

/-- The reading of a counter moves its increments to the total. -/
theorem HintsHeld.totalling (held : HintsHeld lost h) {state : Nat} {pass : Pass}
    (stage : h.stage = .totalling state pass) (small : state < h.machine.scheduler.totalStates) :
    HintsHeld lost
      { h with
        stage := .totalling (state + 1)
          { pass with total := int32 (pass.total + demandGet state h.machine.scheduler) }
        counted := h.counted ++ h.waiting state } := by
  have split := held.split
  unfold HintState.uncounted at split
  rw [stage] at split
  refine ⟨held.answers, (fun _ _ _ committing => by cases committing), held.counter, ?_⟩
  have longer : h.machine.scheduler.totalStates - state =
      h.machine.scheduler.totalStates - (state + 1) + 1 := by omega
  simp only [Stage.pending, longer, List.range'_succ, List.flatMap_cons] at split
  show (List.range h.issued).Perm (h.counted ++ h.waiting state ++ _)
  rw [List.append_assoc h.counted]
  rw [List.append_assoc] at split
  exact split

/-- The clearing of a counter drops increments that are lost already. -/
theorem HintsHeld.committing (held : HintsHeld lost h) {state : Nat} {pass : Pass}
    {filled : Auction} (stage : h.stage = .committing state pass filled)
    (small : state < h.machine.scheduler.totalStates) :
    HintsHeld lost
      { h with
        machine := h.machine.mapScheduler (commitState filled state)
        stage := .committing (state + 1) pass filled
        waiting := Function.update h.waiting state [] } := by
  have split := held.split
  unfold HintState.uncounted at split
  rw [stage] at split
  refine ⟨held.answers, fun _ _ _ committing => ?_, fun other => ?_, ?_⟩
  · cases committing
    exact small
  · show (modifyState state _ h.machine.scheduler.states other).demand =
      ((Function.update h.waiting state [] other).length : Int)
    by_cases here : other = state
    · rw [here, modifyState_self, Function.update_self]
      rfl
    · rw [modifyState_of_ne here, Function.update_of_ne here]
      exact held.counter other
  · show (List.range h.issued).Perm (h.counted ++ ((List.range (state + 1)).flatMap
      (Function.update h.waiting state []) ++ lost))
    rw [List.range_succ, List.flatMap_append, flatMap_update_of_notMem List.not_mem_range_self,
      List.flatMap_singleton, Function.update_self, List.append_nil]
    exact split

/-- The end of an interval leaves the counters as they are, all of them cleared before. -/
theorem HintsHeld.committed (held : HintsHeld lost h) {state : Nat} {pass : Pass}
    {filled : Auction} (stage : h.stage = .committing state pass filled)
    (large : ¬ state < h.machine.scheduler.totalStates) :
    HintsHeld lost { h with machine := pass.finish filled h.machine, stage := .idle } := by
  have split := held.split
  unfold HintState.uncounted at split
  rw [stage] at split
  obtain ⟨answers, same⟩ := pass.finish_sameDemand held.answers filled
  have all : state = h.machine.scheduler.totalStates :=
    le_antisymm (held.within state pass filled stage) (not_lt.mp large)
  refine ⟨answers, (fun _ _ _ committing => by cases committing), fun other => ?_, ?_⟩
  · exact (same.demand other).trans (held.counter other)
  · show (List.range h.issued).Perm (h.counted ++
      ((List.range (pass.finish filled h.machine).scheduler.totalStates).flatMap h.waiting ++
        lost))
    rw [same.limit, ← all]
    exact split

/-- An access of the mutator moves increments from a counter to the total, or drops increments
that are lost already. -/
theorem HintsHeld.accessed (held : HintsHeld lost h) {h' : HintState} (accessed : Accessed h h') :
    HintsHeld lost h' := by
  have split := held.split
  unfold HintState.uncounted at split
  cases accessed with
  | idle => exact held
  | totalling stage small => exact held.totalling stage small
  | @totalled state _ stage large =>
    rw [stage] at split
    refine ⟨held.answers, (fun _ _ _ committing => by cases committing), held.counter, ?_⟩
    have nothing : h.machine.scheduler.totalStates - state = 0 := by omega
    simp only [Stage.pending, nothing] at split
    exact split
  | demanding stage small =>
    rw [stage] at split
    exact ⟨held.answers, (fun _ _ _ committing => by cases committing), held.counter, split⟩
  | demanded stage large =>
    rw [stage] at split
    refine ⟨held.answers, fun _ _ _ committing => ?_, held.counter, split⟩
    cases committing
    exact Nat.zero_le _
  | committing stage small => exact held.committing stage small
  | committed stage large => exact held.committed stage large

/-- One step keeps the invariant, and loses an increment exactly when it is not in time. -/
theorem HintsHeld.step (held : HintsHeld lost h) (event : HintEvent) :
    ∃ late, HintsHeld (late ++ lost) (hintStep h event) ∧ (late = [] ↔ InTime h event) := by
  cases event with
  | demandInc stateReq =>
    by_cases inTime : InTime h (.demandInc stateReq)
    · exact ⟨[], held.demandInc_inTime inTime, fun _ => inTime, fun _ => rfl⟩
    · refine ⟨[h.issued], held.demandInc_late inTime, fun none => ?_, fun some => ?_⟩
      · cases none
      · exact absurd some inTime
  | greedyDelta delta interval =>
    exact ⟨[], held.greedyDelta delta interval, fun _ => trivial, fun _ => rfl⟩
  | access => exact ⟨[], held.accessed (hintStep_access h), fun _ => trivial, fun _ => rfl⟩

end Step

/-- A run keeps the invariant, and loses an increment exactly when one is not in time. -/
theorem HintsHeld.run {lost : List Nat} {h : HintState} (held : HintsHeld lost h)
    (events : List HintEvent) :
    ∃ late, HintsHeld (late ++ lost) (Exec.run hintStep h events) ∧
      (late = [] ↔ Exec.Meets hintStep InTime h events) := by
  induction events generalizing lost h with
  | nil => exact ⟨[], held, fun _ => trivial, fun _ => rfl⟩
  | cons event rest inductionHypothesis =>
    obtain ⟨first, stepped, firstIff⟩ := held.step event
    obtain ⟨later, ran, laterIff⟩ := inductionHypothesis stepped
    refine ⟨later ++ first, ?_, ?_⟩
    · rw [List.append_assoc]
      exact ran
    · rw [List.append_eq_nil_iff, firstIff, laterIff]
      exact and_comm

/-! ### What the intervals divide -/

/-- What an interval has read agrees with the counters. -/
def Stage.Agrees (s : Scheduler) : Stage → Prop
  | .idle => True
  | .totalling state pass =>
    state ≤ s.totalStates ∧ pass.total = hintSum (fun other => demandGet other s) state
  | .demanding state pass =>
    pass.total = hintSum (fun other => demandGet other s) s.totalStates ∧
      ∀ other, other < state → pass.hints other = demandGet other s
  | .committing _ _ _ => True

/-- The invariant of a run whose increments are all in time: the interval under way agrees with the
counters, and those before it divided what they had added up. -/
structure HintsAgree (h : HintState) : Prop where
  reading : h.stage.Agrees h.machine.scheduler
  divided : ∀ totals ∈ h.divided, totals.2 = totals.1

section Agree

variable {h : HintState}

/-- An increment in time touches no counter that has been read. -/
theorem HintsAgree.demandInc (agree : HintsAgree h) {stateReq : Nat}
    (inTime : InTime h (.demandInc stateReq)) :
    HintsAgree (hintStep h (.demandInc stateReq)) := by
  have other (state : Nat) (different : state ≠ stateReq) :
      demandGet state (Seeker.demandInc stateReq h.machine.scheduler) =
        demandGet state h.machine.scheduler := by
    unfold demandGet Seeker.demandInc
    dsimp only
    rw [modifyState_of_ne different]
  have reading := agree.reading
  refine ⟨?_, agree.divided⟩
  show h.stage.Agrees (Seeker.demandInc stateReq h.machine.scheduler)
  unfold InTime at inTime
  cases stage : h.stage with
  | idle => exact trivial
  | totalling state pass =>
    rw [stage] at reading inTime
    have ahead : state ≤ stateReq := (List.mem_range'_1.mp inTime).1
    refine ⟨reading.1, reading.2.trans (hintSum_congr fun read small => ?_)⟩
    exact (other read (by omega)).symm
  | demanding state pass =>
    rw [stage] at inTime
    cases inTime
  | committing state pass filled => exact trivial

theorem HintsAgree.greedyDelta (agree : HintsAgree h) (delta : Int) (interval : Interval) :
    HintsAgree (hintStep h (.greedyDelta delta interval)) := by
  obtain ⟨_, step⟩ | step := hintStep_greedyDelta_cases h delta interval
  · rw [step]
    exact ⟨⟨Nat.zero_le _, rfl⟩, agree.divided⟩
  · rw [step]
    exact agree

theorem HintsAgree.accessed (agree : HintsAgree h) {h' : HintState} (accessed : Accessed h h') :
    HintsAgree h' := by
  have reading := agree.reading
  have divided := agree.divided
  cases accessed with
  | idle => exact agree
  | @totalling state pass stage small =>
    rw [stage] at reading
    refine ⟨⟨small, ?_⟩, divided⟩
    show int32 (pass.total + _) = int32 (hintSum _ state + _)
    rw [reading.2]
  | @totalled state pass stage large =>
    rw [stage] at reading
    refine ⟨⟨?_, fun other before => absurd before (Nat.not_lt_zero other)⟩, divided⟩
    have all : state = h.machine.scheduler.totalStates := le_antisymm reading.1 (not_lt.mp large)
    show pass.total = hintSum _ h.machine.scheduler.totalStates
    rw [reading.2, ← all]
  | @demanding state pass stage small =>
    rw [stage] at reading
    refine ⟨⟨reading.1, fun other before => ?_⟩, divided⟩
    show Function.update pass.hints state _ other = _
    by_cases here : other = state
    · rw [here, Function.update_self]
    · rw [Function.update_of_ne here]
      exact reading.2 other (by omega)
  | @demanded state pass stage large =>
    rw [stage] at reading
    refine ⟨trivial, fun totals member => ?_⟩
    rcases List.mem_append.mp member with earlier | last
    · exact divided totals earlier
    · rw [List.mem_singleton.mp last]
      show hintSum pass.hints _ = pass.total
      rw [reading.1]
      exact hintSum_congr fun other inTable => reading.2 other (by omega)
  | committing stage small => exact ⟨trivial, divided⟩
  | committed stage large => exact ⟨trivial, divided⟩

theorem HintsAgree.step (agree : HintsAgree h) {event : HintEvent} (inTime : InTime h event) :
    HintsAgree (hintStep h event) := by
  cases event with
  | demandInc stateReq => exact agree.demandInc inTime
  | greedyDelta delta interval => exact agree.greedyDelta delta interval
  | access => exact agree.accessed (hintStep_access h)

end Agree

/-! ### Which increments are lost -/

/-- Whatever the interleaving, no increment is lost or used inconsistently exactly when every
increment lands on a counter that the first loop of an interval has still to read before the
counter is cleared again. -/
theorem hints_kept_iff {m : Machine} (answers : Answers m)
    (clear : ∀ state, demandGet state m.scheduler = 0) (events : List HintEvent) :
    HintsKept (Exec.run hintStep (HintState.start m) events) ↔
      Exec.Meets hintStep InTime (HintState.start m) events := by
  have uncounted : (HintState.start m).uncounted = [] :=
    List.flatMap_eq_nil_iff.mpr fun _ _ => rfl
  have start : HintsHeld [] (HintState.start m) := by
    refine ⟨answers, (fun _ _ _ committing => by cases committing), clear, ?_⟩
    rw [uncounted]
    exact List.Perm.refl _
  obtain ⟨late, held, none⟩ := start.run events
  rw [List.append_nil] at held
  constructor
  · intro kept
    have lengths := kept.counted.length_eq.symm.trans held.split.length_eq
    simp only [List.length_append] at lengths
    exact none.mp (List.length_eq_zero_iff.mp (by omega))
  · intro meets
    have split := held.split
    rw [none.mpr meets, List.append_nil] at split
    have agree : HintsAgree (Exec.run hintStep (HintState.start m) events) := by
      refine Exec.run_invariant HintsAgree (fun h event agree inTime => agree.step inTime) ?_ meets
      exact ⟨trivial, fun totals member => absurd member List.not_mem_nil⟩
    exact ⟨held.counter, split, agree.divided⟩

/-- An interval of a machine with one task on each cpu. -/
def loadedInterval : Interval := ⟨fun _ => 1, fun _ _ => 7, fun _ => acceptingDriver⟩

/-- One cpu and two states: an increment of state `1` while the first loop stands at that state,
and one of state `0` while the commit stands at state `1`, are both kept. -/
theorem hints_kept_iff_two_states :
    HintsKept (Exec.run hintStep (HintState.start (runningMachine 1 2 fun _ => 0))
      [.demandInc 0, .greedyDelta 1 loadedInterval, .access, .demandInc 1, .access, .access,
        .access, .access, .access, .access, .demandInc 0, .access, .access]) :=
  (hints_kept_iff (Or.inl (runningMachine_registered 1 2 fun _ => 0).callsBack) (fun _ => rfl)
    _).mpr (by decide)

/-- The increment of state `0` lands after the first loop has read that state: the interval divides
a hint of one by a total of nothing, clears the counter, and no interval counts the increment. -/
theorem hints_not_kept :
    let m := runningMachine 1 2 fun _ => 0
    let final := Exec.run hintStep (HintState.start m)
      [.greedyDelta 1 loadedInterval, .access, .demandInc 0, .access, .access, .access, .access,
        .access, .access, .access, .access]
    Answers m ∧ (∀ state, demandGet state m.scheduler = 0) ∧
      (final.issued = 1 ∧ final.counted = [] ∧ final.uncounted = [] ∧ final.divided = [(0, 1)]) ∧
      ¬ HintsKept final := by
  have answers : Answers (runningMachine 1 2 fun _ => 0) :=
    Or.inl (runningMachine_registered 1 2 fun _ => 0).callsBack
  refine ⟨answers, fun _ => rfl, by decide, fun kept => ?_⟩
  exact absurd (kept.divided (0, 1) (by decide)) (by decide)

end Seeker
