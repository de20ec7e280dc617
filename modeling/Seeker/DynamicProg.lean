/-
This file embeds the dynamic-programming mutator, `mem_dynamic_prog`, with the static
arrays that outlive its calls, and asks of its runs that an interval moves the awake
cpus by no more than delta and that no awake cpu is moved by a flag that an earlier
interval left.

The knapsack assigns the first cpus of `cpu_awake_proxy`, as many as are required.
That list is written only when cpus are retired, and more cpus may stay awake than
are required, so an awake cpu that is not listed keeps the new state of an earlier
interval. The flag of a cpu in `put_to_sleep` is written only when the retiring loop
comes to it. The file says of an interval, from what it finds, when neither matters,
and proves the bound for the runs all of whose intervals are so.
-/
import Seeker.DemandTransform
import Seeker.Greedy
import Seeker.Mck
import Seeker.Retire

namespace Seeker

/-! ### The mutator -/

/-- The static arrays of `mutate_dyn.c` that a call reads before it writes them. -/
structure DynStatics where
  cpuAwakeProxy : Nat → Nat
  putToSleep : Nat → Int
  newCpuState : Nat → Nat

/-- The machine and the static arrays. -/
structure DynMachine where
  machine : Machine
  statics : DynStatics

/-- What an interval finds outside the module: the running tasks that `get_tasks_load` adds up, the
tasks `get_cpu_tasks` returns, and the drivers that answer the request that puts a cpu to sleep and
the one that moves it. -/
structure DynInterval where
  nrRunning : Nat → Nat
  cpuTasks : Nat → Int
  sleepDriver : Nat → Driver
  driver : Nat → Driver

/-- `total_cpus_req`. -/
def DynInterval.required (interval : DynInterval) (s : Scheduler) : Nat :=
  if getTasksLoad s.totalOnlineCpus interval.nrRunning = 0 then 1
  else getTasksLoad s.totalOnlineCpus interval.nrRunning

/-- The records after `wake_up_procs`. -/
def DynInterval.woken (interval : DynInterval) (s : Scheduler) : Nat → ProcInfo :=
  wakeUpProcs s.totalOnlineCpus (interval.required s) s.info

/-- The demand before the transform: hint and one. -/
def dynDemand (s : Scheduler) (state : Nat) : Int := int32 (demandGet state s + 1)

/-- The arrays of an interval after its knapsack. -/
structure DynPass where
  info : Nat → ProcInfo
  putToSleep : Nat → Int
  cpuAwakeProxy : Nat → Nat
  demand : Nat → Int
  newCpuState : Nat → Nat

/-- An interval up to its knapsack. -/
def dynPass (delta : Nat) (interval : DynInterval) (d : DynMachine) : DynPass :=
  let s := d.machine.scheduler
  let required := interval.required s
  let retired := retireProcs s.totalOnlineCpus required interval.cpuTasks (interval.woken s)
    d.statics.putToSleep d.statics.cpuAwakeProxy
  let demand := deltaBasedDemandTransform s.totalStates required delta s.curCpuState
    retired.cpuAwakeProxy (dynDemand s)
  { info := retired.info
    putToSleep := retired.putToSleep
    cpuAwakeProxy := retired.cpuAwakeProxy
    demand := demand
    newCpuState := mck required s.totalStates delta demand s.curCpuState retired.cpuAwakeProxy
      d.statics.newCpuState }

/-- `new_states`: the awake cpus entered in their new states. -/
def DynPass.newStates (pass : DynPass) (cpus : Nat) : Nat → StateDesc :=
  Loops.forRange cpus
    (fun cpu states =>
      if (pass.info cpu).awake = 0 then states
      else enterCpu cpu (pass.newCpuState cpu) states)
    fun state => { state := state, cpumask := ∅, cpus := 0, demand := 0 }

/-- The writes of `mem_dynamic_prog` before its last loop. -/
def DynPass.commit (pass : DynPass) (s : Scheduler) : Scheduler :=
  let new := pass.newStates s.totalOnlineCpus
  { s with
    intervalCount := (s.intervalCount + 1) % ulongRange
    info := pass.info
    states := fun state =>
      if state < s.totalStates then
        StateDesc.demandClear
          { s.states state with cpumask := (new state).cpumask, cpus := (new state).cpus }
      else s.states state }

/-- One turn of the last loop. -/
def DynPass.settle (pass : DynPass) (interval : DynInterval) (cpu : Nat) (m : Machine) : Machine :=
  let m := if pass.putToSleep cpu = 1 then setFreq (interval.sleepDriver cpu) cpu 0 m else m
  if (m.scheduler.info cpu).awake = 0 then m.mapScheduler (writeInfo cpu ProcInfo.sleepOn)
  else if pass.newCpuState cpu ≠ m.scheduler.curCpuState cpu then
    setFreq (interval.driver cpu) cpu (pass.newCpuState cpu) m
  else m

/-- `mem_dynamic_prog`. -/
def memDynamicProg (delta : Nat) (interval : DynInterval) (d : DynMachine) : DynMachine :=
  let pass := dynPass delta interval d
  let m := d.machine.mapScheduler pass.commit
  let m := Loops.forRange m.scheduler.totalOnlineCpus (pass.settle interval) m
  { machine := m.mapScheduler fun s => putLog (mutatorEntry pass.demand s) s
    statics :=
      { cpuAwakeProxy := pass.cpuAwakeProxy
        putToSleep := pass.putToSleep
        newCpuState := pass.newCpuState } }

/-! ### Runs -/

/-- The tasks leave hints, or the mutator's interval elapses. -/
inductive DynEvent where
  | hints (demand : Nat → Int)
  | mutate (delta : Nat) (interval : DynInterval)

/-- One event. -/
def dynStep (d : DynMachine) : DynEvent → DynMachine
  | .hints demand => { d with machine := d.machine.mapScheduler (setHints demand) }
  | .mutate delta interval => memDynamicProg delta interval d

/-- The mutator started, its static arrays still zero. -/
def DynMachine.start (m : Machine) : DynMachine where
  machine := m.mapScheduler initMutator
  statics := { cpuAwakeProxy := fun _ => 0, putToSleep := fun _ => 0, newCpuState := fun _ => 0 }

/-- The delta constraint of an interval: the cpus that are awake after `retire_procs` are moved by
no more than delta, and none of them is sent to state `0` by its flag. -/
def DynEvent.Constrained (d : DynMachine) : DynEvent → Prop
  | .hints _ => True
  | .mutate delta interval =>
    let s := d.machine.scheduler
    let pass := dynPass delta interval d
    ∑ cpu ∈ awakeCpus s.totalOnlineCpus pass.info,
        ((pass.newCpuState cpu : Int) - s.curCpuState cpu).natAbs ≤ delta ∧
      ∀ cpu ∈ awakeCpus s.totalOnlineCpus pass.info,
        ¬ (pass.putToSleep cpu = 1 ∧ s.curCpuState cpu ≠ 0)

/-! ### What an interval finds -/

section Found

variable (interval : DynInterval) (d : DynMachine)

/-- A cpu that stays awake through the interval. -/
def DynInterval.Stays (cpu : Nat) : Prop :=
  StaysAwake d.machine.scheduler.totalOnlineCpus (interval.required d.machine.scheduler)
    interval.cpuTasks (interval.woken d.machine.scheduler) cpu

instance staysDecidable : DecidablePred (interval.Stays d) :=
  staysAwakeDecidable _ _ _ _

/-- More cpus are awake than are required, so that some may be retired and the list is written. -/
def DynInterval.Crowded : Prop :=
  (interval.required d.machine.scheduler : Int) <
    awakeTotal d.machine.scheduler.totalOnlineCpus (interval.woken d.machine.scheduler)

instance crowdedDecidable : Decidable (interval.Crowded d) := inferInstanceAs (Decidable (_ < _))

/-- The knapsack assigns a cpu that stays awake: it is among the first that do, as many as are
required, or in the old list where that is not written. -/
def DynInterval.Assigns (cpu : Nat) : Prop :=
  interval.Crowded d ∧ Nat.count (interval.Stays d) cpu < interval.required d.machine.scheduler ∨
    ¬ interval.Crowded d ∧
      ∃ k, k < interval.required d.machine.scheduler ∧ cpu = d.statics.cpuAwakeProxy k

instance assignsDecidable (cpu : Nat) : Decidable (interval.Assigns d cpu) :=
  inferInstanceAs (Decidable (_ ∧ _ ∨ _ ∧ _))

/-- The hints are not negative, and what the required cpus could add up of them fits an `int`. -/
def DynInterval.HintsFit : Prop :=
  (∀ state, state < d.machine.scheduler.totalStates → 0 ≤ demandGet state d.machine.scheduler) ∧
    interval.required d.machine.scheduler *
      ∑ state ∈ Finset.range d.machine.scheduler.totalStates,
        (demandGet state d.machine.scheduler + 1) < 2 ^ 31

instance hintsFitDecidable : Decidable (interval.HintsFit d) := inferInstanceAs (Decidable (_ ∧ _))

/-- What earlier intervals left behind does not matter: a cpu that stays awake is assigned a state,
or was last assigned the one it is in; and the retiring loop comes to it, or its flag is clear, or
it is in state `0`. -/
def DynInterval.Fresh : Prop :=
  interval.HintsFit d ∧
    ∀ cpu, cpu < d.machine.scheduler.totalOnlineCpus → interval.Stays d cpu →
      (interval.Assigns d cpu ∨
        d.statics.newCpuState cpu = d.machine.scheduler.curCpuState cpu) ∧
      (Visited d.machine.scheduler.totalOnlineCpus (interval.required d.machine.scheduler)
          interval.cpuTasks (interval.woken d.machine.scheduler) cpu ∨
        d.statics.putToSleep cpu ≠ 1 ∨ d.machine.scheduler.curCpuState cpu = 0)

instance freshDecidable : Decidable (interval.Fresh d) := inferInstanceAs (Decidable (_ ∧ _))

end Found

/-- Every interval of the run finds nothing of the earlier ones that matters. -/
def DynEvent.Fresh (d : DynMachine) : DynEvent → Prop
  | .hints _ => True
  | .mutate _ interval => interval.Fresh d

instance dynFreshDecidable (d : DynMachine) : ∀ event : DynEvent, Decidable (event.Fresh d)
  | .hints _ => isTrue trivial
  | .mutate _ interval => freshDecidable interval d

/-! ### The knapsack of an interval -/

/-- The invariant of the runs: every cpu is in a state of the table, and the arrays hold cpus and
states. -/
structure DynKept (d : DynMachine) : Prop where
  answers : Answers d.machine
  someCpu : 1 ≤ d.machine.scheduler.totalOnlineCpus
  inStates : InStates d.machine.scheduler
  listed : ∀ k, d.statics.cpuAwakeProxy k < d.machine.scheduler.totalOnlineCpus
  placed : ∀ cpu, cpu < d.machine.scheduler.totalOnlineCpus →
    d.statics.newCpuState cpu < d.machine.scheduler.totalStates

theorem DynInterval.required_pos (interval : DynInterval) (s : Scheduler) :
    1 ≤ interval.required s := by
  unfold DynInterval.required
  split <;> omega

section Interval

variable {delta : Nat} {interval : DynInterval} {d : DynMachine}

theorem dynPass_retired (delta : Nat) (interval : DynInterval) (d : DynMachine) :
    RetireDone d.machine.scheduler.totalOnlineCpus (interval.required d.machine.scheduler)
      interval.cpuTasks (interval.woken d.machine.scheduler) d.statics.putToSleep
      d.statics.cpuAwakeProxy
      { info := (dynPass delta interval d).info
        putToSleep := (dynPass delta interval d).putToSleep
        cpuAwakeProxy := (dynPass delta interval d).cpuAwakeProxy } :=
  retireProcs_done _ _ _ _ _ _

theorem DynKept.listed_pass (kept : DynKept d) (delta : Nat) (interval : DynInterval) (k : Nat) :
    (dynPass delta interval d).cpuAwakeProxy k < d.machine.scheduler.totalOnlineCpus := by
  rcases (dynPass_retired delta interval d).within k with inside | same
  · exact inside
  · exact lt_of_eq_of_lt same (kept.listed k)

/-- Where the hints fit, none of them wraps. -/
theorem DynInterval.HintsFit.dynDemand_eq (fits : interval.HintsFit d) :
    (∀ state, state < d.machine.scheduler.totalStates →
      dynDemand d.machine.scheduler state = demandGet state d.machine.scheduler + 1) ∧
    ∑ state ∈ Finset.range d.machine.scheduler.totalStates,
      (demandGet state d.machine.scheduler + 1) < 2 ^ 31 := by
  obtain ⟨nonneg, sums⟩ := fits
  have someRequired := interval.required_pos d.machine.scheduler
  have terms (state : Nat) (member : state ∈ Finset.range d.machine.scheduler.totalStates) :
      0 ≤ demandGet state d.machine.scheduler + 1 :=
    Int.le_add_one (nonneg state (Finset.mem_range.mp member))
  have whole : ∑ state ∈ Finset.range d.machine.scheduler.totalStates,
      (demandGet state d.machine.scheduler + 1) < 2 ^ 31 :=
    lt_of_le_of_lt (le_mul_of_one_le_left (Finset.sum_nonneg terms) (by omega)) sums
  refine ⟨fun state small => ?_, whole⟩
  have single := Finset.single_le_sum terms (Finset.mem_range.mpr small)
  have low := nonneg state small
  exact int32_of_fits (by omega) (by omega)

/-- The demand of each state is positive, and no more than that of all states before the
transform. -/
theorem DynKept.demand_bounds (kept : DynKept d) (fits : interval.HintsFit d) (delta : Nat)
    {state : Nat} (small : state < d.machine.scheduler.totalStates) :
    1 ≤ (dynPass delta interval d).demand state ∧
      (dynPass delta interval d).demand state ≤
        ∑ state ∈ Finset.range d.machine.scheduler.totalStates,
          (demandGet state d.machine.scheduler + 1) := by
  obtain ⟨exactly, whole⟩ := fits.dynDemand_eq
  have same : ∑ state ∈ Finset.range d.machine.scheduler.totalStates,
      dynDemand d.machine.scheduler state =
      ∑ state ∈ Finset.range d.machine.scheduler.totalStates,
        (demandGet state d.machine.scheduler + 1) :=
    Finset.sum_congr rfl fun state member => exactly state (Finset.mem_range.mp member)
  have nonneg (state : Nat) (small : state < d.machine.scheduler.totalStates) :
      0 ≤ dynDemand d.machine.scheduler state := by
    rw [exactly state small]
    exact Int.le_add_one (fits.1 state small)
  obtain ⟨least, most⟩ := deltaBasedDemandTransform_bounds delta
    (interval.required_pos d.machine.scheduler)
    (kept.inStates _ (kept.listed_pass delta interval 0)) nonneg (same ▸ whole) small
  refine ⟨le_trans ?_ least, same ▸ most⟩
  rw [exactly state small]
  exact Int.le_add_of_nonneg_left (fits.1 state small)

/-- The hints of an interval are such that its knapsack can be solved. -/
theorem DynKept.call (kept : DynKept d) (fits : interval.HintsFit d) (delta : Nat) :
    MckCall (interval.required d.machine.scheduler) d.machine.scheduler.totalStates
      (mckWt d.machine.scheduler.curCpuState (dynPass delta interval d).cpuAwakeProxy)
      (dynPass delta interval d).demand
      fun k => d.machine.scheduler.curCpuState ((dynPass delta interval d).cpuAwakeProxy k) := by
  refine MckCall.start (fun state small => (kept.demand_bounds fits delta small).1)
    (fun k _ => kept.inStates _ (kept.listed_pass delta interval k)) fun choice inTable => ?_
  have terms (k : Nat) (member : k ∈ Finset.range (interval.required d.machine.scheduler)) :
      (dynPass delta interval d).demand (choice k) ≤
        ∑ state ∈ Finset.range d.machine.scheduler.totalStates,
          (demandGet state d.machine.scheduler + 1) :=
    (kept.demand_bounds fits delta (inTable k (Finset.mem_range.mp member))).2
  have sum := Finset.sum_le_card_nsmul _ _ _ terms
  rw [Finset.card_range, nsmul_eq_mul] at sum
  exact lt_of_le_of_lt sum fits.2

/-! ### The delta constraint -/

/-- The cpus that are awake after `retire_procs`. -/
theorem mem_awakeCpus_pass (delta : Nat) (interval : DynInterval) (d : DynMachine) (cpu : Nat) :
    cpu ∈ awakeCpus d.machine.scheduler.totalOnlineCpus (dynPass delta interval d).info ↔
      cpu < d.machine.scheduler.totalOnlineCpus ∧ interval.Stays d cpu := by
  rw [mem_awakeCpus]
  refine and_congr_right fun online => ?_
  exact (dynPass_retired delta interval d).awake_iff online

/-- A cpu that the knapsack assigns is listed, whatever the list held. -/
theorem DynInterval.Assigns.listed {cpu : Nat} (assigns : interval.Assigns d cpu)
    (online : cpu < d.machine.scheduler.totalOnlineCpus) (stays : interval.Stays d cpu)
    (delta : Nat) :
    ∃ k, k < interval.required d.machine.scheduler ∧
      cpu = (dynPass delta interval d).cpuAwakeProxy k := by
  have retired := dynPass_retired delta interval d
  rcases assigns with ⟨crowded, among⟩ | ⟨quiet, k, small, place⟩
  · exact ⟨_, among, (retired.listed crowded cpu online stays).symm⟩
  · refine ⟨k, small, place.trans ?_⟩
    exact (congrFun (retired.kept (not_lt.mp quiet)) k).symm

theorem DynInterval.Fresh.constrained (fresh : interval.Fresh d) (kept : DynKept d)
    (delta : Nat) : (DynEvent.mutate delta interval).Constrained d := by
  obtain ⟨fits, found⟩ := fresh
  have call := kept.call fits delta
  have someRequired := interval.required_pos d.machine.scheduler
  have retired := dynPass_retired delta interval d
  refine ⟨?_, fun cpu awake flagged => ?_⟩
  · have unmoved (cpu : Nat)
        (awake : cpu ∈ awakeCpus d.machine.scheduler.totalOnlineCpus (dynPass delta interval d).info)
        (unlisted : cpu ∉ (awakeCpus d.machine.scheduler.totalOnlineCpus
          (dynPass delta interval d).info).filter fun cpu =>
            ∃ k, k < interval.required d.machine.scheduler ∧
              cpu = (dynPass delta interval d).cpuAwakeProxy k) :
        (((dynPass delta interval d).newCpuState cpu : Int) -
          d.machine.scheduler.curCpuState cpu).natAbs = 0 := by
      obtain ⟨online, stays⟩ := (mem_awakeCpus_pass delta interval d cpu).mp awake
      have notListed : ¬ ∃ k, k < interval.required d.machine.scheduler ∧
          cpu = (dynPass delta interval d).cpuAwakeProxy k :=
        fun listed => unlisted (Finset.mem_filter.mpr ⟨awake, listed⟩)
      rcases call.given_cases someRequired d.statics.newCpuState cpu with
        ⟨k, small, place, _⟩ | ⟨_, given⟩
      · exact absurd ⟨k, small, place⟩ notListed
      · rcases (found cpu online stays).1 with assigns | same
        · exact absurd (assigns.listed online stays delta) notListed
        · have stayed : (dynPass delta interval d).newCpuState cpu =
              d.machine.scheduler.curCpuState cpu := given.trans same
          rw [stayed, Int.sub_self]
          rfl
    rw [← Finset.sum_subset (Finset.filter_subset _ _) unmoved]
    exact call.moved_le someRequired d.statics.newCpuState fun cpu member =>
      (Finset.mem_filter.mp member).2
  · obtain ⟨online, stays⟩ := (mem_awakeCpus_pass delta interval d cpu).mp awake
    have flag : (dynPass delta interval d).putToSleep cpu = _ := retired.putToSleep_eq cpu
    rw [flag] at flagged
    by_cases visited : Visited d.machine.scheduler.totalOnlineCpus
      (interval.required d.machine.scheduler) interval.cpuTasks
      (interval.woken d.machine.scheduler) cpu
    · rw [if_pos ⟨online, visited⟩, if_neg fun idle => stays.2 ⟨idle.2, visited⟩] at flagged
      exact absurd flagged.1 (by decide)
    · rw [if_neg fun held => visited held.2] at flagged
      rcases (found cpu online stays).2 with comes | clear | low
      · exact visited comes
      · exact clear flagged.1
      · exact flagged.2 low

end Interval

/-! ### Runs of fresh intervals -/

/-- Some cpus, each in one of some states. -/
structure Placed (cpus states : Nat) (m : Machine) : Prop where
  answers : Answers m
  online : m.scheduler.totalOnlineCpus = cpus
  limit : m.scheduler.totalStates = states
  inStates : ∀ cpu, cpu < cpus → m.scheduler.curCpuState cpu < states

section Settle

variable {cpus states : Nat} {m : Machine}

theorem Placed.setFreq (held : Placed cpus states m) (driver : Driver) (cpu : Nat)
    {state : Nat} (small : state < states) : Placed cpus states (setFreq driver cpu state m) := by
  have still := held.answers.setFreq driver cpu state
  rcases setFreq_scheduler held.answers driver cpu state with informed | same
  · refine ⟨still, ?_, ?_, fun other online => ?_⟩
    · rw [informed, seekerCpufreqInform_totalOnlineCpus]
      exact held.online
    · rw [informed, seekerCpufreqInform_totalStates]
      exact held.limit
    · rw [informed, seekerCpufreqInform_curCpuState]
      by_cases here : other = cpu
      · rw [here, Function.update_self]
        exact small
      · rw [Function.update_of_ne here]
        exact held.inStates other online
  · refine ⟨still, ?_, ?_, ?_⟩ <;> rw [same]
    · exact held.online
    · exact held.limit
    · exact held.inStates

theorem Placed.settle (held : Placed cpus states m) (pass : DynPass) (interval : DynInterval)
    {cpu : Nat} (placed : pass.newCpuState cpu < states) :
    Placed cpus states (pass.settle interval cpu m) := by
  have someState : 0 < states := Nat.lt_of_le_of_lt (Nat.zero_le _) placed
  have slept : Placed cpus states (if pass.putToSleep cpu = 1 then
      Seeker.setFreq (interval.sleepDriver cpu) cpu 0 m else m) := by
    split
    · exact held.setFreq _ cpu someState
    · exact held
  unfold DynPass.settle
  dsimp only
  generalize (if pass.putToSleep cpu = 1 then
    Seeker.setFreq (interval.sleepDriver cpu) cpu 0 m else m) = current at slept ⊢
  split
  · exact ⟨slept.answers, slept.online, slept.limit, slept.inStates⟩
  · split
    · exact slept.setFreq _ cpu placed
    · exact slept

theorem Placed.putLog (held : Placed cpus states m) (entry : Scheduler → LogEntry) :
    Placed cpus states (m.mapScheduler fun s => putLog (entry s) s) := by
  obtain ⟨log, logged⟩ := putLog_eq (entry m.scheduler) m.scheduler
  have written : (m.mapScheduler fun s => Seeker.putLog (entry s) s) =
      m.mapScheduler fun s => { s with log := log } :=
    congrArg (fun scheduler => { m with scheduler := scheduler }) logged
  rw [written]
  exact ⟨held.answers, held.online, held.limit, held.inStates⟩

end Settle

/-- A fresh interval keeps the invariant. -/
theorem DynKept.memDynamicProg {d : DynMachine} (kept : DynKept d) {interval : DynInterval}
    (fits : interval.HintsFit d) (delta : Nat) : DynKept (memDynamicProg delta interval d) := by
  have call := kept.call fits delta
  have someRequired := interval.required_pos d.machine.scheduler
  have placed (cpu : Nat) (online : cpu < d.machine.scheduler.totalOnlineCpus) :
      (dynPass delta interval d).newCpuState cpu < d.machine.scheduler.totalStates := by
    rcases call.given_cases someRequired d.statics.newCpuState cpu with
      ⟨k, small, _, given⟩ | ⟨_, given⟩
    · exact lt_of_eq_of_lt given ((call.choice_feasible someRequired).inClass k small)
    · exact lt_of_eq_of_lt given (kept.placed cpu online)
  have committed : Placed d.machine.scheduler.totalOnlineCpus d.machine.scheduler.totalStates
      (d.machine.mapScheduler (dynPass delta interval d).commit) :=
    ⟨kept.answers, rfl, rfl, kept.inStates⟩
  have settled : Placed d.machine.scheduler.totalOnlineCpus d.machine.scheduler.totalStates
      (Loops.forRange d.machine.scheduler.totalOnlineCpus
        ((dynPass delta interval d).settle interval)
        (d.machine.mapScheduler (dynPass delta interval d).commit)) := by
    refine Loops.forRange_induction (fun _ (current : Machine) =>
      Placed d.machine.scheduler.totalOnlineCpus d.machine.scheduler.totalStates current)
      committed ?_
    intro cpu online current held
    exact held.settle _ interval (placed cpu online)
  have logged := settled.putLog (mutatorEntry (dynPass delta interval d).demand)
  refine ⟨logged.answers, ?_, fun cpu online => ?_, fun k => ?_, fun cpu online => ?_⟩
  · exact logged.online ▸ kept.someCpu
  · exact logged.limit ▸ logged.inStates cpu (logged.online ▸ online)
  · exact logged.online ▸ kept.listed_pass delta interval k
  · exact logged.limit ▸ placed cpu (logged.online ▸ online)

theorem DynKept.step {d : DynMachine} (kept : DynKept d) {event : DynEvent}
    (fresh : event.Fresh d) : DynKept (dynStep d event) := by
  cases event with
  | hints demand => exact ⟨kept.answers, kept.someCpu, kept.inStates, kept.listed, kept.placed⟩
  | mutate delta interval => exact kept.memDynamicProg fresh.1 delta

theorem DynKept.start {m : Machine} (answers : Answers m) (inStates : InStates m.scheduler)
    (someCpu : 1 ≤ m.scheduler.totalOnlineCpus) : DynKept (DynMachine.start m) := by
  have someState : 0 < m.scheduler.totalStates := Nat.lt_of_le_of_lt (Nat.zero_le _)
    (inStates 0 someCpu)
  have started : (initMutator m.scheduler).totalOnlineCpus = m.scheduler.totalOnlineCpus ∧
      (initMutator m.scheduler).totalStates = m.scheduler.totalStates ∧
      (initMutator m.scheduler).curCpuState = m.scheduler.curCpuState := by
    unfold initMutator
    split <;> exact ⟨rfl, rfl, rfl⟩
  obtain ⟨cpus, states, places⟩ := started
  refine ⟨answers, ?_, ?_, fun _ => ?_, fun _ _ => ?_⟩
  · show 1 ≤ (initMutator m.scheduler).totalOnlineCpus
    rw [cpus]
    exact someCpu
  · show ∀ cpu, cpu < (initMutator m.scheduler).totalOnlineCpus →
      (initMutator m.scheduler).curCpuState cpu < (initMutator m.scheduler).totalStates
    rw [cpus, states, places]
    exact inStates
  · show 0 < (initMutator m.scheduler).totalOnlineCpus
    rw [cpus]
    exact someCpu
  · show 0 < (initMutator m.scheduler).totalStates
    rw [states]
    exact someState

/-- In every run whose intervals are fresh, each interval obeys the delta constraint. -/
theorem dyn_delta_constraint {m : Machine} (answers : Answers m) (inStates : InStates m.scheduler)
    (someCpu : 1 ≤ m.scheduler.totalOnlineCpus) (events : List DynEvent)
    (fresh : Exec.Meets dynStep DynEvent.Fresh (DynMachine.start m) events) :
    Exec.Meets dynStep DynEvent.Constrained (DynMachine.start m) events := by
  refine Exec.meets_of_invariant DynKept (fun d event kept fresh => kept.step fresh)
    (fun d event kept fresh => ?_) (DynKept.start answers inStates someCpu) fresh
  cases event with
  | hints demand => exact trivial
  | mutate delta interval => exact fresh.constrained kept delta

/-- An interval with one task on every cpu, all requests granted. -/
def busyInterval : DynInterval :=
  ⟨fun _ => 1, fun _ => 1, fun _ => acceptingDriver, fun _ => acceptingDriver⟩

/-- The same with one task only, on cpu `1`. -/
def restingInterval : DynInterval :=
  ⟨fun cpu => cpu, fun cpu => cpu, fun _ => acceptingDriver, fun _ => acceptingDriver⟩

/-- Two cpus in state `1`: the first is retired, and woken in the next interval, in which its flag is
set but its state is `0`. -/
theorem dyn_delta_constraint_two_cpus :
    Exec.Meets dynStep DynEvent.Constrained (DynMachine.start (runningMachine 2 2 fun _ => 1))
      [.hints fun state => 4 * state, .mutate 1 restingInterval, .hints fun state => 4 * state,
        .mutate 1 busyInterval] :=
  dyn_delta_constraint (Or.inl (runningMachine_registered 2 2 fun _ => 1).callsBack) (by decide)
    (by decide) _ (by decide)

/-- Two cpus in state `1` that are both needed: nothing has been listed, and cpu `1` is moved to
state `0` although delta is `0`. One interval after the run above, cpu `0` has been raised to state
`1`, and the flag that the first interval left sends it to state `0`. -/
theorem dyn_not_constrained :
    let m := runningMachine 2 2 fun _ => 1
    Answers m ∧ InStates m.scheduler ∧ 1 ≤ m.scheduler.totalOnlineCpus ∧
      ¬ Exec.Meets dynStep DynEvent.Constrained (DynMachine.start m) [.mutate 0 busyInterval] ∧
      ¬ Exec.Meets dynStep DynEvent.Constrained (DynMachine.start m)
        [.hints fun state => 4 * state, .mutate 1 restingInterval, .hints fun state => 4 * state,
          .mutate 1 busyInterval, .mutate 1 busyInterval] := by
  refine ⟨Or.inl (runningMachine_registered 2 2 fun _ => 1).callsBack, by decide, by decide, ?_, ?_⟩
  · rintro ⟨⟨bound, _⟩, _⟩
    exact absurd bound (by decide)
  · rintro ⟨_, _, _, _, ⟨_, unflagged⟩, _⟩
    exact absurd (unflagged 0 (by decide)) (by decide)

end Seeker
