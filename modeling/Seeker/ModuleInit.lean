/-
This file embeds `scheduler_init` and asks whether it is atomic: whether a failure
leaves nothing behind that the module acquired, and a success leaves everything.

`insert_probes` and `log_init` unwind themselves, and the file proves that each of
them acquires all or nothing. `scheduler_init` does not: every `return` in its middle
leaves what the stages before it acquired, and the result of the registration with
seeker-cpufreq is not looked at. The file says exactly which answers of the kernel make
the initialisation atomic all the same.
-/
import Seeker.Confinement
import Seeker.HwCounters
import Seeker.Library.Staged
import Seeker.LogQueue
import Seeker.MutateCommon

namespace Seeker

/-! ### The module and the kernel -/

/-- The probes of `insert_probes`. -/
inductive Probe where
  | schedulerTick
  | schedFork
  | switchTo
  | schedule
  | releaseThread
  deriving DecidableEq, Repr

/-- What the kernel keeps for the module until it is given back. -/
inductive KernelObject where
  | logDevice
  | logCache
  | logBlock
  | probe (which : Probe)
  deriving DecidableEq, Repr

/-- The scheduler module: its machine, its counters, whether `state_work` is pending, what it
holds of the kernel, the latest first, and the log. -/
structure SchedulerModule where
  machine : Machine
  counters : HwCounters
  workPending : Bool
  held : List KernelObject
  log : Option LogQueue

/-- What the kernel answers in the course of `scheduler_init`. `initTsc` is what the first
`ON_EACH_CPU` returns and `enableCounters` is the second one. `driver`, `memory` are as for
`initCpuStates`. `logBlock` is the address of the first block, whose entry is `garbage`. -/
structure KernelAnswers where
  numOnline : Nat
  initTsc : Int
  enableCounters : OnEachCpu
  driver : Nat → Driver
  memory : Bool
  logDevice : Bool
  logCache : Bool
  logBlock : Option Nat
  garbage : LogEntry
  registers : Probe → Bool

/-- `ON_EACH_CPU` returns a negative code unless the function ran on every cpu. -/
def KernelAnswers.Whole (kernel : KernelAnswers) : Prop :=
  0 ≤ kernel.enableCounters.result →
    ∀ cpu < kernel.numOnline, kernel.enableCounters.reached cpu = true

/-! ### The stages -/

/-- One thing of the kernel: it is given or refused, and can be given back. -/
def objectStage (offer : Bool × KernelObject) : Staged.Stage SchedulerModule where
  acquire m := if offer.1 then some { m with held := offer.2 :: m.held } else none
  release m := { m with held := m.held.erase offer.2 }

/-- The `probe_ret` of the registrations of `insert_probes`, in its order. -/
def KernelAnswers.probes (kernel : KernelAnswers) : List (Bool × KernelObject) :=
  [Probe.schedulerTick, .schedFork, .switchTo, .schedule, .releaseThread].map fun which =>
    (kernel.registers which, .probe which)

/-- `insert_probes`, the `goto`s being those of `Staged.run`. -/
def insertProbes (kernel : KernelAnswers) (m : SchedulerModule) : Int × SchedulerModule :=
  let (inserted, m) := Staged.run (kernel.probes.map objectStage) m
  (if inserted then 0 else -1, m)

/-- What `log_init` asks for, in its order: the device, the cache and the first block. -/
def KernelAnswers.logParts (kernel : KernelAnswers) : List (Bool × KernelObject) :=
  [(kernel.logDevice, .logDevice), (kernel.logCache, .logCache),
    (kernel.logBlock.isSome, .logBlock)]

/-- `log_init`: a failure destroys the cache, if it was created, and deregisters the device. -/
def initLog (kernel : KernelAnswers) (m : SchedulerModule) : Int × SchedulerModule :=
  let (made, m) := Staged.run (kernel.logParts.map objectStage) m
  if made then
    (0, { m with log := kernel.logBlock.map fun address => logInit address kernel.garbage })
  else (-1, m)

/-- `init_mutator`, with the work it schedules. -/
def startMutator (m : SchedulerModule) : SchedulerModule :=
  { m with
    machine := m.machine.mapScheduler initMutator
    workPending :=
      if m.machine.scheduler.mutationMethod = staticMutator then m.workPending else true }

/-- `ONDEMAND_MUTATOR`. -/
def ondemandMutator : Nat := 2

/-- `CONSERVATIVE_MUTATOR`. -/
def conservativeMutator : Nat := 3

/-- `DISABLE_SCHEDULING`. -/
def disableSchedulingMethod : Nat := 3

/-- `ENODEV`. -/
def enodev : Int := 19

/-- `ENOSYS`. -/
def enosys : Int := 38

/-- `ENOTSUPP`. -/
def enotsupp : Int := 524

/-- The scheduling method is one of the four that `scheduler_init` knows. -/
def Scheduler.MethodKnown (s : Scheduler) : Prop := s.schedulingMethod ≤ disableSchedulingMethod

instance (s : Scheduler) : Decidable s.MethodKnown := inferInstanceAs (Decidable (_ ≤ _))

/-- The writes of `scheduler_init` to `disable_scheduling`: for the two governors, and for the
last of the scheduling methods. -/
def disableForMethods (s : Scheduler) : Scheduler :=
  { s with
    disableScheduling :=
      s.disableScheduling || s.mutationMethod = ondemandMutator ||
        s.mutationMethod = conservativeMutator || s.schedulingMethod = disableSchedulingMethod }

/-- `scheduler_init`. Left out are the messages, the migration pool, the idle logger, the values of
the time stamp counters and the debug file, none of which is asked for its success. -/
def schedulerInit (arch : Arch) (kernel : KernelAnswers) (allowedCpus : Int)
    (m : SchedulerModule) : Int × SchedulerModule :=
  let m := { m with machine := m.machine.mapScheduler disableForMethods }
  if ¬ m.machine.scheduler.MethodKnown then (-enotsupp, m)
  else
    let m := { m with machine := m.machine.mapScheduler (limitCpus kernel.numOnline allowedCpus) }
    if kernel.initTsc < 0 then (-enosys, m)
    else
      let (failed, counters) :=
        configureCounters arch kernel.numOnline kernel.enableCounters m.counters
      let m := { m with counters := counters }
      if failed ≠ 0 then (-enosys, m)
      else
        let m := { m with machine := (initCpuStates kernel.driver kernel.memory m.machine).2 }
        let m := startMutator m
        let (failed, m) := initLog kernel m
        if failed ≠ 0 then (-enodev, m)
        else
          let (failed, m) := insertProbes kernel m
          if failed ≠ 0 then (-enosys, m) else (0, m)

/-! ### The stages that unwind themselves -/

theorem objectStage_undoes (offer : Bool × KernelObject) : (objectStage offer).Undoes := by
  intro m acquired taken
  unfold objectStage at taken ⊢
  dsimp only at taken ⊢
  split at taken
  · rw [← Option.some.inj taken]
    simp
  · exact absurd taken (by simp)

theorem acquireAll_objectStages (offers : List (Bool × KernelObject)) (m : SchedulerModule) :
    Staged.acquireAll (offers.map objectStage) m =
      if ∀ offer ∈ offers, offer.1 = true then
        some { m with held := (offers.map Prod.snd).reverse ++ m.held }
      else none := by
  induction offers generalizing m with
  | nil => simp
  | cons offer rest inductionHypothesis =>
    rw [List.map_cons, Staged.acquireAll_cons]
    by_cases given : offer.1 = true
    · have taken : (objectStage offer).acquire m =
          some { m with held := offer.2 :: m.held } := if_pos given
      have all : (∀ each ∈ offer :: rest, each.1 = true) ↔ ∀ each ∈ rest, each.1 = true := by
        rw [List.forall_mem_cons]
        exact and_iff_right given
      rw [taken, Option.bind_some, inductionHypothesis]
      simp only [all, List.map_cons, List.reverse_cons, List.append_assoc, List.singleton_append]
    · have refused : (objectStage offer).acquire m = none := if_neg given
      rw [refused, if_neg fun all => given (all offer List.mem_cons_self)]
      rfl

/-- A ladder of such stages takes everything that is offered, or nothing. -/
theorem run_objectStages (offers : List (Bool × KernelObject)) (m : SchedulerModule) :
    Staged.run (offers.map objectStage) m =
      if ∀ offer ∈ offers, offer.1 = true then
        (true, { m with held := (offers.map Prod.snd).reverse ++ m.held })
      else (false, m) := by
  have undoes : ∀ stage ∈ offers.map objectStage, stage.Undoes := by
    intro stage member
    obtain ⟨offer, _, rfl⟩ := List.mem_map.mp member
    exact objectStage_undoes offer
  rw [Staged.run_eq undoes, acquireAll_objectStages]
  by_cases all : ∀ offer ∈ offers, offer.1 = true
  · rw [if_pos all, if_pos all]
  · rw [if_neg all, if_neg all]

/-- Every probe can be registered. -/
def KernelAnswers.ProbesGiven (kernel : KernelAnswers) : Prop :=
  ∀ which, kernel.registers which = true

/-- The kernel gives `log_init` everything it asks for. -/
def KernelAnswers.LogGiven (kernel : KernelAnswers) : Prop :=
  kernel.logDevice = true ∧ kernel.logCache = true ∧ kernel.logBlock.isSome = true

variable {kernel : KernelAnswers}

theorem mem_probes_given :
    (∀ offer ∈ kernel.probes, offer.1 = true) ↔ kernel.ProbesGiven := by
  refine ⟨fun all which => ?_, fun given offer member => ?_⟩
  · refine all (kernel.registers which, .probe which) (List.mem_map_of_mem ?_)
    cases which <;> decide
  · obtain ⟨which, _, rfl⟩ := List.mem_map.mp member
    exact given which

theorem mem_logParts_given :
    (∀ offer ∈ kernel.logParts, offer.1 = true) ↔ kernel.LogGiven := by
  simp [KernelAnswers.logParts, KernelAnswers.LogGiven]

/-- `insert_probes` registers every probe. -/
theorem insertProbes_of_given (given : kernel.ProbesGiven) (m : SchedulerModule) :
    insertProbes kernel m =
      (0, { m with held := (kernel.probes.map Prod.snd).reverse ++ m.held }) := by
  unfold insertProbes
  rw [run_objectStages, if_pos (mem_probes_given.mpr given)]
  rfl

/-- A probe that cannot be registered leaves none. -/
theorem insertProbes_of_not_given (refused : ¬ kernel.ProbesGiven) (m : SchedulerModule) :
    insertProbes kernel m = (-1, m) := by
  unfold insertProbes
  rw [run_objectStages, if_neg (mem_probes_given.not.mpr refused)]
  rfl

/-- `log_init` makes the device, the cache and the block. -/
theorem initLog_of_given (given : kernel.LogGiven) (m : SchedulerModule) :
    initLog kernel m =
      (0, { m with
        held := [.logBlock, .logCache, .logDevice] ++ m.held
        log := kernel.logBlock.map fun address => logInit address kernel.garbage }) := by
  unfold initLog
  rw [run_objectStages, if_pos (mem_logParts_given.mpr given)]
  rfl

/-- Whichever of the three is refused, `log_init` leaves none. -/
theorem initLog_of_not_given (refused : ¬ kernel.LogGiven) (m : SchedulerModule) :
    initLog kernel m = (-1, m) := by
  unfold initLog
  rw [run_objectStages, if_neg (mem_logParts_given.not.mpr refused)]
  rfl

/-! ### What the other stages acquire -/

/-- `init_cpu_states` registers the scheduler when there is memory for it. -/
theorem initCpuStates_userHead {m : Machine} (loaded : Loaded m) (driver : Nat → Driver)
    (memory : Bool) :
    (initCpuStates driver memory m).2.cpufreq.userHead =
      if memory then m.cpufreq.userHead ++ [seekerSchedulerUser] else m.cpufreq.userHead := by
  have placing := placing_placeCpus loaded driver
  have callback : ((placeCpus driver m.reset).cpufreq.user seekerSchedulerUser).inform.isSome := by
    rw [placing.user]
    exact Option.isSome_iff_exists.mpr ⟨_, loaded.callback⟩
  show (registerScpufreqUser memory (some seekerSchedulerUser)
    (placeCpus driver m.reset).cpufreq).2.userHead = _
  unfold registerScpufreqUser
  cases memory with
  | true =>
    rw [createUser_of_memory callback, if_pos rfl]
    exact congrArg (· ++ [seekerSchedulerUser]) placing.userHead
  | false =>
    rw [createUser_of_no_memory callback, if_neg Bool.false_ne_true]
    exact placing.userHead

theorem seekerSchedulerUser_mem_initCpuStates {m : Machine} (loaded : Loaded m)
    (driver : Nat → Driver) (memory : Bool) :
    seekerSchedulerUser ∈ (initCpuStates driver memory m).2.cpufreq.userHead ↔ memory = true := by
  rw [initCpuStates_userHead loaded]
  cases memory with
  | true => simp
  | false => simpa using loaded.absent

/-- A cpu placed before the registration leaves the parameters of the mutator alone. -/
theorem placeCpu_mutationMethod {m : Machine} (silent : Silent m) (driver : Nat → Driver)
    (cpu state : Nat) :
    Silent (placeCpu driver cpu state m) ∧
      (placeCpu driver cpu state m).scheduler.mutationMethod = m.scheduler.mutationMethod := by
  refine ⟨silent.setFreq (driver cpu) cpu state, ?_⟩
  show (setFreq (driver cpu) cpu state m).scheduler.mutationMethod = _
  rw [setFreq_scheduler_of_silent silent]

theorem initCpuStates_mutationMethod {m : Machine} (loaded : Loaded m) (driver : Nat → Driver)
    (memory : Bool) :
    (initCpuStates driver memory m).2.scheduler.mutationMethod = m.scheduler.mutationMethod := by
  have start : Silent m.reset ∧ m.reset.scheduler.mutationMethod = m.scheduler.mutationMethod := by
    obtain ⟨_, _, counted⟩ := countStates_eq m
    refine ⟨loaded.silent, ?_⟩
    rw [Machine.reset, counted]
    rfl
  have laidOut : Silent (Loops.forRange m.reset.scheduler.initLayoutLength (placeLayout driver)
      m.reset) ∧ (Loops.forRange m.reset.scheduler.initLayoutLength (placeLayout driver)
      m.reset).scheduler.mutationMethod = m.scheduler.mutationMethod := by
    refine Loops.forRange_induction (fun _ (current : Machine) => Silent current ∧
      current.scheduler.mutationMethod = m.scheduler.mutationMethod) start ?_
    rintro cpu _ current ⟨silent, kept⟩
    have clamped : Silent (current.mapScheduler (clampLayout cpu)) := silent
    obtain ⟨placed, method⟩ := placeCpu_mutationMethod clamped driver cpu
      ((current.mapScheduler (clampLayout cpu)).scheduler.initLayout cpu).toNat
    exact ⟨placed, method.trans kept⟩
  have placedAll : Silent (placeCpus driver m.reset) ∧
      (placeCpus driver m.reset).scheduler.mutationMethod = m.scheduler.mutationMethod := by
    unfold placeCpus placeRest
    refine Loops.forRange_induction (fun _ (current : Machine) => Silent current ∧
      current.scheduler.mutationMethod = m.scheduler.mutationMethod) laidOut ?_
    rintro index _ current ⟨silent, kept⟩
    obtain ⟨placed, method⟩ := placeCpu_mutationMethod silent driver _ 0
    exact ⟨placed, method.trans kept⟩
  exact placedAll.2

/-- `init_mutator` has work pending and `timer_started` set unless the method is the static one. -/
theorem startMutator_pending {m : SchedulerModule} (idle : m.workPending = false) :
    (startMutator m).workPending = true ∧
        (startMutator m).machine.scheduler.timerStarted = true ↔
      m.machine.scheduler.mutationMethod ≠ staticMutator := by
  unfold startMutator
  by_cases static : m.machine.scheduler.mutationMethod = staticMutator
  · simp [static, idle]
  · have started : (initMutator m.machine.scheduler).timerStarted = true := by
      unfold initMutator
      rw [if_neg static]
    simp [static, Machine.mapScheduler, started]

/-! ### The outcomes -/

/-- The module when `scheduler_init` has read its parameters. -/
def SchedulerModule.selected (kernel : KernelAnswers) (allowedCpus : Int) (m : SchedulerModule) :
    SchedulerModule :=
  { m with
    machine := (m.machine.mapScheduler disableForMethods).mapScheduler
      (limitCpus kernel.numOnline allowedCpus) }

/-- The module when the two counters of each cpu have been asked for. -/
def SchedulerModule.counted (arch : Arch) (kernel : KernelAnswers) (allowedCpus : Int)
    (m : SchedulerModule) : SchedulerModule :=
  { m.selected kernel allowedCpus with
    counters := (configureCounters arch kernel.numOnline kernel.enableCounters m.counters).2 }

/-- The module when its cpus have their first states. -/
def SchedulerModule.placed (arch : Arch) (kernel : KernelAnswers) (allowedCpus : Int)
    (m : SchedulerModule) : SchedulerModule :=
  { m.counted arch kernel allowedCpus with
    machine :=
      (initCpuStates kernel.driver kernel.memory (m.selected kernel allowedCpus).machine).2 }

/-- The module when the mutator has been started, which is when the log is made. -/
def SchedulerModule.started (arch : Arch) (kernel : KernelAnswers) (allowedCpus : Int)
    (m : SchedulerModule) : SchedulerModule :=
  startMutator (m.placed arch kernel allowedCpus)

/-- Every cpu that is reached has counters enough, and the call goes through. -/
def KernelAnswers.CountersGiven (arch : Arch) (kernel : KernelAnswers) (h : HwCounters) : Prop :=
  0 ≤ kernel.enableCounters.result ∧ ∀ cpu < kernel.numOnline,
    kernel.enableCounters.reached cpu = true → (h.pmu cpu).HasRoom arch

/-- No cpu that is reached has a counter left to claim. -/
def KernelAnswers.CountersBusy (arch : Arch) (kernel : KernelAnswers) (h : HwCounters) : Prop :=
  ∀ cpu < kernel.numOnline,
    kernel.enableCounters.reached cpu = true → ¬ (h.pmu cpu).HasIdle arch

section Outcomes

variable {arch : Arch} {allowedCpus : Int} {m : SchedulerModule}

theorem schedulerInit_of_unknown (unknown : ¬ m.machine.scheduler.MethodKnown) :
    schedulerInit arch kernel allowedCpus m =
      (-enotsupp, { m with machine := m.machine.mapScheduler disableForMethods }) :=
  if_pos unknown

theorem schedulerInit_of_tsc (known : m.machine.scheduler.MethodKnown)
    (failed : kernel.initTsc < 0) :
    schedulerInit arch kernel allowedCpus m = (-enosys, m.selected kernel allowedCpus) :=
  (if_neg (not_not.mpr known)).trans (if_pos failed)

theorem schedulerInit_of_counters (known : m.machine.scheduler.MethodKnown)
    (stamped : ¬ kernel.initTsc < 0)
    (failed : (configureCounters arch kernel.numOnline kernel.enableCounters m.counters).1 ≠ 0) :
    schedulerInit arch kernel allowedCpus m = (-enosys, m.counted arch kernel allowedCpus) :=
  ((if_neg (not_not.mpr known)).trans (if_neg stamped)).trans (if_pos failed)

/-- Past the counters, the log and the probes decide. -/
theorem schedulerInit_of_counted (known : m.machine.scheduler.MethodKnown)
    (stamped : ¬ kernel.initTsc < 0)
    (counted : (configureCounters arch kernel.numOnline kernel.enableCounters m.counters).1 = 0) :
    schedulerInit arch kernel allowedCpus m =
      if (initLog kernel (m.started arch kernel allowedCpus)).1 ≠ 0 then
        (-enodev, (initLog kernel (m.started arch kernel allowedCpus)).2)
      else if
          (insertProbes kernel (initLog kernel (m.started arch kernel allowedCpus)).2).1 ≠ 0 then
        (-enosys, (insertProbes kernel (initLog kernel (m.started arch kernel allowedCpus)).2).2)
      else (0, (insertProbes kernel (initLog kernel (m.started arch kernel allowedCpus)).2).2) :=
  ((if_neg (not_not.mpr known)).trans (if_neg stamped)).trans (if_neg (not_not.mpr counted))

end Outcomes

/-! ### Atomicity -/

/-- The module has just been loaded: nothing is claimed, pending or held. -/
structure SchedulerModule.Fresh (m : SchedulerModule) : Prop where
  machine : Loaded m.machine
  error : m.counters.error = false
  workPending : m.workPending = false
  held : m.held = []

/-- Nothing the module acquired remains. -/
structure NothingLeft (before after : SchedulerModule) : Prop where
  counters : ∀ cpu, (after.counters.pmu cpu).NoneNew (before.counters.pmu cpu)
  user : seekerSchedulerUser ∉ after.machine.cpufreq.userHead
  mutator : ¬ (after.workPending = true ∧ after.machine.scheduler.timerStarted = true)
  held : ∀ object, object ∉ after.held

/-- Everything is in place: the counters of every online cpu, the user, the mutator's work, and
the log device, its cache and first block and the five probes. -/
structure EverythingInPlace (arch : Arch) (kernel : KernelAnswers)
    (before after : SchedulerModule) : Prop where
  counters : ∀ cpu < kernel.numOnline,
    (after.counters.pmu cpu).Counting arch (before.counters.pmu cpu)
  user : seekerSchedulerUser ∈ after.machine.cpufreq.userHead
  mutator : after.workPending = true ∧ after.machine.scheduler.timerStarted = true
  held : ∀ object, object ∈ after.held

/-- An initialisation with a return code and an outcome is atomic. -/
def InitAtomic (arch : Arch) (kernel : KernelAnswers) (before : SchedulerModule)
    (outcome : Int × SchedulerModule) : Prop :=
  (outcome.1 ≠ 0 → NothingLeft before outcome.2) ∧
    (outcome.1 = 0 → EverythingInPlace arch kernel before outcome.2)

theorem initAtomic_of_failed {arch : Arch} {before after : SchedulerModule} {code : Int}
    (failed : code ≠ 0) :
    InitAtomic arch kernel before (code, after) ↔ NothingLeft before after :=
  ⟨fun atomic => atomic.1 failed, fun nothing => ⟨fun _ => nothing, fun zero => absurd zero failed⟩⟩

theorem initAtomic_of_succeeded {arch : Arch} {before after : SchedulerModule} :
    InitAtomic arch kernel before (0, after) ↔ EverythingInPlace arch kernel before after :=
  ⟨fun atomic => atomic.2 rfl, fun all => ⟨fun failed => absurd rfl failed, fun _ => all⟩⟩

/-- When an initialisation is atomic: it fails before it has acquired anything, or every stage
goes through, the registration and the mutator included. -/
def AtomicWhen (arch : Arch) (kernel : KernelAnswers) (m : SchedulerModule) : Prop :=
  ¬ m.machine.scheduler.MethodKnown ∨ kernel.initTsc < 0 ∨
    (kernel.CountersBusy arch m.counters ∧
      (¬ kernel.CountersGiven arch m.counters ∨
        (¬ kernel.LogGiven ∧ kernel.memory = false ∧
          m.machine.scheduler.mutationMethod = staticMutator))) ∨
    (kernel.CountersGiven arch m.counters ∧ kernel.LogGiven ∧ kernel.ProbesGiven ∧
      kernel.memory = true ∧ m.machine.scheduler.mutationMethod ≠ staticMutator)

section Atomicity

variable {arch : Arch} {allowedCpus : Int} {m : SchedulerModule}

/-- A failure before anything was asked for leaves nothing. -/
theorem SchedulerModule.Fresh.nothingLeft (fresh : m.Fresh) (change : Scheduler → Scheduler) :
    NothingLeft m { m with machine := m.machine.mapScheduler change } where
  counters _ := ⟨fun _ => id, id⟩
  user := fresh.machine.absent
  mutator pending := Bool.noConfusion (fresh.workPending.symm.trans pending.1)
  held object := by
    rw [fresh.held]
    exact List.not_mem_nil

theorem SchedulerModule.Fresh.selected (fresh : m.Fresh) :
    Loaded (m.selected kernel allowedCpus).machine :=
  ⟨fresh.machine.callback, fresh.machine.absent, fresh.machine.others⟩

/-- Nothing is left once the counters have been asked for exactly when none was claimed. -/
theorem nothingLeft_counted (fresh : m.Fresh) :
    NothingLeft m (m.counted arch kernel allowedCpus) ↔ kernel.CountersBusy arch m.counters := by
  refine ⟨fun nothing => configureCounters_noneNew.mp nothing.counters, fun busy => ?_⟩
  exact { fresh.nothingLeft id with counters := configureCounters_noneNew.mpr busy }

theorem started_user (kernel : KernelAnswers) (arch : Arch) (allowedCpus : Int)
    (fresh : m.Fresh) :
    seekerSchedulerUser ∈ (m.started arch kernel allowedCpus).machine.cpufreq.userHead ↔
      kernel.memory = true := by
  have registered : (m.started arch kernel allowedCpus).machine.cpufreq =
      (initCpuStates kernel.driver kernel.memory
        (m.selected kernel allowedCpus).machine).2.cpufreq := rfl
  rw [registered]
  exact seekerSchedulerUser_mem_initCpuStates fresh.selected kernel.driver kernel.memory

theorem started_pending (kernel : KernelAnswers) (arch : Arch) (allowedCpus : Int)
    (fresh : m.Fresh) :
    (m.started arch kernel allowedCpus).workPending = true ∧
        (m.started arch kernel allowedCpus).machine.scheduler.timerStarted = true ↔
      m.machine.scheduler.mutationMethod ≠ staticMutator := by
  have method : (m.placed arch kernel allowedCpus).machine.scheduler.mutationMethod =
      m.machine.scheduler.mutationMethod :=
    initCpuStates_mutationMethod fresh.selected kernel.driver kernel.memory
  have idle : (m.placed arch kernel allowedCpus).workPending = false := fresh.workPending
  rw [← method]
  exact startMutator_pending idle

/-- When the log cannot be made, what is left is what the stages before it acquired. -/
theorem nothingLeft_started (fresh : m.Fresh) :
    NothingLeft m (m.started arch kernel allowedCpus) ↔
      kernel.CountersBusy arch m.counters ∧ kernel.memory = false ∧
        m.machine.scheduler.mutationMethod = staticMutator := by
  have user := (started_user kernel arch allowedCpus fresh).not
  have mutator := (started_pending kernel arch allowedCpus fresh).not
  rw [Bool.not_eq_true] at user
  rw [not_not] at mutator
  refine ⟨fun nothing => ⟨configureCounters_noneNew.mp nothing.counters, user.mp nothing.user,
    mutator.mp nothing.mutator⟩, ?_⟩
  rintro ⟨busy, memory, static⟩
  exact ⟨configureCounters_noneNew.mpr busy, user.mpr memory, mutator.mpr static,
    (fresh.nothingLeft id).held⟩

/-- With the log and the probes in place, the registration and the mutator decide. -/
theorem everythingInPlace_started (fresh : m.Fresh) (whole : kernel.Whole)
    (given : kernel.CountersGiven arch m.counters) {held : List KernelObject}
    (all : ∀ object, object ∈ held) (log : Option LogQueue) :
    EverythingInPlace arch kernel m
        { m.started arch kernel allowedCpus with held := held, log := log } ↔
      kernel.memory = true ∧ m.machine.scheduler.mutationMethod ≠ staticMutator := by
  have user := started_user kernel arch allowedCpus fresh
  have mutator := started_pending kernel arch allowedCpus fresh
  have counters : (m.started arch kernel allowedCpus).counters =
    (configureCounters arch kernel.numOnline kernel.enableCounters m.counters).2 := rfl
  generalize m.started arch kernel allowedCpus = started at user mutator counters ⊢
  refine ⟨fun inPlace => ⟨user.mp inPlace.user, mutator.mp inPlace.mutator⟩, ?_⟩
  rintro ⟨memory, method⟩
  refine ⟨fun cpu online => ?_, user.mpr memory, mutator.mpr method, all⟩
  have reached := whole given.1 cpu online
  show (started.counters.pmu cpu).Counting arch (m.counters.pmu cpu)
  rw [counters]
  exact configureCounters_counting online reached (given.2 cpu online reached)

/-- The initialisation is atomic exactly when it fails before it has acquired anything, or every
stage of it goes through and none of them is skipped. -/
theorem scheduler_init_atomic_iff (fresh : m.Fresh) (whole : kernel.Whole) :
    InitAtomic arch kernel m (schedulerInit arch kernel allowedCpus m) ↔
      AtomicWhen arch kernel m := by
  unfold AtomicWhen
  by_cases known : m.machine.scheduler.MethodKnown
  swap
  · rw [schedulerInit_of_unknown known, initAtomic_of_failed (by decide)]
    exact iff_of_true (fresh.nothingLeft _) (Or.inl known)
  by_cases stamped : kernel.initTsc < 0
  · rw [schedulerInit_of_tsc known stamped, initAtomic_of_failed (by decide)]
    exact iff_of_true { fresh.nothingLeft id with } (Or.inr (Or.inl stamped))
  have answered : kernel.CountersGiven arch m.counters ↔
      (configureCounters arch kernel.numOnline kernel.enableCounters m.counters).1 = 0 := by
    rw [configureCounters_eq_zero_iff, and_iff_right fresh.error]
    rfl
  rw [or_iff_right (not_not.mpr known), or_iff_right stamped]
  by_cases given : kernel.CountersGiven arch m.counters
  swap
  · rw [schedulerInit_of_counters known stamped (answered.not.mp given),
      initAtomic_of_failed (by decide), nothingLeft_counted fresh]
    simp only [given, not_false_eq_true, true_or, and_true, false_and, or_false]
  rw [schedulerInit_of_counted known stamped (answered.mp given)]
  by_cases log : kernel.LogGiven
  swap
  · rw [initLog_of_not_given log, if_pos (show (-1 : Int) ≠ 0 by decide),
      initAtomic_of_failed (by decide), nothingLeft_started fresh]
    simp only [given, log, not_true_eq_false, not_false_eq_true, false_or, true_and, false_and,
      and_false, or_false]
  rw [initLog_of_given log, if_neg (not_not.mpr rfl)]
  by_cases probes : kernel.ProbesGiven
  swap
  · -- The log stays when the probes cannot be registered.
    rw [insertProbes_of_not_given probes, if_pos (show (-1 : Int) ≠ 0 by decide)]
    simp only [given, log, probes, not_true_eq_false, false_or, false_and, and_false]
    refine iff_of_false (fun atomic => ?_) not_false
    exact ((initAtomic_of_failed (by decide)).mp atomic).held .logDevice (by simp)
  · rw [insertProbes_of_given probes, if_neg (not_not.mpr rfl)]
    simp only [given, log, probes, not_true_eq_false, false_or, true_and, false_and, and_false]
    refine initAtomic_of_succeeded.trans (everythingInPlace_started fresh whole given ?_ _)
    rintro (_ | _ | _ | which)
    · simp
    · simp
    · simp
    · cases which <;> simp [KernelAnswers.probes]

end Atomicity

/-- A kernel of two cpus that gives everything, but for the probes and the memory it is told to
refuse. -/
def answeringKernel (memory : Bool) (registers : Probe → Bool) : KernelAnswers where
  numOnline := 2
  initTsc := 0
  enableCounters := ⟨0, fun _ => true⟩
  driver _ := acceptingDriver
  memory := memory
  logDevice := true
  logCache := true
  logBlock := some 1
  garbage := .pid ⟨"", 0⟩
  registers := registers

theorem answeringKernel_whole (memory : Bool) (registers : Probe → Bool) :
    (answeringKernel memory registers).Whole := fun _ _ _ => rfl

/-- The module just loaded on two cpus of two states, no counter of which is in use. -/
def freshModule : SchedulerModule where
  machine := loadedMachine 2 2 2 []
  counters := ⟨fun _ => ⟨fun _ => false, false, fun _ => 0⟩, false⟩
  workPending := false
  held := []
  log := none

theorem freshModule_fresh : freshModule.Fresh :=
  ⟨loadedMachine_loaded 2 2 2 [], rfl, rfl, rfl⟩

/-- Where nothing is refused the initialisation succeeds with everything in place. -/
theorem scheduler_init_atomic_iff_two_cpus :
    let kernel := answeringKernel true fun _ => true
    (schedulerInit .c2d kernel 0 freshModule).1 = 0 ∧
      InitAtomic .c2d kernel freshModule (schedulerInit .c2d kernel 0 freshModule) := by
  refine ⟨by decide, ?_⟩
  refine (scheduler_init_atomic_iff freshModule_fresh (answeringKernel_whole _ _)).mpr ?_
  exact Or.inr (Or.inr (Or.inr ⟨⟨le_rfl, fun _ _ _ => Or.inl (by decide)⟩, ⟨rfl, rfl, rfl⟩,
    fun _ => rfl, rfl, by decide⟩))

/-- The last probe is refused: the initialisation fails, and counters, user, work and log device
stay. The registration is refused: it succeeds without the user. -/
theorem scheduler_init_not_atomic :
    let probeRefused := answeringKernel true (· ≠ .releaseThread)
    let memoryRefused := answeringKernel false fun _ => true
    let failed := schedulerInit .c2d probeRefused 0 freshModule
    let succeeded := schedulerInit .c2d memoryRefused 0 freshModule
    freshModule.Fresh ∧
      (failed.1 = -enosys ∧ ¬ (failed.2.counters.pmu 1).NoneNew (freshModule.counters.pmu 1) ∧
        seekerSchedulerUser ∈ failed.2.machine.cpufreq.userHead ∧
        (failed.2.workPending = true ∧ failed.2.machine.scheduler.timerStarted = true) ∧
        .logDevice ∈ failed.2.held ∧ ¬ InitAtomic .c2d probeRefused freshModule failed) ∧
      succeeded.1 = 0 ∧ seekerSchedulerUser ∉ succeeded.2.machine.cpufreq.userHead ∧
      ¬ InitAtomic .c2d memoryRefused freshModule succeeded := by
  have code : (schedulerInit .c2d (answeringKernel true (· ≠ .releaseThread)) 0 freshModule).1 =
      -enosys := by decide
  have device : KernelObject.logDevice ∈ (schedulerInit .c2d
      (answeringKernel true (· ≠ .releaseThread)) 0 freshModule).2.held := by decide
  have user : seekerSchedulerUser ∉ (schedulerInit .c2d
      (answeringKernel false fun _ => true) 0 freshModule).2.machine.cpufreq.userHead := by decide
  refine ⟨freshModule_fresh, ⟨code, ?_, by decide, by decide, device, ?_⟩, by decide, user, ?_⟩
  · intro noneNew
    exact Bool.noConfusion (noneNew.2 (by decide))
  · intro atomic
    exact (atomic.1 (code ▸ by decide)).held .logDevice device
  · intro atomic
    exact user (atomic.2 (by decide)).user

end Seeker
