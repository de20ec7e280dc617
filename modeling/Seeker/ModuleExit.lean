/-
This file embeds `scheduler_exit` and asks what the module leaves behind, over any number
of loads and unloads.

The kernel's objects, the counters and the list of seeker-cpufreq's users outlive the
module, and other modules use them at the same time. The file says that the module gives
back what it holds and nothing else: when it is not loaded, a counter is enabled if
another module has claimed it, and the registered users are those of the other modules.
An unloading is one step. What becomes of a work that it could not take back is not
followed here.
-/
import Seeker.ModuleInit
import Seeker.Registry

namespace Seeker

/-! ### The unloading -/

/-- `counter_disable`, of which the claim is kept. -/
def CpuPmu.counterDisable (arch : Arch) (counter : Int) (p : CpuPmu) : CpuPmu :=
  if arch.numCounters ≤ counter then p
  else if p.enabled counter.toNat = false then p
  else { p with enabled := Function.update p.enabled counter.toNat false }

/-- `fcounters_disable`, of which the claim is kept. -/
def CpuPmu.fcountersDisable (p : CpuPmu) : CpuPmu := { p with fixedEnabled := false }

/-- `disable_pmu_counters`, on a cpu's counters. -/
def disablePmuCounters (arch : Arch) (p : CpuPmu) : CpuPmu :=
  if 0 < arch.numFixedCounters then p.fcountersDisable
  else (p.counterDisable arch (p.sysCounters 0)).counterDisable arch (p.sysCounters 1)

/-- `exit_counters`, of which `ON_EACH_CPU` reaches some of the online cpus. A failure is only
reported. -/
def exitCounters (arch : Arch) (numOnline : Nat) (reached : Nat → Bool) (h : HwCounters) :
    HwCounters :=
  { h with
    pmu := Loops.forRange numOnline
      (fun cpu pmu =>
        if reached cpu then Function.update pmu cpu (disablePmuCounters arch (pmu cpu)) else pmu)
      h.pmu }

/-- `exit_cpu_states`. -/
def exitCpuStates (m : SchedulerModule) : SchedulerModule :=
  { m with
    machine := { m.machine with
      cpufreq := (deregisterScpufreqUser (some seekerSchedulerUser) m.machine.cpufreq).2 } }

/-- `exit_mutator`. `cancel_delayed_work` takes the work back if its timer has not expired, which
`cancelled` tells; it reaches neither a work that is queued nor one that runs. -/
def stopMutator (cancelled : Bool) (m : SchedulerModule) : SchedulerModule :=
  if m.machine.scheduler.timerStarted then
    { m with
      machine := m.machine.mapScheduler fun s => { s with timerStarted := false }
      workPending := m.workPending && !cancelled }
  else m

/-- `remove_probes`. -/
def removeProbes (m : SchedulerModule) : SchedulerModule :=
  { m with
    held := [Probe.schedulerTick, .schedFork, .schedule, .switchTo, .releaseThread].foldl
      (fun held which => held.erase (.probe which)) m.held }

/-- `log_exit`: the device, the blocks and the cache, if the device was created. -/
def exitLog (m : SchedulerModule) : SchedulerModule :=
  if m.log.isSome then
    { m with
      held := [KernelObject.logDevice, .logBlock, .logCache].foldl List.erase m.held
      log := none }
  else m

/-- `scheduler_exit`. Left out are the state logger, the migration pool, the debug file and the
messages. -/
def schedulerExit (arch : Arch) (numOnline : Nat) (reached : Nat → Bool) (cancelled : Bool)
    (m : SchedulerModule) : SchedulerModule :=
  let m := exitCpuStates m
  let m := stopMutator cancelled m
  let m := removeProbes m
  let m := exitLog m
  { m with counters := exitCounters arch numOnline reached m.counters }

/-! ### The module among others -/

/-- The module with the kernel it is loaded into: on which cpus it has claimed counters, if it is
loaded, and what the other modules have claimed and registered. -/
structure SharedKernel where
  module : SchedulerModule
  inserted : Option (Nat → Bool)
  others : Nat → Nat → Bool
  otherUsers : List Nat

/-- The module is loaded or unloaded; it works; another module claims or gives back a counter, or
registers or deregisters a user; somebody changes a frequency. -/
inductive SharedEvent where
  | insmod (kernel : KernelAnswers) (allowedCpus : Int) (parameters : Scheduler)
  | rmmod (numOnline : Nat) (reached : Nat → Bool) (cancelled : Bool)
  | work (scheduler : Scheduler) (pending : Bool) (log : LogQueue)
  | counterEnable (cpu : Nat)
  | counterDisable (cpu counter : Nat)
  | register (memory : Bool) (address : Nat)
  | deregister (address : Nat)
  | setFreq (driver : Driver) (locking : Locking) (cpu freqInd : Nat)

/-- The module's own data when it is loaded: they are static. What the kernel, the pmu module and
seeker-cpufreq keep stays. -/
def SchedulerModule.fresh (parameters : Scheduler) (m : SchedulerModule) : SchedulerModule where
  machine :=
    { scheduler := parameters
      cpufreq := { m.machine.cpufreq with
        user := Function.update m.machine.cpufreq.user seekerSchedulerUser
          { inform := some seekerCpufreqInform, userId := 0 } }
      programmed := m.machine.programmed }
  counters :=
    { pmu := fun cpu => { m.counters.pmu cpu with sysCounters := fun _ => 0 }, error := false }
  workPending := false
  held := m.held
  log := none

/-- A write to what seeker-cpufreq keeps. -/
def SchedulerModule.setCpufreq (c : Cpufreq Scheduler) (m : SchedulerModule) : SchedulerModule :=
  { m with machine := { m.machine with cpufreq := c } }

/-- A write to a cpu's counters. -/
def SchedulerModule.setPmu (cpu : Nat) (p : CpuPmu) (m : SchedulerModule) : SchedulerModule :=
  { m with counters := { m.counters with pmu := Function.update m.counters.pmu cpu p } }

/-- A frequency change, whoever asks for it. -/
def SchedulerModule.setFreq (driver : Driver) (locking : Locking) (cpu freqInd : Nat)
    (m : SchedulerModule) : SchedulerModule :=
  let result := internalSetFreq driver locking cpu freqInd m.machine.cpufreq m.machine.scheduler
  { m with
    machine :=
      { scheduler := result.2.2
        cpufreq := result.2.1
        programmed :=
          if result.1 = 0 then Function.update m.machine.programmed cpu (some freqInd)
          else m.machine.programmed } }

/-- One event. -/
def sharedStep (arch : Arch) (s : SharedKernel) : SharedEvent → SharedKernel
  | .insmod kernel allowedCpus parameters =>
    match s.inserted with
    | some _ => s
    | none =>
      let (failed, m) := schedulerInit arch kernel allowedCpus (s.module.fresh parameters)
      { s with
        module := m
        inserted :=
          if failed = 0 then
            some fun cpu => decide (cpu < kernel.numOnline) && kernel.enableCounters.reached cpu
          else none }
  | .rmmod numOnline reached cancelled =>
    match s.inserted with
    | none => s
    | some _ =>
      { s with module := schedulerExit arch numOnline reached cancelled s.module, inserted := none }
  | .work scheduler pending log =>
    match s.inserted with
    | none => s
    | some _ =>
      { s with module := { s.module with
          machine := s.module.machine.mapScheduler fun _ => scheduler
          workPending := pending
          log := some log } }
  | .counterEnable cpu =>
    let (counter, p) := counterEnable arch (s.module.counters.pmu cpu)
    { s with
      module := s.module.setPmu cpu p
      others :=
        if counter < 0 then s.others
        else Function.update s.others cpu (Function.update (s.others cpu) counter.toNat true) }
  | .counterDisable cpu counter =>
    { s with
      module := s.module.setPmu cpu ((s.module.counters.pmu cpu).counterDisable arch counter)
      others := Function.update s.others cpu (Function.update (s.others cpu) counter false) }
  | .register memory address =>
    let (failed, c) := registerScpufreqUser memory (some address) s.module.machine.cpufreq
    { s with
      module := s.module.setCpufreq c
      otherUsers := if failed = 0 then s.otherUsers ++ [address] else s.otherUsers }
  | .deregister address =>
    { s with
      module := s.module.setCpufreq
        (deregisterScpufreqUser (some address) s.module.machine.cpufreq).2
      otherUsers := s.otherUsers.erase address }
  | .setFreq driver locking cpu freqInd =>
    { s with module := s.module.setFreq driver locking cpu freqInd }

/-- A kernel in which nothing is claimed or registered. -/
def SharedKernel.start (m : SchedulerModule) : SharedKernel where
  module := { m with
    machine := { m.machine with cpufreq := initUserInterface m.machine.cpufreq }
    counters := { m.counters with
      pmu := fun _ =>
        { enabled := fun _ => false, fixedEnabled := false, sysCounters := fun _ => 0 } }
    workPending := false
    held := [] }
  inserted := none
  others _ _ := false
  otherUsers := []

/-! ### The conditions -/

/-- The load fails before it has acquired anything, or everything is given to it. -/
def KernelAnswers.Decided (arch : Arch) (kernel : KernelAnswers) (parameters : Scheduler)
    (h : HwCounters) : Prop :=
  ¬ parameters.MethodKnown ∨ kernel.initTsc < 0 ∨
    kernel.CountersGiven arch h ∧ kernel.LogGiven ∧ kernel.ProbesGiven ∧ kernel.memory = true

/-- Every load is decided, and an unloading reaches the cpus that the load has reached. The other
modules give back only what is theirs, and register their own users, which do not touch the
scheduler; no id is handed out twice. -/
def SharedEvent.Orderly (arch : Arch) (s : SharedKernel) : SharedEvent → Prop
  | .insmod kernel _ parameters =>
    kernel.Decided arch parameters s.module.counters ∧
      s.module.machine.cpufreq.currentHighestId ∉ s.module.machine.cpufreq.listedIds
  | .rmmod numOnline reached _ =>
    ∀ claimed ∈ s.inserted, ∀ cpu, cpu < numOnline ∧ reached cpu = true ↔ claimed cpu = true
  | .work _ _ _ => True
  | .counterEnable _ => True
  | .counterDisable cpu counter => s.others cpu counter = true
  | .register memory address =>
    (s.module.machine.cpufreq.user address).inform.isSome ∧ address ≠ seekerSchedulerUser ∧
      address ∉ s.otherUsers ∧
      (∀ cpu state scheduler,
        informUser cpu state s.module.machine.cpufreq.user scheduler address = scheduler) ∧
      (memory = true →
        s.module.machine.cpufreq.currentHighestId ∉ s.module.machine.cpufreq.listedIds)
  | .deregister address => address ∈ s.otherUsers
  | .setFreq _ _ _ _ => True

/-- The cpus on which the module has claimed counters. -/
def SharedKernel.claimed (s : SharedKernel) (cpu : Nat) : Bool :=
  match s.inserted with
  | none => false
  | some claimed => claimed cpu

/-! ### The counters of a cpu -/

/-- The enabled counters of a cpu are those the other modules have claimed and, if the module has
claimed its own, two more, which `sys_counters` names. -/
structure HoldsCounters (arch : Arch) (claimed : Bool) (others : Nat → Bool) (p : CpuPmu) :
    Prop where
  inRange : ∀ counter, others counter = true → counter < arch.numCounters
  fixed : p.fixedEnabled = (claimed && decide (0 < arch.numFixedCounters))
  general : if claimed = true ∧ ¬ 0 < arch.numFixedCounters then
      ∃ first < arch.numCounters, ∃ second < arch.numCounters, first ≠ second ∧
        p.sysCounters 0 = first ∧ p.sysCounters 1 = second ∧
        others first = false ∧ others second = false ∧
        p.enabled = Function.update (Function.update others first true) second true
    else p.enabled = others

section Counters

variable {arch : Arch} {others : Nat → Bool} {p : CpuPmu} {claimed : Bool}

/-- A cpu on which the module has claimed nothing. -/
theorem HoldsCounters.enabled (holds : HoldsCounters arch false others p) : p.enabled = others := by
  have general := holds.general
  rwa [if_neg fun both => Bool.false_ne_true both.1] at general

theorem holdsCounters_false
    (inRange : ∀ counter, others counter = true → counter < arch.numCounters)
    (fixed : p.fixedEnabled = false) (enabled : p.enabled = others) :
    HoldsCounters arch false others p where
  inRange := inRange
  fixed := fixed
  general := by
    rw [if_neg fun both => Bool.false_ne_true both.1]
    exact enabled

/-- `enable_pmu_counters` claims two counters that no other module has claimed. -/
theorem HoldsCounters.enable (holds : HoldsCounters arch false others p)
    (room : p.HasRoom arch) (error : Bool) :
    HoldsCounters arch true others (enablePmuCounters arch (p, error)).1 := by
  have enabled := holds.enabled
  by_cases fixed : 0 < arch.numFixedCounters
  · unfold enablePmuCounters
    rw [if_pos fixed]
    refine ⟨holds.inRange, ?_, ?_⟩
    · rw [decide_eq_true fixed]
      rfl
    · rw [if_neg fun both => both.2 fixed]
      exact enabled
  · rcases enablePmuCounters_general fixed (p, error) with
      ⟨full, _⟩ | ⟨first, _, _, full, _⟩ |
        ⟨first, small, second, smallSecond, different, idle, idleSecond, claimed⟩
    · obtain ⟨counter, inRange, _, idle⟩ := room.other fixed 0
      exact absurd (full counter inRange) (Bool.eq_false_iff.mp idle)
    · obtain ⟨counter, inRange, differs, idle⟩ := room.other fixed first
      exact absurd (full counter inRange differs) (Bool.eq_false_iff.mp idle)
    · rw [claimed]
      refine ⟨holds.inRange, ?_, ?_⟩
      · rw [decide_eq_false fixed]
        exact holds.fixed
      · rw [if_pos ⟨rfl, fixed⟩]
        refine ⟨first, small, second, smallSecond, different, ?_, ?_, enabled ▸ idle,
          enabled ▸ idleSecond, by rw [← enabled]⟩
        · simp
        · simp

/-- `counter_disable` of an enabled counter. -/
theorem counterDisable_of_enabled {counter : Nat} (small : counter < arch.numCounters)
    (enabled : p.enabled counter = true) :
    p.counterDisable arch counter =
      { p with enabled := Function.update p.enabled counter false } := by
  unfold CpuPmu.counterDisable
  rw [if_neg (by omega), Int.toNat_natCast, if_neg (by rw [enabled]; exact Bool.noConfusion)]

/-- `disable_pmu_counters` gives them back, and no other. -/
theorem HoldsCounters.disable (holds : HoldsCounters arch true others p) :
    HoldsCounters arch false others (disablePmuCounters arch p) := by
  have general := holds.general
  unfold disablePmuCounters
  by_cases fixed : 0 < arch.numFixedCounters
  · rw [if_neg fun both => both.2 fixed] at general
    rw [if_pos fixed]
    exact holdsCounters_false holds.inRange rfl general
  · rw [if_pos ⟨rfl, fixed⟩] at general
    obtain ⟨first, small, second, smallSecond, different, sysFirst, sysSecond, idle, idleSecond,
      enabled⟩ := general
    rw [if_neg fixed, sysFirst, sysSecond]
    have enabledFirst : p.enabled first = true := by
      rw [enabled, Function.update_of_ne different, Function.update_self]
    rw [counterDisable_of_enabled small enabledFirst, counterDisable_of_enabled smallSecond]
    · refine holdsCounters_false holds.inRange ?_ ?_
      · rw [holds.fixed, decide_eq_false fixed]
        rfl
      · show Function.update (Function.update p.enabled first false) second false = others
        rw [enabled, Function.update_comm different, Function.update_idem,
          Function.update_comm different.symm, Function.update_idem]
        funext counter
        by_cases isSecond : counter = second
        · rw [isSecond, Function.update_self, idleSecond]
        · rw [Function.update_of_ne isSecond]
          by_cases isFirst : counter = first
          · rw [isFirst, Function.update_self, idle]
          · rw [Function.update_of_ne isFirst]
    · show Function.update p.enabled first false second = true
      rw [Function.update_of_ne different.symm, enabled, Function.update_self]

/-- A write to a counter that is not the module's, by another module. -/
theorem HoldsCounters.write (holds : HoldsCounters arch claimed others p) {counter : Nat}
    (small : counter < arch.numCounters) (value : Bool)
    (foreign : p.enabled counter = others counter) :
    HoldsCounters arch claimed (Function.update others counter value)
      { p with enabled := Function.update p.enabled counter value } := by
  have inRange : ∀ other, Function.update others counter value other = true →
      other < arch.numCounters := by
    intro other set
    by_cases same : other = counter
    · rw [same]
      exact small
    · rw [Function.update_of_ne same] at set
      exact holds.inRange other set
  refine ⟨inRange, holds.fixed, ?_⟩
  have general := holds.general
  split at general
  · rename_i own
    obtain ⟨first, smallFirst, second, smallSecond, different, sysFirst, sysSecond, idle,
      idleSecond, enabled⟩ := general
    have notSecond : counter ≠ second := by
      rintro rfl
      rw [enabled, Function.update_self, idleSecond] at foreign
      cases foreign
    have notFirst : counter ≠ first := by
      rintro rfl
      rw [enabled, Function.update_of_ne different, Function.update_self, idle] at foreign
      cases foreign
    rw [if_pos own]
    refine ⟨first, smallFirst, second, smallSecond, different, sysFirst, sysSecond, ?_, ?_, ?_⟩
    · rw [Function.update_of_ne notFirst.symm]
      exact idle
    · rw [Function.update_of_ne notSecond.symm]
      exact idleSecond
    · show Function.update p.enabled counter value = _
      rw [enabled, Function.update_comm notSecond.symm, Function.update_comm notFirst.symm]
  · rename_i shared
    rw [if_neg shared]
    show Function.update p.enabled counter value = _
    rw [general]

/-- Where the other modules have claimed a counter, or nobody has, it is not the module's. -/
theorem HoldsCounters.foreign (holds : HoldsCounters arch claimed others p) {counter : Nat}
    (free : others counter = true ∨ p.enabled counter = false) :
    p.enabled counter = others counter := by
  have general := holds.general
  split at general
  · obtain ⟨first, _, second, _, different, _, _, idle, idleSecond, enabled⟩ := general
    have notSecond : counter ≠ second := by
      rintro rfl
      rcases free with taken | unused
      · rw [idleSecond] at taken
        cases taken
      · rw [enabled, Function.update_self] at unused
        cases unused
    have notFirst : counter ≠ first := by
      rintro rfl
      rcases free with taken | unused
      · rw [idle] at taken
        cases taken
      · rw [enabled, Function.update_of_ne different, Function.update_self] at unused
        cases unused
    rw [enabled, Function.update_of_ne notSecond, Function.update_of_ne notFirst]
  · rw [general]

/-- Another module claims a counter: it gets none of the module's. -/
theorem HoldsCounters.counterEnable (holds : HoldsCounters arch claimed others p) :
    HoldsCounters arch claimed
      (if (Seeker.counterEnable arch p).1 < 0 then others
        else Function.update others (Seeker.counterEnable arch p).1.toNat true)
      (Seeker.counterEnable arch p).2 := by
  rcases counterEnable_cases arch p with ⟨_, failed⟩ | ⟨counter, small, idle, enabled⟩
  · rw [failed]
    exact holds
  · rw [enabled, if_neg (by omega), Int.toNat_natCast]
    exact holds.write small true (holds.foreign (Or.inr idle))

/-- Another module gives back a counter it has claimed. -/
theorem HoldsCounters.counterDisable (holds : HoldsCounters arch claimed others p) {counter : Nat}
    (taken : others counter = true) :
    HoldsCounters arch claimed (Function.update others counter false)
      (p.counterDisable arch counter) := by
  have foreign := holds.foreign (Or.inl taken)
  rw [counterDisable_of_enabled (holds.inRange counter taken) (foreign.trans taken)]
  exact holds.write (holds.inRange counter taken) false foreign

/-- `sys_counters` says nothing where the module has claimed nothing. -/
theorem HoldsCounters.forget (holds : HoldsCounters arch false others p)
    (sysCounters : Nat → Int) :
    HoldsCounters arch false others { p with sysCounters := sysCounters } :=
  holdsCounters_false holds.inRange holds.fixed holds.enabled

end Counters

theorem exitCounters_pmu (arch : Arch) (numOnline : Nat) (reached : Nat → Bool) (h : HwCounters)
    (cpu : Nat) :
    (exitCounters arch numOnline reached h).pmu cpu =
      if cpu < numOnline ∧ reached cpu = true then disablePmuCounters arch (h.pmu cpu)
      else h.pmu cpu := by
  show Loops.forRange numOnline (fun cpu pmu => if reached cpu then
    Function.update pmu cpu (disablePmuCounters arch (pmu cpu)) else pmu) h.pmu cpu = _
  have turn : (fun cpu (pmu : Nat → CpuPmu) => if reached cpu then
      Function.update pmu cpu (disablePmuCounters arch (pmu cpu)) else pmu) =
      fun cpu pmu => Function.update pmu cpu
        (if reached cpu then disablePmuCounters arch (pmu cpu) else pmu cpu) := by
    funext cpu pmu
    split
    · rfl
    · exact (Function.update_eq_self cpu pmu).symm
  rw [turn, Loops.forRange_update
    (fun cpu p => if reached cpu then disablePmuCounters arch p else p) numOnline h.pmu cpu]
  by_cases online : cpu < numOnline
  · simp only [online, true_and, if_true]
  · simp only [online, false_and, if_false]

/-! ### The registry -/

/-- The list of users and their ids are the same. -/
structure SameRegistry {World : Type} (c c' : Cpufreq World) : Prop where
  user : c'.user = c.user
  userHead : c'.userHead = c.userHead
  highest : c'.currentHighestId = c.currentHighestId

section Registry

variable {World : Type} {c c' c'' : Cpufreq World}

theorem SameRegistry.refl (c : Cpufreq World) : SameRegistry c c := ⟨rfl, rfl, rfl⟩

theorem SameRegistry.trans (first : SameRegistry c c') (second : SameRegistry c' c'') :
    SameRegistry c c'' :=
  ⟨second.user.trans first.user, second.userHead.trans first.userHead,
    second.highest.trans first.highest⟩

/-- A frequency change enters no user. -/
theorem sameRegistry_internalSetFreq (driver : Driver) (locking : Locking) (cpu freqInd : Nat)
    (c : Cpufreq World) (world : World) :
    SameRegistry c (internalSetFreq driver locking cpu freqInd c world).2.1 := by
  rcases internalSetFreq_cpufreq driver locking cpu freqInd c world with same | ⟨_, written⟩
  · rw [same]
    exact SameRegistry.refl c
  · rw [written]
    exact ⟨rfl, rfl, rfl⟩

end Registry

/-- `init_cpu_states` enters no user before it registers its own. -/
theorem sameRegistry_placeCpus (driver : Nat → Driver) (m : Machine) :
    SameRegistry m.cpufreq (placeCpus driver m).cpufreq := by
  have placed : ∀ cpu state (current : Machine), SameRegistry m.cpufreq current.cpufreq →
      SameRegistry m.cpufreq (placeCpu driver cpu state current).cpufreq :=
    fun cpu state current same => same.trans
      (sameRegistry_internalSetFreq (driver cpu) .driverTargetLocking cpu state current.cpufreq
        current.scheduler)
  unfold placeCpus placeRest
  refine Loops.forRange_induction
    (fun _ (current : Machine) => SameRegistry m.cpufreq current.cpufreq) ?_ ?_
  · refine Loops.forRange_induction
      (fun _ (current : Machine) => SameRegistry m.cpufreq current.cpufreq)
      (SameRegistry.refl _) ?_
    intro cpu _ current same
    exact placed cpu _ (current.mapScheduler (clampLayout cpu)) same
  · intro index _ current same
    exact placed _ 0 current same

/-- The listed users have different ids, and a callback each. -/
structure UsersKept (c : Cpufreq Scheduler) : Prop where
  distinct : c.listedIds.Nodup
  callback : ∀ address ∈ c.userHead, (c.user address).inform.isSome

section Users

variable {c c' : Cpufreq Scheduler} {address : Nat}

theorem UsersKept.congr (kept : UsersKept c) (same : SameRegistry c c') : UsersKept c' := by
  refine ⟨?_, ?_⟩
  · unfold Cpufreq.listedIds
    rw [same.user, same.userHead]
    exact kept.distinct
  · rw [same.user, same.userHead]
    exact kept.callback

/-- A structure that is not listed is written. -/
theorem UsersKept.setUser (kept : UsersKept c) (absent : address ∉ c.userHead)
    (user : ScpufreqUser Scheduler) :
    UsersKept { c with user := Function.update c.user address user } ∧
      ({ c with user := Function.update c.user address user } : Cpufreq Scheduler).listedIds =
        c.listedIds := by
  have other : ∀ listed ∈ c.userHead, Function.update c.user address user listed = c.user listed :=
    fun listed member => Function.update_of_ne (by rintro rfl; exact absent member) _ _
  have ids : ({ c with user := Function.update c.user address user } :
      Cpufreq Scheduler).listedIds = c.listedIds := by
    refine List.map_congr_left fun listed member => ?_
    show (Function.update c.user address user listed).userId = _
    rw [other listed member]
  refine ⟨⟨?_, fun listed member => ?_⟩, ids⟩
  · rw [ids]
    exact kept.distinct
  · show (Function.update c.user address user listed).inform.isSome
    rw [other listed member]
    exact kept.callback listed member

theorem UsersKept.addUser (kept : UsersKept c) (callback : (c.user address).inform.isSome)
    (absent : address ∉ c.userHead) (unused : c.currentHighestId ∉ c.listedIds) :
    UsersKept (c.addUser address) := by
  refine ⟨?_, fun other member => ?_⟩
  · rw [listedIds_addUser absent]
    refine List.nodup_append.mpr ⟨kept.distinct, List.nodup_singleton _, ?_⟩
    rintro id used other single rfl
    rw [List.mem_singleton.mp single] at used
    exact unused used
  · rw [addUser_inform]
    rcases List.mem_append.mp member with earlier | last
    · exact kept.callback other earlier
    · rw [List.mem_singleton.mp last]
      exact callback

/-- A listed structure is the one its deregistration takes off the list. -/
theorem UsersKept.deregister (kept : UsersKept c) (listed : address ∈ c.userHead) :
    (deregisterScpufreqUser (some address) c).2 =
        { c with userHead := c.userHead.erase address } ∧
      UsersKept { c with userHead := c.userHead.erase address } := by
  refine ⟨?_, ?_, ?_⟩
  · show (destroyUser (some address) c).2 = _
    rw [destroyUser_of_used (kept.callback address listed) (List.mem_map_of_mem listed),
      eraseP_userId kept.distinct listed]
  · exact kept.distinct.sublist (List.Sublist.map _ List.erase_sublist)
  · exact fun other member => kept.callback other (List.mem_of_mem_erase member)

end Users

/-! ### The module while it is loaded -/

/-- What the module holds of the kernel when it has been loaded. -/
def acquiredObjects : List KernelObject :=
  [.probe .releaseThread, .probe .schedule, .probe .switchTo, .probe .schedFork,
    .probe .schedulerTick, .logBlock, .logCache, .logDevice]

/-- The list of users with that of the module, if it is loaded: it is listed once, and the others
are the other modules' in their order. -/
def ListsUsers (inserted : Bool) (userHead otherUsers : List Nat) : Prop :=
  if inserted = true then
    seekerSchedulerUser ∈ userHead ∧ userHead.erase seekerSchedulerUser = otherUsers
  else userHead = otherUsers

section Lists

variable {inserted : Bool} {userHead otherUsers : List Nat} {address : Nat}

/-- The users of the other modules are on the list. -/
theorem ListsUsers.mem_iff (list : ListsUsers inserted userHead otherUsers)
    (different : address ≠ seekerSchedulerUser) : address ∈ userHead ↔ address ∈ otherUsers := by
  unfold ListsUsers at list
  split at list
  · rw [← list.2, List.mem_erase_of_ne different]
  · rw [list]

/-- Another module's user comes to the end of the list. -/
theorem ListsUsers.append (list : ListsUsers inserted userHead otherUsers) (address : Nat) :
    ListsUsers inserted (userHead ++ [address]) (otherUsers ++ [address]) := by
  unfold ListsUsers at list ⊢
  split at list
  · rename_i loaded
    rw [if_pos loaded]
    refine ⟨List.mem_append_left _ list.1, ?_⟩
    rw [List.erase_append_left _ list.1, list.2]
  · rename_i unloaded
    rw [if_neg unloaded, list]

/-- Another module's user leaves the list. -/
theorem ListsUsers.erase (list : ListsUsers inserted userHead otherUsers)
    (different : address ≠ seekerSchedulerUser) :
    ListsUsers inserted (userHead.erase address) (otherUsers.erase address) := by
  unfold ListsUsers at list ⊢
  split at list
  · rename_i loaded
    rw [if_pos loaded]
    refine ⟨(List.mem_erase_of_ne different.symm).mpr list.1, ?_⟩
    rw [List.erase_comm, list.2]
  · rename_i unloaded
    rw [if_neg unloaded, list]

/-- The module's user comes to the end of the list. -/
theorem ListsUsers.enter (list : ListsUsers false userHead otherUsers)
    (stranger : seekerSchedulerUser ∉ otherUsers) :
    ListsUsers true (userHead ++ [seekerSchedulerUser]) otherUsers := by
  have same : userHead = otherUsers := list
  refine ⟨List.mem_append_right _ (List.mem_singleton_self _), ?_⟩
  rw [same, List.erase_append_right _ stranger, List.erase_cons_head, List.append_nil]

end Lists

/-- The module and the others share the kernel: the counters and the list of users are made up of
what each of them holds. -/
structure Sharing (arch : Arch) (s : SharedKernel) : Prop where
  users : UsersKept s.module.machine.cpufreq
  stranger : seekerSchedulerUser ∉ s.otherUsers
  list : ListsUsers s.inserted.isSome s.module.machine.cpufreq.userHead s.otherUsers
  quiet : ∀ address ∈ s.otherUsers, ∀ cpu state scheduler,
    informUser cpu state s.module.machine.cpufreq.user scheduler address = scheduler
  callback : s.inserted.isSome = true →
    (s.module.machine.cpufreq.user seekerSchedulerUser).inform = some seekerCpufreqInform
  counters : ∀ cpu, HoldsCounters arch (s.claimed cpu) (s.others cpu) (s.module.counters.pmu cpu)
  held : s.module.held = if s.inserted.isSome then acquiredObjects else []
  log : s.inserted.isSome = true → s.module.log.isSome = true

section Loading

variable {arch : Arch} {s : SharedKernel}

/-- Nobody but the module is on the list under its address. -/
theorem Sharing.absent (sharing : Sharing arch s) (unloaded : s.inserted = none) :
    seekerSchedulerUser ∉ s.module.machine.cpufreq.userHead := by
  have list := sharing.list
  rw [unloaded] at list
  rw [show s.module.machine.cpufreq.userHead = s.otherUsers from list]
  exact sharing.stranger

theorem Sharing.claims (sharing : Sharing arch s) {claimed : Nat → Bool}
    (loaded : s.inserted = some claimed) (cpu : Nat) :
    HoldsCounters arch (claimed cpu) (s.others cpu) (s.module.counters.pmu cpu) := by
  have holds := sharing.counters cpu
  rw [SharedKernel.claimed, loaded] at holds
  exact holds

/-- The users and counters as the module finds them when its data are written. -/
theorem Sharing.fresh (sharing : Sharing arch s) (unloaded : s.inserted = none)
    (parameters : Scheduler) :
    UsersKept (s.module.fresh parameters).machine.cpufreq ∧
      (s.module.fresh parameters).machine.cpufreq.listedIds =
        s.module.machine.cpufreq.listedIds ∧
      ∀ cpu, HoldsCounters arch false (s.others cpu)
        ((s.module.fresh parameters).counters.pmu cpu) := by
  obtain ⟨users, ids⟩ := sharing.users.setUser (sharing.absent unloaded)
    { inform := some seekerCpufreqInform, userId := 0 }
  refine ⟨users, ids, fun cpu => ?_⟩
  have holds := sharing.counters cpu
  rw [SharedKernel.claimed, unloaded] at holds
  exact holds.forget _

/-- A load that everything is given to, up to the log and the probes. -/
theorem schedulerInit_of_given {kernel : KernelAnswers} {allowedCpus : Int} {m : SchedulerModule}
    (known : m.machine.scheduler.MethodKnown) (stamped : ¬ kernel.initTsc < 0)
    (clear : m.counters.error = false) (counters : kernel.CountersGiven arch m.counters)
    (log : kernel.LogGiven) (probes : kernel.ProbesGiven) :
    schedulerInit arch kernel allowedCpus m =
      (0, { m.started arch kernel allowedCpus with
        held := acquiredObjects ++ m.held
        log := kernel.logBlock.map fun address => logInit address kernel.garbage }) := by
  have counted : (configureCounters arch kernel.numOnline kernel.enableCounters m.counters).1 = 0 :=
    configureCounters_eq_zero_iff.mpr ⟨counters.1, clear, counters.2⟩
  rw [schedulerInit_of_counted known stamped counted, initLog_of_given log,
    if_neg (not_not.mpr rfl), insertProbes_of_given probes, if_neg (not_not.mpr rfl)]
  rfl

/-- The registry of a load that is given memory. -/
theorem started_cpufreq (arch : Arch) {kernel : KernelAnswers} (memory : kernel.memory = true)
    (allowedCpus : Int) (m : SchedulerModule)
    (callback : (m.machine.cpufreq.user seekerSchedulerUser).inform.isSome) :
    ∃ c, SameRegistry m.machine.cpufreq c ∧
      (m.started arch kernel allowedCpus).machine.cpufreq = c.addUser seekerSchedulerUser := by
  have same := sameRegistry_placeCpus kernel.driver (m.selected kernel allowedCpus).machine.reset
  refine ⟨_, same, ?_⟩
  show (registerScpufreqUser kernel.memory (some seekerSchedulerUser)
    (placeCpus kernel.driver (m.selected kernel allowedCpus).machine.reset).cpufreq).2 = _
  unfold registerScpufreqUser
  rw [memory, createUser_of_memory]
  rw [same.user]
  exact callback

/-- The module is not loaded, and holds nothing. -/
theorem sharing_unloaded {m : SchedulerModule} {others : Nat → Nat → Bool} {otherUsers : List Nat}
    (users : UsersKept m.machine.cpufreq) (stranger : seekerSchedulerUser ∉ otherUsers)
    (list : m.machine.cpufreq.userHead = otherUsers)
    (quiet : ∀ address ∈ otherUsers, ∀ cpu state scheduler,
      informUser cpu state m.machine.cpufreq.user scheduler address = scheduler)
    (counters : ∀ cpu, HoldsCounters arch false (others cpu) (m.counters.pmu cpu))
    (held : m.held = []) :
    Sharing arch { module := m, inserted := none, others := others, otherUsers := otherUsers } where
  users := users
  stranger := stranger
  list := list
  quiet := quiet
  callback loaded := absurd loaded Bool.false_ne_true
  counters := counters
  held := held
  log loaded := absurd loaded Bool.false_ne_true

/-- The callbacks of the other modules' users do not touch the scheduler, whatever is written to
the module's own structure. -/
theorem Sharing.quiet_fresh (sharing : Sharing arch s) (parameters : Scheduler) :
    ∀ address ∈ s.otherUsers, ∀ cpu state scheduler,
      informUser cpu state (s.module.fresh parameters).machine.cpufreq.user scheduler address =
        scheduler := by
  intro address member cpu state scheduler
  have different : address ≠ seekerSchedulerUser := by
    rintro rfl
    exact sharing.stranger member
  have same : (s.module.fresh parameters).machine.cpufreq.user address =
      s.module.machine.cpufreq.user address := Function.update_of_ne different _ _
  rw [informUser_congr (congrArg ScpufreqUser.inform same)]
  exact sharing.quiet address member cpu state scheduler

theorem sharedStep_insmod (unloaded : s.inserted = none) (kernel : KernelAnswers)
    (allowedCpus : Int) (parameters : Scheduler) :
    sharedStep arch s (.insmod kernel allowedCpus parameters) =
      { s with
        module := (schedulerInit arch kernel allowedCpus (s.module.fresh parameters)).2
        inserted :=
          if (schedulerInit arch kernel allowedCpus (s.module.fresh parameters)).1 = 0 then
            some fun cpu => decide (cpu < kernel.numOnline) && kernel.enableCounters.reached cpu
          else none } := by
  simp only [sharedStep, unloaded]

/-- A load that fails before it has acquired anything. -/
theorem Sharing.refused (sharing : Sharing arch s) (unloaded : s.inserted = none)
    (parameters : Scheduler) (change : Scheduler → Scheduler) :
    Sharing arch
      { s with
        module := { s.module.fresh parameters with
          machine := (s.module.fresh parameters).machine.mapScheduler change }
        inserted := none } := by
  obtain ⟨users, _, counters⟩ := sharing.fresh unloaded parameters
  have list := sharing.list
  have held := sharing.held
  rw [unloaded] at list held
  exact sharing_unloaded users sharing.stranger list (sharing.quiet_fresh parameters) counters held

/-- The registry when the module has registered its user. -/
theorem Sharing.registered (sharing : Sharing arch s) (unloaded : s.inserted = none)
    {parameters : Scheduler} {c : Cpufreq Scheduler}
    (same : SameRegistry (s.module.fresh parameters).machine.cpufreq c)
    (unused : s.module.machine.cpufreq.currentHighestId ∉ s.module.machine.cpufreq.listedIds) :
    UsersKept (c.addUser seekerSchedulerUser) ∧
      ListsUsers true (c.addUser seekerSchedulerUser).userHead s.otherUsers ∧
      (∀ address ∈ s.otherUsers, ∀ cpu state scheduler, informUser cpu state
        (c.addUser seekerSchedulerUser).user scheduler address = scheduler) ∧
      ((c.addUser seekerSchedulerUser).user seekerSchedulerUser).inform =
        some seekerCpufreqInform := by
  obtain ⟨users, ids, _⟩ := sharing.fresh unloaded parameters
  have own : c.user seekerSchedulerUser = { inform := some seekerCpufreqInform, userId := 0 } := by
    rw [same.user]
    exact Function.update_self seekerSchedulerUser _ s.module.machine.cpufreq.user
  have absent : seekerSchedulerUser ∉ c.userHead := by
    rw [same.userHead]
    exact sharing.absent unloaded
  have freshId : c.currentHighestId ∉ c.listedIds := by
    unfold Cpufreq.listedIds
    rw [same.user, same.userHead, same.highest]
    show s.module.machine.cpufreq.currentHighestId ∉
      (s.module.fresh parameters).machine.cpufreq.listedIds
    rw [ids]
    exact unused
  refine ⟨(users.congr same).addUser (by rw [own]; rfl) absent freshId, ?_, ?_, ?_⟩
  · have list := sharing.list
    rw [unloaded] at list
    show ListsUsers true (c.userHead ++ [seekerSchedulerUser]) s.otherUsers
    rw [same.userHead]
    exact ListsUsers.enter list sharing.stranger
  · intro address member cpu state scheduler
    rw [informUser_congr (addUser_inform seekerSchedulerUser address c), same.user]
    exact sharing.quiet_fresh parameters address member cpu state scheduler
  · rw [addUser_inform, own]

/-- `configure_counters` claims two counters of each cpu it reaches. -/
theorem Sharing.configured (sharing : Sharing arch s) (unloaded : s.inserted = none)
    {kernel : KernelAnswers} (parameters : Scheduler)
    (counters : kernel.CountersGiven arch s.module.counters) (cpu : Nat) :
    HoldsCounters arch (decide (cpu < kernel.numOnline) && kernel.enableCounters.reached cpu)
      (s.others cpu) ((configureCounters arch kernel.numOnline kernel.enableCounters
        (s.module.fresh parameters).counters).2.pmu cpu) := by
  obtain ⟨_, _, holds⟩ := sharing.fresh unloaded parameters
  rw [configureCounters_pmu]
  by_cases reached : cpu < kernel.numOnline ∧ kernel.enableCounters.reached cpu = true
  · rw [if_pos reached, decide_eq_true reached.1, reached.2]
    exact (holds cpu).enable (counters.2 cpu reached.1 reached.2) false
  · have unclaimed : (decide (cpu < kernel.numOnline) && kernel.enableCounters.reached cpu) =
        false := by
      rw [Bool.and_eq_false_iff, decide_eq_false_iff_not, ← Bool.not_eq_true]
      exact not_and_or.mp reached
    rw [if_neg reached, unclaimed]
    exact holds cpu

/-- A load that everything is given to. -/
theorem Sharing.given (sharing : Sharing arch s) (unloaded : s.inserted = none)
    {kernel : KernelAnswers} (allowedCpus : Int) {parameters : Scheduler}
    (counters : kernel.CountersGiven arch s.module.counters) (log : kernel.LogGiven)
    (memory : kernel.memory = true)
    (unused : s.module.machine.cpufreq.currentHighestId ∉ s.module.machine.cpufreq.listedIds) :
    Sharing arch
      { s with
        module := { (s.module.fresh parameters).started arch kernel allowedCpus with
          held := acquiredObjects ++ (s.module.fresh parameters).held
          log := kernel.logBlock.map fun address => logInit address kernel.garbage }
        inserted := some fun cpu =>
          decide (cpu < kernel.numOnline) && kernel.enableCounters.reached cpu } := by
  have own : (s.module.fresh parameters).machine.cpufreq.user seekerSchedulerUser =
      { inform := some seekerCpufreqInform, userId := 0 } :=
    Function.update_self seekerSchedulerUser _ s.module.machine.cpufreq.user
  obtain ⟨c, same, registered⟩ := started_cpufreq arch memory allowedCpus
    (s.module.fresh parameters) (by rw [own]; rfl)
  obtain ⟨users, list, quiet, callback⟩ := sharing.registered unloaded same unused
  rw [← registered] at users list quiet callback
  have held := sharing.held
  rw [unloaded] at held
  refine ⟨users, sharing.stranger, list, quiet, fun _ => callback,
    sharing.configured unloaded parameters counters, ?_, ?_⟩
  · show acquiredObjects ++ s.module.held = acquiredObjects
    rw [show s.module.held = [] from held, List.append_nil]
  · intro _
    show (kernel.logBlock.map _).isSome = true
    rw [Option.isSome_map]
    exact log.2.2

/-- A load. -/
theorem Sharing.insmod (sharing : Sharing arch s) {kernel : KernelAnswers} {allowedCpus : Int}
    {parameters : Scheduler}
    (orderly : (SharedEvent.insmod kernel allowedCpus parameters).Orderly arch s) :
    Sharing arch (sharedStep arch s (.insmod kernel allowedCpus parameters)) := by
  cases loaded : s.inserted with
  | some claimed =>
    simp only [sharedStep, loaded]
    exact sharing
  | none =>
    obtain ⟨decided, unused⟩ := orderly
    rw [sharedStep_insmod loaded]
    by_cases known : (s.module.fresh parameters).machine.scheduler.MethodKnown
    swap
    · rw [schedulerInit_of_unknown known, if_neg (by decide : -enotsupp ≠ 0)]
      exact sharing.refused loaded parameters _
    by_cases stamped : kernel.initTsc < 0
    · rw [schedulerInit_of_tsc known stamped, if_neg (by decide : -enosys ≠ 0)]
      exact sharing.refused loaded parameters fun s =>
        limitCpus kernel.numOnline allowedCpus (disableForMethods s)
    · obtain ⟨counters, log, probes, memory⟩ :=
        (decided.resolve_left (not_not.mpr known)).resolve_left stamped
      rw [schedulerInit_of_given known stamped rfl counters log probes, if_pos rfl]
      exact sharing.given loaded allowedCpus counters log memory unused

end Loading

/-! ### The module while others work -/

section Working

variable {arch : Arch} {s : SharedKernel}

theorem stopMutator_frame (cancelled : Bool) (m : SchedulerModule) :
    (stopMutator cancelled m).machine.cpufreq = m.machine.cpufreq ∧
      (stopMutator cancelled m).counters = m.counters ∧
      (stopMutator cancelled m).held = m.held ∧ (stopMutator cancelled m).log = m.log := by
  unfold stopMutator
  split <;> exact ⟨rfl, rfl, rfl, rfl⟩

/-- `log_exit` gives back the last of what the module holds. -/
theorem exitLog_held {m : SchedulerModule} (log : m.log.isSome = true)
    (held : m.held = acquiredObjects) : (exitLog (removeProbes m)).held = [] := by
  have made : (removeProbes m).log.isSome = true := log
  unfold exitLog
  rw [if_pos made]
  show [KernelObject.logDevice, .logBlock, .logCache].foldl List.erase
    ([Probe.schedulerTick, .schedFork, .schedule, .switchTo, .releaseThread].foldl
      (fun held which => held.erase (.probe which)) m.held) = []
  rw [held]
  decide

theorem exitLog_frame (m : SchedulerModule) :
    (exitLog m).machine = m.machine ∧ (exitLog m).counters = m.counters := by
  unfold exitLog
  split <;> exact ⟨rfl, rfl⟩

/-- What `scheduler_exit` does to the registry and the counters, which outlive the module. -/
theorem schedulerExit_outlasts (arch : Arch) (numOnline : Nat) (reached : Nat → Bool)
    (cancelled : Bool) (m : SchedulerModule) :
    (schedulerExit arch numOnline reached cancelled m).machine.cpufreq =
        (deregisterScpufreqUser (some seekerSchedulerUser) m.machine.cpufreq).2 ∧
      (schedulerExit arch numOnline reached cancelled m).counters =
        exitCounters arch numOnline reached m.counters := by
  have stopped := stopMutator_frame cancelled (exitCpuStates m)
  have logged := exitLog_frame (removeProbes (stopMutator cancelled (exitCpuStates m)))
  constructor
  · show (exitLog (removeProbes (stopMutator cancelled (exitCpuStates m)))).machine.cpufreq = _
    rw [logged.1]
    exact stopped.1
  · show exitCounters arch numOnline reached
      (exitLog (removeProbes (stopMutator cancelled (exitCpuStates m)))).counters = _
    rw [logged.2]
    exact congrArg (exitCounters arch numOnline reached) stopped.2.1

/-- What the module holds alone is gone after `scheduler_exit`. -/
theorem schedulerExit_nothingHeld (arch : Arch) (numOnline : Nat) (reached : Nat → Bool)
    (cancelled : Bool) {m : SchedulerModule} (log : m.log.isSome = true)
    (held : m.held = acquiredObjects) :
    (schedulerExit arch numOnline reached cancelled m).held = [] := by
  have stopped := stopMutator_frame cancelled (exitCpuStates m)
  refine exitLog_held ?_ ?_
  · rw [stopped.2.2.2]
    exact log
  · exact stopped.2.2.1.trans held

/-- `exit_counters` gives back the counters of each cpu on which the module has claimed some. -/
theorem Sharing.disabled (sharing : Sharing arch s) {claimed : Nat → Bool}
    (loaded : s.inserted = some claimed) {numOnline : Nat} {reached : Nat → Bool} {cpu : Nat}
    (agrees : cpu < numOnline ∧ reached cpu = true ↔ claimed cpu = true) :
    HoldsCounters arch false (s.others cpu)
      ((exitCounters arch numOnline reached s.module.counters).pmu cpu) := by
  have holds := sharing.claims loaded cpu
  rw [exitCounters_pmu]
  by_cases here : cpu < numOnline ∧ reached cpu = true
  · rw [if_pos here]
    rw [show claimed cpu = true from agrees.mp here] at holds
    exact holds.disable
  · rw [if_neg here]
    rwa [show claimed cpu = false from
      Bool.eq_false_iff.mpr fun own => here (agrees.mpr own)] at holds

/-- An unloading gives everything back. -/
theorem Sharing.rmmod (sharing : Sharing arch s) {numOnline : Nat} {reached : Nat → Bool}
    {cancelled : Bool} (orderly : (SharedEvent.rmmod numOnline reached cancelled).Orderly arch s) :
    Sharing arch (sharedStep arch s (.rmmod numOnline reached cancelled)) := by
  cases loaded : s.inserted with
  | none =>
    simp only [sharedStep, loaded]
    exact sharing
  | some claimed =>
    have isLoaded : s.inserted.isSome = true := by rw [loaded]; rfl
    have list := sharing.list
    have held := sharing.held
    rw [isLoaded] at list held
    obtain ⟨listed, rest⟩ :
        seekerSchedulerUser ∈ s.module.machine.cpufreq.userHead ∧
          s.module.machine.cpufreq.userHead.erase seekerSchedulerUser = s.otherUsers := list
    obtain ⟨unlinked, users⟩ := sharing.users.deregister listed
    obtain ⟨cpufreq, counters⟩ := schedulerExit_outlasts arch numOnline reached cancelled s.module
    have nothing :=
      schedulerExit_nothingHeld arch numOnline reached cancelled (sharing.log isLoaded) held
    rw [unlinked] at cpufreq
    simp only [sharedStep, loaded]
    refine sharing_unloaded ?_ sharing.stranger ?_ ?_ ?_ nothing
    · rw [cpufreq]
      exact users
    · rw [cpufreq]
      exact rest
    · rw [cpufreq]
      exact sharing.quiet
    · intro cpu
      rw [counters]
      exact sharing.disabled loaded (orderly claimed loaded cpu)

theorem sharedStep_rmmod_inserted (s : SharedKernel) (numOnline : Nat) (reached : Nat → Bool)
    (cancelled : Bool) :
    (sharedStep arch s (.rmmod numOnline reached cancelled)).inserted = none := by
  cases loaded : s.inserted with
  | none =>
    simp only [sharedStep, loaded]
  | some claimed =>
    simp only [sharedStep, loaded]

/-- The module works. -/
theorem Sharing.work (sharing : Sharing arch s) (scheduler : Scheduler) (pending : Bool)
    (log : LogQueue) : Sharing arch (sharedStep arch s (.work scheduler pending log)) := by
  cases loaded : s.inserted with
  | none =>
    simp only [sharedStep, loaded]
    exact sharing
  | some claimed =>
    simp only [sharedStep, loaded]
    have list := sharing.list
    have held := sharing.held
    rw [loaded] at list held
    exact ⟨sharing.users, sharing.stranger, list, sharing.quiet,
      fun _ => sharing.callback (by rw [loaded]; rfl), sharing.claims loaded, held,
      fun _ => rfl⟩

/-- Another module claims or gives back a counter of one cpu. -/
theorem Sharing.setPmu (sharing : Sharing arch s) {cpu : Nat} {p : CpuPmu} {row : Nat → Bool}
    (holds : HoldsCounters arch (s.claimed cpu) row p) :
    Sharing arch
      { s with module := s.module.setPmu cpu p, others := Function.update s.others cpu row } where
  users := sharing.users
  stranger := sharing.stranger
  list := sharing.list
  quiet := sharing.quiet
  callback := sharing.callback
  counters other := by
    show HoldsCounters arch (s.claimed other) (Function.update s.others cpu row other)
      (Function.update s.module.counters.pmu cpu p other)
    by_cases same : other = cpu
    · rw [same, Function.update_self, Function.update_self]
      exact holds
    · rw [Function.update_of_ne same, Function.update_of_ne same]
      exact sharing.counters other
  held := sharing.held
  log := sharing.log

theorem Sharing.counterEnable (sharing : Sharing arch s) (cpu : Nat) :
    Sharing arch (sharedStep arch s (.counterEnable cpu)) := by
  have stepped := sharing.setPmu (sharing.counters cpu).counterEnable
  have others : (if (Seeker.counterEnable arch (s.module.counters.pmu cpu)).1 < 0 then s.others
      else Function.update s.others cpu (Function.update (s.others cpu)
        (Seeker.counterEnable arch (s.module.counters.pmu cpu)).1.toNat true)) =
      Function.update s.others cpu
        (if (Seeker.counterEnable arch (s.module.counters.pmu cpu)).1 < 0 then s.others cpu
        else Function.update (s.others cpu)
          (Seeker.counterEnable arch (s.module.counters.pmu cpu)).1.toNat true) := by
    split
    · exact (Function.update_eq_self cpu s.others).symm
    · rfl
  simp only [sharedStep]
  rw [others]
  exact stepped

/-- Another module registers a user. -/
theorem Sharing.register (sharing : Sharing arch s) {memory : Bool} {address : Nat}
    (orderly : (SharedEvent.register memory address).Orderly arch s) :
    Sharing arch (sharedStep arch s (.register memory address)) := by
  obtain ⟨callback, different, foreign, quiet, unused⟩ := orderly
  cases memory with
  | false =>
    simp only [sharedStep, registerScpufreqUser, createUser_of_no_memory callback]
    rw [if_neg (by decide : errUserMemLow ≠ 0)]
    exact sharing
  | true =>
    simp only [sharedStep, registerScpufreqUser, createUser_of_memory callback, if_true]
    have absent : address ∉ s.module.machine.cpufreq.userHead :=
      (sharing.list.mem_iff different).not.mpr foreign
    refine ⟨sharing.users.addUser callback absent (unused rfl), ?_, sharing.list.append address,
      ?_, ?_, sharing.counters, sharing.held, sharing.log⟩
    · intro member
      rcases List.mem_append.mp member with earlier | last
      · exact sharing.stranger earlier
      · exact different (List.mem_singleton.mp last).symm
    · intro other member cpu state scheduler
      show informUser cpu state (s.module.machine.cpufreq.addUser address).user scheduler other = _
      rw [informUser_congr (addUser_inform address other s.module.machine.cpufreq)]
      rcases List.mem_append.mp member with earlier | last
      · exact sharing.quiet other earlier cpu state scheduler
      · rw [List.mem_singleton.mp last]
        exact quiet cpu state scheduler
    · intro loaded
      show ((s.module.machine.cpufreq.addUser address).user seekerSchedulerUser).inform = _
      rw [addUser_inform]
      exact sharing.callback loaded

/-- Another module deregisters one of its users. -/
theorem Sharing.deregister (sharing : Sharing arch s) {address : Nat}
    (orderly : (SharedEvent.deregister address).Orderly arch s) :
    Sharing arch (sharedStep arch s (.deregister address)) := by
  have different : address ≠ seekerSchedulerUser := by
    rintro rfl
    exact sharing.stranger orderly
  obtain ⟨unlinked, users⟩ :=
    sharing.users.deregister ((sharing.list.mem_iff different).mpr orderly)
  simp only [sharedStep]
  rw [unlinked]
  exact ⟨users, fun member => sharing.stranger (List.mem_of_mem_erase member),
    sharing.list.erase different,
    fun other member => sharing.quiet other (List.mem_of_mem_erase member), sharing.callback,
    sharing.counters, sharing.held, sharing.log⟩

/-- Somebody changes a frequency. -/
theorem Sharing.setFreq (sharing : Sharing arch s) (driver : Driver) (locking : Locking)
    (cpu freqInd : Nat) :
    Sharing arch (sharedStep arch s (.setFreq driver locking cpu freqInd)) := by
  have same := sameRegistry_internalSetFreq driver locking cpu freqInd s.module.machine.cpufreq
    s.module.machine.scheduler
  refine ⟨sharing.users.congr same, sharing.stranger, ?_, ?_, ?_, sharing.counters, sharing.held,
    sharing.log⟩
  · show ListsUsers _ (internalSetFreq driver locking cpu freqInd s.module.machine.cpufreq
      s.module.machine.scheduler).2.1.userHead _
    rw [same.userHead]
    exact sharing.list
  · show ∀ address ∈ s.otherUsers, ∀ cpu' state scheduler, informUser cpu' state
      (internalSetFreq driver locking cpu freqInd s.module.machine.cpufreq
        s.module.machine.scheduler).2.1.user scheduler address = scheduler
    rw [same.user]
    exact sharing.quiet
  · intro loaded
    show ((internalSetFreq driver locking cpu freqInd s.module.machine.cpufreq
      s.module.machine.scheduler).2.1.user seekerSchedulerUser).inform = _
    rw [same.user]
    exact sharing.callback loaded

/-- One orderly event. -/
theorem Sharing.step (sharing : Sharing arch s) {event : SharedEvent}
    (orderly : event.Orderly arch s) : Sharing arch (sharedStep arch s event) := by
  cases event with
  | insmod kernel allowedCpus parameters => exact sharing.insmod orderly
  | rmmod numOnline reached cancelled => exact sharing.rmmod orderly
  | work scheduler pending log => exact sharing.work scheduler pending log
  | counterEnable cpu => exact sharing.counterEnable cpu
  | counterDisable cpu counter =>
    exact sharing.setPmu ((sharing.counters cpu).counterDisable orderly)
  | register memory address => exact sharing.register orderly
  | deregister address => exact sharing.deregister orderly
  | setFreq driver locking cpu freqInd => exact sharing.setFreq driver locking cpu freqInd

end Working

/-! ### Runs -/

theorem Sharing.start (arch : Arch) (m : SchedulerModule) :
    Sharing arch (SharedKernel.start m) :=
  sharing_unloaded ⟨List.nodup_nil, fun _ member => absurd member List.not_mem_nil⟩
    List.not_mem_nil rfl (fun _ member => absurd member List.not_mem_nil)
    (fun _ => holdsCounters_false (fun _ taken => absurd taken Bool.false_ne_true) rfl rfl) rfl

/-- The module holds nothing: the enabled counters and the registered users are those of the other
modules. -/
structure GivenBack (s : SharedKernel) : Prop where
  counters : ∀ cpu, (s.module.counters.pmu cpu).enabled = s.others cpu ∧
    (s.module.counters.pmu cpu).fixedEnabled = false
  users : s.module.machine.cpufreq.userHead = s.otherUsers
  held : s.module.held = []

/-- Another module claims a counter, and the module comes and goes on two cpus. -/
def comeAndGo : List SharedEvent :=
  [.counterEnable 0, .insmod (answeringKernel true fun _ => true) 0 freshModule.machine.scheduler,
    .rmmod 2 (fun _ => true) true]

end Seeker
