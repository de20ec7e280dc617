/-
This file embeds the five exported operations of `freq.c` on a cpu's performance
number, and compares them with a register.

The number a cpu is at is cached in `cur_freq`, which `init_freqs` sets to "not
known" and which no operation writes afterwards. So the operations that read it
never learn of a change. The file proves that they behave as a register exactly as
long as no change has been made.
-/
import Mathlib.Data.List.Basic
import Seeker.FreqTable
import Seeker.Library.Exec
import Seeker.Machine

namespace Seeker

variable {World : Type}

/-! ### The operations -/

/-- `get_freq`. Its result is unsigned, and so is the cpu it compares with `0`. -/
def getFreq (cpu : Nat) (c : Cpufreq World) : Nat :=
  if (c.freqInfo cpu).curFreq ≠ uintMax then (c.freqInfo cpu).curFreq else uintMax

/-- `inc_freq`, in unsigned arithmetic. -/
def incFreq (driver : Driver) (cpu : Nat) (c : Cpufreq World) (world : World) :
    Int × Cpufreq World × World :=
  if (c.freqInfo cpu).curFreq = ((c.freqInfo cpu).numStates + uintMax) % 2 ^ 32 then (0, c, world)
  else
    internalSetFreq driver .driverTargetLocking cpu (((c.freqInfo cpu).curFreq + 1) % 2 ^ 32) c
      world

/-- `dec_freq`, in unsigned arithmetic. -/
def decFreq (driver : Driver) (cpu : Nat) (c : Cpufreq World) (world : World) :
    Int × Cpufreq World × World :=
  if (c.freqInfo cpu).curFreq = 0 then (0, c, world)
  else
    internalSetFreq driver .driverTargetLocking cpu (((c.freqInfo cpu).curFreq + uintMax) % 2 ^ 32)
      c world

/-- A call of `set_freq`, `__set_freq`, `inc_freq` or `dec_freq`. -/
inductive FreqCall where
  | setFreq (cpu freqInd : Nat)
  | setFreqNonlocking (cpu freqInd : Nat)
  | incFreq (cpu : Nat)
  | decFreq (cpu : Nat)
  deriving DecidableEq, Repr

/-- The call. -/
def FreqCall.perform (driver : Driver) (c : Cpufreq World) (world : World) :
    FreqCall → Int × Cpufreq World × World
  | .setFreq cpu freqInd => internalSetFreq driver .driverTargetLocking cpu freqInd c world
  | .setFreqNonlocking cpu freqInd =>
      internalSetFreq driver .driverTargetNonlocking cpu freqInd c world
  | .incFreq cpu => Seeker.incFreq driver cpu c world
  | .decFreq cpu => Seeker.decFreq driver cpu c world

/-- The cpu of a call. -/
def FreqCall.cpu : FreqCall → Nat
  | .setFreq cpu _ => cpu
  | .setFreqNonlocking cpu _ => cpu
  | .incFreq cpu => cpu
  | .decFreq cpu => cpu

/-- The index a call hands to `internal_set_freq`, or `none` where it returns `0` at once. -/
def FreqCall.request (info : FreqInfo) : FreqCall → Option Nat
  | .setFreq _ freqInd => some freqInd
  | .setFreqNonlocking _ freqInd => some freqInd
  | .incFreq _ =>
      if info.curFreq = (info.numStates + uintMax) % 2 ^ 32 then none
      else some ((info.curFreq + 1) % 2 ^ 32)
  | .decFreq _ =>
      if info.curFreq = 0 then none else some ((info.curFreq + uintMax) % 2 ^ 32)

/-- Every call does nothing, or is a request to `internal_set_freq`. -/
theorem FreqCall.perform_cases (driver : Driver) (c : Cpufreq World) (world : World)
    (call : FreqCall) :
    (call.request (c.freqInfo call.cpu) = none ∧ call.perform driver c world = (0, c, world)) ∨
      ∃ locking freqInd, call.request (c.freqInfo call.cpu) = some freqInd ∧
        call.perform driver c world =
          internalSetFreq driver locking call.cpu freqInd c world := by
  cases call with
  | setFreq cpu freqInd => exact Or.inr ⟨.driverTargetLocking, freqInd, rfl, rfl⟩
  | setFreqNonlocking cpu freqInd => exact Or.inr ⟨.driverTargetNonlocking, freqInd, rfl, rfl⟩
  | incFreq cpu =>
    by_cases highest :
        (c.freqInfo cpu).curFreq = ((c.freqInfo cpu).numStates + uintMax) % 2 ^ 32
    · exact Or.inl ⟨if_pos highest, if_pos highest⟩
    · exact Or.inr ⟨.driverTargetLocking, _, if_neg highest, if_neg highest⟩
  | decFreq cpu =>
    by_cases lowest : (c.freqInfo cpu).curFreq = 0
    · exact Or.inl ⟨if_pos lowest, if_pos lowest⟩
    · exact Or.inr ⟨.driverTargetLocking, _, if_neg lowest, if_neg lowest⟩

/-- `gov_init_freq_info_cpu`. -/
def govInitFreqInfoCpu (cpu : Nat) (policy : Policy) (c : Cpufreq World) : Cpufreq World :=
  { c with
    freqInfo := Function.update c.freqInfo cpu { c.freqInfo cpu with policy := some policy } }

/-! ### Runs -/

/-- The module, the users' state, and the index that was last set on each cpu, which nothing in
the code reads. -/
structure FreqRegister (World : Type) where
  cpufreq : Cpufreq World
  world : World
  lastSet : Nat → Option Nat

/-- A call, and what the driver answers to it. -/
structure FreqEvent where
  driver : Driver
  call : FreqCall

/-- The driver accepts the request of the call. -/
def Driver.AcceptsAll (driver : Driver) : Prop := ∀ locking, driverResult driver locking = 0

/-- One call. -/
def freqStep (r : FreqRegister World) (event : FreqEvent) : FreqRegister World :=
  let result := event.call.perform event.driver r.cpufreq r.world
  { cpufreq := result.2.1
    world := result.2.2
    lastSet :=
      match event.call.request (r.cpufreq.freqInfo event.call.cpu) with
      | none => r.lastSet
      | some freqInd =>
        if result.1 = 0 then Function.update r.lastSet event.call.cpu (some freqInd)
        else r.lastSet }

/-- A cpu's performance number behaves as a register of that many values. -/
structure RegisterLaw (cpu numStates : Nat) (r : FreqRegister World) : Prop where
  get : ∀ index, r.lastSet cpu = some index → getFreq cpu r.cpufreq = index
  inc : ∀ index, r.lastSet cpu = some index → ∀ driver : Driver, driver.AcceptsAll →
    (freqStep r ⟨driver, .incFreq cpu⟩).lastSet cpu = some (min (index + 1) (numStates - 1))
  dec : ∀ index, r.lastSet cpu = some index → ∀ driver : Driver, driver.AcceptsAll →
    (freqStep r ⟨driver, .decFreq cpu⟩).lastSet cpu = some (index - 1)
  outside : ∀ index, numStates ≤ index → ∀ (driver : Driver) (locking : Locking),
    (internalSetFreq driver locking cpu index r.cpufreq r.world).1 ≠ 0 ∧
      (internalSetFreq driver locking cpu index r.cpufreq r.world).2 = (r.cpufreq, r.world)

/-- The call sets the performance number of a cpu with that many states. -/
def FreqCall.Sets (cpu numStates : Nat) : FreqCall → Prop
  | .setFreq other freqInd => other = cpu ∧ freqInd < numStates
  | .setFreqNonlocking other freqInd => other = cpu ∧ freqInd < numStates
  | .incFreq other => other = cpu
  | .decFreq _ => False

instance (cpu numStates : Nat) (call : FreqCall) : Decidable (call.Sets cpu numStates) :=
  match call with
  | .setFreq _ _ => inferInstanceAs (Decidable (_ ∧ _))
  | .setFreqNonlocking _ _ => inferInstanceAs (Decidable (_ ∧ _))
  | .incFreq _ => inferInstanceAs (Decidable (_ = _))
  | .decFreq _ => isFalse id

/-! ### The cached number -/

/-- The number a cpu is at is not known, its governor is started, and it has some states. -/
structure Uncached (cpu numStates : Nat) (c : Cpufreq World) : Prop where
  exists_cpu : cpu < c.nrCpus
  unknown : (c.freqInfo cpu).Unknown
  numStates : (c.freqInfo cpu).numStates = numStates
  started : (c.freqInfo cpu).policy.isSome

section Uncached

variable {cpu numStates : Nat} {c : Cpufreq World}

/-- No change tells the cached number of it. -/
theorem Uncached.internalSetFreq (uncached : Uncached cpu numStates c) (driver : Driver)
    (locking : Locking) (other freqInd : Nat) (world : World) :
    Uncached cpu numStates (internalSetFreq driver locking other freqInd c world).2.1 := by
  rcases internalSetFreq_cpufreq driver locking other freqInd c world with same | ⟨_, written⟩
  · rw [same]
    exact uncached
  · rw [written]
    by_cases mine : cpu = other
    · subst mine
      have info : ((c.setPolicyCur cpu ((c.freqInfo cpu).table freqInd)).freqInfo cpu) =
          { c.freqInfo cpu with policy := some { cur := (c.freqInfo cpu).table freqInd } } :=
        Function.update_self ..
      refine ⟨uncached.exists_cpu, ?_, ?_, ?_⟩
      · rw [info]
        exact ⟨uncached.unknown.curFreq, uncached.unknown.numStates⟩
      · rw [info]
        exact uncached.numStates
      · rw [info]
        rfl
    · have info : ((c.setPolicyCur other ((c.freqInfo other).table freqInd)).freqInfo cpu) =
          c.freqInfo cpu := Function.update_of_ne mine ..
      exact ⟨uncached.exists_cpu, info ▸ uncached.unknown, info ▸ uncached.numStates,
        info ▸ uncached.started⟩

theorem Uncached.perform (uncached : Uncached cpu numStates c) (driver : Driver)
    (call : FreqCall) (world : World) :
    Uncached cpu numStates (call.perform driver c world).2.1 := by
  rcases call.perform_cases driver c world with ⟨_, nothing⟩ | ⟨locking, freqInd, _, performed⟩
  · rw [nothing]
    exact uncached
  · rw [performed]
    exact uncached.internalSetFreq driver locking call.cpu freqInd world

theorem Uncached.getFreq (uncached : Uncached cpu numStates c) : getFreq cpu c = uintMax := by
  unfold Seeker.getFreq
  rw [uncached.unknown.curFreq]
  exact if_neg (not_not.mpr rfl)

/-- `inc_freq` takes the number that is not known for the one below `0`. -/
theorem Uncached.request_incFreq (uncached : Uncached cpu numStates c)
    (someState : 1 ≤ numStates) : (FreqCall.incFreq cpu).request (c.freqInfo cpu) = some 0 := by
  have small := uncached.unknown.numStates
  have count := uncached.numStates
  have notHighest :
      (c.freqInfo cpu).curFreq ≠ ((c.freqInfo cpu).numStates + uintMax) % 2 ^ 32 := by
    rw [uncached.unknown.curFreq]
    simp only [uintMax, maxStates] at *
    omega
  refine (if_neg notHighest).trans ?_
  rw [uncached.unknown.curFreq]
  rfl

/-- `dec_freq` takes it for a number above all states. -/
theorem Uncached.request_decFreq (uncached : Uncached cpu numStates c) :
    (FreqCall.decFreq cpu).request (c.freqInfo cpu) = some (2 ^ 32 - 2) := by
  have notLowest : (c.freqInfo cpu).curFreq ≠ 0 := by
    rw [uncached.unknown.curFreq]
    decide
  refine (if_neg notLowest).trans ?_
  rw [uncached.unknown.curFreq]
  rfl

theorem Uncached.accepts_iff (uncached : Uncached cpu numStates c) {driver : Driver}
    (accepting : driver.AcceptsAll) (locking : Locking) (freqInd : Nat) :
    Accepts driver locking cpu freqInd c ↔ freqInd < numStates := by
  unfold Accepts
  rw [uncached.numStates]
  simp only [uncached.exists_cpu, uncached.started, accepting locking, true_and, and_true]

end Uncached

/-! ### The register law -/

section Law

variable {cpu numStates : Nat} {r : FreqRegister World}

/-- The last index set on a cpu changes with a request for one of its states. -/
theorem freqStep_lastSet (uncached : Uncached cpu numStates r.cpufreq) {event : FreqEvent}
    (accepting : event.driver.AcceptsAll) :
    (freqStep r event).lastSet cpu =
      match event.call.request (r.cpufreq.freqInfo event.call.cpu) with
      | none => r.lastSet cpu
      | some freqInd =>
        if event.call.cpu = cpu ∧ freqInd < numStates then some freqInd else r.lastSet cpu := by
  unfold freqStep
  rcases event.call.perform_cases event.driver r.cpufreq r.world with
    ⟨none, _⟩ | ⟨locking, freqInd, request, performed⟩
  · dsimp only
    rw [none]
  · dsimp only
    rw [request, performed]
    dsimp only
    by_cases mine : event.call.cpu = cpu
    · rw [mine]
      have set : (internalSetFreq event.driver locking cpu freqInd r.cpufreq r.world).1 = 0 ↔
          freqInd < numStates :=
        internalSetFreq_eq_zero_iff.trans (uncached.accepts_iff accepting locking freqInd)
      by_cases small : freqInd < numStates
      · rw [if_pos (set.mpr small), Function.update_self, if_pos ⟨rfl, small⟩]
      · rw [if_neg (fun zero => small (set.mp zero)), if_neg fun both => small both.2]
    · have notMine : ¬ (event.call.cpu = cpu ∧ freqInd < numStates) := fun both => mine both.1
      rw [if_neg notMine]
      by_cases set :
          (internalSetFreq event.driver locking event.call.cpu freqInd r.cpufreq r.world).1 = 0
      · rw [if_pos set, Function.update_of_ne (Ne.symm mine)]
      · rw [if_neg set]

/-- Whether a call sets the number of a cpu is a matter of its arguments only. -/
theorem freqStep_sets (uncached : Uncached cpu numStates r.cpufreq) (someState : 1 ≤ numStates)
    {event : FreqEvent} (accepting : event.driver.AcceptsAll) :
    (event.call.Sets cpu numStates →
        ∃ index, index < numStates ∧ (freqStep r event).lastSet cpu = some index) ∧
      (¬ event.call.Sets cpu numStates → (freqStep r event).lastSet cpu = r.lastSet cpu) := by
  have step := freqStep_lastSet uncached accepting
  obtain ⟨driver, call⟩ := event
  cases call with
  | setFreq other freqInd =>
    exact ⟨fun sets => ⟨freqInd, sets.2, step.trans (if_pos sets)⟩,
      fun unset => step.trans (if_neg unset)⟩
  | setFreqNonlocking other freqInd =>
    exact ⟨fun sets => ⟨freqInd, sets.2, step.trans (if_pos sets)⟩,
      fun unset => step.trans (if_neg unset)⟩
  | incFreq other =>
    refine ⟨?_, fun unset => ?_⟩
    · rintro rfl
      refine ⟨0, someState, step.trans ?_⟩
      show (match (FreqCall.incFreq other).request (r.cpufreq.freqInfo other) with
        | none => r.lastSet other
        | some freqInd =>
          if other = other ∧ freqInd < numStates then some freqInd else r.lastSet other) = some 0
      rw [uncached.request_incFreq someState]
      exact if_pos ⟨rfl, someState⟩
    · rw [step]
      split
      · rfl
      · exact if_neg fun both => unset both.1
  | decFreq other =>
    refine ⟨False.elim, fun _ => ?_⟩
    rw [step]
    split
    · rfl
    · rename_i freqInd request
      refine if_neg fun both => ?_
      obtain ⟨mine, small⟩ := both
      obtain rfl : other = cpu := mine
      have few := uncached.unknown.numStates
      rw [uncached.numStates] at few
      obtain rfl := Option.some.inj (uncached.request_decFreq.symm.trans request)
      simp only [maxStates] at few
      omega

/-- What a run keeps: the cached number is not known, the last index set is one of the cpu's
states, and one has been set exactly if one was set before or a call has set one. -/
theorem freqRun_spec (someState : 1 ≤ numStates) (events : List FreqEvent)
    (accepting : ∀ event ∈ events, event.driver.AcceptsAll) {r : FreqRegister World}
    (uncached : Uncached cpu numStates r.cpufreq)
    (within : ∀ index, r.lastSet cpu = some index → index < numStates) :
    Uncached cpu numStates (Exec.run freqStep r events).cpufreq ∧
      (∀ index, (Exec.run freqStep r events).lastSet cpu = some index → index < numStates) ∧
      ((Exec.run freqStep r events).lastSet cpu = none ↔
        r.lastSet cpu = none ∧ ∀ event ∈ events, ¬ event.call.Sets cpu numStates) := by
  induction events generalizing r with
  | nil => exact ⟨uncached, within, by simp⟩
  | cons event rest inductionHypothesis =>
    have next : Uncached cpu numStates (freqStep r event).cpufreq :=
      uncached.perform event.driver event.call r.world
    have later : ∀ event ∈ rest, event.driver.AcceptsAll :=
      fun other member => accepting other (List.mem_cons_of_mem _ member)
    obtain ⟨sets, leaves⟩ :=
      freqStep_sets uncached someState (accepting event List.mem_cons_self)
    by_cases setting : event.call.Sets cpu numStates
    · obtain ⟨index, small, set⟩ := sets setting
      obtain ⟨kept, inTable, noneIff⟩ := inductionHypothesis later next (by
        intro other same
        obtain rfl := Option.some.inj (set.symm.trans same)
        exact small)
      refine ⟨kept, inTable, ?_⟩
      rw [Exec.run_cons, noneIff, List.forall_mem_cons, set]
      simp [setting]
    · obtain ⟨kept, inTable, noneIff⟩ := inductionHypothesis later next (by
        rw [leaves setting]
        exact within)
      refine ⟨kept, inTable, ?_⟩
      rw [Exec.run_cons, noneIff, List.forall_mem_cons, leaves setting]
      simp [setting]

/-- The law holds exactly while nothing has been set on the cpu. -/
theorem registerLaw_iff (uncached : Uncached cpu numStates r.cpufreq)
    (reached : ∀ index, r.lastSet cpu = some index → index < numStates) :
    RegisterLaw cpu numStates r ↔ r.lastSet cpu = none := by
  refine ⟨fun law => ?_, fun unset => ?_⟩
  · by_contra set
    obtain ⟨index, set⟩ := Option.ne_none_iff_exists'.mp set
    have get := law.get index set
    have small := reached index set
    have few := uncached.unknown.numStates
    rw [uncached.getFreq] at get
    rw [uncached.numStates] at few
    simp only [uintMax, maxStates] at get few
    omega
  · have never : ∀ index, r.lastSet cpu ≠ some index := by
      intro index set
      rw [unset] at set
      cases set
    refine ⟨fun index set => absurd set (never index), fun index set => absurd set (never index),
      fun index set => absurd set (never index), fun index outside driver locking => ?_⟩
    have refused : internalSetFreq driver locking cpu index r.cpufreq r.world =
        (-1, r.cpufreq, r.world) := by
      unfold internalSetFreq
      rw [if_pos (Or.inr (by rw [uncached.numStates]; exact outside))]
    rw [refused]
    exact ⟨(by decide : (-1 : Int) ≠ 0), rfl⟩

end Law

/-- The governor is started on every online cpu. -/
def startGovernors (cpus : Nat) (policy : Nat → Policy) (c : Cpufreq World) : Cpufreq World :=
  Loops.forRange cpus (fun cpu c => govInitFreqInfoCpu cpu (policy cpu) c) c

/-- The module after `init_freqs` and the start of the governors, before the first call. -/
def FreqRegister.start (f : FreqModule) (cpus : Nat) (policy : Nat → Policy)
    (c : Cpufreq World) (world : World) : FreqRegister World where
  cpufreq := startGovernors cpus policy { c with freqInfo := f.freqInfo }
  world := world
  lastSet _ := none

/-- Starting the governors writes the policies and nothing else. -/
theorem startGovernors_spec (cpus : Nat) (policy : Nat → Policy) (c : Cpufreq World) :
    (startGovernors cpus policy c).nrCpus = c.nrCpus ∧
      ∀ cpu, (startGovernors cpus policy c).freqInfo cpu =
        if cpu < cpus then { c.freqInfo cpu with policy := some (policy cpu) }
        else c.freqInfo cpu := by
  constructor
  · exact Loops.forRange_induction (fun _ (current : Cpufreq World) => current.nrCpus = c.nrCpus)
      rfl fun _ _ _ same => same
  · intro cpu
    exact Loops.forRange_cells (fun current : Cpufreq World => current.freqInfo)
      (fun cpu info => { info with policy := some (policy cpu) })
      (fun _ _ => Function.update_self ..) (fun _ _ _ other => Function.update_of_ne other ..)
      cpus c cpu

/-- After `init_freqs` and the start of the governors, and for every run of calls that the driver
accepts: the number of a cpu with at least one state behaves as a register exactly if no call of
the run has set it. -/
theorem frequency_register_iff {f f' : FreqModule} {fuel cpus : Nat}
    {frequencyTable : Nat → List Nat}
    (initialised : initFreqs fuel frequencyTable cpus f = some f') (c : Cpufreq World)
    (world : World) (within : cpus ≤ c.nrCpus) (policy : Nat → Policy) {cpu : Nat}
    (online : cpu < cpus) (someState : 1 ≤ (f'.freqInfo cpu).numStates)
    (events : List FreqEvent) (accepting : ∀ event ∈ events, event.driver.AcceptsAll) :
    RegisterLaw cpu (f'.freqInfo cpu).numStates
        (Exec.run freqStep (FreqRegister.start f' cpus policy c world) events) ↔
      ∀ event ∈ events, ¬ event.call.Sets cpu (f'.freqInfo cpu).numStates := by
  have unknown := initFreqs_unknown initialised cpu online
  obtain ⟨nrCpus, started⟩ :=
    startGovernors_spec cpus policy { c with freqInfo := f'.freqInfo }
  have info : (startGovernors cpus policy { c with freqInfo := f'.freqInfo }).freqInfo cpu =
      { f'.freqInfo cpu with policy := some (policy cpu) } := by
    rw [started cpu, if_pos online]
  have uncached : Uncached cpu (f'.freqInfo cpu).numStates
      (FreqRegister.start f' cpus policy c world).cpufreq := by
    refine ⟨?_, ?_, ?_, ?_⟩
    · show cpu < (startGovernors cpus policy { c with freqInfo := f'.freqInfo }).nrCpus
      rw [nrCpus]
      exact Nat.lt_of_lt_of_le online within
    · show ((startGovernors cpus policy _).freqInfo cpu).Unknown
      rw [info]
      exact ⟨unknown.curFreq, unknown.numStates⟩
    · show ((startGovernors cpus policy _).freqInfo cpu).numStates = _
      rw [info]
    · show ((startGovernors cpus policy _).freqInfo cpu).policy.isSome
      rw [info]
      rfl
  obtain ⟨kept, inTable, noneIff⟩ := freqRun_spec someState events accepting uncached
    fun index set => by cases set
  rw [registerLaw_iff kept inTable, noneIff]
  exact and_iff_right rfl

/-- The module after `init_freqs` on a cpu with two frequencies. -/
def twoStateModule : FreqModule := unreadModule.fillCpu [2000, 1000] 0

/-- One cpu, no users. -/
def bareCpufreq : Cpufreq Unit where
  nrCpus := 1
  freqInfo := unreadModule.freqInfo
  user _ := { inform := none, userId := 0 }
  userHead := []
  currentHighestId := 0

theorem twoStateModule_initialised :
    initFreqs 0 (fun _ => [2000, 1000]) 1 unreadModule = some twoStateModule := rfl

/-- Requests that do not exist set nothing. -/
theorem frequency_register_iff_unset :
    1 ≤ (twoStateModule.freqInfo 0).numStates ∧
      RegisterLaw 0 (twoStateModule.freqInfo 0).numStates
        (Exec.run freqStep (FreqRegister.start twoStateModule 1 (fun _ => ⟨1000⟩) bareCpufreq ())
          [⟨acceptingDriver, .setFreq 0 2⟩, ⟨acceptingDriver, .decFreq 0⟩]) := by
  refine ⟨by decide, ?_⟩
  refine (frequency_register_iff twoStateModule_initialised bareCpufreq () le_rfl
    (fun _ => ⟨1000⟩) Nat.zero_lt_one (by decide) _ ?_).mpr (by decide)
  intro event member locking
  have accepting : event.driver = acceptingDriver := by
    simp only [List.mem_cons, List.not_mem_nil, or_false] at member
    rcases member with rfl | rfl <;> rfl
  rw [accepting]
  cases locking <;> rfl

/-- After index `1` has been set, `get_freq` answers that the index is not known. -/
theorem frequency_register_forgets :
    let r := Exec.run freqStep
      (FreqRegister.start twoStateModule 1 (fun _ => ⟨1000⟩) bareCpufreq ())
      [⟨acceptingDriver, .setFreq 0 1⟩]
    r.lastSet 0 = some 1 ∧ getFreq 0 r.cpufreq = uintMax ∧ ¬ RegisterLaw 0 2 r := by
  refine ⟨by decide, by decide, fun law => ?_⟩
  exact absurd (law.get 1 (by decide)) (by decide)

end Seeker
