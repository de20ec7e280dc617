/-
This file embeds the core of seeker-cpufreq: the frequency change of `freq.c` and
the registry of users of `user.c` that is told about it.

A change is a request to the kernel's driver, which may refuse; a refused request
that says "again" is repeated once. Only an accepted change is told to the users,
and `Accepts` names the conditions under which that happens. The registry is a list
of addresses of user structures; what a callback does is a function on the state
the users share.
-/
import Mathlib.Algebra.Order.Ring.Int
import Mathlib.Data.List.Count
import Mathlib.Tactic.Common
import Mathlib.Logic.Function.Basic

namespace Seeker

/-! ### The data of the module -/

/-- The `locking` flag of `driver_target`. -/
inductive Locking where
  | driverTargetLocking
  | driverTargetNonlocking
  deriving DecidableEq, Repr

/-- What the kernel's two entry points, `cpufreq_driver_target` and
`__cpufreq_driver_target`, answer to the attempts of one frequency change. -/
structure Driver where
  lockingTarget : Nat → Int
  nonlockingTarget : Nat → Int

/-- The part of `struct cpufreq_policy` that the module writes. -/
structure Policy where
  cur : Nat
  deriving DecidableEq, Repr

/-- `struct freq_info_t`. -/
structure FreqInfo where
  cpu : Nat
  curFreq : Nat
  numStates : Nat
  table : Nat → Nat
  validEntry : Nat → Nat
  policy : Option Policy

/-- `struct scpufreq_user`. The callback's return code, which the module only reports in a
warning, is left out. -/
structure ScpufreqUser (World : Type) where
  inform : Option (Nat → Nat → World → World)
  userId : Nat

/-- The per-cpu tables of `freq.c` and the registry of `user.c`: `user` is the structure at an
address and `userHead` the list of registered addresses. -/
structure Cpufreq (World : Type) where
  nrCpus : Nat
  freqInfo : Nat → FreqInfo
  user : Nat → ScpufreqUser World
  userHead : List Nat
  currentHighestId : Nat

variable {World : Type}

/-! ### The registry -/

/-- `ERR_USER_MEM_LOW`. -/
def errUserMemLow : Int := -2

/-- `ERR_INV_USER`. -/
def errInvUser : Int := -3

/-- `ERR_INV_CALLBACK`. -/
def errInvCallback : Int := -4

/-- The new node of `create_user`: the structure goes to the end of the list under the next
unused id. -/
def Cpufreq.addUser (address : Nat) (c : Cpufreq World) : Cpufreq World :=
  { c with
    userHead := c.userHead ++ [address]
    user := Function.update c.user address
      { c.user address with userId := c.currentHighestId }
    currentHighestId := (c.currentHighestId + 1) % 2 ^ 32 }

/-- `create_user`: `memory` says whether `kmalloc` succeeds. -/
def createUser (memory : Bool) (address : Option Nat) (c : Cpufreq World) :
    Int × Cpufreq World :=
  match address with
  | none => (errInvUser, c)
  | some address =>
    if (c.user address).inform.isNone then (errInvCallback, c)
    else if memory = false then (errUserMemLow, c)
    else (0, c.addUser address)

/-- `register_scpufreq_user`. -/
def registerScpufreqUser (memory : Bool) (address : Option Nat) (c : Cpufreq World) :
    Int × Cpufreq World :=
  createUser memory address c

/-- One turn of the loop of `inform_freq_change`. -/
def informUser (cpu state : Nat) (user : Nat → ScpufreqUser World) (world : World)
    (address : Nat) : World :=
  match (user address).inform with
  | none => world
  | some inform => inform cpu state world

/-- `inform_freq_change`: the callback of every registered user runs, in list order. -/
def informFreqChange (cpu state : Nat) (c : Cpufreq World) (world : World) : World :=
  c.userHead.foldl (informUser cpu state c.user) world

/-- A new node changes no callback. -/
theorem addUser_inform (address other : Nat) (c : Cpufreq World) :
    ((c.addUser address).user other).inform = (c.user other).inform := by
  show (Function.update c.user address _ other).inform = _
  by_cases same : other = address
  · rw [same, Function.update_self]
  · rw [Function.update_of_ne same]

theorem createUser_of_memory {address : Nat} {c : Cpufreq World}
    (callback : (c.user address).inform.isSome) :
    createUser true (some address) c = (0, c.addUser address) := by
  obtain ⟨inform, informIs⟩ := Option.isSome_iff_exists.mp callback
  simp only [createUser, informIs, Option.isNone_some, Bool.false_eq_true, if_false,
    Bool.true_eq_false]

theorem createUser_of_no_memory {address : Nat} {c : Cpufreq World}
    (callback : (c.user address).inform.isSome) :
    createUser false (some address) c = (errUserMemLow, c) := by
  obtain ⟨inform, informIs⟩ := Option.isSome_iff_exists.mp callback
  simp only [createUser, informIs, Option.isNone_some, Bool.false_eq_true, if_false, if_true]

theorem informUser_congr {cpu state address : Nat} {first second : Nat → ScpufreqUser World}
    (same : (first address).inform = (second address).inform) (world : World) :
    informUser cpu state first world address = informUser cpu state second world address := by
  unfold informUser
  rw [same]

/-! ### The frequency change -/

/-- `EAGAIN`. -/
def eagain : Int := 11

/-- `driver_target`. -/
def driverTarget (driver : Driver) (locking : Locking) (attempt : Nat) : Int :=
  match locking with
  | .driverTargetNonlocking => driver.nonlockingTarget attempt
  | .driverTargetLocking => driver.lockingTarget attempt

/-- The result of the driver after the retry. -/
def driverResult (driver : Driver) (locking : Locking) : Int :=
  if driverTarget driver locking 0 = -eagain then driverTarget driver locking 1
  else driverTarget driver locking 0

/-- The write to `policy->cur` of one cpu. -/
def Cpufreq.setPolicyCur (cpu frequency : Nat) (c : Cpufreq World) : Cpufreq World :=
  { c with
    freqInfo := Function.update c.freqInfo cpu
      { c.freqInfo cpu with policy := some { cur := frequency } } }

/-- `internal_set_freq`: its return code, the module's data and the users' state. -/
def internalSetFreq (driver : Driver) (locking : Locking) (cpu freqInd : Nat)
    (c : Cpufreq World) (world : World) : Int × Cpufreq World × World :=
  if cpu ≥ c.nrCpus ∨ freqInd ≥ (c.freqInfo cpu).numStates then (-1, c, world)
  else
    match (c.freqInfo cpu).policy with
    | none => (-1, c, world)
    | some _ =>
      let c := c.setPolicyCur cpu ((c.freqInfo cpu).table freqInd)
      if driverResult driver locking ≠ 0 then (driverResult driver locking, c, world)
      else (0, c, informFreqChange cpu freqInd c world)

/-- The request goes through: the cpu and the index exist, the governor has been started on
the cpu, and the driver accepts. -/
def Accepts (driver : Driver) (locking : Locking) (cpu freqInd : Nat) (c : Cpufreq World) :
    Prop :=
  cpu < c.nrCpus ∧ freqInd < (c.freqInfo cpu).numStates ∧ (c.freqInfo cpu).policy.isSome ∧
    driverResult driver locking = 0

instance (driver : Driver) (locking : Locking) (cpu freqInd : Nat) (c : Cpufreq World) :
    Decidable (Accepts driver locking cpu freqInd c) :=
  inferInstanceAs (Decidable (_ ∧ _ ∧ _ ∧ _))

/-- An accepted change informs the users. -/
theorem internalSetFreq_of_accepts {driver : Driver} {locking : Locking} {cpu freqInd : Nat}
    {c : Cpufreq World} (accepted : Accepts driver locking cpu freqInd c) (world : World) :
    internalSetFreq driver locking cpu freqInd c world =
      (0, c.setPolicyCur cpu ((c.freqInfo cpu).table freqInd),
        informFreqChange cpu freqInd c world) := by
  obtain ⟨cpuExists, indexExists, started, taken⟩ := accepted
  obtain ⟨policy, policyIs⟩ := Option.isSome_iff_exists.mp started
  unfold internalSetFreq
  rw [if_neg (by omega), policyIs]
  simp only [taken, ne_eq, not_true_eq_false, if_false]
  rfl

/-- A refused change returns an error and leaves the users' state alone. -/
theorem internalSetFreq_of_not_accepts {driver : Driver} {locking : Locking} {cpu freqInd : Nat}
    {c : Cpufreq World} (refused : ¬ Accepts driver locking cpu freqInd c) (world : World) :
    (internalSetFreq driver locking cpu freqInd c world).1 ≠ 0 ∧
      (internalSetFreq driver locking cpu freqInd c world).2.2 = world := by
  unfold internalSetFreq
  have failed : (-1 : Int) ≠ 0 := by decide
  split
  · exact ⟨failed, rfl⟩
  · split
    · exact ⟨failed, rfl⟩
    · rename_i policy policyIs
      have notTaken : driverResult driver locking ≠ 0 := by
        intro taken
        exact refused ⟨by omega, by omega, by rw [policyIs]; rfl, taken⟩
      simp only [ne_eq, notTaken, not_false_eq_true, if_true, and_self]

/-- `internal_set_freq` returns `0` exactly when the request goes through. -/
theorem internalSetFreq_eq_zero_iff {driver : Driver} {locking : Locking} {cpu freqInd : Nat}
    {c : Cpufreq World} {world : World} :
    (internalSetFreq driver locking cpu freqInd c world).1 = 0 ↔
      Accepts driver locking cpu freqInd c := by
  constructor
  · intro succeeded
    by_contra refused
    exact (internalSetFreq_of_not_accepts refused world).1 succeeded
  · intro accepted
    rw [internalSetFreq_of_accepts accepted]

/-- Whether or not a change goes through, it leaves the registry, the tables and the set of
started governors alone: only a `policy->cur` may change. -/
theorem internalSetFreq_cpufreq (driver : Driver) (locking : Locking) (cpu freqInd : Nat)
    (c : Cpufreq World) (world : World) :
    (internalSetFreq driver locking cpu freqInd c world).2.1 = c ∨
      (c.freqInfo cpu).policy.isSome ∧
        (internalSetFreq driver locking cpu freqInd c world).2.1 =
          c.setPolicyCur cpu ((c.freqInfo cpu).table freqInd) := by
  unfold internalSetFreq
  split
  · exact Or.inl rfl
  · split
    · exact Or.inl rfl
    · rename_i policy policyIs
      refine Or.inr ⟨by rw [policyIs]; rfl, ?_⟩
      dsimp only
      split <;> rfl

/-- A write to a `policy->cur` decides no later request. -/
theorem accepts_setPolicyCur {driver : Driver} {locking : Locking} {cpu freqInd other : Nat}
    {frequency : Nat} {c : Cpufreq World} (started : (c.freqInfo other).policy.isSome) :
    Accepts driver locking cpu freqInd (c.setPolicyCur other frequency) ↔
      Accepts driver locking cpu freqInd c := by
  unfold Accepts Cpufreq.setPolicyCur
  by_cases same : cpu = other
  · subst same
    simp only [Function.update_self, Option.isSome_some, started]
  · simp only [Function.update_of_ne same]

theorem accepts_internalSetFreq {driver driver' : Driver} {locking locking' : Locking}
    {cpu freqInd other index : Nat} {c : Cpufreq World} {world : World} :
    Accepts driver locking cpu freqInd (internalSetFreq driver' locking' other index c world).2.1 ↔
      Accepts driver locking cpu freqInd c := by
  rcases internalSetFreq_cpufreq driver' locking' other index c world with same | ⟨started, written⟩
  · rw [same]
  · rw [written]
    exact accepts_setPolicyCur started

/-! ### Who is told -/

/-- One user is registered once, and no other registered user's callback touches the shared
state. -/
structure OnlyUser (address : Nat) (c : Cpufreq World) : Prop where
  once : c.userHead.count address = 1
  others : ∀ other ∈ c.userHead, other ≠ address → ∀ cpu state world,
    informUser cpu state c.user world other = world

theorem foldl_informUser_of_notMem {cpu state address : Nat} {user : Nat → ScpufreqUser World}
    {addresses : List Nat} (absent : address ∉ addresses)
    (others : ∀ other ∈ addresses, other ≠ address → ∀ world,
      informUser cpu state user world other = world) (world : World) :
    addresses.foldl (informUser cpu state user) world = world := by
  induction addresses generalizing world with
  | nil => rfl
  | cons first rest inductionHypothesis =>
    rw [List.foldl_cons, others first List.mem_cons_self
      (fun same => absent (same ▸ List.mem_cons_self))]
    exact inductionHypothesis (fun member => absent (List.mem_cons_of_mem _ member))
      (fun other member => others other (List.mem_cons_of_mem _ member)) world

/-- Where one user is the only one with an effect, a change runs its callback once. -/
theorem informFreqChange_of_onlyUser {address : Nat} {c : Cpufreq World}
    (only : OnlyUser address c) (cpu state : Nat) (world : World) :
    informFreqChange cpu state c world = informUser cpu state c.user world address := by
  obtain ⟨before, after, split⟩ :=
    List.append_of_mem (List.count_pos_iff.mp (by rw [only.once]; exact Nat.one_pos))
  have counts := only.once
  rw [split, List.count_append, List.count_cons_self] at counts
  have notBefore : address ∉ before := List.count_eq_zero.mp (by omega)
  have notAfter : address ∉ after := List.count_eq_zero.mp (by omega)
  unfold informFreqChange
  rw [split, List.foldl_append, List.foldl_cons]
  rw [foldl_informUser_of_notMem notBefore
      (fun other member different world => only.others other
        (by rw [split]; exact List.mem_append_left _ member) different cpu state world),
    foldl_informUser_of_notMem notAfter
      (fun other member different world => only.others other
        (by rw [split]; exact List.mem_append_right _ (List.mem_cons_of_mem _ member))
        different cpu state world)]

theorem OnlyUser.internalSetFreq {address : Nat} {c : Cpufreq World} (only : OnlyUser address c)
    (driver : Driver) (locking : Locking) (cpu freqInd : Nat) (world : World) :
    OnlyUser address (internalSetFreq driver locking cpu freqInd c world).2.1 := by
  rcases internalSetFreq_cpufreq driver locking cpu freqInd c world with same | ⟨_, written⟩
  · rw [same]
    exact only
  · rw [written]
    exact ⟨only.once, only.others⟩

end Seeker
