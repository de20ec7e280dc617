/-
This file follows the registry of seeker-cpufreq's users through any sequence of
registrations and deregistrations.

A deregistration looks for the id that is stored in the caller's own structure. A
structure that was never entered holds the id it was initialised with, or one it was
given in an earlier life, and another structure may be listed under that id. The file
says for each call what an exact registry does, and proves that the registry of a run
is exact precisely when no call asks for an id that somebody else holds.
-/
import Mathlib.Data.List.Nodup
import Seeker.Cpufreq
import Seeker.Library.Exec

namespace Seeker

variable {World : Type}

/-! ### Deregistration -/

/-- `destroy_user`: the first listed structure with the same id is unlinked. -/
def destroyUser (address : Option Nat) (c : Cpufreq World) : Int × Cpufreq World :=
  match address with
  | none => (errInvUser, c)
  | some address =>
    if (c.user address).inform.isNone then (errInvCallback, c)
    else if c.userHead.all fun other =>
        decide ((c.user other).userId ≠ (c.user address).userId) then
      (errInvUser, c)
    else
      (0,
        { c with
          userHead := c.userHead.eraseP fun other =>
            decide ((c.user other).userId = (c.user address).userId) })

/-- `deregister_scpufreq_user`. -/
def deregisterScpufreqUser (address : Option Nat) (c : Cpufreq World) : Int × Cpufreq World :=
  destroyUser address c

/-- `init_user_interface`. -/
def initUserInterface (c : Cpufreq World) : Cpufreq World := { c with userHead := [] }

/-! ### Runs -/

/-- A call, of a structure by its address. -/
inductive RegistryCall where
  | register (memory : Bool) (address : Nat)
  | deregister (address : Nat)
  deriving DecidableEq, Repr

/-- The module, and the structures whose registration has succeeded and that have not been
deregistered since, in the order of their registration. Nothing in the code reads the latter. -/
structure Registry (World : Type) where
  cpufreq : Cpufreq World
  expected : List Nat

/-- The return code of a call and what it makes of the module. -/
def RegistryCall.perform (c : Cpufreq World) : RegistryCall → Int × Cpufreq World
  | .register memory address => registerScpufreqUser memory (some address) c
  | .deregister address => deregisterScpufreqUser (some address) c

/-- One call. -/
def registryStep (r : Registry World) (call : RegistryCall) : Registry World where
  cpufreq := (call.perform r.cpufreq).2
  expected :=
    match call with
    | .register _ address =>
        if (call.perform r.cpufreq).1 = 0 then r.expected ++ [address] else r.expected
    | .deregister address => r.expected.erase address

/-- The structures whose callback `inform_freq_change` runs, in order. -/
def informed (c : Cpufreq World) : List Nat :=
  c.userHead.filter fun address => (c.user address).inform.isSome

/-- The ids of the listed structures. -/
def Cpufreq.listedIds (c : Cpufreq World) : List Nat :=
  c.userHead.map fun address => (c.user address).userId

/-- `inform_freq_change` runs these callbacks and no others. -/
theorem informFreqChange_eq_informed (cpu state : Nat) (c : Cpufreq World) (world : World) :
    informFreqChange cpu state c world =
      (informed c).foldl (informUser cpu state c.user) world := by
  unfold informFreqChange informed
  generalize c.userHead = addresses
  induction addresses generalizing world with
  | nil => rfl
  | cons address rest inductionHypothesis =>
    rw [List.foldl_cons, List.filter_cons]
    cases callback : (c.user address).inform with
    | none =>
      have skipped : informUser cpu state c.user world address = world := by
        unfold informUser
        rw [callback]
      rw [skipped, inductionHypothesis]
      rfl
    | some inform =>
      rw [inductionHypothesis]
      rfl

/-- What an exact registry does in one call. -/
structure ExactCall (r : Registry World) (call : RegistryCall) : Prop where
  list : (registryStep r call).cpufreq.userHead = (registryStep r call).expected
  distinct : (registryStep r call).cpufreq.listedIds.Nodup
  once : (informed (registryStep r call).cpufreq).Nodup ∧
    informed (registryStep r call).cpufreq = (registryStep r call).expected
  unlisted : ∀ address, call = .deregister address → address ∉ r.expected →
    call.perform r.cpufreq = (errInvUser, r.cpufreq)
  failed : ∀ memory address, call = .register memory address →
    (call.perform r.cpufreq).1 ≠ 0 → (call.perform r.cpufreq).2 = r.cpufreq

/-- A structure is registered only with a callback, and while it is not registered. -/
def RegistryCall.Proper (r : Registry World) : RegistryCall → Prop
  | .register _ address => (r.cpufreq.user address).inform.isSome ∧ address ∉ r.expected
  | .deregister _ => True

/-- The call asks for no id that another listed structure holds: a registration that succeeds gets
an unused one, and a structure that is not listed is deregistered with a callback and an unused
one. -/
def RegistryCall.Unambiguous (r : Registry World) : RegistryCall → Prop
  | .register memory _ =>
      memory = false ∨ r.cpufreq.currentHighestId ∉ r.cpufreq.listedIds
  | .deregister address =>
      address ∈ r.cpufreq.userHead ∨
        (r.cpufreq.user address).inform.isSome ∧
          (r.cpufreq.user address).userId ∉ r.cpufreq.listedIds

instance registryProperDecidable (r : Registry World) (call : RegistryCall) :
    Decidable (call.Proper r) :=
  match call with
  | .register _ _ => inferInstanceAs (Decidable (_ ∧ _))
  | .deregister _ => isTrue trivial

instance registryUnambiguousDecidable (r : Registry World) (call : RegistryCall) :
    Decidable (call.Unambiguous r) :=
  match call with
  | .register _ _ => inferInstanceAs (Decidable (_ ∨ _))
  | .deregister _ => inferInstanceAs (Decidable (_ ∨ _ ∧ _))

/-! ### One call -/

/-- The registry is exact so far. -/
structure ExactRegistry (r : Registry World) : Prop where
  list : r.cpufreq.userHead = r.expected
  distinct : r.cpufreq.listedIds.Nodup
  callback : ∀ address ∈ r.cpufreq.userHead, (r.cpufreq.user address).inform.isSome

section Step

variable {r : Registry World}

theorem informed_eq {c : Cpufreq World}
    (callback : ∀ address ∈ c.userHead, (c.user address).inform.isSome) :
    informed c = c.userHead :=
  List.filter_eq_self.mpr callback

/-- Structures with distinct ids are distinct. -/
theorem Cpufreq.userHead_nodup {c : Cpufreq World} (distinct : c.listedIds.Nodup) :
    c.userHead.Nodup :=
  List.Nodup.of_map _ distinct

/-- An exact state after a call, with no surprise in its result, is all that is asked for. -/
theorem ExactRegistry.exactCall {call : RegistryCall} (next : ExactRegistry (registryStep r call))
    (unlisted : ∀ address, call = .deregister address → address ∉ r.expected →
      call.perform r.cpufreq = (errInvUser, r.cpufreq))
    (failed : ∀ memory address, call = .register memory address →
      (call.perform r.cpufreq).1 ≠ 0 → (call.perform r.cpufreq).2 = r.cpufreq) :
    ExactCall r call where
  list := next.list
  distinct := next.distinct
  once := by
    rw [informed_eq next.callback]
    exact ⟨Cpufreq.userHead_nodup next.distinct, next.list⟩
  unlisted := unlisted
  failed := failed

/-- A call that changes nothing but the expectation, which it does not change either. -/
theorem ExactRegistry.unchanged (soFar : ExactRegistry r) {call : RegistryCall}
    (same : (call.perform r.cpufreq).2 = r.cpufreq)
    (expected : (registryStep r call).expected = r.expected) :
    ExactRegistry (registryStep r call) := by
  have cpufreq : (registryStep r call).cpufreq = r.cpufreq := same
  refine ⟨?_, ?_, ?_⟩
  · rw [cpufreq, expected]
    exact soFar.list
  · rw [cpufreq]
    exact soFar.distinct
  · rw [cpufreq]
    exact soFar.callback

/-- The ids after a registration. -/
theorem listedIds_addUser {c : Cpufreq World} {address : Nat} (absent : address ∉ c.userHead) :
    (c.addUser address).listedIds = c.listedIds ++ [c.currentHighestId] := by
  unfold Cpufreq.listedIds Cpufreq.addUser
  rw [List.map_append]
  congr 1
  · refine List.map_congr_left fun other member => ?_
    have different : other ≠ address := fun same => absent (same ▸ member)
    dsimp only
    rw [Function.update_of_ne different]
  · dsimp only
    rw [List.map_singleton, Function.update_self]

/-- Where ids are distinct, the structure that is unlinked is the one that was asked for. -/
theorem eraseP_userId {user : Nat → ScpufreqUser World} {addresses : List Nat}
    (distinct : (addresses.map fun other => (user other).userId).Nodup) {address : Nat}
    (listed : address ∈ addresses) :
    addresses.eraseP (fun other => decide ((user other).userId = (user address).userId)) =
      addresses.erase address := by
  induction addresses with
  | nil => cases listed
  | cons first rest inductionHypothesis =>
    rw [List.map_cons, List.nodup_cons] at distinct
    by_cases same : first = address
    · rw [same, List.eraseP_cons_of_pos (by simp), List.erase_cons_head]
    · have later : address ∈ rest := (List.mem_cons.mp listed).resolve_left (Ne.symm same)
      have differs : (user first).userId ≠ (user address).userId := fun sameId =>
        distinct.1 (sameId ▸ List.mem_map_of_mem later)
      rw [List.eraseP_cons_of_neg (by simpa using differs),
        List.erase_cons_tail (by simpa using same), inductionHypothesis distinct.2 later]

/-- A registration that is given no memory. -/
theorem exactCall_register_false (soFar : ExactRegistry r) {address : Nat}
    (proper : (RegistryCall.register false address).Proper r) :
    ExactRegistry (registryStep r (.register false address)) ∧
      ExactCall r (.register false address) := by
  have performed : (RegistryCall.register false address).perform r.cpufreq =
      (errUserMemLow, r.cpufreq) := createUser_of_no_memory proper.1
  have next : ExactRegistry (registryStep r (.register false address)) := by
    refine soFar.unchanged (by rw [performed]) ?_
    show (if ((RegistryCall.register false address).perform r.cpufreq).1 = 0 then _ else _) = _
    rw [performed]
    exact if_neg (by decide : errUserMemLow ≠ 0)
  refine ⟨next, next.exactCall (fun _ same => by cases same) fun _ _ _ _ => ?_⟩
  rw [performed]

/-- A registration that is given memory: it is exact if and only if the next id is unused. -/
theorem exactCall_register_true (soFar : ExactRegistry r) {address : Nat}
    (proper : (RegistryCall.register true address).Proper r) :
    (r.cpufreq.currentHighestId ∉ r.cpufreq.listedIds →
        ExactRegistry (registryStep r (.register true address))) ∧
      (ExactCall r (.register true address) ↔
        r.cpufreq.currentHighestId ∉ r.cpufreq.listedIds) := by
  have performed : (RegistryCall.register true address).perform r.cpufreq =
      (0, r.cpufreq.addUser address) := createUser_of_memory proper.1
  have absent : address ∉ r.cpufreq.userHead := soFar.list ▸ proper.2
  have cpufreq : (registryStep r (.register true address)).cpufreq =
      r.cpufreq.addUser address := by
    show ((RegistryCall.register true address).perform r.cpufreq).2 = _
    rw [performed]
  have expected : (registryStep r (.register true address)).expected =
      r.expected ++ [address] := by
    show (if ((RegistryCall.register true address).perform r.cpufreq).1 = 0 then _ else _) = _
    rw [performed]
    exact if_pos rfl
  have distinct : (registryStep r (.register true address)).cpufreq.listedIds.Nodup ↔
      r.cpufreq.currentHighestId ∉ r.cpufreq.listedIds := by
    rw [cpufreq, listedIds_addUser absent, List.nodup_append]
    simp [soFar.distinct]
    exact ⟨fun unused used => unused _ used rfl, fun unused id used same => unused (same ▸ used)⟩
  have fresh : r.cpufreq.currentHighestId ∉ r.cpufreq.listedIds →
      ExactRegistry (registryStep r (.register true address)) := by
    intro unused
    refine ⟨?_, distinct.mpr unused, ?_⟩
    · rw [cpufreq, expected, ← soFar.list]
      rfl
    · rw [cpufreq]
      intro other member
      rw [addUser_inform]
      rcases List.mem_append.mp member with earlier | last
      · exact soFar.callback other earlier
      · rw [List.mem_singleton.mp last]
        exact proper.1
  refine ⟨fresh, fun exactCall => distinct.mp exactCall.distinct, fun unused => ?_⟩
  refine (fresh unused).exactCall (fun _ same => by cases same) fun memory other same failed => ?_
  rw [performed] at failed
  exact absurd rfl failed

theorem all_userId_iff {c : Cpufreq World} {address : Nat} :
    (c.userHead.all fun other => decide ((c.user other).userId ≠ (c.user address).userId)) = true ↔
      (c.user address).userId ∉ c.listedIds := by
  simp [Cpufreq.listedIds]

/-- `destroy_user` finds no structure with an unused id. -/
theorem destroyUser_of_unused {c : Cpufreq World} {address : Nat}
    (callback : (c.user address).inform.isSome)
    (unused : (c.user address).userId ∉ c.listedIds) :
    destroyUser (some address) c = (errInvUser, c) := by
  have given : ¬ (c.user address).inform.isNone = true := by
    simpa using Option.isSome_iff_ne_none.mp callback
  unfold destroyUser
  dsimp only
  rw [if_neg given, if_pos (all_userId_iff.mpr unused)]

/-- `destroy_user` unlinks a structure with a used id. -/
theorem destroyUser_of_used {c : Cpufreq World} {address : Nat}
    (callback : (c.user address).inform.isSome)
    (used : (c.user address).userId ∈ c.listedIds) :
    destroyUser (some address) c =
      (0,
        { c with
          userHead := c.userHead.eraseP fun other =>
            decide ((c.user other).userId = (c.user address).userId) }) := by
  have given : ¬ (c.user address).inform.isNone = true := by
    simpa using Option.isSome_iff_ne_none.mp callback
  unfold destroyUser
  dsimp only
  rw [if_neg given, if_neg fun all => all_userId_iff.mp all used]

/-- A deregistration of a listed structure. -/
theorem exactCall_deregister_listed (soFar : ExactRegistry r) {address : Nat}
    (listed : address ∈ r.cpufreq.userHead) :
    ExactRegistry (registryStep r (.deregister address)) ∧
      ExactCall r (.deregister address) := by
  have used : (r.cpufreq.user address).userId ∈ r.cpufreq.listedIds :=
    List.mem_map_of_mem listed
  have cpufreq : (registryStep r (.deregister address)).cpufreq =
      { r.cpufreq with userHead := r.cpufreq.userHead.erase address } := by
    show (destroyUser (some address) r.cpufreq).2 = _
    rw [destroyUser_of_used (soFar.callback address listed) used,
      eraseP_userId soFar.distinct listed]
  have next : ExactRegistry (registryStep r (.deregister address)) := by
    refine ⟨?_, ?_, ?_⟩
    · rw [cpufreq]
      show r.cpufreq.userHead.erase address = r.expected.erase address
      rw [soFar.list]
    · rw [cpufreq]
      exact soFar.distinct.sublist (List.Sublist.map _ List.erase_sublist)
    · rw [cpufreq]
      exact fun other member => soFar.callback other (List.mem_of_mem_erase member)
  refine ⟨next, next.exactCall ?_ fun _ _ same => by cases same⟩
  rintro other ⟨⟩ absent
  exact absurd (soFar.list ▸ listed) absent

/-- A deregistration of a structure that is not listed: it is exact if and only if the structure
has a callback and an unused id. -/
theorem exactCall_deregister_unlisted (soFar : ExactRegistry r) {address : Nat}
    (unlisted : address ∉ r.cpufreq.userHead) :
    ((r.cpufreq.user address).inform.isSome ∧
          (r.cpufreq.user address).userId ∉ r.cpufreq.listedIds →
        ExactRegistry (registryStep r (.deregister address))) ∧
      (ExactCall r (.deregister address) ↔
        (r.cpufreq.user address).inform.isSome ∧
          (r.cpufreq.user address).userId ∉ r.cpufreq.listedIds) := by
  have unexpected : address ∉ r.expected := soFar.list ▸ unlisted
  have kept : (r.cpufreq.user address).inform.isSome ∧
      (r.cpufreq.user address).userId ∉ r.cpufreq.listedIds →
        destroyUser (some address) r.cpufreq = (errInvUser, r.cpufreq) ∧
          ExactRegistry (registryStep r (.deregister address)) := by
    rintro ⟨callback, unused⟩
    have performed := destroyUser_of_unused callback unused
    exact ⟨performed, soFar.unchanged (congrArg Prod.snd performed)
      (List.erase_of_not_mem unexpected)⟩
  refine ⟨fun unused => (kept unused).2, fun exactCall => ?_, fun unused => ?_⟩
  · have refused : destroyUser (some address) r.cpufreq = (errInvUser, r.cpufreq) :=
      exactCall.unlisted address rfl unexpected
    have callback : (r.cpufreq.user address).inform.isSome := by
      by_contra missing
      have invalid : destroyUser (some address) r.cpufreq = (errInvCallback, r.cpufreq) :=
        if_pos (by simpa using missing)
      rw [invalid] at refused
      exact absurd (congrArg Prod.fst refused) (by decide : errInvCallback ≠ errInvUser)
    refine ⟨callback, fun used => ?_⟩
    rw [destroyUser_of_used callback used] at refused
    exact absurd (congrArg Prod.fst refused) (by decide : (0 : Int) ≠ errInvUser)
  · obtain ⟨performed, next⟩ := kept unused
    refine next.exactCall ?_ fun _ _ same => by cases same
    rintro other ⟨⟩ _
    exact performed

/-- One call keeps an exact registry exact if and only if it is unambiguous. -/
theorem ExactRegistry.step (soFar : ExactRegistry r) {call : RegistryCall}
    (proper : call.Proper r) :
    (call.Unambiguous r → ExactRegistry (registryStep r call)) ∧
      (ExactCall r call ↔ call.Unambiguous r) := by
  cases call with
  | register memory address =>
    cases memory with
    | false =>
      obtain ⟨next, exactCall⟩ := exactCall_register_false soFar proper
      exact ⟨fun _ => next, iff_of_true exactCall (Or.inl rfl)⟩
    | true =>
      obtain ⟨next, exactIff⟩ := exactCall_register_true soFar proper
      have fresh : (RegistryCall.register true address).Unambiguous r ↔
          r.cpufreq.currentHighestId ∉ r.cpufreq.listedIds :=
        or_iff_right (by decide : ¬ true = false)
      exact ⟨fun unambiguous => next (fresh.mp unambiguous), exactIff.trans fresh.symm⟩
  | deregister address =>
    by_cases listed : address ∈ r.cpufreq.userHead
    · obtain ⟨next, exactCall⟩ := exactCall_deregister_listed soFar listed
      exact ⟨fun _ => next, iff_of_true exactCall (Or.inl listed)⟩
    · obtain ⟨next, exactIff⟩ := exactCall_deregister_unlisted soFar listed
      have other : (RegistryCall.deregister address).Unambiguous r ↔
          (r.cpufreq.user address).inform.isSome ∧
            (r.cpufreq.user address).userId ∉ r.cpufreq.listedIds := or_iff_right listed
      exact ⟨fun unambiguous => next (other.mp unambiguous), exactIff.trans other.symm⟩

end Step

/-! ### Runs of calls -/

/-- The registry after `init_user_interface`. -/
def Registry.start (c : Cpufreq World) : Registry World where
  cpufreq := initUserInterface c
  expected := []

/-- From an exact registry, all calls of a run are exact if and only if all are unambiguous. -/
theorem ExactRegistry.run {calls : List RegistryCall} {r : Registry World}
    (soFar : ExactRegistry r) (proper : Exec.Meets registryStep RegistryCall.Proper r calls) :
    Exec.Meets registryStep ExactCall r calls ↔
      Exec.Meets registryStep RegistryCall.Unambiguous r calls := by
  induction calls generalizing r with
  | nil => exact Iff.rfl
  | cons call rest inductionHypothesis =>
    obtain ⟨next, exactIff⟩ := soFar.step proper.1
    refine ⟨fun met => ?_, fun met => ?_⟩
    · have unambiguous := exactIff.mp met.1
      exact ⟨unambiguous, (inductionHypothesis (next unambiguous) proper.2).mp met.2⟩
    · exact ⟨exactIff.mpr met.1, (inductionHypothesis (next met.1) proper.2).mpr met.2⟩

/-- For every sequence of registrations, each of a structure with a callback that is not
registered, and deregistrations of any structures: every call is exact if and only if no call asks
for an id that another listed structure holds. -/
theorem registry_exact_iff (c : Cpufreq World) (calls : List RegistryCall)
    (proper : Exec.Meets registryStep RegistryCall.Proper (Registry.start c) calls) :
    Exec.Meets registryStep ExactCall (Registry.start c) calls ↔
      Exec.Meets registryStep RegistryCall.Unambiguous (Registry.start c) calls := by
  refine ExactRegistry.run ⟨rfl, List.nodup_nil, ?_⟩ proper
  exact fun address member => absurd member List.not_mem_nil

/-- A module whose users all have a callback, and ids that were never written. -/
def unusedCpufreq : Cpufreq Nat where
  nrCpus := 1
  freqInfo cpu :=
    { cpu := cpu, curFreq := 0, numStates := 0, table := fun _ => 0, validEntry := fun _ => 0,
      policy := none }
  user _ := { inform := some fun _ _ told => told + 1, userId := 0 }
  userHead := []
  currentHighestId := 0

/-- Two users come and go, the second after a registration that is given no memory. -/
theorem registry_exact_iff_two_users :
    Exec.Meets registryStep ExactCall (Registry.start unusedCpufreq)
      [.register false 2, .register true 1, .register true 2, .deregister 1, .deregister 1,
        .deregister 2] :=
  (registry_exact_iff unusedCpufreq _ (by decide)).mpr (by decide)

/-- The registration of a second user is given no memory, and its deregistration takes away the
first user. -/
theorem registry_not_exact :
    let calls : List RegistryCall := [.register true 1, .register false 2, .deregister 2]
    let final := Exec.run registryStep (Registry.start unusedCpufreq) calls
    Exec.Meets registryStep RegistryCall.Proper (Registry.start unusedCpufreq) calls ∧
      final.cpufreq.userHead = [] ∧ final.expected = [1] ∧
      ¬ Exec.Meets registryStep ExactCall (Registry.start unusedCpufreq) calls := by
  refine ⟨by decide, by decide, by decide, fun met => ?_⟩
  have last := met.2.2.1.list
  exact absurd last (by decide)

end Seeker
