/-
This file says what one call of `internal_set_freq` leaves behind when the driver
refuses it, and whom it tells when the driver accepts.

`policy->cur` is both the argument of the driver and the value shown to users, so the
call writes it before it asks. The guards come before the write and a success comes
with it; but a driver that refuses leaves the new frequency in `policy->cur`. To say
who is told, `recorded` is the registry in which every callback also notes its call.
-/
import Seeker.Cpufreq

namespace Seeker

variable {World : Type}

/-! ### The attempts of the driver -/

/-- The call comes to the driver: the cpu and the index exist, and a governor has been started. -/
def Reaches (cpu freqInd : Nat) (c : Cpufreq World) : Prop :=
  cpu < c.nrCpus ∧ freqInd < (c.freqInfo cpu).numStates ∧ (c.freqInfo cpu).policy.isSome

instance (cpu freqInd : Nat) (c : Cpufreq World) : Decidable (Reaches cpu freqInd c) :=
  inferInstanceAs (Decidable (_ ∧ _ ∧ _))

/-- An attempt of the driver succeeds: the first, or the one repeated after `-EAGAIN`. -/
def DriverSucceeds (driver : Driver) (locking : Locking) : Prop :=
  driverTarget driver locking 0 = 0 ∨
    driverTarget driver locking 0 = -eagain ∧ driverTarget driver locking 1 = 0

instance (driver : Driver) (locking : Locking) : Decidable (DriverSucceeds driver locking) :=
  inferInstanceAs (Decidable (_ ∨ _))

theorem driverResult_eq_zero_iff (driver : Driver) (locking : Locking) :
    driverResult driver locking = 0 ↔ DriverSucceeds driver locking := by
  have busy : -eagain ≠ 0 := by decide
  unfold driverResult DriverSucceeds
  split
  · rename_i again
    rw [again]
    simp only [busy, true_and, false_or]
  · rename_i other
    simp only [other, false_and, or_false]

/-- A request goes through exactly when it comes to the driver and an attempt succeeds. -/
theorem accepts_iff {driver : Driver} {locking : Locking} {cpu freqInd : Nat}
    {c : Cpufreq World} :
    Accepts driver locking cpu freqInd c ↔
      Reaches cpu freqInd c ∧ DriverSucceeds driver locking := by
  unfold Accepts Reaches
  rw [driverResult_eq_zero_iff, and_assoc, and_assoc]

/-- A request that the guards turn away changes nothing. -/
theorem internalSetFreq_of_not_reaches {cpu freqInd : Nat} {c : Cpufreq World}
    (guarded : ¬ Reaches cpu freqInd c) (driver : Driver) (locking : Locking) (world : World) :
    internalSetFreq driver locking cpu freqInd c world = (-1, c, world) := by
  unfold internalSetFreq
  split
  · rfl
  · rename_i present
    split
    · rfl
    · rename_i policy policyIs
      exact absurd ⟨by omega, by omega, by rw [policyIs]; rfl⟩ guarded

/-- A request that the driver refuses has written `policy->cur`. -/
theorem internalSetFreq_of_refused {driver : Driver} {locking : Locking} {cpu freqInd : Nat}
    {c : Cpufreq World} (reaches : Reaches cpu freqInd c)
    (refused : ¬ DriverSucceeds driver locking) (world : World) :
    internalSetFreq driver locking cpu freqInd c world =
      (driverResult driver locking,
        c.setPolicyCur cpu ((c.freqInfo cpu).table freqInd), world) := by
  obtain ⟨cpuExists, indexExists, started⟩ := reaches
  obtain ⟨policy, policyIs⟩ := Option.isSome_iff_exists.mp started
  have failed : driverResult driver locking ≠ 0 := fun taken =>
    refused ((driverResult_eq_zero_iff driver locking).mp taken)
  unfold internalSetFreq
  rw [if_neg (by omega), policyIs]
  simp only [ne_eq, failed, not_false_eq_true, if_true]

/-! ### Who is told -/

/-- A call of a callback. -/
structure Call where
  address : Nat
  cpu : Nat
  state : Nat
  deriving DecidableEq, Repr

/-- A callback that also notes its calls. -/
def recordCall (address : Nat) (inform : Nat → Nat → World → World) :
    Nat → Nat → World × List Call → World × List Call :=
  fun cpu state noted =>
    (inform cpu state noted.1, noted.2 ++ [{ address := address, cpu := cpu, state := state }])

/-- The registry with every callback noting its calls. -/
def Cpufreq.recorded (c : Cpufreq World) : Cpufreq (World × List Call) where
  nrCpus := c.nrCpus
  freqInfo := c.freqInfo
  user address :=
    { inform := (c.user address).inform.map (recordCall address)
      userId := (c.user address).userId }
  userHead := c.userHead
  currentHighestId := c.currentHighestId

/-- The registered users with a callback, in the order of the list. -/
def Cpufreq.informed (c : Cpufreq World) : List Nat :=
  c.userHead.filter fun address => (c.user address).inform.isSome

theorem informUser_recorded (cpu state address : Nat) (c : Cpufreq World)
    (noted : World × List Call) :
    informUser cpu state c.recorded.user noted address =
      (informUser cpu state c.user noted.1 address,
        noted.2 ++ ([address].filter fun address => (c.user address).inform.isSome).map
          fun address => { address := address, cpu := cpu, state := state }) := by
  unfold informUser Cpufreq.recorded
  cases callback : (c.user address).inform with
  | none => simp [callback]
  | some inform => simp [callback, recordCall]

/-- Every registered user with a callback is called once, in the order of the list, and the calls
do what they do unrecorded. -/
theorem informFreqChange_recorded (cpu state : Nat) (c : Cpufreq World)
    (noted : World × List Call) :
    informFreqChange cpu state c.recorded noted =
      (informFreqChange cpu state c noted.1,
        noted.2 ++ c.informed.map
          fun address => { address := address, cpu := cpu, state := state }) := by
  show c.userHead.foldl _ noted =
    (c.userHead.foldl _ noted.1, noted.2 ++ (c.userHead.filter _).map _)
  induction c.userHead generalizing noted with
  | nil => simp
  | cons first rest inductionHypothesis =>
    rw [List.foldl_cons, List.foldl_cons, informUser_recorded, inductionHypothesis,
      List.append_assoc, ← List.map_append, ← List.filter_append, List.singleton_append]

/-- A user that registers is told of the changes to come. -/
theorem informed_addUser {address : Nat} {c : Cpufreq World}
    (callback : (c.user address).inform.isSome) :
    (c.addUser address).informed = c.informed ++ [address] := by
  show (c.userHead ++ [address]).filter _ = c.userHead.filter _ ++ [address]
  simp only [addUser_inform, List.filter_append, List.filter_cons, callback, if_true,
    List.filter_nil]

/-! ### What a refused change leaves behind -/

section Change

variable (driver : Driver) (locking : Locking) (cpu freqInd : Nat) (c : Cpufreq World)
  (world : World)

/-- A change returns `0` exactly when an attempt of the driver has succeeded. It then leaves the
new frequency in `policy->cur`, and each user has been called once about it; otherwise it leaves
everything as it was. -/
structure LeavesNoTrace : Prop where
  returned : (internalSetFreq driver locking cpu freqInd c world).1 = 0 ↔
    Reaches cpu freqInd c ∧ DriverSucceeds driver locking
  changed : Reaches cpu freqInd c ∧ DriverSucceeds driver locking →
    (internalSetFreq driver locking cpu freqInd c world).2.1 =
      c.setPolicyCur cpu ((c.freqInfo cpu).table freqInd)
  told : Reaches cpu freqInd c ∧ DriverSucceeds driver locking →
    (internalSetFreq driver locking cpu freqInd c.recorded (world, [])).2.2 =
      ((internalSetFreq driver locking cpu freqInd c world).2.2,
        c.informed.map fun address => { address := address, cpu := cpu, state := freqInd })
  unchanged : ¬ (Reaches cpu freqInd c ∧ DriverSucceeds driver locking) →
    (internalSetFreq driver locking cpu freqInd c world).2 = (c, world)
  untold : ¬ (Reaches cpu freqInd c ∧ DriverSucceeds driver locking) →
    (internalSetFreq driver locking cpu freqInd c.recorded (world, [])).2.2 = (world, [])

end Change

variable {driver : Driver} {locking : Locking} {cpu freqInd : Nat} {c : Cpufreq World}
  {world : World}

/-- Writing a `policy->cur` changes nothing exactly where it holds the value already. -/
theorem setPolicyCur_eq_self_iff {frequency : Nat} :
    c.setPolicyCur cpu frequency = c ↔
      (c.freqInfo cpu).policy = some { cur := frequency } := by
  constructor
  · intro same
    have written : ((c.setPolicyCur cpu frequency).freqInfo cpu).policy =
        some { cur := frequency } := by
      show (Function.update c.freqInfo cpu _ cpu).policy = _
      rw [Function.update_self]
    rw [← written, same]
  · intro holds
    show { c with freqInfo := Function.update c.freqInfo cpu _ } = c
    rw [← holds]
    show { c with freqInfo := Function.update c.freqInfo cpu (c.freqInfo cpu) } = c
    rw [Function.update_eq_self]

/-- The call of the recording registry ends as the call itself, with the calls it has made. -/
theorem told_of_accepts (accepted : Accepts driver locking cpu freqInd c) :
    (internalSetFreq driver locking cpu freqInd c.recorded (world, [])).2.2 =
      ((internalSetFreq driver locking cpu freqInd c world).2.2,
        c.informed.map fun address => { address := address, cpu := cpu, state := freqInd }) := by
  have acceptedToo : Accepts driver locking cpu freqInd c.recorded := accepted
  rw [internalSetFreq_of_accepts accepted, internalSetFreq_of_accepts acceptedToo,
    informFreqChange_recorded, List.nil_append]

/-- A change leaves no trace of a failure exactly when it comes to no driver that refuses it, or
asks for the frequency `policy->cur` holds already. -/
theorem set_freq_no_trace_iff :
    LeavesNoTrace driver locking cpu freqInd c world ↔
      (Reaches cpu freqInd c → ¬ DriverSucceeds driver locking →
        (c.freqInfo cpu).policy = some { cur := (c.freqInfo cpu).table freqInd }) := by
  constructor
  · intro noTrace reaches refused
    have unchanged := noTrace.unchanged fun both => refused both.2
    rw [internalSetFreq_of_refused reaches refused] at unchanged
    exact setPolicyCur_eq_self_iff.mp (congrArg Prod.fst unchanged)
  · intro holds
    refine ⟨internalSetFreq_eq_zero_iff.trans accepts_iff, fun both => ?_, fun both => ?_,
      fun failed => ?_, fun failed => ?_⟩
    · rw [internalSetFreq_of_accepts (accepts_iff.mpr both)]
    · exact told_of_accepts (accepts_iff.mpr both)
    · by_cases reaches : Reaches cpu freqInd c
      · have refused : ¬ DriverSucceeds driver locking := fun taken => failed ⟨reaches, taken⟩
        rw [internalSetFreq_of_refused reaches refused,
          setPolicyCur_eq_self_iff.mpr (holds reaches refused)]
      · rw [internalSetFreq_of_not_reaches reaches]
    · have refusedToo : ¬ Accepts driver locking cpu freqInd c.recorded := fun accepted =>
        failed (accepts_iff.mp accepted)
      exact (internalSetFreq_of_not_accepts refusedToo (world, [])).2

/-- A driver that refuses every attempt with `-EINVAL`, asked for the second of two frequencies:
the error is returned, and `policy->cur` shows the frequency that the cpu does not have. -/
theorem set_freq_shows_refused :
    let driver : Driver := { lockingTarget := fun _ => -22, nonlockingTarget := fun _ => -22 }
    let c : Cpufreq Unit :=
      { nrCpus := 1
        freqInfo := fun cpu =>
          { cpu := cpu, curFreq := 0, numStates := 2
            table := fun index => if index = 0 then 1000 else 1400
            validEntry := fun _ => 1, policy := some { cur := 1000 } }
        user := fun _ => { inform := none, userId := 0 }, userHead := [], currentHighestId := 0 }
    let result := internalSetFreq driver .driverTargetLocking 0 1 c ()
    result.1 = -22 ∧ (result.2.1.freqInfo 0).policy = some { cur := 1400 } ∧
      ¬ LeavesNoTrace driver .driverTargetLocking 0 1 c () := by
  refine ⟨by decide, by decide, fun noTrace => ?_⟩
  have unchanged := congrArg (fun result => (result.1.freqInfo 0).policy)
    (noTrace.unchanged (by decide))
  exact absurd unchanged (by decide)

end Seeker
