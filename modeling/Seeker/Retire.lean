/-
This file embeds `retire_procs` of `mutate_common.c`: the idle cpus beyond those
required are put to sleep, and `cpu_awake_proxy` is made to list the cpus that stay
awake.

The pass stops as soon as few enough cpus are awake, and does not run at all when
they are few enough to begin with. It writes the flag of a cpu in `put_to_sleep` only
when it comes to that cpu, so the flags behind its last stop, and both arrays when it
does not run, keep what an earlier call left in them. The file says what every call
makes of the records and of the two arrays in terms of what the call finds.
-/
import Mathlib.Data.Nat.Count
import Seeker.MutateCommon

namespace Seeker

/-! ### The pass -/

/-- The variables of the pass: the records, `put_to_sleep`, `awake_total`, and whether the loop has
been left. -/
structure Retiring where
  info : Nat → ProcInfo
  putToSleep : Nat → Int
  awakeTotal : Int
  left : Bool

/-- The record of a cpu that is retired. -/
def ProcInfo.retire (p : ProcInfo) : ProcInfo :=
  { p with awake := 0, sleepTime := 1, awakeTime := 0 }

/-- One turn of the loop that retires. -/
def retireCpu (reqCpus : Int) (cpuTasks : Nat → Int) (cpu : Nat) (r : Retiring) : Retiring :=
  if r.left then r
  else
    let r :=
      if (r.info cpu).awake = 1 ∧ cpuTasks cpu = 0 then
        { r with
          putToSleep := Function.update r.putToSleep cpu 1
          info := Function.update r.info cpu (r.info cpu).retire
          awakeTotal := r.awakeTotal - 1 }
      else { r with putToSleep := Function.update r.putToSleep cpu 0 }
    { r with left := decide (r.awakeTotal ≤ reqCpus) }

/-- The loop that lists the awake cpus, with the number it has listed. -/
def listAwake (cpus : Nat) (info : Nat → ProcInfo) (cpuAwakeProxy : Nat → Nat) :
    (Nat → Nat) × Nat :=
  Loops.forRange cpus
    (fun cpu listed =>
      if (info cpu).awake = 1 then (Function.update listed.1 listed.2 cpu, listed.2 + 1)
      else listed)
    (cpuAwakeProxy, 0)

/-- What a call leaves behind. -/
structure Retired where
  info : Nat → ProcInfo
  putToSleep : Nat → Int
  cpuAwakeProxy : Nat → Nat

/-- The loop that retires, to its end. -/
def retirePass (cpus : Nat) (reqCpus : Int) (cpuTasks : Nat → Int) (info : Nat → ProcInfo)
    (putToSleep : Nat → Int) : Retiring :=
  Loops.forRange cpus (retireCpu reqCpus cpuTasks)
    { info := info, putToSleep := putToSleep, awakeTotal := awakeTotal cpus info, left := false }

/-- `retire_procs`. -/
def retireProcs (cpus : Nat) (reqCpus : Int) (cpuTasks : Nat → Int) (info : Nat → ProcInfo)
    (putToSleep : Nat → Int) (cpuAwakeProxy : Nat → Nat) : Retired :=
  if (awakeTotal cpus info : Int) ≤ reqCpus then
    { info := info, putToSleep := putToSleep, cpuAwakeProxy := cpuAwakeProxy }
  else
    let pass := retirePass cpus reqCpus cpuTasks info putToSleep
    { info := pass.info
      putToSleep := pass.putToSleep
      cpuAwakeProxy := (listAwake cpus pass.info cpuAwakeProxy).1 }

/-! ### What the pass comes to -/

section Pass

variable {cpus : Nat} {reqCpus : Int} {cpuTasks : Nat → Int} {info : Nat → ProcInfo}

/-- An awake cpu without tasks. -/
def IdleAwake (cpuTasks : Nat → Int) (info : Nat → ProcInfo) (cpu : Nat) : Prop :=
  (info cpu).awake = 1 ∧ cpuTasks cpu = 0

instance idleAwakeDecidable (cpuTasks : Nat → Int) (info : Nat → ProcInfo) :
    DecidablePred (IdleAwake cpuTasks info) :=
  fun _ => inferInstanceAs (Decidable (_ ∧ _))

/-- The pass comes to a cpu when too many are awake even without the idle ones before it. -/
def Visited (cpus : Nat) (reqCpus : Int) (cpuTasks : Nat → Int) (info : Nat → ProcInfo)
    (cpu : Nat) : Prop :=
  reqCpus + Nat.count (IdleAwake cpuTasks info) cpu < awakeTotal cpus info

instance visitedDecidable (cpus : Nat) (reqCpus : Int) (cpuTasks : Nat → Int)
    (info : Nat → ProcInfo) : DecidablePred (Visited cpus reqCpus cpuTasks info) :=
  fun _ => inferInstanceAs (Decidable (_ < _))

/-- A cpu that is awake after the call. -/
def StaysAwake (cpus : Nat) (reqCpus : Int) (cpuTasks : Nat → Int) (info : Nat → ProcInfo)
    (cpu : Nat) : Prop :=
  (info cpu).awake = 1 ∧ ¬ (cpuTasks cpu = 0 ∧ Visited cpus reqCpus cpuTasks info cpu)

instance staysAwakeDecidable (cpus : Nat) (reqCpus : Int) (cpuTasks : Nat → Int)
    (info : Nat → ProcInfo) : DecidablePred (StaysAwake cpus reqCpus cpuTasks info) :=
  fun _ => inferInstanceAs (Decidable (_ ∧ _))

theorem Visited.of_le {cpu earlier : Nat} (before : earlier ≤ cpu)
    (visited : Visited cpus reqCpus cpuTasks info cpu) :
    Visited cpus reqCpus cpuTasks info earlier := by
  have fewer := Nat.count_monotone (IdleAwake cpuTasks info) before
  unfold Visited at visited ⊢
  omega

/-- What the loop has done after looking at `count` cpus. -/
structure PassDone (cpus : Nat) (reqCpus : Int) (cpuTasks : Nat → Int) (info : Nat → ProcInfo)
    (putToSleep : Nat → Int) (count : Nat) (r : Retiring) : Prop where
  info_eq : ∀ cpu, r.info cpu =
    if cpu < count ∧ Visited cpus reqCpus cpuTasks info cpu ∧ IdleAwake cpuTasks info cpu then
      (info cpu).retire
    else info cpu
  putToSleep_eq : ∀ cpu, r.putToSleep cpu =
    if cpu < count ∧ Visited cpus reqCpus cpuTasks info cpu then
      if IdleAwake cpuTasks info cpu then 1 else 0
    else putToSleep cpu
  running : r.left = false → Visited cpus reqCpus cpuTasks info count ∧
    r.awakeTotal = awakeTotal cpus info - Nat.count (IdleAwake cpuTasks info) count
  stopped : r.left = true → ¬ Visited cpus reqCpus cpuTasks info count

/-- The flag of a cpu that the loop comes to says whether it is retired. -/
theorem PassDone.flags {putToSleep : Nat → Int} {cpu : Nat} {r : Retiring}
    (done : PassDone cpus reqCpus cpuTasks info putToSleep cpu r)
    (visited : Visited cpus reqCpus cpuTasks info cpu) (other : Nat) :
    Function.update r.putToSleep cpu (if IdleAwake cpuTasks info cpu then 1 else 0) other =
      if other < cpu + 1 ∧ Visited cpus reqCpus cpuTasks info other then
        if IdleAwake cpuTasks info other then 1 else 0
      else putToSleep other := by
  by_cases same : other = cpu
  · rw [same, Function.update_self]
    exact (if_pos ⟨Nat.lt_succ_self cpu, visited⟩).symm
  · have past : other < cpu + 1 ↔ other < cpu := by omega
    rw [Function.update_of_ne same, done.putToSleep_eq other]
    simp only [past]

/-- A turn that the loop comes to: the cpu is retired if it is idle, and passed over if not. -/
theorem PassDone.visit {putToSleep : Nat → Int} {cpu : Nat} {r : Retiring}
    (done : PassDone cpus reqCpus cpuTasks info putToSleep cpu r) (running : r.left = false) :
    PassDone cpus reqCpus cpuTasks info putToSleep (cpu + 1)
      (retireCpu reqCpus cpuTasks cpu r) := by
  obtain ⟨visited, total⟩ := done.running running
  have counts := Nat.count_succ (IdleAwake cpuTasks info) cpu
  have here : r.info cpu = info cpu := by
    rw [done.info_eq cpu, if_neg fun held => lt_irrefl cpu held.1]
  have asks : ((r.info cpu).awake = 1 ∧ cpuTasks cpu = 0) ↔ IdleAwake cpuTasks info cpu := by
    rw [here]
    rfl
  have past (other : Nat) (different : other ≠ cpu) : other < cpu + 1 ↔ other < cpu := by omega
  unfold retireCpu
  rw [if_neg (running ▸ Bool.false_ne_true)]
  by_cases idle : IdleAwake cpuTasks info cpu
  · rw [if_pos (asks.mpr idle)]
    rw [if_pos idle] at counts
    refine ⟨fun other => ?_, fun other => ?_, fun goes => ?_, fun stops => ?_⟩
    · show Function.update r.info cpu (r.info cpu).retire other = _
      by_cases same : other = cpu
      · rw [same, Function.update_self, here, if_pos ⟨Nat.lt_succ_self cpu, visited, idle⟩]
      · rw [Function.update_of_ne same, done.info_eq other]
        simp only [past other same]
    · have flags := done.flags visited other
      rwa [if_pos idle] at flags
    · have more : ¬ (r.awakeTotal - 1 ≤ reqCpus) := of_decide_eq_false goes
      refine ⟨?_, ?_⟩
      · unfold Visited
        omega
      · show r.awakeTotal - 1 = _
        omega
    · have enough : r.awakeTotal - 1 ≤ reqCpus := of_decide_eq_true stops
      unfold Visited
      omega
  · rw [if_neg fun held => idle (asks.mp held)]
    rw [if_neg idle] at counts
    refine ⟨fun other => ?_, fun other => ?_, fun goes => ?_, fun stops => ?_⟩
    · rw [done.info_eq other]
      by_cases same : other = cpu
      · rw [same, if_neg fun held => idle held.2.2, if_neg fun held => idle held.2.2]
      · simp only [past other same]
    · have flags := done.flags visited other
      rwa [if_neg idle] at flags
    · have more : ¬ (r.awakeTotal ≤ reqCpus) := of_decide_eq_false goes
      refine ⟨?_, ?_⟩
      · unfold Visited
        omega
      · show r.awakeTotal = _
        omega
    · have enough : r.awakeTotal ≤ reqCpus := of_decide_eq_true stops
      unfold Visited
      omega

/-- A turn after the loop has been left. -/
theorem PassDone.skip {putToSleep : Nat → Int} {cpu : Nat} {r : Retiring}
    (done : PassDone cpus reqCpus cpuTasks info putToSleep cpu r) (left : r.left = true) :
    PassDone cpus reqCpus cpuTasks info putToSleep (cpu + 1)
      (retireCpu reqCpus cpuTasks cpu r) := by
  have past := done.stopped left
  have same (other : Nat) (visited : Visited cpus reqCpus cpuTasks info other) :
      other < cpu ↔ other < cpu + 1 := by
    have before : other < cpu := not_le.mp fun behind => past (visited.of_le behind)
    exact ⟨Nat.lt_succ_of_lt, fun _ => before⟩
  unfold retireCpu
  rw [if_pos left]
  refine ⟨fun other => ?_, fun other => ?_, fun running => ?_, fun _ visited => ?_⟩
  · rw [done.info_eq other]
    exact if_congr (and_congr_left fun held => same other held.1) rfl rfl
  · rw [done.putToSleep_eq other]
    exact if_congr (and_congr_left fun visited => same other visited) rfl rfl
  · rw [left] at running
    cases running
  · exact past (visited.of_le (Nat.le_succ cpu))

theorem retirePass_done (putToSleep : Nat → Int) (many : reqCpus < awakeTotal cpus info) :
    PassDone cpus reqCpus cpuTasks info putToSleep cpus
      (retirePass cpus reqCpus cpuTasks info putToSleep) := by
  refine Loops.forRange_induction
    (fun count r => PassDone cpus reqCpus cpuTasks info putToSleep count r) ?_ ?_
  · refine ⟨fun cpu => ?_, fun cpu => ?_, fun _ => ⟨?_, ?_⟩, fun left => by cases left⟩
    · rw [if_neg fun held => Nat.not_lt_zero cpu held.1]
    · rw [if_neg fun held => Nat.not_lt_zero cpu held.1]
    · show reqCpus + (Nat.count (IdleAwake cpuTasks info) 0 : Int) < awakeTotal cpus info
      rw [Nat.count_zero]
      omega
    · rw [Nat.count_zero]
      exact (Int.sub_zero _).symm
  · intro cpu _ r done
    cases left : r.left with
    | true => exact done.skip left
    | false => exact done.visit left

end Pass

/-! ### The list of the awake cpus -/

/-- The list has each awake cpu at the number of awake cpus before it, and is as it was behind
them. -/
theorem listAwake_spec (cpus : Nat) (info : Nat → ProcInfo) (cpuAwakeProxy : Nat → Nat) :
    (listAwake cpus info cpuAwakeProxy).2 = Nat.count (fun cpu => (info cpu).awake = 1) cpus ∧
      (∀ cpu, cpu < cpus → (info cpu).awake = 1 →
        (listAwake cpus info cpuAwakeProxy).1 (Nat.count (fun cpu => (info cpu).awake = 1) cpu) =
          cpu) ∧
      (∀ k, k < Nat.count (fun cpu => (info cpu).awake = 1) cpus →
        (listAwake cpus info cpuAwakeProxy).1 k < cpus) ∧
      ∀ k, Nat.count (fun cpu => (info cpu).awake = 1) cpus ≤ k →
        (listAwake cpus info cpuAwakeProxy).1 k = cpuAwakeProxy k := by
  refine Loops.forRange_induction (fun count (listed : (Nat → Nat) × Nat) =>
    listed.2 = Nat.count (fun cpu => (info cpu).awake = 1) count ∧
      (∀ cpu, cpu < count → (info cpu).awake = 1 →
        listed.1 (Nat.count (fun cpu => (info cpu).awake = 1) cpu) = cpu) ∧
      (∀ k, k < Nat.count (fun cpu => (info cpu).awake = 1) count → listed.1 k < count) ∧
      ∀ k, Nat.count (fun cpu => (info cpu).awake = 1) count ≤ k →
        listed.1 k = cpuAwakeProxy k) ?_ ?_
  · refine ⟨rfl, fun cpu small => absurd small (Nat.not_lt_zero cpu), fun k small => ?_,
      fun _ _ => rfl⟩
    rw [Nat.count_zero] at small
    exact absurd small (Nat.not_lt_zero k)
  · intro cpu _ listed ⟨number, places, within, rest⟩
    rw [Nat.count_succ]
    by_cases awake : (info cpu).awake = 1
    · rw [if_pos awake, if_pos awake]
      refine ⟨congrArg (· + 1) number, fun other small awakeToo => ?_, fun k small => ?_,
        fun k past => ?_⟩
      · show Function.update listed.1 listed.2 cpu _ = other
        rw [number]
        by_cases here : other = cpu
        · rw [here, Function.update_self]
        · have before : other < cpu := by omega
          have fewer := Nat.count_strict_mono (p := fun cpu => (info cpu).awake = 1) awakeToo before
          rw [Function.update_of_ne (Nat.ne_of_lt fewer)]
          exact places other before awakeToo
      · show Function.update listed.1 listed.2 cpu k < cpu + 1
        rw [number]
        by_cases last : k = Nat.count (fun cpu => (info cpu).awake = 1) cpu
        · rw [last, Function.update_self]
          exact Nat.lt_succ_self cpu
        · rw [Function.update_of_ne last]
          exact Nat.lt_succ_of_lt (within k (by omega))
      · show Function.update listed.1 listed.2 cpu k = _
        rw [number, Function.update_of_ne (by omega)]
        exact rest k (by omega)
    · rw [if_neg awake, if_neg awake]
      refine ⟨number, fun other small awakeToo => ?_, fun k small => ?_, rest⟩
      · refine places other (lt_of_le_of_ne (Nat.le_of_lt_succ small) fun here => awake ?_) awakeToo
        rw [← here]
        exact awakeToo
      · exact Nat.lt_succ_of_lt (within k small)

/-! ### The call -/

/-- What a call leaves behind, in terms of what it finds: the records and the flags of the cpus it
comes to, and, when it runs, the list of the cpus that stay awake. -/
structure RetireDone (cpus : Nat) (reqCpus : Int) (cpuTasks : Nat → Int) (info : Nat → ProcInfo)
    (putToSleep : Nat → Int) (cpuAwakeProxy : Nat → Nat) (r : Retired) : Prop where
  info_eq : ∀ cpu, r.info cpu =
    if cpu < cpus ∧ Visited cpus reqCpus cpuTasks info cpu ∧ IdleAwake cpuTasks info cpu then
      (info cpu).retire
    else info cpu
  putToSleep_eq : ∀ cpu, r.putToSleep cpu =
    if cpu < cpus ∧ Visited cpus reqCpus cpuTasks info cpu then
      if IdleAwake cpuTasks info cpu then 1 else 0
    else putToSleep cpu
  listed : reqCpus < awakeTotal cpus info → ∀ cpu, cpu < cpus →
    StaysAwake cpus reqCpus cpuTasks info cpu →
    r.cpuAwakeProxy (Nat.count (StaysAwake cpus reqCpus cpuTasks info) cpu) = cpu
  kept : (awakeTotal cpus info : Int) ≤ reqCpus → r.cpuAwakeProxy = cpuAwakeProxy
  within : ∀ k, r.cpuAwakeProxy k < cpus ∨ r.cpuAwakeProxy k = cpuAwakeProxy k

section Call

variable {cpus : Nat} {reqCpus : Int} {cpuTasks : Nat → Int} {info : Nat → ProcInfo}
  {putToSleep : Nat → Int} {cpuAwakeProxy : Nat → Nat} {r : Retired}

/-- A record that the call leaves is awake exactly where the cpu stays awake. -/
theorem retired_awake_iff {cpu : Nat} (online : cpu < cpus) :
    (if cpu < cpus ∧ Visited cpus reqCpus cpuTasks info cpu ∧ IdleAwake cpuTasks info cpu then
      (info cpu).retire
    else info cpu).awake = 1 ↔ StaysAwake cpus reqCpus cpuTasks info cpu := by
  by_cases retired : Visited cpus reqCpus cpuTasks info cpu ∧ IdleAwake cpuTasks info cpu
  · rw [if_pos ⟨online, retired⟩]
    refine ⟨fun awake => ?_, fun stays => ?_⟩
    · cases awake
    · exact absurd ⟨retired.2.2, retired.1⟩ stays.2
  · rw [if_neg fun held => retired held.2]
    refine ⟨fun awake => ⟨awake, fun idle => ?_⟩, fun stays => stays.1⟩
    exact retired ⟨idle.2, awake, idle.1⟩

/-- The cpus that are awake after a call. -/
theorem RetireDone.awake_iff
    (done : RetireDone cpus reqCpus cpuTasks info putToSleep cpuAwakeProxy r) {cpu : Nat}
    (online : cpu < cpus) :
    (r.info cpu).awake = 1 ↔ StaysAwake cpus reqCpus cpuTasks info cpu := by
  rw [done.info_eq cpu]
  exact retired_awake_iff online

theorem count_congr {first second : Nat → Prop} [DecidablePred first] [DecidablePred second]
    {count : Nat} (same : ∀ cpu, cpu < count → (first cpu ↔ second cpu)) :
    Nat.count first count = Nat.count second count := by
  rw [Nat.count_eq_card_filter_range, Nat.count_eq_card_filter_range]
  congr 1
  ext cpu
  simp only [Finset.mem_filter, Finset.mem_range, and_congr_right_iff]
  exact same cpu

theorem retireProcs_done (cpus : Nat) (reqCpus : Int) (cpuTasks : Nat → Int)
    (info : Nat → ProcInfo) (putToSleep : Nat → Int) (cpuAwakeProxy : Nat → Nat) :
    RetireDone cpus reqCpus cpuTasks info putToSleep cpuAwakeProxy
      (retireProcs cpus reqCpus cpuTasks info putToSleep cpuAwakeProxy) := by
  unfold retireProcs
  by_cases few : (awakeTotal cpus info : Int) ≤ reqCpus
  · have never (cpu : Nat) : ¬ Visited cpus reqCpus cpuTasks info cpu := by
      unfold Visited
      omega
    rw [if_pos few]
    refine ⟨fun cpu => ?_, fun cpu => ?_, fun many => absurd few (not_le.mpr many), fun _ => rfl,
      fun _ => Or.inr rfl⟩
    · rw [if_neg fun held => never cpu held.2.1]
    · rw [if_neg fun held => never cpu held.2]
  · have done : PassDone cpus reqCpus cpuTasks info putToSleep cpus
        (retirePass cpus reqCpus cpuTasks info putToSleep) :=
      retirePass_done putToSleep (not_le.mp few)
    obtain ⟨_, places, within, rest⟩ := listAwake_spec cpus
      (retirePass cpus reqCpus cpuTasks info putToSleep).info cpuAwakeProxy
    have awake (cpu : Nat) (online : cpu < cpus) :
        ((retirePass cpus reqCpus cpuTasks info putToSleep).info cpu).awake = 1 ↔
          StaysAwake cpus reqCpus cpuTasks info cpu := by
      rw [done.info_eq cpu]
      exact retired_awake_iff online
    rw [if_neg few]
    refine ⟨done.info_eq, done.putToSleep_eq, fun _ cpu online stays => ?_,
      fun enough => absurd enough few, fun k => ?_⟩
    · have place := places cpu online ((awake cpu online).mpr stays)
      rw [count_congr fun other before => awake other (before.trans online)] at place
      exact place
    · exact (Nat.lt_or_ge k _).imp (within k) (rest k)

end Call

end Seeker
