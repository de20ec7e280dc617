/-
This file says when the outputs of `retire_procs` describe the cpus that are awake
after the call.

A call that has too many cpus awake retires idle ones, in order, until few enough are
left, and lists those that stay awake. A call that has no cpu to spare returns before
it writes the list, and the loop that retires leaves the flags behind its last stop as
they were. Both arrays are static in the caller, so what the call does not write is
what an earlier interval left there.
-/
import Seeker.Retire

namespace Seeker

/-! ### How many cpus are retired -/

section Counts

variable {cpus : Nat} {reqCpus : Int} {cpuTasks : Nat → Int} {info : Nat → ProcInfo}

/-- A cpu that the call puts to sleep. -/
def Retires (cpus : Nat) (reqCpus : Int) (cpuTasks : Nat → Int) (info : Nat → ProcInfo)
    (cpu : Nat) : Prop :=
  IdleAwake cpuTasks info cpu ∧ Visited cpus reqCpus cpuTasks info cpu

instance retiresDecidable (cpus : Nat) (reqCpus : Int) (cpuTasks : Nat → Int)
    (info : Nat → ProcInfo) : DecidablePred (Retires cpus reqCpus cpuTasks info) :=
  fun _ => inferInstanceAs (Decidable (_ ∧ _))

theorem awakeTotal_eq_count {info : Nat → ProcInfo}
    (flags : ∀ cpu, cpu < cpus → (info cpu).awake = 0 ∨ (info cpu).awake = 1) :
    awakeTotal cpus info = Nat.count (fun cpu => (info cpu).awake = 1) cpus := by
  rw [awakeTotal_eq flags, Nat.count_eq_card_filter_range, awakeCpus]

/-- As many idle cpus are retired as there are, or as are too many. -/
theorem count_retires (cpuTasks : Nat → Int) (many : reqCpus < awakeTotal cpus info)
    (count : Nat) :
    (Nat.count (Retires cpus reqCpus cpuTasks info) count : Int) =
      min (Nat.count (IdleAwake cpuTasks info) count : Int) (awakeTotal cpus info - reqCpus) := by
  induction count with
  | zero =>
    rw [Nat.count_zero, Nat.count_zero]
    omega
  | succ count inductionHypothesis =>
    rw [Nat.count_succ, Nat.count_succ]
    by_cases idle : IdleAwake cpuTasks info count
    · by_cases visited : Visited cpus reqCpus cpuTasks info count
      · rw [if_pos ⟨idle, visited⟩, if_pos idle]
        unfold Visited at visited
        push_cast
        omega
      · rw [if_neg fun retires => visited retires.2, if_pos idle]
        unfold Visited at visited
        push_cast
        omega
    · rw [if_neg fun retires => idle retires.1, if_neg idle]
      exact inductionHypothesis

/-- The cpus that were awake either stay so or are retired. -/
theorem count_staysAwake (cpus : Nat) (reqCpus : Int) (cpuTasks : Nat → Int)
    (info : Nat → ProcInfo) (count : Nat) :
    Nat.count (StaysAwake cpus reqCpus cpuTasks info) count +
        Nat.count (Retires cpus reqCpus cpuTasks info) count =
      Nat.count (fun cpu => (info cpu).awake = 1) count := by
  induction count with
  | zero => rfl
  | succ count inductionHypothesis =>
    rw [Nat.count_succ, Nat.count_succ, Nat.count_succ, ← inductionHypothesis]
    by_cases awake : (info count).awake = 1
    · by_cases retires : Retires cpus reqCpus cpuTasks info count
      · have leaves : ¬ StaysAwake cpus reqCpus cpuTasks info count := fun stays =>
          stays.2 ⟨retires.1.2, retires.2⟩
        rw [if_neg leaves, if_pos retires, if_pos awake]
        omega
      · have stays : StaysAwake cpus reqCpus cpuTasks info count :=
          ⟨awake, fun idle => retires ⟨⟨awake, idle.1⟩, idle.2⟩⟩
        rw [if_pos stays, if_neg retires, if_pos awake]
        omega
    · rw [if_neg fun stays => awake stays.1, if_neg fun retires => awake retires.1.1,
        if_neg awake]
      rfl

/-- A list that has each selected index at the number of selected ones before it. -/
theorem map_range_eq_filter {selected : Nat → Prop} [DecidablePred selected] {list : Nat → Nat}
    {bound : Nat}
    (places : ∀ index, index < bound → selected index →
      list (Nat.count selected index) = index) :
    (List.range (Nat.count selected bound)).map list =
      (List.range bound).filter fun index => decide (selected index) := by
  induction bound with
  | zero => rfl
  | succ bound inductionHypothesis =>
    have before := inductionHypothesis fun index small => places index (Nat.lt_succ_of_lt small)
    rw [List.range_succ, List.filter_append, ← before, Nat.count_succ]
    by_cases here : selected bound
    · rw [if_pos here, List.range_succ, List.map_append, List.map_singleton,
        places bound (Nat.lt_succ_self bound) here, List.filter_singleton, decide_eq_true here,
        cond_true]
    · rw [if_neg here, Nat.add_zero, List.filter_singleton, decide_eq_false here, cond_false,
        List.append_nil]

end Counts

/-! ### What the outputs say -/

/-- The awake cpus in increasing order. -/
def awakeList (cpus : Nat) (info : Nat → ProcInfo) : List Nat :=
  (List.range cpus).filter fun cpu => decide ((info cpu).awake = 1)

/-- A cpu is awake before and asleep after. -/
def PutToSleep (before after : Nat → ProcInfo) (cpu : Nat) : Prop :=
  (before cpu).awake = 1 ∧ (after cpu).awake ≠ 1

instance (before after : Nat → ProcInfo) : DecidablePred (PutToSleep before after) :=
  fun _ => inferInstanceAs (Decidable (_ ∧ _))

/-- The outputs describe the awake cpus: the flags are those of the cpus that were put to sleep,
which had no tasks; no more than necessary and possible were; and the list is that of the cpus
that are awake now. -/
structure DescribesAwake (cpus : Nat) (reqCpus : Int) (cpuTasks : Nat → Int)
    (info : Nat → ProcInfo) (r : Retired) : Prop where
  flags : ∀ cpu, cpu < cpus → (r.putToSleep cpu = 1 ↔ PutToSleep info r.info cpu)
  idle : ∀ cpu, cpu < cpus → PutToSleep info r.info cpu → cpuTasks cpu = 0
  number : (awakeTotal cpus r.info : Int) =
    if reqCpus < awakeTotal cpus info then
      max reqCpus (awakeTotal cpus info - Nat.count (IdleAwake cpuTasks info) cpus)
    else awakeTotal cpus info
  listed : (List.range (awakeTotal cpus r.info)).map r.cpuAwakeProxy = awakeList cpus r.info

section Call

variable {cpus : Nat} {reqCpus : Int} {cpuTasks : Nat → Int} {info : Nat → ProcInfo}
  {putToSleep : Nat → Int} {cpuAwakeProxy : Nat → Nat} {r : Retired}

theorem RetireDone.putToSleep_iff
    (done : RetireDone cpus reqCpus cpuTasks info putToSleep cpuAwakeProxy r) {cpu : Nat}
    (online : cpu < cpus) :
    PutToSleep info r.info cpu ↔ Retires cpus reqCpus cpuTasks info cpu := by
  unfold PutToSleep
  rw [ne_eq, done.awake_iff online]
  constructor
  · rintro ⟨awake, leaves⟩
    have idle : cpuTasks cpu = 0 ∧ Visited cpus reqCpus cpuTasks info cpu := by
      by_contra stays
      exact leaves ⟨awake, stays⟩
    exact ⟨⟨awake, idle.1⟩, idle.2⟩
  · rintro ⟨⟨awake, tasks⟩, visited⟩
    exact ⟨awake, fun stays => stays.2 ⟨tasks, visited⟩⟩

/-- The flags say who was put to sleep exactly if no cpu that the loop does not come to was still
flagged. -/
theorem RetireDone.flags_iff
    (done : RetireDone cpus reqCpus cpuTasks info putToSleep cpuAwakeProxy r) :
    (∀ cpu, cpu < cpus → (r.putToSleep cpu = 1 ↔ PutToSleep info r.info cpu)) ↔
      ∀ cpu, cpu < cpus → ¬ Visited cpus reqCpus cpuTasks info cpu → putToSleep cpu ≠ 1 := by
  refine forall₂_congr fun cpu online => ?_
  rw [done.putToSleep_iff online, done.putToSleep_eq cpu]
  unfold Retires
  by_cases visited : Visited cpus reqCpus cpuTasks info cpu
  · rw [if_pos ⟨online, visited⟩]
    by_cases idle : IdleAwake cpuTasks info cpu
    · simp [idle, visited]
    · simp [idle, visited]
  · rw [if_neg fun held => visited held.2]
    simp [visited]

/-- The records a call leaves are flags again. -/
theorem RetireDone.awake_flags
    (done : RetireDone cpus reqCpus cpuTasks info putToSleep cpuAwakeProxy r)
    (flags : ∀ cpu, cpu < cpus → (info cpu).awake = 0 ∨ (info cpu).awake = 1) (cpu : Nat)
    (online : cpu < cpus) : (r.info cpu).awake = 0 ∨ (r.info cpu).awake = 1 := by
  rw [done.info_eq cpu]
  split
  · exact Or.inl rfl
  · exact flags cpu online

theorem RetireDone.awakeTotal_eq
    (done : RetireDone cpus reqCpus cpuTasks info putToSleep cpuAwakeProxy r)
    (flags : ∀ cpu, cpu < cpus → (info cpu).awake = 0 ∨ (info cpu).awake = 1) :
    awakeTotal cpus r.info = Nat.count (StaysAwake cpus reqCpus cpuTasks info) cpus := by
  rw [awakeTotal_eq_count (done.awake_flags flags)]
  exact count_congr fun cpu online => done.awake_iff online

/-- As many cpus are awake afterwards as are required, or busy, or were awake. -/
theorem RetireDone.number
    (done : RetireDone cpus reqCpus cpuTasks info putToSleep cpuAwakeProxy r)
    (flags : ∀ cpu, cpu < cpus → (info cpu).awake = 0 ∨ (info cpu).awake = 1) :
    (awakeTotal cpus r.info : Int) =
      if reqCpus < awakeTotal cpus info then
        max reqCpus (awakeTotal cpus info - Nat.count (IdleAwake cpuTasks info) cpus)
      else awakeTotal cpus info := by
  have whole := count_staysAwake cpus reqCpus cpuTasks info cpus
  rw [← awakeTotal_eq_count flags, ← done.awakeTotal_eq flags] at whole
  split
  · rename_i many
    have retired := count_retires cpuTasks many cpus
    omega
  · rename_i few
    have none : Nat.count (Retires cpus reqCpus cpuTasks info) cpus = 0 := by
      refine Nat.count_iff_forall_not.mpr fun cpu _ retires => ?_
      have visited := retires.2
      unfold Visited at visited
      omega
    omega

theorem awakeList_congr {first second : Nat → ProcInfo}
    (same : ∀ cpu, cpu < cpus → ((first cpu).awake = 1 ↔ (second cpu).awake = 1)) :
    awakeList cpus first = awakeList cpus second :=
  List.filter_congr fun cpu member => decide_eq_decide.mpr (same cpu (List.mem_range.mp member))

/-- The list is that of the awake cpus if the call is one that lists them. -/
theorem RetireDone.listed_of_many
    (done : RetireDone cpus reqCpus cpuTasks info putToSleep cpuAwakeProxy r)
    (flags : ∀ cpu, cpu < cpus → (info cpu).awake = 0 ∨ (info cpu).awake = 1)
    (many : reqCpus < awakeTotal cpus info) :
    (List.range (awakeTotal cpus r.info)).map r.cpuAwakeProxy = awakeList cpus r.info := by
  rw [done.awakeTotal_eq flags, map_range_eq_filter (done.listed many)]
  exact List.filter_congr fun cpu member =>
    decide_eq_decide.mpr (done.awake_iff (List.mem_range.mp member)).symm

/-- With no cpu to spare the list is what it was. -/
theorem RetireDone.listed_of_few
    (done : RetireDone cpus reqCpus cpuTasks info putToSleep cpuAwakeProxy r)
    (flags : ∀ cpu, cpu < cpus → (info cpu).awake = 0 ∨ (info cpu).awake = 1)
    (few : (awakeTotal cpus info : Int) ≤ reqCpus) :
    (List.range (awakeTotal cpus r.info)).map r.cpuAwakeProxy = awakeList cpus r.info ↔
      (List.range (awakeTotal cpus info)).map cpuAwakeProxy = awakeList cpus info := by
  have number := done.number flags
  rw [if_neg (not_lt.mpr few)] at number
  have same : awakeList cpus r.info = awakeList cpus info := by
    refine awakeList_congr fun cpu online => ?_
    rw [done.info_eq cpu, if_neg]
    rintro ⟨_, visited, _⟩
    unfold Visited at visited
    omega
  rw [Int.ofNat_inj.mp number, done.kept few, same]

/-- The outputs describe the awake cpus exactly if no cpu that the loop does not come to is still
flagged and, where no cpu is to spare, the list is already that of the awake cpus. -/
theorem retire_procs_describes_iff
    (flags : ∀ cpu, cpu < cpus → (info cpu).awake = 0 ∨ (info cpu).awake = 1) :
    DescribesAwake cpus reqCpus cpuTasks info
        (retireProcs cpus reqCpus cpuTasks info putToSleep cpuAwakeProxy) ↔
      (∀ cpu, cpu < cpus → ¬ Visited cpus reqCpus cpuTasks info cpu → putToSleep cpu ≠ 1) ∧
        ((awakeTotal cpus info : Int) ≤ reqCpus →
          (List.range (awakeTotal cpus info)).map cpuAwakeProxy = awakeList cpus info) := by
  have done := retireProcs_done cpus reqCpus cpuTasks info putToSleep cpuAwakeProxy
  constructor
  · intro describes
    exact ⟨done.flags_iff.mp describes.flags, fun few =>
      (done.listed_of_few flags few).mp describes.listed⟩
  · rintro ⟨unflagged, listed⟩
    refine ⟨done.flags_iff.mpr unflagged, fun cpu online slept => ?_, done.number flags, ?_⟩
    · exact ((done.putToSleep_iff online).mp slept).1.2
    · rcases le_or_gt (awakeTotal cpus info : Int) reqCpus with few | many
      · exact (done.listed_of_few flags few).mpr (listed few)
      · exact done.listed_of_many flags many

end Call

/-- Three cpus, the first of them idle, and two required: the loop stops behind it. -/
theorem retire_procs_describes_iff_three_cpus :
    DescribesAwake 3 2 (fun cpu => cpu) (fun _ => ⟨0, 1, 1⟩)
      (retireProcs 3 2 (fun cpu => cpu) (fun _ => ⟨0, 1, 1⟩) (fun _ => 0) fun _ => 0) :=
  (retire_procs_describes_iff fun _ _ => Or.inr rfl).mpr ⟨by decide, fun few => by
    revert few
    decide⟩

/-- Two cpus at work and two required, after an interval that flagged the first one: the call
returns at once, the flag stands, and the list has the first cpu twice. -/
theorem retire_procs_leaves_stale :
    let r := retireProcs 2 2 (fun _ => 1) (fun _ => ⟨0, 1, 1⟩)
      (fun cpu => if cpu = 0 then 1 else 0) fun _ => 0
    (r.putToSleep 0 = 1 ∧ (r.info 0).awake = 1) ∧
      (List.range (awakeTotal 2 r.info)).map r.cpuAwakeProxy = [0, 0] ∧
      ¬ DescribesAwake 2 2 (fun _ => 1) (fun _ => ⟨0, 1, 1⟩) r := by
  refine ⟨by decide, by decide, fun describes => ?_⟩
  exact absurd ((describes.flags 0 (by decide)).mp (by decide)).2 (by decide)

end Seeker
