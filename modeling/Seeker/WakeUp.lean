/-
This file says which cpus `wake_up_procs` wakes.

Each turn of its outer loop counts the awake cpus again, by their sleep counters, and
wakes the sleeper whose counter is smallest. So the cpus it has woken have slept no
longer than those it has left asleep, and their number is what was missing, or as many
as there were. Only a counter that stands at `UINT_MAX` is never found.
-/
import Seeker.MutateCommon

namespace Seeker

/-- What the outer loop has done: it has woken sleepers that have slept least, and not more of
them than required. -/
structure Waking (cpus : Nat) (reqCpus : Int) (info : Nat → ProcInfo)
    (current : (Nat → ProcInfo) × Bool) : Prop where
  consistent : WakeConsistent cpus current.1
  changed : ∀ cpu, current.1 cpu = info cpu ∨
    cpu < cpus ∧ (info cpu).awake ≠ 1 ∧ (current.1 cpu).awake = 1
  shortest : ∀ cpu other, other < cpus → (info cpu).awake ≠ 1 → (current.1 cpu).awake = 1 →
    (current.1 other).awake ≠ 1 → (info cpu).sleepTime ≤ (info other).sleepTime
  more : (awakeCpus cpus info).card ≤ (awakeCpus cpus current.1).card
  bound : ((awakeCpus cpus current.1).card : Int) ≤ reqCpus
  running : current.2 = false → ((awakeCpus cpus current.1).card : Int) < reqCpus

section Turn

variable {cpus : Nat} {reqCpus : Int} {info : Nat → ProcInfo}
  {current : (Nat → ProcInfo) × Bool}

theorem Waking.start (consistent : WakeConsistent cpus info)
    (few : ((awakeCpus cpus info).card : Int) < reqCpus) :
    Waking cpus reqCpus info (info, false) where
  consistent := consistent
  changed _ := Or.inl rfl
  shortest _ _ _ asleep awake _ := absurd awake asleep
  more := le_rfl
  bound := few.le
  running _ := few

/-- A cpu that is still asleep is as it was. -/
theorem Waking.asleep (waking : Waking cpus reqCpus info current) {cpu : Nat}
    (asleep : (current.1 cpu).awake ≠ 1) : current.1 cpu = info cpu :=
  (waking.changed cpu).resolve_right fun woken => asleep woken.2.2

theorem wakeCpu_awake_iff {records : Nat → ProcInfo} {cpu other : Nat} :
    (wakeCpu cpu records other).awake = 1 ↔ other = cpu ∨ (records other).awake = 1 := by
  unfold wakeCpu
  by_cases same : other = cpu
  · rw [same, Function.update_self]
    exact ⟨fun _ => Or.inl rfl, fun _ => rfl⟩
  · rw [Function.update_of_ne same]
    exact ⟨Or.inr, fun woken => woken.resolve_left same⟩

/-- Waking the sleeper that has slept least. -/
theorem Waking.wake (waking : Waking cpus reqCpus info current) (running : current.2 = false)
    {cpu : Nat} (small : cpu < cpus) (asleep : (current.1 cpu).awake ≠ 1)
    (least : ∀ other, other < cpus → (current.1 other).sleepTime ≠ 0 →
      (current.1 cpu).sleepTime ≤ (current.1 other).sleepTime) :
    Waking cpus reqCpus info (wakeCpu cpu current.1,
      decide (((awakeCpus cpus current.1).card : Int) + 1 ≥ reqCpus)) := by
  have card := card_awakeCpus_wakeCpu small asleep
  have few := waking.running running
  have before := waking.asleep asleep
  refine ⟨waking.consistent.wakeCpu cpu, fun other => ?_, ?_, ?_, ?_, fun goes => ?_⟩
  · by_cases same : other = cpu
    · rw [same]
      exact Or.inr ⟨small, before ▸ asleep, wakeCpu_awake_iff.mpr (Or.inl rfl)⟩
    · have kept : wakeCpu cpu current.1 other = current.1 other := Function.update_of_ne same _ _
      dsimp only
      rw [kept]
      exact waking.changed other
  · intro woken other otherSmall wasAsleep isAwake stillAsleep
    have otherAsleep : (current.1 other).awake ≠ 1 := fun awake =>
      stillAsleep (wakeCpu_awake_iff.mpr (Or.inr awake))
    rcases wakeCpu_awake_iff.mp isAwake with rfl | already
    · have counter : (current.1 other).sleepTime ≠ 0 := fun zero =>
        otherAsleep ((waking.consistent other otherSmall).2.mpr zero)
      rw [← before, ← waking.asleep otherAsleep]
      exact least other otherSmall counter
    · exact waking.shortest woken other otherSmall wasAsleep already otherAsleep
  · show (awakeCpus cpus info).card ≤ (awakeCpus cpus (wakeCpu cpu current.1)).card
    rw [card]
    exact waking.more.trans (Nat.le_succ _)
  · show ((awakeCpus cpus (wakeCpu cpu current.1)).card : Int) ≤ reqCpus
    rw [card]
    push_cast
    omega
  · have missing := of_decide_eq_false goes
    show ((awakeCpus cpus (wakeCpu cpu current.1)).card : Int) < reqCpus
    rw [card]
    push_cast
    omega

/-- One turn of the outer loop. -/
theorem Waking.step (waking : Waking cpus reqCpus info current)
    {next : (Nat → ProcInfo) × Bool} (round : wakeRound cpus reqCpus current = some next) :
    Waking cpus reqCpus info next := by
  unfold wakeRound at round
  split at round
  · cases round
  · rename_i goes
    have running : current.2 = false := eq_false_of_ne_true goes
    have few := waking.running running
    have found := wakeScan_found waking.consistent few
    cases chosen : (wakeScan cpus reqCpus current.1).wakeUpProc with
    | none =>
      have short : ¬ (wakeScan cpus reqCpus current.1).awakeTotal ≥ reqCpus := by
        rw [found.counted]
        omega
      simp only [chosen, Option.some.injEq] at round
      rw [← round]
      exact { waking with running := fun _ => few }
    | some cpu =>
      obtain ⟨small, counter, minimal⟩ := found.found cpu chosen
      simp only [chosen, Option.some.injEq] at round
      rw [← round, found.counted]
      refine waking.wake running small
        (fun awake => counter ((waking.consistent cpu small).2.mp awake)) ?_
      intro other otherSmall otherCounter
      rw [minimal]
      exact found.least other otherSmall otherCounter

end Turn

section Call

variable {cpus : Nat} {reqCpus : Int} {info : Nat → ProcInfo}

/-- What a call of `wake_up_procs` does when too few cpus are awake. -/
theorem wakeUpProcs_waking (consistent : WakeConsistent cpus info)
    (few : ((awakeCpus cpus info).card : Int) < reqCpus) :
    ∃ flag, Waking cpus reqCpus info (wakeUpProcs cpus reqCpus info, flag) := by
  have notEnough : ¬ (awakeTotal cpus info : Int) ≥ reqCpus := by
    rw [awakeTotal_eq consistent.flags]
    omega
  unfold wakeUpProcs
  rw [if_neg notEnough]
  exact ⟨_, Loops.repeatUpTo_induction (Waking cpus reqCpus info)
    (fun _ _ waking round => waking.step round) _ (Waking.start consistent few)⟩

theorem wakeUpProcs_of_enough (consistent : WakeConsistent cpus info)
    (enough : reqCpus ≤ (awakeCpus cpus info).card) : wakeUpProcs cpus reqCpus info = info := by
  unfold wakeUpProcs
  rw [awakeTotal_eq consistent.flags, if_pos enough]

theorem card_awakeCpus_le (cpus : Nat) (info : Nat → ProcInfo) :
    (awakeCpus cpus info).card ≤ cpus :=
  (Finset.card_filter_le _ _).trans (Finset.card_range cpus).le

/-- With no cpu asleep all are awake. -/
theorem card_awakeCpus_of_stuck {records : Nat → ProcInfo}
    (consistent : WakeConsistent cpus records) (stuck : Stuck cpus records)
    (short : ∀ cpu, cpu < cpus → (records cpu).awake ≠ 1 → (records cpu).sleepTime < uintMax) :
    (awakeCpus cpus records).card = cpus := by
  have all : awakeCpus cpus records = Finset.range cpus := by
    refine Finset.filter_eq_self.mpr fun cpu member => ?_
    have small := Finset.mem_range.mp member
    by_contra asleep
    have counter : (records cpu).sleepTime ≠ 0 := fun zero =>
      asleep ((consistent cpu small).2.mpr zero)
    exact absurd (stuck cpu small counter) (not_le.mpr (short cpu small asleep))
  rw [all, Finset.card_range]

/-- Where no counter stands at `UINT_MAX` the call leaves awake as many cpus as are required, or as
were awake, or as there are. It keeps the records consistent, changes no cpu but those it wakes,
and each of these has slept no longer than any it leaves asleep. -/
theorem wake_up_procs_shortest (reqCpus : Int) (consistent : WakeConsistent cpus info)
    (short : ∀ cpu, cpu < cpus → (info cpu).sleepTime < uintMax) :
    ((awakeCpus cpus (wakeUpProcs cpus reqCpus info)).card : Int) =
        max ((awakeCpus cpus info).card : Int) (min reqCpus cpus) ∧
      WakeConsistent cpus (wakeUpProcs cpus reqCpus info) ∧
      (∀ cpu, wakeUpProcs cpus reqCpus info cpu = info cpu ∨
        cpu < cpus ∧ (info cpu).awake ≠ 1 ∧ (wakeUpProcs cpus reqCpus info cpu).awake = 1) ∧
      ∀ cpu other, other < cpus → (info cpu).awake ≠ 1 →
        (wakeUpProcs cpus reqCpus info cpu).awake = 1 →
        (wakeUpProcs cpus reqCpus info other).awake ≠ 1 →
        (info cpu).sleepTime ≤ (info other).sleepTime := by
  have most := card_awakeCpus_le cpus info
  by_cases enough : reqCpus ≤ (awakeCpus cpus info).card
  · rw [wakeUpProcs_of_enough consistent enough]
    refine ⟨by omega, consistent, fun _ => Or.inl rfl, ?_⟩
    exact fun _ _ _ asleep awake _ => absurd awake asleep
  · obtain ⟨flag, waking⟩ := wakeUpProcs_waking consistent (not_le.mp enough)
    refine ⟨?_, waking.consistent, waking.changed, waking.shortest⟩
    have atMost := card_awakeCpus_le cpus (wakeUpProcs cpus reqCpus info)
    have more := waking.more
    have bound := waking.bound
    dsimp only at more bound
    rcases wakeUpProcs_enough reqCpus consistent with reached | stuck
    · omega
    · have all : (awakeCpus cpus (wakeUpProcs cpus reqCpus info)).card = cpus :=
        card_awakeCpus_of_stuck waking.consistent stuck fun cpu small asleep => by
          have kept : wakeUpProcs cpus reqCpus info cpu = info cpu := waking.asleep asleep
          rw [kept]
          exact short cpu small
      omega

end Call

/-- Three cpus of which one is awake, and a second required: the one that has slept twice is
woken before the one that has slept five times. -/
theorem wake_up_procs_shortest_three_cpus :
    let info : Nat → ProcInfo := fun cpu =>
      if cpu = 0 then ⟨5, 0, 0⟩ else if cpu = 1 then ⟨0, 1, 1⟩ else ⟨2, 0, 0⟩
    (wakeUpProcs 3 2 info 2).awake = 1 ∧ (wakeUpProcs 3 2 info 0).awake = 0 ∧
      ((awakeCpus 3 (wakeUpProcs 3 2 info)).card : Int) = 2 := by
  intro info
  have consistent : WakeConsistent 3 info := by unfold WakeConsistent; decide
  refine ⟨by decide, by decide, ?_⟩
  rw [(wake_up_procs_shortest 2 consistent (by decide)).1]
  decide

end Seeker
