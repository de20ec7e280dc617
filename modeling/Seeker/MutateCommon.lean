/-
This file embeds the part of `mutate_common.c` that decides which cpus are awake:
`init_mutator` and `wake_up_procs`.

A cpu is awake exactly when its sleep counter is zero; `WakeConsistent` is that
statement. `wake_up_procs` wakes the sleeper that has slept least until enough cpus
are awake. The file proves that it keeps the two records consistent, that it changes
no cpu but those it wakes, and that it either reaches the required number or leaves
only cpus asleep whose counter stands at its largest value, which the search for the
least counter cannot tell from "none".
-/
import Mathlib.Data.Finset.Card
import Mathlib.Tactic.Linarith
import Seeker.Globals

namespace Seeker

/-! ### Initialisation -/

/-- `STATIC_MUTATOR`. -/
def staticMutator : Nat := 4

/-- `init_mutator`. -/
def initMutator (s : Scheduler) : Scheduler :=
  if s.mutationMethod = staticMutator then s
  else
    let jiffies := ((int32 (s.changeInterval * s.hz)).tdiv 1000 % 2 ^ 64).toNat
    { s with
      info := fun _ => { sleepTime := 0, awake := 1, awakeTime := 1 }
      intervalJiffies := if jiffies < 1 then 1 else jiffies
      changeInterval := if jiffies < 1 then 1000 / s.hz else s.changeInterval
      timerStarted := true }

/-! ### Waking cpus up -/

/-- The sum of the `awake` fields. -/
def awakeTotal (cpus : Nat) (info : Nat → ProcInfo) : Nat :=
  Loops.forRange cpus (fun cpu total => total + (info cpu).awake) 0

/-- The variables of the inner loop of `wake_up_procs`; `none` is `UINT_MAX` as an index. -/
structure WakeScan where
  awakeTotal : Int
  minSleepTime : Nat
  wakeUpProc : Option Nat

/-- One turn of the inner loop of `wake_up_procs`, with its second condition. -/
def wakeScanStep (reqCpus : Int) (info : Nat → ProcInfo) (cpu : Nat) (scan : WakeScan) :
    WakeScan :=
  if scan.awakeTotal < reqCpus then
    if (info cpu).sleepTime = 0 then { scan with awakeTotal := scan.awakeTotal + 1 }
    else if (info cpu).sleepTime < scan.minSleepTime then
      { scan with wakeUpProc := some cpu, minSleepTime := (info cpu).sleepTime }
    else scan
  else scan

/-- The inner loop of `wake_up_procs`. -/
def wakeScan (cpus : Nat) (reqCpus : Int) (info : Nat → ProcInfo) : WakeScan :=
  Loops.forRange cpus (wakeScanStep reqCpus info)
    { awakeTotal := 0, minSleepTime := uintMax, wakeUpProc := none }

/-- One cpu woken up. -/
def wakeCpu (cpu : Nat) (info : Nat → ProcInfo) : Nat → ProcInfo :=
  Function.update info cpu { info cpu with sleepTime := 0, awake := 1 }

/-- One turn of the outer loop of `wake_up_procs`. The second component is set when the turn
ends in a `break`. -/
def wakeRound (cpus : Nat) (reqCpus : Int) (current : (Nat → ProcInfo) × Bool) :
    Option ((Nat → ProcInfo) × Bool) :=
  if current.2 then none
  else
    let scan := wakeScan cpus reqCpus current.1
    match scan.wakeUpProc with
    | some cpu => some (wakeCpu cpu current.1, decide (scan.awakeTotal + 1 ≥ reqCpus))
    | none => some (current.1, decide (scan.awakeTotal ≥ reqCpus))

/-- `wake_up_procs`. -/
def wakeUpProcs (cpus : Nat) (reqCpus : Int) (info : Nat → ProcInfo) : Nat → ProcInfo :=
  if (awakeTotal cpus info : Int) ≥ reqCpus then info
  else (Loops.repeatUpTo (wakeRound cpus reqCpus) reqCpus.toNat (info, false)).1

/-! ### Consistent records -/

/-- Every cpu is awake or asleep, and its counter is zero exactly when it is awake. -/
def WakeConsistent (cpus : Nat) (info : Nat → ProcInfo) : Prop :=
  ∀ cpu, cpu < cpus →
    ((info cpu).awake = 0 ∨ (info cpu).awake = 1) ∧
      ((info cpu).awake = 1 ↔ (info cpu).sleepTime = 0)

/-- The cpus that are awake. -/
def awakeCpus (cpus : Nat) (info : Nat → ProcInfo) : Finset Nat :=
  (Finset.range cpus).filter fun cpu => (info cpu).awake = 1

@[simp]
theorem mem_awakeCpus {cpus : Nat} {info : Nat → ProcInfo} {cpu : Nat} :
    cpu ∈ awakeCpus cpus info ↔ cpu < cpus ∧ (info cpu).awake = 1 := by
  rw [awakeCpus, Finset.mem_filter, Finset.mem_range]

theorem card_awakeCpus_succ (cpus : Nat) (info : Nat → ProcInfo) :
    (awakeCpus (cpus + 1) info).card =
      (awakeCpus cpus info).card + if (info cpus).awake = 1 then 1 else 0 := by
  unfold awakeCpus
  rw [Finset.range_add_one, Finset.filter_insert]
  split
  · rw [Finset.card_insert_of_notMem]
    exact fun member => Finset.notMem_range_self (Finset.mem_of_mem_filter _ member)
  · rfl

theorem card_awakeCpus_mono {first second : Nat} (ordered : first ≤ second)
    (info : Nat → ProcInfo) :
    (awakeCpus first info).card ≤ (awakeCpus second info).card :=
  Finset.card_le_card (Finset.filter_subset_filter _ (Finset.range_subset_range.mpr ordered))

theorem WakeConsistent.mono {first second : Nat} (ordered : first ≤ second)
    {info : Nat → ProcInfo} (consistent : WakeConsistent second info) :
    WakeConsistent first info :=
  fun cpu small => consistent cpu (lt_of_lt_of_le small ordered)

/-- Where each `awake` field is a flag, their sum counts the awake cpus. -/
theorem awakeTotal_eq {cpus : Nat} {info : Nat → ProcInfo}
    (flags : ∀ cpu, cpu < cpus → (info cpu).awake = 0 ∨ (info cpu).awake = 1) :
    awakeTotal cpus info = (awakeCpus cpus info).card := by
  refine Loops.forRange_induction
    (fun count total => total = (awakeCpus count info).card) rfl ?_
  rintro cpu small total rfl
  rw [card_awakeCpus_succ]
  rcases flags cpu small with asleep | awake
  · rw [asleep, if_neg (by decide)]
  · rw [awake, if_pos rfl]

theorem WakeConsistent.flags {cpus : Nat} {info : Nat → ProcInfo}
    (consistent : WakeConsistent cpus info) (cpu : Nat) (small : cpu < cpus) :
    (info cpu).awake = 0 ∨ (info cpu).awake = 1 := (consistent cpu small).1

/-- What the inner loop has found after looking at `count` cpus. -/
structure ScanFound (count : Nat) (info : Nat → ProcInfo) (scan : WakeScan) : Prop where
  counted : scan.awakeTotal = (awakeCpus count info).card
  least : ∀ cpu, cpu < count → (info cpu).sleepTime ≠ 0 →
    scan.minSleepTime ≤ (info cpu).sleepTime
  found : ∀ cpu, scan.wakeUpProc = some cpu →
    cpu < count ∧ (info cpu).sleepTime ≠ 0 ∧ (info cpu).sleepTime = scan.minSleepTime
  missed : scan.wakeUpProc = none → scan.minSleepTime = uintMax

/-- With fewer cpus awake than required, the inner loop looks at every cpu: it counts the awake
ones and finds the sleeper that has slept least. -/
theorem wakeScan_found {cpus : Nat} {reqCpus : Int} {info : Nat → ProcInfo}
    (consistent : WakeConsistent cpus info)
    (few : ((awakeCpus cpus info).card : Int) < reqCpus) :
    ScanFound cpus info (wakeScan cpus reqCpus info) := by
  refine Loops.forRange_induction (fun count scan => ScanFound count info scan) ?_ ?_
  · refine ⟨rfl, fun _ small => absurd small (Nat.not_lt_zero _), fun _ chosen => ?_, fun _ => rfl⟩
    cases chosen
  · intro cpu small scan found
    have running : scan.awakeTotal < reqCpus := by
      have bound := card_awakeCpus_mono (Nat.le_of_lt small) info
      rw [found.counted]
      omega
    have before : ∀ other, other < cpu + 1 → other = cpu ∨ other < cpu := by omega
    unfold wakeScanStep
    rw [if_pos running]
    split
    · rename_i zero
      have awake : (info cpu).awake = 1 := (consistent cpu small).2.mpr zero
      refine ⟨?_, ?_, ?_, found.missed⟩
      · rw [card_awakeCpus_succ, if_pos awake, found.counted]
        rfl
      · intro other within asleep
        rcases before other within with rfl | earlier
        · exact absurd zero asleep
        · exact found.least other earlier asleep
      · intro other chosen
        obtain ⟨earlier, asleep, minimal⟩ := found.found other chosen
        exact ⟨by omega, asleep, minimal⟩
    · rename_i asleep
      have notAwake : (info cpu).awake ≠ 1 := fun awake =>
        asleep ((consistent cpu small).2.mp awake)
      have counted : scan.awakeTotal = (awakeCpus (cpu + 1) info).card := by
        rw [card_awakeCpus_succ, if_neg notAwake, found.counted]
        rfl
      split
      · rename_i shorter
        refine ⟨counted, ?_, ?_, fun missed => by cases missed⟩
        · intro other within otherAsleep
          rcases before other within with rfl | earlier
          · exact le_rfl
          · exact le_trans (Nat.le_of_lt shorter) (found.least other earlier otherAsleep)
        · intro other chosen
          cases chosen
          exact ⟨Nat.lt_succ_self cpu, asleep, rfl⟩
      · rename_i longer
        refine ⟨counted, ?_, ?_, found.missed⟩
        · intro other within otherAsleep
          rcases before other within with rfl | earlier
          · omega
          · exact found.least other earlier otherAsleep
        · intro other chosen
          obtain ⟨earlier, otherAsleep, minimal⟩ := found.found other chosen
          exact ⟨by omega, otherAsleep, minimal⟩

/-! ### What waking up achieves -/

theorem WakeConsistent.wakeCpu {cpus : Nat} {info : Nat → ProcInfo}
    (consistent : WakeConsistent cpus info) (cpu : Nat) :
    WakeConsistent cpus (wakeCpu cpu info) := by
  intro other small
  unfold Seeker.wakeCpu
  by_cases same : other = cpu
  · rw [same, Function.update_self]
    exact ⟨Or.inr rfl, fun _ => rfl, fun _ => rfl⟩
  · rw [Function.update_of_ne same]
    exact consistent other small

/-- Waking a sleeper makes one more cpu awake. -/
theorem card_awakeCpus_wakeCpu {cpus : Nat} {info : Nat → ProcInfo} {cpu : Nat}
    (small : cpu < cpus) (notAwake : (info cpu).awake ≠ 1) :
    (awakeCpus cpus (wakeCpu cpu info)).card = (awakeCpus cpus info).card + 1 := by
  have woken : awakeCpus cpus (wakeCpu cpu info) = insert cpu (awakeCpus cpus info) := by
    ext other
    rw [mem_awakeCpus, Finset.mem_insert, mem_awakeCpus, wakeCpu]
    by_cases same : other = cpu
    · rw [same, Function.update_self]
      simp [small]
    · rw [Function.update_of_ne same]
      simp [same]
  rw [woken, Finset.card_insert_of_notMem]
  exact fun member => notAwake (mem_awakeCpus.mp member).2

/-- Every cpu still asleep has the largest counter there is. -/
def Stuck (cpus : Nat) (info : Nat → ProcInfo) : Prop :=
  ∀ cpu, cpu < cpus → (info cpu).sleepTime ≠ 0 → uintMax ≤ (info cpu).sleepTime

/-- The outer loop reaches the required number or is stuck, given enough turns. -/
theorem wakeRounds_enough {cpus : Nat} {reqCpus : Int} (limit : Nat) {info : Nat → ProcInfo}
    (consistent : WakeConsistent cpus info)
    (few : ((awakeCpus cpus info).card : Int) < reqCpus)
    (turns : reqCpus ≤ (awakeCpus cpus info).card + limit) :
    let woken := (Loops.repeatUpTo (wakeRound cpus reqCpus) limit (info, false)).1
    reqCpus ≤ (awakeCpus cpus woken).card ∨ Stuck cpus woken := by
  induction limit generalizing info with
  | zero => omega
  | succ limit inductionHypothesis =>
    have found := wakeScan_found consistent few
    cases chosen : (wakeScan cpus reqCpus info).wakeUpProc with
    | none =>
      have round : wakeRound cpus reqCpus (info, false) = some (info, false) := by
        have short : ¬ (wakeScan cpus reqCpus info).awakeTotal ≥ reqCpus := by
          rw [found.counted]
          omega
        simp only [wakeRound, Bool.false_eq_true, if_false, chosen, decide_eq_false short]
      rw [Loops.repeatUpTo_fixed round]
      refine Or.inr fun cpu small asleep => ?_
      rw [← found.missed chosen]
      exact found.least cpu small asleep
    | some cpu =>
      obtain ⟨small, asleep, _⟩ := found.found cpu chosen
      have notAwake : (info cpu).awake ≠ 1 := fun awake =>
        asleep ((consistent cpu small).2.mp awake)
      have card := card_awakeCpus_wakeCpu small notAwake
      have round : wakeRound cpus reqCpus (info, false) = some (wakeCpu cpu info,
          decide ((wakeScan cpus reqCpus info).awakeTotal + 1 ≥ reqCpus)) := by
        simp only [wakeRound, Bool.false_eq_true, if_false, chosen]
      rw [Loops.repeatUpTo_succ_some limit round, found.counted]
      by_cases reached : ((awakeCpus cpus info).card : Int) + 1 ≥ reqCpus
      · rw [decide_eq_true reached]
        have left : Loops.repeatUpTo (wakeRound cpus reqCpus) limit (wakeCpu cpu info, true) =
            (wakeCpu cpu info, true) := by
          cases limit with
          | zero => rfl
          | succ limit => exact Loops.repeatUpTo_succ_none limit rfl
        rw [left]
        left
        show reqCpus ≤ ((awakeCpus cpus (wakeCpu cpu info)).card : Int)
        rw [card]
        push_cast
        exact reached
      · rw [decide_eq_false reached]
        refine inductionHypothesis (consistent.wakeCpu cpu) ?_ ?_ <;> rw [card] <;> push_cast <;>
          push_cast at turns <;> omega

/-- What a turn of the outer loop does: it wakes one cpu or none. -/
theorem wakeRound_cases {cpus : Nat} {reqCpus : Int} {current next : (Nat → ProcInfo) × Bool}
    (round : wakeRound cpus reqCpus current = some next) :
    next.1 = current.1 ∨ ∃ cpu, next.1 = wakeCpu cpu current.1 := by
  unfold wakeRound at round
  split at round
  · cases round
  · dsimp only at round
    split at round
    · rename_i cpu chosen
      exact Or.inr ⟨cpu, by rw [← Option.some.inj round]⟩
    · exact Or.inl (by rw [← Option.some.inj round])

/-- The rule for waking up: what holds of the records and is kept when a cpu is woken. -/
theorem wakeUpProcs_induction (invariant : (Nat → ProcInfo) → Prop) (cpus : Nat) (reqCpus : Int)
    {info : Nat → ProcInfo} (initial : invariant info)
    (kept : ∀ current cpu, invariant current → invariant (wakeCpu cpu current)) :
    invariant (wakeUpProcs cpus reqCpus info) := by
  unfold wakeUpProcs
  split
  · exact initial
  · refine Loops.repeatUpTo_induction
      (fun current : (Nat → ProcInfo) × Bool => invariant current.1) ?_ _ initial
    intro current next held round
    rcases wakeRound_cases round with same | ⟨cpu, woken⟩
    · rw [same]
      exact held
    · rw [woken]
      exact kept current.1 cpu held

/-- Waking up changes no cpu but those it wakes. -/
theorem wakeUpProcs_changes (cpus : Nat) (reqCpus : Int) (info : Nat → ProcInfo) (cpu : Nat) :
    wakeUpProcs cpus reqCpus info cpu = info cpu ∨
      (wakeUpProcs cpus reqCpus info cpu).awake = 1 := by
  refine wakeUpProcs_induction (fun current => current cpu = info cpu ∨ (current cpu).awake = 1)
    cpus reqCpus (Or.inl rfl) fun current other held => ?_
  unfold wakeCpu
  by_cases same : cpu = other
  · rw [same, Function.update_self]
    exact Or.inr rfl
  · rw [Function.update_of_ne same]
    exact held

/-- Waking up keeps the records consistent and changes no cpu but sleepers it wakes. -/
theorem wakeUpProcs_frame {cpus : Nat} (reqCpus : Int) {info : Nat → ProcInfo}
    (consistent : WakeConsistent cpus info) :
    WakeConsistent cpus (wakeUpProcs cpus reqCpus info) ∧
      ∀ cpu, wakeUpProcs cpus reqCpus info cpu = info cpu ∨
        (wakeUpProcs cpus reqCpus info cpu).awake = 1 :=
  ⟨wakeUpProcs_induction (WakeConsistent cpus) cpus reqCpus consistent
    fun _ cpu held => held.wakeCpu cpu, wakeUpProcs_changes cpus reqCpus info⟩

/-- Waking up reaches the required number unless it is stuck. -/
theorem wakeUpProcs_enough {cpus : Nat} (reqCpus : Int) {info : Nat → ProcInfo}
    (consistent : WakeConsistent cpus info) :
    reqCpus ≤ (awakeCpus cpus (wakeUpProcs cpus reqCpus info)).card ∨
      Stuck cpus (wakeUpProcs cpus reqCpus info) := by
  unfold wakeUpProcs
  split
  · rename_i enough
    rw [awakeTotal_eq consistent.flags] at enough
    exact Or.inl enough
  · rename_i few
    rw [awakeTotal_eq consistent.flags] at few
    exact wakeRounds_enough reqCpus.toNat consistent (by omega) (by omega)

end Seeker
