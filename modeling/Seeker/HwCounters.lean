/-
This file embeds the part of `hwcounters.c` that claims the performance counters, with
`counter_enable` and `fcounters_enable` of the pmu module below it.

Two counters are claimed on each cpu, the first two idle ones where the counters are
general and the fixed ones where there are such. A failure on one cpu is only noted in
the global `ERROR`; the cpus before and after it keep what they got, and so does a cpu
whose first counter was claimed and whose second was not. The file says when the whole
succeeds, and when it claims anything.
-/
import Mathlib.Tactic.Common
import Seeker.Library.Loops

namespace Seeker

/-! ### The counters of a cpu -/

/-- The architectures the modules are built for. -/
inductive Arch where
  | c2d
  | k8
  | k10
  deriving DecidableEq, Repr

/-- `NUM_COUNTERS`. -/
def Arch.numCounters : Arch → Nat
  | .c2d => 2
  | .k8 => 4
  | .k10 => 4

/-- `NUM_FIXED_COUNTERS`. -/
def Arch.numFixedCounters : Arch → Nat
  | .c2d => 3
  | .k8 => 0
  | .k10 => 0

/-- A cpu's counters: which of the general ones are enabled, whether its fixed ones are, and the
numbers `sys_counters` holds for it. The values they count are left out. -/
structure CpuPmu where
  enabled : Nat → Bool
  fixedEnabled : Bool
  sysCounters : Nat → Int

/-- `counter_enable`: the first counter that is not enabled, or `-1`. -/
def counterEnable (arch : Arch) (p : CpuPmu) : Int × CpuPmu :=
  match Loops.firstFrom (fun counter => !p.enabled counter) 0 arch.numCounters with
  | none => (-1, p)
  | some counter => (counter, { p with enabled := Function.update p.enabled counter true })

/-- `fcounters_enable`. -/
def fcountersEnable (p : CpuPmu) : CpuPmu := { p with fixedEnabled := true }

/-- The two `counter_enable`s of `enable_pmu_counters`, into `sys_counters[cpu][slot]`. The number
kept after a failure is the slot's own; the flag is `ERROR`. -/
def enableSlot (arch : Arch) (slot : Nat) (current : CpuPmu × Bool) : CpuPmu × Bool :=
  let (counter, p) := counterEnable arch current.1
  if counter < 0 then ({ p with sysCounters := Function.update p.sysCounters slot slot }, true)
  else ({ p with sysCounters := Function.update p.sysCounters slot counter }, current.2)

/-- `enable_pmu_counters`, on a cpu's counters; the flag is `ERROR`. -/
def enablePmuCounters (arch : Arch) (current : CpuPmu × Bool) : CpuPmu × Bool :=
  if 0 < arch.numFixedCounters then (fcountersEnable current.1, current.2)
  else enableSlot arch 1 (enableSlot arch 0 current)

/-! ### What one cpu claims -/

/-- The cpu has a counter that nobody has enabled. -/
def CpuPmu.HasIdle (arch : Arch) (p : CpuPmu) : Prop :=
  if 0 < arch.numFixedCounters then p.fixedEnabled = false
  else ∃ counter < arch.numCounters, p.enabled counter = false

/-- The cpu has counters enough: the fixed ones, or two general ones that nobody has enabled. -/
def CpuPmu.HasRoom (arch : Arch) (p : CpuPmu) : Prop :=
  0 < arch.numFixedCounters ∨
    ∃ first < arch.numCounters, ∃ second < arch.numCounters,
      first ≠ second ∧ p.enabled first = false ∧ p.enabled second = false

/-- What is enabled in the second is enabled in the first. -/
def CpuPmu.NoneNew (after before : CpuPmu) : Prop :=
  (∀ counter, after.enabled counter = true → before.enabled counter = true) ∧
    (after.fixedEnabled = true → before.fixedEnabled = true)

/-- The scheduler counts on the cpu: the fixed counters are enabled, or `sys_counters` names two
counters that were idle before and are enabled now. -/
def CpuPmu.Counting (arch : Arch) (after before : CpuPmu) : Prop :=
  if 0 < arch.numFixedCounters then after.fixedEnabled = true
  else ∃ first < arch.numCounters, ∃ second < arch.numCounters, first ≠ second ∧
    after.sysCounters 0 = first ∧ after.sysCounters 1 = second ∧
    (before.enabled first = false ∧ after.enabled first = true) ∧
    before.enabled second = false ∧ after.enabled second = true

/-- Of two idle counters one is not the given one. -/
theorem CpuPmu.HasRoom.other {arch : Arch} {p : CpuPmu} (general : ¬ 0 < arch.numFixedCounters)
    (room : p.HasRoom arch) (given : Nat) :
    ∃ counter < arch.numCounters, counter ≠ given ∧ p.enabled counter = false := by
  obtain ⟨first, small, second, smallSecond, different, idle, idleSecond⟩ :=
    room.resolve_left general
  by_cases same : first = given
  · exact ⟨second, smallSecond, same ▸ different.symm, idleSecond⟩
  · exact ⟨first, small, same, idle⟩

/-- `counter_enable` fails when every counter is enabled, and enables an idle one otherwise. -/
theorem counterEnable_cases (arch : Arch) (p : CpuPmu) :
    ((∀ counter < arch.numCounters, p.enabled counter = true) ∧ counterEnable arch p = (-1, p)) ∨
      ∃ counter < arch.numCounters, p.enabled counter = false ∧ counterEnable arch p =
        ((counter : Int), { p with enabled := Function.update p.enabled counter true }) := by
  unfold counterEnable
  cases found : Loops.firstFrom (fun counter => !p.enabled counter) 0 arch.numCounters with
  | none =>
    refine Or.inl ⟨fun counter small => ?_, rfl⟩
    have busy := Loops.firstFrom_eq_none found (Nat.zero_le counter) small
    simpa using busy
  | some counter =>
    obtain ⟨⟨_, small⟩, idle⟩ := Loops.firstFrom_eq_some found
    exact Or.inr ⟨counter, small, by simpa using idle, rfl⟩

/-- One slot: either every counter is taken and the failure is noted, or the slot gets an idle
one. -/
theorem enableSlot_cases (arch : Arch) (slot : Nat) (current : CpuPmu × Bool) :
    ((∀ counter < arch.numCounters, current.1.enabled counter = true) ∧
      enableSlot arch slot current =
        ({ current.1 with sysCounters := Function.update current.1.sysCounters slot slot },
          true)) ∨
      ∃ counter < arch.numCounters, current.1.enabled counter = false ∧
        enableSlot arch slot current =
          ({ current.1 with
              enabled := Function.update current.1.enabled counter true
              sysCounters := Function.update current.1.sysCounters slot counter }, current.2) := by
  unfold enableSlot
  rcases counterEnable_cases arch current.1 with ⟨full, failed⟩ | ⟨counter, small, idle, claimed⟩
  · refine Or.inl ⟨full, ?_⟩
    rw [failed]
    rfl
  · refine Or.inr ⟨counter, small, idle, ?_⟩
    rw [claimed]
    exact if_neg (by omega)

/-- The three ways a cpu of general counters can go: none is idle, one is, or two are claimed. -/
theorem enablePmuCounters_general {arch : Arch} (general : ¬ 0 < arch.numFixedCounters)
    (current : CpuPmu × Bool) :
    ((∀ counter < arch.numCounters, current.1.enabled counter = true) ∧
      (enablePmuCounters arch current).1.enabled = current.1.enabled ∧
      (enablePmuCounters arch current).1.fixedEnabled = current.1.fixedEnabled ∧
      (enablePmuCounters arch current).2 = true) ∨
    (∃ first < arch.numCounters, current.1.enabled first = false ∧
      (∀ counter < arch.numCounters, counter ≠ first → current.1.enabled counter = true) ∧
      (enablePmuCounters arch current).1.enabled =
        Function.update current.1.enabled first true ∧
      (enablePmuCounters arch current).2 = true) ∨
    ∃ first < arch.numCounters, ∃ second < arch.numCounters, first ≠ second ∧
      current.1.enabled first = false ∧ current.1.enabled second = false ∧
      enablePmuCounters arch current =
        ({ current.1 with
            enabled := Function.update (Function.update current.1.enabled first true) second true
            sysCounters :=
              Function.update (Function.update current.1.sysCounters 0 first) 1 second },
          current.2) := by
  unfold enablePmuCounters
  rw [if_neg general]
  rcases enableSlot_cases arch 0 current with ⟨full, failed⟩ | ⟨first, small, idle, claimed⟩
  · refine Or.inl ⟨full, ?_⟩
    rw [failed]
    rcases enableSlot_cases arch 1 ({ current.1 with
        sysCounters := Function.update current.1.sysCounters 0 (0 : Nat) }, true)
      with ⟨_, again⟩ | ⟨second, small, idle, _⟩
    · rw [again]
      exact ⟨rfl, rfl, rfl⟩
    · exact absurd (full second small) (Bool.eq_false_iff.mp idle)
  · rw [claimed]
    rcases enableSlot_cases arch 1 ({ current.1 with
        enabled := Function.update current.1.enabled first true
        sysCounters := Function.update current.1.sysCounters 0 first }, current.2)
      with ⟨full, failed⟩ | ⟨second, smallSecond, idleSecond, claimedSecond⟩
    · refine Or.inr (Or.inl ⟨first, small, idle, fun counter inRange different => ?_, ?_⟩)
      · rw [← full counter inRange]
        exact (Function.update_of_ne different true current.1.enabled).symm
      · rw [failed]
        exact ⟨rfl, rfl⟩
    · have different : first ≠ second := by
        rintro rfl
        exact Bool.noConfusion ((Function.update_self first true current.1.enabled).symm.trans
          idleSecond)
      refine Or.inr (Or.inr ⟨first, small, second, smallSecond, different, idle, ?_, ?_⟩)
      · rw [← idleSecond]
        exact (Function.update_of_ne different.symm true current.1.enabled).symm
      · rw [claimedSecond]

variable {arch : Arch}

/-- The flag is clear afterwards exactly when it was and the cpu had counters enough. -/
theorem enablePmuCounters_flag (current : CpuPmu × Bool) :
    (enablePmuCounters arch current).2 = false ↔
      current.2 = false ∧ current.1.HasRoom arch := by
  by_cases fixed : 0 < arch.numFixedCounters
  · unfold enablePmuCounters
    rw [if_pos fixed]
    exact ⟨fun clear => ⟨clear, Or.inl fixed⟩, And.left⟩
  · rcases enablePmuCounters_general fixed current with
      ⟨full, _, _, noted⟩ | ⟨first, _, _, full, _, noted⟩ |
        ⟨first, small, second, smallSecond, different, idle, idleSecond, claimed⟩
    · rw [noted]
      refine iff_of_false Bool.noConfusion fun held => ?_
      obtain ⟨counter, inRange, _, idle⟩ := held.2.other fixed 0
      exact Bool.eq_false_iff.mp idle (full counter inRange)
    · rw [noted]
      refine iff_of_false Bool.noConfusion fun held => ?_
      obtain ⟨counter, inRange, different, idle⟩ := held.2.other fixed first
      exact Bool.eq_false_iff.mp idle (full counter inRange different)
    · rw [claimed]
      exact ⟨fun clear => ⟨clear, Or.inr
        ⟨first, small, second, smallSecond, different, idle, idleSecond⟩⟩, And.left⟩

/-- A cpu with counters enough counts afterwards. -/
theorem enablePmuCounters_counting {current : CpuPmu × Bool} (room : current.1.HasRoom arch) :
    (enablePmuCounters arch current).1.Counting arch current.1 := by
  unfold CpuPmu.Counting
  by_cases fixed : 0 < arch.numFixedCounters
  · rw [if_pos fixed]
    unfold enablePmuCounters
    rw [if_pos fixed]
    rfl
  · rw [if_neg fixed]
    rcases enablePmuCounters_general fixed current with
      ⟨full, _⟩ | ⟨first, _, _, full, _⟩ |
        ⟨first, small, second, smallSecond, different, idle, idleSecond, claimed⟩
    · obtain ⟨counter, inRange, _, idle⟩ := room.other fixed 0
      exact absurd (full counter inRange) (Bool.eq_false_iff.mp idle)
    · obtain ⟨counter, inRange, different, idle⟩ := room.other fixed first
      exact absurd (full counter inRange different) (Bool.eq_false_iff.mp idle)
    · rw [claimed]
      refine ⟨first, small, second, smallSecond, different, ?_, ?_, ⟨idle, ?_⟩, idleSecond, ?_⟩
      · simp
      · simp
      · simp [Function.update_of_ne different]
      · simp

/-- A cpu with an idle counter claims one, whether or not it gets all it needs. -/
theorem enablePmuCounters_noneNew (current : CpuPmu × Bool) :
    (enablePmuCounters arch current).1.NoneNew current.1 ↔ ¬ current.1.HasIdle arch := by
  unfold CpuPmu.NoneNew CpuPmu.HasIdle
  by_cases fixed : 0 < arch.numFixedCounters
  · unfold enablePmuCounters
    rw [if_pos fixed, if_pos fixed, Bool.not_eq_false]
    exact ⟨fun noneNew => noneNew.2 rfl, fun enabled => ⟨fun _ => id, fun _ => enabled⟩⟩
  · rw [if_neg fixed]
    rcases enablePmuCounters_general fixed current with
      ⟨full, counters, fixedCounters, _⟩ | ⟨first, small, idle, _, counters, _⟩ |
        ⟨first, small, second, _, different, idle, _, claimed⟩
    · rw [counters, fixedCounters]
      refine iff_of_true ⟨fun _ => id, id⟩ ?_
      rintro ⟨counter, inRange, idle⟩
      exact Bool.eq_false_iff.mp idle (full counter inRange)
    · rw [counters]
      refine iff_of_false (fun noneNew => ?_) (not_not.mpr ⟨first, small, idle⟩)
      exact Bool.eq_false_iff.mp idle (noneNew.1 first (Function.update_self ..))
    · rw [claimed]
      refine iff_of_false (fun noneNew => ?_) (not_not.mpr ⟨first, small, idle⟩)
      exact Bool.eq_false_iff.mp idle (noneNew.1 first
        ((Function.update_of_ne different _ _).trans (Function.update_self ..)))

/-- The counters a cpu is left with do not depend on the flag it finds. -/
theorem enablePmuCounters_fst (p : CpuPmu) (error : Bool) :
    (enablePmuCounters arch (p, error)).1 = (enablePmuCounters arch (p, false)).1 := by
  have slot : ∀ (slot : Nat) (first second : CpuPmu × Bool), first.1 = second.1 →
      (enableSlot arch slot first).1 = (enableSlot arch slot second).1 := by
    intro slot first second same
    unfold enableSlot
    rw [same]
    dsimp only
    split <;> rfl
  unfold enablePmuCounters
  split
  · rfl
  · exact slot 1 _ _ (slot 0 _ _ rfl)

/-! ### Every cpu -/

/-- The counters of all cpus, and `ERROR`. -/
structure HwCounters where
  pmu : Nat → CpuPmu
  error : Bool

/-- An `ON_EACH_CPU`: what it returns, and the cpus the function ran on. -/
structure OnEachCpu where
  result : Int
  reached : Nat → Bool

/-- `ON_EACH_CPU(enable_pmu_counters, NULL, 1, 1)`. A cpu's turn touches the arrays of that cpu
and `ERROR`, so the order of the cpus does not matter. -/
def enableOnEachCpu (arch : Arch) (numOnline : Nat) (reached : Nat → Bool) (h : HwCounters) :
    HwCounters :=
  Loops.forRange numOnline
    (fun cpu h =>
      if reached cpu then
        let (p, error) := enablePmuCounters arch (h.pmu cpu, h.error)
        { pmu := Function.update h.pmu cpu p, error := error }
      else h)
    h

/-- `configure_counters`. -/
def configureCounters (arch : Arch) (numOnline : Nat) (each : OnEachCpu) (h : HwCounters) :
    Int × HwCounters :=
  let h := enableOnEachCpu arch numOnline each.reached h
  if each.result < 0 then (-1, h) else if h.error then (-1, h) else (0, h)

theorem enableOnEachCpu_succ (numOnline : Nat) (reached : Nat → Bool) (h : HwCounters) :
    enableOnEachCpu arch (numOnline + 1) reached h =
      let current := enableOnEachCpu arch numOnline reached h
      if reached numOnline then
        let (p, error) := enablePmuCounters arch (current.pmu numOnline, current.error)
        { pmu := Function.update current.pmu numOnline p, error := error }
      else current := rfl

/-- Each cpu that is reached makes its two claims, and the others none. -/
theorem enableOnEachCpu_pmu (numOnline : Nat) (reached : Nat → Bool) (h : HwCounters)
    (cpu : Nat) :
    (enableOnEachCpu arch numOnline reached h).pmu cpu =
      if cpu < numOnline ∧ reached cpu then (enablePmuCounters arch (h.pmu cpu, false)).1
      else h.pmu cpu := by
  induction numOnline with
  | zero => exact (if_neg fun held => Nat.not_lt_zero cpu held.1).symm
  | succ numOnline inductionHypothesis =>
    rw [enableOnEachCpu_succ]
    by_cases same : cpu = numOnline
    · subst same
      rw [if_neg fun held => Nat.lt_irrefl cpu held.1] at inductionHypothesis
      by_cases here : reached cpu = true
      · simp only [here, if_true, Function.update_self, Nat.lt_succ_self, and_self,
          inductionHypothesis]
        exact enablePmuCounters_fst _ _
      · simp only [if_neg here, inductionHypothesis]
        exact (if_neg fun held => here held.2).symm
    · have below : cpu < numOnline + 1 ∧ reached cpu = true ↔
          cpu < numOnline ∧ reached cpu = true := and_congr_left fun _ => by omega
      rw [if_congr below rfl rfl, ← inductionHypothesis]
      dsimp only
      split
      · exact Function.update_of_ne same _ _
      · rfl

/-- `ERROR` stays clear exactly when every cpu that is reached has counters enough. -/
theorem enableOnEachCpu_error (numOnline : Nat) (reached : Nat → Bool) (h : HwCounters) :
    (enableOnEachCpu arch numOnline reached h).error = false ↔
      h.error = false ∧ ∀ cpu < numOnline, reached cpu = true → (h.pmu cpu).HasRoom arch := by
  induction numOnline with
  | zero =>
    exact ⟨fun clear => ⟨clear, fun cpu small => absurd small (Nat.not_lt_zero cpu)⟩, And.left⟩
  | succ numOnline inductionHypothesis =>
    have untouched :
        (enableOnEachCpu arch numOnline reached h).pmu numOnline = h.pmu numOnline := by
      rw [enableOnEachCpu_pmu, if_neg fun held => Nat.lt_irrefl numOnline held.1]
    have last : (∀ cpu < numOnline + 1, reached cpu = true → (h.pmu cpu).HasRoom arch) ↔
        (∀ cpu < numOnline, reached cpu = true → (h.pmu cpu).HasRoom arch) ∧
          (reached numOnline = true → (h.pmu numOnline).HasRoom arch) :=
      Nat.forall_lt_succ_right
    rw [enableOnEachCpu_succ, last, ← and_assoc, ← inductionHypothesis]
    by_cases here : reached numOnline = true
    · simp only [here, if_true, forall_const, enablePmuCounters_flag, untouched]
    · simp only [if_neg here]
      exact (and_iff_left fun reachedLast => absurd reachedLast here).symm

variable {numOnline : Nat} {each : OnEachCpu} {h : HwCounters}

/-- The counters of every cpu are configured exactly when the call went through, no earlier
failure was noted, and every cpu that was reached had counters enough. -/
theorem configureCounters_eq_zero_iff :
    (configureCounters arch numOnline each h).1 = 0 ↔
      0 ≤ each.result ∧ h.error = false ∧
        ∀ cpu < numOnline, each.reached cpu = true → (h.pmu cpu).HasRoom arch := by
  have flag : (enableOnEachCpu arch numOnline each.reached h).error = false ↔ _ :=
    enableOnEachCpu_error numOnline each.reached h
  unfold configureCounters
  dsimp only
  by_cases failed : each.result < 0
  · rw [if_pos failed]
    exact iff_of_false (by simp) fun held => Int.not_lt.mpr held.1 failed
  · rw [if_neg failed, ← flag]
    cases (enableOnEachCpu arch numOnline each.reached h).error with
    | true => exact iff_of_false (by simp) fun held => Bool.noConfusion held.2
    | false => exact iff_of_true rfl ⟨Int.not_lt.mp failed, rfl⟩

theorem configureCounters_pmu (cpu : Nat) :
    (configureCounters arch numOnline each h).2.pmu cpu =
      if cpu < numOnline ∧ each.reached cpu then (enablePmuCounters arch (h.pmu cpu, false)).1
      else h.pmu cpu := by
  rw [← enableOnEachCpu_pmu numOnline each.reached h cpu]
  unfold configureCounters
  dsimp only
  split
  · rfl
  · split <;> rfl

/-- Nothing is claimed exactly when no cpu that was reached had an idle counter, whatever the
call returned. -/
theorem configureCounters_noneNew :
    (∀ cpu, ((configureCounters arch numOnline each h).2.pmu cpu).NoneNew (h.pmu cpu)) ↔
      ∀ cpu < numOnline, each.reached cpu = true → ¬ (h.pmu cpu).HasIdle arch := by
  simp only [configureCounters_pmu]
  refine ⟨fun noneNew cpu online reached => ?_, fun busy cpu => ?_⟩
  · have kept := noneNew cpu
    rw [if_pos ⟨online, reached⟩] at kept
    exact (enablePmuCounters_noneNew (h.pmu cpu, false)).mp kept
  · split
    · rename_i here
      exact (enablePmuCounters_noneNew (h.pmu cpu, false)).mpr (busy cpu here.1 here.2)
    · exact ⟨fun _ => id, id⟩

/-- A cpu that was reached and had counters enough counts. -/
theorem configureCounters_counting {cpu : Nat} (online : cpu < numOnline)
    (reached : each.reached cpu = true) (room : (h.pmu cpu).HasRoom arch) :
    ((configureCounters arch numOnline each h).2.pmu cpu).Counting arch (h.pmu cpu) := by
  rw [configureCounters_pmu, if_pos ⟨online, reached⟩]
  exact enablePmuCounters_counting room

end Seeker
