/-
This file embeds `load.c` and proves when the load it computes, and the interval
`init_mutator` sets, are the exact ones.

Both are quotients of a 32 bit product. `change_interval * HZ` is a product of ints,
which wraps before it is divided and widened to 64 bits; `8 * (total_time - this_time)`
is a product of unsigned ints. A product that wraps always makes a wrong quotient, so
both are exact exactly when their product fits. Where the first fits, the total time
is so small that the second does too.
-/
import Mathlib.Algebra.Order.Group.Nat
import Seeker.Governors
import Seeker.Machine
import Seeker.MutateCommon

namespace Seeker

/-! ### Idle times and loads -/

/-- The two counters of `kstat_cpu(cpu).cpustat` that `load.c` adds up. -/
structure CpuStat where
  idle : Nat
  iowait : Nat
  deriving DecidableEq, Repr

/-- The idle time of a cpu as an `unsigned int`. -/
def curIdleTime (stat : CpuStat) : Nat := uint32 (stat.idle + stat.iowait)

/-- `init_idle_logger`. -/
def initIdleLogger (cpus : Nat) (kstat : Nat → CpuStat) (prevIdleTime : Nat → Nat) : Nat → Nat :=
  Loops.forRange cpus (fun cpu prev => Function.update prev cpu (curIdleTime (kstat cpu)))
    prevIdleTime

/-- A quotient of `unsigned int`s; `none` is a division by zero. -/
def uintDiv (dividend divisor : Nat) : Option Nat :=
  if divisor = 0 then none else some (dividend / divisor)

/-- The `this_time` of `get_cpu_load`. -/
def thisTime (kstat : Nat → CpuStat) (cpu : Nat) (prevIdleTime : Nat → Nat) : Nat :=
  uint32 ((curIdleTime (kstat cpu) : Int) - prevIdleTime cpu)

/-- The `total_time` of `get_cpu_load`. `msecs_to_jiffies` is the kernel's: it takes an
`unsigned int` and returns an `unsigned long`. -/
def totalTime (msecsToJiffies : Nat → Nat) (changeInterval : Int) : Nat :=
  uint32 (msecsToJiffies (uint32 changeInterval))

/-- `get_cpu_load`: what it returns, and the idle times it leaves. -/
def getCpuLoad (msecsToJiffies : Nat → Nat) (changeInterval : Int) (kstat : Nat → CpuStat)
    (cpu : Nat) (prevIdleTime : Nat → Nat) : Option Nat × (Nat → Nat) :=
  let thisTime := thisTime kstat cpu prevIdleTime
  let totalTime := totalTime msecsToJiffies changeInterval
  let left := Function.update prevIdleTime cpu (curIdleTime (kstat cpu))
  if thisTime ≥ totalTime then (some 0, left)
  else (uintDiv (uint32 (8 * (uint32 ((totalTime : Int) - thisTime) : Int))) totalTime, left)

/-! ### Products that wrap -/

/-- A value that is positive as an `int` and does not fit is larger than what is left of it by
the whole range. -/
theorem int32_add_le_of_overflow {value : Int} (overflow : 2 ^ 31 ≤ value)
    (nonneg : 0 ≤ int32 value) : int32 value + 2 ^ 32 ≤ value := by
  revert nonneg
  unfold int32
  rw [Int.bmod_def]
  split <;> omega

/-- The quotient of a product that wraps is too small, unless the divisor is very large. -/
theorem uint32_div_lt {dividend divisor : Nat} (wraps : 2 ^ 32 ≤ dividend)
    (positive : 0 < divisor) (small : divisor ≤ 2 ^ 32) :
    uint32 dividend / divisor < dividend / divisor := by
  have less : uint32 dividend + divisor ≤ dividend := by
    unfold uint32
    omega
  calc uint32 dividend / divisor
      < uint32 dividend / divisor + 1 := Nat.lt_succ_self _
    _ = (uint32 dividend + divisor) / divisor := (Nat.add_div_right _ positive).symm
    _ ≤ dividend / divisor := Nat.div_le_div_right less

/-! ### The interval -/

/-- The number of jiffies `init_mutator` computes from `change_interval * HZ`. -/
def wrappedJiffies (product : Int) : Nat := ((int32 product).tdiv 1000 % 2 ^ 64).toNat

theorem initMutator_of_static {s : Scheduler} (static : s.mutationMethod = staticMutator) :
    initMutator s = s := if_pos static

theorem initMutator_intervalJiffies {s : Scheduler} (running : s.mutationMethod ≠ staticMutator) :
    (initMutator s).intervalJiffies = max 1 (wrappedJiffies (s.changeInterval * s.hz)) := by
  unfold initMutator
  rw [if_neg running]
  show (if wrappedJiffies (s.changeInterval * s.hz) < 1 then 1 else _) = _
  split
  · rename_i none
    exact (max_eq_left none.le).symm
  · rename_i some
    exact (max_eq_right (Nat.not_lt.mp some)).symm

theorem initMutator_changeInterval {s : Scheduler} (running : s.mutationMethod ≠ staticMutator) :
    (initMutator s).changeInterval =
      if wrappedJiffies (s.changeInterval * s.hz) < 1 then (1000 : Int) / s.hz
      else s.changeInterval := by
  unfold initMutator
  rw [if_neg running]
  rfl

/-- A product that fits is divided exactly. -/
theorem wrappedJiffies_of_fits {product : Int} (nonneg : 0 ≤ product) (fits : product < 2 ^ 31) :
    (wrappedJiffies product : Int) = product / 1000 := by
  unfold wrappedJiffies
  rw [int32_of_fits (by omega) fits, Int.tdiv_eq_ediv_of_nonneg nonneg]
  omega

/-- A product that wraps makes the interval wrong: it becomes too small, or, where the product is
negative as an `int`, `1` or nearly `2^64`. -/
theorem wrappedJiffies_of_overflow {product : Int} (overflow : 2 ^ 31 ≤ product)
    (bounded : product < 2 ^ 41) :
    ((max 1 (wrappedJiffies product) : Nat) : Int) ≠ max 1 (product / 1000) := by
  obtain ⟨low, high⟩ := int32_bounds product
  rw [max_eq_right (show (1 : Int) ≤ product / 1000 by omega)]
  unfold wrappedJiffies
  rcases Int.le_total 0 (int32 product) with nonneg | negative
  · have gap := int32_add_le_of_overflow overflow nonneg
    rw [Int.tdiv_eq_ediv_of_nonneg nonneg]
    omega
  · have mirrored : (int32 product).tdiv 1000 = -(-int32 product / 1000) := by
      rw [← Int.tdiv_eq_ediv_of_nonneg (Int.neg_nonneg.mpr negative), Int.neg_tdiv, Int.neg_neg]
    rw [mirrored]
    omega

/-- The interval is the whole number of jiffies in `change_interval` milliseconds, and at least
one. -/
def IntervalExact (s : Scheduler) : Prop :=
  ((initMutator s).intervalJiffies : Int) = max 1 (s.changeInterval * s.hz / 1000)

section Clock

variable {s : Scheduler} (fresh : s.intervalJiffies = 0) (divides : s.hz ∣ 1000)
  (positive : 1 ≤ s.changeInterval) (fits : s.changeInterval < 2 ^ 31)

include divides in
theorem hz_bounds : 1 ≤ s.hz ∧ s.hz ≤ 1000 :=
  ⟨Nat.pos_of_dvd_of_pos divides (by omega), Nat.le_of_dvd (by omega) divides⟩

include divides positive fits in
theorem intervalProduct_bounds :
    0 ≤ s.changeInterval * s.hz ∧ s.changeInterval * s.hz < 2 ^ 41 := by
  obtain ⟨_, hzSmall⟩ := hz_bounds divides
  refine ⟨mul_nonneg (by omega) (Int.natCast_nonneg _), ?_⟩
  calc s.changeInterval * s.hz
      ≤ s.changeInterval * 1000 := mul_le_mul_of_nonneg_left (by omega) (by omega)
    _ < 2 ^ 41 := by omega

include fresh divides positive fits in
/-- The interval is exact exactly if there is a mutator and its product fits an `int`. -/
theorem intervalExact_iff :
    IntervalExact s ↔ s.mutationMethod ≠ staticMutator ∧ s.changeInterval * s.hz < 2 ^ 31 := by
  obtain ⟨nonneg, bounded⟩ := intervalProduct_bounds divides positive fits
  unfold IntervalExact
  by_cases static : s.mutationMethod = staticMutator
  · -- The interval stays what it is when the module is loaded.
    rw [initMutator_of_static static, fresh]
    refine iff_of_false ?_ fun exact => exact.1 static
    exact (lt_of_lt_of_le Int.zero_lt_one (le_max_left 1 _)).ne
  · rw [initMutator_intervalJiffies static]
    refine ⟨fun exact => ⟨static, ?_⟩, fun small => ?_⟩
    · by_contra overflow
      exact wrappedJiffies_of_overflow (not_lt.mp overflow) bounded exact
    · rw [Nat.cast_max, wrappedJiffies_of_fits nonneg small.2]
      rfl

end Clock

/-! ### The load -/

/-- `msecs_to_jiffies` for the values an `int` has: the jiffies that hold the milliseconds. -/
def RoundsUp (hz : Nat) (msecsToJiffies : Nat → Nat) : Prop :=
  ∀ msecs, msecs < 2 ^ 31 → msecsToJiffies msecs = (msecs * hz + 999) / 1000

/-- The load of a cpu that was idle for `idle` out of `total` jiffies. -/
def loadOf (idle total : Nat) : Nat :=
  if idle ≥ total then 0 else 8 * (total - idle) / total

theorem loadOf_le (idle total : Nat) : loadOf idle total ≤ 8 := by
  unfold loadOf
  split
  · exact Nat.zero_le 8
  · refine Nat.div_le_of_le_mul ?_
    rw [Nat.mul_comm total 8]
    exact Nat.mul_le_mul_left 8 (Nat.sub_le total idle)

/-- What `get_cpu_load` returns is the load, which is at most one, and nothing was divided by
zero. -/
structure LoadExact (idle total : Nat) (returned : Option Nat) : Prop where
  exact : returned = some (loadOf idle total)
  within : loadOf idle total ≤ 8

/-- The load is exact exactly if eight times the busy time fits an `unsigned int`. -/
theorem getCpuLoad_exact_iff {msecsToJiffies : Nat → Nat} {changeInterval : Int}
    (some : 1 ≤ totalTime msecsToJiffies changeInterval)
    (small : totalTime msecsToJiffies changeInterval ≤ 2 ^ 31) (kstat : Nat → CpuStat) (cpu : Nat)
    (prevIdleTime : Nat → Nat) :
    LoadExact (thisTime kstat cpu prevIdleTime) (totalTime msecsToJiffies changeInterval)
        (getCpuLoad msecsToJiffies changeInterval kstat cpu prevIdleTime).1 ↔
      totalTime msecsToJiffies changeInterval ≤ thisTime kstat cpu prevIdleTime ∨
        totalTime msecsToJiffies changeInterval - thisTime kstat cpu prevIdleTime < 2 ^ 29 := by
  unfold getCpuLoad
  generalize totalTime msecsToJiffies changeInterval = total at *
  generalize thisTime kstat cpu prevIdleTime = idle
  dsimp only
  by_cases rested : idle ≥ total
  · rw [if_pos rested]
    refine iff_of_true ⟨?_, loadOf_le idle total⟩ (Or.inl rested)
    rw [loadOf, if_pos rested]
  · have busy : uint32 ((total : Int) - idle) = total - idle := by
      unfold uint32
      omega
    have divisor : total ≠ 0 := by omega
    rw [if_neg rested, busy]
    show LoadExact idle total (uintDiv (uint32 ((8 * (total - idle) : Nat) : Int)) total) ↔ _
    rw [uintDiv, if_neg divisor]
    refine ⟨fun exact => ?_, fun fewer => ⟨?_, loadOf_le idle total⟩⟩
    · by_contra wraps
      have less := uint32_div_lt (show 2 ^ 32 ≤ 8 * (total - idle) by omega) some (by omega)
      have same := Option.some.inj exact.exact
      rw [loadOf, if_neg rested] at same
      exact less.ne same
    · rw [loadOf, if_neg rested, uint32_of_fits (by omega)]

/-- A cpu that was never idle in the longest interval: the load should be `8`. -/
example : (getCpuLoad id (2 ^ 31 - 1) (fun _ => ⟨0, 0⟩) 0 fun _ => 0).1 = some 1 := by decide

section Clock

variable {s : Scheduler} {msecsToJiffies : Nat → Nat} (divides : s.hz ∣ 1000)
  (roundsUp : RoundsUp s.hz msecsToJiffies)

include divides roundsUp in
/-- There is at least one jiffy in an interval, and no more jiffies than milliseconds. -/
theorem msecsToJiffies_bounds {changeInterval : Int} (positive : 1 ≤ changeInterval)
    (fits : changeInterval < 2 ^ 31) :
    1 ≤ msecsToJiffies changeInterval.toNat ∧
      msecsToJiffies changeInterval.toNat ≤ 2 ^ 31 ∧
      (changeInterval * s.hz < 2 ^ 31 → msecsToJiffies changeInterval.toNat < 2 ^ 29) := by
  obtain ⟨hzSome, hzSmall⟩ := hz_bounds divides
  obtain ⟨msecs, rfl⟩ := Int.eq_ofNat_of_zero_le (show 0 ≤ changeInterval by omega)
  have least : msecs * 1 ≤ msecs * s.hz := Nat.mul_le_mul_left msecs hzSome
  have most : msecs * s.hz ≤ msecs * 1000 := Nat.mul_le_mul_left msecs hzSmall
  rw [Int.toNat_natCast, roundsUp msecs (by omega), ← Nat.cast_mul]
  omega

include divides roundsUp in
/-- The total time is the whole interval: nothing of it is cut off. -/
theorem totalTime_eq {changeInterval : Int} (positive : 1 ≤ changeInterval)
    (fits : changeInterval < 2 ^ 31) :
    totalTime msecsToJiffies changeInterval = msecsToJiffies changeInterval.toNat := by
  obtain ⟨_, small, _⟩ := msecsToJiffies_bounds divides roundsUp positive fits
  have argument : uint32 changeInterval = changeInterval.toNat := by
    unfold uint32
    omega
  unfold totalTime
  rw [argument]
  exact uint32_of_fits (by omega)

include divides in
/-- The adjusted parameter is as positive as the one it replaces, and makes no larger product. -/
theorem initMutator_changeInterval_bounds (positive : 1 ≤ s.changeInterval)
    (fits : s.changeInterval < 2 ^ 31) :
    1 ≤ (initMutator s).changeInterval ∧ (initMutator s).changeInterval < 2 ^ 31 ∧
      (s.changeInterval * s.hz < 2 ^ 31 → (initMutator s).changeInterval * s.hz < 2 ^ 31) := by
  by_cases static : s.mutationMethod = staticMutator
  · rw [initMutator_of_static static]
    exact ⟨positive, fits, id⟩
  · rw [initMutator_changeInterval static]
    split
    · obtain ⟨hzSome, hzSmall⟩ := hz_bounds divides
      obtain ⟨quanta, product⟩ := divides
      have quotient : (1000 : Int) / s.hz = quanta := by
        rw [show (1000 : Int) = s.hz * quanta by exact_mod_cast product]
        exact Int.mul_ediv_cancel_left _ (by omega)
      have same : (quanta : Int) * s.hz = 1000 := by
        rw [mul_comm]
        exact_mod_cast product.symm
      have some : 1 ≤ quanta := Nat.pos_of_ne_zero (by rintro rfl; omega)
      have atMost : quanta * 1 ≤ quanta * s.hz := Nat.mul_le_mul_left quanta hzSome
      rw [Nat.mul_comm quanta s.hz, ← product] at atMost
      rw [quotient, same]
      omega
    · exact ⟨positive, fits, id⟩

end Clock

/-- What `get_cpu_load` returns after `init_mutator` is the exact load for the cpu's idle time and
the interval in jiffies. -/
def StartedLoadExact (msecsToJiffies : Nat → Nat) (s : Scheduler) (kstat : Nat → CpuStat)
    (cpu : Nat) (prevIdleTime : Nat → Nat) : Prop :=
  LoadExact (thisTime kstat cpu prevIdleTime)
    (msecsToJiffies (initMutator s).changeInterval.toNat)
    (getCpuLoad msecsToJiffies (initMutator s).changeInterval kstat cpu prevIdleTime).1

/-- The interval and the loads measured in it are exact exactly if there is a mutator and
`change_interval * HZ` fits an `int`. The load alone is exact exactly if eight times the busy time
fits an `unsigned int`. -/
theorem interval_and_load_exact_iff {s : Scheduler} {msecsToJiffies : Nat → Nat}
    (fresh : s.intervalJiffies = 0) (divides : s.hz ∣ 1000)
    (roundsUp : RoundsUp s.hz msecsToJiffies) (positive : 1 ≤ s.changeInterval)
    (fits : s.changeInterval < 2 ^ 31) (kstat : Nat → CpuStat) (cpu : Nat)
    (prevIdleTime : Nat → Nat) :
    let idle := thisTime kstat cpu prevIdleTime
    let total := msecsToJiffies (initMutator s).changeInterval.toNat
    (IntervalExact s ∧ StartedLoadExact msecsToJiffies s kstat cpu prevIdleTime ↔
      s.mutationMethod ≠ staticMutator ∧ s.changeInterval * s.hz < 2 ^ 31) ∧
    (StartedLoadExact msecsToJiffies s kstat cpu prevIdleTime ↔
      total ≤ idle ∨ total - idle < 2 ^ 29) := by
  intro idle total
  obtain ⟨startedSome, startedFits, product⟩ :=
    initMutator_changeInterval_bounds divides positive fits
  obtain ⟨totalSome, totalSmall, totalTiny⟩ :=
    msecsToJiffies_bounds divides roundsUp startedSome startedFits
  have whole := totalTime_eq divides roundsUp startedSome startedFits
  have load : StartedLoadExact msecsToJiffies s kstat cpu prevIdleTime ↔
      total ≤ idle ∨ total - idle < 2 ^ 29 := by
    have exact_iff := getCpuLoad_exact_iff (whole ▸ totalSome) (whole ▸ totalSmall) kstat cpu
      prevIdleTime
    rwa [whole] at exact_iff
  refine ⟨?_, load⟩
  rw [intervalExact_iff fresh divides positive fits, load]
  refine ⟨fun both => both.1, fun holds => ⟨holds, Or.inr ?_⟩⟩
  have tiny := totalTiny (product holds.2)
  omega

/-- An interval of a second, whose idle counter wraps half-way. -/
theorem interval_and_load_exact_iff_second :
    let s := loadedScheduler 1 []
    let msecsToJiffies := fun msecs : Nat => (msecs * 1000 + 999) / 1000
    let kstat := fun _ : Nat => CpuStat.mk 300 100
    let prevIdleTime := fun _ : Nat => 2 ^ 32 - 100
    (IntervalExact s ∧ StartedLoadExact msecsToJiffies s kstat 0 prevIdleTime) ∧
      (getCpuLoad msecsToJiffies (initMutator s).changeInterval kstat 0 prevIdleTime).1 = some 4 :=
  ⟨(interval_and_load_exact_iff rfl (dvd_refl 1000) (fun _ _ => rfl) (by decide) (by decide)
    _ 0 _).1.mpr (by decide), by decide⟩

/-- Not every interval is exact: a product that is negative as an `int` makes one of nearly `2^64`
jiffies. -/
theorem interval_not_exact :
    ¬ ∀ (s : Scheduler) (msecsToJiffies : Nat → Nat), s.intervalJiffies = 0 → s.hz ∣ 1000 →
      RoundsUp s.hz msecsToJiffies → 1 ≤ s.changeInterval → s.changeInterval < 2 ^ 31 →
      s.mutationMethod ≠ staticMutator → ∀ (kstat : Nat → CpuStat) (cpu : Nat)
      (prevIdleTime : Nat → Nat),
        IntervalExact s ∧ StartedLoadExact msecsToJiffies s kstat cpu prevIdleTime := by
  intro always
  have exact := always { loadedScheduler 1 [] with changeInterval := 2147484 }
    (fun msecs => (msecs * 1000 + 999) / 1000) rfl (dvd_refl 1000) (fun _ _ => rfl) (by decide)
    (by decide) (by decide) (fun _ => ⟨0, 0⟩) 0 (fun _ => 0)
  exact absurd exact.1 (by unfold IntervalExact; decide)

/-! ### What a load is measured from, and what it is for -/

/-- A call on a cpu measures what its counters have grown by since the idle time that is stored. -/
theorem thisTime_of_stored {earlier later : Nat → CpuStat} {cpu grown : Nat}
    {prevIdleTime : Nat → Nat} (stored : prevIdleTime cpu = curIdleTime (earlier cpu))
    (grows : (later cpu).idle + (later cpu).iowait =
      (earlier cpu).idle + (earlier cpu).iowait + grown)
    (small : grown < 2 ^ 32) : thisTime later cpu prevIdleTime = grown := by
  unfold thisTime
  rw [stored]
  unfold curIdleTime uint32
  omega

/-- `init_idle_logger` stores the idle time of every cpu. -/
theorem initIdleLogger_stores {cpus cpu : Nat} (small : cpu < cpus) (kstat : Nat → CpuStat)
    (prevIdleTime : Nat → Nat) :
    initIdleLogger cpus kstat prevIdleTime cpu = curIdleTime (kstat cpu) := by
  unfold initIdleLogger
  rw [Loops.forRange_update (fun cpu _ => curIdleTime (kstat cpu)), if_pos small]

/-- `get_cpu_load` stores the idle time of its cpu and leaves the others alone. -/
theorem getCpuLoad_stores (msecsToJiffies : Nat → Nat) (changeInterval : Int)
    (kstat : Nat → CpuStat) (cpu : Nat) (prevIdleTime : Nat → Nat) :
    (getCpuLoad msecsToJiffies changeInterval kstat cpu prevIdleTime).2 =
      Function.update prevIdleTime cpu (curIdleTime (kstat cpu)) := by
  unfold getCpuLoad
  dsimp only
  split <;> rfl

/-- The idle times, and beside them the counters each cpu was last measured with. -/
structure IdleLog where
  prevIdleTime : Nat → Nat
  seen : Nat → CpuStat

/-- A call of `get_cpu_load` on a cpu, when the counters are `kstat`. -/
def IdleLog.measure (msecsToJiffies : Nat → Nat) (changeInterval : Int) (log : IdleLog)
    (call : (Nat → CpuStat) × Nat) : IdleLog where
  prevIdleTime := (getCpuLoad msecsToJiffies changeInterval call.1 call.2 log.prevIdleTime).2
  seen := Function.update log.seen call.2 (call.1 call.2)

/-- The idle time stored for a cpu is that of the counters it was last measured with. -/
def IdleLog.Stores (cpus : Nat) (log : IdleLog) : Prop :=
  ∀ cpu, cpu < cpus → log.prevIdleTime cpu = curIdleTime (log.seen cpu)

theorem IdleLog.Stores.measure {cpus : Nat} {log : IdleLog} (stores : log.Stores cpus)
    (msecsToJiffies : Nat → Nat) (changeInterval : Int) (call : (Nat → CpuStat) × Nat) :
    (log.measure msecsToJiffies changeInterval call).Stores cpus := by
  intro cpu small
  unfold IdleLog.measure
  dsimp only
  rw [getCpuLoad_stores]
  by_cases same : cpu = call.2
  · rw [same, Function.update_self, Function.update_self]
  · rw [Function.update_of_ne same, Function.update_of_ne same]
    exact stores cpu small

/-- After any calls on any cpus, a call measures what the counters of its cpu have grown by since
the last call on it, or since `init_idle_logger` if there was none. -/
theorem thisTime_after_calls {cpus cpu grown : Nat} (small : cpu < cpus)
    (msecsToJiffies : Nat → Nat) (changeInterval : Int) (kstat later : Nat → CpuStat)
    (prevIdleTime : Nat → Nat) (calls : List ((Nat → CpuStat) × Nat)) :
    let log := calls.foldl (IdleLog.measure msecsToJiffies changeInterval)
      ⟨initIdleLogger cpus kstat prevIdleTime, kstat⟩
    (later cpu).idle + (later cpu).iowait =
        (log.seen cpu).idle + (log.seen cpu).iowait + grown →
      grown < 2 ^ 32 → thisTime later cpu log.prevIdleTime = grown := by
  intro log grows fits
  have stores : log.Stores cpus := by
    refine List.foldlRecOn calls _ ?_ fun current stores call _ => stores.measure _ _ call
    exact fun other within => initIdleLogger_stores within kstat prevIdleTime
  exact thisTime_of_stored (stores cpu small) grows fits

/-- The load is above the threshold of the governors exactly if the cpu was never idle. -/
theorem load0875_lt_loadOf {idle total : Nat} (some : 1 ≤ total) :
    load0875 < loadOf idle total ↔ idle = 0 := by
  unfold loadOf load0875
  split
  · omega
  · rw [Nat.lt_iff_add_one_le, Nat.le_div_iff_mul_le some]
    omega

/-- So `ondemand` asks for the highest state for a cpu that was never idle, and for the lowest
for every other one. -/
theorem ondemandState_loadOf (s : Scheduler) {idle total : Nat} (some : 1 ≤ total) :
    ondemandState s (loadOf idle total) = if idle = 0 then s.totalStates - 1 else 0 := by
  unfold ondemandState
  exact if_congr (load0875_lt_loadOf some) rfl rfl

end Seeker
