/-
This file declares the data the modules share: the C integers where their width
matters, cpu masks, the records of the log, the descriptors of the performance
states and of the cpus, and the globals of the scheduler module.

Arrays indexed by cpu or by performance state are total functions. The entries at
or above `totalOnlineCpus` and `totalStates` are the rest of the C array. Fields of
type `int` that only ever hold an index are natural numbers, and an index that may
be "none" (`-1` or `UINT_MAX` in the sources) is an `Option`.
-/
import Mathlib.Algebra.Order.Ring.Int
import Mathlib.Data.Finset.Card
import Mathlib.Data.Int.ModEq
import Mathlib.Tactic.Common
import Seeker.Library.Loops

namespace Seeker

/-! ### C integers -/

/-- The value an `int` holds after an operation whose exact result is `value`. -/
def int32 (value : Int) : Int := Int.bmod value (2 ^ 32)

/-- The value an `unsigned int` holds when it is assigned `value`. -/
def uint32 (value : Int) : Nat := (value % 2 ^ 32).toNat

/-- `UINT_MAX`. -/
def uintMax : Nat := 2 ^ 32 - 1

/-- The number of values of an `unsigned long`, which has 64 bits. -/
def ulongRange : Nat := 2 ^ 64

theorem int32_bounds (value : Int) : -2 ^ 31 ≤ int32 value ∧ int32 value < 2 ^ 31 := by
  unfold int32
  rw [Int.bmod_def]
  split <;> omega

theorem int32_of_fits {value : Int} (low : -2 ^ 31 ≤ value) (high : value < 2 ^ 31) :
    int32 value = value :=
  Int.bmod_eq_of_le (by omega) (by omega)

theorem int32_le_of_nonneg {value : Int} (nonneg : 0 ≤ value) : int32 value ≤ value := by
  rw [int32, Int.bmod_def]
  split <;> omega

/-- A sum that wraps twice wraps once. -/
theorem int32_add (first second : Int) : int32 (int32 first + second) = int32 (first + second) :=
  Int.bmod_add_bmod

/-- Wrapping keeps the value modulo the number of values of an `int`. -/
theorem int32_modEq (value : Int) : int32 value ≡ value [ZMOD 2 ^ 32] :=
  Int.bmod_emod

theorem uint32_of_fits {value : Nat} (fits : value < 2 ^ 32) : uint32 value = value := by
  unfold uint32
  omega

/-- `div` of `seeker.h`: division rounded to the nearest integer, in `int` arithmetic. -/
def div (dividend divisor : Int) : Int :=
  if divisor ≠ 0 then
    (int32 (int32 (2 * dividend) + divisor)).tdiv (int32 (2 * divisor))
  else 0

/-- `BOUNDS` of `state.c`: a value clamped to `[low, high)`. -/
def bounds (value low high : Int) : Int :=
  if value < low then low else if value ≥ high then high - 1 else value

theorem bounds_mem (value : Int) {low high : Int} (nonempty : low < high) :
    low ≤ bounds value low high ∧ bounds value low high < high := by
  unfold bounds
  split_ifs <;> omega

/-! ### Masks, states and cpus -/

/-- `MAX_STATES`. -/
def maxStates : Nat := 8

/-- `cpumask_t`: the set of cpus whose bit is set. -/
abbrev Cpumask := Finset Nat

/-- `struct state_desc`. -/
structure StateDesc where
  state : Nat
  cpumask : Cpumask
  cpus : Int
  demand : Int
  deriving DecidableEq

/-- `struct proc_info`. -/
structure ProcInfo where
  sleepTime : Nat
  awake : Nat
  awakeTime : Nat
  deriving DecidableEq, Repr

/-! ### The records of the log -/

/-- `log_scheduler_t`. -/
structure LogScheduler where
  interval : Nat
  pid : Nat
  cpu : Nat
  state : Nat
  cycles : Nat
  stateReq : Nat
  stateGiven : Nat
  ipc : Nat
  inst : Nat
  deriving DecidableEq, Repr

/-- `log_state_t`. -/
structure LogState where
  cpu : Nat
  state : Nat
  residencyTime : Nat
  deriving DecidableEq, Repr

/-- `log_mutator_t`, the two arrays cut to their first `count` entries. -/
structure LogMutator where
  interval : Nat
  count : Nat
  cpusReq : List Nat
  cpusGiven : List Nat
  deriving DecidableEq, Repr

/-- `log_pid_t`. -/
structure LogPid where
  name : String
  pid : Nat
  deriving DecidableEq, Repr

/-- `log_t`: the tag and the union of the four kinds of record. -/
inductive LogEntry where
  | sch (record : LogScheduler)
  | mut (record : LogMutator)
  | pid (record : LogPid)
  | state (record : LogState)
  deriving DecidableEq, Repr

/-! ### The globals of the scheduler module -/

/-- The globals of `main.c`, `state.c` and `mutate_common.c` that the modelled functions read
or write. `log` lists the entries handed to `put_log` and `logAvailable` says whether
`get_log` finds a block; `hz` and `jiffies` are the kernel's clock. -/
structure Scheduler where
  totalOnlineCpus : Nat
  totalOnlineMask : Cpumask
  totalStates : Nat
  maxStatePossible : Nat → Nat
  curCpuState : Nat → Nat
  states : Nat → StateDesc
  lowState : Nat
  highState : Nat
  midState : Nat
  baseState : Int
  initLayout : Nat → Int
  initLayoutLength : Nat
  hz : Nat
  jiffies : Nat
  currentJiffies : Nat → Nat
  logAvailable : Bool
  log : List LogEntry
  info : Nat → ProcInfo
  intervalCount : Nat
  intervalJiffies : Nat
  timerStarted : Bool
  mutationMethod : Nat
  changeInterval : Int
  disableScheduling : Bool
  schedulingMethod : Nat

/-- `get_log`, the caller's writes to the block, and `put_log`, as one step. -/
def putLog (entry : LogEntry) (s : Scheduler) : Scheduler :=
  if s.logAvailable then { s with log := s.log ++ [entry] } else s

/-- Logging changes nothing but the log. -/
theorem putLog_eq (entry : LogEntry) (s : Scheduler) :
    ∃ log, putLog entry s = { s with log := log } := by
  unfold putLog
  split
  · exact ⟨_, rfl⟩
  · exact ⟨s.log, rfl⟩

end Seeker
