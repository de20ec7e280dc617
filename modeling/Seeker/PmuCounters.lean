/-
This file embeds the pmu module around the register writes of `msr_pmu.c` and
`msr_fpmu.c`: the counters and their cached values, the interrupts of `intr_pmu.c` and
`intr_fpmu.c`, and the initialisation of `main.c`, as they are built for `ARCH_C2D`.

The module keeps a row of descriptors for each cpu, and a call works on the row and the
registers of the cpu it runs on. A counter's number is not negative, and a fixed counter
is one of the three.
-/
import Seeker.ModuleInit
import Seeker.MsrFields

namespace Seeker

/-! ### The tables of the module -/

/-- `counter_t`. -/
structure PmuCounter where
  low : BitVec 32
  high : BitVec 32
  addr : BitVec 32
  event : BitVec 32
  mask : BitVec 32
  enabled : BitVec 32

/-- `fcounter_t`. -/
structure FixedCounter where
  low : BitVec 32
  high : BitVec 32
  addr : BitVec 32

/-- `cleared_t`, and `fcleared_t`. -/
structure Cleared where
  low : BitVec 32
  high : BitVec 32
  all : BitVec 64

/-- The registers and the tables of `main.c`, each with a row for each cpu. -/
structure PmuModule where
  hw : Pmu
  counters : Nat → Nat → PmuCounter
  cleared : Nat → Nat → Cleared
  fcounters : Nat → Nat → FixedCounter
  fcleared : Nat → Nat → Cleared

/-- `NUM_COUNTERS`. -/
def numCounters : Nat := Arch.c2d.numCounters

/-- `NUM_FIXED_COUNTERS`. -/
def numFixedCounters : Nat := Arch.c2d.numFixedCounters

/-- `EVTSEL0` and `EVTSEL1`. -/
def evtselAddress : Nat → BitVec 32
  | 0 => 0x186#32
  | _ => 0x187#32

/-- `PMC0` and `PMC1`. -/
def pmcAddress : Nat → BitVec 32
  | 0 => 0xC1#32
  | _ => 0xC2#32

/-- `MSR_PERF_FIXED_CTR0`, `MSR_PERF_FIXED_CTR1` and `MSR_PERF_FIXED_CTR2`. -/
def fixedAddress : Nat → BitVec 32
  | 0 => 0x309#32
  | 1 => 0x30A#32
  | _ => 0x30B#32

/-- `MSR_PERF_GLOBAL_STATUS`. -/
def msrPerfGlobalStatus : BitVec 32 := 0x38E#32

/-- `MSR_PERF_GLOBAL_OVF_CTRL`. -/
def msrPerfGlobalOvfCtrl : BitVec 32 := 0x390#32

/-- `U64`. -/
def u64 (low high : BitVec 32) : BitVec 64 := low.setWidth 64 ||| (high.setWidth 64 <<< 32)

/-- `table[cpu][index] = value`. -/
def putCell {Value : Type*} (table : Nat → Nat → Value) (cpu index : Nat) (value : Value) :
    Nat → Nat → Value :=
  Function.update table cpu (Function.update (table cpu) index value)

/-- A write to a register, whatever the tables hold. -/
def PmuModule.write (cpu : Nat) (address low high : BitVec 32) (p : PmuModule) : PmuModule :=
  { p with hw := wrmsr cpu address low high p.hw }

/-- A write to `evtsel[cpu][counter]`. -/
def PmuModule.putEvtsel (cpu counter : Nat) (e : Evtsel) (p : PmuModule) : PmuModule :=
  { p with hw := { p.hw with evtsel := putCell p.hw.evtsel cpu counter e } }

/-- A write to `fcontrol[cpu]`. -/
def PmuModule.putFcontrol (cpu : Nat) (f : Fixctrl) (p : PmuModule) : PmuModule :=
  { p with hw := { p.hw with fcontrol := Function.update p.hw.fcontrol cpu f } }

/-- A write to `counters[cpu][counter]`. -/
def PmuModule.putCounter (cpu counter : Nat) (c : PmuCounter) (p : PmuModule) : PmuModule :=
  { p with counters := putCell p.counters cpu counter c }

/-- A write to `fcounters[cpu][counter]`. -/
def PmuModule.putFcounter (cpu counter : Nat) (c : FixedCounter) (p : PmuModule) : PmuModule :=
  { p with fcounters := putCell p.fcounters cpu counter c }

/-- A write to `cleared[cpu][counter]`. -/
def PmuModule.putCleared (cpu counter : Nat) (c : Cleared) (p : PmuModule) : PmuModule :=
  { p with cleared := putCell p.cleared cpu counter c }

/-- A write to `fcleared[cpu][counter]`. -/
def PmuModule.putFcleared (cpu counter : Nat) (c : Cleared) (p : PmuModule) : PmuModule :=
  { p with fcleared := putCell p.fcleared cpu counter c }

/-- `low` and `high`, with `all`. -/
def Cleared.of (low high : BitVec 32) : Cleared := ⟨low, high, u64 low high⟩

section Calls

variable {nrCpus : Nat} (cpu : Fin nrCpus)

/-! ### The general counters -/

/-- `counter_clear`. The value in `cleared` is not looked at. -/
def counterClear (counter : Nat) (p : PmuModule) : PmuModule :=
  if numCounters ≤ counter then p
  else if cpu < nrCpus then p.write cpu (p.counters cpu counter).addr 0 0
  else p

/-- One turn of `counter_read`. -/
def readCounter (counter : Nat) (p : PmuModule) : PmuModule :=
  if (p.counters cpu counter).enabled = 0 then p
  else
    let (low, high) := rdmsr cpu (p.counters cpu counter).addr p.hw
    p.putCounter cpu counter { p.counters cpu counter with low := low, high := high }

/-- `counter_read`. -/
def counterRead (p : PmuModule) : PmuModule :=
  if cpu < nrCpus then Loops.forRange numCounters (readCounter cpu) p else p

/-- `get_counter_data`. -/
def getCounterData (counter cpuId : Nat) (p : PmuModule) : BitVec 64 :=
  if numCounters ≤ counter then 0
  else u64 (p.counters cpuId counter).low (p.counters cpuId counter).high

/-- `counter_disable`. -/
def counterDisable (counter : Nat) (p : PmuModule) : PmuModule :=
  if numCounters ≤ counter ∨ nrCpus ≤ cpu then p
  else if (p.counters cpu counter).enabled = 0 then p
  else
    let p := { p with hw := evtselClear cpu counter p.hw }
    let p := counterClear cpu counter p
    let p := p.putEvtsel cpu counter { p.hw.evtsel cpu counter with enabled := 0 }
    let p := p.putCounter cpu counter { p.counters cpu counter with enabled := 0 }
    { p with hw := evtselWrite cpu counter p.hw }

/-- The descriptor of `counter_enable`. -/
def Evtsel.counting (event evMask os : BitVec 32) (e : Evtsel) : Evtsel :=
  { e with
    evSelect := event.setWidth 8
    evMask := evMask.setWidth 8
    usrFlag := 1
    osFlag := (os &&& 1).setWidth 1
    pcFlag := 1
    intFlag := 0
    invFlag := 0
    cntMask := 0
    enabled := 1
    edge := 0 }

/-- The part of `counter_enable` behind its search. -/
def claimCounter (event evMask os : BitVec 32) (counter : Nat) (p : PmuModule) : PmuModule :=
  let p := { p with hw := evtselClear cpu counter p.hw }
  let p := counterClear cpu counter p
  let p := p.putCounter cpu counter
    { p.counters cpu counter with enabled := 1, event := event, mask := evMask }
  let p := p.putEvtsel cpu counter ((p.hw.evtsel cpu counter).counting event evMask os)
  { p with hw := evtselWrite cpu counter p.hw }

/-- `counter_enable` of the pmu module. -/
def pmuCounterEnable (event evMask os : BitVec 32) (p : PmuModule) : Int × PmuModule :=
  if nrCpus ≤ cpu then (-1, p)
  else
    match Loops.firstFrom (fun counter => (p.counters cpu counter).enabled = 0) 0 numCounters with
    | none => (-1, p)
    | some counter => (counter, claimCounter cpu event evMask os counter p)

/-! ### The fixed counters -/

/-- `fcounter_clear`, which writes the register twice. -/
def fcounterClear (counter : Nat) (p : PmuModule) : PmuModule :=
  if cpu < nrCpus then
    let p := p.write cpu (p.fcounters cpu counter).addr (p.fcleared cpu counter).low
      (p.fcleared cpu counter).high
    p.write cpu (p.fcounters cpu counter).addr (p.fcleared cpu counter).low
      (p.fcleared cpu counter).high
  else p

/-- One turn of `fcounter_read`. -/
def readFcounter (counter : Nat) (p : PmuModule) : PmuModule :=
  let (low, high) := rdmsr cpu (p.fcounters cpu counter).addr p.hw
  p.putFcounter cpu counter { p.fcounters cpu counter with low := low, high := high }

/-- `fcounter_read`. -/
def fcounterRead (p : PmuModule) : PmuModule :=
  if cpu < nrCpus then Loops.forRange numFixedCounters (readFcounter cpu) p else p

/-- `get_fcounter_data`. Both tests must fail for the number of an error. -/
def getFcounterData (counter cpuId : Nat) (p : PmuModule) : BitVec 64 :=
  if numFixedCounters ≤ counter ∧ nrCpus ≤ cpuId then -1
  else u64 (p.fcounters cpuId counter).low (p.fcounters cpuId counter).high -
    (p.fcleared cpuId counter).all

/-- `fcounters_disable`. -/
def fcountersDisable (p : PmuModule) : PmuModule :=
  if cpu < nrCpus then
    let p := Loops.forRange numFixedCounters (fcounterClear cpu) p
    { p with hw := controlClear cpu p.hw }
  else p

/-- The descriptor of `fcounters_enable`. -/
def Fixctrl.counting (os : BitVec 32) : Fixctrl where
  os0 := os.setWidth 1
  os1 := os.setWidth 1
  os2 := os.setWidth 1
  usr0 := 1
  usr1 := 1
  usr2 := 1
  pmi0 := 0
  pmi1 := 0
  pmi2 := 0

/-- `fcounters_enable` of the pmu module. -/
def pmuFcountersEnable (os : BitVec 32) (p : PmuModule) : PmuModule :=
  if cpu < nrCpus then
    let p := Loops.forRange numFixedCounters (fcounterClear cpu) p
    let p := p.putFcontrol cpu (Fixctrl.counting os)
    { p with hw := controlWrite cpu p.hw }
  else p

/-! ### The interrupts -/

/-- `pmu_configure_interrupt`, which says that it has failed in any case. -/
def pmuConfigureInterrupt (ctr : Nat) (low high : BitVec 32) (p : PmuModule) : Int × PmuModule :=
  (-1, if ctr < numCounters then p.putCleared cpu ctr (Cleared.of low high) else p)

/-- `pmu_enable_interrupt`. -/
def pmuEnableInterrupt (ctr : Nat) (p : PmuModule) : Int × PmuModule :=
  if cpu < nrCpus ∧ ctr < numCounters then
    let p := p.putEvtsel cpu ctr { p.hw.evtsel cpu ctr with intFlag := 1 }
    (0, { p with hw := evtselWrite cpu ctr p.hw })
  else (-1, p)

/-- `pmu_disable_interrupt`. -/
def pmuDisableInterrupt (ctr : Nat) (p : PmuModule) : Int × PmuModule :=
  if ctr < numCounters ∧ cpu < nrCpus then
    let p := p.putCleared cpu ctr (Cleared.of 0 0)
    let p := p.putEvtsel cpu ctr { p.hw.evtsel cpu ctr with intFlag := 0 }
    (0, { p with hw := evtselWrite cpu ctr p.hw })
  else (-1, p)

/-- `CTR0_OVERFLOW_MASK` and `CTR1_OVERFLOW_MASK`; those of the fixed counters are the same. -/
def overflowMask (ctr : Nat) : BitVec 32 := bitsAt 1 ctr

/-- `pmu_is_interrupt`. -/
def pmuIsInterrupt (ctr : Nat) (p : PmuModule) : Int :=
  if numCounters ≤ ctr then -1
  else ((rdmsr cpu msrPerfGlobalStatus p.hw).1 &&& overflowMask ctr).toInt

/-- `pmu_clear_ovf_status`; its test lets `NUM_COUNTERS` through to the `default`. -/
def pmuClearOvfStatus (ctr : Nat) (p : PmuModule) : Int × PmuModule :=
  if numCounters < ctr then (-1, p)
  else
    let (low, high) := rdmsr cpu msrPerfGlobalOvfCtrl p.hw
    if ctr < numCounters then
      (0, p.write cpu msrPerfGlobalOvfCtrl (low &&& ~~~overflowMask ctr) high)
    else (-1, p)

/-- `fpmu_configure_interrupt`, which says that it has succeeded in any case. -/
def fpmuConfigureInterrupt (ctr : Nat) (low high : BitVec 32) (p : PmuModule) :
    Int × PmuModule :=
  (0, if ctr < numFixedCounters then p.putFcleared cpu ctr (Cleared.of low high) else p)

/-- The `pmi` of a fixed counter, set to a value; there is none beyond the third. -/
def Fixctrl.setPmi (ctr : Nat) (value : BitVec 1) (f : Fixctrl) : Option Fixctrl :=
  match ctr with
  | 0 => some { f with pmi0 := value }
  | 1 => some { f with pmi1 := value }
  | 2 => some { f with pmi2 := value }
  | _ => none

/-- `fpmu_enable_interrupt`. -/
def fpmuEnableInterrupt (ctr : Nat) (p : PmuModule) : Int × PmuModule :=
  match (p.hw.fcontrol cpu).setPmi ctr 1 with
  | none => (-1, p)
  | some f =>
    let p := p.putFcontrol cpu f
    (0, { p with hw := controlWrite cpu p.hw })

/-- `fpmu_disable_interrupt`. -/
def fpmuDisableInterrupt (ctr : Nat) (p : PmuModule) : Int × PmuModule :=
  let p := if ctr < numFixedCounters then p.putFcleared cpu ctr (Cleared.of 0 0) else p
  match (p.hw.fcontrol cpu).setPmi ctr 0 with
  | none => (-1, p)
  | some f =>
    let p := p.putFcontrol cpu f
    (0, { p with hw := controlWrite cpu p.hw })

/-- `fpmu_is_interrupt`. -/
def fpmuIsInterrupt (ctr : Nat) (p : PmuModule) : Int :=
  if ctr < numFixedCounters then
    ((rdmsr cpu msrPerfGlobalStatus p.hw).2 &&& overflowMask ctr).toInt
  else 0

/-- `fpmu_clear_ovf_status`. -/
def fpmuClearOvfStatus (ctr : Nat) (p : PmuModule) : Int × PmuModule :=
  let (low, high) := rdmsr cpu msrPerfGlobalOvfCtrl p.hw
  if ctr < numFixedCounters then
    (0, p.write cpu msrPerfGlobalOvfCtrl low (high &&& ~~~overflowMask ctr))
  else (-1, p)

/-! ### The initialisation -/

/-- The first loop of `pmu_init_msrs`, which a cpu other than the first runs. -/
def copyCounter (counter : Nat) (p : PmuModule) : PmuModule :=
  (p.putCounter cpu counter (p.counters 0 counter)).putEvtsel cpu counter (p.hw.evtsel 0 counter)

/-- The second loop of `pmu_init_msrs`. -/
def resetCounter (counter : Nat) (p : PmuModule) : PmuModule :=
  let p := { p with hw := evtselClear cpu counter p.hw }
  let p := counterDisable cpu counter p
  counterClear cpu counter p

/-- `pmu_init_msrs`. -/
def pmuInitMsrs (p : PmuModule) : PmuModule :=
  let p := if cpu.val ≠ 0 then Loops.forRange numCounters (copyCounter cpu) p else p
  Loops.forRange numCounters (resetCounter cpu) p

/-- One turn of `fpmu_init_msrs`. -/
def resetFcounter (counter : Nat) (p : PmuModule) : PmuModule :=
  let p :=
    if cpu.val ≠ 0 then
      (p.putFcounter cpu counter (p.fcounters 0 counter)).putFcleared cpu counter
        (p.fcleared 0 counter)
    else p
  fcounterClear cpu counter p

/-- `fpmu_init_msrs`. -/
def fpmuInitMsrs (p : PmuModule) : PmuModule :=
  if cpu < nrCpus then
    let p := Loops.forRange numFixedCounters (resetFcounter cpu) p
    let p := if cpu.val ≠ 0 then p.putFcontrol cpu (p.hw.fcontrol 0) else p
    let p := { p with hw := controlClear cpu p.hw }
    fcountersDisable cpu p
  else p

end Calls

/-- An `ON_EACH_CPU` of the pmu module: what it returns, and the cpus the function ran on, in
their order. -/
structure RanOn (nrCpus : Nat) where
  result : Int
  cpus : List (Fin nrCpus)

/-- `pmu_init`. -/
def pmuInit {nrCpus : Nat} (general fixed : RanOn nrCpus) (p : PmuModule) : Int × PmuModule :=
  let p := general.cpus.foldl (fun p cpu => pmuInitMsrs cpu p) p
  if general.result < 0 then (-enodev, p)
  else
    let p := fixed.cpus.foldl (fun p cpu => fpmuInitMsrs cpu p) p
    if fixed.result < 0 then (-enodev, p) else (0, p)

/-- A descriptor that is all zero but for its address. -/
def Evtsel.blank (addr : BitVec 32) : Evtsel := ⟨0, 0, 0, 0, 0, 0, 0, 0, 0, 0, addr⟩

/-- The tables as the module is loaded: only the rows of the first cpu have addresses. -/
def PmuModule.loaded (msr : Nat → BitVec 32 → BitVec 64) : PmuModule where
  hw :=
    { msr := msr
      evtsel := fun cpu counter => Evtsel.blank (if cpu = 0 then evtselAddress counter else 0)
      fcontrol := fun _ => ⟨0, 0, 0, 0, 0, 0, 0, 0, 0⟩ }
  counters cpu counter :=
    if cpu = 0 then ⟨0, 0, pmcAddress counter, counter, 0, 0⟩ else ⟨0, 0, 0, 0, 0, 0⟩
  cleared _ _ := ⟨0, 0, 0⟩
  fcounters cpu counter := ⟨0, 0, if cpu = 0 then fixedAddress counter else 0⟩
  fcleared _ _ := ⟨0, 0, 0⟩

/-! ### The calls -/

/-- The calls of `pmu.h` that change something. -/
inductive PmuCall where
  | counterEnable (event evMask os : BitVec 32)
  | counterDisable (counter : Nat)
  | counterClear (counter : Nat)
  | counterRead
  | fcountersEnable (os : BitVec 32)
  | fcountersDisable
  | fcounterClear (counter : Fin numFixedCounters)
  | fcounterRead
  | pmuConfigureInterrupt (ctr : Nat) (low high : BitVec 32)
  | pmuEnableInterrupt (ctr : Nat)
  | pmuDisableInterrupt (ctr : Nat)
  | pmuClearOvfStatus (ctr : Nat)
  | fpmuConfigureInterrupt (ctr : Nat) (low high : BitVec 32)
  | fpmuEnableInterrupt (ctr : Nat)
  | fpmuDisableInterrupt (ctr : Nat)
  | fpmuClearOvfStatus (ctr : Nat)

/-- A call on a cpu; a call that returns nothing is given a zero. -/
def PmuCall.perform {nrCpus : Nat} (cpu : Fin nrCpus) (p : PmuModule) : PmuCall → Int × PmuModule
  | .counterEnable event evMask os => pmuCounterEnable cpu event evMask os p
  | .counterDisable counter => (0, Seeker.counterDisable cpu counter p)
  | .counterClear counter => (0, Seeker.counterClear cpu counter p)
  | .counterRead => (0, Seeker.counterRead cpu p)
  | .fcountersEnable os => (0, pmuFcountersEnable cpu os p)
  | .fcountersDisable => (0, Seeker.fcountersDisable cpu p)
  | .fcounterClear counter => (0, Seeker.fcounterClear cpu counter p)
  | .fcounterRead => (0, Seeker.fcounterRead cpu p)
  | .pmuConfigureInterrupt ctr low high => Seeker.pmuConfigureInterrupt cpu ctr low high p
  | .pmuEnableInterrupt ctr => Seeker.pmuEnableInterrupt cpu ctr p
  | .pmuDisableInterrupt ctr => Seeker.pmuDisableInterrupt cpu ctr p
  | .pmuClearOvfStatus ctr => Seeker.pmuClearOvfStatus cpu ctr p
  | .fpmuConfigureInterrupt ctr low high => Seeker.fpmuConfigureInterrupt cpu ctr low high p
  | .fpmuEnableInterrupt ctr => Seeker.fpmuEnableInterrupt cpu ctr p
  | .fpmuDisableInterrupt ctr => Seeker.fpmuDisableInterrupt cpu ctr p
  | .fpmuClearOvfStatus ctr => Seeker.fpmuClearOvfStatus cpu ctr p

/-- The registers a call may write. -/
def PmuCall.writes : PmuCall → List (BitVec 32)
  | .counterEnable _ _ _ => [evtselAddress 0, pmcAddress 0, evtselAddress 1, pmcAddress 1]
  | .counterDisable counter => [evtselAddress counter, pmcAddress counter]
  | .counterClear counter => [pmcAddress counter]
  | .fcountersEnable _ | .fcountersDisable =>
      [fixedAddress 0, fixedAddress 1, fixedAddress 2, msrPerfFixedCtrCtrl]
  | .fcounterClear counter => [fixedAddress counter]
  | .pmuEnableInterrupt ctr | .pmuDisableInterrupt ctr => [evtselAddress ctr]
  | .fpmuEnableInterrupt _ | .fpmuDisableInterrupt _ => [msrPerfFixedCtrCtrl]
  | .pmuClearOvfStatus _ | .fpmuClearOvfStatus _ => [msrPerfGlobalOvfCtrl]
  | .counterRead | .fcounterRead | .pmuConfigureInterrupt _ _ _ | .fpmuConfigureInterrupt _ _ _ => []

end Seeker
