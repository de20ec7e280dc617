/-
This file embeds the writes of `msr_pmu.c` and `msr_fpmu.c` to the control registers of
the performance counters, as the modules are built for `ARCH_C2D`.

A write reads the register, keeps the reserved bits of what it has read, and puts the
fields of a descriptor at their places. The masks are the exact complements of the
fields, so `evtsel_write` and the two clears touch nothing else. `control_write` keeps
the reserved bits too, but then assigns the fields to `low` where it should add them,
so the reserved bits of the lower half are lost.

An `int` is its 32 bits: shifting a field into the sign bit keeps them.
-/
import Mathlib.Logic.Function.Basic
import Seeker.Library.BitFields

namespace Seeker

open BitFields

/-! ### The registers and their descriptors -/

/-- `BITS`. -/
def bits (n : Nat) : BitVec 32 := (1#32 <<< n) - 1#32

/-- `BITS_AT`. -/
def bitsAt (nbits place : Nat) : BitVec 32 := bits nbits <<< place

/-- `EVTSEL_RESERVED_BITS`. -/
def evtselReservedBits : BitVec 32 := bitsAt 1 21

/-- `EVTSEL_RESERVED_BITS_HIGH`. -/
def evtselReservedBitsHigh : BitVec 32 := ~~~0#32

/-- `FIXSEL_RESERVED_BITS`. -/
def fixselReservedBits : BitVec 32 :=
  ~~~(bitsAt 2 0 ||| bitsAt 3 3 ||| bitsAt 3 7 ||| bitsAt 1 11)

/-- `MSR_PERF_FIXED_CTR_CTRL`. -/
def msrPerfFixedCtrCtrl : BitVec 32 := 0x38D#32

/-- `LOW_BITS_EVT_SEL`. -/
def lowBitsEvtSel : Nat := 8

/-- The `SHIFT_` constants of `evtsel_t`, with the size of the field at each. -/
def spanEvtSel : Span := { shift := 0, size := 8 }
def spanEvtMask : Span := { shift := 8, size := 8 }
def spanUsrFlag : Span := { shift := 16, size := 1 }
def spanOsFlag : Span := { shift := 17, size := 1 }
def spanEdgeFlag : Span := { shift := 18, size := 1 }
def spanPcFlag : Span := { shift := 19, size := 1 }
def spanIntFlag : Span := { shift := 20, size := 1 }
def spanEnabled : Span := { shift := 22, size := 1 }
def spanInvFlag : Span := { shift := 23, size := 1 }
def spanCntMask : Span := { shift := 24, size := 8 }

/-- The `SHIFT_FIX_` constants. -/
def spanFixOs0 : Span := { shift := 0, size := 1 }
def spanFixUsr0 : Span := { shift := 1, size := 1 }
def spanFixPmi0 : Span := { shift := 3, size := 1 }
def spanFixOs1 : Span := { shift := 4, size := 1 }
def spanFixUsr1 : Span := { shift := 5, size := 1 }
def spanFixPmi1 : Span := { shift := 7, size := 1 }
def spanFixOs2 : Span := { shift := 8, size := 1 }
def spanFixUsr2 : Span := { shift := 9, size := 1 }
def spanFixPmi2 : Span := { shift := 11, size := 1 }

/-- `evtsel_t`. -/
structure Evtsel where
  evSelect : BitVec 8
  evMask : BitVec 8
  usrFlag : BitVec 1
  osFlag : BitVec 1
  edge : BitVec 1
  pcFlag : BitVec 1
  intFlag : BitVec 1
  enabled : BitVec 1
  invFlag : BitVec 1
  cntMask : BitVec 8
  addr : BitVec 32

/-- `fixctrl_t`. -/
structure Fixctrl where
  pmi0 : BitVec 1
  os0 : BitVec 1
  usr0 : BitVec 1
  pmi1 : BitVec 1
  os1 : BitVec 1
  usr1 : BitVec 1
  pmi2 : BitVec 1
  os2 : BitVec 1
  usr2 : BitVec 1

/-- The registers of each cpu by address, and the descriptors of `main.c`. -/
structure Pmu where
  msr : Nat → BitVec 32 → BitVec 64
  evtsel : Nat → Nat → Evtsel
  fcontrol : Nat → Fixctrl

/-! ### The writes -/

/-- `rdmsr`, into `low` and `high`. -/
def rdmsr (cpu : Nat) (address : BitVec 32) (p : Pmu) : BitVec 32 × BitVec 32 :=
  ((p.msr cpu address).setWidth 32, (p.msr cpu address).extractLsb' 32 32)

/-- `wrmsr`. -/
def wrmsr (cpu : Nat) (address low high : BitVec 32) (p : Pmu) : Pmu :=
  { p with
    msr := Function.update p.msr cpu (Function.update (p.msr cpu) address (high ++ low)) }

section Writes

variable {nrCpus : Nat} (cpu : Fin nrCpus) (evtselNum : Nat)

/-- `evtsel_clear`, on the cpu it runs on. -/
def evtselClear (p : Pmu) : Pmu :=
  let (low, high) := rdmsr cpu (p.evtsel cpu evtselNum).addr p
  let low := low &&& evtselReservedBits
  let high := high &&& evtselReservedBitsHigh
  wrmsr cpu (p.evtsel cpu evtselNum).addr low high p

/-- What `evtsel_write` adds to `low`. -/
def Evtsel.low (e : Evtsel) : BitVec 32 :=
  ((e.evSelect.setWidth 32 &&& bits lowBitsEvtSel) <<< spanEvtSel.shift)
    ||| (e.evMask.setWidth 32 <<< spanEvtMask.shift)
    ||| (e.usrFlag.setWidth 32 <<< spanUsrFlag.shift)
    ||| (e.osFlag.setWidth 32 <<< spanOsFlag.shift)
    ||| (e.edge.setWidth 32 <<< spanEdgeFlag.shift)
    ||| (e.pcFlag.setWidth 32 <<< spanPcFlag.shift)
    ||| (e.intFlag.setWidth 32 <<< spanIntFlag.shift)
    ||| (e.enabled.setWidth 32 <<< spanEnabled.shift)
    ||| (e.invFlag.setWidth 32 <<< spanInvFlag.shift)
    ||| (e.cntMask.setWidth 32 <<< spanCntMask.shift)

/-- `evtsel_write`, on the cpu it runs on. -/
def evtselWrite (p : Pmu) : Pmu :=
  if cpu < nrCpus then
    let curEvtsel := p.evtsel cpu evtselNum
    let (low, high) := rdmsr cpu curEvtsel.addr p
    let low := low &&& evtselReservedBits
    let low := low ||| curEvtsel.low
    let high := high &&& evtselReservedBitsHigh
    wrmsr cpu curEvtsel.addr low high p
  else p

/-- `control_clear`, on the cpu it runs on. -/
def controlClear (p : Pmu) : Pmu :=
  let (low, high) := rdmsr cpu msrPerfFixedCtrCtrl p
  let low := low &&& fixselReservedBits
  wrmsr cpu msrPerfFixedCtrCtrl low high p

/-- What `control_write` assigns to `low`. -/
def Fixctrl.low (f : Fixctrl) : BitVec 32 :=
  (f.os0.setWidth 32 <<< spanFixOs0.shift)
    ||| (f.usr0.setWidth 32 <<< spanFixUsr0.shift)
    ||| (f.pmi0.setWidth 32 <<< spanFixPmi0.shift)
    ||| (f.os1.setWidth 32 <<< spanFixOs1.shift)
    ||| (f.usr1.setWidth 32 <<< spanFixUsr1.shift)
    ||| (f.pmi1.setWidth 32 <<< spanFixPmi1.shift)
    ||| (f.os2.setWidth 32 <<< spanFixOs2.shift)
    ||| (f.usr2.setWidth 32 <<< spanFixUsr2.shift)
    ||| (f.pmi2.setWidth 32 <<< spanFixPmi2.shift)

/-- `control_write`, on the cpu it runs on: the second assignment to `low` is no `|=`. -/
def controlWrite (p : Pmu) : Pmu :=
  if cpu < nrCpus then
    let curControl := p.fcontrol cpu
    let (low, high) := rdmsr cpu msrPerfFixedCtrCtrl p
    let _low := low &&& fixselReservedBits
    let low := curControl.low
    wrmsr cpu msrPerfFixedCtrCtrl low high p
  else p

end Writes

/-! ### The fields -/

/-- The fields of `evtsel_t` at their places. -/
def Evtsel.fields (e : Evtsel) : List Field :=
  [⟨spanEvtSel, e.evSelect⟩, ⟨spanEvtMask, e.evMask⟩, ⟨spanUsrFlag, e.usrFlag⟩,
    ⟨spanOsFlag, e.osFlag⟩, ⟨spanEdgeFlag, e.edge⟩, ⟨spanPcFlag, e.pcFlag⟩,
    ⟨spanIntFlag, e.intFlag⟩, ⟨spanEnabled, e.enabled⟩, ⟨spanInvFlag, e.invFlag⟩,
    ⟨spanCntMask, e.cntMask⟩]

/-- The fields of `fixctrl_t` at their places. -/
def Fixctrl.fields (f : Fixctrl) : List Field :=
  [⟨spanFixOs0, f.os0⟩, ⟨spanFixUsr0, f.usr0⟩, ⟨spanFixPmi0, f.pmi0⟩, ⟨spanFixOs1, f.os1⟩,
    ⟨spanFixUsr1, f.usr1⟩, ⟨spanFixPmi1, f.pmi1⟩, ⟨spanFixOs2, f.os2⟩, ⟨spanFixUsr2, f.usr2⟩,
    ⟨spanFixPmi2, f.pmi2⟩]

/-- The architected fields of an event select register. -/
def evtselSpans : List Span :=
  [spanEvtSel, spanEvtMask, spanUsrFlag, spanOsFlag, spanEdgeFlag, spanPcFlag, spanIntFlag,
    spanEnabled, spanInvFlag, spanCntMask]

/-- The architected fields of the fixed control register. -/
def fixctrlSpans : List Span :=
  [spanFixOs0, spanFixUsr0, spanFixPmi0, spanFixOs1, spanFixUsr1, spanFixPmi1, spanFixOs2,
    spanFixUsr2, spanFixPmi2]

theorem Evtsel.spans (e : Evtsel) : e.fields.map Field.span = evtselSpans := rfl

theorem Fixctrl.spans (f : Fixctrl) : f.fields.map Field.span = fixctrlSpans := rfl

theorem evtselSpans_apart : evtselSpans.Pairwise Span.Apart := by decide

theorem fixctrlSpans_apart : fixctrlSpans.Pairwise Span.Apart := by decide

/-- The masks are the exact complements of the fields. -/
theorem evtselReservedBits_isReserved : IsReserved evtselReservedBits evtselSpans := by
  decide +kernel

theorem fixselReservedBits_isReserved : IsReserved fixselReservedBits fixctrlSpans := by
  decide +kernel

/-- The mask of `ev_select` keeps all of its bits. -/
theorem and_bits_lowBitsEvtSel (evSelect : BitVec 8) :
    evSelect.setWidth 32 &&& bits lowBitsEvtSel = evSelect.setWidth 32 := by
  have mask : bits lowBitsEvtSel = 255#32 := by decide
  rw [mask]
  refine BitVec.eq_of_toNat_eq ?_
  have small := evSelect.isLt
  rw [BitVec.toNat_and, BitVec.toNat_setWidth, Nat.mod_eq_of_lt (by omega)]
  exact (Nat.and_two_pow_sub_one_eq_mod evSelect.toNat 8).trans (Nat.mod_eq_of_lt small)

theorem Evtsel.low_eq (e : Evtsel) : e.low = pack 32 e.fields := by
  unfold Evtsel.low
  rw [and_bits_lowBitsEvtSel]
  simp only [Evtsel.fields, pack, Field.place, BitVec.or_assoc, BitVec.ofNat_eq_ofNat,
    BitVec.or_zero]
  rfl

theorem Fixctrl.low_eq (f : Fixctrl) : f.low = pack 32 f.fields := by
  unfold Fixctrl.low
  simp only [Fixctrl.fields, pack, Field.place, BitVec.or_assoc, BitVec.ofNat_eq_ofNat,
    BitVec.or_zero]
  rfl

theorem evtselSpans_fit : ∀ span ∈ evtselSpans, span.shift + span.size ≤ 32 := by decide

theorem fixctrlSpans_fit : ∀ span ∈ fixctrlSpans, span.shift + span.size ≤ 32 := by decide

/-! ### What a register keeps and holds -/

/-- No bit outside the fields has changed. -/
def KeepsOutside (spans : List Span) (before after : BitVec 64) : Prop :=
  ∀ index, index < 64 → Outside spans index → after.getLsbD index = before.getLsbD index

/-- Each field can be read back at its place. -/
def HoldsFields (fields : List Field) (register : BitVec 64) : Prop :=
  ∀ field ∈ fields, register.extractLsb' field.span.shift field.span.size = field.value

section Register

variable {register : BitVec 64} {low mask : BitVec 32} {spans : List Span} {fields : List Field}
  {index : Nat}

/-- A register whose lower half is written. -/
theorem getLsbD_lowWritten (inWord : index < 64) :
    (register.extractLsb' 32 32 ++ low).getLsbD index =
      if index < 32 then low.getLsbD index else register.getLsbD index := by
  rw [BitVec.getLsbD_append]
  by_cases lower : index < 32
  · rw [if_pos lower, if_pos lower]
  · have upper : index - 32 < 32 := by omega
    have place : 32 + (index - 32) = index := by omega
    rw [if_neg lower, if_neg lower, BitVec.getLsbD_extractLsb', decide_eq_true upper,
      Bool.true_and, place]

/-- Writing the lower half keeps what its bits outside the fields keep. -/
theorem keepsOutside_iff : KeepsOutside spans register (register.extractLsb' 32 32 ++ low) ↔
    ∀ index, index < 32 → Outside spans index → low.getLsbD index = register.getLsbD index := by
  constructor
  · intro keeps index inLow outside
    have kept := keeps index (by omega) outside
    rwa [getLsbD_lowWritten (by omega), if_pos inLow] at kept
  · intro keeps index inWord outside
    rw [getLsbD_lowWritten inWord]
    split
    · rename_i inLow
      exact keeps index inLow outside
    · rfl

theorem getLsbD_lowHalf (inLow : index < 32) :
    (register.setWidth 32).getLsbD index = register.getLsbD index := by
  rw [BitVec.getLsbD_setWidth, decide_eq_true inLow, Bool.true_and]

/-- Masking the lower half with the reserved bits keeps them. -/
theorem keepsOutside_clear (reserved : IsReserved mask spans) :
    KeepsOutside spans register
      (register.extractLsb' 32 32 ++ (register.setWidth 32 &&& mask)) := by
  refine keepsOutside_iff.mpr fun index inLow outside => ?_
  rw [BitVec.getLsbD_and, (reserved index inLow).mpr outside, Bool.and_true,
    getLsbD_lowHalf inLow]

/-- Merging fields into the lower half keeps the reserved bits. -/
theorem keepsOutside_merge (reserved : IsReserved mask (fields.map Field.span)) :
    KeepsOutside (fields.map Field.span) register
      (register.extractLsb' 32 32 ++ merge mask (register.setWidth 32) fields) := by
  refine keepsOutside_iff.mpr fun index inLow outside => ?_
  rw [getLsbD_merge_of_outside reserved inLow outside, getLsbD_lowHalf inLow]

/-- Fields that stand in the lower half can be read back. -/
theorem holdsFields_of (fit : ∀ span ∈ fields.map Field.span, span.shift + span.size ≤ 32)
    (stand : ∀ field ∈ fields, ∀ index, index < 32 → field.span.Covers index →
      low.getLsbD index = field.value.getLsbD (index - field.span.shift)) :
    HoldsFields fields (register.extractLsb' 32 32 ++ low) := by
  intro field member
  refine extractLsb'_eq fun index covers => ?_
  have inLow : index < 32 :=
    Nat.lt_of_lt_of_le covers.2 (fit field.span (List.mem_map_of_mem member))
  rw [getLsbD_lowWritten (by omega), if_pos inLow]
  exact stand field member index inLow covers

end Register

/-! ### What the four functions do to the registers -/

section Calls

variable {nrCpus : Nat} (cpu : Fin nrCpus) (evtselNum : Nat) (p : Pmu)

theorem wrmsr_self (address low high : BitVec 32) :
    (wrmsr cpu address low high p).msr cpu address = high ++ low := by
  show Function.update p.msr cpu _ cpu.val address = _
  rw [Function.update_self, Function.update_self]

/-- A write to one register leaves all others of all cpus alone. -/
theorem wrmsr_other {address low high : BitVec 32} {otherCpu : Nat} {other : BitVec 32}
    (apart : (otherCpu, other) ≠ (cpu.val, address)) :
    (wrmsr cpu address low high p).msr otherCpu other = p.msr otherCpu other := by
  show Function.update p.msr cpu _ otherCpu other = _
  by_cases here : otherCpu = cpu
  · rw [here, Function.update_self, Function.update_of_ne]
    exact fun same => apart (Prod.ext here same)
  · rw [Function.update_of_ne here]

theorem and_evtselReservedBitsHigh (high : BitVec 32) :
    high &&& evtselReservedBitsHigh = high := by
  unfold evtselReservedBitsHigh
  rw [BitVec.not_zero, BitVec.and_allOnes]

theorem evtselWrite_eq : evtselWrite cpu evtselNum p =
    wrmsr cpu (p.evtsel cpu evtselNum).addr
      (merge evtselReservedBits ((p.msr cpu (p.evtsel cpu evtselNum).addr).setWidth 32)
        (p.evtsel cpu evtselNum).fields)
      ((p.msr cpu (p.evtsel cpu evtselNum).addr).extractLsb' 32 32) p := by
  unfold evtselWrite rdmsr merge
  rw [if_pos cpu.isLt]
  dsimp only
  rw [and_evtselReservedBitsHigh, Evtsel.low_eq]

theorem evtselClear_eq : evtselClear cpu evtselNum p =
    wrmsr cpu (p.evtsel cpu evtselNum).addr
      ((p.msr cpu (p.evtsel cpu evtselNum).addr).setWidth 32 &&& evtselReservedBits)
      ((p.msr cpu (p.evtsel cpu evtselNum).addr).extractLsb' 32 32) p := by
  unfold evtselClear rdmsr
  dsimp only
  rw [and_evtselReservedBitsHigh]

theorem controlWrite_eq : controlWrite cpu p =
    wrmsr cpu msrPerfFixedCtrCtrl (pack 32 (p.fcontrol cpu).fields)
      ((p.msr cpu msrPerfFixedCtrCtrl).extractLsb' 32 32) p := by
  unfold controlWrite rdmsr
  rw [if_pos cpu.isLt]
  dsimp only
  rw [Fixctrl.low_eq]

/-- The event select register that a descriptor belongs to. -/
def evtselRegister (p' : Pmu) : BitVec 64 := p'.msr cpu (p.evtsel cpu evtselNum).addr

/-- The fixed control register. -/
def controlRegister (p' : Pmu) : BitVec 64 := p'.msr cpu msrPerfFixedCtrCtrl

/-- The writes and the clears touch only the fields of their own registers, and after a write the
fields are those of the descriptor. -/
structure TouchesOwnFields : Prop where
  evtselWrite_keeps : KeepsOutside evtselSpans (evtselRegister cpu evtselNum p p)
    (evtselRegister cpu evtselNum p (evtselWrite cpu evtselNum p))
  evtselWrite_holds : HoldsFields (p.evtsel cpu evtselNum).fields
    (evtselRegister cpu evtselNum p (evtselWrite cpu evtselNum p))
  evtselClear_keeps : KeepsOutside evtselSpans (evtselRegister cpu evtselNum p p)
    (evtselRegister cpu evtselNum p (evtselClear cpu evtselNum p))
  controlWrite_keeps : KeepsOutside fixctrlSpans (controlRegister cpu p)
    (controlRegister cpu (controlWrite cpu p))
  controlWrite_holds : HoldsFields (p.fcontrol cpu).fields
    (controlRegister cpu (controlWrite cpu p))
  controlClear_keeps : KeepsOutside fixctrlSpans (controlRegister cpu p)
    (controlRegister cpu (controlClear cpu p))
  evtsel_others : ∀ otherCpu other, (otherCpu, other) ≠ (cpu.val, (p.evtsel cpu evtselNum).addr) →
    (evtselWrite cpu evtselNum p).msr otherCpu other = p.msr otherCpu other ∧
      (evtselClear cpu evtselNum p).msr otherCpu other = p.msr otherCpu other
  control_others : ∀ otherCpu other, (otherCpu, other) ≠ (cpu.val, msrPerfFixedCtrCtrl) →
    (controlWrite cpu p).msr otherCpu other = p.msr otherCpu other ∧
      (controlClear cpu p).msr otherCpu other = p.msr otherCpu other

variable {cpu evtselNum p}

theorem evtselWrite_register : evtselRegister cpu evtselNum p (evtselWrite cpu evtselNum p) =
    (evtselRegister cpu evtselNum p p).extractLsb' 32 32 ++
      merge evtselReservedBits ((evtselRegister cpu evtselNum p p).setWidth 32)
        (p.evtsel cpu evtselNum).fields := by
  rw [evtselRegister, evtselWrite_eq, wrmsr_self]
  rfl

theorem evtselClear_register : evtselRegister cpu evtselNum p (evtselClear cpu evtselNum p) =
    (evtselRegister cpu evtselNum p p).extractLsb' 32 32 ++
      ((evtselRegister cpu evtselNum p p).setWidth 32 &&& evtselReservedBits) := by
  rw [evtselRegister, evtselClear_eq, wrmsr_self]
  rfl

theorem controlWrite_register : controlRegister cpu (controlWrite cpu p) =
    (controlRegister cpu p).extractLsb' 32 32 ++ pack 32 (p.fcontrol cpu).fields := by
  rw [controlRegister, controlWrite_eq, wrmsr_self]
  rfl

theorem controlClear_register : controlRegister cpu (controlClear cpu p) =
    (controlRegister cpu p).extractLsb' 32 32 ++
      ((controlRegister cpu p).setWidth 32 &&& fixselReservedBits) :=
  wrmsr_self cpu p msrPerfFixedCtrCtrl _ _

/-- `control_write` keeps the reserved bits exactly if they are all zero in the lower half. -/
theorem controlWrite_keeps_iff :
    KeepsOutside fixctrlSpans (controlRegister cpu p) (controlRegister cpu (controlWrite cpu p)) ↔
      ∀ index, index < 32 → Outside fixctrlSpans index →
        (controlRegister cpu p).getLsbD index = false := by
  rw [controlWrite_register, keepsOutside_iff]
  refine forall₃_congr fun index inLow outside => ?_
  have unset : (pack 32 (p.fcontrol cpu).fields).getLsbD index = false :=
    getLsbD_pack_of_outside inLow outside
  rw [unset, eq_comm]

/-- All four functions touch only their own fields exactly if no reserved bit is set in the lower
half of the fixed control register. -/
theorem pmu_own_fields_iff : TouchesOwnFields cpu evtselNum p ↔
    ∀ index, index < 32 → Outside fixctrlSpans index →
      (controlRegister cpu p).getLsbD index = false := by
  refine ⟨fun own => controlWrite_keeps_iff.mp own.controlWrite_keeps, fun unset =>
    ⟨?_, ?_, ?_, controlWrite_keeps_iff.mpr unset, ?_, ?_, fun _ _ apart => ?_,
      fun _ _ apart => ?_⟩⟩
  · rw [evtselWrite_register, ← (p.evtsel cpu evtselNum).spans]
    exact keepsOutside_merge evtselReservedBits_isReserved
  · rw [evtselWrite_register]
    refine holdsFields_of evtselSpans_fit fun field member index inLow covers => ?_
    exact getLsbD_merge_of_covers evtselReservedBits_isReserved evtselSpans_apart member inLow
      covers
  · rw [evtselClear_register]
    exact keepsOutside_clear evtselReservedBits_isReserved
  · rw [controlWrite_register]
    refine holdsFields_of fixctrlSpans_fit fun field member index inLow covers => ?_
    exact getLsbD_pack_of_covers fixctrlSpans_apart member inLow covers
  · rw [controlClear_register]
    exact keepsOutside_clear fixselReservedBits_isReserved
  · rw [evtselWrite_eq, evtselClear_eq]
    exact ⟨wrmsr_other cpu p apart, wrmsr_other cpu p apart⟩
  · rw [controlWrite_eq]
    exact ⟨wrmsr_other cpu p apart, wrmsr_other cpu p apart⟩

end Calls

/-- A fixed control register with bit 12 set, as on a machine with a fourth fixed counter: the bit
is lost. -/
theorem pmu_reserved_bit_lost :
    let p : Pmu :=
      { msr := fun _ _ => 0x1000#64
        evtsel := fun _ _ => ⟨0, 0, 0, 0, 0, 0, 0, 0, 0, 0, 0x186#32⟩
        fcontrol := fun _ => ⟨0, 1, 1, 0, 1, 1, 0, 1, 1⟩ }
    controlRegister (0 : Fin 1) (controlWrite (0 : Fin 1) p) = 0x333#64 ∧
      ¬ TouchesOwnFields (0 : Fin 1) 0 p := by
  refine ⟨by decide +kernel, fun own => ?_⟩
  have unset := pmu_own_fields_iff.mp own 12 (by decide) (by decide)
  exact absurd unset (by decide +kernel)

end Seeker
