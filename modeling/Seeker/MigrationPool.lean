/-
This file splits `put_work`, `cancel_task_work` and `change_cpus` into their accesses
to the migration pool and runs them on several cpus at once.

A put claims its slot under the lock and fills it after the unlock; a cancellation
scans the pool under the lock; an execution takes no lock. A slot changes hands
safely when a cancellation looks at no slot whose task is yet to be written and frees
none whose put is unfinished, and when a put claims no slot whose work is pending or
executing. Under these conditions every slot has one owner, and what is applied is
what its owner asked for; the run at the end has a cancellation break the first one.
-/
import Mathlib.Tactic.Common
import Seeker.Library.Exec
import Seeker.Migrate

namespace Seeker

/-! ### The calls in progress -/

/-- The next access of a `put_work` call that has claimed its slot. -/
inductive PutStage where
  | writeMask
  | writeTask
  | schedule
  deriving DecidableEq

/-- A `put_work` call between its unlock and its return. -/
structure UnfinishedPut where
  slot : Nat
  ts : Nat
  mask : Cpumask
  stage : PutStage

/-- The next access of a `cancel_task_work` call to the slot it looks at. -/
inductive CancelStage where
  | readFree
  | readTask
  | cancelWork
  | release
  deriving DecidableEq

/-- The call that holds `mig_pool_lock` and the slot its loop has come to. -/
inductive LockHolder (cpus : Nat) where
  | put (cpu : Fin cpus) (ts : Nat) (mask : Cpumask) (slot : Nat)
  | cancel (ts slot : Nat) (stage : CancelStage)

/-- The next access of a `change_cpus` call, with the task it has read. -/
inductive ExecutionStage where
  | readTask
  | readFree (ts : Option Nat)
  | readMask (ts : Option Nat)
  | apply (ts : Option Nat)
  | release

/-- A `change_cpus` call and the slot it was started for. -/
structure Execution where
  slot : Nat
  stage : ExecutionStage

/-- The `put_work` call that claimed a slot last, and whether it has written the task. -/
structure Claim (cpus : Nat) where
  cpu : Fin cpus
  ts : Nat
  mask : Cpumask
  written : Bool

/-- What the run keeps of the calls: for a slot a cancellation looks at, whether the owner has
written the task; for a slot it frees, whom the slot was claimed for; for an execution, the task
and the mask it applies and those the slot was claimed with. -/
inductive PoolRecord where
  | inspected (written : Bool)
  | freed (ts : Nat) (claimedFor : Option Nat)
  | applied (ts : Option Nat) (mask : Cpumask) (claimedWith : Option (Nat × Cpumask))
  deriving DecidableEq

/-- What the claims of the slots allow. -/
def PoolRecord.Proper : PoolRecord → Prop
  | .inspected written => written = true
  | .freed ts claimedFor => claimedFor = some ts
  | .applied ts mask claimedWith => ∃ asked, ts = some asked ∧ claimedWith = some (asked, mask)

/-- The pool and the calls in progress on each cpu. `claims` is what the run remembers; the code
does not have it. A task is named by its pid. -/
structure PoolState (cpus : Nat) where
  size : Nat
  pool : Nat → MaskWork
  puts : Fin cpus → Option UnfinishedPut
  workers : Fin cpus → Option Execution
  claims : Nat → Option (Claim cpus)

/-- The pool with its lock, and the records of the run. -/
structure MigrationPool (cpus : Nat) extends PoolState cpus where
  lock : Option (LockHolder cpus)
  records : List PoolRecord

/-- The pool after `init_mig_pool`. -/
def MigrationPool.start (cpus size : Nat) : MigrationPool cpus where
  size := size
  pool := initMigPool size staticPool
  puts _ := none
  workers _ := none
  claims _ := none
  lock := none
  records := []

variable {cpus : Nat}

/-! ### The steps -/

/-- A write to a slot. -/
def PoolState.modify (slot : Nat) (change : MaskWork → MaskWork) (c : PoolState cpus) :
    PoolState cpus :=
  { c with pool := Function.update c.pool slot (change (c.pool slot)) }

/-- A cpu's unfinished put goes on to its next access or returns. -/
def PoolState.setPut (cpu : Fin cpus) (put : Option UnfinishedPut) (c : PoolState cpus) :
    PoolState cpus :=
  { c with puts := Function.update c.puts cpu put }

/-- A cpu's execution goes on to its next access or returns. -/
def PoolState.setWorker (cpu : Fin cpus) (execution : Option Execution) (c : PoolState cpus) :
    PoolState cpus :=
  { c with workers := Function.update c.workers cpu execution }

/-- A slot is claimed. -/
def PoolState.claim (cpu : Fin cpus) (ts : Nat) (mask : Cpumask) (slot : Nat)
    (c : PoolState cpus) : PoolState cpus :=
  { (c.modify slot fun work => { work with free := false }).setPut cpu
      (some ⟨slot, ts, mask, .writeMask⟩) with
    claims := Function.update c.claims slot (some ⟨cpu, ts, mask, false⟩) }

/-- The claim of a slot after a cpu has written the task: only the owner's write counts. -/
def Claim.write (cpu : Fin cpus) (claim : Claim cpus) : Claim cpus :=
  if claim.cpu = cpu then { claim with written := true } else claim

/-- `mig_pool[i].mask = mask`. -/
def PoolState.writeMask (cpu : Fin cpus) (put : UnfinishedPut) (c : PoolState cpus) :
    PoolState cpus :=
  (c.modify put.slot fun work => { work with mask := put.mask }).setPut cpu
    (some { put with stage := .writeTask })

/-- `mig_pool[i].task = ts`. -/
def PoolState.writeTask (cpu : Fin cpus) (put : UnfinishedPut) (c : PoolState cpus) :
    PoolState cpus :=
  { (c.modify put.slot fun work => { work with task := some put.ts }).setPut cpu
      (some { put with stage := .schedule }) with
    claims := Function.update c.claims put.slot ((c.claims put.slot).map (.write cpu)) }

/-- `schedule_delayed_work(&(mig_pool[i].work), 1)` and the return. -/
def PoolState.schedule (cpu : Fin cpus) (put : UnfinishedPut) (c : PoolState cpus) :
    PoolState cpus :=
  (c.modify put.slot .scheduleDelayedWork).setPut cpu none

/-- The next access of an unfinished put. -/
def PoolState.fill (cpu : Fin cpus) (put : UnfinishedPut) (c : PoolState cpus) :
    PoolState cpus :=
  match put.stage with
  | .writeMask => c.writeMask cpu put
  | .writeTask => c.writeTask cpu put
  | .schedule => c.schedule cpu put

/-- A slot is released. -/
def PoolState.release (slot : Nat) (c : PoolState cpus) : PoolState cpus :=
  c.modify slot fun work => { work with free := true }

/-- A record. -/
def MigrationPool.note (record : PoolRecord) (m : MigrationPool cpus) : MigrationPool cpus :=
  { m with records := m.records ++ [record] }

/-- One turn of the loop of `put_work`, or its end. -/
def scanStep (cpu : Fin cpus) (ts : Nat) (mask : Cpumask) (slot : Nat) (m : MigrationPool cpus) :
    MigrationPool cpus :=
  if m.size ≤ slot then { m with lock := none }
  else if (m.pool slot).free then
    { m with toPoolState := m.toPoolState.claim cpu ts mask slot, lock := none }
  else { m with lock := some (.put cpu ts mask (slot + 1)) }

/-- One access of `cancel_task_work` to a slot. -/
def cancelStep (ts slot : Nat) (stage : CancelStage) (m : MigrationPool cpus) :
    MigrationPool cpus :=
  match stage with
  | .readFree =>
    if m.size ≤ slot then { m with lock := none }
    else if (m.pool slot).free = false then { m with lock := some (.cancel ts slot .readTask) }
    else { m with lock := some (.cancel ts (slot + 1) .readFree) }
  | .readTask =>
    let m := m.note (.inspected ((m.claims slot).any (·.written)))
    if (m.pool slot).task = some ts then { m with lock := some (.cancel ts slot .cancelWork) }
    else { m with lock := some (.cancel ts (slot + 1) .readFree) }
  | .cancelWork =>
    { m with
      toPoolState := m.toPoolState.modify slot .cancelDelayedWork
      lock := some (.cancel ts slot .release) }
  | .release =>
    { m.note (.freed ts ((m.claims slot).map (·.ts))) with
      toPoolState := m.toPoolState.release slot
      lock := some (.cancel ts (slot + 1) .readFree) }

/-- The next step of the call that holds the lock. -/
def holderStep (m : MigrationPool cpus) : MigrationPool cpus :=
  match m.lock with
  | none => m
  | some (.put cpu ts mask slot) => scanStep cpu ts mask slot m
  | some (.cancel ts slot stage) => cancelStep ts slot stage m

/-- What an execution applies, beside what its slot was claimed with. -/
def PoolState.applied (slot : Nat) (ts : Option Nat) (c : PoolState cpus) : PoolRecord :=
  .applied ts (c.pool slot).mask ((c.claims slot).map fun claim => (claim.ts, claim.mask))

/-- The next access of an execution. `cpusAllowed` is what the task's `cpus_allowed` holds; where
it is the mask already, nothing is left to apply. -/
def executionStep (cpu : Fin cpus) (execution : Execution) (cpusAllowed : Cpumask)
    (m : MigrationPool cpus) : MigrationPool cpus :=
  let slot := execution.slot
  let next stage := m.toPoolState.setWorker cpu (some { execution with stage := stage })
  match execution.stage with
  | .readTask => { m with toPoolState := next (.readFree (m.pool slot).task) }
  | .readFree ts =>
    if (m.pool slot).free then { m with toPoolState := m.toPoolState.setWorker cpu none }
    else { m with toPoolState := next (.readMask ts) }
  | .readMask ts =>
    if (m.pool slot).mask = cpusAllowed then
      { m.note (m.toPoolState.applied slot ts) with toPoolState := next .release }
    else { m with toPoolState := next (.apply ts) }
  | .apply ts => { m.note (m.toPoolState.applied slot ts) with toPoolState := next .release }
  | .release =>
    { m with toPoolState := (m.toPoolState.release slot).setWorker cpu none }

/-- A put or a cancellation is called and takes the lock; the holder of the lock, an unfinished put
or an execution makes its next access; the timer of a slot expires; a cpu takes up queued work. -/
inductive PoolEvent (cpus : Nat) where
  | putWork (cpu : Fin cpus) (ts : Nat) (mask : Cpumask)
  | cancelTaskWork (ts : Nat)
  | holder
  | fill (cpu : Fin cpus)
  | expire (slot : Nat)
  | execute (cpu : Fin cpus) (slot : Nat)
  | execution (cpu : Fin cpus) (cpusAllowed : Cpumask)

/-- One event. -/
def poolStep (m : MigrationPool cpus) : PoolEvent cpus → MigrationPool cpus
  | .putWork cpu ts mask =>
    match m.lock, m.puts cpu with
    | none, none => { m with lock := some (.put cpu ts mask 0) }
    | _, _ => m
  | .cancelTaskWork ts =>
    match m.lock with
    | none => { m with lock := some (.cancel ts 0 .readFree) }
    | some _ => m
  | .holder => holderStep m
  | .fill cpu =>
    match m.puts cpu with
    | none => m
    | some put => { m with toPoolState := m.toPoolState.fill cpu put }
  | .expire slot => { m with pool := expireTimer slot m.pool }
  | .execute cpu slot =>
    match m.workers cpu with
    | some _ => m
    | none =>
      if (m.pool slot).queued then
        { m with
          toPoolState :=
            (m.toPoolState.modify slot fun work => { work with queued := false }).setWorker cpu
              (some ⟨slot, .readTask⟩) }
      else m
  | .execution cpu cpusAllowed =>
    match m.workers cpu with
    | none => m
    | some execution => executionStep cpu execution cpusAllowed m

/-! ### The conditions -/

/-- No `put_work` call has claimed the slot and has yet to write its task. -/
def PoolState.Written (c : PoolState cpus) (slot : Nat) : Prop :=
  ∀ cpu, ∀ put ∈ c.puts cpu, put.slot = slot → put.stage = .schedule

/-- No `put_work` call that has claimed the slot is unfinished. -/
def PoolState.Finished (c : PoolState cpus) (slot : Nat) : Prop :=
  ∀ cpu, ∀ put ∈ c.puts cpu, put.slot ≠ slot

/-- The work of the slot is neither pending nor executing. -/
def PoolState.AtRest (c : PoolState cpus) (slot : Nat) : Prop :=
  (c.pool slot).timer = false ∧ (c.pool slot).queued = false ∧
    ∀ cpu, ∀ execution ∈ c.workers cpu, execution.slot ≠ slot

/-- What the holder of the lock has to find at the slot it has come to. -/
def PoolState.HolderTimely (c : PoolState cpus) : LockHolder cpus → Prop
  | .put _ _ _ slot => slot < c.size → (c.pool slot).free = true → c.AtRest slot
  | .cancel _ slot .readTask => c.Written slot
  | .cancel _ slot .cancelWork => c.Finished slot
  | .cancel _ _ .readFree => True
  | .cancel _ _ .release => True

/-- A put claims no slot whose work is pending or executing, and a cancellation looks at no slot
whose task is yet to be written and cancels none whose put is unfinished. -/
def PoolEvent.Timely (m : MigrationPool cpus) : PoolEvent cpus → Prop
  | .holder => ∀ holder ∈ m.lock, m.toPoolState.HolderTimely holder
  | _ => True

instance (c : PoolState cpus) (slot : Nat) : Decidable (c.Written slot) :=
  inferInstanceAs (Decidable (∀ cpu, ∀ put ∈ c.puts cpu, put.slot = slot → put.stage = .schedule))

instance (c : PoolState cpus) (slot : Nat) : Decidable (c.Finished slot) :=
  inferInstanceAs (Decidable (∀ cpu, ∀ put ∈ c.puts cpu, put.slot ≠ slot))

instance (c : PoolState cpus) (slot : Nat) : Decidable (c.AtRest slot) :=
  inferInstanceAs (Decidable (_ ∧ _ ∧ ∀ cpu, ∀ execution ∈ c.workers cpu, execution.slot ≠ slot))

instance (c : PoolState cpus) : DecidablePred c.HolderTimely
  | .put _ _ _ slot =>
    inferInstanceAs (Decidable (slot < c.size → (c.pool slot).free = true → c.AtRest slot))
  | .cancel _ slot .readTask => inferInstanceAs (Decidable (c.Written slot))
  | .cancel _ slot .cancelWork => inferInstanceAs (Decidable (c.Finished slot))
  | .cancel _ _ .readFree => isTrue trivial
  | .cancel _ _ .release => isTrue trivial

instance poolTimelyDecidable (m : MigrationPool cpus) (event : PoolEvent cpus) :
    Decidable (event.Timely m) :=
  match event with
  | .holder => inferInstanceAs (Decidable (∀ holder ∈ m.lock, m.toPoolState.HolderTimely holder))
  | .putWork _ _ _ => isTrue trivial
  | .cancelTaskWork _ => isTrue trivial
  | .fill _ => isTrue trivial
  | .expire _ => isTrue trivial
  | .execute _ _ => isTrue trivial
  | .execution _ _ => isTrue trivial

/-! ### One owner for a slot -/

/-- The task an execution has read. -/
def ExecutionStage.read : ExecutionStage → Option (Option Nat)
  | .readTask => none
  | .readFree ts => some ts
  | .readMask ts => some ts
  | .apply ts => some ts
  | .release => none

/-- What an unfinished put has done to its slot. -/
structure PutKept (work : MaskWork) (claim : Option (Claim cpus)) (cpu : Fin cpus)
    (put : UnfinishedPut) : Prop where
  busy : work.free = false
  claim : claim = some ⟨cpu, put.ts, put.mask, decide (put.stage = .schedule)⟩
  mask : put.stage ≠ .writeMask → work.mask = put.mask

/-- The slot carries the task and the mask of the call that claimed it. -/
def PoolState.Delivered (c : PoolState cpus) (slot : Nat) : Prop :=
  ∃ claim ∈ c.claims slot, claim.written = true ∧ (c.pool slot).mask = claim.mask

/-- One slot and the calls that work on it: an unfinished put is the owner's and has the slot to
itself, and work that is pending or executing is the owner's too. -/
structure SlotOwned (c : PoolState cpus) (slot : Nat) : Prop where
  put : ∀ cpu, ∀ put ∈ c.puts cpu, put.slot = slot →
    PutKept (c.pool slot) (c.claims slot) cpu put ∧ c.AtRest slot
  written : ∀ claim ∈ c.claims slot, claim.written = true → (c.pool slot).task = some claim.ts
  unwritten : ∀ claim ∈ c.claims slot, claim.written = false →
    ∃ put ∈ c.puts claim.cpu, put.slot = slot ∧ put.stage ≠ .schedule
  claimed : slot < c.size → (c.pool slot).free = false → (c.claims slot).isSome
  delivered : c.AtRest slot ∨ c.Delivered slot
  read : ∀ cpu, ∀ execution ∈ c.workers cpu, execution.slot = slot →
    ∀ ts, execution.stage.read = some ts → ts = (c.pool slot).task

/-- Every slot has one owner. -/
def Owned (c : PoolState cpus) : Prop := ∀ slot, SlotOwned c slot

section Slots

variable {c c' : PoolState cpus} {slot : Nat} {cpu : Fin cpus}

/-- A slot that a step does not touch, and whose calls it does not touch, keeps its owner. -/
theorem SlotOwned.frame (owned : SlotOwned c slot) (size : c'.size = c.size)
    (pool : c'.pool slot = c.pool slot) (claims : c'.claims slot = c.claims slot)
    (puts : ∀ cpu put, put.slot = slot → (put ∈ c'.puts cpu ↔ put ∈ c.puts cpu))
    (workers : ∀ cpu execution, execution.slot = slot →
      (execution ∈ c'.workers cpu ↔ execution ∈ c.workers cpu)) : SlotOwned c' slot := by
  have atRest : c.AtRest slot → c'.AtRest slot := by
    rintro ⟨timer, queued, idle⟩
    refine ⟨pool ▸ timer, pool ▸ queued, fun cpu execution member here => ?_⟩
    exact idle cpu execution ((workers cpu execution here).mp member) here
  refine ⟨?_, ?_, ?_, ?_, ?_, ?_⟩
  · intro cpu put member here
    obtain ⟨kept, rest⟩ := owned.put cpu put ((puts cpu put here).mp member) here
    rw [pool, claims]
    exact ⟨kept, atRest rest⟩
  · rw [pool, claims]
    exact owned.written
  · intro claim member unwritten
    rw [claims] at member
    obtain ⟨put, mine, here, stage⟩ := owned.unwritten claim member unwritten
    exact ⟨put, (puts claim.cpu put here).mpr mine, here, stage⟩
  · rw [pool, claims, size]
    exact owned.claimed
  · refine owned.delivered.imp atRest ?_
    rintro ⟨claim, member, written, mask⟩
    exact ⟨claim, claims ▸ member, written, pool ▸ mask⟩
  · intro cpu execution member here ts read
    rw [pool]
    exact owned.read cpu execution ((workers cpu execution here).mp member) here ts read

/-- A cpu whose old and new call both work on one slot makes no difference to the others. -/
theorem mem_update_of_slot {Item : Type} {slotOf : Item → Nat} {touched : Nat}
    {table : Fin cpus → Option Item} {new : Option Item}
    (old : ∀ item ∈ table cpu, slotOf item = touched) (fresh : ∀ item ∈ new, slotOf item = touched)
    (different : slot ≠ touched) (other : Fin cpus) (item : Item) (here : slotOf item = slot) :
    item ∈ Function.update table cpu new other ↔ item ∈ table other := by
  by_cases same : other = cpu
  · subst same
    rw [Function.update_self]
    exact ⟨fun member => absurd (here.symm.trans (fresh item member)) different,
      fun member => absurd (here.symm.trans (old item member)) different⟩
  · rw [Function.update_of_ne same]

/-- The unfinished put of a slot is the only one. -/
theorem SlotOwned.put_unique (owned : SlotOwned c slot) {cpu other : Fin cpus}
    {put rival : UnfinishedPut} (mine : put ∈ c.puts cpu) (here : put.slot = slot)
    (theirs : rival ∈ c.puts other) (there : rival.slot = slot) : cpu = other := by
  have first := (owned.put cpu put mine here).1.claim
  have second := (owned.put other rival theirs there).1.claim
  exact congrArg Claim.cpu (Option.some.inj (first.symm.trans second))

/-- A slot at rest with one unfinished put is that put's. -/
theorem SlotOwned.of_put {put : UnfinishedPut} (mine : put ∈ c.puts cpu) (here : put.slot = slot)
    (kept : PutKept (c.pool slot) (c.claims slot) cpu put) (rest : c.AtRest slot)
    (only : ∀ other, ∀ rival ∈ c.puts other, rival.slot = slot → other = cpu)
    (task : put.stage = .schedule → (c.pool slot).task = some put.ts) : SlotOwned c slot where
  put other rival member there := by
    obtain rfl := only other rival member there
    obtain rfl := Option.some.inj (mine.symm.trans member)
    exact ⟨kept, rest⟩
  written claim member written := by
    obtain rfl := Option.some.inj (kept.claim.symm.trans member)
    exact task (of_decide_eq_true written)
  unwritten claim member unwritten := by
    obtain rfl := Option.some.inj (kept.claim.symm.trans member)
    exact ⟨put, mine, here, of_decide_eq_false unwritten⟩
  claimed _ _ := by rw [kept.claim]; rfl
  delivered := Or.inl rest
  read worker execution member there := absurd there (rest.2.2 worker execution member)

/-- A slot whose task and mask stay, which is released only when no put on it is unfinished. -/
theorem SlotOwned.rework (owned : SlotOwned c slot) (size : c'.size = c.size)
    (claims : c'.claims = c.claims) (puts : c'.puts = c.puts)
    (task : (c'.pool slot).task = (c.pool slot).task)
    (mask : (c'.pool slot).mask = (c.pool slot).mask)
    (free : (c'.pool slot).free = (c.pool slot).free ∨
      (c'.pool slot).free = true ∧ c.Finished slot)
    (rest : c.AtRest slot → c'.AtRest slot)
    (read : ∀ cpu, ∀ execution ∈ c'.workers cpu, execution.slot = slot →
      ∀ ts, execution.stage.read = some ts → ts = (c.pool slot).task) : SlotOwned c' slot where
  put cpu put member here := by
    rw [puts] at member
    obtain ⟨kept, resting⟩ := owned.put cpu put member here
    have same := free.resolve_right fun released => released.2 cpu put member here
    exact ⟨⟨same.trans kept.busy, claims ▸ kept.claim, fun stage => mask.trans (kept.mask stage)⟩,
      rest resting⟩
  written claim member written := by
    rw [claims] at member
    rw [task]
    exact owned.written claim member written
  unwritten claim member unwritten := by
    rw [claims] at member
    rw [puts]
    exact owned.unwritten claim member unwritten
  claimed small busy := by
    rw [size] at small
    rw [claims]
    have same := free.resolve_right fun released => by
      rw [released.1] at busy
      cases busy
    exact owned.claimed small (same ▸ busy)
  delivered := by
    refine owned.delivered.imp rest ?_
    rintro ⟨claim, member, written, carried⟩
    exact ⟨claim, claims ▸ member, written, mask.trans carried⟩
  read := by
    rw [task]
    exact read

/-- A step that reworks one slot and leaves the others and their executions alone. -/
theorem Owned.rework (owned : Owned c) {touched : Nat} (size : c'.size = c.size)
    (claims : c'.claims = c.claims) (puts : c'.puts = c.puts)
    (pool : ∀ slot, slot ≠ touched → c'.pool slot = c.pool slot)
    (workers : ∀ cpu execution, execution.slot ≠ touched →
      (execution ∈ c'.workers cpu ↔ execution ∈ c.workers cpu))
    (reworked : SlotOwned c' touched) : Owned c' := by
  intro slot
  by_cases here : slot = touched
  · exact here ▸ reworked
  · refine (owned slot).frame size (pool slot here) (by rw [claims]) ?_ ?_
    · intro cpu put _
      rw [puts]
    · intro cpu execution there
      exact workers cpu execution fun same => here (there.symm.trans same)

/-! ### What the steps do to the owners -/

/-- Claiming a free slot at rest makes the caller its owner. -/
theorem Owned.claim (owned : Owned c) {ts : Nat} {mask : Cpumask}
    (free : (c.pool slot).free = true) (rest : c.AtRest slot) (ready : c.puts cpu = none) :
    Owned (c.claim cpu ts mask slot) := by
  intro other
  by_cases here : other = slot
  · subst here
    have pool : (c.claim cpu ts mask other).pool other = { c.pool other with free := false } :=
      Function.update_self ..
    have claims : (c.claim cpu ts mask other).claims other = some ⟨cpu, ts, mask, false⟩ :=
      Function.update_self ..
    have mine : (c.claim cpu ts mask other).puts cpu = some ⟨other, ts, mask, .writeMask⟩ :=
      Function.update_self ..
    refine SlotOwned.of_put mine rfl ?_ ?_ ?_ PutStage.noConfusion
    · rw [pool, claims]
      exact ⟨rfl, rfl, fun stage => absurd rfl stage⟩
    · exact ⟨by rw [pool]; exact rest.1, by rw [pool]; exact rest.2.1, rest.2.2⟩
    · -- A put of another cpu would have found the slot claimed.
      intro owner rival member there
      by_contra different
      have before : rival ∈ c.puts owner := by
        rw [← Function.update_of_ne different (some ⟨other, ts, mask, .writeMask⟩) c.puts]
        exact member
      have busy := ((owned other).put owner rival before there).1.busy
      rw [free] at busy
      cases busy
  · refine (owned other).frame rfl (Function.update_of_ne here ..) (Function.update_of_ne here ..)
      (mem_update_of_slot ?_ ?_ here) fun _ _ _ => Iff.rfl
    · intro put member
      have before : put ∈ c.puts cpu := member
      rw [ready] at before
      cases before
    · intro put member
      obtain rfl := Option.some.inj member
      rfl

/-- A step that changes a cpu's unfinished put and the slot it works on. -/
theorem Owned.of_fill (owned : Owned c) {put : UnfinishedPut} (mine : c.puts cpu = some put)
    {new : Option UnfinishedPut} (fresh : ∀ item ∈ new, item.slot = put.slot)
    (size : c'.size = c.size) (puts : c'.puts = Function.update c.puts cpu new)
    (workers : c'.workers = c.workers)
    (pool : ∀ slot, slot ≠ put.slot → c'.pool slot = c.pool slot)
    (claims : ∀ slot, slot ≠ put.slot → c'.claims slot = c.claims slot)
    (filled : SlotOwned c' put.slot) : Owned c' := by
  intro slot
  by_cases here : slot = put.slot
  · exact here ▸ filled
  · refine (owned slot).frame size (pool slot here) (claims slot here) ?_ ?_
    · rw [puts]
      refine mem_update_of_slot (fun item member => ?_) fresh here
      rw [mine] at member
      rw [← Option.some.inj member]
    · intro cpu execution _
      rw [workers]

/-- After a cpu's put of a slot has changed, no other cpu has one there. -/
theorem SlotOwned.only (owned : SlotOwned c slot) {put : UnfinishedPut}
    (mine : put ∈ c.puts cpu) (here : put.slot = slot) (new : Option UnfinishedPut) :
    ∀ other, ∀ rival ∈ Function.update c.puts cpu new other, rival.slot = slot → other = cpu := by
  intro other rival member there
  by_contra different
  rw [Function.update_of_ne different] at member
  exact different (owned.put_unique member there mine here)

theorem PoolState.AtRest.congr (rest : c.AtRest slot)
    (timer : (c'.pool slot).timer = (c.pool slot).timer)
    (queued : (c'.pool slot).queued = (c.pool slot).queued) (workers : c'.workers = c.workers) :
    c'.AtRest slot := by
  refine ⟨timer.trans rest.1, queued.trans rest.2.1, ?_⟩
  rw [workers]
  exact rest.2.2

section Fill

variable {put : UnfinishedPut} (owned : Owned c) (mine : c.puts cpu = some put)
include owned mine

/-- The owner writes the mask. -/
theorem Owned.writeMask (stage : put.stage = .writeMask) : Owned (c.writeMask cpu put) := by
  obtain ⟨kept, rest⟩ := (owned put.slot).put cpu put mine rfl
  have pool : (c.writeMask cpu put).pool put.slot = { c.pool put.slot with mask := put.mask } :=
    Function.update_self ..
  have now : { put with stage := PutStage.writeTask } ∈ (c.writeMask cpu put).puts cpu :=
    Function.update_self ..
  refine owned.of_fill mine (fun item member => ?_) rfl rfl rfl
    (fun slot here => Function.update_of_ne here ..) (fun _ _ => rfl)
    (SlotOwned.of_put now rfl ⟨?_, ?_, ?_⟩ (rest.congr ?_ ?_ rfl)
      ((owned put.slot).only mine rfl _) PutStage.noConfusion)
  · rw [← Option.some.inj member]
  · rw [pool]
    exact kept.busy
  · show c.claims put.slot = _
    rw [kept.claim, stage]
    rfl
  · rw [pool]
    exact fun _ => rfl
  · rw [pool]
  · rw [pool]

/-- The owner writes the task. -/
theorem Owned.writeTask (stage : put.stage = .writeTask) : Owned (c.writeTask cpu put) := by
  obtain ⟨kept, rest⟩ := (owned put.slot).put cpu put mine rfl
  have pool : (c.writeTask cpu put).pool put.slot = { c.pool put.slot with task := some put.ts } :=
    Function.update_self ..
  have now : { put with stage := PutStage.schedule } ∈ (c.writeTask cpu put).puts cpu :=
    Function.update_self ..
  refine owned.of_fill mine (fun item member => ?_) rfl rfl rfl
    (fun slot here => Function.update_of_ne here ..)
    (fun slot here => Function.update_of_ne here ..)
    (SlotOwned.of_put now rfl ⟨?_, ?_, ?_⟩ (rest.congr ?_ ?_ rfl)
      ((owned put.slot).only mine rfl _) fun _ => ?_)
  · rw [← Option.some.inj member]
  · rw [pool]
    exact kept.busy
  · show Function.update c.claims put.slot _ put.slot = _
    rw [Function.update_self, kept.claim, Option.map_some, Claim.write, if_pos rfl]
    rfl
  · rw [pool]
    exact fun _ => kept.mask (by rw [stage]; exact PutStage.noConfusion)
  · rw [pool]
  · rw [pool]
  · rw [pool]

/-- The owner schedules the work: the slot is delivered. -/
theorem Owned.schedule (stage : put.stage = .schedule) : Owned (c.schedule cpu put) := by
  obtain ⟨kept, rest⟩ := (owned put.slot).put cpu put mine rfl
  have claim : c.claims put.slot = some ⟨cpu, put.ts, put.mask, true⟩ := by
    rw [kept.claim, stage]
    rfl
  have pool : (c.schedule cpu put).pool put.slot = { c.pool put.slot with timer := true } := by
    refine (Function.update_self ..).trans (if_neg ?_)
    rw [rest.1, rest.2.1]
    exact fun pending => pending.elim Bool.noConfusion Bool.noConfusion
  have nobody : ∀ other, ∀ rival ∈ (c.schedule cpu put).puts other, rival.slot ≠ put.slot := by
    intro other rival member there
    obtain rfl := (owned put.slot).only mine rfl none other rival member there
    rw [show (c.schedule other put).puts other = none from Function.update_self ..] at member
    cases member
  refine owned.of_fill mine (fun item member => by cases member) rfl rfl rfl
    (fun slot here => Function.update_of_ne here ..) (fun _ _ => rfl)
    ⟨fun other rival member there => absurd there (nobody other rival member), ?_, ?_, ?_,
      Or.inr ⟨_, claim, rfl, ?_⟩, ?_⟩
  · rw [pool]
    exact (owned put.slot).written
  · intro other member unwritten
    obtain rfl := Option.some.inj (claim.symm.trans member)
    cases unwritten
  · rw [pool]
    exact (owned put.slot).claimed
  · rw [pool]
    exact kept.mask (by rw [stage]; exact PutStage.noConfusion)
  · intro worker execution member there
    exact absurd there (rest.2.2 worker execution member)

theorem Owned.fill : Owned (c.fill cpu put) := by
  unfold PoolState.fill
  split
  · rename_i stage
    exact owned.writeMask mine stage
  · rename_i stage
    exact owned.writeTask mine stage
  · rename_i stage
    exact owned.schedule mine stage

end Fill

/-- A cancellation stops the timer of a slot. -/
theorem Owned.cancelWork (owned : Owned c) (slot : Nat) :
    Owned (c.modify slot .cancelDelayedWork) := by
  have pool : (c.modify slot .cancelDelayedWork).pool slot = (c.pool slot).cancelDelayedWork :=
    Function.update_self ..
  refine owned.rework rfl rfl rfl (fun other here => Function.update_of_ne here ..)
    (fun _ _ _ => Iff.rfl) ?_
  refine (owned slot).rework rfl rfl rfl ?_ ?_ (Or.inl ?_) ?_ (owned slot).read
  · rw [pool]
    rfl
  · rw [pool]
    rfl
  · rw [pool]
    rfl
  · intro rest
    exact ⟨by rw [pool]; rfl, by rw [pool]; exact rest.2.1, rest.2.2⟩

/-- A slot without an unfinished put is released. -/
theorem Owned.release (owned : Owned c) (finished : c.Finished slot) : Owned (c.release slot) := by
  have pool : (c.release slot).pool slot = { c.pool slot with free := true } :=
    Function.update_self ..
  refine owned.rework rfl rfl rfl (fun other here => Function.update_of_ne here ..)
    (fun _ _ _ => Iff.rfl) ?_
  refine (owned slot).rework rfl rfl rfl ?_ ?_ (Or.inr ⟨?_, finished⟩)
    (fun rest => rest.congr ?_ ?_ rfl) (owned slot).read <;> rw [pool]

/-- The timer of a slot expires. -/
theorem Owned.expire (owned : Owned c) (slot : Nat) :
    Owned { c with pool := expireTimer slot c.pool } := by
  unfold expireTimer
  split
  · rename_i timer
    refine owned.rework rfl rfl rfl (fun other here => Function.update_of_ne here ..)
      (fun _ _ _ => Iff.rfl) ?_
    refine (owned slot).rework rfl rfl rfl ?_ ?_ (Or.inl ?_) ?_ (owned slot).read
    · show (Function.update c.pool slot _ slot).task = _
      rw [Function.update_self]
    · show (Function.update c.pool slot _ slot).mask = _
      rw [Function.update_self]
    · show (Function.update c.pool slot _ slot).free = _
      rw [Function.update_self]
    · intro rest
      rw [rest.1] at timer
      cases timer
  · exact owned

section Execution

variable {execution : Execution}

/-- Work that executes is its owner's. -/
theorem SlotOwned.delivered_of_execution (owned : SlotOwned c execution.slot)
    (running : c.workers cpu = some execution) : c.Delivered execution.slot :=
  owned.delivered.resolve_left fun rest => rest.2.2 cpu execution running rfl

/-- A step of an execution changes that execution and at most its own slot. -/
theorem Owned.of_execution (owned : Owned c) (slot : Nat)
    (old : ∀ item ∈ c.workers cpu, item.slot = slot) {new : Option Execution}
    (fresh : ∀ item ∈ new, item.slot = slot)
    (size : c'.size = c.size) (claims : c'.claims = c.claims) (puts : c'.puts = c.puts)
    (workers : c'.workers = Function.update c.workers cpu new)
    (pool : ∀ other, other ≠ slot → c'.pool other = c.pool other)
    (task : (c'.pool slot).task = (c.pool slot).task)
    (mask : (c'.pool slot).mask = (c.pool slot).mask)
    (free : (c'.pool slot).free = (c.pool slot).free ∨
      (c'.pool slot).free = true ∧ c.Finished slot)
    (active : ¬ c.AtRest slot)
    (read : ∀ item ∈ new, ∀ ts, item.stage.read = some ts → ts = (c.pool slot).task) :
    Owned c' := by
  refine owned.rework size claims puts pool (fun other item different => ?_)
    ((owned slot).rework size claims puts task mask free (fun rest => absurd rest active) ?_)
  · rw [workers]
    exact mem_update_of_slot old fresh different other item rfl
  · intro other item member here ts has
    rw [workers] at member
    by_cases same : other = cpu
    · subst same
      rw [Function.update_self] at member
      exact read item member ts has
    · rw [Function.update_of_ne same] at member
      exact (owned slot).read other item member here ts has

/-- A cpu takes up the queued work of a slot. -/
theorem Owned.execute (owned : Owned c) (idle : c.workers cpu = none)
    (queued : (c.pool slot).queued = true) :
    Owned ((c.modify slot fun work => { work with queued := false }).setWorker cpu
      (some ⟨slot, .readTask⟩)) := by
  have pool : ((c.modify slot fun work => { work with queued := false }).setWorker cpu
      (some ⟨slot, .readTask⟩)).pool slot = { c.pool slot with queued := false } :=
    Function.update_self ..
  refine owned.of_execution slot (fun item member => ?_) (fun item member => ?_) rfl rfl rfl rfl
    (fun other here => Function.update_of_ne here ..) ?_ ?_ (Or.inl ?_) ?_ ?_
  · rw [idle] at member
    cases member
  · rw [← Option.some.inj member]
  · rw [pool]
  · rw [pool]
  · rw [pool]
  · intro rest
    rw [rest.2.1] at queued
    cases queued
  · intro item member ts has
    rw [← Option.some.inj member] at has
    cases has

/-- An execution goes on to its next access. -/
theorem Owned.advance (owned : Owned c) (running : c.workers cpu = some execution)
    (stage : ExecutionStage)
    (read : ∀ ts, stage.read = some ts → ts = (c.pool execution.slot).task) :
    Owned (c.setWorker cpu (some { execution with stage := stage })) := by
  refine owned.of_execution execution.slot (fun item member => ?_) (fun item member => ?_) rfl rfl
    rfl rfl (fun _ _ => rfl) rfl rfl (Or.inl rfl)
    (fun rest => rest.2.2 cpu execution running rfl) ?_
  · rw [running] at member
    rw [← Option.some.inj member]
  · rw [← Option.some.inj member]
  · intro item member ts has
    rw [← Option.some.inj member] at has
    exact read ts has

/-- An execution finds its slot free and returns. -/
theorem Owned.retire (owned : Owned c) (running : c.workers cpu = some execution) :
    Owned (c.setWorker cpu none) := by
  refine owned.of_execution execution.slot (fun item member => ?_) (fun item member => ?_) rfl rfl
    rfl rfl (fun _ _ => rfl) rfl rfl (Or.inl rfl)
    (fun rest => rest.2.2 cpu execution running rfl) ?_
  · rw [running] at member
    rw [← Option.some.inj member]
  · cases member
  · intro item member
    cases member

/-- No put is unfinished on a slot whose work executes. -/
theorem SlotOwned.finished_of_execution (owned : SlotOwned c execution.slot)
    (running : c.workers cpu = some execution) : c.Finished execution.slot := by
  intro other put member here
  exact (owned.put other put member here).2.2.2 cpu execution running rfl

/-- An execution releases its slot and returns. -/
theorem Owned.finish (owned : Owned c) (running : c.workers cpu = some execution) :
    Owned ((c.release execution.slot).setWorker cpu none) := by
  have pool : ((c.release execution.slot).setWorker cpu none).pool execution.slot =
      { c.pool execution.slot with free := true } := Function.update_self ..
  refine owned.of_execution execution.slot (fun item member => ?_) (fun item member => ?_) rfl rfl
    rfl rfl (fun other here => Function.update_of_ne here ..) ?_ ?_ (Or.inr ⟨?_, ?_⟩)
    (fun rest => rest.2.2 cpu execution running rfl) ?_
  · rw [running] at member
    rw [← Option.some.inj member]
  · cases member
  · rw [pool]
  · rw [pool]
  · rw [pool]
  · exact (owned execution.slot).finished_of_execution running
  · intro item member
    cases member

/-- What an execution applies is what its slot was claimed with. -/
theorem SlotOwned.applied_proper (owned : SlotOwned c execution.slot)
    (running : c.workers cpu = some execution) {ts : Option Nat}
    (read : execution.stage.read = some ts) : (c.applied execution.slot ts).Proper := by
  obtain ⟨claim, member, written, mask⟩ := owned.delivered_of_execution running
  have task := owned.written claim member written
  rw [← owned.read cpu execution running rfl ts read] at task
  refine ⟨claim.ts, task, ?_⟩
  rw [mask, show c.claims execution.slot = some claim from member]
  rfl

end Execution

end Slots

/-! ### The holder of the lock -/

/-- The slot was claimed for the task. -/
def PoolState.ClaimedFor (c : PoolState cpus) (ts slot : Nat) : Prop :=
  ∃ claim ∈ c.claims slot, claim.ts = ts

/-- What the holder of the lock knows: a put has not claimed a slot yet, and a cancellation has
found a claimed slot, whose owner's task it is once it has compared them. -/
def HolderKept (c : PoolState cpus) : Option (LockHolder cpus) → Prop
  | none => True
  | some (.put cpu _ _ _) => c.puts cpu = none
  | some (.cancel _ _ .readFree) => True
  | some (.cancel _ slot .readTask) => ∃ ts, c.ClaimedFor ts slot
  | some (.cancel ts slot .cancelWork) => c.ClaimedFor ts slot
  | some (.cancel ts slot .release) => c.ClaimedFor ts slot ∧ c.Finished slot

section Holder

variable {c c' : PoolState cpus}

/-- The other calls take nothing from what the holder knows. -/
theorem HolderKept.mono {lock : Option (LockHolder cpus)} (kept : HolderKept c lock)
    (idle : ∀ cpu, c.puts cpu = none → c'.puts cpu = none)
    (claimed : ∀ ts slot, c.ClaimedFor ts slot → c'.ClaimedFor ts slot)
    (finished : ∀ slot, c.Finished slot → c'.Finished slot) : HolderKept c' lock := by
  match lock, kept with
  | none, _ => trivial
  | some (.put cpu _ _ _), kept => exact idle cpu kept
  | some (.cancel _ _ .readFree), _ => trivial
  | some (.cancel _ slot .readTask), ⟨ts, kept⟩ => exact ⟨ts, claimed ts slot kept⟩
  | some (.cancel ts slot .cancelWork), kept => exact claimed ts slot kept
  | some (.cancel ts slot .release), ⟨kept, done⟩ =>
    exact ⟨claimed ts slot kept, finished slot done⟩

/-- A step that changes neither the puts nor the claims. -/
theorem HolderKept.same {lock : Option (LockHolder cpus)} (kept : HolderKept c lock)
    (puts : c'.puts = c.puts) (claims : c'.claims = c.claims) : HolderKept c' lock := by
  refine kept.mono (fun cpu idle => by rw [puts, idle]) (fun ts slot claimed => ?_)
    fun slot done => ?_
  · obtain ⟨claim, member, same⟩ := claimed
    exact ⟨claim, claims ▸ member, same⟩
  · intro cpu put member
    rw [puts] at member
    exact done cpu put member

/-- The next access of a put leaves its slot and its task as they are. -/
theorem HolderKept.fill {lock : Option (LockHolder cpus)} (kept : HolderKept c lock)
    {cpu : Fin cpus} {put : UnfinishedPut} (mine : c.puts cpu = some put) :
    HolderKept (c.fill cpu put) lock := by
  have puts : ∃ new : Option UnfinishedPut, (∀ item ∈ new, item.slot = put.slot) ∧
      (c.fill cpu put).puts = Function.update c.puts cpu new := by
    unfold PoolState.fill
    split
    · refine ⟨some { put with stage := .writeTask }, fun item member => ?_, rfl⟩
      rw [← Option.some.inj member]
    · refine ⟨some { put with stage := .schedule }, fun item member => ?_, rfl⟩
      rw [← Option.some.inj member]
    · refine ⟨none, fun item member => ?_, rfl⟩
      cases member
  obtain ⟨new, fresh, puts⟩ := puts
  refine kept.mono (fun other idle => ?_) (fun ts slot claimed => ?_) fun slot done => ?_
  · have different : other ≠ cpu := by
      rintro rfl
      rw [mine] at idle
      cases idle
    rw [puts, Function.update_of_ne different]
    exact idle
  · obtain ⟨claim, member, same⟩ := claimed
    unfold PoolState.fill
    split
    · exact ⟨claim, member, same⟩
    · show ∃ claim ∈ Function.update c.claims put.slot _ slot, claim.ts = ts
      by_cases here : slot = put.slot
      · subst here
        rw [Function.update_self, show c.claims put.slot = some claim from member]
        refine ⟨claim.write cpu, rfl, ?_⟩
        unfold Claim.write
        split
        · exact same
        · exact same
      · rw [Function.update_of_ne here]
        exact ⟨claim, member, same⟩
    · exact ⟨claim, member, same⟩
  · intro other item member
    rw [puts] at member
    by_cases same : other = cpu
    · subst same
      rw [Function.update_self] at member
      rw [fresh item member]
      exact done other put mine
    · rw [Function.update_of_ne same] at member
      exact done other item member

end Holder

/-! ### Runs -/

/-- Every slot has one owner, the holder of the lock is right, and so is what was recorded. -/
structure Sound (m : MigrationPool cpus) : Prop where
  owned : Owned m.toPoolState
  holder : HolderKept m.toPoolState m.lock
  records : ∀ record ∈ m.records, record.Proper

variable {m : MigrationPool cpus}

theorem proper_concat {records : List PoolRecord} {record : PoolRecord}
    (earlier : ∀ record ∈ records, record.Proper) (proper : record.Proper) :
    ∀ other ∈ records ++ [record], other.Proper := by
  intro other member
  rcases List.mem_append.mp member with before | now
  · exact earlier other before
  · rw [List.mem_singleton.mp now]
    exact proper

/-- One turn of the loop of `put_work`. -/
theorem Sound.scan (sound : Sound m) {cpu : Fin cpus} {ts slot : Nat} {mask : Cpumask}
    (held : m.lock = some (.put cpu ts mask slot))
    (timely : slot < m.size → (m.pool slot).free = true → m.toPoolState.AtRest slot) :
    Sound (scanStep cpu ts mask slot m) := by
  have ready : m.puts cpu = none := by
    have kept := sound.holder
    rw [held] at kept
    exact kept
  unfold scanStep
  split
  · exact ⟨sound.owned, trivial, sound.records⟩
  · rename_i inside
    split
    · rename_i free
      exact ⟨sound.owned.claim free (timely (by omega) free) ready, trivial, sound.records⟩
    · exact ⟨sound.owned, ready, sound.records⟩

/-- One access of `cancel_task_work`. -/
theorem Sound.cancel (sound : Sound m) {ts slot : Nat} {stage : CancelStage}
    (held : m.lock = some (.cancel ts slot stage))
    (timely : m.toPoolState.HolderTimely (.cancel ts slot stage)) :
    Sound (cancelStep ts slot stage m) := by
  have kept := sound.holder
  rw [held] at kept
  cases stage with
  | readFree =>
    simp only [cancelStep]
    split
    · exact ⟨sound.owned, trivial, sound.records⟩
    · rename_i inside
      split
      · rename_i busy
        obtain ⟨claim, is⟩ := Option.isSome_iff_exists.mp
          ((sound.owned slot).claimed (by omega) busy)
        exact ⟨sound.owned, ⟨claim.ts, claim, is, rfl⟩, sound.records⟩
      · exact ⟨sound.owned, trivial, sound.records⟩
  | readTask =>
    obtain ⟨owner, claim, member, rfl⟩ := kept
    have written : claim.written = true := by
      by_contra unwritten
      obtain ⟨put, mine, here, stage⟩ := (sound.owned slot).unwritten claim member
        (Bool.eq_false_iff.mpr unwritten)
      exact stage (timely claim.cpu put mine here)
    have records : ∀ record ∈ m.records ++ [.inspected ((m.claims slot).any (·.written))],
        record.Proper := by
      refine proper_concat sound.records ?_
      rw [show m.claims slot = some claim from member]
      exact written
    simp only [cancelStep]
    split
    · rename_i matched
      have task := (sound.owned slot).written claim member written
      exact ⟨sound.owned, ⟨claim, member, Option.some.inj (task.symm.trans matched)⟩, records⟩
    · exact ⟨sound.owned, trivial, records⟩
  | cancelWork => exact ⟨sound.owned.cancelWork slot, ⟨kept, timely⟩, sound.records⟩
  | release =>
    obtain ⟨⟨claim, member, same⟩, finished⟩ := kept
    refine ⟨sound.owned.release finished, trivial, proper_concat sound.records ?_⟩
    rw [show m.claims slot = some claim from member, Option.map_some, same]
    rfl

/-- One access of an execution. -/
theorem Sound.execution (sound : Sound m) {cpu : Fin cpus} {execution : Execution}
    (running : m.workers cpu = some execution) (cpusAllowed : Cpumask) :
    Sound (executionStep cpu execution cpusAllowed m) := by
  have owned := sound.owned execution.slot
  have read : ∀ {ts}, execution.stage.read = some ts → ts = (m.pool execution.slot).task :=
    fun has => owned.read cpu execution running rfl _ has
  have advance : ∀ stage : ExecutionStage,
      (∀ ts, stage.read = some ts → ts = (m.pool execution.slot).task) → ∀ {records},
        (∀ record ∈ records, PoolRecord.Proper record) →
        Sound { m with
          toPoolState := m.toPoolState.setWorker cpu (some { execution with stage := stage })
          records := records } :=
    fun stage carried _ proper =>
      ⟨sound.owned.advance running stage carried, sound.holder.same rfl rfl, proper⟩
  unfold executionStep
  dsimp only
  split
  · exact advance (.readFree _) (fun ts has => (Option.some.inj has).symm) sound.records
  · rename_i ts stage
    have carried := read (show execution.stage.read = some ts by rw [stage]; rfl)
    split
    · exact ⟨sound.owned.retire running, sound.holder.same rfl rfl, sound.records⟩
    · exact advance (.readMask ts) (fun _ has => (Option.some.inj has).symm.trans carried)
        sound.records
  · rename_i ts stage
    have reads : execution.stage.read = some ts := by rw [stage]; rfl
    split
    · exact advance .release (fun _ has => by cases has)
        (proper_concat sound.records (owned.applied_proper running reads))
    · exact advance (.apply ts) (fun _ has => (Option.some.inj has).symm.trans (read reads))
        sound.records
  · rename_i ts stage
    have reads : execution.stage.read = some ts := by rw [stage]; rfl
    exact advance .release (fun _ has => by cases has)
      (proper_concat sound.records (owned.applied_proper running reads))
  · exact ⟨sound.owned.finish running, sound.holder.same rfl rfl, sound.records⟩

/-- One timely event keeps every slot with its owner. -/
theorem Sound.step (sound : Sound m) {event : PoolEvent cpus} (timely : event.Timely m) :
    Sound (poolStep m event) := by
  cases event with
  | putWork cpu ts mask =>
    simp only [poolStep]
    split
    · rename_i ready
      exact ⟨sound.owned, ready, sound.records⟩
    · exact sound
  | cancelTaskWork ts =>
    simp only [poolStep]
    split
    · exact ⟨sound.owned, trivial, sound.records⟩
    · exact sound
  | holder =>
    simp only [poolStep, holderStep]
    split
    · exact sound
    · rename_i held
      exact sound.scan held (timely _ held)
    · rename_i held
      exact sound.cancel held (timely _ held)
  | fill cpu =>
    simp only [poolStep]
    split
    · exact sound
    · rename_i put mine
      exact ⟨sound.owned.fill mine, sound.holder.fill mine, sound.records⟩
  | expire slot => exact ⟨sound.owned.expire slot, sound.holder.same rfl rfl, sound.records⟩
  | execute cpu slot =>
    simp only [poolStep]
    split
    · exact sound
    · rename_i idle
      split
      · rename_i queued
        exact ⟨sound.owned.execute idle queued, sound.holder.same rfl rfl, sound.records⟩
      · exact sound
  | execution cpu cpusAllowed =>
    simp only [poolStep]
    split
    · exact sound
    · rename_i execution running
      exact sound.execution running cpusAllowed

theorem Sound.start (cpus size : Nat) : Sound (MigrationPool.start cpus size) := by
  refine ⟨fun slot => ⟨fun _ _ member => ?_, fun _ member => ?_, fun _ member => ?_, ?_, ?_,
    fun _ _ member => ?_⟩, trivial, fun _ member => absurd member List.not_mem_nil⟩
  · cases member
  · cases member
  · cases member
  · intro small busy
    have fresh := (initMigPool_apply size staticPool slot).trans (if_pos small)
    rw [show (MigrationPool.start cpus size).pool slot = _ from fresh] at busy
    cases busy
  · refine Or.inl ⟨?_, ?_, fun _ _ member => by cases member⟩
    · show (initMigPool size staticPool slot).timer = false
      rw [initMigPool_apply]
      split <;> rfl
    · show (initMigPool size staticPool slot).queued = false
      rw [initMigPool_apply]
      split <;> rfl
  · cases member

/-- In every run in which a put claims no slot whose work is pending or executing, and a
cancellation looks at no slot whose task is yet to be written and cancels none whose put is
unfinished: no two unfinished puts have claimed one slot, a cancellation looks at written tasks
only and frees only slots claimed for its task, and an execution applies the mask of the put that
claimed the slot to the task of that put. -/
theorem pool_slots_owned (cpus size : Nat) (events : List (PoolEvent cpus))
    (timely : Exec.Meets poolStep PoolEvent.Timely (MigrationPool.start cpus size) events) :
    let final := Exec.run poolStep (MigrationPool.start cpus size) events
    (∀ first second, ∀ put ∈ final.puts first, ∀ rival ∈ final.puts second,
      put.slot = rival.slot → first = second) ∧
      ∀ record ∈ final.records, record.Proper := by
  have sound := Exec.run_invariant Sound (fun _ _ kept meets => kept.step meets)
    (Sound.start cpus size) timely
  refine ⟨fun first second put mine rival theirs same => ?_, sound.records⟩
  exact (sound.owned rival.slot).put_unique mine same theirs rfl

/-! ### A call that is not disturbed -/

/-- The loop of a put passes over the claimed slots. -/
theorem run_scan (m : MigrationPool cpus) {cpu : Fin cpus} {ts : Nat} {mask : Cpumask}
    (count : Nat) {start : Nat} (held : m.lock = some (.put cpu ts mask start))
    (small : start + count ≤ m.size)
    (busy : ∀ slot, start ≤ slot → slot < start + count → (m.pool slot).free = false) :
    Exec.run poolStep m (List.replicate count .holder) =
      { m with lock := some (.put cpu ts mask (start + count)) } := by
  induction count generalizing m start with
  | zero =>
    rw [Nat.add_zero, ← held]
    rfl
  | succ count inductionHypothesis =>
    have passed : poolStep m .holder = { m with lock := some (.put cpu ts mask (start + 1)) } := by
      simp only [poolStep, holderStep, held, scanStep]
      rw [if_neg (by omega), busy start le_rfl (by omega)]
      rfl
    rw [List.replicate_succ, Exec.run_cons, passed,
      inductionHypothesis { m with lock := some (.put cpu ts mask (start + 1)) } rfl
        (show start + 1 + count ≤ m.size by omega)
        fun slot later before => busy slot (by omega) (by omega)]
    rw [Nat.add_right_comm, Nat.add_assoc]

/-- A put that runs without any other call in between does what `putWork` does at once. -/
theorem put_undisturbed (unlocked : m.lock = none) {cpu : Fin cpus} (ready : m.puts cpu = none)
    (ts : Nat) (mask : Cpumask) {slot : Nat} (claimed : freeSlot m.size m.pool = some slot) :
    (Exec.run poolStep m (.putWork cpu ts mask :: List.replicate slot .holder ++
      [.holder, .fill cpu, .fill cpu, .fill cpu])).pool = putWork m.size ts mask m.pool := by
  obtain ⟨small, free⟩ := freeSlot_eq_some claimed
  have called : poolStep m (.putWork cpu ts mask) =
      { m with lock := some (.put cpu ts mask 0) } := by
    simp only [poolStep, unlocked, ready]
  have scanned := run_scan { m with lock := some (.put cpu ts mask 0) } slot rfl
    (show 0 + slot ≤ m.size by omega)
    fun other _ before => Loops.firstFrom_least claimed (Nat.zero_le other) (by omega)
  rw [Nat.zero_add] at scanned
  rw [List.cons_append, Exec.run_cons, called, Exec.run_append, scanned]
  have inside : ¬ m.size ≤ slot := by omega
  simp only [Exec.run_cons, Exec.run_nil, poolStep, holderStep, scanStep, if_neg inside, free,
    if_true, PoolState.claim, PoolState.fill, PoolState.writeMask, PoolState.writeTask,
    PoolState.schedule, PoolState.setPut, PoolState.modify, Function.update_self,
    Function.update_idem]
  rw [putWork, claimed]

/-- A put from its call to its return, finding the first slot free. -/
def wholePut (cpu : Fin 2) (ts : Nat) (mask : Cpumask) : List (PoolEvent 2) :=
  [.putWork cpu ts mask, .holder, .fill cpu, .fill cpu, .fill cpu]

/-- The timer of the first slot expires and its work is executed. -/
def wholeExecution (cpu : Fin 2) : List (PoolEvent 2) :=
  [.expire 0, .execute cpu 0] ++ List.replicate 5 (.execution cpu ∅)

/-- A slot is claimed for a task and cancelled before its timer expires, claimed for another task,
and its work is executed. -/
def reusedRun : List (PoolEvent 2) :=
  wholePut 0 7 {0} ++ [.cancelTaskWork 7] ++ List.replicate 5 .holder ++ wholePut 1 8 {1} ++
    wholeExecution 0

theorem pool_slots_owned_reused :
    let final := Exec.run poolStep (MigrationPool.start 2 1) reusedRun
    .freed 7 (some 7) ∈ final.records ∧ ∀ record ∈ final.records, record.Proper :=
  ⟨by decide, (pool_slots_owned 2 1 reusedRun (by decide)).2⟩

/-- The work of task `7` is executed and the slot is claimed for task `8`. Before that put has
written the task, the work of task `7` is cancelled: the cancellation reads the old task and frees
the slot, and a second put claims it too. -/
def staleRun : List (PoolEvent 2) :=
  wholePut 0 7 {0} ++ wholeExecution 0 ++ [.putWork 0 8 {1}, .holder, .cancelTaskWork 7] ++
    List.replicate 5 .holder ++ [.putWork 1 9 {0}, .holder]

theorem pool_slot_claimed_twice :
    let final := Exec.run poolStep (MigrationPool.start 2 1) staleRun
    (final.puts 0).map (·.slot) = some 0 ∧ (final.puts 1).map (·.slot) = some 0 ∧
      .inspected false ∈ final.records ∧ .freed 7 (some 8) ∈ final.records := by
  decide

end Seeker
