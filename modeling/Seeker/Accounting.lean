/-
This file embeds the counter readings of `probe.c`, `hwcounters.c` and `tsc_intf.c` on
one cpu, and balances what the counters have grown against what the probes have
charged to the tasks.

A reading charges the growth since the last one to the task that has been running
since then, whether it was put off because the task is not managed or not. The fork
probe takes a reading of the time stamp counter too, and drops it. The file proves
that what is charged is what the probes add to the fields of the tasks, and that the
accounts balance at a reading exactly when every fork before it has dropped nothing.
-/
import Seeker.Library.Ledger
import Seeker.Probe

namespace Seeker

/-! ### The counters of one cpu -/

/-- The performance counters of a cpu since they were last cleared, its time stamp counter, and
`tsc_val` and `ts` of the cpu. The counters do not wrap. -/
structure CpuCounters where
  inst : Nat
  reCy : Nat
  tsc : Nat
  tscVal : Nat
  ts : Option Nat

/-- `get_tsc_cycles`. -/
def getTscCycles (c : CpuCounters) : Nat × CpuCounters :=
  (c.tsc - c.tscVal, { c with tscVal := c.tsc })

/-- `clear_counters`. -/
def clearCounters (c : CpuCounters) : CpuCounters := { c with inst := 0, reCy := 0 }

/-- The reading of a probe, which clears the counters: `read_counters`, `get_tsc_cycles` and
`clear_counters`. -/
def takeReading (c : CpuCounters) : Counters × CpuCounters :=
  let pmuVal := (c.inst, c.reCy)
  let (cycles, c) := getTscCycles c
  ({ inst := pmuVal.1, reCy := pmuVal.2, refCy := cycles }, clearCounters c)

/-! ### The probes -/

/-- What a reading adds to the fields of the task it charges. -/
def TaskStruct.charge (counters : Counters) (task : TaskStruct) : TaskStruct :=
  { task with
    inst := (task.inst + counters.inst) % ulongRange
    reCy := (task.reCy + counters.reCy) % ulongRange
    refCy := (task.refCy + counters.refCy) % ulongRange }

/-- The task whose counters `inst_schedule` reads: the one that runs on the cpu, if it is
managed. -/
def scheduledTask (p : Pds) (c : CpuCounters) : Option Nat :=
  match c.ts with
  | none => none
  | some ts =>
    if (p.tasks ts).seekerScheduled ≠ seekerMagicNumber then none
    else if isBlacklistTask (p.tasks ts) then none
    else some ts

/-- `inst_schedule`, which `inst_scheduler_tick` calls too. The request to reschedule the task is
left out. -/
def instSchedule (p : Pds) (c : CpuCounters) : Pds × CpuCounters :=
  match scheduledTask p c with
  | none => (p, c)
  | some ts =>
    let (counters, c) := takeReading c
    (p.setTask ts
      (TaskStruct.charge counters
        { p.tasks ts with interval := p.scheduler.intervalCount }), c)

/-- `inst___switch_to`, with its reading of the counters. -/
def instSwitchToReading (around : Surroundings) (prev next : Nat) (p : Pds) (c : CpuCounters) :
    Pds × CpuCounters :=
  let c := { c with ts := some next }
  let (counters, c) := takeReading c
  (instSwitchTo around counters prev p, c)

/-- `inst_sched_fork`, with its reading of the time stamp counter, which it overwrites. -/
def instSchedForkReading (around : Surroundings) (new : Nat) (p : Pds) (c : CpuCounters) :
    Pds × CpuCounters :=
  let (_, c) := getTscCycles c
  (instSchedFork around new p, c)

/-! ### Runs on one cpu -/

/-- The three counters. -/
inductive Counter where
  | inst
  | reCy
  | refCy
  deriving DecidableEq, Repr

/-- A counter of a reading. -/
def Counter.of : Counter → Counters → Nat
  | .inst, counters => counters.inst
  | .reCy, counters => counters.reCy
  | .refCy, counters => counters.refCy

/-- The scheduler, one cpu's counters and the task that runs there. The three ledgers say what the
counters have grown while a task ran, what the probes have added to the fields of a task, and what
the forks have dropped while a task ran; nothing in the code reads them. -/
structure CpuRun where
  pds : Pds
  counters : CpuCounters
  current : Nat
  grown : List (Nat × Counters)
  charged : List (Nat × Counters)
  dropped : List (Nat × Counters)

/-- What happens on the cpu: the counters grow, and the probes of the tick or of `schedule`, of
`__switch_to` and of `sched_fork` run. `elsewhere` is whatever else changes the scheduler and the
tasks. -/
inductive CpuEvent where
  | grow (counters : Counters)
  | schedule
  | switchTo (around : Surroundings) (next : Nat)
  | fork (around : Surroundings) (new : Nat)
  | elsewhere (p : Pds)

/-- The counters grow. -/
def CpuCounters.grow (counters : Counters) (c : CpuCounters) : CpuCounters :=
  { c with
    inst := c.inst + counters.inst
    reCy := c.reCy + counters.reCy
    tsc := c.tsc + counters.refCy }

/-- One event. -/
def cpuStep (r : CpuRun) : CpuEvent → CpuRun
  | .grow counters =>
      { r with
        counters := r.counters.grow counters
        grown := r.grown ++ [(r.current, counters)] }
  | .schedule =>
      let (p, c) := instSchedule r.pds r.counters
      { r with
        pds := p
        counters := c
        charged :=
          match scheduledTask r.pds r.counters with
          | none => r.charged
          | some ts => r.charged ++ [(ts, (takeReading r.counters).1)] }
  | .switchTo around next =>
      let (p, c) := instSwitchToReading around r.current next r.pds r.counters
      { r with
        pds := p
        counters := c
        current := next
        charged := r.charged ++ [(r.current, (takeReading r.counters).1)] }
  | .fork around new =>
      let (p, c) := instSchedForkReading around new r.pds r.counters
      let cycles := (getTscCycles r.counters).1
      { r with
        pds := p
        counters := c
        dropped := r.dropped ++ [(r.current, { inst := 0, reCy := 0, refCy := cycles })] }
  | .elsewhere p => { r with pds := p }

/-- The cpu after its first context switch, from one task to another. -/
def CpuRun.start (around : Surroundings) (prev next : Nat) (p : Pds) (c : CpuCounters) :
    CpuRun where
  pds := (instSwitchToReading around prev next p c).1
  counters := (instSwitchToReading around prev next p c).2
  current := next
  grown := []
  charged := []
  dropped := []

/-- The event takes a reading. -/
def CpuEvent.Reads (r : CpuRun) : CpuEvent → Prop
  | .schedule => (scheduledTask r.pds r.counters).isSome
  | .switchTo _ _ => True
  | _ => False

/-- A fork comes when the time stamp counter has not grown since it was last read. -/
def CpuEvent.Fresh (r : CpuRun) : CpuEvent → Prop
  | .fork _ _ => r.counters.tsc = r.counters.tscVal
  | _ => True

instance (r : CpuRun) (event : CpuEvent) : Decidable (event.Fresh r) :=
  match event with
  | .fork _ _ => inferInstanceAs (Decidable (_ = _))
  | .grow _ => isTrue trivial
  | .schedule => isTrue trivial
  | .switchTo _ _ => isTrue trivial
  | .elsewhere _ => isTrue trivial

/-- Every counted event is charged to the task that was running. -/
structure GrowthCharged (r : CpuRun) : Prop where
  everyTask : ∀ (task : Nat) (counter : Counter),
    Ledger.total (fun other => decide (other = task)) counter.of r.charged =
      Ledger.total (fun other => decide (other = task)) counter.of r.grown
  all : ∀ counter : Counter,
    ∑ task ∈ (r.charged.map Prod.fst).toFinset,
        Ledger.total (fun other => decide (other = task)) counter.of r.charged =
      Ledger.total (fun _ => true) counter.of r.grown

/-! ### What is charged is added to the fields -/

/-- The field of a task to which a counter is added. -/
def Counter.field : Counter → TaskStruct → Nat
  | .inst, task => task.inst
  | .reCy, task => task.reCy
  | .refCy, task => task.refCy

/-- The entries, and nothing else, have been added to the fields of their tasks, in the arithmetic
of `unsigned long long`. -/
structure FieldsGrown (entries : List (Nat × Counters)) (p p' : Pds) : Prop where
  grown : ∀ (task : Nat) (counter : Counter),
    counter.field (p'.tasks task) ≡ counter.field (p.tasks task) +
      Ledger.total (fun other => decide (other = task)) counter.of entries [MOD ulongRange]
  kept : ∀ (task : Nat) (counter : Counter), (∀ entry ∈ entries, entry.1 ≠ task) →
    counter.field (p'.tasks task) = counter.field (p.tasks task)

/-- Nothing is added to a field: it stays as it is or starts over. -/
def FieldsKeptOrCleared (p p' : Pds) : Prop :=
  ∀ (task : Nat) (counter : Counter), counter.field (p'.tasks task) = counter.field (p.tasks task) ∨
    counter.field (p'.tasks task) = 0

/-- What an event does once its additions have been made. The switch may decide the fate of the
task, and the fork starts one. -/
def CpuEvent.Continues (current : Nat) (added after : Pds) : CpuEvent → Prop
  | .grow _ => after = added
  | .schedule => after = added
  | .switchTo around _ => after = added ∨ after = putMaskFromStats around current added
  | .fork around new => after = instSchedFork around new added
  | .elsewhere p => after = p

/-- What the event posts is what it adds to the fields of the tasks. -/
def CpuEvent.PostsAdditions (r : CpuRun) (event : CpuEvent) : Prop :=
  ∃ posted added, (cpuStep r event).charged = r.charged ++ posted ∧
    FieldsGrown posted r.pds added ∧ event.Continues r.current added (cpuStep r event).pds ∧
    ((∀ p, event ≠ .elsewhere p) → FieldsKeptOrCleared added (cpuStep r event).pds)

section Fields

variable {r : CpuRun} {p : Pds}

theorem FieldsGrown.refl (p : Pds) : FieldsGrown [] p p where
  grown _ _ := Nat.ModEq.refl _
  kept _ _ _ := rfl

theorem FieldsKeptOrCleared.refl (p : Pds) : FieldsKeptOrCleared p p := fun _ _ => Or.inl rfl

@[simp]
theorem Counter.field_charge (counter : Counter) (counters : Counters) (task : TaskStruct) :
    counter.field (task.charge counters) =
      (counter.field task + counter.of counters) % ulongRange := by
  cases counter <;> rfl

/-- One task is charged: its fields grow by the reading. -/
theorem fieldsGrown_charge (ts : Nat) (counters : Counters) {task : TaskStruct}
    (same : ∀ counter : Counter, counter.field task = counter.field (p.tasks ts)) :
    FieldsGrown [(ts, counters)] p (p.setTask ts (task.charge counters)) where
  grown other counter := by
    show counter.field (Function.update p.tasks ts (task.charge counters) other) ≡ _ [MOD ulongRange]
    have posted : Ledger.total (fun owner => decide (owner = other)) counter.of [(ts, counters)] =
        0 + if decide (ts = other) then counter.of counters else 0 :=
      @Ledger.total_post _ _ _ counter.of [] ts counters
    rw [Nat.zero_add] at posted
    rw [posted]
    by_cases here : other = ts
    · subst here
      rw [Function.update_self, Counter.field_charge, same, if_pos (decide_eq_true rfl)]
      exact Nat.mod_modEq _ _
    · rw [Function.update_of_ne here, if_neg (by simpa using Ne.symm here)]
      exact Nat.ModEq.refl _
  kept other counter apart := by
    have different : other ≠ ts := Ne.symm (apart (ts, counters) List.mem_cons_self)
    show counter.field (Function.update p.tasks ts (task.charge counters) other) = _
    rw [Function.update_of_ne different]

/-- A write to a task that keeps its fields or clears them. -/
theorem fieldsKeptOrCleared_setTask {ts : Nat} {task : TaskStruct}
    (each : ∀ counter : Counter, counter.field task = counter.field (p.tasks ts) ∨
      counter.field task = 0) : FieldsKeptOrCleared p (p.setTask ts task) := by
  intro other counter
  show counter.field (Function.update p.tasks ts task other) = _ ∨
    counter.field (Function.update p.tasks ts task other) = 0
  by_cases here : other = ts
  · rw [here, Function.update_self]
    exact each counter
  · rw [Function.update_of_ne here]
    exact Or.inl rfl

theorem FieldsKeptOrCleared.trans {p' p'' : Pds} (first : FieldsKeptOrCleared p p')
    (second : FieldsKeptOrCleared p' p'') : FieldsKeptOrCleared p p'' := by
  intro task counter
  rcases second task counter with same | cleared
  · rw [same]
    exact first task counter
  · exact Or.inr cleared

/-- An evaluation starts the counts of its task over. -/
theorem fieldsKeptOrCleared_putMaskFromStats (around : Surroundings) (ts : Nat) (p : Pds) :
    FieldsKeptOrCleared p (putMaskFromStats around ts p) := by
  have starts : ∀ (reading : Reading) (counter : Counter) (interval : Nat),
      counter.field
        { p.tasks ts with
          interval := interval
          inst := 0
          refCy := 0
          reCy := 0
          cpustate := reading.newState
          histStep := reading.histStep } = 0 := by
    intro reading counter interval
    cases counter <;> rfl
  unfold putMaskFromStats
  split
  · exact FieldsKeptOrCleared.refl p
  · unfold assignMask
    dsimp only
    have written : ∀ interval, FieldsKeptOrCleared p (p.setTask ts _) := fun interval =>
      fieldsKeptOrCleared_setTask fun counter => Or.inr (starts (readSection around p.scheduler
        (p.tasks ts) (Reading.start (p.tasks ts))) counter interval)
    split
    · exact written _
    · split
      · exact written _
      · exact written _

/-- The first mask of a task leaves its counts alone. -/
theorem fieldsKeptOrCleared_initialMask (around : Surroundings) (ts : Nat) (p : Pds) :
    FieldsKeptOrCleared p (initialMask around ts p) := by
  have keeps : ∀ cpustate, FieldsKeptOrCleared p
      (p.setTask ts { p.tasks ts with histStep := 0, cpustate := cpustate }) := by
    intro cpustate
    refine fieldsKeptOrCleared_setTask fun counter => Or.inl ?_
    cases counter <;> rfl
  unfold initialMask
  dsimp only
  split
  · exact keeps _
  · exact keeps _

/-- A fork clears the counts of the new task. -/
theorem fieldsKeptOrCleared_instSchedFork (around : Surroundings) (new : Nat) (p : Pds) :
    FieldsKeptOrCleared p (instSchedFork around new p) := by
  unfold instSchedFork
  dsimp only
  generalize started : p.setTask new _ = q
  have clears : FieldsKeptOrCleared p q := by
    rw [← started]
    refine fieldsKeptOrCleared_setTask fun counter => Or.inr ?_
    cases counter <;> rfl
  split
  · have marks : FieldsKeptOrCleared q
        (q.setTask new { q.tasks new with seekerScheduled := seekerMagicNumber }) := by
      refine fieldsKeptOrCleared_setTask fun counter => Or.inl ?_
      cases counter <;> rfl
    exact clears.trans (marks.trans (fieldsKeptOrCleared_initialMask around new _))
  · exact clears

/-- The switch charges the task first, and then leaves it or evaluates it. -/
theorem instSwitchTo_charged (around : Surroundings) (counters : Counters) (prev : Nat) (p : Pds) :
    let added := p.setTask prev ((p.tasks prev).charge counters)
    instSwitchTo around counters prev p = added ∨
      instSwitchTo around counters prev p = putMaskFromStats around prev added := by
  intro added
  unfold instSwitchTo
  dsimp only
  split
  · exact Or.inl rfl
  · split
    · exact Or.inl rfl
    · split
      · exact Or.inr rfl
      · exact Or.inl rfl

/-- Every event posts what it adds. -/
theorem postsAdditions (r : CpuRun) (event : CpuEvent) : event.PostsAdditions r := by
  have nothing : r.charged = r.charged ++ [] := (List.append_nil _).symm
  cases event with
  | grow counters =>
    exact ⟨[], r.pds, nothing, FieldsGrown.refl _, rfl, fun _ => FieldsKeptOrCleared.refl _⟩
  | schedule =>
    have stepped : cpuStep r .schedule = { r with
        pds := (instSchedule r.pds r.counters).1
        counters := (instSchedule r.pds r.counters).2
        charged :=
          match scheduledTask r.pds r.counters with
          | none => r.charged
          | some ts => r.charged ++ [(ts, (takeReading r.counters).1)] } := rfl
    rw [CpuEvent.PostsAdditions, stepped]
    unfold instSchedule
    cases scheduledTask r.pds r.counters with
    | none =>
      exact ⟨[], r.pds, nothing, FieldsGrown.refl _, rfl, fun _ => FieldsKeptOrCleared.refl _⟩
    | some ts =>
      refine ⟨[(ts, (takeReading r.counters).1)], _, rfl, fieldsGrown_charge ts _ ?_, rfl,
        fun _ => FieldsKeptOrCleared.refl _⟩
      intro counter
      cases counter <;> rfl
  | switchTo around next =>
    have grown : FieldsGrown [(r.current, (takeReading r.counters).1)] r.pds _ :=
      fieldsGrown_charge r.current (takeReading r.counters).1 fun _ => rfl
    have fate := instSwitchTo_charged around (takeReading r.counters).1 r.current r.pds
    refine ⟨_, _, rfl, grown, fate, fun _ => ?_⟩
    show FieldsKeptOrCleared _ (instSwitchTo around (takeReading r.counters).1 r.current r.pds)
    rcases fate with left | evaluated
    · rw [left]
      exact FieldsKeptOrCleared.refl _
    · rw [evaluated]
      exact fieldsKeptOrCleared_putMaskFromStats around r.current _
  | fork around new =>
    exact ⟨[], r.pds, nothing, FieldsGrown.refl _, rfl,
      fun _ => fieldsKeptOrCleared_instSchedFork around new r.pds⟩
  | elsewhere p =>
    exact ⟨[], r.pds, nothing, FieldsGrown.refl _, rfl, fun here => absurd rfl (here p)⟩

end Fields

/-! ### The balance -/

/-- What the counters have grown since the last reading, or since the last fork, is still to be
charged to the task that runs. -/
structure Balanced (r : CpuRun) : Prop where
  ts : r.counters.ts = some r.current
  tscVal : r.counters.tscVal ≤ r.counters.tsc
  ledgers : ∀ (who : Nat → Bool) (counter : Counter),
    Ledger.total who counter.of r.grown =
      Ledger.total who counter.of r.charged + Ledger.total who counter.of r.dropped +
        if who r.current then counter.of (takeReading r.counters).1 else 0

section Step

variable {r : CpuRun}

/-- The task that `inst_schedule` charges is the one that runs. -/
theorem scheduledTask_eq {p : Pds} {c : CpuCounters} {ts task : Nat} (running : c.ts = some task)
    (scheduled : scheduledTask p c = some ts) : ts = task := by
  unfold scheduledTask at scheduled
  rw [running] at scheduled
  dsimp only at scheduled
  split at scheduled
  · cases scheduled
  · split at scheduled
    · cases scheduled
    · exact (Option.some.inj scheduled).symm

/-- After a reading there is nothing left to charge. -/
@[simp]
theorem takeReading_twice (counter : Counter) (c : CpuCounters) :
    counter.of (takeReading (takeReading c).2).1 = 0 := by
  cases counter with
  | inst => rfl
  | reCy => rfl
  | refCy => exact Nat.sub_self c.tsc

/-- A reading of counters that have grown. -/
theorem takeReading_grow (counter : Counter) (counters : Counters) {c : CpuCounters}
    (ordered : c.tscVal ≤ c.tsc) :
    counter.of (takeReading (c.grow counters)).1 =
      counter.of (takeReading c).1 + counter.of counters := by
  cases counter with
  | inst => rfl
  | reCy => rfl
  | refCy =>
    show c.tsc + counters.refCy - c.tscVal = c.tsc - c.tscVal + counters.refCy
    omega

/-- A reading of counters of which the time stamp counter has been read. -/
theorem takeReading_getTscCycles (counter : Counter) (c : CpuCounters) :
    counter.of (takeReading c).1 =
      counter.of (takeReading (getTscCycles c).2).1 +
        counter.of { inst := 0, reCy := 0, refCy := (getTscCycles c).1 } := by
  cases counter with
  | inst => rfl
  | reCy => rfl
  | refCy =>
    show c.tsc - c.tscVal = c.tsc - c.tsc + (c.tsc - c.tscVal)
    omega

theorem Balanced.grow (balanced : Balanced r) (counters : Counters) :
    Balanced (cpuStep r (.grow counters)) where
  ts := balanced.ts
  tscVal := Nat.le_add_right_of_le balanced.tscVal
  ledgers who counter := by
    show Ledger.total who counter.of (r.grown ++ [(r.current, counters)]) =
      Ledger.total who counter.of r.charged + Ledger.total who counter.of r.dropped +
        if who r.current then counter.of (takeReading (r.counters.grow counters)).1 else 0
    rw [Ledger.total_post, balanced.ledgers, takeReading_grow counter counters balanced.tscVal]
    split
    · rw [Nat.add_assoc]
    · rfl

/-- A reading that charges the task that runs. -/
theorem Balanced.read (balanced : Balanced r) (p : Pds) (next : Nat) :
    Balanced
      { r with
        pds := p
        counters := { (takeReading r.counters).2 with ts := some next }
        current := next
        charged := r.charged ++ [(r.current, (takeReading r.counters).1)] } where
  ts := rfl
  tscVal := le_rfl
  ledgers who counter := by
    have cleared : counter.of
        (takeReading { (takeReading r.counters).2 with ts := some next }).1 = 0 :=
      takeReading_twice counter r.counters
    show Ledger.total who counter.of r.grown =
      Ledger.total who counter.of (r.charged ++ [(r.current, (takeReading r.counters).1)]) +
        Ledger.total who counter.of r.dropped + if who next then counter.of
          (takeReading { (takeReading r.counters).2 with ts := some next }).1 else 0
    rw [balanced.ledgers who counter, cleared, Ledger.total_post, ite_self]
    omega

/-- `inst_schedule` takes a reading that charges the task that runs, or does nothing. -/
theorem cpuStep_schedule (r : CpuRun) :
    (scheduledTask r.pds r.counters = none ∧ cpuStep r .schedule = r) ∨
      ∃ ts p, scheduledTask r.pds r.counters = some ts ∧
        cpuStep r .schedule =
          { r with
            pds := p
            counters := (takeReading r.counters).2
            charged := r.charged ++ [(ts, (takeReading r.counters).1)] } := by
  unfold cpuStep instSchedule
  cases scheduledTask r.pds r.counters with
  | none => exact Or.inl ⟨rfl, rfl⟩
  | some ts => exact Or.inr ⟨ts, _, rfl, rfl⟩

theorem Balanced.schedule (balanced : Balanced r) : Balanced (cpuStep r .schedule) := by
  rcases cpuStep_schedule r with ⟨_, same⟩ | ⟨ts, p, scheduled, stepped⟩
  · rw [same]
    exact balanced
  · obtain rfl := scheduledTask_eq balanced.ts scheduled
    have sameTs : { (takeReading r.counters).2 with ts := some r.current } =
        (takeReading r.counters).2 := by
      rw [← balanced.ts]
      rfl
    have read := balanced.read p r.current
    rw [sameTs] at read
    rw [stepped]
    exact read

theorem Balanced.switchTo (balanced : Balanced r) (around : Surroundings) (next : Nat) :
    Balanced (cpuStep r (.switchTo around next)) :=
  balanced.read _ next

theorem Balanced.fork (balanced : Balanced r) (around : Surroundings) (new : Nat) :
    Balanced (cpuStep r (.fork around new)) where
  ts := balanced.ts
  tscVal := le_rfl
  ledgers who counter := by
    show Ledger.total who counter.of r.grown =
      Ledger.total who counter.of r.charged +
        Ledger.total who counter.of (r.dropped ++
          [(r.current, { inst := 0, reCy := 0, refCy := (getTscCycles r.counters).1 })]) +
        if who r.current then counter.of (takeReading (getTscCycles r.counters).2).1 else 0
    rw [balanced.ledgers who counter, takeReading_getTscCycles, Ledger.total_post]
    split <;> omega

theorem Balanced.step (balanced : Balanced r) (event : CpuEvent) :
    Balanced (cpuStep r event) := by
  cases event with
  | grow counters => exact balanced.grow counters
  | schedule => exact balanced.schedule
  | switchTo around next => exact balanced.switchTo around next
  | fork around new => exact balanced.fork around new
  | elsewhere p => exact ⟨balanced.ts, balanced.tscVal, balanced.ledgers⟩

theorem Balanced.start (around : Surroundings) (prev next : Nat) (p : Pds) (c : CpuCounters) :
    Balanced (CpuRun.start around prev next p c) where
  ts := rfl
  tscVal := le_rfl
  ledgers who counter := by
    have cleared : counter.of
        (takeReading (CpuRun.start around prev next p c).counters).1 = 0 :=
      takeReading_twice counter { c with ts := some next }
    rw [cleared, ite_self]
    rfl

/-- After a reading there is nothing left to charge. -/
theorem reading_eq_zero {event : CpuEvent} (reads : event.Reads r)
    (counter : Counter) : counter.of (takeReading (cpuStep r event).counters).1 = 0 := by
  cases event with
  | schedule =>
    rcases cpuStep_schedule r with ⟨none, _⟩ | ⟨ts, p, _, stepped⟩
    · have scheduled : (scheduledTask r.pds r.counters).isSome := reads
      rw [none] at scheduled
      cases scheduled
    · rw [stepped]
      exact takeReading_twice counter r.counters
  | switchTo around next => exact takeReading_twice counter { r.counters with ts := some next }
  | grow counters => exact reads.elim
  | fork around new => exact reads.elim
  | elsewhere p => exact reads.elim

/-- The accounts balance at a reading exactly when nothing has been dropped. -/
theorem Balanced.charged_iff (balanced : Balanced r)
    (read : ∀ counter : Counter, counter.of (takeReading r.counters).1 = 0) :
    GrowthCharged r ↔ ∀ entry ∈ r.dropped, ∀ counter : Counter, counter.of entry.2 = 0 := by
  have ledgers : ∀ (who : Nat → Bool) (counter : Counter),
      Ledger.total who counter.of r.grown =
        Ledger.total who counter.of r.charged + Ledger.total who counter.of r.dropped := by
    intro who counter
    rw [balanced.ledgers who counter, read counter, ite_self, Nat.add_zero]
  refine ⟨fun accounted entry member counter => ?_, fun nothing => ⟨?_, ?_⟩⟩
  · have sum := ledgers (fun other => decide (other = entry.1)) counter
    rw [accounted.everyTask entry.1 counter] at sum
    have zero : Ledger.total (fun other => decide (other = entry.1)) counter.of r.dropped = 0 := by
      omega
    exact Ledger.total_eq_zero_iff.mp zero entry member (decide_eq_true rfl)
  · intro task counter
    have zero : Ledger.total (fun other => decide (other = task)) counter.of r.dropped = 0 :=
      Ledger.total_eq_zero_iff.mpr fun entry member _ => nothing entry member counter
    rw [ledgers, zero, Nat.add_zero]
  · intro counter
    have zero : Ledger.total (fun _ => true) counter.of r.dropped = 0 :=
      Ledger.total_eq_zero_iff.mpr fun entry member _ => nothing entry member counter
    rw [ledgers, zero, Nat.add_zero]
    exact Ledger.sum_total fun entry member =>
      List.mem_toFinset.mpr (List.mem_map_of_mem member)

end Step

/-- What the forks of a run have dropped is nothing exactly when they were all fresh. -/
theorem dropped_iff (events : List CpuEvent) {r : CpuRun} (balanced : Balanced r) :
    (∀ entry ∈ (Exec.run cpuStep r events).dropped, ∀ counter : Counter,
        counter.of entry.2 = 0) ↔
      (∀ entry ∈ r.dropped, ∀ counter : Counter, counter.of entry.2 = 0) ∧
        Exec.Meets cpuStep CpuEvent.Fresh r events := by
  induction events generalizing r with
  | nil => simp [Exec.Meets]
  | cons event rest inductionHypothesis =>
    have one : (∀ entry ∈ (cpuStep r event).dropped, ∀ counter : Counter,
          counter.of entry.2 = 0) ↔
        (∀ entry ∈ r.dropped, ∀ counter : Counter, counter.of entry.2 = 0) ∧ event.Fresh r := by
      cases event with
      | fork around new =>
        have fresh : (∀ counter : Counter, counter.of
              { inst := 0, reCy := 0, refCy := (getTscCycles r.counters).1 } = 0) ↔
            (CpuEvent.fork around new).Fresh r := by
          have ordered := balanced.tscVal
          refine ⟨fun zero => ?_, fun same counter => ?_⟩
          · have cycles : r.counters.tsc - r.counters.tscVal = 0 := zero .refCy
            show r.counters.tsc = r.counters.tscVal
            omega
          · have same : r.counters.tsc = r.counters.tscVal := same
            cases counter with
            | inst => rfl
            | reCy => rfl
            | refCy => exact Nat.sub_eq_zero_of_le same.le
        show (∀ entry ∈ r.dropped ++ [(r.current, _)], _) ↔ _
        rw [List.forall_mem_append, List.forall_mem_singleton, fresh]
      | grow counters => exact (and_iff_left trivial).symm
      | schedule =>
        have kept : (cpuStep r .schedule).dropped = r.dropped := by
          rcases cpuStep_schedule r with ⟨_, same⟩ | ⟨ts, p, _, stepped⟩
          · rw [same]
          · rw [stepped]
        rw [kept]
        exact (and_iff_left trivial).symm
      | switchTo around next => exact (and_iff_left trivial).symm
      | elsewhere p => exact (and_iff_left trivial).symm
    rw [Exec.run_cons, inductionHypothesis (balanced.step event), one, and_assoc]
    rfl

theorem meets_postsAdditions (events : List CpuEvent) (r : CpuRun) :
    Exec.Meets cpuStep (fun r event => event.PostsAdditions r) r events := by
  induction events generalizing r with
  | nil => trivial
  | cons event rest inductionHypothesis =>
    exact ⟨postsAdditions r event, inductionHypothesis (cpuStep r event)⟩

/-- For every run of a cpu after its first context switch, up to a reading: what is charged is what
the probes add to the fields of the tasks, and each counter's growth has been charged to the tasks
that ran, exactly if every fork of the run came when the time stamp counter had not grown since its
last reading. -/
theorem accounted_iff (around : Surroundings) (prev next : Nat) (p : Pds) (c : CpuCounters)
    (events : List CpuEvent) (last : CpuEvent)
    (reads : last.Reads (Exec.run cpuStep (CpuRun.start around prev next p c) events)) :
    Exec.Meets cpuStep (fun r event => event.PostsAdditions r)
        (CpuRun.start around prev next p c) (events ++ [last]) ∧
      (GrowthCharged (Exec.run cpuStep (CpuRun.start around prev next p c) (events ++ [last])) ↔
        Exec.Meets cpuStep CpuEvent.Fresh (CpuRun.start around prev next p c) events) := by
  refine ⟨meets_postsAdditions _ _, ?_⟩
  have balanced : Balanced (Exec.run cpuStep (CpuRun.start around prev next p c) events) :=
    Exec.run_invariant_of_forall Balanced (fun _ event kept => kept.step event)
      (Balanced.start around prev next p c) events
  have notFork : last.Fresh (Exec.run cpuStep (CpuRun.start around prev next p c) events) := by
    cases last with
    | fork around new => exact reads.elim
    | grow counters => trivial
    | schedule => trivial
    | switchTo around next => trivial
    | elsewhere p => trivial
  have dropped := dropped_iff (events ++ [last]) (Balanced.start around prev next p c)
  rw [Exec.run_concat] at dropped ⊢
  rw [(balanced.step last).charged_iff (reading_eq_zero reads), dropped, Exec.meets_append]
  refine ⟨fun met => met.2.1, fun met => ⟨?_, met, notFork, trivial⟩⟩
  exact fun entry member => absurd member List.not_mem_nil

/-- The counters of a cpu that has just been started. -/
def startedCounters : CpuCounters := { inst := 0, reCy := 0, tsc := 0, tscVal := 0, ts := none }

/-- A task runs, forks another right after it has been scheduled, and is switched out. -/
def freshForkEvents : List CpuEvent :=
  [.grow ⟨10, 20, 30⟩, .switchTo (idleSurroundings 0) 8, .fork (idleSurroundings 0) 9,
    .grow ⟨1, 2, 3⟩]

/-- The accounts of its cpu balance. -/
theorem accounted_iff_fresh_fork :
    GrowthCharged (Exec.run cpuStep
      (CpuRun.start (idleSurroundings 0) 6 7 (restingPds 2) startedCounters)
      (freshForkEvents ++ [.switchTo (idleSurroundings 0) 7])) :=
  (accounted_iff (idleSurroundings 0) 6 7 (restingPds 2) startedCounters freshForkEvents
    (.switchTo (idleSurroundings 0) 7) trivial).2.mpr (by decide)

/-- A task runs for thirty cycles, forks another and is switched out: no task is charged for the
thirty cycles. -/
theorem accounted_not_after_fork :
    let final := Exec.run cpuStep
      (CpuRun.start (idleSurroundings 0) 6 7 (restingPds 2) startedCounters)
      [.grow ⟨10, 20, 30⟩, .fork (idleSurroundings 0) 9, .switchTo (idleSurroundings 0) 8]
    Ledger.total (fun _ => true) Counter.refCy.of final.grown = 30 ∧
      Ledger.total (fun _ => true) Counter.refCy.of final.charged = 0 ∧ ¬ GrowthCharged final := by
  refine ⟨by decide, by decide, fun accounted => ?_⟩
  exact absurd (accounted.everyTask 7 .refCy) (by decide)

end Seeker
