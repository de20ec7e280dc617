/-
This file treats a delayed work that arms its own timer again, the flag that says whether
it shall, and the calls that start and stop it, one access at a time.

A stop clears the flag and cancels the timer. It does not wait for a callback, and it
does not take back a work whose timer has expired already. The file says how often the
callback can still begin after a stop, and that it can begin that often; and when a work
that is started is sure to go on. A start may initialise the timer anew. Where the timer
runs at that moment the list it is on is no longer one, and only that is noted.
-/
import Mathlib.Data.List.Perm.Basic
import Mathlib.Tactic.Common
import Seeker.Library.Exec

namespace Rearmed

/-! ### The work -/

/-- The timer of the work: it is not pending, its timer runs, or it waits in the queue. -/
inductive Timer where
  | idle
  | armed
  | queued
  deriving DecidableEq

/-- A step of a call: it returns if the flag has a value, it writes the flag, it initialises the
timer, it schedules the work, or it cancels it. -/
inductive Op where
  | returnIf (flag : Bool)
  | setFlag (flag : Bool)
  | initTimer
  | schedule
  | cancel
  deriving DecidableEq

/-- Where a callback is: it has yet to test the flag, or it has found it set. -/
inductive Stage where
  | testing
  | arming
  deriving DecidableEq

/-- The flag, the timer, what is left of the call in progress, the callbacks in progress, how often
a callback has begun, and whether the timer has been initialised while it was running. -/
structure Work where
  flag : Bool
  timer : Timer
  call : List Op
  callbacks : List Stage
  begun : Nat
  corrupted : Bool
  deriving DecidableEq

/-- A call is made, or makes its next step; the timer expires; the work is taken from the queue; a
callback makes its next step; a callback that has yet to test the flag clears it. -/
inductive Event where
  | call (ops : List Op)
  | op
  | expire
  | begin
  | callback (index : Nat)
  | giveUp (index : Nat)
  deriving DecidableEq

namespace Work

/-- The work is scheduled, unless it is pending. -/
def schedule (w : Work) : Work := if w.timer = .idle then { w with timer := .armed } else w

/-- The timer is stopped, if it runs. -/
def cancel (w : Work) : Work := if w.timer = .armed then { w with timer := .idle } else w

/-- A step of a call. -/
def perform (w : Work) : Op → Work
  | .returnIf flag => if w.flag = flag then { w with call := [] } else w
  | .setFlag flag => { w with flag := flag }
  | .initTimer => { w with corrupted := w.corrupted || decide (w.timer = .armed) }
  | .schedule => w.schedule
  | .cancel => w.cancel

/-- The next step of the call in progress. -/
def next (w : Work) : Work :=
  match w.call with
  | [] => w
  | op :: ops => perform { w with call := ops } op

/-- The timer expires, if it runs. -/
def expire (w : Work) : Work := if w.timer = .armed then { w with timer := .queued } else w

/-- The work is taken from the queue, if it is there. -/
def beginCallback (w : Work) : Work :=
  if w.timer = .queued then
    { w with timer := .idle, callbacks := w.callbacks ++ [.testing], begun := w.begun + 1 }
  else w

/-- The next step of a callback: it tests the flag, or it schedules the work and ends. -/
def proceed (index : Nat) (w : Work) : Work :=
  match w.callbacks[index]? with
  | none => w
  | some .testing =>
    if w.flag then { w with callbacks := w.callbacks.set index .arming }
    else { w with callbacks := w.callbacks.eraseIdx index }
  | some .arming => { w with callbacks := w.callbacks.eraseIdx index }.schedule

/-- A callback clears the flag before it tests it. -/
def giveUp (index : Nat) (w : Work) : Work :=
  if w.callbacks[index]? = some .testing then { w with flag := false } else w

/-- One event. Calls are made one after the other; an event the work is not ready for changes
nothing. -/
def step (w : Work) : Event → Work
  | .call ops => if w.call = [] then { w with call := ops } else w
  | .op => w.next
  | .expire => w.expire
  | .begin => w.beginCallback
  | .callback index => w.proceed index
  | .giveUp index => w.giveUp index

end Work

/-- The event makes no call. -/
def Event.Internal : Event → Prop
  | .call _ => False
  | _ => True

/-- The work without a timer and callbacks. -/
def Work.unused : Work := ⟨false, .idle, [], [], 0, false⟩

/-! ### After a stop -/

/-- The flag is clear and no call is in progress. -/
structure Work.Stopped (w : Work) : Prop where
  clear : w.flag = false
  idle : w.call = []

/-- The pending work, and the callbacks that will make it pending. -/
def Work.pendingCount (w : Work) : Nat :=
  (if w.timer = .idle then 0 else 1) + w.callbacks.count .arming

section Stopped

variable {w : Work} {index : Nat}

/-- A callback that is taken out has been counted once. -/
theorem count_eraseIdx {callbacks : List Stage} {stage : Stage}
    (found : callbacks[index]? = some stage) :
    callbacks.count .arming =
      (callbacks.eraseIdx index).count .arming + if stage = .arming then 1 else 0 := by
  obtain ⟨inRange, there⟩ := List.getElem?_eq_some_iff.mp found
  have same := (List.getElem_cons_eraseIdx_perm inRange).count_eq Stage.arming
  rw [there, List.count_cons] at same
  rw [← same]
  simp only [beq_iff_eq]

theorem Work.pendingCount_schedule (w : Work) : w.schedule.pendingCount ≤ w.pendingCount + 1 := by
  unfold Work.schedule
  split
  · rename_i idle
    simp [Work.pendingCount, idle, Nat.add_comm]
  · exact Nat.le_succ _

theorem Work.begun_schedule (w : Work) : w.schedule.begun = w.begun := by
  unfold Work.schedule
  split <;> rfl

/-- A step of a callback once the flag is clear. -/
theorem Work.Stopped.proceed (stopped : w.Stopped) :
    (w.proceed index).Stopped ∧
      (w.proceed index).begun + (w.proceed index).pendingCount ≤ w.begun + w.pendingCount := by
  unfold Work.proceed
  split
  · exact ⟨stopped, Nat.le_refl _⟩
  · rename_i found
    have counted := count_eraseIdx found
    rw [if_neg (by simp [stopped.clear])]
    refine ⟨⟨stopped.clear, stopped.idle⟩, Nat.le_of_eq ?_⟩
    rw [Work.pendingCount, Work.pendingCount, counted]
    rfl
  · rename_i found
    have counted := count_eraseIdx found
    rw [if_pos rfl] at counted
    let left : Work := { w with callbacks := w.callbacks.eraseIdx index }
    have grown : left.schedule.pendingCount ≤ left.pendingCount + 1 := left.pendingCount_schedule
    have whole : left.pendingCount + 1 = w.pendingCount := by
      rw [Work.pendingCount, Work.pendingCount, counted, Nat.add_assoc]
    refine ⟨?_, ?_⟩
    · show left.schedule.Stopped
      unfold Work.schedule
      split
      · exact ⟨stopped.clear, stopped.idle⟩
      · exact ⟨stopped.clear, stopped.idle⟩
    · show left.schedule.begun + left.schedule.pendingCount ≤ _
      rw [Work.begun_schedule]
      exact Nat.add_le_add_left (Nat.le_trans grown (Nat.le_of_eq whole)) w.begun

theorem Work.Stopped.next_eq (stopped : w.Stopped) : w.next = w := by
  unfold Work.next
  rw [stopped.idle]

/-- A step that no call makes keeps the work stopped, and a callback that begins uses up what is
pending. -/
theorem Work.Stopped.step (stopped : w.Stopped) {event : Event} (internal : event.Internal) :
    (w.step event).Stopped ∧
      (w.step event).begun + (w.step event).pendingCount ≤ w.begun + w.pendingCount := by
  cases event with
  | call ops => exact absurd internal id
  | op =>
    show w.next.Stopped ∧ w.next.begun + w.next.pendingCount ≤ _
    rw [stopped.next_eq]
    exact ⟨stopped, Nat.le_refl _⟩
  | expire =>
    show w.expire.Stopped ∧ w.expire.begun + w.expire.pendingCount ≤ _
    unfold Work.expire
    split
    · rename_i armed
      refine ⟨⟨stopped.clear, stopped.idle⟩, Nat.le_of_eq ?_⟩
      simp [Work.pendingCount, armed]
    · exact ⟨stopped, Nat.le_refl _⟩
  | begin =>
    show w.beginCallback.Stopped ∧ w.beginCallback.begun + w.beginCallback.pendingCount ≤ _
    unfold Work.beginCallback
    split
    · rename_i queued
      refine ⟨⟨stopped.clear, stopped.idle⟩, Nat.le_of_eq ?_⟩
      simp [Work.pendingCount, queued, Nat.add_assoc]
    · exact ⟨stopped, Nat.le_refl _⟩
  | callback index => exact stopped.proceed
  | giveUp index =>
    show (w.giveUp index).Stopped ∧ (w.giveUp index).begun + (w.giveUp index).pendingCount ≤ _
    unfold Work.giveUp
    split
    · exact ⟨⟨rfl, stopped.idle⟩, Nat.le_refl _⟩
    · exact ⟨stopped, Nat.le_refl _⟩

/-- In a run without calls the callback of a stopped work begins at most as often as it is pending
or about to be. -/
theorem Work.Stopped.run {events : List Event} (stopped : w.Stopped)
    (internal : ∀ event ∈ events, event.Internal) :
    (Exec.run Work.step w events).Stopped ∧
      (Exec.run Work.step w events).begun + (Exec.run Work.step w events).pendingCount ≤
        w.begun + w.pendingCount := by
  induction events generalizing w with
  | nil => exact ⟨stopped, Nat.le_refl _⟩
  | cons event rest inductionHypothesis =>
    obtain ⟨first, others⟩ := List.forall_mem_cons.mp internal
    obtain ⟨still, used⟩ := stopped.step first
    obtain ⟨done, usedRest⟩ := inductionHypothesis still others
    exact ⟨done, Nat.le_trans usedRest used⟩

/-- A pending work begins when its timer expires and the queue gets to it. -/
theorem Work.exists_begin (pending : w.timer ≠ .idle) :
    ∃ events, (∀ event ∈ events, event.Internal) ∧
      Exec.run Work.step w events =
        { w with timer := .idle, callbacks := w.callbacks ++ [.testing], begun := w.begun + 1 } := by
  cases timer : w.timer with
  | idle => exact absurd timer pending
  | armed =>
    refine ⟨[.expire, .begin], by simp [Event.Internal], ?_⟩
    simp [Work.step, Work.expire, Work.beginCallback, timer]
  | queued =>
    refine ⟨[.begin], by simp [Event.Internal], ?_⟩
    simp [Work.step, Work.beginCallback, timer]

/-- The bound is attained: each time the queue is empty, one of the callbacks that have found the
flag set schedules the work. -/
theorem Work.exists_run (w : Work) :
    ∃ events, (∀ event ∈ events, event.Internal) ∧
      (Exec.run Work.step w events).begun = w.begun + w.pendingCount := by
  obtain ⟨armings, counted⟩ : ∃ armings, w.callbacks.count .arming = armings := ⟨_, rfl⟩
  induction armings generalizing w with
  | zero =>
    by_cases idle : w.timer = .idle
    · refine ⟨[], by simp, ?_⟩
      simp [Work.pendingCount, counted, idle]
    · obtain ⟨events, internal, begun⟩ := Work.exists_begin idle
      refine ⟨events, internal, ?_⟩
      rw [begun]
      simp [Work.pendingCount, counted, idle]
  | succ armings inductionHypothesis =>
    -- First the queue is emptied, then a callback fills it.
    obtain ⟨emptied, internalEmptied, idle, begun, callbacks⟩ : ∃ events,
        (∀ event ∈ events, event.Internal) ∧ (Exec.run Work.step w events).timer = .idle ∧
        (Exec.run Work.step w events).begun = w.begun + (if w.timer = .idle then 0 else 1) ∧
        (Exec.run Work.step w events).callbacks.count .arming = armings + 1 := by
      by_cases idle : w.timer = .idle
      · exact ⟨[], by simp, idle, by simp [idle], counted⟩
      · obtain ⟨events, internal, begun⟩ := Work.exists_begin idle
        refine ⟨events, internal, ?_⟩
        rw [begun]
        simp [idle, counted]
    have member : Stage.arming ∈ (Exec.run Work.step w emptied).callbacks :=
      List.count_pos_iff.mp (by omega)
    obtain ⟨index, found⟩ := List.getElem?_of_mem member
    have filled : (Exec.run Work.step w emptied).proceed index =
        { Exec.run Work.step w emptied with
          timer := .armed
          callbacks := (Exec.run Work.step w emptied).callbacks.eraseIdx index } := by
      unfold Work.proceed
      rw [found]
      exact if_pos idle
    have taken := count_eraseIdx found
    rw [callbacks, if_pos rfl] at taken
    obtain ⟨rest, internalRest, begunRest⟩ := inductionHypothesis
      ((Exec.run Work.step w emptied).proceed index) (by rw [filled]; exact (Nat.succ.inj taken).symm)
    refine ⟨emptied ++ .callback index :: rest, ?_, ?_⟩
    · intro event member
      rcases List.mem_append.mp member with early | late
      · exact internalEmptied event early
      · rcases List.mem_cons.mp late with rfl | late
        · exact trivial
        · exact internalRest event late
    · rw [Exec.run_append, Exec.run_cons]
      refine begunRest.trans ?_
      rw [filled]
      simp only [Work.pendingCount, begun, counted, reduceCtorEq, if_false]
      omega

end Stopped

/-! ### The calls -/

/-- A start that sets the flag, initialises the timer and then schedules the work. -/
def startFlagFirst : List Op := [.setFlag true, .initTimer, .schedule]

/-- A start that initialises the timer and schedules the work, unless the flag is set, and sets the
flag afterwards. -/
def startWorkFirst : List Op := [.returnIf true, .initTimer, .schedule, .setFlag true]

/-- A stop, which does nothing unless the flag is set. -/
def stop : List Op := [.returnIf false, .setFlag false, .cancel]

/-- The work is pending or a callback is in progress. -/
def Work.Going (w : Work) : Prop := w.timer ≠ .idle ∨ w.callbacks ≠ []

/-- The calls of the run are starts of one kind and stops. -/
def CallsOf (start : List Op) (events : List Event) : Prop :=
  ∀ ops, Event.call ops ∈ events → ops = start ∨ ops = stop

instance (w : Work) : Decidable w.Going := by
  unfold Work.Going
  infer_instance

section Calls

variable {w : Work} {start : List Op} {index : Nat}

theorem Work.going_schedule (w : Work) : w.schedule.Going := by
  unfold Work.schedule
  split
  · exact Or.inl (by simp)
  · rename_i pending
    exact Or.inl pending

theorem Work.schedule_kept (w : Work) : w.schedule.call = w.call ∧ w.schedule.flag = w.flag := by
  unfold Work.schedule
  split
  · exact ⟨rfl, rfl⟩
  · exact ⟨rfl, rfl⟩

theorem Work.expire_kept (w : Work) :
    w.expire.call = w.call ∧ w.expire.flag = w.flag ∧ (w.expire.Going ↔ w.Going) := by
  unfold Work.expire
  split
  · rename_i armed
    refine ⟨rfl, rfl, iff_of_true (Or.inl (by simp)) (Or.inl ?_)⟩
    rw [armed]
    decide
  · exact ⟨rfl, rfl, Iff.rfl⟩

theorem Work.beginCallback_kept (w : Work) : w.beginCallback.call = w.call ∧
    w.beginCallback.flag = w.flag ∧ (w.beginCallback.Going ↔ w.Going) := by
  unfold Work.beginCallback
  split
  · rename_i queued
    refine ⟨rfl, rfl, iff_of_true (Or.inr (by simp)) (Or.inl ?_)⟩
    rw [queued]
    decide
  · exact ⟨rfl, rfl, Iff.rfl⟩

theorem Work.proceed_kept (index : Nat) (w : Work) :
    (w.proceed index).call = w.call ∧ (w.proceed index).flag = w.flag := by
  unfold Work.proceed
  split
  · exact ⟨rfl, rfl⟩
  · split
    · exact ⟨rfl, rfl⟩
    · exact ⟨rfl, rfl⟩
  · exact Work.schedule_kept _

/-- A callback makes nothing go on that has not gone on before. -/
theorem Work.going_of_proceed (going : (w.proceed index).Going) : w.Going := by
  by_cases none_ : w.callbacks = []
  · unfold Work.proceed at going
    rw [none_] at going
    exact going
  · exact Or.inr none_

/-- A callback that finds the flag set makes the work go on. -/
theorem Work.Going.proceed (going : w.Going) (set : w.flag = true) : (w.proceed index).Going := by
  unfold Work.proceed
  split
  · exact going
  · rename_i found
    rw [if_pos set]
    refine Or.inr fun empty => ?_
    have length := congrArg List.length empty
    rw [List.length_set] at length
    obtain ⟨inRange, _⟩ := List.getElem?_eq_some_iff.mp found
    exact absurd inRange (by simp [length])
  · exact Work.going_schedule _

theorem Work.giveUp_kept (index : Nat) (w : Work) : (w.giveUp index).call = w.call ∧
    ((w.giveUp index).flag = true → w.flag = true) ∧ ((w.giveUp index).Going ↔ w.Going) := by
  unfold Work.giveUp
  split
  · exact ⟨rfl, fun set => (by cases set), Iff.rfl⟩
  · exact ⟨rfl, id, Iff.rfl⟩

theorem Work.next_nil (idle : w.call = []) : w.next = w := by
  unfold Work.next
  rw [idle]

theorem Work.next_cons {op : Op} {ops : List Op} (call : w.call = op :: ops) :
    w.next = Work.perform { w with call := ops } op := by
  unfold Work.next
  rw [call]

theorem Work.cancel_kept (w : Work) : w.cancel.call = w.call ∧ w.cancel.flag = w.flag := by
  unfold Work.cancel
  split
  · exact ⟨rfl, rfl⟩
  · exact ⟨rfl, rfl⟩

/-- The steps that are left of a call in progress. -/
structure Work.Midway (start : List Op) (w : Work) : Prop where
  steps : w.call <:+ start ∨ w.call <:+ stop
  cancelling : w.call = [.cancel] → w.flag = false

theorem Work.Midway.rest (midway : w.Midway start) {op : Op} {ops : List Op}
    (call : w.call = op :: ops) : ops <:+ start ∨ ops <:+ stop := by
  have suffix := midway.steps
  rw [call] at suffix
  exact suffix.imp (List.suffix_cons op ops).trans (List.suffix_cons op ops).trans

end Calls

/-! ### A start that sets the flag first -/

/-- The work goes on where the flag is set, or is about to be scheduled. -/
structure Work.Lively (w : Work) : Prop extends w.Midway startFlagFirst where
  going : w.flag = true → w.Going ∨ Op.schedule ∈ w.call

section Lively

variable {w : Work}

theorem Work.Lively.of_kept {w' : Work} (lively : w.Lively) (call : w'.call = w.call)
    (flag : w'.flag = true → w.flag = true) (going : w.flag = true → w.Going → w'.Going) :
    w'.Lively where
  steps := call ▸ lively.steps
  cancelling cancels := by
    have clear := lively.cancelling (call.symm.trans cancels)
    by_contra set
    exact Bool.noConfusion ((flag (by simpa using set)).symm.trans clear)
  going set := by
    rw [call]
    exact (lively.going (flag set)).imp_left (going (flag set))

/-- The next step of the call in progress. -/
theorem Work.Lively.next (lively : w.Lively) : w.next.Lively := by
  have ended : ([] : List Op) <:+ startFlagFirst ∨ [] <:+ stop := Or.inl List.nil_suffix
  have steps := lively.steps
  simp only [startFlagFirst, stop, List.suffix_cons_iff, List.suffix_nil] at steps
  rcases steps with (call | call | call | call) | call | call | call | call
  · rw [Work.next_cons call]
    exact ⟨⟨lively.rest call, fun cancels => (by cases cancels)⟩,
      fun _ => Or.inr (by simp [Work.perform])⟩
  · rw [Work.next_cons call]
    exact ⟨⟨lively.rest call, fun cancels => (by cases cancels)⟩,
      fun _ => Or.inr (by simp [Work.perform])⟩
  · rw [Work.next_cons call]
    obtain ⟨kept, _⟩ := Work.schedule_kept { w with call := [] }
    exact ⟨⟨kept ▸ ended, fun cancels => absurd (kept.symm.trans cancels) (by simp)⟩,
      fun _ => Or.inl (Work.going_schedule _)⟩
  · rw [Work.next_nil call]
    exact lively
  · rw [Work.next_cons call, Work.perform]
    have going : w.flag = true → w.Going := fun set =>
      (lively.going set).resolve_right fun scheduled => by simp [call] at scheduled
    split
    · exact ⟨⟨ended, fun cancels => (by cases cancels)⟩, fun set => Or.inl (going set)⟩
    · exact ⟨⟨lively.rest call, fun cancels => (by cases cancels)⟩, fun set => Or.inl (going set)⟩
  · rw [Work.next_cons call]
    exact ⟨⟨lively.rest call, fun _ => rfl⟩, fun set => (by cases set)⟩
  · -- The flag is clear when the timer is cancelled.
    have clear := lively.cancelling call
    obtain ⟨kept, flag⟩ := Work.cancel_kept { w with call := [] }
    rw [Work.next_cons call]
    refine ⟨⟨kept ▸ ended, fun _ => flag.trans clear⟩, fun set => ?_⟩
    exact Bool.noConfusion ((flag.symm.trans set).symm.trans clear)
  · rw [Work.next_nil call]
    exact lively

theorem Work.Lively.step (lively : w.Lively) {event : Event}
    (calls : ∀ ops, event = .call ops → ops = startFlagFirst ∨ ops = stop) :
    (w.step event).Lively := by
  cases event with
  | call ops =>
    show Work.Lively (if w.call = [] then { w with call := ops } else w)
    split
    · rename_i idle
      have going : w.flag = true → w.Going := fun set =>
        (lively.going set).resolve_right fun scheduled => by simp [idle] at scheduled
      rcases calls ops rfl with rfl | rfl
      · exact ⟨⟨Or.inl List.suffix_rfl, fun cancels => (by cases cancels)⟩,
          fun set => Or.inl (going set)⟩
      · exact ⟨⟨Or.inr List.suffix_rfl, fun cancels => (by cases cancels)⟩,
          fun set => Or.inl (going set)⟩
    · exact lively
  | op => exact lively.next
  | expire =>
    obtain ⟨call, flag, going⟩ := w.expire_kept
    exact lively.of_kept call (flag ▸ id) fun _ => going.mpr
  | begin =>
    obtain ⟨call, flag, going⟩ := w.beginCallback_kept
    exact lively.of_kept call (flag ▸ id) fun _ => going.mpr
  | callback index =>
    obtain ⟨call, flag⟩ := w.proceed_kept index
    exact lively.of_kept call (flag ▸ id) fun set going => going.proceed set
  | giveUp index =>
    obtain ⟨call, flag, going⟩ := w.giveUp_kept index
    exact lively.of_kept call flag fun _ => going.mpr

theorem Work.Lively.run (lively : w.Lively) {events : List Event}
    (calls : CallsOf startFlagFirst events) : (Exec.run Work.step w events).Lively := by
  induction events generalizing w with
  | nil => exact lively
  | cons event rest inductionHypothesis =>
    have first : ∀ ops, event = .call ops → ops = startFlagFirst ∨ ops = stop :=
      fun ops made => calls ops (made ▸ List.mem_cons_self)
    exact inductionHypothesis (lively.step first)
      fun ops member => calls ops (List.mem_cons_of_mem _ member)

theorem Work.lively_unused : Work.unused.Lively :=
  ⟨⟨Or.inl List.nil_suffix, fun cancels => (by cases cancels)⟩, fun set => (by cases set)⟩

/-- Whenever no call is in progress and the flag is set, the work goes on. -/
theorem Work.Lively.going_of_idle (lively : w.Lively) (idle : w.call = []) (set : w.flag = true) :
    w.Going :=
  (lively.going set).resolve_right fun scheduled => by simp [idle] at scheduled

end Lively

/-! ### A start that schedules the work first -/

/-- One event, with whether the work has been missed: since a start last scheduled it, the last
callback has ended before the start had set the flag. -/
def watch (current : Work × Bool) (event : Event) : Work × Bool :=
  (current.1.step event,
    match event with
    | .op => current.2 && current.1.call.head? ≠ some .schedule
    | .callback index =>
        current.2 || (current.1.call = [.setFlag true] && ¬ (current.1.proceed index).Going)
    | _ => current.2)

/-- The work goes on where the flag is set or about to be, unless it has been missed. -/
structure Watched (current : Work × Bool) : Prop extends current.1.Midway startWorkFirst where
  told : current.1.flag = true ∨ current.1.call = [.setFlag true] →
    (current.1.Going ↔ current.2 = false)

section Watched

variable {w : Work} {missed : Bool}

theorem Watched.of_kept {w' : Work} (watched : Watched (w, missed)) (call : w'.call = w.call)
    (flag : w'.flag = true → w.flag = true) (going : w'.Going ↔ w.Going) :
    Watched (w', missed) where
  steps := call ▸ watched.steps
  cancelling cancels := by
    have clear := watched.cancelling (call.symm.trans cancels)
    by_contra set
    exact Bool.noConfusion ((flag (by simpa using set)).symm.trans clear)
  told held := going.trans (watched.told (held.imp flag fun sets => call ▸ sets))

/-- The next step of the call in progress. -/
theorem Watched.next (watched : Watched (w, missed)) : Watched (watch (w, missed) .op) := by
  have ended : ([] : List Op) <:+ startWorkFirst ∨ [] <:+ stop := Or.inl List.nil_suffix
  have told : w.flag = true → (w.Going ↔ missed = false) := fun set => watched.told (Or.inl set)
  have steps := watched.steps
  simp only [startWorkFirst, stop, List.suffix_cons_iff, List.suffix_nil] at steps
  have same : ∀ {op : Op} {ops : List Op}, w.call = op :: ops → op ≠ .schedule →
      watch (w, missed) .op = (Work.perform { w with call := ops } op, missed) := by
    intro op ops call apart
    refine Prod.ext (Work.next_cons call) ?_
    simp [watch, call, apart]
  have unchanged : w.call = [] → Watched (watch (w, missed) .op) := by
    intro call
    have idle : watch (w, missed) .op = (w, missed) := by
      refine Prod.ext (Work.next_nil call) ?_
      simp [watch, call]
    rw [idle]
    exact watched
  rcases steps with (call | call | call | call | call) | call | call | call | call
  · rw [same call (by simp), Work.perform]
    split
    · exact ⟨⟨ended, fun cancels => (by cases cancels)⟩, fun held => told (held.resolve_right nofun)⟩
    · exact ⟨⟨watched.rest call, fun cancels => (by cases cancels)⟩,
        fun held => told (held.resolve_right nofun)⟩
  · rw [same call (by simp)]
    exact ⟨⟨watched.rest call, fun cancels => (by cases cancels)⟩,
      fun held => told (held.resolve_right nofun)⟩
  · have scheduled : watch (w, missed) .op =
        (({ w with call := [.setFlag true] } : Work).schedule, false) := by
      refine Prod.ext (Work.next_cons call) ?_
      simp [watch, call]
    obtain ⟨kept, _⟩ := Work.schedule_kept { w with call := [.setFlag true] }
    rw [scheduled]
    refine ⟨⟨?_, fun cancels => absurd (kept.symm.trans cancels) (by simp)⟩, fun _ => ?_⟩
    · show (Work.schedule _).call <:+ _ ∨ _
      rw [kept]
      exact watched.rest call
    · exact iff_of_true (Work.going_schedule _) rfl
  · rw [same call (by simp)]
    exact ⟨⟨ended, fun cancels => (by cases cancels)⟩, fun _ => watched.told (Or.inr call)⟩
  · exact unchanged call
  · rw [same call (by simp), Work.perform]
    split
    · exact ⟨⟨ended, fun cancels => (by cases cancels)⟩, fun held => told (held.resolve_right nofun)⟩
    · exact ⟨⟨watched.rest call, fun cancels => (by cases cancels)⟩,
        fun held => told (held.resolve_right nofun)⟩
  · rw [same call (by simp)]
    exact ⟨⟨watched.rest call, fun _ => rfl⟩, fun held => held.elim nofun nofun⟩
  · -- The flag is clear when the timer is cancelled.
    have clear := watched.cancelling call
    obtain ⟨kept, flag⟩ := Work.cancel_kept { w with call := [] }
    rw [same call (by simp)]
    refine ⟨⟨Or.inl ?_, fun _ => flag.trans clear⟩, fun held => ?_⟩
    · show (Work.cancel { w with call := [] }).call <:+ startWorkFirst
      rw [kept]
      exact List.nil_suffix
    · rcases held with set | sets
      · exact Bool.noConfusion ((flag.symm.trans set).symm.trans clear)
      · exact absurd (kept.symm.trans sets) (by simp)
  · exact unchanged call

theorem Watched.step (watched : Watched (w, missed)) {event : Event}
    (calls : ∀ ops, event = .call ops → ops = startWorkFirst ∨ ops = stop) :
    Watched (watch (w, missed) event) := by
  cases event with
  | call ops =>
    show Watched (if w.call = [] then { w with call := ops } else w, missed)
    split
    · have told : w.flag = true → (w.Going ↔ missed = false) := fun set => watched.told (Or.inl set)
      rcases calls ops rfl with rfl | rfl
      · exact ⟨⟨Or.inl List.suffix_rfl, fun cancels => (by cases cancels)⟩,
          fun held => told (held.resolve_right nofun)⟩
      · exact ⟨⟨Or.inr List.suffix_rfl, fun cancels => (by cases cancels)⟩,
          fun held => told (held.resolve_right nofun)⟩
    · exact watched
  | op => exact watched.next
  | expire =>
    obtain ⟨call, flag, going⟩ := w.expire_kept
    exact watched.of_kept call (flag ▸ id) going
  | begin =>
    obtain ⟨call, flag, going⟩ := w.beginCallback_kept
    exact watched.of_kept call (flag ▸ id) going
  | callback index =>
    obtain ⟨call, flag⟩ := w.proceed_kept index
    have midway : (w.proceed index).Midway startWorkFirst :=
      ⟨call ▸ watched.steps, fun cancels => flag.trans (watched.cancelling (call.symm.trans cancels))⟩
    refine ⟨midway, fun held => ?_⟩
    show (w.proceed index).Going ↔
      (missed || (w.call = [.setFlag true] && ¬ (w.proceed index).Going)) = false
    have told := watched.told (held.imp (fun set => flag.symm.trans set) fun sets => call ▸ sets)
    have before : (w.proceed index).Going → w.Going := Work.going_of_proceed
    by_cases sets : w.call = [.setFlag true]
    · -- Before the flag is set, a callback may end with nothing else going on.
      simp only [sets, decide_true, Bool.true_and, Bool.or_eq_false_iff, decide_eq_false_iff_not,
        not_not]
      exact ⟨fun going => ⟨told.mp (before going), going⟩, fun both => both.2⟩
    · have set : w.flag = true := flag.symm.trans (held.resolve_right fun at_ => sets (call ▸ at_))
      simp only [sets, decide_false, Bool.false_and, Bool.or_false]
      exact ⟨fun going => told.mp (before going), fun kept => (told.mpr kept).proceed set⟩
  | giveUp index =>
    obtain ⟨call, flag, going⟩ := w.giveUp_kept index
    exact watched.of_kept call flag going

theorem Watched.run {current : Work × Bool} (watched : Watched current) {events : List Event}
    (calls : CallsOf startWorkFirst events) : Watched (Exec.run watch current events) := by
  induction events generalizing current with
  | nil => exact watched
  | cons event rest inductionHypothesis =>
    have first : ∀ ops, event = .call ops → ops = startWorkFirst ∨ ops = stop :=
      fun ops made => calls ops (made ▸ List.mem_cons_self)
    exact inductionHypothesis (watched.step first)
      fun ops member => calls ops (List.mem_cons_of_mem _ member)

/-- What is watched changes nothing. -/
theorem run_watch_fst (current : Work × Bool) (events : List Event) :
    (Exec.run watch current events).1 = Exec.run Work.step current.1 events := by
  induction events generalizing current with
  | nil => rfl
  | cons event rest inductionHypothesis => exact inductionHypothesis (watch current event)

theorem watched_unused : Watched (Work.unused, false) :=
  ⟨⟨Or.inl List.nil_suffix, fun cancels => (by cases cancels)⟩, fun held => held.elim nofun nofun⟩

end Watched

/-! ### A work that is started once -/

/-- How often the work is pending or in a callback. -/
def Work.load (w : Work) : Nat := (if w.timer = .idle then 0 else 1) + w.callbacks.length

/-- The work is pending, in a callback or about to be scheduled at most once over. -/
def Work.Once (w : Work) : Prop := w.load + w.call.count .schedule ≤ 1

section Once

variable {w w' : Work} {index : Nat}

theorem Work.load_schedule_le (w : Work) : w.schedule.load ≤ w.load + 1 := by
  unfold Work.schedule
  split
  · rename_i idle
    simp [Work.load, idle, Nat.add_comm]
  · exact Nat.le_succ _

theorem Work.Once.of_le (once : w.Once) (load : w'.load ≤ w.load)
    (call : w'.call.count .schedule ≤ w.call.count .schedule) : w'.Once :=
  Nat.le_trans (Nat.add_le_add load call) once

/-- The next step of the call in progress: it schedules the work, or there is no more of it. -/
theorem Work.Once.next (once : w.Once) : w.next.Once := by
  cases call : w.call with
  | nil =>
    rw [Work.next_nil call]
    exact once
  | cons op ops =>
    have fewer : ops.count .schedule ≤ w.call.count .schedule := by
      rw [call]
      exact List.count_le_count_cons
    rw [Work.next_cons call]
    cases op with
    | returnIf flag =>
      rw [Work.perform]
      split
      · exact once.of_le (Nat.le_refl _) (Nat.zero_le _)
      · exact once.of_le (Nat.le_refl _) fewer
    | setFlag flag => exact once.of_le (Nat.le_refl _) fewer
    | initTimer => exact once.of_le (Nat.le_refl _) fewer
    | cancel =>
      obtain ⟨kept, _⟩ := Work.cancel_kept { w with call := ops }
      refine once.of_le ?_ ?_
      · show (Work.cancel { w with call := ops }).load ≤ w.load
        unfold Work.cancel
        split
        · exact Nat.add_le_add_right (Nat.zero_le _) _
        · exact Nat.le_refl _
      · show (Work.cancel { w with call := ops }).call.count .schedule ≤ _
        rw [kept]
        exact fewer
    | schedule =>
      obtain ⟨kept, _⟩ := Work.schedule_kept { w with call := ops }
      have more : (Work.schedule { w with call := ops }).load ≤ w.load + 1 :=
        Work.load_schedule_le { w with call := ops }
      unfold Work.Once at once
      rw [call, List.count_cons_self] at once
      show (Work.schedule { w with call := ops }).load +
        (Work.schedule { w with call := ops }).call.count .schedule ≤ 1
      rw [kept]
      show _ + ops.count .schedule ≤ 1
      omega

theorem Work.Once.proceed (once : w.Once) : (w.proceed index).Once := by
  obtain ⟨call, _⟩ := w.proceed_kept index
  refine once.of_le ?_ (Nat.le_of_eq (congrArg (List.count .schedule) call))
  unfold Work.proceed
  split
  · exact Nat.le_refl _
  · split
    · exact Nat.le_of_eq (by simp [Work.load])
    · exact Nat.add_le_add_left (List.length_eraseIdx_le _ _) _
  · rename_i found
    obtain ⟨inRange, _⟩ := List.getElem?_eq_some_iff.mp found
    refine Nat.le_trans (Work.load_schedule_le _) (Nat.le_of_eq ?_)
    have length := List.length_eraseIdx_add_one inRange
    rw [Work.load, Work.load, Nat.add_assoc, length]

/-- No event makes more of the work, if no further call schedules it. -/
theorem Work.Once.step (once : w.Once) {event : Event}
    (calls : ∀ ops, event = .call ops → Op.schedule ∉ ops) : (w.step event).Once := by
  cases event with
  | call ops =>
    show Work.Once (if w.call = [] then { w with call := ops } else w)
    split
    · refine once.of_le (Nat.le_refl _) ?_
      show ops.count .schedule ≤ _
      rw [List.count_eq_zero.mpr (calls ops rfl)]
      exact Nat.zero_le _
    · exact once
  | op => exact once.next
  | expire =>
    obtain ⟨call, _, _⟩ := w.expire_kept
    refine once.of_le ?_ (Nat.le_of_eq (congrArg (List.count .schedule) call))
    show w.expire.load ≤ w.load
    unfold Work.expire
    split
    · rename_i armed
      simp [Work.load, armed]
    · exact Nat.le_refl _
  | begin =>
    obtain ⟨call, _, _⟩ := w.beginCallback_kept
    refine once.of_le ?_ (Nat.le_of_eq (congrArg (List.count .schedule) call))
    show w.beginCallback.load ≤ w.load
    unfold Work.beginCallback
    split
    · rename_i queued
      simp [Work.load, queued, Nat.add_comm]
    · exact Nat.le_refl _
  | callback index => exact once.proceed
  | giveUp index =>
    show (w.giveUp index).Once
    unfold Work.giveUp
    split
    · exact once
    · exact once

theorem Work.Once.run (once : w.Once) {events : List Event}
    (calls : ∀ ops, Event.call ops ∈ events → Op.schedule ∉ ops) :
    (Exec.run Work.step w events).Once := by
  induction events generalizing w with
  | nil => exact once
  | cons event rest inductionHypothesis =>
    exact inductionHypothesis (once.step fun ops made => calls ops (made ▸ List.mem_cons_self))
      fun ops member => calls ops (List.mem_cons_of_mem _ member)

/-- Then at most one callback can begin after a stop. -/
theorem Work.Once.pendingCount_le (once : w.Once) : w.pendingCount ≤ 1 := by
  have few : w.callbacks.count .arming ≤ w.callbacks.length := List.count_le_length
  unfold Work.Once Work.load at once
  unfold Work.pendingCount
  omega

end Once

end Rearmed
