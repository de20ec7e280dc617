/-
This file embeds `main` of `launch.c` after its arguments are read: the parent, which
forks a child for each app, waits for the first one to end, with `-k` signals the others
and waits for the rest, and the children beside it.

A child makes a process group of its own, and the signal goes to that group. A child
that has not got there yet is missed: the file proves that no other child is left running
once the signals are sent, and that `main` returns only after each child has ended and
been waited for, the missed ones included. A `wait` that finds no child left, as after a
`fork` that has failed, leaves the status of the one before, and names the pid `-1` if
that was an exit.
-/
import Seeker.LaunchGrammar
import Seeker.Library.Exec

namespace Seeker

/-! ### The processes -/

/-- How a child has ended: it has exited, the signal to its group has ended it, or it has aborted. -/
inductive ChildEnd where
  | exited
  | terminated
  | aborted
  deriving DecidableEq

/-- `WIFEXITED`. -/
def ChildEnd.Exited : ChildEnd → Bool
  | .exited => true
  | _ => false

/-- The signal to its group has ended the child. -/
def ChildEnd.Terminated : ChildEnd → Bool
  | .terminated => true
  | _ => false

/-- A child of `launch`: it has been forked, it has a group of its own, it has ended, and it has
been waited for. -/
inductive ChildStage where
  | forked
  | grouped
  | ended (how : ChildEnd)
  | reaped (how : ChildEnd)
  deriving DecidableEq

/-- The child has not ended. -/
def ChildStage.Running : ChildStage → Bool
  | .forked => true
  | .grouped => true
  | _ => false

/-- The child has been waited for. -/
def ChildStage.Reaped : ChildStage → Bool
  | .reaped _ => true
  | _ => false

/-- Where the parent is: in the loop that forks, at the first `wait`, in the loop that signals, in
that of the other `wait`s, or past its end. -/
inductive LaunchStage where
  | forking (i : Nat)
  | waitFirst
  | killing (i : Nat)
  | waitRest (i : Nat)
  | returned
  deriving DecidableEq

/-- The parent and its children, by the number of their app: `pids`, `wpid`, and whether
`child_status` is that of an exit; the pids of its two messages. `reaped` and `missed` are what the
run remembers: the children in the order they were waited for, and those that were not in a group
when theirs was signalled. -/
structure LaunchMain where
  stage : LaunchStage
  pids : Nat → Int
  child : Nat → Option ChildStage
  wpid : Int
  exited : Bool
  finished : List Int
  killing : List Int
  reaped : List Nat
  missed : List Nat

/-- The pid that `fork` returns, and the child that `wait` returns. -/
structure LaunchAnswer where
  pid : Int
  child : Nat

/-- A child goes on to a stage. -/
def LaunchMain.setChild (i : Nat) (stage : ChildStage) (m : LaunchMain) : LaunchMain :=
  { m with child := Function.update m.child i (some stage) }

theorem LaunchMain.setChild_own (i : Nat) (stage : ChildStage) (m : LaunchMain) :
    (m.setChild i stage).child i = some stage := Function.update_self ..

theorem LaunchMain.setChild_other {i j : Nat} (other : j ≠ i) (stage : ChildStage)
    (m : LaunchMain) : (m.setChild i stage).child j = m.child j := Function.update_of_ne other ..

/-- `fork` for an app; `-1` is its failure. -/
def LaunchMain.fork (i : Nat) (pid : Int) (m : LaunchMain) : LaunchMain :=
  let m := { m with stage := .forking (i + 1), pids := Function.update m.pids i pid }
  if pid = -1 then m else m.setChild i .forked

/-- No child is left to wait for. -/
def LaunchMain.Childless (numberApps : Nat) (m : LaunchMain) : Prop :=
  ∀ j, j < numberApps → ∀ stage ∈ m.child j, stage.Reaped = true

instance (numberApps : Nat) (m : LaunchMain) : Decidable (m.Childless numberApps) :=
  inferInstanceAs (Decidable (∀ _, _ < numberApps → _))

/-- `wait`, with the message after it: it returns a child that has ended, or `-1` when no child is
left, and leaves `child_status` alone then. Otherwise it has to be called again. -/
def LaunchMain.wait (numberApps which : Nat) (next : LaunchStage) (m : LaunchMain) : LaunchMain :=
  match m.child which with
  | some (.ended how) =>
    LaunchMain.setChild which (.reaped how)
      { m with
        stage := next
        wpid := m.pids which
        exited := how.Exited
        finished := if how.Exited then m.finished ++ [m.pids which] else m.finished
        reaped := m.reaped ++ [which] }
  | _ =>
    if m.Childless numberApps then
      { m with
        stage := next
        wpid := -1
        finished := if m.exited then m.finished ++ [-1] else m.finished }
    else m

/-- `killpg(gid, SIGTERM)`: the children in the group end. -/
def LaunchMain.killpg (gid : Int) (m : LaunchMain) : LaunchMain :=
  { m with
    child := fun j =>
      if m.pids j = gid ∧ m.child j = some .grouped then some (.ended .terminated) else m.child j }

/-- A turn of the loop that signals. -/
def LaunchMain.kill (i : Nat) (m : LaunchMain) : LaunchMain :=
  if m.pids i = m.wpid then { m with stage := .killing (i + 1) }
  else
    { m.killpg (m.pids i) with
      stage := .killing (i + 1)
      killing := m.killing ++ [m.pids i]
      missed := if m.child i = some .forked then m.missed ++ [i] else m.missed }

/-- One step of the parent. -/
def LaunchMain.parent (numberApps : Nat) (killSlowChildren : Bool) (answer : LaunchAnswer)
    (m : LaunchMain) : LaunchMain :=
  match m.stage with
  | .forking i => if i < numberApps then m.fork i answer.pid else { m with stage := .waitFirst }
  | .waitFirst =>
    m.wait numberApps answer.child (if killSlowChildren then .killing 0 else .waitRest 0)
  | .killing i => if i < numberApps then m.kill i else { m with stage := .waitRest 0 }
  | .waitRest i =>
    if i < numberApps - 1 then m.wait numberApps answer.child (.waitRest (i + 1))
    else { m with stage := .returned }
  | .returned => m

/-- The parent makes a step; a child makes its group; a child that has one cannot set its affinity
and aborts; or it runs its app and exits. -/
inductive LaunchEvent where
  | parent (answer : LaunchAnswer)
  | setpgid (i : Nat)
  | abort (i : Nat)
  | exit (i : Nat)

/-- One event. -/
def launchStep (numberApps : Nat) (killSlowChildren : Bool) (m : LaunchMain) :
    LaunchEvent → LaunchMain
  | .parent answer => m.parent numberApps killSlowChildren answer
  | .setpgid i => if m.child i = some .forked then m.setChild i .grouped else m
  | .abort i => if m.child i = some .grouped then m.setChild i (.ended .aborted) else m
  | .exit i => if m.child i = some .grouped then m.setChild i (.ended .exited) else m

/-- `fork` fails with `-1`, or returns a pid that no other child has. -/
def LaunchStage.FreshPid (pids : Nat → Int) (pid : Int) : LaunchStage → Prop
  | .forking i => pid = -1 ∨ 0 < pid ∧ ∀ j, j < i → pids j ≠ pid
  | _ => True

/-- The pids that `fork` returns are fresh. -/
def LaunchEvent.Fresh (m : LaunchMain) : LaunchEvent → Prop
  | .parent answer => m.stage.FreshPid m.pids answer.pid
  | _ => True

instance freshPidDecidable (pids : Nat → Int) (pid : Int) : ∀ stage : LaunchStage,
    Decidable (stage.FreshPid pids pid)
  | .forking i => inferInstanceAs (Decidable (_ ∨ _ ∧ ∀ j, j < i → _))
  | .waitFirst => isTrue trivial
  | .killing _ => isTrue trivial
  | .waitRest _ => isTrue trivial
  | .returned => isTrue trivial

instance launchEventFreshDecidable (m : LaunchMain) : ∀ event : LaunchEvent, Decidable (event.Fresh m)
  | .parent answer => inferInstanceAs (Decidable (m.stage.FreshPid m.pids answer.pid))
  | .setpgid _ => isTrue trivial
  | .abort _ => isTrue trivial
  | .exit _ => isTrue trivial

/-- The parent before it forks; `child_status` is not set. -/
def launchStart (garbage : Bool) : LaunchMain where
  stage := .forking 0
  pids _ := 0
  child _ := none
  wpid := 0
  exited := garbage
  finished := []
  killing := []
  reaped := []
  missed := []

/-! ### The invariant -/

/-- The signal to its group has ended the child. -/
def ChildStage.Killed : ChildStage → Bool
  | .ended how => how.Terminated
  | .reaped how => how.Terminated
  | _ => false

/-- The pids of the children that have exited and been waited for, in that order. -/
def LaunchMain.exits (m : LaunchMain) : List Int :=
  (m.reaped.filter fun i => m.child i = some (.reaped .exited)).map m.pids

/-- The messages name those that have exited and, if `child_status` is that of an exit, `-1` for
each `wait` that has found no child. -/
def LaunchMain.Reports (failed : Nat) (m : LaunchMain) : Prop :=
  m.finished = m.exits ++ List.replicate (if m.exited then failed else 0) (-1)

/-- The children whose turn in the loop that signals is over. -/
def LaunchStage.swept (numberApps : Nat) (killSlow : Bool) : LaunchStage → Nat
  | .forking _ => 0
  | .waitFirst => 0
  | .killing i => i
  | .waitRest _ => if killSlow then numberApps else 0
  | .returned => if killSlow then numberApps else 0

/-- How often `wait` has returned. -/
def LaunchStage.waits (numberApps : Nat) : LaunchStage → Nat
  | .forking _ => 0
  | .waitFirst => 0
  | .killing _ => 1
  | .waitRest i => i + 1
  | .returned => numberApps

/-- The apps that `fork` has been called for. -/
def LaunchStage.forkedTo (numberApps : Nat) : LaunchStage → Nat
  | .forking i => i
  | _ => numberApps

/-- The counter of a loop of the parent is within its bound, and the loop that signals runs only
where it shall. -/
def LaunchStage.Bounded (numberApps : Nat) (killSlow : Bool) : LaunchStage → Prop
  | .killing i => i ≤ numberApps ∧ killSlow = true
  | .waitRest i => i + 1 ≤ numberApps
  | _ => True

/-- A child is forked with a pid of its own, and those waited for are in the list, each once. -/
structure ChildrenKept (numberApps : Nat) (m : LaunchMain) : Prop where
  forked : ∀ i, m.child i ≠ none → i < numberApps ∧ 0 < m.pids i
  distinct : ∀ i j, m.child i ≠ none → m.child j ≠ none → m.pids i = m.pids j → i = j
  reaped : ∀ i, i ∈ m.reaped ↔ ∃ stage ∈ m.child i, stage.Reaped = true
  nodup : m.reaped.Nodup

/-- The children that were signalled, and those that were missed. -/
structure SweepKept (numberApps : Nat) (killSlow : Bool) (m : LaunchMain) : Prop where
  swept : ∀ i, i < m.stage.swept numberApps killSlow → ∀ stage ∈ m.child i,
    stage.Running = true → i ∈ m.missed
  killed : ∀ i, ∀ stage ∈ m.child i, stage.Killed = true →
    i < m.stage.swept numberApps killSlow ∧ i ∉ m.missed
  missed : ∀ i ∈ m.missed, i < m.stage.swept numberApps killSlow

/-- The invariant. -/
structure LaunchKept (numberApps : Nat) (killSlow : Bool) (m : LaunchMain) : Prop where
  children : ChildrenKept numberApps m
  sweep : SweepKept numberApps killSlow m
  bounded : m.stage.Bounded numberApps killSlow
  born : ∀ i, m.stage = .forking i → ∀ j, i ≤ j → m.child j = none
  unforked : ∀ i, i < m.stage.forkedTo numberApps → m.child i = none → m.pids i = -1
  first : ∀ i, m.stage = .killing i → m.wpid = -1 ∨ ∃ f ∈ m.reaped, m.wpid = m.pids f
  waits : ∃ failed, m.stage.waits numberApps = m.reaped.length + failed ∧
    (0 < failed → m.Childless numberApps) ∧ m.Reports failed

section Kept

variable {numberApps : Nat} {killSlow : Bool} {m m' : LaunchMain} {i : Nat}

/-- The parent goes on to another stage of which the invariant says the same. -/
theorem LaunchKept.goto {stage : LaunchStage} (kept : LaunchKept numberApps killSlow m)
    (swept : stage.swept numberApps killSlow = m.stage.swept numberApps killSlow)
    (waits : stage.waits numberApps = m.stage.waits numberApps)
    (bounded : stage.Bounded numberApps killSlow) (born : ∀ i, stage ≠ .forking i)
    (forkedTo : stage.forkedTo numberApps ≤ m.stage.forkedTo numberApps)
    (first : ∀ i, stage ≠ .killing i) :
    LaunchKept numberApps killSlow { m with stage := stage } where
  children := { kept.children with }
  sweep := by
    refine ⟨fun i small => ?_, fun i => ?_, fun i => ?_⟩
    · exact kept.sweep.swept i (swept ▸ small)
    · show ∀ s ∈ m.child i, s.Killed = true → i < stage.swept numberApps killSlow ∧ i ∉ m.missed
      rw [swept]
      exact kept.sweep.killed i
    · show i ∈ m.missed → i < stage.swept numberApps killSlow
      rw [swept]
      exact kept.sweep.missed i
  bounded := bounded
  born i same := absurd same (born i)
  unforked i small := kept.unforked i (lt_of_lt_of_le small forkedTo)
  first i same := absurd same (first i)
  waits := by
    obtain ⟨failed, count, childless, reports⟩ := kept.waits
    exact ⟨failed, waits.trans count, childless, reports⟩

/-- Nobody else is forked or unforked when a child goes on. -/
theorem LaunchMain.setChild_forked (stage : ChildStage) (forked : m.child i ≠ none) (j : Nat) :
    (m.setChild i stage).child j ≠ none ↔ m.child j ≠ none := by
  by_cases same : j = i
  · subst same
    rw [LaunchMain.setChild_own]
    exact iff_of_true (Option.some_ne_none _) forked
  · rw [LaunchMain.setChild_other same]

theorem ChildStage.Running.notReaped {stage : ChildStage} (running : stage.Running = true) :
    stage.Reaped = false := by
  cases stage with
  | reaped how => cases running
  | _ => rfl

theorem LaunchMain.forked_of_some {stage : ChildStage} (here : m.child i = some stage) :
    m.child i ≠ none := by
  rw [here]
  exact Option.some_ne_none _

/-- A child that has not been waited for is not in the list. -/
theorem ChildrenKept.notMem_reaped {stage : ChildStage} (children : ChildrenKept numberApps m)
    (here : m.child i = some stage) (notReaped : stage.Reaped = false) : i ∉ m.reaped := by
  intro member
  obtain ⟨s, inside, done⟩ := (children.reaped i).mp member
  rw [here] at inside
  rw [← Option.mem_some_iff.mp inside, notReaped] at done
  cases done

/-- Only the children, their pids and what was waited for matter. -/
theorem ChildrenKept.congr (children : ChildrenKept numberApps m) (child : m'.child = m.child)
    (pids : m'.pids = m.pids) (reaped : m'.reaped = m.reaped) :
    ChildrenKept numberApps m' := by
  refine ⟨?_, ?_, ?_, ?_⟩
  · rw [child, pids]
    exact children.forked
  · rw [child, pids]
    exact children.distinct
  · rw [child, reaped]
    exact children.reaped
  · rw [reaped]
    exact children.nodup

/-- A child goes on, but is not waited for. -/
theorem ChildrenKept.setChild {stage : ChildStage} (children : ChildrenKept numberApps m)
    (next : ChildStage) (here : m.child i = some stage) (notReaped : stage.Reaped = false)
    (alive : next.Reaped = false) : ChildrenKept numberApps (m.setChild i next) := by
  have forked := LaunchMain.setChild_forked next (LaunchMain.forked_of_some here)
  have unreaped := children.notMem_reaped here notReaped
  refine ⟨fun j some => children.forked j ((forked j).mp some),
    fun j k first second => children.distinct j k ((forked j).mp first) ((forked k).mp second),
    fun j => ?_, children.nodup⟩
  by_cases same : j = i
  · subst same
    rw [LaunchMain.setChild_own]
    refine iff_of_false unreaped ?_
    simp [alive]
  · rw [LaunchMain.setChild_other same]
    exact children.reaped j

/-- A child that goes on, but is not waited for, is not named. -/
theorem ChildrenKept.exits_setChild {stage : ChildStage} (children : ChildrenKept numberApps m)
    (next : ChildStage) (here : m.child i = some stage) (notReaped : stage.Reaped = false) :
    (m.setChild i next).exits = m.exits := by
  have unreaped := children.notMem_reaped here notReaped
  refine congrArg (List.map m.pids) (List.filter_congr fun j member => ?_)
  have other : j ≠ i := fun same => unreaped (same ▸ member)
  rw [LaunchMain.setChild_other other]

theorem LaunchMain.reports_zero_iff : m.Reports 0 ↔ m.finished = m.exits := by
  unfold LaunchMain.Reports
  rw [ite_self, List.replicate_zero, List.append_nil]

/-- No call of `wait` has failed while a child has not been waited for. -/
theorem LaunchKept.waits_of_child {stage : ChildStage} (kept : LaunchKept numberApps killSlow m)
    (here : m.child i = some stage) (notReaped : stage.Reaped = false) :
    m.stage.waits numberApps = m.reaped.length + 0 ∧ m.finished = m.exits := by
  obtain ⟨failed, count, childless, reports⟩ := kept.waits
  rcases Nat.eq_zero_or_pos failed with none_ | some
  · rw [none_] at count reports
    exact ⟨count, LaunchMain.reports_zero_iff.mp reports⟩
  · have forked := kept.children.forked i (LaunchMain.forked_of_some here)
    have done := childless some i forked.1 stage here
    rw [notReaped] at done
    cases done

/-- A running child goes on: it makes its group, or it exits. -/
theorem LaunchKept.advance {stage next : ChildStage} (kept : LaunchKept numberApps killSlow m)
    (here : m.child i = some stage) (running : stage.Running = true)
    (alive : next.Reaped = false) (spared : next.Killed = false) :
    LaunchKept numberApps killSlow (m.setChild i next) := by
  have forked := LaunchMain.setChild_forked next (LaunchMain.forked_of_some here)
  have notReaped := ChildStage.Running.notReaped running
  obtain ⟨count, reported⟩ := kept.waits_of_child here notReaped
  refine ⟨kept.children.setChild next here notReaped alive,
    ⟨fun j small s member => ?_, fun j s member => ?_, kept.sweep.missed⟩, kept.bounded,
    fun j stage' k above => ?_, fun j small none_ => ?_, kept.first, 0, count,
    fun never => absurd never (Nat.lt_irrefl 0), LaunchMain.reports_zero_iff.mpr ?_⟩
  · by_cases same : j = i
    · subst same
      exact fun _ => kept.sweep.swept j small stage here running
    · rw [LaunchMain.setChild_other same] at member
      exact kept.sweep.swept j small s member
  · by_cases same : j = i
    · subst same
      rw [LaunchMain.setChild_own] at member
      rw [← Option.mem_some_iff.mp member, spared]
      exact fun never => Bool.noConfusion never
    · rw [LaunchMain.setChild_other same] at member
      exact kept.sweep.killed j s member
  · have none_ := kept.born j stage' k above
    exact not_not.mp ((forked k).not.mpr (not_not.mpr none_))
  · exact kept.unforked j small (not_not.mp ((forked j).not.mp (not_not.mpr none_)))
  · rw [kept.children.exits_setChild next here notReaped]
    exact reported

/-- `fork` makes a child with a fresh pid, or fails. -/
theorem LaunchKept.fork {pid : Int} (kept : LaunchKept numberApps killSlow m)
    (stage : m.stage = .forking i) (small : i < numberApps)
    (fresh : pid = -1 ∨ 0 < pid ∧ ∀ j, j < i → m.pids j ≠ pid) :
    LaunchKept numberApps killSlow (m.fork i pid) := by
  have before (j : Nat) (forked : m.child j ≠ none) : j < i := by
    rw [← not_le]
    exact fun above => forked (kept.born i stage j above)
  obtain ⟨failed, waited, _, reports⟩ := kept.waits
  rw [stage] at waited
  have zero : 0 = m.reaped.length + failed := waited
  obtain rfl : failed = 0 := by omega
  have noneReaped : m.reaped = [] := List.eq_nil_of_length_eq_zero (by omega)
  have silent : m.finished = [] := by
    rw [LaunchMain.reports_zero_iff.mp reports, LaunchMain.exits, noneReaped]
    rfl
  have pids (j : Nat) (less : j < i) : Function.update m.pids i pid j = m.pids j :=
    Function.update_of_ne (Nat.ne_of_lt less) _ _
  obtain ⟨_, killed, missed⟩ := kept.sweep
  rw [stage] at killed missed
  -- The variables of the loop go on; the child is not there yet.
  have children : ChildrenKept numberApps
      { m with stage := .forking (i + 1), pids := Function.update m.pids i pid } := by
    refine ⟨fun j forked => ?_, fun j k first second => ?_, kept.children.reaped,
      kept.children.nodup⟩
    · dsimp only
      rw [pids j (before j forked)]
      exact kept.children.forked j forked
    · dsimp only
      rw [pids j (before j first), pids k (before k second)]
      exact kept.children.distinct j k first second
  have unforked (j : Nat) (less : j < i) (none_ : m.child j = none) :
      Function.update m.pids i pid j = -1 := by
    have earlier : j < m.stage.forkedTo numberApps := by rw [stage]; exact less
    rw [pids j less]
    exact kept.unforked j earlier none_
  have ownPid : Function.update m.pids i pid i = pid := Function.update_self ..
  have count : (LaunchStage.forking (i + 1)).waits numberApps = m.reaped.length + 0 := by
    rw [noneReaped]
    rfl
  unfold LaunchMain.fork
  dsimp only
  split
  · rename_i failed
    refine ⟨children, ⟨fun j less => absurd less (Nat.not_lt_zero j), killed, missed⟩, trivial,
      fun j same k above => ?_, fun j less none_ => ?_, fun j same => (by cases same), 0, count,
      fun never => absurd never (Nat.lt_irrefl 0), LaunchMain.reports_zero_iff.mpr ?_⟩
    · cases same
      exact kept.born i stage k (Nat.le_of_succ_le above)
    · rcases Nat.lt_succ_iff_lt_or_eq.mp less with earlier | rfl
      · exact unforked j earlier none_
      · exact ownPid.trans failed
    · show m.finished = List.map _ (List.filter _ m.reaped)
      rw [silent, noneReaped]
      rfl
  · rename_i success
    obtain ⟨positive, unused⟩ := fresh.resolve_left success
    refine ⟨⟨fun j forked => ?_, fun j k first second => ?_, fun j => ?_, kept.children.nodup⟩,
      ⟨fun j less => absurd less (Nat.not_lt_zero j), fun j s member => ?_, missed⟩, trivial,
      fun j same k above => ?_, fun j less none_ => ?_, fun j same => (by cases same), 0, count,
      fun never => absurd never (Nat.lt_irrefl 0), LaunchMain.reports_zero_iff.mpr ?_⟩
    · by_cases same : j = i
      · rw [same]
        exact ⟨small, lt_of_lt_of_eq positive ownPid.symm⟩
      · rw [LaunchMain.setChild_other same] at forked
        exact children.forked j forked
    · show Function.update m.pids i pid j = Function.update m.pids i pid k → j = k
      by_cases same : j = i
      · by_cases same' : k = i
        · exact fun _ => same.trans same'.symm
        · rw [LaunchMain.setChild_other same'] at second
          rw [same, ownPid, pids k (before k second)]
          exact fun equal => absurd equal.symm (unused k (before k second))
      · rw [LaunchMain.setChild_other same] at first
        by_cases same' : k = i
        · rw [same', ownPid, pids j (before j first)]
          exact fun equal => absurd equal (unused j (before j first))
        · rw [LaunchMain.setChild_other same'] at second
          exact children.distinct j k first second
    · by_cases same : j = i
      · rw [same, LaunchMain.setChild_own]
        show i ∈ m.reaped ↔ _
        rw [noneReaped]
        simp [ChildStage.Reaped]
      · rw [LaunchMain.setChild_other same]
        exact kept.children.reaped j
    · by_cases same : j = i
      · rw [same, LaunchMain.setChild_own] at member
        rw [← Option.mem_some_iff.mp member]
        exact fun never => Bool.noConfusion never
      · rw [LaunchMain.setChild_other same] at member
        exact killed j s member
    · cases same
      rw [LaunchMain.setChild_other (by omega)]
      exact kept.born i stage k (Nat.le_of_succ_le above)
    · have other : j ≠ i := by
        rintro rfl
        rw [LaunchMain.setChild_own] at none_
        cases none_
      rw [LaunchMain.setChild_other other] at none_
      exact unforked j (by have below : j < i + 1 := less; omega) none_
    · show m.finished = List.map _ (List.filter _ m.reaped)
      rw [silent, noneReaped]
      rfl

/-- `wait` returns a child that has ended, or `-1` when none is left. -/
theorem LaunchKept.wait {next : LaunchStage} (kept : LaunchKept numberApps killSlow m) (which : Nat)
    (swept : next.swept numberApps killSlow = m.stage.swept numberApps killSlow)
    (waits : next.waits numberApps = m.stage.waits numberApps + 1)
    (bounded : next.Bounded numberApps killSlow) (born : ∀ i, next ≠ .forking i)
    (forkedTo : next.forkedTo numberApps = m.stage.forkedTo numberApps) :
    LaunchKept numberApps killSlow (m.wait numberApps which next) := by
  obtain ⟨sweptKept, killedKept, missedKept⟩ := kept.sweep
  rw [← swept] at sweptKept killedKept missedKept
  unfold LaunchMain.wait
  split
  · rename_i how here
    have someChild := LaunchMain.forked_of_some here
    have forked := LaunchMain.setChild_forked (.reaped how) someChild
    have unreaped := kept.children.notMem_reaped here rfl
    obtain ⟨count, reported⟩ := kept.waits_of_child here rfl
    obtain ⟨inRange, positive⟩ := kept.children.forked which someChild
    refine ⟨⟨fun j some => kept.children.forked j ((forked j).mp some),
        fun j k first second =>
          kept.children.distinct j k ((forked j).mp first) ((forked k).mp second),
        fun j => ?_, ?_⟩,
      ⟨fun j small s member => ?_, fun j s member => ?_, missedKept⟩, bounded,
      fun j same => absurd same (born j), fun j small none_ => ?_,
      fun j same => Or.inr ⟨which, ?_, rfl⟩, 0, ?_, fun never => absurd never (Nat.lt_irrefl 0),
      LaunchMain.reports_zero_iff.mpr ?_⟩
    · show j ∈ m.reaped ++ [which] ↔ _
      rw [List.mem_append, List.mem_singleton]
      by_cases same : j = which
      · subst same
        rw [LaunchMain.setChild_own]
        exact iff_of_true (Or.inr rfl) ⟨_, rfl, rfl⟩
      · rw [LaunchMain.setChild_other same, or_iff_left same]
        exact kept.children.reaped j
    · exact kept.children.nodup.append (List.nodup_singleton which)
        (List.disjoint_singleton.mpr unreaped)
    · by_cases same : j = which
      · subst same
        rw [LaunchMain.setChild_own] at member
        rw [← Option.mem_some_iff.mp member]
        exact fun never => Bool.noConfusion never
      · rw [LaunchMain.setChild_other same] at member
        exact sweptKept j small s member
    · by_cases same : j = which
      · subst same
        rw [LaunchMain.setChild_own] at member
        rw [← Option.mem_some_iff.mp member]
        exact fun signalled => killedKept j (.ended how) here signalled
      · rw [LaunchMain.setChild_other same] at member
        exact killedKept j s member
    · exact kept.unforked j (lt_of_lt_of_eq small forkedTo)
        (not_not.mp ((forked j).not.mp (not_not.mpr none_)))
    · exact List.mem_append_right _ List.mem_cons_self
    · show next.waits numberApps = (m.reaped ++ [which]).length + 0
      rw [waits, count, List.length_append, List.length_singleton]
    · have before : (m.reaped.filter fun j =>
          ((m.setChild which (.reaped how)).child j = some (.reaped .exited) : Bool)) =
          m.reaped.filter fun j => m.child j = some (.reaped .exited) := by
        refine List.filter_congr fun j member => ?_
        have other : j ≠ which := fun same => unreaped (same ▸ member)
        rw [LaunchMain.setChild_other other]
      have own : (m.setChild which (.reaped how)).child which = some (.reaped how) :=
        LaunchMain.setChild_own ..
      show (if how.Exited then m.finished ++ [m.pids which] else m.finished) =
        List.map m.pids (List.filter (fun j =>
          ((m.setChild which (.reaped how)).child j = some (.reaped .exited) : Bool))
            (m.reaped ++ [which]))
      rw [List.filter_append, before, List.map_append, reported, LaunchMain.exits]
      cases how with
      | exited => simp [own, ChildEnd.Exited]
      | terminated => simp [own, ChildEnd.Exited]
      | aborted => simp [own, ChildEnd.Exited]
  · split
    swap
    · exact kept
    rename_i none_
    obtain ⟨failed, count, _, reports⟩ := kept.waits
    refine ⟨⟨kept.children.forked, kept.children.distinct, kept.children.reaped,
        kept.children.nodup⟩,
      ⟨sweptKept, killedKept, missedKept⟩, bounded,
      fun j same => absurd same (born j),
      fun j small => kept.unforked j (lt_of_lt_of_eq small forkedTo), fun _ _ => Or.inl rfl,
      failed + 1, ?_, fun _ => none_, ?_⟩
    · show next.waits numberApps = _
      rw [waits, count]
      rfl
    · unfold LaunchMain.Reports at reports
      show (if m.exited then m.finished ++ [-1] else m.finished) =
        m.exits ++ List.replicate (if m.exited then failed + 1 else 0) (-1)
      rw [reports]
      cases m.exited with
      | true => simp [List.replicate_succ']
      | false => simp

/-- The signal to the group of an app's child ends the child, if it is in there, and no other. -/
theorem LaunchKept.killpg_child (kept : LaunchKept numberApps killSlow m)
    (called : i < m.stage.forkedTo numberApps) (j : Nat) : (m.killpg (m.pids i)).child j =
      if j = i ∧ m.child i = some .grouped then some (.ended .terminated) else m.child j := by
  show (if m.pids j = m.pids i ∧ m.child j = some .grouped then some (.ended .terminated)
    else m.child j) = _
  by_cases same : j = i
  · rw [same]
    exact if_congr (and_congr_left fun _ => iff_of_true rfl rfl) rfl rfl
  · have others : ¬ (m.pids j = m.pids i ∧ m.child j = some .grouped) := by
      rintro ⟨pid, grouped⟩
      have forked := LaunchMain.forked_of_some grouped
      by_cases unforked : m.child i = none
      · have positive := (kept.children.forked j forked).2
        rw [pid, kept.unforked i called unforked] at positive
        exact absurd positive (by decide)
      · exact same (kept.children.distinct j i forked unforked pid)
    rw [if_neg others, if_neg fun both => same both.1]

/-- A turn of the loop that signals ends the child, if it has a group, and misses it, if it has none
yet. -/
theorem LaunchKept.signal (kept : LaunchKept numberApps killSlow m) (stage : m.stage = .killing i)
    (small : i < numberApps) {next : LaunchMain} (goes : next.stage = .killing (i + 1))
    (child : next.child = (m.killpg (m.pids i)).child) (pids : next.pids = m.pids)
    (wpid : next.wpid = m.wpid) (reaped : next.reaped = m.reaped)
    (finished : next.finished = m.finished) (exited : next.exited = m.exited)
    (missed : next.missed = if m.child i = some .forked then m.missed ++ [i] else m.missed) :
    LaunchKept numberApps killSlow next := by
  have bounded := kept.bounded
  obtain ⟨sweptKept, killedKept, missedKept⟩ := kept.sweep
  rw [stage] at bounded sweptKept killedKept missedKept
  have called : i < m.stage.forkedTo numberApps := by
    rw [stage]
    exact small
  have others (j : Nat) (other : j ≠ i) : next.child j = m.child j := by
    rw [child, kept.killpg_child called, if_neg fun both => other both.1]
  have forked (j : Nat) : next.child j = none ↔ m.child j = none := by
    rw [child, kept.killpg_child called]
    split
    · rename_i both
      rw [both.1, both.2]
      exact iff_of_false (Option.some_ne_none _) (Option.some_ne_none _)
    · exact Iff.rfl
  have missedBefore (j : Nat) (less : j < i) : j ∈ next.missed ↔ j ∈ m.missed := by
    rw [missed]
    split
    · rw [List.mem_append, List.mem_singleton, or_iff_left (Nat.ne_of_lt less)]
    · exact Iff.rfl
  have others' (j : Nat) (less : j < i) : next.child j = m.child j := others j (Nat.ne_of_lt less)
  have exits : next.exits = m.exits := by
    unfold LaunchMain.exits
    rw [reaped, pids]
    refine congrArg (List.map m.pids) (List.filter_congr fun j _ => ?_)
    rw [child, kept.killpg_child called]
    split
    · rename_i both
      rw [both.1, both.2]
      rfl
    · rfl
  have waits : ∃ failed, (LaunchStage.killing (i + 1)).waits numberApps =
      next.reaped.length + failed ∧ (0 < failed → next.Childless numberApps) ∧
        next.Reports failed := by
    obtain ⟨failed, count, childless, reports⟩ := kept.waits
    rw [stage] at count
    refine ⟨failed, by rw [reaped]; exact count, fun some j inRange s member => ?_, ?_⟩
    · rw [child, kept.killpg_child called] at member
      split at member
      · rename_i both
        have done := childless some i small _ both.2
        cases done
      · exact childless some j inRange s member
    · unfold LaunchMain.Reports
      rw [finished, exits, exited]
      exact reports
  have children : ChildrenKept numberApps next := by
    by_cases grouped : m.child i = some .grouped
    · refine (kept.children.setChild (.ended .terminated) grouped rfl rfl).congr ?_ pids reaped
      funext j
      by_cases same : j = i
      · rw [same, child, kept.killpg_child called, if_pos ⟨rfl, grouped⟩, LaunchMain.setChild_own]
      · rw [others j same, LaunchMain.setChild_other same]
    · refine kept.children.congr ?_ pids reaped
      funext j
      rw [child, kept.killpg_child called, if_neg fun both => grouped both.2]
  refine ⟨children, ⟨fun j less s member running => ?_, fun j s member done => ?_,
    fun j member => ?_⟩, ?_, fun j same => ?_, fun j _ none_ => ?_, fun j _ => ?_, goes ▸ waits⟩
  · rw [goes] at less
    rcases Nat.lt_succ_iff_lt_or_eq.mp less with earlier | rfl
    · rw [others' j earlier] at member
      exact (missedBefore j earlier).mpr (sweptKept j earlier s member running)
    · rw [child, kept.killpg_child called] at member
      split at member
      · rw [← Option.mem_some_iff.mp member] at running
        cases running
      · rename_i apart
        have here : m.child j = some s := Option.mem_def.mp member
        cases s with
        | forked =>
          rw [missed, if_pos here]
          exact List.mem_append_right _ List.mem_cons_self
        | grouped => exact absurd ⟨rfl, here⟩ apart
        | ended how => cases running
        | reaped how => cases running
  · rw [goes]
    by_cases same : j = i
    · subst same
      refine ⟨Nat.lt_succ_self j, fun inside => ?_⟩
      rw [missed] at inside
      split at inside
      · rename_i here
        rw [child, kept.killpg_child called, here] at member
        rw [if_neg fun both => absurd both.2 (by decide)] at member
        rw [← Option.mem_some_iff.mp member] at done
        cases done
      · exact Nat.lt_irrefl j (missedKept j inside)
    · rw [others j same] at member
      obtain ⟨less, apart⟩ := killedKept j s member done
      exact ⟨Nat.lt_succ_of_lt less, fun inside => apart ((missedBefore j less).mp inside)⟩
  · rw [goes]
    rw [missed] at member
    split at member
    · rcases List.mem_append.mp member with before | here
      · exact Nat.lt_succ_of_lt (missedKept j before)
      · rw [List.mem_singleton.mp here]
        exact Nat.lt_succ_self i
    · exact Nat.lt_succ_of_lt (missedKept j member)
  · rw [goes]
    exact ⟨small, bounded.2⟩
  · rw [goes] at same
    cases same
  · rw [pids]
    refine kept.unforked j ?_ ((forked j).mp none_)
    rw [stage]
    rw [goes] at *
    assumption
  · rw [wpid, reaped, pids]
    exact kept.first i stage

/-- The turn of the child that was waited for first. -/
theorem LaunchKept.skip (kept : LaunchKept numberApps killSlow m) (stage : m.stage = .killing i)
    (small : i < numberApps) (first : m.pids i = m.wpid) :
    LaunchKept numberApps killSlow { m with stage := .killing (i + 1) } := by
  have bounded := kept.bounded
  obtain ⟨swept, killed, missed⟩ := kept.sweep
  rw [stage] at bounded swept killed missed
  obtain ⟨failed, count, childless, reports⟩ := kept.waits
  rw [stage] at count
  refine ⟨{ kept.children with }, ⟨fun j less s member running => ?_, fun j s member done => ?_,
    fun j member => ?_⟩, ⟨small, bounded.2⟩, fun j same => (by cases same),
    fun j _ => kept.unforked j (by rw [stage]; assumption), fun j _ => kept.first i stage, failed,
    count, childless, reports⟩
  · rcases Nat.lt_succ_iff_lt_or_eq.mp less with earlier | rfl
    · exact swept j earlier s member running
    · -- It has been waited for, so that it does not run.
      have forked := LaunchMain.forked_of_some (Option.mem_def.mp member)
      rcases kept.first j stage with none_ | ⟨f, inside, same⟩
      · have positive := (kept.children.forked j forked).2
        rw [first, none_] at positive
        exact absurd positive (by decide)
      · obtain ⟨s', there, done⟩ := (kept.children.reaped f).mp inside
        have forkedFirst := LaunchMain.forked_of_some (Option.mem_def.mp there)
        have isFirst : j = f := kept.children.distinct j f forked forkedFirst (first.trans same)
        rw [isFirst, Option.mem_def.mp there] at member
        rw [Option.mem_some_iff.mp member, ChildStage.Running.notReaped running] at done
        cases done
  · obtain ⟨less, apart⟩ := killed j s member done
    exact ⟨Nat.lt_succ_of_lt less, apart⟩
  · exact Nat.lt_succ_of_lt (missed j member)

/-- A turn of the loop that signals. -/
theorem LaunchKept.kill (kept : LaunchKept numberApps killSlow m) (stage : m.stage = .killing i)
    (small : i < numberApps) : LaunchKept numberApps killSlow (m.kill i) := by
  unfold LaunchMain.kill
  split
  · rename_i first
    exact kept.skip stage small first
  · exact kept.signal stage small rfl rfl rfl rfl rfl rfl rfl rfl

/-- Every event keeps the invariant. -/
theorem LaunchKept.step (kept : LaunchKept numberApps killSlow m) (someApp : 0 < numberApps)
    {event : LaunchEvent} (fresh : event.Fresh m) :
    LaunchKept numberApps killSlow (launchStep numberApps killSlow m event) := by
  cases event with
  | setpgid i =>
    unfold launchStep
    dsimp only
    split
    · rename_i here
      exact kept.advance here rfl rfl rfl
    · exact kept
  | abort i =>
    unfold launchStep
    dsimp only
    split
    · rename_i here
      exact kept.advance here rfl rfl rfl
    · exact kept
  | exit i =>
    unfold launchStep
    dsimp only
    split
    · rename_i here
      exact kept.advance here rfl rfl rfl
    · exact kept
  | parent answer =>
    show LaunchKept numberApps killSlow (m.parent numberApps killSlow answer)
    unfold LaunchMain.parent
    cases stage : m.stage with
    | forking i =>
      dsimp only
      unfold LaunchEvent.Fresh at fresh
      rw [stage] at fresh
      split
      · rename_i small
        exact kept.fork stage small fresh
      · rename_i done
        refine kept.goto (by rw [stage]; rfl) (by rw [stage]; rfl) trivial (by simp) ?_ (by simp)
        rw [stage]
        exact not_lt.mp done
    | waitFirst =>
      dsimp only
      cases killSlow with
      | true =>
        exact kept.wait answer.child (by rw [stage]; rfl) (by rw [stage]; rfl)
          ⟨Nat.zero_le _, rfl⟩ (by simp) (by rw [stage]; rfl)
      | false =>
        exact kept.wait answer.child (by rw [stage]; rfl) (by rw [stage]; rfl) someApp (by simp)
          (by rw [stage]; rfl)
    | killing i =>
      dsimp only
      have bounded := kept.bounded
      rw [stage] at bounded
      split
      · rename_i small
        exact kept.kill stage small
      · rename_i done
        refine kept.goto ?_ (by rw [stage]; rfl) someApp (by simp) (by rw [stage]; exact le_rfl)
          (by simp)
        rw [stage]
        show (if killSlow = true then numberApps else 0) = i
        rw [if_pos bounded.2]
        exact Nat.le_antisymm (not_lt.mp done) bounded.1
    | waitRest i =>
      dsimp only
      have bounded := kept.bounded
      rw [stage] at bounded
      split
      · rename_i small
        exact kept.wait answer.child (by rw [stage]; rfl) (by rw [stage]; rfl)
          (show i + 1 + 1 ≤ numberApps by omega) (by simp) (by rw [stage]; rfl)
      · rename_i done
        refine kept.goto (by rw [stage]; rfl) ?_ trivial (by simp) (by rw [stage]; exact le_rfl)
          (by simp)
        rw [stage]
        show numberApps = i + 1
        have within : i + 1 ≤ numberApps := bounded
        omega
    | returned => exact kept

theorem launchStart_kept (numberApps : Nat) (killSlow garbage : Bool) :
    LaunchKept numberApps killSlow (launchStart garbage) where
  children :=
    { forked := fun i forked => absurd rfl forked
      distinct := fun i j forked => absurd rfl forked
      reaped := fun i => iff_of_false List.not_mem_nil (by rintro ⟨s, member, _⟩; cases member)
      nodup := List.nodup_nil }
  sweep :=
    { swept := fun i less => absurd less (Nat.not_lt_zero i)
      killed := fun i s member => (by cases member)
      missed := fun i member => absurd member List.not_mem_nil }
  bounded := trivial
  born _ _ _ _ := rfl
  unforked i less := absurd less (Nat.not_lt_zero i)
  first i same := by cases same
  waits := ⟨0, rfl, fun never => absurd never (Nat.lt_irrefl 0),
    LaunchMain.reports_zero_iff.mpr rfl⟩

/-- After as many `wait`s as there are apps no child is left: they are all in the list, or one of
the calls has found none. -/
theorem LaunchKept.childless (kept : LaunchKept numberApps killSlow m)
    (returned : m.stage = .returned) : m.Childless numberApps := by
  obtain ⟨failed, count, childless, _⟩ := kept.waits
  rw [returned] at count
  have total : numberApps = m.reaped.length + failed := count
  rcases Nat.eq_zero_or_pos failed with none_ | some
  · intro j small s member
    have inside : m.reaped ⊆ List.range numberApps := by
      intro i reaped
      obtain ⟨s, member, _⟩ := (kept.children.reaped i).mp reaped
      exact List.mem_range.mpr
        (kept.children.forked i (LaunchMain.forked_of_some (Option.mem_def.mp member))).1
    have all : List.range numberApps ⊆ m.reaped := by
      refine List.Subperm.subset (List.Perm.subperm ?_)
      refine (List.Subperm.perm_of_length_le (kept.children.nodup.subperm inside) ?_).symm
      rw [List.length_range]
      omega
    obtain ⟨s', member', done⟩ := (kept.children.reaped j).mp (all (List.mem_range.mpr small))
    rw [Option.mem_unique member member']
    exact done
  · exact childless some

end Kept

/-! ### What `launch` waits for and signals -/

/-- What is accepted has an app. -/
theorem parseArguments_pos {keyword : List Char} {argv : List (List Char)} {numberApps : Nat}
    {apps : Nat → StructApp} (accepted : parseArguments keyword argv = some (numberApps, apps)) :
    0 < numberApps := by
  unfold parseArguments at accepted
  split at accepted
  · cases accepted
  · rename_i code killSlow options
    split at accepted
    · cases accepted
    · obtain ⟨taken, given, same⟩ := Option.map_eq_some_iff.mp accepted
      obtain ⟨parts, last, divides, _⟩ := divides_of_getApps given
      have count : countNumApps keyword killSlow argv = numberApps := congrArg Prod.fst same
      rw [← count, countNumApps_eq divides, List.length_append]
      exact Nat.succ_pos _

/-- In every run of an accepted command line. The children are waited for each once, and no child
is left when `main` returns; its messages name those that exited, in the order they were waited
for, and then, if the last status is that of an exit, `-1` for each `wait` that found no child.
Without `-k` the signal ends no child. With it, once the signals are sent, a child runs only if
it had no group yet when its group was signalled, and such a child is not ended by the signal. -/
theorem launch_main_waits (keyword : List Char) (argv : List (List Char)) {numberApps : Nat}
    {apps : Nat → StructApp} (accepted : parseArguments keyword argv = some (numberApps, apps))
    (killSlow garbage : Bool) (events : List LaunchEvent)
    (fresh : Exec.Meets (launchStep numberApps killSlow) LaunchEvent.Fresh (launchStart garbage)
      events) :
    let m := Exec.run (launchStep numberApps killSlow) (launchStart garbage) events
    m.reaped.Nodup ∧
      (m.stage = .returned → (∀ i, m.child i ≠ none → i ∈ m.reaped) ∧
        m.finished = m.exits ++
          List.replicate (if m.exited then numberApps - m.reaped.length else 0) (-1)) ∧
      (∀ i, ∀ stage ∈ m.child i, stage.Killed = true → killSlow = true ∧ i ∉ m.missed) ∧
      (killSlow = true → (m.stage = .returned ∨ ∃ i, m.stage = .waitRest i) →
        ∀ i, ∀ stage ∈ m.child i, stage.Running = true → i ∈ m.missed) := by
  intro m
  have someApp := parseArguments_pos accepted
  have kept : LaunchKept numberApps killSlow m := Exec.run_invariant (LaunchKept numberApps killSlow)
    (fun _ _ kept fresh => kept.step someApp fresh) (launchStart_kept numberApps killSlow garbage)
    fresh
  refine ⟨kept.children.nodup, fun returned => ⟨fun i forked => ?_, ?_⟩,
    fun i s member signalled => ?_, fun on sent i s member running => ?_⟩
  · obtain ⟨s, here⟩ := Option.ne_none_iff_exists'.mp forked
    exact (kept.children.reaped i).mpr
      ⟨s, here, kept.childless returned i (kept.children.forked i forked).1 s here⟩
  · obtain ⟨failed, count, _, reports⟩ := kept.waits
    rw [returned] at count
    have total : numberApps = m.reaped.length + failed := count
    rw [total, Nat.add_sub_cancel_left]
    exact reports
  · obtain ⟨less, apart⟩ := kept.sweep.killed i s member signalled
    refine ⟨?_, apart⟩
    have bounded := kept.bounded
    cases stage : m.stage with
    | killing j =>
      rw [stage] at bounded
      exact bounded.2
    | forking j =>
      rw [stage] at less
      exact absurd less (Nat.not_lt_zero i)
    | waitFirst =>
      rw [stage] at less
      exact absurd less (Nat.not_lt_zero i)
    | waitRest j =>
      rw [stage] at less
      by_contra off
      exact absurd (show i < if killSlow = true then numberApps else 0 from less) (by simp [off])
    | returned =>
      rw [stage] at less
      by_contra off
      exact absurd (show i < if killSlow = true then numberApps else 0 from less) (by simp [off])
  · refine kept.sweep.swept i ?_ s member running
    have small := (kept.children.forked i
      (LaunchMain.forked_of_some (Option.mem_def.mp member))).1
    rcases sent with returned | ⟨j, rest⟩
    · rw [returned]
      show i < if killSlow = true then numberApps else 0
      rw [if_pos on]
      exact small
    · rw [rest]
      show i < if killSlow = true then numberApps else 0
      rw [if_pos on]
      exact small

/-- `launch -k core 1 ls core 2 ls`: the first child exits before the second one has made its group;
the signal misses the second one, which `main` waits for all the same. -/
theorem launch_main_waits_missed :
    let m := Exec.run (launchStep 2 true) (launchStart false)
      [.parent ⟨7, 0⟩, .parent ⟨8, 0⟩, .parent ⟨-1, 0⟩, .setpgid 0, .exit 0, .parent ⟨0, 0⟩,
        .parent ⟨0, 0⟩, .parent ⟨0, 0⟩, .parent ⟨0, 0⟩, .setpgid 1, .exit 1, .parent ⟨0, 1⟩,
        .parent ⟨0, 0⟩]
    m.killing = [8] ∧ m.missed = [1] ∧ m.child 1 = some (.reaped .exited) ∧
      (∀ i, m.child i ≠ none → i ∈ m.reaped) := by
  obtain ⟨apps, accepted⟩ : ∃ apps, parseArguments ['c', 'o', 'r', 'e']
      [['l', 'a', 'u', 'n', 'c', 'h'], ['-', 'k'], ['c', 'o', 'r', 'e'], ['1'], ['l', 's'],
        ['c', 'o', 'r', 'e'], ['2'], ['l', 's']] = some (2, apps) := ⟨_, rfl⟩
  have waits := launch_main_waits _ _ accepted true false
    [.parent ⟨7, 0⟩, .parent ⟨8, 0⟩, .parent ⟨-1, 0⟩, .setpgid 0, .exit 0, .parent ⟨0, 0⟩,
      .parent ⟨0, 0⟩, .parent ⟨0, 0⟩, .parent ⟨0, 0⟩, .setpgid 1, .exit 1, .parent ⟨0, 1⟩,
      .parent ⟨0, 0⟩] (by decide)
  exact ⟨by decide, by decide, by decide, (waits.2.1 (by decide)).1⟩

end Seeker
