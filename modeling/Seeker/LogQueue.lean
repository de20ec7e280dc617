/-
This file embeds the queue of `log.c` with each access to a shared pointer as a step
of its own.

Writers take a lock and append at `current_log`; the one reader takes no lock and
consumes at `start_log`. The reader never consumes the block `current_log` points to,
and the first block holds no entry: the first read discards it. The file proves that
what the reads return is what was put, in order and each entry once, that no access
goes to a dead block, and that closing the queue down releases every block that is
left.

Memory comes from an allocator that may use an address again. A pointer remembers the
allocation it came from, so that a use after a release is noticed even then. `log_cachep`
is set by `log_init` for good and is left out.
-/
import Mathlib.Tactic.Common
import Seeker.Globals
import Seeker.Library.Exec
import Seeker.Library.LinkedHeap

namespace Seeker

open LinkedHeap

/-! ### The calls in progress -/

/-- `struct log_block`. -/
abbrev LogBlock := Block LogEntry

/-- `sizeof(log_t)`. -/
def sizeofLogT : Nat := 88

/-- A write to the `next` of a block. -/
def setNext (next : Option Pointer) (block : LogBlock) : LogBlock := { block with next := next }

/-- A write to the `entry` of a block. -/
def setEntry (entry : LogEntry) (block : LogBlock) : LogBlock := { block with value := entry }

/-- The next step of a writer that holds `log_lock`: in `get_log` up to `clearNext`, in its caller
at `fill`, and then in `put_log`. -/
inductive WriteStage where
  | check
  | alloc
  | clearNext (p : Pointer)
  | fill (p : Pointer)
  | put (p : Pointer)
  | link (p : Pointer) (last : Option Pointer)
  | advance (p : Pointer)
  | unlock
  deriving DecidableEq

/-- The writer that holds `log_lock`. -/
structure LogHolder where
  writer : Nat
  stage : WriteStage
  deriving DecidableEq

/-- The next step of `seeker_log_read`, with the pointers it has loaded: the tests at its start,
the removal of a block, where `discard` marks that of the first block, and the loop. -/
inductive ReadStage where
  | testStart
  | loadStart
  | compare (start : Option Pointer)
  | testFirst
  | loadHead
  | testHead (start : Option Pointer)
  | saveLog (discard : Bool)
  | loadAdvance (discard : Bool) (log : Option Pointer)
  | loadNext (discard : Bool) (log start : Option Pointer)
  | storeStart (discard : Bool) (log next : Option Pointer)
  | free (discard : Bool) (log : Option Pointer)
  | clearFirst
  | testRoom
  | loadNextTest
  | testNext (start : Option Pointer)
  | loadEndTest
  | testEnd (start : Option Pointer)
  | loadCopy
  | copy (start : Option Pointer)

/-- A read in progress: `count` and `i` of the source, whether `buf` and `file_ptr` are not null,
the entries it has copied, and whether no `put_log` has run since its call. -/
structure LogRead where
  buffer : Bool
  count : Nat
  i : Int
  entries : List LogEntry
  quiet : Bool
  stage : ReadStage

/-- A read that has returned, with the entries put and not delivered at that time. -/
structure LogResult where
  buffer : Bool
  count : Nat
  returned : Int
  entries : List LogEntry
  quiet : Bool
  left : List LogEntry

/-- The bytes a read has left of its buffer; there are none where there is no buffer. -/
def LogResult.room (result : LogResult) : Int :=
  if result.buffer then result.count - result.returned else 0

/-- What must not happen to a block. -/
inductive LogFault where
  | accessedDead
  | freedTwice
  | freedCurrent
  deriving DecidableEq

/-- The globals of `log.c`, the allocator's memory, the writers that wait for the lock, and the
read in progress. `puts`, `delivered`, `results` and `faults` are what the run remembers. -/
structure LogQueue where
  heap : Heap LogEntry
  allocations : Nat
  startLog : Option Pointer
  currentLog : Option Pointer
  firstRead : Bool
  devOpen : Bool
  devCreated : Bool
  lock : Option LogHolder
  spinning : Nat → Bool
  reader : Option LogRead
  puts : List LogEntry
  delivered : List LogEntry
  results : List LogResult
  faults : List LogFault

/-- `log_init`, with the first block at an address. -/
def logInit (address : Nat) (garbage : LogEntry) : LogQueue where
  heap := store (fun _ => none) ⟨address, 0⟩ ⟨none, garbage⟩
  allocations := 1
  startLog := some ⟨address, 0⟩
  currentLog := some ⟨address, 0⟩
  firstRead := true
  devOpen := false
  devCreated := true
  lock := none
  spinning _ := false
  reader := none
  puts := []
  delivered := []
  results := []
  faults := []

/-! ### Accesses -/

/-- Something has gone wrong. -/
def LogQueue.fault (what : LogFault) (q : LogQueue) : LogQueue :=
  { q with faults := q.faults ++ [what] }

/-- The block behind a pointer. -/
def LogQueue.load (q : LogQueue) (pointer : Option Pointer) : Option LogBlock :=
  pointer.bind (deref q.heap)

/-- A write through a pointer. -/
def LogQueue.write (pointer : Option Pointer) (change : LogBlock → LogBlock) (q : LogQueue) :
    LogQueue :=
  match pointer with
  | none => q.fault .accessedDead
  | some p =>
    match deref q.heap p with
    | none => q.fault .accessedDead
    | some block => { q with heap := store q.heap p (change block) }

/-- Pointers are compared by their addresses. -/
def samePointer (first second : Option Pointer) : Bool :=
  first.map Pointer.address = second.map Pointer.address

/-- `log_free`. -/
def logFree (pointer : Option Pointer) (q : LogQueue) : LogQueue :=
  match pointer with
  | none => q
  | some p =>
    match deref q.heap p with
    | none => q.fault .freedTwice
    | some _ =>
      let q := if samePointer (some p) q.currentLog then q.fault .freedCurrent else q
      { q with heap := release q.heap p }

/-! ### The writers -/

/-- The holder of the lock goes on to its next step. -/
def LogQueue.hold (holder : LogHolder) (stage : WriteStage) (q : LogQueue) : LogQueue :=
  { q with lock := some { holder with stage := stage } }

/-- A `put_log` runs beside the read. -/
def LogRead.disturb (r : LogRead) : LogRead := { r with quiet := false }

/-- The holder of the lock releases it. -/
def LogQueue.unlocked (q : LogQueue) : LogQueue := { q with lock := none }

/-- One step of the writer that holds the lock. `memory` is the allocator's answer, an address that
is not in use and what its memory holds, and `entry` is what the writer fills in. -/
def writeStep (memory : Option (Nat × LogBlock)) (entry : LogEntry) (holder : LogHolder)
    (q : LogQueue) : LogQueue :=
  match holder.stage with
  | .check => if q.devOpen = false ∨ q.currentLog = none then q.unlocked else q.hold holder .alloc
  | .alloc =>
    match memory with
    | none => q.unlocked
    | some (address, garbage) =>
      match q.heap address with
      | some _ => q
      | none =>
        let p : Pointer := ⟨address, q.allocations⟩
        ({ q with heap := store q.heap p garbage, allocations := q.allocations + 1 }).hold holder
          (.clearNext p)
  | .clearNext p => (q.write (some p) (setNext none)).hold holder (.fill p)
  | .fill p => (q.write (some p) (setEntry entry)).hold holder (.put p)
  | .put p =>
    match deref q.heap p with
    | none => q.fault .accessedDead
    | some block =>
      ({ q with
        puts := q.puts ++ [block.value]
        reader := q.reader.map LogRead.disturb }).hold holder (.link p q.currentLog)
  | .link p last => (q.write last (setNext (some p))).hold holder (.advance p)
  | .advance p => ({ q with currentLog := some p }).hold holder .unlock
  | .unlock => q.unlocked

/-- A `put_log` is in progress. -/
def putting : Option LogHolder → Bool
  | some ⟨_, .link _ _⟩ => true
  | some ⟨_, .advance _⟩ => true
  | some ⟨_, .unlock⟩ => true
  | _ => false

/-! ### The reader -/

/-- The read goes on to its next step. -/
def LogQueue.goto (r : LogRead) (stage : ReadStage) (q : LogQueue) : LogQueue :=
  { q with reader := some { r with stage := stage } }

/-- The read returns. -/
def LogQueue.finish (r : LogRead) (returned : Int) (q : LogQueue) : LogQueue :=
  { q with
    reader := none
    results := q.results ++
      [⟨r.buffer, r.count, returned, r.entries, r.quiet, q.puts.drop q.delivered.length⟩] }

/-- A read of the block behind a pointer. -/
def LogQueue.access (pointer : Option Pointer) (go : LogBlock → LogQueue) (q : LogQueue) :
    LogQueue :=
  match q.load pointer with
  | none => { q.fault .accessedDead with reader := none }
  | some block => go block

/-- One step of `seeker_log_read`. -/
def readStep (r : LogRead) (q : LogQueue) : LogQueue :=
  match r.stage with
  | .testStart =>
    if q.startLog = none ∨ r.buffer = false then q.finish r 0 else q.goto r .loadStart
  | .loadStart => q.goto r (.compare q.startLog)
  | .compare start => if samePointer start q.currentLog then q.finish r 0 else q.goto r .testFirst
  | .testFirst => if q.firstRead then q.goto r .loadHead else q.goto r .testRoom
  | .loadHead => q.goto r (.testHead q.startLog)
  | .testHead start =>
    q.access start fun block =>
      if block.next = none then q.finish r 0 else q.goto r (.saveLog true)
  | .saveLog discard => q.goto r (.loadAdvance discard q.startLog)
  | .loadAdvance discard log => q.goto r (.loadNext discard log q.startLog)
  | .loadNext discard log start =>
    q.access start fun block => q.goto r (.storeStart discard log block.next)
  | .storeStart discard log next => ({ q with startLog := next }).goto r (.free discard log)
  | .free discard log =>
    if discard then (logFree log q).goto r .clearFirst
    else (logFree log q).goto { r with i := int32 (r.i + sizeofLogT) } .testRoom
  | .clearFirst => ({ q with firstRead := false }).goto r .testRoom
  | .testRoom =>
    if (r.i + sizeofLogT) % 2 ^ 64 ≤ r.count then q.goto r .loadNextTest else q.finish r r.i
  | .loadNextTest => q.goto r (.testNext q.startLog)
  | .testNext start =>
    q.access start fun block =>
      if block.next = none then q.finish r r.i else q.goto r .loadEndTest
  | .loadEndTest => q.goto r (.testEnd q.startLog)
  | .testEnd start => if samePointer start q.currentLog then q.finish r r.i else q.goto r .loadCopy
  | .loadCopy => q.goto r (.copy q.startLog)
  | .copy start =>
    q.access start fun block =>
      ({ q with delivered := q.delivered ++ [block.value] }).goto
        { r with entries := r.entries ++ [block.value] } (.saveLog false)

/-! ### Runs -/

/-- A writer calls `get_log` and reads `current_log`; a waiting writer takes the lock; the holder of
the lock makes a step; the device is opened or closed; a read is called or makes a step. -/
inductive LogEvent where
  | getLog (writer : Nat)
  | acquire (writer : Nat)
  | write (memory : Option (Nat × LogBlock)) (entry : LogEntry)
  | seekerLogOpen
  | seekerLogClose
  | seekerLogRead (buffer : Bool) (count : Nat)
  | read

/-- One event. -/
def logStep (q : LogQueue) : LogEvent → LogQueue
  | .getLog writer =>
    if q.currentLog = none ∨ q.lock.map LogHolder.writer = some writer then q
    else { q with spinning := Function.update q.spinning writer true }
  | .acquire writer =>
    match q.lock with
    | some _ => q
    | none =>
      if q.spinning writer then
        { q with
          spinning := Function.update q.spinning writer false
          lock := some ⟨writer, .check⟩ }
      else q
  | .write memory entry =>
    match q.lock with
    | none => q
    | some holder => writeStep memory entry holder q
  | .seekerLogOpen => { q with devOpen := true }
  | .seekerLogClose => { q with devOpen := false }
  | .seekerLogRead buffer count =>
    match q.reader with
    | some _ => q
    | none => { q with reader := some ⟨buffer, count, 0, [], !putting q.lock, .testStart⟩ }
  | .read =>
    match q.reader with
    | none => q
    | some r => readStep r q

/-- The counts of the reads are below `2 ^ 31`. -/
def LogEvent.Small (_ : LogQueue) : LogEvent → Prop
  | .seekerLogRead _ count => count < 2 ^ 31
  | _ => True

instance smallDecidable (q : LogQueue) : ∀ event : LogEvent, Decidable (event.Small q)
  | .seekerLogRead _ count => inferInstanceAs (Decidable (count < 2 ^ 31))
  | .getLog _ => isTrue trivial
  | .acquire _ => isTrue trivial
  | .write _ _ => isTrue trivial
  | .seekerLogOpen => isTrue trivial
  | .seekerLogClose => isTrue trivial
  | .read => isTrue trivial

/-! ### The end -/

/-- The loop of `purge_log`, at most `fuel` times. -/
def purgeLoop : Nat → Option Pointer → LogQueue → LogQueue
  | 0, _, q => q
  | _ + 1, none, q => q
  | fuel + 1, some c1, q =>
    match deref q.heap c1 with
    | none => q.fault .accessedDead
    | some block => purgeLoop fuel block.next (logFree (some c1) q)

/-- `purge_log`. -/
def purgeLog (fuel : Nat) (q : LogQueue) : LogQueue :=
  if q.startLog = none ∨ q.currentLog = none then q
  else purgeLoop fuel q.startLog { q with startLog := none, currentLog := none }

/-- `log_exit`. -/
def logExit (fuel : Nat) (q : LogQueue) : LogQueue :=
  let q := { q with devOpen := false }
  if q.devCreated then { purgeLog fuel q with devCreated := false } else q

/-! ### What the queue consists of -/

/-- The blocks from `start_log` on: those before the one `current_log` points to, that one, and
one that is linked behind it and not yet current. `linking` is the entry of a block that a
`put_log` is about to link. -/
structure LogLayout where
  before : List (Pointer × LogEntry)
  current : Pointer × LogEntry
  after : List (Pointer × LogEntry)
  linking : List LogEntry

/-- The blocks in their order. -/
def LogLayout.nodes (l : LogLayout) : List (Pointer × LogEntry) :=
  l.before ++ l.current :: l.after

/-- The block the writer has allocated and not linked. -/
def spare : Option LogHolder → List Pointer
  | some ⟨_, .clearNext p⟩ => [p]
  | some ⟨_, .fill p⟩ => [p]
  | some ⟨_, .put p⟩ => [p]
  | some ⟨_, .link p _⟩ => [p]
  | _ => []

/-- The block the reader has unlinked and not freed. -/
def ReadStage.held : ReadStage → List Pointer
  | .free _ log => log.toList
  | _ => []

/-- The first block of the queue holds no entry that is to be delivered: it is the one `log_init`
made, or its entry has been copied. -/
def ReadStage.taken (firstRead : Bool) : ReadStage → Bool
  | .saveLog _ => true
  | .loadAdvance _ _ => true
  | .loadNext _ _ _ => true
  | .storeStart _ _ _ => true
  | .free _ _ => false
  | .clearFirst => false
  | _ => firstRead

/-- The entries of the blocks that are to be delivered. -/
def queued (taken : Bool) (nodes : List (Pointer × LogEntry)) : List LogEntry :=
  (if taken then nodes.tail else nodes).map Prod.snd

/-- What the writer that holds the lock has done. -/
def WriterKept (heap : Heap LogEntry) (l : LogLayout) : Option LogHolder → Prop
  | some ⟨_, .fill p⟩ =>
    l.after = [] ∧ l.linking = [] ∧ ∃ entry, deref heap p = some ⟨none, entry⟩
  | some ⟨_, .put p⟩ =>
    l.after = [] ∧ l.linking = [] ∧ ∃ entry, deref heap p = some ⟨none, entry⟩
  | some ⟨_, .link p last⟩ =>
    l.after = [] ∧ last = some l.current.1 ∧
      ∃ entry, l.linking = [entry] ∧ deref heap p = some ⟨none, entry⟩
  | some ⟨_, .advance p⟩ => l.linking = [] ∧ ∃ entry, l.after = [(p, entry)]
  | _ => l.after = [] ∧ l.linking = []

/-- What the reader has found out. It has passed the tests on `current_log` only if there is a
block before it, and no writer takes such a block away. -/
def ReadStage.Kept (start : Option Pointer) (firstRead : Bool) (l : LogLayout) :
    ReadStage → Prop
  | .testStart => True
  | .loadStart => True
  | .compare s => s = start
  | .testFirst => l.before ≠ []
  | .loadHead => l.before ≠ [] ∧ firstRead = true
  | .testHead s => l.before ≠ [] ∧ firstRead = true ∧ s = start
  | .saveLog discard => l.before ≠ [] ∧ firstRead = discard
  | .loadAdvance discard log => l.before ≠ [] ∧ firstRead = discard ∧ log = start
  | .loadNext discard log s => l.before ≠ [] ∧ firstRead = discard ∧ log = start ∧ s = start
  | .storeStart discard log next =>
    l.before ≠ [] ∧ firstRead = discard ∧ log = start ∧ next = l.nodes.tail.head?.map Prod.fst
  | .free discard log => firstRead = discard ∧ log.isSome
  | .clearFirst => firstRead = true
  | .testRoom => firstRead = false
  | .loadNextTest => firstRead = false
  | .testNext s => firstRead = false ∧ s = start
  | .loadEndTest => firstRead = false
  | .testEnd s => firstRead = false ∧ s = start
  | .loadCopy => l.before ≠ [] ∧ firstRead = false
  | .copy s => l.before ≠ [] ∧ firstRead = false ∧ s = start

/-- The bytes that are copied and not yet counted in `i`. -/
def ReadStage.uncounted : ReadStage → Nat
  | .saveLog false => sizeofLogT
  | .loadAdvance false _ => sizeofLogT
  | .loadNext false _ _ => sizeofLogT
  | .storeStart false _ _ => sizeofLogT
  | .free false _ => sizeofLogT
  | _ => 0

/-- The read has found room for one more entry. -/
def ReadStage.roomy : ReadStage → Bool
  | .loadNextTest => true
  | .testNext _ => true
  | .loadEndTest => true
  | .testEnd _ => true
  | .loadCopy => true
  | .copy _ => true
  | _ => false

/-- The read may still return the `0` of the first tests. -/
def ReadStage.opening : ReadStage → Bool
  | .testStart => true
  | .loadStart => true
  | .compare _ => true
  | .testFirst => true
  | .loadHead => true
  | .testHead _ => true
  | _ => false

/-- The bytes of a read. -/
structure LogRead.Counted (r : LogRead) : Prop where
  small : r.count < 2 ^ 31
  nonneg : 0 ≤ r.i
  bytes : r.i + r.stage.uncounted = sizeofLogT * r.entries.length
  bound : r.i + r.stage.uncounted ≤ r.count
  room : r.stage.roomy = true → r.i + sizeofLogT ≤ r.count
  opening : r.stage.opening = true → r.i = 0

/-- What a read has returned is whole entries within the buffer, and if no `put_log` ran beside it
and the room was not used up, at most one entry was left. -/
structure LogResult.Proper (result : LogResult) : Prop where
  bound : result.returned ≤ result.count
  whole : result.returned = sizeofLogT * result.entries.length
  drained : result.quiet = true → sizeofLogT ≤ result.room → result.left.length ≤ 1

/-- The read in progress. -/
structure ReaderKept (q : LogQueue) (l : LogLayout) (r : LogRead) : Prop where
  stage : r.stage.Kept q.startLog q.firstRead l
  counted : r.Counted
  quiet : r.quiet = true → putting q.lock = false

/-- A read beside which a `put_log` links its block is not a quiet one. -/
theorem ReaderKept.disturbed {q : LogQueue} {l : LogLayout} {r : LogRead}
    (kept : ReaderKept q l r) (linking : putting q.lock = true) (quiet : r.quiet = true) : False := by
  have idle := kept.quiet quiet
  rw [linking] at idle
  cases idle

/-- The invariant: the blocks of the queue, the spare one and the held one are all the memory
there is, and what has been put is what was delivered, what is queued and what is being linked. -/
structure LogKept (q : LogQueue) (l : LogLayout) : Prop where
  owns : Owns q.heap l.nodes (spare q.lock ++ q.reader.elim [] fun r => r.stage.held)
  start : q.startLog = l.nodes.head?.map Prod.fst
  current : q.currentLog = some l.current.1
  writer : WriterKept q.heap l q.lock
  reader : ∀ r ∈ q.reader, ReaderKept q l r
  account : q.puts = q.delivered ++
    queued (q.reader.elim q.firstRead fun r => r.stage.taken q.firstRead) l.nodes ++ l.linking
  delivered : q.delivered =
    q.results.flatMap LogResult.entries ++ q.reader.elim [] LogRead.entries
  results : ∀ result ∈ q.results, result.Proper
  faults : q.faults = []
  created : q.devCreated = true

/-! ### The blocks of a layout -/

section Layout

variable {heap : Heap LogEntry} {l l' : LogLayout} {loose : List Pointer}

theorem LogLayout.current_mem (l : LogLayout) : l.current ∈ l.nodes :=
  List.mem_append_right _ List.mem_cons_self

theorem LogLayout.nodes_ne_nil (l : LogLayout) : l.nodes ≠ [] :=
  List.ne_nil_of_mem l.current_mem

theorem LogLayout.tail_ne_nil (l : LogLayout) (nonempty : l.before ≠ []) :
    l.nodes.tail ≠ [] := by
  rw [LogLayout.nodes, List.tail_append_of_ne_nil nonempty]
  exact List.append_ne_nil_of_right_ne_nil _ (List.cons_ne_nil _ _)

theorem length_queued_le (taken : Bool) (nodes : List (Pointer × LogEntry)) :
    (queued taken nodes).length ≤ nodes.length := by
  cases taken with
  | true => simp [queued]
  | false => simp [queued]

theorem length_le_length_queued (taken : Bool) (nodes : List (Pointer × LogEntry)) :
    nodes.length ≤ (queued taken nodes).length + 1 := by
  cases taken with
  | true => simp [queued]; omega
  | false => simp [queued]

/-- A block linked behind the others is queued behind their entries. -/
theorem queued_concat (taken : Bool) {nodes : List (Pointer × LogEntry)} (nonempty : nodes ≠ [])
    (node : Pointer × LogEntry) :
    queued taken (nodes ++ [node]) = queued taken nodes ++ [node.2] := by
  cases taken with
  | true =>
    show ((nodes ++ [node]).tail).map Prod.snd = nodes.tail.map Prod.snd ++ [node.2]
    rw [List.tail_append_of_ne_nil nonempty, List.map_append]
    rfl
  | false => exact List.map_append

/-- Without a writer in `put_log` nothing is behind the current block. -/
theorem WriterKept.of_not_putting {lock : Option LogHolder} (kept : WriterKept heap l lock)
    (idle : putting lock = false) : l.after = [] ∧ l.linking = [] := by
  match lock with
  | none => exact kept
  | some ⟨_, .check⟩ => exact kept
  | some ⟨_, .alloc⟩ => exact kept
  | some ⟨_, .clearNext _⟩ => exact kept
  | some ⟨_, .fill _⟩ => exact ⟨kept.1, kept.2.1⟩
  | some ⟨_, .put _⟩ => exact ⟨kept.1, kept.2.1⟩
  | some ⟨_, .unlock⟩ => exact kept

/-- A block that is not the spare one may change. -/
theorem WriterKept.congr {heap' : Heap LogEntry} {lock : Option LogHolder}
    (kept : WriterKept heap l lock)
    (same : ∀ p ∈ spare lock, deref heap' p = deref heap p) : WriterKept heap' l lock := by
  match lock with
  | none => exact kept
  | some ⟨_, .check⟩ => exact kept
  | some ⟨_, .alloc⟩ => exact kept
  | some ⟨_, .clearNext _⟩ => exact kept
  | some ⟨_, .fill p⟩ =>
    rw [WriterKept, same p List.mem_cons_self]
    exact kept
  | some ⟨_, .put p⟩ =>
    rw [WriterKept, same p List.mem_cons_self]
    exact kept
  | some ⟨_, .link p _⟩ =>
    rw [WriterKept, same p List.mem_cons_self]
    exact kept
  | some ⟨_, .advance _⟩ => exact kept
  | some ⟨_, .unlock⟩ => exact kept

/-- `start_log` and `current_log` are at the same address only if no block is between them. -/
theorem samePointer_head (owns : Owns heap l.nodes loose) :
    samePointer (l.nodes.head?.map Prod.fst) (some l.current.1) = true ↔ l.before = [] := by
  constructor
  · intro same
    cases shape : l.before with
    | nil => rfl
    | cons first rest =>
      have nodes : l.nodes = first :: (rest ++ l.current :: l.after) := by
        rw [LogLayout.nodes, shape, List.cons_append]
      rw [nodes] at same
      have address : first.1.address = l.current.1.address :=
        Option.some.inj (of_decide_eq_true same)
      have distinct := owns.distinct_nodes
      rw [nodes, addresses_cons, List.nodup_cons, address] at distinct
      refine absurd (mem_addresses ?_) distinct.1
      exact List.mem_append_right _ List.mem_cons_self
  · intro shape
    rw [LogLayout.nodes, shape]
    exact decide_eq_true rfl

/-- Writers only add blocks: what the reader has found out stays true. -/
theorem ReadStage.Kept.grow {start : Option Pointer} {firstRead : Bool} {stage : ReadStage}
    (kept : stage.Kept start firstRead l) (before : l.before ≠ [] → l'.before ≠ [])
    (next : l.before ≠ [] →
      l'.nodes.tail.head?.map Prod.fst = l.nodes.tail.head?.map Prod.fst) :
    stage.Kept start firstRead l' := by
  cases stage with
  | testStart => trivial
  | loadStart => trivial
  | compare s => exact kept
  | testFirst => exact before kept
  | loadHead => exact kept.imp_left before
  | testHead s => exact kept.imp_left before
  | saveLog discard => exact kept.imp_left before
  | loadAdvance discard log => exact kept.imp_left before
  | loadNext discard log s => exact kept.imp_left before
  | storeStart discard log stored =>
    obtain ⟨nonempty, first, head, second⟩ := kept
    exact ⟨before nonempty, first, head, second.trans (next nonempty).symm⟩
  | free discard log => exact kept
  | clearFirst => exact kept
  | testRoom => exact kept
  | loadNextTest => exact kept
  | testNext s => exact kept
  | loadEndTest => exact kept
  | testEnd s => exact kept
  | loadCopy => exact kept.imp_left before
  | copy s => exact kept.imp_left before

end Layout

/-! ### The steps of the reader -/

section Reader

variable {q : LogQueue} {l : LogLayout} {r : LogRead}

/-- The block `start_log` points to. -/
theorem LogKept.first (kept : LogKept q l) : ∃ first rest, l.nodes = first :: rest ∧
    q.startLog = some first.1 ∧
    q.load q.startLog = some ⟨rest.head?.map Prod.fst, first.2⟩ := by
  obtain ⟨first, rest, nodes⟩ := List.exists_cons_of_ne_nil l.nodes_ne_nil
  have start : q.startLog = some first.1 := by
    rw [kept.start, nodes]
    rfl
  have chain := kept.owns.chain
  rw [nodes] at chain
  refine ⟨first, rest, nodes, start, ?_⟩
  rw [start]
  exact chain.1

theorem LogRead.Counted.goto {stage : ReadStage} (counted : r.Counted)
    (bytes : stage.uncounted = r.stage.uncounted)
    (room : stage.roomy = true → r.i + sizeofLogT ≤ r.count)
    (opening : stage.opening = true → r.stage.opening = true) :
    ({ r with stage := stage } : LogRead).Counted where
  small := counted.small
  nonneg := counted.nonneg
  bytes := by
    show r.i + stage.uncounted = sizeofLogT * r.entries.length
    rw [bytes]
    exact counted.bytes
  bound := by
    show r.i + stage.uncounted ≤ r.count
    rw [bytes]
    exact counted.bound
  room := room
  opening early := counted.opening (opening early)

/-- The reader goes on to another stage without touching the queue. -/
theorem LogKept.goto {stage : ReadStage} (kept : LogKept q l) (reading : q.reader = some r)
    (held : stage.held = r.stage.held)
    (taken : stage.taken q.firstRead = r.stage.taken q.firstRead)
    (found : stage.Kept q.startLog q.firstRead l)
    (counted : ({ r with stage := stage } : LogRead).Counted) : LogKept (q.goto r stage) l :=
  { kept with
    owns := by
      have owns := kept.owns
      rw [reading] at owns
      show Owns q.heap l.nodes (spare q.lock ++ stage.held)
      rw [held]
      exact owns
    reader := by
      intro _ member
      obtain rfl := Option.some.inj member
      exact ⟨found, counted, (kept.reader r reading).quiet⟩
    account := by
      have account := kept.account
      rw [reading] at account
      show q.puts = q.delivered ++ queued (stage.taken q.firstRead) l.nodes ++ l.linking
      rw [taken]
      exact account
    delivered := by
      have delivered := kept.delivered
      rw [reading] at delivered
      exact delivered }

/-- The reader returns what it has counted. -/
theorem LogKept.finish (kept : LogKept q l) (reading : q.reader = some r)
    (held : r.stage.held = []) (taken : r.stage.taken q.firstRead = q.firstRead)
    (counted : r.stage.uncounted = 0)
    (drained : r.buffer = true → r.i + sizeofLogT ≤ r.count → l.after = [] →
      (queued q.firstRead l.nodes).length ≤ 1) : LogKept (q.finish r r.i) l := by
  have mine := kept.reader r reading
  have account := kept.account
  rw [reading, Option.elim_some, taken] at account
  refine { kept with owns := ?_, reader := ?_, account := account, delivered := ?_, results := ?_ }
  · have owns := kept.owns
    rw [reading, Option.elim_some, held] at owns
    exact owns
  · intro _ member
    cases member
  · have delivered := kept.delivered
    rw [reading] at delivered
    show q.delivered = (q.results ++ [_]).flatMap LogResult.entries ++ []
    rw [List.flatMap_append, List.append_nil, List.flatMap_singleton]
    exact delivered
  · intro result member
    rcases List.mem_append.mp member with before | now
    · exact kept.results result before
    · obtain rfl := List.mem_singleton.mp now
      have bytes := mine.counted.bytes
      have bound := mine.counted.bound
      rw [counted] at bytes bound
      refine ⟨by simpa using bound, by simpa using bytes, ?_⟩
      intro quiet room
      obtain ⟨nothing, none⟩ := kept.writer.of_not_putting (mine.quiet quiet)
      have left : q.puts.drop q.delivered.length = queued q.firstRead l.nodes := by
        rw [account, none, List.append_nil, List.drop_left]
      show (q.puts.drop q.delivered.length).length ≤ 1
      rw [left]
      cases buffer : r.buffer with
      | false =>
        rw [LogResult.room, buffer] at room
        have enough : (sizeofLogT : Int) ≤ 0 := room
        exact absurd enough (by decide)
      | true =>
        rw [LogResult.room, buffer] at room
        refine drained buffer ?_ nothing
        have enough : (sizeofLogT : Int) ≤ r.count - r.i := room
        omega

/-- With one block in the queue, one entry is left at most. -/
theorem LogLayout.length_queued_le_one (taken : Bool) (first : l.before = [])
    (last : l.after = []) : (queued taken l.nodes).length ≤ 1 := by
  have nodes : l.nodes = [l.current] := by
    rw [LogLayout.nodes, first, last]
    rfl
  rw [nodes]
  exact length_queued_le taken _

/-- The first block is unlinked. -/
theorem LogKept.storeStart {discard : Bool} {log next : Option Pointer} (kept : LogKept q l)
    (reading : q.reader = some r) (stage : r.stage = .storeStart discard log next) :
    ∃ l', LogKept (({ q with startLog := next }).goto r (.free discard log)) l' := by
  have mine := kept.reader r reading
  have found := mine.stage
  rw [stage] at found
  obtain ⟨nonempty, flag, taken, second⟩ := found
  obtain ⟨first, rest, before⟩ := List.exists_cons_of_ne_nil nonempty
  have nodes : l.nodes = first :: { l with before := rest }.nodes := by
    rw [LogLayout.nodes, before]
    rfl
  have start : log = some first.1 := by
    rw [taken, kept.start, nodes]
    rfl
  have owns := kept.owns
  rw [reading, Option.elim_some, stage, nodes] at owns
  have account := kept.account
  rw [reading, Option.elim_some, stage, nodes] at account
  refine ⟨{ l with before := rest }, { kept with
    owns := ?_, start := ?_, writer := kept.writer, reader := ?_, account := account
    delivered := ?_ }⟩
  · show Owns q.heap _ (spare q.lock ++ log.toList)
    have unlinked := owns.unlink
    rw [show ReadStage.held (.storeStart discard log next) = [] from rfl,
      List.append_nil] at unlinked
    rw [start]
    exact unlinked
  · show next = _
    rw [second, nodes]
    rfl
  · intro _ member
    obtain rfl := Option.some.inj member
    refine ⟨⟨flag, by rw [start]; rfl⟩, mine.counted.goto ?_ Bool.noConfusion Bool.noConfusion,
      mine.quiet⟩
    rw [stage]
    cases discard with
    | true => rfl
    | false => rfl
  · have delivered := kept.delivered
    rw [reading] at delivered
    exact delivered

/-- A live block that is not the current one is released. -/
theorem logFree_eq {p : Pointer} (live : (deref q.heap p).isSome)
    (apart : samePointer (some p) q.currentLog = false) :
    logFree (some p) q = { q with heap := release q.heap p } := by
  obtain ⟨block, stored⟩ := Option.isSome_iff_exists.mp live
  simp only [logFree, stored, apart, Bool.false_eq_true, if_false]

/-- The block the reader holds is freed. -/
theorem LogKept.free {discard : Bool} {log : Option Pointer} {r' : LogRead} (kept : LogKept q l)
    (reading : q.reader = some r) (stage : r.stage = .free discard log)
    (held : r'.stage.held = []) (taken : r'.stage.taken q.firstRead = false)
    (entries : r'.entries = r.entries) (mine : ReaderKept q l r') :
    LogKept { logFree log q with reader := some r' } l := by
  have found := (kept.reader r reading).stage
  rw [stage] at found
  obtain ⟨p, rfl⟩ := Option.isSome_iff_exists.mp found.2
  have owns := kept.owns
  rw [reading, Option.elim_some, stage] at owns
  have owns : Owns q.heap l.nodes (spare q.lock ++ [p]) := owns
  have member : p ∈ spare q.lock ++ [p] := List.mem_append_right _ (List.mem_singleton_self p)
  have outside := owns.loose_notMem member
  have apart : samePointer (some p) q.currentLog = false := by
    rw [kept.current]
    refine decide_eq_false fun same => outside ?_
    have address : p.address = l.current.1.address := Option.some.inj same
    rw [address]
    exact mem_addresses l.current_mem
  rw [logFree_eq (owns.live p member) apart]
  refine { kept with
    owns := ?_, writer := ?_, reader := ?_, account := ?_, delivered := ?_ }
  · show Owns _ l.nodes (spare q.lock ++ r'.stage.held)
    rw [held, List.append_nil]
    exact owns.drop
  · refine kept.writer.congr fun other inside => deref_release_of_ne ?_
    intro same
    have distinct := owns.distinct
    rw [List.map_append, List.nodup_append] at distinct
    exact (List.nodup_append.mp distinct.2.1).2.2 _ (List.mem_map_of_mem inside) _
      (List.mem_singleton_self _) same
  · intro _ now
    obtain rfl := Option.some.inj now
    exact ⟨mine.stage, mine.counted, mine.quiet⟩
  · have account := kept.account
    rw [reading, Option.elim_some, stage] at account
    show q.puts = q.delivered ++ queued (r'.stage.taken q.firstRead) l.nodes ++ l.linking
    rw [taken]
    exact account
  · have delivered := kept.delivered
    rw [reading] at delivered
    show q.delivered = q.results.flatMap LogResult.entries ++ r'.entries
    rw [entries]
    exact delivered

/-- The first read is over. -/
theorem LogKept.clearFirst (kept : LogKept q l) (reading : q.reader = some r)
    (stage : r.stage = .clearFirst) :
    LogKept (({ q with firstRead := false }).goto r .testRoom) l := by
  have mine := kept.reader r reading
  have owns := kept.owns
  have account := kept.account
  have delivered := kept.delivered
  rw [reading, Option.elim_some, stage] at owns account
  rw [reading] at delivered
  refine { kept with owns := owns, reader := ?_, account := account, delivered := delivered }
  intro _ member
  obtain rfl := Option.some.inj member
  refine ⟨rfl, mine.counted.goto ?_ Bool.noConfusion Bool.noConfusion, mine.quiet⟩
  rw [stage]
  rfl

/-- The first entry is copied. -/
theorem LogKept.copy {start : Option Pointer} {block : LogBlock} (kept : LogKept q l)
    (reading : q.reader = some r) (stage : r.stage = .copy start)
    (loaded : q.load q.startLog = some block) :
    LogKept (({ q with delivered := q.delivered ++ [block.value] }).goto
      { r with entries := r.entries ++ [block.value] } (.saveLog false)) l := by
  have mine := kept.reader r reading
  have found := mine.stage
  rw [stage] at found
  obtain ⟨first, rest, nodes, _, live⟩ := kept.first
  obtain rfl := Option.some.inj (loaded.symm.trans live)
  have owns := kept.owns
  have account := kept.account
  have delivered := kept.delivered
  have counted := mine.counted
  rw [reading, Option.elim_some, stage] at owns
  rw [reading, Option.elim_some, stage, nodes] at account
  rw [reading] at delivered
  refine { kept with owns := owns, reader := ?_, account := ?_, delivered := ?_ }
  · intro _ member
    obtain rfl := Option.some.inj member
    refine ⟨⟨found.1, found.2.1⟩, ⟨counted.small, counted.nonneg, ?_, ?_, Bool.noConfusion,
      Bool.noConfusion⟩, mine.quiet⟩
    · have bytes := counted.bytes
      rw [stage] at bytes
      have whole : r.i = sizeofLogT * r.entries.length := by simpa [ReadStage.uncounted] using bytes
      show r.i + (sizeofLogT : Int) = sizeofLogT * (r.entries ++ [_]).length
      rw [whole, List.length_append, List.length_singleton]
      push_cast
      rw [Int.mul_add, Int.mul_one]
    · have room := counted.room
      rw [stage] at room
      exact room rfl
  · have flag : q.firstRead = false := found.2.1
    have account : q.puts = q.delivered ++ queued q.firstRead (first :: rest) ++ l.linking :=
      account
    show q.puts = q.delivered ++ [first.2] ++ queued true l.nodes ++ l.linking
    rw [account, nodes, flag, List.append_assoc q.delivered [first.2]]
    rfl
  · show q.delivered ++ [first.2] = q.results.flatMap LogResult.entries ++ (r.entries ++ [first.2])
    rw [← List.append_assoc]
    exact congrArg (· ++ [first.2]) delivered

theorem access_eq {pointer : Option Pointer} {block : LogBlock}
    (loaded : q.load pointer = some block) (go : LogBlock → LogQueue) :
    q.access pointer go = go block := by
  rw [LogQueue.access, loaded]

/-- The counter of the copied bytes does not overflow. -/
theorem LogRead.Counted.count_entry (counted : r.Counted)
    (stage : r.stage.uncounted = sizeofLogT) :
    ({ r with i := int32 (r.i + sizeofLogT), stage := .testRoom } : LogRead).Counted := by
  obtain ⟨small, nonneg, bytes, bound, _, _⟩ := counted
  rw [stage] at bytes bound
  have exact : int32 (r.i + sizeofLogT) = r.i + sizeofLogT :=
    Int.bmod_eq_of_le (by omega) (by omega)
  rw [exact]
  refine ⟨small, ?_, ?_, ?_, Bool.noConfusion, Bool.noConfusion⟩
  · show 0 ≤ r.i + (sizeofLogT : Int)
    omega
  · show r.i + (sizeofLogT : Int) + 0 = _
    rw [Int.add_zero]
    exact bytes
  · show r.i + (sizeofLogT : Int) + 0 ≤ _
    rw [Int.add_zero]
    exact bound

/-- The unsigned comparison of the loop compares the exact values. -/
theorem LogRead.Counted.room_iff (counted : r.Counted) :
    (r.i + sizeofLogT) % 2 ^ 64 ≤ (r.count : Int) ↔ r.i + sizeofLogT ≤ r.count := by
  have small := counted.small
  have nonneg := counted.nonneg
  have bound := counted.bound
  rw [Int.emod_eq_of_lt (by omega) (by rw [sizeofLogT]; omega)]

theorem LogKept.samePointer_iff (kept : LogKept q l) :
    samePointer q.startLog q.currentLog = true ↔ l.before = [] := by
  rw [kept.start, kept.current]
  exact samePointer_head kept.owns

/-- The tests at the start of a read keep the invariant. -/
theorem readStep_opening (kept : LogKept q l) (reading : q.reader = some r)
    (early : r.stage.opening = true) : ∃ l', LogKept (readStep r q) l' := by
  obtain ⟨found, counted, _⟩ := kept.reader r reading
  obtain ⟨first, rest, nodes, start, live⟩ := kept.first
  obtain ⟨buffer, count, i, entries, quiet, stage⟩ := r
  cases stage with
  | testStart =>
    obtain rfl : i = 0 := counted.opening rfl
    simp only [readStep]
    split
    · rename_i refused
      refine ⟨l, kept.finish reading rfl rfl rfl fun there => ?_⟩
      rcases refused with none | missing
      · cases start.symm.trans none
      · cases there.symm.trans missing
    · exact ⟨l, kept.goto reading rfl rfl trivial (counted.goto rfl Bool.noConfusion id)⟩
  | loadStart =>
    exact ⟨l, kept.goto reading rfl rfl rfl (counted.goto rfl Bool.noConfusion id)⟩
  | compare s =>
    obtain rfl : s = q.startLog := found
    obtain rfl : i = 0 := counted.opening rfl
    simp only [readStep]
    split
    · rename_i same
      refine ⟨l, kept.finish reading rfl rfl rfl fun _ _ last => ?_⟩
      exact LogLayout.length_queued_le_one _ (kept.samePointer_iff.mp same) last
    · rename_i different
      refine ⟨l, kept.goto reading rfl rfl ?_ (counted.goto rfl Bool.noConfusion id)⟩
      exact fun nothing => different (kept.samePointer_iff.mpr nothing)
  | testFirst =>
    simp only [readStep]
    split
    · rename_i flag
      exact ⟨l, kept.goto reading rfl rfl ⟨found, flag⟩ (counted.goto rfl Bool.noConfusion id)⟩
    · rename_i flag
      refine ⟨l, kept.goto reading rfl rfl (Bool.eq_false_iff.mpr flag) ?_⟩
      exact counted.goto rfl Bool.noConfusion Bool.noConfusion
  | loadHead =>
    refine ⟨l, kept.goto reading rfl rfl ⟨found.1, found.2, rfl⟩ ?_⟩
    exact counted.goto rfl Bool.noConfusion id
  | testHead s =>
    obtain ⟨nonempty, flag, rfl⟩ := found
    obtain rfl : i = 0 := counted.opening rfl
    simp only [readStep]
    rw [access_eq live]
    split
    · -- The block before the current one points to the next.
      rename_i last
      obtain ⟨_, _, before⟩ := List.exists_cons_of_ne_nil nonempty
      rw [LogLayout.nodes, before] at nodes
      cases nodes
      simp at last
    · refine ⟨l, kept.goto reading rfl flag.symm ⟨nonempty, flag⟩ ?_⟩
      exact counted.goto rfl Bool.noConfusion Bool.noConfusion
  | _ => exact Bool.noConfusion early

/-- The tests of the loop and the copy keep the invariant. -/
theorem readStep_roomy (kept : LogKept q l) (reading : q.reader = some r)
    (roomy : r.stage.roomy = true) : ∃ l', LogKept (readStep r q) l' := by
  obtain ⟨found, counted, _⟩ := kept.reader r reading
  obtain ⟨first, rest, nodes, _, live⟩ := kept.first
  obtain ⟨buffer, count, i, entries, quiet, stage⟩ := r
  cases stage with
  | loadNextTest =>
    refine ⟨l, kept.goto reading rfl rfl ⟨found, rfl⟩ ?_⟩
    exact counted.goto rfl counted.room Bool.noConfusion
  | testNext s =>
    obtain ⟨flag, rfl⟩ := found
    simp only [readStep]
    rw [access_eq live]
    split
    · rename_i last
      refine ⟨l, kept.finish reading rfl rfl rfl fun _ _ _ => ?_⟩
      have alone : rest = [] := by simpa using last
      rw [nodes, alone]
      exact length_queued_le _ _
    · exact ⟨l, kept.goto reading rfl rfl flag (counted.goto rfl counted.room Bool.noConfusion)⟩
  | loadEndTest =>
    refine ⟨l, kept.goto reading rfl rfl ⟨found, rfl⟩ ?_⟩
    exact counted.goto rfl counted.room Bool.noConfusion
  | testEnd s =>
    obtain ⟨flag, rfl⟩ := found
    simp only [readStep]
    split
    · rename_i same
      refine ⟨l, kept.finish reading rfl rfl rfl fun _ _ last => ?_⟩
      exact LogLayout.length_queued_le_one _ (kept.samePointer_iff.mp same) last
    · rename_i different
      have nonempty : l.before ≠ [] := fun nothing => different (kept.samePointer_iff.mpr nothing)
      refine ⟨l, kept.goto reading rfl rfl ⟨nonempty, flag⟩ ?_⟩
      exact counted.goto rfl counted.room Bool.noConfusion
  | loadCopy =>
    refine ⟨l, kept.goto reading rfl rfl ⟨found.1, found.2, rfl⟩ ?_⟩
    exact counted.goto rfl counted.room Bool.noConfusion
  | copy s =>
    obtain ⟨_, _, rfl⟩ := found
    simp only [readStep]
    rw [access_eq live]
    exact ⟨l, kept.copy reading rfl live⟩
  | _ => exact Bool.noConfusion roomy

/-- A step of the reader keeps the invariant. -/
theorem readStep_kept (kept : LogKept q l) (reading : q.reader = some r) :
    ∃ l', LogKept (readStep r q) l' := by
  obtain ⟨found, counted, undisturbed⟩ := kept.reader r reading
  obtain ⟨first, rest, nodes, start, live⟩ := kept.first
  by_cases early : r.stage.opening = true
  · exact readStep_opening kept reading early
  by_cases roomy : r.stage.roomy = true
  · exact readStep_roomy kept reading roomy
  obtain ⟨buffer, count, i, entries, quiet, stage⟩ := r
  cases stage with
  | saveLog discard =>
    refine ⟨l, kept.goto reading rfl rfl ⟨found.1, found.2, rfl⟩ ?_⟩
    refine counted.goto ?_ Bool.noConfusion Bool.noConfusion
    cases discard <;> rfl
  | loadAdvance discard log =>
    refine ⟨l, kept.goto reading rfl rfl ⟨found.1, found.2.1, found.2.2, rfl⟩ ?_⟩
    refine counted.goto ?_ Bool.noConfusion Bool.noConfusion
    cases discard <;> rfl
  | loadNext discard log s =>
    obtain ⟨nonempty, flag, taken, rfl⟩ := found
    simp only [readStep]
    rw [access_eq live]
    refine ⟨l, kept.goto reading rfl rfl ⟨nonempty, flag, taken, by rw [nodes]; rfl⟩ ?_⟩
    refine counted.goto ?_ Bool.noConfusion Bool.noConfusion
    cases discard <;> rfl
  | storeStart discard log next => exact kept.storeStart reading rfl
  | free discard log =>
    cases discard with
    | true =>
      refine ⟨l, kept.free reading rfl rfl rfl rfl ⟨found.1, ?_, undisturbed⟩⟩
      exact counted.goto rfl Bool.noConfusion Bool.noConfusion
    | false =>
      exact ⟨l, kept.free reading rfl rfl found.1 rfl
        ⟨found.1, counted.count_entry rfl, undisturbed⟩⟩
  | clearFirst => exact ⟨l, kept.clearFirst reading rfl⟩
  | testRoom =>
    simp only [readStep]
    split
    · rename_i room
      refine ⟨l, kept.goto reading rfl rfl found (counted.goto rfl ?_ Bool.noConfusion)⟩
      exact fun _ => counted.room_iff.mp room
    · rename_i full
      refine ⟨l, kept.finish reading rfl rfl rfl fun _ room => ?_⟩
      exact absurd (counted.room_iff.mpr room) full
  | testStart => exact absurd rfl early
  | loadStart => exact absurd rfl early
  | compare s => exact absurd rfl early
  | testFirst => exact absurd rfl early
  | loadHead => exact absurd rfl early
  | testHead s => exact absurd rfl early
  | _ => exact absurd rfl roomy

end Reader

/-! ### The steps of the writers -/

section Writer

variable {q : LogQueue} {l : LogLayout} {writer : Nat} {p : Pointer}

/-- The lock changes hands, or its holder goes on, without touching the queue. -/
theorem LogKept.relock {lock : Option LogHolder} (kept : LogKept q l)
    (same : spare lock = spare q.lock) (done : WriterKept q.heap l lock)
    (idle : putting lock = false) : LogKept { q with lock := lock } l :=
  { kept with
    owns := by
      show Owns q.heap l.nodes (spare lock ++ _)
      rw [same]
      exact kept.owns
    writer := done
    reader := fun r member =>
      ⟨(kept.reader r member).stage, (kept.reader r member).counted, fun _ => idle⟩ }

/-- A block is allocated. -/
theorem LogKept.allocate (kept : LogKept q l) (holding : q.lock = some ⟨writer, .alloc⟩)
    {address : Nat} (unused : q.heap address = none) (garbage : LogBlock) :
    LogKept { q with
      heap := store q.heap ⟨address, q.allocations⟩ garbage
      allocations := q.allocations + 1
      lock := some ⟨writer, .clearNext ⟨address, q.allocations⟩⟩ } l := by
  have owns := kept.owns
  have nothing := kept.writer
  rw [holding] at owns nothing
  exact { kept with
    owns := owns.allocate unused q.allocations garbage
    writer := nothing
    reader := fun r member =>
      ⟨(kept.reader r member).stage, (kept.reader r member).counted, fun _ => rfl⟩ }

/-- The spare block is written. -/
theorem LogKept.rewrite {lock : Option LogHolder} (kept : LogKept q l)
    (mine : p ∈ spare q.lock) (same : spare lock = spare q.lock) (block : LogBlock)
    (done : WriterKept (store q.heap p block) l lock) (idle : putting lock = false) :
    LogKept { q with heap := store q.heap p block, lock := lock } l :=
  { kept with
    owns := by
      show Owns _ l.nodes (spare lock ++ _)
      rw [same]
      exact kept.owns.write (List.mem_append_left _ mine) block
    writer := done
    reader := fun r member =>
      ⟨(kept.reader r member).stage, (kept.reader r member).counted, fun _ => idle⟩ }

/-- The block passed to `put_log` is about to be linked. -/
theorem LogKept.put {entry : LogEntry} (kept : LogKept q l)
    (holding : q.lock = some ⟨writer, .put p⟩) (block : deref q.heap p = some ⟨none, entry⟩) :
    LogKept { q with
      puts := q.puts ++ [entry]
      reader := q.reader.map LogRead.disturb
      lock := some ⟨writer, .link p q.currentLog⟩ } { l with linking := [entry] } := by
  have owns := kept.owns
  have done := kept.writer
  rw [holding] at owns done
  refine { kept with
    owns := ?_, writer := ⟨done.1, kept.current, entry, rfl, block⟩, reader := ?_, account := ?_
    delivered := ?_ }
  · show Owns q.heap l.nodes ([p] ++ (q.reader.map LogRead.disturb).elim [] _)
    rw [Option.elim_map]
    exact owns
  · intro _ member
    obtain ⟨r, reading, rfl⟩ := Option.mem_map.mp member
    have mine := kept.reader r reading
    have counted := mine.counted
    exact ⟨mine.stage.grow id fun _ => rfl, ⟨counted.small, counted.nonneg, counted.bytes,
      counted.bound, counted.room, counted.opening⟩, Bool.noConfusion⟩
  · have account := kept.account
    rw [done.2.1, List.append_nil] at account
    show q.puts ++ [entry] =
      q.delivered ++ queued ((q.reader.map LogRead.disturb).elim q.firstRead _) l.nodes ++ [entry]
    rw [Option.elim_map, account]
    rfl
  · show q.delivered = _ ++ (q.reader.map LogRead.disturb).elim [] _
    rw [Option.elim_map]
    exact kept.delivered

/-- The block is linked behind the current one. -/
theorem LogKept.link {last : Option Pointer} (kept : LogKept q l)
    (holding : q.lock = some ⟨writer, .link p last⟩) : ∃ l',
    LogKept ((q.write last (setNext (some p))).hold ⟨writer, .link p last⟩ (.advance p)) l' := by
  have done := kept.writer
  have owns := kept.owns
  rw [holding] at done owns
  obtain ⟨nothing, rfl, entry, linking, block⟩ := done
  have shape : l.nodes = l.before ++ [l.current] := by
    rw [LogLayout.nodes, nothing]
  have linked : l.nodes ++ [(p, entry)] = l.before ++ [l.current, (p, entry)] := by
    rw [shape, List.append_assoc]
    rfl
  rw [shape] at owns
  have written : q.write (some l.current.1) (setNext (some p)) =
      { q with heap := store q.heap l.current.1 ⟨some p, l.current.2⟩ } := by
    simp only [LogQueue.write, owns.chain.deref_last, setNext]
  rw [written]
  have grown : { l with after := [(p, entry)], linking := [] }.nodes = l.nodes ++ [(p, entry)] := by
    rw [linked]
    rfl
  refine ⟨{ l with after := [(p, entry)], linking := [] }, { kept with
    owns := ?_, start := ?_, writer := ⟨rfl, entry, rfl⟩, reader := ?_, account := ?_ }⟩
  · rw [grown, linked]
    exact owns.link block
  · rw [grown, List.head?_append_of_ne_nil _ l.nodes_ne_nil]
    exact kept.start
  · intro r member
    have mine := kept.reader r member
    refine ⟨mine.stage.grow id fun nonempty => ?_, mine.counted, ?_⟩
    · rw [grown, List.tail_append_of_ne_nil l.nodes_ne_nil,
        List.head?_append_of_ne_nil _ (l.tail_ne_nil nonempty)]
    · exact fun quiet => (mine.disturbed (by rw [holding]; rfl) quiet).elim
  · have account := kept.account
    rw [linking] at account
    rw [grown, queued_concat _ l.nodes_ne_nil, List.append_nil, ← List.append_assoc]
    exact account

/-- `current_log` moves to the block behind it. -/
theorem LogKept.advance (kept : LogKept q l) (holding : q.lock = some ⟨writer, .advance p⟩) :
    ∃ l', LogKept { q with currentLog := some p, lock := some ⟨writer, .unlock⟩ } l' := by
  have done := kept.writer
  have owns := kept.owns
  rw [holding] at done owns
  obtain ⟨linking, entry, after⟩ := done
  have moved : LogLayout.nodes ⟨l.before ++ [l.current], (p, entry), [], []⟩ = l.nodes := by
    rw [LogLayout.nodes, LogLayout.nodes, after, List.append_assoc]
    rfl
  refine ⟨⟨l.before ++ [l.current], (p, entry), [], []⟩, { kept with
    owns := ?_, start := ?_, current := rfl, writer := ⟨rfl, rfl⟩, reader := ?_, account := ?_ }⟩
  · rw [moved]
    exact owns
  · rw [moved]
    exact kept.start
  · intro r member
    have mine := kept.reader r member
    refine ⟨mine.stage.grow (fun _ => List.append_ne_nil_of_right_ne_nil _ (by simp)) fun _ => ?_,
      mine.counted, ?_⟩
    · rw [moved]
    · exact fun quiet => (mine.disturbed (by rw [holding]; rfl) quiet).elim
  · have account := kept.account
    rw [linking] at account
    rw [moved]
    exact account

theorem write_eq {block : LogBlock} (live : deref q.heap p = some block)
    (change : LogBlock → LogBlock) :
    q.write (some p) change = { q with heap := store q.heap p (change block) } := by
  simp only [LogQueue.write, live]

/-- A step of the writer that holds the lock keeps the invariant. -/
theorem writeStep_kept {holder : LogHolder} (kept : LogKept q l) (holding : q.lock = some holder)
    (memory : Option (Nat × LogBlock)) (entry : LogEntry) :
    ∃ l', LogKept (writeStep memory entry holder q) l' := by
  have done := kept.writer
  have live := kept.owns.live
  rw [holding] at done live
  obtain ⟨writer, stage⟩ := holder
  cases stage with
  | check =>
    simp only [writeStep]
    split
    · exact ⟨l, kept.relock (by rw [holding]; rfl) done rfl⟩
    · exact ⟨l, kept.relock (by rw [holding]; rfl) done rfl⟩
  | alloc =>
    simp only [writeStep]
    split
    · exact ⟨l, kept.relock (by rw [holding]; rfl) done rfl⟩
    · split
      · exact ⟨l, kept⟩
      · rename_i unused
        exact ⟨l, kept.allocate holding unused _⟩
  | clearNext p =>
    obtain ⟨block, stored⟩ := Option.isSome_iff_exists.mp (live p List.mem_cons_self)
    simp only [writeStep]
    rw [write_eq stored]
    refine ⟨l, kept.rewrite ?_ ?_ _ ⟨done.1, done.2, block.value, deref_store_self ..⟩ rfl⟩
    · rw [holding]
      exact List.mem_singleton_self p
    · rw [holding]
      rfl
  | fill p =>
    obtain ⟨nothing, idle, _, stored⟩ := done
    simp only [writeStep]
    rw [write_eq stored]
    refine ⟨l, kept.rewrite ?_ ?_ _ ⟨nothing, idle, entry, deref_store_self ..⟩ rfl⟩
    · rw [holding]
      exact List.mem_singleton_self p
    · rw [holding]
      rfl
  | put p =>
    obtain ⟨_, _, _, stored⟩ := done
    simp only [writeStep, stored]
    exact ⟨_, kept.put holding stored⟩
  | link p last => exact kept.link holding
  | advance p => exact kept.advance holding
  | unlock => exact ⟨l, kept.relock (by rw [holding]; rfl) done rfl⟩

end Writer

/-! ### The runs -/

/-- The invariant holds after `log_init`. -/
theorem logInit_kept (address : Nat) (garbage : LogEntry) :
    LogKept (logInit address garbage) ⟨[], (⟨address, 0⟩, garbage), [], []⟩ where
  owns := Owns.singleton ⟨address, 0⟩ garbage
  start := rfl
  current := rfl
  writer := ⟨rfl, rfl⟩
  reader _ member := by cases member
  account := rfl
  delivered := rfl
  results _ member := by cases member
  faults := rfl
  created := rfl

/-- Globals that the invariant does not read may change. -/
theorem LogKept.congr {q : LogQueue} {l : LogLayout} (kept : LogKept q l) (spinning : Nat → Bool)
    (devOpen : Bool) : LogKept { q with spinning := spinning, devOpen := devOpen } l :=
  { kept with
    reader := fun r member => ⟨(kept.reader r member).stage, (kept.reader r member).counted,
      (kept.reader r member).quiet⟩ }

/-- A read is called. -/
theorem LogKept.call {q : LogQueue} {l : LogLayout} (kept : LogKept q l) (idle : q.reader = none)
    (buffer : Bool) {count : Nat} (small : count < 2 ^ 31) :
    LogKept { q with reader := some ⟨buffer, count, 0, [], !putting q.lock, .testStart⟩ } l := by
  have owns := kept.owns
  have account := kept.account
  have delivered := kept.delivered
  rw [idle] at owns account delivered
  refine { kept with owns := owns, reader := ?_, account := account, delivered := delivered }
  intro _ member
  obtain rfl := Option.some.inj member
  refine ⟨trivial, ⟨small, le_rfl, rfl, ?_, Bool.noConfusion, fun _ => rfl⟩, ?_⟩
  · exact Int.natCast_nonneg count
  · intro quiet
    exact Bool.not_eq_true' _ ▸ quiet

/-- Every event keeps the invariant. -/
theorem logStep_kept {q : LogQueue} {l : LogLayout} (kept : LogKept q l) {event : LogEvent}
    (small : event.Small q) : ∃ l', LogKept (logStep q event) l' := by
  cases event with
  | getLog writer =>
    simp only [logStep]
    split
    · exact ⟨l, kept⟩
    · exact ⟨l, kept.congr _ q.devOpen⟩
  | acquire writer =>
    simp only [logStep]
    split
    · exact ⟨l, kept⟩
    · rename_i free
      split
      · have done := kept.writer
        rw [free] at done
        have served := kept.congr (Function.update q.spinning writer false) q.devOpen
        refine ⟨l, served.relock ?_ done rfl⟩
        show [] = spare q.lock
        rw [free]
        rfl
      · exact ⟨l, kept⟩
  | write memory entry =>
    simp only [logStep]
    split
    · exact ⟨l, kept⟩
    · rename_i holding
      exact writeStep_kept kept holding memory entry
  | seekerLogOpen => exact ⟨l, kept.congr q.spinning true⟩
  | seekerLogClose => exact ⟨l, kept.congr q.spinning false⟩
  | seekerLogRead buffer count =>
    simp only [logStep]
    split
    · exact ⟨l, kept⟩
    · rename_i idle
      exact ⟨l, kept.call idle buffer small⟩
  | read =>
    simp only [logStep]
    split
    · exact ⟨l, kept⟩
    · rename_i reading
      exact readStep_kept kept reading

/-! ### The end -/

/-- Freeing the blocks of a chain leaves nothing. -/
theorem purgeLoop_eq {fuel : Nat} (q : LogQueue) {nodes : List (Pointer × LogEntry)}
    (owns : Owns q.heap nodes []) (closed : q.currentLog = none) (enough : nodes.length ≤ fuel) :
    ∃ heap, purgeLoop fuel (nodes.head?.map Prod.fst) q = { q with heap := heap } ∧
      ∀ address, heap address = none := by
  induction nodes generalizing fuel q with
  | nil =>
    refine ⟨q.heap, ?_, owns.eq_none⟩
    cases fuel with
    | zero => rfl
    | succ fuel => rfl
  | cons node rest inductionHypothesis =>
    obtain ⟨fuel, rfl⟩ : ∃ less, fuel = less + 1 := ⟨fuel - 1, by
      rw [List.length_cons] at enough
      omega⟩
    have first := owns.chain.1
    have live : (deref q.heap node.1).isSome := by
      rw [first]
      rfl
    have apart : samePointer (some node.1) q.currentLog = false := by
      rw [closed]
      rfl
    have unlinked : Owns q.heap rest ([] ++ [node.1]) := owns.unlink
    obtain ⟨heap, purged, empty⟩ := inductionHypothesis { q with heap := release q.heap node.1 }
      unlinked.drop closed (Nat.le_of_succ_le_succ enough)
    refine ⟨heap, ?_, empty⟩
    rw [List.head?_cons, Option.map_some, purgeLoop, first]
    show purgeLoop fuel (rest.head?.map Prod.fst) (logFree (some node.1) q) = _
    rw [logFree_eq live apart, purged]

/-- `log_exit` when no call is in progress. -/
theorem logExit_kept {q : LogQueue} {l : LogLayout} (kept : LogKept q l) (unlocked : q.lock = none)
    (idle : q.reader = none) {fuel : Nat} (enough : q.puts.length < fuel) :
    (logExit fuel q).faults = [] ∧ ∀ address, (logExit fuel q).heap address = none := by
  have owns := kept.owns
  rw [unlocked, idle] at owns
  have short : l.nodes.length ≤ fuel := by
    have queue := length_le_length_queued q.firstRead l.nodes
    have account := kept.account
    rw [idle] at account
    rw [account] at enough
    simp only [List.length_append, Option.elim_none] at enough
    omega
  obtain ⟨heap, purged, empty⟩ := purgeLoop_eq
    { q with devOpen := false, startLog := none, currentLog := none } owns rfl short
  have running : ¬ (q.startLog = none ∨ q.currentLog = none) := by
    obtain ⟨first, rest, _, start, _⟩ := kept.first
    rw [start, kept.current]
    simp
  rw [← kept.start] at purged
  have closed : purgeLog fuel { q with devOpen := false } =
      { q with devOpen := false, startLog := none, currentLog := none, heap := heap } := by
    rw [purgeLog, if_neg running]
    exact purged
  have exited : logExit fuel q = { purgeLog fuel { q with devOpen := false } with
      devCreated := false } :=
    if_pos kept.created
  rw [exited, closed]
  exact ⟨kept.faults, empty⟩

/-- In every run after `log_init` in which the counts of the reads are below `2 ^ 31`: the entries
that the reads return are the first of those put, in order and each once; a read returns whole
entries and no more than asked for, and if no `put_log` runs beside it and it leaves room for an
entry, it leaves at most one; no block is accessed or freed after it was freed, nor freed while it
is current; and `log_exit`, once no call is in progress, frees every block that is left. -/
theorem log_queue_fifo (address : Nat) (garbage : LogEntry) (events : List LogEvent)
    (small : Exec.Meets logStep LogEvent.Small (logInit address garbage) events) :
    let final := Exec.run logStep (logInit address garbage) events
    final.results.flatMap LogResult.entries <+: final.puts ∧
      (∀ result ∈ final.results, result.returned ≤ result.count ∧
        result.returned = sizeofLogT * result.entries.length ∧
        (result.quiet = true → sizeofLogT ≤ result.room → result.left.length ≤ 1)) ∧
      final.faults = [] ∧
      (final.lock = none → final.reader = none → ∀ fuel, final.puts.length < fuel →
        (logExit fuel final).faults = [] ∧
          ∀ address, (logExit fuel final).heap address = none) := by
  obtain ⟨l, kept⟩ := Exec.run_invariant (fun q => ∃ l, LogKept q l)
    (fun _ _ ⟨_, kept⟩ meets => logStep_kept kept meets) ⟨_, logInit_kept address garbage⟩ small
  refine ⟨?_, ?_, kept.faults, fun unlocked idle _ enough =>
    logExit_kept kept unlocked idle enough⟩
  · rw [kept.account, kept.delivered, List.append_assoc, List.append_assoc]
    exact List.prefix_append _ _
  · intro result member
    have proper := kept.results result member
    exact ⟨proper.bound, proper.whole, proper.drained⟩

/-- The entry the state logger writes for a cpu. -/
def stateEntry (cpu : Nat) : LogEntry := .state ⟨cpu, 0, 0⟩

/-- A writer's call with its first steps, putting an entry in a block at an address. -/
def partOfPut (steps address : Nat) (entry : LogEntry) : List LogEvent :=
  [.getLog 0, .acquire 0] ++
    List.replicate steps (.write (some (address, ⟨none, stateEntry 9⟩)) entry)

/-- A read of up to two entries, with steps enough to return. -/
def readOfTwo : List LogEvent :=
  .seekerLogRead true 176 :: List.replicate 20 .read

/-- An entry is put and a second one is linked; a read runs before the writer moves `current_log`,
and one after it has; the device is closed. -/
def overlappingRun : List LogEvent :=
  [.seekerLogOpen] ++ partOfPut 8 2 (stateEntry 0) ++ partOfPut 6 3 (stateEntry 1) ++ readOfTwo ++
    List.replicate 2 (.write none (stateEntry 1)) ++ readOfTwo ++ [.seekerLogClose]

theorem log_queue_fifo_overlapping :
    let final := Exec.run logStep (logInit 1 (stateEntry 9)) overlappingRun
    final.results.map LogResult.entries = [[], [stateEntry 0]] ∧
      final.results.flatMap LogResult.entries <+: final.puts ∧
      ∀ address, (logExit 3 final).heap address = none := by
  have fifo := log_queue_fifo 1 (stateEntry 9) overlappingRun (by decide)
  exact ⟨by decide, fifo.1, (fifo.2.2.2 rfl rfl 3 (by decide)).2⟩

end Seeker
