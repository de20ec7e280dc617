/-
This file embeds `seekerlogd`, which copies the log of the scheduler module into files,
together with the queue it reads and the writers beside it.

The daemon reads in a loop until a read returns nothing, sleeps, and starts over; a signal
makes it go on with a new file, another one makes it end. Its reads go through the stream
of the C library, which asks the device for as much as it likes and keeps what was not
asked of it. Its writes go through another one, which keeps back what it likes until the
file is closed. The file proves that what is given to the files is whole records, in the
order they were put and each once, that these are all that were read whenever the daemon
is outside its inner loop, and that of each file a tail is missing at most: what its
stream keeps, or what it could not write. `decodelog` prints the files accordingly.
-/
import Seeker.Decodelog
import Seeker.Library.Records
import Seeker.LogQueue

namespace Seeker

open Records

/-! ### The daemon -/

/-- The bytes of a `log_t`. -/
structure LogFormat (Byte : Type) extends Format LogEntry Byte where
  size_eq : size = sizeofLogT

/-- `BUFFER_SIZE`. -/
def bufferSize : Nat := 4096 * sizeofLogT

/-- Where `main` is: at the test of `do_sample`; in `fread`, with what `buf` holds so far, and
there in a read of the device that is called when so many have returned; after `fread`; before
`fwrite`; after the sleep; in the other branch; and past its end, where `cut` says that it was in
its inner loop. A signal in the other branch closes a file twice, which is undefined. -/
inductive DaemonStage (Byte : Type) where
  | test
  | fill (chunk : List Byte)
  | device (chunk : List Byte) (asked : Nat)
  | filled (chunk : List Byte)
  | write (chunk : List Byte)
  | slept
  | closeOut
  | closeIn
  | openOut
  | openIn
  | resume
  | ended (cut : Bool)
  | undefined

/-- The files that are finished, the one that is written, what its stream has not written out yet
and its error flag; `lost` says that a finished file had an error. -/
structure DaemonFiles (Byte : Type) where
  finished : List (List Byte)
  outfile : List Byte
  pending : List Byte
  outError : Bool
  lost : Bool

/-- The log and the daemon: `do_sample`, the error flag of `infile` and what its stream has read
ahead, and the files. -/
structure LogDaemon (Byte : Type) where
  queue : LogQueue
  stage : DaemonStage Byte
  doSample : Bool
  inError : Bool
  buffered : List Byte
  out : DaemonFiles Byte

/-- What the system answers: how much the stream asks of the device, unless it takes the end of the
file for still there; how much `fwrite` writes out; how much is written when a write fails; whether
the next file exists; and whether a file can be opened. -/
structure DaemonAnswer where
  count : Option Nat
  flushed : Nat
  failedAfter : Option Nat
  taken : Bool
  opened : Bool

section Daemon

variable {Byte : Type}

/-- `fwrite`, which writes out some of the bytes, or fails and drops the rest. -/
def DaemonFiles.fwrite (chunk : List Byte) (flushed : Nat) (failedAfter : Option Nat)
    (out : DaemonFiles Byte) : DaemonFiles Byte :=
  let bytes := out.pending ++ chunk
  match failedAfter with
  | none =>
    { out with outfile := out.outfile ++ bytes.take flushed, pending := bytes.drop flushed }
  | some written =>
    { out with outfile := out.outfile ++ bytes.take written, pending := [], outError := true }

/-- `fclose(outfile)`, which writes out the rest, or fails. -/
def DaemonFiles.fclose (failedAfter : Option Nat) (out : DaemonFiles Byte) : DaemonFiles Byte :=
  match failedAfter with
  | none => { out with outfile := out.outfile ++ out.pending, pending := [] }
  | some written =>
    { out with
      outfile := out.outfile ++ out.pending.take written
      pending := []
      outError := true }

/-- The next file is opened. -/
def DaemonFiles.next (out : DaemonFiles Byte) : DaemonFiles Byte where
  finished := out.finished ++ [out.outfile]
  outfile := []
  pending := []
  outError := false
  lost := out.lost || out.outError

/-- The daemon ends; its files are closed. -/
def LogDaemon.exit (cut : Bool) (failedAfter : Option Nat) (d : LogDaemon Byte) :
    LogDaemon Byte :=
  { d with
    queue := logStep d.queue .seekerLogClose
    stage := .ended cut
    out := d.out.fclose failedAfter }

/-- One step of `main`. -/
def LogDaemon.main (format : LogFormat Byte) (answer : DaemonAnswer) (d : LogDaemon Byte) :
    LogDaemon Byte :=
  match d.stage with
  | .test => { d with stage := if d.doSample then .fill [] else .closeOut }
  | .fill chunk =>
    let want := bufferSize - chunk.length
    if want = 0 then { d with stage := .filled chunk }
    else if d.buffered.isEmpty then
      match answer.count with
      | none => { d with stage := .filled chunk }
      | some count =>
        { d with
          queue := logStep d.queue (.seekerLogRead true count)
          stage := .device chunk d.queue.results.length }
    else
      { d with stage := .fill (chunk ++ d.buffered.take want), buffered := d.buffered.drop want }
  | .device chunk asked =>
    match d.queue.results[asked]? with
    | none => d
    | some result =>
      if result.returned ≤ 0 then
        { d with stage := .filled chunk, inError := d.inError || result.returned < 0 }
      else
        let want := bufferSize - chunk.length
        let bytes := format.stream result.entries
        { d with stage := .fill (chunk ++ bytes.take want), buffered := bytes.drop want }
  | .filled chunk =>
    if chunk.isEmpty then { d with stage := .slept }
    else if d.inError then d.exit true answer.failedAfter
    else { d with stage := .write chunk }
  | .write chunk =>
    let written :=
      { d with stage := .fill [], out := d.out.fwrite chunk answer.flushed answer.failedAfter }
    if answer.failedAfter.isSome then written.exit true none else written
  | .slept => if d.inError then d.exit false answer.failedAfter else { d with stage := .test }
  | .closeOut => { d with stage := .closeIn, out := d.out.fclose answer.failedAfter }
  | .closeIn =>
    { d with queue := logStep d.queue .seekerLogClose, stage := .openOut, buffered := [] }
  | .openOut =>
    if answer.taken || !answer.opened then d.exit false none
    else { d with stage := .openIn, out := d.out.next }
  | .openIn =>
    if answer.opened then
      { d with queue := logStep d.queue .seekerLogOpen, stage := .resume, inError := false }
    else d.exit false none
  | .resume => { d with stage := .test, doSample := true }
  | .ended _ => d
  | .undefined => d

/-- The daemon can take a signal: it has not ended, and it is not in the kernel. -/
def LogDaemon.Awake (d : LogDaemon Byte) : Bool :=
  match d.stage with
  | .device _ asked => asked < d.queue.results.length
  | .ended _ => false
  | .undefined => false
  | _ => true

/-- `catchSig`. -/
def LogDaemon.catchSig (d : LogDaemon Byte) : LogDaemon Byte :=
  if d.Awake then { d with doSample := false } else d

/-- `catchTerm`: it closes both files, which it finds open or not. -/
def LogDaemon.catchTerm (failedAfter : Option Nat) (d : LogDaemon Byte) : LogDaemon Byte :=
  if d.Awake then
    match d.stage with
    | .fill _ => d.exit true failedAfter
    | .device _ _ => d.exit true failedAfter
    | .filled _ => d.exit true failedAfter
    | .write _ => d.exit true failedAfter
    | .closeIn => { d with stage := .undefined }
    | .openOut => { d with stage := .undefined }
    | .openIn => { d with stage := .undefined }
    | _ => d.exit false failedAfter
  else d

/-- A step of the log that the daemon does not make. -/
def LogDaemon.kernel (event : LogEvent) (d : LogDaemon Byte) : LogDaemon Byte :=
  match event with
  | .seekerLogOpen => d
  | .seekerLogClose => d
  | .seekerLogRead _ _ => d
  | .getLog writer => { d with queue := logStep d.queue (.getLog writer) }
  | .acquire writer => { d with queue := logStep d.queue (.acquire writer) }
  | .write memory entry => { d with queue := logStep d.queue (.write memory entry) }
  | .read => { d with queue := logStep d.queue .read }

/-- A writer or the read in progress makes a step, `main` makes one, or a signal arrives. -/
inductive DaemonEvent where
  | kernel (event : LogEvent)
  | main (answer : DaemonAnswer)
  | sigUsr1
  | sigTerm (failedAfter : Option Nat)

/-- One event. -/
def daemonStep (format : LogFormat Byte) (d : LogDaemon Byte) : DaemonEvent → LogDaemon Byte
  | .kernel event => d.kernel event
  | .main answer => d.main format answer
  | .sigUsr1 => d.catchSig
  | .sigTerm failedAfter => d.catchTerm failedAfter

/-- What the stream asks for is below `2 ^ 31`. -/
def DaemonEvent.Small (_ : LogDaemon Byte) : DaemonEvent → Prop
  | .main answer => ∀ count ∈ answer.count, count < 2 ^ 31
  | _ => True

instance daemonEventSmallDecidable (d : LogDaemon Byte) :
    ∀ event : DaemonEvent, Decidable (event.Small d)
  | .main answer => inferInstanceAs (Decidable (∀ count ∈ answer.count, count < 2 ^ 31))
  | .kernel _ => isTrue trivial
  | .sigUsr1 => isTrue trivial
  | .sigTerm _ => isTrue trivial

/-- The daemon when it comes to its loop, with both files open. -/
def daemonStart (address : Nat) (garbage : LogEntry) : LogDaemon Byte where
  queue := logStep (logInit address garbage) .seekerLogOpen
  stage := .test
  doSample := true
  inError := false
  buffered := []
  out := { finished := [], outfile := [], pending := [], outError := false, lost := false }

/-- The files, in the order of their numbers. -/
def LogDaemon.files (d : LogDaemon Byte) : List (List Byte) := d.out.finished ++ [d.out.outfile]

/-- `decodelog < file`. -/
def decodelogFile (format : LogFormat Byte) (file : List Byte) : List Char :=
  decodelog (format.readAll file)

/-- The daemon is not in its inner loop, nor was when it ended. -/
def LogDaemon.Outside (d : LogDaemon Byte) : Bool :=
  match d.stage with
  | .fill _ => false
  | .device _ _ => false
  | .filled _ => false
  | .write _ => false
  | .ended cut => !cut
  | _ => true

end Daemon

/-! ### The results of the reads -/

section Results

variable {q : LogQueue}

theorem write_results (pointer : Option LinkedHeap.Pointer) (change : LogBlock → LogBlock)
    (q : LogQueue) : (q.write pointer change).results = q.results ∧
      (q.write pointer change).reader = q.reader := by
  unfold LogQueue.write
  split
  · exact ⟨rfl, rfl⟩
  · split
    · exact ⟨rfl, rfl⟩
    · exact ⟨rfl, rfl⟩

/-- A writer's step returns no read and ends none. -/
theorem writeStep_results (memory : Option (Nat × LogBlock)) (entry : LogEntry)
    (holder : LogHolder) (q : LogQueue) :
    (writeStep memory entry holder q).results = q.results ∧
      (q.reader = none → (writeStep memory entry holder q).reader = none) := by
  unfold writeStep
  cases holder.stage with
  | check =>
    dsimp only
    split
    · exact ⟨rfl, id⟩
    · exact ⟨rfl, id⟩
  | alloc =>
    dsimp only
    split
    · exact ⟨rfl, id⟩
    · split
      · exact ⟨rfl, id⟩
      · exact ⟨rfl, id⟩
  | clearNext p =>
    obtain ⟨results, reader⟩ := write_results (some p) (setNext none) q
    exact ⟨results, reader.trans⟩
  | fill p =>
    obtain ⟨results, reader⟩ := write_results (some p) (setEntry entry) q
    exact ⟨results, reader.trans⟩
  | put p =>
    dsimp only
    split
    · exact ⟨rfl, id⟩
    · refine ⟨rfl, fun idle => ?_⟩
      show q.reader.map LogRead.disturb = none
      rw [idle]
      rfl
  | link p last =>
    obtain ⟨results, reader⟩ := write_results last (setNext (some p)) q
    exact ⟨results, reader.trans⟩
  | advance p => exact ⟨rfl, id⟩
  | unlock => exact ⟨rfl, id⟩

/-- One more read has returned, and none is in progress. -/
def ReturnedOne (q q' : LogQueue) : Prop :=
  ∃ result, q'.results = q.results ++ [result] ∧ q'.reader = none

theorem logFree_results (pointer : Option LinkedHeap.Pointer) (q : LogQueue) :
    (logFree pointer q).results = q.results := by
  unfold logFree
  split
  · rfl
  · split
    · rfl
    · dsimp only
      split
      · rfl
      · rfl

theorem access_results {pointer : Option LinkedHeap.Pointer} {go : LogBlock → LogQueue}
    (steps : ∀ block, (go block).results = q.results ∨ ReturnedOne q (go block)) :
    (q.access pointer go).results = q.results ∨ ReturnedOne q (q.access pointer go) := by
  unfold LogQueue.access
  split
  · exact Or.inl rfl
  · exact steps _

/-- A step of the read in progress returns it or not. -/
theorem readStep_results (r : LogRead) (q : LogQueue) :
    (readStep r q).results = q.results ∨ ReturnedOne q (readStep r q) := by
  have finished (returned : Int) : ReturnedOne q (q.finish r returned) := ⟨_, rfl, rfl⟩
  unfold readStep
  cases r.stage with
  | testStart =>
    dsimp only
    split
    · exact Or.inr (finished 0)
    · exact Or.inl rfl
  | compare start =>
    dsimp only
    split
    · exact Or.inr (finished 0)
    · exact Or.inl rfl
  | testFirst =>
    dsimp only
    split
    · exact Or.inl rfl
    · exact Or.inl rfl
  | testHead start =>
    refine access_results fun block => ?_
    split
    · exact Or.inr (finished 0)
    · exact Or.inl rfl
  | loadNext discard log start => exact access_results fun _ => Or.inl rfl
  | free discard log =>
    dsimp only
    split
    · exact Or.inl (logFree_results log q)
    · exact Or.inl (logFree_results log q)
  | testRoom =>
    dsimp only
    split
    · exact Or.inl rfl
    · exact Or.inr (finished r.i)
  | testNext start =>
    refine access_results fun block => ?_
    split
    · exact Or.inr (finished r.i)
    · exact Or.inl rfl
  | testEnd start =>
    dsimp only
    split
    · exact Or.inr (finished r.i)
    · exact Or.inl rfl
  | copy start => exact access_results fun _ => Or.inl rfl
  | _ => exact Or.inl rfl

end Results

/-! ### What the daemon holds -/

section Kept

variable {Byte : Type} {format : LogFormat Byte} {d d' : LogDaemon Byte}

/-- The chunk of a call of `fread` and what the stream has read ahead are whole records. -/
def ChunkHolds (format : LogFormat Byte) (chunk buffered : List Byte) (rest : List LogEntry) :
    Prop :=
  ∃ first second, chunk = format.stream first ∧ buffered = format.stream second ∧
    rest = first ++ second

/-- The entries that have been delivered and are in no file: none outside the inner loop, and there
those of the chunk, those that were read ahead and those of a read that has just returned. -/
def LogDaemon.Holds (format : LogFormat Byte) (d : LogDaemon Byte) (rest : List LogEntry) : Prop :=
  match d.stage with
  | .fill chunk => d.queue.reader = none ∧ ChunkHolds format chunk d.buffered rest
  | .device chunk asked => d.buffered = [] ∧
      (d.queue.results.length = asked ∨
        d.queue.results.length = asked + 1 ∧ d.queue.reader = none) ∧
      ChunkHolds format chunk (format.stream
        ((d.queue.results.drop asked).flatMap LogResult.entries)) rest
  | .filled chunk => d.queue.reader = none ∧ ChunkHolds format chunk d.buffered rest ∧
      (chunk = [] → d.buffered = [])
  | .write chunk => d.queue.reader = none ∧ ChunkHolds format chunk d.buffered rest
  | .ended cut => d.queue.reader = none ∧ (cut = false → rest = [])
  | .undefined => d.queue.reader = none ∧ rest = []
  | _ => d.queue.reader = none ∧ d.buffered = [] ∧ rest = []

/-- What was given to each file; of a file a tail is missing at most: what its stream keeps, or what
could not be written. -/
structure FilesHold (format : LogFormat Byte) (out : DaemonFiles Byte)
    (parts : List (List LogEntry)) (part : List LogEntry) : Prop where
  finished : List.Forall₂ (fun file entries => file <+: format.stream entries) out.finished parts
  whole : out.lost = false → out.finished = parts.map format.stream
  outfile : out.outfile <+: format.stream part
  stream : out.outError = false → out.outfile ++ out.pending = format.stream part

/-- Whether the file is open or closed, as long as this is known. -/
def DaemonStage.output : DaemonStage Byte → Option Bool
  | .closeIn => some false
  | .openOut => some false
  | .ended _ => some false
  | .undefined => none
  | _ => some true

/-- The files were given these entries, in order; with the rest they are what the reads have
delivered. -/
structure DaemonAccount (format : LogFormat Byte) (d : LogDaemon Byte)
    (parts : List (List LogEntry)) (part rest : List LogEntry) : Prop where
  files : FilesHold format d.out parts part
  opened : d.stage.output = some true → d.out.outError = false
  closed : d.stage.output = some false → d.out.pending = []
  delivered : parts.flatten ++ part ++ rest = d.queue.results.flatMap LogResult.entries
  holds : d.Holds format rest

/-- The invariant. -/
structure DaemonKept (format : LogFormat Byte) (d : LogDaemon Byte) : Prop where
  queue : ∃ l, LogKept d.queue l
  account : ∃ parts part rest, DaemonAccount format d parts part rest

variable {parts : List (List LogEntry)} {part rest first : List LogEntry} {out : DaemonFiles Byte}

/-- A chunk is given to the stream. -/
theorem FilesHold.fwrite (files : FilesHold format out parts part) (intact : out.outError = false)
    (flushed : Nat) (failedAfter : Option Nat) :
    FilesHold format (out.fwrite (format.stream first) flushed failedAfter) parts (part ++ first) := by
  have whole : out.outfile ++ (out.pending ++ format.stream first) =
      format.stream (part ++ first) := by
    rw [← List.append_assoc, files.stream intact, Format.stream_append]
  have written (length : Nat) :
      out.outfile ++ (out.pending ++ format.stream first).take length <+:
        format.stream (part ++ first) := by
    rw [← whole, List.prefix_append_right_inj]
    exact List.take_prefix length _
  unfold DaemonFiles.fwrite
  cases failedAfter with
  | none =>
    refine ⟨files.finished, files.whole, written flushed, fun _ => ?_⟩
    dsimp only
    rw [List.append_assoc, List.take_append_drop]
    exact whole
  | some length =>
    exact ⟨files.finished, files.whole, written length, fun never => Bool.noConfusion never⟩

/-- The stream is closed. -/
theorem FilesHold.fclose (files : FilesHold format out parts part)
    (intact : out.outError = false ∨ out.pending = []) (failedAfter : Option Nat) :
    FilesHold format (out.fclose failedAfter) parts part := by
  have written (length : Nat) :
      out.outfile ++ out.pending.take length <+: format.stream part := by
    rcases intact with good | empty
    · rw [← files.stream good, List.prefix_append_right_inj]
      exact List.take_prefix length _
    · rw [empty, List.take_nil, List.append_nil]
      exact files.outfile
  unfold DaemonFiles.fclose
  cases failedAfter with
  | none =>
    refine ⟨files.finished, files.whole, ?_, fun good => ?_⟩
    · have all := written out.pending.length
      rwa [List.take_length] at all
    · dsimp only
      rw [List.append_nil]
      exact files.stream good
  | some length =>
    exact ⟨files.finished, files.whole, written length, fun never => Bool.noConfusion never⟩

theorem DaemonFiles.fclose_pending (failedAfter : Option Nat) (out : DaemonFiles Byte) :
    (out.fclose failedAfter).pending = [] := by
  cases failedAfter <;> rfl

/-- The file that was closed is one of those that are finished. -/
theorem FilesHold.next (files : FilesHold format out parts part) (closed : out.pending = []) :
    FilesHold format out.next (parts ++ [part]) [] where
  finished := List.rel_append files.finished (List.Forall₂.cons files.outfile List.Forall₂.nil)
  whole kept := by
    obtain ⟨earlier, last⟩ := Bool.or_eq_false_iff.mp kept
    have stream := files.stream last
    rw [closed, List.append_nil] at stream
    show out.finished ++ [out.outfile] = _
    rw [files.whole earlier, stream, List.map_append]
    rfl
  outfile := List.nil_prefix
  stream _ := rfl

/-- The daemon goes on without touching its files or what is delivered. -/
theorem DaemonAccount.go (account : DaemonAccount format d parts part rest)
    (out : d'.out = d.out) (results : d'.queue.results = d.queue.results)
    (output : d'.stage.output = d.stage.output ∨ d'.stage.output = none)
    (holds : d'.Holds format rest) : DaemonAccount format d' parts part rest := by
  refine ⟨out ▸ account.files, fun told => ?_, fun told => ?_, ?_, holds⟩
  · rw [out]
    exact account.opened ((output.resolve_right (by rw [told]; exact nofun)).symm.trans told)
  · rw [out]
    exact account.closed ((output.resolve_right (by rw [told]; exact nofun)).symm.trans told)
  · rw [results]
    exact account.delivered

/-- What the stream has kept is written, or there is nothing. -/
theorem DaemonAccount.intact (account : DaemonAccount format d parts part rest)
    (known : d.stage.output ≠ none) : d.out.outError = false ∨ d.out.pending = [] := by
  cases told : d.stage.output with
  | none => exact absurd told known
  | some isOpen =>
    cases isOpen with
    | true => exact Or.inl (account.opened told)
    | false => exact Or.inr (account.closed told)

/-- No read is in progress, unless the daemon waits for it. -/
theorem LogDaemon.Holds.reader (holds : d.Holds format rest)
    (apart : ∀ chunk asked, d.stage ≠ .device chunk asked) : d.queue.reader = none := by
  unfold LogDaemon.Holds at holds
  split at holds
  · exact holds.1
  · rename_i stage
    exact absurd stage (apart _ _)
  · exact holds.1
  · exact holds.1
  · exact holds.1
  · exact holds.1
  · exact holds.1

/-- The number of bytes that are left of `buf` is that of whole records. -/
theorem bufferSize_sub_stream (format : LogFormat Byte) (records : List LogEntry) :
    bufferSize - (format.stream records).length = format.size * (4096 - records.length) := by
  rw [Format.length_stream, bufferSize, ← format.size_eq, Nat.mul_comm 4096, Nat.mul_sub]

/-- What `fread` takes of some records is whole records again, and so is what stays. -/
theorem ChunkHolds.take {chunk ahead : List Byte} (chunked : ChunkHolds format chunk ahead rest) :
    ChunkHolds format (chunk ++ ahead.take (bufferSize - chunk.length))
      (ahead.drop (bufferSize - chunk.length)) rest := by
  obtain ⟨first, second, rfl, rfl, rfl⟩ := chunked
  rw [bufferSize_sub_stream, Format.take_stream, Format.drop_stream, ← Format.stream_append]
  exact ⟨_, _, rfl, rfl, by rw [List.append_assoc, List.take_append_drop]⟩

/-- The daemon ends in its inner loop, or outside of it with nothing left. -/
theorem DaemonAccount.exit {cut : Bool} (account : DaemonAccount format d parts part rest)
    (known : d.stage.output ≠ none) (reader : d.queue.reader = none)
    (outside : cut = false → rest = []) (failedAfter : Option Nat) :
    DaemonAccount format (d.exit cut failedAfter) parts part rest where
  files := account.files.fclose (account.intact known) failedAfter
  opened told := by cases told
  closed _ := DaemonFiles.fclose_pending failedAfter d.out
  delivered := account.delivered
  holds := ⟨reader, outside⟩

theorem LogKept.closed {q : LogQueue} {l : LogLayout} (kept : LogKept q l) :
    LogKept (logStep q .seekerLogClose) l := kept.congr q.spinning false

theorem LogKept.opened {q : LogQueue} {l : LogLayout} (kept : LogKept q l) :
    LogKept (logStep q .seekerLogOpen) l := kept.congr q.spinning true

theorem DaemonKept.exit {cut : Bool} (kept : DaemonKept format d)
    (known : d.stage.output ≠ none) (reader : d.queue.reader = none)
    (outside : ∀ rest, d.Holds format rest → cut = false → rest = [])
    (failedAfter : Option Nat) : DaemonKept format (d.exit cut failedAfter) := by
  obtain ⟨l, queue⟩ := kept.queue
  obtain ⟨parts, part, rest, account⟩ := kept.account
  exact ⟨⟨l, queue.closed⟩, parts, part, rest,
    account.exit known reader (outside rest account.holds) failedAfter⟩

/-- A step that leaves the queue and the files alone. -/
theorem DaemonKept.go (kept : DaemonKept format d) (queue : d'.queue = d.queue)
    (out : d'.out = d.out) (output : d'.stage.output = d.stage.output ∨ d'.stage.output = none)
    (holds : ∀ rest, d.Holds format rest → d'.Holds format rest) : DaemonKept format d' := by
  obtain ⟨parts, part, rest, account⟩ := kept.account
  exact ⟨queue ▸ kept.queue, parts, part, rest, account.go out
    (congrArg LogQueue.results queue) output (holds rest account.holds)⟩

/-! ### The steps of the daemon -/

/-- What is held outside the inner loop, while the daemon runs. -/
def LogDaemon.HoldsNothing (d : LogDaemon Byte) (rest : List LogEntry) : Prop :=
  d.queue.reader = none ∧ d.buffered = [] ∧ rest = []

/-- The stages of the sleep and of the other branch. -/
def DaemonStage.Idle : DaemonStage Byte → Prop
  | .test => True
  | .slept => True
  | .closeOut => True
  | .closeIn => True
  | .openOut => True
  | .openIn => True
  | .resume => True
  | _ => False

theorem LogDaemon.holds_idle (idle : d.stage.Idle) : d.Holds format rest ↔ d.HoldsNothing rest := by
  unfold LogDaemon.Holds LogDaemon.HoldsNothing
  unfold DaemonStage.Idle at idle
  split at idle <;> simp_all

theorem DaemonStage.Idle.known {stage : DaemonStage Byte} (idle : stage.Idle) :
    stage.output ≠ none := by
  unfold DaemonStage.Idle at idle
  split at idle
  · exact nofun
  · exact nofun
  · exact nofun
  · exact nofun
  · exact nofun
  · exact nofun
  · exact nofun
  · exact idle.elim

/-- From one stage outside the inner loop to another. -/
theorem DaemonKept.goIdle (kept : DaemonKept format d) (queue : d'.queue = d.queue)
    (out : d'.out = d.out) (buffered : d'.buffered = d.buffered) (idle : d.stage.Idle)
    (idle' : d'.stage.Idle) (output : d'.stage.output = d.stage.output) : DaemonKept format d' := by
  refine kept.go queue out (Or.inl output) fun rest holds => ?_
  obtain ⟨reader, empty, nothing⟩ := (LogDaemon.holds_idle idle).mp holds
  exact (LogDaemon.holds_idle idle').mpr
    ⟨(congrArg LogQueue.reader queue).trans reader, buffered.trans empty, nothing⟩

/-- The daemon ends outside its inner loop. -/
theorem DaemonKept.exitIdle (kept : DaemonKept format d) (idle : d.stage.Idle)
    (failedAfter : Option Nat) : DaemonKept format (d.exit false failedAfter) := by
  obtain ⟨parts, part, rest, account⟩ := kept.account
  have held := (LogDaemon.holds_idle idle).mp account.holds
  exact kept.exit idle.known held.1 (fun rest holds _ =>
    ((LogDaemon.holds_idle idle).mp holds).2.2) failedAfter

theorem LogDaemon.holds_fill {chunk : List Byte} (stage : d.stage = .fill chunk) :
    d.Holds format rest ↔ d.queue.reader = none ∧ ChunkHolds format chunk d.buffered rest := by
  unfold LogDaemon.Holds
  rw [stage]

theorem LogDaemon.holds_device {chunk : List Byte} {asked : Nat}
    (stage : d.stage = .device chunk asked) :
    d.Holds format rest ↔ d.buffered = [] ∧
      (d.queue.results.length = asked ∨
        d.queue.results.length = asked + 1 ∧ d.queue.reader = none) ∧
      ChunkHolds format chunk (format.stream
        ((d.queue.results.drop asked).flatMap LogResult.entries)) rest := by
  unfold LogDaemon.Holds
  rw [stage]

theorem LogDaemon.holds_filled {chunk : List Byte} (stage : d.stage = .filled chunk) :
    d.Holds format rest ↔ d.queue.reader = none ∧ ChunkHolds format chunk d.buffered rest ∧
      (chunk = [] → d.buffered = []) := by
  unfold LogDaemon.Holds
  rw [stage]

theorem LogDaemon.holds_write {chunk : List Byte} (stage : d.stage = .write chunk) :
    d.Holds format rest ↔ d.queue.reader = none ∧ ChunkHolds format chunk d.buffered rest := by
  unfold LogDaemon.Holds
  rw [stage]

/-- `fread` asks the device only when nothing is read ahead, and then for what it lacks. -/
theorem DaemonKept.fill {answer : DaemonAnswer} {chunk : List Byte} (kept : DaemonKept format d)
    (stage : d.stage = .fill chunk) (small : ∀ count ∈ answer.count, count < 2 ^ 31) :
    DaemonKept format (d.main format answer) := by
  have same (chunk : List Byte) :
      (DaemonStage.filled chunk).output = d.stage.output := by rw [stage]; rfl
  unfold LogDaemon.main
  rw [stage]
  dsimp only
  split
  · rename_i full
    refine kept.go rfl rfl (Or.inl (same [])) fun rest holds => ?_
    obtain ⟨reader, chunked⟩ := (LogDaemon.holds_fill stage).mp holds
    refine (LogDaemon.holds_filled rfl).mpr ⟨reader, chunked, fun empty => ?_⟩
    rw [empty] at full
    exact absurd full (show bufferSize ≠ 0 by decide)
  · split
    · rename_i empty
      rw [List.isEmpty_iff] at empty
      split
      · refine kept.go rfl rfl (Or.inl (same [])) fun rest holds => ?_
        obtain ⟨reader, chunked⟩ := (LogDaemon.holds_fill stage).mp holds
        exact (LogDaemon.holds_filled rfl).mpr ⟨reader, chunked, fun _ => empty⟩
      · rename_i count asks
        obtain ⟨l, queue⟩ := kept.queue
        obtain ⟨parts, part, rest, account⟩ := kept.account
        obtain ⟨reader, first, second, chunkEq, ahead, restEq⟩ :=
          (LogDaemon.holds_fill stage).mp account.holds
        have called : logStep d.queue (.seekerLogRead true count) =
            { d.queue with
              reader := some ⟨true, count, 0, [], !putting d.queue.lock, .testStart⟩ } := by
          unfold logStep
          rw [reader]
        have results : (logStep d.queue (.seekerLogRead true count)).results = d.queue.results := by
          rw [called]
        have fits : (LogEvent.seekerLogRead true count).Small d.queue := small count asks
        refine ⟨logStep_kept queue fits, parts, part, rest,
          account.go rfl results (Or.inl (same [])) ?_⟩
        refine (LogDaemon.holds_device rfl).mpr
          ⟨empty, Or.inl (congrArg List.length results), first, [], chunkEq, ?_, ?_⟩
        · show format.stream (((logStep d.queue _).results.drop _).flatMap _) = _
          rw [results, List.drop_length]
          rfl
        · rw [restEq, Format.stream_eq_nil_iff.mp (ahead.symm.trans empty)]
    · refine kept.go rfl rfl (Or.inl (same [])) fun rest holds => ?_
      obtain ⟨reader, chunked⟩ := (LogDaemon.holds_fill stage).mp holds
      exact (LogDaemon.holds_fill rfl).mpr ⟨reader, chunked.take⟩

/-- A read that returns has its entries taken; one that returns none ends the call of `fread`. -/
theorem DaemonKept.device {answer : DaemonAnswer} {chunk : List Byte} {asked : Nat}
    (kept : DaemonKept format d) (stage : d.stage = .device chunk asked) :
    DaemonKept format (d.main format answer) := by
  have same (chunk : List Byte) :
      (DaemonStage.filled chunk).output = d.stage.output := by rw [stage]; rfl
  obtain ⟨l, queue⟩ := kept.queue
  unfold LogDaemon.main
  rw [stage]
  dsimp only
  split
  · exact kept
  · rename_i result found
    have proper := queue.results result (List.mem_of_getElem? found)
    -- The read has returned, and it is the only one since the call.
    have returned (rest : List LogEntry) (holds : d.Holds format rest) : d.buffered = [] ∧
        d.queue.reader = none ∧ ChunkHolds format chunk (format.stream result.entries) rest := by
      obtain ⟨empty, count, chunked⟩ := (LogDaemon.holds_device stage).mp holds
      obtain ⟨inRange, there⟩ := List.getElem?_eq_some_iff.mp found
      obtain ⟨length, reader⟩ := count.resolve_left (Nat.ne_of_gt inRange)
      have last : d.queue.results.drop asked = [result] := by
        rw [List.drop_eq_getElem_cons inRange, there, List.drop_of_length_le (by omega)]
      rw [last, List.flatMap_singleton] at chunked
      exact ⟨empty, reader, chunked⟩
    split
    · rename_i nothing
      refine kept.go rfl rfl (Or.inl (same [])) fun rest holds => ?_
      obtain ⟨empty, reader, first, second, chunkEq, ahead, restEq⟩ := returned rest holds
      have none_ : result.entries = [] := by
        rw [proper.whole] at nothing
        unfold sizeofLogT at nothing
        exact List.eq_nil_of_length_eq_zero (by omega)
      rw [none_, Format.stream_nil] at ahead
      exact (LogDaemon.holds_filled rfl).mpr
        ⟨reader, ⟨first, second, chunkEq, empty.trans ahead, restEq⟩, fun _ => empty⟩
    · refine kept.go rfl rfl (Or.inl (same [])) fun rest holds => ?_
      obtain ⟨_, reader, chunked⟩ := returned rest holds
      exact (LogDaemon.holds_fill rfl).mpr ⟨reader, chunked.take⟩

/-- `fread` has returned. -/
theorem DaemonKept.filled {answer : DaemonAnswer} {chunk : List Byte} (kept : DaemonKept format d)
    (stage : d.stage = .filled chunk) : DaemonKept format (d.main format answer) := by
  have same (chunk : List Byte) :
      (DaemonStage.filled chunk).output = d.stage.output := by rw [stage]; rfl
  unfold LogDaemon.main
  rw [stage]
  dsimp only
  split
  · rename_i empty
    rw [List.isEmpty_iff] at empty
    refine kept.go rfl rfl (Or.inl (same [])) fun rest holds => ?_
    obtain ⟨reader, ⟨first, second, chunkEq, ahead, restEq⟩, drained⟩ :=
      (LogDaemon.holds_filled stage).mp holds
    refine (LogDaemon.holds_idle (by trivial)).mpr ⟨reader, drained empty, ?_⟩
    rw [restEq, Format.stream_eq_nil_iff.mp (chunkEq.symm.trans empty),
      Format.stream_eq_nil_iff.mp (ahead.symm.trans (drained empty))]
    rfl
  · split
    · obtain ⟨parts, part, rest, account⟩ := kept.account
      exact kept.exit (by rw [stage]; exact nofun)
        ((LogDaemon.holds_filled stage).mp account.holds).1
        (fun _ _ never => Bool.noConfusion never) answer.failedAfter
    · refine kept.go rfl rfl (Or.inl (same [])) fun rest holds => ?_
      obtain ⟨reader, chunked, _⟩ := (LogDaemon.holds_filled stage).mp holds
      exact (LogDaemon.holds_write rfl).mpr ⟨reader, chunked⟩

/-- The chunk is given to the stream; where that fails the daemon ends. -/
theorem DaemonKept.write {answer : DaemonAnswer} {chunk : List Byte} (kept : DaemonKept format d)
    (stage : d.stage = .write chunk) : DaemonKept format (d.main format answer) := by
  obtain ⟨l, queue⟩ := kept.queue
  obtain ⟨parts, part, rest, account⟩ := kept.account
  obtain ⟨reader, first, second, rfl, ahead, restEq⟩ :=
    (LogDaemon.holds_write stage).mp account.holds
  have intact : d.out.outError = false := account.opened (by rw [stage]; rfl)
  have files : FilesHold format
      (d.out.fwrite (format.stream first) answer.flushed answer.failedAfter) parts (part ++ first) :=
    account.files.fwrite intact answer.flushed answer.failedAfter
  have delivered : parts.flatten ++ (part ++ first) ++ second =
      d.queue.results.flatMap LogResult.entries := by
    rw [← account.delivered, restEq]
    simp only [List.append_assoc]
  unfold LogDaemon.main
  rw [stage]
  dsimp only
  split
  · rename_i failed
    obtain ⟨written, failed⟩ := Option.isSome_iff_exists.mp failed
    rw [failed] at files ⊢
    exact ⟨⟨l, queue.closed⟩, parts, part ++ first, second, files.fclose (Or.inr rfl) none,
      nofun, fun _ => rfl, delivered, reader, nofun⟩
  · rename_i done
    have written : answer.failedAfter = none := Option.not_isSome_iff_eq_none.mp done
    rw [written] at files ⊢
    exact ⟨⟨l, queue⟩, parts, part ++ first, second, files, fun _ => intact, nofun, delivered,
      (LogDaemon.holds_fill rfl).mpr ⟨reader, [], second, rfl, ahead, rfl⟩⟩

/-- Every step of `main` keeps the invariant. -/
theorem DaemonKept.main {answer : DaemonAnswer} (kept : DaemonKept format d)
    (small : ∀ count ∈ answer.count, count < 2 ^ 31) :
    DaemonKept format (d.main format answer) := by
  cases stage : d.stage with
  | fill chunk => exact kept.fill stage small
  | device chunk asked => exact kept.device stage
  | filled chunk => exact kept.filled stage
  | write chunk => exact kept.write stage
  | test =>
    have idle : d.stage.Idle := by rw [stage]; trivial
    unfold LogDaemon.main
    rw [stage]
    dsimp only
    split
    · refine kept.go rfl rfl (Or.inl (by rw [stage]; rfl)) fun rest holds => ?_
      obtain ⟨reader, empty, nothing⟩ := (LogDaemon.holds_idle idle).mp holds
      exact (LogDaemon.holds_fill rfl).mpr ⟨reader, [], [], rfl, empty, nothing⟩
    · exact kept.goIdle rfl rfl rfl idle trivial (by rw [stage]; rfl)
  | slept =>
    have idle : d.stage.Idle := by rw [stage]; trivial
    unfold LogDaemon.main
    rw [stage]
    dsimp only
    split
    · exact kept.exitIdle idle answer.failedAfter
    · exact kept.goIdle rfl rfl rfl idle trivial (by rw [stage]; rfl)
  | closeOut =>
    have idle : d.stage.Idle := by rw [stage]; trivial
    obtain ⟨parts, part, rest, account⟩ := kept.account
    have held := (LogDaemon.holds_idle idle).mp account.holds
    unfold LogDaemon.main
    rw [stage]
    exact ⟨kept.queue, parts, part, rest,
      account.files.fclose (account.intact idle.known) answer.failedAfter, nofun,
      fun _ => DaemonFiles.fclose_pending answer.failedAfter d.out, account.delivered,
      (LogDaemon.holds_idle (by trivial)).mpr held⟩
  | closeIn =>
    have idle : d.stage.Idle := by rw [stage]; trivial
    obtain ⟨l, queue⟩ := kept.queue
    obtain ⟨parts, part, rest, account⟩ := kept.account
    obtain ⟨reader, empty, nothing⟩ := (LogDaemon.holds_idle idle).mp account.holds
    unfold LogDaemon.main
    rw [stage]
    exact ⟨⟨l, queue.closed⟩, parts, part, rest, account.go rfl rfl (Or.inl (by rw [stage]; rfl))
      ((LogDaemon.holds_idle (by trivial)).mpr ⟨reader, rfl, nothing⟩)⟩
  | openOut =>
    have idle : d.stage.Idle := by rw [stage]; trivial
    unfold LogDaemon.main
    rw [stage]
    dsimp only
    split
    · exact kept.exitIdle idle none
    · obtain ⟨parts, part, rest, account⟩ := kept.account
      have held := (LogDaemon.holds_idle idle).mp account.holds
      have closed : d.out.pending = [] := account.closed (by rw [stage]; rfl)
      refine ⟨kept.queue, parts ++ [part], [], rest, account.files.next closed, fun _ => rfl, nofun,
        ?_, (LogDaemon.holds_idle (by trivial)).mpr held⟩
      rw [List.flatten_append, List.flatten_singleton, List.append_nil]
      exact account.delivered
  | openIn =>
    have idle : d.stage.Idle := by rw [stage]; trivial
    unfold LogDaemon.main
    rw [stage]
    dsimp only
    split
    · obtain ⟨l, queue⟩ := kept.queue
      obtain ⟨parts, part, rest, account⟩ := kept.account
      have held := (LogDaemon.holds_idle idle).mp account.holds
      exact ⟨⟨l, queue.opened⟩, parts, part, rest, account.go rfl rfl
        (Or.inl (by rw [stage]; rfl)) ((LogDaemon.holds_idle (by trivial)).mpr held)⟩
    · exact kept.exitIdle idle none
  | resume =>
    have idle : d.stage.Idle := by rw [stage]; trivial
    unfold LogDaemon.main
    rw [stage]
    exact kept.goIdle rfl rfl rfl idle trivial (by rw [stage]; rfl)
  | ended cut =>
    unfold LogDaemon.main
    rw [stage]
    exact kept
  | undefined =>
    unfold LogDaemon.main
    rw [stage]
    exact kept

/-! ### The steps beside the daemon -/

/-- A step that returns no read. -/
theorem LogDaemon.Holds.idle {q : LogQueue} (holds : d.Holds format rest)
    (apart : ∀ chunk asked, d.stage ≠ .device chunk asked) (reader : q.reader = none) :
    LogDaemon.Holds format { d with queue := q } rest := by
  unfold LogDaemon.Holds at holds ⊢
  dsimp only
  split at holds
  · exact ⟨reader, holds.2⟩
  · rename_i stage
    exact absurd stage (apart _ _)
  · exact ⟨reader, holds.2⟩
  · exact ⟨reader, holds.2⟩
  · exact ⟨reader, holds.2⟩
  · exact ⟨reader, holds.2⟩
  · exact ⟨reader, holds.2⟩

/-- The queue goes on: it returns the read that the daemon waits for, or none. -/
theorem DaemonKept.queueStep {q : LogQueue} (kept : DaemonKept format d)
    (queue : ∃ l, LogKept q l)
    (results : q.results = d.queue.results ∨ ReturnedOne d.queue q)
    (idle : d.queue.reader = none → q.results = d.queue.results ∧ q.reader = none) :
    DaemonKept format { d with queue := q } := by
  obtain ⟨parts, part, rest, account⟩ := kept.account
  by_cases waits : ∃ chunk asked, d.stage = .device chunk asked
  · obtain ⟨chunk, asked, stage⟩ := waits
    have stage' : ({ d with queue := q } : LogDaemon Byte).stage = .device chunk asked := stage
    obtain ⟨empty, count, first, second, chunkEq, ahead, restEq⟩ :=
      (LogDaemon.holds_device stage).mp account.holds
    rcases results with same | ⟨result, more, reader⟩
    · refine ⟨queue, parts, part, rest, account.go rfl same (Or.inl rfl) ?_⟩
      refine (LogDaemon.holds_device stage').mpr ⟨empty, ?_, first, second, chunkEq, ?_, restEq⟩
      · rcases count with length | ⟨length, idleReader⟩
        · exact Or.inl ((congrArg List.length same).trans length)
        · exact Or.inr ⟨(congrArg List.length same).trans length, (idle idleReader).2⟩
      · rw [same]
        exact ahead
    · -- The read was still in progress: nothing had been returned since the call.
      have length : d.queue.results.length = asked := by
        refine count.resolve_right fun done => ?_
        have same := congrArg List.length (more.symm.trans (idle done.2).1)
        rw [List.length_append] at same
        exact absurd same (Nat.ne_of_gt (Nat.lt_succ_self _))
      have before : d.queue.results.drop asked = [] := List.drop_of_length_le (Nat.le_of_eq length)
      rw [before, List.flatMap_nil, Format.stream_nil] at ahead
      have nothing : second = [] := Format.stream_eq_nil_iff.mp ahead.symm
      rw [nothing, List.append_nil] at restEq
      refine ⟨queue, parts, part, first ++ result.entries,
        ⟨account.files, account.opened, account.closed, ?_, ?_⟩⟩
      · show _ = q.results.flatMap _
        rw [more, List.flatMap_append, ← account.delivered, restEq, List.flatMap_singleton,
          List.append_assoc, List.append_assoc, List.append_assoc]
      · refine (LogDaemon.holds_device stage').mpr
          ⟨empty, Or.inr ⟨?_, reader⟩, first, result.entries, chunkEq, ?_, rfl⟩
        · show q.results.length = _
          rw [more, List.length_append, length]
          rfl
        · show format.stream ((q.results.drop asked).flatMap _) = _
          rw [more, ← length, List.drop_left, List.flatMap_singleton]
  · have apart (chunk : List Byte) (asked : Nat) : d.stage ≠ .device chunk asked :=
      fun stage => waits ⟨chunk, asked, stage⟩
    obtain ⟨same, reader⟩ := idle (account.holds.reader apart)
    exact ⟨queue, parts, part, rest,
      account.go rfl same (Or.inl rfl) (account.holds.idle apart reader)⟩

/-- A step of a writer or of the read in progress. -/
theorem DaemonKept.kernel (kept : DaemonKept format d) (event : LogEvent) :
    DaemonKept format (d.kernel event) := by
  obtain ⟨l, queue⟩ := kept.queue
  have small (event : LogEvent) (apart : ∀ buffer count, event ≠ .seekerLogRead buffer count) :
      event.Small d.queue := by
    cases event with
    | seekerLogRead buffer count => exact absurd rfl (apart buffer count)
    | _ => trivial
  cases event with
  | seekerLogOpen => exact kept
  | seekerLogClose => exact kept
  | seekerLogRead buffer count => exact kept
  | getLog writer =>
    have same : (logStep d.queue (.getLog writer)).results = d.queue.results ∧
        (logStep d.queue (.getLog writer)).reader = d.queue.reader := by
      unfold logStep
      dsimp only
      split
      · exact ⟨rfl, rfl⟩
      · exact ⟨rfl, rfl⟩
    exact kept.queueStep (logStep_kept queue (small (.getLog writer) nofun)) (Or.inl same.1)
      fun reader => ⟨same.1, same.2.trans reader⟩
  | acquire writer =>
    have same : (logStep d.queue (.acquire writer)).results = d.queue.results ∧
        (logStep d.queue (.acquire writer)).reader = d.queue.reader := by
      unfold logStep
      dsimp only
      split
      · exact ⟨rfl, rfl⟩
      · split
        · exact ⟨rfl, rfl⟩
        · exact ⟨rfl, rfl⟩
    exact kept.queueStep (logStep_kept queue (small (.acquire writer) nofun)) (Or.inl same.1)
      fun reader => ⟨same.1, same.2.trans reader⟩
  | write memory entry =>
    have same : (logStep d.queue (.write memory entry)).results = d.queue.results ∧
        (d.queue.reader = none → (logStep d.queue (.write memory entry)).reader = none) := by
      unfold logStep
      dsimp only
      split
      · exact ⟨rfl, id⟩
      · exact writeStep_results memory entry _ d.queue
    exact kept.queueStep (logStep_kept queue (small (.write memory entry) nofun))
      (Or.inl same.1) fun reader => ⟨same.1, same.2 reader⟩
  | read =>
    refine kept.queueStep (logStep_kept queue (small (.read) nofun)) ?_ fun reader => ?_
    · unfold logStep
      dsimp only
      split
      · exact Or.inl rfl
      · exact readStep_results _ d.queue
    · have none_ : logStep d.queue .read = d.queue := by
        unfold logStep
        rw [reader]
      rw [none_]
      exact ⟨rfl, reader⟩

/-- `catchSig` keeps the invariant. -/
theorem DaemonKept.catchSig (kept : DaemonKept format d) : DaemonKept format d.catchSig := by
  unfold LogDaemon.catchSig
  split
  · exact kept.go rfl rfl (Or.inl rfl) fun _ holds => holds
  · exact kept

/-- `catchTerm` keeps the invariant: what the files are not given is lost in the inner loop only. -/
theorem DaemonKept.catchTerm (kept : DaemonKept format d) (failedAfter : Option Nat) :
    DaemonKept format (d.catchTerm failedAfter) := by
  unfold LogDaemon.catchTerm
  split
  swap
  · exact kept
  rename_i awake
  obtain ⟨parts, part, rest, account⟩ := kept.account
  have inLoop (known : d.stage.output ≠ none) (reader : d.queue.reader = none) :
      DaemonKept format (d.exit true failedAfter) :=
    kept.exit known reader (fun _ _ never => Bool.noConfusion never) failedAfter
  have closed (idle : d.stage.Idle) : DaemonKept format { d with stage := .undefined } := by
    refine kept.go rfl rfl (Or.inr rfl) fun rest holds => ?_
    obtain ⟨reader, _, nothing⟩ := (LogDaemon.holds_idle idle).mp holds
    exact ⟨reader, nothing⟩
  cases stage : d.stage with
  | fill chunk =>
    exact inLoop (by rw [stage]; exact nofun) ((LogDaemon.holds_fill stage).mp account.holds).1
  | device chunk asked =>
    obtain ⟨_, count, _⟩ := (LogDaemon.holds_device stage).mp account.holds
    unfold LogDaemon.Awake at awake
    rw [stage] at awake
    exact inLoop (by rw [stage]; exact nofun)
      (count.resolve_left (Nat.ne_of_gt (of_decide_eq_true awake))).2
  | filled chunk =>
    exact inLoop (by rw [stage]; exact nofun) ((LogDaemon.holds_filled stage).mp account.holds).1
  | write chunk =>
    exact inLoop (by rw [stage]; exact nofun) ((LogDaemon.holds_write stage).mp account.holds).1
  | closeIn => exact closed (by rw [stage]; trivial)
  | openOut => exact closed (by rw [stage]; trivial)
  | openIn => exact closed (by rw [stage]; trivial)
  | test => exact kept.exitIdle (by rw [stage]; trivial) failedAfter
  | slept => exact kept.exitIdle (by rw [stage]; trivial) failedAfter
  | closeOut => exact kept.exitIdle (by rw [stage]; trivial) failedAfter
  | resume => exact kept.exitIdle (by rw [stage]; trivial) failedAfter
  | ended cut =>
    unfold LogDaemon.Awake at awake
    rw [stage] at awake
    cases awake
  | undefined =>
    unfold LogDaemon.Awake at awake
    rw [stage] at awake
    cases awake

/-- Every event keeps the invariant. -/
theorem DaemonKept.step (kept : DaemonKept format d) {event : DaemonEvent}
    (small : event.Small d) : DaemonKept format (daemonStep format d event) := by
  cases event with
  | kernel event => exact kept.kernel event
  | main answer => exact kept.main small
  | sigUsr1 => exact kept.catchSig
  | sigTerm failedAfter => exact kept.catchTerm failedAfter

theorem daemonStart_kept (format : LogFormat Byte) (address : Nat) (garbage : LogEntry) :
    DaemonKept format (daemonStart address garbage) where
  queue := ⟨_, (logInit_kept address garbage).opened⟩
  account := ⟨[], [], [],
    ⟨⟨List.Forall₂.nil, fun _ => rfl, List.nil_prefix, fun _ => rfl⟩, fun _ => rfl, nofun, rfl, rfl,
      rfl, rfl⟩⟩

/-- Outside the inner loop nothing is held. -/
theorem LogDaemon.Holds.outside (holds : d.Holds format rest) (outside : d.Outside = true) :
    rest = [] := by
  cases stage : d.stage with
  | fill chunk => simp [LogDaemon.Outside, stage] at outside
  | device chunk asked => simp [LogDaemon.Outside, stage] at outside
  | filled chunk => simp [LogDaemon.Outside, stage] at outside
  | write chunk => simp [LogDaemon.Outside, stage] at outside
  | ended cut =>
    unfold LogDaemon.Holds at holds
    simp only [stage] at holds
    exact holds.2 (by simpa [LogDaemon.Outside, stage] using outside)
  | undefined =>
    unfold LogDaemon.Holds at holds
    simp only [stage] at holds
    exact holds.2
  | _ => exact ((LogDaemon.holds_idle (by rw [stage]; trivial)).mp holds).2.2

end Kept

/-! ### What the files hold -/

/-- What `decodelog` prints for a file of the daemon is what it prints for the first of what the
daemon has given to it. Together that is the first of what was put, in order and each entry once, and
all that was read whenever the daemon is outside its inner loop, or has ended there. The finished
files lack nothing unless one of them had an error, and the last one lacks what its stream keeps
unless it has one: nothing once the daemon has ended. -/
theorem seekerlogd_files {Byte : Type} (format : LogFormat Byte) (address : Nat)
    (garbage : LogEntry) (events : List DaemonEvent)
    (small : Exec.Meets (daemonStep format) DaemonEvent.Small (daemonStart address garbage) events)
    (fits : ∀ entry ∈ (Exec.run (daemonStep format) (daemonStart address garbage)
      events).queue.puts, format.Fits entry) :
    let final := Exec.run (daemonStep format) (daemonStart address garbage) events
    ∃ (given printed : List (List LogEntry)) (last shown : List LogEntry),
      final.files.map (decodelogFile format) = (printed ++ [shown]).map decodelog ∧
        List.Forall₂ (· <+: ·) printed given ∧ shown <+: last ∧
        (given ++ [last]).flatten <+: final.queue.puts ∧
        (final.Outside = true →
          (given ++ [last]).flatten = final.queue.results.flatMap LogResult.entries) ∧
        (final.out.lost = false → printed = given) ∧
        (final.out.outError = false →
          final.out.outfile ++ final.out.pending = format.stream last) ∧
        (final.out.outError = false → final.out.pending = [] → shown = last) ∧
        (∀ cut, final.stage = .ended cut → final.out.pending = []) := by
  intro final
  have kept : DaemonKept format final := Exec.run_invariant (DaemonKept format)
    (fun _ _ kept small => kept.step small) (daemonStart_kept format address garbage) small
  obtain ⟨l, queue⟩ := kept.queue
  obtain ⟨parts, part, rest, account⟩ := kept.account
  have flat : (parts ++ [part]).flatten = parts.flatten ++ part := by
    rw [List.flatten_append, List.flatten_singleton]
  have read : final.queue.results.flatMap LogResult.entries <+: final.queue.puts := by
    rw [queue.account, queue.delivered, List.append_assoc, List.append_assoc]
    exact List.prefix_append _ _
  have written : (parts ++ [part]).flatten <+: final.queue.puts := by
    rw [← account.delivered, ← flat] at read
    exact (List.prefix_append _ _).trans read
  have good (entries : List LogEntry) (inside : entries ∈ parts ++ [part]) (entry : LogEntry)
      (member : entry ∈ entries) : format.Fits entry :=
    fits entry (written.subset (List.mem_flatten.mpr ⟨entries, inside, member⟩))
  have goodParts (entries : List LogEntry) (inside : entries ∈ parts) :=
    good entries (List.mem_append_left _ inside)
  have goodPart := good part (List.mem_append_right _ List.mem_cons_self)
  refine ⟨parts, final.out.finished.map format.readAll, part, format.readAll final.out.outfile,
    ?_, Format.readAll_prefixes account.files.finished goodParts,
    Format.readAll_prefix goodPart account.files.outfile, written, fun outside => ?_,
    fun kept => ?_, account.files.stream, fun intact empty => ?_, fun cut ended => ?_⟩
  · unfold LogDaemon.files
    rw [List.map_append, List.map_append, List.map_map]
    rfl
  · rw [flat, ← account.delivered, account.holds.outside outside, List.append_nil]
  · rw [account.files.whole kept, List.map_map]
    exact (List.map_congr_left fun entries inside =>
      Format.readAll_whole (goodParts entries inside)).trans (List.map_id parts)
  · have whole := account.files.stream intact
    rw [empty, List.append_nil] at whole
    rw [whole, Format.readAll_whole goodPart]
  · exact account.closed (by rw [ended]; rfl)

/-- Bytes that know their record. -/
def taggedFormat : LogFormat LogEntry where
  size := sizeofLogT
  bytes entry := List.replicate sizeofLogT entry
  parse := List.head?
  Fits _ := True
  size_pos := by decide
  length_bytes _ := List.length_replicate
  parse_bytes _ := rfl
  size_eq := rfl

/-- The answers of a system where nothing fails, the stream of the log asks for a number of bytes and
that of the file keeps all it is given. -/
def plainAnswer (count : Nat) : DaemonAnswer := ⟨some count, 0, none, false, true⟩

/-- Two entries are put and one of them is read; a signal has the daemon go on with a new file;
another entry is put, and the second one is read; another signal ends the daemon. -/
def rotatedRun : List DaemonEvent :=
  let main (steps : Nat) : List DaemonEvent :=
    List.replicate steps (.main (plainAnswer (2 * sizeofLogT)))
  let put (address cpu : Nat) : List DaemonEvent :=
    (partOfPut 8 address (stateEntry cpu)).map .kernel
  let read : List DaemonEvent := List.replicate 40 (.kernel .read)
  let turn : List DaemonEvent := main 2 ++ read ++ main 2 ++ read ++ main 4 ++ read ++ main 2
  put 2 0 ++ put 3 1 ++ turn ++ [.sigUsr1] ++ main 7 ++ put 4 2 ++ turn ++ [.sigTerm none]

theorem seekerlogd_files_rotated :
    let final := Exec.run (daemonStep taggedFormat) (daemonStart 1 (stateEntry 9)) rotatedRun
    final.out.finished.length = 1 ∧ ∃ parts : List (List LogEntry),
      final.files.map (decodelogFile taggedFormat) = parts.map decodelog ∧
        parts.flatten = [stateEntry 0, stateEntry 1] := by
  obtain ⟨given, printed, last, shown, files, _, _, _, all, finished, _, whole, _⟩ :=
    seekerlogd_files taggedFormat 1 (stateEntry 9) rotatedRun (by decide +kernel) fun _ _ => trivial
  refine ⟨by decide +kernel, printed ++ [shown], files, ?_⟩
  rw [finished (by decide +kernel), whole (by decide +kernel) (by decide +kernel),
    all (by decide +kernel)]
  decide +kernel

end Seeker
