/-
This file embeds the sections of `pull.pl` for the mutator, the states and the tasks, and
proves what they make of the text that `decodelog` prints for a log.

Each file holds what the log has of its kind, in the order of the log, and nothing else.
A record of the mutator with no states has no line in either file; a state of two digits
is refused, as is the record of an evaluation with an IPC of ten or with no given state.
-/
import Mathlib.Data.List.DropRight
import Seeker.Decodelog

namespace Seeker

open Lines Regex

/-! ### The sections of the script -/

/-- `.`: a letter that is not a line feed. -/
def anyLetter (letter : Char) : Bool := letter ≠ '\n'

/-- `(.+)`. -/
def letters : Pattern Char := .group (.many anyLetter)

/-- `^m,(\d+),r,(.+),g,(.+)$`, without its anchor at the start. -/
def mutPattern : Pattern Char :=
  literal ['m', ','] <| .seq digits <| literal [',', 'r', ','] <| .seq letters <|
    literal [',', 'g', ','] <| .seq letters <| .rest atEnd

/-- `join(' ',split(/,/,$str))`; `split` drops the empty fields at the end. -/
def joinSplit (text : List Char) : List Char :=
  List.intercalate [' '] ((text.splitOn ',').rdropWhile (· = []))

/-- What is written to `MUT_REQ` and to `MUT_GIV` for a line. -/
def pullMutLine (line : List Char) : List Char × List Char :=
  match matchStart mutPattern (chomp '\n' line) with
  | some [interval, reqStr, givStr] =>
      (interval ++ ' ' :: (joinSplit reqStr ++ ['\n']),
        interval ++ ' ' :: (joinSplit givStr ++ ['\n']))
  | _ => ([], [])

/-- The section "mut": the texts of `MUT_REQ` and `MUT_GIV`. -/
def pullMut (text : List Char) : List Char × List Char :=
  let lines := grep (kindLines 'm') text
  (lines.flatMap fun line => (pullMutLine line).1, lines.flatMap fun line => (pullMutLine line).2)

/-- `t,(\d+),(\d),(\d+)$`. -/
def statePattern : Pattern Char :=
  literal ['t', ','] <| .seq digits <| literal [','] <| .seq digit <| literal [','] <|
    .seq digits <| .rest atEnd

/-- The files of the section "st": the text of the file of a cpu, if it is open, how often a cpu
was "invalid, opening", and how often "Something is wrong". -/
structure CpuFiles where
  cpuFh : Nat → Option (List Char)
  invalid : Nat
  wrong : Nat

/-- `open_cpus`. -/
def openCpus (nrCpus : Nat) : CpuFiles where
  cpuFh cpu := if cpu < nrCpus then some [] else none
  invalid := 0
  wrong := 0

/-- `print_to_cpu`. -/
def printToCpu (cpu : Nat) (string : List Char) (files : CpuFiles) : CpuFiles :=
  match files.cpuFh cpu with
  | some text => { files with cpuFh := Function.update files.cpuFh cpu (some (text ++ string)) }
  | none =>
      { files with
        cpuFh := Function.update files.cpuFh cpu (some string)
        invalid := files.invalid + 1 }

/-- One turn of the loop of the section "st". -/
def pullStateLine (files : CpuFiles) (line : List Char) : CpuFiles :=
  match search statePattern (chomp '\n' line) with
  | some [cpu, state, time] =>
      printToCpu (number cpu) (state ++ ' ' :: (time ++ ['\n'])) files
  | _ => { files with wrong := files.wrong + 1 }

/-- The section "st", with `total_online_cpus`. -/
def pullStates (totalOnlineCpus : Nat) (text : List Char) : CpuFiles :=
  (grep (kindLines 't') text).foldl pullStateLine (openCpus totalOnlineCpus)

/-- `^p,(\d+),(.+)$`, without its anchor at the start. -/
def pidPattern : Pattern Char :=
  literal ['p', ','] <| .seq digits <| literal [','] <| .seq letters <| .rest atEnd

/-- One turn of the loop that fills `%pids`. `process` is what a name is replaced by, if the
process is one to care about; with `do_all` it is the name. -/
def pullPidLine (process : List Char → Option (List Char))
    (pids : List Char → Option (List Char)) (line : List Char) : List Char → Option (List Char) :=
  match matchStart pidPattern (chomp '\n' line) with
  | some [p, n] =>
      match process n with
      | some name => Function.update pids p (some name)
      | none => pids
  | _ => pids

/-- `%pids`. -/
def pullPids (process : List Char → Option (List Char)) (text : List Char) :
    List Char → Option (List Char) :=
  (grep (kindLines 'p') text).foldl (pullPidLine process) fun _ => none

/-- A line of the file of a task: the running totals, as long as they fit an integer of the script,
and the other columns. -/
structure SchRow where
  totInst : Option Nat
  totRefcy : Option Nat
  columns : List (List Char)

/-- `$tot += 1.0 * ($more)`, as long as the total fits an integer of the script. -/
def addTotal (total : Option Nat) (more : Nat) : Option Nat :=
  total.bind fun total => if total + more < 2 ^ 64 then some (total + more) else none

/-- The loop of the section "sch" for a task: the totals, the lines written, and how often "This
should never happen". -/
structure SchFile where
  totInst : Option Nat
  totRefcy : Option Nat
  rows : List SchRow
  neverHappen : Nat

/-- One turn of that loop. -/
def pullSchLine (pid : List Char) (file : SchFile) (line : List Char) : SchFile :=
  match search (schPattern pid) line with
  | some [interval, cpu, insts, ipc, req, giv, state, cy] =>
      let totInst := addTotal file.totInst (number insts)
      let totRefcy := addTotal file.totRefcy (number cy)
      { file with
        totInst := totInst
        totRefcy := totRefcy
        rows := file.rows ++
          [⟨totInst, totRefcy, [interval, insts, cy, cpu, ipc, state, req, giv]⟩] }
  | _ => { file with neverHappen := file.neverHappen + 1 }

/-- The section "sch" for a key of `%pids`. -/
def pullSchFile (pid text : List Char) : SchFile :=
  (grep (schLines pid) text).foldl (pullSchLine pid) ⟨some 0, some 0, [], 0⟩

/-! ### Parts of a line -/

section Line

variable {follow : List Char → List (List Char) → Option (List (List Char))}
  {pattern : Pattern Char} {input run : List Char} {captured : List (List Char)}

/-- The last run, at the end of a line without its line feed. -/
theorem matchAt_run_atEnd {accepts : Char → Bool} (isRun : IsRun accepts run)
    (noFeed : accepts '\n' = false) :
    matchAt (.seq (.group (.many accepts)) (.rest atEnd)) follow run captured =
      follow [] (captured ++ [run]) := by
  have blocked : ∀ captured, Blocks accepts fun input =>
      matchAt (.rest atEnd) follow input captured := by
    intro captured letter input accepted
    refine if_neg fun held => ?_
    have ends : letter :: input = ['\n'] := by simpa [atEnd] using held
    rw [(List.cons.inj ends).1] at accepted
    exact Bool.noConfusion (accepted.symm.trans noFeed)
  have ends : Ends accepts [] := fun letter member => by cases member
  have whole : matchAt (.seq (.group (.many accepts)) (.rest atEnd)) follow (run ++ []) captured =
      _ := matchAt_run isRun ends blocked
  rw [List.append_nil] at whole
  exact whole.trans (if_pos rfl)

/-- The numbers of a list, separated by a letter. -/
def printList (separator : Char) (cpus : List Nat) : List Char :=
  List.intercalate [separator] (cpus.map printD)

theorem printD_ne_nil (value : Nat) : printD value ≠ [] := by
  unfold printD
  split
  · exact List.cons_ne_nil _ _
  · exact (isRun_printLlu _).1

theorem printList_cons (separator : Char) (first second : Nat) (rest : List Nat) :
    printList separator (first :: second :: rest) =
      printD first ++ separator :: printList separator (second :: rest) := by
  simp [printList, List.intercalate]

/-- The loop of the printer writes the numbers separated by commas, and one comma before them. -/
theorem printCounts_eq {count : Nat} {cpus : List Nat} (whole : cpus.length = count)
    (positive : 0 < count) : printCounts count cpus = ',' :: printList ',' cpus := by
  have listed : (List.range count).map (fun i => cpus.getD i 0) = cpus := by
    refine List.ext_getElem (by simp [whole]) fun i _ inRange => ?_
    simp [inRange]
  have spread : printCounts count cpus = cpus.flatMap fun cpu => ',' :: printD cpu := by
    conv_rhs => rw [← listed, List.flatMap_map]
    rfl
  have separated : ∀ first rest, ((first :: rest : List Nat).flatMap fun cpu => ',' :: printD cpu) =
      ',' :: printList ',' (first :: rest) := by
    intro first rest
    induction rest generalizing first with
    | nil => rw [List.flatMap_singleton, printList, List.map_singleton, List.intercalate_singleton]
    | cons second rest inductionHypothesis =>
      rw [List.flatMap_cons, inductionHypothesis second, printList_cons, List.cons_append]
  rw [spread]
  cases cpus with
  | nil => exact absurd positive (by simp [← whole])
  | cons first rest => exact separated first rest

theorem notMem_printList {letter separator : Char} (noDigit : isDigit letter = false)
    (noSign : letter ≠ '-') (noSeparator : letter ≠ separator) :
    ∀ cpus : List Nat, letter ∉ printList separator cpus
  | [] => by simp [printList, List.intercalate]
  | [cpu] => by simp [printList, List.intercalate, notMem_printD noDigit noSign]
  | first :: second :: rest => by
    rw [printList_cons]
    have others := notMem_printList noDigit noSign noSeparator (second :: rest)
    simp [notMem_printD noDigit noSign, noSeparator, others]

/-- Splitting at the commas and joining with blanks puts blanks for the commas. -/
theorem joinSplit_printList {cpus : List Nat} (nonempty : cpus ≠ []) :
    joinSplit (printList ',' cpus) = printList ' ' cpus := by
  have noComma : ∀ part ∈ cpus.map printD, ',' ∉ part := by
    intro part member
    obtain ⟨value, _, rfl⟩ := List.mem_map.mp member
    exact notMem_printD rfl (by decide) value
  have parts : (printList ',' cpus).splitOn ',' = cpus.map printD :=
    List.splitOn_intercalate ',' noComma (by simpa using nonempty)
  have kept : (cpus.map printD).rdropWhile (· = []) = cpus.map printD := by
    refine List.rdropWhile_eq_self_iff.mpr fun _ last => ?_
    obtain ⟨value, _, printed⟩ := List.mem_map.mp (List.getLast_mem (by simpa using nonempty))
    exact printD_ne_nil value (printed.trans (of_decide_eq_true last))
  rw [joinSplit, parts, kept]
  rfl

theorem isRun_printList {separator : Char} (noFeed : '\n' ≠ separator) {cpus : List Nat}
    (nonempty : cpus ≠ []) : IsRun anyLetter (printList separator cpus) := by
  refine ⟨?_, fun letter member => decide_eq_true ?_⟩
  · match cpus with
    | [cpu] => simp [printList, printD_ne_nil]
    | first :: second :: rest => simp [printList_cons]
  · rintro rfl
    exact notMem_printList rfl (by decide) noFeed cpus member

end Line

/-! ### The mutator -/

/-- The line for some numbers of the mutator. -/
def countsLine (interval : Nat) (cpus : List Nat) : List Char :=
  printLlu interval ++ ' ' :: (printList ' ' cpus ++ ['\n'])

/-- Both arrays of the record have `count` entries. -/
def LogMutator.Whole (r : LogMutator) : Prop :=
  r.cpusReq.length = r.count ∧ r.cpusGiven.length = r.count

/-- The records of the mutator. -/
def mutKind : Kind LogMutator where
  letter := 'm'
  record?
    | .mut r => some r
    | _ => none
  print := printMut
  tells entry := by cases entry <;> rfl
  printed entry r found := by
    cases entry <;> cases found
    rfl

/-- What the pattern captures in the line of a record with states. -/
theorem matchStart_mutPattern {r : LogMutator} (whole : r.Whole) (positive : 0 < r.count) :
    matchStart mutPattern (chomp '\n' (printMut r)) =
      some [printLlu r.interval, printList ',' r.cpusReq, printList ',' r.cpusGiven] := by
  have nonemptyReq : r.cpusReq ≠ [] := List.ne_nil_of_length_pos (whole.1 ▸ positive)
  have nonemptyGiven : r.cpusGiven ≠ [] := List.ne_nil_of_length_pos (whole.2 ▸ positive)
  have line : chomp '\n' (printMut r) = ['m', ','] ++ (printLlu r.interval ++
      ([',', 'r', ','] ++ (printList ',' r.cpusReq ++
        ([','] ++ 'g' :: [','] ++ printList ',' r.cpusGiven)))) := by
    rw [printMut, printCounts_eq whole.1 positive, printCounts_eq whole.2 positive]
    exact chomp_append _
  rw [line]
  refine (matchAt_literal ['m', ',']).trans ?_
  refine (matchAt_field (isRun_printLlu r.interval) rfl).trans ?_
  have noMark : 'g' ∉ printList ',' r.cpusReq ++ [','] := List.not_mem_append
    (notMem_printList rfl (by decide) (by decide) r.cpusReq) (by decide)
  have noMarkAfter : 'g' ∉ [','] ++ printList ',' r.cpusGiven := List.not_mem_append (by decide)
    (notMem_printList rfl (by decide) (by decide) r.cpusGiven)
  have runReq : IsRun anyLetter (printList ',' r.cpusReq) :=
    isRun_printList (by decide) nonemptyReq
  refine (matchAt_run_of_mark runReq noMark noMarkAfter).trans ?_
  exact matchAt_run_atEnd (isRun_printList (by decide) nonemptyGiven) rfl

/-- A record without states is refused: after `,r,` there is nothing but a `g`. -/
theorem matchStart_mutPattern_of_zero {r : LogMutator} (none : r.count = 0) :
    matchStart mutPattern (chomp '\n' (printMut r)) = .none := by
  have line : chomp '\n' (printMut r) =
      ['m', ','] ++ (printLlu r.interval ++ ([',', 'r', ','] ++ ['g'])) := by
    refine chomp_of_eq ?_
    rw [printMut, none]
    rfl
  rw [line]
  refine (matchAt_literal ['m', ',']).trans ?_
  exact matchAt_field (isRun_printLlu r.interval) rfl

/-- The two lines of a record, if it has states. -/
theorem pullMutLine_printMut {r : LogMutator} (whole : r.Whole) :
    pullMutLine (printMut r) =
      if 0 < r.count then (countsLine r.interval r.cpusReq, countsLine r.interval r.cpusGiven)
      else ([], []) := by
  unfold pullMutLine
  split_ifs with positive
  · have nonemptyReq : r.cpusReq ≠ [] := List.ne_nil_of_length_pos (whole.1 ▸ positive)
    have nonemptyGiven : r.cpusGiven ≠ [] := List.ne_nil_of_length_pos (whole.2 ▸ positive)
    rw [matchStart_mutPattern whole positive]
    dsimp only
    rw [joinSplit_printList nonemptyReq, joinSplit_printList nonemptyGiven]
    rfl
  · rw [matchStart_mutPattern_of_zero (Nat.eq_zero_of_not_pos positive)]

/-- `MUT_REQ` and `MUT_GIV` have one line for each record of the mutator that has states, in the
order of the log, with its interval and its requested or given counts, and nothing else. -/
theorem pull_mut_exact {entries : List LogEntry}
    (named : ∀ entry ∈ entries, entry.OneLineName)
    (whole : ∀ r, LogEntry.mut r ∈ entries → r.Whole) :
    let records := (entries.filterMap mutKind.record?).filter fun r => 0 < r.count
    pullMut (decodelog entries) =
      (records.flatMap fun r => countsLine r.interval r.cpusReq,
        records.flatMap fun r => countsLine r.interval r.cpusGiven) := by
  intro records
  have each : ∀ r ∈ entries.filterMap mutKind.record?, pullMutLine (printMut r) =
      if 0 < r.count then (countsLine r.interval r.cpusReq, countsLine r.interval r.cpusGiven)
      else ([], []) := by
    intro r member
    obtain ⟨entry, inEntries, found⟩ := List.mem_filterMap.mp member
    cases entry <;> cases found
    exact pullMutLine_printMut (whole r inEntries)
  have written : ∀ (file : List Char × List Char → List Char) (cpus : LogMutator → List Nat),
      file ([], []) = [] → (∀ r : LogMutator, file (countsLine r.interval r.cpusReq,
        countsLine r.interval r.cpusGiven) = countsLine r.interval (cpus r)) →
      ((grep (kindLines 'm') (decodelog entries)).flatMap fun line => file (pullMutLine line)) =
        records.flatMap fun r => countsLine r.interval (cpus r) := by
    intro file cpus empty line
    have lines : grep (kindLines 'm') (decodelog entries) = _ := mutKind.grep_decodelog named
    rw [lines, List.flatMap_map, ← flatMap_ite_nil]
    refine List.flatMap_congr fun r member => ?_
    show file (pullMutLine (printMut r)) = _
    rw [each r member]
    split <;> simp_all
  exact Prod.ext (written Prod.fst LogMutator.cpusReq rfl fun _ => rfl)
    (written Prod.snd LogMutator.cpusGiven rfl fun _ => rfl)

/-- A log with a record of each kind, one of them without states and one without a given state. -/
def smallLog : List LogEntry :=
  [.pid ⟨"bzip2", 1234⟩, .sch (schRecord 2 10), .mut ⟨5, 3, [1, 0, 2], [1, 1, 1]⟩, .mut ⟨6, 0, [], []⟩,
    .state ⟨1, 3, 40⟩, .sch (schRecord uintMax 10), .state ⟨1, 12, 8⟩, .sch (schRecord 2 20)]

theorem smallLog_named : ∀ entry ∈ smallLog, entry.OneLineName := by
  simp [smallLog, LogEntry.OneLineName]

theorem pull_mut_exact_smallLog :
    let records := (smallLog.filterMap mutKind.record?).filter fun r => 0 < r.count
    pullMut (decodelog smallLog) =
      (records.flatMap fun r => countsLine r.interval r.cpusReq,
        records.flatMap fun r => countsLine r.interval r.cpusGiven) :=
  pull_mut_exact smallLog_named fun r member => by
    simp only [smallLog, List.mem_cons, LogEntry.mut.injEq, reduceCtorEq, List.not_mem_nil, or_false,
      false_or] at member
    rcases member with rfl | rfl <;> exact ⟨rfl, rfl⟩

/-- A line feed in the name of a task makes a line of it that is taken for the mutator's. -/
example : pullMut (decodelog [.pid ⟨"a\nm,1,r,2,g,3", 7⟩]) = ("1 2\n".toList, "1 3\n".toList) := by
  decide

/-! ### The states -/

/-- The records of the state logger. -/
def stateKind : Kind LogState where
  letter := 't'
  record?
    | .state r => some r
    | _ => none
  print := printState
  tells entry := by cases entry <;> rfl
  printed entry r found := by
    cases entry <;> cases found
    rfl

/-- The cpu of the record is not negative and its state has one digit. -/
def LogState.Single (r : LogState) : Prop :=
  0 ≤ int32 r.cpu ∧ 0 ≤ int32 r.state ∧ int32 r.state < 10

instance (r : LogState) : Decidable r.Single := by
  unfold LogState.Single
  infer_instance

theorem printD_of_nonneg {value : Nat} (nonneg : 0 ≤ int32 value) :
    printD value = printLlu (int32 value).toNat := by
  unfold printD
  rw [if_neg (not_lt.mpr nonneg)]

theorem printD_of_neg {value : Nat} (negative : ¬ 0 ≤ int32 value) :
    printD value = '-' :: printLlu (int32 value).natAbs := by
  unfold printD
  rw [if_pos (not_le.mp negative)]

section Line

variable {follow : List Char → List (List Char) → Option (List (List Char))}
  {pattern : Pattern Char} {input : List Char} {captured : List (List Char)}

/-- A number that is not negative is captured by `(\d+)`. -/
theorem matchAt_digits_printD (value : Nat) :
    matchAt (.seq digits (literal [','] pattern)) follow (printD value ++ ',' :: input) captured =
      if 0 ≤ int32 value then matchAt pattern follow input (captured ++ [printD value])
      else none := by
  split_ifs with nonneg
  · rw [printD_of_nonneg nonneg]
    exact matchAt_field_letter (isRun_printLlu _) rfl
  · rw [printD_of_neg nonneg]
    rfl

/-- A number of one digit is captured by `(\d)`. -/
theorem matchAt_digit_printD (value : Nat) :
    matchAt (.seq digit (literal [','] pattern)) follow (printD value ++ ',' :: input) captured =
      if 0 ≤ int32 value ∧ int32 value < 10 then
        matchAt pattern follow input (captured ++ [printD value])
      else none := by
  by_cases nonneg : 0 ≤ int32 value
  · rw [printD_of_nonneg nonneg]
    split_ifs with single
    · have printed := printLlu_of_lt (show (int32 value).toNat < 10 by omega)
      have accepted : isDigit (int32 value).toNat.digitChar = true :=
        (isRun_printLlu (int32 value).toNat).2 _ (printed ▸ List.mem_singleton_self _)
      rw [printed]
      exact matchAt_single accepted
    · obtain ⟨first, second, rest, printed, accepted, digit_⟩ :=
        printLlu_of_le (show 10 ≤ (int32 value).toNat by omega)
      have different : second ≠ ',' := by
        rintro rfl
        exact Bool.noConfusion digit_
      rw [printed, digit, matchAt_seq, matchAt_group]
      refine (if_pos accepted).trans ?_
      exact matchAt_literal_of_ne different
  · rw [printD_of_neg nonneg, if_neg fun held => nonneg held.1]
    rfl

end Line

/-- What the pattern captures in the line of a record. -/
theorem search_statePattern (r : LogState) :
    search statePattern (chomp '\n' (printState r)) =
      if r.Single then
        some [printD r.cpu, printD r.state, printLlu r.residencyTime]
      else none := by
  have line : chomp '\n' (printState r) = 't' :: ',' :: (printD r.cpu ++ ',' ::
      (printD r.state ++ ',' :: printLlu r.residencyTime)) := chomp_append _
  have noT : 't' ∉ ',' :: (printD r.cpu ++ ',' :: (printD r.state ++ ',' ::
      printLlu r.residencyTime)) := by
    have cpu : 't' ∉ printD r.cpu := notMem_printD rfl (by decide) _
    have state : 't' ∉ printD r.state := notMem_printD rfl (by decide) _
    have time : 't' ∉ printLlu r.residencyTime := notMem_printLlu rfl _
    simp [cpu, state, time]
  rw [line, statePattern, search_literal noT, matchStart, matchAt_pair]
  rw [matchAt_digits_printD, matchAt_digit_printD]
  by_cases single : r.Single
  · rw [if_pos single.1, if_pos single.2, if_pos single]
    exact matchAt_run_atEnd (isRun_printLlu _) rfl
  · rw [if_neg single]
    split_ifs with cpu state
    · exact absurd ⟨cpu, state⟩ single
    · rfl
    · rfl

/-- What is written for a record to the file of its cpu. -/
def stateLine (r : LogState) : List Char :=
  printD r.state ++ ' ' :: (printLlu r.residencyTime ++ ['\n'])

/-- The cpu of a record. -/
def LogState.onCpu (r : LogState) : Nat := (int32 r.cpu).toNat

theorem number_printD {value : Nat} (nonneg : 0 ≤ int32 value) :
    number (printD value) = (int32 value).toNat := by
  rw [printD_of_nonneg nonneg, number_printLlu]

theorem pullStateLine_of_captured {line cpu state time : List Char} (files : CpuFiles)
    (captured : search statePattern (chomp '\n' line) = some [cpu, state, time]) :
    pullStateLine files line = printToCpu (number cpu) (state ++ ' ' :: (time ++ ['\n'])) files := by
  unfold pullStateLine
  rw [captured]

theorem pullStateLine_of_refused {line : List Char} (files : CpuFiles)
    (refused : search statePattern (chomp '\n' line) = none) :
    pullStateLine files line = { files with wrong := files.wrong + 1 } := by
  unfold pullStateLine
  rw [refused]

theorem pullStateLine_printState (files : CpuFiles) (r : LogState) :
    pullStateLine files (printState r) =
      if r.Single then printToCpu r.onCpu (stateLine r) files
      else { files with wrong := files.wrong + 1 } := by
  have captured := search_statePattern r
  by_cases single : r.Single
  · rw [if_pos single] at captured ⊢
    rw [pullStateLine_of_captured files captured, number_printD single.1, stateLine, LogState.onCpu]
  · rw [if_neg single] at captured ⊢
    rw [pullStateLine_of_refused files captured]

theorem printToCpu_cpuFh (cpu : Nat) (string : List Char) (files : CpuFiles) :
    (printToCpu cpu string files).cpuFh =
      Function.update files.cpuFh cpu (some ((files.cpuFh cpu).getD [] ++ string)) := by
  unfold printToCpu
  cases open_ : files.cpuFh cpu <;> rfl

theorem printToCpu_wrong (cpu : Nat) (string : List Char) (files : CpuFiles) :
    (printToCpu cpu string files).wrong = files.wrong := by
  unfold printToCpu
  split <;> rfl

/-- The records whose lines reach the file of a cpu. -/
def writtenTo (records : List LogState) (cpu : Nat) : List LogState :=
  records.filter fun r => r.Single ∧ r.onCpu = cpu

theorem writtenTo_cons (r : LogState) (rest : List LogState) (cpu : Nat) :
    writtenTo (r :: rest) cpu =
      if r.Single ∧ r.onCpu = cpu then r :: writtenTo rest cpu else writtenTo rest cpu := by
  unfold writtenTo
  rw [List.filter_cons]
  simp only [decide_eq_true_eq]

/-- The text of a file that has been written to before, or is open, or is written to now. -/
def grownFile (file : Option (List Char)) (records : List LogState) : Option (List Char) :=
  if file.isSome ∨ records ≠ [] then some (file.getD [] ++ records.flatMap stateLine) else none

theorem grownFile_cons (file : Option (List Char)) (r : LogState) (rest : List LogState) :
    grownFile file (r :: rest) = grownFile (some (file.getD [] ++ stateLine r)) rest := by
  have left : file.isSome ∨ r :: rest ≠ [] := Or.inr (List.cons_ne_nil r rest)
  have right : (some (file.getD [] ++ stateLine r)).isSome ∨ rest ≠ [] := Or.inl rfl
  unfold grownFile
  rw [if_pos left, if_pos right, List.flatMap_cons, Option.getD_some, List.append_assoc]

/-- The loop over the lines of some records, from files that may have been written to. -/
theorem foldl_pullStateLine (records : List LogState) (files : CpuFiles) :
    let done := (records.map printState).foldl pullStateLine files
    (∀ cpu, done.cpuFh cpu = grownFile (files.cpuFh cpu) (writtenTo records cpu)) ∧
      done.wrong = files.wrong + (records.filter fun r => ¬ r.Single).length := by
  induction records generalizing files with
  | nil =>
    refine ⟨fun cpu => ?_, rfl⟩
    show files.cpuFh cpu = grownFile (files.cpuFh cpu) []
    cases files.cpuFh cpu with
    | none => rfl
    | some text => exact congrArg some (List.append_nil text).symm
  | cons r rest inductionHypothesis =>
    intro done
    obtain ⟨written, wrong⟩ := inductionHypothesis (pullStateLine files (printState r))
    rw [pullStateLine_printState] at written wrong
    have turned : done = (rest.map printState).foldl pullStateLine
        (pullStateLine files (printState r)) := by
      unfold done
      rw [List.map_cons, List.foldl_cons]
    rw [turned, pullStateLine_printState]
    by_cases single : r.Single
    · rw [if_pos single] at written wrong ⊢
      refine ⟨fun cpu => (written cpu).trans ?_, ?_⟩
      · rw [printToCpu_cpuFh, writtenTo_cons]
        by_cases here : r.onCpu = cpu
        · subst here
          rw [Function.update_self, if_pos ⟨single, rfl⟩, grownFile_cons]
        · rw [Function.update_of_ne (Ne.symm here), if_neg fun held => here held.2]
      · rw [wrong, printToCpu_wrong, List.filter_cons_of_neg (by simpa using single)]
    · rw [if_neg single] at written wrong ⊢
      refine ⟨fun cpu => (written cpu).trans ?_, ?_⟩
      · rw [writtenTo_cons, if_neg fun held => single held.1]
      · rw [wrong, List.filter_cons_of_pos (by simpa using single), List.length_cons]
        exact Nat.add_right_comm files.wrong 1 _

/-- The file of each cpu has one line for each record of the state logger that is of this cpu and
whose state has one digit, in the order of the log; it exists if the cpu is one of the online cpus
or has such a record. The other records, and only they, are what is wrong. -/
theorem pull_states_exact {entries : List LogEntry}
    (named : ∀ entry ∈ entries, entry.OneLineName) (totalOnlineCpus : Nat) :
    let records := entries.filterMap stateKind.record?
    let files := pullStates totalOnlineCpus (decodelog entries)
    (∀ cpu, files.cpuFh cpu =
      if cpu < totalOnlineCpus ∨ writtenTo records cpu ≠ [] then
        some ((writtenTo records cpu).flatMap stateLine)
      else none) ∧
      files.wrong = (records.filter fun r => ¬ r.Single).length := by
  intro records files
  have lines : grep (kindLines 't') (decodelog entries) = records.map printState :=
    stateKind.grep_decodelog named
  have pulled : files = (records.map printState).foldl pullStateLine (openCpus totalOnlineCpus) := by
    rw [← lines]
    rfl
  obtain ⟨written, wrong⟩ := foldl_pullStateLine records (openCpus totalOnlineCpus)
  rw [pulled]
  refine ⟨fun cpu => (written cpu).trans ?_, wrong.trans (Nat.zero_add _)⟩
  show grownFile (if cpu < totalOnlineCpus then some [] else none) _ = _
  unfold grownFile
  by_cases online : cpu < totalOnlineCpus
  · have opened : (some ([] : List Char)).isSome ∨ writtenTo records cpu ≠ [] := Or.inl rfl
    rw [if_pos online, if_pos (Or.inl online), if_pos opened]
    rfl
  · rw [if_neg online]
    simp [online]

theorem pull_states_exact_smallLog :
    let records := smallLog.filterMap stateKind.record?
    let files := pullStates 1 (decodelog smallLog)
    (∀ cpu, files.cpuFh cpu =
      if cpu < 1 ∨ writtenTo records cpu ≠ [] then
        some ((writtenTo records cpu).flatMap stateLine)
      else none) ∧
      files.wrong = (records.filter fun r => ¬ r.Single).length :=
  pull_states_exact smallLog_named 1

/-! ### The tasks -/

/-- The records of the tasks' names. -/
def pidKind : Kind LogPid where
  letter := 'p'
  record?
    | .pid r => some r
    | _ => none
  print := printPid
  tells entry := by cases entry <;> rfl
  printed entry r found := by
    cases entry <;> cases found
    rfl

/-- The name as it is printed. -/
def LogPid.printed (r : LogPid) : List Char := r.name.toList.take 15

/-- What the pattern captures in the line of a record. -/
theorem matchStart_pidPattern {r : LogPid} (named : '\n' ∉ r.name.toList) :
    matchStart pidPattern (chomp '\n' (printPid r)) =
      if 0 ≤ int32 r.pid ∧ r.printed ≠ [] then some [printD r.pid, r.printed] else none := by
  have line : chomp '\n' (printPid r) = 'p' :: ',' :: (printD r.pid ++ ',' :: r.printed) :=
    chomp_append _
  rw [line, pidPattern, matchStart, matchAt_pair, matchAt_digits_printD]
  by_cases nonneg : 0 ≤ int32 r.pid
  · rw [if_pos nonneg]
    by_cases empty : r.printed = []
    · rw [if_neg fun held => held.2 empty, empty]
      rfl
    · have isRun : IsRun anyLetter r.printed := by
        refine ⟨empty, fun letter member => decide_eq_true ?_⟩
        rintro rfl
        exact named (List.mem_of_mem_take member)
      rw [if_pos ⟨nonneg, empty⟩]
      exact matchAt_run_atEnd isRun rfl
  · rw [if_neg nonneg, if_neg fun held => nonneg held.1]

theorem pullPidLine_of_captured {process : List Char → Option (List Char)}
    {pids : List Char → Option (List Char)} {line p n : List Char}
    (captured : matchStart pidPattern (chomp '\n' line) = some [p, n]) :
    pullPidLine process pids line p = (process n).or (pids p) ∧
      ∀ other, other ≠ p → pullPidLine process pids line other = pids other := by
  unfold pullPidLine
  rw [captured]
  dsimp only
  cases process n with
  | none => exact ⟨rfl, fun _ _ => rfl⟩
  | some name => exact ⟨Function.update_self .., fun other apart => Function.update_of_ne apart ..⟩

theorem pullPidLine_of_refused {process : List Char → Option (List Char)}
    {pids : List Char → Option (List Char)} {line : List Char}
    (refused : matchStart pidPattern (chomp '\n' line) = none) :
    pullPidLine process pids line = pids := by
  unfold pullPidLine
  rw [refused]

/-- What the records say a task is called: the names of its records that are not empty and that the
script cares about, in the order of the log. -/
def namesOf (process : List Char → Option (List Char)) (pid : List Char) (records : List LogPid) :
    List (List Char) :=
  (records.filter fun r => 0 ≤ int32 r.pid ∧ printD r.pid = pid ∧ r.printed ≠ []).filterMap
    fun r => process r.printed

theorem namesOf_concat (process : List Char → Option (List Char)) (pid : List Char)
    (records : List LogPid) (r : LogPid) :
    namesOf process pid (records ++ [r]) = namesOf process pid records ++
      if 0 ≤ int32 r.pid ∧ printD r.pid = pid ∧ r.printed ≠ [] then (process r.printed).toList
      else [] := by
  unfold namesOf
  rw [List.filter_append, List.filterMap_append]
  refine congrArg (List.append _) ?_
  by_cases held : 0 ≤ int32 r.pid ∧ printD r.pid = pid ∧ r.printed ≠ []
  · rw [if_pos held, List.filter_cons_of_pos (by simpa using held)]
    cases found : process r.printed <;> simp [found]
  · rw [if_neg held, List.filter_cons_of_neg (by simpa using held)]
    rfl

/-- A task is called what the last record of it says that has a name the script cares about; a task
without such a record is not pulled. -/
theorem pull_pids_exact {entries : List LogEntry}
    (named : ∀ entry ∈ entries, entry.OneLineName)
    (process : List Char → Option (List Char)) (pid : List Char) :
    pullPids process (decodelog entries) pid =
      (namesOf process pid (entries.filterMap pidKind.record?)).getLast? := by
  have lines : grep (kindLines 'p') (decodelog entries) =
      (entries.filterMap pidKind.record?).map printPid := pidKind.grep_decodelog named
  have namedRecords : ∀ r ∈ entries.filterMap pidKind.record?, '\n' ∉ r.name.toList := by
    intro r member
    obtain ⟨entry, inEntries, found⟩ := List.mem_filterMap.mp member
    cases entry <;> cases found
    exact named _ inEntries
  unfold pullPids
  rw [lines]
  generalize entries.filterMap pidKind.record? = records at namedRecords
  -- From the last line back: it decides, or it says nothing about the task.
  induction records using List.reverseRecOn with
  | nil => rfl
  | append_singleton records r inductionHypothesis =>
    have before := inductionHypothesis fun r member =>
      namedRecords r (List.mem_append_left _ member)
    have captured := matchStart_pidPattern (namedRecords r (by simp))
    rw [List.map_append, List.foldl_append, List.map_singleton, List.foldl_cons, List.foldl_nil,
      namesOf_concat, List.getLast?_append, ← before]
    by_cases accepted : 0 ≤ int32 r.pid ∧ r.printed ≠ []
    · rw [if_pos accepted] at captured
      obtain ⟨own, others⟩ := pullPidLine_of_captured captured
      by_cases here : printD r.pid = pid
      · subst here
        rw [own, if_pos ⟨accepted.1, rfl, accepted.2⟩]
        cases process r.printed <;> rfl
      · rw [others pid (Ne.symm here), if_neg fun held => here held.2.1]
        rfl
    · rw [if_neg accepted] at captured
      rw [pullPidLine_of_refused captured, if_neg fun held => accepted ⟨held.1, held.2.2⟩]
      rfl

theorem pull_pids_exact_smallLog :
    pullPids some (decodelog smallLog) (printD 1234) =
      (namesOf some (printD 1234) (smallLog.filterMap pidKind.record?)).getLast? :=
  pull_pids_exact smallLog_named some (printD 1234)

/-! ### The file of a task -/

/-- The records of the evaluations. -/
def schKind : Kind LogScheduler where
  letter := 's'
  record?
    | .sch r => some r
    | _ => none
  print := printSch
  tells entry := by cases entry <;> rfl
  printed entry r found := by
    cases entry <;> cases found
    rfl

/-- Two runs of digits that a comma ends are the same if one begins the other. -/
theorem run_eq_of_prefix {first second input : List Char} (runFirst : IsRun isDigit first)
    (runSecond : IsRun isDigit second) (begins : first ++ [','] <+: second ++ ',' :: input) :
    first = second := by
  obtain ⟨rest, whole⟩ := begins
  have taken : ∀ {run : List Char} (rest : List Char), IsRun isDigit run →
      (run ++ ',' :: rest).takeWhile isDigit = run := by
    intro run rest isRun
    rw [List.takeWhile_append_of_pos isRun.2, List.takeWhile_cons_of_neg (by decide),
      List.append_nil]
  rw [List.append_assoc] at whole
  exact (taken rest runFirst).symm.trans ((congrArg (List.takeWhile isDigit) whole).trans
    (taken input runSecond))

/-- `grep` selects the lines of the records of the pid. -/
theorem matchStart_schLines_printSch {totalStates : Nat} {r : LogScheduler} {pid : Nat}
    (writable : r.Writable totalStates) (small : pid < 2 ^ 31) :
    (matchStart (schLines (printD pid)) (printSch r)).isSome = decide (r.pid = pid) := by
  obtain ⟨rest, printed⟩ : ∃ rest, printSch r =
      's' :: ',' :: (printLlu r.interval ++ ',' :: (printLlu r.pid ++ ',' :: rest)) :=
    ⟨_, printSch_eq writable⟩
  rw [printed, printD_of_lt small]
  by_cases same : r.pid = pid
  · subst same
    rw [matchStart_schLines (isRun_printLlu _), decide_eq_true rfl]
    rfl
  · have differs : ¬ ',' :: (printLlu pid ++ [',']) <+: ',' :: (printLlu r.pid ++ ',' :: rest) := by
      intro begins
      have runs := run_eq_of_prefix (isRun_printLlu pid) (isRun_printLlu r.pid)
        (List.cons_prefix_cons.mp begins).2
      have numbers := congrArg number runs
      rw [number_printLlu, number_printLlu] at numbers
      exact same numbers.symm
    have ends : Ends isDigit (',' :: (printLlu r.pid ++ ',' :: rest)) := by
      intro letter member
      rw [← Option.some.inj member]
      rfl
    have refused : matchStart (schLines (printLlu pid)) ('s' :: ',' ::
        (printLlu r.interval ++ ',' :: (printLlu r.pid ++ ',' :: rest))) = none := by
      rw [schLines, matchStart, matchAt_pair]
      refine (manyAt_run (blocks_literal rfl) (isRun_printLlu r.interval) ends).trans ?_
      exact matchAt_literal_none differs
    rw [refused, decide_eq_false same]
    rfl

/-- The columns of a record after the totals. -/
def schColumns (r : LogScheduler) : List (List Char) :=
  [printLlu r.interval, printLlu r.inst, printLlu r.cycles, printLlu r.cpu, printEighths r.ipc,
    printD r.state, printD r.stateReq, printD r.stateGiven]

/-- The IPC of the record is below ten and a state was found. -/
def LogScheduler.Readable (r : LogScheduler) : Prop := r.ipc < 80 ∧ r.stateGiven ≠ uintMax

instance (r : LogScheduler) : Decidable r.Readable := by
  unfold LogScheduler.Readable
  infer_instance

/-- What the pattern captures in the line of a record. -/
theorem search_schPattern {totalStates : Nat} {r : LogScheduler}
    (writable : r.Writable totalStates) (small : totalStates ≤ maxStates) :
    search (schPattern (printD r.pid)) (printSch r) =
      if r.Readable then
        some [printLlu r.interval, printLlu r.cpu, printLlu r.inst, printEighths r.ipc,
          printD r.stateReq, printD r.stateGiven, printD r.state, printLlu r.cycles]
      else none := by
  have selected : (matchStart (schLines (printD r.pid)) (printSch r)).isSome = true :=
    (matchStart_schLines_printSch writable writable.pid).trans (decide_eq_true rfl)
  obtain ⟨captured, matched⟩ := Option.isSome_iff_exists.mp selected
  have pulled := pullSch_printSch writable
  rw [pullSch, matched, Option.bind_some] at pulled
  have single : ∀ state, state < totalStates → state < 10 := fun state inTable =>
    inTable.trans_le (small.trans (by decide))
  rw [pulled]
  by_cases readable : r.Readable
  · have given := single _ (writable.stateGiven.resolve_right readable.2)
    rw [if_pos readable]
    exact matchAt_schTail readable.1 (single _ writable.stateReq) given (single _ writable.state)
  · rw [if_neg readable]
    by_cases slow : r.ipc < 80
    · have missed : r.stateGiven = uintMax := not_not.mp fun found => readable ⟨slow, found⟩
      rw [missed]
      exact matchAt_schTail_of_none slow (single _ writable.stateReq)
    · exact matchAt_schTail_of_le (not_lt.mp slow)

/-- A total, if it fits an integer of the script. -/
def total (value : Nat) : Option Nat := if value < 2 ^ 64 then some value else none

theorem addTotal_total (value more : Nat) : addTotal (total value) more = total (value + more) := by
  by_cases fits : value < 2 ^ 64
  · rw [total, if_pos fits]
    rfl
  · have exceeds : ¬ value + more < 2 ^ 64 := fun held => fits (by omega)
    rw [total, if_neg fits, total, if_neg exceeds]
    rfl

/-- The rows of some records: each has the totals of the instructions and cycles up to it. -/
def schRows (records : List LogScheduler) : List SchRow :=
  records.mapIdx fun i r =>
    ⟨total ((records.take (i + 1)).map LogScheduler.inst).sum,
      total ((records.take (i + 1)).map LogScheduler.cycles).sum, schColumns r⟩

theorem schRows_concat (records : List LogScheduler) (r : LogScheduler) :
    schRows (records ++ [r]) = schRows records ++
      [⟨total (((records ++ [r]).map LogScheduler.inst).sum),
        total (((records ++ [r]).map LogScheduler.cycles).sum), schColumns r⟩] := by
  unfold schRows
  rw [List.mapIdx_concat]
  have taken : ∀ i < records.length, (records ++ [r]).take (i + 1) = records.take (i + 1) :=
    fun i inRange => List.take_append_of_le_length inRange
  have whole : (records ++ [r]).take (records.length + 1) = records ++ [r] :=
    List.take_of_length_le (by simp)
  rw [whole]
  refine congrArg (· ++ _) (List.ext_getElem (by simp) fun i inRange _ => ?_)
  have small : i < records.length := by simpa using inRange
  rw [List.getElem_mapIdx, List.getElem_mapIdx, taken i small]

theorem pullSchLine_of_captured {pid line interval cpu insts ipc req giv state cy : List Char}
    (file : SchFile) (captured : search (schPattern pid) line =
      some [interval, cpu, insts, ipc, req, giv, state, cy]) :
    pullSchLine pid file line =
      { file with
        totInst := addTotal file.totInst (number insts)
        totRefcy := addTotal file.totRefcy (number cy)
        rows := file.rows ++ [⟨addTotal file.totInst (number insts),
          addTotal file.totRefcy (number cy), [interval, insts, cy, cpu, ipc, state, req, giv]⟩] } := by
  unfold pullSchLine
  rw [captured]

theorem pullSchLine_of_refused {pid line : List Char} (file : SchFile)
    (refused : search (schPattern pid) line = none) :
    pullSchLine pid file line = { file with neverHappen := file.neverHappen + 1 } := by
  unfold pullSchLine
  rw [refused]

/-- What the loop has come to after some records of a pid. -/
def schFileOf (records : List LogScheduler) : SchFile where
  totInst := total ((records.filter fun r => r.Readable).map LogScheduler.inst).sum
  totRefcy := total ((records.filter fun r => r.Readable).map LogScheduler.cycles).sum
  rows := schRows (records.filter fun r => r.Readable)
  neverHappen := (records.filter fun r => ¬ r.Readable).length

/-- One more record. -/
theorem pullSchLine_schFileOf {totalStates : Nat} {r : LogScheduler}
    (writable : r.Writable totalStates) (small : totalStates ≤ maxStates)
    (records : List LogScheduler) :
    pullSchLine (printD r.pid) (schFileOf records) (printSch r) = schFileOf (records ++ [r]) := by
  have captured := search_schPattern writable small
  by_cases readable : r.Readable
  · rw [if_pos readable] at captured
    have kept : (records ++ [r]).filter (fun r => r.Readable) =
        records.filter (fun r => r.Readable) ++ [r] := by
      rw [List.filter_append, List.filter_cons_of_pos (by simpa using readable), List.filter_nil]
    have dropped : (records ++ [r]).filter (fun r => ¬ r.Readable) =
        records.filter fun r => ¬ r.Readable := by
      rw [List.filter_append, List.filter_cons_of_neg (by simpa using readable), List.filter_nil,
        List.append_nil]
    have sums : ∀ field : LogScheduler → Nat,
        addTotal (total ((records.filter fun r => r.Readable).map field).sum) (field r) =
          total (((records.filter fun r => r.Readable) ++ [r]).map field).sum := by
      intro field
      rw [addTotal_total, List.map_append, List.sum_append, List.map_singleton, List.sum_singleton]
    rw [pullSchLine_of_captured _ captured, number_printLlu, number_printLlu, schFileOf, schFileOf,
      kept, dropped, schRows_concat, ← sums, ← sums]
    rfl
  · rw [if_neg readable] at captured
    have kept : (records ++ [r]).filter (fun r => r.Readable) =
        records.filter fun r => r.Readable := by
      rw [List.filter_append, List.filter_cons_of_neg (by simpa using readable), List.filter_nil,
        List.append_nil]
    have dropped : (records ++ [r]).filter (fun r => ¬ r.Readable) =
        records.filter (fun r => ¬ r.Readable) ++ [r] := by
      rw [List.filter_append, List.filter_cons_of_pos (by simpa using readable), List.filter_nil]
    rw [pullSchLine_of_refused _ captured, schFileOf, schFileOf, kept, dropped, List.length_append]
    rfl

/-- The loop over the lines of some records of a pid. -/
theorem foldl_pullSchLine {records : List LogScheduler} {totalStates pid : Nat}
    (writable : ∀ r ∈ records, r.Writable totalStates) (small : totalStates ≤ maxStates)
    (ofPid : ∀ r ∈ records, r.pid = pid) :
    (records.map printSch).foldl (pullSchLine (printD pid)) ⟨some 0, some 0, [], 0⟩ =
      schFileOf records := by
  induction records using List.reverseRecOn with
  | nil => rfl
  | append_singleton records r inductionHypothesis =>
    have before := inductionHypothesis
      (fun r member => writable r (List.mem_append_left _ member))
      fun r member => ofPid r (List.mem_append_left _ member)
    have turned := pullSchLine_schFileOf (writable r (by simp)) small records
    rw [ofPid r (by simp)] at turned
    rw [List.map_append, List.foldl_append, before, List.map_singleton, List.foldl_cons,
      List.foldl_nil, turned]

end Seeker
