/-
This file embeds the loop of `decodelog.c`, which prints one line for each record of a
log, and how `pull.pl` takes the lines of one kind out of the text.

Every line begins with the letter of its kind. A line is one line as long as no name of
a task has a line feed in it; what `grep` selects by the letter is then what was printed
for the records of the kind, in the order of the log.
-/
import Seeker.Library.Lines
import Seeker.LogText

namespace Seeker

open Lines Regex

/-! ### The printer -/

/-- What the loops over `cpus_req` and `cpus_given` print. -/
def printCounts (count : Nat) (cpus : List Nat) : List Char :=
  (List.range count).flatMap fun i => ',' :: printD (cpus.getD i 0)

/-- The line for a `LOG_MUT` record. -/
def printMut (r : LogMutator) : List Char :=
  'm' :: ',' :: (printLlu r.interval ++ ',' :: 'r' :: (printCounts r.count r.cpusReq ++
    ',' :: 'g' :: printCounts r.count r.cpusGiven)) ++ ['\n']

/-- The line for a `LOG_PID` record. The name is cut to its first 15 letters. -/
def printPid (r : LogPid) : List Char :=
  'p' :: ',' :: (printD r.pid ++ ',' :: r.name.toList.take 15) ++ ['\n']

/-- The line for a `LOG_STATE` record. -/
def printState (r : LogState) : List Char :=
  't' :: ',' :: (printD r.cpu ++ ',' :: (printD r.state ++ ',' :: printLlu r.residencyTime)) ++
    ['\n']

/-- What is printed for an entry. -/
def printEntry : LogEntry → List Char
  | .sch r => printSch r
  | .pid r => printPid r
  | .mut r => printMut r
  | .state r => printState r

/-- `main` of `decodelog.c`, given the entries of the log. -/
def decodelog (entries : List LogEntry) : List Char := entries.flatMap printEntry

/-! ### Lines of one kind -/

/-- The letter a line of the kind begins with. -/
def LogEntry.letter : LogEntry → Char
  | .sch _ => 's'
  | .pid _ => 'p'
  | .mut _ => 'm'
  | .state _ => 't'

/-- The pattern of `grep` for the lines of a kind, without its anchor. -/
def kindLines (letter : Char) : Pattern Char := literal [letter, ','] (.rest fun _ => true)

/-- `grep -P`, with a pattern that is anchored at the start of a line. -/
def grep (pattern : Pattern Char) (text : List Char) : List (List Char) :=
  (readLines '\n' text).filter fun line => (matchStart pattern line).isSome

/-- A name of a task is one line. -/
def LogEntry.OneLineName : LogEntry → Prop
  | .pid r => '\n' ∉ r.name.toList
  | _ => True

theorem notMem_printLlu {letter : Char} (noDigit : isDigit letter = false) (value : Nat) :
    letter ∉ printLlu value := fun member =>
  Bool.noConfusion (noDigit.symm.trans ((isRun_printLlu value).2 letter member))

theorem notMem_printD {letter : Char} (noDigit : isDigit letter = false) (noSign : letter ≠ '-')
    (value : Nat) : letter ∉ printD value := by
  unfold printD
  split <;> simp [notMem_printLlu noDigit, noSign]

theorem notMem_printCounts {letter : Char} (noDigit : isDigit letter = false)
    (noSign : letter ≠ '-') (noComma : letter ≠ ',') (count : Nat) (cpus : List Nat) :
    letter ∉ printCounts count cpus := by
  simp [printCounts, notMem_printD noDigit noSign, noComma]

theorem feed_notMem_printLlu (value : Nat) : '\n' ∉ printLlu value := notMem_printLlu rfl value

theorem feed_notMem_printD (value : Nat) : '\n' ∉ printD value :=
  notMem_printD rfl (by decide) value

theorem feed_notMem_printCounts (count : Nat) (cpus : List Nat) : '\n' ∉ printCounts count cpus :=
  notMem_printCounts rfl (by decide) (by decide) count cpus

theorem feed_notMem_printEighths (ipc : Nat) : '\n' ∉ printEighths ipc := by
  have fraction : '\n' ∉ printFraction ipc := fun member =>
    Bool.noConfusion ((isRun_printFraction ipc).2 '\n' member)
  simp [printEighths, feed_notMem_printLlu, fraction]

theorem oneLine_printSch (r : LogScheduler) : OneLine '\n' (printSch r) := by
  refine ⟨_, rfl, ?_⟩
  simp [List.intercalate, List.intersperse, feed_notMem_printLlu, feed_notMem_printD,
    feed_notMem_printEighths]

theorem oneLine_printMut (r : LogMutator) : OneLine '\n' (printMut r) := by
  refine ⟨_, rfl, ?_⟩
  simp [feed_notMem_printLlu, feed_notMem_printCounts]

theorem oneLine_printPid {r : LogPid} (named : '\n' ∉ r.name.toList) :
    OneLine '\n' (printPid r) := by
  have cut : '\n' ∉ r.name.toList.take 15 := fun member => named (List.mem_of_mem_take member)
  refine ⟨_, rfl, ?_⟩
  simp [feed_notMem_printD, cut]

theorem oneLine_printState (r : LogState) : OneLine '\n' (printState r) := by
  refine ⟨_, rfl, ?_⟩
  simp [feed_notMem_printLlu, feed_notMem_printD]

/-- An entry is printed on one line. -/
theorem oneLine_printEntry : ∀ {entry : LogEntry}, entry.OneLineName →
    OneLine '\n' (printEntry entry)
  | .sch r, _ => oneLine_printSch r
  | .mut r, _ => oneLine_printMut r
  | .pid _, named => oneLine_printPid named
  | .state r, _ => oneLine_printState r

theorem printEntry_eq : ∀ entry : LogEntry,
    ∃ body, printEntry entry = entry.letter :: ',' :: body
  | .sch r => ⟨_, intercalate_fields (printLlu r.interval) _ _ _ _ _ _ _ _⟩
  | .mut r => ⟨_, show printMut r = _ by rw [printMut, List.cons_append, List.cons_append]; rfl⟩
  | .pid r => ⟨_, show printPid r = _ by rw [printPid, List.cons_append, List.cons_append]; rfl⟩
  | .state r => ⟨_, show printState r = _ by
      rw [printState, List.cons_append, List.cons_append]; rfl⟩

/-- The letter tells the kind. -/
theorem matchStart_kindLines (letter : Char) (entry : LogEntry) :
    (matchStart (kindLines letter) (printEntry entry)).isSome = decide (entry.letter = letter) := by
  obtain ⟨body, printed⟩ := printEntry_eq entry
  rw [printed]
  by_cases same : entry.letter = letter
  · subst same
    have matched : matchStart (kindLines entry.letter) (entry.letter :: ',' :: body) = some [] :=
      matchAt_literal [entry.letter, ',']
    rw [matched, decide_eq_true rfl]
    rfl
  · have refused : matchStart (kindLines letter) (entry.letter :: ',' :: body) = none :=
      matchAt_literal_of_ne same
    rw [refused, decide_eq_false same]
    rfl

/-- A kind of records, the letter that tells it, and what is printed for a record. -/
structure Kind (Record : Type) where
  letter : Char
  record? : LogEntry → Option Record
  print : Record → List Char
  tells : ∀ entry, decide (entry.letter = letter) = (record? entry).isSome
  printed : ∀ entry record, record? entry = some record → printEntry entry = print record

/-- `grep` with a pattern that only some records of a kind meet selects what was printed for those,
in their order. -/
theorem Kind.grep_selected {Record : Type} (kind : Kind Record) {entries : List LogEntry}
    (named : ∀ entry ∈ entries, entry.OneLineName) {pattern : Pattern Char}
    {selects : Record → Bool} (tells : ∀ entry ∈ entries,
      (matchStart pattern (printEntry entry)).isSome = (kind.record? entry).any selects) :
    grep pattern (decodelog entries) =
      ((entries.filterMap kind.record?).filter selects).map kind.print := by
  have lines : grep pattern (decodelog entries) =
      (entries.filter fun entry => (kind.record? entry).any selects).map printEntry :=
    filter_readLines_flatMap (fun entry member => oneLine_printEntry (named entry member)) tells
  rw [lines]
  clear named tells lines
  induction entries with
  | nil => rfl
  | cons entry rest inductionHypothesis =>
    cases found : kind.record? entry with
    | none =>
      rw [List.filterMap_cons_none found, ← inductionHypothesis,
        List.filter_cons_of_neg (by simp [found])]
    | some record =>
      rw [List.filterMap_cons_some found, List.filter_cons, List.filter_cons]
      simp only [found, Option.any_some]
      split
      · rw [List.map_cons, List.map_cons, kind.printed entry record found, inductionHypothesis]
      · exact inductionHypothesis

/-- `grep` with the letter of a kind selects what was printed for its records. -/
theorem Kind.grep_decodelog {Record : Type} (kind : Kind Record) {entries : List LogEntry}
    (named : ∀ entry ∈ entries, entry.OneLineName) :
    grep (kindLines kind.letter) (decodelog entries) =
      (entries.filterMap kind.record?).map kind.print := by
  have tells : ∀ entry ∈ entries, (matchStart (kindLines kind.letter) (printEntry entry)).isSome =
      (kind.record? entry).any fun _ => true := by
    intro entry _
    rw [matchStart_kindLines, kind.tells]
    cases kind.record? entry <;> rfl
  rw [kind.grep_selected named tells, List.filter_true]

end Seeker
