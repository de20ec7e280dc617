/-
This file reads a text line by line. A line keeps the letter that ends it, as a reader of a
file is given it; the last line may lack it.

A text that was written one line for each entry is read back as those lines, so that what
a filter selects from the text is what was written for the entries it would select.
-/
import Mathlib.Data.List.Basic
import Mathlib.Tactic.Common

namespace Lines

variable {Letter Entry : Type*}

/-! ### One line -/

/-- A text that is one line, ended by its only line feed. -/
def OneLine (feed : Letter) (text : List Letter) : Prop :=
  ∃ body, text = body ++ [feed] ∧ feed ∉ body

section OneLine

variable {feed letter : Letter} {text run : List Letter}

theorem oneLine_feed (feed : Letter) : OneLine feed [feed] := ⟨[], rfl, List.not_mem_nil⟩

theorem OneLine.cons (oneLine : OneLine feed text) (different : feed ≠ letter) :
    OneLine feed (letter :: text) := by
  obtain ⟨body, rfl, absent⟩ := oneLine
  exact ⟨letter :: body, rfl, List.not_mem_cons_of_ne_of_not_mem different absent⟩

theorem OneLine.append (oneLine : OneLine feed text) (absent : feed ∉ run) :
    OneLine feed (run ++ text) := by
  obtain ⟨body, rfl, absentBody⟩ := oneLine
  refine ⟨run ++ body, (List.append_assoc run body [feed]).symm, ?_⟩
  exact List.not_mem_append absent absentBody

end OneLine

/-! ### The lines of a text -/

section Lines

variable [DecidableEq Letter] (feed : Letter)

/-- The lines of a text, each with its line feed. -/
def readLines : List Letter → List (List Letter)
  | [] => []
  | letter :: text =>
    if letter = feed then [feed] :: readLines text
    else
      match readLines text with
      | [] => [[letter]]
      | line :: lines => (letter :: line) :: lines

/-- The text without a line feed at its end. -/
def chomp (text : List Letter) : List Letter :=
  if text.getLast? = some feed then text.dropLast else text

variable {feed} {line : List Letter}

@[simp]
theorem chomp_append (body : List Letter) : chomp feed (body ++ [feed]) = body := by
  simp [chomp]

theorem chomp_of_eq {body : List Letter} (ended : line = body ++ [feed]) :
    chomp feed line = body := by
  rw [ended, chomp_append]

/-- A line at the start of a text is read first. -/
theorem readLines_append (oneLine : OneLine feed line) (text : List Letter) :
    readLines feed (line ++ text) = line :: readLines feed text := by
  obtain ⟨body, rfl, absent⟩ := oneLine
  induction body with
  | nil => simp [readLines]
  | cons letter body inductionHypothesis =>
    obtain ⟨different, absent⟩ := not_or.mp (List.mem_cons.not.mp absent)
    have rest := inductionHypothesis absent
    rw [List.cons_append, List.cons_append, readLines, if_neg (Ne.symm different), rest]

/-- A text of lines is read back as these lines. -/
theorem readLines_flatMap {print : Entry → List Letter} {entries : List Entry}
    (oneLine : ∀ entry ∈ entries, OneLine feed (print entry)) :
    readLines feed (entries.flatMap print) = entries.map print := by
  induction entries with
  | nil => rfl
  | cons entry rest inductionHypothesis =>
    obtain ⟨first, others⟩ := List.forall_mem_cons.mp oneLine
    rw [List.flatMap_cons, readLines_append first, inductionHypothesis others, List.map_cons]

/-- What a filter selects from the lines is what was written for the entries of a kind, when it
tells the kind. -/
theorem filter_readLines_flatMap {print : Entry → List Letter} {entries : List Entry}
    (oneLine : ∀ entry ∈ entries, OneLine feed (print entry)) {selects : List Letter → Bool}
    {kind : Entry → Bool} (tells : ∀ entry ∈ entries, selects (print entry) = kind entry) :
    (readLines feed (entries.flatMap print)).filter selects =
      (entries.filter kind).map print := by
  rw [readLines_flatMap oneLine, List.filter_map]
  exact congrArg (List.map print) (List.filter_congr tells)

end Lines

/-- What is written for the entries that pass a test is written for those alone. -/
theorem flatMap_ite_nil (print : Entry → List Letter) (passes : Entry → Bool)
    (entries : List Entry) :
    (entries.flatMap fun entry => if passes entry then print entry else []) =
      (entries.filter passes).flatMap print := by
  induction entries with
  | nil => rfl
  | cons entry rest inductionHypothesis =>
    rw [List.flatMap_cons, inductionHypothesis, List.filter_cons]
    split
    · rw [List.flatMap_cons]
    · exact List.nil_append _

end Lines
