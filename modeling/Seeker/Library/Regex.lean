/-
This file gives a meaning to the regular expressions of a scripting language: a greedy
matcher that backtracks and captures.

A pattern is matched by continuations. `many` takes the longest run first and gives
letters back until what follows accepts the rest. Where what follows a run refuses every
letter of the run, only the whole run can be taken; the file states that rule for the
fields of a separated record, which are runs that a separator ends.
-/
import Mathlib.Data.List.Basic
import Mathlib.Tactic.Common

namespace Regex

/-- Patterns: one letter of a class, a greedy run of such letters, two patterns in sequence, a
capturing group, and a condition on what is left of the input. -/
inductive Pattern (Letter : Type*) where
  | one (accepts : Letter → Bool)
  | many (accepts : Letter → Bool)
  | seq (first second : Pattern Letter)
  | group (inner : Pattern Letter)
  | rest (holds : List Letter → Bool)

variable {Letter Result : Type*}

/-- A greedy run of at least one letter. -/
def manyAt (accepts : Letter → Bool) (next : List Letter → Option Result) :
    List Letter → Option Result
  | [] => none
  | letter :: input =>
    if accepts letter then (manyAt accepts next input).or (next input) else none

/-- A pattern at the start of the input, with what follows it: `next` is given the rest of the
input and the texts captured so far. Groups are numbered in the order they close, which is the
order they open when none is nested. -/
def matchAt : Pattern Letter → (List Letter → List (List Letter) → Option Result) →
    List Letter → List (List Letter) → Option Result
  | .one _, _, [], _ => none
  | .one accepts, next, letter :: input, captured =>
    if accepts letter then next input captured else none
  | .many accepts, next, input, captured =>
    manyAt accepts (fun input => next input captured) input
  | .seq first second, next, input, captured =>
    matchAt first (fun input captured => matchAt second next input captured) input captured
  | .group inner, next, input, captured =>
    matchAt inner
      (fun left captured => next left (captured ++ [input.take (input.length - left.length)]))
      input captured
  | .rest holds, next, input, captured => if holds input then next input captured else none

section Equations

variable (follow : List Letter → List (List Letter) → Option Result) (input : List Letter)
  (captured : List (List Letter))

theorem matchAt_one (accepts : Letter → Bool) (letter : Letter) :
    matchAt (.one accepts) follow (letter :: input) captured =
      if accepts letter then follow input captured else none := rfl

theorem matchAt_seq (first second : Pattern Letter) :
    matchAt (.seq first second) follow input captured =
      matchAt first (matchAt second follow) input captured := rfl

theorem matchAt_group (inner : Pattern Letter) :
    matchAt (.group inner) follow input captured =
      matchAt inner
        (fun left captured =>
          follow left (captured ++ [input.take (input.length - left.length)]))
        input captured := rfl

end Equations

/-- The texts a pattern captures when it is matched at the start of the input. -/
def matchStart (pattern : Pattern Letter) (input : List Letter) : Option (List (List Letter)) :=
  matchAt pattern (fun _ captured => some captured) input []

/-- The texts a pattern captures where it first matches. -/
def search (pattern : Pattern Letter) : List Letter → Option (List (List Letter))
  | [] => matchStart pattern []
  | letter :: input => (matchStart pattern (letter :: input)).or (search pattern input)

/-- A given text and then a pattern. -/
def literal [DecidableEq Letter] (text : List Letter) (pattern : Pattern Letter) :
    Pattern Letter :=
  text.foldr (fun given pattern => .seq (.one fun letter => decide (letter = given)) pattern)
    pattern

/-! ### Runs -/

/-- What follows refuses every input that begins with a letter of the class. -/
def Blocks (accepts : Letter → Bool) (next : List Letter → Option Result) : Prop :=
  ∀ letter input, accepts letter = true → next (letter :: input) = none

/-- The input does not begin with a letter of the class. -/
def Ends (accepts : Letter → Bool) (input : List Letter) : Prop :=
  ∀ letter ∈ input.head?, accepts letter = false

/-- A run of letters of the class. -/
def IsRun (accepts : Letter → Bool) (run : List Letter) : Prop :=
  run ≠ [] ∧ ∀ letter ∈ run, accepts letter = true

variable {accepts : Letter → Bool} {next : List Letter → Option Result}

theorem manyAt_of_ends {input : List Letter} (ends : Ends accepts input) :
    manyAt accepts next input = none := by
  cases input with
  | nil => rfl
  | cons letter input =>
    have refused : accepts letter = false := ends letter rfl
    simp [manyAt, refused]

/-- A run is taken whole when what follows blocks its letters. -/
theorem manyAt_run (blocks : Blocks accepts next) {run input : List Letter}
    (isRun : IsRun accepts run) (ends : Ends accepts input) :
    manyAt accepts next (run ++ input) = next input := by
  obtain ⟨nonempty, all⟩ := isRun
  induction run with
  | nil => exact absurd rfl nonempty
  | cons first run inductionHypothesis =>
    have accepted : accepts first = true := all first List.mem_cons_self
    rw [List.cons_append, manyAt, if_pos accepted]
    cases run with
    | nil => rw [List.nil_append, manyAt_of_ends ends, Option.none_or]
    | cons second run =>
      have later : accepts second = true := all second (by simp)
      rw [inductionHypothesis (List.cons_ne_nil _ _)
        (fun letter member => all letter (List.mem_cons_of_mem _ member)), List.cons_append,
        blocks second _ later, Option.or_none]

theorem manyAt_of_refused {input : List Letter}
    (refused : ∀ after, after <:+ input → after ≠ input → next after = none) :
    manyAt accepts next input = none := by
  induction input with
  | nil => rfl
  | cons letter input inductionHypothesis =>
    have rest := inductionHypothesis fun after suffix _ =>
      refused after (suffix.trans (List.suffix_cons letter input)) fun same => by
        simp [same, List.suffix_iff_eq_drop] at suffix
    have tail := refused input (List.suffix_cons letter input) (by simp)
    rw [manyAt, rest, tail, Option.none_or, ite_self]

/-- A run is given back letter by letter until the only place where what follows may accept. -/
theorem manyAt_of_suffixes {run input : List Letter} (isRun : IsRun accepts run)
    (refused : ∀ after, after <:+ run ++ input → after ≠ input → next after = none) :
    manyAt accepts next (run ++ input) = next input := by
  obtain ⟨nonempty, all⟩ := isRun
  induction run with
  | nil => exact absurd rfl nonempty
  | cons first run inductionHypothesis =>
    have accepted : accepts first = true := all first List.mem_cons_self
    have refusedRest : ∀ after, after <:+ run ++ input → after ≠ input → next after = none :=
      fun after suffix => refused after (suffix.trans (List.suffix_cons first _))
    rw [List.cons_append, manyAt, if_pos accepted]
    cases run with
    | nil =>
      rw [List.nil_append, manyAt_of_refused fun after suffix => refusedRest after suffix,
        Option.none_or]
    | cons second run =>
      have shorter : second :: run ++ input ≠ input := fun same => by
        have lengths := congrArg List.length same
        rw [List.length_append, List.length_cons] at lengths
        omega
      rw [inductionHypothesis refusedRest (List.cons_ne_nil _ _) fun letter member =>
        all letter (List.mem_cons_of_mem _ member),
        refusedRest _ List.suffix_rfl shorter, Option.or_none]

/-- The text a group has taken is what stands before the rest. -/
theorem take_append_sub (run input : List Letter) :
    (run ++ input).take ((run ++ input).length - input.length) = run := by
  rw [List.length_append, Nat.add_sub_cancel, List.take_left]

/-- A captured run is taken whole when what follows blocks its letters. -/
theorem matchAt_run {follow : List Letter → List (List Letter) → Option Result}
    {pattern : Pattern Letter} {run input : List Letter} {captured : List (List Letter)}
    (isRun : IsRun accepts run) (ends : Ends accepts input)
    (blocks : ∀ captured, Blocks accepts fun input => matchAt pattern follow input captured) :
    matchAt (.seq (.group (.many accepts)) pattern) follow (run ++ input) captured =
      matchAt pattern follow input (captured ++ [run]) := by
  have blocked : Blocks accepts fun left => matchAt pattern follow left
      (captured ++ [(run ++ input).take ((run ++ input).length - left.length)]) :=
    fun letter left accepted => blocks _ letter left accepted
  have taken := manyAt_run blocked isRun ends
  rw [take_append_sub] at taken
  exact taken

/-! ### Separated fields -/

section Fields

variable [DecidableEq Letter] {follow : List Letter → List (List Letter) → Option Result}
  {pattern : Pattern Letter} {text input run : List Letter} {captured : List (List Letter)}
  {given letter : Letter}

theorem matchAt_literal (text : List Letter) :
    matchAt (literal text pattern) follow (text ++ input) captured =
      matchAt pattern follow input captured := by
  induction text with
  | nil => rfl
  | cons given text inductionHypothesis =>
    rw [← inductionHypothesis]
    exact if_pos (decide_eq_true rfl)

/-- Two letters at the start of the input are taken one after the other. -/
theorem matchAt_pair {second : Letter} :
    matchAt (literal [given, second] pattern) follow (given :: second :: input) captured =
      matchAt pattern follow input captured :=
  matchAt_literal [given, second]

theorem matchAt_literal_of_ne (different : letter ≠ given) :
    matchAt (literal (given :: text) pattern) follow (letter :: input) captured = none :=
  if_neg fun same => different (of_decide_eq_true same)

/-- A text that begins with a letter of no run blocks the runs before it. -/
theorem blocks_literal (refused : accepts given = false) :
    Blocks accepts fun input =>
      matchAt (literal (given :: text) pattern) follow input captured := by
  intro letter input accepted
  refine matchAt_literal_of_ne ?_
  rintro rfl
  exact Bool.noConfusion (accepted.symm.trans refused)

/-- A run that a separator ends is captured whole. -/
theorem matchAt_field (isRun : IsRun accepts run) (refused : accepts given = false) :
    matchAt (.seq (.group (.many accepts)) (literal (given :: text) pattern)) follow
        (run ++ (given :: text ++ input)) captured =
      matchAt pattern follow input (captured ++ [run]) := by
  rw [matchAt_run isRun ?_ fun _ => blocks_literal refused, matchAt_literal]
  intro letter member
  obtain rfl := Option.some.inj member
  exact refused

theorem matchAt_field_letter (isRun : IsRun accepts run) (refused : accepts given = false) :
    matchAt (.seq (.group (.many accepts)) (literal [given] pattern)) follow
        (run ++ given :: input) captured =
      matchAt pattern follow input (captured ++ [run]) :=
  matchAt_field isRun refused

/-- A text that is not at the start of the input is refused. -/
theorem matchAt_literal_none (absent : ¬ text <+: input) :
    matchAt (literal text pattern) follow input captured = none := by
  induction text generalizing input with
  | nil => exact absurd (List.nil_prefix) absent
  | cons given text inductionHypothesis =>
    cases input with
    | nil => rfl
    | cons letter input =>
      by_cases same : letter = given
      · subst same
        refine (if_pos (decide_eq_true rfl)).trans (inductionHypothesis fun held => absent ?_)
        exact List.cons_prefix_cons.mpr ⟨rfl, held⟩
      · exact matchAt_literal_of_ne same

/-- A run of any letters is taken up to a text with a letter that stands nowhere else. -/
theorem matchAt_run_of_mark {before after : List Letter} {mark : Letter}
    (isRun : IsRun accepts run) (absentBefore : mark ∉ run ++ before)
    (absentAfter : mark ∉ after ++ input) :
    matchAt (.seq (.group (.many accepts)) (literal (before ++ mark :: after) pattern)) follow
        (run ++ (before ++ mark :: after ++ input)) captured =
      matchAt pattern follow input (captured ++ [run]) := by
  have refused : ∀ left, left <:+ run ++ (before ++ mark :: after ++ input) →
      left ≠ before ++ mark :: after ++ input → ∀ captured,
        matchAt (literal (before ++ mark :: after) pattern) follow left captured = none := by
    rintro left ⟨taken, whole⟩ different captured
    refine matchAt_literal_none ?_
    rintro ⟨rest, rfl⟩
    have marked : run ++ before ++ mark :: (after ++ input) =
        taken ++ before ++ mark :: (after ++ rest) := by
      simpa only [List.append_assoc, List.cons_append] using whole.symm
    have unique := (List.append_cons_inj_of_notMem absentBefore absentAfter).mp marked
    exact different (by simp [unique.2])
  have taken := manyAt_of_suffixes isRun fun left suffix different =>
    refused left suffix different (captured ++ [(run ++ (before ++ mark :: after ++ input)).take
      ((run ++ (before ++ mark :: after ++ input)).length - left.length)])
  rw [take_append_sub] at taken
  exact taken.trans (matchAt_literal _)

/-- One letter of the class that a separator follows is captured. -/
theorem matchAt_single (accepted : accepts letter = true) :
    matchAt (.seq (.group (.one accepts)) (literal [given] pattern)) follow
        (letter :: given :: input) captured =
      matchAt pattern follow input (captured ++ [[letter]]) := by
  have taken : (letter :: given :: input).take
      ((letter :: given :: input).length - (given :: input).length) = [letter] :=
    take_append_sub [letter] (given :: input)
  rw [matchAt_seq, matchAt_group, matchAt_one, if_pos accepted, taken]
  exact matchAt_literal [given]

/-- A pattern that begins with a letter the rest of the input lacks can only match at the start. -/
theorem search_literal (absent : given ∉ input) (letter : Letter) :
    search (literal (given :: text) pattern) (letter :: input) =
      matchStart (literal (given :: text) pattern) (letter :: input) := by
  have later : search (literal (given :: text) pattern) input = none := by
    induction input with
    | nil => rfl
    | cons first input inductionHypothesis =>
      obtain ⟨different, absent⟩ := not_or.mp (List.mem_cons.not.mp absent)
      rw [search, inductionHypothesis absent, Option.or_none]
      exact matchAt_literal_of_ne (Ne.symm different)
  rw [search, later, Option.or_none]

end Fields

end Regex
