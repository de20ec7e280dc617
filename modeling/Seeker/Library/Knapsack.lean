/-
This file solves the multiple-choice knapsack by dynamic programming.

One item is chosen from each class, within a budget for the weights, so that the
values add up to as much as possible. A table holds for every number of classes and
every budget the most that can be reached, and with it the item of the last class
that reaches it. The file states what the cells of such a table satisfy among
themselves, proves that they then hold the optima, and that following the recorded
items with what is left of the budget makes an optimal choice.
-/
import Mathlib.Algebra.BigOperators.Intervals
import Mathlib.Algebra.Order.BigOperators.Group.Finset
import Mathlib.Algebra.Order.Group.Int
import Mathlib.Tactic.Linarith

namespace Knapsack

/-- A number of classes that have the same number of items each. -/
structure Problem where
  items : Nat
  weight : Nat → Nat → Nat
  value : Nat → Nat → Int

namespace Problem

variable (p : Problem)

/-! ### Choices -/

/-- What the items chosen from the first classes weigh. -/
def cost (choice : Nat → Nat) (classes : Nat) : Nat :=
  ∑ k ∈ Finset.range classes, p.weight k (choice k)

/-- What the items chosen from the first classes are worth. -/
def gain (choice : Nat → Nat) (classes : Nat) : Int :=
  ∑ k ∈ Finset.range classes, p.value k (choice k)

/-- An item is chosen from each of the first classes, within the budget. -/
structure Feasible (classes budget : Nat) (choice : Nat → Nat) : Prop where
  inClass : ∀ k, k < classes → choice k < p.items
  cost_le : p.cost choice classes ≤ budget

/-- The most that a choice from the first classes can be worth. -/
structure Optimum (classes budget : Nat) (best : Int) : Prop where
  reached : ∃ choice, p.Feasible classes budget choice ∧ p.gain choice classes = best
  bound : ∀ choice, p.Feasible classes budget choice → p.gain choice classes ≤ best

variable {p} {classes budget : Nat} {choice other : Nat → Nat} {best : Int}

theorem cost_succ : p.cost choice (classes + 1) =
    p.cost choice classes + p.weight classes (choice classes) :=
  Finset.sum_range_succ _ _

theorem gain_succ : p.gain choice (classes + 1) =
    p.gain choice classes + p.value classes (choice classes) :=
  Finset.sum_range_succ _ _

/-- Only the classes that are summed over matter. -/
theorem cost_congr (same : ∀ k, k < classes → choice k = other k) :
    p.cost choice classes = p.cost other classes := by
  refine Finset.sum_congr rfl fun k member => ?_
  rw [same k (Finset.mem_range.mp member)]

theorem gain_congr (same : ∀ k, k < classes → choice k = other k) :
    p.gain choice classes = p.gain other classes := by
  refine Finset.sum_congr rfl fun k member => ?_
  rw [same k (Finset.mem_range.mp member)]

theorem Feasible.congr (feasible : p.Feasible classes budget choice)
    (same : ∀ k, k < classes → choice k = other k) : p.Feasible classes budget other where
  inClass k small := same k small ▸ feasible.inClass k small
  cost_le := cost_congr same ▸ feasible.cost_le

/-- A choice from one class more is a choice from the last class and a choice from the others
within what it leaves. -/
theorem feasible_succ_iff : p.Feasible (classes + 1) budget choice ↔
    choice classes < p.items ∧ p.weight classes (choice classes) ≤ budget ∧
      p.Feasible classes (budget - p.weight classes (choice classes)) choice := by
  constructor
  · intro feasible
    have whole := feasible.cost_le
    rw [cost_succ] at whole
    refine ⟨feasible.inClass classes (Nat.lt_succ_self classes), by linarith, ?_, ?_⟩
    · exact fun k small => feasible.inClass k (Nat.lt_succ_of_lt small)
    · exact Nat.le_sub_of_add_le whole
  · rintro ⟨last, light, rest⟩
    refine ⟨fun k small => ?_, ?_⟩
    · rcases Nat.lt_succ_iff_lt_or_eq.mp small with before | here
      · exact rest.inClass k before
      · rw [here]
        exact last
    · rw [cost_succ]
      exact (Nat.le_sub_iff_add_le light).mp rest.cost_le

/-- A choice from some classes, extended by an item of the next class. -/
theorem Feasible.extend {item : Nat} (inClass : item < p.items)
    (light : p.weight classes item ≤ budget)
    (feasible : p.Feasible classes (budget - p.weight classes item) choice) :
    p.Feasible (classes + 1) budget (Function.update choice classes item) := by
  rw [feasible_succ_iff, Function.update_self]
  refine ⟨inClass, light, feasible.congr fun k small => ?_⟩
  rw [Function.update_of_ne (Nat.ne_of_lt small)]

theorem gain_extend (item : Nat) :
    p.gain (Function.update choice classes item) (classes + 1) =
      p.gain choice classes + p.value classes item := by
  rw [gain_succ, Function.update_self]
  congr 1
  refine gain_congr fun k small => ?_
  rw [Function.update_of_ne (Nat.ne_of_lt small)]

/-- A larger budget is worth no less. -/
theorem Optimum.mono {small large : Nat} {less more : Int} (within : small ≤ large)
    (first : p.Optimum classes small less) (second : p.Optimum classes large more) :
    less ≤ more := by
  obtain ⟨choice, feasible, worth⟩ := first.reached
  rw [← worth]
  exact second.bound choice ⟨feasible.inClass, feasible.cost_le.trans within⟩

/-! ### The table -/

/-- With no class there is nothing to choose. -/
theorem optimum_zero (budget : Nat) : p.Optimum 0 budget 0 where
  reached := ⟨fun _ => 0, ⟨fun k small => absurd small (Nat.not_lt_zero k), Nat.zero_le _⟩, rfl⟩
  bound _ _ := le_refl 0

/-- The item a cell records for the last class, and what the cell then holds: no item that fits
does better. -/
structure Recorded (p : Problem) (row : Nat → Int) (k budget item : Nat) (best : Int) : Prop where
  inClass : item < p.items
  light : p.weight k item ≤ budget
  best_eq : best = row (budget - p.weight k item) + p.value k item
  bound : ∀ other, other < p.items → p.weight k other ≤ budget →
    row (budget - p.weight k other) + p.value k other ≤ best

/-- A cell that records a best item over a row of optima holds an optimum. -/
theorem Recorded.optimum {row : Nat → Int} {item : Nat}
    (recorded : Recorded p row classes budget item best)
    (optima : ∀ smaller, smaller ≤ budget → p.Optimum classes smaller (row smaller)) :
    p.Optimum (classes + 1) budget best := by
  constructor
  · obtain ⟨choice, feasible, worth⟩ :=
      (optima (budget - p.weight classes item) (Nat.sub_le _ _)).reached
    refine ⟨Function.update choice classes item,
      feasible.extend recorded.inClass recorded.light, ?_⟩
    rw [gain_extend, worth, recorded.best_eq]
  · intro choice feasible
    obtain ⟨last, light, rest⟩ := feasible_succ_iff.mp feasible
    have before := (optima _ (Nat.sub_le _ _)).bound choice rest
    have fits := recorded.bound (choice classes) last light
    rw [gain_succ]
    linarith

/-- A table of rows, each of which records best items over the row before it. -/
structure Solved (p : Problem) (table : Nat → Nat → Int) (chosen : Nat → Nat → Nat)
    (classes budget : Nat) : Prop where
  first : ∀ smaller, smaller ≤ budget → table 0 smaller = 0
  recorded : ∀ k, k < classes → ∀ smaller, smaller ≤ budget →
    Recorded p (table k) k smaller (chosen (k + 1) smaller) (table (k + 1) smaller)

variable {table : Nat → Nat → Int} {chosen : Nat → Nat → Nat}

theorem Solved.before (solved : Solved p table chosen (classes + 1) budget) :
    Solved p table chosen classes budget :=
  ⟨solved.first, fun k small => solved.recorded k (Nat.lt_succ_of_lt small)⟩

/-- The cells of a solved table hold the optima. -/
theorem Solved.optimum (solved : Solved p table chosen classes budget) :
    ∀ smaller, smaller ≤ budget → p.Optimum classes smaller (table classes smaller) := by
  induction classes with
  | zero =>
    intro smaller within
    rw [solved.first smaller within]
    exact optimum_zero smaller
  | succ classes inductionHypothesis =>
    intro smaller within
    refine (solved.recorded classes (Nat.lt_succ_self classes) smaller within).optimum ?_
    exact fun least below => inductionHypothesis solved.before least (below.trans within)

/-! ### Following the recorded items -/

variable (p) in
/-- The recorded items, from the last class to the first, each with what the later ones leave of
the budget. -/
def replay (chosen : Nat → Nat → Nat) : Nat → Nat → Nat → Nat
  | 0, _ => fun _ => 0
  | k + 1, budget =>
    Function.update (replay chosen k (budget - p.weight k (chosen (k + 1) budget))) k
      (chosen (k + 1) budget)

/-- Following a solved table makes a choice that is worth what the table says. -/
theorem Solved.replay (solved : Solved p table chosen classes budget) :
    ∀ smaller, smaller ≤ budget →
      p.Feasible classes smaller (p.replay chosen classes smaller) ∧
        p.gain (p.replay chosen classes smaller) classes = table classes smaller := by
  induction classes with
  | zero =>
    intro smaller within
    refine ⟨⟨fun k small => absurd small (Nat.not_lt_zero k), Nat.zero_le _⟩, ?_⟩
    rw [solved.first smaller within]
    rfl
  | succ classes inductionHypothesis =>
    intro smaller within
    have recorded := solved.recorded classes (Nat.lt_succ_self classes) smaller within
    obtain ⟨feasible, worth⟩ := inductionHypothesis solved.before
      (smaller - p.weight classes (chosen (classes + 1) smaller)) ((Nat.sub_le _ _).trans within)
    refine ⟨feasible.extend recorded.inClass recorded.light, ?_⟩
    show p.gain (Function.update _ classes _) (classes + 1) = _
    rw [gain_extend, worth, recorded.best_eq]

/-- No choice within the budget is worth more than the one that follows a solved table. -/
theorem Solved.replay_best (solved : Solved p table chosen classes budget)
    (feasible : p.Feasible classes budget choice) :
    p.gain choice classes ≤ p.gain (p.replay chosen classes budget) classes := by
  rw [(solved.replay budget le_rfl).2]
  exact (solved.optimum budget le_rfl).bound choice feasible

end Problem

end Knapsack
