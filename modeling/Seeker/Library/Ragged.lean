/-
This file combines lists of different lengths element by element.

`zeroPadded` takes a missing element as zero. `merged` keeps an element that only one list
has; merging many lists with a combination that chooses between two elements leaves at each
index the one that is chosen from all of them, whatever the order of the lists.
-/
import Mathlib.Data.List.Basic
import Mathlib.Order.Lattice
import Mathlib.Order.MinMax
import Mathlib.Tactic.Common

namespace Ragged

variable {Element : Type*}

/-! ### Zero padding -/

/-- The elements of two lists combined, the shorter list padded with zeros. -/
def zeroPadded [Zero Element] (combine : Element → Element → Element) (left right : List Element) :
    List Element :=
  List.zipWithAll (fun leftElement rightElement =>
    combine (leftElement.getD 0) (rightElement.getD 0)) left right

variable [Zero Element] {combine : Element → Element → Element} {left right : List Element}

theorem getElem?_zeroPadded {index : Nat} (within : index < max left.length right.length) :
    (zeroPadded combine left right)[index]? =
      some (combine (left[index]?.getD 0) (right[index]?.getD 0)) := by
  rw [zeroPadded, List.getElem?_zipWithAll]
  split
  · rename_i leftNone rightNone
    rw [List.getElem?_eq_none_iff] at leftNone rightNone
    omega
  · rfl

theorem getElem?_zeroPadded_of_le {index : Nat} (past : max left.length right.length ≤ index) :
    (zeroPadded combine left right)[index]? = none := by
  have leftNone : left[index]? = none := List.getElem?_eq_none (by omega)
  have rightNone : right[index]? = none := List.getElem?_eq_none (by omega)
  rw [zeroPadded, List.getElem?_zipWithAll, leftNone, rightNone]

theorem length_zeroPadded :
    (zeroPadded combine left right).length = max left.length right.length := by
  apply Nat.le_antisymm
  · exact List.getElem?_eq_none_iff.mp (getElem?_zeroPadded_of_le le_rfl)
  · by_contra short
    have inside : (zeroPadded combine left right)[(zeroPadded combine left right).length]? =
        some _ := getElem?_zeroPadded (not_le.mp short)
    rw [List.getElem?_eq_none le_rfl] at inside
    cases inside

/-! ### Merging -/

omit [Zero Element]

/-- The elements of two lists, combined where both lists have one. -/
def merged (combine : Element → Element → Element) : List Element → List Element → List Element
  | [], right => right
  | left, [] => left
  | leftElement :: left, rightElement :: right =>
    combine leftElement rightElement :: merged combine left right

@[simp]
theorem merged_nil (left : List Element) : merged combine left [] = left := by
  cases left with
  | nil => rfl
  | cons _ _ => rfl

@[simp]
theorem nil_merged (right : List Element) : merged combine [] right = right := by
  rw [merged]

theorem getElem?_merged (left right : List Element) (index : Nat) :
    (merged combine left right)[index]? = left[index]?.merge combine right[index]? := by
  induction left, right using merged.induct generalizing index with
  | case1 right =>
    rw [nil_merged, List.getElem?_nil]
    cases right[index]? with
    | none => rfl
    | some _ => rfl
  | case2 left _ =>
    rw [merged_nil, List.getElem?_nil]
    cases left[index]? with
    | none => rfl
    | some _ => rfl
  | case3 leftElement left rightElement right inductionHypothesis =>
    rw [merged]
    cases index with
    | zero => rfl
    | succ index =>
      rw [List.getElem?_cons_succ, List.getElem?_cons_succ, List.getElem?_cons_succ]
      exact inductionHypothesis index

theorem length_merged (left right : List Element) :
    (merged combine left right).length = max left.length right.length := by
  induction left, right using merged.induct with
  | case1 right =>
    rw [nil_merged, List.length_nil]
    omega
  | case2 left _ =>
    rw [merged_nil, List.length_nil]
    omega
  | case3 leftElement left rightElement right inductionHypothesis =>
    rw [merged, List.length_cons, List.length_cons, List.length_cons, inductionHypothesis]
    omega

/-- The element at an index of many merged lists. -/
theorem getElem?_foldl_merged (lists : List (List Element)) (start : List Element) (index : Nat) :
    (lists.foldl (merged combine) start)[index]? =
      (lists.map (·[index]?)).foldl (Option.merge combine) start[index]? := by
  induction lists generalizing start with
  | nil => rfl
  | cons list lists inductionHypothesis =>
    rw [List.foldl_cons, inductionHypothesis, getElem?_merged]
    rfl

/-! ### Combinations that choose -/

/-- The combination of two elements is one of them, by a rule that does not look at their order. -/
structure Chooses (combine : Element → Element → Element) : Prop where
  choice : ∀ left right, combine left right = left ∨ combine left right = right
  comm : ∀ left right, combine left right = combine right left
  assoc : ∀ left middle right,
    combine (combine left middle) right = combine left (combine middle right)

/-- The value is chosen from the candidates: it is one, and wins against each. -/
def IsChosen (combine : Element → Element → Element) (candidates : List (Option Element))
    (value : Element) : Prop :=
  some value ∈ candidates ∧ ∀ other, some other ∈ candidates → combine value other = value

theorem Chooses.self (chooses : Chooses combine) (element : Element) :
    combine element element = element := by
  rcases chooses.choice element element with same | same
  · exact same
  · exact same

/-- The greater of two elements is chosen. -/
theorem chooses_max [LinearOrder Element] : Chooses (max : Element → Element → Element) where
  choice := max_choice
  comm := max_comm
  assoc := max_assoc

/-- The smaller of two elements is chosen. -/
theorem chooses_min [LinearOrder Element] : Chooses (min : Element → Element → Element) where
  choice := min_choice
  comm := min_comm
  assoc := min_assoc

/-- Who wins against two elements wins against the one chosen from them, and the other way round. -/
theorem Chooses.wins_iff (chooses : Chooses combine) (value left right : Element) :
    combine value (combine left right) = value ↔
      combine value left = value ∧ combine value right = value := by
  constructor
  · intro wins
    constructor
    · rw [← wins, chooses.assoc, chooses.comm (combine left right) left, ← chooses.assoc left,
        chooses.self]
    · rw [← wins, chooses.assoc, chooses.assoc left, chooses.self]
  · rintro ⟨winsLeft, winsRight⟩
    rw [← chooses.assoc, winsLeft, winsRight]

/-- A candidate that is missing does not matter. -/
theorem isChosen_none {candidates : List (Option Element)} {value : Element} :
    IsChosen combine (none :: candidates) value ↔ IsChosen combine candidates value := by
  have member (element : Element) :
      some element ∈ none :: candidates ↔ some element ∈ candidates := by
    rw [List.mem_cons]
    exact or_iff_right (Option.some_ne_none element)
  rw [IsChosen, IsChosen, member]
  exact and_congr_right fun _ => forall_congr' fun other => by rw [member]

/-- Two candidates may be replaced by the one that is chosen from them. -/
theorem Chooses.isChosen_merge (chooses : Chooses combine) (first second : Option Element)
    (candidates : List (Option Element)) (value : Element) :
    IsChosen combine (first.merge combine second :: candidates) value ↔
      IsChosen combine (first :: second :: candidates) value := by
  cases first with
  | none =>
    rw [isChosen_none]
    cases second with
    | none => exact Iff.rfl
    | some right => exact Iff.rfl
  | some left =>
    cases second with
    | none =>
      have swapped : IsChosen combine (some left :: none :: candidates) value ↔
          IsChosen combine (none :: some left :: candidates) value := by
        unfold IsChosen
        simp only [List.mem_cons, or_left_comm]
      rw [swapped, isChosen_none]
      exact Iff.rfl
    | some right =>
      show IsChosen combine (some (combine left right) :: candidates) value ↔ _
      unfold IsChosen
      simp only [List.mem_cons, Option.some.injEq, or_imp, forall_and, forall_eq,
        chooses.wins_iff, and_assoc]
      refine and_congr_left fun ⟨winsLeft, winsRight, _⟩ => ?_
      constructor
      · rintro (isBoth | member)
        · rcases chooses.choice left right with isLeft | isRight
          · exact Or.inl (isBoth.trans isLeft)
          · exact Or.inr (Or.inl (isBoth.trans isRight))
        · exact Or.inr (Or.inr member)
      · rintro (isLeft | isRight | member)
        · rw [isLeft] at winsRight ⊢
          exact Or.inl winsRight.symm
        · rw [isRight, chooses.comm] at winsLeft
          rw [isRight]
          exact Or.inl winsLeft.symm
        · exact Or.inr member

/-- What is left of merged candidates is the one chosen from them. -/
theorem Chooses.foldl_merge_eq_some_iff (chooses : Chooses combine)
    (candidates : List (Option Element)) (start : Option Element) (value : Element) :
    candidates.foldl (Option.merge combine) start = some value ↔
      IsChosen combine (start :: candidates) value := by
  induction candidates generalizing start with
  | nil =>
    rw [List.foldl_nil]
    constructor
    · rintro rfl
      refine ⟨List.mem_cons_self, fun other member => ?_⟩
      rw [Option.some.inj (List.mem_singleton.mp member)]
      exact chooses.self value
    · rintro ⟨member, _⟩
      exact (List.mem_singleton.mp member).symm
  | cons candidate candidates inductionHypothesis =>
    rw [List.foldl_cons, inductionHypothesis, chooses.isChosen_merge]

/-- The lists that are merged to nothing have nothing. -/
theorem foldl_merged_eq_nil_iff (lists : List (List Element)) (start : List Element) :
    lists.foldl (merged combine) start = [] ↔ start = [] ∧ ∀ list ∈ lists, list = [] := by
  induction lists generalizing start with
  | nil =>
    rw [List.foldl_nil]
    exact ⟨fun empty => ⟨empty, fun _ member => absurd member List.not_mem_nil⟩, And.left⟩
  | cons list lists inductionHypothesis =>
    have both : merged combine start list = [] ↔ start = [] ∧ list = [] := by
      rw [← List.length_eq_zero_iff, ← List.length_eq_zero_iff, ← List.length_eq_zero_iff,
        length_merged]
      omega
    rw [List.foldl_cons, inductionHypothesis, both, and_assoc, List.forall_mem_cons]

end Ragged
