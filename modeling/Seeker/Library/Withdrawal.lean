/-
This file studies what is left of a list some items of which are marked, when the
unmarked ones are withdrawn until a given number of marked ones has come up.

What comes after the last marked item that is counted stays, marked or not. So
exactly the marked items are left when they are as many as the limit and the list
ends with one of them, and nothing is withdrawn when the list starts with marked
items up to the limit.
-/
import Mathlib.Data.List.Basic
import Mathlib.Data.List.Count
import Mathlib.Tactic.Common

namespace Withdrawal

variable {Item : Type*}

/-- The items that are left. -/
def kept : Nat → List (Item × Bool) → List Item
  | 0, rows => rows.map Prod.fst
  | _ + 1, [] => []
  | limit + 1, (item, true) :: rows => item :: kept limit rows
  | limit + 1, (_, false) :: rows => kept (limit + 1) rows

/-- The number of marked items. -/
def marked (rows : List (Item × Bool)) : Nat := rows.countP Prod.snd

/-- The last item, if there is one, is marked. -/
def EndsMarked (rows : List (Item × Bool)) : Prop :=
  ∀ front row, rows = front ++ [row] → row.2 = true

@[simp]
theorem kept_zero (rows : List (Item × Bool)) : kept 0 rows = rows.map Prod.fst := by
  cases rows <;> rfl

@[simp]
theorem kept_nil (limit : Nat) : kept limit ([] : List (Item × Bool)) = [] := by
  cases limit <;> rfl

@[simp]
theorem marked_nil : marked ([] : List (Item × Bool)) = 0 := rfl

@[simp]
theorem marked_true (item : Item) (rows : List (Item × Bool)) :
    marked ((item, true) :: rows) = marked rows + 1 :=
  List.countP_cons_of_pos rfl

@[simp]
theorem marked_false (item : Item) (rows : List (Item × Bool)) :
    marked ((item, false) :: rows) = marked rows :=
  List.countP_cons_of_neg Bool.false_ne_true

theorem EndsMarked.of_cons {row : Item × Bool} {rows : List (Item × Bool)}
    (ends : EndsMarked (row :: rows)) : EndsMarked rows := by
  rintro front last rfl
  exact ends (row :: front) last rfl

theorem EndsMarked.cons {row : Item × Bool} {rows : List (Item × Bool)}
    (ends : EndsMarked rows) (alone : rows = [] → row.2 = true) : EndsMarked (row :: rows) := by
  intro front last split
  cases front with
  | nil =>
    obtain ⟨rfl, empty⟩ := List.cons.inj split
    exact alone empty
  | cons first front => exact ends front last (List.cons.inj split).2

/-- A list without marks that ends with a marked item is empty. -/
theorem EndsMarked.eq_nil {rows : List (Item × Bool)} (ends : EndsMarked rows)
    (unmarked : marked rows = 0) : rows = [] := by
  rcases List.eq_nil_or_concat rows with empty | ⟨front, last, split⟩
  · exact empty
  · rw [List.concat_eq_append] at split
    rw [marked, List.countP_eq_zero] at unmarked
    exact absurd (ends front last split) (unmarked last (split ▸ by simp))

/-! ### How many items are left -/

theorem kept_sublist (limit : Nat) (rows : List (Item × Bool)) :
    (kept limit rows).Sublist (rows.map Prod.fst) := by
  induction rows generalizing limit with
  | nil =>
    rw [kept_nil]
    exact List.nil_sublist _
  | cons row rest inductionHypothesis =>
    obtain ⟨item, mark⟩ := row
    cases limit with
    | zero => exact (kept_zero _).symm ▸ List.Sublist.refl _
    | succ limit =>
      cases mark with
      | true => exact (inductionHypothesis limit).cons_cons item
      | false => exact (inductionHypothesis (limit + 1)).cons item

theorem length_kept_le (limit : Nat) (rows : List (Item × Bool)) :
    (kept limit rows).length ≤ rows.length := by
  have shorter := (kept_sublist limit rows).length_le
  rwa [List.length_map] at shorter

/-- The marked items that are counted are left. -/
theorem min_marked_le_length_kept (limit : Nat) (rows : List (Item × Bool)) :
    min limit (marked rows) ≤ (kept limit rows).length := by
  induction rows generalizing limit with
  | nil => simp
  | cons row rest inductionHypothesis =>
    obtain ⟨item, mark⟩ := row
    cases limit with
    | zero => simp
    | succ limit =>
      cases mark with
      | true =>
        have fewer := inductionHypothesis limit
        rw [kept, List.length_cons, marked_true]
        omega
      | false =>
        rw [kept, marked_false]
        exact inductionHypothesis (limit + 1)

/-- As many items as the limit are left only if these are all marked items, and the list ends with
one. -/
theorem of_length_kept_eq {limit : Nat} {rows : List (Item × Bool)}
    (enough : limit ≤ marked rows) (exact_length : (kept limit rows).length = limit) :
    marked rows = limit ∧ EndsMarked rows := by
  induction rows generalizing limit with
  | nil =>
    refine ⟨(Nat.le_zero.mp enough).symm, fun front row split => ?_⟩
    exact absurd split.symm (by simp)
  | cons row rest inductionHypothesis =>
    obtain ⟨item, mark⟩ := row
    cases limit with
    | zero => simp at exact_length
    | succ limit =>
      cases mark with
      | true =>
        rw [marked_true] at enough
        obtain ⟨count, ends⟩ := inductionHypothesis (Nat.le_of_succ_le_succ enough)
          (Nat.succ.inj exact_length)
        exact ⟨by rw [marked_true, count], ends.cons fun _ => rfl⟩
      | false =>
        rw [marked_false] at enough
        obtain ⟨count, ends⟩ := inductionHypothesis enough exact_length
        refine ⟨by rw [marked_false, count], ends.cons fun empty => ?_⟩
        rw [empty] at count
        cases count

/-! ### Which items are left -/

/-- Where the marked items do not exceed the limit and one of them is last, just they are left. -/
theorem kept_eq_filter {limit : Nat} {rows : List (Item × Bool)} (ends : EndsMarked rows)
    (all : marked rows ≤ limit) : kept limit rows = (rows.filter Prod.snd).map Prod.fst := by
  induction rows generalizing limit with
  | nil => rw [kept_nil, List.filter_nil, List.map_nil]
  | cons row rest inductionHypothesis =>
    obtain ⟨item, mark⟩ := row
    cases limit with
    | zero =>
      rw [ends.eq_nil (Nat.le_zero.mp all), kept_nil, List.filter_nil, List.map_nil]
    | succ limit =>
      cases mark with
      | true =>
        rw [marked_true] at all
        rw [kept, inductionHypothesis ends.of_cons (Nat.le_of_succ_le_succ all),
          List.filter_cons_of_pos rfl, List.map_cons]
      | false =>
        rw [marked_false] at all
        rw [kept, inductionHypothesis ends.of_cons all, List.filter_cons_of_neg Bool.false_ne_true]

/-- Nothing is withdrawn exactly if the list starts with marked items up to the limit. -/
theorem kept_eq_all_iff {limit : Nat} {rows : List (Item × Bool)} :
    kept limit rows = rows.map Prod.fst ↔ ∀ row ∈ rows.take limit, row.2 = true := by
  induction rows generalizing limit with
  | nil => simp
  | cons row rest inductionHypothesis =>
    obtain ⟨item, mark⟩ := row
    cases limit with
    | zero => simp
    | succ limit =>
      rw [List.take_succ_cons, List.forall_mem_cons, List.map_cons]
      cases mark with
      | true =>
        rw [kept, List.cons_inj_right, inductionHypothesis]
        exact (and_iff_right rfl).symm
      | false =>
        refine iff_of_false (fun same => ?_) fun marks => absurd marks.1 Bool.false_ne_true
        have shorter := length_kept_le (limit + 1) rest
        rw [kept] at same
        rw [same, List.length_cons, List.length_map] at shorter
        omega

end Withdrawal
