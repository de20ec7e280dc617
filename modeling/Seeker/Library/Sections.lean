/-
This file divides a list of words at a keyword.

`Divides keyword words parts` says that `words` is the keyword and the first part, the
keyword and the second part, and so on, where no part has the keyword. A list has at
most one such division, and a reader that takes the words one by one either begins a
new part or adds to the last one.
-/
import Mathlib.Data.List.Basic
import Mathlib.Tactic.Common

namespace Sections

variable {Word : Type*} {keyword word : Word} {words : List Word} {parts others : List (List Word)}

/-- The words are the parts, each begun with the keyword. -/
structure Divides (keyword : Word) (words : List Word) (parts : List (List Word)) : Prop where
  words_eq : words = parts.flatMap (keyword :: ·)
  free : ∀ part ∈ parts, keyword ∉ part

theorem Divides.nil : Divides keyword [] [] where
  words_eq := rfl
  free _ member := absurd member List.not_mem_nil

/-- The keyword begins a new part. -/
theorem Divides.begin (divides : Divides keyword words parts) :
    Divides keyword (words ++ [keyword]) (parts ++ [[]]) where
  words_eq := by
    rw [List.flatMap_append, ← divides.words_eq]
    rfl
  free part member := by
    rcases List.mem_append.mp member with earlier | last
    · exact divides.free part earlier
    · rw [List.mem_singleton.mp last]
      exact List.not_mem_nil

/-- Every other word is added to the last part. -/
theorem Divides.add {last : List Word} (divides : Divides keyword words (parts ++ [last]))
    (other : word ≠ keyword) :
    Divides keyword (words ++ [word]) (parts ++ [last ++ [word]]) where
  words_eq := by
    rw [divides.words_eq, List.flatMap_append, List.flatMap_append, List.append_assoc,
      List.flatMap_singleton, List.flatMap_singleton, List.cons_append]
  free part member := by
    rcases List.mem_append.mp member with earlier | isLast
    · exact divides.free part (List.mem_append_left _ earlier)
    · rw [List.mem_singleton.mp isLast]
      intro inLast
      rcases List.mem_append.mp inLast with before | new
      · exact divides.free last (List.mem_append_right _ List.mem_cons_self) before
      · exact other (List.mem_singleton.mp new).symm

/-- A division of the words behind the first keyword begins with what stands before the next. -/
theorem takeWhile_append_flatMap [DecidableEq Word] {part : List Word} (free : keyword ∉ part)
    (parts : List (List Word)) :
    (part ++ parts.flatMap (keyword :: ·)).takeWhile (fun word => decide (word ≠ keyword)) =
      part := by
  have all : ∀ word ∈ part, decide (word ≠ keyword) = true := fun word member =>
    decide_eq_true fun same => free (same ▸ member)
  rw [List.takeWhile_append_of_pos all]
  cases parts with
  | nil => rw [List.flatMap_nil, List.takeWhile_nil, List.append_nil]
  | cons next rest =>
    rw [List.flatMap_cons, List.cons_append, List.takeWhile_cons_of_neg (by simp),
      List.append_nil]

/-- There is at most one division. -/
theorem Divides.unique [DecidableEq Word] (first : Divides keyword words parts)
    (second : Divides keyword words others) : parts = others := by
  induction parts generalizing words others with
  | nil =>
    cases others with
    | nil => rfl
    | cons part rest => cases first.words_eq.symm.trans second.words_eq
  | cons part rest inductionHypothesis =>
    cases others with
    | nil => cases first.words_eq.symm.trans second.words_eq
    | cons other otherRest =>
      have same : part ++ rest.flatMap (keyword :: ·) =
          other ++ otherRest.flatMap (keyword :: ·) := by
        have words := first.words_eq.symm.trans second.words_eq
        rw [List.flatMap_cons, List.flatMap_cons] at words
        exact List.tail_eq_of_cons_eq words
      have partFree := first.free part List.mem_cons_self
      have otherFree := second.free other List.mem_cons_self
      have samePart : part = other := by
        rw [← takeWhile_append_flatMap partFree rest, same,
          takeWhile_append_flatMap otherFree otherRest]
      rw [samePart] at same ⊢
      have behind := List.append_cancel_left same
      congr 1
      exact inductionHypothesis
        ⟨rfl, fun part member => first.free part (List.mem_cons_of_mem _ member)⟩
        ⟨behind, fun part member => second.free part (List.mem_cons_of_mem _ member)⟩

/-- Words that can be divided begin with the keyword, unless there are none. -/
theorem Divides.head {first : Word} {rest : List Word}
    (divides : Divides keyword (first :: rest) parts) : first = keyword := by
  cases parts with
  | nil => cases divides.words_eq
  | cons part others =>
    have words := divides.words_eq
    rw [List.flatMap_cons] at words
    exact List.head_eq_of_cons_eq words

/-- The keyword stands once for every part. -/
theorem Divides.count [BEq Word] [LawfulBEq Word] (divides : Divides keyword words parts) :
    words.count keyword = parts.length := by
  rw [divides.words_eq]
  have free := divides.free
  clear divides
  induction parts with
  | nil => rfl
  | cons part rest inductionHypothesis =>
    have none : part.count keyword = 0 :=
      List.count_eq_zero.mpr (free part List.mem_cons_self)
    rw [List.flatMap_cons, List.count_append, List.count_cons_self, none, List.length_cons,
      inductionHypothesis fun part member => free part (List.mem_cons_of_mem _ member)]
    omega

end Sections
