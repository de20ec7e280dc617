/-
This file models a register whose bits are divided into fields.

A field has a span of bits and a value of that size. `pack` is the word with every field
at its place, and `merge` keeps the bits of a mask from an old word and takes the fields
for the rest. Where the spans do not overlap and the mask has exactly the bits outside
them, a merge changes no bit outside the fields, and each field can be read back.
-/
import Mathlib.Data.List.Basic
import Mathlib.Tactic.Common

namespace BitFields

/-- The bits from `shift` on, `size` of them. -/
structure Span where
  shift : Nat
  size : Nat
  deriving DecidableEq, Repr

def Span.Covers (span : Span) (index : Nat) : Prop :=
  span.shift ≤ index ∧ index < span.shift + span.size

instance (span : Span) : DecidablePred span.Covers := fun _ => inferInstanceAs (Decidable (_ ∧ _))

/-- Two spans without a common bit. -/
def Span.Apart (first second : Span) : Prop :=
  first.shift + first.size ≤ second.shift ∨ second.shift + second.size ≤ first.shift

instance : DecidableRel Span.Apart := fun _ _ => inferInstanceAs (Decidable (_ ∨ _))

/-- The bit belongs to none of the spans. -/
def Outside (spans : List Span) (index : Nat) : Prop := ∀ span ∈ spans, ¬ span.Covers index

instance (spans : List Span) : DecidablePred (Outside spans) :=
  fun _ => inferInstanceAs (Decidable (∀ _ ∈ _, _))

/-- A value of a span's size. -/
structure Field where
  span : Span
  value : BitVec span.size

variable {width index : Nat} {field : Field} {fields : List Field}

/-- The word with one field at its place. -/
def Field.place (width : Nat) (field : Field) : BitVec width :=
  field.value.setWidth width <<< field.span.shift

/-- The word with all fields at their places. -/
def pack (width : Nat) : List Field → BitVec width
  | [] => 0
  | field :: rest => field.place width ||| pack width rest

/-- The bits of the mask from the old word, the others from the fields. -/
def merge (mask old : BitVec width) (fields : List Field) : BitVec width :=
  old &&& mask ||| pack width fields

/-- The mask has exactly the bits outside the spans. -/
def IsReserved (mask : BitVec width) (spans : List Span) : Prop :=
  ∀ index, index < width → (mask.getLsbD index = true ↔ Outside spans index)

instance (mask : BitVec width) (spans : List Span) : Decidable (IsReserved mask spans) :=
  inferInstanceAs (Decidable (∀ index, index < width → _))

theorem getLsbD_place (inWord : index < width) : (field.place width).getLsbD index =
    (decide (field.span.shift ≤ index) && field.value.getLsbD (index - field.span.shift)) := by
  have shifted : index - field.span.shift < width := by omega
  rw [Field.place, BitVec.getLsbD_shiftLeft, BitVec.getLsbD_setWidth, decide_eq_true inWord,
    decide_eq_true shifted, Bool.true_and, Bool.true_and, ← decide_not]
  simp only [Nat.not_lt]

/-- A field has no bit outside its span. -/
theorem getLsbD_place_of_not_covers (inWord : index < width)
    (outside : ¬ field.span.Covers index) : (field.place width).getLsbD index = false := by
  rw [getLsbD_place inWord]
  by_cases before : field.span.shift ≤ index
  · have behind : field.span.size ≤ index - field.span.shift := by
      unfold Span.Covers at outside
      omega
    rw [BitVec.getLsbD_of_ge _ _ behind, Bool.and_false]
  · rw [decide_eq_false before, Bool.false_and]

theorem getLsbD_pack_of_outside (inWord : index < width)
    (outside : Outside (fields.map Field.span) index) :
    (pack width fields).getLsbD index = false := by
  induction fields with
  | nil => exact BitVec.getLsbD_zero
  | cons field rest inductionHypothesis =>
    rw [pack, BitVec.getLsbD_or,
      getLsbD_place_of_not_covers inWord (outside field.span List.mem_cons_self), Bool.false_or]
    exact inductionHypothesis fun span member => outside span (List.mem_cons_of_mem _ member)

/-- A bit of a field is the field's own, if the spans do not overlap. -/
theorem getLsbD_pack_of_covers (apart : (fields.map Field.span).Pairwise Span.Apart)
    (member : field ∈ fields) (inWord : index < width) (covers : field.span.Covers index) :
    (pack width fields).getLsbD index = field.value.getLsbD (index - field.span.shift) := by
  induction fields with
  | nil => cases member
  | cons first rest inductionHypothesis =>
    obtain ⟨firstApart, restApart⟩ := List.pairwise_cons.mp apart
    rw [pack, BitVec.getLsbD_or]
    rcases List.mem_cons.mp member with rfl | inRest
    · have others : Outside (rest.map Field.span) index := by
        intro span spanMember spanCovers
        have gap := firstApart span spanMember
        unfold Span.Apart at gap
        unfold Span.Covers at covers spanCovers
        omega
      rw [getLsbD_pack_of_outside inWord others, Bool.or_false, getLsbD_place inWord,
        decide_eq_true covers.1, Bool.true_and]
    · have notFirst : ¬ first.span.Covers index := by
        intro firstCovers
        have gap := firstApart field.span (List.mem_map_of_mem inRest)
        unfold Span.Apart at gap
        unfold Span.Covers at covers firstCovers
        omega
      rw [getLsbD_place_of_not_covers inWord notFirst, Bool.false_or]
      exact inductionHypothesis restApart inRest

section Merge

variable {mask old : BitVec width}

/-- A merge changes no bit outside the fields. -/
theorem getLsbD_merge_of_outside (reserved : IsReserved mask (fields.map Field.span))
    (inWord : index < width) (outside : Outside (fields.map Field.span) index) :
    (merge mask old fields).getLsbD index = old.getLsbD index := by
  rw [merge, BitVec.getLsbD_or, BitVec.getLsbD_and, getLsbD_pack_of_outside inWord outside,
    (reserved index inWord).mpr outside, Bool.and_true, Bool.or_false]

/-- A merge has the fields at their places. -/
theorem getLsbD_merge_of_covers (reserved : IsReserved mask (fields.map Field.span))
    (apart : (fields.map Field.span).Pairwise Span.Apart) (member : field ∈ fields)
    (inWord : index < width) (covers : field.span.Covers index) :
    (merge mask old fields).getLsbD index = field.value.getLsbD (index - field.span.shift) := by
  have notReserved : mask.getLsbD index = false := by
    refine eq_false_of_ne_true fun kept => ?_
    exact (reserved index inWord).mp kept field.span (List.mem_map_of_mem member) covers
  rw [merge, BitVec.getLsbD_or, BitVec.getLsbD_and, notReserved, Bool.and_false, Bool.false_or,
    getLsbD_pack_of_covers apart member inWord covers]

end Merge

/-- A field is read back where its bits stand. -/
theorem extractLsb'_eq {word : BitVec width} (bits : ∀ index, field.span.Covers index →
    word.getLsbD index = field.value.getLsbD (index - field.span.shift)) :
    word.extractLsb' field.span.shift field.span.size = field.value := by
  refine BitVec.eq_of_getLsbD_eq fun index small => ?_
  rw [BitVec.getLsbD_extractLsb', decide_eq_true small, Bool.true_and,
    bits (field.span.shift + index) ⟨Nat.le_add_right _ _, Nat.add_lt_add_left small _⟩,
    Nat.add_sub_cancel_left]

end BitFields
