/-
This file describes the scan for the largest key.

The scan goes through the indices and remembers the first one whose key exceeds a
baseline and all keys before it. In the end no key exceeds the key it remembers, and it
remembers none exactly if no key exceeds the baseline.
-/
import Mathlib.Order.Lattice
import Seeker.Library.Loops

namespace Champion

variable {Key : Type*} [LinearOrder Key]

/-- The largest key so far, and where it was found. -/
structure Standing (Key : Type*) where
  key : Key
  holder : Option Nat

/-- One turn of the scan. -/
def challenge (key : Nat → Key) (index : Nat) (standing : Standing Key) : Standing Key :=
  if standing.key < key index then { key := key index, holder := some index } else standing

/-- The scan of the indices below `count`. -/
def champion (key : Nat → Key) (baseline : Key) (count : Nat) : Standing Key :=
  Loops.forRange count (challenge key) { key := baseline, holder := none }

/-- What the scan knows of the indices below `count`. -/
structure Leads (key : Nat → Key) (baseline : Key) (count : Nat) (standing : Standing Key) :
    Prop where
  baseline_le : baseline ≤ standing.key
  key_le : ∀ index, index < count → key index ≤ standing.key
  held : ∀ index, standing.holder = some index →
    index < count ∧ key index = standing.key ∧ baseline < standing.key
  vacant : standing.holder = none → standing.key = baseline

variable {key : Nat → Key} {baseline : Key} {count : Nat} {standing : Standing Key}

theorem Leads.challenge (leads : Leads key baseline count standing) :
    Leads key baseline (count + 1) (challenge key count standing) := by
  unfold Champion.challenge
  by_cases larger : standing.key < key count
  · rw [if_pos larger]
    have above : baseline < key count := leads.baseline_le.trans_lt larger
    refine ⟨above.le, fun index small => ?_, fun index taken => ?_, fun vacant => nomatch vacant⟩
    · rcases Nat.lt_succ_iff_lt_or_eq.mp small with earlier | rfl
      · exact (leads.key_le index earlier).trans larger.le
      · exact le_rfl
    · obtain rfl := Option.some.inj taken
      exact ⟨Nat.lt_succ_self count, rfl, above⟩
  · rw [if_neg larger]
    refine ⟨leads.baseline_le, fun index small => ?_, fun index taken => ?_, leads.vacant⟩
    · rcases Nat.lt_succ_iff_lt_or_eq.mp small with earlier | rfl
      · exact leads.key_le index earlier
      · exact not_lt.mp larger
    · obtain ⟨earlier, rest⟩ := leads.held index taken
      exact ⟨Nat.lt_succ_of_lt earlier, rest⟩

theorem champion_leads (key : Nat → Key) (baseline : Key) (count : Nat) :
    Leads key baseline count (champion key baseline count) := by
  refine Loops.forRange_induction (Leads key baseline)
    ⟨le_rfl, ?_, fun _ taken => (nomatch taken), fun _ => rfl⟩
    fun _ _ _ leads => leads.challenge
  exact fun index small => absurd small (Nat.not_lt_zero index)

/-- The scan finds nothing exactly if no key exceeds the baseline. -/
theorem champion_holder_eq_none_iff :
    (champion key baseline count).holder = none ↔
      ∀ index, index < count → key index ≤ baseline := by
  have leads := champion_leads key baseline count
  constructor
  · intro vacant index small
    exact (leads.key_le index small).trans_eq (leads.vacant vacant)
  · intro small
    cases holder : (champion key baseline count).holder with
    | none => rfl
    | some index =>
      obtain ⟨within, same, above⟩ := leads.held index holder
      exact absurd (same.symm.trans_le (small index within)) (not_le.mpr above)

end Champion
