/-
This file treats the piecewise linear curve through given vertices.

Segment `i` goes from vertex `i` to vertex `i + 1` and covers the abscissas between them,
the first left out and the last included; between two vertices at one abscissa it covers
nothing. When the abscissas do not decrease, each abscissa is covered by one segment at
most, and a search that only goes forward finds it.
-/
import Mathlib.Algebra.Field.Defs
import Mathlib.Data.Nat.SuccPred
import Mathlib.Order.SuccPred.Archimedean
import Mathlib.Order.SuccPred.IntervalSucc

namespace Polyline

variable {Number : Type*} [Field Number] [LinearOrder Number] {abscissa ordinate : Nat → Number}
  {start segment other segments : Nat} {x y : Number}

/-- The segment lies over the abscissa. -/
def Covers (abscissa : Nat → Number) (segment : Nat) (x : Number) : Prop :=
  x ∈ Set.Ioc (abscissa segment) (abscissa (segment + 1))

/-- The line through the two ends of a segment. -/
def line (abscissa ordinate : Nat → Number) (segment : Nat) (x : Number) : Number :=
  ordinate segment +
    (ordinate (segment + 1) - ordinate segment) / (abscissa (segment + 1) - abscissa segment) *
      (x - abscissa segment)

/-- The point is on the curve of so many segments. -/
def OnCurve (abscissa ordinate : Nat → Number) (segments : Nat) (x y : Number) : Prop :=
  ∃ segment < segments, Covers abscissa segment x ∧ y = line abscissa ordinate segment x

omit [Field Number] in
theorem Covers.unique (monotone : Monotone abscissa) (covers : Covers abscissa segment x)
    (otherCovers : Covers abscissa other x) : segment = other := by
  by_contra apart
  exact Set.disjoint_left.mp (monotone.pairwise_disjoint_on_Ioc_succ apart) covers otherCovers

/-- An abscissa that is covered has one ordinate. -/
theorem onCurve_iff (monotone : Monotone abscissa) (within : segment < segments)
    (covers : Covers abscissa segment x) :
    OnCurve abscissa ordinate segments x y ↔ y = line abscissa ordinate segment x := by
  constructor
  · rintro ⟨other, -, otherCovers, onLine⟩
    rw [covers.unique monotone otherCovers]
    exact onLine
  · intro onLine
    exact ⟨segment, within, covers, onLine⟩

omit [Field Number] in
/-- From any vertex that is not past the abscissa the segment is ahead. -/
theorem exists_covers (monotone : Monotone abscissa) (behind : abscissa start < x)
    (inside : x ≤ abscissa segments) :
    ∃ segment, (start ≤ segment ∧ segment < segments) ∧ Covers abscissa segment x := by
  have ahead : x ∈ Set.Ioc (abscissa start) (abscissa segments) := ⟨behind, inside⟩
  rw [← monotone.biUnion_Ico_Ioc_map_succ start segments] at ahead
  obtain ⟨segment, range, covers⟩ := Set.mem_iUnion₂.mp ahead
  exact ⟨segment, range, covers⟩

end Polyline
