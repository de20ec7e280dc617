/-
This file says which point of a set is chosen for a limit.

`IsFirstMin` and `IsLastMin` are the lowest and the highest of the points a measure is
smallest at. `IsDown` is the highest point up to the limit, with the lowest one above
it where there is none, and `IsUp` is its dual. Where the measure grows on both sides
of the limit the highest point it is smallest at lies between the two, so the choices
are ordered as their limits are.
-/
import Mathlib.Order.Bounds.Basic
import Mathlib.Order.Filter.Extr
import Seeker.Library.Loops

namespace Nearest

/-! ### The smallest measure -/

section Measure

variable {Point Size : Type*} [LinearOrder Point] [LinearOrder Size] {measure : Point → Size}
  {points : Set Point} {choice other new : Point}

/-- The lowest of the points the measure is smallest at. -/
def IsFirstMin (measure : Point → Size) (points : Set Point) (choice : Point) : Prop :=
  IsLeast {point | point ∈ points ∧ IsMinOn measure points point} choice

/-- The highest of the points the measure is smallest at. -/
def IsLastMin (measure : Point → Size) (points : Set Point) (choice : Point) : Prop :=
  IsGreatest {point | point ∈ points ∧ IsMinOn measure points point} choice

theorem IsFirstMin.mem (first : IsFirstMin measure points choice) : choice ∈ points :=
  first.1.1

theorem IsFirstMin.le (first : IsFirstMin measure points choice) (member : other ∈ points) :
    measure choice ≤ measure other :=
  isMinOn_iff.mp first.1.2 other member

theorem IsLastMin.mem (last : IsLastMin measure points choice) : choice ∈ points :=
  last.1.1

theorem IsLastMin.le (last : IsLastMin measure points choice) (member : other ∈ points) :
    measure choice ≤ measure other :=
  isMinOn_iff.mp last.1.2 other member

/-- A point no other one beats, and that only lower ones equal, is the last one. -/
theorem isLastMin_of (member : choice ∈ points)
    (best : ∀ other ∈ points, measure choice ≤ measure other)
    (highest : ∀ other ∈ points, measure other = measure choice → other ≤ choice) :
    IsLastMin measure points choice := by
  refine ⟨⟨member, isMinOn_iff.mpr best⟩, ?_⟩
  rintro other ⟨otherMember, otherBest⟩
  refine highest other otherMember (le_antisymm ?_ (best other otherMember))
  exact isMinOn_iff.mp otherBest choice member

/-- A point no other one beats, and that only higher ones equal, is the first one. -/
theorem isFirstMin_of (member : choice ∈ points)
    (best : ∀ other ∈ points, measure choice ≤ measure other)
    (lowest : ∀ other ∈ points, measure other = measure choice → choice ≤ other) :
    IsFirstMin measure points choice := by
  refine ⟨⟨member, isMinOn_iff.mpr best⟩, ?_⟩
  rintro other ⟨otherMember, otherBest⟩
  refine lowest other otherMember (le_antisymm ?_ (best other otherMember))
  exact isMinOn_iff.mp otherBest choice member

theorem isFirstMin_singleton (point : Point) : IsFirstMin measure {point} point := by
  refine ⟨⟨Set.mem_singleton point, ?_⟩, ?_⟩
  · rw [isMinOn_iff]
    rintro _ rfl
    exact le_rfl
  · rintro _ ⟨rfl, _⟩
    exact le_rfl

/-- A new point above the others takes the place of the choice if it beats it. -/
theorem IsFirstMin.insert (first : IsFirstMin measure points choice)
    (above : ∀ other ∈ points, other < new) :
    IsFirstMin measure (insert new points)
      (if measure new < measure choice then new else choice) := by
  by_cases better : measure new < measure choice
  · rw [if_pos better]
    have smallest : ∀ other ∈ points, measure new < measure other := fun other member =>
      better.trans_le (first.le member)
    refine ⟨⟨Set.mem_insert new points, ?_⟩, ?_⟩
    · rw [isMinOn_iff]
      rintro other (rfl | member)
      · exact le_rfl
      · exact (smallest other member).le
    · rintro other ⟨rfl | member, best⟩
      · exact le_rfl
      · have beaten := isMinOn_iff.mp best new (Set.mem_insert new points)
        exact absurd (smallest other member) (not_lt.mpr beaten)
  · rw [if_neg better]
    refine ⟨⟨Set.mem_insert_of_mem new first.mem, ?_⟩, ?_⟩
    · rw [isMinOn_iff]
      rintro other (rfl | member)
      · exact not_lt.mp better
      · exact first.le member
    · rintro other ⟨rfl | member, best⟩
      · exact (above choice first.mem).le
      · refine first.2 ⟨member, isMinOn_iff.mpr fun point pointMember => ?_⟩
        exact isMinOn_iff.mp best point (Set.mem_insert_of_mem new pointMember)

/-- Only the measure at the points matters. -/
theorem IsFirstMin.congr {measure' : Point → Size} (same : Set.EqOn measure measure' points)
    (first : IsFirstMin measure points choice) : IsFirstMin measure' points choice := by
  have minimal : ∀ point ∈ points,
      IsMinOn measure points point ↔ IsMinOn measure' points point := by
    intro point member
    rw [isMinOn_iff, isMinOn_iff]
    refine forall₂_congr fun other otherMember => ?_
    rw [same member, same otherMember]
  refine ⟨⟨first.mem, (minimal choice first.mem).mp first.1.2⟩, ?_⟩
  rintro other ⟨member, best⟩
  exact first.2 ⟨member, (minimal other member).mpr best⟩

end Measure

/-! ### Up to a limit and from a limit on -/

section Sides

variable {Point : Type*} [LinearOrder Point] {points : Set Point}
  {limit low high down up point : Point}

/-- The highest point up to the limit or, if there is none, the lowest point above it. -/
def IsDown (points : Set Point) (limit choice : Point) : Prop :=
  IsGreatest (points ∩ Set.Iic limit) choice ∨
    (points ∩ Set.Iic limit = ∅ ∧ IsLeast (points ∩ Set.Ioi limit) choice)

/-- The lowest point from the limit on or, if there is none, the highest point below it. -/
def IsUp (points : Set Point) (limit choice : Point) : Prop :=
  IsLeast (points ∩ Set.Ici limit) choice ∨
    (points ∩ Set.Ici limit = ∅ ∧ IsGreatest (points ∩ Set.Iio limit) choice)

theorem IsDown.mem (chosen : IsDown points limit down) : down ∈ points := by
  rcases chosen with greatest | ⟨_, least⟩
  · exact greatest.1.1
  · exact least.1.1

theorem IsUp.mem (chosen : IsUp points limit up) : up ∈ points := by
  rcases chosen with least | ⟨_, greatest⟩
  · exact least.1.1
  · exact greatest.1.1

theorem IsDown.unique (chosen : IsDown points limit down) (other : IsDown points limit point) :
    down = point := by
  rcases chosen with greatest | ⟨none, least⟩
  · rcases other with greatest' | ⟨none, _⟩
    · exact greatest.unique greatest'
    · exact absurd greatest.1 (none ▸ Set.notMem_empty down)
  · rcases other with greatest | ⟨_, least'⟩
    · exact absurd greatest.1 (none ▸ Set.notMem_empty point)
    · exact least.unique least'

theorem IsUp.unique (chosen : IsUp points limit up) (other : IsUp points limit point) :
    up = point := by
  rcases chosen with least | ⟨none, greatest⟩
  · rcases other with least' | ⟨none, _⟩
    · exact least.unique least'
    · exact absurd least.1 (none ▸ Set.notMem_empty up)
  · rcases other with least | ⟨_, greatest'⟩
    · exact absurd least.1 (none ▸ Set.notMem_empty point)
    · exact greatest.unique greatest'

/-- A point up to the limit lies below the choice, and the choice up to the limit. -/
theorem IsDown.of_le (chosen : IsDown points limit down) (member : point ∈ points)
    (below : point ≤ limit) : point ≤ down ∧ down ≤ limit := by
  rcases chosen with greatest | ⟨none, _⟩
  · exact ⟨greatest.2 ⟨member, below⟩, greatest.1.2⟩
  · exact absurd (show point ∈ points ∩ Set.Iic limit from ⟨member, below⟩)
      (none ▸ Set.notMem_empty point)

/-- A point above the limit lies above the choice. -/
theorem IsDown.le_of_lt (chosen : IsDown points limit down) (member : point ∈ points)
    (above : limit < point) : down ≤ point := by
  rcases chosen with greatest | ⟨_, least⟩
  · exact (Set.mem_Iic.mp greatest.1.2).trans above.le
  · exact least.2 ⟨member, above⟩

/-- A point from the limit on lies above the choice, and the choice from the limit on. -/
theorem IsUp.of_le (chosen : IsUp points limit up) (member : point ∈ points)
    (above : limit ≤ point) : up ≤ point ∧ limit ≤ up := by
  rcases chosen with least | ⟨none, _⟩
  · exact ⟨least.2 ⟨member, above⟩, least.1.2⟩
  · exact absurd (show point ∈ points ∩ Set.Ici limit from ⟨member, above⟩)
      (none ▸ Set.notMem_empty point)

/-- A point below the limit lies below the choice. -/
theorem IsUp.le_of_lt (chosen : IsUp points limit up) (member : point ∈ points)
    (below : point < limit) : point ≤ up := by
  rcases chosen with least | ⟨_, greatest⟩
  · exact below.le.trans least.1.2
  · exact greatest.2 ⟨member, below⟩

/-- The choice downwards from a limit is no higher than the choice upwards from a higher one. -/
theorem IsDown.le_isUp (lower : IsDown points low down) (upper : IsUp points high up)
    (ordered : low ≤ high) : down ≤ up := by
  rcases le_or_gt up low with below | above
  · have downLow : down ≤ low := (lower.of_le upper.mem below).2
    rcases lt_or_ge down high with less | more
    · exact upper.le_of_lt lower.mem less
    · exact (downLow.trans ordered).trans (upper.of_le lower.mem more).2
  · exact lower.le_of_lt upper.mem above

end Sides

/-! ### Near a limit -/

section Distance

variable {Point Distance : Type*} [LinearOrder Point] [LinearOrder Distance]
  {points : Set Point} {distance : Point → Distance} {limit low high near down up point : Point}

/-- The distance from a limit: it grows on both sides. -/
structure IsGauge (limit : Point) (distance : Point → Distance) : Prop where
  below : StrictAntiOn distance (Set.Iic limit)
  above : StrictMonoOn distance (Set.Ici limit)

/-- The limit itself is nearer than every other point. -/
theorem IsGauge.pos (gauge : IsGauge limit distance) {point : Point} (other : point ≠ limit) :
    distance limit < distance point := by
  rcases lt_or_gt_of_ne other with below | above
  · exact gauge.below (Set.mem_Iic.mpr below.le) (Set.mem_Iic.mpr le_rfl) below
  · exact gauge.above (Set.mem_Ici.mpr le_rfl) (Set.mem_Ici.mpr above.le) above

/-- A limit that is a point is the nearest one. -/
theorem IsGauge.isLastMin_self (gauge : IsGauge limit distance) (member : limit ∈ points) :
    IsLastMin distance points limit := by
  refine isLastMin_of member ?_ ?_
  · intro other _
    rcases eq_or_ne other limit with rfl | apart
    · exact le_rfl
    · exact (gauge.pos apart).le
  · intro other _ same
    by_contra higher
    exact (gauge.pos (not_le.mp higher).ne').ne' same

/-- A point up to the limit is no nearer than the choice downwards. -/
theorem IsGauge.down_le (gauge : IsGauge limit distance) (lower : IsDown points limit down)
    (member : point ∈ points) (below : point ≤ limit) : distance down ≤ distance point := by
  obtain ⟨toDown, downLimit⟩ := lower.of_le member below
  exact gauge.below.antitoneOn below downLimit toDown

/-- A point from the limit on is no nearer than the choice upwards. -/
theorem IsGauge.up_le (gauge : IsGauge limit distance) (upper : IsUp points limit up)
    (member : point ∈ points) (above : limit ≤ point) : distance up ≤ distance point := by
  obtain ⟨toUp, upLimit⟩ := upper.of_le member above
  exact gauge.above.monotoneOn upLimit above toUp

/-- The highest of the nearest points is the nearer of the choices downwards and upwards. -/
theorem IsGauge.isLastMin_nearer (gauge : IsGauge limit distance)
    (lower : IsDown points limit down) (upper : IsUp points limit up) :
    IsLastMin distance points (if distance down < distance up then down else up) := by
  by_cases nearer : distance down < distance up
  · rw [if_pos nearer]
    refine isLastMin_of lower.mem ?_ ?_
    · intro other member
      rcases le_total other limit with below | above
      · exact gauge.down_le lower member below
      · exact nearer.le.trans (gauge.up_le upper member above)
    · intro other member same
      rcases le_total other limit with below | above
      · exact (lower.of_le member below).1
      · exact absurd (same ▸ gauge.up_le upper member above) (not_le.mpr nearer)
  · rw [if_neg nearer]
    refine isLastMin_of upper.mem ?_ ?_
    · intro other member
      rcases le_total other limit with below | above
      · exact (not_lt.mp nearer).trans (gauge.down_le lower member below)
      · exact gauge.up_le upper member above
    · intro other member same
      rcases lt_or_ge other limit with below | above
      · exact upper.le_of_lt member below
      · obtain ⟨toUp, upLimit⟩ := upper.of_le member above
        exact (gauge.above.injOn above upLimit same).le

/-- The lowest of the nearest points is the nearer of the choices downwards and upwards. -/
theorem IsGauge.isFirstMin_nearer (gauge : IsGauge limit distance)
    (lower : IsDown points limit down) (upper : IsUp points limit up) :
    IsFirstMin distance points (if distance up < distance down then up else down) := by
  by_cases nearer : distance up < distance down
  · rw [if_pos nearer]
    refine isFirstMin_of upper.mem ?_ ?_
    · intro other member
      rcases le_total other limit with below | above
      · exact nearer.le.trans (gauge.down_le lower member below)
      · exact gauge.up_le upper member above
    · intro other member same
      rcases le_total other limit with below | above
      · exact absurd (same ▸ gauge.down_le lower member below) (not_le.mpr nearer)
      · exact (upper.of_le member above).1
  · rw [if_neg nearer]
    refine isFirstMin_of lower.mem ?_ ?_
    · intro other member
      rcases le_total other limit with below | above
      · exact gauge.down_le lower member below
      · exact (not_lt.mp nearer).trans (gauge.up_le upper member above)
    · intro other member same
      rcases le_or_gt other limit with below | above
      · obtain ⟨toDown, downLimit⟩ := lower.of_le member below
        exact (gauge.below.injOn downLimit below same.symm).le
      · exact lower.le_of_lt member above

/-- The choice downwards from a limit is no higher than the nearest point to a higher one. -/
theorem IsDown.le_isLastMin (lower : IsDown points low down) (gauge : IsGauge limit distance)
    (nearest : IsLastMin distance points near) (ordered : low ≤ limit) : down ≤ near := by
  rcases le_or_gt near low with below | above
  · obtain ⟨nearDown, downLow⟩ := lower.of_le nearest.mem below
    by_contra higher
    exact absurd (nearest.le lower.mem) (not_le.mpr
      (gauge.below (below.trans ordered) (downLow.trans ordered) (not_le.mp higher)))
  · exact lower.le_of_lt nearest.mem above

/-- The choice upwards from a limit is no lower than the nearest point to a lower one. -/
theorem IsUp.isLastMin_le (upper : IsUp points high up) (gauge : IsGauge limit distance)
    (nearest : IsLastMin distance points near) (ordered : limit ≤ high) : near ≤ up := by
  rcases le_or_gt high near with above | below
  · obtain ⟨upNear, highUp⟩ := upper.of_le nearest.mem above
    by_contra lower
    exact absurd (nearest.le upper.mem) (not_le.mpr
      (gauge.above (ordered.trans highUp) (ordered.trans above) (not_le.mp lower)))
  · exact upper.le_of_lt nearest.mem below

end Distance

/-- The number of points in between grows on both sides of a natural number. -/
theorem isGauge_between (limit : Nat) :
    IsGauge limit fun point : Nat => ((limit : Int) - point).natAbs where
  below := by
    intro first firstBelow second secondBelow less
    simp only [Set.mem_Iic] at *
    omega
  above := by
    intro first firstAbove second secondAbove less
    simp only [Set.mem_Ici] at *
    omega

/-! ### What the two searches for an index find -/

section Search

variable {found : Nat → Bool} {start stop limit index : Nat}

/-- The indices below `stop` that are looked for. -/
def indices (found : Nat → Bool) (stop : Nat) : Set Nat :=
  {index | index < stop ∧ found index = true}

/-- The search downwards finds the highest index below its start. -/
theorem isGreatest_of_lastBelow (returned : Loops.lastBelow found start = some index)
    (small : start ≤ stop) : IsGreatest (indices found stop ∩ Set.Iio start) index := by
  obtain ⟨below, here⟩ := Loops.lastBelow_eq_some returned
  refine ⟨⟨⟨below.trans_le small, here⟩, below⟩, ?_⟩
  rintro other ⟨⟨_, there⟩, otherBelow⟩
  by_contra higher
  have missed := Loops.lastBelow_greatest returned (not_le.mp higher) otherBelow
  exact absurd there (Bool.eq_false_iff.mp missed)

theorem inter_Iio_eq_empty (missed : Loops.lastBelow found start = none) :
    indices found stop ∩ Set.Iio start = ∅ := by
  refine Set.eq_empty_of_forall_notMem ?_
  rintro other ⟨⟨_, there⟩, below⟩
  exact absurd there (Bool.eq_false_iff.mp (Loops.lastBelow_eq_none missed below))

/-- The search upwards finds the lowest index from its start on. -/
theorem isLeast_of_firstFrom (returned : Loops.firstFrom found start stop = some index) :
    IsLeast (indices found stop ∩ Set.Ici start) index := by
  obtain ⟨⟨above, small⟩, here⟩ := Loops.firstFrom_eq_some returned
  refine ⟨⟨⟨small, here⟩, above⟩, ?_⟩
  rintro other ⟨⟨_, there⟩, otherAbove⟩
  by_contra lower
  have missed := Loops.firstFrom_least returned otherAbove (not_le.mp lower)
  exact absurd there (Bool.eq_false_iff.mp missed)

theorem inter_Ici_eq_empty (missed : Loops.firstFrom found start stop = none) :
    indices found stop ∩ Set.Ici start = ∅ := by
  refine Set.eq_empty_of_forall_notMem ?_
  rintro other ⟨⟨small, there⟩, above⟩
  exact absurd there (Bool.eq_false_iff.mp (Loops.firstFrom_eq_none missed above small))

/-- The search downwards and then upwards. -/
theorem isDown_of_searches (small : limit < stop)
    (returned : (Loops.lastBelow found (limit + 1)).or
      (Loops.firstFrom found (limit + 1) stop) = some index) :
    IsDown (indices found stop) limit index := by
  have upTo : Set.Iic limit = Set.Iio (limit + 1) := Set.ext fun _ => Nat.lt_succ_iff.symm
  have past : Set.Ioi limit = Set.Ici (limit + 1) := Set.ext fun _ => Nat.lt_iff_add_one_le
  unfold IsDown
  rw [upTo, past]
  rcases Option.or_eq_some_iff.mp returned with down | ⟨missed, up⟩
  · exact Or.inl (isGreatest_of_lastBelow down small)
  · exact Or.inr ⟨inter_Iio_eq_empty missed, isLeast_of_firstFrom up⟩

/-- The search upwards and then downwards. -/
theorem isUp_of_searches (small : limit < stop)
    (returned : (Loops.firstFrom found limit stop).or (Loops.lastBelow found limit) =
      some index) :
    IsUp (indices found stop) limit index := by
  rcases Option.or_eq_some_iff.mp returned with up | ⟨missed, down⟩
  · exact Or.inl (isLeast_of_firstFrom up)
  · exact Or.inr ⟨inter_Ici_eq_empty missed, isGreatest_of_lastBelow down small.le⟩

/-- Two searches that leave out no index find one if there is one. -/
theorem searches_eq_none (covered : start ≤ limit)
    (missed : (Loops.lastBelow found limit).or (Loops.firstFrom found start stop) = none) :
    indices found stop = ∅ := by
  obtain ⟨below, above⟩ := Option.or_eq_none_iff.mp missed
  refine Set.eq_empty_of_forall_notMem ?_
  intro index member
  rcases lt_or_ge index limit with small | large
  · exact (inter_Iio_eq_empty below ▸ Set.notMem_empty index) ⟨member, small⟩
  · exact (inter_Ici_eq_empty above ▸ Set.notMem_empty index) ⟨member, covered.trans large⟩

end Search

end Nearest
