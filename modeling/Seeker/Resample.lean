/-
This file proves that `interp` writes, at each multiple of the interval below the last
sample, the value of the piecewise linear curve through the origin and the samples.

The search for the spline only goes forward. The invariant is that the position is past
the lower end of the spline at hand: the spline that covers the position is then not
behind, and as the position is not past the last sample there is one.
-/
import Mathlib.Algebra.Order.Archimedean.Basic
import Mathlib.Algebra.Order.BigOperators.Group.List
import Mathlib.Tactic.Linarith
import Mathlib.Tactic.Ring
import Seeker.Interp
import Seeker.Library.Polyline

namespace Seeker

open Polyline

/-! ### Rows of numbers -/

/-- The array has these cells and no others. -/
structure IsRow (columns : Nat) (cell : Nat → ℚ) (a : ScriptArray ℚ) : Prop where
  n : a.n = columns
  cells : ∀ c, c < columns → a.Data c = cell c

section Rows

variable {columns : Nat} {cell other : Nat → ℚ} {a b : ScriptArray ℚ}

theorem IsRow.congr (isRow : IsRow columns cell a) (same : ∀ c, c < columns → cell c = other c) :
    IsRow columns other a where
  n := isRow.n
  cells c within := by rw [isRow.cells c within, same c within]

theorem IsRow.of_toList (isRow : IsRow columns cell a) (same : b.toList = a.toList) :
    IsRow columns cell b := by
  obtain ⟨lengths, cells⟩ := ScriptArray.toList_eq_iff.mp same
  refine ⟨by rw [lengths, isRow.n], fun c within => ?_⟩
  have inB : c < b.n := by
    rw [lengths, isRow.n]
    exact within
  rw [cells c inB, isRow.cells c within]

theorem IsRow.toList (isRow : IsRow columns cell a) :
    a.toList = (List.range columns).map cell := by
  rw [ScriptArray.toList, isRow.n]
  exact List.map_congr_left fun c member => isRow.cells c (List.mem_range.mp member)

theorem IsRow.scalar (isRow : IsRow columns cell a) (f : ℚ → ℚ) :
    IsRow columns (fun c => f (cell c)) (ScriptArray.scalar f a) where
  n := isRow.n
  cells c within := by
    rw [ScriptArray.scalar_Data f (by rw [isRow.n]; exact within), isRow.cells c within]

theorem IsRow.subScalar (isRow : IsRow columns cell a) (B : ℚ) :
    IsRow columns (fun c => cell c - B) (a.subScalar B) :=
  isRow.scalar fun y => y - B

theorem IsRow.mulScalar (isRow : IsRow columns cell a) (B : ℚ) :
    IsRow columns (fun c => cell c * B) (a.mulScalar B) :=
  isRow.scalar fun y => y * B

/-- Division by zero gives zero, in the array as in the field. -/
theorem IsRow.divScalar (isRow : IsRow columns cell a) (B : ℚ) :
    IsRow columns (fun c => cell c / B) (a.divScalar B) := by
  refine (isRow.scalar fun y => if B ≠ 0 then y / B else 0).congr fun c _ => ?_
  split
  · rfl
  · rename_i zero
    rw [not_not.mp zero, div_zero]

theorem IsRow.binary (both : ℚ → ℚ → ℚ) (longer shorter : ℚ → ℚ) (isRow : IsRow columns cell a)
    (isOther : IsRow columns other b) :
    IsRow columns (fun c => both (cell c) (other c))
      (ScriptArray.binary both longer shorter a b) where
  n := by
    rw [ScriptArray.binary_n, isRow.n, isOther.n, max_self]
  cells c within := by
    rw [ScriptArray.binary_Data, if_pos (by rw [isRow.n]; exact within),
      if_pos (by rw [isOther.n]; exact within), isRow.cells c within, isOther.cells c within]

theorem IsRow.add (isRow : IsRow columns cell a) (isOther : IsRow columns other b) :
    IsRow columns (fun c => cell c + other c) (a.add b) :=
  isRow.binary (fun x y => x + y) (fun x => x) (fun y => y) isOther

theorem IsRow.sub (isRow : IsRow columns cell a) (isOther : IsRow columns other b) :
    IsRow columns (fun c => cell c - other c) (a.sub b) :=
  isRow.binary (fun x y => x - y) (fun x => x) (fun y => 0 - y) isOther

/-- A row that is assigned to an empty array. -/
theorem IsRow.assign_empty (isRow : IsRow columns cell a) :
    IsRow columns cell (ScriptArray.empty.assign a) :=
  isRow.of_toList ((ScriptArray.assign_toList_iff _ _).mpr (Nat.zero_le _))

end Rows

/-! ### Splines -/

section Splines

variable {columns : Nat} {fromX toX : ℚ} {fromCell toCell : Nat → ℚ} {fromY toY : ScriptArray ℚ}

/-- The number that a spline predicts in a column. -/
def predicted (fromX toX : ℚ) (fromCell toCell : Nat → ℚ) (x : ℚ) (c : Nat) : ℚ :=
  fromCell c + (toCell c - fromCell c) / (toX - fromX) * (x - fromX)

theorem construct_predict (isFrom : IsRow columns fromCell fromY) (isTo : IsRow columns toCell toY)
    (x : ℚ) :
    IsRow columns (predicted fromX toX fromCell toCell x)
      ((Spline.new.construct fromX toX fromY toY).predict x) := by
  have slope := ((isTo.sub isFrom).divScalar (toX - fromX)).assign_empty
  have Yint := (isFrom.sub (slope.mulScalar fromX)).assign_empty
  refine (Yint.add (slope.mulScalar x)).congr fun c _ => ?_
  unfold predicted
  ring

theorem constructFrom_predict (isTo : IsRow columns toCell toY) (x : ℚ) :
    IsRow columns (predicted 0 toX (fun _ => 0) toCell x)
      ((Spline.new.constructFrom 0 toX 0 toY).predict x) := by
  have slope := ((isTo.subScalar 0).divScalar (toX - 0)).assign_empty
  have Yint := (((slope.mulScalar 0).subScalar 0).mulScalar (-1)).assign_empty
  refine (Yint.add (slope.mulScalar x)).congr fun c _ => ?_
  unfold predicted
  ring

theorem within_iff (spline : Spline) (x : ℚ) :
    spline.within x = true ↔ spline.low < x ∧ x ≤ spline.high := by
  rw [Spline.within, Bool.and_eq_true, decide_eq_true_iff, decide_eq_true_iff]

end Splines

/-! ### The curve -/

section Curve

variable (PRIMARY : Nat) (oper : Nat → ScriptArray ℚ → ℚ) (samples : List (ScriptArray ℚ))

/-- The abscissas of the vertices: zero, and the sums of the primary column. -/
def abscissa (j : Nat) : ℚ := ((samples.take j).map fun Sample => Sample.data PRIMARY).sum

/-- The ordinates of the vertices in a column: zero, and what the operation gives. -/
def ordinate (c : Nat) : Nat → ℚ
  | 0 => 0
  | j + 1 => (samples[j]?.map (oper c)).getD 0

variable {PRIMARY oper samples}

@[simp]
theorem abscissa_zero : abscissa PRIMARY samples 0 = 0 := rfl

/-- More samples do not change the vertices before them. -/
theorem abscissa_append (others : List (ScriptArray ℚ)) {j : Nat} (within : j ≤ samples.length) :
    abscissa PRIMARY (samples ++ others) j = abscissa PRIMARY samples j := by
  rw [abscissa, List.take_append_of_le_length within, abscissa]

theorem abscissa_concat (Sample : ScriptArray ℚ) :
    abscissa PRIMARY (samples ++ [Sample]) (samples.length + 1) =
      abscissa PRIMARY samples samples.length + Sample.data PRIMARY := by
  have whole : (samples ++ [Sample]).length = samples.length + 1 := by
    rw [List.length_append, List.length_singleton]
  rw [abscissa, abscissa, ← whole, List.take_length, List.take_length, List.map_append,
    List.sum_append, List.map_singleton, List.sum_singleton]

theorem abscissa_succ {j : Nat} {Sample : ScriptArray ℚ} (entry : samples[j]? = some Sample) :
    abscissa PRIMARY samples (j + 1) = abscissa PRIMARY samples j + Sample.data PRIMARY := by
  rw [abscissa, abscissa, List.take_add_one, entry, Option.toList_some, List.map_append,
    List.sum_append, List.map_singleton, List.sum_singleton]

/-- The abscissas do not decrease when no increment is negative. -/
theorem abscissa_monotone (nonneg : ∀ Sample ∈ samples, 0 ≤ Sample.data PRIMARY) :
    Monotone (abscissa PRIMARY samples) := by
  refine monotone_nat_of_le_succ fun j => ?_
  cases entry : samples[j]? with
  | none =>
    have past := List.getElem?_eq_none_iff.mp entry
    rw [abscissa, abscissa, List.take_of_length_le past,
      List.take_of_length_le (Nat.le_succ_of_le past)]
  | some Sample =>
    rw [abscissa_succ entry]
    exact le_add_of_nonneg_right (nonneg Sample (List.mem_of_getElem? entry))

theorem ordinate_succ {c j : Nat} {Sample : ScriptArray ℚ} (entry : samples[j]? = some Sample) :
    ordinate oper samples c (j + 1) = oper c Sample := by
  rw [ordinate, entry]
  rfl

end Curve

/-! ### The data set -/

section Build

variable {PRIMARY TOTAL_COLUMNS : Nat} {oper : Nat → ScriptArray ℚ → ℚ}
  {done samples : List (ScriptArray ℚ)} {d : DataSet}

theorem doOper_isRow (Sample : ScriptArray ℚ) :
    IsRow TOTAL_COLUMNS (fun c => oper c Sample) (doOper TOTAL_COLUMNS oper Sample) where
  n := rfl
  cells c within := by
    rw [doOper, ScriptArray.fillRange_Data, if_pos ⟨Nat.zero_le c, within⟩]

/-- The first cells of `X` and `Y` are the vertices of the samples. -/
structure Vertices (PRIMARY TOTAL_COLUMNS : Nat) (oper : Nat → ScriptArray ℚ → ℚ)
    (samples : List (ScriptArray ℚ)) (X : ScriptArray ℚ) (Y : ScriptArray (ScriptArray ℚ)) :
    Prop where
  x : ∀ j, j < samples.length → X.Data j = abscissa PRIMARY samples (j + 1)
  y : ∀ j, j < samples.length →
    IsRow TOTAL_COLUMNS (fun c => ordinate oper samples c (j + 1)) (Y.Data j)

/-- The invariant of the first stage. -/
structure Built (PRIMARY TOTAL_COLUMNS : Nat) (oper : Nat → ScriptArray ℚ → ℚ)
    (done : List (ScriptArray ℚ)) (d : DataSet) : Prop where
  first : d.first = true ↔ done = []
  k : d.k = done.length
  room : done.length < d.X.n
  same : d.Y.n = d.X.n
  vertices : Vertices PRIMARY TOTAL_COLUMNS oper done d.X d.Y

theorem Vertices.resize {X : ScriptArray ℚ} {Y : ScriptArray (ScriptArray ℚ)}
    (vertices : Vertices PRIMARY TOTAL_COLUMNS oper samples X Y) {nsize : Nat}
    (inX : samples.length ≤ X.n) (same : Y.n = X.n) (kept : samples.length ≤ nsize) :
    Vertices PRIMARY TOTAL_COLUMNS oper samples (X.resize nsize) (Y.resize nsize) where
  x j within := by
    rw [ScriptArray.resize_Data _ (within.trans_le kept), if_pos (within.trans_le inX)]
    exact vertices.x j within
  y j within := by
    rw [ScriptArray.resize_Data _ (within.trans_le kept), same, if_pos (within.trans_le inX)]
    exact vertices.y j within

theorem Built.start : Built PRIMARY TOTAL_COLUMNS oper [] DataSet.start where
  first := ⟨fun _ => rfl, fun _ => rfl⟩
  k := rfl
  room := by
    show 0 < 100000
    decide
  same := rfl
  vertices := ⟨fun j within => absurd within (Nat.not_lt_zero j),
    fun j within => absurd within (Nat.not_lt_zero j)⟩

/-- The number that is stored in `X`. -/
theorem Built.nextX (built : Built PRIMARY TOTAL_COLUMNS oper done d) (Sample : ScriptArray ℚ) :
    (if d.first then d.X.fill 0 (Sample.data PRIMARY)
      else d.X.fill d.k (d.X.data (d.k - 1) + Sample.data PRIMARY)) =
      d.X.fill done.length (abscissa PRIMARY (done ++ [Sample]) (done.length + 1)) := by
  rw [abscissa_concat, built.k]
  by_cases isFirst : d.first = true
  · rw [if_pos isFirst, built.first.mp isFirst, List.length_nil, abscissa_zero, zero_add]
    rfl
  · have some : done ≠ [] := fun none => isFirst (built.first.mpr none)
    obtain ⟨before, length⟩ :=
      Nat.exists_eq_add_one_of_ne_zero (List.length_pos_iff.mpr some).ne'
    have index : ((done.length : Nat) : Int) - 1 = (before : Nat) := by omega
    have inDone : before < done.length := by omega
    rw [if_neg isFirst, index, ScriptArray.data_of_lt (inDone.trans built.room),
      built.vertices.x before inDone, length]

/-- The row that is stored in `Y`. -/
theorem Built.nextY (built : Built PRIMARY TOTAL_COLUMNS oper done d) (Sample : ScriptArray ℚ) :
    ∃ row, IsRow TOTAL_COLUMNS (fun c => oper c Sample) row ∧
      (d.Y.fill d.k ((d.Y.data d.k).resize TOTAL_COLUMNS)).fill d.k
        (((d.Y.fill d.k ((d.Y.data d.k).resize TOTAL_COLUMNS)).data d.k).assign
          (doOper TOTAL_COLUMNS oper Sample)) = d.Y.fill done.length row := by
  have inY : done.length < d.Y.n := by
    rw [built.same]
    exact built.room
  have isRow : IsRow TOTAL_COLUMNS (fun c => oper c Sample) (doOper TOTAL_COLUMNS oper Sample) :=
    doOper_isRow Sample
  refine ⟨((d.Y.data d.k).resize TOTAL_COLUMNS).assign (doOper TOTAL_COLUMNS oper Sample),
    isRow.of_toList ((ScriptArray.assign_toList_iff _ _).mpr ?_), ?_⟩
  · rw [ScriptArray.resize_n, isRow.n]
  · rw [built.k]
    have written : (d.Y.fill done.length ((d.Y.data done.length).resize TOTAL_COLUMNS)).data
        done.length = (d.Y.data done.length).resize TOTAL_COLUMNS := by
      rw [ScriptArray.data_of_lt (by rw [ScriptArray.fill_n]; exact inY),
        ScriptArray.fill_of_lt inY]
      exact Function.update_self ..
    rw [written, ScriptArray.fill_of_lt inY, ScriptArray.fill_of_lt (by exact inY),
      ScriptArray.fill_of_lt inY]
    dsimp only
    rw [Function.update_idem]

theorem Vertices.concat {X : ScriptArray ℚ} {Y : ScriptArray (ScriptArray ℚ)}
    (vertices : Vertices PRIMARY TOTAL_COLUMNS oper done X Y) (inX : done.length < X.n)
    (inY : done.length < Y.n) {Sample row : ScriptArray ℚ}
    (isRow : IsRow TOTAL_COLUMNS (fun c => oper c Sample) row) :
    Vertices PRIMARY TOTAL_COLUMNS oper (done ++ [Sample])
      (X.fill done.length (abscissa PRIMARY (done ++ [Sample]) (done.length + 1)))
      (Y.fill done.length row) where
  x j within := by
    rw [List.length_append, List.length_singleton] at within
    rw [ScriptArray.fill_of_lt inX]
    dsimp only
    by_cases here : j = done.length
    · rw [here, Function.update_self]
    · have before : j < done.length := by omega
      rw [Function.update_of_ne here, vertices.x j before, abscissa_append _ before]
  y j within := by
    rw [List.length_append, List.length_singleton] at within
    rw [ScriptArray.fill_of_lt inY]
    dsimp only
    by_cases here : j = done.length
    · rw [here, Function.update_self]
      refine isRow.congr fun c _ => (ordinate_succ ?_).symm
      rw [List.getElem?_append_right le_rfl, Nat.sub_self]
      rfl
    · have before : j < done.length := by omega
      rw [Function.update_of_ne here]
      refine (vertices.y j before).congr fun c _ => ?_
      rw [ordinate, ordinate, List.getElem?_append_left before]

theorem Built.readSample (built : Built PRIMARY TOTAL_COLUMNS oper done d)
    (Sample : ScriptArray ℚ) :
    Built PRIMARY TOTAL_COLUMNS oper (done ++ [Sample])
      (readSample PRIMARY TOTAL_COLUMNS oper d Sample) := by
  obtain ⟨row, isRow, storedY⟩ := built.nextY Sample
  have inY : done.length < d.Y.n := by
    rw [built.same]
    exact built.room
  have vertices := built.vertices.concat built.room inY isRow
  have lengths : (done ++ [Sample]).length = done.length + 1 := by
    rw [List.length_append, List.length_singleton]
  have notNil : done ++ [Sample] ≠ [] := List.append_ne_nil_of_right_ne_nil _ (List.cons_ne_nil _ _)
  unfold Seeker.readSample
  dsimp only
  rw [built.nextX, storedY, built.k, ScriptArray.fill_n]
  split
  · rename_i full
    exact
      { first := ⟨fun first => absurd first Bool.false_ne_true, fun none => absurd none notNil⟩
        k := lengths.symm
        room := by
          rw [lengths, ScriptArray.resize_n]
          omega
        same := by
          rw [ScriptArray.resize_n, ScriptArray.resize_n, ScriptArray.fill_n, built.same]
        vertices := by
          rw [ScriptArray.fill_n, built.same]
          refine vertices.resize ?_ built.same ?_
          · rw [lengths, ScriptArray.fill_n]
            exact built.room
          · rw [lengths]
            omega }
  · rename_i notFull
    exact
      { first := ⟨fun first => absurd first Bool.false_ne_true, fun none => absurd none notNil⟩
        k := lengths.symm
        room := by
          have room := built.room
          rw [lengths, ScriptArray.fill_n]
          omega
        same := built.same
        vertices := vertices }

theorem Built.foldl (built : Built PRIMARY TOTAL_COLUMNS oper done d)
    (rest : List (ScriptArray ℚ)) :
    Built PRIMARY TOTAL_COLUMNS oper (done ++ rest)
      (rest.foldl (Seeker.readSample PRIMARY TOTAL_COLUMNS oper) d) := by
  induction rest generalizing done d with
  | nil =>
    rw [List.append_nil]
    exact built
  | cons Sample rest inductionHypothesis =>
    rw [List.append_cons, List.foldl_cons]
    exact inductionHypothesis (built.readSample Sample)

/-- The first stage leaves the vertices of the curve. -/
theorem buildDataSet_vertices (samples : List (ScriptArray ℚ)) :
    (buildDataSet PRIMARY TOTAL_COLUMNS oper samples).1.n = samples.length ∧
      (buildDataSet PRIMARY TOTAL_COLUMNS oper samples).2.n = samples.length ∧
      Vertices PRIMARY TOTAL_COLUMNS oper samples
        (buildDataSet PRIMARY TOTAL_COLUMNS oper samples).1
        (buildDataSet PRIMARY TOTAL_COLUMNS oper samples).2 := by
  have start : Built PRIMARY TOTAL_COLUMNS oper [] DataSet.start := Built.start
  have built := start.foldl samples
  rw [List.nil_append] at built
  unfold buildDataSet
  dsimp only
  rw [built.k, ScriptArray.resize_n, ScriptArray.resize_n]
  exact ⟨rfl, rfl, built.vertices.resize built.room.le built.same le_rfl⟩

end Build

/-! ### The splines -/

section Search

variable {PRIMARY TOTAL_COLUMNS : Nat} {oper : Nat → ScriptArray ℚ → ℚ}
  {samples : List (ScriptArray ℚ)} {X : ScriptArray ℚ} {Y : ScriptArray (ScriptArray ℚ)}

/-- The spline lies over a segment of the curve and predicts its line. -/
structure IsSegment (PRIMARY TOTAL_COLUMNS : Nat) (oper : Nat → ScriptArray ℚ → ℚ)
    (samples : List (ScriptArray ℚ)) (segment : Nat) (spline : Spline) : Prop where
  covers : ∀ x, spline.within x = true ↔ Covers (abscissa PRIMARY samples) segment x
  predict : ∀ x, IsRow TOTAL_COLUMNS
    (fun c => line (abscissa PRIMARY samples) (ordinate oper samples c) segment x)
    (spline.predict x)

/-- Each spline is a segment of the curve, the first built by its own formula. -/
theorem constructSplines_isSegment (lengthX : X.n = samples.length) (lengthY : Y.n = samples.length)
    (vertices : Vertices PRIMARY TOTAL_COLUMNS oper samples X Y) {segment : Nat}
    (within : segment < samples.length) :
    IsSegment PRIMARY TOTAL_COLUMNS oper samples segment (constructSplines X Y segment) := by
  have inX (j : Nat) (small : j < samples.length) : X.data j = abscissa PRIMARY samples (j + 1) := by
    rw [ScriptArray.data_of_lt (by rw [lengthX]; exact small), vertices.x j small]
  have inY (j : Nat) (small : j < samples.length) : Y.data j = Y.Data j :=
    ScriptArray.data_of_lt (by rw [lengthY]; exact small)
  unfold constructSplines
  rw [Loops.fill_apply, lengthX]
  cases segment with
  | zero =>
    have first := vertices.y 0 within
    rw [if_neg (by omega), Function.update_self]
    have atX := inX 0 within
    have atY := inY 0 within
    rw [Nat.cast_zero] at atX atY
    rw [atX, atY]
    exact ⟨fun x => within_iff _ x, fun x => constructFrom_predict first x⟩
  | succ before =>
    have earlier : before < samples.length := Nat.lt_of_succ_lt within
    have index : ((before + 1 : Nat) : Int) - 1 = (before : Nat) := by omega
    rw [if_pos (by omega), index, inX before earlier, inX _ within, inY before earlier,
      inY _ within]
    exact ⟨fun x => within_iff _ x,
      fun x => construct_predict (vertices.y before earlier) (vertices.y _ within) x⟩

/-- The search from a spline that is not past the position ends at the segment over it. -/
theorem findSpline_covers {splines : Nat → Spline} {count lastIndex : Nat} {x : ℚ}
    (segments : ∀ segment, segment < count →
      IsSegment PRIMARY TOTAL_COLUMNS oper samples segment (splines segment))
    (monotone : Monotone (abscissa PRIMARY samples))
    (behind : abscissa PRIMARY samples lastIndex < x)
    (inside : x ≤ abscissa PRIMARY samples count) :
    ∃ segment, findSpline splines count lastIndex x = some segment ∧ segment < count ∧
      Covers (abscissa PRIMARY samples) segment x := by
  obtain ⟨segment, ⟨ahead, within⟩, covers⟩ := exists_covers monotone behind inside
  cases found : findSpline splines count lastIndex x with
  | none =>
    have missed := Loops.firstFrom_eq_none found ahead within
    rw [((segments segment within).covers x).mpr covers] at missed
    cases missed
  | some index =>
    obtain ⟨⟨-, inCount⟩, isWithin⟩ := Loops.firstFrom_eq_some found
    exact ⟨index, rfl, inCount, ((segments index inCount).covers x).mp isWithin⟩

/-- The row of a position: the position in millions, and in each column the value of the curve
there. -/
structure IsSample (PRIMARY TOTAL_COLUMNS : Nat) (oper : Nat → ScriptArray ℚ → ℚ)
    (samples : List (ScriptArray ℚ)) (x : ℚ) (row : List ℚ) : Prop where
  length : row.length = TOTAL_COLUMNS + 1
  position : row[0]? = some (x / 1000000)
  value : ∀ c, c < TOTAL_COLUMNS → ∀ y, row[c + 1]? = some y ↔
    OnCurve (abscissa PRIMARY samples) (ordinate oper samples c) samples.length x y

/-- What is written of the segment over a position. -/
theorem IsSegment.isSample {segment : Nat} {spline : Spline} {x : ℚ}
    (isSegment : IsSegment PRIMARY TOTAL_COLUMNS oper samples segment spline)
    (monotone : Monotone (abscissa PRIMARY samples)) (within : segment < samples.length)
    (covers : Covers (abscissa PRIMARY samples) segment x) :
    IsSample PRIMARY TOTAL_COLUMNS oper samples x
      ((ScriptArray.empty.append (x / 1000000)).appendArray (spline.predict x)).toList := by
  have row : ((ScriptArray.empty.append (x / 1000000)).appendArray (spline.predict x)).toList =
      x / 1000000 :: (List.range TOTAL_COLUMNS).map
        fun c => line (abscissa PRIMARY samples) (ordinate oper samples c) segment x := by
    rw [ScriptArray.appendArray_toList, ScriptArray.append_toList, (isSegment.predict x).toList]
    rfl
  rw [row]
  refine ⟨?_, rfl, fun c small y => ?_⟩
  · rw [List.length_cons, List.length_map, List.length_range]
  · rw [onCurve_iff monotone within covers, List.getElem?_cons_succ, List.getElem?_map,
      List.getElem?_range small, Option.map_some, Option.some_inj]
    exact eq_comm

/-- The rows of the positions from `x` on, at every interval below the last vertex. -/
structure IsSampled (PRIMARY TOTAL_COLUMNS : Nat) (oper : Nat → ScriptArray ℚ → ℚ)
    (samples : List (ScriptArray ℚ)) (interval x : ℚ) (rows : List (List ℚ)) : Prop where
  positions : ∀ j : Nat, j < rows.length ↔
    x + j * interval < abscissa PRIMARY samples samples.length
  rows : ∀ (j : Nat) (row : List ℚ), rows[j]? = some row →
    IsSample PRIMARY TOTAL_COLUMNS oper samples (x + j * interval) row

theorem IsSampled.nil {interval x : ℚ} (positive : 0 < interval)
    (past : abscissa PRIMARY samples samples.length ≤ x) :
    IsSampled PRIMARY TOTAL_COLUMNS oper samples interval x [] where
  positions j := by
    have forward : 0 ≤ (j : ℚ) * interval := mul_nonneg (Nat.cast_nonneg j) positive.le
    refine ⟨fun within => absurd within (Nat.not_lt_zero j), fun below => ?_⟩
    linarith
  rows j row entry := by cases entry

theorem IsSampled.cons {interval x : ℚ} {row : List ℚ} {rows : List (List ℚ)}
    (isSample : IsSample PRIMARY TOTAL_COLUMNS oper samples x row)
    (below : x < abscissa PRIMARY samples samples.length)
    (isSampled : IsSampled PRIMARY TOTAL_COLUMNS oper samples interval (x + interval) rows) :
    IsSampled PRIMARY TOTAL_COLUMNS oper samples interval x (row :: rows) := by
  have start : x + ((0 : Nat) : ℚ) * interval = x := by
    rw [Nat.cast_zero, zero_mul, add_zero]
  have next (j : Nat) : x + ((j + 1 : Nat) : ℚ) * interval = x + interval + j * interval := by
    rw [Nat.cast_succ]
    ring
  refine ⟨fun j => ?_, fun j other entry => ?_⟩
  · cases j with
    | zero =>
      rw [start]
      exact ⟨fun _ => below, fun _ => Nat.zero_lt_succ _⟩
    | succ j =>
      rw [next, ← isSampled.positions j, List.length_cons, Nat.add_lt_add_iff_right]
  · cases j with
    | zero =>
      rw [start, ← Option.some.inj entry]
      exact isSample
    | succ j =>
      rw [next]
      exact isSampled.rows j other entry

/-- The loop of the third stage ends, and reads no spline behind the last. -/
theorem writeRows_isSampled {splines : Nat → Spline} {interval : ℚ}
    (segments : ∀ segment, segment < samples.length →
      IsSegment PRIMARY TOTAL_COLUMNS oper samples segment (splines segment))
    (monotone : Monotone (abscissa PRIMARY samples)) (positive : 0 < interval)
    (turns lastIndex : Nat) (x : ℚ) (behind : abscissa PRIMARY samples lastIndex < x)
    (enough : abscissa PRIMARY samples samples.length ≤ x + turns * interval) :
    ∃ rows, writeRows splines samples.length interval (abscissa PRIMARY samples samples.length)
        (turns + 1) lastIndex x = some rows ∧
      IsSampled PRIMARY TOTAL_COLUMNS oper samples interval x rows := by
  induction turns generalizing lastIndex x with
  | zero =>
    rw [Nat.cast_zero, zero_mul, add_zero] at enough
    refine ⟨[], ?_, IsSampled.nil positive enough⟩
    rw [writeRows, if_neg (not_lt.mpr enough)]
  | succ turns inductionHypothesis =>
    by_cases below : x < abscissa PRIMARY samples samples.length
    · obtain ⟨segment, found, within, covers⟩ :=
        findSpline_covers segments monotone behind below.le
      have forward : x < x + interval := lt_add_of_pos_right x positive
      have enoughLeft : abscissa PRIMARY samples samples.length ≤
          x + interval + turns * interval := by
        rw [Nat.cast_succ] at enough
        linarith
      obtain ⟨rows, ended, isSampled⟩ :=
        inductionHypothesis segment (x + interval) (covers.1.trans forward) enoughLeft
      have here := (segments segment within).isSample monotone within covers
      refine ⟨_, ?_, IsSampled.cons here below isSampled⟩
      rw [writeRows, if_pos below, found]
      dsimp only
      rw [ended]
      rfl
    · refine ⟨[], ?_, IsSampled.nil positive (not_lt.mp below)⟩
      rw [writeRows, if_neg below]

end Search

/-! ### The output -/

/-- Samples that can be added up: each has a primary column, and it is nowhere negative. -/
structure Nondecreasing (PRIMARY : Nat) (samples : List (ScriptArray ℚ)) : Prop where
  nonempty : samples ≠ []
  hasPrimary : ∀ Sample ∈ samples, PRIMARY < Sample.n
  nonneg : ∀ Sample ∈ samples, 0 ≤ Sample.data PRIMARY

/-- `interp` ends without a read behind its splines, and has written for every multiple of the
interval below the last vertex the value of the curve. -/
theorem interp_resamples (PRIMARY TOTAL_COLUMNS : Nat) (oper : Nat → ScriptArray ℚ → ℚ)
    (samples : List (ScriptArray ℚ)) (nondecreasing : Nondecreasing PRIMARY samples)
    (interval : ℚ) (positive : 0 < interval) :
    ∃ fuel rows, interp PRIMARY TOTAL_COLUMNS oper fuel interval samples = some rows ∧
      IsSampled PRIMARY TOTAL_COLUMNS oper samples interval interval rows := by
  have monotone := abscissa_monotone nondecreasing.nonneg
  have some := List.length_pos_iff.mpr nondecreasing.nonempty
  obtain ⟨turns, enough⟩ :=
    exists_nat_ge (abscissa PRIMARY samples samples.length / interval)
  rw [div_le_iff₀ positive] at enough
  have built : _ ∧ _ ∧ Vertices PRIMARY TOTAL_COLUMNS oper samples _ _ :=
    buildDataSet_vertices samples
  unfold interp
  cases stage : buildDataSet PRIMARY TOTAL_COLUMNS oper samples with
  | mk X Y =>
    rw [stage] at built
    obtain ⟨lengthX, lengthY, vertices⟩ := built
    have last : X.data (-1) = abscissa PRIMARY samples samples.length := by
      rw [ScriptArray.data_neg_one (by rw [lengthX]; exact some), lengthX,
        vertices.x _ (Nat.sub_lt some Nat.one_pos), Nat.sub_add_cancel some]
    dsimp only
    rw [last, lengthX]
    have behind : abscissa PRIMARY samples 0 < interval := positive
    obtain ⟨rows, ended, isSampled⟩ := writeRows_isSampled
      (fun segment within => constructSplines_isSegment lengthX lengthY vertices within) monotone
      positive turns 0 interval behind (enough.trans (le_add_of_nonneg_left positive.le))
    exact ⟨_, rows, ended, isSampled⟩

/-- The columns and operations of `iconfig.h`, and two samples, the second of no length. -/
theorem interp_resamples_two_samples :
    ∃ fuel rows, interp 3 3
        (fun i A => if i = 0 then A.data 6 else if i = 1 then A.data 3 / A.data 4 else A.data 7)
        fuel 1 [((ScriptArray.ofLength 8).fill 3 2).fill 4 1, (ScriptArray.ofLength 8).fill 4 1] =
          some rows ∧
      IsSampled 3 3
        (fun i A => if i = 0 then A.data 6 else if i = 1 then A.data 3 / A.data 4 else A.data 7)
        [((ScriptArray.ofLength 8).fill 3 2).fill 4 1, (ScriptArray.ofLength 8).fill 4 1] 1 1 rows :=
  interp_resamples 3 3 _ _
    { nonempty := List.cons_ne_nil _ _
      hasPrimary := by decide
      nonneg := by decide }
    1 one_pos

end Seeker
