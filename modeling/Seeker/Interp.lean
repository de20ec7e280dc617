/-
This file embeds `interp.cpp` with the class `SPLINE` of `interp.h`: samples are added up
to a curve, and the curve is read at every multiple of an interval.

The numbers are exact. A sample is the array that `split` makes of a line; the operations
of `iconfig.h` on it are a parameter, and so are its two counts of columns.
-/
import Mathlib.Algebra.BigOperators.Group.List.Basic
import Mathlib.Algebra.Order.Field.Rat
import Seeker.ArrayOperators

namespace Seeker

/-! ### The class `SPLINE` -/

/-- `SPLINE`. -/
structure Spline where
  slope : ScriptArray ℚ
  Yint : ScriptArray ℚ
  low : ℚ
  high : ℚ

namespace Spline

/-- `SPLINE()`. -/
def new : Spline := { slope := .empty, Yint := .empty, low := 0, high := 0 }

/-- `construct`, with an array for `Y_from`. -/
def construct (spline : Spline) (fromX toX : ℚ) (fromY toY : ScriptArray ℚ) : Spline :=
  let slope := spline.slope.assign ((toY.sub fromY).divScalar (toX - fromX))
  let Yint := spline.Yint.assign (fromY.sub (slope.mulScalar fromX))
  { slope := slope, Yint := Yint, low := fromX, high := toX }

/-- `construct`, with a number for `Y_from`. -/
def constructFrom (spline : Spline) (fromX toX fromY : ℚ) (toY : ScriptArray ℚ) : Spline :=
  let slope := spline.slope.assign ((toY.subScalar fromY).divScalar (toX - fromX))
  let Yint := spline.Yint.assign (((slope.mulScalar fromX).subScalar fromY).mulScalar (-1))
  { slope := slope, Yint := Yint, low := fromX, high := toX }

/-- `within`. -/
def within (spline : Spline) (X : ℚ) : Bool := X > spline.low && X ≤ spline.high

/-- `predict`. -/
def predict (spline : Spline) (X : ℚ) : ScriptArray ℚ :=
  spline.Yint.add (spline.slope.mulScalar X)

end Spline

/-! ### The program -/

section Program

variable (PRIMARY TOTAL_COLUMNS : Nat) (oper : Nat → ScriptArray ℚ → ℚ)

/-- `do_oper`: `oper(i)` is the operation `operations[i]` on the two columns it names. -/
def doOper (A : ScriptArray ℚ) : ScriptArray ℚ :=
  (ScriptArray.ofLength TOTAL_COLUMNS).fillRange 0 TOTAL_COLUMNS fun i => oper i A

/-- The variables of the first stage of `main`. -/
structure DataSet where
  first : Bool
  k : Nat
  X : ScriptArray ℚ
  Y : ScriptArray (ScriptArray ℚ)

/-- The variables before the samples are read. -/
def DataSet.start : DataSet :=
  { first := true, k := 0, X := ScriptArray.ofLength 100000, Y := ScriptArray.ofLength 100000 }

/-- What the loop of the first stage does with a sample. -/
def readSample (d : DataSet) (Sample : ScriptArray ℚ) : DataSet :=
  let X :=
    if d.first then d.X.fill 0 (Sample.data PRIMARY)
    else d.X.fill d.k (d.X.data (d.k - 1) + Sample.data PRIMARY)
  let Y := d.Y.fill d.k ((d.Y.data d.k).resize TOTAL_COLUMNS)
  let Y := Y.fill d.k ((Y.data d.k).assign (doOper TOTAL_COLUMNS oper Sample))
  let k := d.k + 1
  if k = X.n then
    { first := false, k := k, X := X.resize (X.n + 100000), Y := Y.resize (Y.n + 100000) }
  else { first := false, k := k, X := X, Y := Y }

/-- The first stage: `X` and `Y`. -/
def buildDataSet (samples : List (ScriptArray ℚ)) : ScriptArray ℚ × ScriptArray (ScriptArray ℚ) :=
  let d := samples.foldl (readSample PRIMARY TOTAL_COLUMNS oper) DataSet.start
  (d.X.resize d.k, d.Y.resize d.k)

/-- The second stage: the array of splines, as many as there are samples. -/
def constructSplines (X : ScriptArray ℚ) (Y : ScriptArray (ScriptArray ℚ)) : Nat → Spline :=
  Loops.fill 1 X.n
    (fun i => Spline.new.construct (X.data (i - 1)) (X.data i) (Y.data (i - 1)) (Y.data i))
    (Function.update (fun _ => Spline.new) 0
      (Spline.new.constructFrom 0 (X.data 0) 0 (Y.data 0)))

section Output

variable (splines : Nat → Spline) (count : Nat) (interval last : ℚ)

/-- `while (!splines[last_index].within(i)) last_index++;`, where `none` is a read behind the last
spline. -/
def findSpline (lastIndex : Nat) (i : ℚ) : Option Nat :=
  Loops.firstFrom (fun index => (splines index).within i) lastIndex count

/-- The loop of the third stage: the rows it writes. `none` is a read behind the last spline, or a
loop that has not ended after so many turns. -/
def writeRows : Nat → Nat → ℚ → Option (List (List ℚ))
  | 0, _, _ => none
  | fuel + 1, lastIndex, i =>
    if i < last then
      match findSpline splines count lastIndex i with
      | none => none
      | some lastIndex =>
        let out := (ScriptArray.empty.append (i / 1000000)).appendArray
          ((splines lastIndex).predict i)
        (writeRows fuel lastIndex (i + interval)).map fun rows => out.toList :: rows
    else some []

end Output

/-- `main`: the rows behind the header line. -/
def interp (fuel : Nat) (interval : ℚ) (samples : List (ScriptArray ℚ)) :
    Option (List (List ℚ)) :=
  let (X, Y) := buildDataSet PRIMARY TOTAL_COLUMNS oper samples
  writeRows (constructSplines X Y) X.n interval (X.data (-1)) fuel 0 interval

end Program

end Seeker
