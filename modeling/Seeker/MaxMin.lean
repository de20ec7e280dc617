/-
This file embeds `maxmin.cpp`, which merges tables into a table of their maxima and one of
their minima, with `split`, `max`, `min` and `fprint` of `Array.h`.

The rows of each file are merged into `Max` and `Min` from row `0` on; `k` counts the rows
of the file at hand, and both tables are cut to the last value of `k`. From the second file
on a line is split twice, and the first `split` leaves only its first field to the second.
`getline` stops at the size of its buffer and then fails for good: `infile.eof()` never
becomes true, and the loop over the rows does not end.

A file is its lines, each of them ended by a newline. `atof` is a parameter, its values
those of any linear order.
-/
import Seeker.CStrings
import Seeker.Library.Ragged
import Seeker.ScriptArray

namespace Seeker

open Ragged

/-! ### Functions of `Array.h` -/

section Functions

variable {T : Type*} [Zero T]

/-- `split`. -/
def split (atof : List Char → T) (sep : Char) (str : List Char) : ScriptArray T :=
  (tokens sep str).foldl (fun ret result => ret.append (atof result)) ScriptArray.empty

theorem split_toList (atof : List Char → T) (sep : Char) (str : List Char) :
    (split atof sep str).toList = (tokens sep str).map atof := by
  have appended (ret : ScriptArray T) (results : List (List Char)) :
      (results.foldl (fun ret result => ret.append (atof result)) ret).toList =
        ret.toList ++ results.map atof := by
    induction results generalizing ret with
    | nil => rw [List.foldl_nil, List.map_nil, List.append_nil]
    | cons result results inductionHypothesis =>
      rw [List.foldl_cons, inductionHypothesis, ScriptArray.append_toList, List.map_cons,
        List.append_assoc, List.singleton_append]
  exact appended ScriptArray.empty (tokens sep str)

/-- `fprint(outf)`: the lines that it writes. The newline follows the last element, so that an
empty array writes none. -/
def fprint (a : ScriptArray T) : List (List T) := if a.n = 0 then [] else [a.toList]

/-- The common body of `max` and `min`: the element that is `better`, or the only one. -/
def pick (better : T → T → Prop) [DecidableRel better] (A B : ScriptArray T) : ScriptArray T :=
  let len := if A.n > B.n then A.n else B.n
  (ScriptArray.ofLength len).fillRange 0 len fun i =>
    if i ≥ A.n then B.data i
    else if i ≥ B.n then A.data i
    else if better (A.data i) (B.data i) then A.data i else B.data i

section Pick

variable (better : T → T → Prop) [DecidableRel better] (A B : ScriptArray T)

theorem pick_n : (pick better A B).n = max A.n B.n := by
  show (if A.n > B.n then A.n else B.n) = _
  split
  · omega
  · omega

theorem pick_Data {i : Nat} (within : i < max A.n B.n) :
    (pick better A B).Data i =
      if i ≥ A.n then B.data i
      else if i ≥ B.n then A.data i
      else if better (A.data i) (B.data i) then A.data i else B.data i := by
  unfold pick
  dsimp only
  rw [ScriptArray.fillRange_Data, if_pos]
  split
  · omega
  · omega

theorem pick_toList :
    (pick better A B).toList =
      merged (fun x y => if better x y then x else y) A.toList B.toList := by
  apply List.ext_getElem?
  intro i
  rw [getElem?_merged, ScriptArray.getElem?_toList, ScriptArray.getElem?_toList,
    ScriptArray.getElem?_toList, pick_n]
  by_cases within : i < max A.n B.n
  · rw [if_pos within, pick_Data better A B within]
    by_cases inA : i < A.n
    · rw [if_neg (not_le.mpr inA), if_pos inA, ScriptArray.data_of_lt inA]
      by_cases inB : i < B.n
      · rw [if_neg (not_le.mpr inB), if_pos inB, ScriptArray.data_of_lt inB]
        rfl
      · rw [if_pos (not_lt.mp inB), if_neg inB]
        rfl
    · have inB : i < B.n := by omega
      rw [if_pos (not_lt.mp inA), if_neg inA, if_pos inB, ScriptArray.data_of_lt inB]
      rfl
  · rw [if_neg within, if_neg (by omega), if_neg (by omega)]
    rfl

end Pick

variable [LinearOrder T]

/-- `max`. -/
def arrayMax : ScriptArray T → ScriptArray T → ScriptArray T := pick fun x y => x > y

/-- `min`. -/
def arrayMin : ScriptArray T → ScriptArray T → ScriptArray T := pick fun x y => x < y

theorem arrayMax_toList (A B : ScriptArray T) :
    (arrayMax A B).toList = merged max A.toList B.toList := by
  have larger : (fun x y : T => if x > y then x else y) = max := by
    funext x y
    split
    · rename_i greater
      exact (max_eq_left (le_of_lt greater)).symm
    · rename_i notGreater
      exact (max_eq_right (not_lt.mp notGreater)).symm
  rw [arrayMax, pick_toList, larger]

theorem arrayMin_toList (A B : ScriptArray T) :
    (arrayMin A B).toList = merged min A.toList B.toList := by
  have smaller : (fun x y : T => if x < y then x else y) = min := by
    funext x y
    split
    · rename_i less
      exact (min_eq_left (le_of_lt less)).symm
    · rename_i notLess
      exact (min_eq_right (not_lt.mp notLess)).symm
  rw [arrayMin, pick_toList, smaller]

end Functions

/-! ### Files -/

/-- An input file: its header line and its rows, without their newlines. -/
structure Table where
  header : List Char
  rows : List (List Char)

/-- An `ifstream`: the lines ahead and the two bits of its state. -/
structure Infile where
  lines : List (List Char)
  eof : Bool
  fail : Bool

/-- `open`. -/
def Infile.opened (file : Table) : Infile :=
  { lines := file.header :: file.rows, eof := false, fail := false }

/-- `getline` into a buffer of `size` characters: the string in the buffer, and the stream. -/
def Infile.getline (size : Nat) (infile : Infile) : List Char × Infile :=
  if infile.eof || infile.fail then ([], { infile with fail := true })
  else
    match infile.lines with
    | [] => ([], { infile with eof := true, fail := true })
    | line :: lines =>
      if line.length < size then (line, { infile with lines := lines })
      else
        (line.take (size - 1),
          { infile with lines := line.drop (size - 1) :: lines, fail := true })

/-! ### The program -/

section Program

variable {T : Type*} [Zero T] [LinearOrder T] (atof : List Char → T)

/-- The variables of `main`. -/
structure MaxMin (T : Type*) where
  header : List Char
  first : Bool
  k : Nat
  Max : ScriptArray (ScriptArray T)
  Min : ScriptArray (ScriptArray T)

/-- The variables before the loop over the files. -/
def MaxMin.start : MaxMin T :=
  { header := []
    first := true
    k := 0
    Max := ScriptArray.ofLength 100000
    Min := ScriptArray.ofLength 100000 }

/-- `if (k == Max.length()) Max.resize(Max.length() + 100000);` -/
def grow (k : Nat) (table : ScriptArray (ScriptArray T)) : ScriptArray (ScriptArray T) :=
  if k = table.n then table.resize (table.n + 100000) else table

/-- `table[k] = row`, with the `operator=` of the row. -/
def assignRow (k : Nat) (row : ScriptArray T) (table : ScriptArray (ScriptArray T)) :
    ScriptArray (ScriptArray T) :=
  table.fill k ((table.data k).assign row)

/-- What the loop over the rows does with a line. The second `split` of a line reads what the first
has left of it in the buffer. -/
def storeRow (Line : List Char) (m : MaxMin T) : MaxMin T :=
  let row := split atof ',' Line
  let Line := strtokLeaves ',' Line
  let Max :=
    if m.first then assignRow m.k row m.Max
    else assignRow m.k (arrayMax (m.Max.data m.k) row) m.Max
  let Min :=
    if m.first then assignRow m.k (Max.data m.k) m.Min
    else assignRow m.k (arrayMin (m.Min.data m.k) (split atof ',' Line)) m.Min
  let k := m.k + 1
  { m with k := k, Max := grow k Max, Min := grow k Min }

/-- The loop over the rows; `none` when it has not ended after so many turns. -/
def readRows : Nat → Infile → MaxMin T → Option (MaxMin T)
  | 0, _, _ => none
  | fuel + 1, infile, m =>
    let (Line, infile) := infile.getline 500
    if infile.eof then some m else readRows fuel infile (storeRow atof Line m)

/-- The body of the loop over the files. -/
def readFile (fuel : Nat) (file : Table) (m : MaxMin T) : Option (MaxMin T) :=
  let infile := Infile.opened file
  let m := { m with k := 0 }
  if m.header = [] then
    let (header, infile) := infile.getline 200
    (readRows atof fuel infile { m with header := header }).map fun m => { m with first := false }
  else
    let (_, infile) := infile.getline 500
    (readRows atof fuel infile m).map fun m => { m with first := false }

/-- The loop over the files. -/
def readFiles (fuel : Nat) : List Table → MaxMin T → Option (MaxMin T)
  | [], m => some m
  | file :: files, m => (readFile atof fuel file m).bind (readFiles fuel files)

/-- The two output files: the header line of both, and the lines of numbers of each. -/
structure Outfiles (T : Type*) where
  header : List Char
  max : List (List T)
  min : List (List T)

/-- `main`; `none` when a loop has not ended after so many turns. With fewer than two input files
it prints its usage. -/
def maxmin (fuel : Nat) (files : List Table) : Option (Outfiles T) :=
  if files.length < 2 then none
  else
    (readFiles atof fuel files MaxMin.start).map fun m =>
      { header := m.header
        max := (m.Max.resize m.k).toList.flatMap fprint
        min := (m.Min.resize m.k).toList.flatMap fprint }

/-- The program ends and writes these files. -/
def Writes (files : List Table) (out : Outfiles T) : Prop := ∃ fuel, maxmin atof fuel files = some out

end Program

end Seeker
