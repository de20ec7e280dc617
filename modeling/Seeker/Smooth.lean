/-
This file embeds `smooth.cpp`, which smooths the columns of a table, and says what it
writes.

Each row becomes a sum of the rows around it, with weights that fall to both sides, over
the square of the window's size; rows in front of the first one and behind the last one
count as zeros. Away from the ends a smoothed value therefore lies between the values of
its window. The numbers are exact, and `atof` is a parameter.
-/
import Seeker.ArrayOperators
import Seeker.Library.Triangular
import Seeker.MaxMinRows

namespace Seeker

/-! ### Functions of `Array.h` -/

namespace ScriptArray

/-- `zeroes`. -/
def zeroes (a : ScriptArray ℚ) : ScriptArray ℚ := a.fillRange 0 a.n fun _ => 0

/-- `operator/=(T)`. -/
def divAssignScalar (a : ScriptArray ℚ) (A : ℚ) : ScriptArray ℚ :=
  a.fillRange 0 a.n fun i => if A ≠ 0 then a.Data i / A else a.Data i

end ScriptArray

/-! ### The program -/

/-- `index`: a row of the table, or zeros where there is none. -/
def index (data : ScriptArray (ScriptArray ℚ)) (ind : Int) : ScriptArray ℚ :=
  let ret := (ScriptArray.ofLength (data.data 0).n).zeroes
  if ind < 0 ∨ ind ≥ data.n then ret else data.data ind

/-- `mva`. The sum `window + 1` is an `int`; at the largest window it overflows, and the loop, which
compares an `int` with that window, has no end there. -/
def mva (data : ScriptArray (ScriptArray ℚ)) (ind window : Int) : ScriptArray ℚ :=
  let n : ℚ := int32 (window + 1)
  let ret := (ScriptArray.ofLength (data.data 0).n).assign ((data.data ind).mulScalar n)
  let ret := Loops.forRange window.toNat
    (fun i ret => ret.addAssign
      (((index data (ind - (i + 1))).add (index data (ind + (i + 1)))).mulScalar (n - (i + 1))))
    ret
  ret.divAssignScalar (n * n)

/-- The variables of `main` that the reading loop writes. -/
structure SmoothData where
  k : Nat
  Data : ScriptArray (ScriptArray ℚ)

/-- The table file that is written: its header line and its rows. -/
structure SmoothFile where
  header : List Char
  rows : List (List ℚ)

section Program

variable (atof : List Char → ℚ)

/-- What the reading loop does with a line. -/
def storeSample (Sline : List Char) (m : SmoothData) : SmoothData :=
  { k := m.k + 1, Data := grow (m.k + 1) (assignRow m.k (split atof ',' Sline) m.Data) }

/-- The reading loop; `none` when it has not ended after so many turns. -/
def readSamples : Nat → Infile → SmoothData → Option SmoothData
  | 0, _, _ => none
  | fuel + 1, infile, m =>
    let (Sline, infile) := infile.getline 500
    if infile.eof then some m else readSamples fuel infile (storeSample atof Sline m)

/-- The writing loop: `out` and the lines written. -/
def writeSmoothed (Data : ScriptArray (ScriptArray ℚ)) (window : Int) (k : Nat) :
    ScriptArray ℚ × List (List ℚ) :=
  Loops.forRange k
    (fun i (written : ScriptArray ℚ × List (List ℚ)) =>
      let out := written.1.assign (mva Data i window)
      (out, written.2 ++ fprint out))
    (.empty, [])

/-- `main`; `none` when its reading loop has not ended after so many turns. -/
def smooth (fuel : Nat) (window : Int) (file : Table) : Option SmoothFile :=
  let (header, infile) := (Infile.opened file).getline 200
  (readSamples atof fuel infile { k := 0, Data := ScriptArray.ofLength 100000 }).map fun m =>
    { header := header, rows := (writeSmoothed (m.Data.resize m.k) window m.k).2 }

end Program

/-! ### Arrays of one length -/

/-- The array has the length and the elements. -/
def ArrayHolds (a : ScriptArray ℚ) (length : Nat) (element : Nat → ℚ) : Prop :=
  a.n = length ∧ ∀ j, j < length → a.Data j = element j

section Elements

variable {a b : ScriptArray ℚ} {length : Nat} {element other : Nat → ℚ}

theorem ArrayHolds.congr (holds : ArrayHolds a length element)
    (same : ∀ j, j < length → element j = other j) : ArrayHolds a length other :=
  ⟨holds.1, fun j within => (holds.2 j within).trans (same j within)⟩

theorem ArrayHolds.toList (holds : ArrayHolds a length element) :
    a.toList = (List.range length).map element := by
  rw [ScriptArray.toList, holds.1]
  exact List.map_congr_left fun j member => holds.2 j (List.mem_range.mp member)

theorem arrayHolds_of_toList {values : List ℚ} (same : a.toList = values)
    (size : values.length = length) : ArrayHolds a length (values.getD · 0) := by
  have lengths : a.n = length := by
    rw [← ScriptArray.length_toList a, same, size]
  refine ⟨lengths, fun j within => ?_⟩
  have cell := ScriptArray.getElem?_toList a j
  rw [if_pos (lengths ▸ within), same] at cell
  show a.Data j = values.getD j 0
  rw [List.getD_eq_getElem?_getD, cell]
  rfl

theorem ArrayHolds.mulScalar (holds : ArrayHolds a length element) (B : ℚ) :
    ArrayHolds (a.mulScalar B) length fun j => element j * B := by
  refine ⟨holds.1, fun j within => ?_⟩
  rw [ScriptArray.mulScalar, ScriptArray.scalar_Data _ (holds.1 ▸ within), holds.2 j within]

theorem ArrayHolds.add (holds : ArrayHolds a length element) (holds' : ArrayHolds b length other) :
    ArrayHolds (a.add b) length fun j => element j + other j := by
  refine ⟨?_, fun j within => ?_⟩
  · rw [ScriptArray.add, ScriptArray.binary_n, holds.1, holds'.1, max_self]
  · rw [ScriptArray.add, ScriptArray.binary_Data, if_pos (holds.1 ▸ within),
      if_pos (holds'.1 ▸ within), holds.2 j within, holds'.2 j within]

theorem ArrayHolds.addAssign (holds : ArrayHolds a length element)
    (holds' : ArrayHolds b length other) :
    ArrayHolds (a.addAssign b) length fun j => element j + other j := by
  have lengths : max a.n b.n = length := by rw [holds.1, holds'.1, max_self]
  refine ⟨?_, fun j within => ?_⟩
  · rw [ScriptArray.addAssign, ScriptArray.compound_n, lengths]
  · rw [ScriptArray.addAssign, ScriptArray.compound_Data (lengths ▸ within),
      if_pos (holds.1 ▸ within), if_pos (holds'.1 ▸ within), holds.2 j within,
      holds'.2 j within]

theorem ArrayHolds.assign (holds : ArrayHolds b length element) (shorter : a.n ≤ length) :
    ArrayHolds (a.assign b) length element := by
  have lengths : (a.assign b).n = length := by
    rw [ScriptArray.assign_n, holds.1, max_eq_right shorter]
  refine ⟨lengths, fun j within => ?_⟩
  rw [ScriptArray.assign_Data _ _ (lengths ▸ within), if_pos (holds.1 ▸ within),
    holds.2 j within]

theorem ArrayHolds.divAssignScalar (holds : ArrayHolds a length element) {A : ℚ} (nonzero : A ≠ 0) :
    ArrayHolds (a.divAssignScalar A) length fun j => element j / A := by
  refine ⟨holds.1, fun j within => ?_⟩
  rw [ScriptArray.divAssignScalar, ScriptArray.fillRange_Data,
    if_pos ⟨Nat.zero_le j, holds.1 ▸ within⟩, if_pos nonzero, holds.2 j within]

theorem arrayHolds_zeroes (length : Nat) :
    ArrayHolds (ScriptArray.ofLength length).zeroes length fun _ => 0 := by
  refine ⟨rfl, fun j within => ?_⟩
  rw [ScriptArray.zeroes, ScriptArray.fillRange_Data, if_pos ⟨Nat.zero_le j, within⟩]

end Elements

/-! ### A smoothed row -/

/-- The column of a table, with zeros in front and behind. -/
def columnSignal (rows : Nat) (element : Nat → Nat → ℚ) (j : Nat) (place : Int) : ℚ :=
  if 0 ≤ place ∧ place < rows then element place.toNat j else 0

/-- The table has rows of one length. -/
def HoldsRows (data : ScriptArray (ScriptArray ℚ)) (rows length : Nat)
    (element : Nat → Nat → ℚ) : Prop :=
  data.n = rows ∧ ∀ r, r < rows → ArrayHolds (data.Data r) length (element r)

section Smoothing

variable {data : ScriptArray (ScriptArray ℚ)} {rows length : Nat} {element : Nat → Nat → ℚ}

theorem HoldsRows.row (holds : HoldsRows data rows length element) {r : Nat} (within : r < rows) :
    ArrayHolds (data.data r) length (element r) := by
  rw [ScriptArray.data_of_lt (holds.1 ▸ within)]
  exact holds.2 r within

theorem columnSignal_of_lt {r : Nat} (within : r < rows) (element : Nat → Nat → ℚ) (j : Nat) :
    columnSignal rows element j r = element r j := by
  rw [columnSignal, if_pos (by omega), Int.toNat_natCast]

theorem HoldsRows.index (holds : HoldsRows data rows length element) (some : 0 < rows)
    (ind : Int) : ArrayHolds (index data ind) length fun j => columnSignal rows element j ind := by
  have first : (data.data 0).n = length := (holds.row some).1
  unfold Seeker.index
  rw [first, holds.1]
  dsimp only
  by_cases outside : ind < 0 ∨ ind ≥ rows
  · rw [if_pos outside]
    refine (arrayHolds_zeroes length).congr fun j _ => ?_
    rw [columnSignal, if_neg (by omega)]
  · rw [if_neg outside]
    obtain ⟨r, rfl⟩ := Int.eq_ofNat_of_zero_le (show 0 ≤ ind by omega)
    have within : r < rows := by omega
    exact (holds.row within).congr fun j _ => (columnSignal_of_lt within element j).symm

/-- Where the loop of `mva` starts: the row itself, with the largest weight. -/
theorem HoldsRows.centre (holds : HoldsRows data rows length element) {r : Nat}
    (within : r < rows) (width : Nat) :
    ArrayHolds ((ScriptArray.ofLength (data.data 0).n).assign
      ((data.data r).mulScalar ((width : ℚ) + 1))) length fun j =>
        columnSignal rows element j r * ((width : ℚ) + 1) := by
  have first : (data.data 0).n = length := (holds.row (Nat.zero_lt_of_lt within)).1
  have shorter : (ScriptArray.ofLength (data.data 0).n : ScriptArray ℚ).n ≤ length :=
    le_of_eq first
  refine (((holds.row within).mulScalar ((width : ℚ) + 1)).assign shorter).congr fun j _ => ?_
  rw [columnSignal_of_lt within]

/-- What the loop of `mva` adds up: a turn adds the rows at one distance, with their weight. -/
theorem HoldsRows.weighted (holds : HoldsRows data rows length element) {r : Nat}
    (within : r < rows) (width : Nat) :
    ArrayHolds (Loops.forRange width
      (fun i ret => ret.addAssign (((Seeker.index data (r - (i + 1))).add
        (Seeker.index data (r + (i + 1)))).mulScalar ((width : ℚ) + 1 - (i + 1))))
      ((ScriptArray.ofLength (data.data 0).n).assign
        ((data.data r).mulScalar ((width : ℚ) + 1)))) length
      fun j => Triangular.weighted width (columnSignal rows element j) r := by
  have some : 0 < rows := Nat.zero_lt_of_lt within
  unfold Triangular.weighted
  refine Loops.forRange_induction
    (fun bound ret => ArrayHolds ret length fun j =>
      columnSignal rows element j r * ((width : ℚ) + 1) +
        ∑ i ∈ Finset.range bound, (columnSignal rows element j (r - (i + 1)) +
          columnSignal rows element j (r + (i + 1))) * ((width : ℚ) + 1 - (i + 1))) ?_ ?_
  · refine (holds.centre within width).congr fun j _ => ?_
    rw [Finset.sum_range_zero, add_zero]
  · intro i _ ret sofar
    refine (sofar.addAssign (((holds.index some _).add (holds.index some _)).mulScalar
      ((width : ℚ) + 1 - (i + 1)))).congr fun j _ => ?_
    rw [Finset.sum_range_succ, add_assoc]

/-- `mva` writes the triangular mean of each column. -/
theorem HoldsRows.mva (holds : HoldsRows data rows length element) {r : Nat} (within : r < rows)
    {width : Nat} (small : width < 2 ^ 31 - 1) :
    ArrayHolds (mva data r width) length fun j =>
      Triangular.mean width (columnSignal rows element j) r := by
  have size : ((width : ℚ) + 1) * (width + 1) ≠ 0 := by positivity
  have fits : int32 ((width : Int) + 1) = (width : Int) + 1 :=
    int32_of_fits (by omega) (by omega)
  unfold Seeker.mva
  rw [Int.toNat_natCast, fits]
  push_cast
  exact (holds.weighted within width).divAssignScalar size

theorem writeSmoothed_succ (data : ScriptArray (ScriptArray ℚ)) (window : Int) (k : Nat) :
    writeSmoothed data window (k + 1) =
      ((writeSmoothed data window k).1.assign (mva data k window),
        (writeSmoothed data window k).2 ++
          fprint ((writeSmoothed data window k).1.assign (mva data k window))) := rfl

/-- The writing loop writes the smoothed rows in their order. -/
theorem HoldsRows.writeSmoothed (holds : HoldsRows data rows length element)
    (columns : 0 < length) {width : Nat} (small : width < 2 ^ 31 - 1) :
    (writeSmoothed data width rows).2 = (List.range rows).map fun r : Nat =>
      (List.range length).map fun j =>
        Triangular.mean width (columnSignal rows element j) r := by
  have looped : ∀ bound, bound ≤ rows →
      (Seeker.writeSmoothed data width bound).1.n ≤ length ∧
      (Seeker.writeSmoothed data width bound).2 = (List.range bound).map fun r : Nat =>
        (List.range length).map fun j =>
          Triangular.mean width (columnSignal rows element j) r := by
    intro bound
    induction bound with
    | zero => exact fun _ => ⟨Nat.zero_le length, rfl⟩
    | succ bound inductionHypothesis =>
      intro within
      obtain ⟨shorter, written⟩ := inductionHypothesis (Nat.le_of_succ_le within)
      have out := (holds.mva within small).assign shorter
      have printed := out.toList
      rw [writeSmoothed_succ]
      refine ⟨le_of_eq out.1, ?_⟩
      dsimp only
      rw [written, List.range_succ, List.map_append, fprint, if_neg (by rw [out.1]; omega),
        printed]
      rfl
  exact (looped rows le_rfl).2

end Smoothing

/-! ### The table that is read -/

section Reading

variable {atof : List Char → ℚ}

theorem readSamples_of_fits {fuel : Nat} {lines : List (List Char)} {m last : SmoothData}
    (fits : ∀ line ∈ lines, line.length < 500) :
    readSamples atof fuel { lines := lines, eof := false, fail := false } m = some last ↔
      lines.length < fuel ∧ last = lines.foldl (fun m line => storeSample atof line m) m := by
  induction lines generalizing fuel m with
  | nil =>
    cases fuel with
    | zero => simp [readSamples]
    | succ fuel => simp [readSamples, Infile.getline, eq_comm]
  | cons line lines inductionHypothesis =>
    obtain ⟨short, others⟩ := List.forall_mem_cons.mp fits
    cases fuel with
    | zero => simp [readSamples]
    | succ fuel =>
      have turn : readSamples atof (fuel + 1)
          { lines := line :: lines, eof := false, fail := false } m =
          readSamples atof fuel { lines := lines, eof := false, fail := false }
            (storeSample atof line m) := by
        simp [readSamples, Infile.getline, short]
      rw [turn, inductionHypothesis others, List.foldl_cons, List.length_cons,
        Nat.add_lt_add_iff_right]

/-- The invariant of the reading loop. The table is one of `maxmin` with a single file. -/
structure SamplesRead (atof : List Char → ℚ) (lines : List (List Char)) (m : SmoothData) :
    Prop where
  k : m.k = lines.length
  table : TableHolds (fun x _ => x) [] (numbersOf atof lines) m.Data

theorem SamplesRead.store {lines : List (List Char)} {m : SmoothData}
    (read : SamplesRead atof lines m) (line : List Char) :
    SamplesRead atof (lines ++ [line]) (storeSample atof line m) where
  k := by
    rw [List.length_append, List.length_singleton]
    exact congrArg (· + 1) read.k
  table := by
    have row := split_toList atof ',' line
    have stored := read.table.store (row.trans (Ragged.nil_merged _).symm)
    rw [← numbersOf_concat, length_numbersOf, ← read.k] at stored
    exact stored

theorem SamplesRead.foldl {lines : List (List Char)} {m : SmoothData}
    (read : SamplesRead atof lines m) (rest : List (List Char)) :
    SamplesRead atof (lines ++ rest) (rest.foldl (fun m line => storeSample atof line m) m) := by
  induction rest generalizing lines m with
  | nil =>
    rw [List.append_nil]
    exact read
  | cons line rest inductionHypothesis =>
    rw [List.append_cons, List.foldl_cons]
    exact inductionHypothesis (read.store line)

/-- The table cut to the rows that were read. -/
theorem SamplesRead.holdsRows {lines : List (List Char)} {m : SmoothData}
    (read : SamplesRead atof lines m) {length : Nat}
    (even : ∀ r, r < lines.length → (rowOf atof lines r).length = length) :
    HoldsRows (m.Data.resize m.k) lines.length length
      fun r j => (rowOf atof lines r).getD j 0 := by
  refine ⟨by rw [ScriptArray.resize_n, read.k], fun r within => ?_⟩
  have room := read.table.room
  rw [length_numbersOf] at room
  have inside : r < m.Data.n := within.trans room
  have row : (m.Data.Data r).toList = rowOf atof lines r := by
    rw [read.table.held r inside, getD_numbersOf]
    exact Ragged.nil_merged _
  rw [ScriptArray.resize_Data _ (read.k ▸ within), if_pos inside]
  exact arrayHolds_of_toList row (even r within)

/-- All rows of the table have the same number of columns, at least one. -/
structure Table.Even (atof : List Char → ℚ) (file : Table) (columns : Nat) : Prop where
  some : 0 < columns
  rows : ∀ r, r < file.rows.length → (rowOf atof file.rows r).length = columns

/-- A column of the table, with zeros in front and behind. -/
def Table.signal (atof : List Char → ℚ) (file : Table) (j : Nat) : Int → ℚ :=
  columnSignal file.rows.length (fun r j => (rowOf atof file.rows r).getD j 0) j

/-- The table of the triangular means of the columns. -/
def smoothed (atof : List Char → ℚ) (file : Table) (columns width : Nat) : SmoothFile where
  header := file.header
  rows := (List.range file.rows.length).map fun r : Nat =>
    (List.range columns).map fun j => Triangular.mean width (file.signal atof j) r

theorem smooth_eq_some_iff {file : Table} (fits : file.Fits) {columns : Nat}
    (even : file.Even atof columns) {width : Nat} (small : width < 2 ^ 31 - 1) (fuel : Nat)
    (out : SmoothFile) :
    smooth atof fuel width file = some out ↔
      file.rows.length < fuel ∧ out = smoothed atof file columns width := by
  have opened : (Infile.opened file).getline 200 =
      (file.header, { lines := file.rows, eof := false, fail := false }) := by
    simp [Infile.opened, Infile.getline, fits.header]
  have start : SamplesRead atof [] { k := 0, Data := ScriptArray.ofLength 100000 } :=
    ⟨rfl, TableHolds.start⟩
  have read := start.foldl file.rows
  rw [List.nil_append] at read
  have written := (read.holdsRows even.rows).writeSmoothed even.some small
  rw [← read.k] at written
  unfold smooth
  rw [opened]
  dsimp only
  rw [Option.map_eq_some_iff]
  constructor
  · rintro ⟨last, ended, rfl⟩
    obtain ⟨enough, rfl⟩ := (readSamples_of_fits fits.rows).mp ended
    refine ⟨enough, ?_⟩
    rw [written, smoothed, read.k]
    rfl
  · rintro ⟨enough, rfl⟩
    refine ⟨_, (readSamples_of_fits fits.rows).mpr ⟨enough, rfl⟩, ?_⟩
    rw [written, smoothed, read.k]
    rfl

end Reading

/-- For every table whose lines fit the buffers and whose rows have the same number of columns, and
every window below the largest `int`: the program ends, and what it writes is the header and, row by
row, the triangular mean of each column, which lies between the bounds of its window where the
window is inside. -/
theorem smooth_means {atof : List Char → ℚ} {file : Table} (fits : file.Fits) {columns : Nat}
    (even : file.Even atof columns) {width : Nat} (small : width < 2 ^ 31 - 1) :
    (∃ fuel, (smooth atof fuel width file).isSome) ∧
      (∀ fuel, ∀ out ∈ smooth atof fuel width file, out = smoothed atof file columns width) ∧
      ∀ r j, width ≤ r → r + width < file.rows.length → ∀ low high,
        (∀ s, r - width ≤ s → s ≤ r + width → low ≤ (rowOf atof file.rows s).getD j 0 ∧
          (rowOf atof file.rows s).getD j 0 ≤ high) →
        low ≤ Triangular.mean width (file.signal atof j) r ∧
          Triangular.mean width (file.signal atof j) r ≤ high := by
  refine ⟨⟨file.rows.length + 1, ?_⟩, fun fuel out ended => ?_,
    fun r j before behind low high bounded => ?_⟩
  · rw [(smooth_eq_some_iff fits even small (file.rows.length + 1) _).mpr
      ⟨Nat.lt_succ_self _, rfl⟩]
    rfl
  · exact ((smooth_eq_some_iff fits even small fuel out).mp ended).2
  · refine Triangular.mean_mem fun place low high => ?_
    obtain ⟨s, rfl⟩ := Int.eq_ofNat_of_zero_le (show 0 ≤ place by omega)
    rw [Table.signal, columnSignal, if_pos (by omega), Int.toNat_natCast]
    exact bounded s (by omega) (by omega)

/-- A table of one column, whose numbers are written in digits. -/
def hillTable : Table where
  header := "h".toList
  rows := ["4".toList, "8".toList, "4".toList]

/-- The middle of the hill is flattened, and its ends run into the zeros around it. -/
theorem smooth_means_hill :
    let atof : List Char → ℚ := fun digits => Nat.ofDigitChars 10 digits 0
    (∀ fuel, ∀ out ∈ smooth atof fuel 1 hillTable, out = smoothed atof hillTable 1 1) ∧
      (smoothed atof hillTable 1 1).rows = [[4], [6], [4]] := by
  intro atof
  have fits : hillTable.Fits := ⟨by decide, by decide⟩
  have even : hillTable.Even atof 1 := ⟨by decide, by decide⟩
  exact ⟨(smooth_means fits even (by decide)).2.1, by decide +kernel⟩

end Seeker
