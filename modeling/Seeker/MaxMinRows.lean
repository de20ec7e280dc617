/-
This file runs `maxmin` on its files. A run ends if and only if every line fits the buffer
it is read into, and the two tables then hold, in each row, what the rows of the files are
merged to; for the minima only the first fields of the rows are merged, but for those of
the first file. The number of rows that are written is that of the last file.
-/
import Mathlib.Algebra.Order.BigOperators.Group.List
import Mathlib.Algebra.Order.Group.Nat
import Mathlib.Data.List.GetD
import Seeker.MaxMin

namespace Seeker

open Ragged

variable {T : Type*} {atof : List Char → T}

/-! ### What the tables hold -/

/-- The numbers in a row of a file; none where the file has no such row. -/
def rowOf (atof : List Char → T) (rows : List (List Char)) (r : Nat) : List T :=
  (tokens ',' (rows.getD r [])).map atof

/-- The rows of a file as numbers. -/
def numbersOf (atof : List Char → T) (rows : List (List Char)) : List (List T) :=
  rows.map fun row => (tokens ',' row).map atof

/-- The first number of each row. -/
def firstsOf (rows : List (List T)) : List (List T) := rows.map (List.take 1)

/-- What the rows of tables at an index are merged to. -/
def mergedRow (combine : T → T → T) (tables : List (List (List T))) (r : Nat) : List T :=
  (tables.map fun rows => rows.getD r []).foldl (merged combine) []

/-- The invariant of a table: it has room for the next row, and each row is what the tables before
and the rows so far of the one at hand are merged to. -/
structure TableHolds (combine : T → T → T) (before : List (List (List T))) (rows : List (List T))
    (table : ScriptArray (ScriptArray T)) : Prop where
  room : rows.length < table.n
  shorter : ∀ other ∈ before, other.length ≤ table.n
  held : ∀ r, r < table.n →
    (table.Data r).toList = merged combine (mergedRow combine before r) (rows.getD r [])

section Rows

variable {combine : T → T → T} {before : List (List (List T))} {rows : List (List T)}
  {row : List T} {table : ScriptArray (ScriptArray T)} {r : Nat}

theorem getD_numbersOf (lines : List (List Char)) (r : Nat) :
    (numbersOf atof lines).getD r [] = rowOf atof lines r := by
  unfold rowOf numbersOf
  rw [List.getD_eq_getElem?_getD, List.getD_eq_getElem?_getD, List.getElem?_map]
  cases lines[r]? with
  | none => rfl
  | some line => rfl

theorem getD_firstsOf (rows : List (List T)) (r : Nat) :
    (firstsOf rows).getD r [] = (rows.getD r []).take 1 := by
  unfold firstsOf
  rw [List.getD_eq_getElem?_getD, List.getD_eq_getElem?_getD, List.getElem?_map]
  cases rows[r]? with
  | none => rfl
  | some row => rfl

theorem getD_concat_self : (rows ++ [row]).getD rows.length [] = row := by
  rw [List.getD_append_right _ _ _ _ le_rfl, Nat.sub_self]
  rfl

theorem getD_concat_of_ne (other : r ≠ rows.length) : (rows ++ [row]).getD r [] = rows.getD r [] := by
  rcases Nat.lt_or_gt_of_ne other with earlier | behind
  · rw [List.getD_append _ _ _ _ earlier]
  · rw [List.getD_eq_default _ _ behind.le, List.getD_eq_default]
    rw [List.length_append, List.length_singleton]
    exact behind

theorem mergedRow_of_le (past : ∀ other ∈ before, other.length ≤ r) :
    mergedRow combine before r = [] := by
  rw [mergedRow, foldl_merged_eq_nil_iff]
  refine ⟨rfl, fun list member => ?_⟩
  obtain ⟨other, inBefore, rfl⟩ := List.mem_map.mp member
  exact List.getD_eq_default _ _ (past other inBefore)

theorem mergedRow_concat (rows : List (List T)) :
    mergedRow combine (before ++ [rows]) r =
      merged combine (mergedRow combine before r) (rows.getD r []) := by
  rw [mergedRow, List.map_append, List.foldl_append]
  rfl

/-- The row that is stored next. -/
theorem TableHolds.row_here (holds : TableHolds combine before rows table) :
    (table.data rows.length).toList = mergedRow combine before rows.length := by
  rw [ScriptArray.data_of_lt holds.room, holds.held _ holds.room,
    List.getD_eq_default _ _ le_rfl, merged_nil]

/-- The table at hand joins the tables before. -/
theorem TableHolds.nextFile (holds : TableHolds combine before rows table) :
    TableHolds combine (before ++ [rows]) [] table where
  room := Nat.zero_lt_of_lt holds.room
  shorter other member := by
    rcases List.mem_append.mp member with earlier | isLast
    · exact holds.shorter other earlier
    · rw [List.mem_singleton.mp isLast]
      exact holds.room.le
  held r within := by
    rw [holds.held r within, mergedRow_concat, List.getD_nil, merged_nil]

variable [Zero T]

theorem TableHolds.start :
    TableHolds combine [] [] (ScriptArray.ofLength 100000 : ScriptArray (ScriptArray T)) where
  room := by
    rw [ScriptArray.ofLength_n, List.length_nil]
    decide
  shorter _ member := absurd member List.not_mem_nil
  held r _ := by
    rw [ScriptArray.ofLength_Data, List.getD_nil, merged_nil]
    rfl

/-- A table that has grown holds empty rows behind its old end. -/
theorem grow_toList {k : Nat} (within : r < (grow k table).n) :
    ((grow k table).Data r).toList = if r < table.n then (table.Data r).toList else [] := by
  unfold grow at within ⊢
  split at within
  · rename_i full
    rw [ScriptArray.resize_n] at within
    rw [if_pos full, ScriptArray.resize_Data _ within]
    split
    · rfl
    · rfl
  · rename_i room
    rw [if_neg room, if_pos within]

theorem lt_grow {k : Nat} (within : k ≤ table.n) : k < (grow k table).n := by
  unfold grow
  split
  · rw [ScriptArray.resize_n]
    omega
  · omega

theorem le_grow {k : Nat} : table.n ≤ (grow k table).n := by
  unfold grow
  split
  · rw [ScriptArray.resize_n]
    omega
  · exact le_rfl

/-- The row that is stored is merged with the row of its index. -/
theorem TableHolds.store (holds : TableHolds combine before rows table) {stored : ScriptArray T}
    (mergedHere : stored.toList = merged combine (mergedRow combine before rows.length) row) :
    TableHolds combine before (rows ++ [row])
      (grow (rows.length + 1) (assignRow rows.length stored table)) := by
  have length : (assignRow rows.length stored table).n = table.n := rfl
  have assigned : ((table.data rows.length).assign stored).toList = stored.toList := by
    rw [ScriptArray.assign_toList_iff, ← ScriptArray.length_toList,
      ← ScriptArray.length_toList stored, holds.row_here, mergedHere, length_merged]
    exact le_max_left _ _
  have storedAt (r : Nat) (within : r < table.n) :
      ((assignRow rows.length stored table).Data r).toList =
        merged combine (mergedRow combine before r) ((rows ++ [row]).getD r []) := by
    rw [assignRow, ScriptArray.fill_of_lt holds.room]
    dsimp only
    by_cases here : r = rows.length
    · rw [here, Function.update_self, assigned, mergedHere, getD_concat_self]
    · rw [Function.update_of_ne here, holds.held r within, getD_concat_of_ne here]
  have grown : (assignRow rows.length stored table).n ≤
      (grow (rows.length + 1) (assignRow rows.length stored table)).n := le_grow
  rw [length] at grown
  refine ⟨?_, fun other member => (holds.shorter other member).trans grown, fun r within => ?_⟩
  · rw [List.length_append, List.length_singleton]
    exact lt_grow holds.room
  · rw [grow_toList within, length]
    split
    · rename_i old
      exact storedAt r old
    · rename_i new
      have past := not_lt.mp new
      rw [mergedRow_of_le fun other member => (holds.shorter other member).trans past,
        List.getD_eq_default, merged_nil]
      rw [List.length_append, List.length_singleton]
      exact Nat.le_trans holds.room past

end Rows

/-! ### What is written -/

/-- The number of rows of the last file, at which the tables are cut. -/
def lastRows (files : List Table) : Nat :=
  (files.getLast?.map fun file => file.rows.length).getD 0

/-- The tables that are merged for the maxima. -/
def maxTables (atof : List Char → T) (files : List Table) : List (List (List T)) :=
  files.map fun file => numbersOf atof file.rows

/-- The tables that are merged for the minima: only the first file is there with all its fields. -/
def minTables (atof : List Char → T) : List Table → List (List (List T))
  | [] => []
  | file :: files =>
    numbersOf atof file.rows :: files.map fun other => firstsOf (numbersOf atof other.rows)

/-- The lines that are written of merged tables that are cut to some rows. -/
def writtenRows (combine : T → T → T) (tables : List (List (List T))) (k : Nat) : List (List T) :=
  ((List.range k).map (mergedRow combine tables)).filter fun row => !row.isEmpty

theorem maxTables_concat (files : List Table) (file : Table) :
    maxTables atof (files ++ [file]) = maxTables atof files ++ [numbersOf atof file.rows] := by
  unfold maxTables
  rw [List.map_append]
  rfl

theorem minTables_concat {files : List Table} (some : files ≠ []) (file : Table) :
    minTables atof (files ++ [file]) =
      minTables atof files ++ [firstsOf (numbersOf atof file.rows)] := by
  cases files with
  | nil => exact absurd rfl some
  | cons first others =>
    rw [List.cons_append, minTables, List.map_append]
    rfl

theorem lastRows_le {files : List Table} {bound : Nat}
    (shorter : ∀ file ∈ files, file.rows.length ≤ bound) : lastRows files ≤ bound := by
  unfold lastRows
  cases last : files.getLast? with
  | none => exact Nat.zero_le _
  | some file => exact shorter file (List.mem_of_getLast? last)

/-- Each array writes a line unless it is empty. -/
theorem flatMap_fprint (rows : List (ScriptArray T)) :
    rows.flatMap fprint =
      (rows.map ScriptArray.toList).filter fun row => !row.isEmpty := by
  induction rows with
  | nil => rfl
  | cons row rows inductionHypothesis =>
    rw [List.flatMap_cons, List.map_cons, List.filter_cons, inductionHypothesis, fprint]
    have empty : row.toList.isEmpty = true ↔ row.n = 0 := by
      rw [List.isEmpty_iff, ← List.length_eq_zero_iff, ScriptArray.length_toList]
    by_cases none : row.n = 0
    · rw [if_pos none, empty.mpr none]
      rfl
    · rw [if_neg none, if_pos]
      · rfl
      · rw [Bool.not_eq_true', ← Bool.not_eq_true, empty]
        exact none

theorem TableHolds.written [Zero T] {combine : T → T → T} {tables : List (List (List T))}
    {table : ScriptArray (ScriptArray T)} (holds : TableHolds combine tables [] table) {k : Nat}
    (inTable : k ≤ table.n) :
    (table.resize k).toList.flatMap fprint = writtenRows combine tables k := by
  rw [flatMap_fprint, writtenRows]
  congr 1
  rw [ScriptArray.toList, ScriptArray.resize_n, List.map_map]
  refine List.map_congr_left fun r member => ?_
  have within := List.mem_range.mp member
  have old : r < table.n := within.trans_le inTable
  show ((table.resize k).Data r).toList = _
  rw [ScriptArray.resize_Data _ within, if_pos old, holds.held r old, List.getD_nil, merged_nil]

variable [Zero T] [LinearOrder T]

/-! ### Reading -/

/-- A stream that has failed before its end is read for ever. -/
theorem readRows_of_fail (fuel : Nat) (m : MaxMin T) {infile : Infile}
    (fail : infile.fail = true) (eof : infile.eof = false) :
    readRows atof fuel infile m = none := by
  induction fuel generalizing m infile with
  | zero => rfl
  | succ fuel inductionHypothesis =>
    have line : infile.getline 500 = ([], { infile with fail := true }) := by
      unfold Infile.getline
      rw [fail, Bool.or_true, if_pos rfl]
    rw [readRows, line]
    dsimp only
    rw [if_neg (by rw [eof]; exact Bool.false_ne_true)]
    exact inductionHypothesis _ rfl eof

/-- The loop over the rows ends when every row fits its buffer, and stores them all. -/
theorem readRows_eq_some_iff {fuel : Nat} {lines : List (List Char)} {m last : MaxMin T} :
    readRows atof fuel { lines := lines, eof := false, fail := false } m = some last ↔
      (∀ line ∈ lines, line.length < 500) ∧ lines.length < fuel ∧
        last = lines.foldl (fun m line => storeRow atof line m) m := by
  induction lines generalizing fuel m with
  | nil =>
    cases fuel with
    | zero => simp [readRows]
    | succ fuel => simp [readRows, Infile.getline, eq_comm]
  | cons line lines inductionHypothesis =>
    cases fuel with
    | zero => simp [readRows]
    | succ fuel =>
      by_cases short : line.length < 500
      · have turn : readRows atof (fuel + 1)
            { lines := line :: lines, eof := false, fail := false } m =
            readRows atof fuel { lines := lines, eof := false, fail := false }
              (storeRow atof line m) := by
          simp [readRows, Infile.getline, short]
        rw [turn, inductionHypothesis, List.forall_mem_cons, List.foldl_cons, List.length_cons,
          Nat.add_lt_add_iff_right, and_iff_right short]
      · have turn : readRows atof (fuel + 1)
            { lines := line :: lines, eof := false, fail := false } m = none := by
          simp only [readRows, Infile.getline, short, Bool.or_self, if_false, Bool.false_eq_true]
          exact readRows_of_fail fuel _ rfl rfl
        rw [turn, List.forall_mem_cons]
        simp [short]

/-- Behind the header line of a file the stream goes on if the line fitted its buffer. -/
theorem readRows_opened_eq_some_iff {fuel size : Nat} {file : Table} {m last : MaxMin T} :
    readRows atof fuel ((Infile.opened file).getline size).2 m = some last ↔
      file.header.length < size ∧ (∀ row ∈ file.rows, row.length < 500) ∧
        file.rows.length < fuel ∧
        last = file.rows.foldl (fun m line => storeRow atof line m) m := by
  by_cases short : file.header.length < size
  · have behind : ((Infile.opened file).getline size).2 =
        { lines := file.rows, eof := false, fail := false } := by
      simp [Infile.opened, Infile.getline, short]
    rw [behind, readRows_eq_some_iff, and_iff_right short]
  · have failed : ((Infile.opened file).getline size).2 =
        { lines := file.header.drop (size - 1) :: file.rows, eof := false, fail := true } := by
      simp [Infile.opened, Infile.getline, short]
    rw [failed, readRows_of_fail fuel m rfl rfl]
    simp [short]

theorem getline_opened {size : Nat} {file : Table} (short : file.header.length < size) :
    ((Infile.opened file).getline size).1 = file.header := by
  simp [Infile.opened, Infile.getline, short]

/-- The buffer for the header line. -/
def headerSize (m : MaxMin T) : Nat := if m.header = [] then 200 else 500

/-- The variables when a file has been read to its end. -/
def fileRead (atof : List Char → T) (m : MaxMin T) (file : Table) : MaxMin T :=
  let m := { m with k := 0, header := if m.header = [] then file.header else m.header }
  { file.rows.foldl (fun m line => storeRow atof line m) m with first := false }

/-- The loop over the rows of a file ends when its lines fit their buffers. -/
theorem readFile_eq_some_iff {fuel : Nat} {file : Table} {m last : MaxMin T} :
    readFile atof fuel file m = some last ↔
      file.header.length < headerSize m ∧ (∀ row ∈ file.rows, row.length < 500) ∧
        file.rows.length < fuel ∧ last = fileRead atof m file := by
  unfold readFile headerSize fileRead
  dsimp only
  by_cases none : m.header = []
  · rw [if_pos none, if_pos none, if_pos none]
    simp only [Option.map_eq_some_iff, readRows_opened_eq_some_iff]
    constructor
    · rintro ⟨_, ⟨short, rows, enough, rfl⟩, rfl⟩
      rw [getline_opened short]
      exact ⟨short, rows, enough, rfl⟩
    · rintro ⟨short, rows, enough, rfl⟩
      rw [getline_opened short]
      exact ⟨_, ⟨short, rows, enough, rfl⟩, rfl⟩
  · rw [if_neg none, if_neg none, if_neg none]
    simp only [Option.map_eq_some_iff, readRows_opened_eq_some_iff]
    constructor
    · rintro ⟨_, ⟨short, rows, enough, rfl⟩, rfl⟩
      exact ⟨short, rows, enough, rfl⟩
    · rintro ⟨short, rows, enough, rfl⟩
      exact ⟨_, ⟨short, rows, enough, rfl⟩, rfl⟩

/-- The lines of a file fit the buffers, wherever the file stands on the command line. -/
structure Table.Fits (file : Table) : Prop where
  header : file.header.length < 200
  rows : ∀ row ∈ file.rows, row.length < 500

/-- A run over files that fit ends. -/
theorem readFiles_of_fits {fuel : Nat} {files : List Table} (fits : ∀ file ∈ files, file.Fits)
    (enough : ∀ file ∈ files, file.rows.length < fuel) (m : MaxMin T) :
    readFiles atof fuel files m = some (files.foldl (fileRead atof) m) := by
  induction files generalizing m with
  | nil => rfl
  | cons file files inductionHypothesis =>
    have size : 200 ≤ headerSize m := by
      unfold headerSize
      split
      · exact le_rfl
      · decide
    have ended : readFile atof fuel file m = some (fileRead atof m file) :=
      readFile_eq_some_iff.mpr
        ⟨(fits file List.mem_cons_self).header.trans_le size, (fits file List.mem_cons_self).rows,
          enough file List.mem_cons_self, rfl⟩
    rw [readFiles, ended]
    exact inductionHypothesis (fun file member => fits file (List.mem_cons_of_mem _ member))
      (fun file member => enough file (List.mem_cons_of_mem _ member)) _

/-- In a run that ends every row has fitted its buffer. -/
theorem rows_of_readFiles {fuel : Nat} {files : List Table} {m last : MaxMin T}
    (ended : readFiles atof fuel files m = some last) :
    ∀ file ∈ files, ∀ row ∈ file.rows, row.length < 500 := by
  induction files generalizing m with
  | nil => exact fun file member => absurd member List.not_mem_nil
  | cons file files inductionHypothesis =>
    obtain ⟨read, first, others⟩ := Option.bind_eq_some_iff.mp ended
    exact List.forall_mem_cons.mpr
      ⟨(readFile_eq_some_iff.mp first).2.1, inductionHypothesis others⟩

/-- In a run that ends the header line of the first file has fitted its buffer. -/
theorem header_of_readFiles {fuel : Nat} {file : Table} {files : List Table} {last : MaxMin T}
    (ended : readFiles atof fuel (file :: files) MaxMin.start = some last) :
    file.header.length < 200 := by
  obtain ⟨read, first, -⟩ := Option.bind_eq_some_iff.mp ended
  exact (readFile_eq_some_iff.mp first).1

/-! ### The run -/

/-- The rows of the file at hand that are merged for the minima. -/
def minRows (atof : List Char → T) (before : List Table) (lines : List (List Char)) :
    List (List T) :=
  if before = [] then numbersOf atof lines else firstsOf (numbersOf atof lines)

/-- The invariant of the loops: both tables hold what has been read, and `first` is set when no
file is before the one at hand. -/
structure ReadSoFar (atof : List Char → T) (before : List Table) (lines : List (List Char))
    (m : MaxMin T) : Prop where
  k : m.k = lines.length
  first : m.first = true ↔ before = []
  max : TableHolds max (maxTables atof before) (numbersOf atof lines) m.Max
  min : TableHolds min (minTables atof before) (minRows atof before lines) m.Min

section Run

variable {before : List Table} {lines : List (List Char)} {line : List Char} {m : MaxMin T}

omit [Zero T] [LinearOrder T] in
theorem numbersOf_concat (lines : List (List Char)) (line : List Char) :
    numbersOf atof (lines ++ [line]) = numbersOf atof lines ++ [(tokens ',' line).map atof] := by
  unfold numbersOf
  rw [List.map_append]
  rfl

omit [Zero T] [LinearOrder T] in
@[simp]
theorem length_numbersOf (lines : List (List Char)) :
    (numbersOf atof lines).length = lines.length := List.length_map ..

omit [Zero T] [LinearOrder T] in
@[simp]
theorem length_firstsOf (rows : List (List T)) : (firstsOf rows).length = rows.length :=
  List.length_map ..

/-- The first file is stored as it is. -/
theorem ReadSoFar.storeFirst (read : ReadSoFar atof before lines m) (first : m.first = true) :
    ReadSoFar atof before (lines ++ [line]) (storeRow atof line m) := by
  obtain rfl := read.first.mp first
  have splitLine := split_toList atof ',' line
  have max : TableHolds Max.max [] (numbersOf atof lines) m.Max := read.max
  have min : TableHolds Min.min [] (numbersOf atof lines) m.Min := read.min
  have copied : ((assignRow lines.length (split atof ',' line) m.Max).data lines.length).toList =
      (tokens ',' line).map atof := by
    have room := max.room
    have here := max.row_here
    rw [length_numbersOf] at room here
    have length : (m.Max.data lines.length).n = 0 := by
      rw [← ScriptArray.length_toList, here]
      rfl
    have within : lines.length < (assignRow lines.length (split atof ',' line) m.Max).n := room
    rw [ScriptArray.data_of_lt within, assignRow, ScriptArray.fill_of_lt room]
    dsimp only
    rw [Function.update_self, ← splitLine, ScriptArray.assign_toList_iff, length]
    exact Nat.zero_le _
  have alone (combine : T → T → T) {stored : ScriptArray T}
      (same : stored.toList = (tokens ',' line).map atof) :
      stored.toList = merged combine (mergedRow combine [] (numbersOf atof lines).length)
        ((tokens ',' line).map atof) := same.trans (nil_merged _).symm
  have storedMax := max.store (alone _ splitLine)
  have storedMin := min.store (alone _ copied)
  rw [← numbersOf_concat, length_numbersOf] at storedMax storedMin
  unfold storeRow
  dsimp only
  rw [if_pos first, if_pos first, read.k]
  exact
    { k := by rw [List.length_append, List.length_singleton]
      first := read.first
      max := storedMax
      min := storedMin }

/-- The rows of the other files are merged. -/
theorem ReadSoFar.storeMerged (read : ReadSoFar atof before lines m) (later : before ≠ []) :
    ReadSoFar atof before (lines ++ [line]) (storeRow atof line m) := by
  have notFirst : ¬ m.first = true := fun first => later (read.first.mp first)
  have rows : ∀ lines, minRows atof before lines = firstsOf (numbersOf atof lines) :=
    fun lines => if_neg later
  have max := read.max
  have min := read.min
  rw [rows] at min
  have leaves : (split atof ',' (strtokLeaves ',' line)).toList =
      ((tokens ',' line).map atof).take 1 := by
    rw [split_toList, tokens_strtokLeaves, List.map_take]
  have mergedMax := arrayMax_toList (m.Max.data (numbersOf atof lines).length) (split atof ',' line)
  have mergedMin := arrayMin_toList (m.Min.data (firstsOf (numbersOf atof lines)).length)
    (split atof ',' (strtokLeaves ',' line))
  rw [max.row_here, split_toList] at mergedMax
  rw [min.row_here, leaves] at mergedMin
  have storedMax := max.store mergedMax
  have storedMin := min.store mergedMin
  have firsts : firstsOf (numbersOf atof lines) ++ [((tokens ',' line).map atof).take 1] =
      minRows atof before (lines ++ [line]) := by
    rw [rows, numbersOf_concat]
    unfold firstsOf
    rw [List.map_append]
    rfl
  rw [firsts, length_firstsOf, length_numbersOf] at storedMin
  rw [← numbersOf_concat, length_numbersOf] at storedMax
  unfold storeRow
  dsimp only
  rw [if_neg notFirst, if_neg notFirst, read.k]
  exact
    { k := by rw [List.length_append, List.length_singleton]
      first := read.first
      max := storedMax
      min := storedMin }

theorem ReadSoFar.store (read : ReadSoFar atof before lines m) :
    ReadSoFar atof before (lines ++ [line]) (storeRow atof line m) := by
  by_cases first : before = []
  · exact read.storeFirst (read.first.mpr first)
  · exact read.storeMerged first

theorem ReadSoFar.foldl (read : ReadSoFar atof before lines m) (rest : List (List Char)) :
    ReadSoFar atof before (lines ++ rest)
      (rest.foldl (fun m line => storeRow atof line m) m) := by
  induction rest generalizing lines m with
  | nil =>
    rw [List.append_nil]
    exact read
  | cons line rest inductionHypothesis =>
    rw [List.append_cons, List.foldl_cons]
    exact inductionHypothesis read.store

/-- The header line of the output: the first that is not empty. -/
def headerOf (files : List Table) : List Char :=
  ((files.map Table.header).find? fun header => !header.isEmpty).getD []

/-- The invariant between two files. -/
structure FilesRead (atof : List Char → T) (before : List Table) (m : MaxMin T) : Prop where
  k : m.k = lastRows before
  header : m.header = headerOf before
  first : m.first = true ↔ before = []
  max : TableHolds max (maxTables atof before) [] m.Max
  min : TableHolds min (minTables atof before) [] m.Min

theorem FilesRead.start : FilesRead atof [] (MaxMin.start : MaxMin T) where
  k := rfl
  header := rfl
  first := by
    show true = true ↔ _
    simp
  max := TableHolds.start
  min := TableHolds.start

theorem foldl_storeRow_header (rows : List (List Char)) (m : MaxMin T) :
    (rows.foldl (fun m line => storeRow atof line m) m).header = m.header := by
  induction rows generalizing m with
  | nil => rfl
  | cons line rows inductionHypothesis =>
    rw [List.foldl_cons, inductionHypothesis]
    rfl

theorem headerOf_concat (files : List Table) (file : Table) :
    headerOf (files ++ [file]) =
      if headerOf files = [] then file.header else headerOf files := by
  unfold headerOf
  rw [List.map_append, List.find?_append]
  cases found : (files.map Table.header).find? fun header => !header.isEmpty with
  | none =>
    rw [Option.getD_none, if_pos rfl, Option.none_or]
    cases header : file.header with
    | nil => simp [header]
    | cons _ _ => simp [header]
  | some header =>
    have notEmpty : header ≠ [] := by
      have passes := List.find?_some found
      rintro rfl
      cases passes
    rw [Option.getD_some, if_neg notEmpty]
    rfl

omit [Zero T] [LinearOrder T] in
/-- The file at hand joins the files before it. -/
theorem minTables_next (before : List Table) (file : Table) :
    minTables atof before ++ [minRows atof before file.rows] =
      minTables atof (before ++ [file]) := by
  unfold minRows
  by_cases first : before = []
  · rw [if_pos first, first]
    rfl
  · rw [if_neg first, minTables_concat first]

/-- What one more file leaves. -/
theorem FilesRead.file (read : FilesRead atof before m) (file : Table) :
    FilesRead atof (before ++ [file]) (fileRead atof m file) := by
  have none : minRows atof before [] = [] := by
    unfold minRows
    split
    · rfl
    · rfl
  have atStart : ReadSoFar atof before []
      { m with k := 0, header := if m.header = [] then file.header else m.header } :=
    { k := rfl
      first := read.first
      max := read.max
      min := by
        rw [none]
        exact read.min }
  have atEnd := atStart.foldl file.rows
  rw [List.nil_append] at atEnd
  have max := atEnd.max.nextFile
  have min := atEnd.min.nextFile
  rw [← maxTables_concat] at max
  rw [minTables_next] at min
  exact
    { k := by
        rw [lastRows, List.getLast?_concat]
        exact atEnd.k
      header := by
        rw [headerOf_concat, ← read.header]
        exact foldl_storeRow_header _ _
      first := by
        show false = true ↔ _
        simp
      max := max
      min := min }

theorem FilesRead.foldl (read : FilesRead atof before m) (files : List Table) :
    FilesRead atof (before ++ files) (files.foldl (fileRead atof) m) := by
  induction files generalizing before m with
  | nil =>
    rw [List.append_nil]
    exact read
  | cons file files inductionHypothesis =>
    rw [List.append_cons, List.foldl_cons]
    exact inductionHypothesis (read.file file)

end Run

/-! ### The output files -/

/-- The files that are written. -/
def outfiles (atof : List Char → T) (files : List Table) : Outfiles T where
  header := headerOf files
  max := writtenRows max (maxTables atof files) (lastRows files)
  min := writtenRows min (minTables atof files) (lastRows files)

theorem eq_of_readFiles {fuel : Nat} {files : List Table} {m last : MaxMin T}
    (ended : readFiles atof fuel files m = some last) : last = files.foldl (fileRead atof) m := by
  induction files generalizing m with
  | nil => exact (Option.some.inj ended).symm
  | cons file files inductionHypothesis =>
    obtain ⟨read, first, others⟩ := Option.bind_eq_some_iff.mp ended
    rw [List.foldl_cons, ← (readFile_eq_some_iff.mp first).2.2.2]
    exact inductionHypothesis others

omit [Zero T] [LinearOrder T] in
theorem length_mem_maxTables {files : List Table} {file : Table} (member : file ∈ files) :
    ∃ rows ∈ maxTables atof files, rows.length = file.rows.length :=
  ⟨_, List.mem_map_of_mem member, length_numbersOf _⟩

omit [Zero T] [LinearOrder T] in
theorem length_mem_minTables {files : List Table} {file : Table} (member : file ∈ files) :
    ∃ rows ∈ minTables atof files, rows.length = file.rows.length := by
  cases files with
  | nil => exact absurd member List.not_mem_nil
  | cons first others =>
    rcases List.mem_cons.mp member with rfl | other
    · exact ⟨_, List.mem_cons_self, length_numbersOf _⟩
    · refine ⟨_, List.mem_cons_of_mem _ (List.mem_map_of_mem other), ?_⟩
      rw [length_firstsOf, length_numbersOf]

omit [Zero T] [LinearOrder T] in
/-- The tables have room for the rows of the last file. -/
theorem lastRows_le_of_holds {combine : T → T → T} {tables : List (List (List T))}
    {files : List Table} {table : ScriptArray (ScriptArray T)}
    (holds : TableHolds combine tables [] table)
    (tableOf : ∀ {file : Table}, file ∈ files → ∃ rows ∈ tables, rows.length = file.rows.length) :
    lastRows files ≤ table.n := by
  refine lastRows_le fun file member => ?_
  obtain ⟨rows, inTables, same⟩ := tableOf member
  exact same ▸ holds.shorter rows inTables

/-- The program ends with the merged rows if its loops over the files do. -/
theorem maxmin_eq_some_iff {fuel : Nat} {files : List Table} {out : Outfiles T} :
    maxmin atof fuel files = some out ↔
      2 ≤ files.length ∧ (readFiles atof fuel files MaxMin.start).isSome ∧
        out = outfiles atof files := by
  have start : FilesRead atof [] MaxMin.start := FilesRead.start
  have read := start.foldl files
  rw [List.nil_append] at read
  have inMax := lastRows_le_of_holds read.max length_mem_maxTables
  have inMin := lastRows_le_of_holds read.min length_mem_minTables
  unfold maxmin
  split
  · rename_i few
    simp [not_le.mpr few]
  · rename_i several
    rw [and_iff_right (not_lt.mp several)]
    cases ended : readFiles atof fuel files MaxMin.start with
    | none => simp
    | some last =>
      rw [Option.map_some, eq_of_readFiles ended, read.header, read.k, read.max.written inMax,
        read.min.written inMin, Option.some_inj, Option.isSome_some, and_iff_right rfl]
      exact eq_comm

/-- When all lines fit, the program ends and writes the merged rows. -/
theorem writes_of_fits {files : List Table} (several : 2 ≤ files.length)
    (fits : ∀ file ∈ files, file.Fits) : Writes atof files (outfiles atof files) := by
  have enough : ∀ file ∈ files,
      file.rows.length < (files.map fun file => file.rows.length).sum + 1 := fun file member =>
    Nat.lt_succ_of_le (List.le_sum_of_mem (List.mem_map_of_mem member))
  have ended : readFiles atof _ files MaxMin.start = _ :=
    readFiles_of_fits fits enough MaxMin.start
  exact ⟨_, maxmin_eq_some_iff.mpr ⟨several, Option.isSome_iff_exists.mpr ⟨_, ended⟩, rfl⟩⟩

theorem Writes.eq_outfiles {files : List Table} {out : Outfiles T}
    (writes : Writes atof files out) : out = outfiles atof files := by
  obtain ⟨fuel, ended⟩ := writes
  exact (maxmin_eq_some_iff.mp ended).2.2

theorem Writes.rows_fit {files : List Table} {out : Outfiles T}
    (writes : Writes atof files out) : ∀ file ∈ files, ∀ row ∈ file.rows, row.length < 500 := by
  obtain ⟨fuel, ended⟩ := writes
  obtain ⟨last, read⟩ := Option.isSome_iff_exists.mp (maxmin_eq_some_iff.mp ended).2.1
  exact rows_of_readFiles read

theorem Writes.header_fits {file : Table} {files : List Table} {out : Outfiles T}
    (writes : Writes atof (file :: files) out) : file.header.length < 200 := by
  obtain ⟨fuel, ended⟩ := writes
  obtain ⟨last, read⟩ := Option.isSome_iff_exists.mp (maxmin_eq_some_iff.mp ended).2.1
  exact header_of_readFiles read

end Seeker
