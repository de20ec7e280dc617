/-
This file settles when `maxmin` does not depend on the order of its input files.

A cell of the maxima is merged in the same way in every order: `max` and `min` choose one
of two elements by a rule that is symmetric and associative. Of the minima this holds for
the first column only: behind it the first file stands alone. The number of rows is that of
the last file. A row that no file has a number for is not written, and a line that is too
long for its buffer keeps the program from ending.
-/
import Mathlib.Data.List.Perm.Basic
import Seeker.MaxMinRows

namespace Seeker

open Ragged

variable {T : Type*}

/-! ### Cells -/

/-- The number that a file has at a row and a column, if it has one. -/
def Table.cell (atof : List Char → T) (file : Table) (r c : Nat) : Option T :=
  (rowOf atof file.rows r)[c]?

/-- The numbers that the files have at a row and a column. -/
def cellsOf (atof : List Char → T) (files : List Table) (r c : Nat) : Set T :=
  {value | ∃ file ∈ files, file.cell atof r c = some value}

/-- The numbers that tables have at a row and a column. -/
def tableCells (tables : List (List (List T))) (r c : Nat) : Set T :=
  {value | ∃ rows ∈ tables, (rows.getD r [])[c]? = some value}

section Cells

variable {atof : List Char → T} {files others : List Table} {tables : List (List (List T))}
  {combine : T → T → T}

/-- A merged row has in each column what is chosen from the tables. -/
theorem getElem?_mergedRow (chooses : Chooses combine) (r c : Nat) (value : T) :
    (mergedRow combine tables r)[c]? = some value ↔
      value ∈ tableCells tables r c ∧
        ∀ other ∈ tableCells tables r c, combine value other = value := by
  have candidates : (tables.map fun rows => rows.getD r []).map (·[c]?) =
      tables.map fun rows => (rows.getD r [])[c]? := List.map_map
  have inTables (other : T) : some other ∈ tables.map (fun rows => (rows.getD r [])[c]?) ↔
      other ∈ tableCells tables r c := List.mem_map
  rw [mergedRow, getElem?_foldl_merged, candidates, List.getElem?_nil,
    chooses.foldl_merge_eq_some_iff, isChosen_none, IsChosen, inTables]
  exact and_congr_right fun _ => forall_congr' fun other => by rw [inTables]

/-- What is merged from the same cells is the same. -/
theorem mergedRow_congr (chooses : Chooses combine) {tables' : List (List (List T))} {r : Nat}
    (same : ∀ c, tableCells tables r c = tableCells tables' r c) :
    mergedRow combine tables r = mergedRow combine tables' r := by
  apply List.ext_getElem?
  intro c
  apply Option.ext
  intro value
  rw [getElem?_mergedRow chooses, getElem?_mergedRow chooses, same]

theorem cellsOf_perm (perm : others.Perm files) (r c : Nat) :
    cellsOf atof others r c = cellsOf atof files r c := by
  ext value
  exact exists_congr fun file => and_congr_left fun _ => perm.mem_iff

theorem tableCells_maxTables (r c : Nat) :
    tableCells (maxTables atof files) r c = cellsOf atof files r c := by
  ext value
  unfold tableCells maxTables cellsOf Table.cell
  simp only [Set.mem_ofPred_eq, List.mem_map, exists_exists_and_eq_and, getD_numbersOf]

/-- A merged row of the maxima is the same in every order. -/
theorem mergedRow_perm (chooses : Chooses combine) (perm : others.Perm files) (r : Nat) :
    mergedRow combine (maxTables atof others) r = mergedRow combine (maxTables atof files) r := by
  refine mergedRow_congr chooses fun c => ?_
  rw [tableCells_maxTables, tableCells_maxTables, cellsOf_perm perm]

theorem mergedRow_ne_nil_iff (r : Nat) :
    mergedRow combine (maxTables atof files) r ≠ [] ↔
      ∃ file ∈ files, tokens ',' (file.rows.getD r []) ≠ [] := by
  rw [Ne, mergedRow, foldl_merged_eq_nil_iff, and_iff_right rfl, List.forall_mem_map, maxTables,
    List.forall_mem_map]
  simp only [getD_numbersOf]
  simp [rowOf]

/-! ### The columns of the minima -/

/-- Behind the first number of each row the files have the same numbers. -/
def TailsAgree (atof : List Char → T) (files : List Table) : Prop :=
  ∀ file ∈ files, ∀ other ∈ files, ∀ r,
    (rowOf atof file.rows r).tail = (rowOf atof other.rows r).tail

theorem mem_tableCells_minTables {file : Table} {r c : Nat} {value : T} :
    value ∈ tableCells (minTables atof (file :: files)) r c ↔
      file.cell atof r c = some value ∨
        c = 0 ∧ ∃ other ∈ files, other.cell atof r 0 = some value := by
  have first (other : Table) : ((firstsOf (numbersOf atof other.rows)).getD r [])[c]? =
      if c = 0 then other.cell atof r 0 else none := by
    rw [getD_firstsOf, getD_numbersOf, List.getElem?_take]
    unfold Table.cell
    by_cases leading : c = 0
    · rw [if_pos (by omega), if_pos leading, leading]
    · rw [if_neg (by omega), if_neg leading]
  have shown : value ∈ tableCells (minTables atof (file :: files)) r c ↔
      ((numbersOf atof file.rows).getD r [])[c]? = some value ∨
        ∃ other ∈ files, ((firstsOf (numbersOf atof other.rows)).getD r [])[c]? = some value := by
    unfold tableCells minTables
    simp
  rw [shown, getD_numbersOf]
  refine or_congr Iff.rfl ?_
  constructor
  · rintro ⟨other, member, found⟩
    rw [first] at found
    split at found
    · rename_i leading
      exact ⟨leading, other, member, found⟩
    · cases found
  · rintro ⟨leading, other, member, found⟩
    refine ⟨other, member, ?_⟩
    rw [first, if_pos leading]
    exact found

/-- Where the tails agree the minima are merged from all cells. -/
theorem TailsAgree.tableCells_minTables (agree : TailsAgree atof files) (r c : Nat) :
    tableCells (minTables atof files) r c = cellsOf atof files r c := by
  cases files with
  | nil => simp [tableCells, minTables, cellsOf]
  | cons file others =>
    ext value
    rw [mem_tableCells_minTables]
    constructor
    · rintro (found | ⟨rfl, other, member, found⟩)
      · exact ⟨file, List.mem_cons_self, found⟩
      · exact ⟨other, List.mem_cons_of_mem _ member, found⟩
    · rintro ⟨other, member, found⟩
      cases c with
      | zero =>
        rcases List.mem_cons.mp member with rfl | behind
        · exact Or.inl found
        · exact Or.inr ⟨rfl, other, behind, found⟩
      | succ c =>
        have tails := agree file List.mem_cons_self other member r
        refine Or.inl ?_
        unfold Table.cell at found ⊢
        rw [← List.getElem?_tail] at found ⊢
        rw [tails]
        exact found

/-- Where the tails agree the minima are merged in the same way as the maxima. -/
theorem TailsAgree.mergedRow_minTables (agree : TailsAgree atof files) (chooses : Chooses combine)
    (r : Nat) :
    mergedRow combine (minTables atof files) r = mergedRow combine (maxTables atof files) r := by
  refine mergedRow_congr chooses fun c => ?_
  rw [agree.tableCells_minTables, tableCells_maxTables]

/-- A list of one element changes no more than the first of those it is merged with. -/
theorem tail_merged (left : List T) {right : List T} (short : right.length ≤ 1) :
    (merged combine left right).tail = left.tail := by
  match left, right with
  | [], [] => rfl
  | [], [_] => rfl
  | [], _ :: _ :: _ => exact absurd short (by simp)
  | left, [] => rw [merged_nil]
  | _ :: left, [_] =>
    rw [merged, merged_nil]
    rfl
  | _ :: _, _ :: _ :: _ => exact absurd short (by simp)

/-- Behind their first number the rows of the minima are those of the first file. -/
theorem tail_mergedRow_minTables (file : Table) (r : Nat) :
    (mergedRow combine (minTables atof (file :: files)) r).tail =
      (rowOf atof file.rows r).tail := by
  have kept (others : List Table) (start : List T) :
      ((others.map fun other => (firstsOf (numbersOf atof other.rows)).getD r []).foldl
        (merged combine) start).tail = start.tail := by
    induction others generalizing start with
    | nil => rfl
    | cons other others inductionHypothesis =>
      rw [List.map_cons, List.foldl_cons, inductionHypothesis, tail_merged]
      rw [getD_firstsOf, List.length_take]
      exact Nat.min_le_left _ _
  unfold mergedRow minTables
  rw [List.map_cons, List.map_map, List.foldl_cons, nil_merged, getD_numbersOf]
  exact kept files _

variable [LinearOrder T]

theorem getElem?_mergedRow_max (r c : Nat) (value : T) :
    (mergedRow max (maxTables atof files) r)[c]? = some value ↔
      IsGreatest (cellsOf atof files r c) value := by
  rw [getElem?_mergedRow chooses_max, tableCells_maxTables, IsGreatest]
  exact and_congr_right fun _ => forall₂_congr fun _ _ => max_eq_left_iff

theorem getElem?_mergedRow_min (r c : Nat) (value : T) :
    (mergedRow min (maxTables atof files) r)[c]? = some value ↔
      IsLeast (cellsOf atof files r c) value := by
  rw [getElem?_mergedRow chooses_min, tableCells_maxTables, IsLeast]
  exact and_congr_right fun _ => forall₂_congr fun _ _ => min_eq_left_iff

end Cells

/-! ### Rows -/

section Rows

variable {atof : List Char → T} {files : List Table} {tables : List (List (List T))}
  {combine : T → T → T} {k rows : Nat}

theorem length_writtenRows_le : (writtenRows combine tables k).length ≤ k := by
  refine (List.length_filter_le _ _).trans ?_
  rw [List.length_map, List.length_range]

theorem lastRows_concat (file : Table) : lastRows (files ++ [file]) = file.rows.length := by
  rw [lastRows, List.getLast?_concat]
  rfl

/-- All rows are written when each has a number in some table. -/
theorem writtenRows_eq (numbers : ∀ r, r < k → mergedRow combine tables r ≠ []) :
    writtenRows combine tables k = (List.range k).map (mergedRow combine tables) := by
  rw [writtenRows, List.filter_eq_self]
  intro row member
  obtain ⟨r, within, rfl⟩ := List.mem_map.mp member
  rw [Bool.not_eq_true', ← Bool.not_eq_true, List.isEmpty_iff]
  exact numbers r (List.mem_range.mp within)

/-- All rows are written only when each has a number in some table. -/
theorem mergedRow_ne_nil_of_all (all : (writtenRows combine tables k).length = k) {r : Nat}
    (within : r < k) : mergedRow combine tables r ≠ [] := by
  have kept : (writtenRows combine tables k).length =
      ((List.range k).map (mergedRow combine tables)).length := by
    rw [all, List.length_map, List.length_range]
  have passes := List.length_filter_eq_length_iff.mp kept _
    (List.mem_map_of_mem (List.mem_range.mpr within))
  rw [Bool.not_eq_true', ← Bool.not_eq_true, List.isEmpty_iff] at passes
  exact passes

theorem lastRows_eq (nonempty : files ≠ []) (same : ∀ file ∈ files, file.rows.length = rows) :
    lastRows files = rows := by
  obtain ⟨init, last, rfl⟩ := (List.eq_nil_or_concat files).resolve_left nonempty
  rw [List.concat_eq_append] at same ⊢
  rw [lastRows_concat]
  exact same last (List.mem_append_right _ (List.mem_singleton_self last))

/-- The rows that are written, when each below the cut has a number. -/
theorem getD_writtenRows (numbers : ∀ r, r < k → mergedRow combine tables r ≠ []) {r : Nat}
    (within : r < k) : (writtenRows combine tables k).getD r [] = mergedRow combine tables r := by
  have length : ((List.range k).map (mergedRow combine tables)).length = k := by
    rw [List.length_map, List.length_range]
  rw [writtenRows_eq numbers, List.getD_eq_getElem _ _ (by rw [length]; exact within),
    List.getElem_map, List.getElem_range]

theorem getD_writtenRows_of_le {r : Nat} (past : k ≤ r) :
    (writtenRows combine tables k).getD r [] = [] :=
  List.getD_eq_default _ _ (length_writtenRows_le.trans past)

end Rows

/-! ### The tables in any order -/

variable [Zero T] [LinearOrder T] (atof : List Char → T) (files : List Table)

/-- The output tables have as many rows as the longest input, and each of their cells is the
maximum or the minimum over all inputs that have it. -/
structure IsMerge (out : Outfiles T) : Prop where
  maxRows : IsGreatest {n | ∃ file ∈ files, file.rows.length = n} out.max.length
  minRows : IsGreatest {n | ∃ file ∈ files, file.rows.length = n} out.min.length
  maxCells : ∀ r c value, (out.max.getD r [])[c]? = some value ↔
    IsGreatest (cellsOf atof files r c) value
  minCells : ∀ r c value, (out.min.getD r [])[c]? = some value ↔
    IsLeast (cellsOf atof files r c) value

/-- The program merges the files, and in every other order it writes the same tables. -/
def MergesInAnyOrder : Prop :=
  ∃ out, Writes atof files out ∧ IsMerge atof files out ∧
    ∀ others : List Table, others.Perm files →
      ∃ out', Writes atof others out' ∧ out'.max = out.max ∧ out'.min = out.min

/-- In every order the program writes the same header line. -/
def SameHeader : Prop :=
  ∀ others : List Table, others.Perm files →
    ∀ out out', Writes atof files out → Writes atof others out' → out'.header = out.header

/-- All lines fit their buffers, all files have the same number of rows, every row has a number in
some file, and behind the first number of a row the files have the same numbers. -/
structure Regular : Prop where
  fits : ∀ file ∈ files, file.Fits
  sameRows : ∀ file ∈ files, ∀ other ∈ files, file.rows.length = other.rows.length
  number : ∀ file ∈ files, ∀ r, r < file.rows.length →
    ∃ other ∈ files, tokens ',' (other.rows.getD r []) ≠ []
  tails : TailsAgree atof files

/-- No two header lines differ, but for empty ones. -/
def HeadersAgree : Prop :=
  ∀ file ∈ files, ∀ other ∈ files, file.header ≠ [] → other.header ≠ [] →
    file.header = other.header

variable {atof files}

/-! ### The condition -/

/-- Every file may stand last and first. -/
theorem exists_perm_concat {file : Table} (member : file ∈ files) :
    ∃ others, (file :: others).Perm files ∧ (others ++ [file]).Perm files := by
  obtain ⟨before, behind, rfl⟩ := List.append_of_mem member
  exact ⟨before ++ behind, List.perm_middle.symm,
    (List.perm_append_singleton file _).trans List.perm_middle.symm⟩

/-- The written minima have the numbers of the first file behind their first column. -/
theorem Writes.tail_min {file : Table} {others : List Table} {out : Outfiles T}
    (writes : Writes atof (file :: others) out)
    (all : out.min.length = lastRows (file :: others)) {r : Nat} (within : r < out.min.length) :
    (out.min.getD r []).tail = (rowOf atof file.rows r).tail := by
  have written : out.min = writtenRows min (minTables atof (file :: others))
      (lastRows (file :: others)) := congrArg Outfiles.min writes.eq_outfiles
  rw [all] at within
  rw [written] at all ⊢
  rw [getD_writtenRows (fun _ inside => mergedRow_ne_nil_of_all all inside) within,
    tail_mergedRow_minTables]

/-- What merges in any order is regular. -/
theorem MergesInAnyOrder.regular (nonempty : files ≠ []) (merges : MergesInAnyOrder atof files) :
    Regular atof files := by
  obtain ⟨out, writes, isMerge, anyOrder⟩ := merges
  have longest : ∀ file ∈ files, file.rows.length ≤ out.max.length := fun file member =>
    isMerge.maxRows.2 ⟨file, member, rfl⟩
  have written : out.max = writtenRows max (maxTables atof files) (lastRows files) :=
    congrArg Outfiles.max writes.eq_outfiles
  have sameRows : ∀ file ∈ files, file.rows.length = out.max.length := by
    intro file member
    obtain ⟨others, -, isLast⟩ := exists_perm_concat member
    obtain ⟨out', writes', same, -⟩ := anyOrder _ isLast
    apply le_antisymm (longest file member)
    have atLast : lastRows (others ++ [file]) = file.rows.length := lastRows_concat file
    rw [← same, writes'.eq_outfiles, ← atLast]
    exact length_writtenRows_le
  have rows := lastRows_eq nonempty sameRows
  refine
    { fits := fun file member => ⟨?_, writes.rows_fit file member⟩
      sameRows := fun file member other otherMember =>
        (sameRows file member).trans (sameRows other otherMember).symm
      number := fun file member r within => ?_
      tails := fun file member other otherMember r => ?_ }
  · obtain ⟨others, isFirst, -⟩ := exists_perm_concat member
    obtain ⟨out', writes', -⟩ := anyOrder _ isFirst
    exact writes'.header_fits
  · have all : (writtenRows max (maxTables atof files) (lastRows files)).length =
        lastRows files := by
      rw [← written, rows]
    have inRows : r < lastRows files := by
      rw [rows, ← sameRows file member]
      exact within
    exact (mergedRow_ne_nil_iff r).mp (mergedRow_ne_nil_of_all all inRows)
  · have cut : out.min.length = out.max.length :=
      le_antisymm (isMerge.maxRows.2 isMerge.minRows.1) (isMerge.minRows.2 isMerge.maxRows.1)
    have tail : ∀ each ∈ files, r < out.max.length →
        (out.min.getD r []).tail = (rowOf atof each.rows r).tail := by
      intro each inFiles within
      obtain ⟨others, isFirst, -⟩ := exists_perm_concat inFiles
      obtain ⟨out', writes', -, same⟩ := anyOrder _ isFirst
      have last : lastRows (each :: others) = out.max.length :=
        lastRows_eq (List.cons_ne_nil _ _) fun other inOthers =>
          sameRows other (isFirst.mem_iff.mp inOthers)
      rw [← same] at cut ⊢
      exact writes'.tail_min (cut.trans last.symm) (cut ▸ within)
    by_cases within : r < out.max.length
    · exact (tail file member within).symm.trans (tail other otherMember within)
    · have none : ∀ each ∈ files, rowOf atof each.rows r = [] := by
        intro each inFiles
        have past : each.rows.length ≤ r := (sameRows each inFiles).trans_le (not_lt.mp within)
        rw [rowOf, List.getD_eq_default _ _ past]
        rfl
      rw [none file member, none other otherMember]

omit [Zero T] [LinearOrder T] in
/-- All files of regular ones have as many rows as the last. -/
theorem Regular.rows_eq (regular : Regular atof files) :
    ∀ file ∈ files, file.rows.length = lastRows files := by
  intro file member
  have nonempty : files ≠ [] := List.ne_nil_of_mem member
  exact (lastRows_eq nonempty fun other otherMember =>
    regular.sameRows other otherMember file member).symm

omit [Zero T] [LinearOrder T] in
theorem Regular.mergedRow_ne_nil (nonempty : files ≠ []) (regular : Regular atof files)
    (combine : T → T → T) {r : Nat} (within : r < lastRows files) :
    mergedRow combine (maxTables atof files) r ≠ [] := by
  obtain ⟨first, member⟩ := List.exists_mem_of_ne_nil files nonempty
  refine (mergedRow_ne_nil_iff r).mpr (regular.number first member r ?_)
  rw [regular.rows_eq first member]
  exact within

omit [Zero T] [LinearOrder T] in
/-- The minima of regular files are merged as their maxima are. -/
theorem Regular.writtenRows_minTables (regular : Regular atof files) {combine : T → T → T}
    (chooses : Chooses combine) :
    writtenRows combine (minTables atof files) (lastRows files) =
      writtenRows combine (maxTables atof files) (lastRows files) := by
  unfold writtenRows
  congr 1
  exact List.map_congr_left fun r _ => regular.tails.mergedRow_minTables chooses r

omit [Zero T] in
/-- The files that are written of regular ones are their merge. -/
theorem Regular.isMerge (nonempty : files ≠ []) (regular : Regular atof files) :
    IsMerge atof files (outfiles atof files) := by
  obtain ⟨first, member⟩ := List.exists_mem_of_ne_nil files nonempty
  have numbers (combine : T → T → T) : ∀ r, r < lastRows files →
      mergedRow combine (maxTables atof files) r ≠ [] := fun _ within =>
    regular.mergedRow_ne_nil nonempty combine within
  have greatest (combine : T → T → T) :
      IsGreatest {n | ∃ file ∈ files, file.rows.length = n}
        (writtenRows combine (maxTables atof files) (lastRows files)).length := by
    rw [writtenRows_eq (numbers combine), List.length_map, List.length_range]
    refine ⟨⟨first, member, regular.rows_eq first member⟩, ?_⟩
    rintro n ⟨file, inFiles, rfl⟩
    exact (regular.rows_eq file inFiles).le
  have row (combine : T → T → T) (r : Nat) :
      (writtenRows combine (maxTables atof files) (lastRows files)).getD r [] =
        mergedRow combine (maxTables atof files) r := by
    by_cases within : r < lastRows files
    · exact getD_writtenRows (numbers combine) within
    · have past := not_lt.mp within
      rw [getD_writtenRows_of_le past, mergedRow_of_le]
      intro rows inTables
      obtain ⟨file, inFiles, rfl⟩ := List.mem_map.mp inTables
      rw [length_numbersOf, regular.rows_eq file inFiles]
      exact past
  have minima : (outfiles atof files).min =
      writtenRows min (maxTables atof files) (lastRows files) :=
    regular.writtenRows_minTables chooses_min
  refine
    { maxRows := greatest max
      minRows := ?_
      maxCells := fun r c value => ?_
      minCells := fun r c value => ?_ }
  · rw [minima]
    exact greatest min
  · show ((writtenRows max (maxTables atof files) (lastRows files)).getD r [])[c]? = some value ↔ _
    rw [row, getElem?_mergedRow_max]
  · rw [minima, row, getElem?_mergedRow_min]

omit [Zero T] [LinearOrder T] in
/-- Regularity does not look at the order. -/
theorem Regular.perm {others : List Table} (regular : Regular atof files)
    (perm : others.Perm files) : Regular atof others where
  fits file member := regular.fits file (perm.mem_iff.mp member)
  sameRows file member other otherMember :=
    regular.sameRows file (perm.mem_iff.mp member) other (perm.mem_iff.mp otherMember)
  number file member r within := by
    obtain ⟨other, inFiles, some⟩ := regular.number file (perm.mem_iff.mp member) r within
    exact ⟨other, perm.mem_iff.mpr inFiles, some⟩
  tails file member other otherMember :=
    regular.tails file (perm.mem_iff.mp member) other (perm.mem_iff.mp otherMember)

omit [Zero T] [LinearOrder T] in
/-- The written rows of regular files are the same in every order. -/
theorem Regular.writtenRows_perm {others : List Table} (nonempty : files ≠ [])
    (regular : Regular atof files) (perm : others.Perm files) {combine : T → T → T}
    (chooses : Chooses combine) :
    writtenRows combine (maxTables atof others) (lastRows others) =
      writtenRows combine (maxTables atof files) (lastRows files) := by
  have otherNonempty : others ≠ [] := by
    rintro rfl
    exact nonempty perm.nil_eq.symm
  have rows : lastRows others = lastRows files :=
    lastRows_eq otherNonempty fun file member => regular.rows_eq file (perm.mem_iff.mp member)
  rw [writtenRows, writtenRows, rows]
  congr 1
  exact List.map_congr_left fun r _ => mergedRow_perm chooses perm r

/-- What is regular merges in any order. -/
theorem Regular.mergesInAnyOrder (several : 2 ≤ files.length) (regular : Regular atof files) :
    MergesInAnyOrder atof files := by
  have nonempty : files ≠ [] := by
    rintro rfl
    exact absurd several (by decide)
  refine ⟨outfiles atof files, writes_of_fits several regular.fits, regular.isMerge nonempty,
    fun others perm => ⟨outfiles atof others, ?_, ?_, ?_⟩⟩
  · exact writes_of_fits (perm.length_eq ▸ several)
      fun file member => regular.fits file (perm.mem_iff.mp member)
  · exact regular.writtenRows_perm nonempty perm chooses_max
  · show writtenRows min (minTables atof others) _ = writtenRows min (minTables atof files) _
    rw [(regular.perm perm).writtenRows_minTables chooses_min,
      regular.writtenRows_minTables chooses_min]
    exact regular.writtenRows_perm nonempty perm chooses_min

/-! ### The header line -/

/-- The header line of the output is that of a file, or all are empty. -/
theorem headerOf_cases (files : List Table) :
    (headerOf files = [] ∧ ∀ file ∈ files, file.header = []) ∨
      ∃ file ∈ files, file.header ≠ [] ∧ headerOf files = file.header := by
  unfold headerOf
  cases found : (files.map Table.header).find? fun header => !header.isEmpty with
  | none =>
    refine Or.inl ⟨rfl, fun file member => ?_⟩
    have passedOver := List.find?_eq_none.mp found _ (List.mem_map_of_mem member)
    simpa using passedOver
  | some header =>
    obtain ⟨file, member, rfl⟩ := List.mem_map.mp (List.mem_of_find?_eq_some found)
    have passes := List.find?_some found
    exact Or.inr ⟨file, member, by simpa using passes, rfl⟩

/-- Header lines that agree give the same header line in every order. -/
theorem HeadersAgree.headerOf_perm {others : List Table} (agree : HeadersAgree files)
    (perm : others.Perm files) : headerOf others = headerOf files := by
  rcases headerOf_cases others with ⟨none, allEmpty⟩ | ⟨other, otherMember, someOther, isOther⟩
  · rcases headerOf_cases files with ⟨none', -⟩ | ⟨file, member, some, -⟩
    · rw [none, none']
    · exact absurd (allEmpty file (perm.mem_iff.mpr member)) some
  · rcases headerOf_cases files with ⟨-, allEmpty⟩ | ⟨file, member, some, isFile⟩
    · exact absurd (allEmpty other (perm.mem_iff.mp otherMember)) someOther
    · rw [isOther, isFile]
      exact agree other (perm.mem_iff.mp otherMember) file member someOther some

theorem headerOf_cons {file : Table} (some : file.header ≠ []) :
    headerOf (file :: files) = file.header := by
  simp [headerOf, some]

/-- The header line does not depend on the order when the header lines agree. -/
theorem MergesInAnyOrder.sameHeader_iff (merges : MergesInAnyOrder atof files) :
    SameHeader atof files ↔ HeadersAgree files := by
  constructor
  · intro same file member other otherMember some someOther
    obtain ⟨out, writes, -, anyOrder⟩ := merges
    have leads {file : Table} (member : file ∈ files) (some : file.header ≠ []) :
        file.header = out.header := by
      obtain ⟨others, isFirst, -⟩ := exists_perm_concat member
      obtain ⟨out', writes', -⟩ := anyOrder _ isFirst
      rw [← same _ isFirst out out' writes writes', writes'.eq_outfiles]
      exact (headerOf_cons some).symm
    rw [leads member some, leads otherMember someOther]
  · intro agree others perm out out' writes writes'
    rw [writes.eq_outfiles, writes'.eq_outfiles]
    exact agree.headerOf_perm perm

/-! ### When the order does not matter -/

/-- The tables are merged, and in the same way in every order, if and only if the files are
regular; the header line is then the same as well if and only if the header lines agree. -/
theorem maxmin_order_free_iff (atof : List Char → T) (files : List Table)
    (several : 2 ≤ files.length) :
    (MergesInAnyOrder atof files ↔ Regular atof files) ∧
      (MergesInAnyOrder atof files ∧ SameHeader atof files ↔
        Regular atof files ∧ HeadersAgree files) := by
  have nonempty : files ≠ [] := by
    rintro rfl
    exact absurd several (by decide)
  have tables : MergesInAnyOrder atof files ↔ Regular atof files :=
    ⟨fun merges => merges.regular nonempty, fun regular => regular.mergesInAnyOrder several⟩
  refine ⟨tables, ?_⟩
  constructor
  · rintro ⟨merges, same⟩
    exact ⟨tables.mp merges, merges.sameHeader_iff.mp same⟩
  · rintro ⟨regular, agree⟩
    have merges := tables.mpr regular
    exact ⟨merges, merges.sameHeader_iff.mpr agree⟩

/-- Two files of one row each, whose second fields are the same. -/
def evenFiles : List Table :=
  [{ header := ['x'], rows := [['1', ',', '9']] }, { header := ['x'], rows := [['2', ',', '9']] }]

/-- They are merged in any order. -/
theorem maxmin_order_free_iff_two_files : MergesInAnyOrder leadingDigits evenFiles := by
  refine (maxmin_order_free_iff leadingDigits evenFiles (by decide)).1.mpr
    ⟨?_, by decide, ?_, ?_⟩
  · intro file member
    have each : ∀ file ∈ evenFiles,
        file.header.length < 200 ∧ ∀ row ∈ file.rows, row.length < 500 := by decide
    exact ⟨(each file member).1, (each file member).2⟩
  · intro file member r within
    have single : file.rows.length = 1 := by
      have each : ∀ file ∈ evenFiles, file.rows.length = 1 := by decide
      exact each file member
    obtain rfl : r = 0 := by omega
    exact ⟨{ header := ['x'], rows := [['1', ',', '9']] }, by simp [evenFiles], by decide⟩
  · have tail : ∀ file ∈ evenFiles, ∀ r,
        (rowOf leadingDigits file.rows r).tail = if r = 0 then [9] else [] := by
      intro file member r
      have rows : file.rows = [['1', ',', '9']] ∨ file.rows = [['2', ',', '9']] := by
        simp only [evenFiles, List.mem_cons, List.not_mem_nil, or_false] at member
        rcases member with rfl | rfl
        · exact Or.inl rfl
        · exact Or.inr rfl
      cases r with
      | zero => rcases rows with same | same <;> rw [same] <;> decide
      | succ r => rcases rows with same | same <;> rw [same] <;> rfl
    intro file member other otherMember r
    rw [tail file member, tail other otherMember]

/-- A file with the row `1,9` and one with the row `2,3`: of the second fields the smaller one is
only found when its file stands first. -/
theorem maxmin_order_matters :
    ¬ MergesInAnyOrder leadingDigits
      [{ header := ['x'], rows := [['1', ',', '9']] },
        { header := ['x'], rows := [['2', ',', '3']] }] := by
  intro merges
  have regular := merges.regular (List.cons_ne_nil _ _)
  have same := regular.tails { header := ['x'], rows := [['1', ',', '9']] } (by simp)
    { header := ['x'], rows := [['2', ',', '3']] } (by simp) 0
  exact absurd same (by decide)

end Seeker
