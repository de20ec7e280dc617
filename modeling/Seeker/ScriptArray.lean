/-
This file embeds the class `Array` of the scripts' `Array.h`: its storage and its index,
the methods that write, and `operator=`.

An array is its length `n` and its storage `Data`; what stands behind the length is never
read. Arguments are passed by value: the copy shares the storage, and as no method writes a
cell before it has read the same cell of its argument, it is as good as a value of its own.
The destructor frees nothing (it sets `n` to `0` before it asks for `n > 0`).

`fill` and `data` assert that their index is one of the array. Every loop below stays
between `0` and a length, where `realIndex_of_lt` is that assertion.
-/
import Mathlib.Data.List.Basic
import Mathlib.Logic.Function.Basic
import Mathlib.Order.Lattice
import Mathlib.Tactic.Common
import Seeker.Library.Loops

namespace Seeker

/-- `Array<T>`. -/
structure ScriptArray (T : Type*) where
  n : Nat
  Data : Nat → T

namespace ScriptArray

variable {T : Type*}

/-! ### Length, index and cells -/

/-- The elements of an array. -/
def toList (a : ScriptArray T) : List T := (List.range a.n).map a.Data

/-- `real_index`: a negative index counts from the end. -/
def realIndex (a : ScriptArray T) (ind : Int) : Int :=
  if 0 ≤ ind ∧ ind < a.n then ind
  else if ind < 0 ∧ 0 ≤ ind + a.n then ind + a.n
  else -1

/-- `data`, and `operator[]` on the right of an assignment. -/
def data (a : ScriptArray T) (index : Int) : T := a.Data (a.realIndex index).toNat

/-- `fill`, and `operator[]` on the left of an assignment. -/
def fill (a : ScriptArray T) (index : Int) (value : T) : ScriptArray T :=
  { a with Data := Function.update a.Data (a.realIndex index).toNat value }

/-- `for (i = start; i < stop; i++) fill(i, value(i))`, between `0` and the length. -/
def fillRange (a : ScriptArray T) (start stop : Nat) (value : Nat → T) : ScriptArray T :=
  { a with Data := Loops.fill start stop value a.Data }

/-- The assertion of `fill` and `data`. -/
theorem realIndex_of_lt {a : ScriptArray T} {i : Nat} (within : i < a.n) :
    a.realIndex i = i :=
  if_pos ⟨Int.natCast_nonneg i, Int.ofNat_lt.mpr within⟩

theorem data_of_lt {a : ScriptArray T} {i : Nat} (within : i < a.n) : a.data i = a.Data i := by
  rw [data, realIndex_of_lt within, Int.toNat_natCast]

theorem fill_of_lt {a : ScriptArray T} {i : Nat} (within : i < a.n) (value : T) :
    a.fill i value = { a with Data := Function.update a.Data i value } := by
  rw [fill, realIndex_of_lt within, Int.toNat_natCast]

@[simp]
theorem fill_n (a : ScriptArray T) (index : Int) (value : T) : (a.fill index value).n = a.n := rfl

@[simp]
theorem fillRange_n (a : ScriptArray T) (start stop : Nat) (value : Nat → T) :
    (a.fillRange start stop value).n = a.n := rfl

theorem fillRange_Data (a : ScriptArray T) (start stop : Nat) (value : Nat → T) (i : Nat) :
    (a.fillRange start stop value).Data i =
      if start ≤ i ∧ i < stop then value i else a.Data i :=
  Loops.fill_apply start stop value a.Data i

/-- The last element is at the index `-1`. -/
theorem data_neg_one {a : ScriptArray T} (some : 0 < a.n) : a.data (-1) = a.Data (a.n - 1) := by
  have behind : a.realIndex (-1) = (a.n : Int) - 1 := by
    unfold realIndex
    rw [if_neg (by omega), if_pos (by omega)]
    omega
  rw [data, behind]
  congr 1
  omega

@[simp]
theorem length_toList (a : ScriptArray T) : a.toList.length = a.n := by
  rw [toList, List.length_map, List.length_range]

theorem getElem?_toList (a : ScriptArray T) (i : Nat) :
    a.toList[i]? = if i < a.n then some (a.Data i) else none := by
  rw [toList, List.getElem?_map]
  by_cases within : i < a.n
  · rw [List.getElem?_range within, if_pos within]
    rfl
  · rw [List.getElem?_eq_none (by rw [List.length_range]; omega), if_neg within]
    rfl

/-- Two arrays have the same elements when they agree below a common length. -/
theorem toList_eq_iff {a b : ScriptArray T} :
    a.toList = b.toList ↔ a.n = b.n ∧ ∀ i, i < a.n → a.Data i = b.Data i := by
  constructor
  · intro same
    have lengths : a.n = b.n := by
      rw [← length_toList a, same, length_toList]
    refine ⟨lengths, fun i within => ?_⟩
    have cell : a.toList[i]? = b.toList[i]? := by rw [same]
    rw [getElem?_toList, getElem?_toList, if_pos within, if_pos (lengths ▸ within)] at cell
    exact Option.some.inj cell
  · rintro ⟨lengths, cells⟩
    rw [toList, toList, ← lengths]
    exact List.map_congr_left fun i member => cells i (List.mem_range.mp member)

/-! ### Methods that allocate -/

variable [Zero T]

/-- `new T[len]`: every cell is written before it is read. -/
def newStorage : Nat → T := fun _ => 0

/-- `Array(int num)`. -/
def ofLength (num : Nat) : ScriptArray T :=
  { n := num, Data := Loops.fill 0 num (fun _ => 0) newStorage }

/-- The conversion of the number `0` to an array, as in `Data[i] = 0`. -/
instance : Zero (ScriptArray T) := ⟨ofLength 0⟩

/-- `empty`. -/
def empty : ScriptArray T := { n := 0, Data := newStorage }

/-- `resize`. -/
def resize (a : ScriptArray T) (nsize : Nat) : ScriptArray T :=
  if nsize ≠ a.n then
    let len := if a.n > nsize then nsize else a.n
    { n := nsize
      Data := Loops.fill len nsize (fun _ => 0) (Loops.fill 0 len a.Data newStorage) }
  else a

/-- `append(T dat)`. -/
def append (a : ScriptArray T) (dat : T) : ScriptArray T :=
  { n := a.n + 1, Data := Function.update (Loops.fill 0 a.n a.Data newStorage) a.n dat }

/-- `append(Array dat)`. -/
def appendArray (a dat : ScriptArray T) : ScriptArray T :=
  { n := a.n + dat.n
    Data := Loops.fill a.n (a.n + dat.n) (fun i => dat.data (i - a.n))
      (Loops.fill 0 a.n a.Data newStorage) }

/-- `operator=`. -/
def assign (a N : ScriptArray T) : ScriptArray T :=
  if a.n ≥ N.n then a.fillRange 0 N.n fun i => N.data i
  else { n := N.n, Data := Loops.fill 0 N.n (fun i => N.data i) newStorage }

@[simp]
theorem ofLength_n (num : Nat) : (ofLength num : ScriptArray T).n = num := rfl

@[simp]
theorem ofLength_Data (num i : Nat) : (ofLength num : ScriptArray T).Data i = 0 := by
  show Loops.fill 0 num (fun _ => 0) newStorage i = 0
  rw [Loops.fill_apply]
  exact ite_self _

@[simp]
theorem resize_n (a : ScriptArray T) (nsize : Nat) : (a.resize nsize).n = nsize := by
  unfold resize
  split
  · rfl
  · rename_i same
    exact (not_not.mp same).symm

theorem resize_Data (a : ScriptArray T) {nsize i : Nat} (within : i < nsize) :
    (a.resize nsize).Data i = if i < a.n then a.Data i else 0 := by
  unfold resize
  split
  · show Loops.fill _ nsize (fun _ => 0) _ i = _
    rw [Loops.fill_apply, Loops.fill_apply]
    by_cases old : i < a.n
    · rw [if_pos old, if_neg (by split <;> omega), if_pos (by split <;> omega)]
    · rw [if_neg old, if_pos (by split <;> omega)]
  · rename_i same
    rw [if_pos (by omega)]

theorem assign_n (a N : ScriptArray T) : (a.assign N).n = max a.n N.n := by
  unfold assign
  split
  · rw [fillRange_n]
    omega
  · show N.n = _
    omega

theorem assign_Data (a N : ScriptArray T) {i : Nat} (within : i < (a.assign N).n) :
    (a.assign N).Data i = if i < N.n then N.Data i else a.Data i := by
  rw [assign_n] at within
  unfold assign
  split
  · rw [fillRange_Data]
    by_cases copied : i < N.n
    · rw [if_pos ⟨Nat.zero_le i, copied⟩, if_pos copied, data_of_lt copied]
    · rw [if_neg (by omega), if_neg copied]
  · have copied : i < N.n := by omega
    show Loops.fill 0 N.n (fun i => N.data i) newStorage i = _
    rw [Loops.fill_apply, if_pos ⟨Nat.zero_le i, copied⟩, if_pos copied, data_of_lt copied]

/-- An array is the copied one afterwards if and only if it was not longer. -/
theorem assign_toList_iff (a N : ScriptArray T) :
    (a.assign N).toList = N.toList ↔ a.n ≤ N.n := by
  rw [toList_eq_iff, assign_n]
  refine ⟨fun ⟨lengths, _⟩ => by omega, fun shorter => ⟨by omega, fun i within => ?_⟩⟩
  rw [assign_Data a N (by rw [assign_n]; exact within), if_pos (by omega)]

theorem append_Data (a : ScriptArray T) (dat : T) (i : Nat) (within : i < a.n + 1) :
    (a.append dat).Data i = if i < a.n then a.Data i else dat := by
  show Function.update (Loops.fill 0 a.n a.Data newStorage) a.n dat i = _
  by_cases old : i < a.n
  · rw [Function.update_of_ne (Nat.ne_of_lt old), Loops.fill_apply, if_pos ⟨Nat.zero_le i, old⟩,
      if_pos old]
  · have new : i = a.n := by omega
    rw [if_neg old, new, Function.update_self]

theorem append_toList (a : ScriptArray T) (dat : T) :
    (a.append dat).toList = a.toList ++ [dat] := by
  apply List.ext_getElem?
  intro i
  rw [getElem?_toList, List.getElem?_append, getElem?_toList, length_toList]
  show (if i < a.n + 1 then _ else _) = _
  by_cases within : i < a.n + 1
  · rw [if_pos within, append_Data a dat i within]
    by_cases old : i < a.n
    · rw [if_pos old, if_pos old, if_pos old]
    · have last : i - a.n = 0 := by omega
      rw [if_neg old, if_neg old, last]
      rfl
  · rw [if_neg within, if_neg (by omega), List.getElem?_eq_none]
    rw [List.length_singleton]
    omega

theorem appendArray_Data (a dat : ScriptArray T) (i : Nat) (within : i < a.n + dat.n) :
    (a.appendArray dat).Data i = if i < a.n then a.Data i else dat.Data (i - a.n) := by
  show Loops.fill a.n (a.n + dat.n) (fun i => dat.data (i - a.n))
    (Loops.fill 0 a.n a.Data newStorage) i = _
  rw [Loops.fill_apply, Loops.fill_apply]
  by_cases old : i < a.n
  · rw [if_neg (by omega), if_pos ⟨Nat.zero_le i, old⟩, if_pos old]
  · have index : (i : Int) - a.n = (i - a.n : Nat) := by omega
    rw [if_pos ⟨by omega, within⟩, if_neg old, index, data_of_lt (by omega)]

theorem appendArray_toList (a dat : ScriptArray T) :
    (a.appendArray dat).toList = a.toList ++ dat.toList := by
  apply List.ext_getElem?
  intro i
  rw [getElem?_toList, List.getElem?_append, getElem?_toList, getElem?_toList, length_toList]
  show (if i < a.n + dat.n then _ else _) = _
  by_cases within : i < a.n + dat.n
  · rw [if_pos within, appendArray_Data a dat i within]
    by_cases old : i < a.n
    · rw [if_pos old, if_pos old, if_pos old]
    · rw [if_neg old, if_neg old, if_pos (by omega)]
  · rw [if_neg within, if_neg (by omega), if_neg (by omega)]

end ScriptArray

end Seeker
