/-
This file embeds the arithmetic of the class `Array` of `Array.h` and compares it with the
elementwise result under zero padding.

The operators `+`, `-` and `*` have a loop for the elements that only the longer operand
has. Where that is the argument, the loop runs from its length up to the own length and
does nothing, and the elements stay zero; for `*` they are to be zero. `-=` copies them
where `-` would negate them. `operator=` keeps the own length when it is greater.
-/
import Mathlib.Algebra.Order.Ring.Int
import Seeker.Library.Ragged
import Seeker.ScriptArray

namespace Seeker

open Ragged

namespace ScriptArray

variable {T : Type*}

/-! ### Operators that return a new array -/

section Binary

variable [Zero T]

/-- The elements of `ret` are those of `both` where both arrays have an element, and those of
`longer` where only the array itself has one. The last loop is that of `operator+`,
`operator-`, `operator*` and `operator/`: its bounds are those of the other branch. -/
def binary (both : T → T → T) (longer shorter : T → T) (a A : ScriptArray T) : ScriptArray T :=
  let len := if a.n ≥ A.n then a.n else A.n
  let ret := ofLength len
  if a.n ≥ A.n then
    (ret.fillRange 0 A.n fun i => both (a.Data i) (A.data i)).fillRange A.n a.n
      fun i => longer (a.Data i)
  else
    (ret.fillRange 0 a.n fun i => both (a.Data i) (A.data i)).fillRange A.n a.n
      fun i => shorter (A.data i)

/-- `operator+(Array)`. -/
def add [Add T] : ScriptArray T → ScriptArray T → ScriptArray T :=
  binary (fun x y => x + y) (fun x => x) (fun y => y)

/-- `operator-(Array)`. -/
def sub [Sub T] : ScriptArray T → ScriptArray T → ScriptArray T :=
  binary (fun x y => x - y) (fun x => x) (fun y => 0 - y)

/-- `operator*(Array)`. -/
def mul [Mul T] : ScriptArray T → ScriptArray T → ScriptArray T :=
  binary (fun x y => x * y) (fun _ => 0) (fun _ => 0)

end Binary

/-! ### Operators with a number -/

section Scalar

variable [Zero T]

/-- The common body of the operators with a number. -/
def scalar (f : T → T) (a : ScriptArray T) : ScriptArray T :=
  (ofLength a.n).fillRange 0 a.n fun i => f (a.Data i)

/-- `operator-(T)`. -/
def subScalar [Sub T] (a : ScriptArray T) (B : T) : ScriptArray T := scalar (fun x => x - B) a

/-- `operator*(T)`. -/
def mulScalar [Mul T] (a : ScriptArray T) (B : T) : ScriptArray T := scalar (fun x => x * B) a

/-- `operator/(T)`. -/
def divScalar [Div T] [DecidableEq T] (a : ScriptArray T) (B : T) : ScriptArray T :=
  scalar (fun x => if B ≠ 0 then x / B else 0) a

theorem scalar_Data (f : T → T) {a : ScriptArray T} {i : Nat} (within : i < a.n) :
    (scalar f a).Data i = f (a.Data i) := by
  rw [scalar, fillRange_Data, if_pos ⟨Nat.zero_le i, within⟩]

end Scalar

/-! ### Operators that write to their own array -/

section Compound

variable [Zero T]

/-- The two branches of `operator+=` and `operator-=`. -/
def compound (both : T → T → T) (a A : ScriptArray T) : ScriptArray T :=
  if a.n ≥ A.n then a.fillRange 0 A.n fun i => both (a.Data i) (A.data i)
  else
    { n := A.n
      Data := Loops.fill a.n A.n (fun i => A.data i)
        (Loops.fill 0 a.n (fun i => both (a.Data i) (A.data i)) newStorage) }

/-- `operator+=`. -/
def addAssign [Add T] : ScriptArray T → ScriptArray T → ScriptArray T :=
  compound fun x y => x + y

/-- `operator-=`. -/
def subAssign [Sub T] : ScriptArray T → ScriptArray T → ScriptArray T :=
  compound fun x y => x - y

/-- `operator*=(Array)`. -/
def mulAssign [Mul T] (a A : ScriptArray T) : ScriptArray T :=
  if a.n ≥ A.n then a.fillRange 0 a.n fun i => if i < A.n then a.Data i * A.data i else 0
  else
    { n := A.n
      Data := Loops.fill a.n A.n (fun _ => 0)
        (Loops.fill 0 a.n (fun i => a.Data i * A.data i) newStorage) }

end Compound

/-! ### What the operators return -/

section Cells

variable [Zero T] {both : T → T → T} {longer shorter : T → T} {a A : ScriptArray T} {i : Nat}

theorem binary_n : (binary both longer shorter a A).n = max a.n A.n := by
  unfold binary
  dsimp only
  split
  · show a.n = _
    omega
  · show A.n = _
    omega

/-- The elements that only the argument has are zero. -/
theorem binary_Data :
    (binary both longer shorter a A).Data i =
      if i < a.n then if i < A.n then both (a.Data i) (A.Data i) else longer (a.Data i) else 0 := by
  unfold binary
  dsimp only
  split
  · rw [fillRange_Data, fillRange_Data, ofLength_Data]
    by_cases own : i < a.n
    · by_cases other : i < A.n
      · rw [if_neg (by omega), if_pos ⟨Nat.zero_le i, other⟩, if_pos own, if_pos other,
          data_of_lt other]
      · rw [if_pos ⟨by omega, own⟩, if_pos own, if_neg other]
    · rw [if_neg (by omega), if_neg (by omega), if_neg own]
  · rw [fillRange_Data, fillRange_Data, ofLength_Data, if_neg (by omega)]
    by_cases own : i < a.n
    · have other : i < A.n := by omega
      rw [if_pos ⟨Nat.zero_le i, own⟩, if_pos own, if_pos other, data_of_lt other]
    · rw [if_neg (by omega), if_neg own]

theorem compound_n : (compound both a A).n = max a.n A.n := by
  unfold compound
  split
  · rw [fillRange_n]
    omega
  · show A.n = _
    omega

/-- The elements that only the argument has are copied. -/
theorem compound_Data (within : i < max a.n A.n) :
    (compound both a A).Data i =
      if i < a.n then if i < A.n then both (a.Data i) (A.Data i) else a.Data i
      else A.Data i := by
  unfold compound
  split
  · rw [fillRange_Data, if_pos (show i < a.n by omega)]
    by_cases other : i < A.n
    · rw [if_pos ⟨Nat.zero_le i, other⟩, if_pos other, data_of_lt other]
    · rw [if_neg (by omega), if_neg other]
  · have other : i < A.n := by omega
    show Loops.fill a.n A.n (fun i => A.data i)
      (Loops.fill 0 a.n (fun i => both (a.Data i) (A.data i)) newStorage) i = _
    rw [Loops.fill_apply, Loops.fill_apply, data_of_lt other]
    by_cases own : i < a.n
    · rw [if_neg (by omega), if_pos ⟨Nat.zero_le i, own⟩, if_pos own, if_pos other]
    · rw [if_pos ⟨by omega, other⟩, if_neg own]

theorem mulAssign_n [Mul T] : (a.mulAssign A).n = max a.n A.n := by
  unfold mulAssign
  split
  · rw [fillRange_n]
    omega
  · show A.n = _
    omega

theorem mulAssign_Data [Mul T] (within : i < max a.n A.n) :
    (a.mulAssign A).Data i = if i < a.n then if i < A.n then a.Data i * A.Data i else 0 else 0 := by
  unfold mulAssign
  split
  · have own : i < a.n := by omega
    rw [fillRange_Data, if_pos ⟨Nat.zero_le i, own⟩, if_pos own]
    by_cases other : i < A.n
    · rw [if_pos other, if_pos other, data_of_lt other]
    · rw [if_neg other, if_neg other]
  · have other : i < A.n := by omega
    show Loops.fill a.n A.n (fun _ => 0)
      (Loops.fill 0 a.n (fun i => a.Data i * A.data i) newStorage) i = _
    rw [Loops.fill_apply, Loops.fill_apply]
    by_cases own : i < a.n
    · rw [if_neg (by omega), if_pos ⟨Nat.zero_le i, own⟩, if_pos own, if_pos other,
        data_of_lt other]
    · rw [if_pos ⟨by omega, other⟩, if_neg own]

/-- An element of the array, or zero behind its end. -/
def padded (a : ScriptArray T) (i : Nat) : T := if i < a.n then a.Data i else 0

theorem getD_toList (a : ScriptArray T) (i : Nat) : (a.toList[i]?).getD 0 = a.padded i := by
  rw [getElem?_toList, padded]
  split
  · rfl
  · rfl

/-- An array is the elementwise result when it has the greater length and the elements agree. -/
theorem toList_eq_zeroPadded_iff {c : ScriptArray T} :
    c.toList = zeroPadded both a.toList A.toList ↔
      c.n = max a.n A.n ∧ ∀ i, i < max a.n A.n → c.Data i = both (a.padded i) (A.padded i) := by
  have cell (i : Nat) (within : i < max a.n A.n) :
      (zeroPadded both a.toList A.toList)[i]? = some (both (a.padded i) (A.padded i)) := by
    rw [getElem?_zeroPadded (by rw [length_toList, length_toList]; exact within), getD_toList,
      getD_toList]
  constructor
  · intro same
    have length : c.n = max a.n A.n := by
      rw [← length_toList c, same, length_zeroPadded, length_toList, length_toList]
    refine ⟨length, fun i within => ?_⟩
    have here := cell i within
    rw [← same, getElem?_toList, length, if_pos within] at here
    exact Option.some.inj here
  · rintro ⟨length, cells⟩
    apply List.ext_getElem?
    intro i
    rw [getElem?_toList, length]
    by_cases within : i < max a.n A.n
    · rw [if_pos within, cell i within, cells i within]
    · rw [if_neg within, getElem?_zeroPadded_of_le]
      rw [length_toList, length_toList]
      exact not_lt.mp within

/-- Whether an operator agrees with zero padding is a question of the elements that only the
argument has, if it treats the others as it should. -/
theorem agrees_iff_tail {c : ScriptArray T} {single : T → T} {tail : Nat → T}
    (length : c.n = max a.n A.n) (single_eq : ∀ x, single x = both x 0)
    (cells : ∀ i, i < max a.n A.n → c.Data i =
      if i < a.n then if i < A.n then both (a.Data i) (A.Data i) else single (a.Data i)
      else tail i) :
    c.toList = zeroPadded both a.toList A.toList ↔
      ∀ i, a.n ≤ i → i < A.n → tail i = both 0 (A.Data i) := by
  rw [toList_eq_zeroPadded_iff]
  constructor
  · rintro ⟨-, agree⟩ i past other
    have here := agree i (by omega)
    rw [cells i (by omega), padded, padded, if_neg (by omega), if_neg (by omega),
      if_pos other] at here
    exact here
  · refine fun agree => ⟨length, fun i within => ?_⟩
    rw [cells i within, padded, padded]
    by_cases own : i < a.n
    · rw [if_pos own, if_pos own]
      by_cases other : i < A.n
      · rw [if_pos other, if_pos other]
      · rw [if_neg other, if_neg other, single_eq]
    · have other : i < A.n := by omega
      rw [if_neg own, if_neg own, if_pos other]
      exact agree i (not_lt.mp own) other

theorem binary_agrees_iff (longer_eq : ∀ x, longer x = both x 0) :
    (binary both longer shorter a A).toList = zeroPadded both a.toList A.toList ↔
      ∀ i, a.n ≤ i → i < A.n → both 0 (A.Data i) = 0 := by
  rw [agrees_iff_tail binary_n longer_eq fun i _ => binary_Data]
  exact forall_congr' fun i => forall_congr' fun _ => forall_congr' fun _ => eq_comm

theorem compound_agrees_iff (both_zero : ∀ x, both x 0 = x) :
    (compound both a A).toList = zeroPadded both a.toList A.toList ↔
      ∀ i, a.n ≤ i → i < A.n → A.Data i = both 0 (A.Data i) :=
  agrees_iff_tail compound_n (fun x => (both_zero x).symm) fun _ within => compound_Data within

end Cells

/-! ### The operators on integers -/

section Integers

variable (a b : ScriptArray Int)

/-- The elements of `b` behind the length of `a` are zero. -/
def TailZero : Prop := ∀ i, a.n ≤ i → i < b.n → b.Data i = 0

theorem add_agrees_iff :
    (a.add b).toList = zeroPadded (fun x y => x + y) a.toList b.toList ↔ TailZero a b := by
  rw [add, binary_agrees_iff fun x => (add_zero x).symm, TailZero]
  simp only [zero_add]

theorem sub_agrees_iff :
    (a.sub b).toList = zeroPadded (fun x y => x - y) a.toList b.toList ↔ TailZero a b := by
  rw [sub, binary_agrees_iff fun x => (sub_zero x).symm, TailZero]
  simp only [zero_sub, neg_eq_zero]

theorem mul_agrees :
    (a.mul b).toList = zeroPadded (fun x y => x * y) a.toList b.toList := by
  rw [mul, binary_agrees_iff fun x => (mul_zero x).symm]
  exact fun i _ _ => zero_mul _

theorem addAssign_agrees :
    (a.addAssign b).toList = zeroPadded (fun x y => x + y) a.toList b.toList := by
  rw [addAssign, compound_agrees_iff add_zero]
  exact fun i _ _ => (zero_add _).symm

/-- `-=` copies what it should negate. -/
theorem subAssign_agrees_iff :
    (a.subAssign b).toList = zeroPadded (fun x y => x - y) a.toList b.toList ↔ TailZero a b := by
  rw [subAssign, compound_agrees_iff sub_zero, TailZero]
  simp only [zero_sub, self_eq_neg]

theorem mulAssign_agrees :
    (a.mulAssign b).toList = zeroPadded (fun x y => x * y) a.toList b.toList := by
  refine toList_eq_zeroPadded_iff.mpr ⟨mulAssign_n, fun i within => ?_⟩
  rw [mulAssign_Data within, padded, padded]
  by_cases own : i < a.n
  · rw [if_pos own, if_pos own]
    by_cases other : i < b.n
    · rw [if_pos other, if_pos other]
    · rw [if_neg other, if_neg other, mul_zero]
  · rw [if_neg own, if_neg own, zero_mul]

/-- Each operator and its assignment give the elementwise result under zero padding, and an
assignment the assigned array. -/
structure OperatorsAgree : Prop where
  add : (a.add b).toList = zeroPadded (fun x y => x + y) a.toList b.toList
  addAssign : (a.addAssign b).toList = zeroPadded (fun x y => x + y) a.toList b.toList
  sub : (a.sub b).toList = zeroPadded (fun x y => x - y) a.toList b.toList
  subAssign : (a.subAssign b).toList = zeroPadded (fun x y => x - y) a.toList b.toList
  mul : (a.mul b).toList = zeroPadded (fun x y => x * y) a.toList b.toList
  mulAssign : (a.mulAssign b).toList = zeroPadded (fun x y => x * y) a.toList b.toList
  assign : (a.assign b).toList = b.toList

/-- The operators agree when the argument is not shorter and only has zeros behind the own
length. -/
theorem array_operators_agree_iff : OperatorsAgree a b ↔ a.n ≤ b.n ∧ TailZero a b := by
  constructor
  · intro agree
    exact ⟨(assign_toList_iff a b).mp agree.assign, (add_agrees_iff a b).mp agree.add⟩
  · rintro ⟨notShorter, tail⟩
    exact
      { add := (add_agrees_iff a b).mpr tail
        addAssign := addAssign_agrees a b
        sub := (sub_agrees_iff a b).mpr tail
        subAssign := (subAssign_agrees_iff a b).mpr tail
        mul := mul_agrees a b
        mulAssign := mulAssign_agrees a b
        assign := (assign_toList_iff a b).mpr notShorter }

end Integers

/-- The empty array and `{1}`: their sum is `{0}`. -/
theorem array_operators_disagree :
    ¬ OperatorsAgree (ofLength 0) (ScriptArray.append (ofLength 0) 1) := by
  intro agree
  have sum := agree.add
  revert sum
  decide

end ScriptArray

end Seeker
