/-
This file models the two loop shapes of the C sources.

`forRange n body` is `for (i = 0; i < n; i++) body`. `fill start stop value` is the
loop that writes `value j` to the cells `j` of a row from `start` to below `stop`.
`firstFrom` and `lastBelow` are the two searches for an index, upwards and downwards.
`repeatUpTo limit round` is a loop of at most `limit` rounds that a round may leave
with `break`: `none` is the break. The loops come with the rules that carry an
invariant through them.
-/
import Mathlib.Data.Nat.Basic
import Mathlib.Logic.Function.Basic
import Mathlib.Tactic.Common

namespace Loops

variable {State : Type*}

/-- `for (i = 0; i < n; i++) body`, the body rewriting the loop's variables. -/
def forRange : Nat → (Nat → State → State) → State → State
  | 0, _, state => state
  | bound + 1, body, state => body bound (forRange bound body state)

@[simp]
theorem forRange_zero (body : Nat → State → State) (state : State) :
    forRange 0 body state = state := rfl

@[simp]
theorem forRange_succ (bound : Nat) (body : Nat → State → State) (state : State) :
    forRange (bound + 1) body state = body bound (forRange bound body state) := rfl

/-- The loop rule: an invariant indexed by the counter, kept by every iteration. -/
theorem forRange_induction (invariant : Nat → State → Prop) {body : Nat → State → State}
    {bound : Nat} {state : State} (initial : invariant 0 state)
    (kept : ∀ index, index < bound → ∀ current, invariant index current →
      invariant (index + 1) (body index current)) :
    invariant bound (forRange bound body state) := by
  induction bound with
  | zero => exact initial
  | succ bound inductionHypothesis =>
    rw [forRange_succ]
    exact kept bound (Nat.lt_succ_self bound) _
      (inductionHypothesis fun index small => kept index (Nat.lt_succ_of_lt small))

/-- The rule for two loops that run side by side. -/
theorem forRange_relation {State' : Type*} (related : Nat → State → State' → Prop)
    {body : Nat → State → State} {body' : Nat → State' → State'} {bound : Nat} {state : State}
    {state' : State'} (initial : related 0 state state')
    (kept : ∀ index, index < bound → ∀ current current', related index current current' →
      related (index + 1) (body index current) (body' index current')) :
    related bound (forRange bound body state) (forRange bound body' state') := by
  induction bound with
  | zero => exact initial
  | succ bound inductionHypothesis =>
    rw [forRange_succ, forRange_succ]
    exact kept bound (Nat.lt_succ_self bound) _ _
      (inductionHypothesis fun index small => kept index (Nat.lt_succ_of_lt small))

/-- Two loops that go on alike from related variables end with related variables. -/
theorem forRange_map {State' : Type*} (relate : State → State') {body : Nat → State → State}
    {body' : Nat → State' → State'}
    (alike : ∀ index current, relate (body index current) = body' index (relate current))
    (bound : Nat) (state : State) :
    relate (forRange bound body state) = forRange bound body' (relate state) := by
  induction bound with
  | zero => rfl
  | succ bound inductionHypothesis =>
    rw [forRange_succ, forRange_succ, alike, inductionHypothesis]

/-- A loop that changes one cell each turn, the one its counter points at, has changed the cells
below its bound, each from what it was before the loop. -/
theorem forRange_cells {Value : Type*} (cells : State → Nat → Value)
    (change : Nat → Value → Value) {body : Nat → State → State}
    (own : ∀ index current, cells (body index current) index = change index (cells current index))
    (others : ∀ index current cell, cell ≠ index →
      cells (body index current) cell = cells current cell)
    (bound : Nat) (state : State) (cell : Nat) :
    cells (forRange bound body state) cell =
      if cell < bound then change cell (cells state cell) else cells state cell := by
  refine forRange_induction (fun count current => cells current cell =
    if cell < count then change cell (cells state cell) else cells state cell) ?_ ?_
  · exact (if_neg (Nat.not_lt_zero cell)).symm
  · intro index _ current changed
    by_cases here : cell = index
    · subst here
      rw [if_neg (Nat.lt_irrefl cell)] at changed
      rw [own, changed, if_pos (Nat.lt_succ_self cell)]
    · rw [others index current cell here, changed]
      exact if_congr (by omega) rfl rfl

/-- A loop that writes a new value of its cell each turn. -/
theorem forRange_update {Value : Type*} (change : Nat → Value → Value) (bound : Nat)
    (row : Nat → Value) (cell : Nat) :
    forRange bound (fun index row => Function.update row index (change index (row index))) row
        cell =
      if cell < bound then change cell (row cell) else row cell := by
  refine forRange_cells (fun current : Nat → Value => current) change ?_ ?_ bound row cell
  · exact fun _ _ => Function.update_self ..
  · exact fun _ _ _ other => Function.update_of_ne other ..

/-- `for (j = start; j < stop; j++) row[j] = value(j)`. -/
def fill {Value : Type*} (start stop : Nat) (value : Nat → Value) (row : Nat → Value) :
    Nat → Value :=
  forRange (stop - start)
    (fun index row => Function.update row (start + index) (value (start + index))) row

theorem fill_apply {Value : Type*} (start stop : Nat) (value row : Nat → Value) (cell : Nat) :
    fill start stop value row cell =
      if start ≤ cell ∧ cell < stop then value cell else row cell := by
  have filled : fill start stop value row cell =
      if start ≤ cell ∧ cell < start + (stop - start) then value cell else row cell := by
    refine forRange_induction (fun count (current : Nat → Value) =>
      current cell = if start ≤ cell ∧ cell < start + count then value cell else row cell) ?_ ?_
    · rw [if_neg (by omega)]
    · intro index _ current written
      by_cases here : cell = start + index
      · rw [here, Function.update_self, if_pos (by omega)]
      · rw [Function.update_of_ne here, written]
        exact if_congr (by omega) rfl rfl
  rw [filled]
  exact if_congr (by omega) rfl rfl

/-- `for (i = start; i < stop; i++) if (found(i)) return i;`. -/
def firstFrom (found : Nat → Bool) (start stop : Nat) : Option Nat :=
  (List.range' start (stop - start)).find? found

/-- `for (i = stop - 1; i >= 0; i--) if (found(i)) return i;`. -/
def lastBelow (found : Nat → Bool) : Nat → Option Nat
  | 0 => none
  | index + 1 => if found index then some index else lastBelow found index

theorem firstFrom_eq_some {found : Nat → Bool} {start stop index : Nat}
    (returned : firstFrom found start stop = some index) :
    (start ≤ index ∧ index < stop) ∧ found index = true := by
  have member := List.mem_range'_1.mp (List.mem_of_find?_eq_some returned)
  exact ⟨⟨member.1, by omega⟩, List.find?_some returned⟩

/-- The index that is returned is the first one. -/
theorem firstFrom_least {found : Nat → Bool} {start stop index : Nat}
    (returned : firstFrom found start stop = some index) {earlier : Nat}
    (from_start : start ≤ earlier) (before : earlier < index) : found earlier = false := by
  have least := (List.find?_range'_eq_some.mp returned).2.2 earlier from_start before
  rwa [Bool.not_eq_eq_eq_not, Bool.not_true] at least

/-- The search upwards looks at its first index first. -/
theorem firstFrom_of_lt {found : Nat → Bool} {start stop : Nat} (small : start < stop) :
    firstFrom found start stop =
      if found start then some start else firstFrom found (start + 1) stop := by
  have longer : stop - start = stop - (start + 1) + 1 := by omega
  unfold firstFrom
  rw [longer, List.range'_succ, List.find?_cons]
  split <;> rename_i here
  · rw [if_pos here]
  · rw [if_neg (Bool.not_eq_true _ ▸ here)]

theorem firstFrom_of_le {found : Nat → Bool} {start stop : Nat} (past : stop ≤ start) :
    firstFrom found start stop = none := by
  unfold firstFrom
  rw [Nat.sub_eq_zero_of_le past]
  rfl

/-- The search upwards looks at the index. -/
def Visits (found : Nat → Bool) (start stop index : Nat) : Prop :=
  (start ≤ index ∧ index < stop) ∧
    ∀ earlier, start ≤ earlier → earlier < index → found earlier = false

theorem visits_start {found : Nat → Bool} {start stop : Nat} (small : start < stop) :
    Visits found start stop start :=
  ⟨⟨le_rfl, small⟩, fun _ from_start before => absurd before (Nat.not_lt.mpr from_start)⟩

/-- After an index that is not the one looked for comes the next. -/
theorem Visits.next {found : Nat → Bool} {start stop index : Nat}
    (visited : Visits found start stop index) (absent : found index = false)
    (small : index + 1 < stop) : Visits found start stop (index + 1) := by
  refine ⟨⟨Nat.le_succ_of_le visited.1.1, small⟩, fun earlier from_start before => ?_⟩
  rcases Nat.lt_succ_iff_lt_or_eq.mp before with earliest | rfl
  · exact visited.2 earlier from_start earliest
  · exact absent

/-- Nothing past the index looked for is looked at. -/
theorem Visits.le {found : Nat → Bool} {start stop index here : Nat}
    (visited : Visits found start stop index) (from_start : start ≤ here)
    (present : found here = true) : index ≤ here := by
  by_contra past
  have absent := visited.2 here from_start (Nat.not_le.mp past)
  exact absurd present (absent ▸ Bool.false_ne_true)

theorem lastBelow_eq_some {found : Nat → Bool} {stop index : Nat}
    (returned : lastBelow found stop = some index) : index < stop ∧ found index = true := by
  induction stop with
  | zero => cases returned
  | succ stop inductionHypothesis =>
    unfold lastBelow at returned
    split at returned
    · rename_i here
      obtain rfl := Option.some.inj returned
      exact ⟨Nat.lt_succ_self _, here⟩
    · obtain ⟨below, there⟩ := inductionHypothesis returned
      exact ⟨Nat.lt_succ_of_lt below, there⟩

theorem firstFrom_eq_none {found : Nat → Bool} {start stop : Nat}
    (missed : firstFrom found start stop = none) {index : Nat} (from_start : start ≤ index)
    (small : index < stop) : found index = false := by
  have absent := List.find?_eq_none.mp missed index (List.mem_range'_1.mpr ⟨from_start, by omega⟩)
  exact eq_false_of_ne_true absent

theorem lastBelow_eq_none {found : Nat → Bool} {stop : Nat} (missed : lastBelow found stop = none)
    {index : Nat} (small : index < stop) : found index = false := by
  induction stop with
  | zero => exact absurd small (Nat.not_lt_zero index)
  | succ stop inductionHypothesis =>
    unfold lastBelow at missed
    split at missed
    · cases missed
    · rename_i absent
      rcases Nat.lt_succ_iff_lt_or_eq.mp small with below | here
      · exact inductionHypothesis missed below
      · rw [here]
        exact eq_false_of_ne_true absent

/-- The index that is returned is the last one. -/
theorem lastBelow_greatest {found : Nat → Bool} {stop index : Nat}
    (returned : lastBelow found stop = some index) {later : Nat} (after : index < later)
    (small : later < stop) : found later = false := by
  induction stop with
  | zero => exact absurd small (Nat.not_lt_zero later)
  | succ stop inductionHypothesis =>
    unfold lastBelow at returned
    split at returned
    · cases returned
      exact absurd small (Nat.not_lt.mpr after)
    · rename_i absent
      rcases Nat.lt_succ_iff_lt_or_eq.mp small with below | here
      · exact inductionHypothesis returned below
      · rw [here]
        exact eq_false_of_ne_true absent

/-- At most `limit` rounds of a loop that a round leaves by returning `none`. -/
def repeatUpTo (round : State → Option State) : Nat → State → State
  | 0, state => state
  | limit + 1, state =>
      match round state with
      | none => state
      | some next => repeatUpTo round limit next

@[simp]
theorem repeatUpTo_zero (round : State → Option State) (state : State) :
    repeatUpTo round 0 state = state := rfl

theorem repeatUpTo_succ_none {round : State → Option State} {state : State} (limit : Nat)
    (left : round state = none) : repeatUpTo round (limit + 1) state = state := by
  rw [repeatUpTo, left]

theorem repeatUpTo_succ_some {round : State → Option State} {state next : State} (limit : Nat)
    (taken : round state = some next) :
    repeatUpTo round (limit + 1) state = repeatUpTo round limit next := by
  rw [repeatUpTo, taken]

/-- One more round comes after the others, unless one of them has left the loop. -/
theorem repeatUpTo_succ (round : State → Option State) (limit : Nat) (state : State) :
    repeatUpTo round (limit + 1) state =
      (round (repeatUpTo round limit state)).getD (repeatUpTo round limit state) := by
  induction limit generalizing state with
  | zero =>
    rw [repeatUpTo_zero]
    cases taken : round state with
    | none => exact repeatUpTo_succ_none 0 taken
    | some next => exact repeatUpTo_succ_some 0 taken
  | succ limit inductionHypothesis =>
    cases taken : round state with
    | none =>
      rw [repeatUpTo_succ_none _ taken, repeatUpTo_succ_none _ taken, taken]
      rfl
    | some next =>
      rw [repeatUpTo_succ_some _ taken, repeatUpTo_succ_some _ taken]
      exact inductionHypothesis next

/-- Rounds that change nothing can be run any number of times. -/
theorem repeatUpTo_fixed {round : State → Option State} {state : State}
    (fixed : round state = some state) (limit : Nat) : repeatUpTo round limit state = state := by
  induction limit with
  | zero => rfl
  | succ limit inductionHypothesis =>
    rw [repeatUpTo_succ_some limit fixed, inductionHypothesis]

/-- The rule for a loop with a break: an invariant kept by every round that is not left
holds at the end, and after any smaller number of rounds. -/
theorem repeatUpTo_induction (invariant : State → Prop) {round : State → Option State}
    (kept : ∀ current next, invariant current → round current = some next → invariant next)
    (limit : Nat) {state : State} (initial : invariant state) :
    invariant (repeatUpTo round limit state) := by
  induction limit generalizing state with
  | zero => exact initial
  | succ limit inductionHypothesis =>
    cases taken : round state with
    | none =>
      rw [repeatUpTo_succ_none limit taken]
      exact initial
    | some next =>
      rw [repeatUpTo_succ_some limit taken]
      exact inductionHypothesis (kept state next initial taken)

end Loops
