/-
This file embeds the text form of a `LOG_SCH` record: the line that `decodelog` prints
for it, and the pattern by which `pull.pl` reads the lines of a task back.

The printer writes the fields with `%d` and `%1.4f`; the pattern allows one digit before
the point of the IPC and one digit for each of the three states. The two agree on a
record whose IPC is below ten and whose search found a state. A given state of "none"
is printed as `-1`, and an IPC of ten has two digits; the pattern refuses both lines.
-/
import Seeker.Library.Regex
import Seeker.Pds

namespace Seeker

open Regex

/-! ### The printer -/

/-- `%llu`. -/
def printLlu (value : Nat) : List Char := Nat.toDigits 10 value

/-- `%d`, given an `unsigned int`. -/
def printD (value : Nat) : List Char :=
  if int32 value < 0 then '-' :: printLlu (int32 value).natAbs else printLlu (int32 value).toNat

/-- The four decimals of a number of eighths. -/
def printFraction (ipc : Nat) : List Char := (printLlu (ipc % 8 * 1250)).leftpad 4 '0'

/-- `%1.4f` of `((float)ipc) / 8.0`. An `ipc` below `2 ^ 24` is a `float` and the quotient is
exact; it has three decimals, so nothing is rounded. -/
def printEighths (ipc : Nat) : List Char := printLlu (ipc / 8) ++ '.' :: printFraction ipc

/-- The line `decodelog` prints for a `LOG_SCH` record. -/
def printSch (r : LogScheduler) : List Char :=
  List.intercalate [','] [['s'], printLlu r.interval, printD r.pid, printD r.cpu, printLlu r.inst,
    printEighths r.ipc, printD r.stateReq, printD r.stateGiven, printD r.state,
    printLlu r.cycles] ++ ['\n']

/-! ### The reader -/

/-- `\d`. -/
def isDigit (letter : Char) : Bool := letter.isDigit

/-- `$` at the end of a pattern: the end of the input, or a line feed that ends it. -/
def atEnd (input : List Char) : Bool := input = [] || input = ['\n']

/-- `(\d+)`. -/
def digits : Pattern Char := .group (.many isDigit)

/-- `(\d)`. -/
def digit : Pattern Char := .group (.one isDigit)

/-- `(\d\.\d+)`. -/
def digitFraction : Pattern Char :=
  .group (.seq (.one isDigit) (literal ['.'] (.many isDigit)))

/-- The pattern `^s,\d+,$pid,` of `grep`, without its anchor. -/
def schLines (pid : List Char) : Pattern Char :=
  literal ['s', ','] <| .seq (.many isDigit) <| literal (',' :: (pid ++ [','])) <|
    .rest fun _ => true

/-- The pattern `s,(\d+),$pid,(\d+),(\d+),(\d\.\d+),(\d),(\d),(\d),(\d+)$`. -/
def schPattern (pid : List Char) : Pattern Char :=
  literal ['s', ','] <| .seq digits <| literal (',' :: (pid ++ [','])) <| .seq digits <|
    literal [','] <| .seq digits <| literal [','] <| .seq digitFraction <|
    literal [','] <| .seq digit <| literal [','] <| .seq digit <|
    literal [','] <| .seq digit <| literal [','] <| .seq digits <| .rest atEnd

/-- What `pull.pl` captures from a line for a pid: `grep` selects the line, anchored at its start,
and the pattern is searched in it. -/
def pullSch (pid : List Char) (line : List Char) : Option (List (List Char)) :=
  (matchStart (schLines pid) line).bind fun _ => search (schPattern pid) line

/-! ### Digits -/

theorem isRun_printLlu (value : Nat) : IsRun isDigit (printLlu value) :=
  ⟨Nat.toDigits_ne_nil, fun _ member =>
    Nat.isDigit_of_mem_toDigits (by decide) (by decide) member⟩

theorem printLlu_of_lt {value : Nat} (small : value < 10) : printLlu value = [value.digitChar] :=
  Nat.toDigits_of_lt_base small

/-- A number of two digits or more begins with two digits. -/
theorem printLlu_of_le {value : Nat} (large : 10 ≤ value) :
    ∃ first second rest, printLlu value = first :: second :: rest ∧
      isDigit first = true ∧ isDigit second = true := by
  obtain ⟨_, all⟩ := isRun_printLlu value
  have long : ¬ (printLlu value).length ≤ 1 := by
    unfold printLlu
    rw [Nat.length_toDigits_le_iff (by decide) Nat.one_pos]
    omega
  match printed : printLlu value with
  | [] => simp [printed] at long
  | [_] => simp [printed] at long
  | first :: second :: rest =>
    rw [printed] at all
    exact ⟨first, second, rest, rfl, all first (by simp), all second (by simp)⟩

/-- No number has an `s` in it. -/
theorem s_notMem_printLlu (value : Nat) : 's' ∉ printLlu value := fun member =>
  Bool.noConfusion ((isRun_printLlu value).2 's' member)

theorem s_notMem_printD (value : Nat) : 's' ∉ printD value := by
  unfold printD
  split <;> simp [s_notMem_printLlu]

theorem printD_of_lt {value : Nat} (small : value < 2 ^ 31) : printD value = printLlu value := by
  have fits : int32 value = value := int32_of_fits (by omega) (by omega)
  unfold printD
  rw [fits, if_neg (by omega), Int.toNat_natCast]

/-- A number of one digit is printed as that digit. -/
theorem printD_of_single {value : Nat} (small : value < 10) :
    printD value = [value.digitChar] ∧ isDigit value.digitChar = true := by
  have printed := printLlu_of_lt small
  refine ⟨(printD_of_lt (small.trans (by decide))).trans printed, ?_⟩
  exact (isRun_printLlu value).2 _ (printed ▸ List.mem_singleton_self _)

/-- `-1` is what is printed for "none". -/
theorem printD_uintMax : printD uintMax = ['-', '1'] := by decide

theorem isRun_printFraction (ipc : Nat) : IsRun isDigit (printFraction ipc) := by
  obtain ⟨nonempty, all⟩ := isRun_printLlu (ipc % 8 * 1250)
  unfold printFraction List.leftpad
  refine ⟨by simp [nonempty], fun letter member => ?_⟩
  rcases List.mem_append.mp member with padding | member
  · rw [List.eq_of_mem_replicate padding]
    rfl
  · exact all letter member

theorem length_printFraction (ipc : Nat) : (printFraction ipc).length = 4 := by
  have short : (printLlu (ipc % 8 * 1250)).length ≤ 4 := by
    unfold printLlu
    rw [Nat.length_toDigits_le_iff (by decide) (by decide)]
    omega
  unfold printFraction
  rw [List.length_leftpad, Nat.max_eq_left short]

/-- The number a text of digits is. -/
def number (text : List Char) : Nat := Nat.ofDigitChars 10 text 0

@[simp]
theorem number_printLlu (value : Nat) : number (printLlu value) = value :=
  Nat.ofDigitChars_ten_toDigits

/-- The padding does not count. -/
theorem number_printFraction (ipc : Nat) : number (printFraction ipc) = ipc % 8 * 1250 := by
  have padded : ∀ (count : Nat) (text : List Char),
      number (List.replicate count '0' ++ text) = number text := by
    intro count text
    induction count with
    | zero => rfl
    | succ count inductionHypothesis =>
      rw [List.replicate_succ, List.cons_append]
      exact inductionHypothesis
  unfold printFraction List.leftpad
  rw [padded, number_printLlu]

/-! ### One line -/

section Line

variable {follow : List Char → List (List Char) → Option (List (List Char))}
  {pattern : Pattern Char} {input : List Char} {captured : List (List Char)}

/-- The pid of the line stands between two separators. -/
theorem pid_between (pid input : List Char) :
    ',' :: (pid ++ ',' :: input) = ',' :: (pid ++ [',']) ++ input := by simp

/-- The fields before the IPC are captured whole, whatever follows them. -/
theorem matchAt_schHead {interval pid cpu inst : List Char} (runInterval : IsRun isDigit interval)
    (runCpu : IsRun isDigit cpu) (runInst : IsRun isDigit inst) :
    matchAt (literal ['s', ','] <| .seq digits <| literal (',' :: (pid ++ [','])) <| .seq digits <|
        literal [','] <| .seq digits <| literal [','] pattern) follow
        ('s' :: ',' :: (interval ++ ',' :: (pid ++ ',' :: (cpu ++ ',' :: (inst ++ ',' :: input)))))
        [] =
      matchAt pattern follow input [interval, cpu, inst] := by
  refine (matchAt_literal ['s', ',']).trans ?_
  show matchAt _ _ (interval ++ ',' :: (pid ++ ',' :: (cpu ++ ',' :: (inst ++ ',' :: input)))) _ = _
  rw [pid_between pid (cpu ++ _), digits, matchAt_field runInterval rfl,
    matchAt_field_letter runCpu rfl, matchAt_field_letter runInst rfl]
  rfl

/-- `grep` selects the line of a record. -/
theorem matchStart_schLines {interval : List Char} (runInterval : IsRun isDigit interval)
    (pid : List Char) :
    matchStart (schLines pid) ('s' :: ',' :: (interval ++ ',' :: (pid ++ ',' :: input))) =
      some [] := by
  have ends : Ends isDigit (',' :: (pid ++ [',']) ++ input) := by
    intro letter member
    rw [← Option.some.inj member]
    rfl
  refine (matchAt_literal ['s', ',']).trans ?_
  show manyAt isDigit _ (interval ++ ',' :: (pid ++ ',' :: input)) = _
  rw [pid_between pid input]
  exact (manyAt_run (blocks_literal rfl) runInterval ends).trans (matchAt_literal _)

/-- One digit, the point and a run of digits are captured together. -/
theorem matchAt_digitFraction {first : Char} {fraction : List Char}
    (accepted : isDigit first = true) (isRun : IsRun isDigit fraction) :
    matchAt (.seq digitFraction (literal [','] pattern)) follow
        (first :: '.' :: (fraction ++ ',' :: input)) captured =
      matchAt pattern follow input (captured ++ [first :: '.' :: fraction]) := by
  have whole : first :: '.' :: (fraction ++ ',' :: input) =
      first :: '.' :: fraction ++ ',' :: input := rfl
  have blocked : Blocks isDigit fun left => matchAt (literal [','] pattern) follow left
      (captured ++ [(first :: '.' :: fraction ++ ',' :: input).take
        ((first :: '.' :: fraction ++ ',' :: input).length - left.length)]) :=
    fun letter left accepted => blocks_literal rfl letter left accepted
  have ends : Ends isDigit (',' :: input) := by
    intro letter member
    rw [← Option.some.inj member]
    rfl
  have taken := manyAt_run blocked isRun ends
  rw [take_append_sub] at taken
  rw [whole]
  unfold digitFraction
  rw [matchAt_seq, matchAt_group, matchAt_seq]
  refine Eq.trans ?_ (taken.trans (matchAt_literal [',']))
  exact (if_pos accepted).trans (matchAt_literal ['.'])

/-- Two digits before the point are refused. -/
theorem matchAt_digitFraction_of_ne {first second : Char} (different : second ≠ '.') :
    matchAt (.seq digitFraction pattern) follow (first :: second :: input) captured = none := by
  unfold digitFraction
  rw [matchAt_seq, matchAt_group, matchAt_seq, matchAt_one, matchAt_literal_of_ne different,
    ite_self]

/-- The last run, before the end of the line. -/
theorem matchAt_digits_atEnd {run : List Char} (isRun : IsRun isDigit run) :
    matchAt (.seq digits (.rest atEnd)) follow (run ++ ['\n']) captured =
      follow ['\n'] (captured ++ [run]) := by
  have ends : Ends isDigit ['\n'] := by
    intro letter member
    rw [← Option.some.inj member]
    rfl
  refine (matchAt_run isRun ends fun captured letter input accepted => ?_).trans (if_pos rfl)
  refine if_neg fun atEnd_ => ?_
  simp [atEnd] at atEnd_
  rw [atEnd_.1] at accepted
  exact Bool.noConfusion accepted

/-- The rest of the pattern takes an IPC of one digit and three states of one digit. -/
theorem matchAt_schTail {ipc req giv state cy : Nat} (smallIpc : ipc < 80) (smallReq : req < 10)
    (smallGiv : giv < 10) (smallState : state < 10) :
    matchAt (.seq digitFraction <| literal [','] <| .seq digit <| literal [','] <| .seq digit <|
        literal [','] <| .seq digit <| literal [','] <| .seq digits <| .rest atEnd) follow
        (printEighths ipc ++ ',' :: (printD req ++ ',' :: (printD giv ++ ',' ::
          (printD state ++ ',' :: (printLlu cy ++ ['\n']))))) captured =
      follow ['\n'] (captured ++ [printEighths ipc, printD req, printD giv, printD state,
        printLlu cy]) := by
  obtain ⟨req_, digitReq⟩ := printD_of_single smallReq
  obtain ⟨giv_, digitGiv⟩ := printD_of_single smallGiv
  obtain ⟨state_, digitState⟩ := printD_of_single smallState
  have whole := printLlu_of_lt (show ipc / 8 < 10 by omega)
  have digitWhole : isDigit (ipc / 8).digitChar = true :=
    (isRun_printLlu (ipc / 8)).2 _ (whole ▸ List.mem_singleton_self _)
  rw [printEighths, whole, req_, giv_, state_]
  refine (matchAt_digitFraction digitWhole (isRun_printFraction ipc)).trans ?_
  refine (matchAt_single digitReq).trans ?_
  refine (matchAt_single digitGiv).trans ?_
  refine (matchAt_single digitState).trans ?_
  refine (matchAt_digits_atEnd (isRun_printLlu cy)).trans ?_
  simp

/-- It refuses an IPC of two digits. -/
theorem matchAt_schTail_of_le {ipc : Nat} (large : 80 ≤ ipc) :
    matchAt (.seq digitFraction pattern) follow (printEighths ipc ++ input) captured = none := by
  obtain ⟨first, second, rest, printed, _, digit⟩ :=
    printLlu_of_le (show 10 ≤ ipc / 8 by omega)
  rw [printEighths, printed]
  refine matchAt_digitFraction_of_ne ?_
  rintro rfl
  exact Bool.noConfusion digit

/-- It refuses a sign where the given state is expected. -/
theorem matchAt_schTail_of_none {ipc req : Nat} (smallIpc : ipc < 80) (smallReq : req < 10) :
    matchAt (.seq digitFraction <| literal [','] <| .seq digit <| literal [','] <|
        .seq digit pattern) follow
        (printEighths ipc ++ ',' :: (printD req ++ ',' :: (printD uintMax ++ input))) captured =
      none := by
  obtain ⟨req_, digitReq⟩ := printD_of_single smallReq
  have whole := printLlu_of_lt (show ipc / 8 < 10 by omega)
  have digitWhole : isDigit (ipc / 8).digitChar = true :=
    (isRun_printLlu (ipc / 8)).2 _ (whole ▸ List.mem_singleton_self _)
  rw [printEighths, whole, req_, printD_uintMax]
  refine (matchAt_digitFraction digitWhole (isRun_printFraction ipc)).trans ?_
  exact matchAt_single digitReq

end Line

/-- A record that `put_mask_from_stats` can write: the fields fit their types, the IPC is a
`short` that is not negative, the states are states of the table, and the given one is one of them
or "none". -/
structure LogScheduler.Writable (totalStates : Nat) (r : LogScheduler) : Prop where
  interval : r.interval < 2 ^ 64
  pid : r.pid < 2 ^ 31
  cpu : r.cpu < 2 ^ 31
  inst : r.inst < 2 ^ 64
  cycles : r.cycles < 2 ^ 64
  ipc : r.ipc < 2 ^ 15
  stateReq : r.stateReq < totalStates
  state : r.state < totalStates
  stateGiven : r.stateGiven < totalStates ∨ r.stateGiven = uintMax

/-- The captured texts are the record's interval, cpu, instructions, IPC to four decimals,
requested, given and current state, and cycles. -/
def Captured (r : LogScheduler) (captured : List (List Char)) : Prop :=
  ∃ interval cpu inst whole fraction req giv state cy,
    captured = [interval, cpu, inst, whole ++ '.' :: fraction, req, giv, state, cy] ∧
      number interval = r.interval ∧ number cpu = r.cpu ∧ number inst = r.inst ∧
      (fraction.length = 4 ∧ (number whole * 10000 + number fraction) * 8 = r.ipc * 10000) ∧
      number req = r.stateReq ∧ number giv = r.stateGiven ∧ number state = r.state ∧
      number cy = r.cycles

/-- The line of a record is read back: `pull.pl` accepts it for the record's pid and captures the
record's fields. -/
def ReadBack (r : LogScheduler) : Prop :=
  ∃ captured, pullSch (printD r.pid) (printSch r) = some captured ∧ Captured r captured

section Record

variable {totalStates : Nat} {r : LogScheduler}

theorem intercalate_fields (interval pid cpu inst ipc req giv state cy : List Char) :
    List.intercalate [','] [['s'], interval, pid, cpu, inst, ipc, req, giv, state, cy] ++ ['\n'] =
      's' :: ',' :: (interval ++ ',' :: (pid ++ ',' :: (cpu ++ ',' :: (inst ++ ',' ::
        (ipc ++ ',' :: (req ++ ',' :: (giv ++ ',' :: (state ++ ',' :: (cy ++ ['\n']))))))))) := by
  simp [List.intercalate, List.intersperse]

/-- The line, written out. -/
theorem printSch_eq (writable : r.Writable totalStates) :
    printSch r = 's' :: ',' :: (printLlu r.interval ++ ',' :: (printLlu r.pid ++ ',' ::
      (printLlu r.cpu ++ ',' :: (printLlu r.inst ++ ',' :: (printEighths r.ipc ++ ',' ::
        (printD r.stateReq ++ ',' :: (printD r.stateGiven ++ ',' :: (printD r.state ++ ',' ::
          (printLlu r.cycles ++ ['\n']))))))))) := by
  rw [printSch, printD_of_lt writable.pid, printD_of_lt writable.cpu]
  exact intercalate_fields ..

/-- No field has an `s` in it, so the line begins with its only one. -/
theorem s_notMem_fields (r : LogScheduler) : 's' ∉ ',' :: (printLlu r.interval ++ ',' ::
    (printLlu r.pid ++ ',' :: (printLlu r.cpu ++ ',' :: (printLlu r.inst ++ ',' ::
      (printEighths r.ipc ++ ',' :: (printD r.stateReq ++ ',' :: (printD r.stateGiven ++ ',' ::
        (printD r.state ++ ',' :: (printLlu r.cycles ++ ['\n']))))))))) := by
  have fraction : 's' ∉ printFraction r.ipc := fun member =>
    Bool.noConfusion ((isRun_printFraction r.ipc).2 's' member)
  simp [printEighths, s_notMem_printLlu, s_notMem_printD, fraction]

theorem pullSch_printSch (writable : r.Writable totalStates) :
    pullSch (printD r.pid) (printSch r) =
      matchAt (.seq digitFraction <| literal [','] <| .seq digit <| literal [','] <|
        .seq digit <| literal [','] <| .seq digit <| literal [','] <| .seq digits <| .rest atEnd)
        (fun _ captured => some captured)
        (printEighths r.ipc ++ ',' :: (printD r.stateReq ++ ',' :: (printD r.stateGiven ++ ',' ::
          (printD r.state ++ ',' :: (printLlu r.cycles ++ ['\n'])))))
        [printLlu r.interval, printLlu r.cpu, printLlu r.inst] := by
  rw [pullSch, printSch_eq writable, printD_of_lt writable.pid,
    matchStart_schLines (isRun_printLlu _), Option.bind_some, schPattern,
    search_literal (s_notMem_fields r)]
  exact matchAt_schHead (isRun_printLlu _) (isRun_printLlu _) (isRun_printLlu _)

/-- The line of a record is read back exactly when its IPC is below ten and a state was found. -/
theorem sch_line_read_back_iff (writable : r.Writable totalStates)
    (small : totalStates ≤ maxStates) :
    ReadBack r ↔ r.ipc < 80 ∧ r.stateGiven ≠ uintMax := by
  have single : ∀ state, state < totalStates → state < 10 := fun state inTable =>
    inTable.trans_le (small.trans (by decide))
  unfold ReadBack
  rw [pullSch_printSch writable]
  refine ⟨?_, ?_⟩
  · rintro ⟨captured, accepted, _⟩
    have smallIpc : r.ipc < 80 := by
      by_contra large
      rw [matchAt_schTail_of_le (not_lt.mp large)] at accepted
      exact absurd accepted (by simp)
    refine ⟨smallIpc, fun missed => ?_⟩
    rw [missed, matchAt_schTail_of_none smallIpc (single _ writable.stateReq)] at accepted
    exact absurd accepted (by simp)
  · rintro ⟨smallIpc, found⟩
    have given := single _ (writable.stateGiven.resolve_right found)
    have req := single _ writable.stateReq
    have state := single _ writable.state
    refine ⟨_, matchAt_schTail smallIpc req given state, _, _, _, _, _, _, _, _, _, rfl,
      number_printLlu _, number_printLlu _, number_printLlu _, ⟨length_printFraction _, ?_⟩,
      ?_, ?_, ?_, number_printLlu _⟩
    · rw [number_printLlu, number_printFraction]
      omega
    · rw [printD_of_lt (req.trans (by decide)), number_printLlu]
    · rw [printD_of_lt (given.trans (by decide)), number_printLlu]
    · rw [printD_of_lt (state.trans (by decide)), number_printLlu]

end Record

/-! ### What the scheduler writes -/

/-- The record `put_mask_from_stats` hands to the log. -/
def loggedSch (around : Surroundings) (task : TaskStruct) (reading : Reading) : LogScheduler where
  interval := task.interval
  inst := task.inst
  ipc := uint32 reading.ipc
  pid := task.pid
  stateReq := reading.stateReq
  stateGiven := stateGiven reading.newState
  cpu := around.thisCpu
  state := reading.state
  cycles := task.refCy

/-- An evaluation adds that record to the log. -/
theorem putMaskFromStats_log {around : Surroundings} {ts : Nat} {p : Pds}
    (enough : instThreshold ≤ (p.tasks ts).inst) (available : p.scheduler.logAvailable = true) :
    (putMaskFromStats around ts p).scheduler.log = p.scheduler.log ++
      [.sch (loggedSch around (p.tasks ts)
        (readSection around p.scheduler (p.tasks ts) (Reading.start (p.tasks ts))))] := by
  unfold putMaskFromStats assignMask
  rw [if_neg (not_lt.mpr enough)]
  have logged : ∀ entry state, (putLog entry (demandInc state p.scheduler)).log =
      p.scheduler.log ++ [entry] := fun entry state =>
    congrArg Scheduler.log (if_pos available)
  dsimp only
  split
  · exact logged _ _
  · split <;> exact logged _ _

/-- Without the selecting method an evaluation stays in the table. -/
theorem evaluateIpc_inTable {snapshot : Snapshot} {curState method : Nat}
    (inRange : curState < snapshot.totalStates) (other : method ≠ selectScheduling)
    (pastMinStates : Nat → Int) (ipc step : Int) :
    (evaluateIpc snapshot method pastMinStates ipc curState step 0).stateReq <
        snapshot.totalStates ∧
      ∀ state, (evaluateIpc snapshot method pastMinStates ipc curState step 0).newState =
        some state → state < snapshot.totalStates := by
  unfold evaluateIpc
  split
  · have inTable := ladderEvaluation_inTable inRange ipc step
    exact ⟨inTable.stateReq, fun state found => (inTable.newState state found).2⟩
  · split
    · have inTable := adaptiveLadderEvaluation_inTable inRange ipc step
      exact ⟨inTable.stateReq, fun state found => (inTable.newState state found).2⟩
    · refine ⟨Nat.zero_lt_of_lt inRange, fun state found => ?_⟩
      rwa [← Option.some.inj found]

/-- The value of a `short` that is not negative. -/
theorem uint32_ipcOf_lt {inst cy : Nat} (nonneg : 0 ≤ ipcOf inst cy) :
    uint32 (ipcOf inst cy) < 2 ^ 15 := by
  have bound : ∀ value : Int, Int.bmod value (2 ^ 16) < 2 ^ 15 := by
    intro value
    have small := Int.bmod_lt (x := value) (m := 2 ^ 16) (by decide)
    omega
  have short : ipcOf inst cy < 2 ^ 15 := by
    unfold ipcOf
    exact bound _
  unfold uint32
  rw [Int.emod_eq_of_lt nonneg (short.trans (by decide))]
  omega

/-- Where the scheduling method is not the selecting one, the states of the table are valid and
the IPC does not overflow its `short`, the record is a writable one. -/
theorem loggedSch_writable {around : Surroundings} {s : Scheduler} {task : TaskStruct}
    (interval : task.interval < 2 ^ 64) (inst : task.inst < 2 ^ 64) (refCy : task.refCy < 2 ^ 64)
    (pid : task.pid < 2 ^ 31) (cpu : around.thisCpu < 2 ^ 31)
    (current : s.curCpuState around.thisCpu < s.totalStates)
    (fixed : ∀ state, fixedRequest s task.fixedState = some state → state < s.totalStates)
    (method : s.schedulingMethod ≠ selectScheduling)
    (nonneg : 0 ≤ ipcOf task.inst task.reCy) :
    (loggedSch around task (readSection around s task (Reading.start task))).Writable
      s.totalStates := by
  have given : ∀ newState : Option Nat, (∀ state, newState = some state → state < s.totalStates) →
      stateGiven newState < s.totalStates ∨ stateGiven newState = uintMax := by
    rintro (_ | state) inTable
    · exact Or.inr rfl
    · exact Or.inl (inTable state rfl)
  cases request : fixedRequest s task.fixedState with
  | some stateReq =>
    have inTable := fixed stateReq request
    unfold readSection
    rw [request]
    have zero : uint32 0 < 2 ^ 15 := by decide
    refine ⟨interval, pid, cpu, inst, refCy, zero, inTable, current, given _ ?_⟩
    exact fun state found => (searchStateClosest_reachable found).2 inTable
  | none =>
    obtain ⟨stateReq, newState⟩ := evaluateIpc_inTable
      (show s.curCpuState around.thisCpu < (s.snapshot around.nrRunning).totalStates from current)
      method around.pastMinStates
      (ipcOf task.inst task.reCy) task.histStep
    have ipc : (readSection around s task (Reading.start task)).ipc =
        ipcOf task.inst task.reCy := by
      unfold readSection
      rw [request]
    have short : uint32 (readSection around s task (Reading.start task)).ipc < 2 ^ 15 := by
      rw [ipc]
      exact uint32_ipcOf_lt nonneg
    refine ⟨interval, pid, cpu, inst, refCy, short, ?_, ?_, ?_⟩ <;> unfold readSection <;>
      rw [request]
    · exact stateReq
    · exact current
    · exact given _ newState

/-- A record with a given state and an IPC in eighths. -/
def schRecord (stateGiven ipc : Nat) : LogScheduler where
  interval := 5
  pid := 1234
  cpu := 1
  state := 2
  cycles := 800000
  stateReq := 3
  stateGiven := stateGiven
  ipc := ipc
  inst := 9000000

theorem schRecord_writable {stateGiven ipc : Nat} (given : stateGiven < 5 ∨ stateGiven = uintMax)
    (short : ipc < 2 ^ 15) : (schRecord stateGiven ipc).Writable 5 :=
  ⟨by simp [schRecord], by simp [schRecord], by simp [schRecord], by simp [schRecord],
    by simp [schRecord], short, by simp [schRecord], by simp [schRecord], given⟩

/-- An IPC of 1.25 and a given state of 2. -/
theorem sch_line_read_back_found :
    printSch (schRecord 2 10) = "s,5,1234,1,9000000,1.2500,3,2,2,800000\n".toList ∧
      ReadBack (schRecord 2 10) := by
  refine ⟨by decide, ?_⟩
  exact (sch_line_read_back_iff (schRecord_writable (by decide) (by decide)) (by decide)).mpr
    (by decide)

/-- No state found, and an IPC of ten: neither line is accepted. -/
theorem sch_line_not_read_back :
    ((schRecord uintMax 10).Writable 5 ∧
        printSch (schRecord uintMax 10) = "s,5,1234,1,9000000,1.2500,3,-1,2,800000\n".toList ∧
        pullSch "1234".toList (printSch (schRecord uintMax 10)) = none ∧
        ¬ ReadBack (schRecord uintMax 10)) ∧
      (schRecord 2 80).Writable 5 ∧
      printSch (schRecord 2 80) = "s,5,1234,1,9000000,10.0000,3,2,2,800000\n".toList ∧
      pullSch "1234".toList (printSch (schRecord 2 80)) = none ∧ ¬ ReadBack (schRecord 2 80) := by
  have pid : printD 1234 = "1234".toList := by decide
  have missed : pullSch "1234".toList (printSch (schRecord uintMax 10)) = none := by decide
  have fast : pullSch "1234".toList (printSch (schRecord 2 80)) = none := by decide
  refine ⟨⟨schRecord_writable (by decide) (by decide), by decide, missed, ?_⟩,
    schRecord_writable (by decide) (by decide), by decide, fast, ?_⟩
  · rintro ⟨captured, accepted, _⟩
    exact absurd (missed.symm.trans (pid ▸ accepted)) (by simp)
  · rintro ⟨captured, accepted, _⟩
    exact absurd (fast.symm.trans (pid ▸ accepted)) (by simp)

end Seeker
