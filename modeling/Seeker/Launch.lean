/-
This file embeds the command line of `launch.c`: `get_options`, `count_num_apps` and
`get_apps`, as `main` calls them.

An app is the keyword, a mask and the words of a command. `get_apps` reads the words one
by one and counts in `just` how far the group at hand has come, but looks at the count
only when it has read the last word: a group before the last that has no command, or
not even a mask, is launched all the same.

A word is a C string, the list of its characters. The buffers hold what is written to
them; that it fits is a condition.
-/
import Mathlib.Algebra.Order.Ring.Int
import Mathlib.Data.List.GetD
import Mathlib.Logic.Function.Basic
import Seeker.CStrings
import Seeker.Library.Loops
import Seeker.Library.Sections

namespace Seeker

open Sections

/-! ### The command line -/

/-- `copy_cmd`: the characters that are copied to `cmd`. -/
def copyCmd : Nat → List Char → List Char
  | 0, _ => []
  | _ + 1, [] => []
  | max + 1, c :: prog => if c = ' ' then [] else c :: copyCmd max prog

/-- The part of `struct struct_app` that `get_apps` fills in. -/
structure StructApp where
  core : Int
  prog : List Char
  cmd : List Char
  deriving DecidableEq, Repr

/-- An entry of the array that `calloc` returns. -/
def StructApp.zero : StructApp := { core := 0, prog := [], cmd := [] }

/-- `get_options`: its return code and `kill_slow`. `none` is the exit of `help`. -/
def getOptions (argv : List (List Char)) : Option (Int × Nat) :=
  match argv with
  | [] | [_] => some (-1, 0)
  | _ :: option :: _ =>
    if option = ['-', 'h'] ∨ option = ['-', '-', 'h', 'e', 'l', 'p'] then none
    else
      let killSlow :=
        if option = ['-', 'k'] ∨
            option = ['-', '-', 'k', 'i', 'l', 'l', '-', 's', 'l', 'o', 'w'] then 1 else 0
      if argv.length < 4 then some (-1, killSlow) else some (0, killSlow)

/-- The words behind the options. -/
def wordsOf (killSlowFlag : Nat) (argv : List (List Char)) : List (List Char) :=
  argv.drop (1 + killSlowFlag)

section Words

variable (keyword : List Char)

/-- `count_num_apps`. -/
def countNumApps (killSlowFlag : Nat) (argv : List (List Char)) : Nat :=
  (wordsOf killSlowFlag argv).foldl
    (fun numApps word => if word = keyword then numApps + 1 else numApps) 0

/-- The variables of `get_apps`. -/
structure GetApps where
  apps : Nat → StructApp
  appIndex : Int
  just : Nat

/-- One turn of the loop of `get_apps`; `none` is the `return -1` in it. -/
def getAppsStep (word : List Char) (g : GetApps) : Option GetApps :=
  let index := g.appIndex.toNat
  if word = keyword then some { g with just := 1, appIndex := g.appIndex + 1 }
  else if g.just = 1 then
    some { g with
      just := g.just + 1
      apps := Function.update g.apps index { g.apps index with core := atoi word } }
  else if g.just ≥ 2 then
    some { g with
      just := g.just + 1
      apps := Function.update g.apps index
        { g.apps index with prog := (g.apps index).prog ++ word ++ [' '] } }
  else none

/-- The loop of `get_apps`. -/
def getAppsLoop : List (List Char) → GetApps → Option GetApps
  | [], g => some g
  | word :: words, g => (getAppsStep keyword word g).bind (getAppsLoop words)

/-- The variables of `get_apps` before its loop, the array as `main` allocates it. -/
def GetApps.start : GetApps := { apps := fun _ => StructApp.zero, appIndex := -1, just := 0 }

/-- `get_apps`: the array it leaves when it returns `0`; `none` is its `-1`. -/
def getApps (killSlowFlag numberApps : Nat) (argv : List (List Char)) :
    Option (Nat → StructApp) :=
  match getAppsLoop keyword (wordsOf killSlowFlag argv) GetApps.start with
  | none => none
  | some g =>
    if g.just ≤ 2 ∨ g.appIndex ≠ numberApps - 1 then none
    else
      some (Loops.forRange numberApps
        (fun i apps => Function.update apps i { apps i with cmd := copyCmd 300 (apps i).prog })
        g.apps)

/-- What `main` does with its arguments: the number of apps and their array, or `none` when it
prints its usage or the help. -/
def parseArguments (argv : List (List Char)) : Option (Nat × (Nat → StructApp)) :=
  match getOptions argv with
  | none => none
  | some (code, killSlow) =>
    if code ≠ 0 then none
    else
      let numberApps := countNumApps keyword killSlow argv
      (getApps keyword killSlow numberApps argv).map fun apps => (numberApps, apps)

end Words

/-! ### What the loop has read -/

variable {keyword : List Char}

/-- The words of a command, each followed by one space. -/
def progOf (command : List (List Char)) : List Char := command.flatMap (· ++ [' '])

/-- What the loop makes of the words that follow a keyword. -/
def appOf : List (List Char) → StructApp
  | [] => StructApp.zero
  | mask :: command => { core := atoi mask, prog := progOf command, cmd := [] }

theorem progOf_concat (command : List (List Char)) (word : List Char) :
    progOf (command ++ [word]) = progOf command ++ word ++ [' '] := by
  rw [progOf, List.flatMap_append, List.flatMap_singleton, List.append_assoc]
  rfl

/-- The invariant of the loop: the words read are divided at the keywords, and the entries of the
array are what the parts come to. -/
structure HasRead (keyword : List Char) (words : List (List Char)) (parts : List (List (List Char)))
    (g : GetApps) : Prop where
  divides : Divides keyword words parts
  index : g.appIndex = parts.length - 1
  just : g.just = (parts.getLast?.map fun part => part.length + 1).getD 0
  apps : ∀ k, g.apps k = appOf (parts.getD k [])

section Loop

variable {words : List (List Char)} {parts : List (List (List Char))} {g next : GetApps}
  {word : List Char}

theorem HasRead.start : HasRead keyword [] [] GetApps.start where
  divides := Divides.nil
  index := rfl
  just := rfl
  apps _ := rfl

/-- The keyword begins a new part. -/
theorem HasRead.begin (read : HasRead keyword words parts g) :
    HasRead keyword (words ++ [keyword]) (parts ++ [[]])
      { g with just := 1, appIndex := g.appIndex + 1 } where
  divides := read.divides.begin
  index := by
    rw [List.length_append, List.length_singleton]
    show g.appIndex + 1 = _
    rw [read.index]
    push_cast
    omega
  just := by
    rw [List.getLast?_concat]
    rfl
  apps k := by
    rw [read.apps k]
    rcases lt_trichotomy k parts.length with before | here | behind
    · rw [List.getD_append _ _ _ _ before]
    · rw [here, List.getD_append_right _ _ _ _ le_rfl, Nat.sub_self,
        List.getD_eq_default _ _ le_rfl]
      rfl
    · rw [List.getD_eq_default _ _ (Nat.le_of_lt behind), List.getD_eq_default]
      rw [List.length_append, List.length_singleton]
      exact behind

/-- The array when the last part has grown. -/
theorem HasRead.grown {last : List (List Char)} (read : HasRead keyword words (parts ++ [last]) g)
    (k : Nat) :
    Function.update g.apps g.appIndex.toNat (appOf (last ++ [word])) k =
      appOf ((parts ++ [last ++ [word]]).getD k []) := by
  have here : g.appIndex.toNat = parts.length := by
    rw [read.index, List.length_append, List.length_singleton]
    push_cast
    omega
  rw [here]
  rcases lt_trichotomy k parts.length with before | same | behind
  · rw [Function.update_of_ne (Nat.ne_of_lt before), read.apps k,
      List.getD_append _ _ _ _ before, List.getD_append _ _ _ _ before]
  · rw [same, Function.update_self, List.getD_append_right _ _ _ _ le_rfl, Nat.sub_self]
    rfl
  · rw [Function.update_of_ne (Nat.ne_of_gt behind), read.apps k, List.getD_eq_default,
      List.getD_eq_default]
    · rw [List.length_append, List.length_singleton]
      exact behind
    · rw [List.length_append, List.length_singleton]
      exact behind

/-- Every other word is added to the last part. -/
theorem HasRead.add {last : List (List Char)} (read : HasRead keyword words (parts ++ [last]) g)
    (other : word ≠ keyword) :
    ∃ next, getAppsStep keyword word g = some next ∧
      HasRead keyword (words ++ [word]) (parts ++ [last ++ [word]]) next := by
  have count : g.just = last.length + 1 := by
    rw [read.just, List.getLast?_concat]
    rfl
  have entry : g.apps g.appIndex.toNat = appOf last := by
    have here : g.appIndex.toNat = parts.length := by
      rw [read.index, List.length_append, List.length_singleton]
      push_cast
      omega
    rw [here, read.apps, List.getD_append_right _ _ _ _ le_rfl, Nat.sub_self]
    rfl
  have counted : g.just + 1 = (last ++ [word]).length + 1 := by
    rw [count, List.length_append, List.length_singleton]
  have lengths : (parts ++ [last ++ [word]]).length = (parts ++ [last]).length := by
    rw [List.length_append, List.length_append, List.length_singleton, List.length_singleton]
  have grows (app : StructApp) (grown : app = appOf (last ++ [word])) :
      HasRead keyword (words ++ [word]) (parts ++ [last ++ [word]])
        { g with just := g.just + 1, apps := Function.update g.apps g.appIndex.toNat app } := by
    refine ⟨read.divides.add other, ?_, ?_, fun k => ?_⟩
    · rw [lengths]
      exact read.index
    · rw [List.getLast?_concat]
      exact counted
    · rw [grown]
      exact read.grown k
  unfold getAppsStep
  dsimp only
  rw [if_neg other, entry]
  cases last with
  | nil =>
    have one : g.just = 1 := count
    rw [if_pos one]
    exact ⟨_, rfl, grows _ rfl⟩
  | cons mask command =>
    have more : g.just ≥ 2 := by
      rw [count, List.length_cons]
      omega
    rw [if_neg (by omega), if_pos more]
    refine ⟨_, rfl, grows _ ?_⟩
    rw [List.cons_append, appOf, appOf, progOf_concat]

/-- One turn of the loop that does not return. -/
theorem HasRead.step (read : HasRead keyword words parts g)
    (taken : getAppsStep keyword word g = some next) :
    ∃ parts, HasRead keyword (words ++ [word]) parts next := by
  by_cases isKeyword : word = keyword
  · have begun : getAppsStep keyword word g =
        some { g with just := 1, appIndex := g.appIndex + 1 } := if_pos isKeyword
    rw [begun] at taken
    rw [← Option.some.inj taken, isKeyword]
    exact ⟨_, read.begin⟩
  · rcases List.eq_nil_or_concat parts with rfl | ⟨init, last, rfl⟩
    · have idle : g.just = 0 := read.just
      unfold getAppsStep at taken
      dsimp only at taken
      rw [if_neg isKeyword, if_neg (by omega), if_neg (by omega)] at taken
      cases taken
    · rw [List.concat_eq_append] at read
      obtain ⟨grown, added, grownRead⟩ := read.add isKeyword
      rw [added] at taken
      rw [← Option.some.inj taken]
      exact ⟨_, grownRead⟩

/-- What the loop has read when it ends. -/
theorem getAppsLoop_read (read : HasRead keyword words parts g) {rest : List (List Char)}
    (ended : getAppsLoop keyword rest g = some next) :
    ∃ parts, HasRead keyword (words ++ rest) parts next := by
  induction rest generalizing words parts g with
  | nil =>
    rw [← Option.some.inj ended, List.append_nil]
    exact ⟨parts, read⟩
  | cons word rest inductionHypothesis =>
    obtain ⟨current, taken, goes⟩ := Option.bind_eq_some_iff.mp ended
    obtain ⟨grown, grownRead⟩ := read.step taken
    rw [List.append_cons]
    exact inductionHypothesis grownRead goes

/-- Once a group has begun the loop takes every word. -/
theorem getAppsStep_begun (keyword word : List Char) (begun : 0 < g.just) :
    ∃ next, getAppsStep keyword word g = some next ∧ 0 < next.just := by
  unfold getAppsStep
  dsimp only
  split
  · exact ⟨_, rfl, Nat.one_pos⟩
  · split
    · exact ⟨_, rfl, Nat.succ_pos _⟩
    · rw [if_pos (by omega)]
      exact ⟨_, rfl, Nat.succ_pos _⟩

theorem getAppsLoop_begun (begun : 0 < g.just) (rest : List (List Char)) :
    ∃ next, getAppsLoop keyword rest g = some next := by
  induction rest generalizing g with
  | nil => exact ⟨g, rfl⟩
  | cons word rest inductionHypothesis =>
    obtain ⟨current, taken, goes⟩ := getAppsStep_begun keyword word begun
    rw [getAppsLoop, taken]
    exact inductionHypothesis goes

end Loop

end Seeker
