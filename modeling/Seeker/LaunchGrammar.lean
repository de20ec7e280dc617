/-
This file compares `get_apps` with the grammar that the README of the utilities gives:
`core <cpumask1> <application_1> [core <cpumask2> <application_2> ......]`.

Whatever the README allows is accepted, and each app is its group. The converse fails for
a group before the last: its mask and its command may be missing.
-/
import Seeker.Launch

namespace Seeker

open Sections

/-! ### The grammar -/

/-- One group of the command line: a mask and a command of at least one word. -/
structure Group (keyword : List Char) where
  mask : List Char
  command : List (List Char)
  mask_ne : mask ≠ keyword
  command_ne_nil : command ≠ []
  free : keyword ∉ command

variable {keyword : List Char}

/-- The words of a group behind its keyword. -/
def Group.words (group : Group keyword) : List (List Char) := group.mask :: group.command

/-- The app that a group asks for. -/
def Group.app (group : Group keyword) : StructApp where
  core := atoi group.mask
  prog := progOf group.command
  cmd := (progOf group.command).takeWhile fun c => decide (c ≠ ' ')

/-- The words are one or more groups, each behind the keyword. -/
structure IsGroups (words : List (List Char)) (groups : List (Group keyword)) : Prop where
  ne_nil : groups ≠ []
  words_eq : words = groups.flatMap fun group => keyword :: group.words

/-- The command line is accepted if and only if it is in the grammar, and the apps are then the
groups in their order. -/
def AcceptsGrammar (keyword : List Char) (killSlow : Nat) (argv : List (List Char)) : Prop :=
  ((parseArguments keyword argv).isSome ↔
    ∃ groups : List (Group keyword), IsGroups (wordsOf killSlow argv) groups) ∧
  ∀ groups : List (Group keyword), IsGroups (wordsOf killSlow argv) groups →
    ∃ apps, parseArguments keyword argv = some (groups.length, apps) ∧
      ∀ (k : Nat) (group : Group keyword), groups[k]? = some group → apps k = group.app

/-- When the last group has a mask and a command, so has every group before it. -/
def EarlierComplete (keyword : List Char) (words : List (List Char)) : Prop :=
  ∀ parts last, Divides keyword words (parts ++ [last]) → 2 ≤ last.length →
    ∀ part ∈ parts, 2 ≤ part.length

/-- The command words of every part fit a `prog` of 300 bytes. -/
def CommandsFit (keyword : List Char) (words : List (List Char)) : Prop :=
  ∀ parts, Divides keyword words parts → ∀ part ∈ parts, (progOf part.tail).length < 300

theorem Group.length_words (group : Group keyword) : 2 ≤ group.words.length := by
  have some := List.length_pos_iff.mpr group.command_ne_nil
  rw [words, List.length_cons]
  omega

theorem Group.not_mem_words (group : Group keyword) : keyword ∉ group.words := by
  intro member
  rcases List.mem_cons.mp member with mask | command
  · exact group.mask_ne mask.symm
  · exact group.free command

/-- A part with a mask and a command is a group. -/
theorem exists_group {part : List (List Char)} (free : keyword ∉ part)
    (complete : 2 ≤ part.length) : ∃ group : Group keyword, group.words = part := by
  rcases part with _ | ⟨mask, _ | ⟨word, command⟩⟩
  · cases complete
  · rw [List.length_singleton] at complete
    omega
  · refine ⟨⟨mask, word :: command, ?_, List.cons_ne_nil _ _, ?_⟩, rfl⟩
    · intro same
      exact free (same ▸ List.mem_cons_self)
    · intro member
      exact free (List.mem_cons_of_mem _ member)

theorem exists_groups {parts : List (List (List Char))} (free : ∀ part ∈ parts, keyword ∉ part)
    (complete : ∀ part ∈ parts, 2 ≤ part.length) :
    ∃ groups : List (Group keyword), groups.map Group.words = parts := by
  induction parts with
  | nil => exact ⟨[], rfl⟩
  | cons part rest inductionHypothesis =>
    obtain ⟨group, words⟩ := exists_group (free part List.mem_cons_self)
      (complete part List.mem_cons_self)
    obtain ⟨groups, rest⟩ := inductionHypothesis
      (fun part member => free part (List.mem_cons_of_mem _ member))
      fun part member => complete part (List.mem_cons_of_mem _ member)
    exact ⟨group :: groups, by rw [List.map_cons, words, rest]⟩

/-- Groups are a division of their words. -/
theorem IsGroups.divides {words : List (List Char)} {groups : List (Group keyword)}
    (isGroups : IsGroups words groups) : Divides keyword words (groups.map Group.words) where
  words_eq := by
    rw [isGroups.words_eq, List.flatMap_map]
  free part member := by
    obtain ⟨group, -, words⟩ := List.mem_map.mp member
    rw [← words]
    exact group.not_mem_words

/-! ### What `get_apps` accepts -/

/-- What fits is copied up to the first space. -/
theorem copyCmd_eq {max : Nat} {prog : List Char} (fits : prog.length < max) :
    copyCmd max prog = prog.takeWhile fun c => decide (c ≠ ' ') := by
  induction prog generalizing max with
  | nil =>
    obtain ⟨max, rfl⟩ := Nat.exists_eq_add_one_of_ne_zero (Nat.ne_of_gt fits)
    rfl
  | cons c prog inductionHypothesis =>
    obtain ⟨max, rfl⟩ := Nat.exists_eq_add_one_of_ne_zero (Nat.ne_of_gt (Nat.zero_lt_of_lt fits))
    rw [List.length_cons] at fits
    rw [copyCmd]
    by_cases space : c = ' '
    · rw [if_pos space, List.takeWhile_cons_of_neg (by simpa using space)]
    · rw [if_neg space, List.takeWhile_cons_of_pos (by simpa using space),
        inductionHypothesis (by omega)]

theorem foldl_countNumApps (words : List (List Char)) (numApps : Nat) :
    words.foldl (fun numApps word => if word = keyword then numApps + 1 else numApps) numApps =
      numApps + words.count keyword := by
  induction words generalizing numApps with
  | nil => rfl
  | cons word words inductionHypothesis =>
    rw [List.foldl_cons, inductionHypothesis]
    by_cases same : word = keyword
    · rw [if_pos same, same, List.count_cons_self]
      omega
    · rw [if_neg same, List.count_cons_of_ne same]

variable {killSlow : Nat} {argv : List (List Char)} {parts : List (List (List Char))}
  {last : List (List Char)}

/-- The number of apps is the number of parts. -/
theorem countNumApps_eq (divides : Divides keyword (wordsOf killSlow argv) parts) :
    countNumApps keyword killSlow argv = parts.length := by
  rw [countNumApps, foldl_countNumApps, Nat.zero_add, divides.count]

/-- The last loop of `get_apps`. -/
theorem forRange_copyCmd (numberApps : Nat) (apps : Nat → StructApp) (k : Nat) :
    Loops.forRange numberApps
      (fun i apps => Function.update apps i { apps i with cmd := copyCmd 300 (apps i).prog })
      apps k =
      if k < numberApps then { apps k with cmd := copyCmd 300 (apps k).prog } else apps k := by
  exact Loops.forRange_update (fun _ app => { app with cmd := copyCmd 300 app.prog }) numberApps
    apps k

/-- The loop reads words that can be divided to their end. -/
theorem getAppsLoop_divides {words : List (List Char)} (divides : Divides keyword words parts) :
    ∃ g, getAppsLoop keyword words GetApps.start = some g ∧ HasRead keyword words parts g := by
  have ended : ∃ g, getAppsLoop keyword words GetApps.start = some g := by
    cases words with
    | nil => exact ⟨_, rfl⟩
    | cons first rest =>
      have begun : getAppsStep keyword first GetApps.start =
          some { GetApps.start with just := 1, appIndex := -1 + 1 } := if_pos divides.head
      rw [getAppsLoop, begun]
      exact getAppsLoop_begun Nat.one_pos rest
  obtain ⟨g, ends⟩ := ended
  obtain ⟨others, read⟩ := getAppsLoop_read HasRead.start ends
  rw [List.nil_append] at read
  refine ⟨g, ends, ?_⟩
  rw [divides.unique read.divides]
  exact read

/-- Words whose last part has a mask and a command are accepted. -/
theorem getApps_divides (divides : Divides keyword (wordsOf killSlow argv) (parts ++ [last]))
    (complete : 2 ≤ last.length) :
    ∃ apps, getApps keyword killSlow (countNumApps keyword killSlow argv) argv = some apps ∧
      ∀ (k : Nat) (part : List (List Char)), (parts ++ [last])[k]? = some part →
        apps k = { appOf part with cmd := copyCmd 300 (appOf part).prog } := by
  obtain ⟨g, ends, read⟩ := getAppsLoop_divides divides
  have just : g.just = last.length + 1 := by
    rw [read.just, List.getLast?_concat]
    rfl
  have counted := countNumApps_eq divides
  have accepted : ¬(g.just ≤ 2 ∨
      g.appIndex ≠ (countNumApps keyword killSlow argv : Int) - 1) := by
    rw [not_or, not_not, counted]
    exact ⟨by omega, read.index⟩
  rw [getApps, ends]
  dsimp only
  rw [if_neg accepted]
  refine ⟨_, rfl, fun k part entry => ?_⟩
  obtain ⟨within, isPart⟩ := List.getElem?_eq_some_iff.mp entry
  rw [forRange_copyCmd, counted, if_pos within, read.apps k,
    List.getD_eq_getElem _ _ within, isPart]

/-- What is accepted can be divided, and its last part has a mask and a command. -/
theorem divides_of_getApps {numberApps : Nat} {apps : Nat → StructApp}
    (accepted : getApps keyword killSlow numberApps argv = some apps) :
    ∃ parts last, Divides keyword (wordsOf killSlow argv) (parts ++ [last]) ∧
      2 ≤ last.length := by
  unfold getApps at accepted
  split at accepted
  · cases accepted
  · rename_i g ends
    split at accepted
    · cases accepted
    · rename_i passes
      have long : 2 < g.just := by
        rw [not_or] at passes
        omega
      obtain ⟨all, read⟩ := getAppsLoop_read HasRead.start ends
      rw [List.nil_append] at read
      have just := read.just
      rcases List.eq_nil_or_concat all with rfl | ⟨parts, last, rfl⟩
      · have none : g.just = 0 := just
        omega
      · rw [List.concat_eq_append] at read just
        rw [List.getLast?_concat] at just
        have count : g.just = last.length + 1 := just
        exact ⟨parts, last, read.divides, by omega⟩

/-- Behind accepted options `main` does what `get_apps` says. -/
theorem parseArguments_eq (options : getOptions argv = some (0, killSlow)) :
    parseArguments keyword argv =
      (getApps keyword killSlow (countNumApps keyword killSlow argv) argv).map fun apps =>
        (countNumApps keyword killSlow argv, apps) := by
  rw [parseArguments, options]
  rfl

/-! ### The grammar and the code -/

/-- Whatever is in the grammar is accepted, and read as its groups. -/
theorem parseArguments_isGroups (options : getOptions argv = some (0, killSlow))
    (fits : CommandsFit keyword (wordsOf killSlow argv)) {groups : List (Group keyword)}
    (isGroups : IsGroups (wordsOf killSlow argv) groups) :
    ∃ apps, parseArguments keyword argv = some (groups.length, apps) ∧
      ∀ (k : Nat) (group : Group keyword), groups[k]? = some group → apps k = group.app := by
  have divides := isGroups.divides
  have counted : countNumApps keyword killSlow argv = groups.length := by
    rw [countNumApps_eq divides, List.length_map]
  obtain ⟨parts, last, rfl⟩ := (List.eq_nil_or_concat groups).resolve_left isGroups.ne_nil
  rw [List.concat_eq_append] at divides counted ⊢
  rw [List.map_append] at divides
  obtain ⟨apps, taken, entries⟩ := getApps_divides divides last.length_words
  refine ⟨apps, ?_, fun k group entry => ?_⟩
  · rw [parseArguments_eq options, taken, counted]
    rfl
  · have part : (parts.map Group.words ++ [last.words])[k]? = some group.words := by
      rw [← List.map_singleton, ← List.map_append, List.getElem?_map, entry]
      rfl
    have short : (progOf group.command).length < 300 :=
      fits _ divides _ (List.mem_of_getElem? part)
    rw [entries k _ part]
    show { appOf group.words with cmd := copyCmd 300 (progOf group.command) } = group.app
    rw [copyCmd_eq short]
    rfl

/-- `get_apps` accepts the grammar unless the last group has a mask and a command and a group
before it does not. -/
theorem get_apps_grammar_iff (keyword : List Char) (killSlow : Nat) (argv : List (List Char))
    (options : getOptions argv = some (0, killSlow))
    (fits : CommandsFit keyword (wordsOf killSlow argv)) :
    AcceptsGrammar keyword killSlow argv ↔ EarlierComplete keyword (wordsOf killSlow argv) := by
  constructor
  · intro accepts parts last divides complete part member
    obtain ⟨apps, taken, -⟩ := getApps_divides divides complete
    have accepted : (parseArguments keyword argv).isSome := by
      rw [parseArguments_eq options, taken]
      rfl
    obtain ⟨groups, isGroups⟩ := accepts.1.mp accepted
    have inGroups : part ∈ groups.map Group.words := by
      rw [isGroups.divides.unique divides]
      exact List.mem_append_left _ member
    obtain ⟨group, -, words⟩ := List.mem_map.mp inGroups
    rw [← words]
    exact group.length_words
  · intro complete
    refine ⟨⟨fun accepted => ?_, fun ⟨groups, isGroups⟩ => ?_⟩,
      fun groups isGroups => parseArguments_isGroups options fits isGroups⟩
    · rw [parseArguments_eq options, Option.isSome_map] at accepted
      obtain ⟨apps, taken⟩ := Option.isSome_iff_exists.mp accepted
      obtain ⟨parts, last, divides, lastComplete⟩ := divides_of_getApps taken
      have all : ∀ part ∈ parts ++ [last], 2 ≤ part.length := by
        intro part member
        rcases List.mem_append.mp member with earlier | isLast
        · exact complete parts last divides lastComplete part earlier
        · rw [List.mem_singleton.mp isLast]
          exact lastComplete
      obtain ⟨groups, words⟩ := exists_groups divides.free all
      refine ⟨groups, ⟨?_, ?_⟩⟩
      · rintro rfl
        exact List.append_ne_nil_of_right_ne_nil _ (List.cons_ne_nil _ _) words.symm
      · rw [divides.words_eq, ← words, List.flatMap_map]
    · obtain ⟨apps, taken, -⟩ := parseArguments_isGroups options fits isGroups
      rw [taken]
      rfl

/-- `launch core 1 ls core 2 ps` -/
theorem get_apps_grammar_iff_two_groups :
    AcceptsGrammar ['c', 'o', 'r', 'e'] 0
      [['l', 'a', 'u', 'n', 'c', 'h'], ['c', 'o', 'r', 'e'], ['1'], ['l', 's'],
        ['c', 'o', 'r', 'e'], ['2'], ['p', 's']] := by
  have group : Divides ['c', 'o', 'r', 'e']
      (wordsOf 0 [['l', 'a', 'u', 'n', 'c', 'h'], ['c', 'o', 'r', 'e'], ['1'], ['l', 's'],
        ['c', 'o', 'r', 'e'], ['2'], ['p', 's']])
      [[['1'], ['l', 's']], [['2'], ['p', 's']]] := ⟨rfl, by decide⟩
  refine (get_apps_grammar_iff _ 0 _ rfl fun parts divides part member => ?_).mpr
    fun parts last divides _ part member => ?_
  · rw [divides.unique group] at member
    exact (by decide : ∀ part ∈ [[['1'], ['l', 's']], [['2'], ['p', 's']]],
      (progOf part.tail).length < 300) part member
  · have member := List.mem_append_left [last] member
    rw [divides.unique group] at member
    exact (by decide : ∀ part ∈ [[['1'], ['l', 's']], [['2'], ['p', 's']]],
      2 ≤ part.length) part member

/-- `launch core 1 core 2 ls`: the first group has no command, and two apps are launched. -/
theorem get_apps_accepts_incomplete :
    ¬ AcceptsGrammar ['c', 'o', 'r', 'e'] 0
      [['l', 'a', 'u', 'n', 'c', 'h'], ['c', 'o', 'r', 'e'], ['1'], ['c', 'o', 'r', 'e'], ['2'],
        ['l', 's']] := by
  intro accepts
  obtain ⟨groups, isGroups⟩ := accepts.1.mp rfl
  have parts : Divides ['c', 'o', 'r', 'e']
      (wordsOf 0 [['l', 'a', 'u', 'n', 'c', 'h'], ['c', 'o', 'r', 'e'], ['1'],
        ['c', 'o', 'r', 'e'], ['2'], ['l', 's']])
      [[['1']], [['2'], ['l', 's']]] := ⟨rfl, by decide⟩
  have first : [['1']] ∈ groups.map Group.words := by
    rw [isGroups.divides.unique parts]
    exact List.mem_cons_self
  obtain ⟨group, -, words⟩ := List.mem_map.mp first
  have long := group.length_words
  rw [words] at long
  exact absurd long (by decide)

end Seeker
