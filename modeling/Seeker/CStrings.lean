/-
This file embeds the functions of the C library on strings that the utilities call.

A string is the list of its characters, without the null character behind them.
-/
import Mathlib.Algebra.Order.Ring.Int
import Seeker.Globals

namespace Seeker

/-- `isspace`. -/
def isSpace (c : Char) : Bool :=
  c = ' ' || c = '\t' || c = '\n' || c = '\x0b' || c = '\x0c' || c = '\r'

/-- The value of the leading decimal digits. -/
def leadingDigits (s : List Char) : Int :=
  (s.takeWhile Char.isDigit).foldl (fun value c => 10 * value + (c.toNat - '0'.toNat : Nat)) 0

/-- `atoi`: `strtol` in base 10, which stops at the limits of a `long`, as an `int`. -/
def atoi (s : List Char) : Int :=
  let value :=
    match s.dropWhile isSpace with
    | '-' :: rest => -leadingDigits rest
    | '+' :: rest => leadingDigits rest
    | rest => leadingDigits rest
  int32 (max (-2 ^ 63) (min value (2 ^ 63 - 1)))

/-- The tokens that `strtok` returns one after the other: the runs of characters between
separators, never an empty one. -/
def tokens (sep : Char) (str : List Char) : List (List Char) :=
  (str.splitOnP fun c => c == sep).filter fun token => !token.isEmpty

/-- What is left of a string in its buffer when `strtok` has returned all its tokens: a null
character has replaced the separator behind each of them, and the first ends the string. -/
def strtokLeaves (sep : Char) (str : List Char) : List Char :=
  str.takeWhile (· == sep) ++ (str.dropWhile (· == sep)).takeWhile (· != sep)

section Tokens

variable {sep : Char}

/-- Separators in front of the first token are passed over. -/
theorem tokens_append_of_seps {seps : List Char} (all : ∀ c ∈ seps, (c == sep) = true)
    (str : List Char) : tokens sep (seps ++ str) = tokens sep str := by
  induction seps with
  | nil => rfl
  | cons c seps inductionHypothesis =>
    obtain ⟨first, others⟩ := List.forall_mem_cons.mp all
    have passed : tokens sep (c :: (seps ++ str)) = tokens sep (seps ++ str) := by
      unfold tokens
      rw [List.splitOnP_cons_eq_if_modifyHead, if_pos first]
      rfl
    rw [List.cons_append, passed, inductionHypothesis others]

/-- A string without separators is a token. -/
theorem tokens_of_forall_ne {token : List Char} (plain : ∀ c ∈ token, (c == sep) = false)
    (nonempty : token ≠ []) : tokens sep token = [token] := by
  unfold tokens
  rw [List.splitOnP_eq_singleton plain]
  simp [nonempty]

theorem tokens_append_cons {token : List Char} (plain : ∀ c ∈ token, (c == sep) = false)
    (nonempty : token ≠ []) {c : Char} (isSep : (c == sep) = true) (rest : List Char) :
    tokens sep (token ++ c :: rest) = token :: tokens sep rest := by
  unfold tokens
  rw [List.splitOnP_append_cons_of_forall_mem plain c isSep]
  simp [nonempty]

/-- A second `strtok` over the same buffer finds the first token only. -/
theorem tokens_strtokLeaves (str : List Char) :
    tokens sep (strtokLeaves sep str) = (tokens sep str).take 1 := by
  have leading : ∀ c ∈ str.takeWhile (· == sep), (c == sep) = true :=
    List.all_eq_true.mp List.all_takeWhile
  have whole : tokens sep str = tokens sep (str.dropWhile (· == sep)) := by
    have passed := tokens_append_of_seps leading (str.dropWhile (· == sep))
    rw [List.takeWhile_append_dropWhile] at passed
    exact passed
  unfold strtokLeaves
  rw [tokens_append_of_seps leading, whole]
  cases rest : str.dropWhile (· == sep) with
  | nil => rfl
  | cons first others =>
    have notSep : (first == sep) = false := by
      have stops := List.head?_dropWhile_not (fun c => c == sep) str
      rw [rest] at stops
      simpa using stops
    have plain : ∀ c ∈ (first :: others).takeWhile (· != sep), (c == sep) = false := by
      intro c member
      have differs := List.all_eq_true.mp List.all_takeWhile c member
      simpa using differs
    have nonempty : (first :: others).takeWhile (· != sep) ≠ [] := by
      simp [bne, notSep]
    rw [tokens_of_forall_ne plain nonempty]
    have parts : (first :: others).takeWhile (· != sep) ++ (first :: others).dropWhile (· != sep) =
        first :: others := List.takeWhile_append_dropWhile
    cases behind : (first :: others).dropWhile (· != sep) with
    | nil =>
      rw [behind, List.append_nil] at parts
      rw [parts] at plain nonempty ⊢
      rw [tokens_of_forall_ne plain nonempty]
      rfl
    | cons c behindAll =>
      have isSep : (c == sep) = true := by
        have stops := List.head?_dropWhile_not (fun c => c != sep) (first :: others)
        rw [behind] at stops
        simpa using stops
      have found := tokens_append_cons plain nonempty isSep behindAll
      rw [behind] at parts
      rw [parts] at found
      rw [found]
      rfl

end Tokens

end Seeker
