/-
This file is a heap of singly linked blocks.

A pointer carries the number of the allocation it came from beside its address, so a
pointer that has outlived its block stays dead when the address is used again.
`Chain` says that a list of nodes lies in the heap, each block pointing to the next.
`Owns` says that a heap consists of one chain and some loose blocks and of nothing
else; allocating, writing, linking, unlinking and releasing a block each have a rule
about it.
-/
import Mathlib.Data.List.Nodup
import Mathlib.Logic.Function.Basic
import Mathlib.Tactic.Common

namespace LinkedHeap

/-! ### Blocks and pointers -/

/-- A pointer that is not null. -/
structure Pointer where
  address : Nat
  serial : Nat
  deriving DecidableEq, Repr

/-- A block: a value and a pointer to the next block. -/
structure Block (Value : Type) where
  next : Option Pointer
  value : Value

/-- A block and the number of its allocation. -/
structure Cell (Value : Type) where
  serial : Nat
  block : Block Value

/-- The live blocks by their addresses. -/
abbrev Heap (Value : Type) := Nat → Option (Cell Value)

variable {Value : Type}

/-- The block a pointer points to, if it is still the one the pointer was made for. -/
def deref (heap : Heap Value) (pointer : Pointer) : Option (Block Value) :=
  match heap pointer.address with
  | none => none
  | some cell => if cell.serial = pointer.serial then some cell.block else none

/-- A block is written. -/
def store (heap : Heap Value) (pointer : Pointer) (block : Block Value) : Heap Value :=
  Function.update heap pointer.address (some ⟨pointer.serial, block⟩)

/-- A block is released. -/
def release (heap : Heap Value) (pointer : Pointer) : Heap Value :=
  Function.update heap pointer.address none

theorem deref_congr {heap heap' : Heap Value} {pointer : Pointer}
    (same : heap' pointer.address = heap pointer.address) :
    deref heap' pointer = deref heap pointer := by
  unfold deref
  rw [same]

@[simp]
theorem deref_store_self (heap : Heap Value) (pointer : Pointer) (block : Block Value) :
    deref (store heap pointer block) pointer = some block := by
  simp [deref, store]

theorem deref_store_of_ne {heap : Heap Value} {pointer other : Pointer}
    (different : other.address ≠ pointer.address) (block : Block Value) :
    deref (store heap pointer block) other = deref heap other :=
  deref_congr (Function.update_of_ne different ..)

theorem deref_release_of_ne {heap : Heap Value} {pointer other : Pointer}
    (different : other.address ≠ pointer.address) :
    deref (release heap pointer) other = deref heap other :=
  deref_congr (Function.update_of_ne different ..)

theorem isSome_of_deref {heap : Heap Value} {pointer : Pointer} {block : Block Value}
    (live : deref heap pointer = some block) : (heap pointer.address).isSome := by
  unfold deref at live
  cases stored : heap pointer.address with
  | none =>
    rw [stored] at live
    cases live
  | some cell => rfl

/-! ### Chains -/

/-- The nodes lie in the heap, each pointing to the next and the last to nothing. -/
def Chain (heap : Heap Value) : List (Pointer × Value) → Prop
  | [] => True
  | node :: rest => deref heap node.1 = some ⟨rest.head?.map Prod.fst, node.2⟩ ∧ Chain heap rest

/-- The addresses of some nodes. -/
def addresses (nodes : List (Pointer × Value)) : List Nat := nodes.map fun node => node.1.address

@[simp]
theorem addresses_nil : addresses ([] : List (Pointer × Value)) = [] := rfl

@[simp]
theorem addresses_cons (node : Pointer × Value) (rest : List (Pointer × Value)) :
    addresses (node :: rest) = node.1.address :: addresses rest := rfl

@[simp]
theorem addresses_append (first second : List (Pointer × Value)) :
    addresses (first ++ second) = addresses first ++ addresses second :=
  List.map_append

theorem mem_addresses {nodes : List (Pointer × Value)} {node : Pointer × Value}
    (member : node ∈ nodes) : node.1.address ∈ addresses nodes :=
  List.mem_map_of_mem member

/-- A chain stays where the heap does not change at its addresses. -/
theorem Chain.congr {heap heap' : Heap Value} {nodes : List (Pointer × Value)}
    (chain : Chain heap nodes)
    (same : ∀ address ∈ addresses nodes, heap' address = heap address) : Chain heap' nodes := by
  induction nodes with
  | nil => trivial
  | cons node rest inductionHypothesis =>
    refine ⟨?_, inductionHypothesis chain.2 fun address member =>
      same address (List.mem_cons_of_mem _ member)⟩
    rw [deref_congr (same node.1.address List.mem_cons_self)]
    exact chain.1

theorem Chain.deref_mem {heap : Heap Value} {nodes : List (Pointer × Value)}
    (chain : Chain heap nodes) {node : Pointer × Value} (member : node ∈ nodes) :
    ∃ next, deref heap node.1 = some ⟨next, node.2⟩ := by
  induction nodes with
  | nil => cases member
  | cons first rest inductionHypothesis =>
    rcases List.mem_cons.mp member with rfl | later
    · exact ⟨_, chain.1⟩
    · exact inductionHypothesis chain.2 later

/-- The last block of a chain points to nothing. -/
theorem Chain.deref_last {heap : Heap Value} {before : List (Pointer × Value)}
    {last : Pointer × Value} (chain : Chain heap (before ++ [last])) :
    deref heap last.1 = some ⟨none, last.2⟩ := by
  induction before with
  | nil => exact chain.1
  | cons first rest inductionHypothesis => exact inductionHypothesis chain.2

/-- Pointing the last block of a chain to a block outside that points to nothing makes that block
the last one. -/
theorem Chain.link {heap : Heap Value} {before : List (Pointer × Value)} {last : Pointer × Value}
    {pointer : Pointer} {value : Value} (chain : Chain heap (before ++ [last]))
    (distinct : (addresses (before ++ [last])).Nodup)
    (outside : pointer.address ∉ addresses (before ++ [last]))
    (block : deref heap pointer = some ⟨none, value⟩) :
    Chain (store heap last.1 ⟨some pointer, last.2⟩) (before ++ [last, (pointer, value)]) := by
  induction before with
  | nil =>
    have apart : pointer.address ≠ last.1.address :=
      fun same => outside (List.mem_singleton.mpr same)
    exact ⟨deref_store_self .., (deref_store_of_ne apart _).trans block, trivial⟩
  | cons first rest inductionHypothesis =>
    rw [List.cons_append, addresses_cons, List.nodup_cons] at distinct
    rw [List.cons_append, addresses_cons, List.mem_cons, not_or] at outside
    refine ⟨?_, inductionHypothesis chain.2 distinct.2 outside.2⟩
    have apart : first.1.address ≠ last.1.address := by
      intro same
      refine distinct.1 (same ▸ mem_addresses ?_)
      exact List.mem_append_right _ (List.mem_singleton_self last)
    rw [deref_store_of_ne apart, chain.1]
    cases rest with
    | nil => rfl
    | cons second rest => rfl

/-! ### Heaps that consist of a chain and loose blocks -/

/-- The heap consists of the chain of the nodes and of the loose blocks. -/
structure Owns (heap : Heap Value) (nodes : List (Pointer × Value)) (loose : List Pointer) :
    Prop where
  chain : Chain heap nodes
  live : ∀ pointer ∈ loose, (deref heap pointer).isSome
  distinct : (addresses nodes ++ loose.map Pointer.address).Nodup
  all : ∀ address, (heap address).isSome →
    address ∈ addresses nodes ++ loose.map Pointer.address

namespace Owns

variable {heap : Heap Value} {nodes : List (Pointer × Value)} {loose : List Pointer}

theorem distinct_nodes (owns : Owns heap nodes loose) : (addresses nodes).Nodup :=
  (List.nodup_append.mp owns.distinct).1

theorem loose_notMem (owns : Owns heap nodes loose) {pointer : Pointer}
    (member : pointer ∈ loose) : pointer.address ∉ addresses nodes := by
  intro inside
  exact (List.nodup_append.mp owns.distinct).2.2 _ inside _ (List.mem_map_of_mem member) rfl

/-- A heap with one block in it. -/
theorem singleton (pointer : Pointer) (value : Value) :
    Owns (store (fun _ => none) pointer ⟨none, value⟩) [(pointer, value)] [] where
  chain := ⟨deref_store_self .., trivial⟩
  live _ member := absurd member List.not_mem_nil
  distinct := List.nodup_singleton _
  all address stored := by
    by_cases same : address = pointer.address
    · rw [same]
      exact List.mem_singleton_self _
    · rw [store, Function.update_of_ne same] at stored
      cases stored

/-- A block is allocated at an address that is not in use. -/
theorem allocate (owns : Owns heap nodes loose) {address : Nat} (unused : heap address = none)
    (serial : Nat) (block : Block Value) :
    Owns (store heap ⟨address, serial⟩ block) nodes (⟨address, serial⟩ :: loose) := by
  have apart : ∀ {pointer block}, deref heap pointer = some block → pointer.address ≠ address := by
    intro pointer block live same
    have stored := isSome_of_deref live
    rw [same, unused] at stored
    cases stored
  have outside : ∀ other ∈ addresses nodes ++ loose.map Pointer.address, other ≠ address := by
    intro other member
    rcases List.mem_append.mp member with chained | free
    · obtain ⟨node, inside, rfl⟩ := List.mem_map.mp chained
      obtain ⟨_, live⟩ := owns.chain.deref_mem inside
      exact apart live
    · obtain ⟨pointer, inside, rfl⟩ := List.mem_map.mp free
      obtain ⟨_, live⟩ := Option.isSome_iff_exists.mp (owns.live pointer inside)
      exact apart live
  refine ⟨?_, ?_, ?_, ?_⟩
  · refine owns.chain.congr fun other member => Function.update_of_ne ?_ ..
    exact outside other (List.mem_append_left _ member)
  · intro pointer member
    rcases List.mem_cons.mp member with rfl | before
    · rw [deref_store_self]
      rfl
    · rw [deref_store_of_ne]
      · exact owns.live pointer before
      · exact outside _ (List.mem_append_right _ (List.mem_map_of_mem before))
  · rw [List.map_cons]
    refine List.nodup_middle.mpr (List.nodup_cons.mpr ⟨?_, owns.distinct⟩)
    exact fun member => outside address member rfl
  · intro other stored
    rw [List.map_cons]
    by_cases same : other = address
    · rw [same]
      exact List.mem_append_right _ List.mem_cons_self
    · have before : (heap other).isSome := by
        rwa [store, Function.update_of_ne same] at stored
      rcases List.mem_append.mp (owns.all other before) with chained | free
      · exact List.mem_append_left _ chained
      · exact List.mem_append_right _ (List.mem_cons_of_mem _ free)

/-- A loose block is written. -/
theorem write (owns : Owns heap nodes loose) {pointer : Pointer} (member : pointer ∈ loose)
    (block : Block Value) : Owns (store heap pointer block) nodes loose := by
  refine ⟨?_, ?_, owns.distinct, ?_⟩
  · refine owns.chain.congr fun other inside => Function.update_of_ne ?_ ..
    exact fun same => owns.loose_notMem member (same ▸ inside)
  · intro other inside
    by_cases same : other.address = pointer.address
    · have equal : other = pointer := List.inj_on_of_nodup_map
        (List.nodup_append.mp owns.distinct).2.1 inside member same
      rw [equal, deref_store_self]
      rfl
    · rw [deref_store_of_ne same]
      exact owns.live other inside
  · intro other stored
    by_cases same : other = pointer.address
    · rw [same]
      exact List.mem_append_right _ (List.mem_map_of_mem member)
    · rw [store, Function.update_of_ne same] at stored
      exact owns.all other stored

/-- The first loose block becomes the last of the chain. -/
theorem link {before : List (Pointer × Value)} {last : Pointer × Value} {pointer : Pointer}
    (owns : Owns heap (before ++ [last]) (pointer :: loose)) {value : Value}
    (block : deref heap pointer = some ⟨none, value⟩) :
    Owns (store heap last.1 ⟨some pointer, last.2⟩) (before ++ [last, (pointer, value)]) loose := by
  have moved : addresses (before ++ [last, (pointer, value)]) ++ loose.map Pointer.address =
      addresses (before ++ [last]) ++ (pointer :: loose).map Pointer.address := by
    simp
  refine ⟨?_, ?_, ?_, ?_⟩
  · exact owns.chain.link owns.distinct_nodes (owns.loose_notMem List.mem_cons_self) block
  · intro other member
    rw [deref_store_of_ne]
    · exact owns.live other (List.mem_cons_of_mem _ member)
    · intro same
      refine owns.loose_notMem (List.mem_cons_of_mem _ member) (same ▸ mem_addresses ?_)
      exact List.mem_append_right _ (List.mem_singleton_self last)
  · rw [moved]
    exact owns.distinct
  · intro other stored
    rw [moved]
    by_cases same : other = last.1.address
    · rw [same]
      refine List.mem_append_left _ (mem_addresses ?_)
      exact List.mem_append_right _ (List.mem_singleton_self last)
    · rw [store, Function.update_of_ne same] at stored
      exact owns.all other stored

/-- The first block of the chain becomes the last loose one. -/
theorem unlink {node : Pointer × Value} (owns : Owns heap (node :: nodes) loose) :
    Owns heap nodes (loose ++ [node.1]) := by
  have moved : (addresses nodes ++ (loose ++ [node.1]).map Pointer.address).Perm
      (addresses (node :: nodes) ++ loose.map Pointer.address) := by
    rw [List.map_append, ← List.append_assoc, addresses_cons, List.cons_append]
    exact List.perm_append_singleton _ _
  refine ⟨owns.chain.2, ?_, moved.nodup_iff.mpr owns.distinct, ?_⟩
  · intro pointer member
    rcases List.mem_append.mp member with before | now
    · exact owns.live pointer before
    · rw [List.mem_singleton.mp now, owns.chain.1]
      rfl
  · intro other stored
    exact moved.mem_iff.mpr (owns.all other stored)

/-- The last loose block is released. -/
theorem drop {pointer : Pointer} (owns : Owns heap nodes (loose ++ [pointer])) :
    Owns (release heap pointer) nodes loose := by
  have last : (addresses nodes ++ (loose ++ [pointer]).map Pointer.address) =
      addresses nodes ++ loose.map Pointer.address ++ [pointer.address] := by
    simp
  have distinct := owns.distinct
  rw [last, List.nodup_append] at distinct
  have apart : ∀ address ∈ addresses nodes ++ loose.map Pointer.address,
      address ≠ pointer.address := fun address member =>
    distinct.2.2 address member _ (List.mem_singleton_self _)
  refine ⟨?_, ?_, distinct.1, ?_⟩
  · refine owns.chain.congr fun other member => Function.update_of_ne ?_ ..
    exact apart other (List.mem_append_left _ member)
  · intro other member
    rw [deref_release_of_ne]
    · exact owns.live other (List.mem_append_left _ member)
    · exact apart _ (List.mem_append_right _ (List.mem_map_of_mem member))
  · intro other stored
    have different : other ≠ pointer.address := by
      intro same
      rw [same, release, Function.update_self] at stored
      cases stored
    rw [release, Function.update_of_ne different] at stored
    have member := owns.all other stored
    rw [last] at member
    exact (List.mem_append.mp member).resolve_right fun now =>
      different (List.mem_singleton.mp now)

/-- A heap with nothing in it. -/
theorem eq_none (owns : Owns heap [] []) (address : Nat) : heap address = none := by
  cases stored : heap address with
  | none => rfl
  | some cell =>
    have member := owns.all address (by rw [stored]; rfl)
    cases member

end Owns

end LinkedHeap
