import Mathlib

/-!
# Blocks of memory and their lifetimes

A `Heap` keeps every block that was ever allocated, in order of allocation; the address of a
block is its position. Freeing a block leaves its cells where they are and marks it, so that
a program that reads it afterwards can be caught doing so.

`Heap.Holds h p cells` says that a live block with these cells is at `p`. It survives every
allocation and every `free` of another block. `Heap.Cells h p cells` says the same of a block
that may have been freed, and survives everything.
-/

namespace Tun2Socks.Framework

/-- A block of memory. -/
structure Block (α : Type) where
  cells : List α
  live : Bool
  deriving DecidableEq, Repr

/-- The blocks in order of allocation. -/
abbrev Heap (α : Type) := List (Block α)

namespace Heap

variable {α : Type} (h : Heap α)

/-- Allocate a block; its address is the length of the heap before. -/
def alloc (cells : List α) : Heap α := h ++ [⟨cells, true⟩]

/-- `free(p)`. -/
def free (p : ℕ) : Heap α := h.modify p fun b => { b with live := false }

/-- A live block with these cells is at `p`. -/
def Holds (p : ℕ) (cells : List α) : Prop := h[p]? = some ⟨cells, true⟩

instance [DecidableEq α] (p : ℕ) (cells : List α) : Decidable (h.Holds p cells) := by
  unfold Holds
  infer_instance

/-- These cells are at `p`, in a block that may have been freed. -/
def Cells (p : ℕ) (cells : List α) : Prop := ∃ live, h[p]? = some ⟨cells, live⟩

variable {h}

theorem holds_alloc (cells : List α) : (h.alloc cells).Holds h.length cells := by
  rw [Holds, alloc, List.getElem?_concat_length]

theorem Holds.lt {p : ℕ} {cells : List α} (hp : h.Holds p cells) : p < h.length :=
  (List.getElem?_eq_some_iff.mp hp).1

theorem Holds.alloc {p : ℕ} {cells : List α} (hp : h.Holds p cells) (cells' : List α) :
    (h.alloc cells').Holds p cells := by
  rw [Holds, Heap.alloc, List.getElem?_append_left hp.lt]
  exact hp

theorem Holds.free {p q : ℕ} {cells : List α} (hp : h.Holds p cells) (hne : q ≠ p) :
    (h.free q).Holds p cells := by
  rw [Holds, Heap.free, List.getElem?_modify_ne _ _ hne]
  exact hp

theorem Holds.cells {p : ℕ} {cells : List α} (hp : h.Holds p cells) : h.Cells p cells :=
  ⟨true, hp⟩

theorem Cells.free {p : ℕ} {cells : List α} (hp : h.Cells p cells) (q : ℕ) :
    (h.free q).Cells p cells := by
  obtain ⟨live, hp⟩ := hp
  by_cases heq : q = p
  · obtain rfl := heq
    refine ⟨false, ?_⟩
    rw [Heap.free, List.getElem?_modify_eq, hp]
    rfl
  · refine ⟨live, ?_⟩
    rw [Heap.free, List.getElem?_modify_ne _ _ heq]
    exact hp

end Heap

end Tun2Socks.Framework
