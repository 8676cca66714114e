import Mathlib

/-!
# A ledger of resources

What a program has acquired and not released, and what it has released without having it. A
program that ends with both empty has released everything it acquired exactly once, and nothing
else.
-/

namespace Tun2Socks.Framework

structure Ledger (α : Type) where
  held : Multiset α
  /-- Released without being held. -/
  foreign : Multiset α
  deriving DecidableEq

namespace Ledger

variable {α : Type} {l : Ledger α} {a b : α} {s : Multiset α}

def empty : Ledger α := ⟨0, 0⟩

def acquire (l : Ledger α) (a : α) : Ledger α := { l with held := a ::ₘ l.held }

theorem held_acquire : (l.acquire a).held = {a} + l.held := (Multiset.singleton_add a l.held).symm

theorem mem_held_acquire (h : b ∈ l.held) : b ∈ (l.acquire a).held := Multiset.mem_cons_of_mem h

variable [DecidableEq α]

def release (l : Ledger α) (a : α) : Ledger α :=
  if a ∈ l.held then { l with held := l.held.erase a } else { l with foreign := a ::ₘ l.foreign }

/-- Releasing what is held leaves the rest. -/
theorem release_of_held (h : l.held = {a} + s) : l.release a = { l with held := s } := by
  rw [Multiset.singleton_add] at h
  rw [release, if_pos (h ▸ Multiset.mem_cons_self a s), h, Multiset.erase_cons_head]

theorem mem_held_release (h : b ∈ l.held) (hba : b ≠ a) : b ∈ (l.release a).held := by
  rw [release]
  split_ifs
  · exact (Multiset.mem_erase_of_ne hba).mpr h
  · exact h

theorem mem_foreign_release (h : b ∈ l.foreign) : b ∈ (l.release a).foreign := by
  rw [release]
  split_ifs
  · exact h
  · exact Multiset.mem_cons_of_mem h

theorem mem_foreign_of_release (h : a ∉ l.held) : a ∈ (l.release a).foreign := by
  rw [release, if_neg h]
  exact Multiset.mem_cons_self a l.foreign

end Ledger
end Tun2Socks.Framework
