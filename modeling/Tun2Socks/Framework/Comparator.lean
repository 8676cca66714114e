import Mathlib

/-!
# Comparators that return numbers

C code compares two values with a function that returns a negative number, zero or a positive one.
`IntOrder` says that such a function is a total order and returns only -1, 0 and 1. It follows if
the function gives the sign (`signOf`) of a comparison that Lean knows as an order
(`intOrder_of_transCmp`), and `signOf_then` is the rule for comparing first by one thing and then
by another.
-/

namespace Tun2Socks.Framework

variable {α : Type}

/-- A total order as a function to -1, 0 and 1. -/
structure IntOrder (cmp : α → α → ℤ) : Prop where
  range : ∀ a b, cmp a b = -1 ∨ cmp a b = 0 ∨ cmp a b = 1
  antisymm : ∀ a b, cmp b a = -cmp a b
  trans : ∀ a b c, cmp a b ≤ 0 → cmp b c ≤ 0 → cmp a c ≤ 0
  total : ∀ a b, cmp a b ≤ 0 ∨ cmp b a ≤ 0

def signOf : Ordering → ℤ
  | .lt => -1
  | .eq => 0
  | .gt => 1

@[simp] theorem signOf_eq_zero {x : Ordering} : signOf x = 0 ↔ x = .eq := by
  cases x <;> decide

theorem signOf_nonpos {x : Ordering} : signOf x ≤ 0 ↔ x.isLE = true := by
  cases x <;> decide

theorem signOf_swap (x : Ordering) : signOf x.swap = -signOf x := by
  cases x <;> rfl

theorem signOf_then (x y : Ordering) :
    signOf (x.then y) = if signOf x ≠ 0 then signOf x else signOf y := by
  cases x <;> rfl

theorem signOf_compare (a b : ℤ) :
    signOf (compare a b) = (if b < a then 1 else 0) - if a < b then 1 else 0 := by
  obtain h | rfl | h := lt_trichotomy a b
  · rw [Int.compare_eq_lt.mpr h, if_neg h.asymm, if_pos h]
    rfl
  · have heq : compare a a = .eq := Std.ReflCmp.compare_self
    rw [heq, if_neg (lt_irrefl a)]
    rfl
  · rw [Int.compare_eq_gt.mpr h, if_pos h, if_neg h.asymm]
    rfl

theorem intOrder_of_transCmp {cmp : α → α → ℤ} {c : α → α → Ordering} [Std.TransCmp c]
    (h : ∀ a b, cmp a b = signOf (c a b)) : IntOrder cmp where
  range a b := by
    rw [h]
    cases c a b
    · exact .inl rfl
    · exact .inr (.inl rfl)
    · exact .inr (.inr rfl)
  antisymm a b := by
    have hswap : c b a = (c a b).swap := Std.OrientedCmp.eq_swap
    rw [h, h, hswap, signOf_swap]
  trans x y z hxy hyz := by
    rw [h, signOf_nonpos] at hxy hyz ⊢
    exact Std.TransCmp.isLE_trans hxy hyz
  total a b := by
    have hswap : c b a = (c a b).swap := Std.OrientedCmp.eq_swap
    rw [h, h, signOf_nonpos, signOf_nonpos, hswap]
    cases c a b <;> decide

end Tun2Socks.Framework
