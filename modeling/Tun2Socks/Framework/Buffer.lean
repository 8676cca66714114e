import Mathlib

/-!
# Fixed-size buffers

A `Buffer α n` is a C array of `n` cells, filled from the start: a user of it keeps a count
of the cells in use and reads the first cells with `take`. The operations are the ones such
code needs: `write` copies cells to an offset, `shift` is the `memmove` that drops cells
from the front, `slice` reads cells from an offset.

The lemmas say how the cells in use change. `take_write` is the append at the end of the
used part, `take_shift` the removal at its front, and `slice_eq_append` splits what is read
at an offset.
-/

namespace Tun2Socks.Framework

/-- A byte. -/
abbrev Byte := UInt8

/-- An array of `size` cells. -/
structure Buffer (α : Type) (size : ℕ) where
  cells : List α
  length_eq : cells.length = size
  deriving DecidableEq

namespace Buffer

variable {α : Type} {size : ℕ}

/-- A buffer of four given cells. -/
def four (a b c d : α) : Buffer α 4 := ⟨[a, b, c, d], rfl⟩

/-- The first `n` cells. -/
def take (b : Buffer α size) (n : ℕ) : List α := b.cells.take n

/-- The cells from offset `i` up to offset `j`. -/
def slice (b : Buffer α size) (i j : ℕ) : List α := (b.cells.take j).drop i

/-- Copy `xs` to the offset `i`. -/
def write (b : Buffer α size) (i : ℕ) (xs : List α) (h : i + xs.length ≤ size) :
    Buffer α size where
  cells := b.cells.take i ++ xs ++ b.cells.drop (i + xs.length)
  length_eq := by
    have := b.length_eq
    simp only [List.length_append, List.length_take, List.length_drop]
    omega

/-- `memmove(b, b + n, k)`: the `k` cells from offset `n` on move to the front. -/
def shift (b : Buffer α size) (n k : ℕ) (h : n + k ≤ size) : Buffer α size :=
  b.write 0 (b.slice n (n + k)) (by
    have := b.length_eq
    simp only [slice, List.length_drop, List.length_take]
    omega)

theorem length_take {b : Buffer α size} {n : ℕ} (h : n ≤ size) : (b.take n).length = n := by
  rw [take, List.length_take, b.length_eq]
  omega

theorem length_slice {b : Buffer α size} {i j : ℕ} (h : j ≤ size) :
    (b.slice i j).length = j - i := by
  rw [slice, List.length_drop, ← take, length_take h]

@[simp] theorem slice_self (b : Buffer α size) (i : ℕ) : b.slice i i = [] := by
  rw [slice]
  exact List.drop_eq_nil_of_le (by simp)

/-- The cells in use after an append at their end. -/
theorem take_write (b : Buffer α size) {i n : ℕ} {xs : List α} (h : i + xs.length ≤ size)
    (hn : i + xs.length = n) : (b.write i xs h).take n = b.take i ++ xs := by
  have hlen : (b.cells.take i ++ xs).length = n := by
    rw [List.length_append, ← take, length_take (by omega), hn]
  rw [take, write, List.take_append_of_le_length (by omega), List.take_of_length_le (by omega)]
  rfl

/-- The cells in use after their first `n` were dropped. -/
theorem take_shift (b : Buffer α size) {n k : ℕ} (h : n + k ≤ size) :
    (b.shift n k h).take k = (b.take (n + k)).drop n := by
  have hlen : 0 + (b.slice n (n + k)).length = k := by
    rw [length_slice h]
    omega
  rw [shift, take_write b _ hlen]
  rfl

/-- What is in use from `i` on splits at every offset in between. -/
theorem slice_eq_append (b : Buffer α size) {i j k : ℕ} (hij : i ≤ j) (hjk : j ≤ k)
    (hk : k ≤ size) : b.slice i k = b.slice i j ++ b.slice j k := by
  have hlen : (b.cells.take k).length = k := length_take hk
  have htake : b.cells.take j = (b.cells.take k).take j := by
    rw [List.take_take, Nat.min_eq_left hjk]
  rw [slice, slice, slice, htake]
  conv_lhs => rw [← List.take_append_drop j (b.cells.take k)]
  rw [List.drop_append_of_le_length (by rw [List.length_take]; omega)]

/-- An append at the end of what is in use from `i` on. -/
theorem slice_write (b : Buffer α size) {i j : ℕ} {xs : List α} (h : j + xs.length ≤ size)
    (hij : i ≤ j) : (b.write j xs h).slice i (j + xs.length) = b.slice i j ++ xs := by
  rw [slice, ← take, take_write b h rfl, List.drop_append_of_le_length]
  · rfl
  · rw [length_take (Nat.le_trans (Nat.le_add_right j _) h)]
    exact hij

/-- What moved to the front. -/
theorem slice_shift (b : Buffer α size) {n k : ℕ} (h : n + k ≤ size) :
    (b.shift n k h).slice 0 k = b.slice n (n + k) :=
  take_shift b h

/-- The first cells after their start was overwritten. -/
theorem take_write_zero (b : Buffer α size) {n : ℕ} {xs : List α} (h : 0 + xs.length ≤ size)
    (hn : xs.length ≤ n) : (b.write 0 xs h).take n = xs ++ b.slice xs.length n := by
  change (b.cells.take 0 ++ xs ++ b.cells.drop (0 + xs.length)).take n = _
  rw [slice, List.take_zero, List.nil_append, Nat.zero_add, List.take_append,
    List.take_of_length_le hn, List.drop_take]

/-- What was written at the front is read back. -/
theorem slice_write_zero (b : Buffer α size) {xs : List α} (h : 0 + xs.length ≤ size) :
    (b.write 0 xs h).slice 0 xs.length = xs := by
  rw [slice, ← take, take_write b h (Nat.zero_add _)]
  rfl

end Buffer

end Tun2Socks.Framework
