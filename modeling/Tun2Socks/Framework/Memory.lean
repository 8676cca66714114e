import Tun2Socks.Framework.Buffer

/-!
# Memory

A block of memory whose size is not known to the type, as a function from offsets to bytes, with
the two operations that code on pointers needs. `write_inside` reads back a byte of a write, and
`read_write_of_disjoint` says that a write elsewhere does not matter.
-/

namespace Tun2Socks.Framework

/-- The byte at every offset. -/
abbrev Memory := ℕ → Byte

namespace Memory

/-- The `n` bytes from offset `i` on. -/
def read (m : Memory) (i n : ℕ) : List Byte := (List.range n).map fun k => m (i + k)

/-- Copy `data` to the offset `i`. -/
def write (m : Memory) (i : ℕ) (data : List Byte) : Memory := fun a =>
  if i ≤ a ∧ a < i + data.length then data.getD (a - i) 0 else m a

variable (m : Memory) {i j n : ℕ} {data : List Byte}

@[simp] theorem length_read (i n : ℕ) : (m.read i n).length = n := by
  rw [read, List.length_map, List.length_range]

theorem write_of_outside {a : ℕ} (h : a < i ∨ i + data.length ≤ a) : m.write i data a = m a :=
  if_neg (by omega)

theorem write_inside {k : ℕ} (h : k < data.length) : m.write i data (i + k) = data.getD k 0 := by
  rw [write, if_pos ⟨Nat.le_add_right i k, Nat.add_lt_add_left h i⟩, Nat.add_sub_cancel_left]

/-- A read elsewhere does not see a write. -/
theorem read_write_of_disjoint (h : j + n ≤ i ∨ i + data.length ≤ j) :
    (m.write i data).read j n = m.read j n := by
  refine List.map_congr_left ?_
  intro k hk
  have hk := List.mem_range.mp hk
  exact write_of_outside m (by omega)

end Memory

end Tun2Socks.Framework
