import Tun2Socks.Framework.Checked

/-!
# C integers

The integer types that the code computes lengths with, and what C does when it mixes them: the
operands are converted to one type (`CType.common`), a value that this type does not have is taken
modulo its size (`CType.wrap`), and the result has that type.

Programs compute with values of these types exactly as C does, but stop with a fault where a
conversion changes a value or where a result is not the mathematical one. The `wp_*` lemmas turn
an operation into the condition that it is exact, and go on with the mathematical result.
-/

namespace Tun2Socks.Framework

/-- How large `size_t` is. -/
inductive DataModel
  | ilp32
  | lp64
  deriving DecidableEq, Repr

/-- `int`, `uint16_t` and `size_t`. -/
inductive CType
  | int
  | uint16
  | size (m : DataModel)
  deriving DecidableEq, Repr

namespace CType

def min : CType → ℤ
  | .int => -2147483648
  | .uint16 => 0
  | .size _ => 0

def max : CType → ℤ
  | .int => 2147483647
  | .uint16 => 65535
  | .size .ilp32 => 4294967295
  | .size .lp64 => 18446744073709551615

def Has (t : CType) (v : ℤ) : Prop := t.min ≤ v ∧ v ≤ t.max

instance (t : CType) (v : ℤ) : Decidable (t.Has v) := inferInstanceAs (Decidable (_ ∧ _))

/-- The conversion to a type: modulo the number of its values. -/
def wrap (t : CType) (v : ℤ) : ℤ := (v - t.min) % (t.max - t.min + 1) + t.min

/-- The type in which two operands meet: `uint16_t` is promoted to `int`, and `int` is converted to
`size_t`, which is unsigned and not smaller. -/
def common : CType → CType → CType
  | .size m, _ => .size m
  | _, .size m => .size m
  | _, _ => .int

variable {t : CType} {v : ℤ}

theorem min_le_max (t : CType) : t.min ≤ t.max := by
  rcases t with _ | _ | m
  · decide
  · decide
  · cases m <;> decide

theorem has_wrap (t : CType) (v : ℤ) : t.Has (t.wrap v) := by
  have hpos : 0 < t.max - t.min + 1 := by
    have := t.min_le_max
    omega
  have hnonneg := Int.emod_nonneg (v - t.min) hpos.ne'
  have hlt := Int.emod_lt_of_pos (v - t.min) hpos
  unfold Has wrap
  omega

theorem wrap_of_has (h : t.Has v) : t.wrap v = v := by
  obtain ⟨hmin, hmax⟩ := h
  rw [wrap, Int.emod_eq_of_lt (by omega) (by omega)]
  omega

/-- A number that every type has. -/
theorem has_of_le (h : 0 ≤ v) (h' : v ≤ 65535) : t.Has v := by
  rcases t with _ | _ | m
  · exact ⟨by change -2147483648 ≤ v; omega, by change v ≤ 2147483647; omega⟩
  · exact ⟨h, h'⟩
  · cases m with
    | ilp32 => exact ⟨h, by change v ≤ 4294967295; omega⟩
    | lp64 => exact ⟨h, by change v ≤ 18446744073709551615; omega⟩

theorem int_has (h : 0 ≤ v) (h' : v ≤ 2147483647) : CType.int.Has v :=
  ⟨by change -2147483648 ≤ v; omega, h'⟩

/-- A number that the type of a result has, whatever the operands are. -/
theorem common_has (a b : CType) (h : 0 ≤ v) (h' : v ≤ 2147483647) : (a.common b).Has v := by
  have hsize (m : DataModel) : (CType.size m).Has v := by
    cases m with
    | ilp32 => exact ⟨h, by change v ≤ 4294967295; omega⟩
    | lp64 => exact ⟨h, by change v ≤ 18446744073709551615; omega⟩
  cases a <;> cases b <;> first | exact int_has h h' | exact hsize _

end CType

/-- A value of a type. -/
structure CVal (t : CType) where
  val : ℤ
  has : t.Has val

namespace CVal

variable {Fault State : Type} {f : Fault} {s : State} {a b t : CType} {v : ℤ}

/-- The value with which C represents a number. -/
def ofInt (t : CType) (v : ℤ) : CVal t := ⟨t.wrap v, t.has_wrap v⟩

theorem val_ofInt (h : t.Has v) : (ofInt t v).val = v := CType.wrap_of_has h

/-- A result, which has to be exact. -/
def exact (f : Fault) (t : CType) (v : ℤ) : Checked Fault State (CVal t) := do
  ensure (t.Has v) f
  pure (ofInt t v)

/-- A conversion, which has to leave the value as it is. -/
def convert (f : Fault) (t : CType) (x : CVal a) : Checked Fault State (CVal t) := exact f t x.val

/-- `x < y`. -/
def lt (f : Fault) (x : CVal a) (y : CVal b) : Checked Fault State Bool := do
  let x ← convert f (a.common b) x
  let y ← convert f (a.common b) y
  pure (decide (x.val < y.val))

/-- `x + y`. -/
def add (f : Fault) (x : CVal a) (y : CVal b) : Checked Fault State (CVal (a.common b)) := do
  let x ← convert f (a.common b) x
  let y ← convert f (a.common b) y
  exact f (a.common b) (x.val + y.val)

/-- `x * y`. -/
def mul (f : Fault) (x : CVal a) (y : CVal b) : Checked Fault State (CVal (a.common b)) := do
  let x ← convert f (a.common b) x
  let y ← convert f (a.common b) y
  exact f (a.common b) (x.val * y.val)

/-- `x - y` for two lengths; it must not be negative either. -/
def sub (f : Fault) (x : CVal a) (y : CVal b) : Checked Fault State (CVal (a.common b)) := do
  let x ← convert f (a.common b) x
  let y ← convert f (a.common b) y
  ensure (0 ≤ x.val - y.val) f
  exact f (a.common b) (x.val - y.val)

variable {x : CVal a} {y : CVal b}

theorem wp_exact {Q : CVal t → State → Prop} (h : t.Has v)
    (hpost : ∀ z : CVal t, z.val = v → Q z s) : wp (exact f t v) Q s := by
  simp only [exact, wp_bind, wp_ensure, wp_pure]
  exact ⟨h, hpost _ (val_ofInt h)⟩

theorem wp_convert {Q : CVal t → State → Prop} (h : t.Has x.val)
    (hpost : ∀ z : CVal t, z.val = x.val → Q z s) : wp (convert f t x) Q s := wp_exact h hpost

/-- Both operands of an operation, which are lengths. -/
theorem wp_convert_both {α : Type} {k : CVal (a.common b) → CVal (a.common b) → Checked Fault State α}
    {Q : α → State → Prop}
    (h : 0 ≤ x.val ∧ x.val ≤ 2147483647 ∧ 0 ≤ y.val ∧ y.val ≤ 2147483647)
    (hpost : ∀ x' y' : CVal (a.common b), x'.val = x.val → y'.val = y.val → wp (k x' y') Q s) :
    wp (do k (← convert f (a.common b) x) (← convert f (a.common b) y)) Q s := by
  simp only [wp_bind]
  exact wp_convert (CType.common_has a b h.1 h.2.1) fun x' hx' =>
    wp_convert (CType.common_has a b h.2.2.1 h.2.2.2) fun y' hy' => hpost x' y' hx' hy'

theorem wp_lt {Q : Bool → State → Prop}
    (h : 0 ≤ x.val ∧ x.val ≤ 2147483647 ∧ 0 ≤ y.val ∧ y.val ≤ 2147483647)
    (hpost : Q (decide (x.val < y.val)) s) : wp (lt f x y) Q s := by
  refine wp_convert_both h fun x' y' hx' hy' => ?_
  rw [wp_pure, hx', hy']
  exact hpost

variable {Q : CVal (a.common b) → State → Prop}

theorem wp_add (h : 0 ≤ x.val ∧ 0 ≤ y.val ∧ x.val + y.val ≤ 2147483647)
    (hpost : ∀ z : CVal (a.common b), z.val = x.val + y.val → Q z s) : wp (add f x y) Q s := by
  refine wp_convert_both (by omega) fun x' y' hx' hy' => ?_
  rw [hx', hy']
  exact wp_exact (CType.common_has a b (by omega) h.2.2) hpost

theorem wp_mul (h : 0 ≤ x.val ∧ x.val ≤ 2147483647 ∧ 0 ≤ y.val ∧ y.val ≤ 2147483647)
    (hle : x.val * y.val ≤ 2147483647)
    (hpost : ∀ z : CVal (a.common b), z.val = x.val * y.val → Q z s) : wp (mul f x y) Q s := by
  refine wp_convert_both h fun x' y' hx' hy' => ?_
  rw [hx', hy']
  exact wp_exact (CType.common_has a b (mul_nonneg h.1 h.2.2.1) hle) hpost

theorem wp_sub (h : 0 ≤ y.val ∧ y.val ≤ x.val ∧ x.val ≤ 2147483647)
    (hpost : ∀ z : CVal (a.common b), z.val = x.val - y.val → Q z s) : wp (sub f x y) Q s := by
  refine wp_convert_both (by omega) fun x' y' hx' hy' => ?_
  rw [wp_bind, wp_ensure, hx', hy']
  exact ⟨by omega, wp_exact (CType.common_has a b (by omega) (by omega)) hpost⟩

end CVal

end Tun2Socks.Framework
