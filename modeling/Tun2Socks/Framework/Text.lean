import Mathlib
import Tun2Socks.Framework.Buffer

/-!
# Text in C

C strings, the numbers that `sprintf` prints and the ones that `strtol` reads.

* `CString` is a string without its terminator; `CString.memory` is what lies in memory, and
  `strlen_memory` says that `strlen` finds the terminator where it was put.
* `decimal` and `hexadecimal` are the conversions `%u` and `%x`. Neither prints a NUL, and
  `decimal` prints digits only.
* `strtol` skips white space, takes a sign and reads digits as far as they go. It reads back
  what `decimal` printed (`strtol_decimal`), which is why `decimal` is injective.
-/

namespace Tun2Socks.Framework

/-! ### C strings -/

/-- A C string, without the NUL that ends it. -/
structure CString where
  chars : List Byte
  noNul : 0 ∉ chars
  deriving DecidableEq

namespace CString

/-- The bytes of the string in memory. -/
def memory (s : CString) : List Byte := s.chars ++ [0]

/-- The length `strlen` finds in memory that starts with a C string. -/
def strlen (memory : List Byte) : ℕ := (memory.takeWhile (· ≠ 0)).length

instance : Append CString where
  append s t := ⟨s.chars ++ t.chars, fun h => (List.mem_append.mp h).elim s.noNul t.noNul⟩

@[simp] theorem chars_append (s t : CString) : (s ++ t).chars = s.chars ++ t.chars := rfl

@[ext] theorem ext {s t : CString} (h : s.chars = t.chars) : s = t := by
  cases s
  cases t
  congr

/-- `""`. -/
def empty : CString := ⟨[], List.not_mem_nil⟩

/-- The strings, with `sep` between each two of them. -/
def join (sep : CString) : List CString → CString
  | [] => empty
  | [s] => s
  | s :: t :: ts => s ++ (sep ++ join sep (t :: ts))

/-- The C string up to the first byte that fails the test. -/
def takeWhile (p : Byte → Bool) (s : CString) : CString :=
  ⟨s.chars.takeWhile p, fun h => s.noNul (List.takeWhile_subset p h)⟩

theorem chars_join (sep : CString) (ss : List CString) :
    (join sep ss).chars = sep.chars.intercalate (ss.map chars) := by
  induction ss using join.induct with
  | case1 => rfl
  | case2 s => exact (List.append_nil _).symm
  | case3 s t ts ih =>
    rw [join, chars_append, chars_append, ih]
    exact (List.intercalate_cons_cons.trans (List.append_assoc _ _ _)).symm

theorem mem_join {sep : CString} {ss : List CString} {b : Byte} (h : b ∈ (join sep ss).chars) :
    b ∈ sep.chars ∨ ∃ s ∈ ss, b ∈ s.chars := by
  induction ss using join.induct with
  | case1 => cases h
  | case2 s => exact .inr ⟨s, List.mem_cons_self, h⟩
  | case3 s t ts ih =>
    rw [join, chars_append, List.mem_append, chars_append, List.mem_append] at h
    obtain h | h | h := h
    · exact .inr ⟨s, List.mem_cons_self, h⟩
    · exact .inl h
    · obtain h | ⟨u, hu, hb⟩ := ih h
      · exact .inl h
      · exact .inr ⟨u, List.mem_cons_of_mem s hu, hb⟩

theorem length_join_le {sep : CString} {ss : List CString} {k : ℕ}
    (h : ∀ s ∈ ss, s.chars.length ≤ k) :
    (join sep ss).chars.length ≤ ss.length * (sep.chars.length + k) := by
  induction ss using join.induct with
  | case1 => exact Nat.zero_le _
  | case2 s =>
    have := h s List.mem_cons_self
    change s.chars.length ≤ 1 * _
    omega
  | case3 s t ts ih =>
    have hhead := h s List.mem_cons_self
    have htail := ih fun u hu => h u (List.mem_cons_of_mem s hu)
    calc (join sep (s :: t :: ts)).chars.length
        = s.chars.length + (sep.chars.length + (join sep (t :: ts)).chars.length) := by
          rw [join, chars_append, List.length_append, chars_append, List.length_append]
      _ ≤ (sep.chars.length + k) + (t :: ts).length * (sep.chars.length + k) := by omega
      _ = (s :: t :: ts).length * (sep.chars.length + k) := by
          change _ = ((t :: ts).length + 1) * _
          ring

theorem strlen_memory (s : CString) : strlen s.memory = s.chars.length := by
  have hchars : s.chars.takeWhile (· ≠ 0) = s.chars := by
    refine List.takeWhile_eq_self_iff.mpr fun b hb => ?_
    exact decide_eq_true fun h => s.noNul (h ▸ hb)
  rw [strlen, memory, List.takeWhile_append, if_pos (by rw [hchars])]
  rw [List.takeWhile_cons_of_neg (by decide), List.append_nil]

end CString

/-! ### Numbers -/

/-- `isdigit`. -/
def isDigit (b : Byte) : Bool := 48 ≤ b && b ≤ 57

/-- `isspace`. -/
def isSpace (b : Byte) : Bool := b == 32 || (9 ≤ b && b ≤ 13)

/-- The characters of a number in base `base`. -/
def digitBytes (base n : ℕ) : List Byte := (Nat.toDigits base n).map Char.toUInt8

/-- The number that decimal digits denote. -/
def ofDigitBytes (ds : List Byte) : ℕ := ds.foldl (fun n b => 10 * n + (b.toNat - 48)) 0

theorem toNat_toUInt8_of_isDigit {c : Char} (h : c.isDigit = true) :
    c.toUInt8.toNat = c.toNat := by
  simp only [Char.isDigit, Bool.and_eq_true, decide_eq_true_eq] at h
  have hle : c.val.toNat ≤ 57 := UInt32.le_iff_toNat_le.mp h.2
  simp only [Char.toUInt8, UInt32.toNat_toUInt8, Char.toNat]
  omega

theorem isDigit_toUInt8 {c : Char} (h : c.isDigit = true) : isDigit c.toUInt8 = true := by
  have htoNat := toNat_toUInt8_of_isDigit h
  simp only [Char.isDigit, Bool.and_eq_true, decide_eq_true_eq] at h
  have hge : 48 ≤ c.val.toNat := UInt32.le_iff_toNat_le.mp h.1
  have hle : c.val.toNat ≤ 57 := UInt32.le_iff_toNat_le.mp h.2
  simp only [isDigit, Bool.and_eq_true, decide_eq_true_eq, UInt8.le_iff_toNat_le, htoNat]
  exact ⟨hge, hle⟩

theorem isDigit_of_mem_digitBytes {n : ℕ} {b : Byte} (h : b ∈ digitBytes 10 n) :
    isDigit b = true := by
  obtain ⟨c, hc, rfl⟩ := List.mem_map.mp h
  exact isDigit_toUInt8 (Nat.isDigit_of_mem_toDigits (by decide) (by decide) hc)

theorem ofDigitBytes_digitBytes (n : ℕ) : ofDigitBytes (digitBytes 10 n) = n := by
  calc ofDigitBytes (digitBytes 10 n)
      = (Nat.toDigits 10 n).foldl (fun m c => 10 * m + (c.toUInt8.toNat - 48)) 0 :=
        List.foldl_map
    _ = (Nat.toDigits 10 n).foldl (fun m c => 10 * m + (c.toNat - 48)) 0 := by
        refine List.foldl_ext _ _ _ fun m c hc => ?_
        rw [toNat_toUInt8_of_isDigit
          (Nat.isDigit_of_mem_toDigits (by decide) (by decide) hc)]
    _ = n := Nat.ofDigitChars_ten_toDigits

/-- No digit is printed as NUL. -/
theorem zero_notMem_digitBytes {base : ℕ} (hbase : 1 < base) (hhex : base ≤ 16) (n : ℕ) :
    0 ∉ digitBytes base n := by
  have hdigit : ∀ d < 16, 0 ∉ [d.digitChar].map Char.toUInt8 := by decide
  induction n using Nat.strong_induction_on with
  | _ n ih =>
    rw [digitBytes, Nat.toDigits_eq_if hbase]
    split_ifs with hlt
    · exact hdigit n (by omega)
    · rw [List.map_append, List.mem_append, not_or]
      refine ⟨ih (n / base) (Nat.div_lt_self (by omega) hbase), ?_⟩
      exact hdigit _ ((Nat.mod_lt _ (by omega)).trans_le hhex)

/-- The conversion `%u`. -/
def decimal (n : ℕ) : CString := ⟨digitBytes 10 n, zero_notMem_digitBytes (by decide) (by decide) n⟩

/-- The conversion `%x`. -/
def hexadecimal (n : ℕ) : CString :=
  ⟨digitBytes 16 n, zero_notMem_digitBytes (by decide) (by decide) n⟩

theorem decimal_ne_nil (n : ℕ) : (decimal n).chars ≠ [] := by
  change (Nat.toDigits 10 n).map Char.toUInt8 ≠ []
  rw [ne_eq, List.map_eq_nil_iff]
  exact Nat.toDigits_ne_nil

theorem isDigit_of_mem_decimal {n : ℕ} {b : Byte} (h : b ∈ (decimal n).chars) :
    isDigit b = true :=
  isDigit_of_mem_digitBytes h

theorem length_decimal_le {n k : ℕ} (hpos : 0 < k) (h : n < 10 ^ k) :
    (decimal n).chars.length ≤ k := by
  change ((Nat.toDigits 10 n).map Char.toUInt8).length ≤ k
  rw [List.length_map]
  exact (Nat.length_toDigits_le_iff (by decide) hpos).mpr h

/-- Take a sign off the front of a number: whether it was a minus, and what follows. -/
def takeSign : List Byte → Bool × List Byte
  | [] => (false, [])
  | b :: bs => if b = 45 then (true, bs) else if b = 43 then (false, bs) else (false, b :: bs)

/-- `strtol(s, &err, 10)`: the number, and the text from `err` on. Numbers beyond `long` are
not cut off: the callers pass a few characters only. -/
def strtol (s : List Byte) : ℤ × List Byte :=
  let (minus, digits) := takeSign (s.dropWhile isSpace)
  let number := digits.takeWhile isDigit
  if number = [] then (0, s)
  else
    (if minus then -(ofDigitBytes number : ℤ) else ofDigitBytes number, digits.dropWhile isDigit)

/-- A digit is neither white space nor a sign. -/
theorem not_space_or_sign_of_isDigit {b : Byte} (h : isDigit b = true) :
    isSpace b = false ∧ b ≠ 45 ∧ b ≠ 43 := by
  simp only [isDigit, Bool.and_eq_true, decide_eq_true_eq, UInt8.le_iff_toNat_le] at h
  simp only [isSpace, Bool.or_eq_false_iff, Bool.and_eq_false_iff, beq_eq_false_iff_ne,
    decide_eq_false_iff_not, UInt8.le_iff_toNat_le, ne_eq, ← UInt8.toNat_inj]
  simp only [UInt8.reduceToNat] at h ⊢
  omega

/-- A number without white space or a sign in front of it is read to its end. -/
theorem strtol_of_isDigit {ds : List Byte} (hne : ds ≠ [])
    (hdigit : ∀ b ∈ ds, isDigit b = true) : strtol ds = ((ofDigitBytes ds : ℤ), []) := by
  obtain ⟨b, bs, rfl⟩ := List.exists_cons_of_ne_nil hne
  obtain ⟨hspace, hminus, hplus⟩ :=
    not_space_or_sign_of_isDigit (hdigit b List.mem_cons_self)
  have hstart : (b :: bs).dropWhile isSpace = b :: bs :=
    List.dropWhile_cons_of_neg (by rw [hspace]; decide)
  have htake : (b :: bs).takeWhile isDigit = b :: bs := List.takeWhile_eq_self_iff.mpr hdigit
  have hdrop : (b :: bs).dropWhile isDigit = [] := List.dropWhile_eq_nil_iff.mpr hdigit
  rw [strtol, hstart, takeSign, if_neg hminus, if_neg hplus]
  dsimp only
  rw [htake, hdrop, if_neg hne, if_neg (by decide)]

/-- **Round trip.** `strtol` reads what `%u` printed. -/
theorem strtol_decimal (n : ℕ) : strtol (decimal n).chars = ((n : ℤ), []) := by
  rw [strtol_of_isDigit (decimal_ne_nil n) fun b hb => isDigit_of_mem_decimal hb]
  rw [show (decimal n).chars = digitBytes 10 n from rfl, ofDigitBytes_digitBytes]

theorem decimal_injective : Function.Injective decimal := by
  intro m n h
  have hchars : digitBytes 10 m = digitBytes 10 n := congrArg CString.chars h
  rw [← ofDigitBytes_digitBytes m, hchars, ofDigitBytes_digitBytes]

end Tun2Socks.Framework
