import Tun2Socks.Net.Ipv6Text

/-!
# Which texts are IPv6 addresses

The texts of addresses as a relation between texts and addresses (`Denotes`): eight groups, `::`
for groups of zeros, and an IPv4 address in place of the last two groups. As in the tests of the
parser, a group may have any number of digits as long as its value fits 16 bits.

`::` stands for one group at least. The code does not check this: it lets `::` stand for no group at
all, as long as not all eight groups are in front of it. With `gap` set, `Denotes` has only the texts
in which `::` stands for something, and without it those of the code; the two differ in the texts in
which `::` is beside eight groups (`Crowded`). The numbers that groups and octets stand for are at the
end.
-/

namespace Tun2Socks.Net

open Framework

/-! ### The grammar -/

/-- The number that is read from digits behind the number `v`, if all of them are digits. -/
def readFrom (decode : Byte → Option ℕ) (base v : ℕ) (text : List Byte) : Option ℕ :=
  text.foldlM (fun v c => (decode c).map (v * base + ·)) v

/-- A group of hexadecimal digits. -/
structure Group (text : List Byte) (v : ℕ) : Prop where
  ne_nil : text ≠ []
  value : readFrom decodeHexDigit 16 0 text = some v
  lt : v < 65536

/-- A decimal number below 256 without a leading zero. -/
structure Octet (text : List Byte) (v : ℕ) : Prop where
  ne_nil : text ≠ []
  value : readFrom decodeDecimalDigit 10 0 text = some v
  lt : v < 256
  zero : text.head? = some 48 → text = [48]

/-- Numbers with dots between them. -/
inductive Octets : List Byte → List Byte → Prop
  | one {t : List Byte} {v : ℕ} : Octet t v → Octets t [UInt8.ofNat v]
  | cons {t rest bs : List Byte} {v : ℕ} :
    Octet t v → Octets rest bs → Octets (t ++ 46 :: rest) (UInt8.ofNat v :: bs)

/-- Groups with colons between them. The last of them may be an IPv4 address, where `tail` is
set. -/
inductive Pieces (tail : Bool) : List Byte → List Byte → Prop
  | group {t : List Byte} {v : ℕ} : Group t v → Pieces tail t (blockBytes v)
  | dotted {t bs : List Byte} : tail = true → Octets t bs → bs.length = 4 → Pieces tail t bs
  | cons {t rest bs : List Byte} {v : ℕ} :
    Group t v → Pieces tail rest bs → Pieces tail (t ++ 58 :: rest) (blockBytes v ++ bs)

/-- What is on one side of `::`, which may be nothing. -/
def Part (tail : Bool) (t bs : List Byte) : Prop := t = [] ∧ bs = [] ∨ Pieces tail t bs

/-- The address that a text denotes: all groups are there, or `::` stands for `n` of them. -/
inductive Denotes (gap : Bool) (text : List Byte) (addr : Buffer Byte 16) : Prop
  | full (h : Pieces true text addr.cells)
  | compressed {front rear fb rb : List Byte} {n : ℕ} (htext : text = front ++ 58 :: 58 :: rear)
    (hfront : Part false front fb) (hrear : Part true rear rb)
    (hroom : fb.length < 16) (hzeros : gap = true → 0 < n)
    (haddr : addr.cells = fb ++ List.replicate (2 * n) 0 ++ rb)

section Numbers

variable {decode : Byte → Option ℕ} {base v v' d : ℕ} {c : Byte} {w : List Byte}

theorem readFrom_cons (h : decode c = some d) :
    readFrom decode base v (c :: w) = readFrom decode base (v * base + d) w := by
  simp [readFrom, h]

theorem isSome_of_readFrom (h : readFrom decode base v w = some v') :
    ∀ c ∈ w, (decode c).isSome = true := by
  induction w generalizing v with
  | nil => exact fun c hc => nomatch hc
  | cons c _ ih =>
    cases h_c : decode c with
    | none => simp [readFrom, h_c] at h
    | some =>
      rw [readFrom_cons h_c] at h
      exact List.forall_mem_cons.mpr ⟨by rw [h_c, Option.isSome_some], ih h⟩

theorem readFrom_concat (h : readFrom decode base v w = some v') (hc : decode c = some d) :
    readFrom decode base v (w ++ [c]) = some (v' * base + d) := by
  rw [readFrom] at h
  rw [readFrom, List.foldlM_append, h]
  simp [hc]

theorem exists_readFrom (h : ∀ c ∈ w, (decode c).isSome = true) :
    ∃ v', readFrom decode base v w = some v' := by
  induction w generalizing v with
  | nil => exact ⟨v, rfl⟩
  | cons _ _ ih =>
    obtain ⟨hc, hw⟩ := List.forall_mem_cons.mp h
    obtain ⟨d, hd⟩ := Option.isSome_iff_exists.mp hc
    rw [readFrom_cons hd]
    exact ih hw

/-- Every digit multiplies the number by the base. -/
theorem readFrom_bounds (hdigit : ∀ c d, decode c = some d → d < base)
    (h : readFrom decode base v w = some v') :
    v * base ^ w.length ≤ v' ∧ v' < (v + 1) * base ^ w.length := by
  induction w generalizing v with
  | nil =>
    obtain rfl : v = v' := Option.some.inj h
    simp
  | cons c w ih =>
    obtain ⟨d, hd⟩ := Option.isSome_iff_exists.mp (isSome_of_readFrom h c List.mem_cons_self)
    have hlt := hdigit c d hd
    rw [readFrom_cons hd] at h
    obtain ⟨hlow, hhigh⟩ := ih h
    rw [List.length_cons, pow_succ']
    constructor
    · calc v * (base * base ^ w.length) = v * base * base ^ w.length := (mul_assoc _ _ _).symm
        _ ≤ (v * base + d) * base ^ w.length := Nat.mul_le_mul_right _ (Nat.le_add_right _ _)
        _ ≤ v' := hlow
    · calc v' < (v * base + d + 1) * base ^ w.length := hhigh
        _ ≤ (v + 1) * base * base ^ w.length :=
          Nat.mul_le_mul_right _ (by rw [Nat.add_mul]; omega)
        _ = (v + 1) * (base * base ^ w.length) := mul_assoc _ _ _

theorem decodeHexDigit_lt (c : Byte) (d : ℕ) (h : decodeHexDigit c = some d) : d < 16 := by
  have hlt := c.toNat_lt
  unfold decodeHexDigit at h
  split_ifs at h with h₁ h₂ h₃ <;> obtain rfl := Option.some.inj h <;>
    simp only [UInt8.le_iff_toNat_le] at * <;> simp at * <;> omega

theorem decodeDecimalDigit_lt (c : Byte) (d : ℕ) (h : decodeDecimalDigit c = some d) : d < 10 := by
  unfold decodeDecimalDigit at h
  split_ifs at h with hc
  cases h
  simp only [UInt8.le_iff_toNat_le] at hc
  simp at hc
  omega

/-- The only digit with the value zero is `0`. -/
theorem decimal_pos (h : decodeDecimalDigit c = some d) (hzero : c ≠ 48) : 0 < d := by
  unfold decodeDecimalDigit at h
  split_ifs at h with hc
  cases h
  rw [ne_eq, ← UInt8.toNat_inj] at hzero
  simp only [UInt8.le_iff_toNat_le] at hc
  simp at hc hzero
  omega

theorem decodeHexDigit_of_decimal (h : decodeDecimalDigit c = some d) :
    decodeHexDigit c = some d := by
  unfold decodeDecimalDigit at h
  split_ifs at h with hc
  rw [decodeHexDigit, if_pos hc, h]

/-- No separator is a digit. -/
theorem ne_of_decode (h : decodeHexDigit c = some d) : c ≠ 46 ∧ c ≠ 58 := by
  constructor <;> (rintro rfl; cases h)

theorem Octet.hex (h : Octet w v) : ∀ c ∈ w, (decodeHexDigit c).isSome = true := by
  intro c hc
  obtain ⟨d, hd⟩ := Option.isSome_iff_exists.mp (isSome_of_readFrom h.value c hc)
  rw [decodeHexDigit_of_decimal hd, Option.isSome_some]

/-- An octet has at most three digits, so it would be a group as well. -/
theorem Octet.group (h : Octet w v) : ∃ v', Group w v' := by
  have hlen : w.length ≤ 3 := by
    cases w with
    | nil => exact absurd rfl h.ne_nil
    | cons c w =>
      by_cases hzero : c = 48
      · obtain rfl : w = [] := (List.cons.inj (h.zero (congrArg some hzero))).2
        exact Nat.le_add_left 1 2
      · -- the first digit is not zero, so every further one makes the number ten times as large
        obtain ⟨d, hd⟩ :=
          Option.isSome_iff_exists.mp (isSome_of_readFrom h.value c List.mem_cons_self)
        have hvalue := h.value
        rw [readFrom_cons hd, Nat.zero_mul, Nat.zero_add] at hvalue
        have hlow := (readFrom_bounds decodeDecimalDigit_lt hvalue).1
        by_contra hlong
        have hpow : 10 ^ 3 ≤ 10 ^ w.length :=
          Nat.pow_le_pow_right (by decide) (by rw [List.length_cons] at hlong; omega)
        have hmul : 10 ^ w.length ≤ d * 10 ^ w.length :=
          Nat.le_mul_of_pos_left _ (decimal_pos hd hzero)
        have hlt := h.lt
        omega
  obtain ⟨v', hv'⟩ := @exists_readFrom decodeHexDigit 16 0 w h.hex
  have hhigh := (readFrom_bounds decodeHexDigit_lt hv').2
  have hpow : 16 ^ w.length ≤ 16 ^ 3 := Nat.pow_le_pow_right (by decide) hlen
  exact ⟨v', h.ne_nil, hv', by omega⟩

theorem Octets.ne_nil {text bs : List Byte} (h : Octets text bs) : bs ≠ [] := by
  cases h <;> exact List.cons_ne_nil _ _

/-- The text of groups does not start with a colon. -/
theorem Pieces.head {tail : Bool} {t bs : List Byte} (h : Pieces tail t bs) :
    ∃ c r, t = c :: r ∧ c ≠ 58 := by
  have hhex {t : List Byte} (hne : t ≠ []) (hall : ∀ c ∈ t, (decodeHexDigit c).isSome = true)
      (r : List Byte) : ∃ c r', t ++ r = c :: r' ∧ c ≠ 58 := by
    obtain ⟨c, t, rfl⟩ := List.exists_cons_of_ne_nil hne
    obtain ⟨d, hd⟩ := Option.isSome_iff_exists.mp (hall c List.mem_cons_self)
    exact ⟨c, t ++ r, rfl, (ne_of_decode hd).2⟩
  cases h with
  | group h => simpa using hhex h.ne_nil (isSome_of_readFrom h.value) []
  | dotted _ h =>
    cases h with
    | one h => simpa using hhex h.ne_nil h.hex []
    | cons h => exact hhex h.ne_nil h.hex _
  | cons h => exact hhex h.ne_nil (isSome_of_readFrom h.value) _

theorem Pieces.two_le {tail : Bool} {t bs : List Byte} (h : Pieces tail t bs) : 2 ≤ bs.length := by
  cases h with
  | group => exact le_rfl
  | dotted _ _ hlen => exact hlen ▸ Nat.le_add_left 2 2
  | cons => exact List.length_append ▸ Nat.le_add_right 2 _

end Numbers

end Tun2Socks.Net
