import Tun2Socks.Framework.Comparator
import Tun2Socks.UdpGw.Client
import Tun2Socks.UdpGw.Gateway

/-!
# The comparators of addresses

`BAddr_CompareOrder`, `BAddr_Compare` and `conaddr_comparator` as the code has them, with the
numbers they return. `BAVL` takes a comparison for "greater" only if it is 1 (`readComparison`), so
a comparator that returned another positive number would send searches to the wrong side. `memcmp`
may return any number with the right sign (`MemCmp`).

The functions give the signs of the comparisons `bAddrCompareOrder` and `conaddrComparator`
(`bAddrCompareOrderInt_eq`, `conaddrComparatorInt_eq`), which are known to be orders.
-/

namespace Tun2Socks.UdpGw.Client

open Framework Net Std

/-- `B_COMPARE`. -/
def bCompare (a b : ℤ) : ℤ := (if b < a then 1 else 0) - if a < b then 1 else 0

/-- `memcmp` of the C library. -/
structure MemCmp where
  run : {n : ℕ} → Buffer Byte n → Buffer Byte n → ℤ
  neg_iff : ∀ {n : ℕ} (b1 b2 : Buffer Byte n), run b1 b2 < 0 ↔ memcmp b1 b2 = .lt
  zero_iff : ∀ {n : ℕ} (b1 b2 : Buffer Byte n), run b1 b2 = 0 ↔ memcmp b1 b2 = .eq

/-- There is one that returns -1, 0 and 1. -/
instance : Inhabited MemCmp where
  default :=
    { run := fun b1 b2 => signOf (memcmp b1 b2)
      neg_iff := fun b1 b2 => by cases memcmp b1 b2 <;> decide
      zero_iff := fun _ _ => signOf_eq_zero }

variable (o : ByteOrder) (m : MemCmp)

/-- `BAddr_CompareOrder`. -/
def bAddrCompareOrderInt (addr1 addr2 : BAddr) : ℤ :=
  let cmp := bCompare addr1.type addr2.type
  if cmp ≠ 0 then cmp
  else
    match addr1, addr2 with
    | .none, .none => 0
    | .ipv4 ip1 port1, .ipv4 ip2 port2 =>
      let cmp := bCompare ((ntoh32 o (word32At ip1.cells 0)).toNat o)
        ((ntoh32 o (word32At ip2.cells 0)).toNat o)
      if cmp ≠ 0 then cmp else bCompare ((ntoh16 o port1).toNat o) ((ntoh16 o port2).toNat o)
    | .ipv6 ip1 port1, .ipv6 ip2 port2 =>
      let cmp := m.run ip1 ip2
      if cmp ≠ 0 then bCompare cmp 0
      else bCompare ((ntoh16 o port1).toNat o) ((ntoh16 o port2).toNat o)
    | _, _ => 0

/-- `BAddr_Compare`. -/
def bAddrCompareInt (addr1 addr2 : BAddr) : ℤ :=
  if addr1.type ≠ addr2.type then 0
  else
    match addr1, addr2 with
    | .ipv4 ip1 port1, .ipv4 ip2 port2 =>
      if (word32At ip1.cells 0).toNat o = (word32At ip2.cells 0).toNat o ∧
        port1.toNat o = port2.toNat o then 1 else 0
    | .ipv6 ip1 port1, .ipv6 ip2 port2 =>
      if m.run ip1 ip2 = 0 ∧ port1.toNat o = port2.toNat o then 1 else 0
    | _, _ => 0

/-- `conaddr_comparator`. -/
def conaddrComparatorInt (v1 v2 : ConAddr) : ℤ :=
  let r := bAddrCompareOrderInt o m v1.remoteAddr v2.remoteAddr
  if r ≠ 0 then r else bAddrCompareOrderInt o m v1.localAddr v2.localAddr

/-- What `BAVL` makes of the result of a comparator. -/
def readComparison (comp : ℤ) : Ordering :=
  if comp = 0 then .eq else if comp = 1 then .gt else .lt

/-! ### The signs of comparisons -/

theorem bCompare_eq (a b : ℤ) : bCompare a b = signOf (compare a b) := (signOf_compare a b).symm

theorem bCompare_natCast (a b : ℕ) : bCompare a b = signOf (compare a b) := by
  have hcast : compare (a : ℤ) b = compare a b := by
    simp only [compare, compareOfLessAndEq, Nat.cast_lt, Nat.cast_inj]
  rw [bCompare_eq, hcast]

theorem MemCmp.bCompare_run {n : ℕ} (b1 b2 : Buffer Byte n) :
    bCompare (m.run b1 b2) 0 = signOf (memcmp b1 b2) := by
  have hneg := m.neg_iff b1 b2
  have hzero := m.zero_iff b1 b2
  rw [bCompare]
  cases h : memcmp b1 b2 with
  | lt =>
    have hlt := hneg.mpr h
    rw [if_neg hlt.asymm, if_pos hlt]
    rfl
  | eq =>
    rw [hzero.mpr h, if_neg (lt_irrefl 0)]
    rfl
  | gt =>
    have hgt : 0 < m.run b1 b2 := by
      rw [h] at hneg hzero
      have hnot_neg := mt hneg.mp (by decide)
      have hnot_zero := mt hzero.mp (by decide)
      omega
    rw [if_pos hgt, if_neg hgt.asymm]
    rfl

/-- A comparison of texts of the same length decides, and then another one does. -/
theorem MemCmp.then_eq {n : ℕ} (b1 b2 : Buffer Byte n) (x : Ordering) :
    (if m.run b1 b2 ≠ 0 then bCompare (m.run b1 b2) 0 else signOf x)
      = signOf ((memcmp b1 b2).then x) := by
  rw [signOf_then, MemCmp.bCompare_run]
  refine if_congr (not_congr ?_) rfl rfl
  rw [m.zero_iff, signOf_eq_zero]

theorem bAddrCompareOrderInt_eq (addr1 addr2 : BAddr) :
    bAddrCompareOrderInt o m addr1 addr2 = signOf (bAddrCompareOrder o addr1 addr2) := by
  unfold bAddrCompareOrderInt bAddrCompareOrder
  rw [signOf_then, bCompare_natCast]
  refine ite_congr rfl (fun _ => rfl) fun _ => ?_
  cases addr1 <;> cases addr2 <;> try rfl
  · simp only [bCompare_natCast, signOf_then]
  · simp only [bCompare_natCast, m.then_eq]

theorem conaddrComparatorInt_eq (v1 v2 : ConAddr) :
    conaddrComparatorInt o m v1 v2 = signOf (conaddrComparator o v1 v2) := by
  rw [conaddrComparatorInt, bAddrCompareOrderInt_eq, bAddrCompareOrderInt_eq, ← signOf_then]
  rfl

theorem readComparison_signOf (x : Ordering) : readComparison (signOf x) = x := by
  cases x <;> rfl

/-! ### Equality -/

theorem bAddrCompareOrderInt_eq_zero (addr1 addr2 : BAddr) :
    bAddrCompareOrderInt o m addr1 addr2 = 0 ↔ addr1 = addr2 := by
  rw [bAddrCompareOrderInt_eq, signOf_eq_zero]
  exact LawfulEqCmp.compare_eq_iff_eq

/-- An IPv4 address is known by the number that the host reads. -/
theorem toNat_word32At {ip1 ip2 : Buffer Byte 4} :
    (word32At ip1.cells 0).toNat o = (word32At ip2.cells 0).toNat o ↔ ip1 = ip2 := by
  refine ⟨fun h => ?_, fun h => by rw [h]⟩
  have hswap (w : Word32) : ntoh32 o (hton32 o w) = w := by
    cases o <;> rfl
  have hwords : hton32 o (word32At ip1.cells 0) = hton32 o (word32At ip2.cells 0) := by
    apply ntoh32_toNat_injective o
    simp only [hswap]
    exact h
  apply word32At_cells_injective
  have hback := congrArg (ntoh32 o) hwords
  rwa [hswap, hswap] at hback

theorem MemCmp.run_eq_zero {n : ℕ} (b1 b2 : Buffer Byte n) : m.run b1 b2 = 0 ↔ b1 = b2 := by
  rw [m.zero_iff, memcmp, LawfulEqCmp.compare_eq_iff_eq]
  exact toNat_cells_injective.eq_iff

/-- `BAddr_Compare` is what the model of the gateway takes it for. -/
theorem bAddrCompareInt_eq (addr1 addr2 : BAddr) :
    bAddrCompareInt o m addr1 addr2 = if Gateway.bAddrCompare addr1 addr2 then 1 else 0 := by
  unfold bAddrCompareInt
  cases addr1 <;> cases addr2
  all_goals simp [BAddr.type, Gateway.bAddrCompare, toNat_word32At, m.run_eq_zero,
    (toNat_injective o).eq_iff]

theorem bAddrCompareInt_eq_one (addr1 addr2 : BAddr) :
    bAddrCompareInt o m addr1 addr2 = 1 ↔ addr1 ≠ .none ∧ addr1 = addr2 := by
  rw [bAddrCompareInt_eq]
  split_ifs with h
  · exact iff_of_true rfl (of_decide_eq_true h)
  · exact iff_of_false (by decide) fun heq => h (decide_eq_true heq)

/-! ### Total orders -/

/-- What the trees and the tables rely on. -/
structure AddressOrders : Prop where
  bAddr : IntOrder (bAddrCompareOrderInt o m)
  bAddr_zero : ∀ addr1 addr2, addr1 ≠ .none →
    (bAddrCompareOrderInt o m addr1 addr2 = 0 ↔ bAddrCompareInt o m addr1 addr2 = 1)
  conaddr : IntOrder (conaddrComparatorInt o m)
  conaddr_zero : ∀ v1 v2, conaddrComparatorInt o m v1 v2 = 0 ↔
    v1.localAddr = v2.localAddr ∧ v1.remoteAddr = v2.remoteAddr
  /-- The comparator, as `BAVL` reads it, is the order of the tree by pair. -/
  tree : TransCmp fun v1 v2 => readComparison (conaddrComparatorInt o m v1 v2)

/-- **The comparators are total orders**, on hosts of either byte order and with every `memcmp`. -/
theorem addressOrders : AddressOrders o m where
  bAddr := intOrder_of_transCmp (bAddrCompareOrderInt_eq o m)
  bAddr_zero addr1 addr2 htype := by
    rw [bAddrCompareOrderInt_eq_zero, bAddrCompareInt_eq_one]
    exact (and_iff_right htype).symm
  conaddr := intOrder_of_transCmp (conaddrComparatorInt_eq o m)
  conaddr_zero v1 v2 := by
    rw [conaddrComparatorInt_eq, signOf_eq_zero, LawfulEqCmp.compare_eq_iff_eq]
    cases v1
    cases v2
    rw [ConAddr.mk.injEq]
  tree := by
    simp only [conaddrComparatorInt_eq, readComparison_signOf]
    exact inferInstanceAs (TransCmp (conaddrComparator o))

end Tun2Socks.UdpGw.Client
