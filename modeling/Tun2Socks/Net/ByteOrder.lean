import Tun2Socks.Framework.Text

/-!
# Byte order

Numbers of more than one byte, as they lie in memory, and the conversions of `byteorder.h` and
`read_write_int.h`. The program keeps ports, addresses and lengths in network byte order and
converts them where it computes with them, on a host of either `ByteOrder`.

`ofNat_toNat` and `hton16_ntoh16` say that a number survives being read and written.
-/

namespace Tun2Socks.Net

open Framework

/-- The byte order of the host. -/
inductive ByteOrder
  | little
  | big
  deriving DecidableEq, Repr

/-- A `uint16_t` as it lies in memory. -/
structure Word16 where
  b0 : Byte
  b1 : Byte
  deriving DecidableEq, Repr

namespace Word16

/-- The number the host reads. -/
def toNat : ByteOrder → Word16 → ℕ
  | .little, w => 256 * w.b1.toNat + w.b0.toNat
  | .big, w => 256 * w.b0.toNat + w.b1.toNat

/-- What the host writes for the number `n`. -/
def ofNat : ByteOrder → ℕ → Word16
  | .little, n => ⟨UInt8.ofNat n, UInt8.ofNat (n / 256)⟩
  | .big, n => ⟨UInt8.ofNat (n / 256), UInt8.ofNat n⟩

/-- `badvpn_reverse16`. -/
def reverse (w : Word16) : Word16 := ⟨w.b1, w.b0⟩

/-- The bytes in memory. -/
def bytes (w : Word16) : List Byte := [w.b0, w.b1]

end Word16

def hton16 : ByteOrder → Word16 → Word16
  | .little, w => w.reverse
  | .big, w => w

def ntoh16 (o : ByteOrder) (w : Word16) : Word16 := hton16 o w

def htol16 : ByteOrder → Word16 → Word16
  | .little, w => w
  | .big, w => w.reverse

def ltoh16 (o : ByteOrder) (w : Word16) : Word16 := htol16 o w

theorem toNat_lt (o : ByteOrder) (w : Word16) : w.toNat o < 65536 := by
  have h0 := w.b0.toNat_lt
  have h1 := w.b1.toNat_lt
  cases o <;> simp only [Word16.toNat] <;> omega

/-- What the host writes is what it reads. -/
theorem ofNat_toNat (o : ByteOrder) (w : Word16) : Word16.ofNat o (w.toNat o) = w := by
  have h0 := w.b0.toNat_lt
  have h1 := w.b1.toNat_lt
  obtain ⟨b0, b1⟩ := w
  have hlow : ∀ hi lo : Byte, UInt8.ofNat (256 * hi.toNat + lo.toNat) = lo := by
    intro hi lo
    rw [← UInt8.toNat_inj, UInt8.toNat_ofNat']
    have := lo.toNat_lt
    omega
  have hhigh : ∀ hi lo : Byte, UInt8.ofNat ((256 * hi.toNat + lo.toNat) / 256) = hi := by
    intro hi lo
    rw [← UInt8.toNat_inj, UInt8.toNat_ofNat']
    have := hi.toNat_lt
    have := lo.toNat_lt
    omega
  cases o <;> simp only [Word16.toNat, Word16.ofNat, hlow, hhigh]

theorem toNat_ofNat (o : ByteOrder) {n : ℕ} (h : n < 65536) : (Word16.ofNat o n).toNat o = n := by
  cases o <;> simp only [Word16.toNat, Word16.ofNat, UInt8.toNat_ofNat'] <;> omega

theorem toNat_injective (o : ByteOrder) : Function.Injective (Word16.toNat o) :=
  Function.LeftInverse.injective (ofNat_toNat o)

theorem hton16_ntoh16 (o : ByteOrder) (w : Word16) : hton16 o (ntoh16 o w) = w := by
  cases o <;> rfl

theorem ltoh16_htol16 (o : ByteOrder) (w : Word16) : ltoh16 o (htol16 o w) = w := by
  cases o <;> rfl

/-! ### Four bytes -/

/-- A `uint32_t` as it lies in memory. -/
structure Word32 where
  b0 : Byte
  b1 : Byte
  b2 : Byte
  b3 : Byte
  deriving DecidableEq, Repr

namespace Word32

/-- The number the host reads. -/
def toNat : ByteOrder → Word32 → ℕ
  | .little, w => 16777216 * w.b3.toNat + 65536 * w.b2.toNat + 256 * w.b1.toNat + w.b0.toNat
  | .big, w => 16777216 * w.b0.toNat + 65536 * w.b1.toNat + 256 * w.b2.toNat + w.b3.toNat

/-- What the host writes for the number `n`. -/
def ofNat : ByteOrder → ℕ → Word32
  | .little, n =>
    ⟨UInt8.ofNat n, UInt8.ofNat (n / 256), UInt8.ofNat (n / 65536), UInt8.ofNat (n / 16777216)⟩
  | .big, n =>
    ⟨UInt8.ofNat (n / 16777216), UInt8.ofNat (n / 65536), UInt8.ofNat (n / 256), UInt8.ofNat n⟩

/-- `badvpn_reverse32`. -/
def reverse (w : Word32) : Word32 := ⟨w.b3, w.b2, w.b1, w.b0⟩

/-- The bytes in memory. -/
def bytes (w : Word32) : List Byte := [w.b0, w.b1, w.b2, w.b3]

end Word32

def hton32 : ByteOrder → Word32 → Word32
  | .little, w => w.reverse
  | .big, w => w

def ntoh32 (o : ByteOrder) (w : Word32) : Word32 := hton32 o w

/-- A number in network byte order is known by its value. -/
theorem ntoh32_toNat_injective (o : ByteOrder) :
    Function.Injective fun w => (ntoh32 o w).toNat o := by
  have hbig : ∀ w, (ntoh32 o w).toNat o = w.toNat .big := by
    intro w
    cases o <;> rfl
  rintro ⟨a0, a1, a2, a3⟩ ⟨b0, b1, b2, b3⟩ h
  dsimp only at h
  rw [hbig, hbig, Word32.toNat, Word32.toNat] at h
  dsimp only at h
  have := a0.toNat_lt
  have := a1.toNat_lt
  have := a2.toNat_lt
  have := a3.toNat_lt
  have := b0.toNat_lt
  have := b1.toNat_lt
  have := b2.toNat_lt
  have := b3.toNat_lt
  obtain rfl : a0 = b0 := UInt8.toNat_inj.mp (by omega)
  obtain rfl : a1 = b1 := UInt8.toNat_inj.mp (by omega)
  obtain rfl : a2 = b2 := UInt8.toNat_inj.mp (by omega)
  obtain rfl : a3 = b3 := UInt8.toNat_inj.mp (by omega)
  rfl

/-! ### Reading from memory -/

/-- `badvpn_read_be16` at every even offset. -/
def readBe16s : List Byte → List ℕ
  | hi :: lo :: bytes => (256 * hi.toNat + lo.toNat) :: readBe16s bytes
  | _ => []

/-- The byte at an offset. A pointer is the memory from where it points on; memory that is not
listed, which the code would read outside of its block, reads as zero. -/
def byteAt (data : List Byte) (i : ℕ) : Byte := data.getD i 0

/-- The two bytes at an offset. -/
def word16At (data : List Byte) (i : ℕ) : Word16 := ⟨byteAt data i, byteAt data (i + 1)⟩

/-- The four bytes at an offset. -/
def word32At (data : List Byte) (i : ℕ) : Word32 :=
  ⟨byteAt data i, byteAt data (i + 1), byteAt data (i + 2), byteAt data (i + 3)⟩

/-- `memcpy` of `n` bytes from an offset. -/
def bytesAt (n : ℕ) (data : List Byte) (i : ℕ) : Buffer Byte n where
  cells := (List.range n).map fun k => byteAt data (i + k)
  length_eq := by rw [List.length_map, List.length_range]

theorem byteAt_append_right (l r : List Byte) (i : ℕ) :
    byteAt (l ++ r) (l.length + i) = byteAt r i := by
  rw [byteAt, byteAt, List.getD_append_right _ _ _ _ (Nat.le_add_right _ _),
    Nat.add_sub_cancel_left]

theorem word16At_append_right (l r : List Byte) :
    word16At (l ++ r) l.length = word16At r 0 := by
  rw [word16At, word16At, byteAt_append_right]
  exact congrArg (Word16.mk · _) (byteAt_append_right l r 0)

/-- What was copied to memory is read back. -/
theorem bytesAt_append {n : ℕ} (b : Buffer Byte n) (r : List Byte) :
    bytesAt n (b.cells ++ r) 0 = b := by
  obtain ⟨cells, rfl⟩ := b
  rw [Buffer.mk.injEq]
  change (List.range cells.length).map (fun k => byteAt (cells ++ r) (0 + k)) = cells
  refine List.ext_getElem ?_ ?_
  · rw [List.length_map, List.length_range]
  · intro i _ hi
    rw [List.getElem_map, List.getElem_range, Nat.zero_add, byteAt, List.getD_append _ _ _ _ hi,
      List.getD_eq_getElem _ _ hi]

end Tun2Socks.Net
