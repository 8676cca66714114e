import Tun2Socks.Framework.Checked
import Tun2Socks.Framework.Memory
import Tun2Socks.Net.ByteOrder

/-!
# The circular packet buffer

`ChunkBuffer2.h`. A buffer of blocks of four bytes holds packets, each as a block with its length
and the blocks of its bytes, so that no packet is split. The stored packets lie from `start` on for
`used` blocks. They go on at the first block after the block `wrap`, which is where the last packet
ended after which a packet of the MTU would not have fitted.

* `chunkEnd` is where the next header goes, and `inputRegion` what may be written after it.
* `submitPacket` takes the packet that was written at `inputDest`; `consumePacket` drops the first
  packet, which is at `outputDest`.
* Every `ASSERT` is an `ensure`. `BufferOk` and `IoOk` are the conditions of
  `_ChunkBuffer2_assert_buffer` and `_ChunkBuffer2_assert_io`.

`Holds o b packets` says where the packets lie. It has two forms. The packets are `flat` if they
end where one more packet fits behind them, and otherwise they are `wrapped`: some of them end at
`wrap` and the others start over at the first block. In both forms every header is at most at
`lastHeader`, the last block at which a packet of the MTU fits, so that a buffer that is no longer
wrapped has room behind its packets (`Consistent.consumePacket`), and in both at most `mtu` blocks
at the end of the buffer are not used (`Consistent.le_inputAvail`).
-/

namespace Tun2Socks.Structure

open Framework Net

/-- `INT_MAX`. -/
def intMax : ℕ := 2147483647

/-- `bdivide_up`. -/
def bdivideUp (a b : ℕ) : ℕ := if 0 < a % b then a / b + 1 else a / b

/-- `sizeof(struct ChunkBuffer2_block)`. -/
def blockSize : ℕ := 4

/-- `buffer[block].len`. -/
def readLen (o : ByteOrder) (m : Memory) (block : ℕ) : ℤ :=
  let i := blockSize * block
  let n := (Word32.mk (m i) (m (i + 1)) (m (i + 2)) (m (i + 3))).toNat o
  if n ≤ intMax then n else n - 4294967296

/-- `buffer[block].len = len`. -/
def writeLen (o : ByteOrder) (m : Memory) (block len : ℕ) : Memory :=
  m.write (blockSize * block) (Word32.ofNat o len).bytes

structure ChunkBuffer2 where
  buffer : Memory
  size : ℕ
  wrap : ℕ
  start : ℕ
  used : ℕ
  mtu : ℕ
  /-- Pointers are offsets in bytes from the first block, and `none` is `NULL`. -/
  inputDest : Option ℕ
  inputAvail : ℤ
  outputDest : Option ℕ
  outputAvail : ℤ

inductive AssertFailed
  | assert
  deriving DecidableEq, Repr

namespace ChunkBuffer2

/-- `_ChunkBuffer2_end`. -/
def chunkEnd (b : ChunkBuffer2) : ℕ :=
  if b.wrap - b.start ≤ b.used then b.used - (b.wrap - b.start) else b.start + b.used

/-- The number of free blocks from `chunkEnd` on. -/
def free (b : ChunkBuffer2) : ℤ :=
  if b.wrap - b.start ≤ b.used then (b.start : ℤ) - b.chunkEnd else (b.size : ℤ) - b.chunkEnd

/-- What `_ChunkBuffer2_update_input` finds: where a packet may be written and how long it may be.
-/
def inputRegion (b : ChunkBuffer2) : Option ℕ × ℤ :=
  if (b.size : ℤ) - b.chunkEnd - 1 < b.mtu then (none, -1)
  else if 0 < b.free then (some (blockSize * (b.chunkEnd + 1)), (b.free - 1) * blockSize)
  else (none, -1)

/-- `blocklen` of the first packet. -/
def firstBlocklen (o : ByteOrder) (b : ChunkBuffer2) : ℕ :=
  bdivideUp (readLen o b.buffer b.start).toNat blockSize

/-- What `_ChunkBuffer2_update_output` finds: the first packet. -/
def outputRegion (o : ByteOrder) (b : ChunkBuffer2) : Option ℕ × ℤ :=
  if 0 < b.used then (some (blockSize * (b.start + 1)), readLen o b.buffer b.start) else (none, -1)

def BufferOk (b : ChunkBuffer2) : Prop :=
  0 < b.size ∧ 0 < b.wrap ∧ b.wrap ≤ b.size ∧ b.start < b.wrap ∧ b.used ≤ b.wrap ∧
    (b.wrap = b.size ∨ b.wrap - b.start ≤ b.used)

instance (b : ChunkBuffer2) : Decidable b.BufferOk := inferInstanceAs (Decidable (_ ∧ _))

/-- The conditions on the first packet that are checked wherever it is looked at. -/
def FirstOk (o : ByteOrder) (b : ChunkBuffer2) : Prop :=
  0 < b.used → 0 ≤ readLen o b.buffer b.start ∧ (b.firstBlocklen o : ℤ) ≤ (b.used : ℤ) - 1 ∧
    (b.firstBlocklen o : ℤ) ≤ (b.wrap : ℤ) - b.start - 1

instance (o : ByteOrder) (b : ChunkBuffer2) : Decidable (b.FirstOk o) :=
  inferInstanceAs (Decidable (_ → _))

def IoOk (o : ByteOrder) (b : ChunkBuffer2) : Prop :=
  (b.inputDest, b.inputAvail) = b.inputRegion ∧ b.FirstOk o ∧
    (b.outputDest, b.outputAvail) = b.outputRegion o

instance (o : ByteOrder) (b : ChunkBuffer2) : Decidable (b.IoOk o) :=
  inferInstanceAs (Decidable (_ ∧ _))

abbrev M := Checked AssertFailed ChunkBuffer2

def assertBuffer : M Unit := do ensure (← get).BufferOk .assert

def assertIo (o : ByteOrder) : M Unit := do ensure ((← get).IoOk o) .assert

/-- `input_dest` and `input_avail` are set. -/
def withInput (b : ChunkBuffer2) (region : Option ℕ × ℤ) : ChunkBuffer2 :=
  { b with inputDest := region.1, inputAvail := region.2 }

/-- `output_dest` and `output_avail` are set. -/
def withOutput (b : ChunkBuffer2) (region : Option ℕ × ℤ) : ChunkBuffer2 :=
  { b with outputDest := region.1, outputAvail := region.2 }

def updateInput : M Unit := modify fun b => b.withInput b.inputRegion

def updateOutput (o : ByteOrder) : M Unit := do
  ensure ((← get).FirstOk o) .assert
  modify fun b => b.withOutput (b.outputRegion o)

/-- `ChunkBuffer2_calc_blocks`. -/
def calcBlocks (chunkLen num : ℕ) : ℤ :=
  let chunkDataBlocks := bdivideUp chunkLen blockSize
  if intMax - 1 < chunkDataBlocks then -1
  else
    let chunkBlocks := 1 + chunkDataBlocks
    if intMax - 1 < num then -1
    else
      let numChunks := num + 1
      if intMax / numChunks < chunkBlocks then -1 else (chunkBlocks * numChunks : ℕ)

/-- The fields that `ChunkBuffer2_Init` sets first. -/
def initial (buffer : Memory) (blocks mtu : ℕ) (b : ChunkBuffer2) : ChunkBuffer2 :=
  { b with buffer, size := blocks, wrap := blocks, start := 0, used := 0,
           mtu := bdivideUp mtu blockSize }

/-- `ChunkBuffer2_Init`. -/
def init (o : ByteOrder) (buffer : Memory) (blocks mtu : ℕ) : M Unit := do
  ensure (0 < blocks) .assert
  modify fun b => b.initial buffer blocks mtu
  assertBuffer
  updateInput
  updateOutput o
  assertIo o

/-- The header of a packet is written at `e`, and its blocks become used. -/
def put (o : ByteOrder) (e len blocklen : ℕ) (b : ChunkBuffer2) : ChunkBuffer2 :=
  { b with buffer := writeLen o b.buffer e len, used := b.used + (1 + blocklen) }

/-- The packets wrap at `e` if they do not yet wrap and no packet of the MTU fits from `e` on. -/
def rewrap (e : ℕ) (b : ChunkBuffer2) : ChunkBuffer2 :=
  if b.used ≤ b.wrap - b.start ∧ (b.size : ℤ) - e - 1 < b.mtu then { b with wrap := e } else b

/-- `ChunkBuffer2_SubmitPacket`. -/
def submitPacket (o : ByteOrder) (len : ℕ) : M Unit := do
  ensure ((← get).inputDest ≠ none) .assert
  ensure ((len : ℤ) ≤ (← get).inputAvail) .assert
  assertBuffer
  assertIo o
  let b ← get
  let e := b.chunkEnd
  let blocklen := bdivideUp len blockSize
  ensure ((blocklen : ℤ) ≤ (b.size : ℤ) - e - 1) .assert
  ensure (b.used < b.wrap - b.start ∨ (blocklen : ℤ) ≤ (b.start : ℤ) - e - 1) .assert
  modify (put o e len blocklen)
  modify (rewrap (e + 1 + blocklen))
  assertBuffer
  updateInput
  if (← get).used = 1 + blocklen then updateOutput o
  assertIo o

/-- The blocks of the first packet are dropped, and the buffer starts over at its first block when
the last of them ended at `wrap`. -/
def dropFirst (blocklen : ℕ) (b : ChunkBuffer2) : ChunkBuffer2 :=
  if b.start + (1 + blocklen) = b.wrap then
    { b with start := 0, used := b.used - (1 + blocklen), wrap := b.size }
  else { b with start := b.start + (1 + blocklen), used := b.used - (1 + blocklen) }

/-- `ChunkBuffer2_ConsumePacket`. -/
def consumePacket (o : ByteOrder) : M Unit := do
  ensure ((← get).outputDest ≠ none) .assert
  assertBuffer
  assertIo o
  let b ← get
  ensure (1 ≤ b.wrap - b.start) .assert
  ensure (1 ≤ b.used) .assert
  let blocklen := b.firstBlocklen o
  ensure ((blocklen : ℤ) ≤ (b.wrap : ℤ) - b.start - 1) .assert
  ensure ((blocklen : ℤ) ≤ (b.used : ℤ) - 1) .assert
  let dataWrapped := decide (b.wrap - b.start ≤ b.used)
  modify (dropFirst blocklen)
  assertBuffer
  if dataWrapped then updateInput
  updateOutput o
  assertIo o

/-! ### Headers -/

variable {len : ℕ}

theorem readLen_writeLen (o : ByteOrder) (m : Memory) (block : ℕ) (h : len ≤ intMax) :
    readLen o (writeLen o m block len) block = len := by
  have hbyte : ∀ k < 4, writeLen o m block len (blockSize * block + k) =
      (Word32.ofNat o len).bytes.getD k 0 := fun k hk => Memory.write_inside m hk
  have hword : (Word32.ofNat o len).toNat o = len := by
    simp only [intMax] at h
    cases o <;> simp only [Word32.toNat, Word32.ofNat, UInt8.toNat_ofNat'] <;> omega
  have hread : (Word32.mk (writeLen o m block len (blockSize * block))
      (writeLen o m block len (blockSize * block + 1))
      (writeLen o m block len (blockSize * block + 2))
      (writeLen o m block len (blockSize * block + 3))) = Word32.ofNat o len := by
    rw [hbyte 1 (by decide), hbyte 2 (by decide), hbyte 3 (by decide),
      ← Nat.add_zero (blockSize * block), hbyte 0 (by decide)]
    rfl
  simp only [readLen]
  rw [hread, hword, if_pos h]

variable {data : List Byte}

/-- A header is not changed by a write to other blocks. -/
theorem readLen_write (o : ByteOrder) (m : Memory) {block i : ℕ}
    (h : blockSize * (block + 1) ≤ i ∨ i + data.length ≤ blockSize * block) :
    readLen o (m.write i data) block = readLen o m block := by
  simp only [blockSize] at h
  have hbyte : ∀ k < 4, m.write i data (blockSize * block + k) = m (blockSize * block + k) :=
    fun k hk => Memory.write_of_outside m (by simp only [blockSize]; omega)
  simp only [readLen]
  rw [hbyte 1 (by decide), hbyte 2 (by decide), hbyte 3 (by decide),
    Memory.write_of_outside m (by simp only [blockSize]; omega)]

/-! ### Where the packets lie -/

/-- The blocks of a packet and its header. -/
def blocks (packet : List Byte) : ℕ := 1 + bdivideUp packet.length blockSize

theorem le_bdivideUp (len : ℕ) :
    len ≤ 4 * bdivideUp len blockSize ∧ 4 * bdivideUp len blockSize < len + 4 := by
  unfold bdivideUp blockSize
  split <;> omega

/-- The packet is stored at the block `pos`. -/
structure StoredAt (o : ByteOrder) (m : Memory) (pos : ℕ) (packet : List Byte) : Prop where
  header : readLen o m pos = packet.length
  data : m.read (blockSize * (pos + 1)) packet.length = packet

/-- The packets lie one after the other from the block `pos` up to the block `e`, and no header is
after the block `last`. -/
inductive Laid (o : ByteOrder) (m : Memory) (last : ℕ) : ℕ → List (List Byte) → ℕ → Prop
  | nil {e : ℕ} : Laid o m last e [] e
  | cons {pos e : ℕ} {packet : List Byte} {packets : List (List Byte)} :
      pos ≤ last → StoredAt o m pos packet → Laid o m last (pos + blocks packet) packets e →
      Laid o m last pos (packet :: packets) e

variable {o : ByteOrder} {m : Memory} {last pos e : ℕ} {packets : List (List Byte)}

/-- The packets take all blocks from `pos` to `e`. -/
theorem Laid.end_eq (h : Laid o m last pos packets e) : pos + (packets.map blocks).sum = e := by
  induction h with
  | nil => rfl
  | cons _ _ _ ih =>
    rw [List.map_cons, List.sum_cons, ← Nat.add_assoc]
    exact ih

theorem Laid.le (h : Laid o m last pos packets e) : pos ≤ e := by
  have := h.end_eq
  omega

variable {packet : List Byte}

theorem Laid.head (h : Laid o m last pos (packet :: packets) e) :
    pos ≤ last ∧ StoredAt o m pos packet ∧ Laid o m last (pos + blocks packet) packets e := by
  generalize hpackets : packet :: packets = all at h
  cases h with
  | nil => cases hpackets
  | cons hlast hat hrest =>
    obtain ⟨rfl, rfl⟩ := List.cons.inj hpackets
    exact ⟨hlast, hat, hrest⟩

/-- There are packets in the blocks between two places. -/
theorem Laid.exists_cons (h : Laid o m last pos packets e) (hlt : pos < e) :
    ∃ packet rest, packets = packet :: rest := by
  cases h with
  | nil => exact absurd hlt (Nat.lt_irrefl _)
  | cons => exact ⟨_, _, rfl⟩

variable {i : ℕ}

/-- A packet that is not changed by a write. -/
theorem StoredAt.write (h : StoredAt o m pos packet)
    (hout : blockSize * (pos + blocks packet) ≤ i ∨
      i + data.length ≤ blockSize * pos) : StoredAt o (m.write i data) pos packet := by
  have hlen := le_bdivideUp packet.length
  have hblocks : blocks packet = 1 + bdivideUp packet.length blockSize := rfl
  simp only [blockSize] at hout hlen hblocks
  refine ⟨(readLen_write o m ?_).trans h.header, (Memory.read_write_of_disjoint m ?_).trans h.data⟩
  · simp only [blockSize]
    omega
  · simp only [blockSize]
    omega

/-- Packets are not changed by a write before or after them. -/
theorem Laid.write (h : Laid o m last pos packets e)
    (hout : blockSize * e ≤ i ∨ i + data.length ≤ blockSize * pos) :
    Laid o (m.write i data) last pos packets e := by
  simp only [blockSize] at hout
  induction h with
  | nil => exact .nil
  | cons hlast hat hrest ih =>
    have hle := hrest.le
    refine .cons hlast (hat.write ?_) (ih ?_)
    · simp only [blockSize]
      omega
    · omega

theorem Laid.concat (h : Laid o m last pos packets e) (hlast : e ≤ last)
    (hat : StoredAt o m e packet) : Laid o m last pos (packets ++ [packet]) (e + blocks packet) := by
  induction h with
  | nil => exact .cons hlast hat .nil
  | cons hpos hfirst _ ih => exact .cons hpos hfirst (ih hlast hat)

/-- Where every packet is. -/
theorem Laid.exists_positions (h : Laid o m last pos packets e) :
    ∃ layout : List ℕ, List.Forall₂ (fun p packet => StoredAt o m p packet ∧ pos ≤ p ∧
      p + blocks packet ≤ e) layout packets := by
  induction h with
  | nil => exact ⟨[], .nil⟩
  | @cons pos e packet packets _ hat hrest ih =>
    obtain ⟨layout, hlayout⟩ := ih
    refine ⟨pos :: layout, .cons ⟨hat, Nat.le_refl _, hrest.le⟩ (hlayout.imp ?_)⟩
    rintro p packet' ⟨hp, hfrom, hto⟩
    exact ⟨hp, by omega, hto⟩

/-- The last block at which a packet of the MTU fits with its header. -/
def lastHeader (b : ChunkBuffer2) : ℕ := b.size - (b.mtu + 1)

/-- The buffer holds the packets. -/
inductive Holds (o : ByteOrder) (b : ChunkBuffer2) : List (List Byte) → Prop
  | flat {packets : List (List Byte)} : b.wrap = b.size →
      b.start + b.used + (b.mtu + 1) ≤ b.size →
      Laid o b.buffer b.lastHeader b.start packets (b.start + b.used) → Holds o b packets
  | wrapped {front back : List (List Byte)} {e : ℕ} : b.start < b.wrap → b.wrap ≤ b.size →
      b.size ≤ b.wrap + b.mtu → b.start + (b.mtu + 1) ≤ b.size → e ≤ b.start →
      b.used = b.wrap - b.start + e → Laid o b.buffer b.lastHeader b.start front b.wrap →
      Laid o b.buffer b.lastHeader 0 back e → Holds o b (front ++ back)

/-- The block at which the free blocks from `chunkEnd` on end. -/
def limit (b : ChunkBuffer2) : ℕ := if b.wrap - b.start ≤ b.used then b.start else b.size

theorem free_eq (b : ChunkBuffer2) : b.free = (b.limit : ℤ) - b.chunkEnd := by
  unfold free limit
  split <;> rfl

variable {b : ChunkBuffer2}

/-- Where the free blocks are in a flat buffer. -/
theorem region_of_flat (hwrap : b.wrap = b.size) (hroom : b.start + b.used + (b.mtu + 1) ≤ b.size) :
    b.chunkEnd = b.start + b.used ∧ b.limit = b.size := by
  have hflat : ¬ b.wrap - b.start ≤ b.used := by omega
  rw [chunkEnd, limit, if_neg hflat, if_neg hflat]
  exact ⟨rfl, rfl⟩

/-- Where the free blocks are in a wrapped buffer. -/
theorem region_of_wrapped {e : ℕ} (hused : b.used = b.wrap - b.start + e) :
    b.chunkEnd = e ∧ b.limit = b.start := by
  have hwrapped : b.wrap - b.start ≤ b.used := by omega
  rw [chunkEnd, limit, if_pos hwrapped, if_pos hwrapped]
  exact ⟨by omega, rfl⟩

/-- A packet of the MTU fits between `chunkEnd` and the end of the buffer, and the free blocks are
in the buffer. -/
theorem Holds.region (h : Holds o b packets) :
    b.chunkEnd + (b.mtu + 1) ≤ b.size ∧ b.chunkEnd ≤ b.limit ∧ b.limit ≤ b.size := by
  cases h with
  | flat hwrap hroom =>
    obtain ⟨hend, hlimit⟩ := region_of_flat hwrap hroom
    omega
  | wrapped _ _ _ _ _ hused =>
    obtain ⟨hend, hlimit⟩ := region_of_wrapped hused
    omega

theorem Holds.inputRegion_eq (h : Holds o b packets) :
    b.inputRegion = if b.chunkEnd < b.limit then
      (some (blockSize * (b.chunkEnd + 1)), ((b.limit : ℤ) - b.chunkEnd - 1) * blockSize)
    else (none, -1) := by
  obtain ⟨hroom, hle, hlimit⟩ := h.region
  rw [inputRegion, if_neg (by omega), free_eq]
  exact if_congr (by omega) rfl rfl

theorem Holds.bufferOk (h : Holds o b packets) : b.BufferOk := by
  unfold BufferOk
  cases h with
  | flat | wrapped => omega

theorem Holds.used_eq_zero (h : Holds o b []) : b.used = 0 := by
  generalize hpackets : ([] : List (List Byte)) = packets at h
  cases h with
  | flat _ _ hlaid =>
    subst hpackets
    have := hlaid.end_eq
    simp only [List.map_nil, List.sum_nil] at this
    omega
  | wrapped hstart _ _ _ _ _ hfront =>
    obtain ⟨packet, rest, rfl⟩ := hfront.exists_cons hstart
    cases hpackets

/-- The first packet lies at `start`, in one piece. -/
theorem Holds.first (h : Holds o b (packet :: packets)) :
    StoredAt o b.buffer b.start packet ∧ blocks packet ≤ b.used ∧
      b.start + blocks packet ≤ b.wrap := by
  generalize hpackets : packet :: packets = all at h
  cases h with
  | flat _ _ hlaid =>
    subst hpackets
    obtain ⟨-, hat, hrest⟩ := hlaid.head
    have := hrest.le
    exact ⟨hat, by omega, by omega⟩
  | wrapped hstart _ _ _ _ _ hfront =>
    obtain ⟨packet', rest, rfl⟩ := hfront.exists_cons hstart
    rw [List.cons_append, List.cons.injEq] at hpackets
    obtain ⟨rfl, -⟩ := hpackets
    obtain ⟨-, hat, hrest⟩ := hfront.head
    have := hrest.le
    exact ⟨hat, by omega, by omega⟩

theorem firstBlocklen_eq (h : StoredAt o b.buffer b.start packet) :
    1 + b.firstBlocklen o = blocks packet := by
  rw [firstBlocklen, h.header]
  rfl

theorem Holds.firstOk (h : Holds o b packets) : b.FirstOk o := by
  intro hused
  cases packets with
  | nil =>
    have := h.used_eq_zero
    omega
  | cons =>
    obtain ⟨hat, hle_used, hle_wrap⟩ := h.first
    have hblocks := firstBlocklen_eq hat
    exact ⟨hat.header ▸ Int.natCast_nonneg _, by omega, by omega⟩

/-- A write to the free blocks leaves the packets. -/
theorem Holds.write (h : Holds o b packets)
    (hfrom : blockSize * b.chunkEnd ≤ i) (hto : i + data.length ≤ blockSize * b.limit) :
    Holds o { b with buffer := b.buffer.write i data } packets := by
  cases h with
  | flat hwrap hroom hlaid =>
    obtain ⟨hend, -⟩ := region_of_flat hwrap hroom
    rw [hend] at hfrom
    exact .flat hwrap hroom (hlaid.write (.inl hfrom))
  | wrapped hstart hwrap hgap hroom he hused hfront hback =>
    obtain ⟨hend, hlimit⟩ := region_of_wrapped hused
    rw [hend] at hfrom
    rw [hlimit] at hto
    exact .wrapped hstart hwrap hgap hroom he hused (hfront.write (.inr hto))
      (hback.write (.inl hfrom))

/-- The pointers do not matter. -/
theorem Holds.withInput (h : Holds o b packets) (region : Option ℕ × ℤ) :
    Holds o (b.withInput region) packets := by
  cases h with
  | flat hwrap hroom hlaid => exact .flat hwrap hroom hlaid
  | wrapped hstart hwrap hgap hroom he hused hfront hback =>
    exact .wrapped hstart hwrap hgap hroom he hused hfront hback

theorem Holds.withOutput (h : Holds o b packets) (region : Option ℕ × ℤ) :
    Holds o (b.withOutput region) packets := by
  cases h with
  | flat hwrap hroom hlaid => exact .flat hwrap hroom hlaid
  | wrapped hstart hwrap hgap hroom he hused hfront hback =>
    exact .wrapped hstart hwrap hgap hroom he hused hfront hback

/-- Every packet lies in the buffer and outside its free blocks. -/
theorem Holds.exists_positions (h : Holds o b packets) :
    ∃ layout : List ℕ, List.Forall₂ (fun p packet => StoredAt o b.buffer p packet ∧
      p + blocks packet ≤ b.size ∧ (p + blocks packet ≤ b.chunkEnd ∨ b.limit ≤ p))
      layout packets := by
  cases h with
  | flat hwrap hroom hlaid =>
    obtain ⟨hend, -⟩ := region_of_flat hwrap hroom
    obtain ⟨layout, hlayout⟩ := hlaid.exists_positions
    refine ⟨layout, hlayout.imp ?_⟩
    rintro p packet ⟨hat, -, hto⟩
    exact ⟨hat, by omega, .inl (by omega)⟩
  | wrapped _ _ _ _ _ hused hfront hback =>
    obtain ⟨hend, hlimit⟩ := region_of_wrapped hused
    obtain ⟨layout, hlayout⟩ := hfront.exists_positions
    obtain ⟨layout', hlayout'⟩ := hback.exists_positions
    refine ⟨layout ++ layout', List.rel_append (hlayout.imp ?_) (hlayout'.imp ?_)⟩
    · rintro p packet ⟨hat, hfrom, hto⟩
      exact ⟨hat, by omega, .inr (by omega)⟩
    · rintro p packet ⟨hat, -, hto⟩
      exact ⟨hat, by omega, .inl (by omega)⟩

/-! ### The steps -/

/-- The packet that was written behind the header at `chunkEnd`. -/
def written (b : ChunkBuffer2) (len : ℕ) : List Byte :=
  b.buffer.read (blockSize * (b.chunkEnd + 1)) len

/-- A header turns what was written behind it into a packet. -/
theorem storedAt_writeLen (hlen : len ≤ intMax) :
    StoredAt o (writeLen o m e len) e (m.read (blockSize * (e + 1)) len) := by
  have hheader : (Word32.ofNat o len).bytes.length = blockSize := rfl
  constructor
  · rw [Memory.length_read]
    exact readLen_writeLen o m e hlen
  · rw [Memory.length_read]
    exact Memory.read_write_of_disjoint m (.inr (by rw [hheader, Nat.mul_succ]))

/-- The packets are not changed by the header of the next one. -/
theorem Laid.writeLen (h : Laid o m last pos packets e) {block : ℕ}
    (hout : e ≤ block ∨ block < pos) :
    Laid o (writeLen o m block len) last pos packets e := by
  have hheader : (Word32.ofNat o len).bytes.length = 4 := rfl
  refine h.write ?_
  rw [hheader]
  simp only [blockSize]
  omega

/-- **One packet more.** If the packets behind which no packet of the MTU fits become the wrapped
ones, the new packet is the last one. -/
theorem Holds.submit (h : Holds o b packets) (hlen : len ≤ intMax)
    (hfits : b.chunkEnd + (1 + bdivideUp len blockSize) ≤ b.limit) :
    Holds o (rewrap (b.chunkEnd + 1 + bdivideUp len blockSize)
      (put o b.chunkEnd len (bdivideUp len blockSize) b)) (packets ++ [b.written len]) := by
  have hblocks : blocks (b.written len) = 1 + bdivideUp len blockSize := by
    rw [blocks, written, Memory.length_read]
  have hat : StoredAt o (writeLen o b.buffer b.chunkEnd len) b.chunkEnd (b.written len) :=
    storedAt_writeLen hlen
  generalize hn : bdivideUp len blockSize = n at hfits hblocks
  generalize b.written len = packet at hblocks hat
  cases h with
  | flat hwrap hroom hlaid =>
    obtain ⟨hend, hlimit⟩ := region_of_flat hwrap hroom
    rw [hend] at hat hfits ⊢
    rw [hlimit] at hfits
    have hlast : b.start + b.used ≤ b.lastHeader := by
      unfold lastHeader
      omega
    have hlaid' := (hlaid.writeLen (.inl (Nat.le_refl _))).concat hlast hat
    rw [hblocks] at hlaid'
    unfold rewrap
    split
    · -- No packet of the MTU fits behind the new one, so the packets wrap there.
      rename_i hcond
      have hgap : (b.size : ℤ) - (b.start + b.used + 1 + n : ℕ) - 1 < b.mtu := hcond.2
      rw [← List.append_nil (packets ++ [packet])]
      refine .wrapped (e := 0) ?_ ?_ ?_ ?_ (Nat.zero_le _) ?_ ?_ .nil
      · change b.start < b.start + b.used + 1 + n
        omega
      · change b.start + b.used + 1 + n ≤ b.size
        omega
      · change b.size ≤ b.start + b.used + 1 + n + b.mtu
        omega
      · change b.start + (b.mtu + 1) ≤ b.size
        omega
      · change b.used + (1 + n) = b.start + b.used + 1 + n - b.start + 0
        omega
      · change Laid o _ _ b.start _ (b.start + b.used + 1 + n)
        rw [Nat.add_assoc _ 1 n]
        exact hlaid'
    · rename_i hcond
      have hroom' : b.start + b.used + 1 + n + (b.mtu + 1) ≤ b.size := by
        by_contra hgap
        refine hcond ⟨?_, ?_⟩
        · change b.used + (1 + n) ≤ b.wrap - b.start
          omega
        · change (b.size : ℤ) - (b.start + b.used + 1 + n : ℕ) - 1 < b.mtu
          omega
      refine .flat hwrap ?_ ?_
      · change b.start + (b.used + (1 + n)) + (b.mtu + 1) ≤ b.size
        omega
      · change Laid o _ _ b.start _ (b.start + (b.used + (1 + n)))
        rw [← Nat.add_assoc]
        exact hlaid'
  | wrapped hstart hwrap hgap hroom _ hused hfront hback =>
    obtain ⟨hend, hlimit⟩ := region_of_wrapped hused
    rw [hend] at hat hfits ⊢
    rw [hlimit] at hfits
    -- The packets wrap already, so `wrap` stays.
    have hcond : ¬ (b.used + (1 + n) ≤ b.wrap - b.start) := by omega
    rw [rewrap, if_neg (fun hc => hcond hc.1), List.append_assoc]
    have hlast : b.chunkEnd ≤ b.lastHeader := by
      unfold lastHeader
      omega
    have hback' := (hback.writeLen (.inl (Nat.le_refl _))).concat (hend ▸ hlast) hat
    rw [hblocks] at hback'
    refine .wrapped hstart hwrap hgap hroom ?_ ?_ (hfront.writeLen (.inr ?_)) hback'
    · change _ + (1 + n) ≤ b.start
      exact hfits
    · change b.used + (1 + n) = b.wrap - b.start + (_ + (1 + n))
      omega
    · omega

/-- **One packet less.** When the last packet before `wrap` is dropped, the packets behind it are
flat: they end before a header, at which a packet of the MTU fitted. -/
theorem Holds.consume (h : Holds o b (packet :: packets)) :
    Holds o (dropFirst (b.firstBlocklen o) b) packets := by
  have hblocks := firstBlocklen_eq h.first.1
  have hsome : ∀ packet, 1 ≤ blocks packet := fun _ => Nat.le_add_right _ _
  unfold dropFirst
  rw [hblocks]
  generalize hpackets : packet :: packets = all at h
  cases h with
  | flat hwrap hroom hlaid =>
    subst hpackets
    obtain ⟨-, -, hrest⟩ := hlaid.head
    have hle := hrest.le
    have hend : b.start + b.used = b.start + blocks packet + (b.used - blocks packet) := by omega
    rw [hend] at hrest hroom
    rw [if_neg (by omega)]
    exact .flat hwrap hroom hrest
  | @wrapped front back e hstart hwrap hgap hroom he hused hfront hback =>
    obtain ⟨packet', rest, rfl⟩ := hfront.exists_cons hstart
    rw [List.cons_append, List.cons.injEq] at hpackets
    obtain ⟨rfl, rfl⟩ := hpackets
    obtain ⟨-, -, hrest⟩ := hfront.head
    have hle := hrest.le
    cases rest with
    | nil =>
      have hend : b.start + blocks packet = b.wrap := hrest.end_eq
      have hleft : 0 + (b.used - blocks packet) = e := by omega
      rw [if_pos hend]
      refine .flat rfl ?_ ?_
      · change 0 + (b.used - blocks packet) + (b.mtu + 1) ≤ b.size
        omega
      · change Laid o b.buffer b.lastHeader 0 back (0 + (b.used - blocks packet))
        rw [hleft]
        exact hback
    | cons next =>
      obtain ⟨hnext, -, hrest'⟩ := hrest.head
      have hle' := hrest'.le
      have := hsome next
      unfold lastHeader at hnext
      rw [if_neg (by omega)]
      refine .wrapped (e := e) ?_ hwrap hgap ?_ ?_ ?_ hrest hback
      · change b.start + blocks packet < b.wrap
        omega
      · change b.start + blocks packet + (b.mtu + 1) ≤ b.size
        omega
      · change e ≤ b.start + blocks packet
        omega
      · change b.used - blocks packet = b.wrap - (b.start + blocks packet) + e
        omega

/-- The free blocks start where they did, and there are no fewer of them. -/
theorem Holds.region_dropFirst (h : Holds o b (packet :: packets)) :
    (dropFirst (b.firstBlocklen o) b).chunkEnd = b.chunkEnd ∧
      b.limit ≤ (dropFirst (b.firstBlocklen o) b).limit ∧
      (b.used < b.wrap - b.start → (dropFirst (b.firstBlocklen o) b).limit = b.limit) := by
  obtain ⟨hat, hle_used, hle_wrap⟩ := h.first
  have hsome : 1 ≤ blocks packet := Nat.le_add_right _ _
  obtain ⟨hsize, -, hle_size, hstart, hused, hwrap⟩ := h.bufferOk
  have hblocks := firstBlocklen_eq hat
  unfold dropFirst
  rw [hblocks]
  -- Whether the buffer is wrapped before and after is a matter of the numbers alone.
  split <;> refine ⟨?_, ?_, ?_⟩ <;> simp only [chunkEnd, limit] <;> split_ifs <;> omega

/-! ### The programs -/

/-- The buffer holds the packets, and the pointers are those of the next and the first packet. -/
structure Consistent (o : ByteOrder) (b : ChunkBuffer2) (packets : List (List Byte)) : Prop where
  holds : Holds o b packets
  input : (b.inputDest, b.inputAvail) = b.inputRegion
  output : (b.outputDest, b.outputAvail) = b.outputRegion o

theorem Consistent.ioOk (h : Consistent o b packets) : b.IoOk o :=
  ⟨h.input, h.holds.firstOk, h.output⟩

/-- What may be written is what lies between the next header and the next packet. -/
theorem Consistent.input_eq (h : Consistent o b packets) {d : ℕ} (hdest : b.inputDest = some d) :
    d = blockSize * (b.chunkEnd + 1) ∧
      b.inputAvail = ((b.limit : ℤ) - b.chunkEnd - 1) * blockSize ∧ b.chunkEnd < b.limit := by
  have hinput := h.input
  rw [h.holds.inputRegion_eq, hdest] at hinput
  split at hinput
  · rename_i hlt
    rw [Prod.mk.injEq] at hinput
    exact ⟨Option.some.inj hinput.1, hinput.2, hlt⟩
  · cases (Prod.mk.inj hinput).1

theorem Consistent.inputDest_eq_none_iff (h : Consistent o b packets) :
    b.inputDest = none ↔ b.inputAvail = -1 := by
  have hinput := h.input
  rw [h.holds.inputRegion_eq] at hinput
  split at hinput
  · rename_i hlt
    rw [Prod.mk.injEq] at hinput
    rw [hinput.1, hinput.2]
    simp only [blockSize, reduceCtorEq, false_iff]
    omega
  · rw [Prod.mk.injEq] at hinput
    rw [hinput.1, hinput.2]
    simp only

/-- The packet that is passed on is the first one. -/
theorem Consistent.output_eq (h : Consistent o b (packet :: packets)) :
    b.outputDest = some (blockSize * (b.start + 1)) ∧ b.outputAvail = packet.length := by
  obtain ⟨hat, hused, -⟩ := h.holds.first
  have hsome : 1 ≤ blocks packet := Nat.le_add_right _ _
  have houtput := h.output
  rw [outputRegion, if_pos (by omega), Prod.mk.injEq, hat.header] at houtput
  exact houtput

theorem Consistent.output_of_nil (h : Consistent o b []) :
    b.outputDest = none ∧ b.outputAvail = -1 := by
  have houtput := h.output
  rw [outputRegion, if_neg (by rw [h.holds.used_eq_zero]; decide), Prod.mk.injEq] at houtput
  exact houtput

/-- Both pointers are set anew. -/
def refreshed (o : ByteOrder) (b : ChunkBuffer2) : ChunkBuffer2 :=
  (b.withInput b.inputRegion).withOutput (b.outputRegion o)

theorem Holds.consistent_refreshed (h : Holds o b packets) :
    Consistent o (b.refreshed o) packets :=
  ⟨(h.withInput _).withOutput _, rfl, rfl⟩

theorem init_spec {buffer : Memory} {blocks mtu : ℕ} (h : bdivideUp mtu blockSize + 1 ≤ blocks) :
    wp (init o buffer blocks mtu) (fun _ b' => Consistent o b' [] ∧ b'.size = blocks ∧
      b'.mtu = bdivideUp mtu blockSize) b := by
  have hholds : Holds o (b.initial buffer blocks mtu) [] := by
    refine .flat rfl ?_ .nil
    change 0 + 0 + (bdivideUp mtu blockSize + 1) ≤ blocks
    omega
  have hall := hholds.consistent_refreshed
  simp only [init, assertBuffer, updateInput, updateOutput, assertIo, wp_bind, wp_ensure, wp_modify,
    wp_get]
  exact ⟨by omega, hholds.bufferOk, (hholds.withInput _).firstOk, hall.ioOk, hall, rfl, rfl⟩

/-- A header that is written and a change of `wrap` leave the rest of the buffer. -/
theorem rewrap_put (e e' len n : ℕ) (b : ChunkBuffer2) :
    (rewrap e' (put o e len n b)).used = b.used + (1 + n) ∧
      (rewrap e' (put o e len n b)).size = b.size ∧ (rewrap e' (put o e len n b)).mtu = b.mtu ∧
      (rewrap e' (put o e len n b)).start = b.start ∧
      (rewrap e' (put o e len n b)).outputDest = b.outputDest ∧
      (rewrap e' (put o e len n b)).outputAvail = b.outputAvail := by
  unfold rewrap
  split <;> exact ⟨rfl, rfl, rfl, rfl, rfl, rfl⟩

/-- The first packet stays the first one. -/
theorem Consistent.output_of_first {packets' : List (List Byte)}
    {b' : ChunkBuffer2} (h : Consistent o b (packet :: packets))
    (hholds : Holds o b' (packet :: packets')) (hstart : b'.start = b.start)
    (hdest : b'.outputDest = b.outputDest) (havail : b'.outputAvail = b.outputAvail) :
    (b'.outputDest, b'.outputAvail) = b'.outputRegion o := by
  obtain ⟨hat, hused, -⟩ := hholds.first
  have hsome : 1 ≤ blocks packet := Nat.le_add_right _ _
  rw [hdest, havail, h.output_eq.1, h.output_eq.2, outputRegion, if_pos (by omega), hat.header, hstart]

/-- **`SubmitPacket` appends the packet that was written.** -/
theorem submitPacket_spec (h : Consistent o b packets) (hlen : len ≤ intMax)
    (hdest : b.inputDest ≠ none) (havail : (len : ℤ) ≤ b.inputAvail) :
    wp (submitPacket o len) (fun _ b' => Consistent o b' (packets ++ [b.written len]) ∧
      b'.size = b.size ∧ b'.mtu = b.mtu ∧ (packets ≠ [] →
        b'.outputDest = b.outputDest ∧ b'.outputAvail = b.outputAvail)) b := by
  obtain ⟨d, hd⟩ := Option.ne_none_iff_exists'.mp hdest
  obtain ⟨-, hregion, hlt⟩ := h.input_eq hd
  obtain ⟨hroom, hle, hlimit⟩ := h.holds.region
  have hup := le_bdivideUp len
  have hfits : b.chunkEnd + (1 + bdivideUp len blockSize) ≤ b.limit := by
    simp only [blockSize] at hregion hup ⊢
    omega
  have hholds := h.holds.submit hlen hfits
  have hassert : (bdivideUp len blockSize : ℤ) ≤ (b.size : ℤ) - b.chunkEnd - 1 := by omega
  have hassert' : b.used < b.wrap - b.start ∨
      (bdivideUp len blockSize : ℤ) ≤ (b.start : ℤ) - b.chunkEnd - 1 := by
    unfold limit at hfits
    split at hfits <;> omega
  simp only [submitPacket, assertBuffer, assertIo, updateInput, updateOutput, wp_bind, wp_ensure,
    wp_modify, wp_get, wp_ite]
  refine ⟨hdest, havail, h.holds.bufferOk, h.ioOk, hassert, hassert', hholds.bufferOk, ?_⟩
  have hfields := rewrap_put (o := o) b.chunkEnd
    (b.chunkEnd + 1 + bdivideUp len blockSize) len (bdivideUp len blockSize) b
  generalize rewrap _ (put o _ _ _ b) = b' at hholds hfields ⊢
  obtain ⟨hused', hsize, hmtu, hstart, hout, hout'⟩ := hfields
  have hused' : (b'.withInput b'.inputRegion).used = b.used + _ := hused'
  cases packets with
  | nil =>
    have hall := hholds.consistent_refreshed
    rw [if_pos (by rw [hused', h.holds.used_eq_zero, Nat.zero_add])]
    exact ⟨(hholds.withInput _).firstOk, hall.ioOk, hall, hsize, hmtu,
      fun hne => absurd rfl hne⟩
  | cons packet packets =>
    obtain ⟨-, hused, -⟩ := h.holds.first
    have hsome : 1 ≤ blocks packet := Nat.le_add_right _ _
    have hall : Consistent o (b'.withInput b'.inputRegion)
        (packet :: packets ++ [b.written len]) :=
      ⟨hholds.withInput _, rfl, h.output_of_first (hholds.withInput _) hstart hout hout'⟩
    rw [if_neg (by omega)]
    exact ⟨hall.ioOk, hall, hsize, hmtu, fun _ => ⟨hout, hout'⟩⟩

/-- What may be written is where it was, and there is no less of it. -/
theorem Consistent.input_grows {packets' : List (List Byte)} {b' : ChunkBuffer2}
    (h : Consistent o b packets) (h' : Consistent o b' packets')
    (hend : b'.chunkEnd = b.chunkEnd) (hlimit : b.limit ≤ b'.limit) :
    b.inputAvail ≤ b'.inputAvail ∧ ∀ d, b.inputDest = some d → b'.inputDest = some d := by
  have hinput := h.input
  have hinput' := h'.input
  obtain ⟨-, hle', -⟩ := h'.holds.region
  rw [h.holds.inputRegion_eq] at hinput
  rw [h'.holds.inputRegion_eq, hend] at hinput'
  by_cases hlt : b.chunkEnd < b.limit
  · rw [if_pos hlt, Prod.mk.injEq] at hinput
    rw [if_pos (by omega), Prod.mk.injEq] at hinput'
    rw [hinput.1, hinput.2, hinput'.1, hinput'.2]
    refine ⟨?_, fun _ hd => hd⟩
    simp only [blockSize]
    omega
  · rw [if_neg hlt, Prod.mk.injEq] at hinput
    rw [hinput.1, hinput.2]
    refine ⟨?_, fun _ hd => nomatch hd⟩
    split at hinput' <;> rw [(Prod.mk.inj hinput').2]
    · simp only [blockSize]
      omega

/-- **`ConsumePacket` drops the first packet.** What may be written stays where it is, and there
may be more of it. -/
theorem consumePacket_spec (h : Consistent o b (packet :: packets)) :
    wp (consumePacket o) (fun _ b' => Consistent o b' packets ∧ b'.size = b.size ∧ b'.mtu = b.mtu ∧
      b'.buffer = b.buffer ∧ b.inputAvail ≤ b'.inputAvail ∧
      ∀ d, b.inputDest = some d → b'.inputDest = some d) b := by
  have hholds := h.holds.consume
  obtain ⟨hend, hlimit, hflat⟩ := h.holds.region_dropFirst
  obtain ⟨hat, hused, hwrap⟩ := h.holds.first
  have hblocks := firstBlocklen_eq hat
  have hsame : (dropFirst (b.firstBlocklen o) b).size = b.size ∧
      (dropFirst (b.firstBlocklen o) b).mtu = b.mtu ∧
      (dropFirst (b.firstBlocklen o) b).buffer = b.buffer ∧
      (dropFirst (b.firstBlocklen o) b).inputDest = b.inputDest ∧
      (dropFirst (b.firstBlocklen o) b).inputAvail = b.inputAvail := by
    unfold dropFirst
    split <;> exact ⟨rfl, rfl, rfl, rfl, rfl⟩
  simp only [consumePacket, assertBuffer, assertIo, updateInput, updateOutput, wp_bind, wp_ensure,
    wp_modify, wp_get, wp_ite, decide_eq_true_eq]
  refine ⟨by rw [h.output_eq.1]; exact Option.some_ne_none _, h.holds.bufferOk, h.ioOk, by omega,
    by omega, by omega, by omega, hholds.bufferOk, ?_⟩
  generalize dropFirst (b.firstBlocklen o) b = b' at *
  obtain ⟨hsize, hmtu, hbuffer, hdest', havail'⟩ := hsame
  by_cases hwrapped : b.wrap - b.start ≤ b.used
  · have hall := hholds.consistent_refreshed
    rw [if_pos hwrapped]
    exact ⟨(hholds.withInput _).firstOk, hall.ioOk, hall, hsize, hmtu, hbuffer,
      h.input_grows hall hend hlimit⟩
  · -- The end of the free blocks does not depend on `start`, so nothing is to be updated.
    have hall : Consistent o (b'.withOutput (b'.outputRegion o)) packets := by
      refine ⟨hholds.withOutput _, ?_, rfl⟩
      change (b'.inputDest, b'.inputAvail) = b'.inputRegion
      rw [hdest', havail', h.input, h.holds.inputRegion_eq, hholds.inputRegion_eq, hend,
        hflat (by omega)]
    rw [if_neg hwrapped]
    exact ⟨hholds.firstOk, hall.ioOk, hall, hsize, hmtu, hbuffer,
      h.input_grows hall hend hlimit⟩

/-- The writer of the next packet does not touch the stored ones. -/
theorem Consistent.write (h : Consistent o b packets) {d i : ℕ}
    (hdest : b.inputDest = some d) (hfits : ((i + data.length : ℕ) : ℤ) ≤ b.inputAvail) :
    Consistent o { b with buffer := b.buffer.write (d + i) data } packets := by
  obtain ⟨rfl, havail, hlt⟩ := h.input_eq hdest
  simp only [blockSize] at havail hfits
  have hholds : Holds o { b with
      buffer := b.buffer.write (blockSize * (b.chunkEnd + 1) + i) data } packets :=
    h.holds.write (by simp only [blockSize]; omega) (by simp only [blockSize]; omega)
  refine ⟨hholds, h.input, ?_⟩
  cases packets with
  | nil =>
    have hused := h.holds.used_eq_zero
    rw [outputRegion, if_neg (show ¬ 0 < b.used by omega)]
    exact Prod.ext h.output_of_nil.1 h.output_of_nil.2
  | cons => exact h.output_of_first hholds rfl rfl rfl

/-! ### Capacity -/

theorem calcBlocks_eq {mtu num : ℕ} (h : 0 ≤ calcBlocks mtu num) :
    calcBlocks mtu num = ((1 + bdivideUp mtu blockSize) * (num + 1) : ℕ) := by
  unfold calcBlocks at h ⊢
  dsimp only at h ⊢
  split_ifs at h ⊢ <;> omega

/-- A number of packets of at most `n` blocks. -/
theorem sum_blocks_le {n : ℕ} (h : ∀ packet ∈ packets, blocks packet ≤ n) :
    (packets.map blocks).sum ≤ packets.length * n := by
  have := List.sum_le_card_nsmul (packets.map blocks) n (by simpa using h)
  simpa using this

/-- The packets take all blocks that are used. -/
theorem Holds.used_eq (h : Holds o b packets) : b.used = (packets.map blocks).sum := by
  cases h with
  | flat _ _ hlaid =>
    have := hlaid.end_eq
    omega
  | wrapped _ _ _ _ _ _ hfront hback =>
    have := hfront.end_eq
    have := hback.end_eq
    rw [List.map_append, List.sum_append]
    omega

/-- A packet of the MTU fits into the free blocks, or all blocks are used or free but those behind
`wrap`, which are fewer than those of such a packet. -/
theorem Holds.room (h : Holds o b packets) :
    b.chunkEnd + (b.mtu + 1) ≤ b.limit ∨ b.size + b.chunkEnd ≤ b.mtu + b.used + b.limit := by
  cases h with
  | flat hwrap hroom =>
    obtain ⟨hend, hlimit⟩ := region_of_flat hwrap hroom
    exact .inl (by omega)
  | wrapped _ _ _ _ _ hused =>
    obtain ⟨hend, hlimit⟩ := region_of_wrapped hused
    exact .inr (by omega)

/-- **A packet of the MTU fits while there are fewer than `num` packets.** The buffer has blocks
for one packet more, and fewer than that are lost behind `wrap`. -/
theorem Consistent.le_inputAvail (h : Consistent o b packets) {mtu num : ℕ}
    (hmtu : b.mtu = bdivideUp mtu blockSize) (hsize : b.size = (1 + b.mtu) * (num + 1))
    (hlens : ∀ packet ∈ packets, packet.length ≤ mtu) (hfew : packets.length < num) :
    (mtu : ℤ) ≤ b.inputAvail := by
  have hup := le_bdivideUp mtu
  have hblocks : ∀ packet ∈ packets, blocks packet ≤ 1 + b.mtu := by
    intro packet hpacket
    have := hlens packet hpacket
    have := le_bdivideUp packet.length
    rw [blocks, hmtu]
    omega
  have hused : b.used ≤ packets.length * (1 + b.mtu) :=
    h.holds.used_eq.trans_le (sum_blocks_le hblocks)
  have htwo : (packets.length + 2) * (1 + b.mtu) ≤ b.size := by
    rw [hsize, Nat.mul_comm (1 + b.mtu)]
    exact Nat.mul_le_mul_right _ (by omega)
  rw [Nat.add_mul] at htwo
  have hroom : b.chunkEnd + (b.mtu + 1) ≤ b.limit := by
    obtain hfits | hlost := h.holds.room
    · exact hfits
    · omega
  have hinput := h.input
  rw [h.holds.inputRegion_eq, if_pos (by omega), Prod.mk.injEq] at hinput
  rw [hinput.2]
  simp only [blockSize] at hmtu hup ⊢
  omega

end ChunkBuffer2
end Tun2Socks.Structure
