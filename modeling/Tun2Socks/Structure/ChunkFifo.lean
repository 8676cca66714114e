import Tun2Socks.Framework.System
import Tun2Socks.Structure.ChunkBuffer2

/-!
# The packet buffer as a queue

The runs of a `ChunkBuffer2` whose user keeps to the rules: while a packet of the MTU may be
written, it writes at `inputDest` whatever it likes and submits packets, and while there is a packet
it consumes it, after having read it at `outputDest`. `chunkSystem` is all such runs, from
`ChunkBuffer2_Init` on, and records the packets that were submitted and those that were read.

`Fifo` is what holds in every state of such a run, and `Bounded` what a user can see of it:
packets are read in order and byte for byte, nothing that is stored overlaps what may be written,
and a packet may be written while there are fewer than `num`.
-/

namespace Tun2Socks.Structure

open Framework Net ChunkBuffer2

/-- A buffer and what it is used for. -/
structure ChunkWorld where
  buf : ChunkBuffer2
  fault : Option AssertFailed
  submitted : List (List Byte)
  delivered : List (List Byte)

inductive ChunkLabel
  /-- Bytes are written into the region at `inputDest`. -/
  | fill (i : ℕ) (data : List Byte)
  | submit (len : ℕ)
  | consume

/-- What `ChunkBuffer2_Init` is given: the memory, the MTU and the number of packets. -/
structure ChunkConfig where
  byteOrder : ByteOrder
  memory : Memory
  mtu : ℕ
  num : ℕ

namespace ChunkBuffer2

/-- A buffer before `ChunkBuffer2_Init`. -/
def blank (m : Memory) : ChunkBuffer2 where
  buffer := m
  size := 0
  wrap := 0
  start := 0
  used := 0
  mtu := 0
  inputDest := none
  inputAvail := -1
  outputDest := none
  outputAvail := -1

/-- The packet at `outputDest`. -/
def packetAt (b : ChunkBuffer2) (d : ℕ) : List Byte := b.buffer.read d b.outputAvail.toNat

end ChunkBuffer2

namespace ChunkWorld

def leave (w : ChunkWorld) : Except AssertFailed (Unit × ChunkBuffer2) → ChunkWorld
  | .ok (_, buf) => { w with buf }
  | .error f => { w with fault := some f }

theorem leave_of_wp {w : ChunkWorld} {x : ChunkBuffer2.M Unit} {Q : Unit → ChunkBuffer2 → Prop}
    {b : ChunkBuffer2} (h : wp x Q b) : ∃ b', w.leave (x.run b) = { w with buf := b' } ∧ Q () b' := by
  obtain ⟨⟨_, b'⟩, hrun, hb'⟩ := h
  exact ⟨b', by rw [hrun]; rfl, hb'⟩

def next (cfg : ChunkConfig) (w : ChunkWorld) : ChunkLabel → Option ChunkWorld
  | .fill i data => w.buf.inputDest.bind fun d =>
    if (cfg.mtu : ℤ) ≤ w.buf.inputAvail ∧ i + data.length ≤ cfg.mtu then
      some { w with buf := { w.buf with buffer := w.buf.buffer.write (d + i) data } }
    else none
  | .submit len => w.buf.inputDest.bind fun d =>
    if (cfg.mtu : ℤ) ≤ w.buf.inputAvail ∧ len ≤ cfg.mtu then
      some (leave { w with submitted := w.submitted ++ [w.buf.buffer.read d len] }
        ((submitPacket cfg.byteOrder len).run w.buf))
    else none
  | .consume => w.buf.outputDest.map fun d =>
    leave { w with delivered := w.delivered ++ [w.buf.packetAt d] }
      ((consumePacket cfg.byteOrder).run w.buf)

end ChunkWorld

/-- All runs of a buffer with room for `num` packets. -/
def chunkSystem (cfg : ChunkConfig) : System ChunkWorld ChunkLabel where
  init := ChunkWorld.leave ⟨blank cfg.memory, none, [], []⟩
    ((init cfg.byteOrder cfg.memory
      (calcBlocks cfg.mtu cfg.num).toNat cfg.mtu).run
        (blank cfg.memory))
  next w l := if w.fault.isSome then none else w.next cfg l

/-- The number of blocks was computed, and the buffer is not larger than `INT_MAX` bytes. -/
structure ChunkConfig.Valid (cfg : ChunkConfig) : Prop where
  blocks : 0 ≤ calcBlocks cfg.mtu cfg.num
  bytes : calcBlocks cfg.mtu cfg.num * blockSize ≤ intMax

open ChunkBuffer2 in
/-- The buffer holds the packets that were submitted and not yet delivered. -/
structure Fifo (cfg : ChunkConfig) (b : ChunkBuffer2) (submitted delivered : List (List Byte)) :
    Prop where
  consistent : ∃ packets, submitted = delivered ++ packets ∧ Consistent cfg.byteOrder b packets
  mtu : b.mtu = bdivideUp cfg.mtu blockSize
  size : b.size = (1 + b.mtu) * (cfg.num + 1)
  lens : ∀ packet ∈ submitted, packet.length ≤ cfg.mtu

open ChunkBuffer2 in
/-- What a user of the buffer relies on. -/
structure Bounded (cfg : ChunkConfig) (b : ChunkBuffer2) (submitted delivered : List (List Byte)) :
    Prop where
  /-- What was read is what was submitted first. -/
  order : delivered <+: submitted
  /-- There is a packet to be read as long as not all have been, and it is the next one. -/
  output : match b.outputDest with
    | some d => delivered ++ [b.packetAt d] <+: submitted
    | none => delivered = submitted
  /-- Every stored packet lies in the buffer, with its header, outside the region that may be
  written and the header before that. -/
  separate : ∃ layout : List ℕ, List.Forall₂ (fun pos packet =>
    StoredAt cfg.byteOrder b.buffer pos packet ∧ pos + blocks packet ≤ b.size ∧
    ∀ d ∈ b.inputDest, blockSize * (pos + blocks packet) + blockSize ≤ d ∨
      (d : ℤ) + b.inputAvail ≤ blockSize * pos) layout (submitted.drop delivered.length)
  inside : ∀ d ∈ b.inputDest, (d : ℤ) + b.inputAvail ≤ blockSize * b.size
  /-- A packet of the MTU may be written while fewer than `num` are stored. -/
  capacity : submitted.length - delivered.length < cfg.num → (cfg.mtu : ℤ) ≤ b.inputAvail

variable {cfg : ChunkConfig} {b : ChunkBuffer2} {submitted delivered : List (List Byte)}

/-- A packet of the MTU has a length of type `int`. -/
theorem ChunkConfig.Valid.mtu_le_intMax (h : cfg.Valid) : cfg.mtu ≤ intMax := by
  have hup := le_bdivideUp cfg.mtu
  have hbytes := h.bytes
  rw [calcBlocks_eq h.blocks] at hbytes
  have hone : 1 + bdivideUp cfg.mtu blockSize ≤
      (1 + bdivideUp cfg.mtu blockSize) * (cfg.num + 1) :=
    Nat.le_mul_of_pos_right _ (Nat.succ_pos _)
  simp only [blockSize] at hbytes hup hone
  omega

open ChunkBuffer2 in
theorem Fifo.bounded (h : Fifo cfg b submitted delivered) : Bounded cfg b submitted delivered := by
  obtain ⟨packets, rfl, hpackets⟩ := h.consistent
  constructor
  · exact List.prefix_append _ _
  · cases packets with
    | nil =>
      rw [hpackets.output_of_nil.1]
      exact (List.append_nil _).symm
    | cons packet packets =>
      obtain ⟨hdest, havail⟩ := hpackets.output_eq
      rw [hdest]
      have hpacket : b.packetAt (blockSize * (b.start + 1)) = packet := by
        rw [packetAt, havail, Int.toNat_natCast]
        exact hpackets.holds.first.1.data
      change delivered ++ [b.packetAt (blockSize * (b.start + 1))] <+: _
      rw [hpacket]
      exact ⟨packets, by rw [List.append_assoc, List.singleton_append]⟩
  · rw [List.drop_left]
    obtain ⟨layout, hlayout⟩ := hpackets.holds.exists_positions
    refine ⟨layout, hlayout.imp ?_⟩
    rintro pos packet ⟨hat, hsize, hout⟩
    refine ⟨hat, hsize, ?_⟩
    intro d hd
    obtain ⟨rfl, havail, hlt⟩ := hpackets.input_eq hd
    rw [havail]
    simp only [blockSize]
    omega
  · intro d hd
    obtain ⟨rfl, havail, hlt⟩ := hpackets.input_eq hd
    obtain ⟨-, -, hlimit⟩ := hpackets.holds.region
    rw [havail]
    simp only [blockSize]
    omega
  · intro hfew
    rw [List.length_append] at hfew
    exact hpackets.le_inputAvail h.mtu h.size
      (fun packet hpacket => h.lens packet (List.mem_append_right _ hpacket)) (by omega)

/-- While a packet may be written there is a place for it. -/
theorem Fifo.exists_inputDest (h : Fifo cfg b submitted delivered) {n : ℕ}
    (havail : (n : ℤ) ≤ b.inputAvail) : ∃ d, b.inputDest = some d := by
  obtain ⟨packets, -, hb⟩ := h.consistent
  refine Option.ne_none_iff_exists'.mp fun hnone => ?_
  rw [hb.inputDest_eq_none_iff] at hnone
  omega

/-- What may be read is the next packet, of at most the length of the MTU, if there is one. -/
theorem Fifo.output_cases (h : Fifo cfg b submitted delivered) :
    (submitted = delivered ∧ b.outputDest = none ∧ b.outputAvail = -1) ∨
    (delivered.length < submitted.length ∧ b.outputDest ≠ none ∧ 0 ≤ b.outputAvail ∧
      b.outputAvail ≤ cfg.mtu) := by
  obtain ⟨packets, rfl, hb⟩ := h.consistent
  cases packets with
  | nil => exact .inl ⟨List.append_nil _, hb.output_of_nil⟩
  | cons packet =>
    obtain ⟨hdest, havail⟩ := hb.output_eq
    have hlen := h.lens packet (List.mem_append_right _ List.mem_cons_self)
    refine .inr ⟨?_, by rw [hdest]; exact Option.some_ne_none _, by omega, by omega⟩
    rw [List.length_append, List.length_cons]
    omega

/-! ### The steps -/

open ChunkBuffer2 in
theorem Fifo.init (h : cfg.Valid) :
    wp (init cfg.byteOrder cfg.memory (calcBlocks cfg.mtu cfg.num).toNat cfg.mtu)
      (fun _ b' => Fifo cfg b' [] []) b := by
  have hblocks : (calcBlocks cfg.mtu cfg.num).toNat =
      (1 + bdivideUp cfg.mtu blockSize) * (cfg.num + 1) := by
    rw [calcBlocks_eq h.blocks, Int.toNat_natCast]
  have hroom : bdivideUp cfg.mtu blockSize + 1 ≤ (calcBlocks cfg.mtu cfg.num).toNat := by
    rw [hblocks, Nat.add_comm]
    exact Nat.le_mul_of_pos_right _ (Nat.succ_pos _)
  refine wp_mono (init_spec hroom) ?_
  rintro _ b' ⟨hb', hsize, hmtu⟩
  exact ⟨⟨[], rfl, hb'⟩, hmtu, by rw [hsize, hmtu, hblocks], fun _ hpacket => nomatch hpacket⟩

/-- The writer of the next packet keeps to its region. -/
theorem Fifo.fill (h : Fifo cfg b submitted delivered) {d i : ℕ} {data : List Byte}
    (hdest : b.inputDest = some d) (havail : (cfg.mtu : ℤ) ≤ b.inputAvail)
    (hlen : i + data.length ≤ cfg.mtu) :
    Fifo cfg { b with buffer := b.buffer.write (d + i) data } submitted delivered := by
  obtain ⟨packets, hpackets, hb⟩ := h.consistent
  exact ⟨⟨packets, hpackets, hb.write hdest (by omega)⟩, h.mtu, h.size, h.lens⟩

/-- `SubmitPacket`. The packet that may be read stays where it is if there is one. -/
theorem Fifo.submitPacket (h : Fifo cfg b submitted delivered) (hvalid : cfg.Valid) {d len : ℕ}
    (hdest : b.inputDest = some d) (havail : (cfg.mtu : ℤ) ≤ b.inputAvail)
    (hlen : len ≤ cfg.mtu) :
    wp (submitPacket cfg.byteOrder len) (fun _ b' =>
      Fifo cfg b' (submitted ++ [b.buffer.read d len]) delivered ∧
      (b.outputDest ≠ none → b'.outputDest = b.outputDest ∧ b'.outputAvail = b.outputAvail)) b := by
  obtain ⟨packets, rfl, hb⟩ := h.consistent
  obtain ⟨rfl, -, -⟩ := hb.input_eq hdest
  refine wp_mono (submitPacket_spec hb (hlen.trans hvalid.mtu_le_intMax)
    (by rw [hdest]; exact Option.some_ne_none _) (by omega)) ?_
  rintro _ b' ⟨hb', hsize, hmtu, houtput⟩
  refine ⟨⟨⟨packets ++ [_], List.append_assoc _ _ _, hb'⟩, ?_, ?_, ?_⟩, ?_⟩
  · rw [hmtu, h.mtu]
  · rw [hsize, hmtu, h.size]
  · intro packet hpacket
    obtain hold | hnew := List.mem_append.mp hpacket
    · exact h.lens packet hold
    · rw [List.mem_singleton.mp hnew, Memory.length_read]
      exact hlen
  · intro hsome
    refine houtput ?_
    rintro rfl
    exact hsome hb.output_of_nil.1

/-- `ConsumePacket`. What may be written stays where it is, and there may be more of it. -/
theorem Fifo.consumePacket (h : Fifo cfg b submitted delivered) {d : ℕ}
    (hdest : b.outputDest = some d) :
    wp (consumePacket cfg.byteOrder) (fun _ b' =>
      Fifo cfg b' submitted (delivered ++ [b.packetAt d]) ∧ b.inputAvail ≤ b'.inputAvail ∧
      ∀ d, b.inputDest = some d → b'.inputDest = some d) b := by
  obtain ⟨packets, hpackets, hb⟩ := h.consistent
  have hnext := h.bounded.output
  rw [hdest] at hnext
  obtain ⟨rest, hrest⟩ := hnext
  rw [hpackets, List.append_assoc, List.append_cancel_left_eq] at hrest
  subst hrest
  refine wp_mono (consumePacket_spec hb) ?_
  rintro _ b' ⟨hb', hsize, hmtu, -, havail, hinput⟩
  refine ⟨⟨⟨rest, ?_, hb'⟩, ?_, ?_, h.lens⟩, havail, hinput⟩
  · rw [hpackets, List.append_assoc]
  · rw [hmtu, h.mtu]
  · rw [hsize, hmtu, h.size]

/-! ### Runs -/

/-- What holds in every state of a run. -/
structure ChunkWorld.Inv (cfg : ChunkConfig) (w : ChunkWorld) : Prop where
  fault : w.fault = none
  fifo : Fifo cfg w.buf w.submitted w.delivered

theorem ChunkWorld.inv_init (h : cfg.Valid) : ChunkWorld.Inv cfg (chunkSystem cfg).init := by
  obtain ⟨b', hleave, hb'⟩ := ChunkWorld.leave_of_wp
    (w := ⟨blank cfg.memory, none, [], []⟩) (Fifo.init (b := .blank cfg.memory) h)
  change ChunkWorld.Inv cfg (ChunkWorld.leave _ _)
  rw [hleave]
  exact ⟨rfl, hb'⟩

/-- One step. If it consumes a packet, what may be written is not taken away. -/
theorem ChunkWorld.Inv.step (hvalid : cfg.Valid) {w w' : ChunkWorld} {l : ChunkLabel}
    (h : ChunkWorld.Inv cfg w) (hnext : (chunkSystem cfg).next w l = some w') :
    ChunkWorld.Inv cfg w' ∧ (l = .consume → w.buf.inputAvail ≤ w'.buf.inputAvail ∧
      ∀ d, w.buf.inputDest = some d → w'.buf.inputDest = some d) := by
  change (if w.fault.isSome then none else w.next cfg l) = some w' at hnext
  rw [if_neg (by rw [h.fault]; exact Bool.false_ne_true)] at hnext
  cases l with
  | fill =>
    obtain ⟨d, hdest, hnext⟩ := Option.bind_eq_some_iff.mp hnext
    obtain ⟨⟨havail, hlen⟩, rfl⟩ := guard_eq_some.mp hnext
    exact ⟨⟨h.fault, h.fifo.fill hdest havail hlen⟩, nofun⟩
  | submit =>
    obtain ⟨d, hdest, hnext⟩ := Option.bind_eq_some_iff.mp hnext
    rw [Option.ite_none_right_eq_some] at hnext
    obtain ⟨⟨havail, hlen⟩, hnext⟩ := hnext
    obtain ⟨b', hleave, hb', -⟩ :=
      ChunkWorld.leave_of_wp (h.fifo.submitPacket hvalid hdest havail hlen)
    rw [hleave] at hnext
    cases hnext
    exact ⟨⟨h.fault, hb'⟩, nofun⟩
  | consume =>
    obtain ⟨d, hdest, hnext⟩ := Option.map_eq_some_iff.mp hnext
    obtain ⟨b', hleave, hb', hinput⟩ := ChunkWorld.leave_of_wp (h.fifo.consumePacket hdest)
    rw [hleave] at hnext
    subst hnext
    exact ⟨⟨h.fault, hb'⟩, fun _ => hinput⟩

theorem ChunkWorld.inv_of_reachable (hvalid : cfg.Valid) {w : ChunkWorld}
    (h : (chunkSystem cfg).Reachable w) : ChunkWorld.Inv cfg w :=
  h.invariant (ChunkWorld.inv_init hvalid) fun _ _ _ hinv hnext => (hinv.step hvalid hnext).1

end Tun2Socks.Structure
