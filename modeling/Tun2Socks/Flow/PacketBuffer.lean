import Tun2Socks.Structure.ChunkFifo

/-!
# The packet buffer between two interfaces

`PacketBuffer.c`. A `PacketBuffer` receives packets from its input into a `ChunkBuffer2` and sends
them from there to its output. It receives while a packet of the MTU may be written, and sends
while there is a packet.

A receive is outstanding from `PacketRecvInterface_Receiver_Recv` until `input_handler_done` is
called. In between the input writes what it likes at the place it was given, and consuming packets
must not take that place away. A send is outstanding from `PacketPassInterface_Sender_Send` until
`output_handler_done`, when the output has read the packet. `packetBufferSystem` is all runs, in
which input and output take any time, and for the results it records what was submitted by the
input and what was read by the output.
-/

namespace Tun2Socks.Flow

open Framework Structure

/-- What is known when `PacketBuffer_Init` is called. -/
structure PacketBufferConfig where
  chunk : ChunkConfig
  /-- The MTU of the output. -/
  outputMtu : ℕ

structure PacketBuffer where
  buf : ChunkBuffer2
  inputMtu : ℕ
  /-- The pointer that the outstanding receive was given. -/
  receiving : Option (Option ℕ)
  /-- The pointer and the length that the outstanding send was given. -/
  sending : Option (Option ℕ × ℤ)

namespace PacketBuffer

abbrev M := Checked AssertFailed PacketBuffer

/-- A call of a function of the buffer. -/
def onBuf {α : Type} (x : ChunkBuffer2.M α) : M α :=
  focus PacketBuffer.buf (fun p buf => { p with buf }) x

/-- `PacketRecvInterface_Receiver_Recv` on the input. -/
def recv : M Unit := do
  let p ← get
  ensure (0 < p.inputMtu → p.buf.inputDest ≠ none) .assert
  ensure (p.receiving = none) .assert
  modify fun p => { p with receiving := some p.buf.inputDest }

/-- A receive that depends on a condition. -/
def recvIf (c : Bool) : M Unit := if c then recv else pure ()

variable (cfg : PacketBufferConfig)

/-- `PacketPassInterface_Sender_Send` on the output. -/
def send : M Unit := do
  let p ← get
  ensure (0 ≤ p.buf.outputAvail) .assert
  ensure (p.buf.outputAvail ≤ cfg.outputMtu) .assert
  ensure (0 < p.buf.outputAvail → p.buf.outputDest ≠ none) .assert
  ensure (p.sending = none) .assert
  modify fun p => { p with sending := some (p.buf.outputDest, p.buf.outputAvail) }

/-- A send that depends on a condition. -/
def sendIf (c : Bool) : M Unit := if c then send cfg else pure ()

def inputHandlerDone (inLen : ℕ) : M Unit := do
  ensure (inLen ≤ (← get).inputMtu) .assert
  let wasEmpty := decide ((← get).buf.outputAvail < 0)
  onBuf (ChunkBuffer2.submitPacket cfg.chunk.byteOrder inLen)
  let p ← get
  recvIf (p.inputMtu ≤ p.buf.inputAvail)
  sendIf cfg wasEmpty

def outputHandlerDone : M Unit := do
  let p ← get
  let wasFull := decide (p.buf.inputAvail < p.inputMtu)
  onBuf (ChunkBuffer2.consumePacket cfg.chunk.byteOrder)
  let p ← get
  recvIf (wasFull ∧ p.inputMtu ≤ p.buf.inputAvail)
  let p ← get
  sendIf cfg (0 ≤ p.buf.outputAvail)

/-- `PacketBuffer_Init`, with the memory that was allocated. -/
def init (memory : Option Memory) : M Bool := do
  ensure (cfg.chunk.mtu ≤ cfg.outputMtu) .assert
  ensure (0 < cfg.chunk.num) .assert
  modify fun p => { p with inputMtu := cfg.chunk.mtu }
  let numBlocks := ChunkBuffer2.calcBlocks cfg.chunk.mtu cfg.chunk.num
  if numBlocks < 0 then return false
  match memory with
  | none => return false
  | some memory =>
    onBuf (ChunkBuffer2.init cfg.chunk.byteOrder memory numBlocks.toNat cfg.chunk.mtu)
    recv
    return true

end PacketBuffer

/-! ### The system -/

/-- A buffer, the packets that its input has submitted, and those that its output has read. -/
structure PacketBufferWorld where
  packetBuffer : PacketBuffer
  fault : Option AssertFailed
  submitted : List (List Byte)
  delivered : List (List Byte)

inductive PacketBufferLabel
  /-- The input writes into the region it was given. -/
  | fill (i : ℕ) (data : List Byte)
  /-- The input has written a packet of a length. -/
  | received (len : ℕ)
  /-- The output has read its packet. -/
  | sent

namespace PacketBufferWorld

def leave {α : Type} (w : PacketBufferWorld) :
    Except AssertFailed (α × PacketBuffer) → PacketBufferWorld
  | .ok (_, packetBuffer) => { w with packetBuffer }
  | .error f => { w with fault := some f }

theorem leave_of_wp {α : Type} {w : PacketBufferWorld} {x : PacketBuffer.M α}
    {Q : α → PacketBuffer → Prop} {p : PacketBuffer} (h : wp x Q p) :
    ∃ a p', w.leave (x.run p) = { w with packetBuffer := p' } ∧ Q a p' := by
  obtain ⟨⟨a, p'⟩, hrun, hp'⟩ := h
  exact ⟨a, p', by rw [hrun]; rfl, hp'⟩

/-- The bytes at a pointer. -/
def readAt (w : PacketBufferWorld) : Option ℕ → ℕ → List Byte
  | some d, n => w.packetBuffer.buf.buffer.read d n
  | none, _ => []

/-- The input has written to the buffer. -/
def fillAt (w : PacketBufferWorld) (d : ℕ) (data : List Byte) : PacketBufferWorld :=
  { w with packetBuffer := { w.packetBuffer with buf := { w.packetBuffer.buf with
    buffer := w.packetBuffer.buf.buffer.write d data } } }

variable (cfg : PacketBufferConfig)

def next (w : PacketBufferWorld) : PacketBufferLabel → Option PacketBufferWorld
  | .fill i data => w.packetBuffer.receiving.join.bind fun d =>
    if i + data.length ≤ cfg.chunk.mtu then some (w.fillAt (d + i) data) else none
  | .received len => w.packetBuffer.receiving.bind fun dest =>
    if len ≤ cfg.chunk.mtu then
      some (leave { w with submitted := w.submitted ++ [w.readAt dest len] }
        ((PacketBuffer.inputHandlerDone cfg len).run { w.packetBuffer with receiving := none }))
    else none
  | .sent => w.packetBuffer.sending.map fun packet =>
    leave { w with delivered := w.delivered ++ [w.readAt packet.1 packet.2.toNat] }
      ((PacketBuffer.outputHandlerDone cfg).run { w.packetBuffer with sending := none })

/-- The buffer before `PacketBuffer_Init`. -/
def blank : PacketBufferWorld :=
  ⟨⟨.blank cfg.chunk.memory, 0, none, none⟩, none, [], []⟩

end PacketBufferWorld

/-- All runs from `PacketBuffer_Init` on. -/
def packetBufferSystem (cfg : PacketBufferConfig) : System PacketBufferWorld PacketBufferLabel where
  init := (PacketBufferWorld.blank cfg).leave
    ((PacketBuffer.init cfg (some cfg.chunk.memory)).run (PacketBufferWorld.blank cfg).packetBuffer)
  next w l := if w.fault.isSome then none else w.next cfg l

/-! ### What is outstanding -/

variable {cfg : PacketBufferConfig}

/-- What `PacketBuffer_Init` asks for. -/
structure PacketBufferConfig.Valid (cfg : PacketBufferConfig) : Prop where
  chunk : cfg.chunk.Valid
  outputMtu : cfg.chunk.mtu ≤ cfg.outputMtu
  num : 0 < cfg.chunk.num

variable {w : PacketBufferWorld} {p : PacketBuffer} {submitted delivered : List (List Byte)}

namespace PacketBuffer

/-- The receive that is outstanding while the buffer is as it is. -/
def receiveDue (cfg : PacketBufferConfig) (b : ChunkBuffer2) : Option (Option ℕ) :=
  if (cfg.chunk.mtu : ℤ) ≤ b.inputAvail then some b.inputDest else none

/-- The send that is outstanding while the buffer is as it is. -/
def sendDue (b : ChunkBuffer2) : Option (Option ℕ × ℤ) :=
  if 0 ≤ b.outputAvail then some (b.outputDest, b.outputAvail) else none

/-- The buffer receives whenever it can and sends whenever it can. -/
structure Busy (cfg : PacketBufferConfig) (p : PacketBuffer) : Prop where
  inputMtu : p.inputMtu = cfg.chunk.mtu
  receiving : p.receiving = receiveDue cfg p.buf
  sending : p.sending = sendDue p.buf

/-- A handler that receives if and only if a receive is due and none is outstanding. -/
theorem recvIf_spec (hfifo : Fifo cfg.chunk p.buf submitted delivered) {c : Bool}
    (hthen : c = true → p.receiving = none ∧ (cfg.chunk.mtu : ℤ) ≤ p.buf.inputAvail)
    (helse : c = false → p.receiving = receiveDue cfg p.buf) :
    wp (recvIf c) (fun _ p' => p' = { p with receiving := receiveDue cfg p.buf }) p := by
  cases c with
  | false => rw [recvIf, if_neg Bool.false_ne_true, wp_pure, ← helse rfl]
  | true =>
    obtain ⟨hnone, havail⟩ := hthen rfl
    obtain ⟨d, hdest⟩ := hfifo.exists_inputDest havail
    rw [recvIf, if_pos rfl, receiveDue, if_pos havail]
    simp only [recv, wp_bind, wp_get, wp_ensure, wp_modify]
    exact ⟨fun _ => by rw [hdest]; exact Option.some_ne_none _, hnone, trivial⟩

/-- A handler that sends if and only if a send is due and none is outstanding. -/
theorem sendIf_spec (hcfg : cfg.Valid) (hfifo : Fifo cfg.chunk p.buf submitted delivered)
    {c : Bool} (hthen : c = true → p.sending = none ∧ 0 ≤ p.buf.outputAvail)
    (helse : c = false → p.sending = sendDue p.buf) :
    wp (sendIf cfg c) (fun _ p' => p' = { p with sending := sendDue p.buf }) p := by
  cases c with
  | false => rw [sendIf, if_neg Bool.false_ne_true, wp_pure, ← helse rfl]
  | true =>
    obtain ⟨hnone, havail⟩ := hthen rfl
    have hmtu := hcfg.outputMtu
    obtain ⟨-, -, hempty⟩ | ⟨-, hdest, -, hle⟩ := hfifo.output_cases
    · omega
    · rw [sendIf, if_pos rfl, sendDue, if_pos havail]
      simp only [send, wp_bind, wp_get, wp_ensure, wp_modify]
      exact ⟨havail, by omega, fun _ => hdest, hnone, trivial⟩

theorem init_spec (hcfg : cfg.Valid) (hreceiving : p.receiving = none)
    (hsending : p.sending = none) :
    wp (init cfg (some cfg.chunk.memory)) (fun ok p' => ok = true ∧
      Fifo cfg.chunk p'.buf [] [] ∧ p'.Busy cfg) p := by
  have hblocks : ¬ ChunkBuffer2.calcBlocks cfg.chunk.mtu cfg.chunk.num < 0 :=
    not_lt.mpr hcfg.chunk.blocks
  simp only [init, onBuf, wp_bind, wp_ensure, wp_modify, if_neg hblocks, wp_focus]
  refine ⟨hcfg.outputMtu, hcfg.num, wp_mono (Fifo.init hcfg.chunk) ?_⟩
  rintro _ b' hb'
  have havail : (cfg.chunk.mtu : ℤ) ≤ b'.inputAvail := hb'.bounded.capacity hcfg.num
  have hrecv := recvIf_spec (p := { p with inputMtu := cfg.chunk.mtu, buf := b' }) hb'
    (fun _ => ⟨hreceiving, havail⟩) (fun h : true = false => Bool.noConfusion h)
  refine wp_mono hrecv ?_
  rintro _ p' rfl
  rw [wp_pure]
  refine ⟨rfl, hb', rfl, rfl, ?_⟩
  obtain ⟨-, -, hempty⟩ | ⟨hlt, -⟩ := hb'.output_cases
  · exact hsending.trans (if_neg (by rw [hempty]; decide)).symm
  · exact absurd hlt (Nat.lt_irrefl _)

/-- The outstanding receive was given the place where a packet may be written. -/
theorem Busy.of_receiving (h : p.Busy cfg) {dest : Option ℕ} (hdest : p.receiving = some dest) :
    (cfg.chunk.mtu : ℤ) ≤ p.buf.inputAvail ∧ p.buf.inputDest = dest := by
  rw [h.receiving, receiveDue] at hdest
  split at hdest
  · rename_i havail
    exact ⟨havail, Option.some.inj hdest⟩
  · cases hdest

/-- The outstanding send was given the packet that may be read. -/
theorem Busy.of_sending (h : p.Busy cfg) {packet : Option ℕ × ℤ} (hpacket : p.sending = some packet) :
    0 ≤ p.buf.outputAvail ∧ (p.buf.outputDest, p.buf.outputAvail) = packet := by
  rw [h.sending, sendDue] at hpacket
  split at hpacket
  · rename_i havail
    exact ⟨havail, Option.some.inj hpacket⟩
  · cases hpacket

/-- A packet was received: it is stored, and if it is the only one it is sent. -/
theorem inputHandlerDone_spec (hcfg : cfg.Valid)
    (hfifo : Fifo cfg.chunk p.buf submitted delivered) (hbusy : p.Busy cfg) {d len : ℕ}
    (hreceiving : p.receiving = some (some d)) (hlen : len ≤ cfg.chunk.mtu) :
    wp (inputHandlerDone cfg len) (fun _ p' =>
      Fifo cfg.chunk p'.buf (submitted ++ [p.buf.buffer.read d len]) delivered ∧ p'.Busy cfg)
      { p with receiving := none } := by
  obtain ⟨havail, hdest⟩ := hbusy.of_receiving hreceiving
  have hmtu := hbusy.inputMtu
  simp only [inputHandlerDone, onBuf, wp_bind, wp_ensure, wp_get, wp_focus]
  refine ⟨hmtu ▸ hlen, wp_mono (hfifo.submitPacket hcfg.chunk hdest havail hlen) ?_⟩
  rintro _ b' ⟨hb', houtput⟩
  refine wp_mono (recvIf_spec hb' ?_ ?_) ?_
  · exact fun h => ⟨rfl, hmtu ▸ of_decide_eq_true h⟩
  · exact fun h => (if_neg (hmtu ▸ of_decide_eq_false h)).symm
  rintro _ p' rfl
  have hsome : 0 ≤ b'.outputAvail := by
    obtain ⟨hall, -⟩ | ⟨-, -, hsome, -⟩ := hb'.output_cases
    · have hlen := congrArg List.length hall
      have hle := hfifo.bounded.order.length_le
      rw [List.length_append, List.length_singleton] at hlen
      omega
    · exact hsome
  refine wp_mono (sendIf_spec hcfg hb' ?_ ?_) ?_
  · exact fun h => ⟨hbusy.sending.trans (if_neg (not_le.mpr (of_decide_eq_true h))), hsome⟩
  · -- The buffer was not empty, and its first packet is the one that is being sent.
    intro h
    have hold : 0 ≤ p.buf.outputAvail := not_lt.mp (of_decide_eq_false h)
    obtain ⟨-, -, hempty⟩ | ⟨-, hne, -⟩ := hfifo.output_cases
    · omega
    · obtain ⟨hout, hout'⟩ := houtput hne
      refine hbusy.sending.trans ?_
      rw [sendDue, sendDue]
      dsimp only
      rw [hout, hout']
  · rintro _ p' rfl
    exact ⟨hb', hmtu, rfl, rfl⟩

/-- A packet was sent: it is dropped. A receive that is outstanding keeps its place, and one is made
if there was no room before. -/
theorem outputHandlerDone_spec (hcfg : cfg.Valid)
    (hfifo : Fifo cfg.chunk p.buf submitted delivered) (hbusy : p.Busy cfg) {d : ℕ} {n : ℤ}
    (hsending : p.sending = some (some d, n)) :
    wp (outputHandlerDone cfg) (fun _ p' =>
      Fifo cfg.chunk p'.buf submitted (delivered ++ [p.buf.packetAt d]) ∧ p'.Busy cfg ∧
      p.buf.inputAvail ≤ p'.buf.inputAvail ∧
      ∀ d, p.buf.inputDest = some d → p'.buf.inputDest = some d) { p with sending := none } := by
  obtain ⟨-, hpacket⟩ := hbusy.of_sending hsending
  have hdest : p.buf.outputDest = some d := (Prod.mk.inj hpacket).1
  have hmtu := hbusy.inputMtu
  simp only [outputHandlerDone, onBuf, wp_bind, wp_get, wp_focus]
  refine wp_mono (hfifo.consumePacket hdest) ?_
  rintro _ b' ⟨hb', havail, hinput⟩
  refine wp_mono (recvIf_spec hb' ?_ ?_) ?_
  · intro h
    obtain ⟨hfull, hroom⟩ := of_decide_eq_true h
    have hfull := of_decide_eq_true hfull
    refine ⟨hbusy.receiving.trans (if_neg ?_), hmtu ▸ hroom⟩
    omega
  · intro h
    have h := of_decide_eq_false h
    rw [decide_eq_true_eq, hmtu] at h
    refine hbusy.receiving.trans ?_
    rw [receiveDue, receiveDue]
    dsimp only at h ⊢
    by_cases hfull : p.buf.inputAvail < cfg.chunk.mtu
    · rw [if_neg (by omega), if_neg (by omega)]
    · obtain ⟨d', hd'⟩ := hfifo.exists_inputDest (not_lt.mp hfull)
      rw [if_pos (by omega), if_pos (by omega), hd', hinput d' hd']
  rintro _ p' rfl
  refine wp_mono (sendIf_spec hcfg hb' ?_ ?_) ?_
  · exact fun h => ⟨rfl, of_decide_eq_true h⟩
  · exact fun h => (if_neg (of_decide_eq_false h)).symm
  · rintro _ p' rfl
    exact ⟨hb', ⟨hmtu, rfl, rfl⟩, havail, hinput⟩

end PacketBuffer

structure PacketBufferWorld.Inv (cfg : PacketBufferConfig) (w : PacketBufferWorld) : Prop where
  fault : w.fault = none
  fifo : Fifo cfg.chunk w.packetBuffer.buf w.submitted w.delivered
  busy : w.packetBuffer.Busy cfg

theorem PacketBufferWorld.inv_init (hcfg : cfg.Valid) :
    PacketBufferWorld.Inv cfg (packetBufferSystem cfg).init := by
  obtain ⟨_, p', hleave, -, hfifo, hbusy⟩ := PacketBufferWorld.leave_of_wp
    (w := .blank cfg) (PacketBuffer.init_spec (p := (PacketBufferWorld.blank cfg).packetBuffer)
      hcfg rfl rfl)
  change PacketBufferWorld.Inv cfg (PacketBufferWorld.leave _ _)
  rw [hleave]
  exact ⟨rfl, hfifo, hbusy⟩

/-- One step. If a packet was sent, what may be written is not taken away. -/
theorem PacketBufferWorld.Inv.step (hcfg : cfg.Valid) {w' : PacketBufferWorld}
    {l : PacketBufferLabel} (h : PacketBufferWorld.Inv cfg w)
    (hnext : (packetBufferSystem cfg).next w l = some w') :
    PacketBufferWorld.Inv cfg w' ∧ (l = .sent →
      w.packetBuffer.buf.inputAvail ≤ w'.packetBuffer.buf.inputAvail ∧
      ∀ d, w.packetBuffer.buf.inputDest = some d → w'.packetBuffer.buf.inputDest = some d) := by
  change (if w.fault.isSome then none else w.next cfg l) = some w' at hnext
  rw [if_neg (by rw [h.fault]; exact Bool.false_ne_true)] at hnext
  cases l with
  | fill =>
    obtain ⟨d, hreceiving, hnext⟩ := Option.bind_eq_some_iff.mp hnext
    obtain ⟨hlen, rfl⟩ := guard_eq_some.mp hnext
    obtain ⟨havail, hdest⟩ := h.busy.of_receiving (Option.join_eq_some_iff.mp hreceiving)
    exact ⟨⟨h.fault, h.fifo.fill hdest havail hlen, h.busy.inputMtu, h.busy.receiving,
      h.busy.sending⟩, nofun⟩
  | received =>
    obtain ⟨dest, hreceiving, hnext⟩ := Option.bind_eq_some_iff.mp hnext
    rw [Option.ite_none_right_eq_some] at hnext
    obtain ⟨hlen, hnext⟩ := hnext
    obtain ⟨havail, hdest⟩ := h.busy.of_receiving hreceiving
    obtain ⟨d, hd⟩ := h.fifo.exists_inputDest havail
    obtain rfl : dest = some d := hdest.symm.trans hd
    obtain ⟨_, p', hleave, hfifo, hbusy⟩ := PacketBufferWorld.leave_of_wp
      (PacketBuffer.inputHandlerDone_spec hcfg h.fifo h.busy hreceiving hlen)
    rw [hleave] at hnext
    cases hnext
    exact ⟨⟨h.fault, hfifo, hbusy⟩, nofun⟩
  | sent =>
    obtain ⟨packet, hsending, hnext⟩ := Option.map_eq_some_iff.mp hnext
    obtain ⟨hsome, rfl⟩ := h.busy.of_sending hsending
    obtain ⟨-, -, hempty⟩ | ⟨-, hne, -⟩ := h.fifo.output_cases
    · omega
    obtain ⟨d, hd⟩ := Option.ne_none_iff_exists'.mp hne
    rw [hd] at hsending hnext
    obtain ⟨_, p', hleave, hfifo, hbusy, hinput⟩ := PacketBufferWorld.leave_of_wp
      (PacketBuffer.outputHandlerDone_spec hcfg h.fifo h.busy hsending)
    rw [hleave] at hnext
    subst hnext
    exact ⟨⟨h.fault, hfifo, hbusy⟩, fun _ => hinput⟩

theorem PacketBufferWorld.inv_of_reachable (hcfg : cfg.Valid)
    (h : (packetBufferSystem cfg).Reachable w) : PacketBufferWorld.Inv cfg w :=
  h.invariant (PacketBufferWorld.inv_init hcfg) fun _ _ _ hinv hnext =>
    (hinv.step hcfg hnext).1

/-- What a `PacketBuffer` has outstanding. -/
structure PacketBuffer.Outstanding (cfg : PacketBufferConfig) (p : PacketBuffer)
    (submitted delivered : List (List Byte)) : Prop where
  receive : p.receiving ≠ none ↔ (cfg.chunk.mtu : ℤ) ≤ p.buf.inputAvail
  /-- The receive was given the region that may be written. -/
  dest : ∀ dest ∈ p.receiving, dest = p.buf.inputDest ∧ dest ≠ none
  send : p.sending ≠ none ↔ delivered.length < submitted.length

theorem PacketBufferWorld.Inv.outstanding (h : PacketBufferWorld.Inv cfg w) :
    w.packetBuffer.Outstanding cfg w.submitted w.delivered := by
  constructor
  · rw [h.busy.receiving, PacketBuffer.receiveDue, ne_eq, ite_eq_right_iff]
    simp only [reduceCtorEq, imp_false, not_not]
  · intro dest hdest
    obtain ⟨havail, hinput⟩ := h.busy.of_receiving hdest
    obtain ⟨d, hd⟩ := h.fifo.exists_inputDest havail
    exact ⟨hinput.symm, by rw [← hinput, hd]; exact Option.some_ne_none _⟩
  · rw [h.busy.sending, PacketBuffer.sendDue, ne_eq, ite_eq_right_iff]
    simp only [reduceCtorEq, imp_false, not_not]
    obtain ⟨hall, -, hempty⟩ | ⟨hlt, -, hsome, -⟩ := h.fifo.output_cases
    · rw [hall, hempty]
      exact ⟨fun h => absurd h (by decide), fun h => absurd h (Nat.lt_irrefl _)⟩
    · exact ⟨fun _ => hlt, fun _ => hsome⟩

/-- **The buffer is a bounded queue.** For every MTU and number of packets for which the buffer can
be made, in every run of its two functions by a user that keeps to the rules, and in every run of a
`PacketBuffer`: no `ASSERT` fails, packets are read in order and byte for byte, nothing stored is in
the region that may be written, a packet of the MTU may be written while fewer than `num` are
stored, and that region is not moved or made smaller by consuming a packet. A `PacketBuffer` has a
receive outstanding exactly while a packet of the MTU may be written, and a send exactly while a
packet is stored. -/
theorem packetBuffer_bounded_fifo (chunk : ChunkConfig) (hvalid : chunk.Valid) :
    (∀ w, (chunkSystem chunk).Reachable w →
      w.fault = none ∧ Bounded chunk w.buf w.submitted w.delivered ∧
      ∀ w', (chunkSystem chunk).next w .consume = some w' →
        w.buf.inputAvail ≤ w'.buf.inputAvail ∧
        ((chunk.mtu : ℤ) ≤ w.buf.inputAvail → w'.buf.inputDest = w.buf.inputDest)) ∧
    (∀ outputMtu, chunk.mtu ≤ outputMtu → 0 < chunk.num →
      ∀ w, (packetBufferSystem ⟨chunk, outputMtu⟩).Reachable w →
        w.fault = none ∧ Bounded chunk w.packetBuffer.buf w.submitted w.delivered ∧
        w.packetBuffer.Outstanding ⟨chunk, outputMtu⟩ w.submitted w.delivered ∧
        ∀ w', (packetBufferSystem ⟨chunk, outputMtu⟩).next w .sent = some w' →
          w.packetBuffer.buf.inputAvail ≤ w'.packetBuffer.buf.inputAvail ∧
          ((chunk.mtu : ℤ) ≤ w.packetBuffer.buf.inputAvail →
            w'.packetBuffer.buf.inputDest = w.packetBuffer.buf.inputDest)) := by
  constructor
  · intro w hw
    have hinv := ChunkWorld.inv_of_reachable hvalid hw
    refine ⟨hinv.fault, hinv.fifo.bounded, ?_⟩
    intro w' hnext
    obtain ⟨havail, hdest⟩ := (hinv.step hvalid hnext).2 rfl
    refine ⟨havail, fun hroom => ?_⟩
    obtain ⟨d, hd⟩ := hinv.fifo.exists_inputDest hroom
    rw [hd, hdest d hd]
  · intro outputMtu hmtu hnum w hw
    have hcfg : PacketBufferConfig.Valid ⟨chunk, outputMtu⟩ := ⟨hvalid, hmtu, hnum⟩
    have hinv := PacketBufferWorld.inv_of_reachable hcfg hw
    refine ⟨hinv.fault, hinv.fifo.bounded, hinv.outstanding, ?_⟩
    intro w' hnext
    obtain ⟨havail, hdest⟩ := (hinv.step hcfg hnext).2 rfl
    refine ⟨havail, fun hroom => ?_⟩
    obtain ⟨d, hd⟩ := hinv.fifo.exists_inputDest hroom
    rw [hd, hdest d hd]

/-- Two packets of up to five bytes, in a buffer of nine blocks. -/
def smallChunk : ChunkConfig := ⟨.little, fun _ => 0, 5, 2⟩

/-- Four packets go into the small buffer, and the fourth starts over at its first block. -/
theorem packetBuffer_bounded_fifo_small : smallChunk.Valid ∧ 5 ≤ 5 ∧ 0 < 2 ∧
    ∃ w, (packetBufferSystem ⟨smallChunk, 5⟩).Reachable w ∧
      (w.submitted = [[1, 2, 3], [4, 5, 6, 7, 8], [9], [10]] ∧
        w.delivered = [[1, 2, 3], [4, 5, 6, 7, 8]] ∧ w.packetBuffer.buf.chunkEnd = 2) ∧
      w.fault = none ∧ Bounded smallChunk w.packetBuffer.buf w.submitted w.delivered ∧
      w.packetBuffer.Outstanding ⟨smallChunk, 5⟩ w.submitted w.delivered := by
  have hvalid : smallChunk.Valid := ⟨by decide, by decide⟩
  obtain ⟨w, hw, hrun⟩ := System.exists_of_run (packetBufferSystem ⟨smallChunk, 5⟩)
    (fun w => w.submitted = [[1, 2, 3], [4, 5, 6, 7, 8], [9], [10]] ∧
      w.delivered = [[1, 2, 3], [4, 5, 6, 7, 8]] ∧ w.packetBuffer.buf.chunkEnd = 2)
    [.fill 0 [1, 2, 3], .received 3, .fill 0 [4, 5, 6], .fill 2 [6, 7, 8], .received 5, .sent,
      .fill 0 [9], .received 1, .sent, .fill 0 [10], .received 1] (by decide +kernel)
  obtain ⟨hfault, hbounded, hout, -⟩ :=
    (packetBuffer_bounded_fifo smallChunk hvalid).2 5 (by decide) (by decide) w hw
  exact ⟨hvalid, by decide, by decide, w, hw, hrun, hfault, hbounded, hout⟩

end Tun2Socks.Flow
