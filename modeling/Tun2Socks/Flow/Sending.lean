import Tun2Socks.Flow.PacketProto

/-!
# What the sending side writes

`PacketProtoEncoder` and `PacketStreamSender` write the encodings of the packets to the stream, one
after the other, however little of them the stream takes at a time.

* `PacketStreamSender.Inv` says how far the sender is with a packet, and `rest` is the part that the
  stream has still to take. The handlers keep `rest`; only the stream takes from it.
* `PacketProtoEncoder.Inv` and `bytes` say the same of the encoder.
* `SendingWorld.Inv` puts them in a row: what has been written and what is on its way are the
  encodings of the packets taken so far.
-/

namespace Tun2Socks.Flow

open Framework Net PacketProtoEncoder

variable {o : ByteOrder} {mtu : ℕ}

theorem length_header (len : ℕ) : (header o len).length = headerSize := rfl

/-- A packet as it is on the stream. -/
def encode (o : ByteOrder) (p : List Byte) : List Byte := header o p.length ++ p

/-- The length that an interface is about to report. -/
def Interface.doneLen {Op : Type} : Interface Op ℕ → ℕ
  | .donePending n => n
  | .none | .operationPending _ | .busy _ => 0

/-! ### The sender -/

namespace PacketStreamSender

/-- The part of its packet that the stream has still to take. -/
def rest (s : PacketStreamSender) : List Byte :=
  match s.input with
  | .operationPending p => p
  | .busy p => p.drop (s.inUsed + s.output.doneLen)
  | .none | .donePending _ => []

/-- The sender has no packet, or the stream has a part of it. -/
inductive Inv (s : PacketStreamSender) : Prop
  | idle (hinLen : s.inLen = -1) (houtput : s.output = .none) (hinput : ¬ s.input.IsBusy)
  | sending (p : List Byte) (hinput : s.input = .busy p) (hdata : s.data = p)
      (hinLen : s.inLen = p.length) (hused : s.inUsed < p.length)
      (houtput : s.output = .operationPending (s.inUsed, p.length - s.inUsed) ∨
        s.output = .busy (s.inUsed, p.length - s.inUsed))
  | sent (p : List Byte) (n : ℕ) (hinput : s.input = .busy p) (hdata : s.data = p)
      (hinLen : s.inLen = p.length) (houtput : s.output = .donePending n) (hpos : 0 < n)
      (hused : s.inUsed + n ≤ p.length)

variable {s : PacketStreamSender}

theorem sendData_spec {p : List Byte} (hinput : s.input = .busy p) (hdata : s.data = p)
    (hinLen : s.inLen = p.length) (hused : s.inUsed ≤ p.length) (houtput : s.output = .none) :
    wp sendData (fun _ s' => s'.Inv ∧ s'.rest = p.drop s.inUsed ∧ s'.input ≠ .none) s := by
  unfold sendData
  have hnonneg : 0 ≤ s.inLen := hinLen ▸ Int.natCast_nonneg _
  simp only [wp_bind, wp_get, wp_ensure, wp_ite, wp_modify]
  refine ⟨hnonneg, ?_⟩
  by_cases hmore : (s.inUsed : ℤ) < s.inLen
  · rw [if_pos hmore]
    have hlen : (s.inLen - s.inUsed).toNat = p.length - s.inUsed := by omega
    have hlt : s.inUsed < p.length := by omega
    refine ⟨Int.sub_pos_of_lt hmore, houtput, ?_, ?_, ?_⟩
    · refine .sending p hinput hdata hinLen hlt (.inl ?_)
      rw [hlen]
    · rw [rest, hinput]
      rfl
    · simp [hinput]
  · rw [if_neg hmore]
    have hend : s.inUsed = p.length := by omega
    refine ⟨?_, .idle rfl houtput id, ?_, by simp⟩
    · rw [hinput]
      trivial
    · rw [hend, List.drop_length]
      rfl

/-- A packet is given to the sender. -/
theorem inputHandlerSend_spec (h : s.Inv) {p : List Byte}
    (hinput : s.input = .operationPending p) :
    wp (inputHandlerSend p) (fun _ s' => s'.Inv ∧ s'.rest = s.rest ∧ s'.input ≠ .none)
      { s with input := .busy p } := by
  have hrest : s.rest = p := by rw [rest, hinput]
  rw [hrest]
  cases h with
  | idle hinLen houtput _ =>
    unfold inputHandlerSend
    simp only [wp_bind, wp_get, wp_ensure, wp_modify]
    exact ⟨hinLen, sendData_spec rfl rfl rfl (Nat.zero_le _) houtput⟩
  | sending _ hbusy | sent _ _ hbusy => rw [hinput] at hbusy; cases hbusy

/-- The sender is told how much the stream has taken. -/
theorem outputHandlerDone_spec (h : s.Inv) {n : ℕ} (hdone : s.output = .donePending n) :
    wp (outputHandlerDone n) (fun _ s' => s'.Inv ∧ s'.rest = s.rest ∧ s'.input ≠ .none)
      { s with output := .none } := by
  cases h with
  | sent p _ hinput hdata hinLen houtput hpos hused =>
    obtain rfl := Interface.donePending.inj (hdone.symm.trans houtput)
    have hrest : s.rest = p.drop (s.inUsed + n) := by
      rw [rest, hinput, hdone]
      rfl
    rw [hrest]
    unfold outputHandlerDone
    simp only [wp_bind, wp_get, wp_ensure, wp_modify]
    exact ⟨by omega, hpos, by omega, sendData_spec hinput hdata hinLen hused rfl⟩
  | idle _ houtput => rw [hdone] at houtput; cases houtput
  | sending _ _ _ _ _ houtput =>
    rw [hdone] at houtput
    obtain houtput | houtput := houtput <;> cases houtput

/-- A packet comes to the sender. -/
theorem Inv.start (h : s.Inv) (p : List Byte) (hnone : s.input = .none) :
    Inv { s with input := .operationPending p } := by
  cases h with
  | idle hinLen houtput => exact .idle hinLen houtput id
  | sending _ hbusy | sent _ _ hbusy => rw [hnone] at hbusy; cases hbusy

/-- The user of the sender learns that its packet is sent. -/
theorem Inv.inputDone (h : s.Inv) (hdone : s.input = .donePending ()) :
    Inv { s with input := .none } ∧ rest { s with input := .none } = s.rest := by
  have hrest : s.rest = [] := by rw [rest, hdone]
  rw [hrest]
  cases h with
  | idle hinLen houtput => exact ⟨.idle hinLen houtput id, rfl⟩
  | sending _ hbusy | sent _ _ hbusy => rw [hdone] at hbusy; cases hbusy

/-- The stream has a part to take. -/
theorem Inv.outputOperation (h : s.Inv) {op : ℕ × ℕ} (hpending : s.output = .operationPending op) :
    Inv { s with output := .busy op } ∧ rest { s with output := .busy op } = s.rest := by
  have hrest : rest { s with output := .busy op } = s.rest := by
    rw [rest, rest, hpending]
    rfl
  refine ⟨?_, hrest⟩
  cases h with
  | sending p hinput hdata hinLen hused houtput =>
    obtain rfl : op = (s.inUsed, p.length - s.inUsed) := by
      obtain houtput | houtput := houtput <;> rw [hpending] at houtput <;> cases houtput
      rfl
    exact .sending p hinput hdata hinLen hused (.inr rfl)
  | idle _ houtput => rw [hpending] at houtput; cases houtput
  | sent _ _ _ _ _ houtput =>
    rw [hpending] at houtput
    cases houtput

/-- The stream takes a part. -/
theorem Inv.write (h : s.Inv) {place len n : ℕ} (hbusy : s.output = .busy (place, len))
    (hpos : 0 < n) (hlen : n ≤ len) :
    Inv { s with output := .donePending n } ∧
      s.rest = (s.data.drop place).take n ++ rest { s with output := .donePending n } := by
  cases h with
  | sending p hinput hdata hinLen _ houtput =>
    obtain ⟨rfl, rfl⟩ : place = s.inUsed ∧ len = p.length - s.inUsed := by
      obtain houtput | houtput := houtput <;> rw [hbusy] at houtput <;> cases houtput
      exact ⟨rfl, rfl⟩
    have hle : s.inUsed + n ≤ p.length := by omega
    refine ⟨.sent p n hinput hdata hinLen rfl hpos hle, ?_⟩
    have hold : s.rest = p.drop s.inUsed := by
      rw [rest, hinput, hbusy]
      rfl
    have hnew : rest { s with output := .donePending n } = (p.drop s.inUsed).drop n := by
      rw [rest, hinput, List.drop_drop]
      rfl
    rw [hold, hnew, hdata, List.take_append_drop]
  | idle _ houtput => rw [hbusy] at houtput; cases houtput
  | sent _ _ _ _ _ houtput =>
    rw [hbusy] at houtput
    cases houtput

/-- A sender that uses its output has a packet. -/
theorem Inv.input_ne_none (h : s.Inv) (houtput : s.output ≠ .none) : s.input ≠ .none := by
  cases h with
  | idle _ hnone => exact absurd hnone houtput
  | sending _ hinput | sent _ _ hinput => rw [hinput]; exact nofun

/-- A sender has no packet if none of its jobs is set and the stream has no part to take. -/
theorem Inv.input_eq_none (h : s.Inv) (hoperation : ∀ p, s.input ≠ .operationPending p)
    (hdone : s.input ≠ .donePending ()) (houtputOperation : ∀ op, s.output ≠ .operationPending op)
    (hbusy : ∀ place len, 0 < len → s.output ≠ .busy (place, len))
    (houtputDone : ∀ n, s.output ≠ .donePending n) : s.input = .none := by
  cases h with
  | idle _ _ hidle =>
    cases hinput : s.input with
    | none => rfl
    | operationPending p => exact absurd hinput (hoperation p)
    | busy =>
      rw [hinput] at hidle
      exact absurd trivial hidle
    | donePending => exact absurd hinput hdone
  | sending _ _ _ _ hused houtput =>
    obtain houtput | houtput := houtput
    · exact absurd houtput (houtputOperation _)
    · exact absurd houtput (hbusy _ _ (Nat.sub_pos_of_lt hused))
  | sent _ n _ _ _ houtput => exact absurd houtput (houtputDone n)

end PacketStreamSender

/-! ### The encoder -/

namespace PacketProtoEncoder

variable {e : PacketProtoEncoder mtu}

/-- The packet that the encoder has and has not handed on, encoded. -/
def bytes (o : ByteOrder) (e : PacketProtoEncoder mtu) : List Byte :=
  match e.output, e.input with
  | .donePending n, _ => e.memory.take n
  | _, .donePending n => header o n ++ e.memory.slice headerSize (headerSize + n)
  | _, _ => []

/-- How far the encoder is with a packet. -/
inductive Inv (e : PacketProtoEncoder mtu) : Prop
  | idle (houtput : e.output = .none ∨ e.output = .operationPending ()) (hinput : e.input = .none)
      (hpacket : e.outputPacket = false)
  | fetching (houtput : e.output = .busy ())
      (hinput : e.input = .operationPending () ∨ e.input = .busy ())
      (hpacket : e.outputPacket = true)
  | fetched (n : ℕ) (houtput : e.output = .busy ()) (hinput : e.input = .donePending n)
      (hpacket : e.outputPacket = true) (hlen : n ≤ mtu)
  | encoded (n : ℕ) (houtput : e.output = .donePending n) (hinput : e.input = .none)
      (hpacket : e.outputPacket = false)

theorem outputHandlerRecv_spec (h : e.Inv) (hpending : e.output = .operationPending ()) :
    wp outputHandlerRecv (fun _ e' => e'.Inv ∧ e'.bytes o = e.bytes o)
      { e with output := .busy () } := by
  cases h with
  | idle _ hinput hpacket =>
    unfold outputHandlerRecv
    simp only [wp_bind, wp_get, wp_ensure, wp_modify]
    refine ⟨hpacket, hinput, .fetching rfl (.inl rfl) rfl, ?_⟩
    rw [bytes, bytes, hpending, hinput]
  | fetching houtput | fetched _ houtput | encoded _ houtput =>
    rw [hpending] at houtput; cases houtput

/-- The header goes in front of the payload. -/
theorem inputHandlerDone_spec (h : e.Inv) {n : ℕ} (hdone : e.input = .donePending n) :
    wp (inputHandlerDone o n) (fun _ e' => e'.Inv ∧ e'.bytes o = e.bytes o)
      { e with input := .none } := by
  cases h with
  | fetched _ houtput hinput hpacket hlen =>
    obtain rfl := Interface.donePending.inj (hdone.symm.trans hinput)
    unfold inputHandlerDone
    simp only [wp_bind, wp_get, wp_ensure, wp_modify]
    refine ⟨hpacket, houtput, Nat.add_le_add_left hlen _, .encoded _ rfl rfl rfl, ?_⟩
    rw [bytes, bytes, houtput, hdone]
    have hheader : 0 + (header o n).length ≤ encLen mtu := Nat.le_add_right headerSize mtu
    exact Buffer.take_write_zero e.memory hheader (Nat.le_add_right _ _)
  | idle _ hinput => rw [hdone] at hinput; cases hinput
  | fetching _ hinput =>
    rw [hdone] at hinput
    obtain hinput | hinput := hinput <;> cases hinput
  | encoded _ _ hinput => rw [hdone] at hinput; cases hinput

end PacketProtoEncoder

/-! ### The two together -/

namespace SendingWorld

variable {cfg : SendingConfig} {w w' : SendingWorld cfg.mtu}

/-- What is on its way to the stream. -/
def waiting (o : ByteOrder) (w : SendingWorld mtu) : List Byte :=
  w.sender.rest ++ w.queue.flatten ++ w.encoder.bytes o

structure Inv (o : ByteOrder) (cfg : SendingConfig) (w : SendingWorld cfg.mtu) : Prop where
  fault : w.fault = none
  encoder : w.encoder.Inv
  sender : w.sender.Inv
  packets : w.taken ++ w.source = cfg.packets
  /-- What has been written and what is on its way are the packets that were taken. -/
  written : w.written ++ w.waiting o = w.taken.flatMap (encode o)

section

variable (h : Inv o cfg w)

include h

/-- The encoder goes on with what it has. -/
theorem Inv.encoderGoes {e : PacketProtoEncoder cfg.mtu} (hinv : e.Inv)
    (hbytes : e.bytes o = w.encoder.bytes o) : Inv o cfg { w with encoder := e } := by
  refine ⟨h.fault, hinv, h.sender, h.packets, ?_⟩
  change w.written ++ (w.sender.rest ++ w.queue.flatten ++ e.bytes o) = _
  rw [hbytes]
  exact h.written

/-- The sender goes on with what it has. -/
theorem Inv.senderGoes {s : PacketStreamSender} (hinv : s.Inv)
    (hrest : s.rest = w.sender.rest) : Inv o cfg { w with sender := s } := by
  refine ⟨h.fault, h.encoder, hinv, h.packets, ?_⟩
  change w.written ++ (s.rest ++ w.queue.flatten ++ w.encoder.bytes o) = _
  rw [hrest]
  exact h.written

theorem Inv.leaveEncoder {prog : PacketProtoEncoder.M cfg.mtu Unit}
    {e : PacketProtoEncoder cfg.mtu}
    (hprog : wp prog (fun _ e' => e'.Inv ∧ e'.bytes o = w.encoder.bytes o) e) :
    Inv o cfg (w.leaveEncoder (prog.run e)) := by
  obtain ⟨⟨_, e'⟩, hrun, hinv, hbytes⟩ := hprog
  rw [hrun]
  exact h.encoderGoes hinv hbytes

theorem Inv.leaveSender {prog : PacketStreamSender.M Unit}
    {s : PacketStreamSender}
    (hprog : wp prog (fun _ s' => s'.Inv ∧ s'.rest = w.sender.rest ∧ s'.input ≠ .none) s) :
    Inv o cfg (w.leaveSender (prog.run s)) := by
  obtain ⟨⟨_, s'⟩, hrun, hinv, hrest, -⟩ := hprog
  rw [hrun]
  exact h.senderGoes hinv hrest

/-- A packet is fetched. -/
theorem Inv.fetch {p : List Byte} {source : List (List Byte)}
    (hsource : w.source = p :: source) (hbusy : w.encoder.input = .busy ()) :
    ∃ hroom : headerSize + p.length ≤ encLen cfg.mtu, Inv o cfg { w with
      source
      taken := w.taken ++ [p]
      encoder := { w.encoder with
        memory := w.encoder.memory.write headerSize p hroom
        input := .donePending p.length } } := by
  have hpackets := h.packets
  rw [hsource] at hpackets
  have hp : p.length ≤ cfg.mtu := by
    refine cfg.packets_le p ?_
    rw [← hpackets]
    exact List.mem_append_right _ List.mem_cons_self
  have hroom : headerSize + p.length ≤ encLen cfg.mtu := Nat.add_le_add_left hp headerSize
  cases h.encoder with
  | fetching houtput _ hpacket =>
    refine ⟨hroom, h.fault, .fetched _ houtput rfl hpacket hp, h.sender, ?_, ?_⟩
    · rw [List.append_assoc]
      exact hpackets
    · have hwritten := h.written
      have hnone : w.encoder.bytes o = [] := by
        rw [bytes, houtput, hbusy]
      have hsome : bytes o { w.encoder with
          memory := w.encoder.memory.write headerSize p hroom
          input := .donePending p.length } = encode o p := by
        rw [bytes, houtput]
        change header o p.length ++ _ = encode o p
        rw [Buffer.slice_write _ hroom (Nat.le_refl _), Buffer.slice_self]
        rfl
      rw [waiting, hnone, List.append_nil] at hwritten
      rw [waiting, hsome, List.flatMap_append, List.flatMap_singleton, ← hwritten,
        List.append_assoc, List.append_assoc, List.append_assoc]
  | idle _ hinput | fetched _ _ hinput | encoded _ _ hinput =>
    rw [hbusy] at hinput; cases hinput

/-- An encoded packet goes to the queue. -/
theorem Inv.enqueue {n : ℕ} (hdone : w.encoder.output = .donePending n) :
    Inv o cfg { w with
      encoder := { w.encoder with output := .none }
      queue := w.queue ++ [w.encoder.memory.take n] } := by
  cases h.encoder with
  | encoded _ _ hinput hpacket =>
    refine ⟨h.fault, .idle (.inl rfl) hinput hpacket, h.sender, h.packets, ?_⟩
    have hwritten := h.written
    have hnone : bytes o { w.encoder with output := .none } = [] := by
      rw [bytes, hinput]
    rw [waiting, bytes, hdone] at hwritten
    rw [waiting, hnone, List.flatten_append, List.flatten_singleton, List.append_nil,
      ← List.append_assoc w.sender.rest]
    exact hwritten
  | idle houtput =>
    rw [hdone] at houtput
    obtain houtput | houtput := houtput <;> cases houtput
  | fetching houtput | fetched _ houtput => rw [hdone] at houtput; cases houtput

/-- A step of the encoder's side. -/
theorem Inv.encoderNext {l : SendingLabel cfg.mtu}
    (hnext : w.encoderNext o l = some w') : Inv o cfg w' := by
  unfold SendingWorld.encoderNext at hnext
  cases l with
  | encoderRecv =>
    obtain ⟨hnone, rfl⟩ := guard_eq_some.mp hnext
    cases h.encoder with
    | idle _ hinput hpacket =>
      refine h.encoderGoes (.idle (.inr rfl) hinput hpacket) ?_
      rw [bytes, bytes, hnone, hinput]
    | fetching houtput | fetched _ houtput | encoded _ houtput =>
      rw [hnone] at houtput; cases houtput
  | encoderOutputOperation =>
    obtain ⟨hpending, rfl⟩ := guard_eq_some.mp hnext
    exact h.leaveEncoder (outputHandlerRecv_spec h.encoder hpending)
  | encoderInputOperation =>
    obtain ⟨hpending, rfl⟩ := guard_eq_some.mp hnext
    cases h.encoder with
    | fetching houtput _ hpacket =>
      refine h.encoderGoes (.fetching houtput (.inr rfl) hpacket) ?_
      rw [bytes, bytes, houtput, hpending]
    | idle _ hinput | fetched _ _ hinput | encoded _ _ hinput =>
      rw [hpending] at hinput; cases hinput
  | source =>
    cases hsource : w.source with rw [hsource] at hnext
    | cons =>
      obtain ⟨hbusy, hnext⟩ := Option.ite_none_right_eq_some.mp hnext
      obtain ⟨hroom, hinv⟩ := h.fetch hsource hbusy
      rw [dif_pos hroom] at hnext
      cases hnext
      exact hinv
    | nil => cases hnext
  | encoderInputDone =>
    cases hinput : w.encoder.input with rw [hinput] at hnext
    | donePending =>
      cases hnext
      exact h.leaveEncoder (inputHandlerDone_spec h.encoder hinput)
    | _ => cases hnext
  | encoderOutputDone =>
    cases houtput : w.encoder.output with rw [houtput] at hnext
    | donePending =>
      cases hnext
      exact h.enqueue houtput
    | _ => cases hnext
  | senderSend | senderInputOperation | senderOutputOperation | write n | senderOutputDone
  | senderInputDone => cases hnext

/-- A step of the sender's side. -/
theorem Inv.senderNext {l : SendingLabel cfg.mtu}
    (hnext : w.senderNext l = some w') : Inv o cfg w' := by
  unfold SendingWorld.senderNext at hnext
  cases l with
  | senderSend =>
    cases hqueue : w.queue with rw [hqueue] at hnext
    | cons p =>
      obtain ⟨hnone, rfl⟩ := guard_eq_some.mp hnext
      refine ⟨h.fault, h.encoder, h.sender.start p hnone, h.packets, ?_⟩
      have hwritten := h.written
      have hrest : w.sender.rest = [] := by rw [PacketStreamSender.rest, hnone]
      rw [waiting, hrest, hqueue, List.flatten_cons, List.nil_append] at hwritten
      exact hwritten
    | nil => cases hnext
  | senderInputOperation =>
    cases hinput : w.sender.input with rw [hinput] at hnext
    | operationPending =>
      cases hnext
      exact h.leaveSender (PacketStreamSender.inputHandlerSend_spec h.sender hinput)
    | _ => cases hnext
  | senderOutputOperation =>
    cases houtput : w.sender.output with rw [houtput] at hnext
    | operationPending =>
      cases hnext
      obtain ⟨hinv, hrest⟩ := h.sender.outputOperation houtput
      exact h.senderGoes hinv hrest
    | _ => cases hnext
  | write n =>
    cases houtput : w.sender.output with rw [houtput] at hnext
    | busy =>
      obtain ⟨hn, rfl⟩ := guard_eq_some.mp hnext
      obtain ⟨hinv, hrest⟩ := h.sender.write houtput hn.1 hn.2
      refine ⟨h.fault, h.encoder, hinv, h.packets, ?_⟩
      have hwritten := h.written
      rw [waiting, hrest, List.append_assoc, List.append_assoc] at hwritten
      rw [waiting, List.append_assoc, List.append_assoc]
      exact hwritten
    | _ => cases hnext
  | senderOutputDone =>
    cases houtput : w.sender.output with rw [houtput] at hnext
    | donePending =>
      cases hnext
      exact h.leaveSender (PacketStreamSender.outputHandlerDone_spec h.sender houtput)
    | _ => cases hnext
  | senderInputDone =>
    obtain ⟨hdone, rfl⟩ := guard_eq_some.mp hnext
    obtain ⟨hinv, hrest⟩ := h.sender.inputDone hdone
    exact h.senderGoes hinv hrest
  | encoderRecv memory | encoderOutputOperation | encoderInputOperation | source | encoderInputDone
  | encoderOutputDone => cases hnext

end

variable {memory : Buffer Byte (encLen cfg.mtu)}

theorem inv_of_reachable (h : (sendingSystem o cfg memory).Reachable w) : Inv o cfg w := by
  refine h.invariant ⟨rfl, .idle (.inl rfl) rfl rfl, .idle rfl rfl id, rfl, rfl⟩ ?_
  intro v l v' hinv hnext
  obtain ⟨-, hnext⟩ := Option.ite_none_right_eq_some.mp hnext
  cases hencoder : v.encoderNext o l with rw [hencoder] at hnext
  | some =>
    cases hnext
    exact hinv.encoderNext hencoder
  | none =>
    exact hinv.senderNext hnext

/-- What has been written is the beginning of what is to be written. -/
theorem Inv.written_begins (h : Inv o cfg w) : w.written <+: cfg.packets.flatMap (encode o) := by
  rw [← h.packets, List.flatMap_append, ← h.written, List.append_assoc]
  exact List.prefix_append _ _

/-- **When nothing is left to do**, everything has been written. -/
theorem Inv.written_of_quiescent (h : Inv o cfg w)
    (hquiet : (sendingSystem o cfg memory).Quiescent (fun _ => True) w) :
    w.written = cfg.packets.flatMap (encode o) := by
  have hnext : ∀ l, w.encoderNext o l = none ∧ w.senderNext l = none := by
    intro l
    have hnone := hquiet l trivial
    change (if w.fault = none then _ else _) = none at hnone
    rw [if_pos h.fault] at hnone
    cases hencoder : w.encoderNext o l with rw [hencoder] at hnone
    | none =>
      exact ⟨rfl, hnone⟩
    | some => cases hnone
  have hencoder : w.source = [] ∧ w.encoder.bytes o = [] := by
    cases h.encoder with
    | idle houtput =>
      obtain houtput | houtput := houtput
      · have hjob := (hnext (.encoderRecv memory)).1
        rw [SendingWorld.encoderNext, if_pos houtput] at hjob
        cases hjob
      · have hjob := (hnext .encoderOutputOperation).1
        rw [SendingWorld.encoderNext, if_pos houtput] at hjob
        cases hjob
    | fetching houtput hinput =>
      obtain hinput | hinput := hinput
      · have hjob := (hnext .encoderInputOperation).1
        rw [SendingWorld.encoderNext, if_pos hinput] at hjob
        cases hjob
      · refine ⟨?_, by rw [bytes, houtput, hinput]⟩
        have hjob := (hnext .source).1
        cases hsource : w.source with
        | nil => rfl
        | cons =>
          rw [SendingWorld.encoderNext, hsource] at hjob
          dsimp only at hjob
          rw [if_pos hinput] at hjob
          split_ifs at hjob
    | fetched _ _ hinput =>
      have hjob := (hnext .encoderInputDone).1
      rw [SendingWorld.encoderNext, hinput] at hjob
      cases hjob
    | encoded _ houtput =>
      have hjob := (hnext .encoderOutputDone).1
      rw [SendingWorld.encoderNext, houtput] at hjob
      cases hjob
  -- the sender can go on until it has no packet, and then take one from the queue
  have hinput : w.sender.input = .none := by
    refine h.sender.input_eq_none (fun p hinput => ?_) (fun hinput => ?_) (fun op houtput => ?_)
      (fun place len hlen houtput => ?_) (fun n houtput => ?_)
    · have hjob := (hnext .senderInputOperation).2
      rw [SendingWorld.senderNext, hinput] at hjob
      cases hjob
    · have hjob := (hnext .senderInputDone).2
      rw [SendingWorld.senderNext, if_pos hinput] at hjob
      cases hjob
    · have hjob := (hnext .senderOutputOperation).2
      rw [SendingWorld.senderNext, houtput] at hjob
      cases hjob
    · -- the stream could take one byte
      have hjob := (hnext (.write 1)).2
      rw [SendingWorld.senderNext, houtput] at hjob
      dsimp only at hjob
      rw [if_pos ⟨Nat.one_pos, hlen⟩] at hjob
      cases hjob
    · have hjob := (hnext .senderOutputDone).2
      rw [SendingWorld.senderNext, houtput] at hjob
      cases hjob
  have hrest : w.sender.rest = [] := by rw [PacketStreamSender.rest, hinput]
  have hqueue : w.queue = [] := by
    have hjob := (hnext .senderSend).2
    cases hqueue : w.queue with
    | nil => rfl
    | cons =>
      rw [SendingWorld.senderNext, hqueue] at hjob
      dsimp only at hjob
      rw [if_pos hinput] at hjob
      cases hjob
  have hwritten := h.written
  have hpackets := h.packets
  rw [waiting, hencoder.2, hrest, hqueue] at hwritten
  rw [hencoder.1, List.append_nil] at hpackets
  rw [← hpackets, ← hwritten]
  exact (List.append_nil w.written).symm

end SendingWorld

end Tun2Socks.Flow
