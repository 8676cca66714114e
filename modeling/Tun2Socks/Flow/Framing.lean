import Tun2Socks.Flow.Sending

/-!
# The framing round trip

What the decoder does with a stream is told by cutting the stream into segments: an encoded packet
of a length that the output allows, or bytes that start with a header that announces more and are
thrown away. `Account` says that what has been received is a row of such segments and a rest, and
that the segments have caused the events so far, in order.

* The decoder keeps `Account` on every stream (`Inv.account`). The rest is what is in the
  buffer; when the decoder asks for more, the rest is the beginning of a packet.
* A row of segments that lies on a row of encoded packets consists of these packets
  (`segments_on_packets`), which puts the two together.

A step of the decoder reduces `work`, so that it stops once it has no more to receive.
The result is `framing_round_trip`.
-/

namespace Tun2Socks.Flow

open Framework Net

variable {o : ByteOrder} {mtu : ℕ}

/-! ### Headers -/

/-- The header of a length announces it. -/
theorem headerLen_header {len : ℕ} (h : len ≤ maxPayload) (rest : List Byte) :
    headerLen o (header o len ++ rest) 0 = len := by
  have hword : word16At (header o len ++ rest) 0 = htol16 o (Word16.ofNat o len) := rfl
  rw [headerLen, hword, ltoh16_htol16, toNat_ofNat o (Nat.lt_succ_of_le h)]

/-- Two bytes are the header of the length they announce. -/
theorem header_headerLen {data : List Byte} (h : headerSize ≤ data.length) :
    header o (headerLen o data 0) = data.take headerSize := by
  match data, h with
  | b0 :: b1 :: rest, _ =>
    have hword : htol16 o (ltoh16 o ⟨b0, b1⟩) = ⟨b0, b1⟩ := ltoh16_htol16 o ⟨b0, b1⟩
    change (htol16 o (Word16.ofNat o ((ltoh16 o ⟨b0, b1⟩).toNat o))).bytes = [b0, b1]
    rw [ofNat_toNat, hword]
    rfl

/-- The header at an offset is the one of the bytes from there on. -/
theorem headerLen_slice {size : ℕ} (b : Buffer Byte size) {i j : ℕ} (hlen : i + headerSize ≤ j) :
    headerLen o b.cells i = headerLen o (b.slice i j) 0 := by
  have hbyte : ∀ k, k < headerSize → byteAt b.cells (i + k) = byteAt (b.slice i j) k := by
    intro k hk
    have hlt : i + k < j := by omega
    rw [byteAt, byteAt, Buffer.slice, List.getD_eq_getElem?_getD, List.getD_eq_getElem?_getD,
      List.getElem?_drop, List.getElem?_take_of_lt hlt]
  have hword : word16At b.cells i = word16At (b.slice i j) 0 := by
    rw [word16At, word16At, ← hbyte (0 + 1) (by decide), ← hbyte 0 (by decide)]
    rfl
  rw [headerLen, headerLen, hword]

/-! ### Segments -/

inductive Segment
  | packet (p : List Byte)
  | discarded (bytes : List Byte)

namespace Segment

def bytes (o : ByteOrder) : Segment → List Byte
  | .packet p => encode o p
  | .discarded bytes => bytes

/-- What the decoder makes of a segment. -/
def events : Segment → List Event
  | .packet p => [.delivered p, .completed p]
  | .discarded _ => [.error]

/-- A packet is one that the output allows. What is discarded starts with a header that announces
more than that. -/
def Valid (o : ByteOrder) (mtu : ℕ) : Segment → Prop
  | .packet p => p.length ≤ outputMtu mtu
  | .discarded bytes => headerSize ≤ bytes.length ∧ outputMtu mtu < headerLen o bytes 0

end Segment

theorem headerLen_append {data : List Byte} (h : headerSize ≤ data.length) (more : List Byte) :
    headerLen o (data ++ more) 0 = headerLen o data 0 := by
  have hbyte : ∀ i, i < headerSize → byteAt (data ++ more) i = byteAt data i := by
    intro i hi
    rw [byteAt, byteAt, List.getD_append _ _ _ _ (hi.trans_le h)]
  rw [headerLen, headerLen, word16At, word16At, hbyte 0 (by decide), hbyte (0 + 1) (by decide)]

/-- **What lies on a row of encoded packets** is these packets. -/
theorem segments_on_packets {segments : List Segment} (hvalid : ∀ s ∈ segments, s.Valid o mtu)
    {packets : List (List Byte)} (hpackets : ∀ p ∈ packets, p.length ≤ outputMtu mtu)
    {rest : List Byte}
    (h : segments.flatMap (Segment.bytes o) ++ rest = packets.flatMap (encode o)) :
    ∃ sent left, packets = sent ++ left ∧ segments = sent.map .packet ∧
      rest = left.flatMap (encode o) := by
  induction segments generalizing packets with
  | nil => exact ⟨[], packets, rfl, rfl, h⟩
  | cons s _ ih =>
    have hs := hvalid s List.mem_cons_self
    have htwo : headerSize ≤ (s.bytes o).length := by
      cases s with
      | packet =>
        rw [Segment.bytes, encode, List.length_append, length_header]
        exact Nat.le_add_right _ _
      | discarded => exact hs.1
    rw [List.flatMap_cons, List.append_assoc] at h
    cases packets with
    | nil =>
      rw [(List.append_eq_nil_iff.mp h).1] at htwo
      cases htwo
    | cons q =>
      have hq := hpackets q List.mem_cons_self
      rw [List.flatMap_cons] at h
      -- both rows start with the same two bytes
      have hlen : headerLen o (s.bytes o) 0 = q.length := by
        rw [← headerLen_append htwo, h, encode, List.append_assoc,
          headerLen_header (hq.trans (Nat.min_le_right _ _))]
      cases s with
      | discarded => exact absurd hs.2 (Nat.not_lt_of_le (hlen.trans_le hq))
      | packet p =>
        rw [Segment.bytes, encode, headerLen_header (hs.trans (Nat.min_le_right _ _))] at hlen
        have hheader : header o p.length = header o q.length := by rw [hlen]
        rw [Segment.bytes, encode, encode, hheader, List.append_assoc, List.append_assoc] at h
        obtain ⟨rfl, htail⟩ := List.append_inj (List.append_cancel_left h) hlen
        obtain ⟨sent, left, rfl, rfl, hrest⟩ := ih
          (fun s h => hvalid s (List.mem_cons_of_mem _ h))
          (fun p h => hpackets p (List.mem_cons_of_mem _ h)) htail
        exact ⟨p :: sent, left, rfl, rfl, hrest⟩

/-- What has been received is a row of segments, which has caused the events, and a rest. -/
def Account (o : ByteOrder) (mtu : ℕ) (read rest : List Byte) (events : List Event) : Prop :=
  ∃ segments : List Segment, (∀ s ∈ segments, s.Valid o mtu) ∧
    read = segments.flatMap (Segment.bytes o) ++ rest ∧ events = segments.flatMap Segment.events

/-- The beginning of a packet. -/
def Incomplete (o : ByteOrder) (mtu : ℕ) (bytes : List Byte) : Prop :=
  bytes.length < headerSize ∨
    headerLen o bytes 0 ≤ outputMtu mtu ∧ bytes.length < encLen (headerLen o bytes 0)

section Account

variable {read rest bytes : List Byte} {events : List Event}

theorem Account.append (h : Account o mtu read rest events) (more : List Byte) :
    Account o mtu (read ++ more) (rest ++ more) events := by
  obtain ⟨segments, hvalid, rfl, hevents⟩ := h
  exact ⟨segments, hvalid, List.append_assoc _ _ _, hevents⟩

/-- One more segment. -/
theorem Account.segment {s : Segment} (h : Account o mtu read (s.bytes o ++ rest) events)
    (hvalid : s.Valid o mtu) : Account o mtu read rest (events ++ s.events) := by
  obtain ⟨segments, hsegments, rfl, rfl⟩ := h
  refine ⟨segments ++ [s], fun s' hs' => ?_, ?_, ?_⟩
  · obtain hs' | hs' := List.mem_append.mp hs'
    · exact hsegments s' hs'
    · obtain rfl := List.mem_singleton.mp hs'
      exact hvalid
  · rw [List.flatMap_append, List.flatMap_singleton, List.append_assoc]
  · rw [List.flatMap_append, List.flatMap_singleton]

end Account

/-! ### The decoder -/

namespace PacketProtoDecoder

/-- What is in the buffer. -/
def held (enc : PacketProtoDecoder mtu) : List Byte :=
  enc.buf.slice enc.bufStart (enc.bufStart + enc.bufUsed)

variable {enc : PacketProtoDecoder mtu}

section

variable (hroom : enc.bufStart + enc.bufUsed ≤ bufSize mtu)

include hroom

theorem length_held :
    enc.held.length = enc.bufUsed := by
  rw [held, Buffer.length_slice hroom, Nat.add_sub_cancel_left]

/-- What `process_data` sees is what is in the buffer. -/
theorem front_eq :
    enc.front o = if enc.held.length < headerSize then .incomplete
      else if outputMtu mtu < headerLen o enc.held 0 then .tooLarge
      else if enc.held.length < encLen (headerLen o enc.held 0) then .incomplete
      else .packet (headerLen o enc.held 0) := by
  rw [front, length_held hroom]
  by_cases hused : enc.bufUsed < headerSize
  · rw [if_pos hused, if_pos hused]
  · have hheader : headerLen o enc.buf.cells enc.bufStart = headerLen o enc.held 0 :=
      headerLen_slice enc.buf (by omega)
    have hiff : enc.bufUsed - headerSize < headerLen o enc.held 0 ↔
        enc.bufUsed < encLen (headerLen o enc.held 0) := by
      rw [encLen]
      omega
    rw [if_neg hused, if_neg hused, hheader]
    simp only [hiff]

theorem incomplete_of_front (h : enc.front o = .incomplete) : Incomplete o mtu enc.held := by
  rw [front_eq hroom] at h
  split_ifs at h with hheader hlarge hbody
  · exact .inl hheader
  · exact .inr ⟨Nat.le_of_not_lt hlarge, hbody⟩

theorem valid_of_front (h : enc.front o = .tooLarge) : (Segment.discarded enc.held).Valid o mtu := by
  rw [front_eq hroom] at h
  split_ifs at h with hheader hlarge
  exact ⟨Nat.le_of_not_lt hheader, hlarge⟩

/-- A packet at the front: its length is allowed, and the buffer is its encoding and a rest. -/
theorem packet_of_front {dataLen : ℕ} (h : enc.front o = .packet dataLen) :
    dataLen ≤ outputMtu mtu ∧ encLen dataLen ≤ enc.bufUsed ∧
      enc.held = encode o (enc.buf.slice (enc.bufStart + headerSize)
          (enc.bufStart + headerSize + dataLen)) ++
        enc.buf.slice (enc.bufStart + encLen dataLen) (enc.bufStart + enc.bufUsed) := by
  rw [front_eq hroom] at h
  split_ifs at h with hheader hlarge hbody
  obtain rfl := Front.packet.inj h
  have hlen := length_held hroom
  have hused : encLen (headerLen o enc.held 0) ≤ enc.bufUsed := hlen ▸ Nat.le_of_not_lt hbody
  refine ⟨Nat.le_of_not_lt hlarge, hused, ?_⟩
  have hplace : enc.bufStart + headerSize + headerLen o enc.held 0
      = enc.bufStart + encLen (headerLen o enc.held 0) := Nat.add_assoc _ _ _
  have hfirst : enc.buf.slice enc.bufStart (enc.bufStart + headerSize)
      = header o (headerLen o enc.held 0) := by
    rw [header_headerLen (Nat.le_of_not_lt hheader), held, Buffer.slice, Buffer.slice,
      List.take_drop, List.take_take, Nat.min_eq_left]
    rw [encLen] at hused
    omega
  have hpayload : (enc.buf.slice (enc.bufStart + headerSize)
      (enc.bufStart + headerSize + headerLen o enc.held 0)).length = headerLen o enc.held 0 := by
    rw [Buffer.length_slice (by omega)]
    omega
  rw [encode, hpayload, ← hfirst, hplace, ← Buffer.slice_eq_append _ (by omega)
    (by rw [encLen]; omega) (by omega), ← Buffer.slice_eq_append _ (by omega) (by omega) hroom]
  rfl

end

end PacketProtoDecoder

/-- The events of a packet at the output that are still to come. -/
def eventsDue (bytes : ℕ × ℕ → List Byte) : Interface (ℕ × ℕ) Unit → List Event
  | .operationPending op => [.delivered (bytes op), .completed (bytes op)]
  | .busy op => [.completed (bytes op)]
  | .none | .donePending _ => []

namespace PacketProtoDecoder

/-- The bytes that have been received and are in no segment yet. The decoder has not been told of
the last of them. -/
def rest (enc : PacketProtoDecoder mtu) : List Byte :=
  enc.buf.slice enc.bufStart (enc.bufStart + enc.bufUsed + enc.input.doneLen)

def due (enc : PacketProtoDecoder mtu) : List Event := eventsDue enc.bytes enc.output

theorem rest_eq_held {enc : PacketProtoDecoder mtu} (h : enc.input.doneLen = 0) :
    enc.rest = enc.held := by
  rw [rest, h]
  rfl

/-- The decoder waits for its input or for its output. -/
inductive Phase (o : ByteOrder) (enc : PacketProtoDecoder mtu) : Prop
  | receiving (place len : ℕ) (houtput : enc.output = .none)
      (hinput : enc.input.Started (place, len))
      (hplace : place = enc.bufStart + enc.bufUsed) (hlen : place + len = bufSize mtu)
      (hpos : 0 < len) (hincomplete : Incomplete o mtu enc.held)
  | received (n : ℕ) (houtput : enc.output = .none) (hinput : enc.input = .donePending n)
      (hpos : 0 < n)
  | sending (place len : ℕ) (hinput : enc.input = .none)
      (houtput : enc.output.Started (place, len))
      (hplace : place + len ≤ bufSize mtu)
  | sent (hinput : enc.input = .none) (houtput : enc.output = .donePending ())

section Phase

variable {enc : PacketProtoDecoder mtu}

theorem Phase.of_input_started (h : Phase o enc) {place len : ℕ}
    (hstarted : enc.input.Started (place, len)) :
    enc.output = .none ∧ place = enc.bufStart + enc.bufUsed ∧ place + len = bufSize mtu ∧
      0 < len ∧ Incomplete o mtu enc.held := by
  cases h with
  | receiving _ _ houtput hinput hplace hlen hpos hincomplete =>
    obtain ⟨rfl, rfl⟩ := Prod.mk.inj (hstarted.inj hinput)
    exact ⟨houtput, hplace, hlen, hpos, hincomplete⟩
  | received _ _ hinput | sending _ _ hinput | sent hinput => simp [hinput] at hstarted

theorem Phase.of_input_done (h : Phase o enc) {n : ℕ} (hdone : enc.input = .donePending n) :
    enc.output = .none ∧ 0 < n := by
  cases h with
  | received _ houtput hinput hpos =>
    obtain rfl := Interface.donePending.inj (hdone.symm.trans hinput)
    exact ⟨houtput, hpos⟩
  | receiving _ _ _ hinput =>
    simp [hdone] at hinput
  | sending _ _ hinput | sent hinput => simp [hdone] at hinput

theorem Phase.of_output_started (h : Phase o enc) {place len : ℕ}
    (hstarted : enc.output.Started (place, len)) :
    enc.input = .none ∧ place + len ≤ bufSize mtu := by
  cases h with
  | sending _ _ hinput houtput hplace =>
    obtain ⟨rfl, rfl⟩ := Prod.mk.inj (hstarted.inj houtput)
    exact ⟨hinput, hplace⟩
  | receiving _ _ houtput =>
    simp [houtput] at hstarted
  | received _ houtput | sent _ houtput => simp [houtput] at hstarted

theorem Phase.of_output_done (h : Phase o enc) (hdone : enc.output = .donePending ()) :
    enc.input = .none := by
  cases h with
  | sent hinput => exact hinput
  | receiving _ _ houtput =>
    simp [hdone] at houtput
  | received _ houtput | sending _ _ _ houtput => simp [hdone] at houtput

end Phase

/-- What holds of the decoder between two steps, on any stream. -/
structure Inv (o : ByteOrder) (read : List Byte) (enc : PacketProtoDecoder mtu) : Prop where
  room : enc.bufStart + enc.bufUsed + enc.input.doneLen ≤ bufSize mtu
  account : Account o mtu read enc.rest (enc.log ++ enc.due)
  phase : Phase o enc

section Steps

variable {enc : PacketProtoDecoder mtu} {read : List Byte}

/-- The decoder after it has asked for more. -/
def asking (enc : PacketProtoDecoder mtu) : PacketProtoDecoder mtu :=
  { enc with
    input := .operationPending
      (enc.bufStart + enc.bufUsed, bufSize mtu - (enc.bufStart + enc.bufUsed)) }

/-- The decoder after an error. -/
def reported (enc : PacketProtoDecoder mtu) : PacketProtoDecoder mtu :=
  { enc with bufStart := 0, bufUsed := 0, log := enc.log ++ [.error] }

theorem wp_receive {Q : Unit → PacketProtoDecoder mtu → Prop} {e : PacketProtoDecoder mtu}
    (hinput : e.input = .none) (hroom : e.bufStart + e.bufUsed < bufSize mtu) :
    wp receive Q e ↔ Q () e.asking := by
  simp only [receive, receiverRecv, wp_bind, wp_get, wp_ensure, wp_modify]
  exact ⟨fun h => h.2.2, fun h => ⟨Nat.sub_pos_of_lt hroom, hinput, h⟩⟩

/-- What is incomplete leaves room in the buffer. -/
theorem used_lt_of_incomplete (hroom : enc.bufStart + enc.bufUsed ≤ bufSize mtu)
    (h : Incomplete o mtu enc.held) : enc.bufUsed < bufSize mtu := by
  rw [Incomplete, length_held hroom] at h
  unfold bufSize encLen at *
  obtain h | ⟨hlen, h⟩ := h
  · exact Nat.lt_add_right _ h
  · exact h.trans_le (Nat.add_le_add_left hlen _)

/-- Wrapping around keeps what is held and makes room behind it. -/
theorem wrapAround_spec (hroom : enc.bufStart + enc.bufUsed ≤ bufSize mtu)
    (hused : enc.bufUsed < bufSize mtu) :
    enc.wrapAround.held = enc.held ∧
      enc.wrapAround.bufStart + enc.wrapAround.bufUsed < bufSize mtu ∧
      enc.wrapAround.bufUsed = enc.bufUsed ∧ enc.wrapAround.input = enc.input ∧
      enc.wrapAround.output = enc.output ∧ enc.wrapAround.log = enc.log := by
  unfold wrapAround
  by_cases hend : enc.bufStart + enc.bufUsed = bufSize mtu
  · rw [dif_pos hend]
    refine ⟨?_, ?_, rfl, rfl, rfl, rfl⟩
    · change (enc.buf.shift _ _ hend.le).slice 0 (0 + enc.bufUsed) = enc.held
      rw [Nat.zero_add, Buffer.slice_shift]
      rfl
    · change 0 + enc.bufUsed < bufSize mtu
      rwa [Nat.zero_add]
  · rw [dif_neg hend]
    exact ⟨rfl, Nat.lt_of_le_of_ne hroom hend, rfl, rfl, rfl, rfl⟩

theorem Inv.asking {e : PacketProtoDecoder mtu} (houtput : e.output = .none)
    (hroom : e.bufStart + e.bufUsed < bufSize mtu) (hincomplete : Incomplete o mtu e.held)
    (haccount : Account o mtu read e.held e.log) : Inv o read e.asking where
  room := hroom.le
  account := by
    have hdue : e.asking.due = [] := by
      change eventsDue _ e.output = []
      rw [houtput]
      rfl
    rw [hdue, List.append_nil]
    exact haccount
  phase := .receiving _ _ houtput (.inl rfl) rfl (Nat.add_sub_cancel' hroom.le)
    (Nat.sub_pos_of_lt hroom) hincomplete

/-- What the steps of a receive cost. The report that it is done pays for what comes next. -/
def recvWork : Interface (ℕ × ℕ) ℕ → ℕ
  | .none => 0
  | .operationPending _ => 3
  | .busy _ => 2
  | .donePending n => 3 * n + 4

/-- What the steps of an output cost. -/
def sendWork : Interface (ℕ × ℕ) Unit → ℕ
  | .none => 0
  | .operationPending _ => 6
  | .busy _ => 5
  | .donePending _ => 4

/-- How much the decoder has still to do with what it has. -/
def work (enc : PacketProtoDecoder mtu) : ℕ :=
  3 * enc.bufUsed + recvWork enc.input + sendWork enc.output

/-- **`process_data`** takes the segment at the front of the buffer, if there is one. It asks for
more or starts an output, which the work for a report pays for. -/
theorem processData_spec (hinput : enc.input = .none) (houtput : enc.output = .none)
    (hroom : enc.bufStart + enc.bufUsed ≤ bufSize mtu)
    (haccount : Account o mtu read enc.held enc.log) :
    wp (processData o) (fun _ enc' => Inv o read enc' ∧ enc'.work < 3 * enc.bufUsed + 4) enc := by
  unfold processData
  simp only [wp_bind, wp_get]
  cases hfront : enc.front o with
  | incomplete =>
    have hincomplete := incomplete_of_front hroom hfront
    obtain ⟨hheld, hbehind, hused, hsame⟩ :=
      wrapAround_spec hroom (used_lt_of_incomplete hroom hincomplete)
    simp only [wp_bind, wp_modify]
    rw [wp_receive (hsame.1.trans hinput) hbehind]
    refine ⟨.asking (hsame.2.1.trans houtput) hbehind ?_ ?_, ?_⟩
    · rw [hheld]
      exact hincomplete
    · rw [hheld, hsame.2.2]
      exact haccount
    · change 3 * enc.wrapAround.bufUsed + 3 + sendWork enc.wrapAround.output < _
      rw [hused, hsame.2.1, houtput]
      exact Nat.lt_succ_self _
  | tooLarge =>
    have hsize : 0 < bufSize mtu := Nat.lt_add_right _ (by decide)
    simp only [wp_bind, wp_modify]
    refine (wp_receive (e := { enc with bufStart := 0, bufUsed := 0 }) hinput hsize).mpr ?_
    have hnil : enc.reported.held = [] := Buffer.slice_self _ _
    refine ⟨Inv.asking (e := reported enc) houtput hsize ?_ ?_, ?_⟩
    · rw [hnil]
      exact .inl (by decide)
    · rw [hnil]
      refine Account.segment (s := .discarded enc.held) ?_ (valid_of_front hroom hfront)
      exact (List.append_nil enc.held).symm ▸ haccount
    · change 3 * 0 + 3 + sendWork enc.output < _
      rw [houtput]
      exact Nat.lt_add_left _ (by decide)
  | packet dataLen =>
    obtain ⟨hlen, hused, hheld⟩ := packet_of_front hroom hfront
    simp only [senderSend, wp_bind, wp_get, wp_modify, wp_ensure]
    have hnext : enc.bufStart + encLen dataLen + (enc.bufUsed - encLen dataLen)
        = enc.bufStart + enc.bufUsed := by omega
    have hpacket : (enc.buf.slice (enc.bufStart + headerSize)
        (enc.bufStart + headerSize + dataLen)).length = dataLen := by
      rw [Buffer.length_slice (by rw [encLen] at hused; omega)]
      omega
    rw [hheld] at haccount
    refine ⟨hlen.trans (Nat.min_le_left _ _), houtput, {
      room := by
        change _ + enc.input.doneLen ≤ bufSize mtu
        rw [hinput, hnext]
        exact hroom
      account := by
        change Account o mtu read (enc.buf.slice (enc.bufStart + encLen dataLen)
          (_ + enc.input.doneLen)) _
        rw [hinput, hnext]
        exact haccount.segment (s := .packet _) (hpacket.trans_le hlen)
      phase := .sending _ _ hinput (.inl rfl) (by rw [encLen] at hused; omega) }, ?_⟩
    change 3 * (enc.bufUsed - encLen dataLen) + recvWork enc.input + 6 < _
    rw [hinput, recvWork]
    rw [encLen, headerSize] at *
    omega

/-- The stream gives bytes, which come behind those that are held. -/
theorem Inv.receives (h : Inv o read enc) {place len n : ℕ} {bytes : List Byte}
    (hbusy : enc.input = .busy (place, len)) (hlength : bytes.length = n) (hpos : 0 < n)
    (hlen : n ≤ len) :
    ∃ hplace : place + bytes.length ≤ bufSize mtu, Inv o (read ++ bytes) { enc with
      buf := enc.buf.write place bytes hplace
      input := .donePending n } := by
  obtain ⟨houtput, hplace, hend, -, -⟩ := h.phase.of_input_started (.inr hbusy)
  have hroom : place + bytes.length ≤ bufSize mtu := by omega
  have hbehind : enc.bufStart + enc.bufUsed + n = place + bytes.length := by omega
  have haccount := h.account.append bytes
  rw [rest_eq_held (by rw [hbusy]; rfl), due, houtput] at haccount
  have hslice : (enc.buf.write place bytes hroom).slice enc.bufStart
      (enc.bufStart + enc.bufUsed + n) = enc.held ++ bytes := by
    rw [hbehind, Buffer.slice_write _ hroom (by omega), held, ← hplace]
  refine ⟨hroom, {
    room := hbehind.trans_le hroom
    account := ?_
    phase := .received n houtput rfl hpos }⟩
  change Account o mtu _ ((enc.buf.write place bytes hroom).slice enc.bufStart
    (enc.bufStart + enc.bufUsed + n)) (enc.log ++ eventsDue _ enc.output)
  rw [hslice, houtput]
  exact haccount

/-- The decoder is told of what it has received. -/
theorem inputHandlerDone_spec (h : Inv o read enc) {n : ℕ} (hdone : enc.input = .donePending n) :
    wp (inputHandlerDone o n) (fun _ enc' => Inv o read enc' ∧ enc'.work < enc.work)
      { enc with input := .none } := by
  obtain ⟨houtput, hpos⟩ := h.phase.of_input_done hdone
  have hroom := h.room
  have haccount := h.account
  rw [hdone, Interface.doneLen] at hroom
  rw [rest, hdone, Interface.doneLen, due, houtput] at haccount
  unfold inputHandlerDone
  simp only [wp_bind, wp_get, wp_ensure, wp_modify]
  refine ⟨hpos, by omega, ?_⟩
  have hheld : Account o mtu read
      (enc.buf.slice enc.bufStart (enc.bufStart + (enc.bufUsed + n))) enc.log := by
    rw [← Nat.add_assoc]
    exact List.append_nil enc.log ▸ haccount
  refine wp_mono (processData_spec rfl houtput (Nat.add_assoc _ _ _ ▸ hroom) hheld) ?_
  intro _ enc' henc'
  refine ⟨henc'.1, henc'.2.trans_le ?_⟩
  rw [work, hdone, houtput, recvWork, sendWork]
  change 3 * (enc.bufUsed + n) + 4 ≤ _
  omega

/-- The decoder is told that its output is done. -/
theorem outputHandlerDone_spec (h : Inv o read enc) (hdone : enc.output = .donePending ()) :
    wp (outputHandlerDone o) (fun _ enc' => Inv o read enc' ∧ enc'.work < enc.work)
      { enc with output := .none } := by
  have hinput := h.phase.of_output_done hdone
  have hroom := h.room
  have haccount := h.account
  rw [hinput, Interface.doneLen] at hroom
  rw [rest, hinput, Interface.doneLen, due, hdone] at haccount
  refine wp_mono (processData_spec hinput rfl hroom (List.append_nil enc.log ▸ haccount)) ?_
  intro _ enc' henc'
  refine ⟨henc'.1, henc'.2.trans_le ?_⟩
  rw [work, hdone, hinput, recvWork, sendWork]

/-- The output goes on with its packet. -/
theorem Inv.tell (h : Inv o read enc) {e : Event} {output : Interface (ℕ × ℕ) Unit} {place len : ℕ}
    (hstarted : enc.output.Started (place, len))
    (hdue : enc.due = e :: eventsDue enc.bytes output)
    (houtput : output = .busy (place, len) ∨ output = .donePending ()) :
    Inv o read (enc.tell e output) := by
  obtain ⟨hinput, hplace⟩ := h.phase.of_output_started hstarted
  refine ⟨h.room, ?_, ?_⟩
  · change Account o mtu read enc.rest (enc.log ++ [e] ++ eventsDue enc.bytes output)
    rw [List.append_assoc, List.singleton_append, ← hdue]
    exact h.account
  · obtain rfl | rfl := houtput
    · exact .sending place len hinput (.inr rfl) hplace
    · exact .sent hinput rfl

end Steps

end PacketProtoDecoder

/-! ### The decoder on a stream -/

namespace DecoderWorld

variable {w w' : DecoderWorld mtu}

/-- The steps, each with what enables it. -/
inductive Step (o : ByteOrder) (w : DecoderWorld mtu) : DecoderLabel → DecoderWorld mtu → Prop
  | arrive (bytes : List Byte) : Step o w (.arrive bytes) { w with stream := w.stream ++ bytes }
  | inputOperation (op : ℕ × ℕ) (hinput : w.enc.input = .operationPending op) :
      Step o w .inputOperation { w with enc := { w.enc with input := .busy op } }
  | read (n place len : ℕ) (hinput : w.enc.input = .busy (place, len))
      (hn : 0 < n ∧ n ≤ len ∧ n ≤ w.stream.length)
      (hplace : place + (w.stream.take n).length ≤ bufSize mtu) :
      Step o w (.read n) { w with
        enc := { w.enc with
          buf := w.enc.buf.write place (w.stream.take n) hplace
          input := .donePending n }
        read := w.read ++ w.stream.take n
        stream := w.stream.drop n }
  | overrun (n place len : ℕ) (hinput : w.enc.input = .busy (place, len))
      (hn : 0 < n ∧ n ≤ len ∧ n ≤ w.stream.length)
      (hplace : ¬ place + (w.stream.take n).length ≤ bufSize mtu) :
      Step o w (.read n) { w with fault := some .memory }
  | inputDone (n : ℕ) (hinput : w.enc.input = .donePending n) :
      Step o w .inputDone (w.leave ((PacketProtoDecoder.inputHandlerDone o n).run
        { w.enc with input := .none }))
  | outputOperation (op : ℕ × ℕ) (houtput : w.enc.output = .operationPending op) :
      Step o w .outputOperation { w with
        enc := w.enc.tell (.delivered (w.enc.bytes op)) (.busy op) }
  | complete (op : ℕ × ℕ) (houtput : w.enc.output = .busy op) :
      Step o w .complete { w with
        enc := w.enc.tell (.completed (w.enc.bytes op)) (.donePending ()) }
  | outputDone (houtput : w.enc.output = .donePending ()) :
      Step o w .outputDone (w.leave ((PacketProtoDecoder.outputHandlerDone o).run
        { w.enc with output := .none }))

theorem step_of_next {l : DecoderLabel} (h : w.next o l = some w') : Step o w l w' := by
  unfold next at h
  cases l with
  | arrive bytes =>
    cases h
    exact .arrive bytes
  | inputOperation =>
    cases hinput : w.enc.input with rw [hinput] at h
    | operationPending op =>
      cases h
      exact .inputOperation op hinput
    | _ => cases h
  | read n =>
    cases hinput : w.enc.input with rw [hinput] at h
    | busy =>
      obtain ⟨hn, h⟩ := Option.ite_none_right_eq_some.mp h
      split_ifs at h with hplace
      · cases h
        exact .read n _ _ hinput hn hplace
      · cases h
        exact .overrun n _ _ hinput hn hplace
    | _ => cases h
  | inputDone =>
    cases hinput : w.enc.input with rw [hinput] at h
    | donePending n =>
      cases h
      exact .inputDone n hinput
    | _ => cases h
  | outputOperation =>
    cases houtput : w.enc.output with rw [houtput] at h
    | operationPending op =>
      cases h
      exact .outputOperation op houtput
    | _ => cases h
  | complete =>
    cases houtput : w.enc.output with rw [houtput] at h
    | busy op =>
      cases h
      exact .complete op houtput
    | _ => cases h
  | outputDone =>
    obtain ⟨houtput, rfl⟩ := guard_eq_some.mp h
    exact .outputDone houtput

structure Inv (o : ByteOrder) (w : DecoderWorld mtu) : Prop where
  fault : w.fault = none
  enc : w.enc.Inv o w.read

/-- How much there is still to do before more has to arrive. -/
def work (w : DecoderWorld mtu) : ℕ := 7 * w.stream.length + w.enc.work

/-- The decoder does something by itself. -/
def Internal : DecoderLabel → Prop
  | .arrive _ => False
  | _ => True

theorem Inv.leave {prog : PacketProtoDecoder.M mtu Unit} {enc : PacketProtoDecoder mtu}
    (h : Inv o w)
    (hprog : wp prog (fun _ enc' => enc'.Inv o w.read ∧ enc'.work < w.enc.work) enc) :
    Inv o (w.leave (prog.run enc)) ∧ (w.leave (prog.run enc)).work < w.work := by
  obtain ⟨⟨_, enc'⟩, hrun, hinv, hwork⟩ := hprog
  rw [hrun]
  exact ⟨⟨h.fault, hinv⟩, Nat.add_lt_add_left hwork _⟩

open PacketProtoDecoder in
/-- **Every step**, on any stream. -/
theorem Inv.step (h : Inv o w) {l : DecoderLabel} (hnext : w.next o l = some w') :
    Inv o w' ∧ (Internal l → w'.work < w.work) := by
  cases step_of_next hnext with
  | arrive => exact ⟨⟨h.fault, h.enc⟩, False.elim⟩
  | inputOperation _ hinput =>
    obtain ⟨houtput, hplace, hend, hpos, hincomplete⟩ :=
      h.enc.phase.of_input_started (.inl hinput)
    have hroom := h.enc.room
    have haccount := h.enc.account
    rw [rest, hinput] at haccount
    rw [hinput] at hroom
    refine ⟨⟨h.fault, hroom, haccount, ?_⟩, fun _ => ?_⟩
    · exact .receiving _ _ houtput (.inr rfl) hplace hend hpos hincomplete
    · refine Nat.add_lt_add_left ?_ _
      rw [PacketProtoDecoder.work, PacketProtoDecoder.work, hinput]
      exact Nat.add_lt_add_right (Nat.lt_succ_self _) _
  | read n _ _ hinput hn =>
    have hlength : (w.stream.take n).length = n := List.length_take_of_le hn.2.2
    obtain ⟨_, hinv⟩ := h.enc.receives hinput hlength hn.1 hn.2.1
    refine ⟨⟨h.fault, hinv⟩, fun _ => ?_⟩
    change 7 * (w.stream.drop n).length +
        (3 * w.enc.bufUsed + (3 * n + 4) + sendWork w.enc.output) <
      7 * w.stream.length + (3 * w.enc.bufUsed + recvWork w.enc.input + sendWork w.enc.output)
    rw [hinput, recvWork, List.length_drop]
    omega
  | overrun n _ _ hinput hn hplace =>
    have hlength : (w.stream.take n).length = n := List.length_take_of_le hn.2.2
    obtain ⟨hroom, -⟩ := h.enc.receives hinput hlength hn.1 hn.2.1
    exact absurd hroom hplace
  | inputDone _ hinput =>
    obtain ⟨hinv, hwork⟩ := h.leave (inputHandlerDone_spec h.enc hinput)
    exact ⟨hinv, fun _ => hwork⟩
  | outputOperation _ houtput =>
    refine ⟨⟨h.fault, h.enc.tell (.inl houtput) (by rw [due, houtput]; rfl) (.inl rfl)⟩,
      fun _ => Nat.add_lt_add_left (Nat.add_lt_add_left ?_ _) _⟩
    rw [houtput]
    exact Nat.lt_succ_self _
  | complete _ houtput =>
    refine ⟨⟨h.fault, h.enc.tell (.inr houtput) (by rw [due, houtput]; rfl) (.inr rfl)⟩,
      fun _ => Nat.add_lt_add_left (Nat.add_lt_add_left ?_ _) _⟩
    rw [houtput]
    exact Nat.lt_succ_self _
  | outputDone houtput =>
    obtain ⟨hinv, hwork⟩ := h.leave (outputHandlerDone_spec h.enc houtput)
    exact ⟨hinv, fun _ => hwork⟩

variable {memory : Buffer Byte (bufSize mtu)}

theorem Inv.system_step (h : Inv o w) {l : DecoderLabel}
    (hnext : (decoderSystem o memory).next w l = some w') :
    Inv o w' ∧ (Internal l → w'.work < w.work) :=
  h.step (Option.ite_none_right_eq_some.mp hnext).2

theorem inv_of_reachable (h : (decoderSystem o memory).Reachable w) : Inv o w := by
  refine h.invariant ⟨rfl, ?_⟩ fun _ _ _ hinv hnext => (hinv.system_step hnext).1
  have hsize : 0 < bufSize mtu := Nat.lt_add_right _ (by decide)
  have hrest : (packetProtoDecoderInit memory).rest = [] := Buffer.slice_self _ _
  exact {
    room := Nat.zero_le _
    account := by
      change Account o mtu [] (packetProtoDecoderInit memory).rest []
      rw [hrest]
      exact ⟨[], fun s hs => absurd hs List.not_mem_nil, rfl, rfl⟩
    phase := .receiving 0 (bufSize mtu) rfl (.inl rfl) rfl (Nat.zero_add _) hsize
      (.inl ((congrArg List.length hrest).trans_lt (by decide))) }

/-- **The decoder stops** unless more arrives. -/
theorem Inv.length_le_work (h : Inv o w) {ls : List DecoderLabel} (hls : ∀ l ∈ ls, Internal l)
    (hrun : (decoderSystem o memory).run w ls = some w') : ls.length ≤ w.work := by
  induction ls generalizing w with
  | nil => exact Nat.zero_le _
  | cons l _ ih =>
    rw [System.run_cons] at hrun
    obtain ⟨v, hnext, hrun⟩ := Option.bind_eq_some_iff.mp hrun
    obtain ⟨hv, hwork⟩ := h.system_step hnext
    have hih := ih hv (fun l' hl' => hls l' (List.mem_cons_of_mem l hl')) hrun
    exact Nat.succ_le_of_lt (hih.trans_lt (hwork (hls l List.mem_cons_self)))

/-- **Where it stops**, it has received everything and holds the beginning of a packet. -/
theorem Inv.of_quiescent (h : Inv o w) (hquiet : (decoderSystem o memory).Quiescent Internal w) :
    w.stream = [] ∧ w.enc.due = [] ∧ Incomplete o mtu w.enc.rest := by
  have hnext : ∀ l, Internal l → w.next o l = none := by
    intro l hl
    have hnone := hquiet l hl
    change (if w.fault = none then _ else _) = none at hnone
    rwa [if_pos h.fault] at hnone
  cases h.enc.phase with
  | receiving _ len houtput hinput _ _ hpos hincomplete =>
    obtain hinput | hinput := hinput
    · have hjob := hnext .inputOperation trivial
      rw [next, hinput] at hjob
      cases hjob
    · refine ⟨?_, by rw [PacketProtoDecoder.due, houtput]; rfl, ?_⟩
      · by_contra hstream
        -- the stream could give one byte
        have hone : 0 < 1 ∧ 1 ≤ len ∧ 1 ≤ w.stream.length :=
          ⟨Nat.one_pos, hpos, List.length_pos_iff.mpr hstream⟩
        have hread := hnext (.read 1) trivial
        rw [next, hinput] at hread
        dsimp only at hread
        rw [if_pos hone] at hread
        split_ifs at hread
      · rw [PacketProtoDecoder.rest_eq_held (by rw [hinput]; rfl)]
        exact hincomplete
  | received _ _ hinput =>
    have hjob := hnext .inputDone trivial
    rw [next, hinput] at hjob
    cases hjob
  | sending _ _ _ houtput =>
    obtain houtput | houtput := houtput
    · have hjob := hnext .outputOperation trivial
      rw [next, houtput] at hjob
      cases hjob
    · have hjob := hnext .complete trivial
      rw [next, houtput] at hjob
      cases hjob
  | sent _ houtput =>
    have hjob := hnext .outputDone trivial
    rw [next, if_pos houtput] at hjob
    cases hjob

end DecoderWorld

/-! ### The round trip -/

/-- What the decoder guarantees on every stream. -/
structure DecoderSound (o : ByteOrder) (w : DecoderWorld mtu) : Prop where
  fault : w.fault = none
  /-- A receive has a positive length and lies inside the buffer. -/
  receive : ∀ place len, w.enc.input.Started (place, len) → 0 < len ∧ place + len ≤ bufSize mtu
  /-- A packet at the output lies inside the buffer, and nothing is received meanwhile. -/
  packet : ∀ place len, w.enc.output.Started (place, len) →
    place + len ≤ bufSize mtu ∧ w.enc.input = .none
  /-- What has been received is a row of segments and the rest in the buffer. Each segment is an
  encoded packet that the output allows, and is delivered once and unchanged until it is completed,
  or bytes that start with a header for more than the output allows, and is reported once. Events
  are in the order of the segments; those of the packet at the output may be still due. -/
  account : Account o mtu w.read w.enc.rest (w.enc.log ++ w.enc.due)
  /-- When it asks for more, it holds the beginning of an allowed packet: whatever header announces
  too much has been reported. -/
  reported : ∀ place len, w.enc.input.Started (place, len) → Incomplete o mtu w.enc.rest

theorem DecoderWorld.Inv.sound {w : DecoderWorld mtu} (h : w.Inv o) : DecoderSound o w where
  fault := h.fault
  receive := by
    intro place len hstarted
    obtain ⟨-, -, hend, hpos, -⟩ := h.enc.phase.of_input_started hstarted
    exact ⟨hpos, hend.le⟩
  packet := by
    intro place len hstarted
    obtain ⟨hinput, hplace⟩ := h.enc.phase.of_output_started hstarted
    exact ⟨hplace, hinput⟩
  account := h.enc.account
  reported := by
    intro place len hstarted
    have hrest : w.enc.rest = w.enc.held := by
      refine PacketProtoDecoder.rest_eq_held ?_
      obtain hstarted | hstarted := hstarted <;> rw [hstarted] <;> rfl
    rw [hrest]
    exact (h.enc.phase.of_input_started hstarted).2.2.2.2

/-- The events of packets that are delivered one after the other. -/
def roundTrip (packets : List (List Byte)) : List Event :=
  packets.flatMap fun p => [.delivered p, .completed p]

/-- A stream of packets makes the events of these packets. -/
theorem Account.roundTrip {read rest more : List Byte} {events : List Event}
    {packets : List (List Byte)} (h : Account o mtu read rest events)
    (hpackets : ∀ p ∈ packets, p.length ≤ outputMtu mtu)
    (hread : read ++ more = packets.flatMap (encode o)) :
    ∃ sent left, packets = sent ++ left ∧ events = Flow.roundTrip sent ∧
      rest ++ more = left.flatMap (encode o) := by
  obtain ⟨segments, hvalid, rfl, rfl⟩ := h
  rw [List.append_assoc] at hread
  obtain ⟨sent, left, heq, rfl, hrest⟩ := segments_on_packets hvalid hpackets hread
  refine ⟨sent, left, heq, ?_, hrest⟩
  rw [List.flatMap_map]
  rfl

/-- A packet that is there is not incomplete. -/
theorem not_incomplete_encode {p : List Byte} (h : p.length ≤ outputMtu mtu) (more : List Byte) :
    ¬ Incomplete o mtu (encode o p ++ more) := by
  have hlen : headerLen o (encode o p ++ more) 0 = p.length := by
    rw [encode, List.append_assoc, headerLen_header (h.trans (Nat.min_le_right _ _))]
  have hlength : (encode o p ++ more).length = encLen p.length + more.length := by
    rw [List.length_append, encode, List.length_append, length_header]
    rfl
  rw [Incomplete, hlen, hlength, encLen]
  omega

/-- **PacketProto round trip.** On every stream and for every order of arrivals, receives and
completions the decoder is sound and stops by itself. On a stream that the sending side writes it
delivers and completes the packets in order, reports no error, and has delivered all of them when
both sides have nothing left to do. -/
theorem framing_round_trip (o : ByteOrder) (mtu : ℕ) (memory : Buffer Byte (bufSize mtu))
    (w : DecoderWorld mtu) (h : (decoderSystem o memory).Reachable w) :
    DecoderSound o w ∧
    (∀ ls w', (∀ l ∈ ls, DecoderWorld.Internal l) →
      (decoderSystem o memory).run w ls = some w' → ls.length ≤ w.work) ∧
    ∀ (cfg : SendingConfig) (memory' : Buffer Byte (encLen cfg.mtu)) (s : SendingWorld cfg.mtu),
      (∀ p ∈ cfg.packets, p.length ≤ min mtu maxPayload) →
      (sendingSystem o cfg memory').Reachable s → w.read ++ w.stream <+: s.written →
      (∃ sent, sent <+: cfg.packets ∧ w.enc.log ++ w.enc.due = roundTrip sent) ∧
      ((sendingSystem o cfg memory').Quiescent (fun _ => True) s →
        w.read ++ w.stream = s.written →
        (decoderSystem o memory).Quiescent DecoderWorld.Internal w →
        w.enc.log = roundTrip cfg.packets) := by
  have hinv := DecoderWorld.inv_of_reachable h
  refine ⟨hinv.sound, fun ls w' hls hrun => hinv.length_le_work hls hrun, ?_⟩
  intro cfg memory' s hpackets hs hstream
  have hsending := SendingWorld.inv_of_reachable hs
  constructor
  · obtain ⟨more, hmore⟩ := hstream.trans hsending.written_begins
    rw [List.append_assoc] at hmore
    obtain ⟨sent, left, heq, hevents, -⟩ := hinv.enc.account.roundTrip hpackets hmore
    exact ⟨sent, ⟨left, heq.symm⟩, hevents⟩
  · intro hquiet_s hall hquiet
    obtain ⟨hempty, hdue, hincomplete⟩ := hinv.of_quiescent hquiet
    rw [hsending.written_of_quiescent hquiet_s] at hall
    obtain ⟨sent, left, heq, hevents, hrest⟩ := hinv.enc.account.roundTrip hpackets hall
    rw [hdue, List.append_nil] at hevents
    rw [hempty, List.append_nil] at hrest
    cases left with
    | nil => rw [hevents, heq, List.append_nil]
    | cons p left =>
      -- a packet that is left is whole in the buffer
      have hp : p.length ≤ outputMtu mtu :=
        hpackets p (heq ▸ List.mem_append_right _ List.mem_cons_self)
      rw [hrest, List.flatMap_cons] at hincomplete
      exact absurd hincomplete (not_incomplete_encode hp _)

/-- Two packets to send. -/
def twoPackets : SendingConfig where
  mtu := 2
  mtu_le := by decide
  packets := [[7], [8, 9]]
  packets_le := by decide

/-- Memory for the decoder's buffer. -/
def exampleMemory : Buffer Byte (bufSize 2) := ⟨[0, 0, 0, 0], rfl⟩

/-- Two packets go through a buffer of four bytes, in three writes and two receives. -/
theorem framing_round_trip_wrapped :
    ∃ (w : DecoderWorld 2) (s : SendingWorld twoPackets.mtu),
      (decoderSystem .little exampleMemory).Reachable w ∧
      (sendingSystem .little twoPackets ⟨[0, 0, 0, 0], rfl⟩).Reachable s ∧
      w.read ++ w.stream = s.written ∧ w.enc.log = roundTrip twoPackets.packets ∧
      DecoderSound .little w ∧
      ∃ sent, sent <+: twoPackets.packets ∧ w.enc.log ++ w.enc.due = roundTrip sent := by
  obtain ⟨w, hw, hread, hlog⟩ := (decoderSystem .little exampleMemory).exists_of_run
    (fun w => w.read ++ w.stream = [1, 0, 7, 2, 0, 8, 9] ∧
      w.enc.log = roundTrip twoPackets.packets)
    [.arrive [1, 0, 7, 2, 0, 8, 9], .inputOperation, .read 4, .inputDone, .outputOperation,
      .complete, .outputDone, .inputOperation, .read 3, .inputDone, .outputOperation, .complete,
      .outputDone] (by decide +kernel)
  obtain ⟨s, hs, hwritten⟩ :=
    (sendingSystem .little twoPackets ⟨[0, 0, 0, 0], rfl⟩).exists_of_run
    (fun s => s.written = [1, 0, 7, 2, 0, 8, 9])
    [.encoderRecv ⟨[5, 5, 5, 5], rfl⟩, .encoderOutputOperation, .encoderInputOperation, .source,
      .encoderInputDone, .encoderOutputDone, .senderSend, .senderInputOperation,
      .senderOutputOperation, .write 1, .senderOutputDone, .senderOutputOperation, .write 2,
      .senderOutputDone, .senderInputDone, .encoderRecv ⟨[5, 5, 5, 5], rfl⟩,
      .encoderOutputOperation, .encoderInputOperation, .source, .encoderInputDone,
      .encoderOutputDone, .senderSend, .senderInputOperation, .senderOutputOperation, .write 4]
    (by decide +kernel)
  have hstream : w.read ++ w.stream = s.written := hread.trans hwritten.symm
  obtain ⟨hsound, -, htrip⟩ := framing_round_trip .little 2 _ w hw
  exact ⟨w, s, hw, hs, hstream, hlog, hsound,
    (htrip twoPackets _ s (by decide) hs (hstream ▸ List.prefix_rfl)).1⟩

end Tun2Socks.Flow
