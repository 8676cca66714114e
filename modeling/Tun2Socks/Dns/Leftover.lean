import Tun2Socks.Dns.Routing
import Tun2Socks.Net.Check

/-!
# Bytes left over from earlier packets

The device and the relay are read into buffers that are used again and again, so what lies behind a
packet in its buffer is what earlier packets have left there. It should not matter.

The checks read nothing behind the packet (`ipv4Check_append`, `ipv6Check_append` and
`udpCheck_append`: memory that is added behind is handed on and changes nothing else), and neither
does the parser (`parseDeviceUdpPacket_contained`). What is forwarded is the payload. But the id of a
DNS message is read wherever the payload begins, also if the payload is shorter than the id.

`leftover_ignored_iff` says for which packets and replies the bytes behind them do not matter.
-/

namespace Tun2Socks

namespace Net

open Framework

variable {o : ByteOrder} {data : List Byte} {dataLen : ℕ}

/-! ### Memory behind a packet -/

theorem byteAt_append_left {i : ℕ} (h : i < data.length) (m : List Byte) :
    byteAt (data ++ m) i = byteAt data i :=
  List.getD_append _ _ _ _ h

theorem word16At_append_left {i : ℕ} (h : i + 2 ≤ data.length) (m : List Byte) :
    word16At (data ++ m) i = word16At data i := by
  rw [word16At, word16At, byteAt_append_left (by omega), byteAt_append_left (by omega)]

theorem bytesAt_append_left {n i : ℕ} (h : i + n ≤ data.length) (m : List Byte) :
    bytesAt n (data ++ m) i = bytesAt n data i := by
  rw [bytesAt, bytesAt, Buffer.mk.injEq]
  refine List.map_congr_left fun k hk => byteAt_append_left ?_ m
  have := List.mem_range.mp hk
  omega

theorem Ipv4Header.read_append_left (h : 20 ≤ data.length) (m : List Byte) :
    Ipv4Header.read (data ++ m) = Ipv4Header.read data :=
  Ipv4Header.bytes_injective (congrArg Buffer.cells (bytesAt_append_left (n := 20) (i := 0)
    (by omega) m))

theorem Ipv6Header.read_append_left (h : 40 ≤ data.length) (m : List Byte) :
    Ipv6Header.read (data ++ m) = Ipv6Header.read data :=
  Ipv6Header.bytes_injective (congrArg Buffer.cells (bytesAt_append_left (n := 40) (i := 0)
    (by omega) m))

theorem UdpHeader.read_append_left (h : 8 ≤ data.length) (m : List Byte) :
    UdpHeader.read (data ++ m) = UdpHeader.read data :=
  UdpHeader.bytes_injective (congrArg Buffer.cells (bytesAt_append_left (n := 8) (i := 0)
    (by omega) m))

/-- The result of a check, with more memory behind the payload. -/
def behind {Header : Type} (m : List Byte) (r : Header × List Byte × ℕ) :
    Header × List Byte × ℕ :=
  (r.1, r.2.1 ++ m, r.2.2)

section

variable (h : dataLen ≤ data.length)

include h

theorem ipv4Check_append (m : List Byte) :
    ipv4Check o (data ++ m) dataLen = (ipv4Check o data dataLen).map (behind m) := by
  unfold ipv4Check
  by_cases hbase : dataLen < 20
  · rw [if_pos hbase, if_pos hbase]
    rfl
  rw [if_neg hbase, if_neg hbase, Ipv4Header.read_append_left (by omega)]
  dsimp only
  by_cases hheader : dataLen < (Ipv4Header.read data).ihl * 4
  · simp only [if_pos hheader, ite_self, Option.map_none]
  · by_cases hshort : (Ipv4Header.read data).ihl * 4 < 20
    · simp only [if_pos hshort, ite_self, Option.map_none]
    · rw [bytesAt_append_left (by omega), List.drop_append_of_le_length (by omega)]
      split_ifs <;> rfl

theorem ipv6Check_append (m : List Byte) :
    ipv6Check o (data ++ m) dataLen = (ipv6Check o data dataLen).map (behind m) := by
  unfold ipv6Check
  by_cases hbase : dataLen < 40
  · rw [if_pos hbase, if_pos hbase]
    rfl
  rw [if_neg hbase, if_neg hbase, Ipv6Header.read_append_left (by omega),
    List.drop_append_of_le_length (by omega)]
  dsimp only
  split_ifs <;> rfl

theorem udpCheck_append (m : List Byte) :
    udpCheck o (data ++ m) dataLen = (udpCheck o data dataLen).map (behind m) := by
  unfold udpCheck
  by_cases hbase : dataLen < 8
  · rw [if_pos hbase, if_pos hbase]
    rfl
  rw [if_neg hbase, if_neg hbase, UdpHeader.read_append_left (by omega),
    List.drop_append_of_le_length (by omega)]
  dsimp only
  split_ifs <;> rfl

/-- What a check hands on is in the packet. -/
theorem le_length_of_ipv4Check {r : Ipv4Header × List Byte × ℕ}
    (hcheck : ipv4Check o data dataLen = some r) : r.2.2 ≤ r.2.1.length := by
  unfold ipv4Check at hcheck
  dsimp only at hcheck
  split_ifs at hcheck
  cases hcheck
  dsimp only
  rw [List.length_drop]
  omega

theorem le_length_of_ipv6Check {r : Ipv6Header × List Byte × ℕ}
    (hcheck : ipv6Check o data dataLen = some r) : r.2.2 ≤ r.2.1.length := by
  unfold ipv6Check at hcheck
  dsimp only at hcheck
  split_ifs at hcheck
  cases hcheck
  dsimp only
  rw [List.length_drop]
  omega

theorem le_length_of_udpCheck {r : UdpHeader × List Byte × ℕ}
    (hcheck : udpCheck o data dataLen = some r) : r.2.2 ≤ r.2.1.length := by
  unfold udpCheck at hcheck
  dsimp only at hcheck
  split_ifs at hcheck
  cases hcheck
  dsimp only
  rw [List.length_drop]
  omega

theorem payloadSum_append (m : List Byte) :
    payloadSum o (data ++ m) dataLen = payloadSum o data dataLen := by
  unfold payloadSum
  split_ifs with heven
  · rw [bytesAt_append_left (by omega)]
  · rw [bytesAt_append_left (by omega), byteAt_append_left (by omega)]

theorem udpChecksum_append (m : List Byte) (header : UdpHeader)
    (source dest : Buffer Byte 4) :
    udpChecksum o header (data ++ m) dataLen source dest =
      udpChecksum o header data dataLen source dest := by
  rw [udpChecksum, udpChecksum, payloadSum_append h]

theorem udpIp6Checksum_append (m : List Byte) (header : UdpHeader)
    (source dest : Buffer Byte 16) :
    udpIp6Checksum o header (data ++ m) dataLen source dest =
      udpIp6Checksum o header data dataLen source dest := by
  rw [udpIp6Checksum, udpIp6Checksum, payloadSum_append h]

end

end Net

namespace Dns

open Framework Net Structure

variable {config : Config} {data : List Byte} {dataLen : ℕ}

/-! ### Parsing -/

/-- The datagram, with more memory behind its payload. -/
def Datagram.behind (m : List Byte) (datagram : Datagram) : Datagram :=
  { datagram with data := datagram.data ++ m }

/-- Bytes behind the packet change nothing, and the payload is in the packet. -/
structure Contained (parse : List Byte → Option Datagram) (data : List Byte) : Prop where
  append : ∀ m, parse (data ++ m) = (parse data).map (Datagram.behind m)
  inside : ∀ datagram ∈ parse data, datagram.dataLen ≤ datagram.data.length

namespace Contained

/-- A check, and what is done with its result. -/
theorem bind {Header : Type} (check : List Byte → Option (Header × List Byte × ℕ))
    {parse : Header × List Byte × ℕ → Option Datagram}
    (happend : ∀ m, check (data ++ m) = (check data).map (Net.behind m))
    (hparse : ∀ r, check data = some r → Contained (fun data => parse (r.1, data, r.2.2)) r.2.1) :
    Contained (fun data => (check data).bind parse) data := by
  cases hcheck : check data with
  | none =>
    constructor
    · intro m
      rw [happend, hcheck]
      rfl
    · rw [hcheck]
      exact nofun
  | some r =>
    obtain ⟨happend', hinside⟩ := hparse r hcheck
    constructor
    · intro m
      rw [happend, hcheck]
      exact happend' m
    · rw [hcheck]
      exact hinside

theorem nothing : Contained (fun _ => none) data := ⟨fun _ => rfl, nofun⟩

/-- A test of the packet that does not depend on what lies behind it. -/
theorem ite {test : List Byte → Prop} [DecidablePred test]
    {parse parse' : List Byte → Option Datagram} (htest : ∀ m, test (data ++ m) ↔ test data)
    (hthen : test data → Contained parse data) (helse : ¬ test data → Contained parse' data) :
    Contained (fun data => if test data then parse data else parse' data) data := by
  by_cases h : test data
  · obtain ⟨happend, hinside⟩ := hthen h
    constructor
    · intro m
      rw [if_pos ((htest m).mpr h), if_pos h]
      exact happend m
    · rw [if_pos h]
      exact hinside
  · obtain ⟨happend, hinside⟩ := helse h
    constructor
    · intro m
      rw [if_neg (mt (htest m).mp h), if_neg h]
      exact happend m
    · rw [if_neg h]
      exact hinside

/-- A test of the datagram. -/
theorem filter {parse : List Byte → Option Datagram} {p : Datagram → Bool}
    (h : Contained parse data) (hp : ∀ m datagram, p (datagram.behind m) = p datagram) :
    Contained (fun data => (parse data).filter p) data := by
  constructor
  · intro m
    rw [h.append]
    cases hparse : parse data with
    | none => rfl
    | some =>
      rw [Option.map_some, Option.filter_some, Option.filter_some, hp]
      split_ifs <;> rfl
  · exact fun datagram hmem => h.inside datagram (Option.mem_filter_iff.mp hmem).1

/-- The end: the checksum, and the datagram. -/
theorem verify {checksum : List Byte → Word16} {inPacket : Word16} (datagram : Datagram)
    (h : datagram.dataLen ≤ data.length) (hsum : ∀ m, checksum (data ++ m) = checksum data) :
    Contained (fun data => if inPacket ≠ checksum data then none else some { datagram with data })
      data := by
  refine ite (fun m => by rw [hsum]) (fun _ => nothing) fun _ => ⟨fun _ => rfl, ?_⟩
  rintro _ ⟨⟩
  exact h

end Contained

/-- A byte of the packet, which is tested once the length was. -/
theorem byte_test {n i : ℕ} {b : Byte} (h : dataLen ≤ data.length) (hi : i < n) (m : List Byte) :
    (dataLen < n ∨ byteAt (data ++ m) i ≠ b) ↔ (dataLen < n ∨ byteAt data i ≠ b) := by
  by_cases hn : dataLen < n
  · exact iff_of_true (.inl hn) (.inl hn)
  · rw [byteAt_append_left (by omega)]

theorem parseIpv4_contained (h : dataLen ≤ data.length) :
    Contained (fun data => parseIpv4 config data dataLen) data := by
  refine Contained.ite (byte_test h (by decide)) (fun _ => .nothing) fun _ => ?_
  refine Contained.bind (fun data => ipv4Check config.order data dataLen) (ipv4Check_append h)
    fun ip hip => ?_
  have hipLen := le_length_of_ipv4Check h hip
  refine Contained.bind (fun data => udpCheck config.order data ip.2.2) (udpCheck_append hipLen)
    fun udp hudp => ?_
  have hudpLen := le_length_of_udpCheck hipLen hudp
  exact Contained.verify ⟨_, _, _, [], udp.2.2⟩ hudpLen fun m =>
    udpChecksum_append hudpLen m _ _ _

theorem parseIpv6_contained (h : dataLen ≤ data.length) :
    Contained (fun data => parseIpv6 config data dataLen) data := by
  refine Contained.ite (fun _ => Iff.rfl) (fun _ => .nothing) fun _ => ?_
  refine Contained.ite (byte_test h (by decide)) (fun _ => .nothing) fun _ => ?_
  refine Contained.bind (fun data => ipv6Check config.order data dataLen) (ipv6Check_append h)
    fun ip hip => ?_
  have hipLen := le_length_of_ipv6Check h hip
  refine Contained.bind (fun data => udpCheck config.order data ip.2.2) (udpCheck_append hipLen)
    fun udp hudp => ?_
  have hudpLen := le_length_of_udpCheck hipLen hudp
  exact Contained.verify ⟨_, _, _, [], udp.2.2⟩ hudpLen fun m =>
    udpIp6Checksum_append hudpLen m _ _ _

theorem parseDeviceUdpPacket_contained (h : dataLen ≤ data.length) :
    Contained (fun data => parseDeviceUdpPacket config data dataLen) data := by
  refine Contained.ite (fun _ => Iff.rfl) (fun _ => .nothing) fun _ => ?_
  refine Contained.filter ?_ fun _ _ => rfl
  have hversion : ∀ m, (if 0 < dataLen then (byteAt (data ++ m) 0).toNat / 16 else 0) =
      if 0 < dataLen then (byteAt data 0).toNat / 16 else 0 := by
    intro m
    split_ifs with hpos
    · rw [byteAt_append_left (by omega)]
    · rfl
  refine Contained.ite (fun m => by rw [hversion]) (fun _ => parseIpv4_contained h) fun _ => ?_
  exact Contained.ite (fun m => by rw [hversion]) (fun _ => parseIpv6_contained h)
    fun _ => .nothing

/-! ### What is done with a packet -/

/-- The id of a DNS message of at least two bytes. -/
theorem dnsGetHeaderIdStr_append {o : ByteOrder} (h : 2 ≤ data.length) (m : List Byte) :
    dnsGetHeaderIdStr o (data ++ m) = dnsGetHeaderIdStr o data := by
  rw [dnsGetHeaderIdStr, dnsGetHeaderIdStr, word16At_append_left (by omega)]

/-- The bytes of the payload. -/
theorem payload_behind {datagram : Datagram} (h : datagram.dataLen ≤ datagram.data.length)
    (m : List Byte) : bytesAt (datagram.behind m).dataLen (datagram.behind m).data 0 =
      bytesAt datagram.dataLen datagram.data 0 :=
  bytesAt_append_left (n := datagram.dataLen) (by omega) m

theorem socksUdpRequest_behind {datagram : Datagram} (h : datagram.dataLen ≤ datagram.data.length)
    (m : List Byte) : socksUdpRequest (datagram.behind m) = socksUdpRequest datagram :=
  congrArg (fun payload : Buffer Byte datagram.dataLen =>
    socksUdpHeader datagram.remoteAddr ++ payload.cells) (payload_behind h m)

theorem dnsQuery_append (h : dataLen ≤ data.length) (m : List Byte) :
    dnsQuery config (data ++ m) dataLen = (dnsQuery config data dataLen).map (Datagram.behind m) :=
  ((parseDeviceUdpPacket_contained h).filter fun _ _ => rfl).append m

/-- A query with an id of its own is forwarded alike. -/
theorem forwardDns_behind {datagram : Datagram} (h : datagram.dataLen ≤ datagram.data.length)
    (hid : 2 ≤ datagram.data.length) (m : List Byte) (r : Outcome) (s : State) :
    forwardDns config r (datagram.behind m) s = forwardDns config r datagram s := by
  unfold forwardDns
  rw [socksUdpRequest_behind h]
  change (if _ < datagram.dataLen then _ else _) = _
  have hkey : dnsGetHeaderIdStr config.order (datagram.behind m).data =
      dnsGetHeaderIdStr config.order datagram.data := dnsGetHeaderIdStr_append hid m
  rw [hkey]
  rfl

/-- A packet that is no query, or one with an id of its own, is handled alike. -/
theorem processDeviceUdpPacket_append (h : dataLen ≤ data.length)
    (hid : ∀ datagram, dnsQuery config data dataLen = some datagram → 2 ≤ datagram.data.length)
    (m : List Byte) (r : Outcome) (s : State) :
    processDeviceUdpPacket config r (data ++ m) dataLen s =
      processDeviceUdpPacket config r data dataLen s := by
  have hcontained : Contained (fun data => parseDeviceUdpPacket config data dataLen) data :=
    parseDeviceUdpPacket_contained h
  obtain ⟨happend, hinside⟩ := hcontained
  unfold processDeviceUdpPacket
  rw [happend]
  cases hparse : parseDeviceUdpPacket config data dataLen with
  | none => rfl
  | some datagram =>
    have hlen := hinside datagram hparse
    rw [Option.map_some]
    dsimp only
    by_cases hdns : config.transparentDns = true ∧ datagram.isDns = true
    · have hquery : dnsQuery config data dataLen = some datagram := by
        rw [dnsQuery, hparse, Option.filter_some, if_pos (by simpa using hdns)]
      rw [if_pos hdns, if_pos (show _ ∧ (datagram.behind m).isDns = true from hdns)]
      exact forwardDns_behind hlen (hid datagram hquery) m r s
    · rw [if_neg hdns, if_neg (show ¬ (_ ∧ (datagram.behind m).isDns = true) from hdns),
        payload_behind hlen]
      rfl

/-- Memory whose first byte is missing. -/
theorem word16At_append_ne {m m' : List Byte} (h : data.length < 2)
    (hne : byteAt m 0 ≠ byteAt m' 0) : word16At (data ++ m) 0 ≠ word16At (data ++ m') 0 := by
  intro heq
  rw [word16At, word16At, Word16.mk.injEq] at heq
  obtain _ | ⟨b, _ | ⟨c, rest⟩⟩ := data
  · exact hne heq.1
  · exact hne heq.2
  · simp at h

/-! ### When the bytes behind do not matter -/

/-- In a buffer of `size` bytes, the packet is handled alike whatever lies behind it, in every state
and whatever happens during the call. -/
def PacketIndependent (config : Config) (size : ℕ) (packet : List Byte) : Prop :=
  ∀ (r : Outcome) (s : State) (buffer buffer' : List Byte), buffer.length = size →
    buffer'.length = size → packet <+: buffer → packet <+: buffer' →
    processDeviceUdpPacket config r buffer packet.length s =
      processDeviceUdpPacket config r buffer' packet.length s

/-- `UDP_MAX_DATAGRAM_BYTES`. -/
def udpMaxDatagramBytes : ℕ := 65535

/-- In the buffer for replies, the reply is handled alike whatever lies behind it, in every
state. -/
def ReplyIndependent (config : Config) (reply : List Byte) : Prop :=
  ∀ (s : State) (buffer buffer' : List Byte), buffer.length = udpMaxDatagramBytes →
    buffer'.length = udpMaxDatagramBytes → reply <+: buffer → reply <+: buffer' →
    udpFdHandler config buffer reply.length s = udpFdHandler config buffer' reply.length s

def emptyState : State := ⟨.empty, [], [], []⟩

/-- Two keys that are not the same, for a payload shorter than an id. -/
theorem dnsGetHeaderIdStr_append_ne {o : ByteOrder} {m m' : List Byte} (h : data.length < 2)
    (hne : byteAt m 0 ≠ byteAt m' 0) :
    dnsGetHeaderIdStr o (data ++ m) ≠ dnsGetHeaderIdStr o (data ++ m') := fun heq =>
  word16At_append_ne h hne (toNat_injective o (decimal_injective heq))

/-- A buffer that starts with the packet, with the same byte everywhere behind it. -/
theorem exists_buffer {packet : List Byte} {size : ℕ} (h : packet.length < size) (b : Byte) :
    ∃ m, (packet ++ m).length = size ∧ byteAt m 0 = b := by
  refine ⟨List.replicate (size - packet.length) b, ?_, ?_⟩
  · rw [List.length_append, List.length_replicate]
    omega
  · rw [byteAt, List.getD_replicate _ (by omega)]

/-- **A packet is handled alike whatever lies behind it** unless it is a query whose payload is
shorter than an id, with less than the id left of the packet. -/
theorem packetIndependent_iff (config : Config) (size : ℕ) (packet : List Byte) :
    PacketIndependent config size packet ↔
      ∀ datagram, dnsQuery config packet packet.length = some datagram →
        2 ≤ datagram.data.length ∨ size ≤ packet.length := by
  constructor
  · intro h datagram hquery
    by_contra hnot
    push Not at hnot
    obtain ⟨hshort, hsize⟩ := hnot
    obtain ⟨m, hm, hzero⟩ := exists_buffer hsize 0
    obtain ⟨m', hm', hone⟩ := exists_buffer hsize 1
    -- all goes well, and the sender is stored under an id that depends on what lies behind
    have heq := h ⟨some datagram.dataLen, ⟨true, true, true⟩⟩ emptyState (packet ++ m)
      (packet ++ m') hm hm' (List.prefix_append _ _) (List.prefix_append _ _)
    have hquery_append : ∀ m, dnsQuery config (packet ++ m) packet.length =
        some (datagram.behind m) := fun m => by
      rw [dnsQuery_append le_rfl, hquery, Option.map_some]
    rw [process_of_dnsQuery (hquery_append m), process_of_dnsQuery (hquery_append m')] at heq
    have hget := congrArg (fun r => r.2.map.bStringMapGet
      (dnsGetHeaderIdStr config.order (datagram.behind m).data)) heq
    have hkey : dnsGetHeaderIdStr config.order (datagram.behind m).data ≠
        dnsGetHeaderIdStr config.order (datagram.behind m').data :=
      dnsGetHeaderIdStr_append_ne hshort (by rw [hzero, hone]; decide)
    rw [get_forwardDns _ ⟨rfl, rfl, rfl⟩, get_forwardDns _ ⟨rfl, rfl, rfl⟩,
      if_pos ⟨le_refl datagram.dataLen, rfl⟩, if_neg fun hboth => hkey hboth.2] at hget
    cases hget
  · rintro h r s _ _ hlen hlen' ⟨m, rfl⟩ ⟨m', rfl⟩
    rw [List.length_append] at hlen hlen'
    by_cases hsize : size ≤ packet.length
    · rw [List.length_eq_zero_iff.mp (by omega : m.length = 0),
        List.length_eq_zero_iff.mp (by omega : m'.length = 0)]
    · have hid : ∀ datagram, dnsQuery config packet packet.length = some datagram →
          2 ≤ datagram.data.length := fun datagram hquery =>
        (h datagram hquery).resolve_right hsize
      rw [processDeviceUdpPacket_append le_rfl hid, processDeviceUdpPacket_append le_rfl hid]

/-! ### Replies -/

/-- A reply for a stored id takes the id out of the map, whatever is stored under it. -/
theorem map_udpFdHandler {buffer : List Byte} {datagramLen : ℤ} {s : State} {stored : CString}
    (hlen : 10 < datagramLen)
    (hget : s.map.bStringMapGet (dnsGetHeaderIdStr config.order (buffer.drop 10)) = some stored) :
    (udpFdHandler config buffer datagramLen s).map =
      s.map.bStringMapUnset (dnsGetHeaderIdStr config.order (buffer.drop 10)) := by
  unfold udpFdHandler
  rw [if_neg (by omega), if_neg (by omega)]
  dsimp only
  rw [hget]
  dsimp only
  cases bAddrParse config.order config.getAddrInfo stored <;> rfl

/-- A reply with an id of its own is handled alike. -/
theorem udpFdHandler_append {reply : List Byte} (h : 12 ≤ reply.length) (m : List Byte)
    (s : State) :
    udpFdHandler config (reply ++ m) reply.length s = udpFdHandler config reply reply.length s := by
  have hid : dnsGetHeaderIdStr config.order (reply.drop 10 ++ m) =
      dnsGetHeaderIdStr config.order (reply.drop 10) :=
    dnsGetHeaderIdStr_append (by rw [List.length_drop]; omega) m
  have hpayload : bytesAt ((reply.length : ℤ).toNat - 10) (reply.drop 10 ++ m) 0 =
      bytesAt ((reply.length : ℤ).toNat - 10) (reply.drop 10) 0 :=
    bytesAt_append_left (by rw [List.length_drop, Int.toNat_natCast]; omega) m
  unfold udpFdHandler
  dsimp only
  rw [List.drop_append_of_le_length (by omega), hid, hpayload]

/-- **A reply is handled alike whatever lies behind it** unless its payload is one byte. -/
theorem replyIndependent_iff (config : Config) (reply : List Byte) :
    ReplyIndependent config reply ↔ reply.length ≠ 11 := by
  constructor
  · intro h heleven
    have hsize : reply.length < udpMaxDatagramBytes := heleven ▸ by decide
    obtain ⟨m, hm, hzero⟩ := exists_buffer hsize 0
    obtain ⟨m', hm', hone⟩ := exists_buffer hsize 1
    have hdrop : ∀ m, (reply ++ m).drop 10 = reply.drop 10 ++ m := fun m =>
      List.drop_append_of_le_length (by omega)
    have hkey : dnsGetHeaderIdStr config.order ((reply ++ m).drop 10) ≠
        dnsGetHeaderIdStr config.order ((reply ++ m').drop 10) := by
      rw [hdrop, hdrop]
      refine dnsGetHeaderIdStr_append_ne ?_ (by rw [hzero, hone]; decide)
      rw [List.length_drop]
      omega
    -- a sender is stored under the id that the reply has in one of the two buffers
    set key := dnsGetHeaderIdStr config.order ((reply ++ m).drop 10) with hk
    set key' := dnsGetHeaderIdStr config.order ((reply ++ m').drop 10) with hk'
    set map := (StringMap.bStringMapSet .empty key (decimal 0) ⟨true, true, true⟩).2
    have hget : ∀ k, map.bStringMapGet k = if k = key then some (decimal 0) else none := fun k =>
      StringMap.get_set _ _ ⟨rfl, rfl, rfl⟩ k
    have heq := h ⟨map, [], [], []⟩ (reply ++ m) (reply ++ m') hm hm' (List.prefix_append _ _)
      (List.prefix_append _ _)
    have hmap := congrArg (fun s => s.map.bStringMapGet key) heq
    rw [map_udpFdHandler (by omega) ((hget key).trans (if_pos rfl)), StringMap.get_unset,
      if_pos hk.symm, udpFdHandler_of_get_eq_none ((hget key').trans (if_neg hkey.symm)),
      hget, if_pos rfl] at hmap
    cases hmap
  · rintro h s _ _ hlen hlen' ⟨m, rfl⟩ ⟨m', rfl⟩
    by_cases hshort : reply.length ≤ 10
    · rw [udpFdHandler_of_le (by omega), udpFdHandler_of_le (by omega)]
    · rw [udpFdHandler_append (by omega), udpFdHandler_append (by omega)]

/-- **When bytes left over from earlier packets do not matter.** A packet in a buffer of any size:
unless it is a DNS query, with room behind it in the buffer, of which there are fewer than two bytes
from the payload on. A reply: unless it has one byte behind the SOCKS header. If nothing is
received, the buffer never matters. A query without a payload that fills its buffer is read
beyond the buffer by the code, and has the id zero here. -/
theorem leftover_ignored_iff (config : Config) (size : ℕ) (packet reply : List Byte) :
    (PacketIndependent config size packet ↔
      ∀ datagram, dnsQuery config packet packet.length = some datagram →
        2 ≤ datagram.data.length ∨ size ≤ packet.length) ∧
    (ReplyIndependent config reply ↔ reply.length ≠ 11) ∧
    ∀ (s : State) (buffer buffer' : List Byte) (datagramLen : ℤ), datagramLen ≤ 0 →
      udpFdHandler config buffer datagramLen s = udpFdHandler config buffer' datagramLen s := by
  refine ⟨packetIndependent_iff config size packet, replyIndependent_iff config reply, ?_⟩
  intro s buffer buffer' datagramLen hlen
  rw [udpFdHandler_of_le (by omega), udpFdHandler_of_le (by omega)]

/-- A query without a payload from 10.0.0.2, port 5001. -/
def emptyQuery : List Byte :=
  [69, 0, 0, 28, 0, 0, 0, 0, 64, 17, 96, 192, 10, 0, 0, 2, 8, 8, 8, 8] ++
    [19, 137, 0, 53, 0, 8, 210, 14]

/-- **Bytes left over are used.** The id of a query without a payload is read behind the packet, and
of the id of a reply with a payload of one byte the second byte is read behind the reply. -/
theorem leftover_used :
    ¬ PacketIndependent exampleConfig 1500 emptyQuery ∧
      ¬ ReplyIndependent exampleConfig [0, 0, 0, 1, 8, 8, 8, 8, 0, 53, 7] := by
  constructor
  · rw [packetIndependent_iff]
    intro h
    obtain ⟨datagram, hquery, hlen⟩ := Option.map_eq_some_iff.mp
      (show (dnsQuery exampleConfig emptyQuery emptyQuery.length).map (·.data.length) = some 0 by
        decide +kernel)
    rcases h datagram hquery with htwo | hsize
    · exact absurd (hlen ▸ htwo) (by decide)
    · exact absurd hsize (by decide)
  · rw [replyIndependent_iff]
    exact fun h => h rfl

end Dns

end Tun2Socks
