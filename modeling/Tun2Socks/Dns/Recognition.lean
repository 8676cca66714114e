import Tun2Socks.Dns.Device
import Tun2Socks.Net.Check

/-!
# Which packets are recognised as UDP datagrams

A packet from the device starts with a UDP datagram over IPv4 if the parts of one
(`UdpOverIpv4`) lie at its start and every length is what the header in front of it announces
(`UdpOverIpv4.Starts`); for IPv6 likewise. A packet has at most one reading of either kind
(`UdpOverIpv4.Starts.unique`), and not one of each.

* `parseDeviceUdpPacket_of_starts`, `starts_of_parseDeviceUdpPacket` — the code accepts a datagram
  exactly if its checksum is the complement of the sum.
* `UdpOverIpv4.Valid`, `UdpOverIpv6.Valid` — what RFC 768 and RFC 8200 accept: no fragment, and
  the checksum of the standards, which is never zero; over IPv4 zero stands for no checksum.
* `recognised_iff_valid_iff` — the two differ for the datagrams that are `Misjudged`, and for no
  others.

The memory behind the packet is arbitrary throughout.
-/

namespace Tun2Socks.Dns

open Framework Net

/-! ### Datagrams -/

/-- The parts of a UDP datagram over IPv4. -/
structure UdpOverIpv4 where
  ip : Ipv4Header
  options : List Byte
  udp : UdpHeader
  payload : List Byte

/-- The parts of a UDP datagram over IPv6. -/
structure UdpOverIpv6 where
  ip : Ipv6Header
  udp : UdpHeader
  payload : List Byte

namespace UdpOverIpv4

/-- The datagram is at the start of the packet, the IPv4 packet is complete, and the UDP length
fits into it. Bytes may follow the payload, within the IPv4 packet and behind it. -/
structure Starts (d : UdpOverIpv4) (packet : List Byte) : Prop where
  layout : d.ip.bytes ++ (d.options ++ (d.udp.bytes ++ d.payload)) <+: packet
  version : d.ip.version = 4
  headerLength : 4 * d.ip.ihl = 20 + d.options.length
  complete : d.ip.totalLength.toNat .big ≤ packet.length
  headerChecksum : d.ip.ChecksumOk d.options
  protocol : d.ip.protocol = 17
  udpLength : d.udp.length.toNat .big = 8 + d.payload.length
  fits : 20 + d.options.length + (8 + d.payload.length) ≤ d.ip.totalLength.toNat .big

/-- The pseudo header of the datagram. -/
def pseudo (d : UdpOverIpv4) : List Byte :=
  pseudoHeader d.ip.sourceAddress d.ip.destinationAddress (8 + d.payload.length)

/-- The one's complement sum of the datagram, with a zero checksum. -/
def sum (d : UdpOverIpv4) : ℕ :=
  onesComplementSum (d.pseudo ++ { d.udp with checksum := ⟨0, 0⟩ }.bytes ++ d.payload)

/-- The checksum in the packet. -/
def checksum (d : UdpOverIpv4) : ℕ := d.udp.checksum.toNat .big

/-- More fragments follow, or the offset is not zero. -/
def IsFragment (d : UdpOverIpv4) : Prop :=
  d.ip.flags3Fragmentoffset13.toNat .big % 16384 ≠ 0

/-- RFC 768. -/
def Valid (d : UdpOverIpv4) : Prop :=
  ¬ d.IsFragment ∧ (d.checksum = 0 ∨ d.checksum = rfcUdpChecksum d.pseudo d.udp d.payload)

/-- A fragment whose bytes have the checksum by themselves, a datagram without a checksum, and
one whose computed checksum of zero was replaced by all ones. -/
def Misjudged (d : UdpOverIpv4) : Prop :=
  (d.IsFragment ∧ d.checksum = 65535 - d.sum) ∨
    (¬ d.IsFragment ∧
      ((d.checksum = 0 ∧ d.sum ≠ 65535) ∨ (d.checksum = 65535 ∧ d.sum = 65535)))

theorem sum_le (d : UdpOverIpv4) : d.sum ≤ 65535 := onesComplementSum_le _

/-- A packet has one reading. -/
theorem Starts.unique {d d' : UdpOverIpv4} {packet : List Byte} (h : d.Starts packet)
    (h' : d'.Starts packet) : d = d' := by
  obtain ⟨ip, options, udp, payload⟩ := d
  obtain ⟨ip', options', udp', payload'⟩ := d'
  obtain ⟨r, rfl⟩ := h.layout
  obtain ⟨r', hlayout⟩ := h'.layout
  simp only [List.append_assoc] at hlayout
  -- part by part: each has the length that the part before it announces
  obtain ⟨hip, hbehindIp⟩ := List.append_inj hlayout
    (by rw [length_bytes_ipv4Header, length_bytes_ipv4Header])
  obtain rfl := Ipv4Header.bytes_injective hip
  have hheader := h.headerLength.symm.trans h'.headerLength
  dsimp only at hheader
  obtain ⟨rfl, hbehindOptions⟩ := List.append_inj hbehindIp (by omega)
  obtain ⟨hudp, hbehindUdp⟩ := List.append_inj hbehindOptions
    (by rw [length_bytes_udpHeader, length_bytes_udpHeader])
  obtain rfl := UdpHeader.bytes_injective hudp
  have hlength := h.udpLength.symm.trans h'.udpLength
  dsimp only at hlength
  obtain ⟨rfl, -⟩ := List.append_inj hbehindUdp (by omega)
  rfl

/-- **The code and the standard differ for the misjudged datagrams**, once it comes to comparing
the checksum. -/
theorem accepts_iff_valid_iff (d : UdpOverIpv4) :
    (d.checksum = 65535 - d.sum ↔ d.Valid) ↔ ¬ d.Misjudged := by
  have hle := d.sum_le
  have hrfc : rfcUdpChecksum d.pseudo d.udp d.payload
      = if 65535 - d.sum = 0 then 65535 else 65535 - d.sum := rfl
  rw [Valid, Misjudged, hrfc]
  by_cases hfragment : d.IsFragment
  · simp only [hfragment, not_true_eq_false, false_and, true_and, or_false, iff_false]
  · simp only [hfragment, not_false_eq_true, true_and, false_and, false_or]
    split_ifs with hsum <;> omega

end UdpOverIpv4

namespace UdpOverIpv6

/-- The datagram is at the start of the packet, the IPv6 packet is complete, and the UDP length
fits into it. -/
structure Starts (d : UdpOverIpv6) (packet : List Byte) : Prop where
  layout : d.ip.bytes ++ (d.udp.bytes ++ d.payload) <+: packet
  version : d.ip.version4Tc4.toNat / 16 = 6
  complete : 40 + d.ip.payloadLength.toNat .big ≤ packet.length
  nextHeader : d.ip.nextHeader = 17
  udpLength : d.udp.length.toNat .big = 8 + d.payload.length
  fits : 8 + d.payload.length ≤ d.ip.payloadLength.toNat .big

/-- The pseudo header of the datagram. -/
def pseudo (d : UdpOverIpv6) : List Byte :=
  pseudoHeaderIp6 d.ip.sourceAddress d.ip.destinationAddress (8 + d.payload.length)

/-- The one's complement sum of the datagram, with a zero checksum. -/
def sum (d : UdpOverIpv6) : ℕ :=
  onesComplementSum (d.pseudo ++ { d.udp with checksum := ⟨0, 0⟩ }.bytes ++ d.payload)

/-- The checksum in the packet. -/
def checksum (d : UdpOverIpv6) : ℕ := d.udp.checksum.toNat .big

/-- RFC 8200. -/
def Valid (d : UdpOverIpv6) : Prop := d.checksum = rfcUdpChecksum d.pseudo d.udp d.payload

/-- The computed checksum is zero, and the packet has all ones, as it should, or zero. -/
def Misjudged (d : UdpOverIpv6) : Prop := d.sum = 65535 ∧ (d.checksum = 0 ∨ d.checksum = 65535)

theorem sum_le (d : UdpOverIpv6) : d.sum ≤ 65535 := onesComplementSum_le _

theorem Starts.unique {d d' : UdpOverIpv6} {packet : List Byte} (h : d.Starts packet)
    (h' : d'.Starts packet) : d = d' := by
  obtain ⟨ip, udp, payload⟩ := d
  obtain ⟨ip', udp', payload'⟩ := d'
  obtain ⟨r, rfl⟩ := h.layout
  obtain ⟨r', hlayout⟩ := h'.layout
  simp only [List.append_assoc] at hlayout
  obtain ⟨hip, hbehindIp⟩ := List.append_inj hlayout
    (by rw [Ipv6Header.length_bytes, Ipv6Header.length_bytes])
  obtain rfl := Ipv6Header.bytes_injective hip
  obtain ⟨hudp, hbehindUdp⟩ := List.append_inj hbehindIp
    (by rw [length_bytes_udpHeader, length_bytes_udpHeader])
  obtain rfl := UdpHeader.bytes_injective hudp
  have hlength := h.udpLength.symm.trans h'.udpLength
  dsimp only at hlength
  obtain ⟨rfl, -⟩ := List.append_inj hbehindUdp (by omega)
  rfl

theorem accepts_iff_valid_iff (d : UdpOverIpv6) :
    (d.checksum = 65535 - d.sum ↔ d.Valid) ↔ ¬ d.Misjudged := by
  have hle := d.sum_le
  have hrfc : rfcUdpChecksum d.pseudo d.udp d.payload
      = if 65535 - d.sum = 0 then 65535 else 65535 - d.sum := rfl
  rw [Valid, Misjudged, hrfc]
  split_ifs with hsum <;> omega

end UdpOverIpv6

/-! ### What the code accepts -/

variable (config : Config) {packet : List Byte} (memory : List Byte)

/-- A part that lies at the start of packet and memory, and is not longer than the packet, lies at
the start of the packet. -/
theorem isPrefix_of_append_eq {l r : List Byte} (h : packet ++ memory = l ++ r)
    (hlen : l.length ≤ packet.length) : l <+: packet :=
  List.prefix_of_prefix_length_le ⟨r, h.symm⟩ ⟨memory, rfl⟩ hlen

/-- What the code goes on with. -/
structure IsParsed (datagram : Datagram) (localAddr remoteAddr : BAddr) (payload : List Byte) :
    Prop where
  localAddr : datagram.localAddr = localAddr
  remoteAddr : datagram.remoteAddr = remoteAddr
  dataLen : datagram.dataLen = payload.length
  data : payload <+: datagram.data

theorem byteAt_protocol (ip : Ipv4Header) (r : List Byte) : byteAt (ip.bytes ++ r) 9 = ip.protocol := by
  conv_rhs => rw [← ip.read_append r]
  rfl

theorem byteAt_nextHeader (ip : Ipv6Header) (r : List Byte) :
    byteAt (ip.bytes ++ r) 6 = ip.nextHeader := by
  conv_rhs => rw [← ip.read_append r]
  rfl

/-- The code compares the checksum with the complement of the sum. -/
theorem UdpOverIpv4.checksum_iff (d : UdpOverIpv4) {behind : List Byte}
    (hlen : d.payload.length ≤ 65527) :
    d.udp.checksum = udpChecksum config.order { d.udp with checksum := ⟨0, 0⟩ }
      (d.payload ++ behind) d.payload.length d.ip.sourceAddress d.ip.destinationAddress ↔
      d.checksum = 65535 - d.sum := by
  rw [← (toNat_injective .big).eq_iff, udpChecksum_toNat _ _ _ hlen, cells_bytesAt_append rfl]
  rfl

theorem UdpOverIpv6.checksum_iff (d : UdpOverIpv6) {behind : List Byte}
    (hlen : d.payload.length ≤ 65527) :
    d.udp.checksum = udpIp6Checksum config.order { d.udp with checksum := ⟨0, 0⟩ }
      (d.payload ++ behind) d.payload.length d.ip.sourceAddress d.ip.destinationAddress ↔
      d.checksum = 65535 - d.sum := by
  rw [← (toNat_injective .big).eq_iff, udpIp6Checksum_toNat _ _ _ hlen, cells_bytesAt_append rfl]
  rfl

/-- **A datagram with the checksum is accepted**, over IPv4. -/
theorem parseIpv4_of_starts {d : UdpOverIpv4} (h : d.Starts packet)
    (hchecksum : d.checksum = 65535 - d.sum) :
    ∃ datagram, parseIpv4 config (packet ++ memory) packet.length = some datagram ∧
      IsParsed datagram (.ipv4 d.ip.sourceAddress d.udp.sourcePort)
        (.ipv4 d.ip.destinationAddress d.udp.destPort) d.payload := by
  obtain ⟨behind, hlayout⟩ := h.layout
  have hlength := congrArg List.length hlayout
  simp only [List.length_append, length_bytes_ipv4Header, length_bytes_udpHeader] at hlength
  have hdata : packet ++ memory = d.ip.bytes ++ (d.options ++ (d.udp.bytes ++
      (d.payload ++ (behind ++ memory)))) := by
    simp only [← hlayout, List.append_assoc]
  have hcomplete := h.complete
  have hfits := h.fits
  have hbound := toNat_lt .big d.udp.length
  rw [h.udpLength] at hbound
  have hip : ipv4Check config.order (packet ++ memory) packet.length = some (d.ip, _,
      d.ip.totalLength.toNat .big - (20 + d.options.length)) :=
    (ipv4Check_eq_some_iff (by rw [List.length_append]; omega) d.ip).mpr
      ⟨d.options, hdata, h.version, h.headerLength, by omega, by omega, h.headerChecksum⟩
  have hudp : udpCheck config.order (d.udp.bytes ++ (d.payload ++ (behind ++ memory)))
      (d.ip.totalLength.toNat .big - (20 + d.options.length)) = some _ :=
    (udpCheck_eq_some_iff (by simp only [List.length_append, length_bytes_udpHeader]; omega) d.udp).mpr
      ⟨d.payload, behind ++ memory, rfl, rfl, rfl, h.udpLength, by omega⟩
  have hprotocol : byteAt (packet ++ memory) 9 = 17 := by
    rw [hdata, byteAt_protocol, h.protocol]
  rw [parseIpv4, if_neg (not_or.mpr ⟨by omega, not_not.mpr hprotocol⟩), hip, Option.bind_some]
  dsimp only
  rw [hudp, Option.bind_some]
  dsimp only
  rw [if_neg (not_not.mpr ((d.checksum_iff config (by omega)).mpr hchecksum))]
  exact ⟨_, rfl, rfl, rfl, rfl, List.prefix_append _ _⟩

/-- **What is accepted is a datagram with the checksum**, over IPv4. -/
theorem starts_of_parseIpv4 {datagram : Datagram}
    (h : parseIpv4 config (packet ++ memory) packet.length = some datagram) :
    ∃ d : UdpOverIpv4, d.Starts packet ∧ d.checksum = 65535 - d.sum ∧
      datagram.dataLen = d.payload.length := by
  rw [parseIpv4] at h
  split_ifs at h with hprotocol
  rw [not_or, not_not] at hprotocol
  obtain ⟨⟨ip, ipData, ipLen⟩, hip, h⟩ := Option.bind_eq_some_iff.mp h
  obtain ⟨⟨udp, data, dataLen⟩, hudp, h⟩ := Option.bind_eq_some_iff.mp h
  dsimp only at hudp h
  split_ifs at h with hchecksum
  cases h
  rw [ipv4Check_eq_some_iff (by rw [List.length_append]; omega)] at hip
  obtain ⟨options, hdata, hversion, hihl, hipLen, hcomplete, hheader⟩ := hip
  have hlength := congrArg List.length hdata
  simp only [List.length_append, length_bytes_ipv4Header] at hlength
  rw [udpCheck_eq_some_iff (by omega)] at hudp
  obtain ⟨payload, behind, rfl, rfl, rfl, hudpLen, hfits⟩ := hudp
  have hbound := toNat_lt .big udp.length
  refine ⟨⟨ip, options, udp, payload⟩, ⟨?_, hversion, hihl, by dsimp only; omega, hheader, ?_,
    hudpLen, by dsimp only; omega⟩, ?_, rfl⟩
  · refine isPrefix_of_append_eq memory (r := behind) ?_ ?_
    · simp only [hdata, List.append_assoc]
    · simp only [List.length_append, length_bytes_ipv4Header, length_bytes_udpHeader]
      omega
  · rw [hdata, byteAt_protocol] at hprotocol
    exact hprotocol.2
  · exact (UdpOverIpv4.checksum_iff config ⟨ip, options, udp, payload⟩ (by dsimp only; omega)).mp
      (not_not.mp hchecksum)

/-- **A datagram with the checksum is accepted**, over IPv6 if it is enabled. -/
theorem parseIpv6_of_starts {d : UdpOverIpv6} (hip6 : config.netifIp6addr = true)
    (h : d.Starts packet) (hchecksum : d.checksum = 65535 - d.sum) :
    ∃ datagram, parseIpv6 config (packet ++ memory) packet.length = some datagram ∧
      IsParsed datagram (.ipv6 d.ip.sourceAddress d.udp.sourcePort)
        (.ipv6 d.ip.destinationAddress d.udp.destPort) d.payload := by
  obtain ⟨behind, hlayout⟩ := h.layout
  have hlength := congrArg List.length hlayout
  simp only [List.length_append, Ipv6Header.length_bytes, length_bytes_udpHeader] at hlength
  have hdata : packet ++ memory = d.ip.bytes ++ (d.udp.bytes ++
      (d.payload ++ (behind ++ memory))) := by
    simp only [← hlayout, List.append_assoc]
  have hcomplete := h.complete
  have hbound := toNat_lt .big d.udp.length
  rw [h.udpLength] at hbound
  have hip : ipv6Check config.order (packet ++ memory) packet.length = some _ :=
    (ipv6Check_eq_some_iff (by rw [List.length_append]; omega) d.ip).mpr
      ⟨hdata, h.version, rfl, hcomplete⟩
  have hudp : udpCheck config.order (d.udp.bytes ++ (d.payload ++ (behind ++ memory)))
      (d.ip.payloadLength.toNat .big) = some _ :=
    (udpCheck_eq_some_iff (by simp only [List.length_append, length_bytes_udpHeader]; omega) d.udp).mpr
      ⟨d.payload, behind ++ memory, rfl, rfl, rfl, h.udpLength, h.fits⟩
  have hnext : byteAt (packet ++ memory) 6 = 17 := by
    rw [hdata, byteAt_nextHeader, h.nextHeader]
  rw [parseIpv6, if_neg (by rw [hip6]; decide),
    if_neg (not_or.mpr ⟨by omega, not_not.mpr hnext⟩), hip, Option.bind_some]
  dsimp only
  rw [hudp, Option.bind_some]
  dsimp only
  rw [if_neg (not_not.mpr ((d.checksum_iff config (by omega)).mpr hchecksum))]
  exact ⟨_, rfl, rfl, rfl, rfl, List.prefix_append _ _⟩

/-- **What is accepted is a datagram with the checksum**, over IPv6. -/
theorem starts_of_parseIpv6 {datagram : Datagram}
    (h : parseIpv6 config (packet ++ memory) packet.length = some datagram) :
    ∃ d : UdpOverIpv6, d.Starts packet ∧ d.checksum = 65535 - d.sum ∧
      datagram.dataLen = d.payload.length := by
  rw [parseIpv6] at h
  split_ifs at h with hip6 hnext
  rw [not_or, not_not] at hnext
  obtain ⟨⟨ip, ipData, ipLen⟩, hip, h⟩ := Option.bind_eq_some_iff.mp h
  obtain ⟨⟨udp, data, dataLen⟩, hudp, h⟩ := Option.bind_eq_some_iff.mp h
  dsimp only at hudp h
  split_ifs at h with hchecksum
  cases h
  rw [ipv6Check_eq_some_iff (by rw [List.length_append]; omega)] at hip
  obtain ⟨hdata, hversion, rfl, hcomplete⟩ := hip
  have hlength := congrArg List.length hdata
  simp only [List.length_append, Ipv6Header.length_bytes] at hlength
  rw [udpCheck_eq_some_iff (by omega)] at hudp
  obtain ⟨payload, behind, rfl, rfl, rfl, hudpLen, hfits⟩ := hudp
  have hbound := toNat_lt .big udp.length
  refine ⟨⟨ip, udp, payload⟩, ⟨?_, hversion, hcomplete, ?_, hudpLen, hfits⟩, ?_, rfl⟩
  · refine isPrefix_of_append_eq memory (r := behind) ?_ ?_
    · simp only [hdata, List.append_assoc]
    · simp only [List.length_append, Ipv6Header.length_bytes, length_bytes_udpHeader]
      omega
  · rw [hdata, byteAt_nextHeader] at hnext
    exact hnext.2
  · exact (UdpOverIpv6.checksum_iff config ⟨ip, udp, payload⟩ (by dsimp only; omega)).mp
      (not_not.mp hchecksum)

/-! ### Both versions -/

/-- A UDP datagram over either version of IP. -/
inductive UdpPacket
  | ipv4 (d : UdpOverIpv4)
  | ipv6 (d : UdpOverIpv6)

namespace UdpPacket

def Starts : UdpPacket → List Byte → Prop
  | ipv4 d, packet => d.Starts packet
  | ipv6 d, packet => d.Starts packet

def payload : UdpPacket → List Byte
  | ipv4 d => d.payload
  | ipv6 d => d.payload

def checksum : UdpPacket → ℕ
  | ipv4 d => d.checksum
  | ipv6 d => d.checksum

def sum : UdpPacket → ℕ
  | ipv4 d => d.sum
  | ipv6 d => d.sum

def Valid : UdpPacket → Prop
  | ipv4 d => d.Valid
  | ipv6 d => d.Valid

def Misjudged : UdpPacket → Prop
  | ipv4 d => d.Misjudged
  | ipv6 d => d.Misjudged

/-- The address the packet comes from. -/
def source : UdpPacket → BAddr
  | ipv4 d => .ipv4 d.ip.sourceAddress d.udp.sourcePort
  | ipv6 d => .ipv6 d.ip.sourceAddress d.udp.sourcePort

/-- The address the packet goes to. -/
def dest : UdpPacket → BAddr
  | ipv4 d => .ipv4 d.ip.destinationAddress d.udp.destPort
  | ipv6 d => .ipv6 d.ip.destinationAddress d.udp.destPort

/-- The version in the first byte. -/
def version : UdpPacket → ℕ
  | ipv4 _ => 4
  | ipv6 _ => 6

theorem Starts.version_eq {d : UdpPacket} (h : d.Starts packet) :
    0 < packet.length ∧ (byteAt (packet ++ memory) 0).toNat / 16 = d.version := by
  cases d with
  | ipv4 d =>
    obtain ⟨behind, rfl⟩ := h.layout
    refine ⟨Nat.succ_pos _, ?_⟩
    have hversion := h.version
    rw [Ipv4Header.version] at hversion
    exact hversion
  | ipv6 d =>
    obtain ⟨behind, rfl⟩ := h.layout
    exact ⟨Nat.succ_pos _, h.version⟩

/-- A packet has one reading. -/
theorem Starts.unique {d d' : UdpPacket} (h : d.Starts packet) (h' : d'.Starts packet) :
    d = d' := by
  have hversion := (version_eq [] h).2.symm.trans (version_eq [] h').2
  cases d with
  | ipv4 d =>
    cases d' with
    | ipv4 d' => exact congrArg ipv4 (UdpOverIpv4.Starts.unique h h')
    | ipv6 d' => cases show 4 = 6 from hversion
  | ipv6 d =>
    cases d' with
    | ipv4 d' => cases show 6 = 4 from hversion
    | ipv6 d' => exact congrArg ipv6 (UdpOverIpv6.Starts.unique h h')

theorem accepts_iff_valid_iff (d : UdpPacket) :
    (d.checksum = 65535 - d.sum ↔ d.Valid) ↔ ¬ d.Misjudged := by
  cases d with
  | ipv4 d | ipv6 d => exact d.accepts_iff_valid_iff

end UdpPacket

/-- The functions do something: udpgw or the DNS relay is configured. -/
def Config.Forwards (config : Config) : Prop :=
  config.udpgwRemoteServerAddr = true ∨ config.dnsResolverOption = true

variable {config}

theorem parseDeviceUdpPacket_eq (hforwards : config.Forwards) {d : UdpPacket}
    (h : d.Starts packet) :
    parseDeviceUdpPacket config (packet ++ memory) packet.length
      = (match d with
        | .ipv4 _ => parseIpv4 config (packet ++ memory) packet.length
        | .ipv6 _ => parseIpv6 config (packet ++ memory) packet.length).filter
          fun datagram => (datagram.dataLen : ℤ) ≤ config.udpMtu := by
  have hon : ¬ (config.udpgwRemoteServerAddr = false ∧ config.dnsResolverOption = false) := by
    rintro ⟨hudpgw, hdns⟩
    rcases hforwards with hon | hon
    · cases hudpgw.symm.trans hon
    · cases hdns.symm.trans hon
  obtain ⟨hpos, hversion⟩ := h.version_eq memory
  rw [parseDeviceUdpPacket, if_neg hon, if_pos hpos, hversion]
  cases d <;> rfl

/-- **A datagram with the checksum is accepted** if its payload is not too large. -/
theorem parseDeviceUdpPacket_of_starts (hforwards : config.Forwards) {d : UdpPacket}
    (hip6 : d.version = 6 → config.netifIp6addr = true) (h : d.Starts packet)
    (hchecksum : d.checksum = 65535 - d.sum) (hmtu : (d.payload.length : ℤ) ≤ config.udpMtu) :
    ∃ datagram, parseDeviceUdpPacket config (packet ++ memory) packet.length = some datagram ∧
      IsParsed datagram d.source d.dest d.payload := by
  rw [parseDeviceUdpPacket_eq memory hforwards h]
  cases d with
  | ipv4 d =>
    obtain ⟨datagram, hparse, hparsed⟩ := parseIpv4_of_starts config memory h hchecksum
    refine ⟨datagram, ?_, hparsed⟩
    dsimp only
    rw [hparse, Option.filter_some, if_pos]
    rw [hparsed.dataLen]
    exact decide_eq_true hmtu
  | ipv6 d =>
    obtain ⟨datagram, hparse, hparsed⟩ :=
      parseIpv6_of_starts config memory (hip6 rfl) h hchecksum
    refine ⟨datagram, ?_, hparsed⟩
    dsimp only
    rw [hparse, Option.filter_some, if_pos]
    rw [hparsed.dataLen]
    exact decide_eq_true hmtu

/-- **What is accepted is a datagram with the checksum.** -/
theorem starts_of_parseDeviceUdpPacket {datagram : Datagram}
    (h : parseDeviceUdpPacket config (packet ++ memory) packet.length = some datagram) :
    ∃ d : UdpPacket, d.Starts packet ∧ d.checksum = 65535 - d.sum ∧
      (d.payload.length : ℤ) ≤ config.udpMtu := by
  rw [parseDeviceUdpPacket, Option.ite_none_left_eq_some, Option.filter_eq_some_iff] at h
  obtain ⟨-, hparse, hle⟩ := h
  have hmtu := of_decide_eq_true hle
  generalize (if 0 < packet.length then _ else 0) = ipVersion at hparse
  split_ifs at hparse
  · obtain ⟨d, hstarts, hchecksum, hlen⟩ := starts_of_parseIpv4 config memory hparse
    exact ⟨.ipv4 d, hstarts, hchecksum, by rw [hlen] at hmtu; exact hmtu⟩
  · obtain ⟨d, hstarts, hchecksum, hlen⟩ := starts_of_parseIpv6 config memory hparse
    exact ⟨.ipv6 d, hstarts, hchecksum, by rw [hlen] at hmtu; exact hmtu⟩

/-! ### What the standards accept -/

/-- The packet starts with a valid datagram, with a payload of at most `udpMtu` bytes. -/
def IsValidDatagram (udpMtu : ℤ) (packet : List Byte) : Prop :=
  ∃ d : UdpPacket, d.Starts packet ∧ d.Valid ∧ (d.payload.length : ℤ) ≤ udpMtu

/-- **The code recognises the valid datagrams, and no others, exactly for the packets that do not
start with a misjudged one.** For every packet, whatever lies behind it in memory. -/
theorem recognised_iff_valid_iff (config : Config) (hforwards : config.Forwards)
    (hip6 : config.netifIp6addr = true) (packet memory : List Byte) :
    ((parseDeviceUdpPacket config (packet ++ memory) packet.length).isSome = true ↔
        IsValidDatagram config.udpMtu packet) ↔
      ∀ d : UdpPacket, d.Starts packet → (d.payload.length : ℤ) ≤ config.udpMtu →
        ¬ d.Misjudged := by
  have haccepts : (parseDeviceUdpPacket config (packet ++ memory) packet.length).isSome = true ↔
      ∃ d : UdpPacket, d.Starts packet ∧ d.checksum = 65535 - d.sum ∧
        (d.payload.length : ℤ) ≤ config.udpMtu := by
    rw [Option.isSome_iff_exists]
    constructor
    · rintro ⟨datagram, h⟩
      exact starts_of_parseDeviceUdpPacket memory h
    · rintro ⟨d, hstarts, hchecksum, hmtu⟩
      obtain ⟨datagram, h, -⟩ := parseDeviceUdpPacket_of_starts memory hforwards
        (fun _ => hip6) hstarts hchecksum hmtu
      exact ⟨datagram, h⟩
  rw [haccepts, IsValidDatagram]
  constructor
  · -- the packet has one reading, so the equivalence is one about this reading
    intro h d hstarts hmtu
    rw [← d.accepts_iff_valid_iff]
    constructor
    · intro hchecksum
      obtain ⟨d', hstarts', hvalid, -⟩ := h.mp ⟨d, hstarts, hchecksum, hmtu⟩
      rwa [hstarts.unique hstarts']
    · intro hvalid
      obtain ⟨d', hstarts', hchecksum, -⟩ := h.mpr ⟨d, hstarts, hvalid, hmtu⟩
      rwa [hstarts.unique hstarts']
  · intro h
    refine exists_congr fun d => and_congr_right fun hstarts => ?_
    rw [and_comm, and_comm (a := d.Valid)]
    refine and_congr_right fun hmtu => ?_
    rw [d.accepts_iff_valid_iff]
    exact h d hstarts hmtu

/-! ### A byte from 10.0.0.1 to 10.0.0.2 -/

/-- Forwarding to udpgw, with IPv6, on a little-endian host. -/
def udpgwConfig : Config where
  order := .little
  getAddrInfo := numericHosts
  udpgwRemoteServerAddr := true
  dnsResolverOption := false
  transparentDns := false
  netifIp6addr := true
  dnsResolverAddr := .none
  udpMtu := 1472

/-- A datagram with one byte, from port 80 to port 53. -/
def oneByte (fragment headerChecksum checksum : Word16) : UdpOverIpv4 where
  ip := {
    version4Ihl4 := 69
    ds := 0
    totalLength := ⟨0, 29⟩
    identification := ⟨0, 0⟩
    flags3Fragmentoffset13 := fragment
    ttl := 64
    protocol := 17
    checksum := headerChecksum
    sourceAddress := exampleSource
    destinationAddress := exampleDest }
  options := []
  udp := ⟨⟨0, 80⟩, ⟨0, 53⟩, ⟨0, 9⟩, checksum⟩
  payload := [1]

/-- The packet that consists of the datagram. -/
def UdpOverIpv4.alone (d : UdpOverIpv4) : List Byte :=
  d.ip.bytes ++ (d.options ++ (d.udp.bytes ++ d.payload))

theorem oneByte_starts (fragment headerChecksum checksum : Word16)
    (h : (oneByte fragment headerChecksum checksum).ip.ChecksumOk []) :
    (oneByte fragment headerChecksum checksum).Starts
      (oneByte fragment headerChecksum checksum).alone where
  layout := List.prefix_rfl
  version := by
    change (69 : Byte).toNat / 16 = 4
    decide
  headerLength := by
    change 4 * ((69 : Byte).toNat % 16) = 20
    decide
  complete := le_rfl
  headerChecksum := h
  protocol := rfl
  udpLength := rfl
  fits := le_rfl

/-- An ordinary datagram is recognised. -/
theorem recognised_ordinary :
    (parseDeviceUdpPacket udpgwConfig (oneByte ⟨0, 0⟩ ⟨102, 206⟩ ⟨234, 84⟩).alone
      (oneByte ⟨0, 0⟩ ⟨102, 206⟩ ⟨234, 84⟩).alone.length).isSome = true := by
  have hstarts := oneByte_starts ⟨0, 0⟩ ⟨102, 206⟩ ⟨234, 84⟩
    (by rw [Ipv4Header.ChecksumOk]; decide)
  have hiff := recognised_iff_valid_iff udpgwConfig (.inl rfl) rfl
    (oneByte ⟨0, 0⟩ ⟨102, 206⟩ ⟨234, 84⟩).alone []
  rw [List.append_nil] at hiff
  refine (hiff.mpr ?_).mpr ⟨.ipv4 (oneByte ⟨0, 0⟩ ⟨102, 206⟩ ⟨234, 84⟩), hstarts, ?_, by decide⟩
  · intro d hd _
    obtain rfl : d = .ipv4 (oneByte ⟨0, 0⟩ ⟨102, 206⟩ ⟨234, 84⟩) := hd.unique hstarts
    rw [UdpPacket.Misjudged, UdpOverIpv4.Misjudged, UdpOverIpv4.IsFragment]
    decide
  · rw [UdpPacket.Valid, UdpOverIpv4.Valid, UdpOverIpv4.IsFragment]
    decide

/-- **A valid datagram is rejected and a fragment is accepted.** The first has no checksum, which
RFC 768 allows. The second says that more fragments follow. -/
theorem zero_checksum_rejected :
    (IsValidDatagram udpgwConfig.udpMtu (oneByte ⟨0, 0⟩ ⟨102, 206⟩ ⟨0, 0⟩).alone ∧
      parseDeviceUdpPacket udpgwConfig (oneByte ⟨0, 0⟩ ⟨102, 206⟩ ⟨0, 0⟩).alone
        (oneByte ⟨0, 0⟩ ⟨102, 206⟩ ⟨0, 0⟩).alone.length = none) ∧
    (oneByte ⟨32, 0⟩ ⟨70, 206⟩ ⟨234, 84⟩).IsFragment ∧
      (parseDeviceUdpPacket udpgwConfig (oneByte ⟨32, 0⟩ ⟨70, 206⟩ ⟨234, 84⟩).alone
        (oneByte ⟨32, 0⟩ ⟨70, 206⟩ ⟨234, 84⟩).alone.length).isSome = true := by
  have hstarts := oneByte_starts ⟨0, 0⟩ ⟨102, 206⟩ ⟨0, 0⟩ (by rw [Ipv4Header.ChecksumOk]; decide)
  refine ⟨⟨⟨.ipv4 _, hstarts, ⟨?_, .inl rfl⟩, by decide⟩, by decide⟩, ?_, by decide⟩
  · rw [UdpOverIpv4.IsFragment]
    decide
  · rw [UdpOverIpv4.IsFragment]
    decide

end Tun2Socks.Dns
