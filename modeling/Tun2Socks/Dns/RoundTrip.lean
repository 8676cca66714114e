import Tun2Socks.Dns.Recognition
import Tun2Socks.Run.Model

/-!
# Packets to the device

`udp_send_packet_to_device` wraps a payload that came from udpgw, or from the DNS relay, into a
UDP datagram from the remote to the local address and writes it to the device. What it writes is
what `process_device_udp_packet` would read: the two halves meet at `UdpPacket.Starts`, which the
written packet has by construction (`starts_udpIpv4Packet`, `starts_udpIpv6Packet`) and from which
the parser accepts it.

The function asserts first that a udpgw server is configured. The DNS relay calls it too, and
`runTun2Socks` configures the relay without such a server, so the assertion fails there
(`udpSendPacketToDevice_dns_only`), and only there (`udpSendPacketToDevice_round_trip_iff`).

The payload is dropped if it does not fit. The limit that the parser has for payloads, `udp_mtu`,
is computed by `run` from the MTU of the device, and everything that fits on the way out is below
it.
-/

namespace Tun2Socks.Dns

open Framework Net

/-! ### The code -/

variable (o : ByteOrder)

/-- The IPv4 header of a datagram, with its checksum. -/
def buildIpv4Header (source dest : Buffer Byte 4) (dataLen : ℕ) : Ipv4Header :=
  let iph : Ipv4Header := {
    version4Ihl4 := 69
    ds := 0
    totalLength := hton16 o (Word16.ofNat o (20 + 8 + dataLen))
    identification := ⟨0, 0⟩
    flags3Fragmentoffset13 := ⟨0, 0⟩
    ttl := 64
    protocol := 17
    checksum := ⟨0, 0⟩
    sourceAddress := source
    destinationAddress := dest }
  { iph with checksum := ipv4Checksum o iph [] }

/-- The IPv6 header of a datagram. -/
def buildIpv6Header (source dest : Buffer Byte 16) (dataLen : ℕ) : Ipv6Header where
  version4Tc4 := 96
  tc4Fl4 := 0
  fl := ⟨0, 0⟩
  payloadLength := hton16 o (Word16.ofNat o (8 + dataLen))
  nextHeader := 17
  hopLimit := 64
  sourceAddress := source
  destinationAddress := dest

/-- The UDP header, before the checksum is put into it. -/
def buildUdpHeader (sourcePort destPort : Word16) (dataLen : ℕ) : UdpHeader where
  sourcePort
  destPort
  length := hton16 o (Word16.ofNat o (8 + dataLen))
  checksum := ⟨0, 0⟩

/-- The parts of the IPv4 packet. -/
def udpIpv4Packet (localIp remoteIp : Buffer Byte 4) (localPort remotePort : Word16)
    (data : List Byte) : UdpOverIpv4 :=
  let iph := buildIpv4Header o remoteIp localIp data.length
  let udph := buildUdpHeader o remotePort localPort data.length
  { ip := iph
    options := []
    udp := { udph with
      checksum := udpChecksum o udph data data.length iph.sourceAddress iph.destinationAddress }
    payload := data }

/-- The parts of the IPv6 packet. -/
def udpIpv6Packet (localIp remoteIp : Buffer Byte 16) (localPort remotePort : Word16)
    (data : List Byte) : UdpOverIpv6 :=
  let iph := buildIpv6Header o remoteIp localIp data.length
  let udph := buildUdpHeader o remotePort localPort data.length
  { ip := iph
    udp := { udph with
      checksum := udpIp6Checksum o udph data data.length iph.sourceAddress iph.destinationAddress }
    payload := data }

/-- An `ASSERT` of `udp_send_packet_to_device` fails. -/
inductive SendFault
  | assert
  deriving DecidableEq, Repr

/-- `udp_send_packet_to_device`: the packet that goes to `BTap_Send`, unless it is dropped. -/
def udpSendPacketToDevice (options : Run.Options) (mtu : ℤ) (localAddr remoteAddr : BAddr)
    (data : List Byte) : Except SendFault (Option (List Byte)) :=
  if options.udpgwRemoteServerAddr = false then .error .assert
  else match localAddr, remoteAddr with
  | .ipv4 localIp localPort, .ipv4 remoteIp remotePort =>
    if data.length > 65535 - (20 + 8) ∨ (data.length : ℤ) > mtu - (20 + 8) then .ok none
    else
      let packet := udpIpv4Packet o localIp remoteIp localPort remotePort data
      .ok (some (packet.ip.bytes ++ (packet.udp.bytes ++ packet.payload)))
  | .ipv6 localIp localPort, .ipv6 remoteIp remotePort =>
    if options.netifIp6addr = false then .ok none
    else if data.length > 65535 - 8 ∨ (data.length : ℤ) > mtu - (40 + 8) then .ok none
    else
      let packet := udpIpv6Packet o localIp remoteIp localPort remotePort data
      .ok (some (packet.ip.bytes ++ (packet.udp.bytes ++ packet.payload)))
  | _, _ => .error .assert -- the types differ, or an address has none

/-! ### What is written -/

variable {o}

variable {data : List Byte}

/-- **An IPv4 packet that is written is a datagram** with everything the parser asks for. -/
theorem starts_udpIpv4Packet (localIp remoteIp : Buffer Byte 4) (localPort remotePort : Word16)
    (hlen : 28 + data.length ≤ 65535) :
    let d := udpIpv4Packet o localIp remoteIp localPort remotePort data
    d.Starts (d.ip.bytes ++ (d.udp.bytes ++ d.payload)) ∧ d.checksum = 65535 - d.sum := by
  intro d
  have htotal : d.ip.totalLength.toNat .big = 28 + data.length :=
    toNat_hton16_ofNat o (by omega)
  have hudp : d.udp.length.toNat .big = 8 + data.length := toNat_hton16_ofNat o (by omega)
  have hoptions : d.options.length = 0 := rfl
  have hpayload : d.payload.length = data.length := rfl
  refine ⟨⟨List.prefix_rfl, ?_, ?_, ?_, ?_, rfl, hudp, by omega⟩, ?_⟩
  · change (69 : Byte).toNat / 16 = 4
    decide
  · change 4 * ((69 : Byte).toNat % 16) = 20
    decide
  · rw [htotal]
    simp only [List.length_append, length_bytes_ipv4Header, length_bytes_udpHeader]
    omega
  · exact ipv4Checksum_toNat o _ (Nat.zero_mod 2) (Nat.zero_le _)
  · have hbound : data.length ≤ 65527 := by omega
    have hchecksum := udpChecksum_toNat o (buildUdpHeader o remotePort localPort data.length) data
      hbound remoteIp localIp
    rw [cells_bytesAt_length] at hchecksum
    exact hchecksum

/-- **An IPv6 packet that is written is a datagram** with everything the parser asks for. -/
theorem starts_udpIpv6Packet (localIp remoteIp : Buffer Byte 16) (localPort remotePort : Word16)
    (hlen : 8 + data.length ≤ 65535) :
    let d := udpIpv6Packet o localIp remoteIp localPort remotePort data
    d.Starts (d.ip.bytes ++ (d.udp.bytes ++ d.payload)) ∧ d.checksum = 65535 - d.sum := by
  intro d
  have hip : d.ip.payloadLength.toNat .big = 8 + data.length := toNat_hton16_ofNat o (by omega)
  have hudp : d.udp.length.toNat .big = 8 + data.length := toNat_hton16_ofNat o (by omega)
  have hpayload : d.payload.length = data.length := rfl
  refine ⟨⟨List.prefix_rfl, ?_, ?_, rfl, hudp, by omega⟩, ?_⟩
  · change (96 : Byte).toNat / 16 = 6
    decide
  · simp only [List.length_append, Ipv6Header.length_bytes, length_bytes_udpHeader]
    omega
  · have hbound : data.length ≤ 65527 := by omega
    have hchecksum := udpIp6Checksum_toNat o (buildUdpHeader o remotePort localPort data.length)
      data hbound remoteIp localIp
    rw [cells_bytesAt_length] at hchecksum
    exact hchecksum

/-! ### The round trip -/

/-- Two addresses of IPv4, or of IPv6 if it is enabled. -/
def SameFamily (netifIp6addr : Bool) : BAddr → BAddr → Prop
  | .ipv4 _ _, .ipv4 _ _ => True
  | .ipv6 _ _, .ipv6 _ _ => netifIp6addr = true
  | _, _ => False

/-- The packet fits into the MTU, and its lengths into the 16-bit fields of the headers. -/
def Fits (mtu : ℤ) (localAddr : BAddr) (data : List Byte) : Prop :=
  match localAddr with
  | .ipv4 _ _ => (20 + 8 + data.length : ℤ) ≤ mtu ∧ 20 + 8 + data.length < 65536
  | .ipv6 _ _ => (40 + 8 + data.length : ℤ) ≤ mtu ∧ 8 + data.length < 65536
  | .none => False

/-- The packet comes back from the parser with the addresses exchanged. -/
def ReadBack (config : Config) (localAddr remoteAddr : BAddr) (data packet : List Byte) : Prop :=
  ∀ memory, ∃ datagram,
    parseDeviceUdpPacket config (packet ++ memory) packet.length = some datagram ∧
      datagram.localAddr = remoteAddr ∧ datagram.remoteAddr = localAddr ∧
      (bytesAt datagram.dataLen datagram.data 0).cells = data

variable {config : Config}

theorem readBack_of_starts {packet : List Byte} (hforwards : config.Forwards)
    {d : UdpPacket} (hip6 : d.version = 6 → config.netifIp6addr = true) (h : d.Starts packet)
    (hchecksum : d.checksum = 65535 - d.sum) (hmtu : (d.payload.length : ℤ) ≤ config.udpMtu) :
    ReadBack config d.dest d.source d.payload packet := by
  intro memory
  obtain ⟨datagram, hparse, hparsed⟩ :=
    parseDeviceUdpPacket_of_starts memory hforwards hip6 h hchecksum hmtu
  refine ⟨datagram, hparse, hparsed.localAddr, hparsed.remoteAddr, ?_⟩
  obtain ⟨behind, hdata⟩ := hparsed.data
  rw [hparsed.dataLen, ← hdata, cells_bytesAt_append rfl]

/-- The limit of the parser is not below what fits over IPv4, nor over IPv6 if it is enabled. -/
theorem le_udpMtu (options : Run.Options) (outcomes : Run.Outcomes) :
    outcomes.deviceMtu - 28 ≤ Run.Process.udpMtu options outcomes ∧
      (options.netifIp6addr = true →
        outcomes.deviceMtu - 48 ≤ Run.Process.udpMtu options outcomes) := by
  rw [Run.Process.udpMtu]
  refine ⟨?_, fun hip6 => ?_⟩
  · split_ifs <;> omega
  · rw [if_pos hip6]
    omega

/-- What is asked of the outcome of `udp_send_packet_to_device`. -/
def SendsOrDrops (config : Config) (mtu : ℤ) (localAddr remoteAddr : BAddr) (data : List Byte)
    (result : Except SendFault (Option (List Byte))) : Prop :=
  ∃ sent, result = .ok sent ∧ (sent = none ↔ ¬ Fits mtu localAddr data) ∧
    ∀ packet ∈ sent, (packet.length : ℤ) ≤ mtu ∧ ReadBack config localAddr remoteAddr data packet

variable {mtu : ℤ}

theorem SendsOrDrops.dropped {localAddr remoteAddr : BAddr}
    (h : ¬ Fits mtu localAddr data) :
    SendsOrDrops config mtu localAddr remoteAddr data (.ok none) :=
  ⟨none, rfl, iff_of_true rfl h, fun _ hpacket => nomatch hpacket⟩

theorem SendsOrDrops.sent {localAddr remoteAddr : BAddr}
    {data packet : List Byte} (h : Fits mtu localAddr data) (hlen : (packet.length : ℤ) ≤ mtu)
    (hback : ReadBack config localAddr remoteAddr data packet) :
    SendsOrDrops config mtu localAddr remoteAddr data (.ok (some packet)) := by
  refine ⟨_, rfl, iff_of_false nofun (not_not.mpr h), ?_⟩
  intro packet' hpacket
  obtain rfl := Option.some_inj.mp hpacket
  exact ⟨hlen, hback⟩

variable {options : Run.Options}

theorem sendsOrDrops_ipv4 (hforwards : config.Forwards)
    (hudpgw : options.udpgwRemoteServerAddr = true) (hmtu : mtu - 28 ≤ config.udpMtu)
    (localIp remoteIp : Buffer Byte 4) (localPort remotePort : Word16) (data : List Byte) :
    SendsOrDrops config mtu (.ipv4 localIp localPort) (.ipv4 remoteIp remotePort) data
      (udpSendPacketToDevice config.order options mtu (.ipv4 localIp localPort)
        (.ipv4 remoteIp remotePort) data) := by
  rw [udpSendPacketToDevice, hudpgw, if_neg Bool.true_eq_false_eq_False]
  split_ifs with hlarge
  · refine SendsOrDrops.dropped ?_
    rw [Fits]
    omega
  · obtain ⟨hstarts, hchecksum⟩ := starts_udpIpv4Packet (o := config.order) localIp remoteIp
      localPort remotePort (show 28 + data.length ≤ 65535 by omega)
    refine SendsOrDrops.sent ?_ ?_ (readBack_of_starts hforwards (d := .ipv4 _) nofun hstarts
      hchecksum ?_)
    · rw [Fits]
      omega
    · simp only [List.length_append, length_bytes_ipv4Header, length_bytes_udpHeader]
      change ((20 + (8 + data.length) : ℕ) : ℤ) ≤ mtu
      omega
    · change (data.length : ℤ) ≤ config.udpMtu
      omega

theorem sendsOrDrops_ipv6 (hforwards : config.Forwards)
    (hudpgw : options.udpgwRemoteServerAddr = true) (hon : options.netifIp6addr = true)
    (hip6 : config.netifIp6addr = true) (hmtu : mtu - 48 ≤ config.udpMtu)
    (localIp remoteIp : Buffer Byte 16) (localPort remotePort : Word16) (data : List Byte) :
    SendsOrDrops config mtu (.ipv6 localIp localPort) (.ipv6 remoteIp remotePort) data
      (udpSendPacketToDevice config.order options mtu (.ipv6 localIp localPort)
        (.ipv6 remoteIp remotePort) data) := by
  rw [udpSendPacketToDevice, hudpgw, hon, if_neg Bool.true_eq_false_eq_False,
    if_neg Bool.true_eq_false_eq_False]
  split_ifs with hlarge
  · refine SendsOrDrops.dropped ?_
    rw [Fits]
    omega
  · obtain ⟨hstarts, hchecksum⟩ := starts_udpIpv6Packet (o := config.order) localIp remoteIp
      localPort remotePort (show 8 + data.length ≤ 65535 by omega)
    refine SendsOrDrops.sent ?_ ?_ (readBack_of_starts hforwards (d := .ipv6 _) (fun _ => hip6)
      hstarts hchecksum ?_)
    · rw [Fits]
      omega
    · simp only [List.length_append, Ipv6Header.length_bytes, length_bytes_udpHeader]
      change ((40 + (8 + data.length) : ℕ) : ℤ) ≤ mtu
      omega
    · change (data.length : ℤ) ≤ config.udpMtu
      omega

/-- **What is written to the device would be read from it**, exactly if a udpgw server is
configured. For every MTU of the device, all addresses of one family and every payload: then the
payload is dropped exactly if it does not fit, and otherwise the packet is not longer than the MTU,
and the parser accepts it with the addresses and the payload that were sent. -/
theorem udpSendPacketToDevice_round_trip_iff (config : Config) (options : Run.Options)
    (outcomes : Run.Outcomes)
    (hudpgw : config.udpgwRemoteServerAddr = options.udpgwRemoteServerAddr)
    (hip6 : config.netifIp6addr = options.netifIp6addr)
    (hmtu : config.udpMtu = Run.Process.udpMtu options outcomes) (localAddr remoteAddr : BAddr)
    (hfamily : SameFamily options.netifIp6addr localAddr remoteAddr) (data : List Byte) :
    SendsOrDrops config outcomes.deviceMtu localAddr remoteAddr data
      (udpSendPacketToDevice config.order options outcomes.deviceMtu localAddr remoteAddr data) ↔
      options.udpgwRemoteServerAddr = true := by
  constructor
  · rintro ⟨sent, hsent, -⟩
    by_contra hnone
    unfold udpSendPacketToDevice at hsent
    rw [if_pos (Bool.eq_false_of_not_eq_true hnone)] at hsent
    cases hsent
  intro hset
  have hforwards : config.Forwards := .inl (hudpgw.trans hset)
  obtain ⟨hfour, hsix⟩ := le_udpMtu options outcomes
  rw [← hmtu] at hfour hsix
  match localAddr, remoteAddr, hfamily with
  | .ipv4 localIp localPort, .ipv4 remoteIp remotePort, _ =>
    exact sendsOrDrops_ipv4 hforwards hset hfour localIp remoteIp localPort remotePort data
  | .ipv6 localIp localPort, .ipv6 remoteIp remotePort, hon =>
    have hon : options.netifIp6addr = true := hon
    exact sendsOrDrops_ipv6 hforwards hset hon (hip6.trans hon) (hsix hon) localIp remoteIp
      localPort remotePort data

/-- Forwarding to udpgw, with IPv6. -/
def udpgwOptions : Run.Options := ⟨false, false, true, true, 0, false⟩

/-- Everything succeeds, and the MTU of the device is 1500. -/
def mtu1500 : Run.Outcomes :=
  ⟨true, true, true, true, true, true, true, true, 1500, true, true, true, true, some 3, true, true,
    true⟩

/-- A byte from 10.0.0.2 to 10.0.0.1 goes out, and is read back. -/
theorem udpSendPacketToDevice_one_byte :
    ∃ packet, udpSendPacketToDevice .little udpgwOptions 1500
        (.ipv4 Net.exampleSource ⟨0, 53⟩) (.ipv4 exampleDest ⟨0, 80⟩) [1] = .ok (some packet) ∧
      ReadBack udpgwConfig (.ipv4 Net.exampleSource ⟨0, 53⟩) (.ipv4 exampleDest ⟨0, 80⟩) [1]
        packet := by
  obtain ⟨sent, hsent, hdropped, hpacket⟩ := (udpSendPacketToDevice_round_trip_iff udpgwConfig
    udpgwOptions mtu1500 rfl rfl (by decide) (.ipv4 Net.exampleSource ⟨0, 53⟩)
    (.ipv4 exampleDest ⟨0, 80⟩) trivial [1]).mpr rfl
  have hfits : Fits mtu1500.deviceMtu (.ipv4 Net.exampleSource ⟨0, 53⟩) [1] := by
    rw [Fits]
    decide
  obtain ⟨packet, rfl⟩ := Option.ne_none_iff_exists'.mp fun h => hdropped.mp h hfits
  exact ⟨packet, hsent, (hpacket packet rfl).2⟩

/-- **No udpgw server is configured**, as `runTun2Socks` has it. The relay passes a reply of one
byte on, and the assertion fails. -/
theorem udpSendPacketToDevice_dns_only :
    SameFamily false (.ipv4 Net.exampleSource ⟨0, 53⟩) (.ipv4 exampleDest ⟨0, 80⟩) ∧
      Fits 1500 (.ipv4 Net.exampleSource ⟨0, 53⟩) [1] ∧
      udpSendPacketToDevice .little { udpgwOptions with udpgwRemoteServerAddr := false } 1500
        (.ipv4 Net.exampleSource ⟨0, 53⟩) (.ipv4 exampleDest ⟨0, 80⟩) [1] = .error .assert := by
  refine ⟨trivial, ?_, rfl⟩
  rw [Fits]
  decide

end Tun2Socks.Dns
