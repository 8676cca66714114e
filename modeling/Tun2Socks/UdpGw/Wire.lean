import Tun2Socks.Net.BAddr

/-!
# The udpgw messages

`udpgw_proto.h`, and what the two ends of a udpgw stream write and read: `connection_send` and
`recv_interface_handler_send` of `UdpGwClient.c`, and `client_recv_if_handler_send` and
`connection_send_to_client` of `udpgw.c`, as far as the bytes go.

A message is a header with flags and a connection id, an address of IPv4 or IPv6 and the payload.
Which address follows is said by a flag that the writer sets by itself. The client also sends
keepalives, which are a header alone.

* The header is in little-endian byte order, and the address is copied as it lies in memory.
* `connectionPacket` and `connectionToClientPacket` are the two writers, `clientRecvParse` and
  `recvParse` the two readers up to the point where they look for the connection. A reader that
  gives up says why.

The main result is `wire_format_agrees`: what one end writes is what the other end reads.
-/

namespace Tun2Socks.UdpGw

open Framework Net

/-! ### Sizes -/

/-- `SIZE_MAX`. -/
def sizeMax : ℕ := 4294967295

/-- `INT_MAX`. -/
def intMax : ℕ := 2147483647

/-- `PACKETPROTO_MAXPAYLOAD`. -/
def packetprotoMaxpayload : ℕ := 65535

/-- A size, or `none` once it has overflowed. -/
abbrev BSize := Option ℕ

def bsizeFromint (v : ℤ) : BSize := if v < 0 then none else some v.toNat

def bsizeAdd (s1 s2 : BSize) : BSize :=
  s1.bind fun v1 => s2.bind fun v2 => if sizeMax - v1 < v2 then none else some (v1 + v2)

def bsizeMax (s1 s2 : BSize) : BSize := s1.bind fun v1 => s2.map fun v2 => max v1 v2

def bsizeToint (s : BSize) : Option ℤ :=
  s.bind fun v => if intMax < v then none else some (v : ℤ)

/-- `sizeof(struct udpgw_header)`. -/
def headerSize : ℕ := 3

/-- `sizeof(struct udpgw_addr_ipv4)`. -/
def addrIpv4Size : ℕ := 6

/-- `sizeof(struct udpgw_addr_ipv6)`. -/
def addrIpv6Size : ℕ := 18

def udpgwComputeMtu (dgramMtu : ℤ) : ℤ :=
  let bs := bsizeAdd (some headerSize)
    (bsizeAdd (bsizeMax (some addrIpv4Size) (some addrIpv6Size)) (bsizeFromint dgramMtu))
  (bsizeToint bs).getD (-1)

/-- The MTU has room for the larger address, if there is one at all. -/
theorem udpgwComputeMtu_eq {dgramMtu : ℕ} (h : 0 ≤ udpgwComputeMtu dgramMtu) :
    udpgwComputeMtu dgramMtu = headerSize + addrIpv6Size + dgramMtu := by
  have hfrom : bsizeFromint dgramMtu = some dgramMtu := by
    rw [bsizeFromint, if_neg (by omega), Int.toNat_natCast]
  simp only [udpgwComputeMtu, bsizeMax, bsizeAdd, bsizeToint, hfrom, Option.bind_some,
    Option.map_some] at h ⊢
  split_ifs at h ⊢ with hadd
  · cases h
  · rw [Option.bind_some] at h ⊢
    split_ifs at h ⊢ with hsum
    · cases h
    · rw [Option.bind_some] at h ⊢
      split_ifs at h ⊢ with hint
      · cases h
      · rw [Option.getD_some]
        change (((3 + (max 6 18 + dgramMtu) : ℕ)) : ℤ) = ((3 + 18 : ℕ) : ℤ) + dgramMtu
        omega

/-- The MTU of the server. -/
def serverMtu (udpMtu : ℤ) : ℤ :=
  let udpgwMtu := udpgwComputeMtu udpMtu
  if udpgwMtu < 0 ∨ packetprotoMaxpayload < udpgwMtu then packetprotoMaxpayload else udpgwMtu

/-! ### Headers and addresses -/

/-- `UDPGW_CLIENT_FLAG_KEEPALIVE`. -/
def flagKeepalive : Byte := 1

/-- `UDPGW_CLIENT_FLAG_REBIND`. -/
def flagRebind : Byte := 2

/-- `UDPGW_CLIENT_FLAG_DNS`. -/
def flagDns : Byte := 4

/-- `UDPGW_CLIENT_FLAG_IPV6`. -/
def flagIpv6 : Byte := 8

def hasFlag (flags flag : Byte) : Bool := flags &&& flag ≠ 0

/-- `struct udpgw_header`, as it lies in memory. -/
structure UdpgwHeader where
  flags : Byte
  conid : Word16
  deriving DecidableEq

def UdpgwHeader.bytes (header : UdpgwHeader) : List Byte := header.flags :: header.conid.bytes

def UdpgwHeader.read (data : List Byte) : UdpgwHeader := ⟨byteAt data 0, word16At data 1⟩

/-- `struct udpgw_addr_ipv4` or `struct udpgw_addr_ipv6`. -/
def addrBytes : BAddr → List Byte
  | .none => []
  | .ipv4 ip port => ip.cells ++ port.bytes
  | .ipv6 ip port => ip.cells ++ port.bytes

def isIpv6 : BAddr → Bool
  | .ipv6 _ _ => true
  | _ => false

/-- The flag that the writers add. -/
def addrFlag (addr : BAddr) : Byte := if isIpv6 addr then flagIpv6 else 0

/-- The size of the address in a message. -/
def addrLen : BAddr → ℕ
  | .none => 0
  | .ipv4 _ _ => addrIpv4Size
  | .ipv6 _ _ => addrIpv6Size

theorem length_addrBytes (addr : BAddr) : (addrBytes addr).length = addrLen addr := by
  cases addr with
  | none => rfl
  | ipv4 ip port | ipv6 ip port =>
    rw [addrBytes, List.length_append, ip.length_eq]
    rfl

theorem addrLen_le (addr : BAddr) : addrLen addr ≤ addrIpv6Size := by
  cases addr with
  | none => exact Nat.zero_le _
  | ipv4 ip port => exact (by decide : addrIpv4Size ≤ addrIpv6Size)
  | ipv6 ip port => exact le_rfl

/-! ### Writing -/

variable (o : ByteOrder)

/-- The layout of a message of either side. -/
def packet (flags : Byte) (conid : Word16) (addr : BAddr) (data : List Byte) : List Byte :=
  UdpgwHeader.bytes ⟨flags ||| addrFlag addr, htol16 o conid⟩ ++ (addrBytes addr ++ data)

/-- What `connection_send` of the client writes. -/
def connectionPacket (conid : Word16) (remoteAddr : BAddr) (flags : Byte) (data : List Byte) :
    List Byte :=
  packet o flags conid remoteAddr data

/-- What `connection_send_to_client` of the server writes, unless it is too large. -/
def connectionToClientPacket (udpgwMtu : ℤ) (conid : Word16) (origAddr : BAddr) (flags : Byte)
    (data : List Byte) : Option (List Byte) :=
  if udpgwMtu - (headerSize + addrLen origAddr) < data.length then none
  else some (packet o flags conid origAddr data)

/-- The `udpgw` part of the keepalive packet. -/
def keepalivePacket : List Byte := UdpgwHeader.bytes ⟨flagKeepalive, ⟨0, 0⟩⟩

theorem length_packet (flags : Byte) (conid : Word16) (addr : BAddr) (data : List Byte) :
    (packet o flags conid addr data).length = headerSize + addrLen addr + data.length := by
  rw [packet, List.length_append, List.length_append, length_addrBytes, Nat.add_assoc]
  rfl

/-! ### Reading -/

/-- Why a message is dropped. -/
inductive ParseError
  | missingHeader
  | missingIpv6Address
  | missingIpv4Address
  | tooMuchData
  deriving DecidableEq, Repr

/-- The address, and what follows it. -/
def parseAddr (flags : Byte) (data : List Byte) : Except ParseError (BAddr × List Byte) :=
  if hasFlag flags flagIpv6 then
    if data.length < addrIpv6Size then .error .missingIpv6Address
    else .ok (.ipv6 (bytesAt 16 data 0) (word16At data 16), data.drop addrIpv6Size)
  else
    if data.length < addrIpv4Size then .error .missingIpv4Address
    else .ok (.ipv4 (bytesAt 4 data 0) (word16At data 4), data.drop addrIpv4Size)

/-- A message that carries a payload. -/
structure Parsed where
  flags : Byte
  conid : Word16
  addr : BAddr
  data : List Byte
  deriving DecidableEq

/-- The address and the payload that follow the header, for a reader that takes payloads of up to
`udpMtu` bytes. -/
def parseBody (udpMtu : ℕ) (header : UdpgwHeader) (data : List Byte) :
    Except ParseError Parsed := do
  let (addr, data) ← parseAddr header.flags data
  if udpMtu < data.length then throw .tooMuchData
  pure ⟨header.flags, ltoh16 o header.conid, addr, data⟩

/-- The first part of `recv_interface_handler_send` of the client. -/
def recvParse (udpMtu : ℕ) (data : List Byte) : Except ParseError Parsed :=
  if data.length < headerSize then .error .missingHeader
  else parseBody o udpMtu (UdpgwHeader.read data) (data.drop headerSize)

/-- The first part of `client_recv_if_handler_send` of the server: `none` is a keepalive. -/
def clientRecvParse (udpMtu : ℕ) (data : List Byte) : Except ParseError (Option Parsed) :=
  if data.length < headerSize then .error .missingHeader
  else if hasFlag (UdpgwHeader.read data).flags flagKeepalive then .ok none
  else some <$> parseBody o udpMtu (UdpgwHeader.read data) (data.drop headerSize)

/-! ### What is written is read -/

section RoundTrip

variable {o}

/-- The flags of a data message. -/
def dataFlags (rebind dns : Bool) : Byte :=
  (if rebind then flagRebind else 0) ||| if dns then flagDns else 0

/-- The address flag says which address it is, and no flag disturbs another. -/
theorem hasFlag_dataFlags (rebind dns : Bool) (addr : BAddr) :
    hasFlag (dataFlags rebind dns ||| addrFlag addr) flagIpv6 = isIpv6 addr ∧
    hasFlag (dataFlags rebind dns ||| addrFlag addr) flagKeepalive = false ∧
    hasFlag (dataFlags rebind dns ||| addrFlag addr) flagRebind = rebind ∧
    hasFlag (dataFlags rebind dns ||| addrFlag addr) flagDns = dns := by
  unfold addrFlag
  generalize isIpv6 addr = ipv6
  revert rebind dns ipv6
  decide

/-- An address in memory, with what follows it, is read back. -/
theorem read_addr {n : ℕ} (ip : Buffer Byte n) (port : Word16) (data : List Byte) :
    bytesAt n (ip.cells ++ port.bytes ++ data) 0 = ip ∧
    word16At (ip.cells ++ port.bytes ++ data) n = port ∧
    (ip.cells ++ port.bytes ++ data).drop (n + 2) = data := by
  refine ⟨?_, ?_, ?_⟩
  · rw [List.append_assoc]
    exact bytesAt_append ip _
  · have hport := word16At_append_right ip.cells (port.bytes ++ data)
    rw [ip.length_eq] at hport
    rw [List.append_assoc, hport]
    rfl
  · refine List.drop_left' ?_
    rw [List.length_append, ip.length_eq]
    rfl

theorem parseAddr_addrBytes {addr : BAddr} (haddr : addr ≠ .none) (rebind dns : Bool)
    (data : List Byte) :
    parseAddr (dataFlags rebind dns ||| addrFlag addr) (addrBytes addr ++ data)
      = .ok (addr, data) := by
  have hlen : ¬ (addrBytes addr ++ data).length < addrLen addr := by
    rw [List.length_append, length_addrBytes]
    omega
  unfold parseAddr
  rw [(hasFlag_dataFlags rebind dns addr).1]
  cases addr with
  | none => exact absurd rfl haddr
  | ipv4 ip port =>
    obtain ⟨hip, hport, hdata⟩ := read_addr ip port data
    have hipv6 : ¬ isIpv6 (.ipv4 ip port) = true := Bool.false_ne_true
    rw [if_neg hipv6]
    refine (if_neg hlen).trans ?_
    simp only [addrBytes, hip, hport]
    exact congrArg (fun rest => Except.ok (BAddr.ipv4 ip port, rest)) hdata
  | ipv6 ip port =>
    obtain ⟨hip, hport, hdata⟩ := read_addr ip port data
    have hipv6 : isIpv6 (.ipv6 ip port) = true := rfl
    rw [if_pos hipv6]
    refine (if_neg hlen).trans ?_
    simp only [addrBytes, hip, hport]
    exact congrArg (fun rest => Except.ok (BAddr.ipv6 ip port, rest)) hdata

variable {addr : BAddr} {data : List Byte} {udpMtu : ℕ}

theorem parseBody_packet (haddr : addr ≠ .none) (rebind dns : Bool) (conid : Word16) :
    parseBody o udpMtu (UdpgwHeader.read (packet o (dataFlags rebind dns) conid addr data))
      ((packet o (dataFlags rebind dns) conid addr data).drop headerSize)
      = if udpMtu < data.length then .error .tooMuchData
        else .ok ⟨dataFlags rebind dns ||| addrFlag addr, conid, addr, data⟩ := by
  -- the first three bytes are the header, whatever follows
  have hheader : UdpgwHeader.read (packet o (dataFlags rebind dns) conid addr data)
      = ⟨dataFlags rebind dns ||| addrFlag addr, htol16 o conid⟩ := rfl
  have hrest : (packet o (dataFlags rebind dns) conid addr data).drop headerSize
      = addrBytes addr ++ data := rfl
  rw [hheader, hrest, parseBody, parseAddr_addrBytes haddr]
  change (if udpMtu < data.length then _ else _) = _
  split_ifs with hdata
  · rfl
  · rw [ltoh16_htol16]
    rfl

theorem not_length_packet_lt (flags : Byte) (conid : Word16) :
    ¬ (packet o flags conid addr data).length < headerSize := by
  rw [length_packet]
  omega

/-- **The server reads what the client has written**, if it takes so many bytes. -/
theorem clientRecvParse_connectionPacket (haddr : addr ≠ .none) (rebind dns : Bool)
    (conid : Word16) :
    clientRecvParse o udpMtu (connectionPacket o conid addr (dataFlags rebind dns) data)
      = if udpMtu < data.length then .error .tooMuchData
        else .ok (some ⟨dataFlags rebind dns ||| addrFlag addr, conid, addr, data⟩) := by
  have hflags : hasFlag (UdpgwHeader.read (packet o (dataFlags rebind dns) conid addr data)).flags
      flagKeepalive = false := (hasFlag_dataFlags rebind dns addr).2.1
  rw [connectionPacket, clientRecvParse, if_neg (not_length_packet_lt _ _), hflags,
    if_neg Bool.false_ne_true, parseBody_packet haddr]
  split_ifs <;> rfl

/-- **The client reads what the server has written**, if it takes so many bytes. -/
theorem recvParse_packet (haddr : addr ≠ .none) (conid : Word16) :
    recvParse o udpMtu (packet o 0 conid addr data)
      = if udpMtu < data.length then .error .tooMuchData
        else .ok ⟨addrFlag addr, conid, addr, data⟩ := by
  have hzero : (0 : Byte) = dataFlags false false := by decide
  rw [recvParse, if_neg (not_length_packet_lt _ _), hzero, parseBody_packet haddr, ← hzero,
    UInt8.zero_or]

theorem parseAddr_ne_none {flags : Byte} {rest : List Byte}
    (h : parseAddr flags data = .ok (addr, rest)) : addr ≠ .none := by
  unfold parseAddr at h
  split_ifs at h <;> obtain ⟨rfl, -⟩ := Prod.mk.inj (Except.ok.inj h) <;> exact BAddr.noConfusion

/-- An address that is read is an address of IPv4 or IPv6. -/
theorem addr_ne_none_of_parse {message : List Byte} {parsed : Parsed}
    (h : clientRecvParse o udpMtu message = .ok (some parsed)) : parsed.addr ≠ .none := by
  unfold clientRecvParse at h
  split_ifs at h
  · cases Except.ok.inj h
  · unfold parseBody at h
    cases haddr : parseAddr (UdpgwHeader.read message).flags (message.drop headerSize) with rw [haddr] at h
    | ok r =>
      change some <$> (if udpMtu < r.2.length then _ else _) = _ at h
      split_ifs at h
      · cases h
      · obtain rfl := Option.some.inj (Except.ok.inj h)
        exact parseAddr_ne_none haddr
    | error => cases h

end RoundTrip

/-- **The two ends agree on the messages.** A data message of the client fits into the MTU that
`UdpGwClient_Init` has checked, and the server reads its flags, connection id, address and payload
from it. A message of the server is refused if it is too large, and otherwise fits, and the client
reads it. A keepalive is a keepalive for the server, and no message for the client. -/
theorem wire_format_agrees {addr : BAddr} (haddr : addr ≠ .none) (conid : Word16)
    (rebind dns : Bool) (udpMtu : ℕ) {data : List Byte} (hdata : data.length ≤ udpMtu) :
    (0 ≤ udpgwComputeMtu udpMtu → udpgwComputeMtu udpMtu ≤ packetprotoMaxpayload →
      ((connectionPacket o conid addr (dataFlags rebind dns) data).length : ℤ)
        ≤ udpgwComputeMtu udpMtu) ∧
    (∃ flags, clientRecvParse o udpMtu (connectionPacket o conid addr (dataFlags rebind dns) data)
        = .ok (some ⟨flags, conid, addr, data⟩) ∧
      hasFlag flags flagRebind = rebind ∧ hasFlag flags flagDns = dns) ∧
    (if serverMtu udpMtu < headerSize + addrLen addr + data.length then
      connectionToClientPacket o (serverMtu udpMtu) conid addr 0 data = none
    else
      ∃ message, connectionToClientPacket o (serverMtu udpMtu) conid addr 0 data = some message ∧
        (message.length : ℤ) ≤ serverMtu udpMtu ∧
        recvParse o udpMtu message = .ok ⟨addrFlag addr, conid, addr, data⟩) ∧
    clientRecvParse o udpMtu keepalivePacket = .ok none ∧
    ∀ parsed, recvParse o udpMtu keepalivePacket ≠ .ok parsed := by
  refine ⟨?_, ?_, ?_, rfl, ?_⟩
  · intro hnonneg _
    have haddrLen := addrLen_le addr
    rw [connectionPacket, length_packet, udpgwComputeMtu_eq hnonneg]
    push_cast
    omega
  · refine ⟨_, ?_, (hasFlag_dataFlags rebind dns addr).2.2⟩
    rw [clientRecvParse_connectionPacket haddr, if_neg (Nat.not_lt.mpr hdata)]
  · have hlength := length_packet o 0 conid addr data
    split_ifs with hlarge
    · rw [connectionToClientPacket, if_pos (by omega)]
    · refine ⟨packet o 0 conid addr data, ?_, ?_, ?_⟩
      · rw [connectionToClientPacket, if_neg (by omega)]
      · omega
      · rw [recvParse_packet haddr, if_neg (Nat.not_lt.mpr hdata)]
  · intro parsed hparsed
    cases hparsed

/-- A DNS query of no bytes from a new connection, and a reply of as many bytes as there may be. -/
theorem wire_format_agrees_dns :
    ((connectionPacket .little ⟨1, 0⟩ (.ipv4 (bytesAt 4 [8, 8, 8, 8] 0) ⟨0, 53⟩)
      (dataFlags true true) []).length : ℤ) ≤ udpgwComputeMtu 2 ∧
    ∃ message, connectionToClientPacket .little (serverMtu 2) ⟨1, 0⟩
        (.ipv6 (bytesAt 16 [] 0) ⟨0, 53⟩) 0 [1, 2] = some message ∧
      recvParse .little 2 message
        = .ok ⟨flagIpv6, ⟨1, 0⟩, .ipv6 (bytesAt 16 [] 0) ⟨0, 53⟩, [1, 2]⟩ := by
  have hipv4 : BAddr.ipv4 (bytesAt 4 [8, 8, 8, 8] 0) ⟨0, 53⟩ ≠ .none := BAddr.noConfusion
  have hipv6 : BAddr.ipv6 (bytesAt 16 [] 0) ⟨0, 53⟩ ≠ .none := BAddr.noConfusion
  have hempty : ([] : List Byte).length ≤ 2 := Nat.zero_le 2
  have hquery := wire_format_agrees .little hipv4 ⟨1, 0⟩ true true 2 hempty
  have hlength : ([1, 2] : List Byte).length ≤ 2 := le_rfl
  have hreply := wire_format_agrees .little hipv6 ⟨1, 0⟩ false false 2 hlength
  refine ⟨hquery.1 (by decide) (by decide), ?_⟩
  have hmessage := hreply.2.2.1
  rw [if_neg (by decide)] at hmessage
  obtain ⟨message, hsome, -, hparsed⟩ := hmessage
  exact ⟨message, hsome, hparsed⟩

end Tun2Socks.UdpGw
