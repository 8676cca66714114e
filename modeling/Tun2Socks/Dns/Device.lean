import Tun2Socks.Net.BAddr
import Tun2Socks.Net.Packet
import Tun2Socks.Structure.StringMap

/-!
# UDP packets from the device, and DNS replies to it

`process_device_udp_packet` and `udp_fd_handler` of `tun2socks.c`. A UDP packet that is read
from the tun device either is a DNS query, to port 53 of the configured resolver, and goes to
the UDP relay behind a SOCKS UDP header, or it goes to udpgw. What comes back from the relay is
sent to the address that is stored in a map under the id of the DNS message.

The state is that map and what the functions have done: the datagrams sent to the relay, the
packets submitted to udpgw and the calls of `udp_send_packet_to_device`. What the functions
depend on besides, the outcome of `send` and of `malloc`, is an argument.

`parseDeviceUdpPacket` is the first part of `process_device_udp_packet`, up to the check of the
payload length.
-/

namespace Tun2Socks.Dns

open Framework Net Structure

/-- The options and globals the two functions read. -/
structure Config where
  order : ByteOrder
  getAddrInfo : GetAddrInfo
  /-- `options.udpgw_remote_server_addr` is set. -/
  udpgwRemoteServerAddr : Bool
  /-- `options.dns_resolver_addr` is set. -/
  dnsResolverOption : Bool
  transparentDns : Bool
  /-- `options.netif_ip6addr` is set. -/
  netifIp6addr : Bool
  /-- The global `dns_resolver_addr`. -/
  dnsResolverAddr : BAddr
  udpMtu : ℤ

/-- A packet handed to `SocksUdpGwClient_SubmitPacket`. -/
structure Submission where
  localAddr : BAddr
  remoteAddr : BAddr
  isDns : Bool
  payload : List Byte
  deriving DecidableEq

/-- A call of `udp_send_packet_to_device`. -/
structure Delivery where
  localAddr : BAddr
  remoteAddr : BAddr
  payload : List Byte
  deriving DecidableEq

/-- The map of `udp_pcb`, and what was sent where. -/
structure State where
  map : StringMap
  sent : List (List Byte)
  submitted : List Submission
  delivered : List Delivery
  deriving DecidableEq

/-! ### Parsing -/

/-- What `process_device_udp_packet` knows of a packet once it is parsed; `data` is the memory
from the payload on. -/
structure Datagram where
  localAddr : BAddr
  remoteAddr : BAddr
  isDns : Bool
  data : List Byte
  dataLen : ℕ
  deriving DecidableEq

/-- `addr.ipv4.ip`, whatever the type of the address: the union puts it over the start of an
IPv6 address, and a global starts as zeros. -/
def ipv4Ip : BAddr → List Byte
  | .none => [0, 0, 0, 0]
  | .ipv4 ip _ => ip.cells
  | .ipv6 ip _ => ip.cells.take 4

variable (config : Config)

/-- `case 4`. -/
def parseIpv4 (data : List Byte) (dataLen : ℕ) : Option Datagram :=
  if dataLen < 20 ∨ byteAt data 9 ≠ 17 then none
  else
    (ipv4Check config.order data dataLen).bind fun (ipv4Header, data, dataLen) =>
      (udpCheck config.order data dataLen).bind fun (udpHeader, data, dataLen) =>
        if udpHeader.checksum ≠ udpChecksum config.order { udpHeader with checksum := ⟨0, 0⟩ }
            data dataLen ipv4Header.sourceAddress ipv4Header.destinationAddress then none
        else
          let isDns := config.transparentDns &&
            (ipv4Header.destinationAddress.cells == ipv4Ip config.dnsResolverAddr &&
              udpHeader.destPort == hton16 config.order (Word16.ofNat config.order 53))
          some {
            localAddr := .ipv4 ipv4Header.sourceAddress udpHeader.sourcePort
            remoteAddr := .ipv4 ipv4Header.destinationAddress udpHeader.destPort
            isDns, data, dataLen }

/-- `case 6`. -/
def parseIpv6 (data : List Byte) (dataLen : ℕ) : Option Datagram :=
  if config.netifIp6addr = false then none
  else if dataLen < 40 ∨ byteAt data 6 ≠ 17 then none
  else
    (ipv6Check config.order data dataLen).bind fun (ipv6Header, data, dataLen) =>
      (udpCheck config.order data dataLen).bind fun (udpHeader, data, dataLen) =>
        if udpHeader.checksum ≠ udpIp6Checksum config.order { udpHeader with checksum := ⟨0, 0⟩ }
            data dataLen ipv6Header.sourceAddress ipv6Header.destinationAddress then none
        else
          some {
            localAddr := .ipv6 ipv6Header.sourceAddress udpHeader.sourcePort
            remoteAddr := .ipv6 ipv6Header.destinationAddress udpHeader.destPort
            isDns := false
            data, dataLen }

/-- The first part of `process_device_udp_packet`, up to the check of the payload length. -/
def parseDeviceUdpPacket (data : List Byte) (dataLen : ℕ) : Option Datagram :=
  if config.udpgwRemoteServerAddr = false ∧ config.dnsResolverOption = false then none
  else
    let ipVersion := if 0 < dataLen then (byteAt data 0).toNat / 16 else 0
    let parsed :=
      if ipVersion = 4 then parseIpv4 config data dataLen
      else if ipVersion = 6 then parseIpv6 config data dataLen
      else none
    parsed.filter fun datagram => (datagram.dataLen : ℤ) ≤ config.udpMtu

/-- The packet is a DNS query for the relay. -/
def dnsQuery (data : List Byte) (dataLen : ℕ) : Option Datagram :=
  (parseDeviceUdpPacket config data dataLen).filter fun datagram =>
    config.transparentDns && datagram.isDns

/-! ### Forwarding -/

/-- What the environment does during a call. -/
structure Outcome where
  /-- The result of `send`, `none` for an error. -/
  send : Option ℕ
  mallocs : StringMap.Mallocs
  deriving DecidableEq, Repr

/-- `dns_get_header_id_str`: the id as the host reads it, in decimal. -/
def dnsGetHeaderIdStr (o : ByteOrder) (data : List Byte) : CString :=
  decimal ((word16At data 0).toNat o)

/-- `struct socks_udp_header` for an IPv4 destination. -/
def socksUdpHeader : BAddr → List Byte
  | .ipv4 ip port => [0, 0, 0, 1] ++ ip.cells ++ port.bytes
  | _ => []

/-- The datagram that carries a query to the relay. -/
def socksUdpRequest (datagram : Datagram) : List Byte :=
  socksUdpHeader datagram.remoteAddr ++ (bytesAt datagram.dataLen datagram.data 0).cells

/-- `udp_send`, which returns 0 for an error. -/
def udpSend (send : Option ℕ) (request : List Byte) (s : State) : ℕ × State :=
  match send with
  | none => (0, s)
  | some n => (n, { s with sent := s.sent ++ [request.take n] })

/-- The DNS branch of `process_device_udp_packet`. -/
def forwardDns (r : Outcome) (datagram : Datagram) (s : State) : Bool × State :=
  let (sentBytes, s) := udpSend r.send (socksUdpRequest datagram) s
  -- the length of the payload, not of the request
  if sentBytes < datagram.dataLen then (false, s)
  else
    let (ok, map) := s.map.bStringMapSet (dnsGetHeaderIdStr config.order datagram.data)
      (bAddrPrint config.order datagram.localAddr) r.mallocs
    (ok, { s with map })

def processDeviceUdpPacket (r : Outcome) (data : List Byte) (dataLen : ℕ) (s : State) :
    Bool × State :=
  match parseDeviceUdpPacket config data dataLen with
  | none => (false, s)
  | some datagram =>
    if config.transparentDns = true ∧ datagram.isDns = true then forwardDns config r datagram s
    else if config.udpgwRemoteServerAddr = true then
      (true, { s with submitted := s.submitted ++ [⟨datagram.localAddr, datagram.remoteAddr,
        datagram.isDns, (bytesAt datagram.dataLen datagram.data 0).cells⟩] })
    else (true, s)

/-! ### Replies -/

/-- `udp_fd_handler`, once `recv` has put a datagram into the buffer and returned
`datagramLen`. -/
def udpFdHandler (buffer : List Byte) (datagramLen : ℤ) (s : State) : State :=
  if datagramLen ≤ 0 then s
  else if datagramLen ≤ 10 then s
  else
    let udpData := buffer.drop 10
    let dnsIdStr := dnsGetHeaderIdStr config.order udpData
    match s.map.bStringMapGet dnsIdStr with
    | none => s
    | some localAddrStr =>
      match bAddrParse config.order config.getAddrInfo localAddrStr with
      | none => { s with map := s.map.bStringMapUnset dnsIdStr }
      | some localAddr => { s with
          map := s.map.bStringMapUnset dnsIdStr
          delivered := s.delivered ++ [⟨localAddr, config.dnsResolverAddr,
            (bytesAt (datagramLen.toNat - 10) udpData 0).cells⟩] }

/-! ### What the functions do to the map -/

section Effects

variable {config} {r : Outcome} {s : State}

variable {data : List Byte} {datagram : Datagram} {dataLen : ℕ}

theorem localAddr_of_parseIpv4
    (h : parseIpv4 config data dataLen = some datagram) :
    ∃ ip port, datagram.localAddr = .ipv4 ip port := by
  unfold parseIpv4 at h
  split_ifs at h
  obtain ⟨⟨ipv4Header, data, dataLen⟩, -, h⟩ := Option.bind_eq_some_iff.mp h
  obtain ⟨⟨udpHeader, data, dataLen⟩, -, h⟩ := Option.bind_eq_some_iff.mp h
  dsimp only at h
  split_ifs at h
  cases h
  exact ⟨_, _, rfl⟩

theorem isDns_of_parseIpv6
    (h : parseIpv6 config data dataLen = some datagram) : datagram.isDns = false := by
  unfold parseIpv6 at h
  split_ifs at h
  obtain ⟨⟨ipv6Header, data, dataLen⟩, -, h⟩ := Option.bind_eq_some_iff.mp h
  obtain ⟨⟨udpHeader, data, dataLen⟩, -, h⟩ := Option.bind_eq_some_iff.mp h
  dsimp only at h
  split_ifs at h
  cases h
  rfl

/-- Only IPv4 packets are taken for DNS queries. -/
theorem localAddr_of_isDns
    (h : parseDeviceUdpPacket config data dataLen = some datagram) (hdns : datagram.isDns = true) :
    ∃ ip port, datagram.localAddr = .ipv4 ip port := by
  unfold parseDeviceUdpPacket at h
  split_ifs at h with hnone
  obtain ⟨h, -⟩ := Option.filter_eq_some_iff.mp h
  split_ifs at h with hlen hfour
  · exact localAddr_of_parseIpv4 h
  · rw [isDns_of_parseIpv6 h] at hdns
    cases hdns
  all_goals contradiction

theorem udpSend_fst (send : Option ℕ) (request : List Byte) :
    (udpSend send request s).1 = send.getD 0 := by
  cases send <;> rfl

theorem map_udpSend (send : Option ℕ) (request : List Byte) :
    (udpSend send request s).2.map = s.map := by
  cases send <;> rfl

/-- The DNS branch stores the sender under the id of the query, once the query is sent and if
there is memory for it. -/
theorem get_forwardDns (datagram : Datagram) (h : r.mallocs.Succeed) (key : CString) :
    (forwardDns config r datagram s).2.map.bStringMapGet key =
      if datagram.dataLen ≤ r.send.getD 0 ∧ key = dnsGetHeaderIdStr config.order datagram.data then
        some (bAddrPrint config.order datagram.localAddr)
      else s.map.bStringMapGet key := by
  unfold forwardDns
  dsimp only
  rw [udpSend_fst]
  split_ifs with hsend hkey hkey
  · exact absurd hkey.1 (by omega)
  · rw [map_udpSend]
  · rw [map_udpSend, StringMap.get_set _ _ h, if_pos hkey.2]
  · rw [map_udpSend, StringMap.get_set _ _ h, if_neg fun heq => hkey ⟨by omega, heq⟩]

/-- Without memory the map stays as it is. -/
theorem map_forwardDns (datagram : Datagram) (h : ¬ r.mallocs.Succeed) :
    (forwardDns config r datagram s).2.map = s.map := by
  unfold forwardDns
  dsimp only
  split_ifs with hsend
  · exact map_udpSend _ _
  · rw [StringMap.set_of_not_succeed _ _ h]
    exact map_udpSend _ _

/-- A packet that is not a query leaves the map alone. -/
theorem map_process_of_dnsQuery_eq_none
    (h : dnsQuery config data dataLen = none) :
    (processDeviceUdpPacket config r data dataLen s).2.map = s.map := by
  unfold processDeviceUdpPacket
  cases hparse : parseDeviceUdpPacket config data dataLen with
  | none => rfl
  | some =>
    rw [dnsQuery, hparse, Option.filter_some_eq_none] at h
    dsimp only
    rw [if_neg (by simpa using h)]
    split_ifs <;> rfl

/-- A query is forwarded. -/
theorem process_of_dnsQuery
    (h : dnsQuery config data dataLen = some datagram) :
    processDeviceUdpPacket config r data dataLen s = forwardDns config r datagram s := by
  obtain ⟨hparse, hdns⟩ := Option.filter_eq_some_iff.mp h
  unfold processDeviceUdpPacket
  rw [hparse]
  dsimp only
  rw [if_pos (by simpa using hdns)]

end Effects

end Tun2Socks.Dns
