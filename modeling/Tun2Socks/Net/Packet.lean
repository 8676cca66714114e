import Tun2Socks.Net.ByteOrder

/-!
# IP and UDP headers

`ipv4_proto.h`, `ipv6_proto.h` and `udp_proto.h`: the three headers, the checksums and the
three checks, each of which reads a header from memory and returns it with the payload it
announces.

* A packet is memory and a length. The memory may go on behind the packet, with what earlier
  packets left there.
* The fields of the headers are kept as they lie in memory.
* The sums of the checksums are kept in 32 bits, and the carries are folded by the loop
  `foldCarries`. Each round makes the sum smaller, so as many rounds as the sum are enough.

All lengths are non-negative and below `2 ^ 31`, so the conversions between `int`, `uint16_t`
and `size_t` in the comparisons do not change them, and they are natural numbers here.
-/

namespace Tun2Socks.Net

open Framework

/-! ### Headers -/

/-- `struct ipv4_header`. -/
structure Ipv4Header where
  version4Ihl4 : Byte
  ds : Byte
  totalLength : Word16
  identification : Word16
  flags3Fragmentoffset13 : Word16
  ttl : Byte
  protocol : Byte
  checksum : Word16
  sourceAddress : Buffer Byte 4
  destinationAddress : Buffer Byte 4
  deriving DecidableEq

namespace Ipv4Header

def read (data : List Byte) : Ipv4Header where
  version4Ihl4 := byteAt data 0
  ds := byteAt data 1
  totalLength := word16At data 2
  identification := word16At data 4
  flags3Fragmentoffset13 := word16At data 6
  ttl := byteAt data 8
  protocol := byteAt data 9
  checksum := word16At data 10
  sourceAddress := bytesAt 4 data 12
  destinationAddress := bytesAt 4 data 16

/-- The header in memory. -/
def bytes (h : Ipv4Header) : List Byte :=
  [h.version4Ihl4, h.ds] ++ h.totalLength.bytes ++ h.identification.bytes ++
    h.flags3Fragmentoffset13.bytes ++ [h.ttl, h.protocol] ++ h.checksum.bytes ++
    h.sourceAddress.cells ++ h.destinationAddress.cells

/-- `IPV4_GET_VERSION`. -/
def version (h : Ipv4Header) : ℕ := h.version4Ihl4.toNat / 16

/-- `IPV4_GET_IHL`. -/
def ihl (h : Ipv4Header) : ℕ := h.version4Ihl4.toNat % 16

end Ipv4Header

/-- `struct ipv6_header`. -/
structure Ipv6Header where
  version4Tc4 : Byte
  tc4Fl4 : Byte
  fl : Word16
  payloadLength : Word16
  nextHeader : Byte
  hopLimit : Byte
  sourceAddress : Buffer Byte 16
  destinationAddress : Buffer Byte 16
  deriving DecidableEq

namespace Ipv6Header

def read (data : List Byte) : Ipv6Header where
  version4Tc4 := byteAt data 0
  tc4Fl4 := byteAt data 1
  fl := word16At data 2
  payloadLength := word16At data 4
  nextHeader := byteAt data 6
  hopLimit := byteAt data 7
  sourceAddress := bytesAt 16 data 8
  destinationAddress := bytesAt 16 data 24

/-- The header in memory. -/
def bytes (h : Ipv6Header) : List Byte :=
  [h.version4Tc4, h.tc4Fl4] ++ h.fl.bytes ++ h.payloadLength.bytes ++ [h.nextHeader, h.hopLimit] ++
    h.sourceAddress.cells ++ h.destinationAddress.cells

end Ipv6Header

/-- `struct udp_header`. -/
structure UdpHeader where
  sourcePort : Word16
  destPort : Word16
  length : Word16
  checksum : Word16
  deriving DecidableEq

namespace UdpHeader

def read (data : List Byte) : UdpHeader where
  sourcePort := word16At data 0
  destPort := word16At data 2
  length := word16At data 4
  checksum := word16At data 6

/-- The header in memory. -/
def bytes (h : UdpHeader) : List Byte :=
  h.sourcePort.bytes ++ h.destPort.bytes ++ h.length.bytes ++ h.checksum.bytes

end UdpHeader

/-! ### Checksums -/

/-- `t += x` in a `uint32_t`. -/
def add32 (t x : ℕ) : ℕ := (t + x) % 4294967296

/-- `udp_checksum_summer`, over memory of even length. -/
def udpChecksumSummer (bytes : List Byte) : ℕ := (readBe16s bytes).foldl add32 0

/-- The loop `while (t >> 16)`, for `fuel` rounds at most. -/
def foldCarriesFor : ℕ → ℕ → ℕ
  | 0, t => t
  | fuel + 1, t =>
    if t / 65536 = 0 then t else foldCarriesFor fuel (add32 (t % 65536) (t / 65536))

/-- The loop that adds the carries to the sum until there are none. -/
def foldCarries (t : ℕ) : ℕ := foldCarriesFor t t

/-- `hton16(~t)`. -/
def complement (o : ByteOrder) (t : ℕ) : Word16 :=
  hton16 o (Word16.ofNat o ((4294967295 - t) % 65536))

/-- `ipv4_checksum`. -/
def ipv4Checksum (o : ByteOrder) (header : Ipv4Header) (extra : List Byte) : Word16 :=
  let t := (readBe16s header.bytes).foldl add32 0
  let t := (readBe16s extra).foldl add32 t
  complement o (foldCarries t)

/-- The payload of a UDP checksum, with a zero behind it if its length is odd. -/
def payloadSum (o : ByteOrder) (payload : List Byte) (payloadLen : ℕ) : ℕ :=
  if payloadLen % 2 = 0 then udpChecksumSummer (bytesAt payloadLen payload 0).cells
  else
    let x := hton16 o (Word16.ofNat o (256 * (byteAt payload (payloadLen - 1)).toNat))
    add32 (udpChecksumSummer (bytesAt (payloadLen - 1) payload 0).cells)
      (udpChecksumSummer x.bytes)

/-- The end of the two UDP checksums: the carries, and all ones for zero. -/
def udpChecksumEnd (o : ByteOrder) (t : ℕ) : Word16 :=
  let t := foldCarries t
  complement o (if t = 0 then 65535 else t)

/-- `udp_checksum`. -/
def udpChecksum (o : ByteOrder) (header : UdpHeader) (payload : List Byte) (payloadLen : ℕ)
    (sourceAddr destAddr : Buffer Byte 4) : Word16 :=
  let t := add32 0 (udpChecksumSummer sourceAddr.cells)
  let t := add32 t (udpChecksumSummer destAddr.cells)
  let t := add32 t (udpChecksumSummer (hton16 o (Word16.ofNat o 17)).bytes)
  let t := add32 t (udpChecksumSummer (hton16 o (Word16.ofNat o (8 + payloadLen))).bytes)
  let t := add32 t (udpChecksumSummer header.bytes)
  udpChecksumEnd o (add32 t (payloadSum o payload payloadLen))

/-- `udp_ip6_checksum`. -/
def udpIp6Checksum (o : ByteOrder) (header : UdpHeader) (payload : List Byte) (payloadLen : ℕ)
    (sourceAddr destAddr : Buffer Byte 16) : Word16 :=
  let t := add32 0 (udpChecksumSummer sourceAddr.cells)
  let t := add32 t (udpChecksumSummer destAddr.cells)
  let t := add32 t (udpChecksumSummer (hton32 o (Word32.ofNat o (8 + payloadLen))).bytes)
  let t := add32 t (udpChecksumSummer (hton32 o (Word32.ofNat o 17)).bytes)
  let t := add32 t (udpChecksumSummer header.bytes)
  udpChecksumEnd o (add32 t (payloadSum o payload payloadLen))

/-! ### Checks -/

/-- `ipv4_check`: the header, and the memory and the length of the payload. -/
def ipv4Check (o : ByteOrder) (data : List Byte) (dataLen : ℕ) :
    Option (Ipv4Header × List Byte × ℕ) :=
  if dataLen < 20 then none
  else
    let header := Ipv4Header.read data
    let headerLen := header.ihl * 4
    let totalLength := (ntoh16 o header.totalLength).toNat o
    if header.version ≠ 4 then none
    else if headerLen < 20 then none
    else if dataLen < headerLen then none
    else if totalLength < headerLen then none
    else if dataLen < totalLength then none
    else if header.checksum ≠ ipv4Checksum o { header with checksum := ⟨0, 0⟩ }
        (bytesAt (headerLen - 20) data 20).cells then none
    else some (header, data.drop headerLen, totalLength - headerLen)

/-- `ipv6_check`. -/
def ipv6Check (o : ByteOrder) (data : List Byte) (dataLen : ℕ) :
    Option (Ipv6Header × List Byte × ℕ) :=
  if dataLen < 40 then none
  else
    let header := Ipv6Header.read data
    let payloadLength := (ntoh16 o header.payloadLength).toNat o
    if header.version4Tc4.toNat / 16 ≠ 6 then none
    else if dataLen - 40 < payloadLength then none
    else some (header, data.drop 40, payloadLength)

/-- `udp_check`. Data behind the payload is ignored. -/
def udpCheck (o : ByteOrder) (data : List Byte) (dataLen : ℕ) :
    Option (UdpHeader × List Byte × ℕ) :=
  if dataLen < 8 then none
  else
    let header := UdpHeader.read data
    let udpLength := (ntoh16 o header.length).toNat o
    if udpLength < 8 then none
    else if 8 + (dataLen - 8) < udpLength then none
    else some (header, data.drop 8, udpLength - 8)

end Tun2Socks.Net
