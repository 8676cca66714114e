import Tun2Socks.Framework.OnesComplement
import Tun2Socks.Net.Packet

/-!
# What the checksums compute

The checksum of a datagram is the one's complement of the one's complement sum of its 16-bit words,
those of a pseudo header before it included, with a zero byte behind a payload of odd length. A UDP
checksum that comes out as `0` is sent as all ones, because `0` stands for no checksum
(`rfcUdpChecksum`).

* `ipv4Checksum_toNat`, `udpChecksum_toNat`, `udpIp6Checksum_toNat` — the functions compute the
  complement of the sum. The sums are kept in 32 bits, which they never fill, and the loop over the
  carries ends in the residue.
* `udpChecksum_eq_rfc_iff` — the special case is wrong: the functions replace the sum `0`, which
  never occurs because the pseudo header is not zero, by all ones and then complement it. The sum
  all ones has the complement `0`, and this is what they return for it.
-/

namespace Tun2Socks.Net

open Framework

/-! ### Words in memory -/

/-- A zero byte behind an odd number of bytes. -/
def padded (bytes : List Byte) : List Byte :=
  if bytes.length % 2 = 0 then bytes else bytes ++ [0]

/-- The one's complement sum of the 16-bit words of memory. -/
def onesComplementSum (bytes : List Byte) : ℕ := onesSum 65535 (readBe16s (padded bytes))

/-- The plain sum of the words of memory. -/
def wordSum (bytes : List Byte) : ℕ := (readBe16s bytes).sum

variable {o : ByteOrder}

theorem readBe16s_of_short {l : List Byte} (h : ∀ hi lo bytes, l = hi :: lo :: bytes → False) :
    readBe16s l = [] := by
  match l, h with
  | [], _ => rfl
  | [_], _ => rfl
  | hi :: lo :: bytes, h => exact (h hi lo bytes rfl).elim

theorem readBe16s_append {l : List Byte} (h : l.length % 2 = 0) (r : List Byte) :
    readBe16s (l ++ r) = readBe16s l ++ readBe16s r := by
  induction l using readBe16s.induct with
  | case1 hi lo bytes ih =>
    have hbytes : bytes.length % 2 = 0 := by
      simp only [List.length_cons] at h
      omega
    rw [List.cons_append, List.cons_append, readBe16s, readBe16s, ih hbytes, List.cons_append]
  | case2 l hshort =>
    match l, h, hshort with
    | [], _, _ => rfl
    | [b], h, _ => simp at h
    | hi :: lo :: bytes, _, hshort => exact (hshort hi lo bytes rfl).elim

theorem wordSum_append {l : List Byte} (h : l.length % 2 = 0) (r : List Byte) :
    wordSum (l ++ r) = wordSum l + wordSum r := by
  rw [wordSum, readBe16s_append h, List.sum_append]
  rfl

theorem readBe16s_le (bytes : List Byte) : ∀ k ∈ readBe16s bytes, k ≤ 65535 := by
  induction bytes using readBe16s.induct with
  | case1 hi lo bytes ih =>
    intro k hk
    rw [readBe16s] at hk
    obtain rfl | hk := List.mem_cons.mp hk
    · have hhi := hi.toNat_lt
      have hlo := lo.toNat_lt
      omega
    · exact ih k hk
  | case2 l hshort =>
    rw [readBe16s_of_short hshort]
    exact nofun

/-- Each word is at most all ones. -/
theorem wordSum_le (bytes : List Byte) : wordSum bytes ≤ 65535 * (bytes.length / 2) := by
  induction bytes using readBe16s.induct with
  | case1 hi lo bytes ih =>
    have hhi := hi.toNat_lt
    have hlo := lo.toNat_lt
    rw [wordSum] at ih ⊢
    rw [readBe16s, List.sum_cons, List.length_cons, List.length_cons]
    omega
  | case2 l hshort =>
    rw [wordSum, readBe16s_of_short hshort]
    exact Nat.zero_le _

theorem onesComplementSum_eq (bytes : List Byte) :
    onesComplementSum bytes = residue 65535 (wordSum (padded bytes)) :=
  onesSum_eq_residue (by decide) (readBe16s_le _)

/-! ### Sums in 32 bits -/

theorem add32_mod (t x : ℕ) : add32 (t % 4294967296) (x % 4294967296) = (t + x) % 4294967296 := by
  rw [add32, ← Nat.add_mod]

theorem foldl_add32 (words : List ℕ) (t : ℕ) :
    words.foldl add32 (t % 4294967296) = (t + words.sum) % 4294967296 := by
  induction words generalizing t with
  | nil => rfl
  | cons _ _ ih =>
    rw [List.foldl_cons, add32, Nat.mod_add_mod, ih, List.sum_cons, Nat.add_assoc]

theorem udpChecksumSummer_eq (bytes : List Byte) :
    udpChecksumSummer bytes = wordSum bytes % 4294967296 := by
  have hfold := foldl_add32 (readBe16s bytes) 0
  rwa [Nat.zero_add] at hfold

/-- **The loop over the carries** ends in the residue. -/
theorem foldCarries_eq {t : ℕ} (h : t < 4294967296) : foldCarries t = residue 65535 t := by
  have hrounds : ∀ fuel t, t ≤ fuel → t < 4294967296 →
      foldCarriesFor fuel t = residue 65535 t := by
    intro fuel
    induction fuel with
    | zero =>
      intro t hfuel _
      rw [foldCarriesFor, residue_of_le (by omega)]
    | succ _ ih =>
      intro t hfuel ht
      rw [foldCarriesFor]
      split_ifs with hzero
      · rw [residue_of_le (by omega)]
      · have hadd : add32 (t % 65536) (t / 65536) = t % 65536 + t / 65536 :=
          Nat.mod_eq_of_lt (by omega)
        rw [hadd, ih _ (by omega) (by omega)]
        exact residue_fold t
  exact hrounds t t le_rfl h

/-- The complement is written in network byte order. -/
theorem complement_toNat (o : ByteOrder) {t : ℕ} (h : t ≤ 65535) :
    (complement o t).toNat .big = 65535 - t := by
  have hmod : (4294967295 - t) % 65536 = 65535 - t := by omega
  rw [complement, hmod]
  cases o <;> simp only [hton16, Word16.reverse, Word16.ofNat, Word16.toNat, UInt8.toNat_ofNat'] <;>
    omega

/-- Memory of even length, and not more than fits: the 32 bits are not filled. -/
theorem foldCarries_wordSum {bytes : List Byte} (heven : bytes.length % 2 = 0)
    (hlen : bytes.length ≤ 131070) :
    foldCarries (wordSum bytes % 4294967296) = onesComplementSum bytes := by
  have hle := wordSum_le bytes
  have hlt : wordSum bytes < 4294967296 := by omega
  rw [Nat.mod_eq_of_lt hlt, foldCarries_eq hlt, onesComplementSum_eq, padded, if_pos heven]

theorem onesComplementSum_le (bytes : List Byte) : onesComplementSum bytes ≤ 65535 := by
  rw [onesComplementSum_eq]
  exact residue_le _ (by decide)

/-! ### The header checksum of IPv4 -/

theorem length_bytes_ipv4Header (header : Ipv4Header) : header.bytes.length = 20 := by
  simp [Ipv4Header.bytes, Word16.bytes, Buffer.length_eq]

/-- **The header checksum of IPv4** is the complement of the sum. -/
theorem ipv4Checksum_toNat (o : ByteOrder) (header : Ipv4Header) {extra : List Byte}
    (heven : extra.length % 2 = 0) (hlen : extra.length ≤ 40) :
    (ipv4Checksum o header extra).toNat .big = 65535 - onesComplementSum (header.bytes ++ extra) := by
  have hheader := length_bytes_ipv4Header header
  have hsum : (readBe16s extra).foldl add32 ((readBe16s header.bytes).foldl add32 0)
      = wordSum (header.bytes ++ extra) % 4294967296 := by
    have hfirst := udpChecksumSummer_eq header.bytes
    rw [udpChecksumSummer] at hfirst
    rw [hfirst, foldl_add32, wordSum_append (by omega)]
    rfl
  rw [ipv4Checksum, hsum, foldCarries_wordSum, complement_toNat o (onesComplementSum_le _)]
  · rw [List.length_append]
    omega
  · rw [List.length_append]
    omega

/-! ### The UDP checksums -/

theorem length_bytes_udpHeader (header : UdpHeader) : header.bytes.length = 8 := rfl

theorem length_padded (bytes : List Byte) : (padded bytes).length % 2 = 0 ∧
    (padded bytes).length ≤ bytes.length + 1 := by
  rw [padded]
  split_ifs
  · omega
  · rw [List.length_append, List.length_singleton]
    omega

/-- Numbers in network byte order, whatever the order of the host. -/
theorem bytes_hton16 (o : ByteOrder) (n : ℕ) :
    (hton16 o (Word16.ofNat o n)).bytes = [UInt8.ofNat (n / 256), UInt8.ofNat n] := by
  cases o <;> rfl

theorem bytes_hton32 (o : ByteOrder) (n : ℕ) : (hton32 o (Word32.ofNat o n)).bytes
    = [UInt8.ofNat (n / 16777216), UInt8.ofNat (n / 65536), UInt8.ofNat (n / 256), UInt8.ofNat n] := by
  cases o <;> rfl

theorem cells_bytesAt_succ (n : ℕ) (data : List Byte) (i : ℕ) :
    (bytesAt (n + 1) data i).cells = (bytesAt n data i).cells ++ [byteAt data (i + n)] := by
  change (List.range (n + 1)).map (fun k => byteAt data (i + k)) = _
  rw [List.range_succ, List.map_append]
  rfl

/-- The last byte of an odd payload is the high half of a word. -/
theorem bytes_hton16_high (o : ByteOrder) (b : Byte) :
    (hton16 o (Word16.ofNat o (256 * b.toNat))).bytes = [b, 0] := by
  have hhigh : UInt8.ofNat (256 * b.toNat / 256) = b := by
    rw [Nat.mul_div_cancel_left _ (by decide), UInt8.ofNat_toNat]
  have hlow : UInt8.ofNat (256 * b.toNat) = 0 := by
    rw [← UInt8.toNat_inj, UInt8.toNat_ofNat']
    exact Nat.mul_mod_right 256 _
  rw [bytes_hton16, hhigh, hlow]

/-- The payload is summed up with its padding. -/
theorem payloadSum_eq (o : ByteOrder) (data : List Byte) (dataLen : ℕ) :
    payloadSum o data dataLen
      = wordSum (padded (bytesAt dataLen data 0).cells) % 4294967296 := by
  rw [payloadSum, padded, (bytesAt dataLen data 0).length_eq]
  split_ifs with heven
  · exact udpChecksumSummer_eq _
  · obtain ⟨n, rfl⟩ : ∃ n, dataLen = n + 1 := ⟨dataLen - 1, by omega⟩
    have hn : (bytesAt n data 0).cells.length % 2 = 0 := by
      rw [(bytesAt n data 0).length_eq]
      omega
    dsimp only
    rw [Nat.add_sub_cancel, bytes_hton16_high, udpChecksumSummer_eq, udpChecksumSummer_eq, add32_mod,
      cells_bytesAt_succ, List.append_assoc, wordSum_append hn, Nat.zero_add]
    rfl

/-! ### The standard -/

/-- The pseudo header of RFC 768: the addresses, a zero, the protocol and the length. -/
def pseudoHeader (source dest : Buffer Byte 4) (length : ℕ) : List Byte :=
  source.cells ++ dest.cells ++ [0, 17] ++ [UInt8.ofNat (length / 256), UInt8.ofNat length]

/-- The pseudo header of RFC 8200: the addresses, the length, zeros and the next header. -/
def pseudoHeaderIp6 (source dest : Buffer Byte 16) (length : ℕ) : List Byte :=
  source.cells ++ dest.cells
    ++ [UInt8.ofNat (length / 16777216), UInt8.ofNat (length / 65536), UInt8.ofNat (length / 256),
      UInt8.ofNat length] ++ [0, 0, 0, 17]

/-- The UDP checksum of the standards: the complement of the sum of the pseudo header, the header
with a zero checksum and the payload, and all ones for zero. -/
def rfcUdpChecksum (pseudo : List Byte) (header : UdpHeader) (payload : List Byte) : ℕ :=
  let checksum := 65535 - onesComplementSum
    (pseudo ++ { header with checksum := ⟨0, 0⟩ }.bytes ++ payload)
  if checksum = 0 then 65535 else checksum

theorem length_pseudoHeader (source dest : Buffer Byte 4) (length : ℕ) :
    (pseudoHeader source dest length).length = 12 := by
  simp [pseudoHeader, Buffer.length_eq]

theorem length_pseudoHeaderIp6 (source dest : Buffer Byte 16) (length : ℕ) :
    (pseudoHeaderIp6 source dest length).length = 40 := by
  simp [pseudoHeaderIp6, Buffer.length_eq]

/-- Padding goes behind the payload. -/
theorem padded_append {l : List Byte} (h : l.length % 2 = 0) (r : List Byte) :
    padded (l ++ r) = l ++ padded r := by
  rw [padded, padded, List.length_append]
  split_ifs <;> first | omega | simp

theorem padded_padded (bytes : List Byte) : padded (padded bytes) = padded bytes := by
  conv_lhs => rw [padded, if_pos (length_padded bytes).1]

/-- **The end of both functions**: the complement of the sum, without a special case, because the
sum is not zero. -/
theorem udpChecksumEnd_toNat (o : ByteOrder) {pseudo : List Byte} {header : UdpHeader}
    {payload : List Byte} (heven : pseudo.length % 2 = 0) (hpseudo : wordSum pseudo ≠ 0)
    (hlen : pseudo.length + payload.length ≤ 131061) :
    (udpChecksumEnd o ((wordSum pseudo + wordSum header.bytes + wordSum (padded payload))
        % 4294967296)).toNat .big
      = 65535 - onesComplementSum (pseudo ++ header.bytes ++ payload) := by
  have hheader := length_bytes_udpHeader header
  have hboth : (pseudo ++ header.bytes).length % 2 = 0 := by
    rw [List.length_append]
    omega
  have hsum : wordSum pseudo + wordSum header.bytes + wordSum (padded payload)
      = wordSum (padded (pseudo ++ header.bytes ++ payload)) := by
    rw [padded_append hboth, wordSum_append hboth, wordSum_append heven]
  obtain ⟨hpadded, hpadded_len⟩ := length_padded (pseudo ++ header.bytes ++ payload)
  have hfold : foldCarries (wordSum (padded (pseudo ++ header.bytes ++ payload)) % 4294967296)
      = onesComplementSum (pseudo ++ header.bytes ++ payload) := by
    rw [foldCarries_wordSum hpadded, onesComplementSum, onesComplementSum, padded_padded]
    simp only [List.length_append] at hpadded_len ⊢
    omega
  have hne : onesComplementSum (pseudo ++ header.bytes ++ payload) ≠ 0 := by
    rw [onesComplementSum_eq, Ne, residue_eq_zero_iff]
    omega
  rw [hsum, udpChecksumEnd, hfold, if_neg hne, complement_toNat o (onesComplementSum_le _)]

theorem wordSum_pseudoHeader (source dest : Buffer Byte 4) (length : ℕ) :
    wordSum (pseudoHeader source dest length) = wordSum source.cells + wordSum dest.cells
      + wordSum [0, 17] + wordSum [UInt8.ofNat (length / 256), UInt8.ofNat length] := by
  rw [pseudoHeader, wordSum_append, wordSum_append, wordSum_append]
  all_goals simp [Buffer.length_eq]

theorem wordSum_pseudoHeaderIp6 (source dest : Buffer Byte 16) (length : ℕ) :
    wordSum (pseudoHeaderIp6 source dest length) = wordSum source.cells + wordSum dest.cells
      + wordSum [UInt8.ofNat (length / 16777216), UInt8.ofNat (length / 65536),
        UInt8.ofNat (length / 256), UInt8.ofNat length] + wordSum [0, 0, 0, 17] := by
  rw [pseudoHeaderIp6, wordSum_append, wordSum_append, wordSum_append]
  all_goals simp [Buffer.length_eq]

/-- **The UDP checksum over IPv4** is the complement of the sum. -/
theorem udpChecksum_toNat (o : ByteOrder) (header : UdpHeader) (data : List Byte) {dataLen : ℕ}
    (hlen : dataLen ≤ 65527) (source dest : Buffer Byte 4) :
    (udpChecksum o header data dataLen source dest).toNat .big
      = 65535 - onesComplementSum (pseudoHeader source dest (8 + dataLen) ++ header.bytes
          ++ (bytesAt dataLen data 0).cells) := by
  have hpseudo := length_pseudoHeader source dest (8 + dataLen)
  have hpayload := (bytesAt dataLen data 0).length_eq
  have hsum := wordSum_pseudoHeader source dest (8 + dataLen)
  have hprotocol : wordSum [0, 17] = 17 := rfl
  rw [← udpChecksumEnd_toNat o (by omega) (by omega) (by omega), hsum, udpChecksum]
  simp only [udpChecksumSummer_eq, payloadSum_eq, bytes_hton16]
  rw [← Nat.zero_mod 4294967296, add32_mod, add32_mod, add32_mod, add32_mod, add32_mod, add32_mod,
    Nat.zero_add]
  rfl

/-- **The UDP checksum over IPv6** is the complement of the sum. -/
theorem udpIp6Checksum_toNat (o : ByteOrder) (header : UdpHeader) (data : List Byte) {dataLen : ℕ}
    (hlen : dataLen ≤ 65527) (source dest : Buffer Byte 16) :
    (udpIp6Checksum o header data dataLen source dest).toNat .big
      = 65535 - onesComplementSum (pseudoHeaderIp6 source dest (8 + dataLen) ++ header.bytes
          ++ (bytesAt dataLen data 0).cells) := by
  have hpseudo := length_pseudoHeaderIp6 source dest (8 + dataLen)
  have hpayload := (bytesAt dataLen data 0).length_eq
  have hsum := wordSum_pseudoHeaderIp6 source dest (8 + dataLen)
  have hnext : wordSum [0, 0, 0, 17] = 17 := rfl
  rw [← udpChecksumEnd_toNat o (by omega) (by omega) (by omega), hsum, udpIp6Checksum]
  simp only [udpChecksumSummer_eq, payloadSum_eq, bytes_hton32]
  rw [← Nat.zero_mod 4294967296, add32_mod, add32_mod, add32_mod, add32_mod, add32_mod, add32_mod,
    Nat.zero_add]
  rfl

/-! ### The special case -/

theorem cells_bytesAt_length (payload : List Byte) :
    (bytesAt payload.length payload 0).cells = payload := by
  have hself := bytesAt_append (⟨payload, rfl⟩ : Buffer Byte payload.length) []
  rw [List.append_nil] at hself
  rw [hself]

/-- A complement agrees with the standard unless it is zero. -/
theorem complement_eq_rfc_iff {pseudo : List Byte} {header : UdpHeader} {payload : List Byte}
    (hzero : header.checksum = ⟨0, 0⟩) :
    65535 - onesComplementSum (pseudo ++ header.bytes ++ payload)
        = rfcUdpChecksum pseudo header payload ↔
      onesComplementSum (pseudo ++ header.bytes ++ payload) ≠ 65535 := by
  have hheader : ({ header with checksum := ⟨0, 0⟩ } : UdpHeader) = header := by
    rw [← hzero]
  have hle := onesComplementSum_le (pseudo ++ header.bytes ++ payload)
  rw [rfcUdpChecksum, hheader]
  split_ifs <;> omega

/-- **The checksums are those of the standards unless the sum is all ones.** For every header with
a zero checksum, every payload that fits into a datagram and all addresses. -/
theorem udpChecksum_eq_rfc_iff (o : ByteOrder) (header : UdpHeader) (payload : List Byte)
    (hzero : header.checksum = ⟨0, 0⟩) (hlen : payload.length ≤ 65527) :
    (∀ source dest : Buffer Byte 4,
      (udpChecksum o header payload payload.length source dest).toNat .big
          = rfcUdpChecksum (pseudoHeader source dest (8 + payload.length)) header payload ↔
        onesComplementSum (pseudoHeader source dest (8 + payload.length) ++ header.bytes ++ payload)
          ≠ 65535) ∧
    (∀ source dest : Buffer Byte 16,
      (udpIp6Checksum o header payload payload.length source dest).toNat .big
          = rfcUdpChecksum (pseudoHeaderIp6 source dest (8 + payload.length)) header payload ↔
        onesComplementSum
          (pseudoHeaderIp6 source dest (8 + payload.length) ++ header.bytes ++ payload) ≠ 65535) := by
  refine ⟨fun source dest => ?_, fun source dest => ?_⟩
  · rw [udpChecksum_toNat o header payload hlen, cells_bytesAt_length]
    exact complement_eq_rfc_iff hzero
  · rw [udpIp6Checksum_toNat o header payload hlen, cells_bytesAt_length]
    exact complement_eq_rfc_iff hzero

/-- `10.0.0.1`. -/
def exampleSource : Buffer Byte 4 := ⟨[10, 0, 0, 1], rfl⟩

/-- `10.0.0.2`. -/
def exampleDest : Buffer Byte 4 := ⟨[10, 0, 0, 2], rfl⟩

/-- A header from port 53 to the given port, for a datagram without payload. -/
def exampleHeader (destPort : Word16) : UdpHeader := ⟨⟨0, 53⟩, destPort, ⟨0, 8⟩, ⟨0, 0⟩⟩

/-- A payload of three bytes. -/
theorem udpChecksum_eq_rfc_one :
    (udpChecksum .little { exampleHeader ⟨235, 165⟩ with length := ⟨0, 11⟩ } [7, 8, 9] 3
        exampleSource exampleDest).toNat .big
      = rfcUdpChecksum (pseudoHeader exampleSource exampleDest 11)
        { exampleHeader ⟨235, 165⟩ with length := ⟨0, 11⟩ } [7, 8, 9] :=
  ((udpChecksum_eq_rfc_iff .little _ [7, 8, 9] rfl (by decide)).1 exampleSource
    exampleDest).mpr (by decide)

/-- **A checksum of zero.** To port 60326 the sum is all ones, and the function returns `0`, which
says that there is no checksum. -/
theorem udpChecksum_zero :
    udpChecksum .little (exampleHeader ⟨235, 166⟩) [] 0 exampleSource exampleDest = ⟨0, 0⟩ ∧
      rfcUdpChecksum (pseudoHeader exampleSource exampleDest 8) (exampleHeader ⟨235, 166⟩) []
        = 65535 := by
  decide

end Tun2Socks.Net
