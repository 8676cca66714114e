import Tun2Socks.Net.Checksum

/-!
# What the checks accept

Each of the three checks reads a header and decides whether the memory behind it holds what the
header announces. For each of them one equivalence says what memory it accepts, with the parts of
the packet laid out one behind the other: `ipv4Check_eq_some_iff`, `ipv6Check_eq_some_iff` and
`udpCheck_eq_some_iff`.

They rest on a header being read back from where it was copied to (`read_append`) and on memory
that is long enough being a header with something behind it (`bytes_read_append`).
-/

namespace Tun2Socks.Net

open Framework

variable {o : ByteOrder} {data rest : List Byte} {dataLen len : ℕ}

/-! ### Reading what was written -/

/-- A number in network byte order. -/
theorem toNat_ntoh16 (o : ByteOrder) (w : Word16) : (ntoh16 o w).toNat o = w.toNat .big := by
  cases o <;> rfl

theorem toNat_hton16_ofNat (o : ByteOrder) {n : ℕ} (h : n < 65536) :
    (hton16 o (Word16.ofNat o n)).toNat .big = n := by
  have hvalue : (hton16 o (Word16.ofNat o n)).toNat .big = (Word16.ofNat o n).toNat o := by
    cases o <;> rfl
  rw [hvalue, toNat_ofNat o h]

theorem bytesAt_append_right (n : ℕ) (l r : List Byte) :
    bytesAt n (l ++ r) l.length = bytesAt n r 0 := by
  rw [bytesAt, bytesAt, Buffer.mk.injEq]
  refine List.map_congr_left fun k _ => ?_
  rw [byteAt_append_right, Nat.zero_add]

/-- Memory that is long enough is read as it is. -/
theorem cells_bytesAt {n i : ℕ} (h : i + n ≤ data.length) :
    (bytesAt n data i).cells = (data.drop i).take n := by
  have hcells : (bytesAt n data i).cells = (List.range n).map fun k => byteAt data (i + k) := rfl
  rw [hcells]
  refine List.ext_getElem ?_ ?_
  · rw [List.length_map, List.length_range, List.length_take, List.length_drop]
    omega
  · intro k hk _
    rw [List.length_map, List.length_range] at hk
    rw [List.getElem_map, List.getElem_range, List.getElem_take, List.getElem_drop, byteAt,
      List.getD_eq_getElem]

theorem cells_bytesAt_append {n : ℕ} {l : List Byte} (h : l.length = n) (r : List Byte) :
    (bytesAt n (l ++ r) 0).cells = l := by
  rw [cells_bytesAt (by rw [List.length_append]; omega), List.drop_zero, ← h, List.take_left]

theorem cells_append_drop {n : ℕ} (h : n ≤ data.length) :
    (bytesAt n data 0).cells ++ data.drop n = data := by
  rw [cells_bytesAt (by omega), List.drop_zero, List.take_append_drop]

/-- The two addresses of a header. -/
theorem bytesAt_two {n : ℕ} (front : List Byte) (a b : Buffer Byte n) (r : List Byte) :
    bytesAt n (front ++ (a.cells ++ (b.cells ++ r))) front.length = a ∧
      bytesAt n (front ++ (a.cells ++ (b.cells ++ r))) (front.length + n) = b := by
  have hb : bytesAt n ((front ++ a.cells) ++ (b.cells ++ r)) (front ++ a.cells).length = b := by
    rw [bytesAt_append_right, bytesAt_append]
  rw [List.length_append, a.length_eq, List.append_assoc] at hb
  exact ⟨by rw [bytesAt_append_right, bytesAt_append], hb⟩

namespace Ipv4Header

theorem read_append (h : Ipv4Header) (r : List Byte) : read (h.bytes ++ r) = h := by
  obtain ⟨v, ds, ⟨l0, l1⟩, ⟨i0, i1⟩, ⟨f0, f1⟩, ttl, protocol, ⟨c0, c1⟩, source, dest⟩ := h
  let front : List Byte := [v, ds, l0, l1, i0, i1, f0, f1, ttl, protocol, c0, c1]
  obtain ⟨hsource, hdest⟩ := bytesAt_two front source dest r
  have hbytes : (Ipv4Header.mk v ds ⟨l0, l1⟩ ⟨i0, i1⟩ ⟨f0, f1⟩ ttl protocol ⟨c0, c1⟩ source
      dest).bytes ++ r = front ++ (source.cells ++ (dest.cells ++ r)) := by
    simp only [bytes, Word16.bytes, front, List.append_assoc, List.cons_append, List.nil_append]
  rw [hbytes, read, mk.injEq]
  exact ⟨rfl, rfl, rfl, rfl, rfl, rfl, rfl, rfl, hsource, hdest⟩

theorem bytes_injective : Function.Injective bytes := by
  intro h h' hbytes
  rw [← read_append h [], hbytes, read_append]

theorem bytes_read_append (h : 20 ≤ data.length) : (read data).bytes ++ data.drop 20 = data :=
  cells_append_drop h

end Ipv4Header

namespace Ipv6Header

theorem length_bytes (h : Ipv6Header) : h.bytes.length = 40 := by
  simp [bytes, Word16.bytes, Buffer.length_eq]

theorem read_append (h : Ipv6Header) (r : List Byte) : read (h.bytes ++ r) = h := by
  obtain ⟨v, tc, ⟨f0, f1⟩, ⟨l0, l1⟩, next, hop, source, dest⟩ := h
  let front : List Byte := [v, tc, f0, f1, l0, l1, next, hop]
  obtain ⟨hsource, hdest⟩ := bytesAt_two front source dest r
  have hbytes : (Ipv6Header.mk v tc ⟨f0, f1⟩ ⟨l0, l1⟩ next hop source dest).bytes ++ r
      = front ++ (source.cells ++ (dest.cells ++ r)) := by
    simp only [bytes, Word16.bytes, front, List.append_assoc, List.cons_append, List.nil_append]
  rw [hbytes, read, mk.injEq]
  exact ⟨rfl, rfl, rfl, rfl, rfl, rfl, hsource, hdest⟩

theorem bytes_injective : Function.Injective bytes := by
  intro h h' hbytes
  rw [← read_append h [], hbytes, read_append]

theorem bytes_read_append (h : 40 ≤ data.length) : (read data).bytes ++ data.drop 40 = data :=
  cells_append_drop h

end Ipv6Header

namespace UdpHeader

theorem read_append (h : UdpHeader) (r : List Byte) : read (h.bytes ++ r) = h := rfl

theorem bytes_injective : Function.Injective bytes := by
  intro h h' hbytes
  rw [← read_append h [], hbytes, read_append]

theorem bytes_read_append (h : 8 ≤ data.length) : (read data).bytes ++ data.drop 8 = data :=
  cells_append_drop h

end UdpHeader

/-! ### IPv4 -/

/-- The checksum of a header and its options is the one the standard asks for. -/
def Ipv4Header.ChecksumOk (ip : Ipv4Header) (options : List Byte) : Prop :=
  ip.checksum.toNat .big
    = 65535 - onesComplementSum ({ ip with checksum := ⟨0, 0⟩ }.bytes ++ options)

theorem checksum_eq_ipv4Checksum_iff (o : ByteOrder) (ip : Ipv4Header) {options : List Byte}
    (heven : options.length % 2 = 0) (hlen : options.length ≤ 40) :
    ip.checksum = ipv4Checksum o { ip with checksum := ⟨0, 0⟩ } options ↔ ip.ChecksumOk options := by
  rw [Ipv4Header.ChecksumOk, ← ipv4Checksum_toNat o _ heven hlen]
  exact (toNat_injective .big).eq_iff.symm

/-- **What `ipv4Check` accepts**: a header of version 4, its options and a payload, whose lengths
are those the header announces, with the checksum over header and options. -/
theorem ipv4Check_eq_some_iff (hdata : dataLen ≤ data.length) (ip : Ipv4Header) :
    ipv4Check o data dataLen = some (ip, rest, len) ↔
      ∃ options, data = ip.bytes ++ (options ++ rest) ∧ ip.version = 4 ∧
        4 * ip.ihl = 20 + options.length ∧
        ip.totalLength.toNat .big = 20 + options.length + len ∧
        20 + options.length + len ≤ dataLen ∧ ip.ChecksumOk options := by
  rw [ipv4Check]
  simp only [Option.ite_none_left_eq_some, Option.some.injEq, Prod.mk.injEq, toNat_ntoh16, not_not,
    not_lt, Ne]
  constructor
  · rintro ⟨hlen, hversion, hshort, hheader, htotal, hfits, hchecksum, rfl, rfl, rfl⟩
    have hihl : (Ipv4Header.read data).ihl < 16 := Nat.mod_lt _ (by decide)
    have hoptions : (bytesAt ((Ipv4Header.read data).ihl * 4 - 20) data 20).cells.length
        = (Ipv4Header.read data).ihl * 4 - 20 := Buffer.length_eq _
    have hdrop : data.drop ((Ipv4Header.read data).ihl * 4)
        = (data.drop 20).drop ((Ipv4Header.read data).ihl * 4 - 20) := by
      rw [List.drop_drop, Nat.add_sub_cancel' hshort]
    rw [checksum_eq_ipv4Checksum_iff o _ (by omega) (by omega)] at hchecksum
    refine ⟨_, ?_, hversion, ?_, ?_, ?_, hchecksum⟩
    · rw [cells_bytesAt (by omega), hdrop, List.take_append_drop,
        Ipv4Header.bytes_read_append (by omega)]
    all_goals omega
  · rintro ⟨options, rfl, hversion, hihl, htotal, hfits, hchecksum⟩
    have hbytes := length_bytes_ipv4Header ip
    have hoptions : bytesAt (ip.ihl * 4 - 20) (ip.bytes ++ (options ++ rest)) 20
        = bytesAt (ip.ihl * 4 - 20) (options ++ rest) 0 := by
      rw [← hbytes, bytesAt_append_right]
    have hrest : (ip.bytes ++ (options ++ rest)).drop (ip.ihl * 4) = rest := by
      rw [← List.append_assoc, List.drop_left']
      rw [List.length_append]
      omega
    have hlt : ip.ihl < 16 := Nat.mod_lt _ (by decide)
    rw [← checksum_eq_ipv4Checksum_iff o ip (by omega) (by omega)] at hchecksum
    rw [Ipv4Header.read_append, hoptions, cells_bytesAt_append (by omega)]
    refine ⟨by omega, hversion, by omega, by omega, by omega, by omega, hchecksum, rfl, hrest, ?_⟩
    omega

/-! ### IPv6 -/

/-- **What `ipv6Check` accepts**: a header of version 6 and the payload it announces. -/
theorem ipv6Check_eq_some_iff (hdata : dataLen ≤ data.length) (ip : Ipv6Header) :
    ipv6Check o data dataLen = some (ip, rest, len) ↔
      data = ip.bytes ++ rest ∧ ip.version4Tc4.toNat / 16 = 6 ∧
        ip.payloadLength.toNat .big = len ∧ 40 + len ≤ dataLen := by
  rw [ipv6Check]
  simp only [Option.ite_none_left_eq_some, Option.some.injEq, Prod.mk.injEq, toNat_ntoh16, not_not,
    not_lt, Ne]
  constructor
  · rintro ⟨hlen, hversion, hfits, rfl, rfl, rfl⟩
    exact ⟨(Ipv6Header.bytes_read_append (by omega)).symm, hversion, rfl, by omega⟩
  · rintro ⟨rfl, hversion, hpayload, hfits⟩
    rw [Ipv6Header.read_append, List.drop_left' (Ipv6Header.length_bytes ip)]
    exact ⟨by omega, hversion, by omega, rfl, rfl, hpayload⟩

/-! ### UDP -/

/-- **What `udpCheck` accepts**: a header and the payload it announces. -/
theorem udpCheck_eq_some_iff (hdata : dataLen ≤ data.length) (udp : UdpHeader) :
    udpCheck o data dataLen = some (udp, rest, len) ↔ ∃ payload behind,
      data = udp.bytes ++ (payload ++ behind) ∧ rest = payload ++ behind ∧ len = payload.length ∧
        udp.length.toNat .big = 8 + payload.length ∧ 8 + payload.length ≤ dataLen := by
  rw [udpCheck]
  simp only [Option.ite_none_left_eq_some, Option.some.injEq, Prod.mk.injEq, toNat_ntoh16, not_lt]
  constructor
  · rintro ⟨hlen, hshort, hfits, rfl, rfl, rfl⟩
    have hbytes := UdpHeader.bytes_read_append (hlen.trans hdata)
    have hpayload : ((data.drop 8).take ((UdpHeader.read data).length.toNat .big - 8)).length
        = (UdpHeader.read data).length.toNat .big - 8 := by
      rw [List.length_take, List.length_drop]
      omega
    refine ⟨_, _, ?_, (List.take_append_drop _ _).symm, hpayload.symm, by omega, by omega⟩
    rw [List.take_append_drop, hbytes]
  · rintro ⟨payload, behind, rfl, rfl, rfl, hlength, hfits⟩
    rw [UdpHeader.read_append, List.drop_left' (length_bytes_udpHeader udp)]
    exact ⟨by omega, by omega, by omega, rfl, rfl, by omega⟩

end Tun2Socks.Net
