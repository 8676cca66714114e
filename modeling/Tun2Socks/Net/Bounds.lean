import Tun2Socks.Framework.CInt
import Tun2Socks.Net.Check

/-!
# The checks on C integers

The three checks of headers hold lengths in `int`, `uint16_t` and `size_t`, and compare and subtract
them across these types. Here they are written with the types that the code has (`ipv4CheckC`,
`ipv6CheckC`, `udpCheckC`), on a machine whose `size_t` has 32 or 64 bits. A pointer is a place in the
memory that `process_device_udp_packet` was given, and the state has the places that have been read.

The program stops with `wraps` where a length computation wraps or becomes negative or a conversion
changes a length. It never does, it reads only the packet, and what it returns is what the checks on
natural numbers return, with which the rest of the development works.
-/

namespace Tun2Socks.Net

open Framework

inductive LengthFault
  | assert
  | wraps
  deriving DecidableEq, Repr

/-- The state is the list of places that have been read. -/
abbrev ReadM := Checked LengthFault (List ℕ)

/-- `n` bytes are read from a place on. -/
def readMem (data : List Byte) (n i : ℕ) : ReadM (List Byte) := do
  modify fun reads => reads ++ (List.range n).map (i + ·)
  pure (bytesAt n data i).cells

/-- `if (c) return 0;` -/
def returnIf {α : Type} (c : ReadM Bool) (x : ReadM (Option α)) : ReadM (Option α) := do
  if ← c then pure none else x

/-- `sizeof` of something of `n` bytes. -/
def sizeof (m : DataModel) (n : ℕ) : CVal (.size m) := .ofInt (.size m) n

/-- `ipv4_checksum` with `extra_len` bytes behind the header; two are read at a time. -/
def ipv4ChecksumC (o : ByteOrder) (header : Ipv4Header) (data : List Byte) (extra : ℕ)
    (extraLen : CVal .uint16) : ReadM Word16 := do
  ensure (extraLen.val % 2 = 0) .assert
  let bytes ← readMem data (2 * (extraLen.val / 2).toNat) extra
  pure (ipv4Checksum o header bytes)

/-- The part of `ipv4_check` behind the checks of the lengths. -/
def ipv4CheckEndC (m : DataModel) (o : ByteOrder) (data : List Byte) (header : Ipv4Header)
    (headerLen totalLength : CVal .uint16) : ReadM (Option (Ipv4Header × ℕ × CVal .int)) := do
  let extraLen ← (← headerLen.sub .wraps (sizeof m 20)).convert .wraps .uint16
  let checksumComputed ← ipv4ChecksumC o { header with checksum := ⟨0, 0⟩ } data 20 extraLen
  returnIf (pure (header.checksum ≠ checksumComputed)) do
    let payloadLen ← totalLength.sub .wraps headerLen
    pure (some (header, headerLen.val.toNat, payloadLen))

/-- `ipv4_check`. -/
def ipv4CheckC (m : DataModel) (o : ByteOrder) (data : List Byte) (dataLen : CVal .int) :
    ReadM (Option (Ipv4Header × ℕ × CVal .int)) := do
  ensure (0 ≤ dataLen.val) .assert
  returnIf (dataLen.lt .wraps (sizeof m 20)) do
    let header := Ipv4Header.read (← readMem data 20 0)
    returnIf (pure (header.version ≠ 4)) do
      let ihl : CVal .int := .ofInt .int header.ihl
      let headerLen ← (← ihl.mul .wraps (.ofInt .int 4 : CVal .int)).convert .wraps .uint16
      returnIf (headerLen.lt .wraps (sizeof m 20)) do
        returnIf (dataLen.lt .wraps headerLen) do
          let totalLength : CVal .uint16 := .ofInt .uint16 ((ntoh16 o header.totalLength).toNat o)
          returnIf (totalLength.lt .wraps headerLen) do
            returnIf (dataLen.lt .wraps totalLength) do
              ipv4CheckEndC m o data header headerLen totalLength

/-- `ipv6_check`. -/
def ipv6CheckC (m : DataModel) (o : ByteOrder) (data : List Byte) (dataLen : CVal .int) :
    ReadM (Option (Ipv6Header × ℕ × CVal .int)) := do
  ensure (0 ≤ dataLen.val) .assert
  returnIf (dataLen.lt .wraps (sizeof m 40)) do
    let header := Ipv6Header.read (← readMem data 40 0)
    returnIf (pure (header.version4Tc4.toNat / 16 ≠ 6)) do
      let payloadLength : CVal .uint16 := .ofInt .uint16 ((ntoh16 o header.payloadLength).toNat o)
      let room ← dataLen.sub .wraps (sizeof m 40)
      returnIf (room.lt .wraps payloadLength) do
        let payloadLen ← payloadLength.convert .wraps .int
        pure (some (header, 40, payloadLen))

/-- `udp_check`. -/
def udpCheckC (m : DataModel) (o : ByteOrder) (data : List Byte) (pointer : ℕ)
    (dataLen : CVal .int) : ReadM (Option (UdpHeader × ℕ × CVal .int)) := do
  ensure (0 ≤ dataLen.val) .assert
  returnIf (dataLen.lt .wraps (sizeof m 8)) do
    let header := UdpHeader.read (← readMem data 8 pointer)
    let dataLen ← (← dataLen.sub .wraps (sizeof m 8)).convert .wraps .int
    let udpLength : CVal .int := .ofInt .int ((ntoh16 o header.length).toNat o)
    returnIf (udpLength.lt .wraps (sizeof m 8)) do
      let room ← (sizeof m 8).add .wraps dataLen
      returnIf (room.lt .wraps udpLength) do
        let payloadLen ← (← udpLength.sub .wraps (sizeof m 8)).convert .wraps .int
        pure (some (header, pointer + 8, payloadLen))

/-- What `process_device_udp_packet` knows after the two checks that it makes of a packet. -/
structure Slices (Header : Type) where
  ip : Header
  ipPayload : ℕ
  ipLen : CVal .int
  udp : UdpHeader
  udpPayload : ℕ
  udpLen : CVal .int

/-- `udp_check` of what a check of an IP header has returned. -/
def thenUdpCheckC {Header : Type} (m : DataModel) (o : ByteOrder) (data : List Byte) :
    Option (Header × ℕ × CVal .int) → ReadM (Option (Slices Header))
  | none => pure none
  | some (ip, ipPayload, ipLen) => do
    let r ← udpCheckC m o data ipPayload ipLen
    pure (r.map fun x => ⟨ip, ipPayload, ipLen, x.1, x.2.1, x.2.2⟩)

/-- The two checks of an IPv4 packet. -/
def checkIpv4C (m : DataModel) (o : ByteOrder) (data : List Byte) (dataLen : CVal .int) :
    ReadM (Option (Slices Ipv4Header)) := do
  thenUdpCheckC m o data (← ipv4CheckC m o data dataLen)

/-- The two checks of an IPv6 packet. -/
def checkIpv6C (m : DataModel) (o : ByteOrder) (data : List Byte) (dataLen : CVal .int) :
    ReadM (Option (Slices Ipv6Header)) := do
  thenUdpCheckC m o data (← ipv6CheckC m o data dataLen)

/-! ### Rules -/

section Rules

variable {α : Type} {Q : Option α → List ℕ → Prop} {reads : List ℕ} {m : DataModel} {a b : CType}

theorem val_sizeof {n : ℕ} (h : n ≤ 65535) : (sizeof m n).val = n :=
  CVal.val_ofInt (CType.has_of_le (by omega) (by omega))

theorem wp_returnIf_pure (p : Prop) [Decidable p] {x : ReadM (Option α)}
    (hthen : p → Q none reads) (helse : ¬ p → wp x Q reads) :
    wp (returnIf (pure (decide p)) x) Q reads := by
  simp only [returnIf, wp_bind, wp_pure, wp_ite]
  by_cases h : p
  · rw [if_pos (decide_eq_true h)]
    exact hthen h
  · rw [if_neg (by simpa using h)]
    exact helse h

/-- A comparison in which both sides keep their values. -/
theorem wp_returnIf_lt {x : CVal a} {y : CVal b} {k : ReadM (Option α)}
    (h : 0 ≤ x.val ∧ x.val ≤ 2147483647 ∧ 0 ≤ y.val ∧ y.val ≤ 2147483647)
    (hthen : x.val < y.val → Q none reads) (helse : y.val ≤ x.val → wp k Q reads) :
    wp (returnIf (x.lt .wraps y) k) Q reads := by
  simp only [returnIf, wp_bind, wp_ite, wp_pure]
  refine CVal.wp_lt h ?_
  by_cases hlt : x.val < y.val
  · rw [if_pos (decide_eq_true hlt)]
    exact hthen hlt
  · rw [if_neg (by simpa using hlt)]
    exact helse (not_lt.mp hlt)

theorem wp_readMem {data : List Byte} {n i : ℕ} {R : List Byte → List ℕ → Prop} :
    wp (readMem data n i) R reads ↔
      R (bytesAt n data i).cells (reads ++ (List.range n).map (i + ·)) := by
  simp only [readMem, wp_bind, wp_modify, wp_pure]

/-- Only places in front of `limit` were read. -/
def Within (limit : ℤ) (reads : List ℕ) : Prop := ∀ i ∈ reads, (i : ℤ) < limit

theorem Within.append {limit : ℤ} (h : Within limit reads) {n i : ℕ} (hn : (i + n : ℤ) ≤ limit) :
    Within limit (reads ++ (List.range n).map (i + ·)) := by
  intro j hj
  obtain hmem | hmem := List.mem_append.mp hj
  · exact h j hmem
  · obtain ⟨k, hk, rfl⟩ := List.mem_map.mp hmem
    have := List.mem_range.mp hk
    omega

end Rules

/-! ### The checks -/

section Checks

variable {Header : Type} {m : DataModel} {o : ByteOrder} {data : List Byte} {dataLen : CVal .int}
  {limit : ℤ} {reads : List ℕ} {expected : Option (Header × List Byte × ℕ)}
  {Slice : Header → ℕ → ℤ → Prop}

/-- What a check leaves: it has read only the packet, it returns what is `expected`, and the payload
is the right slice. -/
structure Fits (data : List Byte) (limit : ℤ) (expected : Option (Header × List Byte × ℕ))
    (Slice : Header → ℕ → ℤ → Prop) (r : Option (Header × ℕ × CVal .int)) (reads : List ℕ) :
    Prop where
  reads : Within limit reads
  agrees : r.map (fun x => (x.1, data.drop x.2.1, x.2.2.val.toNat)) = expected
  slice : ∀ header pointer len, r = some (header, pointer, len) → Slice header pointer len.val

theorem fits_none (hreads : Within limit reads) (h : expected = none) :
    Fits data limit expected Slice none reads :=
  ⟨hreads, h.symm, fun _ _ _ hsome => nomatch hsome⟩

theorem fits_some {header : Header} {pointer : ℕ} {len : CVal .int} (hreads : Within limit reads)
    (h : expected = some (header, data.drop pointer, len.val.toNat))
    (hslice : Slice header pointer len.val) :
    Fits data limit expected Slice (some (header, pointer, len)) reads := by
  refine ⟨hreads, h.symm, fun header' pointer' len' hsome => ?_⟩
  obtain ⟨rfl, rfl, rfl⟩ : header = header' ∧ pointer = pointer' ∧ len = len' := by
    simpa using hsome
  exact hslice

theorem dataLen_le (dataLen : CVal .int) : dataLen.val ≤ 2147483647 := dataLen.has.2

/-- The `total_length` of a header. -/
def Ipv4Header.total (o : ByteOrder) (header : Ipv4Header) : ℕ :=
  (ntoh16 o header.totalLength).toNat o

/-- From `header_len` to `total_length`, which are inside the packet. -/
def Ipv4Slice (o : ByteOrder) (dataLen : ℤ) (header : Ipv4Header) (pointer : ℕ) (len : ℤ) : Prop :=
  20 ≤ pointer ∧ pointer = 4 * header.ihl ∧ pointer + len = header.total o ∧ 0 ≤ len ∧
    pointer + len ≤ dataLen

/-- From byte 40 on, `payload_length` bytes, which are inside the packet. -/
def Ipv6Slice (o : ByteOrder) (dataLen : ℤ) (header : Ipv6Header) (pointer : ℕ) (len : ℤ) : Prop :=
  pointer = 40 ∧ len = (ntoh16 o header.payloadLength).toNat o ∧ pointer + len ≤ dataLen

/-- Behind the header, `udp_length - 8` bytes, which are inside the datagram. -/
def UdpSlice (o : ByteOrder) (start : ℕ) (dataLen : ℤ) (header : UdpHeader) (pointer : ℕ)
    (len : ℤ) : Prop :=
  pointer = start + 8 ∧ len = (ntoh16 o header.length).toNat o - 8 ∧ 0 ≤ len ∧
    pointer + len ≤ start + dataLen

theorem Ipv4Header.read_cells (data : List Byte) :
    Ipv4Header.read (bytesAt 20 data 0).cells = Ipv4Header.read data := by
  have hbytes : (bytesAt 20 data 0).cells = (Ipv4Header.read data).bytes ++ [] :=
    (List.append_nil _).symm
  rw [hbytes, read_append]

theorem Ipv6Header.read_cells (data : List Byte) :
    Ipv6Header.read (bytesAt 40 data 0).cells = Ipv6Header.read data := by
  have hbytes : (bytesAt 40 data 0).cells = (Ipv6Header.read data).bytes ++ [] :=
    (List.append_nil _).symm
  rw [hbytes, read_append]

theorem UdpHeader.read_cells (data : List Byte) (pointer : ℕ) :
    UdpHeader.read (bytesAt 8 data pointer).cells = UdpHeader.read (data.drop pointer) := by
  have hbyte : ∀ i, byteAt (data.drop pointer) i = byteAt data (pointer + i) := fun i => by
    rw [byteAt, byteAt, List.getD_eq_getElem?_getD, List.getElem?_drop,
      List.getD_eq_getElem?_getD]
  simp only [UdpHeader.read, word16At, hbyte]
  rfl

theorem udpCheckC_spec {pointer : ℕ} (h : 0 ≤ dataLen.val)
    (hlimit : pointer + dataLen.val ≤ limit) (hreads : Within limit reads) :
    wp (udpCheckC m o data pointer dataLen)
      (Fits data limit (udpCheck o (data.drop pointer) dataLen.val.toNat)
        (UdpSlice o pointer dataLen.val)) reads := by
  have hint := dataLen_le dataLen
  have height : (sizeof m 8).val = 8 := val_sizeof (by decide)
  have hlength := toNat_lt o (ntoh16 o (UdpHeader.read (data.drop pointer)).length)
  have hudpLength : (CVal.ofInt .int
      ((ntoh16 o (UdpHeader.read (data.drop pointer)).length).toNat o)).val =
      (ntoh16 o (UdpHeader.read (data.drop pointer)).length).toNat o :=
    CVal.val_ofInt (CType.int_has (by omega) (by omega))
  simp only [udpCheckC, wp_bind, wp_ensure]
  refine ⟨h, wp_returnIf_lt (by omega)
    (fun hshort => fits_none hreads ?_) fun hroom => ?_⟩
  · rw [udpCheck, if_pos (by omega)]
  have hwithin := hreads.append (n := 8) (i := pointer) (by omega)
  rw [udpCheck, if_neg (by omega)]
  simp only [wp_bind, wp_readMem, UdpHeader.read_cells]
  refine CVal.wp_sub (by omega) fun rest hrest => ?_
  refine CVal.wp_convert (CType.int_has (by omega) (by omega)) fun rest' hrest' => ?_
  refine wp_returnIf_lt (by omega) (fun hshort => fits_none hwithin ?_) fun hheader => ?_
  · rw [if_pos (by omega)]
  rw [wp_bind]
  refine CVal.wp_add (by omega) fun room hroom => ?_
  refine wp_returnIf_lt (by omega) (fun hshort => fits_none hwithin ?_) fun hfits => ?_
  · rw [if_neg (by omega), if_pos (by omega)]
  simp only [wp_bind]
  refine CVal.wp_sub (by omega) fun len hlen => ?_
  refine CVal.wp_convert (CType.int_has (by omega) (by omega)) fun len' hlen' => ?_
  rw [wp_pure]
  refine fits_some hwithin ?_ ⟨rfl, by omega, by omega, by omega⟩
  have htoNat : len'.val.toNat =
      (ntoh16 o (UdpHeader.read (data.drop pointer)).length).toNat o - 8 := by
    omega
  rw [if_neg (by omega), if_neg (by omega), List.drop_drop, htoNat]

theorem ipv6CheckC_spec (h : 0 ≤ dataLen.val) :
    wp (ipv6CheckC m o data dataLen)
      (Fits data dataLen.val (ipv6Check o data dataLen.val.toNat) (Ipv6Slice o dataLen.val))
      [] := by
  have hint := dataLen_le dataLen
  have hforty : (sizeof m 40).val = 40 := val_sizeof (by decide)
  have hlength := toNat_lt o (ntoh16 o (Ipv6Header.read data).payloadLength)
  have hpayloadLength : (CVal.ofInt .uint16
      ((ntoh16 o (Ipv6Header.read data).payloadLength).toNat o)).val =
      (ntoh16 o (Ipv6Header.read data).payloadLength).toNat o :=
    CVal.val_ofInt (CType.has_of_le (by omega) (by omega))
  have hstart : Within dataLen.val [] := nofun
  simp only [ipv6CheckC, wp_bind, wp_ensure]
  refine ⟨h, wp_returnIf_lt (by omega)
    (fun hshort => fits_none hstart ?_) fun hheader => ?_⟩
  · rw [ipv6Check, if_pos (by omega)]
  have hwithin := hstart.append (n := 40) (i := 0) (by omega)
  rw [ipv6Check, if_neg (by omega)]
  simp only [wp_bind, wp_readMem, Ipv6Header.read_cells]
  refine wp_returnIf_pure _ (fun hversion => fits_none hwithin (if_pos hversion))
    fun hversion => ?_
  rw [if_neg hversion, wp_bind]
  refine CVal.wp_sub (by omega) fun room hroom => ?_
  refine wp_returnIf_lt (by omega) (fun hshort => fits_none hwithin ?_) fun hfits => ?_
  · rw [if_pos (by omega)]
  rw [wp_bind]
  refine CVal.wp_convert (CType.int_has (by omega) (by omega)) fun len hlen => ?_
  rw [wp_pure]
  refine fits_some hwithin ?_ ⟨rfl, by omega, by omega⟩
  have htoNat : len.val.toNat = (ntoh16 o (Ipv6Header.read data).payloadLength).toNat o := by
    omega
  rw [if_neg (by omega), htoNat]

/-- The end of `ipv4_check`, once the lengths are known. -/
theorem ipv4CheckEndC_spec {header : Ipv4Header} {headerLen totalLength : CVal .uint16}
    (hihl : headerLen.val = 4 * header.ihl) (htwenty : 20 ≤ headerLen.val)
    (hheader : headerLen.val ≤ dataLen.val) (htotal : totalLength.val = header.total o)
    (hle : headerLen.val ≤ totalLength.val) (hfits : totalLength.val ≤ dataLen.val)
    (hreads : Within dataLen.val reads) (headerLen' : ℕ)
    (hheaderLen' : headerLen' = headerLen.val.toNat) :
    wp (ipv4CheckEndC m o data header headerLen totalLength)
      (Fits data dataLen.val
        (if header.checksum ≠ ipv4Checksum o { header with checksum := ⟨0, 0⟩ }
            (bytesAt (headerLen' - 20) data 20).cells then none
          else some (header, data.drop headerLen', header.total o - headerLen'))
        (Ipv4Slice o dataLen.val)) reads := by
  have hsize : (sizeof m 20).val = 20 := val_sizeof (by decide)
  have hmax : headerLen.val ≤ 65535 := headerLen.has.2
  have hmax' : totalLength.val ≤ 65535 := totalLength.has.2
  simp only [ipv4CheckEndC, ipv4ChecksumC, wp_bind]
  refine CVal.wp_sub (by omega) fun extra hextra => ?_
  refine CVal.wp_convert (CType.has_of_le (by omega) (by omega)) fun extra' hextra' => ?_
  have heven : 2 * (extra'.val / 2).toNat = headerLen' - 20 := by omega
  rw [wp_ensure, wp_readMem, wp_pure, heven]
  have hwithin := hreads.append (n := headerLen' - 20) (i := 20) (by omega)
  refine ⟨by omega, wp_returnIf_pure _ (fun hsum => fits_none hwithin (if_pos hsum))
    fun hsum => ?_⟩
  rw [if_neg hsum, wp_bind]
  refine CVal.wp_sub (by omega) fun len hlen => ?_
  rw [wp_pure, hheaderLen']
  refine fits_some (hheaderLen' ▸ hwithin) ?_
    ⟨by omega, by omega, by omega, by omega, by omega⟩
  have htoNat : len.val.toNat = header.total o - headerLen.val.toNat := by omega
  rw [htoNat]

theorem ipv4CheckC_spec (h : 0 ≤ dataLen.val) :
    wp (ipv4CheckC m o data dataLen)
      (Fits data dataLen.val (ipv4Check o data dataLen.val.toNat) (Ipv4Slice o dataLen.val))
      [] := by
  have hint := dataLen_le dataLen
  have htwenty : (sizeof m 20).val = 20 := val_sizeof (by decide)
  have hlength : (Ipv4Header.read data).total o < 65536 := toNat_lt o _
  have hihl : (Ipv4Header.read data).ihl < 16 := Nat.mod_lt _ (by decide)
  have hihlC : (CVal.ofInt .int (Ipv4Header.read data).ihl).val = (Ipv4Header.read data).ihl :=
    CVal.val_ofInt (CType.int_has (by omega) (by omega))
  have hfour : (CVal.ofInt .int 4).val = 4 := CVal.val_ofInt (CType.int_has (by omega) (by omega))
  have htotal : (ntoh16 o (Ipv4Header.read data).totalLength).toNat o =
      (Ipv4Header.read data).total o := rfl
  have htotalC : (CVal.ofInt .uint16 ((Ipv4Header.read data).total o)).val =
      (Ipv4Header.read data).total o := CVal.val_ofInt (CType.has_of_le (by omega) (by omega))
  have hstart : Within dataLen.val [] := nofun
  simp only [ipv4CheckC, wp_bind, wp_ensure]
  refine ⟨h, wp_returnIf_lt (by omega)
    (fun hshort => fits_none hstart ?_) fun hheader => ?_⟩
  · rw [ipv4Check, if_pos (by omega)]
  have hwithin := hstart.append (n := 20) (i := 0) (by omega)
  rw [ipv4Check, if_neg (by omega)]
  simp only [wp_bind, wp_readMem, Ipv4Header.read_cells, htotal]
  refine wp_returnIf_pure _ (fun hversion => fits_none hwithin (if_pos hversion))
    fun hversion => ?_
  rw [if_neg hversion]
  simp only [wp_bind]
  refine CVal.wp_mul (by omega) (by rw [hihlC, hfour]; omega) fun product hproduct => ?_
  rw [hihlC, hfour] at hproduct
  refine CVal.wp_convert (CType.has_of_le (by omega) (by omega)) fun headerLen hheaderLen => ?_
  refine wp_returnIf_lt (by omega) (fun hshort => fits_none hwithin ?_) fun hmin => ?_
  · rw [if_pos (by omega)]
  rw [if_neg (by omega)]
  refine wp_returnIf_lt (by omega) (fun hshort => fits_none hwithin ?_) fun hoptions => ?_
  · rw [if_pos (by omega)]
  rw [if_neg (by omega)]
  refine wp_returnIf_lt (by omega) (fun hshort => fits_none hwithin ?_) fun hle => ?_
  · rw [if_pos (by omega)]
  rw [if_neg (by omega)]
  refine wp_returnIf_lt (by omega) (fun hshort => fits_none hwithin ?_) fun hfits => ?_
  · rw [if_pos (by omega)]
  rw [if_neg (by omega)]
  exact ipv4CheckEndC_spec (by omega) (by omega) hoptions htotalC hle hfits hwithin _
    (by omega)

/-! ### The two checks of a packet -/

/-- What the checks on natural numbers return, one after the other. -/
def thenUdpCheck (o : ByteOrder) (r : Option (Header × List Byte × ℕ)) :
    Option (Header × UdpHeader × List Byte × ℕ) :=
  r.bind fun x => (udpCheck o x.2.1 x.2.2).map fun udp => (x.1, udp)

/-- The places as memory. -/
def Slices.natural (data : List Byte) (x : Slices Header) : Header × UdpHeader × List Byte × ℕ :=
  (x.ip, x.udp, data.drop x.udpPayload, x.udpLen.val.toNat)

/-- What the two checks leave: they have read only the packet, the payloads are the right slices, and
they agree with the checks on natural numbers. -/
structure FitsBoth (o : ByteOrder) (data : List Byte) (limit : ℤ)
    (expected : Option (Header × List Byte × ℕ)) (Slice : Header → ℕ → ℤ → Prop)
    (r : Option (Slices Header)) (reads : List ℕ) : Prop where
  reads : Within limit reads
  agrees : r.map (Slices.natural data) = thenUdpCheck o expected
  slices : ∀ x, r = some x → Slice x.ip x.ipPayload x.ipLen.val ∧
    UdpSlice o x.ipPayload x.ipLen.val x.udp x.udpPayload x.udpLen.val

theorem thenUdpCheckC_spec {r : Option (Header × ℕ × CVal .int)}
    (h : Fits data limit expected Slice r reads)
    (hslice : ∀ header pointer len, Slice header pointer len → 0 ≤ len ∧ pointer + len ≤ limit) :
    wp (thenUdpCheckC m o data r) (FitsBoth o data limit expected Slice) reads := by
  obtain ⟨hreads, rfl, hsome⟩ := h
  match r, hsome with
  | none, _ =>
    rw [thenUdpCheckC, wp_pure]
    exact ⟨hreads, rfl, fun _ heq => nomatch heq⟩
  | some (ip, ipPayload, ipLen), hsome =>
    have hip := hsome ip ipPayload ipLen rfl
    obtain ⟨hnonneg, hle⟩ := hslice _ _ _ hip
    rw [thenUdpCheckC, wp_bind]
    refine wp_mono (udpCheckC_spec hnonneg hle hreads) ?_
    intro r' reads' hudp
    rw [wp_pure]
    refine ⟨hudp.reads, ?_, ?_⟩
    · have hagrees := hudp.agrees
      rw [Option.map_some, thenUdpCheck, Option.bind_some]
      dsimp only
      rw [← hagrees, Option.map_map, Option.map_map]
      rfl
    · intro x hx
      obtain ⟨⟨udp, udpPayload, udpLen⟩, hr', rfl⟩ := Option.map_eq_some_iff.mp hx
      exact ⟨hip, hudp.slice udp udpPayload udpLen hr'⟩

end Checks

/-- **The checks stay in the packet.** On a machine with a `size_t` of either size and of either byte
order, for memory with anything in it and every length that is not negative, the checks of an IPv4
packet and those of an IPv6 packet, up to the last one or to the first that fails, read only bytes of
the packet, no assertion fails, no length computation wraps or becomes negative, the payloads are
the slices that the headers announce, and the result is that of the checks on natural numbers. -/
theorem checks_in_bounds (m : DataModel) (o : ByteOrder) (data : List Byte) (dataLen : CVal .int)
    (h : 0 ≤ dataLen.val) :
    wp (checkIpv4C m o data dataLen) (FitsBoth o data dataLen.val
      (ipv4Check o data dataLen.val.toNat) (Ipv4Slice o dataLen.val)) [] ∧
    wp (checkIpv6C m o data dataLen) (FitsBoth o data dataLen.val
      (ipv6Check o data dataLen.val.toNat) (Ipv6Slice o dataLen.val)) [] := by
  constructor
  · rw [checkIpv4C, wp_bind]
    refine wp_mono (ipv4CheckC_spec h) fun r reads hfits => thenUdpCheckC_spec hfits ?_
    rintro header pointer len ⟨-, -, -, hnonneg, hle⟩
    exact ⟨hnonneg, hle⟩
  · rw [checkIpv6C, wp_bind]
    refine wp_mono (ipv6CheckC_spec h) fun r reads hfits => thenUdpCheckC_spec hfits ?_
    rintro header pointer len ⟨-, rfl, hle⟩
    exact ⟨Int.natCast_nonneg _, hle⟩

/-- An IPv4 packet with a UDP payload of one byte, and three bytes behind the packet. -/
def smallPacket : List Byte :=
  [69, 0, 0, 29, 0, 0, 0, 0, 64, 17, 96, 191, 10, 0, 0, 2, 8, 8, 8, 8] ++
    [19, 137, 0, 53, 0, 9, 0, 0, 65, 1, 2, 3]

/-- The packet is accepted, and everything is in bounds. -/
theorem checks_in_bounds_smallPacket :
    ((checkIpv4C .lp64 .little smallPacket (.ofInt .int 29)).run []).toOption.any
      (fun r => r.1.any fun x => decide (x.ipPayload = 20 ∧ x.udpPayload = 28 ∧ x.udpLen.val = 1)) =
      true ∧
    wp (checkIpv4C .lp64 .little smallPacket (.ofInt .int 29)) (FitsBoth .little smallPacket 29
      (ipv4Check .little smallPacket 29) (Ipv4Slice .little 29)) [] :=
  ⟨by decide +kernel, (checks_in_bounds .lp64 .little smallPacket (.ofInt .int 29) (by decide)).1⟩

end Tun2Socks.Net
