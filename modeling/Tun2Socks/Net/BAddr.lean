import Tun2Socks.Net.ByteOrder

/-!
# Addresses and their texts

`BAddr.h`, as far as the modelled code uses it: the addresses without a type, of IPv4 and of
IPv6, `BAddr_CompareOrder`, `BAddr_Print` and `BAddr_Parse2`.

* The fields of an address are in network byte order, as they lie in memory.
* `getaddrinfo` belongs to the C library and is a parameter, `GetAddrInfo`. The one thing
  assumed of it is `GetAddrInfo.Numeric`: a dotted-decimal text resolves to the address it
  denotes.

The main result is `bAddrParse_bAddrPrint`: the text of an IPv4 address and port parses to
that address and port.
-/

namespace Tun2Socks.Net

open Framework Std

variable {α : Type}

/-! ### Addresses -/

/-- `BIPAddr`. -/
inductive BIPAddr
  | none
  | ipv4 (ip : Buffer Byte 4)
  | ipv6 (ip : Buffer Byte 16)
  deriving DecidableEq

/-- `BAddr`. -/
inductive BAddr
  | none
  | ipv4 (ip : Buffer Byte 4) (port : Word16)
  | ipv6 (ip : Buffer Byte 16) (port : Word16)
  deriving DecidableEq

/-! ### Comparing -/

/-- The number of the type. -/
def BAddr.type : BAddr → ℕ
  | .none => 0
  | .ipv4 _ _ => 1
  | .ipv6 _ _ => 2

/-- `memcmp`, as far as its sign goes. -/
def memcmp {n : ℕ} (b1 b2 : Buffer Byte n) : Ordering :=
  compare (b1.cells.map UInt8.toNat) (b2.cells.map UInt8.toNat)

def bAddrCompareOrder (o : ByteOrder) (addr1 addr2 : BAddr) : Ordering :=
  (compare addr1.type addr2.type).then <|
    match addr1, addr2 with
    | .ipv4 ip1 port1, .ipv4 ip2 port2 =>
      (compare ((ntoh32 o (word32At ip1.cells 0)).toNat o)
        ((ntoh32 o (word32At ip2.cells 0)).toNat o)).then
        (compare ((ntoh16 o port1).toNat o) ((ntoh16 o port2).toNat o))
    | .ipv6 ip1 port1, .ipv6 ip2 port2 =>
      (memcmp ip1 ip2).then (compare ((ntoh16 o port1).toNat o) ((ntoh16 o port2).toNat o))
    | _, _ => .eq

/-- What the comparison compares: the type, the address and the port. -/
def orderKey (o : ByteOrder) : BAddr → ℕ × List ℕ × ℕ
  | .none => (0, [], 0)
  | .ipv4 ip port => (1, [(ntoh32 o (word32At ip.cells 0)).toNat o], (ntoh16 o port).toNat o)
  | .ipv6 ip port => (2, ip.cells.map UInt8.toNat, (ntoh16 o port).toNat o)

/-- The lexicographic order of the keys. -/
def compareKeys : ℕ × List ℕ × ℕ → ℕ × List ℕ × ℕ → Ordering :=
  compareLex (compareOn Prod.fst)
    (compareLex (compareOn fun k => k.2.1) (compareOn fun k => k.2.2))

theorem bAddrCompareOrder_eq (o : ByteOrder) (addr1 addr2 : BAddr) :
    bAddrCompareOrder o addr1 addr2 = compareKeys (orderKey o addr1) (orderKey o addr2) := by
  cases addr1 <;> cases addr2 <;> try rfl
  -- two addresses of IPv4: a list of one number compares as the number does
  rename_i ip1 port1 ip2 port2
  change (Ordering.eq).then _ = (Ordering.eq).then _
  rw [Ordering.eq_then, Ordering.eq_then]
  change _ = (List.compareLex compare [_] [_]).then _
  rw [List.compareLex_cons_cons]
  change _ = ((compare _ _).then Ordering.eq).then _
  rw [Ordering.then_eq]
  rfl

/-- Bytes are known by the numbers that `memcmp` compares. -/
theorem toNat_cells_injective {n : ℕ} :
    Function.Injective fun b : Buffer Byte n => b.cells.map UInt8.toNat := by
  rintro ⟨cells, hlen⟩ ⟨cells', hlen'⟩ h
  obtain rfl := List.map_injective_iff.mpr (fun _ _ => UInt8.toNat_inj.mp) h
  rfl

/-- An IPv4 address is the word that its bytes make up. -/
theorem word32At_cells_injective :
    Function.Injective fun ip : Buffer Byte 4 => word32At ip.cells 0 := by
  rintro ⟨cells, hlen⟩ ⟨cells', hlen'⟩ h
  obtain ⟨b0, b1, b2, b3, rfl⟩ := List.length_eq_four.mp hlen
  obtain ⟨c0, c1, c2, c3, rfl⟩ := List.length_eq_four.mp hlen'
  obtain ⟨rfl, rfl, rfl, rfl⟩ := Word32.mk.inj h
  rfl

theorem orderKey_injective (o : ByteOrder) : Function.Injective (orderKey o) := by
  have hport : Function.Injective fun port => (ntoh16 o port).toNat o := by
    intro p q h
    have hswap := toNat_injective o h
    rw [← hton16_ntoh16 o p, hswap, hton16_ntoh16]
  intro a b h
  obtain ⟨htype, hip, hport'⟩ : (orderKey o a).1 = (orderKey o b).1 ∧
      (orderKey o a).2.1 = (orderKey o b).2.1 ∧ (orderKey o a).2.2 = (orderKey o b).2.2 := by
    rw [h]
    exact ⟨rfl, rfl, rfl⟩
  cases a <;> cases b <;> try cases htype
  · rfl
  · have hwords := ntoh32_toNat_injective o (List.singleton_inj.mp hip)
    rw [word32At_cells_injective hwords, hport hport']
  · rw [toNat_cells_injective hip, hport hport']

instance : TransCmp compareKeys := inferInstanceAs (TransCmp (compareLex _ (compareLex _ _)))

instance (o : ByteOrder) : TransCmp (bAddrCompareOrder o) where
  eq_swap {a b} := by
    rw [bAddrCompareOrder_eq, bAddrCompareOrder_eq]
    exact OrientedCmp.eq_swap
  isLE_trans {a b c} h h' := by
    rw [bAddrCompareOrder_eq] at h h' ⊢
    exact TransCmp.isLE_trans h h'

/-- Addresses that compare as equal are equal. -/
instance (o : ByteOrder) : LawfulEqCmp (bAddrCompareOrder o) where
  compare_self := ReflCmp.compare_self
  eq_of_compare {a b} h := by
    rw [bAddrCompareOrder_eq] at h
    obtain ⟨htype, hrest⟩ := compareLex_eq_eq.mp h
    obtain ⟨hip, hport⟩ := compareLex_eq_eq.mp hrest
    refine orderKey_injective o (Prod.ext ?_ (Prod.ext ?_ ?_))
    · exact LawfulEqCmp.eq_of_compare htype
    · exact LawfulEqCmp.eq_of_compare hip
    · exact LawfulEqCmp.eq_of_compare hport

/-! ### Printing -/

/-- `"(none)"`. -/
def noneText : CString := ⟨[40, 110, 111, 110, 101, 41], by decide⟩

/-- `"."`. -/
def dot : CString := ⟨[46], by decide⟩

/-- `":"`. -/
def colon : CString := ⟨[58], by decide⟩

def bipAddrPrint : BIPAddr → CString
  | .none => noneText
  | .ipv4 ip => CString.join dot (ip.cells.map fun b => decimal b.toNat)
  | .ipv6 ip => CString.join colon ((readBe16s ip.cells).map hexadecimal)

/-- `BADDR_MAX_PRINT_LEN`. -/
def baddrMaxPrintLen : ℕ := 120

def bAddrPrint (o : ByteOrder) : BAddr → CString
  | .none => noneText
  | .ipv4 ip port => bipAddrPrint (.ipv4 ip) ++ (colon ++ decimal ((ntoh16 o port).toNat o))
  | .ipv6 ip port => bipAddrPrint (.ipv6 ip) ++ (colon ++ decimal ((ntoh16 o port).toNat o))

/-! ### Parsing -/

/-- `getaddrinfo`, for a numeric host only or not: the first address it returns. -/
structure GetAddrInfo where
  ipv4 : Bool → CString → Option (Buffer Byte 4)
  ipv6 : Bool → CString → Option (Buffer Byte 16)

/-- A dotted-decimal text resolves to the address it denotes. -/
def GetAddrInfo.Numeric (g : GetAddrInfo) : Prop :=
  ∀ numericHost ip, g.ipv4 numericHost (bipAddrPrint (.ipv4 ip)) = some ip

/-- The port of `BAddr_Parse2`, in network byte order. -/
def parsePort (o : ByteOrder) (str : List Byte) : Option Word16 :=
  let (number, err) := strtol str
  if str = [] ∨ err ≠ [] then none
  else if number < 0 ∨ 65535 < number then none
  else some (hton16 o (Word16.ofNat o number.toNat))

/-- The end of `BAddr_Parse2`, once the text is split into the address and the port. The
buffers for the two have 128 and 6 bytes. -/
def parseParts (o : ByteOrder) (resolve : CString → Option α) (make : α → Word16 → BAddr)
    (addrStr : CString) (portStr : List Byte) : Option BAddr :=
  if 128 ≤ addrStr.chars.length then none
  else if 6 ≤ portStr.length then none
  else (parsePort o portStr).bind fun port => (resolve addrStr).map fun ip => make ip port

/-- `BAddr_Parse2`, for a caller that does not ask for the name. -/
def bAddrParse2 (o : ByteOrder) (g : GetAddrInfo) (str : CString) (noresolve : Bool) :
    Option BAddr :=
  if str.chars.length < 1 ∨ 1000 < str.chars.length then none
  -- a leading bracket indicates an IPv6 address
  else if str.chars.head? = some 91 then
    let inner : CString := ⟨str.chars.tail, fun h => str.noNul (List.mem_of_mem_tail h)⟩
    match inner.chars.dropWhile (· ≠ 93) with
    | _ :: 58 :: portStr =>
      parseParts o (g.ipv6 noresolve) .ipv6 (inner.takeWhile (· ≠ 93)) portStr
    | _ => none
  else
    match str.chars.dropWhile (· ≠ 58) with
    | _ :: portStr => parseParts o (g.ipv4 noresolve) .ipv4 (str.takeWhile (· ≠ 58)) portStr
    | [] => none

def bAddrParse (o : ByteOrder) (g : GetAddrInfo) (str : CString) : Option BAddr :=
  bAddrParse2 o g str false

/-! ### The round trip -/

/-- An IPv4 text is made of digits and dots. -/
theorem mem_bipAddrPrint_ipv4 {ip : Buffer Byte 4} {b : Byte}
    (h : b ∈ (bipAddrPrint (.ipv4 ip)).chars) : b = 46 ∨ isDigit b = true := by
  obtain hdot | ⟨s, hs, hb⟩ := CString.mem_join h
  · exact .inl (List.mem_singleton.mp hdot)
  · obtain ⟨n, -, rfl⟩ := List.mem_map.mp hs
    exact .inr (isDigit_of_mem_decimal hb)

theorem length_bipAddrPrint_ipv4 (ip : Buffer Byte 4) :
    (bipAddrPrint (.ipv4 ip)).chars.length ≤ 16 := by
  have hbyte : ∀ s ∈ ip.cells.map (fun b : Byte => decimal b.toNat), s.chars.length ≤ 3 := by
    intro s hs
    obtain ⟨b, -, rfl⟩ := List.mem_map.mp hs
    have := b.toNat_lt
    exact length_decimal_le (by decide) (by omega)
  calc (bipAddrPrint (.ipv4 ip)).chars.length
      ≤ (ip.cells.map fun b : Byte => decimal b.toNat).length * (dot.chars.length + 3) :=
        CString.length_join_le hbyte
    _ = 16 := by rw [List.length_map, ip.length_eq]; rfl

theorem length_decimal_port_le (o : ByteOrder) (port : Word16) :
    (decimal ((ntoh16 o port).toNat o)).chars.length ≤ 5 :=
  length_decimal_le (by decide) (by have := toNat_lt o (ntoh16 o port); omega)

/-- The text of an IPv4 address and port, with its terminator, fits the buffers for it. -/
theorem length_bAddrPrint_ipv4 (o : ByteOrder) (ip : Buffer Byte 4) (port : Word16) :
    (bAddrPrint o (.ipv4 ip port)).memory.length ≤ baddrMaxPrintLen := by
  have haddr := length_bipAddrPrint_ipv4 ip
  have hport := length_decimal_port_le o port
  rw [CString.memory, bAddrPrint, CString.chars_append, CString.chars_append, List.length_append,
    List.length_append, List.length_append, List.length_singleton, baddrMaxPrintLen]
  change _ + (1 + _) + 1 ≤ 120
  omega

/-- A port is read back as it was printed. -/
theorem parsePort_decimal (o : ByteOrder) (port : Word16) :
    parsePort o (decimal ((ntoh16 o port).toNat o)).chars = some port := by
  have hlt := toNat_lt o (ntoh16 o port)
  rw [parsePort, strtol_decimal]
  dsimp only
  rw [if_neg (by simp [decimal_ne_nil]), if_neg (by omega), Int.toNat_natCast, ofNat_toNat,
    hton16_ntoh16]

/-- **Round trip.** The text of an IPv4 address and port parses to that address and port. -/
theorem bAddrParse_bAddrPrint (o : ByteOrder) {g : GetAddrInfo} (hg : g.Numeric)
    (ip : Buffer Byte 4) (port : Word16) :
    bAddrParse o g (bAddrPrint o (.ipv4 ip port)) = some (.ipv4 ip port) := by
  set addrText := bipAddrPrint (.ipv4 ip)
  set portText := decimal ((ntoh16 o port).toNat o)
  have haddr : ∀ b ∈ addrText.chars, decide (b ≠ 58) = true := by
    intro b hb
    refine decide_eq_true ?_
    rintro rfl
    exact nomatch (mem_bipAddrPrint_ipv4 hb)
  have haddr_len : addrText.chars.length ≤ 16 := length_bipAddrPrint_ipv4 ip
  have hport_len : portText.chars.length ≤ 5 := length_decimal_port_le o port
  have htext : (bAddrPrint o (.ipv4 ip port)).chars = addrText.chars ++ 58 :: portText.chars := rfl
  -- the text is split at the colon
  have hdrop : (bAddrPrint o (.ipv4 ip port)).chars.dropWhile (· ≠ 58) = 58 :: portText.chars := by
    rw [htext, List.dropWhile_append_of_pos haddr, List.dropWhile_cons_of_neg (by decide)]
  have htake : (bAddrPrint o (.ipv4 ip port)).takeWhile (· ≠ 58) = addrText := by
    ext1
    change (addrText.chars ++ 58 :: portText.chars).takeWhile _ = _
    rw [List.takeWhile_append_of_pos haddr, List.takeWhile_cons_of_neg (by decide),
      List.append_nil]
  have hhead : (bAddrPrint o (.ipv4 ip port)).chars.head? ≠ some 91 := by
    rw [htext, List.head?_append]
    cases hchars : addrText.chars with
    | nil => exact (by decide : some (58 : Byte) ≠ some 91)
    | cons b =>
      intro hbracket
      obtain rfl : b = 91 := Option.some.inj hbracket
      have hmem : 91 ∈ addrText.chars := by rw [hchars]; exact List.mem_cons_self
      exact nomatch (mem_bipAddrPrint_ipv4 hmem)
  have hlen : (bAddrPrint o (.ipv4 ip port)).chars.length
      = addrText.chars.length + (portText.chars.length + 1) := by
    rw [htext, List.length_append, List.length_cons]
  rw [bAddrParse, bAddrParse2, if_neg (by omega), if_neg hhead, hdrop]
  dsimp only
  rw [htake, parseParts, if_neg (by omega), if_neg (by omega), parsePort_decimal,
    Option.bind_some, hg, Option.map_some]

/-! ### A library that knows numbers only -/

/-- Four numbers below 256 with dots between them. -/
def parseDotted (str : CString) : Option (Buffer Byte 4) :=
  let parts := str.chars.splitOn 46
  if h : (parts.map fun ds => UInt8.ofNat (ofDigitBytes ds)).length = 4 then
    if ∀ ds ∈ parts, ds ≠ [] ∧ (∀ b ∈ ds, isDigit b = true) ∧ ofDigitBytes ds ≤ 255 then
      some ⟨parts.map fun ds => UInt8.ofNat (ofDigitBytes ds), h⟩
    else none
  else none

/-- A `getaddrinfo` without name resolution and without IPv6. -/
def numericHosts : GetAddrInfo := ⟨fun _ => parseDotted, fun _ _ => none⟩

theorem numeric_numericHosts : numericHosts.Numeric := by
  intro _ ip
  set texts := ip.cells.map fun b : Byte => digitBytes 10 b.toNat
  have hsplit : (bipAddrPrint (.ipv4 ip)).chars.splitOn 46 = texts := by
    have hjoin : (bipAddrPrint (.ipv4 ip)).chars = [46].intercalate texts := by
      rw [bipAddrPrint, CString.chars_join, List.map_map]
      rfl
    rw [hjoin]
    refine List.splitOn_intercalate _ (fun ds hds => ?_) ?_
    · obtain ⟨b, -, rfl⟩ := List.mem_map.mp hds
      exact fun hdot => nomatch (isDigit_of_mem_digitBytes hdot)
    · exact fun hnil => absurd (ip.length_eq ▸ congrArg List.length (List.map_eq_nil_iff.mp hnil))
        (by decide)
  have hbytes : (texts.map fun ds => UInt8.ofNat (ofDigitBytes ds)) = ip.cells := by
    rw [List.map_map]
    refine (List.map_congr_left fun b _ => ?_).trans (List.map_id _)
    exact (congrArg UInt8.ofNat (ofDigitBytes_digitBytes _)).trans (UInt8.ofNat_toNat)
  have hdigits : ∀ ds ∈ texts,
      ds ≠ [] ∧ (∀ b ∈ ds, isDigit b = true) ∧ ofDigitBytes ds ≤ 255 := by
    intro ds hds
    obtain ⟨b, -, rfl⟩ := List.mem_map.mp hds
    refine ⟨decimal_ne_nil _, fun c hc => isDigit_of_mem_digitBytes hc, ?_⟩
    rw [ofDigitBytes_digitBytes]
    exact Nat.le_of_lt_succ b.toNat_lt
  change parseDotted _ = _
  unfold parseDotted
  simp only [hsplit, hbytes, ip.length_eq]
  rw [dif_pos trivial, if_pos hdigits]

/-- Different addresses have different texts. -/
theorem bAddrPrint_ipv4_injective (o : ByteOrder) {ip ip' : Buffer Byte 4} {port port' : Word16}
    (h : bAddrPrint o (.ipv4 ip port) = bAddrPrint o (.ipv4 ip' port')) :
    ip = ip' ∧ port = port' := by
  have hparse := bAddrParse_bAddrPrint o numeric_numericHosts ip port
  rw [h, bAddrParse_bAddrPrint o numeric_numericHosts, Option.some.injEq] at hparse
  obtain ⟨hip, hport⟩ := BAddr.ipv4.inj hparse
  exact ⟨hip.symm, hport.symm⟩

end Tun2Socks.Net
