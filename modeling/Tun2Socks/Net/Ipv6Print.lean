import Tun2Socks.Net.Ipv6Parse

/-!
# The text of an IPv6 address

`ipaddr6_print_addr` writes groups, and `::` for the first of the longest runs of zero groups. What
it writes denotes the address in the grammar of the RFC (`denotes_printAddr`), so the parser reads it
back (`parse_printAddr`), and it fits the buffer of its caller.
-/

namespace Tun2Socks.Net

open Framework

/-! ### The text of a list of blocks -/

/-- Blocks in hexadecimal, with colons between them. -/
def spelled (blocks : List ℕ) : List Byte := (CString.join colonText (blocks.map hexadecimal)).chars

theorem spelled_singleton (b : ℕ) : spelled [b] = (hexadecimal b).chars := rfl

theorem spelled_cons_cons (b b' : ℕ) (bs : List ℕ) :
    spelled (b :: b' :: bs) = (hexadecimal b).chars ++ 58 :: spelled (b' :: bs) := rfl

variable {bs : List ℕ}

/-- The characters of a block in front of a colon. -/
theorem flatMap_colon_after (h : bs ≠ []) :
    bs.flatMap (fun b => (hexadecimal b).chars ++ [58]) = spelled bs ++ [58] := by
  induction bs with
  | nil => exact absurd rfl h
  | cons _ bs ih =>
    cases bs with
    | nil => rw [List.flatMap_singleton, spelled_singleton]
    | cons =>
      rw [List.flatMap_cons, ih (List.cons_ne_nil _ _), spelled_cons_cons, List.append_assoc,
        List.append_assoc, List.singleton_append, List.cons_append]

theorem flatMap_colon_before (h : bs ≠ []) :
    bs.flatMap (fun b => 58 :: (hexadecimal b).chars) = 58 :: spelled bs := by
  induction bs with
  | nil => exact absurd rfl h
  | cons _ bs ih =>
    cases bs with
    | nil => rw [List.flatMap_singleton, spelled_singleton]
    | cons =>
      rw [List.flatMap_cons, ih (List.cons_ne_nil _ _), spelled_cons_cons, List.cons_append]

theorem chars_foldl (f : ℕ → CString) (l : List ℕ) (s : CString) :
    (l.foldl (fun out i => out ++ f i) s).chars = s.chars ++ l.flatMap fun i => (f i).chars := by
  induction l generalizing s with
  | nil => rw [List.foldl_nil, List.flatMap_nil, List.append_nil]
  | cons _ _ ih =>
    rw [List.foldl_cons, ih, CString.chars_append, List.flatMap_cons, List.append_assoc]

/-- Blocks `start` to `start + n` of an address. -/
def blocksAt (addr : Buffer Byte 16) (start n : ℕ) : List ℕ :=
  (List.range' start n).map (blockAt addr)

theorem chars_printCompressed (addr : Buffer Byte 16) {start len : ℕ} (h : start + len ≤ 8) :
    (printCompressed addr start len).chars = spelled (blocksAt addr 0 start) ++
      (58 :: 58 :: spelled (blocksAt addr (start + len) (8 - (start + len)))) := by
  have hfront : ((if start = 0 then (List.range start).foldl
      (fun out i => out ++ (hexadecimal (blockAt addr i) ++ colonText)) emptyText ++ colonText
      else (List.range start).foldl
        (fun out i => out ++ (hexadecimal (blockAt addr i) ++ colonText)) emptyText) :
      CString).chars = spelled (blocksAt addr 0 start) ++ [58] := by
    split_ifs with hzero
    · subst hzero
      rfl
    · rw [chars_foldl, ← flatMap_colon_after, blocksAt, List.range_eq_range', List.flatMap_map]
      · rfl
      · rw [blocksAt, ne_eq, List.map_eq_nil_iff, List.range'_eq_nil_iff]
        exact hzero
  have hrear : (List.range' (start + len) (8 - (start + len))).flatMap
      (fun i => (colonText ++ hexadecimal (blockAt addr i)).chars) ++
        (if start + len = 8 then [58] else []) =
      58 :: spelled (blocksAt addr (start + len) (8 - (start + len))) := by
    split_ifs with hend
    · rw [hend]
      rfl
    · rw [List.append_nil, ← flatMap_colon_before, blocksAt, List.flatMap_map]
      · rfl
      · rw [blocksAt, ne_eq, List.map_eq_nil_iff, List.range'_eq_nil_iff]
        omega
  rw [← List.singleton_append, ← hrear, ← List.append_assoc, ← hfront, printCompressed,
    ← List.append_assoc, ← chars_foldl]
  split_ifs <;> first | rfl | exact (List.append_nil _).symm

theorem chars_printFull (addr : Buffer Byte 16) :
    (printFull addr).chars = spelled (blocksAt addr 0 8) := by
  simp only [printFull, List.range, List.range.loop, List.foldl_cons, List.foldl_nil,
    CString.chars_append, List.append_assoc]
  rfl

/-! ### A block is a group -/

/-- A digit of a number that is printed in hexadecimal. -/
theorem decodeHexDigit_digitChar : ∀ d < 16, decodeHexDigit d.digitChar.toUInt8 = some d := by
  decide

theorem digitBytes_sixteen (b : ℕ) : digitBytes 16 b =
    if b < 16 then [b.digitChar.toUInt8]
    else digitBytes 16 (b / 16) ++ [(b % 16).digitChar.toUInt8] := by
  rw [digitBytes, Nat.toDigits_eq_if (by decide)]
  split_ifs
  · rfl
  · rw [List.map_append]
    rfl

theorem readFrom_digitBytes (b : ℕ) : readFrom decodeHexDigit 16 0 (digitBytes 16 b) = some b := by
  induction b using Nat.strong_induction_on with
  | _ b ih =>
    rw [digitBytes_sixteen]
    split_ifs with hlt
    · rw [readFrom_cons (decodeHexDigit_digitChar b hlt), Nat.zero_mul, Nat.zero_add]
      rfl
    · have hvalue : b / 16 * 16 + b % 16 = b := by omega
      have hfront : readFrom decodeHexDigit 16 0 (digitBytes 16 (b / 16)) = some (b / 16) :=
        ih (b / 16) (by omega)
      rw [readFrom] at hfront
      rw [readFrom, List.foldlM_append, hfront]
      change readFrom decodeHexDigit 16 (b / 16) [(b % 16).digitChar.toUInt8] = some b
      rw [readFrom_cons (decodeHexDigit_digitChar _ (Nat.mod_lt b (by decide))), hvalue]
      rfl

variable {b : ℕ}

theorem length_hexadecimal_le (h : b < 65536) : (hexadecimal b).chars.length ≤ 4 := by
  change ((Nat.toDigits 16 b).map Char.toUInt8).length ≤ 4
  rw [List.length_map]
  exact (Nat.length_toDigits_le_iff (by decide) (by decide)).mpr h

theorem group_hexadecimal (h : b < 65536) : Group (hexadecimal b).chars b := by
  refine ⟨?_, readFrom_digitBytes b, h⟩
  change digitBytes 16 b ≠ []
  rw [digitBytes_sixteen]
  split_ifs <;> simp

theorem pieces_spelled {tail : Bool} (h : ∀ b' ∈ b :: bs, b' < 65536) :
    Pieces tail (spelled (b :: bs)) ((b :: bs).flatMap blockBytes) := by
  induction bs generalizing b with
  | nil =>
    rw [List.flatMap_singleton]
    exact .group (group_hexadecimal (h b List.mem_cons_self))
  | cons _ _ ih =>
    rw [spelled_cons_cons, List.flatMap_cons]
    exact .cons (group_hexadecimal (h b List.mem_cons_self))
      (ih fun b'' hb'' => h b'' (List.mem_cons_of_mem b hb''))

theorem part_spelled {tail : Bool} (h : ∀ b ∈ bs, b < 65536) :
    Part tail (spelled bs) (bs.flatMap blockBytes) := by
  cases bs with
  | nil => exact .inl ⟨rfl, rfl⟩
  | cons => exact .inr (pieces_spelled h)

/-! ### The address and its blocks -/

theorem blockBytes_blockAt (addr : Buffer Byte 16) (i : ℕ) :
    blockBytes (blockAt addr i) = [byteAt addr.cells (2 * i), byteAt addr.cells (2 * i + 1)] := by
  have hlow := (byteAt addr.cells (2 * i + 1)).toNat_lt
  have hdiv : blockAt addr i / 256 = (byteAt addr.cells (2 * i)).toNat := by
    rw [blockAt]
    omega
  have hmod : blockAt addr i % 256 = (byteAt addr.cells (2 * i + 1)).toNat := by
    rw [blockAt]
    omega
  rw [blockBytes, hdiv, UInt8.ofNat_toNat]
  have hrest : UInt8.ofNat (blockAt addr i) = byteAt addr.cells (2 * i + 1) := by
    rw [← UInt8.toNat_inj, UInt8.toNat_ofNat', hmod]
  rw [hrest]

theorem blockAt_lt (addr : Buffer Byte 16) (i : ℕ) : blockAt addr i < 65536 := by
  have hhigh := (byteAt addr.cells (2 * i)).toNat_lt
  have hlow := (byteAt addr.cells (2 * i + 1)).toNat_lt
  rw [blockAt]
  omega

theorem cells_eq_blocks (addr : Buffer Byte 16) :
    addr.cells = (blocksAt addr 0 8).flatMap blockBytes := by
  have hcells : addr.cells = (bytesAt 16 addr.cells 0).cells := by
    rw [cells_bytesAt (by rw [addr.length_eq]), List.drop_zero,
      List.take_of_length_le addr.length_eq.le]
  rw [hcells, blocksAt, List.flatMap_map]
  simp only [blockBytes_blockAt]
  rfl

/-- What the loop knows after `n` blocks: both runs are in front of block `n` and all zero, and the
present one ends there. -/
structure ZeroRuns.Sound (addr : Buffer Byte 16) (n : ℕ) (r : ZeroRuns) : Prop where
  current : r.currentStart + r.currentLen = n
  largest : r.largestStart + r.largestLen ≤ n
  currentZero : ∀ i, r.currentStart ≤ i → i < r.currentStart + r.currentLen → blockAt addr i = 0
  largestZero : ∀ i, r.largestStart ≤ i → i < r.largestStart + r.largestLen → blockAt addr i = 0

variable {addr : Buffer Byte 16}

theorem ZeroRuns.Sound.step {n : ℕ} {r : ZeroRuns} (h : r.Sound addr n) :
    (r.step addr n).Sound addr (n + 1) := by
  have hcurrent := h.current
  have hlargest := h.largest
  unfold ZeroRuns.step
  split_ifs with hzero hlonger
  · have hrun : ∀ i, r.currentStart ≤ i → i < r.currentStart + (r.currentLen + 1) →
        blockAt addr i = 0 := by
      intro i hstart hend
      by_cases hlast : i = n
      · rw [hlast, blockAt, hzero.1, hzero.2]
        rfl
      · exact h.currentZero i hstart (by omega)
    exact ⟨by dsimp only; omega, by dsimp only; omega, hrun, hrun⟩
  · refine ⟨by dsimp only; omega, by dsimp only; omega, ?_, h.largestZero⟩
    intro i hstart hend
    dsimp only at hstart hend
    by_cases hlast : i = n
    · rw [hlast, blockAt, hzero.1, hzero.2]
      rfl
    · exact h.currentZero i hstart (by omega)
  · refine ⟨rfl, by dsimp only; omega, ?_, h.largestZero⟩
    intro i hstart hend
    dsimp only at hstart hend
    omega

theorem sound_zeroRuns (addr : Buffer Byte 16) : (zeroRuns addr).Sound addr 8 := by
  have hloop : ∀ n, ((List.range n).foldl (ZeroRuns.step addr) ⟨0, 0, 0, 0⟩).Sound addr n := by
    intro n
    induction n with
    | zero => exact ⟨rfl, le_rfl, fun i _ h => absurd h (by simp), fun i _ h => nomatch h⟩
    | succ _ ih =>
      rw [List.range_succ, List.foldl_append, List.foldl_cons, List.foldl_nil]
      exact ih.step
  exact hloop 8

/-- An address with a run of zero blocks. -/
theorem cells_eq_of_zero {start len : ℕ} (h : start + len ≤ 8)
    (hzero : ∀ i, start ≤ i → i < start + len → blockAt addr i = 0) :
    addr.cells = (blocksAt addr 0 start).flatMap blockBytes ++ List.replicate (2 * len) 0 ++
      (blocksAt addr (start + len) (8 - (start + len))).flatMap blockBytes := by
  have hsplit : blocksAt addr 0 8 = blocksAt addr 0 start ++ blocksAt addr start len ++
      blocksAt addr (start + len) (8 - (start + len)) := by
    have hfront := List.range'_append_1 (s := 0) (m := start) (n := len)
    have hall := List.range'_append_1 (s := 0) (m := start + len) (n := 8 - (start + len))
    rw [Nat.zero_add] at hfront hall
    rw [Nat.add_sub_cancel' h] at hall
    rw [blocksAt, ← hall, ← hfront, List.map_append, List.map_append]
    rfl
  have hmiddle : (blocksAt addr start len).flatMap blockBytes = List.replicate (2 * len) 0 := by
    have hzeros : blocksAt addr start len = List.replicate len 0 := by
      rw [List.eq_replicate_iff]
      refine ⟨by rw [blocksAt, List.length_map, List.length_range'], fun b hb => ?_⟩
      obtain ⟨i, hi, rfl⟩ := List.mem_map.mp hb
      obtain ⟨hstart, hend⟩ := List.mem_range'_1.mp hi
      exact hzero i hstart hend
    have hbytes : ∀ n, (List.replicate n 0).flatMap blockBytes = List.replicate (2 * n) 0 := by
      intro n
      induction n with
      | zero => rfl
      | succ _ ih =>
        rw [List.replicate_succ, List.flatMap_cons, ih]
        rfl
    rw [hzeros, hbytes]
  rw [cells_eq_blocks addr, hsplit, List.flatMap_append, List.flatMap_append, hmiddle]

/-! ### Round trip -/

theorem length_blocksAt (addr : Buffer Byte 16) (start n : ℕ) :
    (blocksAt addr start n).length = n := by
  rw [blocksAt, List.length_map, List.length_range']

theorem lt_of_mem_blocksAt {start n b : ℕ}
    (h : b ∈ blocksAt addr start n) : b < 65536 := by
  obtain ⟨i, -, rfl⟩ := List.mem_map.mp h
  exact blockAt_lt addr i

/-- **The text denotes the address.** -/
theorem denotes_printAddr (addr : Buffer Byte 16) : Denotes false (printAddr addr).chars addr := by
  have hsmall (start n b : ℕ) (h : b ∈ blocksAt addr start n) : b < 65536 := lt_of_mem_blocksAt h
  have hsound := sound_zeroRuns addr
  have hlargest := hsound.largest
  rw [printAddr]
  split_ifs with hrun
  · have hcells := cells_eq_of_zero hlargest hsound.largestZero
    refine .compressed (chars_printCompressed addr hlargest) (part_spelled (hsmall _ _))
      (part_spelled (hsmall _ _)) ?_ (fun _ => by omega) hcells
    have hlength := addr.length_eq
    rw [hcells] at hlength
    simp only [List.length_append, List.length_replicate] at hlength
    omega
  · rw [chars_printFull]
    refine .full ?_
    rw [cells_eq_blocks]
    exact pieces_spelled (hsmall 0 8)

theorem length_spelled_le (h : ∀ b ∈ bs, b < 65536) :
    (spelled bs).length ≤ 5 * bs.length := by
  have hhex : ∀ text ∈ bs.map hexadecimal, text.chars.length ≤ 4 := by
    intro text htext
    obtain ⟨b, hb, rfl⟩ := List.mem_map.mp htext
    exact length_hexadecimal_le (h b hb)
  have hjoin := @CString.length_join_le colonText _ _ hhex
  rw [List.length_map] at hjoin
  change (CString.join colonText (bs.map hexadecimal)).chars.length ≤ _
  change _ ≤ bs.length * (1 + 4) at hjoin
  omega

theorem length_printAddr_le (addr : Buffer Byte 16) : (printAddr addr).chars.length ≤ 40 := by
  have hspelled : ∀ start n, (spelled (blocksAt addr start n)).length ≤ 5 * n := by
    intro start n
    have hle := @length_spelled_le (blocksAt addr start n) fun b hb => lt_of_mem_blocksAt hb
    rwa [length_blocksAt] at hle
  rw [printAddr]
  split_ifs with hrun
  · have hlargest := (sound_zeroRuns addr).largest
    rw [chars_printCompressed addr hlargest, List.length_append, List.length_cons,
      List.length_cons]
    have hfront := hspelled 0 (zeroRuns addr).largestStart
    have hrear := hspelled ((zeroRuns addr).largestStart + (zeroRuns addr).largestLen)
      (8 - ((zeroRuns addr).largestStart + (zeroRuns addr).largestLen))
    omega
  · rw [chars_printFull]
    exact hspelled 0 8

theorem parseIpv6Addr_memory (text : CString) (outAddr : Buffer Byte 16) :
    parseIpv6Addr text.memory outAddr = parseIpv6AddrBin text.chars outAddr := by
  rw [parseIpv6Addr, CString.strlen_memory, CString.memory, List.take_left]

/-- **Round trip.** The text of an address, with its terminator, fits the buffer, and it parses to
the address, whatever the address was before. -/
theorem parse_printAddr (addr outAddr : Buffer Byte 16) :
    (printAddr addr).memory.length ≤ ipaddr6PrintMax ∧
      parseIpv6Addr (printAddr addr).memory outAddr = .ok addr := by
  constructor
  · have hlen := length_printAddr_le addr
    rw [CString.memory, List.length_append, List.length_singleton, ipaddr6PrintMax]
    omega
  · rw [parseIpv6Addr_memory]
    exact ((decides_parse _ outAddr).ok_iff addr).mpr (denotes_printAddr addr)

/-- `2001:db8::1`, which has one run, and `::`. -/
example : (printAddr ⟨[32, 1, 13, 184, 0, 0, 0, 0, 0, 0, 0, 0, 0, 0, 0, 1], rfl⟩).chars =
    [50, 48, 48, 49, 58, 100, 98, 56, 58, 58, 49] ∧
    (printAddr ⟨List.replicate 16 0, rfl⟩).chars = [58, 58] := by
  decide +kernel

end Tun2Socks.Net
