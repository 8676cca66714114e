import Tun2Socks.Net.Ipv6Grammar

/-!
# What the parser accepts

`ipaddr6_parse_ipv6_addr_bin` decides the grammar in which `::` may stand for no group
(`decides_parse`): it never leaves its memory, and it returns the address that the text denotes
there, or fails if there is none. Where `::` is not beside eight groups, that is the grammar of
addresses (`parse_exact`).

* `Stored` describes the bytes of the address so far, in front of `::` and behind it, and
  `Stored.decides_expand` what becomes of them at the end of the text.
* What is returned is denoted (`Sound`). `Spells` goes along with the loop, character by character:
  the text so far, whatever groups may follow, is the beginning of an address.
* What is denoted is returned. The parser is run along the derivation, one group after the other.
-/

namespace Tun2Socks.Net

open Framework

/-! ### Outcomes -/

/-- A part of the parser stays inside of its memory, and returns what is described, or fails if there
is no such thing. -/
structure Decides {α : Type} (x : Except ParseStop α) (P : α → Prop) : Prop where
  inside : x ≠ .error .bounds
  ok_iff : ∀ a, x = .ok a ↔ P a

section Decides

variable {α : Type} {P Q : α → Prop} {x : Except ParseStop α}

theorem decides_fail (h : ∀ a, ¬ P a) : Decides (.error .fail) P :=
  ⟨by rintro ⟨⟩, fun a => iff_of_false (by rintro ⟨⟩) (h a)⟩

theorem decides_ok {a : α} (h : ∀ a', P a' ↔ a' = a) : Decides (.ok a) P :=
  ⟨by rintro ⟨⟩, fun a' => by rw [h a', Except.ok.injEq, eq_comm]⟩

/-- A part of the parser stays inside of its memory, and returns only what is described. -/
structure Sound {α : Type} (x : Except ParseStop α) (P : α → Prop) : Prop where
  inside : x ≠ .error .bounds
  ok : ∀ a, x = .ok a → P a

theorem sound_fail : Sound (.error .fail) P := ⟨by rintro ⟨⟩, by rintro _ ⟨⟩⟩

theorem sound_ok {a : α} (h : P a) : Sound (.ok a) P :=
  ⟨by rintro ⟨⟩, fun _ heq => Except.ok.inj heq ▸ h⟩

theorem Sound.bind {β : Type} {f : α → Except ParseStop β} {R : β → Prop} (h : Sound x P)
    (hf : ∀ a, P a → Sound (f a) R) : Sound (x >>= f) R := by
  cases x with
  | error e =>
    cases e with
    | bounds => exact absurd rfl h.inside
    | fail => exact sound_fail
  | ok a => exact hf a (h.ok a rfl)

end Decides

/-! ### The bytes of the address -/

/-- The bytes in front of `::`, and those behind it if it was there. -/
abbrev Halves := List Byte × Option (List Byte)

namespace Halves

/-- Bytes are added at the end. -/
def add (h : Halves) (bs : List Byte) : Halves :=
  match h.2 with
  | none => (h.1 ++ bs, none)
  | some rear => (h.1, some (rear ++ bs))

def all (h : Halves) : List Byte := h.1 ++ h.2.getD []

/-- The address when the text is at its end. -/
def Fills (h : Halves) (addr : Buffer Byte 16) : Prop :=
  match h.2 with
  | none => addr.cells = h.1
  | some rear => ∃ n, addr.cells = h.1 ++ List.replicate (2 * n) 0 ++ rear

theorem all_add (h : Halves) (bs : List Byte) : (h.add bs).all = h.all ++ bs := by
  obtain ⟨front, _ | rear⟩ := h <;> simp [add, all]

theorem add_add (h : Halves) (bs bs' : List Byte) : (h.add bs).add bs' = h.add (bs ++ bs') := by
  obtain ⟨front, _ | rear⟩ := h <;> simp [add]

end Halves

section Ends

variable {addr : Buffer Byte 16} {h : Halves}

theorem Halves.Fills.length_le (hfills : h.Fills addr) : h.all.length ≤ 16 := by
  obtain ⟨front, _ | rear⟩ := h
  · have hcells : addr.cells = front := hfills
    simp [Halves.all, ← hcells, addr.length_eq]
  · obtain ⟨n, hcells⟩ := hfills
    have hlen := addr.length_eq
    simp only [hcells, List.length_append] at hlen
    simp only [Halves.all, Option.getD_some, List.length_append]
    omega

end Ends

namespace Ipv6Scan

variable {s : Ipv6Scan} {h : Halves} {i v : ℕ} {w rest p name : List Byte}

/-- The bytes that are stored. -/
structure Stored (s : Ipv6Scan) (h : Halves) : Prop where
  length : h.all.length = 2 * s.numBlocks
  le : s.numBlocks ≤ 8
  bytes : s.bytes.take (2 * s.numBlocks) = h.all
  compressPos : s.compressPos = h.2.map fun _ => h.1.length / 2
  even : h.1.length % 2 = 0

theorem Stored.put (hs : s.Stored h) {data : List Byte} {m : ℕ} (hlen : data.length = 2 * m)
    (hroom : s.numBlocks + m ≤ 8) :
    ∃ bytes, putBytes s.bytes (2 * s.numBlocks) data = .ok bytes ∧
      Stored { s with bytes, numBlocks := s.numBlocks + m } (h.add data) := by
  have hfits : 2 * s.numBlocks + data.length ≤ 16 := by omega
  have hlength := hs.length
  have hbytes := hs.bytes
  have heven := hs.even
  have hpos := hs.compressPos
  refine ⟨s.bytes.write _ data hfits, dif_pos hfits, ?_, hroom, ?_, ?_, ?_⟩
  · rw [Halves.all_add, List.length_append]
    dsimp only
    omega
  · rw [Halves.all_add, ← hbytes]
    exact Buffer.take_write _ hfits (by dsimp only; omega)
  · obtain ⟨front, _ | rear⟩ := h <;> exact hpos
  · obtain ⟨front, _ | rear⟩ := h
    · change (front ++ data).length % 2 = 0
      rw [List.length_append]
      change front.length % 2 = 0 at heven
      omega
    · exact heven

/-- The bytes in front of `compressPos` stay, those behind it are at the end, and in between is
zero. -/
theorem expandAt_of_take {front rear : List Byte}
    (hbytes : s.bytes.take (2 * s.numBlocks) = front ++ rear)
    (hlen : front.length + rear.length = 2 * s.numBlocks) (heven : front.length % 2 = 0)
    (hle : s.numBlocks ≤ 8) :
    ∃ addr, s.expandAt (front.length / 2) = .ok addr ∧
      addr.cells = front ++ List.replicate (2 * (8 - s.numBlocks)) 0 ++ rear := by
  have hcells := s.bytes.length_eq
  have hpos : 2 * (front.length / 2) = front.length := by omega
  have hrear : 2 * (s.numBlocks - front.length / 2) = rear.length := by omega
  have hslice : s.bytes.slice front.length (front.length + rear.length) = rear := by
    rw [Buffer.slice, hlen, ← Buffer.take, hbytes, List.drop_left]
  have htake : s.bytes.cells.take front.length = front := by
    have hprefix := congrArg (List.take front.length) hbytes
    rwa [Buffer.take, List.take_take, Nat.min_eq_left (by omega), List.take_left] at hprefix
  have hfits : 16 - rear.length + rear.length ≤ 16 := by omega
  have hzeros : front.length + (List.replicate (2 * (8 - s.numBlocks)) (0 : Byte)).length ≤ 16 := by
    rw [List.length_replicate]
    omega
  have hoffset : 2 * (8 - (s.numBlocks - front.length / 2)) = 16 - rear.length := by omega
  have hgap : 8 - (s.numBlocks - front.length / 2) - front.length / 2 = 8 - s.numBlocks := by omega
  refine ⟨(s.bytes.write (16 - rear.length) rear hfits).write front.length _ hzeros, ?_, ?_⟩
  · rw [expandAt, if_neg (by omega)]
    dsimp only
    rw [hgap, hoffset, hrear, hpos, hslice, putBytes, dif_pos hfits]
    exact dif_pos hzeros
  · have hstart : (s.bytes.cells.take (16 - rear.length)).length = 16 - rear.length := by
      rw [List.length_take]
      omega
    simp only [Buffer.write, List.append_assoc, List.length_replicate]
    rw [List.take_append_of_le_length (by omega), List.take_take, Nat.min_eq_left (by omega), htake,
      List.drop_append, hstart, List.drop_of_length_le (by omega), List.nil_append]
    have hzero : front.length + 2 * (8 - s.numBlocks) - (16 - rear.length) = 0 := by omega
    rw [hzero, List.drop_zero, List.drop_of_length_le (by omega), List.append_nil]

/-- **The end of the text.** The bytes that are stored are the address. -/
theorem Stored.decides_expand (hs : s.Stored h) : Decides s.expand h.Fills := by
  have hbytes := hs.bytes
  have hlength := hs.length
  have heven := hs.even
  have heq {addr addr' : Buffer Byte 16} (h : addr'.cells = addr.cells) : addr' = addr := by
    rw [← Buffer.mk.injEq addr'.cells addr'.length_eq addr.cells addr.length_eq] at h
    exact h
  rw [expand, hs.compressPos]
  obtain ⟨front, _ | rear⟩ := h
  · simp only [Halves.all, Option.getD_none, List.append_nil] at hbytes hlength
    dsimp only [Option.map_none]
    by_cases height : s.numBlocks = 8
    · have hrear : s.bytes.take (2 * s.numBlocks) = [] ++ front := hbytes
      obtain ⟨addr, hexpand, hcells⟩ := expandAt_of_take hrear
        ((Nat.zero_add _).trans hlength) rfl hs.le
      change s.expandAt 0 = _ at hexpand
      rw [height] at hcells
      rw [if_neg (not_not.mpr height), hexpand]
      refine decides_ok fun addr' => ⟨fun hfills => heq (hfills.trans hcells.symm), ?_⟩
      rintro rfl
      exact hcells
    · rw [if_pos height]
      refine decides_fail fun addr hfills => height ?_
      have hcells : addr.cells = front := hfills
      have hsixteen := addr.length_eq
      rw [hcells] at hsixteen
      omega
  · simp only [Halves.all, Option.getD_some, List.length_append] at hbytes hlength
    obtain ⟨addr, hexpand, hcells⟩ := expandAt_of_take hbytes hlength heven hs.le
    dsimp only [Option.map_some]
    rw [hexpand]
    refine decides_ok fun addr' => ⟨?_, ?_⟩
    · rintro ⟨n, haddr⟩
      have hsixteen := addr'.length_eq
      simp only [haddr, List.length_append, List.length_replicate] at hsixteen
      have hn : 2 * n = 2 * (8 - s.numBlocks) := by omega
      rw [hn, ← hcells] at haddr
      exact heq haddr
    · rintro rfl
      exact ⟨_, hcells⟩

/-- A block is stored at a colon. -/
theorem Stored.endBlock (hs : s.Stored h) (hroom : s.numBlocks ≤ 6) (hempty : s.empty = false) :
    ∃ s', s.endBlock = .ok s' ∧ s'.Stored (h.add (blockBytes s.block)) ∧ s'.numBlocks ≤ 7 ∧
      s'.block = 0 ∧ s'.empty = true := by
  have hlen : (blockBytes s.block).length = 2 * 1 := rfl
  obtain ⟨bytes, hput, hstored⟩ := hs.put hlen (by omega)
  refine ⟨{ s with bytes, numBlocks := s.numBlocks + 1, block := 0, empty := true }, ?_,
    ⟨hstored.length, hstored.le, hstored.bytes, hstored.compressPos, hstored.even⟩,
    Nat.succ_le_succ hroom, rfl, rfl⟩
  rw [Ipv6Scan.endBlock, if_neg (by rw [hempty]; rintro (h | h) <;> simp_all), store, hput]
  rfl

theorem Stored.compress {front : List Byte} (hs : s.Stored (front, none)) :
    s.compress = .ok { s with compressPos := some s.numBlocks } ∧
      Stored { s with compressPos := some s.numBlocks } (front, some []) := by
  have hlength := hs.length
  simp only [Halves.all, Option.getD_none, List.append_nil] at hlength
  refine ⟨if_neg (not_not.mpr hs.compressPos), hs.length, hs.le, hs.bytes, ?_, hs.even⟩
  simp only [Option.map_some, Option.some.injEq]
  omega

end Ipv6Scan

/-! ### What is returned is denoted -/

/-- The text and the numbers so far may be continued by any others. -/
structure Ipv4Scan.Spells (s : Ipv4Scan) (p w : List Byte) : Prop where
  lead : ∀ t bs, Octets t bs → Octets (p ++ t) (s.bytes ++ bs)
  value : readFrom decodeDecimalDigit 10 0 w = some s.byte
  lt : s.byte < 256
  empty : s.empty = true ↔ w = []
  zero : w.head? = some 48 → w = [48]
  room : s.bytes.length ≤ 3

namespace Ipv4Scan

variable {s : Ipv4Scan} {p w rest : List Byte} {c : Byte}

theorem Spells.octet (h : s.Spells p w) (hempty : s.empty ≠ true) : Octet w s.byte :=
  ⟨fun hnil => hempty (h.empty.mpr hnil), h.value, h.lt, h.zero⟩

theorem Spells.sound_dot (h : s.Spells p w) :
    Sound s.dot fun s' => s'.Spells (p ++ w ++ [46]) [] := by
  have hroom := h.room
  rw [dot]
  split_ifs with hstop
  · exact sound_fail
  rw [not_or] at hstop
  rw [store, if_pos (Nat.lt_succ_of_le hroom)]
  refine sound_ok ⟨fun t bs ht => ?_, rfl, Nat.zero_lt_succ 255, iff_of_true rfl rfl, nofun, ?_⟩
  · simpa using h.lead _ _ (.cons (h.octet hstop.1) ht)
  · rw [List.length_append, List.length_singleton]
    omega

theorem Spells.sound_digit (h : s.Spells p w) :
    Sound (s.digit c) fun s' => s'.Spells p (w ++ [c]) := by
  rw [digit]
  by_cases hzero : ¬ s.empty = true ∧ s.byte = 0
  · rw [if_pos hzero]
    exact sound_fail
  rw [if_neg hzero]
  cases hc : decodeDecimalDigit c with
  | none => exact sound_fail
  | some d =>
    have hd := decodeDecimalDigit_lt c d hc
    dsimp only
    split_ifs
    · exact sound_fail
    · exact sound_fail
    refine sound_ok ⟨h.lead, readFrom_concat h.value hc, by dsimp only; omega, by simp, ?_, h.room⟩
    intro hhead
    cases w with
    | nil => exact congrArg (· :: []) (Option.some.inj hhead)
    | cons c' w =>
      -- a zero is not followed by a digit
      have hw := h.zero hhead
      rw [hw] at h
      refine absurd ⟨fun hempty => ?_, (Option.some.inj h.value).symm⟩ hzero
      cases h.empty.mp hempty

/-- **The second loop** reads octets with dots between them. -/
theorem Spells.sound_scan (h : s.Spells p w) : Sound (scan s rest >>= finish) fun data =>
    Octets (p ++ w ++ rest) data ∧ data.length = 4 := by
  induction rest generalizing s p w with
  | nil =>
    have hroom := h.room
    change Sound s.finish _
    rw [finish]
    split_ifs with hstop
    · exact sound_fail
    rw [not_or, not_not] at hstop
    rw [store, if_pos (Nat.lt_succ_of_le hroom), List.append_nil]
    refine sound_ok ⟨h.lead _ _ (.one (h.octet hstop.2)), ?_⟩
    rw [List.length_append, hstop.1]
    rfl
  | cons c rest ih =>
    rw [scan]
    split_ifs with hc
    · subst hc
      rw [bind_assoc]
      refine h.sound_dot.bind fun s' h' => ?_
      simpa using ih h'
    · rw [bind_assoc]
      refine h.sound_digit.bind fun s' h' => ?_
      simpa using ih h'

end Ipv4Scan

/-- The text `p` with the bytes `front`, and any groups behind it, are groups again. -/
def Leads (p front : List Byte) : Prop :=
  ∀ tail t bs, Pieces tail t bs → Pieces tail (p ++ t) (front ++ bs)

/-- The text so far, up to the start of a group. -/
def Begun (p : List Byte) : Halves → Prop
  | (front, none) => Leads p front
  | (front, some rear) => ∃ f r, p = f ++ 58 :: 58 :: r ∧ Part false f front ∧
      front.length < 16 ∧ Leads r rear ∧ (rear = [] → r = [])

section Begun

variable {p w t bs : List Byte} {v : ℕ} {h : Halves} {addr : Buffer Byte 16}

theorem Leads.colon {front : List Byte} (h : Leads p front) (hv : Group w v) :
    Leads (p ++ w ++ [58]) (front ++ blockBytes v) := by
  intro tail t bs ht
  simpa using h tail _ _ (.cons hv ht)

theorem Begun.colon (hp : Begun p h) (hv : Group w v) :
    Begun (p ++ w ++ [58]) (h.add (blockBytes v)) := by
  obtain ⟨front, _ | rear⟩ := h
  · exact Leads.colon hp hv
  · obtain ⟨f, r, rfl, hf, hlt, hr, -⟩ := hp
    exact ⟨f, r ++ w ++ [58], by simp, hf, hlt, hr.colon hv, by simp [blockBytes]⟩

/-- The end of the text, behind groups. -/
theorem Begun.denotes (hp : Begun p h) (ht : Pieces true t bs)
    (hfills : (h.add bs).Fills addr) : Denotes false (p ++ t) addr := by
  obtain ⟨front, _ | rear⟩ := h
  · have hcells : addr.cells = front ++ bs := hfills
    exact .full (hcells ▸ hp true t bs ht)
  · obtain ⟨f, r, rfl, hf, hlt, hr, -⟩ := hp
    obtain ⟨n, hcells⟩ := hfills
    exact .compressed (by simp) hf (.inr (hr true t bs ht)) hlt nofun hcells

end Begun

namespace Ipv6Scan

variable {s : Ipv6Scan} {h : Halves} {i : ℕ} {p w rest name : List Byte} {c : Byte}

/-- The variables behind the text `p` of groups, and the digits `w` of another one. -/
structure Spells (s : Ipv6Scan) (h : Halves) (p w : List Byte) : Prop where
  stored : s.Stored h
  room : s.numBlocks ≤ 7
  begun : Begun p h
  behind : p = [] ∧ h = ([], none) ∨ ∃ p', p = p' ++ [58]
  value : readFrom decodeHexDigit 16 0 w = some s.block
  lt : s.block < 65536
  empty : s.empty = true ↔ w = []

theorem Spells.group (hs : s.Spells h p w) (hempty : s.empty ≠ true) : Group w s.block :=
  ⟨mt hs.empty.mpr hempty, hs.value, hs.lt⟩

theorem Spells.sound_digit (hs : s.Spells h p w) :
    Sound (s.digit c) fun s' => s'.Spells h p (w ++ [c]) := by
  rw [digit]
  cases hc : decodeHexDigit c with
  | none => exact sound_fail
  | some d =>
    dsimp only
    split_ifs
    · exact sound_fail
    · exact sound_fail
    · have h' := hs.stored
      exact sound_ok ⟨⟨h'.length, h'.le, h'.bytes, h'.compressPos, h'.even⟩, hs.room, hs.begun,
        hs.behind, readFrom_concat hs.value hc, by dsimp only; omega, by simp⟩

/-- A colon behind a group. -/
theorem Spells.sound_endBlock (hs : s.Spells h p w) : Sound s.endBlock fun s' =>
    s'.Spells (h.add (blockBytes s.block)) (p ++ w ++ [58]) [] ∧ Group w s.block := by
  by_cases hstop : s.empty = true ∨ s.numBlocks = 7
  · rw [endBlock, if_pos hstop]
    exact sound_fail
  rw [not_or] at hstop
  have hroom := hs.room
  have hv := hs.group hstop.1
  obtain ⟨s', hend, hstored, hle, hblock, hempty⟩ :=
    hs.stored.endBlock (by omega) (Bool.eq_false_iff.mpr hstop.1)
  rw [hend]
  exact sound_ok ⟨⟨hstored, hle, hs.begun.colon hv, .inr ⟨_, rfl⟩, hblock ▸ rfl,
    hblock ▸ Nat.zero_lt_succ _, iff_of_true hempty rfl⟩, hv⟩

/-- The second of two colons, behind the text `q`. -/
theorem Spells.sound_compress {q : List Byte} (hs : s.Spells h p [])
    (hfront : h.2 = none → Part false q h.1 ∧ h.1.length < 16) :
    Sound s.compress fun s' => s'.Spells (h.1, some []) (q ++ [58, 58]) [] := by
  obtain ⟨front, _ | rear⟩ := h
  · obtain ⟨hcompress, hstored⟩ := hs.stored.compress
    rw [hcompress]
    exact sound_ok ⟨hstored, hs.room, ⟨q, [], rfl, (hfront rfl).1, (hfront rfl).2,
      fun _ _ _ ht => ht, fun _ => rfl⟩, .inr ⟨q ++ [58], by simp⟩, hs.value, hs.lt, hs.empty⟩
  · have hsome : s.compressPos ≠ none := by
      rw [hs.stored.compressPos]
      exact Option.some_ne_none _
    rw [compress, if_pos hsome]
    exact sound_fail

theorem Spells.sound_single (hs : s.Spells h p w) : Sound (s.single i) fun s' =>
    s'.Spells (h.add (blockBytes s.block)) (p ++ w ++ [58]) [] := by
  rw [single]
  split_ifs
  · exact ⟨hs.sound_endBlock.inside, fun s' hok => (hs.sound_endBlock.ok s' hok).1⟩
  · exact sound_fail

theorem Spells.sound_double (hs : s.Spells h p w) (hi : i = (p ++ w).length) :
    Sound (s.double i) fun s' => ∃ front, s'.Spells (front, some []) (p ++ w ++ [58, 58]) [] := by
  rw [double]
  split_ifs with hpos
  · refine hs.sound_endBlock.bind fun s' hend => ?_
    obtain ⟨h', hv⟩ := hend
    have hfront : (h.add (blockBytes s.block)).2 = none →
        Part false (p ++ w) (h.add (blockBytes s.block)).1 ∧
          (h.add (blockBytes s.block)).1.length < 16 := by
      have hroom := h'.room
      have hlength := h'.stored.length
      have hbegun := hs.begun
      obtain ⟨front, _ | rear⟩ := h
      · simp only [Halves.all, Halves.add, Option.getD_none, List.append_nil] at hlength
        exact fun _ => ⟨.inr (hbegun false _ _ (.group hv)), by dsimp only [Halves.add]; omega⟩
      · nofun
    have hsound := h'.sound_compress hfront
    exact ⟨hsound.inside, fun s' hok => ⟨_, hsound.ok s' hok⟩⟩
  · -- nothing is in front of the colons
    have hnil : p ++ w = [] := List.length_eq_zero_iff.mp (by omega)
    obtain ⟨rfl, rfl⟩ := List.append_eq_nil_iff.mp hnil
    obtain ⟨-, rfl⟩ | ⟨p', hp⟩ := hs.behind
    · have hsound := hs.sound_compress (q := []) fun _ => ⟨.inl ⟨rfl, rfl⟩, Nat.zero_lt_succ 15⟩
      exact ⟨hsound.inside, fun s' hok => ⟨_, hsound.ok s' hok⟩⟩
    · exact absurd hp (by simp)

/-- The end of the text. -/
theorem Spells.sound_finish (hs : s.Spells h p w) :
    Sound (s.finish >>= expand) (Denotes false (p ++ w)) := by
  rw [finish]
  by_cases hempty : s.empty = true
  swap
  · have hlen : (blockBytes s.block).length = 2 * 1 := rfl
    obtain ⟨bytes, hput, hstored⟩ := hs.stored.put hlen (Nat.succ_le_succ hs.room)
    have hexpand := hstored.decides_expand
    rw [if_pos hempty, store, hput]
    refine ⟨hexpand.inside, fun addr hok => ?_⟩
    exact hs.begun.denotes (.group (hs.group hempty)) ((hexpand.ok_iff addr).mp hok)
  rw [if_neg (not_not.mpr hempty)]
  split_ifs with hpos
  · exact sound_fail
  · have hexpand := hs.stored.decides_expand
    have hlength := hs.stored.length
    obtain rfl := hs.empty.mp hempty
    rw [not_not, hs.stored.compressPos] at hpos
    refine ⟨hexpand.inside, fun addr hok => ?_⟩
    have hfills := (hexpand.ok_iff addr).mp hok
    have hbegun := hs.begun
    obtain ⟨front, _ | rear⟩ := h
    · cases hpos
    · -- no group is behind `::`
      obtain ⟨f, r, rfl, hf, hlt, -, hr⟩ := hbegun
      obtain ⟨n, hcells⟩ := hfills
      have hrear : rear = [] := by
        have hnum : s.numBlocks = front.length / 2 := Option.some.inj hpos
        simp only [Halves.all, Option.getD_some, List.length_append] at hlength
        exact List.length_eq_zero_iff.mp (by omega)
      subst hrear
      obtain rfl := hr rfl
      exact .compressed (List.append_nil _) hf (.inl ⟨rfl, rfl⟩) hlt nofun hcells

/-- The parser goes back to the last colon. -/
theorem afterColon_append (p rest : List Byte) (hw : ∀ c ∈ w, (decodeHexDigit c).isSome = true) :
    afterColon (p ++ 58 :: (w ++ rest)) (p.length + 1 + w.length) = .ok (p.length + 1) := by
  have hback : ∀ n ≤ w.length,
      afterColon (p ++ 58 :: (w ++ rest)) (p.length + 1 + n) = .ok (p.length + 1) := by
    intro n
    induction n with
    | zero => simp [afterColon]
    | succ n ih =>
      intro hn
      have hget : (p ++ 58 :: (w ++ rest))[p.length + 1 + n]? = some w[n] := by
        rw [List.getElem?_append_right (by omega)]
        have hindex : p.length + 1 + n - p.length = n + 1 := by omega
        rw [hindex, List.getElem?_cons_succ, List.getElem?_append_left hn,
          List.getElem?_eq_getElem hn]
      have hcolon : w[n] ≠ 58 := by
        intro heq
        have hhex := hw w[n] (List.getElem_mem hn)
        rw [heq] at hhex
        cases hhex
      rw [← Nat.add_assoc, afterColon, hget]
      dsimp only
      rw [if_neg hcolon]
      exact ih (by omega)
  exact hback w.length le_rfl

/-- The four bytes of an IPv4 address are stored. -/
theorem Stored.decides_data (hs : s.Stored h) {data : List Byte} (hlen : data.length = 4) :
    Decides ((if 8 < s.numBlocks + 2 then .error .fail
      else do
        let bytes ← putBytes s.bytes (2 * s.numBlocks) data
        pure { s with bytes, numBlocks := s.numBlocks + 2 }) >>= expand) (h.add data).Fills := by
  by_cases hfull : 8 < s.numBlocks + 2
  · rw [if_pos hfull]
    refine decides_fail fun addr hfills => ?_
    have hle := hfills.length_le
    rw [Halves.all_add, List.length_append, hs.length, hlen] at hle
    omega
  · obtain ⟨bytes, hput, hstored⟩ := hs.put hlen (Nat.le_of_not_lt hfull)
    rw [if_neg hfull, hput]
    exact hstored.decides_expand

/-- A dot: the text ends in an IPv4 address. -/
theorem Spells.sound_ipv4Ending (hs : s.Spells h p w) (hname : name = p ++ w ++ 46 :: rest) :
    Sound (s.ipv4Ending name (p ++ w).length >>= expand) (Denotes false name) := by
  rw [ipv4Ending]
  by_cases hstop : s.empty = true ∨ s.numBlocks = 0 ∧ s.compressPos = none
  · rw [if_pos hstop]
    exact sound_fail
  rw [if_neg hstop]
  rw [not_or] at hstop
  obtain ⟨rfl, rfl⟩ | ⟨p, rfl⟩ := hs.behind
  · refine absurd ⟨?_, hs.stored.compressPos⟩ hstop.2
    have hlength := hs.stored.length
    simp only [Halves.all, Option.getD_none, List.append_nil, List.length_nil] at hlength
    omega
  have hafter : afterColon name (p ++ [58] ++ w).length = .ok (p ++ [58]).length := by
    have hcolon := afterColon_append p (46 :: rest) (isSome_of_readFrom hs.value)
    simpa [hname, Nat.add_assoc, Nat.add_comm 1] using hcolon
  have hdrop : name.drop (p ++ [58]).length = w ++ 46 :: rest := by
    rw [hname, List.append_assoc, List.drop_left]
  have hstart : Ipv4Scan.Spells ⟨[], 0, true⟩ [] [] :=
    ⟨fun _ _ ht => ht, rfl, Nat.zero_lt_succ 255, iff_of_true rfl rfl, nofun, Nat.zero_le 3⟩
  rw [hafter]
  simp only [bind_assoc]
  change Sound (Ipv4Scan.scan ⟨[], 0, true⟩ (name.drop (p ++ [58]).length) >>= _) _
  rw [hdrop, ← bind_assoc]
  refine hstart.sound_scan.bind fun bs hbs => ?_
  have hdata := hs.stored.decides_data hbs.2
  refine ⟨hdata.inside, fun addr hok => ?_⟩
  have hdenotes := hs.begun.denotes (.dotted rfl hbs.1 hbs.2) ((hdata.ok_iff addr).mp hok)
  rwa [hname, List.append_assoc]

/-- **The first loop** returns only what the text denotes. -/
theorem Spells.sound_scan (hs : s.Spells h p w) (hname : name = p ++ w ++ rest)
    (hi : i = (p ++ w).length) : Sound (scan s i rest >>= afterScan name) (Denotes false name) := by
  induction hsize : rest.length using Nat.strong_induction_on generalizing s h i p w rest with
  | _ size ih =>
    have hsingle {c' : List Byte} (hrest : rest = 58 :: c') :
        Sound ((s.single i >>= fun s' => scan s' (i + 1) c') >>= afterScan name)
          (Denotes false name) := by
      subst hrest
      rw [bind_assoc]
      refine hs.sound_single.bind fun s' hs' => ih c'.length ?_ hs' ?_ ?_ rfl
      · rw [← hsize]
        exact Nat.lt_succ_self _
      · simp [hname]
      · simp [hi, Nat.add_assoc]
    rw [scan.eq_def]
    cases rest with
    | nil =>
      rw [List.append_nil] at hname
      subst hname
      exact hs.sound_finish
    | cons c rest =>
      dsimp only
      split_ifs with hdot hcolon
      · subst hdot hi
        exact hs.sound_ipv4Ending hname
      · subst hcolon
        cases rest with
        | nil => exact hsingle rfl
        | cons c rest =>
          dsimp only
          split_ifs with hsecond
          · subst hsecond
            rw [bind_assoc]
            refine (hs.sound_double hi).bind fun s' hs' => ?_
            obtain ⟨front, hs'⟩ := hs'
            refine ih rest.length ?_ hs' (by simp [hname]) (by simp [hi, Nat.add_assoc]) rfl
            rw [← hsize]
            exact Nat.lt_succ_of_lt (Nat.lt_succ_self _)
          · exact hsingle rfl
      · rw [bind_assoc]
        refine hs.sound_digit.bind fun s' hs' => ih rest.length ?_ hs' ?_ ?_ rfl
        · rw [← hsize]
          exact Nat.lt_succ_self _
        · simp [hname]
        · simp [hi, Nat.add_assoc]

end Ipv6Scan

/-! ### What is denoted is returned -/

namespace Ipv4Scan

variable {stored w rest bs : List Byte} {c : Byte} {b d v : ℕ}

theorem digit_ok {e : Bool} (hc : decodeDecimalDigit c = some d) (hzero : e = true ∨ b ≠ 0)
    (hlt : b * 10 + d < 256) : digit ⟨stored, b, e⟩ c = .ok ⟨stored, b * 10 + d, false⟩ := by
  rw [digit, if_neg, hc]
  · dsimp only
    rw [if_neg (by omega), if_neg (by omega)]
  · rintro ⟨hempty, hbyte⟩
    exact hzero.elim hempty fun h => h hbyte

theorem scan_digit {e : Bool} (hc : decodeDecimalDigit c = some d) (hzero : e = true ∨ b ≠ 0)
    (hlt : b * 10 + d < 256) :
    scan ⟨stored, b, e⟩ (c :: rest) = scan ⟨stored, b * 10 + d, false⟩ rest := by
  rw [scan, if_neg (ne_of_decode (decodeHexDigit_of_decimal hc)).1, digit_ok hc hzero hlt]
  rfl

/-- The digits behind one that is not zero. -/
theorem scan_digits (hb : b ≠ 0) (h : readFrom decodeDecimalDigit 10 b w = some v)
    (hlt : v < 256) : scan ⟨stored, b, false⟩ (w ++ rest) = scan ⟨stored, v, false⟩ rest := by
  induction w generalizing b with
  | nil =>
    obtain rfl : b = v := Option.some.inj h
    rfl
  | cons c w ih =>
    obtain ⟨d, hd⟩ := Option.isSome_iff_exists.mp (isSome_of_readFrom h c List.mem_cons_self)
    rw [readFrom_cons hd] at h
    have hlow := (readFrom_bounds decodeDecimalDigit_lt h).1
    have hle := Nat.le_mul_of_pos_right (b * 10 + d) (Nat.one_le_pow w.length 10 (by decide))
    rw [List.cons_append, scan_digit hd (.inr hb) (by omega)]
    exact ih (by omega) h

theorem scan_octet (h : Octet w v) :
    scan ⟨stored, 0, true⟩ (w ++ rest) = scan ⟨stored, v, false⟩ rest := by
  have hvalue := h.value
  have hlt := h.lt
  cases w with
  | nil => exact absurd rfl h.ne_nil
  | cons c w =>
    obtain ⟨d, hd⟩ := Option.isSome_iff_exists.mp (isSome_of_readFrom hvalue c List.mem_cons_self)
    have hsmall := decodeDecimalDigit_lt c d hd
    rw [readFrom_cons hd, Nat.zero_mul, Nat.zero_add] at hvalue
    rw [List.cons_append, scan_digit hd (.inl rfl) (by omega), Nat.zero_mul, Nat.zero_add]
    by_cases hzero : c = 48
    · obtain rfl : w = [] := (List.cons.inj (h.zero (congrArg some hzero))).2
      obtain rfl : d = v := Option.some.inj hvalue
      rfl
    · exact scan_digits (decimal_pos hd hzero).ne' hvalue hlt

theorem scan_octets {t : List Byte} (h : Octets t bs) (hlen : stored.length + bs.length = 4) :
    (scan ⟨stored, 0, true⟩ t >>= finish) = .ok (stored ++ bs) := by
  induction h generalizing stored with
  | @one t v h =>
    have hthree : stored.length = 3 := Nat.succ.inj hlen
    rw [← List.append_nil t, scan_octet h]
    change finish _ = _
    rw [finish, if_neg (by simp [hthree]), store, if_pos (by simp [hthree])]
    rfl
  | @cons t rest bs v h hrest ih =>
    have hpos := List.length_pos_of_ne_nil hrest.ne_nil
    rw [List.length_cons] at hlen
    have hdot : dot ⟨stored, v, false⟩ = .ok ⟨stored ++ [UInt8.ofNat v], 0, true⟩ := by
      rw [dot, if_neg (not_or.mpr ⟨Bool.false_ne_true, by dsimp only; omega⟩), store,
        if_pos (by dsimp only; omega)]
      rfl
    have hih := @ih (stored ++ [UInt8.ofNat v]) (by rw [List.length_append]; simpa using by omega)
    rw [List.append_assoc, List.singleton_append] at hih
    rw [scan_octet h, scan, if_pos rfl, hdot]
    exact hih

end Ipv4Scan

namespace Ipv6Scan

variable {s : Ipv6Scan} {h : Halves} {i v : ℕ} {p w t bs rest name : List Byte}
  {addr : Buffer Byte 16}

/-- The variables at the start of a group. -/
structure At (s : Ipv6Scan) (h : Halves) : Prop where
  stored : s.Stored h
  block : s.block = 0
  empty : s.empty = true

/-- The digits of a group. -/
theorem scan_digits (hblock : s.block < 65536)
    (h : readFrom decodeHexDigit 16 s.block w = some v) (hlt : v < 65536) :
    scan s i (w ++ rest) =
      scan { s with block := v, empty := s.empty && w.isEmpty } (i + w.length) rest := by
  induction w generalizing s i with
  | nil =>
    obtain rfl : s.block = v := Option.some.inj h
    simp
  | cons c w ih =>
    obtain ⟨d, hd⟩ := Option.isSome_iff_exists.mp (isSome_of_readFrom h c List.mem_cons_self)
    rw [readFrom_cons hd] at h
    have hlow := (readFrom_bounds decodeHexDigit_lt h).1
    have hle := Nat.le_mul_of_pos_right (s.block * 16 + d) (Nat.one_le_pow w.length 16 (by decide))
    rw [List.cons_append, scan.eq_def]
    dsimp only
    rw [if_neg (ne_of_decode hd).1, if_neg (ne_of_decode hd).2, digit, hd]
    dsimp only
    rw [if_neg (by omega), if_neg (by omega)]
    refine (ih (s := { s with block := s.block * 16 + d, empty := false }) (by dsimp only; omega)
      h).trans ?_
    simp [Nat.add_assoc, Nat.add_comm 1]

theorem At.scan_group (hs : s.At h) (hv : Group w v) (i : ℕ) (rest : List Byte) :
    ∃ s' : Ipv6Scan, scan s i (w ++ rest) = scan s' (i + w.length) rest ∧ s'.Stored h ∧ s'.block = v ∧
      s'.empty = false ∧ s'.numBlocks = s.numBlocks := by
  have h' := hs.stored
  refine ⟨{ s with block := v, empty := false }, ?_,
    ⟨h'.length, h'.le, h'.bytes, h'.compressPos, h'.even⟩, rfl, rfl, rfl⟩
  have hempty : (s.empty && w.isEmpty) = false := by simp [hv.ne_nil]
  rw [scan_digits (by rw [hs.block]; decide) (by rw [hs.block]; exact hv.value) hv.lt, hempty]

/-- A group, and one colon. -/
theorem At.scan_single (hs : s.At h) (hv : Group w v) (hroom : s.numBlocks ≤ 6) {c : Byte}
    (hc : c ≠ 58) (i : ℕ) (rest : List Byte) : ∃ s' : Ipv6Scan,
    scan s i (w ++ 58 :: c :: rest) = scan s' (i + (w.length + 1)) (c :: rest) ∧
      s'.At (h.add (blockBytes v)) := by
  obtain ⟨s', hscan, hstored, rfl, hempty, hnum⟩ :=
    hs.scan_group hv i (58 :: c :: rest)
  obtain ⟨s'', hend, hstored', -, hblock, hempty'⟩ := hstored.endBlock (by omega) hempty
  have hpos := List.length_pos_of_ne_nil hv.ne_nil
  refine ⟨s'', ?_, hstored', hblock, hempty'⟩
  rw [hscan, scan, if_neg (by decide), if_pos rfl, if_neg hc, single, if_pos (by omega), hend]
  rfl

/-- Groups, and two colons. -/
theorem At.scan_front {front : List Byte} (hs : s.At (front, none)) (ht : Pieces false t bs)
    (hroom : (front ++ bs).length < 16) (i : ℕ) (rest : List Byte) : ∃ s' : Ipv6Scan,
    scan s i (t ++ 58 :: 58 :: rest) = scan s' (i + (t.length + 2)) rest ∧
      s'.At (front ++ bs, some []) := by
  have hnum {s : Ipv6Scan} {front bs : List Byte} (hs : s.At (front, none))
      (hroom : (front ++ bs).length < 16) : 2 * s.numBlocks + bs.length < 16 := by
    have hlength := hs.stored.length
    simp only [Halves.all, Option.getD_none, List.append_nil] at hlength
    rwa [List.length_append, hlength] at hroom
  induction ht generalizing s front i with
  | @group w v hv =>
    obtain ⟨s', hscan, hstored, rfl, hempty, heq⟩ :=
      hs.scan_group hv i (58 :: 58 :: rest)
    have hlt : 2 * s.numBlocks + 2 < 16 := hnum hs hroom
    obtain ⟨s'', hend, hstored', -, hblock, hempty'⟩ := hstored.endBlock (by omega) hempty
    obtain ⟨hcompress, hstored''⟩ := Stored.compress hstored'
    have hpos := List.length_pos_of_ne_nil hv.ne_nil
    refine ⟨_, ?_, hstored'', hblock, hempty'⟩
    rw [hscan, scan, if_neg (by decide), if_pos rfl, if_pos rfl, double, if_pos (by omega), hend]
    change (s''.compress >>= _) = _
    rw [hcompress]
    rfl
  | dotted htail => cases htail
  | @cons w t' bs v hv ht' ih =>
    have htwo := ht'.two_le
    have hlt := hnum hs hroom
    rw [List.length_append] at hlt
    change 2 * s.numBlocks + (2 + bs.length) < 16 at hlt
    obtain ⟨c, r, rfl, hc⟩ := ht'.head
    obtain ⟨s', hscan, hs'⟩ :=
      hs.scan_single hv (by omega) hc i (r ++ 58 :: 58 :: rest)
    obtain ⟨s'', hscan', hs''⟩ := ih hs' (by simpa using hroom) (i + (w.length + 1))
    refine ⟨s'', ?_, by simpa using hs''⟩
    rw [List.append_assoc, List.cons_append, List.cons_append, hscan, ← List.cons_append, hscan']
    simp [Nat.add_assoc, Nat.add_comm 1]

theorem At.scan_nil (hs : s.At h) (hgap : h.2 = some []) (hfills : h.Fills addr) :
    (scan s i [] >>= afterScan name) = .ok addr := by
  have hlength := hs.stored.length
  have hpos : some s.numBlocks = s.compressPos := by
    rw [hs.stored.compressPos, hgap, Option.map_some, Option.some.injEq]
    simp only [Halves.all, hgap, Option.getD_some, List.append_nil] at hlength
    omega
  change (s.finish >>= expand) = _
  rw [finish, if_neg (not_not.mpr hs.empty), if_neg (not_not.mpr hpos)]
  exact (hs.stored.decides_expand.ok_iff addr).mpr hfills

/-- **Groups at the end of the text.** -/
theorem At.scan_pieces (hs : s.At h) (ht : Pieces true t bs) (hname : name = p ++ t)
    (hbehind : p = [] ∧ h = ([], none) ∨ ∃ p', p = p' ++ [58]) (hi : i = p.length)
    (hfills : (h.add bs).Fills addr) : (scan s i t >>= afterScan name) = .ok addr := by
  have hnum {s : Ipv6Scan} {h : Halves} {bs : List Byte} (hs : s.At h)
      (hfills : (h.add bs).Fills addr) : 2 * s.numBlocks + bs.length ≤ 16 := by
    have hle := hfills.length_le
    rwa [Halves.all_add, List.length_append, hs.stored.length] at hle
  induction ht generalizing s h p i with
  | @group w v hv =>
    obtain ⟨s', hscan, hstored, rfl, hempty, heq⟩ := hs.scan_group hv i []
    have hroom : 2 * s.numBlocks + 2 ≤ 16 := hnum hs hfills
    have hlen : (blockBytes s'.block).length = 2 * 1 := rfl
    obtain ⟨bytes, hput, hfull⟩ := hstored.put hlen (by omega)
    rw [List.append_nil] at hscan
    rw [hscan]
    change (s'.finish >>= expand) = _
    rw [finish, if_pos (by rw [hempty]; exact Bool.false_ne_true), store, hput]
    exact (hfull.decides_expand.ok_iff addr).mpr hfills
  | @dotted t bs htail hoctets hfour =>
    cases hoctets with
    | one => cases hfour
    | @cons w r bs v hw hr =>
      obtain ⟨v', hv'⟩ := hw.group
      obtain ⟨s', hscan, hstored, rfl, hempty, heq⟩ :=
        hs.scan_group hv' i (46 :: r)
      -- four bytes are no address, so something is in front of them
      have hstart : ¬ (s'.empty = true ∨ s'.numBlocks = 0 ∧ s'.compressPos = none) := by
        rintro (htrue | ⟨hzero, hnone⟩)
        · cases hempty.symm.trans htrue
        have hlength := hstored.length
        rw [hstored.compressPos] at hnone
        obtain ⟨front, _ | rear⟩ := h
        · have hcells : addr.cells = front ++ UInt8.ofNat v :: bs := hfills
          have hsixteen := addr.length_eq
          rw [hcells, List.length_append, hfour] at hsixteen
          simp only [Halves.all, Option.getD_none, List.append_nil] at hlength
          omega
        · cases hnone
      obtain ⟨rfl, rfl⟩ | ⟨p, rfl⟩ := hbehind
      · refine absurd (.inr ⟨?_, hstored.compressPos⟩) hstart
        exact (Nat.mul_eq_zero.mp hstored.length.symm).resolve_left (by decide)
      have hafter : afterColon name (i + w.length) = .ok (p ++ [58]).length := by
        have hcolon := afterColon_append p (46 :: r) hw.hex
        simpa [hname, hi] using hcolon
      have hdrop : name.drop (p ++ [58]).length = w ++ 46 :: r := by rw [hname, List.drop_left]
      have hread : (Ipv4Scan.scan ⟨[], 0, true⟩ (w ++ 46 :: r) >>= Ipv4Scan.finish) = .ok _ :=
        Ipv4Scan.scan_octets (.cons hw hr) ((Nat.zero_add _).trans hfour)
      have hdot : scan s' (i + w.length) (46 :: r) = .ok (s', some (i + w.length)) := by
        rw [scan.eq_def]
        exact if_pos rfl
      rw [hscan, hdot]
      change (s'.ipv4Ending name (i + w.length) >>= expand) = _
      rw [ipv4Ending, if_neg hstart, hafter]
      simp only [bind_assoc]
      change (Ipv4Scan.scan ⟨[], 0, true⟩ (name.drop (p ++ [58]).length) >>= _) = _
      rw [hdrop, ← bind_assoc, hread]
      exact ((hstored.decides_data hfour).ok_iff addr).mpr hfills
  | @cons w t bs v hv ht ih =>
    have htwo := ht.two_le
    have hroom := hnum hs hfills
    rw [List.length_append] at hroom
    change 2 * s.numBlocks + (2 + bs.length) ≤ 16 at hroom
    obtain ⟨c, r, rfl, hc⟩ := ht.head
    obtain ⟨s', hscan, hs'⟩ := hs.scan_single hv (by omega) hc i r
    rw [hscan]
    exact ih hs' (p := p ++ w ++ [58]) (by simp [hname]) (.inr ⟨p ++ w, rfl⟩)
      (by simp [hi]) (by rwa [Halves.add_add])

end Ipv6Scan

/-! ### The parser -/

/-- **The parser** decides the grammar of the code. -/
theorem decides_parse (name : List Byte) (outAddr : Buffer Byte 16) :
    Decides (parseIpv6AddrBin name outAddr) (Denotes false name) := by
  have hstored : Ipv6Scan.Stored ⟨outAddr, 0, none, 0, true⟩ ([], none) :=
    ⟨rfl, Nat.zero_le 8, rfl, rfl, rfl⟩
  have hspells : Ipv6Scan.Spells ⟨outAddr, 0, none, 0, true⟩ ([], none) [] [] :=
    ⟨hstored, Nat.zero_le 7, fun _ _ _ ht => ht, .inl ⟨rfl, rfl⟩, rfl, Nat.zero_lt_succ _,
      iff_of_true rfl rfl⟩
  have hsound : Sound (parseIpv6AddrBin name outAddr) (Denotes false name) :=
    hspells.sound_scan rfl rfl
  have hat : Ipv6Scan.At ⟨outAddr, 0, none, 0, true⟩ ([], none) := ⟨hstored, rfl, rfl⟩
  refine ⟨hsound.inside, fun addr => ⟨hsound.ok addr, fun h => ?_⟩⟩
  cases h with
  | full ht => exact hat.scan_pieces ht rfl (.inl ⟨rfl, rfl⟩) rfl rfl
  | @compressed front rear fb rb n htext hfront hrear hroom _ haddr =>
    -- the two colons, at the start of the text or behind groups
    obtain ⟨s, hscan, hs⟩ : ∃ s : Ipv6Scan, Ipv6Scan.scan ⟨outAddr, 0, none, 0, true⟩ 0 name =
        Ipv6Scan.scan s (front ++ [58, 58]).length rear ∧ s.At (fb, some []) := by
      rw [htext]
      obtain ⟨rfl, rfl⟩ | hfront := hfront
      · obtain ⟨hcompress, hstored'⟩ := hstored.compress
        exact ⟨_, congrArg (· >>= fun s => Ipv6Scan.scan s 2 rear) hcompress, hstored', rfl, rfl⟩
      · obtain ⟨s, hscan, hs⟩ := hat.scan_front hfront hroom 0 rear
        exact ⟨s, by simpa using hscan, hs⟩
    change (Ipv6Scan.scan _ 0 name >>= Ipv6Scan.afterScan name) = _
    rw [hscan]
    obtain ⟨rfl, rfl⟩ | hrear := hrear
    · exact hs.scan_nil rfl ⟨n, haddr⟩
    · exact hs.scan_pieces hrear (by simp [htext]) (.inr ⟨front ++ [58], by simp⟩) rfl ⟨n, haddr⟩

-- `1:2:3:4::5:6:7:8`, where `::` stands for no group
example : parseIpv6AddrBin [49, 58, 50, 58, 51, 58, 52, 58, 58, 53, 58, 54, 58, 55, 58, 56]
    ⟨List.replicate 16 0, rfl⟩ = .ok ⟨[0, 1, 0, 2, 0, 3, 0, 4, 0, 5, 0, 6, 0, 7, 0, 8], rfl⟩ := by
  decide +kernel

end Tun2Socks.Net
