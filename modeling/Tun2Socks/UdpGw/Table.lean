import Tun2Socks.Framework.Recency
import Tun2Socks.UdpGw.Client

/-!
# The connection table of the udpgw client

`TableInv` is the invariant of the table. The two trees and the list hold the same connections, the
trees are in order under the present pairs and ids, and the ids are below `max_connections`. The
list is in the order of last use: it is a sublist of the history of uses without repetitions.

* `TableInv.touch`, `TableInv.rebind` and `TableInv.link` are the three ways in which a packet
  changes the table, each from the state before the call to the state after it. In between the
  views differ.
* `searchConid_spec` is the argument for the loop of `find_unused_conid`. There is an unused id,
  because there are fewer connections than ids, and each round comes nearer to it.
* `Submits` says what `UdpGwClient_SubmitPacket` does to the connections.

The result is `connection_table_consistent`.
-/

namespace Tun2Socks.UdpGw.Client

open Framework Net Std Function InOrder UdpGwClient

/-! ### The invariant -/

variable {o : ByteOrder}

/-- What holds of the table between two calls. -/
structure TableInv (o : ByteOrder) (s : UdpGwClient) : Prop where
  byConaddr : ∀ con, con ∈ s.connectionsTreeByConaddr ↔ con ∈ s.connectionsList
  byConid : ∀ con, con ∈ s.connectionsTreeByConid ↔ con ∈ s.connectionsList
  orderedByConaddr :
    InOrder.Ordered (conaddrComparator o) s.conaddrOf s.connectionsTreeByConaddr
  orderedByConid : InOrder.Ordered (uint16Comparator o) s.conidOf s.connectionsTreeByConid
  nodup : s.connectionsList.Nodup
  num : s.numConnections = s.connectionsList.length
  num_le : s.numConnections ≤ s.maxConnections
  max_pos : 0 < s.maxConnections
  max_le : s.maxConnections ≤ 65536
  conid_lt : ∀ con ∈ s.connectionsList, (s.conidOf con).toNat o < s.maxConnections
  next_lt : s.nextConid < s.maxConnections
  recent : (s.connectionsList.map s.conaddrOf).Sublist s.history.dedup

variable {s : UdpGwClient}

theorem TableInv.initial (cfg : Config) : TableInv o (udpGwClientInit cfg) where
  byConaddr _ := Iff.rfl
  byConid _ := Iff.rfl
  orderedByConaddr := List.Pairwise.nil
  orderedByConid := List.Pairwise.nil
  nodup := List.nodup_nil
  num := rfl
  num_le := Nat.zero_le _
  max_pos := by
    have := cfg.maxConnections_pos
    unfold udpGwClientInit
    dsimp only
    split_ifs <;> omega
  max_le := by
    unfold udpGwClientInit
    dsimp only
    split_ifs <;> omega
  conid_lt _ h := nomatch h
  next_lt := by
    have := cfg.maxConnections_pos
    unfold udpGwClientInit
    dsimp only
    split_ifs <;> omega
  recent := List.Sublist.refl _

section Lookup

variable {con : ℕ}

/-- A connection that is found by its pair is there and has it. -/
theorem TableInv.of_findByConaddr (h : TableInv o s) {conaddr : ConAddr}
    (hfind : s.findConnectionByConaddr o conaddr = some con) :
    con ∈ s.connectionsList ∧ s.conaddrOf con = conaddr := by
  obtain ⟨hmem, heq⟩ := mem_of_lookup hfind
  exact ⟨(h.byConaddr con).mp hmem, heq⟩

theorem TableInv.findByConaddr_eq_none (h : TableInv o s) {conaddr : ConAddr} :
    s.findConnectionByConaddr o conaddr = none ↔
      ∀ con ∈ s.connectionsList, s.conaddrOf con ≠ conaddr := by
  unfold findConnectionByConaddr
  rw [lookup_eq_none_iff]
  exact forall_congr' fun con => imp_congr_left (h.byConaddr con)

theorem TableInv.of_findByConid (h : TableInv o s) {conid : Word16}
    (hfind : s.findConnectionByConid o conid = some con) :
    con ∈ s.connectionsList ∧ s.conidOf con = conid := by
  obtain ⟨hmem, heq⟩ := mem_of_lookup hfind
  exact ⟨(h.byConid con).mp hmem, heq⟩

theorem TableInv.findByConid_eq_none (h : TableInv o s) {conid : Word16} :
    s.findConnectionByConid o conid = none ↔
      ∀ con ∈ s.connectionsList, s.conidOf con ≠ conid := by
  unfold findConnectionByConid
  rw [lookup_eq_none_iff]
  exact forall_congr' fun con => imp_congr_left (h.byConid con)

theorem TableInv.conaddr_inj (h : TableInv o s) {a b : ℕ} (ha : a ∈ s.connectionsList)
    (hb : b ∈ s.connectionsList) (heq : s.conaddrOf a = s.conaddrOf b) : a = b :=
  h.orderedByConaddr.inj ((h.byConaddr a).mpr ha) ((h.byConaddr b).mpr hb) heq

theorem TableInv.conid_inj (h : TableInv o s) {a b : ℕ} (ha : a ∈ s.connectionsList)
    (hb : b ∈ s.connectionsList) (heq : s.conidOf a = s.conidOf b) : a = b :=
  h.orderedByConid.inj ((h.byConid a).mpr ha) ((h.byConid b).mpr hb) heq

end Lookup

/-! ### What a call does to the table -/

namespace UdpGwClient

variable (s : UdpGwClient)

/-- The pair is used. -/
def used (conaddr : ConAddr) : UdpGwClient := { s with history := s.history ++ [conaddr] }

/-- The connection is at the end of the list. -/
def touched (con : ℕ) : UdpGwClient :=
  { s with connectionsList := s.connectionsList.erase con ++ [con] }

/-- The connection has a new pair, and the tree by pair is `t`. -/
def rebound (con : ℕ) (conaddr : ConAddr) (t : List ℕ) : UdpGwClient :=
  { s.update con fun c => { c with conaddr } with connectionsTreeByConaddr := t }

/-- The memory of a connection is written, which is not linked yet. -/
def made (con : ℕ) (c : Connection) (nextConid : ℕ) : UdpGwClient :=
  { s with connections := Function.update s.connections con c, nextConid }

/-- The connection is linked. -/
def linked (con : ℕ) (t t' : List ℕ) : UdpGwClient := { s with
  connectionsTreeByConaddr := t
  connectionsTreeByConid := t'
  connectionsList := s.connectionsList ++ [con]
  numConnections := s.numConnections + 1 }

end UdpGwClient

section Steps

variable {con : ℕ}

/-- A field of the connections that is not written. -/
theorem update_field {β : Type} (g : Connection → β) {f : Connection → Connection}
    (h : g (f (s.connections con)) = g (s.connections con)) (a : ℕ) :
    g ((s.update con f).connections a) = g (s.connections a) := by
  obtain rfl | hne := eq_or_ne a con
  · exact (congrArg g (update_self a _ _)).trans h
  · exact congrArg g (update_of_ne hne _ _)

/-- A connection that is written keeps its place if its pair and its id stay as they are. -/
theorem TableInv.update (h : TableInv o s) {f : Connection → Connection}
    (hconaddr : (f (s.connections con)).conaddr = (s.connections con).conaddr)
    (hconid : (f (s.connections con)).conid = (s.connections con).conid) :
    TableInv o (s.update con f) := by
  have hconaddrOf : (s.update con f).conaddrOf = s.conaddrOf :=
    funext (update_field Connection.conaddr hconaddr)
  have hconidOf : (s.update con f).conidOf = s.conidOf :=
    funext (update_field Connection.conid hconid)
  exact { h with
    orderedByConaddr := hconaddrOf ▸ h.orderedByConaddr
    orderedByConid := hconidOf ▸ h.orderedByConid
    conid_lt := hconidOf ▸ h.conid_lt
    recent := hconaddrOf ▸ h.recent }

/-- What is not linked may be written as one likes. -/
theorem TableInv.made (h : TableInv o s) (hcon : con ∉ s.connectionsList) (c : Connection)
    {nextConid : ℕ} (hnext : nextConid < s.maxConnections) :
    TableInv o (s.made con c nextConid) := by
  have hsame : ∀ a ∈ s.connectionsList, (s.made con c nextConid).connections a
      = s.connections a := by
    intro a ha
    have hne : a ≠ con := by
      rintro rfl
      exact hcon ha
    exact update_of_ne hne _ _
  have hconaddrOf : ∀ a ∈ s.connectionsList,
      (s.made con c nextConid).conaddrOf a = s.conaddrOf a :=
    fun a ha => congrArg Connection.conaddr (hsame a ha)
  have hconidOf : ∀ a ∈ s.connectionsList, (s.made con c nextConid).conidOf a = s.conidOf a :=
    fun a ha => congrArg Connection.conid (hsame a ha)
  exact { h with
    orderedByConaddr :=
      h.orderedByConaddr.congr fun a ha => hconaddrOf a ((h.byConaddr a).mp ha)
    orderedByConid := h.orderedByConid.congr fun a ha => hconidOf a ((h.byConid a).mp ha)
    conid_lt := fun a ha => by
      rw [hconidOf a ha]
      exact h.conid_lt a ha
    next_lt := hnext
    recent := by
      have hmap := List.map_congr_left hconaddrOf
      exact hmap ▸ h.recent }

/-- **A connection is used.** -/
theorem TableInv.touch (h : TableInv o s) (hcon : con ∈ s.connectionsList) :
    TableInv o ((s.touched con).used (s.conaddrOf con)) := by
  have hperm : (s.connectionsList.erase con ++ [con]).Perm s.connectionsList :=
    (List.perm_append_singleton con _).trans (List.perm_cons_erase hcon).symm
  have hinj : ∀ a ∈ s.connectionsList, s.conaddrOf a = s.conaddrOf con → a = con :=
    fun a ha heq => h.conaddr_inj ha hcon heq
  exact { h with
    byConaddr := fun a => (h.byConaddr a).trans hperm.mem_iff.symm
    byConid := fun a => (h.byConid a).trans hperm.mem_iff.symm
    orderedByConaddr := h.orderedByConaddr
    orderedByConid := h.orderedByConid
    nodup := hperm.nodup_iff.mpr h.nodup
    num := h.num.trans hperm.length_eq.symm
    conid_lt := fun a ha => h.conid_lt a (hperm.mem_iff.mp ha)
    recent := by
      change ((s.connectionsList.erase con ++ [con]).map s.conaddrOf).Sublist _
      rw [List.map_append, ← Recency.map_erase hinj]
      exact Recency.sublist_use h.recent _ }

variable {conaddr : ConAddr} {t : List ℕ}

/-- Under a new pair, the others are as they were. -/
theorem rebound_of_ne {a : ℕ} (hne : a ≠ con) :
    (s.rebound con conaddr t).connections a = s.connections a :=
  update_of_ne hne _ _

theorem rebound_self :
    (s.rebound con conaddr t).connections con = { s.connections con with conaddr } :=
  update_self con _ _

theorem rebound_conidOf : (s.rebound con conaddr t).conidOf = s.conidOf := by
  funext a
  exact update_field Connection.conid (f := fun c => { c with conaddr }) rfl a

/-- **The connection at the front of the list is taken for another pair**, which has none. -/
theorem TableInv.rebind (h : TableInv o s) {l t : List ℕ}
    (hlist : s.connectionsList = con :: l)
    (hnew : ∀ a ∈ s.connectionsList, s.conaddrOf a ≠ conaddr)
    (hinsert : insert (conaddrComparator o) (s.rebound con conaddr []).conaddrOf con
      (s.connectionsTreeByConaddr.erase con) = some t) :
    TableInv o (((s.rebound con conaddr t).touched con).used conaddr) := by
  have hcon : con ∈ s.connectionsList := by
    rw [hlist]
    exact List.mem_cons_self
  have herase : s.connectionsList.erase con = l := by
    rw [hlist, List.erase_cons_head]
  have hl : con ∉ l := by
    have hnodup := h.nodup
    rw [hlist] at hnodup
    exact (List.nodup_cons.mp hnodup).1
  have hperm : (s.connectionsList.erase con ++ [con]).Perm s.connectionsList :=
    (List.perm_append_singleton con _).trans (List.perm_cons_erase hcon).symm
  have hothers : ∀ a, a ≠ con → (s.rebound con conaddr t).conaddrOf a = s.conaddrOf a :=
    fun a hne => congrArg Connection.conaddr (rebound_of_ne hne)
  have hself : (s.rebound con conaddr t).conaddrOf con = conaddr :=
    congrArg Connection.conaddr rebound_self
  have hconidOf : (((s.rebound con conaddr t).touched con).used conaddr).conidOf = s.conidOf :=
    rebound_conidOf (t := t)
  have hnodup_tree := h.orderedByConaddr.nodup
  exact { h with
    byConaddr := fun a => by
      change a ∈ t ↔ a ∈ s.connectionsList.erase con ++ [con]
      rw [mem_insert hinsert, hperm.mem_iff, hnodup_tree.mem_erase_iff, h.byConaddr]
      obtain rfl | hne := eq_or_ne a con
      · exact iff_of_true (.inl rfl) hcon
      · exact ⟨fun h' => (h'.resolve_left hne).2, fun h' => .inr ⟨hne, h'⟩⟩
    byConid := fun a => (h.byConid a).trans hperm.mem_iff.symm
    orderedByConaddr := by
      -- the key of `con` changes while it is out of the tree
      refine ordered_insert hinsert ((h.orderedByConaddr.erase con).congr ?_)
      intro a ha
      exact hothers a (hnodup_tree.mem_erase_iff.mp ha).1
    orderedByConid := hconidOf ▸ h.orderedByConid
    nodup := hperm.nodup_iff.mpr h.nodup
    num := h.num.trans hperm.length_eq.symm
    conid_lt := fun a ha => by
      rw [hconidOf]
      exact h.conid_lt a (hperm.mem_iff.mp ha)
    recent := by
      change ((s.connectionsList.erase con ++ [con]).map
        (s.rebound con conaddr t).conaddrOf).Sublist (s.history ++ [conaddr]).dedup
      have hmap : l.map (s.rebound con conaddr t).conaddrOf = l.map s.conaddrOf :=
        List.map_congr_left fun a ha => hothers a fun heq => hl (heq ▸ ha)
      have hsub : (l.map s.conaddrOf).Sublist s.history.dedup := by
        refine List.Sublist.trans ?_ h.recent
        rw [hlist, List.map_cons]
        exact List.sublist_cons_self _ _
      have hmem : conaddr ∉ l.map s.conaddrOf := by
        intro hmem
        obtain ⟨a, ha, heq⟩ := List.mem_map.mp hmem
        exact hnew a (hlist ▸ List.mem_cons_of_mem con ha) heq
      have huse := Recency.sublist_use hsub conaddr
      rw [List.erase_of_not_mem hmem] at huse
      rw [herase, List.map_append, List.map_singleton, hself, hmap]
      exact huse }

/-- **A new connection is linked**, with a pair and an id that no other has. -/
theorem TableInv.link (h : TableInv o s) (hcon : con ∉ s.connectionsList)
    (hnum : s.numConnections < s.maxConnections)
    (hnew : ∀ a ∈ s.connectionsList, s.conaddrOf a ≠ s.conaddrOf con)
    (hconid : (s.conidOf con).toNat o < s.maxConnections) {t t' : List ℕ}
    (hinsert : insert (conaddrComparator o) s.conaddrOf con s.connectionsTreeByConaddr
      = some t)
    (hinsert' : insert (uint16Comparator o) s.conidOf con s.connectionsTreeByConid
      = some t') :
    TableInv o ((s.linked con t t').used (s.conaddrOf con)) := by
  have hmem : ∀ a, a ∈ s.connectionsList ++ [con] ↔ a = con ∨ a ∈ s.connectionsList := by
    intro a
    rw [List.mem_append, List.mem_singleton, or_comm]
  exact { h with
    byConaddr := fun a => by
      change a ∈ t ↔ a ∈ s.connectionsList ++ [con]
      rw [mem_insert hinsert, hmem, h.byConaddr]
    byConid := fun a => by
      change a ∈ t' ↔ a ∈ s.connectionsList ++ [con]
      rw [mem_insert hinsert', hmem, h.byConid]
    orderedByConaddr := ordered_insert hinsert h.orderedByConaddr
    orderedByConid := ordered_insert hinsert' h.orderedByConid
    nodup := List.nodup_append.mpr ⟨h.nodup, List.nodup_singleton con, by
      intro a ha b hb heq
      rw [List.mem_singleton.mp hb] at heq
      exact hcon (heq ▸ ha)⟩
    num := by
      change s.numConnections + 1 = (s.connectionsList ++ [con]).length
      rw [List.length_append, List.length_singleton, h.num]
    num_le := hnum
    conid_lt := fun a ha => by
      obtain rfl | ha := (hmem a).mp ha
      · exact hconid
      · exact h.conid_lt a ha
    recent := by
      change ((s.connectionsList ++ [con]).map s.conaddrOf).Sublist _
      have hpair : s.conaddrOf con ∉ s.connectionsList.map s.conaddrOf := by
        intro hpair
        obtain ⟨a, ha, heq⟩ := List.mem_map.mp hpair
        exact hnew a ha heq
      have huse := Recency.sublist_use h.recent (s.conaddrOf con)
      rw [List.erase_of_not_mem hpair] at huse
      rw [List.map_append]
      exact huse }

/-- A pair without a connection is used, which leaves the table as it is. -/
theorem TableInv.used (h : TableInv o s)
    (hnew : ∀ a ∈ s.connectionsList, s.conaddrOf a ≠ conaddr) : TableInv o (s.used conaddr) :=
  { h with
    orderedByConaddr := h.orderedByConaddr
    orderedByConid := h.orderedByConid
    recent := Recency.sublist_use_of_not_mem h.recent fun hmem => by
      obtain ⟨a, ha, heq⟩ := List.mem_map.mp hmem
      exact hnew a ha heq }

end Steps

/-! ### The search for an id -/

section Search

/-- There are fewer connections than ids, so one of them is unused. -/
theorem TableInv.exists_unused (h : TableInv o s) (hnum : s.numConnections < s.maxConnections) :
    ∃ u < s.maxConnections, ∀ con ∈ s.connectionsList, (s.conidOf con).toNat o ≠ u := by
  by_contra hnone
  push Not at hnone
  have hsub : Finset.range s.maxConnections ⊆
      (s.connectionsList.map fun con => (s.conidOf con).toNat o).toFinset := by
    intro u hu
    obtain ⟨con, hcon, heq⟩ := hnone u (Finset.mem_range.mp hu)
    exact List.mem_toFinset.mpr (List.mem_map.mpr ⟨con, hcon, heq⟩)
  have hcard : s.maxConnections ≤ s.connectionsList.length := by
    calc s.maxConnections
        = (Finset.range s.maxConnections).card := (Finset.card_range _).symm
      _ ≤ (s.connectionsList.map fun con => (s.conidOf con).toNat o).toFinset.card :=
          Finset.card_le_card hsub
      _ ≤ (s.connectionsList.map fun con => (s.conidOf con).toNat o).length :=
          List.toFinset_card_le _
      _ = s.connectionsList.length := List.length_map _
  rw [← h.num] at hcard
  omega

/-- What the search leaves: an id that no connection has. -/
def Found (o : ByteOrder) (s : UdpGwClient) (conid : Word16) (s' : UdpGwClient) : Prop :=
  ∃ n < s.maxConnections, s' = { s with nextConid := n } ∧ conid = Word16.ofNat o n ∧
    ∀ con ∈ s.connectionsList, s.conidOf con ≠ conid

/-- **The loop of `find_unused_conid`** finds an id, if an unused one is `d` rounds away. -/
theorem searchConid_spec {rounds d u : ℕ} (h : TableInv o s)
    (hunused : ∀ con ∈ s.connectionsList, (s.conidOf con).toNat o ≠ u)
    (hnear : (s.nextConid + d) % s.maxConnections = u) (hrounds : d < rounds) :
    wp (searchConid o rounds) (Found o s) s := by
  induction rounds generalizing s d with
  | zero => exact absurd hrounds (Nat.not_lt_zero d)
  | succ _ ih =>
    have hlt := h.next_lt
    have hmax := h.max_le
    rw [searchConid, wp_bind, wp_get]
    cases hfind : s.findConnectionByConid o (Word16.ofNat o s.nextConid) with
    | none => exact (wp_pure _).mpr ⟨s.nextConid, hlt, rfl, rfl, h.findByConid_eq_none.mp hfind⟩
    | some con =>
      -- the id is in use, so it is not the one we look for
      obtain ⟨hcon, hconid⟩ := h.of_findByConid hfind
      have hne : s.nextConid ≠ u := by
        have hused := hunused con hcon
        rw [hconid, toNat_ofNat o (by omega)] at hused
        exact hused
      obtain ⟨d, rfl⟩ : ∃ d', d = d' + 1 := by
        refine Nat.exists_eq_succ_of_ne_zero ?_
        rintro rfl
        rw [Nat.add_zero, Nat.mod_eq_of_lt hlt] at hnear
        exact hne hnear
      have hnext : (if s.nextConid = s.maxConnections - 1 then 0 else s.nextConid + 1)
          = (s.nextConid + 1) % s.maxConnections := by
        split_ifs with hlast
        · rw [hlast, Nat.sub_add_cancel h.max_pos, Nat.mod_self]
        · rw [Nat.mod_eq_of_lt (by omega)]
      rw [wp_bind, wp_modify, hnext]
      have hinv : TableInv o
          { s with nextConid := (s.nextConid + 1) % s.maxConnections } :=
        { h with
          orderedByConaddr := h.orderedByConaddr
          orderedByConid := h.orderedByConid
          next_lt := Nat.mod_lt _ h.max_pos }
      refine ih hinv hunused ?_ (Nat.lt_of_succ_lt_succ hrounds)
      change ((s.nextConid + 1) % s.maxConnections + d) % s.maxConnections = u
      rw [Nat.mod_add_mod, ← hnear]
      congr 1
      omega

/-- **`find_unused_conid` returns, with an id that no connection uses.** -/
theorem findUnusedConid_spec (h : TableInv o s) (hnum : s.numConnections < s.maxConnections) :
    wp (findUnusedConid o) (Found o s) s := by
  obtain ⟨u, hu, hunused⟩ := h.exists_unused hnum
  have hlt := h.next_lt
  rw [findUnusedConid, wp_bind, wp_get, assert, wp_bind, wp_ensure]
  refine ⟨hnum, searchConid_spec h hunused ?_ (Nat.mod_lt (u + s.maxConnections - s.nextConid)
    h.max_pos)⟩
  have hsum : s.nextConid + (u + s.maxConnections - s.nextConid) = u + s.maxConnections := by
    omega
  rw [Nat.add_mod_mod, hsum, Nat.add_mod_right, Nat.mod_eq_of_lt hu]

end Search

/-! ### The calls -/

section Calls

variable {con : ℕ} {conaddr : ConAddr} {flags : Byte} {data : List Byte}

/-- A message is added to the buffer of the connection, if there is room. -/
def UdpGwClient.sent (s : UdpGwClient) (o : ByteOrder) (con : ℕ) (flags : Byte) (data : List Byte)
    (account : ConAddr) (room : Bool) : UdpGwClient :=
  if room then
    s.update con fun c => { c with sendIf := c.sendIf ++
      [⟨connectionPacket o c.conid c.conaddr.remoteAddr flags data, account⟩] }
  else s

theorem TableInv.sent (h : TableInv o s) (account : ConAddr) (room : Bool) :
    TableInv o (s.sent o con flags data account room) := by
  unfold UdpGwClient.sent
  split_ifs
  · exact h.update rfl rfl
  · exact h

variable {account : ConAddr} {room : Bool}

/-- The message, if there is room. -/
def newMessage (o : ByteOrder) (c : Connection) (flags : Byte) (data : List Byte)
    (account : ConAddr) (room : Bool) : List Message :=
  if room then [⟨connectionPacket o c.conid c.conaddr.remoteAddr flags data, account⟩] else []

theorem eq_of_mem_newMessage {c : Connection} {m : Message}
    (h : m ∈ newMessage o c flags data account room) :
    m = ⟨connectionPacket o c.conid c.conaddr.remoteAddr flags data, account⟩ := by
  unfold newMessage at h
  split_ifs at h
  · exact List.mem_singleton.mp h
  · cases h

theorem sent_self :
    (s.sent o con flags data account room).connections con = { s.connections con with
      sendIf := (s.connections con).sendIf ++
        newMessage o (s.connections con) flags data account room } := by
  unfold sent newMessage
  split_ifs
  · exact update_self con _ _
  · rw [List.append_nil]

theorem sent_of_ne {a : ℕ} (hne : a ≠ con) :
    (s.sent o con flags data account room).connections a = s.connections a := by
  unfold sent
  split_ifs
  · exact update_of_ne hne _ _
  · rfl

/-- Nothing but the buffer of the connection changes. -/
theorem sent_frame :
    (s.sent o con flags data account room).udpMtu = s.udpMtu ∧
    (s.sent o con flags data account room).udpgwMtu = s.udpgwMtu ∧
    (s.sent o con flags data account room).connectionsList = s.connectionsList := by
  unfold sent
  split_ifs <;> exact ⟨rfl, rfl, rfl⟩

theorem sent_used :
    (s.used conaddr).sent o con flags data account room
      = (s.sent o con flags data account room).used conaddr := by
  unfold sent
  split_ifs <;> rfl

variable {Q : Unit → UdpGwClient → Prop}

theorem wp_connectionSend
    (hdata : data.length ≤ s.udpMtu) :
    wp (connectionSend o con flags data account room) Q s
      ↔ Q () (s.sent o con flags data account room) := by
  rw [connectionSend, wp_bind, wp_get, assert, wp_bind, wp_ensure, and_iff_right hdata,
    sent]
  split_ifs
  · exact wp_modify _
  · exact wp_pure ()

theorem wp_moveToEnd (hcon : con ∈ s.connectionsList) :
    wp (moveToEnd con) Q s ↔ Q () (s.touched con) := by
  rw [moveToEnd, wp_bind, wp_get, wp_bind, wp_ensure, and_iff_right hcon, wp_modify]
  rfl

theorem wp_insertByConaddr {t : List ℕ}
    (h : insert (conaddrComparator o) s.conaddrOf con s.connectionsTreeByConaddr
      = some t) :
    wp (insertByConaddr o con) Q s ↔ Q () { s with connectionsTreeByConaddr := t } := by
  unfold insertByConaddr
  rw [wp_bind, wp_get, h, wp_modify]

theorem wp_insertByConid {t : List ℕ}
    (h : insert (uint16Comparator o) s.conidOf con s.connectionsTreeByConid = some t) :
    wp (insertByConid o con) Q s ↔ Q () { s with connectionsTreeByConid := t } := by
  unfold insertByConid
  rw [wp_bind, wp_get, h, wp_modify]

/-- **`reuse_connection`** takes the first connection of the list, and finds a place for it under
its new pair. -/
theorem reuseConnection_spec (h : TableInv o s) (hnum : 0 < s.numConnections)
    (hfind : s.findConnectionByConaddr o conaddr = none) :
    wp (reuseConnection o conaddr) (fun con s' => ∃ l t, s.connectionsList = con :: l ∧
      insert (conaddrComparator o) (s.rebound con conaddr []).conaddrOf con
        (s.connectionsTreeByConaddr.erase con) = some t ∧ s' = s.rebound con conaddr t) s := by
  obtain ⟨con, l, hlist⟩ : ∃ con l, s.connectionsList = con :: l := by
    refine List.exists_cons_of_ne_nil ?_
    intro hnil
    rw [h.num, hnil] at hnum
    exact absurd hnum (Nat.lt_irrefl 0)
  have hcon : con ∈ s.connectionsTreeByConaddr := by
    rw [h.byConaddr, hlist]
    exact List.mem_cons_self
  have hnew := h.findByConaddr_eq_none.mp hfind
  obtain ⟨t, hinsert⟩ : ∃ t, insert (conaddrComparator o)
      (s.rebound con conaddr []).conaddrOf con (s.connectionsTreeByConaddr.erase con)
      = some t := by
    refine exists_insert ?_
    intro a ha hcmp
    obtain ⟨hne, ha⟩ := h.orderedByConaddr.nodup.mem_erase_iff.mp ha
    have heq := LawfulEqCmp.eq_of_compare hcmp
    refine hnew a ((h.byConaddr a).mp ha) ?_
    calc s.conaddrOf a
        = (s.rebound con conaddr []).conaddrOf a :=
          (congrArg Connection.conaddr (rebound_of_ne hne)).symm
      _ = (s.rebound con conaddr []).conaddrOf con := heq.symm
      _ = conaddr := congrArg Connection.conaddr rebound_self
  unfold reuseConnection
  rw [wp_bind, wp_get, assert, assert, wp_bind, wp_ensure, wp_bind, wp_ensure, hlist,
    List.head?_cons]
  refine ⟨hfind, hnum, ?_⟩
  rw [wp_bind, removeByConaddr, wp_bind, wp_get, wp_bind, wp_ensure, wp_modify, wp_bind, wp_modify,
    wp_bind]
  refine ⟨hcon, (wp_insertByConaddr (t := t) hinsert).mpr ?_⟩
  exact (wp_pure con).mpr ⟨l, t, rfl, hinsert, rfl⟩

/-- What `UdpGwClient_SubmitPacket` does to the connections. -/
inductive Submits (o : ByteOrder) (s : UdpGwClient) (conaddr : ConAddr) (data : List Byte) :
    UdpGwClient → Prop
  /-- The pair has a connection. -/
  | sent (con : ℕ) (dns room : Bool) (hcon : con ∈ s.connectionsList)
      (hconaddr : s.conaddrOf con = conaddr) :
      Submits o s conaddr data
        (((s.touched con).used conaddr).sent o con (dataFlags false dns) data conaddr room)
  /-- It takes the first connection of the list. -/
  | rebound (con : ℕ) (l t : List ℕ) (dns room : Bool) (hlist : s.connectionsList = con :: l)
      (hfull : s.numConnections = s.maxConnections)
      (hnew : s.findConnectionByConaddr o conaddr = none) :
      Submits o s conaddr data ((((s.rebound con conaddr t).touched con).used conaddr).sent o con
        (dataFlags true dns) data conaddr room)
  /-- It gets a new connection. -/
  | linked (con : ℕ) (conid : Word16) (dns : Bool) (n : ℕ) (t t' : List ℕ)
      (hcon : con ∉ s.connectionsList) (hconid : ∀ a ∈ s.connectionsList, s.conidOf a ≠ conid) :
      Submits o s conaddr data (((s.made con
        ⟨conaddr, dataFlags false dns, data, conaddr, conid, true, []⟩ n).linked con t t').used
        conaddr)
  /-- It gets none: there is no memory for the flow. -/
  | made (con : ℕ) (c : Connection) (n : ℕ) (hcon : con ∉ s.connectionsList) :
      Submits o s conaddr data ((s.made con c n).used conaddr)
  /-- It gets none: there is no memory for the connection. -/
  | refused : Submits o s conaddr data (s.used conaddr)

variable {c : Connection}

theorem made_of_mem {n a : ℕ} (hcon : con ∉ s.connectionsList)
    (ha : a ∈ s.connectionsList) : (s.made con c n).connections a = s.connections a := by
  have hne : a ≠ con := by
    rintro rfl
    exact hcon ha
  exact update_of_ne hne _ _

theorem made_self {n : ℕ} : (s.made con c n).connections con = c :=
  update_self con _ _

/-- A connection that is written twice. -/
theorem update_made {g : Connection → Connection} {n : ℕ} :
    (s.made con c n).update con g = s.made con (g c) n := by
  have htwice : update (update s.connections con c) con
      (g (update s.connections con c con)) = update s.connections con (g c) := by
    rw [update_self, update_idem]
  exact congrArg (fun connections => { s with connections, nextConid := n }) htwice

/-- The end of `connection_init`. -/
theorem linkConnection_spec (h : TableInv o s) (hcon : con ∉ s.connectionsList)
    (hnum : s.numConnections < s.maxConnections)
    (hnew : ∀ a ∈ s.connectionsList, s.conaddrOf a ≠ s.conaddrOf con)
    (hconid : (s.conidOf con).toNat o < s.maxConnections)
    (hunused : ∀ a ∈ s.connectionsList, s.conidOf a ≠ s.conidOf con) :
    wp (linkConnection o con) (fun _ s' => ∃ t t', s' = s.linked con t t' ∧
      TableInv o (s'.used (s.conaddrOf con))) s := by
  obtain ⟨t, ht⟩ : ∃ t, insert (conaddrComparator o) s.conaddrOf con
      s.connectionsTreeByConaddr = some t :=
    exists_insert fun a ha hcmp =>
      hnew a ((h.byConaddr a).mp ha) (LawfulEqCmp.eq_of_compare hcmp).symm
  obtain ⟨t', ht'⟩ : ∃ t', insert (uint16Comparator o) s.conidOf con
      s.connectionsTreeByConid = some t' :=
    exists_insert fun a ha hcmp =>
      hunused a ((h.byConid a).mp ha) (LawfulEqCmp.eq_of_compare hcmp).symm
  rw [linkConnection, wp_bind, wp_insertByConaddr ht, wp_bind]
  rw [wp_insertByConid (s := { s with connectionsTreeByConaddr := t }) ht', wp_modify]
  exact ⟨t, t', rfl, h.link hcon hnum hnew hconid ht ht'⟩

/-- **`connection_init`** links a connection or leaves the table as it was. -/
theorem connectionInit_spec (h : TableInv o s) (hnum : s.numConnections < s.maxConnections)
    (hfind : s.findConnectionByConaddr o conaddr = none) (hdata : data.length ≤ s.udpMtu)
    {r : Resources} (hmemory : ∀ con ∈ r.memory, con ∉ s.connectionsList) (dns : Bool) :
    wp (connectionInit o conaddr (dataFlags false dns) data r)
      (fun _ s' => TableInv o (s'.used conaddr) ∧
        Submits o s conaddr data (s'.used conaddr)) s := by
  have hnew := h.findByConaddr_eq_none.mp hfind
  unfold connectionInit
  rw [wp_bind, wp_get]
  simp only [assert, wp_bind, wp_ensure]
  refine ⟨hnum, hfind, hdata, ?_⟩
  cases hmem : r.memory with
  | none => exact (wp_pure ()).mpr ⟨h.used hnew, .refused⟩
  | some con =>
    have hcon := hmemory con hmem
    have hmade := h.made hcon { s.connections con with
      conaddr, firstFlags := dataFlags false dns, firstData := data, firstAccount := conaddr }
      h.next_lt
    simp only [wp_bind, wp_modify]
    refine wp_mono (findUnusedConid_spec hmade hnum) ?_
    rintro conid s' ⟨n, hn, rfl, rfl, hunused⟩
    have hn : n < s.maxConnections := hn
    have hunused : ∀ a ∈ s.connectionsList, s.conidOf a ≠ Word16.ofNat o n := by
      intro a ha heq
      exact hunused a ha ((congrArg Connection.conid (made_of_mem hcon ha)).trans heq)
    -- all of the connection is written by now
    change wp (if r.flow then linkConnection o con else _) _
      (update (s.made con _ n) con _)
    rw [update_made, wp_ite]
    split_ifs with hflow
    · set s' := s.made con
        ⟨conaddr, dataFlags false dns, data, conaddr, Word16.ofNat o n, true, []⟩ n with hs'
      have hconaddrOf : ∀ a ∈ s.connectionsList, s'.conaddrOf a = s.conaddrOf a :=
        fun a ha => congrArg Connection.conaddr (made_of_mem hcon ha)
      have hconidOf : ∀ a ∈ s.connectionsList, s'.conidOf a = s.conidOf a :=
        fun a ha => congrArg Connection.conid (made_of_mem hcon ha)
      have hself : s'.conaddrOf con = conaddr := congrArg Connection.conaddr made_self
      have hconid : s'.conidOf con = Word16.ofNat o n := congrArg Connection.conid made_self
      refine wp_mono (linkConnection_spec (h.made hcon _ hn) hcon hnum ?_ ?_ ?_) ?_
      · intro a ha
        rw [hconaddrOf a ha, hself]
        exact hnew a ha
      · have := h.max_le
        rw [hconid, toNat_ofNat o (by omega)]
        exact hn
      · intro a ha
        rw [hconidOf a ha, hconid]
        exact hunused a ha
      · rintro _ s'' ⟨t, t', rfl, hlinked⟩
        rw [hself] at hlinked
        exact ⟨hlinked, .linked con _ dns n t t' hcon hunused⟩
    · rw [wp_modify, update_made]
      refine ⟨(h.made hcon _ hn).used ?_, .made con _ n hcon⟩
      intro a ha heq
      exact hnew a ha ((congrArg Connection.conaddr (made_of_mem hcon ha)).symm.trans heq)

/-- **`UdpGwClient_SubmitPacket`** keeps the invariant. -/
theorem submitPacket_spec (h : TableInv o s) {localAddr remoteAddr : BAddr} {isDns : Bool}
    {r : Resources} (hcan : s.CanSubmit localAddr remoteAddr data r) :
    wp (submitPacket o localAddr remoteAddr isDns data r)
      (fun _ s' => TableInv o s' ∧ Submits o s ⟨localAddr, remoteAddr⟩ data s') s := by
  obtain ⟨hlocal, hremote, hdata, hmemory⟩ := hcan
  have hflags : (if isDns then 0 ||| flagDns else 0) = dataFlags false isDns := by
    cases isDns <;> decide
  have hrebind : dataFlags false isDns ||| flagRebind = dataFlags true isDns := by
    cases isDns <;> decide
  rw [submitPacket, wp_bind, wp_get]
  simp only [assert, wp_bind, wp_ensure, wp_modify, hflags]
  refine ⟨hlocal, hremote, hdata, ?_⟩
  cases hfind : s.findConnectionByConaddr o ⟨localAddr, remoteAddr⟩ with
  | some con =>
    obtain ⟨hcon, hconaddr⟩ := h.of_findByConaddr hfind
    have htouch := h.touch hcon
    rw [hconaddr] at htouch
    rw [submitTo, wp_bind, wp_moveToEnd hcon, wp_connectionSend (s := s.touched con) hdata]
    change TableInv o (used _ _) ∧ Submits o s _ data (used _ _)
    rw [← sent_used]
    exact ⟨htouch.sent _ _, .sent con isDns r.room hcon hconaddr⟩
  | none =>
    rw [submitTo, wp_bind, wp_get, wp_ite]
    split_ifs with hfull
    · have hpos : 0 < s.numConnections := hfull ▸ h.max_pos
      rw [wp_bind]
      refine wp_mono (reuseConnection_spec h hpos hfind) ?_
      rintro con s' ⟨l, t, hlist, hinsert, rfl⟩
      have hrebound := h.rebind hlist (h.findByConaddr_eq_none.mp hfind) hinsert
      have hcon : con ∈ (s.rebound con ⟨localAddr, remoteAddr⟩ t).connectionsList := by
        change con ∈ s.connectionsList
        rw [hlist]
        exact List.mem_cons_self
      rw [wp_bind, wp_moveToEnd hcon,
        wp_connectionSend (s := (s.rebound con ⟨localAddr, remoteAddr⟩ t).touched con) hdata]
      change TableInv o (used _ _) ∧ Submits o s _ data (used _ _)
      rw [← sent_used, hrebind]
      exact ⟨hrebound.sent _ _, .rebound con l t isDns r.room hlist hfull hfind⟩
    · have hnum : s.numConnections < s.maxConnections := Nat.lt_of_le_of_ne h.num_le hfull
      exact connectionInit_spec h hnum hfind hdata hmemory isDns

/-- The first job of a connection sends its message. -/
theorem connectionFirstJobHandler_spec (h : TableInv o s)
    (hdata : (s.connections con).firstData.length ≤ s.udpMtu) :
    wp (connectionFirstJobHandler o con room) (fun _ s' => TableInv o s' ∧
      s' = (s.update con fun c => { c with firstJob := false }).sent o con
        (flagRebind ||| (s.connections con).firstFlags) (s.connections con).firstData
        (s.connections con).firstAccount room) s := by
  have hself : (s.update con fun c => { c with firstJob := false }).connections con
      = { s.connections con with firstJob := false } := update_self con _ _
  rw [connectionFirstJobHandler, wp_bind, wp_modify, wp_bind, wp_get, hself,
    wp_connectionSend (s := s.update con fun c => { c with firstJob := false }) hdata]
  exact ⟨(h.update rfl rfl).sent _ _, rfl⟩

/-- What is passed to `handler_received` is for a connection that has the id and the remote address
of the message. -/
def Receives (o : ByteOrder) (s : UdpGwClient) (data : List Byte)
    (r : Option (ConAddr × List Byte)) : Prop :=
  ∀ received ∈ r, ∃ con ∈ s.connectionsList, ∃ parsed, recvParse o s.udpMtu data = .ok parsed ∧
    s.conidOf con = parsed.conid ∧ s.conaddrOf con = received.1 ∧
    received.1.remoteAddr = parsed.addr

/-- **`recv_interface_handler_send`** keeps the invariant, and the connections as they are. -/
theorem recvInterfaceHandlerSend_spec (h : TableInv o s) (hdata : data.length ≤ s.udpgwMtu) :
    wp (recvInterfaceHandlerSend o data) (fun r s' => TableInv o s' ∧
      s'.connections = s.connections ∧ (∀ a, a ∈ s'.connectionsList ↔ a ∈ s.connectionsList) ∧
      s'.udpMtu = s.udpMtu ∧ s'.udpgwMtu = s.udpgwMtu ∧ Receives o s data r) s := by
  have hdrop : TableInv o s ∧ s.connections = s.connections ∧
      (∀ a, a ∈ s.connectionsList ↔ a ∈ s.connectionsList) ∧ s.udpMtu = s.udpMtu ∧
      s.udpgwMtu = s.udpgwMtu ∧ Receives o s data none :=
    ⟨h, rfl, fun _ => Iff.rfl, rfl, rfl, fun _ hnone => nomatch hnone⟩
  rw [recvInterfaceHandlerSend, wp_bind, wp_get, assert, wp_bind, wp_ensure]
  refine ⟨hdata, ?_⟩
  cases hparse : recvParse o s.udpMtu data with
  | error => exact (wp_pure none).mpr hdrop
  | ok parsed =>
    cases hfind : s.findConnectionByConid o parsed.conid with
    | none =>
      dsimp only
      rw [hfind]
      exact (wp_pure none).mpr hdrop
    | some con =>
      obtain ⟨hcon, hconid⟩ := h.of_findByConid hfind
      dsimp only
      rw [hfind]
      dsimp only
      rw [wp_ite]
      split_ifs with haddr
      · exact (wp_pure none).mpr hdrop
      · rw [wp_bind, wp_moveToEnd hcon, wp_bind, wp_modify, wp_pure]
        refine ⟨h.touch hcon, rfl, fun a => ?_, rfl, rfl, ?_⟩
        · exact ((List.perm_append_singleton con _).trans (List.perm_cons_erase hcon).symm).mem_iff
        · intro received hreceived
          cases hreceived
          exact ⟨con, hcon, parsed, hparse, hconid, rfl,
            LawfulEqCmp.eq_of_compare (of_not_not haddr)⟩

end Calls

/-! ### What a submission does to each connection -/

section Comes

variable {s s' : UdpGwClient} {conaddr : ConAddr} {data : List Byte} {a : ℕ}

/-- A message of a connection, on account of a pair. -/
def IsMessage (o : ByteOrder) (c : Connection) (conaddr : ConAddr) (data : List Byte)
    (m : Message) : Prop :=
  ∃ rebind dns, m = ⟨connectionPacket o c.conid conaddr.remoteAddr (dataFlags rebind dns) data,
    conaddr⟩

/-- How a connection of the client after `UdpGwClient_SubmitPacket` came about. -/
inductive Comes (o : ByteOrder) (s : UdpGwClient) (conaddr : ConAddr) (data : List Byte)
    (s' : UdpGwClient) (a : ℕ) : Prop
  /-- It was there, for the same pair. -/
  | kept (l : List Message) (hmem : a ∈ s.connectionsList)
      (hsame : s'.connections a = { s.connections a with sendIf := (s.connections a).sendIf ++ l })
      (hl : ∀ m ∈ l, IsMessage o (s.connections a) (s.conaddrOf a) data m)
  /-- It was the first of the list and had another pair. -/
  | taken (l : List Message) (hhead : s.connectionsList.head? = some a)
      (hfull : s.numConnections = s.maxConnections)
      (hnew : s.findConnectionByConaddr o conaddr = none)
      (hsame : s'.connections a =
        { s.connections a with conaddr, sendIf := (s.connections a).sendIf ++ l })
      (hl : ∀ m ∈ l, IsMessage o (s.connections a) conaddr data m)
  /-- It is new. -/
  | made (conid : Word16) (dns : Bool) (hmem : a ∉ s.connectionsList)
      (hconid : ∀ b ∈ s.connectionsList, s.conidOf b ≠ conid)
      (hnew : s'.connections a =
        ⟨conaddr, dataFlags false dns, data, conaddr, conid, true, []⟩)

theorem mem_touched {con : ℕ} (hcon : con ∈ s.connectionsList) :
    a ∈ s.connectionsList.erase con ++ [con] ↔ a ∈ s.connectionsList :=
  ((List.perm_append_singleton con _).trans (List.perm_cons_erase hcon).symm).mem_iff

/-- Nothing has changed. -/
theorem Comes.same (hmem : a ∈ s.connectionsList) (h : s'.connections a = s.connections a) :
    Comes o s conaddr data s' a :=
  .kept [] hmem (by rw [h, List.append_nil]) nofun

theorem Submits.comes (h : Submits o s conaddr data s') (ha : a ∈ s'.connectionsList) :
    Comes o s conaddr data s' a := by
  cases h with
  | sent con dns _ hcon hconaddr =>
    rw [sent_frame.2.2] at ha
    have hmem := (mem_touched hcon).mp ha
    obtain rfl | hne := eq_or_ne a con
    · subst hconaddr
      exact .kept _ hmem sent_self fun m hm => ⟨false, dns, eq_of_mem_newMessage hm⟩
    · exact .same hmem (sent_of_ne hne)
  | rebound con _ t dns room hlist hfull hnew =>
    have hhead : s.connectionsList.head? = some con := by rw [hlist, List.head?_cons]
    rw [sent_frame.2.2] at ha
    have hmem := (mem_touched (List.mem_of_mem_head? hhead)).mp ha
    obtain rfl | hne := eq_or_ne a con
    · have hself : (((s.rebound a conaddr t).touched a).used conaddr).connections a
          = { s.connections a with conaddr } := rebound_self (t := t)
      refine .taken _ hhead hfull hnew (sent_self.trans (by rw [hself])) fun m hm => ?_
      exact ⟨true, dns, eq_of_mem_newMessage hm⟩
    · exact .same hmem ((sent_of_ne hne).trans (rebound_of_ne (t := t) hne))
  | linked _ conid dns n _ _ hcon hconid =>
    obtain ha | ha := List.mem_append.mp ha
    · exact .same ha (made_of_mem (n := n) hcon ha)
    · obtain rfl := List.mem_singleton.mp ha
      exact .made conid dns hcon hconid (made_self (n := n))
  | made _ _ n hcon => exact .same ha (made_of_mem (n := n) hcon ha)
  | refused => exact .same ha rfl

/-- The lengths are as they were, and a connection stays in the list. -/
theorem Submits.frame (h : Submits o s conaddr data s') :
    s'.udpMtu = s.udpMtu ∧ ∀ a ∈ s.connectionsList, a ∈ s'.connectionsList := by
  cases h with
  | sent _ _ _ hcon =>
    refine ⟨sent_frame.1, fun a ha => ?_⟩
    rw [sent_frame.2.2]
    exact (mem_touched hcon).mpr ha
  | rebound con _ _ _ _ hlist =>
    have hcon : con ∈ s.connectionsList := hlist ▸ List.mem_cons_self
    refine ⟨sent_frame.1, fun a ha => ?_⟩
    rw [sent_frame.2.2]
    exact (mem_touched hcon).mpr ha
  | linked => exact ⟨rfl, fun a ha => List.mem_append_left _ ha⟩
  | made | refused => exact ⟨rfl, fun a ha => ha⟩

/-- A connection stays under its id. -/
theorem Submits.conidOf (h : Submits o s conaddr data s') (ha : a ∈ s.connectionsList) :
    s'.conidOf a = s.conidOf a := by
  cases h.comes (h.frame.2 a ha) with
  | kept _ _ hsame | taken _ _ _ _ hsame =>
    rw [UdpGwClient.conidOf, hsame]
    rfl
  | made _ _ hmem => exact absurd ha hmem

end Comes

/-! ### Every run -/

section Runs

variable {cfg : Config} {w w' : World}

/-- Between two calls the client has not failed, and the first packets are as long as they may
be. -/
structure WorldInv (o : ByteOrder) (w : World) : Prop where
  fault : w.fault = none
  table : TableInv o w.client
  first : ∀ con ∈ w.client.connectionsList,
    (w.client.connections con).firstData.length ≤ w.client.udpMtu

theorem WorldInv.leave {α : Type} {prog : M α} {Q : α → UdpGwClient → Prop} (h : WorldInv o w)
    (hprog : wp prog Q w.client)
    (hQ : ∀ a s, Q a s → TableInv o s ∧
      ∀ con ∈ s.connectionsList, (s.connections con).firstData.length ≤ s.udpMtu) :
    WorldInv o (w.leave (prog.run w.client)) := by
  obtain ⟨⟨a, s⟩, hrun, hpost⟩ := hprog
  obtain ⟨htable, hfirst⟩ := hQ a s hpost
  rw [hrun]
  exact ⟨h.fault, htable, hfirst⟩

/-- **Every step keeps the invariant.** -/
theorem WorldInv.step {l : Label} (h : WorldInv o w) (hnext : next o w l = some w') :
    WorldInv o w' := by
  cases l with
  | submitPacket =>
    rw [next] at hnext
    obtain ⟨⟨-, hcan⟩, rfl⟩ := guard_eq_some.mp hnext
    refine h.leave (submitPacket_spec h.table hcan) ?_
    rintro _ s ⟨htable, hsubmits⟩
    refine ⟨htable, fun con hcon => ?_⟩
    rw [hsubmits.frame.1]
    cases hsubmits.comes hcon with
    | kept _ hmem hsame =>
      rw [hsame]
      exact h.first con hmem
    | taken _ hhead _ _ hsame =>
      rw [hsame]
      exact h.first con (List.mem_of_mem_head? hhead)
    | made _ _ _ _ hnew =>
      rw [hnew]
      exact hcan.2.2.1
  | firstJob con =>
    rw [next] at hnext
    obtain ⟨⟨-, hcon, -⟩, rfl⟩ := guard_eq_some.mp hnext
    refine h.leave (connectionFirstJobHandler_spec h.table (h.first con hcon)) ?_
    rintro _ s ⟨htable, rfl⟩
    refine ⟨htable, fun a ha => ?_⟩
    rw [sent_frame.2.2] at ha
    rw [sent_frame.1]
    refine le_of_eq_of_le (congrArg List.length ?_) (h.first a ha)
    obtain rfl | hne := eq_or_ne a con
    · rw [sent_self]
      exact update_field Connection.firstData rfl a
    · rw [sent_of_ne hne]
      exact update_field Connection.firstData rfl a
  | received =>
    rw [next] at hnext
    obtain ⟨⟨-, hdata⟩, rfl⟩ := guard_eq_some.mp hnext
    refine h.leave (recvInterfaceHandlerSend_spec h.table hdata) ?_
    rintro r s ⟨htable, hconnections, hlist, hmtu, -, -⟩
    refine ⟨htable, fun con hcon => ?_⟩
    rw [hconnections, hmtu]
    exact h.first con ((hlist con).mp hcon)

/-- **The invariant holds in every reachable state.** -/
theorem worldInv_of_reachable (h : (system o cfg).Reachable w) : WorldInv o w := by
  refine h.invariant ⟨rfl, TableInv.initial cfg, ?_⟩ fun _ _ _ h hnext => h.step hnext
  exact fun con hcon => nomatch hcon

/-- What the table promises. -/
structure Consistent (o : ByteOrder) (s : UdpGwClient) : Prop where
  /-- The three views hold the same connections, each once. -/
  byConaddr : s.connectionsTreeByConaddr.Perm s.connectionsList
  byConid : s.connectionsTreeByConid.Perm s.connectionsList
  orderedByConaddr : Ordered (conaddrComparator o) s.conaddrOf s.connectionsTreeByConaddr
  orderedByConid : Ordered (uint16Comparator o) s.conidOf s.connectionsTreeByConid
  nodup : s.connectionsList.Nodup
  num : s.numConnections = s.connectionsList.length
  num_le : s.numConnections ≤ s.maxConnections
  max_le : s.maxConnections ≤ 65536
  conid_lt : ∀ con ∈ s.connectionsList, (s.conidOf con).toNat o < s.maxConnections
  conid_distinct : (s.connectionsList.map s.conidOf).Nodup
  conaddr_distinct : (s.connectionsList.map s.conaddrOf).Nodup
  next_lt : s.nextConid < s.maxConnections
  /-- The list is in the order of last use. -/
  recent : s.connectionsList.Pairwise fun a b =>
    Recency.Before s.history (s.conaddrOf a) (s.conaddrOf b)
  /-- `reuse_connection` rebinds a connection that was used before all others. -/
  reuse : ∀ conaddr, s.findConnectionByConaddr o conaddr = none → 0 < s.numConnections →
    wp (reuseConnection o conaddr) (fun con s' => con ∈ s.connectionsList ∧
      s'.conaddrOf con = conaddr ∧ ∀ b ∈ s.connectionsList, b ≠ con →
        Recency.Before s.history (s.conaddrOf con) (s.conaddrOf b)) s
  /-- `find_unused_conid` returns, with an id that no connection uses. -/
  search : s.numConnections < s.maxConnections →
    wp (findUnusedConid o) (fun conid _ => ∀ con ∈ s.connectionsList, s.conidOf con ≠ conid) s

theorem TableInv.consistent {s : UdpGwClient} (h : TableInv o s) : Consistent o s := by
  have hrecent : s.connectionsList.Pairwise fun a b =>
      Recency.Before s.history (s.conaddrOf a) (s.conaddrOf b) :=
    List.pairwise_map.mp (Recency.pairwise_before h.recent)
  exact {
    byConaddr := (List.perm_ext_iff_of_nodup h.orderedByConaddr.nodup h.nodup).mpr h.byConaddr
    byConid := (List.perm_ext_iff_of_nodup h.orderedByConid.nodup h.nodup).mpr h.byConid
    orderedByConaddr := h.orderedByConaddr
    orderedByConid := h.orderedByConid
    nodup := h.nodup
    num := h.num
    num_le := h.num_le
    max_le := h.max_le
    conid_lt := h.conid_lt
    conid_distinct := h.nodup.map_on fun a ha b hb => h.conid_inj ha hb
    conaddr_distinct := h.nodup.map_on fun a ha b hb => h.conaddr_inj ha hb
    next_lt := h.next_lt
    recent := hrecent
    reuse := fun conaddr hfind hnum => by
      refine wp_mono (reuseConnection_spec h hnum hfind) ?_
      rintro con s' ⟨l, t, hlist, -, rfl⟩
      rw [hlist] at hrecent ⊢
      refine ⟨List.mem_cons_self, congrArg Connection.conaddr rebound_self, ?_⟩
      intro b hb hne
      exact (List.pairwise_cons.mp hrecent).1 b ((List.mem_cons.mp hb).resolve_left hne)
    search := fun hnum => by
      refine wp_mono (findUnusedConid_spec h hnum) ?_
      rintro conid s' ⟨n, -, -, -, hunused⟩
      exact hunused }

/-- **The views of the connection table agree** in every run, the list is in the order of last
use, and there is always an id for a new connection. -/
theorem connection_table_consistent (h : (system o cfg).Reachable w) :
    w.fault = none ∧ Consistent o w.client := by
  have hinv := worldInv_of_reachable h
  exact ⟨hinv.fault, hinv.table.consistent⟩

/-- A client for two connections. -/
def exampleConfig : Config where
  udpMtu := 100
  maxConnections := 2
  mtu_nonneg := by decide
  mtu_le := by decide
  maxConnections_pos := Nat.two_pos

/-- An address for examples. -/
def exampleAddr (n : Byte) : BAddr := .ipv4 (bytesAt 4 [10, 0, 0, n] 0) ⟨0, 53⟩

/-- A pair is used again, so that the connection of the other is taken for a third. -/
theorem connection_table_consistent_reuse : ∃ w, (system .little exampleConfig).Reachable w ∧
    w.client.connectionsList.map w.client.conaddrOf
      = [⟨exampleAddr 1, exampleAddr 9⟩, ⟨exampleAddr 3, exampleAddr 9⟩] ∧
    w.fault = none ∧ Consistent .little w.client := by
  obtain ⟨w, hw, hlist⟩ := (system .little exampleConfig).exists_of_run
    (fun w => w.client.connectionsList.map w.client.conaddrOf
      = [⟨exampleAddr 1, exampleAddr 9⟩, ⟨exampleAddr 3, exampleAddr 9⟩])
    [.submitPacket (exampleAddr 1) (exampleAddr 9) false [7] ⟨some 11, true, true⟩,
      .submitPacket (exampleAddr 2) (exampleAddr 9) false [] ⟨some 12, true, true⟩,
      .firstJob 11 true,
      .received (packet .little 0 ⟨0, 0⟩ (exampleAddr 9) [8]),
      .submitPacket (exampleAddr 3) (exampleAddr 9) true [7] ⟨none, true, true⟩] (by decide +kernel)
  exact ⟨w, hw, hlist, connection_table_consistent hw⟩

end Runs

end Tun2Socks.UdpGw.Client
