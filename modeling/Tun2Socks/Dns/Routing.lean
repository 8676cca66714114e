import Tun2Socks.Dns.Device
import Tun2Socks.Framework.System

/-!
# Which query a DNS reply is delivered to

The relay answers queries from many resolvers behind the device. What it sends back carries
the id of the query and nothing else that the program looks at, so the map from ids to
addresses decides where a reply goes.

The system joins the device, the program and the relay:

* the device delivers any packet, in memory that may go on behind it; `send` takes the whole
  request or fails, as it does on a datagram socket, and any `malloc` may fail;
* the relay answers a query once, with the id of the query, at any later time and in any order,
  or never;
* `recv` may fail, or return less than a SOCKS UDP header.

The state keeps every query that reached the relay, which of them it may still answer, and the
replies that were delivered, each with the query it answers and the address it went to.

Ids are chosen by the resolvers independently. `reply_misrouted` is a run in which two of them
have the same id outstanding and the reply to the first goes to the second.
`replies_routed` says that there is no other way to fail: as long as no address is stored under
the id of an outstanding query of another sender, every reply is delivered to the sender of its
query, once.
-/

namespace Tun2Socks.Dns

open Framework Net Structure

/-! ### The system -/

/-- A query that reached the relay. -/
structure Query where
  /-- The address and port it came from. -/
  source : BAddr
  id : Word16
  deriving DecidableEq

/-- The key of its id in the map. -/
def Query.idStr (o : ByteOrder) (q : Query) : CString := decimal (q.id.toNat o)

/-- The program, the relay and what happened so far. -/
structure World where
  state : State
  queries : List Query
  /-- The queries that the relay may still answer, by their index. -/
  waiting : List ℕ
  /-- The replies that were delivered: the index of the query, and the address. -/
  replies : List (ℕ × BAddr)
  deriving DecidableEq

/-- What happens next. -/
inductive Label
  | device (data : List Byte) (dataLen : ℕ) (r : Outcome)
  | reply (k : ℕ) (buffer : List Byte) (datagramLen : ℕ)
  | lost (k : ℕ)
  | recvFails (buffer : List Byte) (datagramLen : ℤ)

variable (config : Config)

/-- `send` on a datagram socket sends everything, or fails. -/
def SendsAll (r : Outcome) (data : List Byte) (dataLen : ℕ) : Prop :=
  ∀ n ∈ r.send, ∀ datagram ∈ dnsQuery config data dataLen,
    n = (socksUdpRequest datagram).length

instance (r : Outcome) (data : List Byte) (dataLen : ℕ) :
    Decidable (SendsAll config r data dataLen) := by
  unfold SendsAll
  infer_instance

namespace World

variable (w : World)

/-- A query with an id reaches the relay. -/
def asked (datagram : Datagram) : World := { w with
  queries := w.queries ++ [⟨datagram.localAddr, word16At datagram.data 0⟩]
  waiting := w.waiting ++ [w.queries.length] }

/-- The device delivers a packet. -/
def device (r : Outcome) (data : List Byte) (dataLen : ℕ) : World :=
  let w := { w with state := (processDeviceUdpPacket config r data dataLen w.state).2 }
  match dnsQuery config data dataLen with
  | none => w
  | some datagram =>
    if r.send ≠ none ∧ 2 ≤ datagram.dataLen then w.asked datagram else w

/-- The reply to query `k` arrives. -/
def reply (k : ℕ) (buffer : List Byte) (datagramLen : ℕ) : World :=
  let s := udpFdHandler config buffer datagramLen w.state
  { w with
    state := s
    waiting := w.waiting.erase k
    replies := w.replies ++
      (s.delivered.drop w.state.delivered.length).map fun d => (k, d.localAddr) }

end World

/-- One step. -/
def next (w : World) : Label → Option World
  | .device data dataLen r =>
    if SendsAll config r data dataLen then some (w.device config r data dataLen) else none
  | .reply k buffer datagramLen =>
    (w.queries[k]?).bind fun q =>
      if k ∈ w.waiting ∧ 12 ≤ datagramLen ∧ word16At buffer 10 = q.id then
        some (w.reply config k buffer datagramLen)
      else none
  | .lost k => some { w with waiting := w.waiting.erase k }
  | .recvFails buffer datagramLen =>
    if datagramLen ≤ 10 then
      some { w with state := udpFdHandler config buffer datagramLen w.state }
    else none

/-- The program after `udp_init`. -/
def system : System World Label where
  init := ⟨⟨.empty, [], [], []⟩, [], [], []⟩
  next := next config

/-! ### The invariant -/

/-- What is stored under the id of query `q`, if anything, is its sender. -/
def Routed (map : StringMap) (q : Query) : Prop :=
  ∀ v ∈ map.bStringMapGet (q.idStr config.order), v = bAddrPrint config.order q.source

/-- What holds after every step. -/
structure RoutingInv (w : World) : Prop where
  /-- A query waits for a reply, or was answered, at most once. -/
  once : (w.waiting ++ w.replies.map Prod.fst).Nodup
  known : ∀ k ∈ w.waiting, k < w.queries.length
  ipv4 : ∀ q ∈ w.queries, ∃ ip port, q.source = .ipv4 ip port
  routed : ∀ k ∈ w.waiting, ∀ q ∈ w.queries[k]?, Routed config w.state.map q
  replies : ∀ p ∈ w.replies, ∃ q ∈ w.queries[p.1]?, p.2 = q.source

variable {config} {w : World}

theorem RoutingInv.initial : RoutingInv config (system config).init where
  once := List.nodup_nil
  known _ hk := nomatch hk
  ipv4 _ hq := nomatch hq
  routed _ hk := nomatch hk
  replies _ hp := nomatch hp

/-- A query stops waiting. -/
theorem RoutingInv.erase (h : RoutingInv config w) (k : ℕ) :
    RoutingInv config { w with waiting := w.waiting.erase k } where
  once := h.once.sublist (List.erase_sublist.append_right _)
  known j hj := h.known j (List.mem_of_mem_erase hj)
  ipv4 := h.ipv4
  routed j hj := h.routed j (List.mem_of_mem_erase hj)
  replies := h.replies

/-- The program changes its state, and what is stored for the queries that wait is right. -/
theorem RoutingInv.state (h : RoutingInv config w) (s : State)
    (hrouted : ∀ k ∈ w.waiting, ∀ q ∈ w.queries[k]?, Routed config s.map q) :
    RoutingInv config { w with state := s } where
  once := h.once
  known := h.known
  ipv4 := h.ipv4
  routed := hrouted
  replies := h.replies

variable {datagram : Datagram}

/-- A new query, whose id leads to its sender. -/
theorem RoutingInv.asked (h : RoutingInv config w)
    (hipv4 : ∃ ip port, datagram.localAddr = .ipv4 ip port)
    (hrouted : Routed config w.state.map ⟨datagram.localAddr, word16At datagram.data 0⟩) :
    RoutingInv config (w.asked datagram) := by
  -- the index of the new query is the first that is free
  have hwaiting : w.queries.length ∉ w.waiting := fun hk => (h.known _ hk).ne rfl
  have hreplies : w.queries.length ∉ w.replies.map Prod.fst := by
    intro hk
    obtain ⟨p, hp, heq⟩ := List.mem_map.mp hk
    obtain ⟨q, hq, -⟩ := h.replies p hp
    exact ((List.getElem?_eq_some_iff.mp hq).1).ne heq
  exact {
    once := by
      change ((w.waiting ++ [w.queries.length]) ++ w.replies.map Prod.fst).Nodup
      rw [List.append_assoc, List.singleton_append, List.nodup_middle, List.nodup_cons,
        List.mem_append, not_or]
      exact ⟨⟨hwaiting, hreplies⟩, h.once⟩
    known := fun k hk => by
      change k < (w.queries ++ [_]).length
      rw [List.length_append, List.length_singleton]
      obtain hk | hk := List.mem_append.mp hk
      · exact (h.known k hk).trans (Nat.lt_succ_self _)
      · rw [List.mem_singleton.mp hk]
        exact Nat.lt_succ_self _
    ipv4 := fun q hq => by
      obtain hq | hq := List.mem_append.mp hq
      · exact h.ipv4 q hq
      · rw [List.mem_singleton.mp hq]
        exact hipv4
    routed := fun k hk q hq => by
      obtain hq | ⟨-, rfl⟩ := getElem?_concat hq
      · refine h.routed k ?_ q hq
        obtain hk | hk := List.mem_append.mp hk
        · exact hk
        · have hlt := (List.getElem?_eq_some_iff.mp hq).1
          exact absurd (List.mem_singleton.mp hk) hlt.ne
      · exact hrouted
    replies := fun p hp => by
      obtain ⟨q, hq, heq⟩ := h.replies p hp
      have hlt := (List.getElem?_eq_some_iff.mp hq).1
      exact ⟨q, (List.getElem?_append_left hlt).trans hq, heq⟩ }

/-! ### A packet from the device -/

/-- No query of another sender with the same id waits for its reply when the sender of
`datagram` is stored; and if there is no memory to store it, nobody else is stored under
its id. -/
def Clear (config : Config) (w : World) (r : Outcome) (datagram : Datagram) : Prop :=
  (r.mallocs.Succeed → ∀ k ∈ w.waiting, ∀ q ∈ w.queries[k]?,
    q.id = word16At datagram.data 0 → q.source = datagram.localAddr) ∧
  (¬ r.mallocs.Succeed →
    ∀ v ∈ w.state.map.bStringMapGet (dnsGetHeaderIdStr config.order datagram.data),
      v = bAddrPrint config.order datagram.localAddr)

instance (w : World) (r : Outcome) (datagram : Datagram) :
    Decidable (Clear config w r datagram) := by
  unfold Clear
  infer_instance

/-- **No query is taken for another**: every DNS query comes when the map is clear for it. -/
def Unambiguous (config : Config) (w : World) : Label → Prop
  | .device data dataLen r => ∀ datagram ∈ dnsQuery config data dataLen, Clear config w r datagram
  | _ => True

instance (w : World) : ∀ l, Decidable (Unambiguous config w l)
  | .device data dataLen r => inferInstanceAs
      (Decidable (∀ datagram ∈ dnsQuery config data dataLen, Clear config w r datagram))
  | .reply _ _ _ | .lost _ | .recvFails _ _ => .isTrue trivial

variable {q : Query}

/-- Different ids have different keys. -/
theorem eq_of_idStr_eq {data : List Byte}
    (h : q.idStr config.order = dnsGetHeaderIdStr config.order data) : q.id = word16At data 0 :=
  toNat_injective config.order (decimal_injective h)

theorem dataLen_le_length_request (datagram : Datagram) :
    datagram.dataLen ≤ (socksUdpRequest datagram).length := by
  rw [socksUdpRequest, List.length_append, (bytesAt _ _ _).length_eq]
  exact Nat.le_add_left _ _

variable {r : Outcome}

/-- Forwarding a query keeps the queries that wait routed. -/
theorem RoutingInv.routed_forwardDns (h : RoutingInv config w)
    (hclear : Clear config w r datagram) :
    ∀ k ∈ w.waiting, ∀ q ∈ w.queries[k]?,
      Routed config (forwardDns config r datagram w.state).2.map q := by
  intro k hk q hq v hv
  by_cases hok : r.mallocs.Succeed
  · rw [get_forwardDns datagram hok] at hv
    split_ifs at hv with hkey
    · -- the entry of `q` is overwritten, by its own sender
      have hid : q.id = word16At datagram.data 0 := eq_of_idStr_eq hkey.2
      rw [hclear.1 hok k hk q hq hid]
      exact (Option.some.inj hv).symm
    · exact h.routed k hk q hq v hv
  · rw [map_forwardDns datagram hok] at hv
    exact h.routed k hk q hq v hv

/-- The query itself is routed once it is sent. -/
theorem Clear.routed (hclear : Clear config w r datagram)
    (hsent : datagram.dataLen ≤ r.send.getD 0) :
    Routed config (forwardDns config r datagram w.state).2.map
      ⟨datagram.localAddr, word16At datagram.data 0⟩ := by
  intro v hv
  change v ∈ StringMap.bStringMapGet _ (dnsGetHeaderIdStr config.order datagram.data) at hv
  by_cases hok : r.mallocs.Succeed
  · rw [get_forwardDns datagram hok, if_pos ⟨hsent, rfl⟩] at hv
    exact (Option.some.inj hv).symm
  · rw [map_forwardDns datagram hok] at hv
    exact hclear.2 hok v hv

theorem RoutingInv.device (h : RoutingInv config w) {data : List Byte} {dataLen : ℕ}
    (hsend : SendsAll config r data dataLen)
    (hclear : Unambiguous config w (.device data dataLen r)) :
    RoutingInv config (w.device config r data dataLen) := by
  unfold World.device
  cases hquery : dnsQuery config data dataLen with
  | none =>
    refine h.state _ fun k hk q hq => ?_
    rw [map_process_of_dnsQuery_eq_none hquery]
    exact h.routed k hk q hq
  | some datagram =>
    have hclear : Clear config w r datagram := hclear datagram hquery
    have hstate := h.state _ (h.routed_forwardDns hclear)
    dsimp only
    rw [process_of_dnsQuery hquery]
    split_ifs with hasked
    · -- a query that was sent was sent whole, so its sender is stored
      obtain ⟨n, hn⟩ := Option.ne_none_iff_exists'.mp hasked.1
      have hsent : datagram.dataLen ≤ r.send.getD 0 := by
        rw [hn, Option.getD_some, hsend n hn datagram hquery]
        exact dataLen_le_length_request datagram
      obtain ⟨hparse, hdns⟩ := Option.filter_eq_some_iff.mp hquery
      rw [Bool.and_eq_true] at hdns
      exact hstate.asked (localAddr_of_isDns hparse hdns.2) (hclear.routed hsent)
    · exact hstate

/-! ### A reply from the relay -/

theorem dnsGetHeaderIdStr_drop (buffer : List Byte) (hid : word16At buffer 10 = q.id) :
    dnsGetHeaderIdStr config.order (buffer.drop 10) = q.idStr config.order := by
  have hbyte (i : ℕ) : byteAt (buffer.drop 10) i = byteAt buffer (10 + i) := by
    unfold byteAt
    rw [List.getD_eq_getElem?_getD, List.getElem?_drop, List.getD_eq_getElem?_getD]
  rw [dnsGetHeaderIdStr, Query.idStr, ← hid, word16At, hbyte, hbyte, word16At]

variable {buffer : List Byte} {datagramLen : ℤ} {s : State}

theorem udpFdHandler_of_get_eq_none
    (h : s.map.bStringMapGet (dnsGetHeaderIdStr config.order (buffer.drop 10)) = none) :
    udpFdHandler config buffer datagramLen s = s := by
  unfold udpFdHandler
  split_ifs
  · rfl
  · rfl
  · dsimp only
    rw [h]

/-- A stored sender is taken out of the map, and the reply goes there. -/
theorem udpFdHandler_of_get
    (hlen : 10 < datagramLen) {v : CString} {localAddr : BAddr}
    (h : s.map.bStringMapGet (dnsGetHeaderIdStr config.order (buffer.drop 10)) = some v)
    (hparse : bAddrParse config.order config.getAddrInfo v = some localAddr) :
    ∃ payload, udpFdHandler config buffer datagramLen s = { s with
      map := s.map.bStringMapUnset (dnsGetHeaderIdStr config.order (buffer.drop 10))
      delivered := s.delivered ++ [⟨localAddr, config.dnsResolverAddr, payload⟩] } := by
  refine ⟨(bytesAt (datagramLen.toNat - 10) (buffer.drop 10) 0).cells, ?_⟩
  unfold udpFdHandler
  rw [if_neg (by omega), if_neg (by omega)]
  dsimp only
  rw [h]
  dsimp only
  rw [hparse]

/-- What the program does with the reply to `q`: nothing, if no address is stored under its id,
or it delivers it to the sender of `q` and forgets the address. -/
theorem udpFdHandler_of_routed (hnumeric : config.getAddrInfo.Numeric)
    (hipv4 : ∃ ip port, q.source = .ipv4 ip port) (hrouted : Routed config s.map q)
    {datagramLen : ℕ} (hlen : 12 ≤ datagramLen)
    (hid : word16At buffer 10 = q.id) :
    udpFdHandler config buffer datagramLen s = s ∨
    ∃ payload, udpFdHandler config buffer datagramLen s = { s with
      map := s.map.bStringMapUnset (q.idStr config.order)
      delivered := s.delivered ++ [⟨q.source, config.dnsResolverAddr, payload⟩] } := by
  have hkey : dnsGetHeaderIdStr config.order (buffer.drop 10) = q.idStr config.order :=
    dnsGetHeaderIdStr_drop buffer hid
  cases hget : s.map.bStringMapGet (q.idStr config.order) with
  | none => exact .inl (udpFdHandler_of_get_eq_none (hkey ▸ hget))
  | some v =>
    obtain ⟨ip, port, hsource⟩ := hipv4
    have hparse : bAddrParse config.order config.getAddrInfo v = some q.source := by
      rw [hrouted v hget, hsource]
      exact bAddrParse_bAddrPrint config.order hnumeric ip port
    rw [← hkey] at hget ⊢
    exact .inr (udpFdHandler_of_get (by omega) hget hparse)

/-- The reply to query `k` was delivered to its sender, and the address is forgotten. -/
theorem RoutingInv.delivered (h : RoutingInv config w) {k : ℕ} (hk : k ∈ w.waiting)
    (hq : w.queries[k]? = some q)
    (hmap : s.map = w.state.map.bStringMapUnset (q.idStr config.order)) :
    RoutingInv config { w with
      state := s
      waiting := w.waiting.erase k
      replies := w.replies ++ [(k, q.source)] } where
  once := by
    -- `k` moves from the queries that wait to those that are answered
    have hperm : (w.waiting.erase k ++ (w.replies ++ [(k, q.source)]).map Prod.fst).Perm
        (w.waiting ++ w.replies.map Prod.fst) :=
      calc w.waiting.erase k ++ (w.replies ++ [(k, q.source)]).map Prod.fst
        _ = (w.waiting.erase k ++ w.replies.map Prod.fst) ++ [k] := by
          rw [List.map_append, List.append_assoc]
          rfl
        _ |>.Perm (k :: (w.waiting.erase k ++ w.replies.map Prod.fst)) :=
          List.perm_append_singleton _ _
        _ |>.Perm (w.waiting ++ w.replies.map Prod.fst) :=
          (List.perm_cons_erase hk).symm.append_right _
    exact hperm.nodup_iff.mpr h.once
  known j hj := h.known j (List.mem_of_mem_erase hj)
  ipv4 := h.ipv4
  routed j hj p hp v hv := by
    -- a query with the same key has nothing stored now, the others keep what they had
    rw [hmap, StringMap.get_unset] at hv
    split_ifs at hv
    · cases hv
    · exact h.routed j (List.mem_of_mem_erase hj) p hp v hv
  replies p hp := by
    obtain hp | hp := List.mem_append.mp hp
    · exact h.replies p hp
    · rw [List.mem_singleton.mp hp]
      exact ⟨q, hq, rfl⟩

theorem RoutingInv.reply (h : RoutingInv config w) (hnumeric : config.getAddrInfo.Numeric) {k : ℕ}
    (hk : k ∈ w.waiting) (hq : w.queries[k]? = some q)
    {datagramLen : ℕ} (hlen : 12 ≤ datagramLen) (hid : word16At buffer 10 = q.id) :
    RoutingInv config (w.reply config k buffer datagramLen) := by
  have hipv4 := h.ipv4 q (List.mem_of_getElem? hq)
  unfold World.reply
  dsimp only
  obtain heq | ⟨payload, heq⟩ :=
    udpFdHandler_of_routed hnumeric hipv4 (h.routed k hk q hq) hlen hid
  · rw [heq, List.drop_length, List.map_nil, List.append_nil]
    exact h.erase k
  · rw [heq]
    dsimp only
    rw [List.drop_left, List.map_singleton]
    exact h.delivered hk hq rfl

/-- A failed or short `recv` changes nothing. -/
theorem udpFdHandler_of_le
    (h : datagramLen ≤ 10) : udpFdHandler config buffer datagramLen s = s := by
  unfold udpFdHandler
  rw [if_pos h, ite_self]

/-! ### Every reply is delivered to the sender of its query -/

theorem RoutingInv.step (hnumeric : config.getAddrInfo.Numeric) {l : Label} {w' : World}
    (h : RoutingInv config w) (hclear : Unambiguous config w l)
    (hstep : next config w l = some w') : RoutingInv config w' := by
  cases l with
  | device =>
    rw [next] at hstep
    obtain ⟨hsend, rfl⟩ := guard_eq_some.mp hstep
    exact h.device hsend hclear
  | reply =>
    obtain ⟨q, hq, hstep⟩ := Option.bind_eq_some_iff.mp hstep
    obtain ⟨⟨hk, hlen, hid⟩, rfl⟩ := guard_eq_some.mp hstep
    exact h.reply hnumeric hk hq hlen hid
  | lost k =>
    cases hstep
    exact h.erase k
  | recvFails =>
    rw [next] at hstep
    obtain ⟨hlen, rfl⟩ := guard_eq_some.mp hstep
    rw [udpFdHandler_of_le hlen]
    exact h

/-- **A reply goes to the sender of its query, and no query is answered twice**, in every run
in which no address is stored under the id of an outstanding query of another sender. -/
theorem replies_routed (config : Config) (hnumeric : config.getAddrInfo.Numeric) {w : World}
    (h : (system config).ReachableUnder (Unambiguous config) w) :
    (∀ p ∈ w.replies, ∃ q ∈ w.queries[p.1]?, p.2 = q.source) ∧
      (w.replies.map Prod.fst).Nodup := by
  have hinv : RoutingInv config w :=
    h.invariant RoutingInv.initial fun _ _ _ hinv hclear hstep =>
      hinv.step hnumeric hclear hstep
  exact ⟨hinv.replies, hinv.once.of_append_right⟩

/-! ### What is stored -/

/-- Every string in the map is the text of an IPv4 address and port. -/
def StoresAddresses (config : Config) (w : World) : Prop :=
  ∀ key, ∀ text ∈ w.state.map.bStringMapGet key,
    ∃ ip port, text = bAddrPrint config.order (.ipv4 ip port)

theorem StoresAddresses.device (h : StoresAddresses config w) (r : Outcome) (data : List Byte)
    (dataLen : ℕ) : StoresAddresses config (w.device config r data dataLen) := by
  intro key text htext
  have hmap : (w.device config r data dataLen).state.map =
      (processDeviceUdpPacket config r data dataLen w.state).2.map := by
    unfold World.device
    cases dnsQuery config data dataLen with
    | none => rfl
    | some => dsimp only; split_ifs <;> rfl
  rw [hmap] at htext
  cases hquery : dnsQuery config data dataLen with
  | none =>
    rw [map_process_of_dnsQuery_eq_none hquery] at htext
    exact h key text htext
  | some datagram =>
    rw [process_of_dnsQuery hquery] at htext
    by_cases hok : r.mallocs.Succeed
    · rw [get_forwardDns datagram hok] at htext
      split_ifs at htext
      · obtain ⟨hparse, hdns⟩ := Option.filter_eq_some_iff.mp hquery
        rw [Bool.and_eq_true] at hdns
        obtain ⟨ip, port, haddr⟩ := localAddr_of_isDns hparse hdns.2
        exact ⟨ip, port, haddr ▸ (Option.some.inj htext).symm⟩
      · exact h key text htext
    · rw [map_forwardDns datagram hok] at htext
      exact h key text htext

/-- The handler for replies takes at most one string out of the map. -/
theorem get_udpFdHandler {key text : CString}
    (h : text ∈ (udpFdHandler config buffer datagramLen s).map.bStringMapGet key) :
    text ∈ s.map.bStringMapGet key := by
  have hunset {idStr : CString} (h : text ∈ (s.map.bStringMapUnset idStr).bStringMapGet key) :
      text ∈ s.map.bStringMapGet key := by
    rw [StringMap.get_unset] at h
    split_ifs at h
    · cases h
    · exact h
  unfold udpFdHandler at h
  split_ifs at h
  · exact h
  · exact h
  · dsimp only at h
    cases hget : s.map.bStringMapGet (dnsGetHeaderIdStr config.order (buffer.drop 10)) with rw [hget] at h
    | none =>
      exact h
    | some v =>
      dsimp only at h
      cases hparse : bAddrParse config.order config.getAddrInfo v with rw [hparse] at h
      | none | some =>
        exact hunset h

theorem StoresAddresses.step {l : Label} {w' : World} (h : StoresAddresses config w)
    (hstep : next config w l = some w') : StoresAddresses config w' := by
  cases l with
  | device data dataLen r =>
    rw [next, Option.ite_none_right_eq_some] at hstep
    obtain rfl := Option.some.inj hstep.2
    exact h.device r data dataLen
  | reply =>
    obtain ⟨q, -, hstep⟩ := Option.bind_eq_some_iff.mp hstep
    rw [Option.ite_none_right_eq_some] at hstep
    obtain rfl := Option.some.inj hstep.2
    exact fun key text htext => h key text (get_udpFdHandler htext)
  | lost =>
    cases hstep
    exact h
  | recvFails =>
    rw [next, Option.ite_none_right_eq_some] at hstep
    obtain rfl := Option.some.inj hstep.2
    exact fun key text htext => h key text (get_udpFdHandler htext)

/-- What becomes of the text of an address in the map. -/
structure Survives (config : Config) (ip : Buffer Byte 4) (port : Word16) : Prop where
  fits : (bAddrPrint config.order (.ipv4 ip port)).memory.length ≤ baddrMaxPrintLen
  /-- The copy that a successful `BStringMap_Set` has stored parses to the address. -/
  copy : ∀ (map : StringMap) (key : CString) (r : StringMap.Mallocs), r.Succeed →
    ∃ text ∈ (map.bStringMapSet key (bAddrPrint config.order (.ipv4 ip port)) r).2.bStringMapGet key,
      bAddrParse config.order config.getAddrInfo text = some (.ipv4 ip port)
  distinct : ∀ ip' port', bAddrPrint config.order (.ipv4 ip' port') =
    bAddrPrint config.order (.ipv4 ip port) → ip' = ip ∧ port' = port

/-- **Stored addresses survive the map**, on hosts of either byte order: every address and port by
itself, and whatever the map holds at any time. -/
theorem stored_addresses_survive (config : Config) (hnumeric : config.getAddrInfo.Numeric) :
    (∀ ip port, Survives config ip port) ∧
      ∀ w, (system config).Reachable w → ∀ key, ∀ text ∈ w.state.map.bStringMapGet key,
        ∃ ip port, text = bAddrPrint config.order (.ipv4 ip port) ∧
          bAddrParse config.order config.getAddrInfo text = some (.ipv4 ip port) := by
  have hparse := bAddrParse_bAddrPrint config.order hnumeric
  constructor
  · intro ip port
    refine ⟨length_bAddrPrint_ipv4 config.order ip port, fun map key r hok => ?_, ?_⟩
    · refine ⟨bAddrPrint config.order (.ipv4 ip port), ?_, hparse ip port⟩
      rw [StringMap.get_set _ _ hok, if_pos rfl]
      exact rfl
    · exact fun ip' port' heq => bAddrPrint_ipv4_injective config.order heq
  · intro w hreach key text htext
    have hstores : StoresAddresses config w :=
      hreach.invariant (fun _ _ hnone => absurd hnone (Option.not_mem_none _))
        fun _ _ _ hstores hstep => hstores.step hstep
    obtain ⟨ip, port, rfl⟩ := hstores key text htext
    exact ⟨ip, port, rfl, hparse ip port⟩

/-! ### Two resolvers -/

/-- Transparent DNS with the resolver 8.8.8.8, on a little-endian host. -/
def exampleConfig : Config where
  order := .little
  getAddrInfo := numericHosts
  udpgwRemoteServerAddr := false
  dnsResolverOption := true
  transparentDns := true
  netifIp6addr := false
  dnsResolverAddr := .ipv4 ⟨[8, 8, 8, 8], rfl⟩ ⟨0, 53⟩
  udpMtu := 1472

/-- A query from 10.0.0.2, whose port, UDP checksum and DNS id are given. -/
def examplePacket (port checksum id : Word16) : List Byte :=
  [69, 0, 0, 40, 0, 0, 0, 0, 64, 17, 96, 180, 10, 0, 0, 2, 8, 8, 8, 8] ++
    port.bytes ++ [0, 53, 0, 20] ++ checksum.bytes ++
    id.bytes ++ [1, 0, 0, 1, 0, 0, 0, 0, 0, 0]

/-- The packet arrives, and all goes well. -/
def exampleQuery (port checksum id : Word16) : Label :=
  .device (examplePacket port checksum id) 40 ⟨some 22, ⟨true, true, true⟩⟩

/-- The reply to query `k`, which has the DNS id `id`. -/
def exampleReply (k : ℕ) (id : Word16) : Label :=
  .reply k ([0, 0, 0, 1, 8, 8, 8, 8, 0, 53] ++ id.bytes) 12

/-- 10.0.0.2, with a port in network order. -/
def exampleSource (port : Word16) : BAddr := .ipv4 (bytesAt 4 [10, 0, 0, 2] 0) port

/-- Two resolvers with different ids: the replies come in the other order, and each is
delivered. -/
theorem replies_routed_two_ports : ∃ w : World,
    w.replies = [(1, exampleSource ⟨19, 138⟩), (0, exampleSource ⟨19, 137⟩)] ∧
    (∀ p ∈ w.replies, ∃ q ∈ w.queries[p.1]?, p.2 = q.source) ∧
      (w.replies.map Prod.fst).Nodup := by
  obtain ⟨w, h, hreplies⟩ := System.exists_of_runUnder (system exampleConfig)
    (Unambiguous exampleConfig)
    (fun w => w.replies = [(1, exampleSource ⟨19, 138⟩), (0, exampleSource ⟨19, 137⟩)])
    [exampleQuery ⟨19, 137⟩ ⟨208, 238⟩ ⟨0, 7⟩, exampleQuery ⟨19, 138⟩ ⟨208, 236⟩ ⟨0, 8⟩,
      exampleReply 1 ⟨0, 8⟩, exampleReply 0 ⟨0, 7⟩] (by decide +kernel)
  exact ⟨w, hreplies, replies_routed exampleConfig numeric_numericHosts h⟩

/-- The address 10.0.0.2 with port 5001 is stored and read back. -/
theorem stored_addresses_survive_port : exampleConfig.getAddrInfo.Numeric ∧
    Survives exampleConfig ⟨[10, 0, 0, 2], rfl⟩ ⟨19, 137⟩ ∧
    (bAddrPrint .little (exampleSource ⟨19, 137⟩)).chars =
      [49, 48, 46, 48, 46, 48, 46, 50, 58, 53, 48, 48, 49] :=
  ⟨numeric_numericHosts,
    (stored_addresses_survive exampleConfig numeric_numericHosts).1 _ _, by decide +kernel⟩

/-- **A reply for another resolver.** Two queries with id 7 are outstanding, from ports 5001 and
5002. The second has overwritten the first in the map, and the reply to the first is delivered
to port 5002. -/
theorem reply_misrouted : ∃ w, (system exampleConfig).Reachable w ∧
    ∃ p ∈ w.replies, ∃ q ∈ w.queries[p.1]?, p.2 ≠ q.source :=
  System.exists_of_run (system exampleConfig)
    (fun w => ∃ p ∈ w.replies, ∃ q ∈ w.queries[p.1]?, p.2 ≠ q.source)
    [exampleQuery ⟨19, 137⟩ ⟨208, 238⟩ ⟨0, 7⟩, exampleQuery ⟨19, 138⟩ ⟨208, 237⟩ ⟨0, 7⟩,
      exampleReply 0 ⟨0, 7⟩] (by decide +kernel)

end Tun2Socks.Dns
