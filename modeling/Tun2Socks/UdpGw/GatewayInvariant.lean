import Tun2Socks.Framework.Recency
import Tun2Socks.UdpGw.Gateway

/-!
# The invariant of the udpgw server

Where a connection is linked says what state it is in. A connection in the list of its client is
open (`Connection.IsOpen`), one in the list of closing connections is closing, without its UDP side
and with its packet at the output, and memory that is in neither list is not in use
(`Inv.member`, `Inv.freed`).

* `ClientInv` is what holds of the tables of one client, `Inv` of all of them together with the
  memory. `going` is the client that is being freed, if one is.
* A call that changes or makes a connection writes the connection, its client, and perhaps the
  order of uses: `State.put`. `Inv.put` says what has to be shown of such a step; the other clients
  are dealt with there.
* `Fits` is the invariant of the local ports.

The `wp_*` lemmas compute the small programs, the `*_spec` lemmas say what the functions of the
source do.
-/

namespace Tun2Socks.UdpGw.Gateway

open Framework Net Client Function

/-! ### What is written -/

/-- A connection, its client, the order of uses and the bound of the memory are written. -/
def State.put (s : State) (client : ℕ) (k : ClientState) (con : ℕ) (c : Connection)
    (uses : List ℕ) (allocated : ℕ) : State :=
  { s with
    connections := update s.connections con c
    clients := update s.clients client k
    uses
    allocated }

namespace ClientState

variable (k : ClientState) (con : ℕ)

/-- The connection is no longer linked. -/
def without : ClientState := { k with
  numConnections := k.numConnections - 1
  connectionsList := k.connectionsList.erase con
  connectionsTree := k.connectionsTree.erase con }

/-- The connection is no longer among the closing ones. -/
def withoutClosing : ClientState :=
  { k with closingConnectionsList := k.closingConnectionsList.erase con }

/-- The connection is among the closing ones. -/
def withClosing : ClientState :=
  { k with closingConnectionsList := k.closingConnectionsList ++ [con] }

/-- The flow of the connection is not at the output. -/
def offOutput : ClientState :=
  { k with sendingFlow := if k.sendingFlow = some con then none else k.sendingFlow }

/-- The connection is at the end of the list. -/
def touched : ClientState := { k with connectionsList := k.connectionsList.erase con ++ [con] }

end ClientState

namespace Connection

variable (c : Connection)

@[simp] theorem client_freedUdp : c.freedUdp.client = c.client := rfl

@[simp] theorem client_freed : c.freed.client = c.client := rfl

@[simp] theorem client_handled : c.handled.client = c.client := rfl

@[simp] theorem client_closed : c.closed.client = c.client := rfl

@[simp] theorem client_unhandled : c.unhandled.client = c.client := rfl

@[simp] theorem client_jobRun : c.jobRun.client = c.client := rfl

@[simp] theorem client_touched (time : ℤ) : (c.touched time).client = c.client := rfl

end Connection

variable {o : ByteOrder} {options : Options} {s t : State} {con client : ℕ}

section Put

variable {k k' : ClientState} {c c' : Connection} {u u' : List ℕ} {n n' : ℕ}

@[simp] theorem put_put :
    (s.put client k con c u n).put client k' con c' u' n' = s.put client k' con c' u' n' := by
  simp [State.put]

@[simp] theorem put_connections_self : (s.put client k con c u n).connections con = c := by
  simp [State.put]

theorem put_connections_of_ne {q : ℕ} (h : q ≠ con) :
    (s.put client k con c u n).connections q = s.connections q := by
  simp [State.put, h]

@[simp] theorem put_clients_self : (s.put client k con c u n).clients client = k := by
  simp [State.put]

theorem put_clients_of_ne {d : ℕ} (h : d ≠ client) :
    (s.put client k con c u n).clients d = s.clients d := by
  simp [State.put, h]

@[simp] theorem put_uses : (s.put client k con c u n).uses = u := rfl

@[simp] theorem put_allocated : (s.put client k con c u n).allocated = n := rfl

theorem setConnection_eq_put (f : Connection → Connection) :
    s.setConnection con f = s.put (s.connections con).client (s.clientOf con) con
      (f (s.connections con)) s.uses s.allocated := by
  simp [State.put, State.setConnection, State.clientOf]

theorem setClient_eq_put (con : ℕ) (f : ClientState → ClientState) :
    s.setClient (s.connections con).client f
      = s.put (s.connections con).client (f (s.clientOf con)) con (s.connections con) s.uses s.allocated := by
  simp [State.put, State.setClient, State.clientOf]

end Put

/-! ### The small programs -/

section Wp

variable {Q : Unit → State → Prop}

theorem wp_assert (p : Prop) [Decidable p] : wp (assert p) Q s ↔ p ∧ Q () s := wp_ensure p _

theorem wp_deref {Q : Connection → State → Prop} :
    wp (deref con) Q s ↔ (s.connections con).live = true ∧ Q (s.connections con) s := by
  simp [deref]

theorem wp_isBusy {Q : Bool → State → Prop} : wp (isBusy con) Q s ↔
    (s.clientOf con).freeing = false ∧ Q (decide ((s.clientOf con).sendingFlow = some con)) s := by
  simp [isBusy, assert]

theorem wp_assertFree : wp (assertFree con) Q s ↔
    ((s.clientOf con).freeing = true ∨ (s.clientOf con).sendingFlow ≠ some con) ∧ Q () s := by
  simp [assertFree, assert]

theorem wp_setBusyHandler : wp (setBusyHandler con) Q s ↔
    (s.clientOf con).sendingFlow = some con ∧ (s.clientOf con).freeing = false ∧
    Q () (s.put (s.connections con).client (s.clientOf con) con (s.connections con).handled
      s.uses s.allocated) := by
  simp only [setBusyHandler, wp_bind, wp_get, wp_assert, wp_modify, setConnection_eq_put]

theorem wp_flowFree : wp (flowFree con) Q s ↔
    ((s.clientOf con).freeing = true ∨ (s.clientOf con).sendingFlow ≠ some con) ∧
    Q () (s.put (s.connections con).client ((s.clientOf con).offOutput con) con
      (s.connections con) s.uses s.allocated) := by
  simp only [flowFree, wp_bind, wp_assertFree, wp_modify, setClient_eq_put]
  rfl

theorem wp_unlink : wp (unlink con) Q s ↔ con ∈ (s.clientOf con).connectionsList ∧
    con ∈ (s.clientOf con).connectionsTree ∧
    Q () (s.put (s.connections con).client ((s.clientOf con).without con) con (s.connections con)
      s.uses s.allocated) := by
  simp only [unlink, wp_bind, wp_get, wp_ensure, wp_modify, setClient_eq_put]
  rfl

theorem wp_unlinkClosing : wp (unlinkClosing con) Q s ↔
    con ∈ (s.clientOf con).closingConnectionsList ∧
    Q () (s.put (s.connections con).client ((s.clientOf con).withoutClosing con) con
      (s.connections con) s.uses s.allocated) := by
  simp only [unlinkClosing, wp_bind, wp_get, wp_ensure, wp_modify, setClient_eq_put]
  rfl

theorem wp_linkClosing : wp (linkClosing con) Q s ↔
    Q () (s.put (s.connections con).client ((s.clientOf con).withClosing con) con
      (s.connections con) s.uses s.allocated) := by
  simp only [linkClosing, wp_modify, setClient_eq_put]
  rfl

theorem wp_connectionFreeUdp : wp (connectionFreeUdp con) Q s ↔
    (s.connections con).udp = true ∧ Q () (s.put (s.connections con).client (s.clientOf con) con
      (s.connections con).freedUdp s.uses s.allocated) := by
  simp only [connectionFreeUdp, wp_bind, wp_get, wp_ensure, wp_modify, setConnection_eq_put]

theorem wp_touch {time : ℤ} : wp (touch con time) Q s ↔
    con ∈ (s.clientOf con).connectionsList ∧
    Q () (s.put (s.connections con).client ((s.clientOf con).touched con) con
      ((s.connections con).touched time) (s.uses ++ [con]) s.allocated) := by
  have hof : (s.setConnection con (Connection.touched time)).clientOf con = s.clientOf con := by
    simp [State.clientOf, State.setConnection]
  have hput : { (s.setConnection con (Connection.touched time)).setClient
      ((s.setConnection con (Connection.touched time)).connections con).client
        (fun k => k.touched con) with uses := s.uses ++ [con] }
      = s.put (s.connections con).client ((s.clientOf con).touched con) con
        ((s.connections con).touched time) (s.uses ++ [con]) s.allocated := by
    simp [State.clientOf, State.setConnection, State.setClient, State.put]
  simp only [touch, wp_bind, wp_modify, wp_get, wp_ensure]
  rw [hof, ← hput]
  rfl

theorem wp_useUdp : wp (useUdp con) Q s ↔ (s.connections con).udp = true ∧
    Q () (s.put (s.connections con).client (s.clientOf con) con (s.connections con).usedUdp
      s.uses s.allocated) := by
  simp only [useUdp, wp_bind, wp_get, wp_ensure, wp_modify, setConnection_eq_put]

/-- `connection_free`, for a connection that is not closing. -/
theorem wp_connectionFree_open (hclosing : (s.connections con).closing = false) :
    wp (connectionFree con) Q s ↔ (s.connections con).live = true ∧
      ((s.clientOf con).freeing = true ∨ (s.clientOf con).sendingFlow ≠ some con) ∧
      con ∈ (s.clientOf con).connectionsList ∧ con ∈ (s.clientOf con).connectionsTree ∧
      (s.connections con).udp = true ∧
      Q () (s.put (s.connections con).client (((s.clientOf con).without con).offOutput con) con
        (s.connections con).freedUdp.freed s.uses s.allocated) := by
  simp only [connectionFree, wp_bind, wp_deref, wp_assertFree, hclosing, wp_unlink,
    wp_connectionFreeUdp, wp_flowFree, wp_modify, setConnection_eq_put, Bool.false_eq_true,
    if_false]
  simp only [State.clientOf, put_put, put_connections_self, put_clients_self, put_uses, put_allocated,
    Connection.client_freedUdp]
  refine and_congr_right fun _ => and_congr_right fun hfree => and_congr_right fun _ =>
    and_congr_right fun _ => and_congr_right fun _ => ?_
  exact and_iff_right hfree

/-- `connection_free`, for a connection that is closing. -/
theorem wp_connectionFree_closing (hclosing : (s.connections con).closing = true) :
    wp (connectionFree con) Q s ↔ (s.connections con).live = true ∧
      ((s.clientOf con).freeing = true ∨ (s.clientOf con).sendingFlow ≠ some con) ∧
      con ∈ (s.clientOf con).closingConnectionsList ∧
      Q () (s.put (s.connections con).client (((s.clientOf con).withoutClosing con).offOutput con)
        con (s.connections con).freed s.uses s.allocated) := by
  simp only [connectionFree, wp_bind, wp_deref, wp_assertFree, hclosing, wp_unlinkClosing,
    wp_flowFree, wp_modify, setConnection_eq_put, if_true]
  simp only [State.clientOf, put_put, put_connections_self, put_clients_self, put_uses, put_allocated]
  refine and_congr_right fun _ => and_congr_right fun hfree => and_congr_right fun _ => ?_
  exact and_iff_right hfree

end Wp

/-! ### The invariant -/

/-- A connection that is linked. -/
structure Connection.IsOpen (client : ℕ) (c : Connection) : Prop where
  live : c.live = true
  client : c.client = client
  closing : c.closing = false
  udp : c.udp = true
  handlerBusy : c.handlerBusy = false
  udpFrees : c.udpFrees = 0
  frees : c.frees = 0

/-- A connection that waits for its packet. -/
structure Connection.IsClosing (client : ℕ) (c : Connection) : Prop where
  live : c.live = true
  client : c.client = client
  closing : c.closing = true
  udp : c.udp = false
  firstJob : c.firstJob = false
  handlerBusy : c.handlerBusy = true
  udpFrees : c.udpFrees = 1
  frees : c.frees = 0

/-- A connection that is gone. -/
structure Connection.IsFreed (c : Connection) : Prop where
  live : c.live = false
  udp : c.udp = false
  firstJob : c.firstJob = false
  udpFrees : c.udpFrees = 1
  frees : c.frees = 1

theorem Connection.IsOpen.freed {c : Connection} (h : c.IsOpen client) :
    c.freedUdp.freed.IsFreed where
  live := rfl
  udp := rfl
  firstJob := rfl
  udpFrees := congrArg (· + 1) h.udpFrees
  frees := congrArg (· + 1) h.frees

theorem Connection.IsClosing.freed {c : Connection} (h : c.IsClosing client) :
    c.freed.IsFreed where
  live := rfl
  udp := h.udp
  firstJob := rfl
  udpFrees := h.udpFrees
  frees := congrArg (· + 1) h.frees

theorem Connection.IsOpen.closed {c : Connection} (h : c.IsOpen client) :
    c.freedUdp.handled.closed.IsClosing client where
  live := h.live
  client := h.client
  closing := rfl
  udp := rfl
  firstJob := rfl
  handlerBusy := rfl
  udpFrees := congrArg (· + 1) h.udpFrees
  frees := h.frees

/-- The connection is linked with the client, in one of the two lists. -/
def ClientState.Has (k : ClientState) (con : ℕ) : Prop :=
  con ∈ k.connectionsList ∨ con ∈ k.closingConnectionsList

/-- The list, the tree and the number of a client. -/
structure Listed (o : ByteOrder) (options : Options) (client : ℕ) (k : ClientState)
    (connections : ℕ → Connection) (uses : List ℕ) : Prop where
  tree : ∀ p, p ∈ k.connectionsTree ↔ p ∈ k.connectionsList
  ordered : InOrder.Ordered (uint16Comparator o) (fun p => (connections p).conid) k.connectionsTree
  nodup : k.connectionsList.Nodup
  num : k.numConnections = k.connectionsList.length
  num_le : k.connectionsList.length ≤ options.maxConnectionsForClient
  recent : k.connectionsList.Sublist uses.dedup
  opened : ∀ p ∈ k.connectionsList, (connections p).IsOpen client

/-- The closing connections of a client, and its output. -/
structure Closings (client : ℕ) (k : ClientState) (connections : ℕ → Connection) : Prop where
  closing : ∀ p ∈ k.closingConnectionsList,
    (connections p).IsClosing client ∧ k.sendingFlow = some p
  nodup : k.closingConnectionsList.Nodup
  sending : ∀ p ∈ k.sendingFlow, k.Has p

/-- What holds of one client. -/
structure ClientInv (o : ByteOrder) (options : Options) (client : ℕ) (k : ClientState)
    (connections : ℕ → Connection) (uses : List ℕ) : Prop where
  listed : Listed o options client k connections uses
  closings : Closings client k connections

/-- The port of a connection is one of those configured, or none. -/
def IndexOk (options : Options) (c : Connection) : Prop :=
  c.localPortIndex = -1 ∨
    (0 ≤ c.localPortIndex ∧ c.localPortIndex < getLocalNumPorts options c.addr)

/-- The address and the port a connection can have beside the others. -/
structure Fits (options : Options) (s : State) (con : ℕ) (c : Connection) : Prop where
  addr : c.addr ≠ .none
  index : IndexOk options c
  exclusive : ∀ q ≠ con, (s.connections q).udp = true → 0 ≤ c.localPortIndex →
    sameRemote options c.addr (s.connections q).addr = true →
    c.localPortIndex ≠ (s.connections q).localPortIndex

/-- What holds between two calls, and while the client `going` is freed. -/
structure Inv (o : ByteOrder) (options : Options) (going : Option ℕ) (s : State) : Prop where
  clients : ∀ d ∈ s.clientsList, ClientInv o options d (s.clients d) s.connections s.uses
  freeing : ∀ d ∈ s.clientsList, (s.clients d).freeing = true ↔ going = some d
  nodup : s.clientsList.Nodup
  below : ∀ d ∈ s.clientsList, d < s.nextClient
  member : ∀ p, (s.connections p).live = true →
    (s.connections p).client ∈ s.clientsList ∧ (s.clientOf p).Has p
  fresh : ∀ p, s.allocated ≤ p → s.connections p = Connection.blank
  freed : ∀ p < s.allocated, (s.connections p).live = false → (s.connections p).IsFreed
  fits : ∀ p, (s.connections p).udp = true → Fits options s p (s.connections p)

theorem Inv.initial : Inv o options none initial where
  clients := nofun
  freeing := nofun
  nodup := List.nodup_nil
  below := nofun
  member := nofun
  fresh _ _ := rfl
  freed := nofun
  fits := nofun

section Steps

variable {going : Option ℕ} {k : ClientState} {c : Connection} {u : List ℕ}
  {connections connections' : ℕ → Connection}

section

variable (h : ClientInv o options client k connections u)

include h

/-- What is linked with a client is alive and belongs to it. -/
theorem ClientInv.owns (hhas : k.Has con) :
    (connections con).live = true ∧ (connections con).client = client := by
  rcases hhas with hmem | hmem
  · have hopen := h.listed.opened con hmem
    exact ⟨hopen.live, hopen.client⟩
  · have hclosing := (h.closings.closing con hmem).1
    exact ⟨hclosing.live, hclosing.client⟩

/-- An open connection is not closing. -/
theorem ClientInv.not_closing (hmem : con ∈ k.connectionsList) : con ∉ k.closingConnectionsList := by
  intro hclosing
  have hopen := (h.listed.opened con hmem).closing
  rw [(h.closings.closing con hclosing).1.closing] at hopen
  cases hopen

/-- While the packet of an open connection is at the output, or none is, no connection is
closing. -/
theorem ClientInv.closing_eq_nil (hopen : ∀ p ∈ k.sendingFlow, p ∈ k.connectionsList) : k.closingConnectionsList = [] := by
  refine List.eq_nil_iff_forall_not_mem.mpr fun p hp => ?_
  exact h.not_closing (hopen p (h.closings.closing p hp).2) hp

/-- A client whose tables and connections are not written keeps its invariant. -/
theorem ClientInv.congr {u' : List ℕ} (hconnections : ∀ p, k.Has p → connections' p = connections p)
    (hrecent : k.connectionsList.Sublist u'.dedup) :
    ClientInv o options client k connections' u' where
  listed := { h.listed with
    ordered := h.listed.ordered.congr fun p hp => by
      rw [hconnections p (.inl ((h.listed.tree p).mp hp))]
    recent := hrecent
    opened := fun p hp => by
      rw [hconnections p (.inl hp)]
      exact h.listed.opened p hp }
  closings := { h.closings with
    closing := fun p hp => by
      rw [hconnections p (.inr hp)]
      exact h.closings.closing p hp }

end

/-- What is in use, or was, is not new. -/
theorem Inv.lt_allocated (h : Inv o options going s) (hlive : (s.connections con).live = true) :
    con < s.allocated := by
  by_contra hnot
  rw [h.fresh con (Nat.le_of_not_lt hnot)] at hlive
  cases hlive

/-! ### Writing a connection and its client -/

/-- Two addresses that must not share a port with a third must not share one with each other. -/
theorem sameRemote_of_sameRemote {addr addr' addr'' : BAddr}
    (h : sameRemote options addr addr'' = true) (h' : sameRemote options addr' addr'' = true) :
    sameRemote options addr addr' = true := by
  unfold sameRemote bipAddrCompare bAddrCompare at *
  split_ifs at *
  all_goals
    simp only [ne_eq, Bool.decide_and, Bool.and_eq_true, decide_eq_true_eq] at *
    exact ⟨h.1, h.2.trans h'.2.symm⟩

theorem sameRemote_comm {addr addr' : BAddr} (h : sameRemote options addr addr' = true) :
    sameRemote options addr' addr = true := by
  unfold sameRemote bipAddrCompare bAddrCompare at *
  split_ifs at *
  all_goals
    simp only [ne_eq, Bool.decide_and, Bool.and_eq_true, decide_eq_true_eq] at *
    exact ⟨h.2 ▸ h.1, h.2.symm⟩

/-- **The step rule.** What has to be shown of a call that writes a connection of a client, or makes
one: that it is no connection of another client; the invariant of this client; that the other
connections stay linked; that the connection is linked as long as it lives; and that its port is
free, as long as it has a UDP side. -/
theorem Inv.put {n : ℕ} (h : Inv o options going s) (hclient : client ∈ s.clientsList)
    (hmemory : con < s.allocated ∧ n = s.allocated ∨ con = s.allocated ∧ n = s.allocated + 1)
    (halone : ∀ d ∈ s.clientsList, (s.clients d).Has con → d = client)
    (huses : u = s.uses ∨ u = s.uses ++ [con])
    (hinv : ClientInv o options client k (update s.connections con c) u)
    (hfreeing : k.freeing = (s.clients client).freeing)
    (hothers : ∀ q ≠ con, (s.clients client).Has q → k.Has q)
    (hlive : c.live = true → c.client = client ∧ k.Has con) (hdead : c.live = false → c.IsFreed)
    (hudp : c.udp = true → Fits options s con c) :
    Inv o options going (s.put client k con c u n) where
  clients := by
    intro d hd
    obtain rfl | hne := eq_or_ne d client
    · rw [put_clients_self]
      exact hinv
    · have hold := h.clients d hd
      have hnot : ¬ (s.clients d).Has con := fun hhas => hne (halone d hd hhas)
      rw [put_clients_of_ne hne]
      refine hold.congr (fun p hp => put_connections_of_ne ?_) ?_
      · rintro rfl
        exact hnot hp
      · obtain rfl | rfl := huses
        · exact hold.listed.recent
        · exact Recency.sublist_use_of_not_mem hold.listed.recent fun hmem => hnot (.inl hmem)
  freeing := by
    intro d hd
    obtain rfl | hne := eq_or_ne d client
    · rw [put_clients_self, hfreeing]
      exact h.freeing d hd
    · rw [put_clients_of_ne hne]
      exact h.freeing d hd
  nodup := h.nodup
  below := h.below
  member := by
    intro p hp
    obtain rfl | hne := eq_or_ne p con
    · rw [put_connections_self] at hp
      obtain ⟨hc, hk⟩ := hlive hp
      rw [State.clientOf, put_connections_self, hc, put_clients_self]
      exact ⟨hclient, hk⟩
    · rw [put_connections_of_ne hne] at hp
      obtain ⟨hd, hlink⟩ := h.member p hp
      rw [State.clientOf, put_connections_of_ne hne]
      refine ⟨hd, ?_⟩
      obtain heq | hne' := eq_or_ne (s.connections p).client client
      · rw [State.clientOf, heq] at hlink
        rw [heq, put_clients_self]
        exact hothers p hne hlink
      · rw [put_clients_of_ne hne']
        exact hlink
  fresh := by
    intro p hp
    rw [put_allocated] at hp
    rw [put_connections_of_ne (by omega)]
    exact h.fresh p (by omega)
  freed := by
    intro p hp hoff
    obtain rfl | hne := eq_or_ne p con
    · rw [put_connections_self] at hoff ⊢
      exact hdead hoff
    · rw [put_connections_of_ne hne] at hoff ⊢
      rw [put_allocated] at hp
      exact h.freed p (by omega) hoff
  fits := by
    intro p hp
    obtain rfl | hne := eq_or_ne p con
    · rw [put_connections_self] at hp ⊢
      have hfits := hudp hp
      refine ⟨hfits.addr, hfits.index, fun q hq => ?_⟩
      rw [put_connections_of_ne hq]
      exact hfits.exclusive q hq
    · rw [put_connections_of_ne hne] at hp ⊢
      have hfits := h.fits p hp
      refine ⟨hfits.addr, hfits.index, fun q hq hon hnonneg hsame => ?_⟩
      obtain rfl | hne' := eq_or_ne q con
      · rw [put_connections_self] at hon hsame ⊢
        intro heq
        exact (hudp hon).exclusive p hne hp (heq ▸ hnonneg) (sameRemote_comm hsame) heq.symm
      · rw [put_connections_of_ne hne'] at hon hsame ⊢
        exact hfits.exclusive q hq hon hnonneg hsame

/-- The rule for a connection that is linked. -/
theorem Inv.putLinked (h : Inv o options going s) (hclient : client ∈ s.clientsList)
    (hhas : (s.clients client).Has con) (huses : u = s.uses ∨ u = s.uses ++ [con])
    (hinv : ClientInv o options client k (update s.connections con c) u)
    (hfreeing : k.freeing = (s.clients client).freeing)
    (hothers : ∀ q ≠ con, (s.clients client).Has q → k.Has q)
    (hlive : c.live = true → c.client = client ∧ k.Has con) (hdead : c.live = false → c.IsFreed)
    (hudp : c.udp = true → Fits options s con c) :
    Inv o options going (s.put client k con c u s.allocated) := by
  obtain ⟨halive, hown⟩ := (h.clients client hclient).owns hhas
  refine h.put hclient (.inl ⟨h.lt_allocated halive, rfl⟩) (fun d hd hhas' => ?_) huses hinv
    hfreeing hothers hlive hdead hudp
  exact ((h.clients d hd).owns hhas').2.symm.trans hown

/-! ### Freeing and closing -/

/-- The order of the tree, whose keys are not written. -/
theorem ordered_update {tree : List ℕ}
    (h : InOrder.Ordered (uint16Comparator o) (fun p => (connections p).conid) tree)
    (hconid : c.conid = (connections con).conid) :
    InOrder.Ordered (uint16Comparator o) (fun p => (update connections con c p).conid)
      tree := by
  refine h.congr fun p _ => ?_
  obtain rfl | hne := eq_or_ne p con
  · rw [update_self, hconid]
  · rw [update_of_ne hne]

/-- A connection is taken out of the list and the tree. -/
theorem Listed.without (h : Listed o options client k connections u)
    (hcon : con ∈ k.connectionsList) (hconid : c.conid = (connections con).conid) :
    Listed o options client (k.without con) (update connections con c) u where
  tree p := by
    change p ∈ k.connectionsTree.erase con ↔ p ∈ k.connectionsList.erase con
    rw [h.nodup.mem_erase_iff, h.ordered.nodup.mem_erase_iff, h.tree]
  ordered := (ordered_update h.ordered hconid).erase con
  nodup := h.nodup.erase con
  num := by
    have hpos := List.length_pos_of_mem hcon
    change k.numConnections - 1 = ((k.connectionsList.erase con).length : ℤ)
    rw [h.num, List.length_erase_of_mem hcon]
    omega
  num_le := List.length_erase_le.trans h.num_le
  recent := List.erase_sublist.trans h.recent
  opened p hp := by
    obtain ⟨hne, hmem⟩ := h.nodup.mem_erase_iff.mp hp
    rw [update_of_ne hne]
    exact h.opened p hmem

/-- The list and the tree are not written. -/
theorem Listed.keep (h : Listed o options client k connections u)
    (hconid : c.conid = (connections con).conid)
    (hopen : con ∈ k.connectionsList → c.IsOpen client) :
    Listed o options client k (update connections con c) u := { h with
  ordered := ordered_update h.ordered hconid
  opened := by
    intro p hp
    obtain rfl | hne := eq_or_ne p con
    · rw [update_self]
      exact hopen hp
    · rw [update_of_ne hne]
      exact h.opened p hp }

theorem has_without {q : ℕ} (hne : q ≠ con) (h : k.Has q) : (k.without con).Has q :=
  h.imp_left (List.mem_erase_of_ne hne).mpr

/-- What is at the output once a flow is not. -/
theorem offOutput_eq_some {q : ℕ} :
    (k.offOutput con).sendingFlow = some q ↔ k.sendingFlow = some q ∧ q ≠ con := by
  rw [ClientState.offOutput]
  dsimp only
  split_ifs with hcon
  · refine iff_of_false nofun ?_
    rintro ⟨hq, hne⟩
    exact hne (Option.some_inj.mp (hq.symm.trans hcon))
  · refine ⟨fun hq => ⟨hq, ?_⟩, And.left⟩
    rintro rfl
    exact hcon hq

/-- **An open connection is freed.** -/
theorem Inv.freeOpen (h : Inv o options going s) (hclient : client ∈ s.clientsList)
    (hcon : con ∈ (s.clients client).connectionsList) :
    Inv o options going (s.put client (((s.clients client).without con).offOutput con) con
      (s.connections con).freedUdp.freed s.uses s.allocated) := by
  have hold := h.clients client hclient
  refine h.putLinked hclient (.inl hcon) (.inl rfl) ⟨?_, ?_⟩ rfl (fun q hne => has_without hne)
    nofun (fun _ => (hold.listed.opened con hcon).freed) nofun
  · exact { hold.listed.without (c := (s.connections con).freedUdp.freed) hcon rfl with }
  · refine ⟨fun p hp => ?_, hold.closings.nodup, fun p hp => ?_⟩
    · have hne : p ≠ con := by
        rintro rfl
        exact hold.not_closing hcon hp
      obtain ⟨hclosing, hsending⟩ := hold.closings.closing p hp
      rw [update_of_ne hne]
      exact ⟨hclosing, offOutput_eq_some.mpr ⟨hsending, hne⟩⟩
    · obtain ⟨hsending, hne⟩ := offOutput_eq_some.mp hp
      exact has_without hne (hold.closings.sending p hsending)

/-- **A closing connection is freed.** -/
theorem Inv.freeClosing (h : Inv o options going s) (hclient : client ∈ s.clientsList)
    (hcon : con ∈ (s.clients client).closingConnectionsList)
    (hconid : c.conid = (s.connections con).conid) (hfreed : c.IsFreed) :
    Inv o options going (s.put client (((s.clients client).withoutClosing con).offOutput con) con c
      s.uses s.allocated) := by
  have hold := h.clients client hclient
  have hothers : ∀ q ≠ con, (s.clients client).Has q →
      (((s.clients client).withoutClosing con).offOutput con).Has q :=
    fun q hq hhas => hhas.imp_right (List.mem_erase_of_ne hq).mpr
  refine h.putLinked hclient (.inr hcon) (.inl rfl) ⟨?_, ?_⟩ rfl hothers ?_ (fun _ => hfreed) ?_
  · exact { hold.listed.keep hconid fun hmem => absurd hcon (hold.not_closing hmem) with }
  · refine ⟨fun p hp => ?_, hold.closings.nodup.erase con, fun p hp => ?_⟩
    · -- it was the only one, because it was at the output
      obtain ⟨hne, hmem⟩ := hold.closings.nodup.mem_erase_iff.mp hp
      have heq := (hold.closings.closing p hmem).2.symm.trans (hold.closings.closing con hcon).2
      exact absurd (Option.some_inj.mp heq) hne
    · obtain ⟨hflow, hne⟩ := offOutput_eq_some.mp hp
      exact hothers p hne (hold.closings.sending p hflow)
  · intro hlive
    cases hfreed.live.symm.trans hlive
  · intro hudp
    cases hfreed.udp.symm.trans hudp

/-- **An open connection is closed while its packet is at the output.** -/
theorem Inv.close (h : Inv o options going s) (hclient : client ∈ s.clientsList)
    (hcon : con ∈ (s.clients client).connectionsList)
    (hbusy : (s.clients client).sendingFlow = some con) :
    Inv o options going (s.put client (((s.clients client).without con).withClosing con) con
      (s.connections con).freedUdp.handled.closed s.uses s.allocated) := by
  have hold := h.clients client hclient
  have hopen := hold.listed.opened con hcon
  have hnone := hold.closing_eq_nil fun p hp => Option.some_inj.mp (hbusy.symm.trans hp) ▸ hcon
  have hclosing : (((s.clients client).without con).withClosing con).closingConnectionsList
      = [con] := by
    rw [ClientState.withClosing, ClientState.without, hnone]
    rfl
  have hhas : (((s.clients client).without con).withClosing con).Has con :=
    .inr (hclosing ▸ List.mem_singleton_self con)
  refine h.putLinked hclient (.inl hcon) (.inl rfl) ⟨?_, ?_⟩ rfl
    (fun q hne hq => (has_without hne hq).imp_right (List.mem_append_left _))
    (fun _ => ⟨hopen.client, hhas⟩) ?_ nofun
  · exact { hold.listed.without (c := (s.connections con).freedUdp.handled.closed) hcon rfl with }
  · refine ⟨fun p hp => ?_, ?_, fun p hp => ?_⟩
    · rw [hclosing, List.mem_singleton] at hp
      subst hp
      rw [update_self]
      exact ⟨hopen.closed, hbusy⟩
    · rw [hclosing]
      exact List.nodup_singleton con
    · obtain rfl := Option.some_inj.mp (hbusy.symm.trans hp)
      exact hhas
  · intro hdead
    cases hopen.live.symm.trans hdead

/-! ### Using -/

/-- **An open connection is used**: it goes to the end of the list, and stays open. -/
theorem Inv.touch (h : Inv o options going s) (hclient : client ∈ s.clientsList)
    (hcon : con ∈ (s.clients client).connectionsList) (hopen : c.IsOpen client)
    (hconid : c.conid = (s.connections con).conid) (hfits : Fits options s con c) :
    Inv o options going (s.put client ((s.clients client).touched con) con c (s.uses ++ [con])
      s.allocated) := by
  have hold := h.clients client hclient
  have hkept := hold.listed.keep hconid fun _ => hopen
  have hperm : ((s.clients client).connectionsList.erase con ++ [con]).Perm
      (s.clients client).connectionsList :=
    (List.perm_append_singleton con _).trans (List.perm_cons_erase hcon).symm
  have hhas : ∀ q, ((s.clients client).touched con).Has q ↔ (s.clients client).Has q :=
    fun q => or_congr_left hperm.mem_iff
  refine h.putLinked hclient (.inl hcon) (.inr rfl) ⟨?_, ?_⟩ rfl
    (fun q _ hq => (hhas q).mpr hq) (fun _ => ⟨hopen.client, (hhas con).mpr (.inl hcon)⟩) ?_
    (fun _ => hfits)
  · exact {
      tree := fun p => (hkept.tree p).trans hperm.mem_iff.symm
      ordered := hkept.ordered
      nodup := hperm.nodup_iff.mpr hkept.nodup
      num := hkept.num.trans (congrArg Nat.cast hperm.length_eq.symm)
      num_le := hperm.length_eq.trans_le hkept.num_le
      recent := Recency.sublist_use hkept.recent con
      opened := fun p hp => hkept.opened p (hperm.mem_iff.mp hp) }
  · refine ⟨fun p hp => ?_, hold.closings.nodup, fun p hp => ?_⟩
    · have hne : p ≠ con := by
        rintro rfl
        exact hold.not_closing hcon hp
      rw [update_of_ne hne]
      exact hold.closings.closing p hp
    · exact (hhas p).mpr (hold.closings.sending p hp)
  · intro hdead
    cases hopen.live.symm.trans hdead

/-- A packet of an open connection comes to the output, or leaves it, while none is closing. -/
theorem Inv.setOutput (h : Inv o options going s) (hclient : client ∈ s.clientsList)
    (hcon : con ∈ (s.clients client).connectionsList)
    (hclosing : (s.clients client).closingConnectionsList = []) {flow : Option ℕ}
    (hflow : ∀ p ∈ flow, p = con) :
    Inv o options going (s.put client { s.clients client with sendingFlow := flow } con
      (s.connections con) s.uses s.allocated) := by
  have hold := h.clients client hclient
  have hopen := hold.listed.opened con hcon
  refine h.putLinked hclient (.inl hcon) (.inl rfl) ⟨?_, ?_⟩ rfl (fun _ _ hq => hq)
    (fun _ => ⟨hopen.client, .inl hcon⟩) ?_ (h.fits con)
  · exact { hold.listed.keep rfl fun _ => hopen with }
  · refine ⟨fun p hp => ?_, hold.closings.nodup, fun p hp => hflow p hp ▸ .inl hcon⟩
    rw [show _ = [] from hclosing] at hp
    cases hp
  · intro hdead
    cases hopen.live.symm.trans hdead

end Steps

end Tun2Socks.UdpGw.Gateway
