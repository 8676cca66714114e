import Tun2Socks.UdpGw.GatewayInvariant

/-!
# What the functions of the udpgw server do

Every function keeps the invariant and runs without a fault. What else a caller needs to know of it
is small:

* `Closes s t client con` — the connection has left the list of its client, and nothing else has
  changed; whether it was freed or is closing does not matter to anyone but the connection.
* `Keeps s t` — the connections that are closing are as they were. This is what every function but
  `connection_free` does to them.
* `connectionInit_spec` has the argument for the local ports. A port that is not in use is not the
  port of a connection to the same address; the port of a connection that was closed for it was
  the port of this connection only.
-/

namespace Tun2Socks.UdpGw.Gateway

open Framework Net Client Function

variable {o : ByteOrder} {options : Options} {s t u : State} {con client : ℕ} {going : Option ℕ}

/-! ### Freeing -/

/-- The client of a connection that is linked. -/
theorem Inv.clientOf_eq (h : Inv o options going s) (hclient : client ∈ s.clientsList)
    (hhas : (s.clients client).Has con) : s.clientOf con = s.clients client := by
  rw [State.clientOf, ((h.clients client hclient).owns hhas).2]

theorem Inv.calm (h : Inv o options none s) (hclient : client ∈ s.clientsList) :
    (s.clients client).freeing = false := by
  rw [← Bool.not_eq_true, h.freeing client hclient]
  nofun

/-- The flow of a connection may be freed. -/
theorem Inv.assertFree (h : Inv o options going s) (hclient : client ∈ s.clientsList)
    (hfree : going = some client ∨ (s.clients client).sendingFlow ≠ some con) :
    (s.clients client).freeing = true ∨ (s.clients client).sendingFlow ≠ some con :=
  hfree.imp_left (h.freeing client hclient).mpr

theorem connectionFree_open (h : Inv o options going s) (hclient : client ∈ s.clientsList)
    (hcon : con ∈ (s.clients client).connectionsList)
    (hfree : going = some client ∨ (s.clients client).sendingFlow ≠ some con) :
    wp (connectionFree con) (fun _ t =>
      t = s.put client (((s.clients client).without con).offOutput con) con
        (s.connections con).freedUdp.freed s.uses s.allocated) s := by
  have hlisted := (h.clients client hclient).listed
  have hopen := hlisted.opened con hcon
  rw [wp_connectionFree_open hopen.closing, h.clientOf_eq hclient (.inl hcon), hopen.client]
  exact ⟨hopen.live, h.assertFree hclient hfree, hcon, (hlisted.tree con).mpr hcon, hopen.udp,
    rfl⟩

theorem connectionFree_closing (h : Inv o options going s) (hclient : client ∈ s.clientsList)
    (hcon : con ∈ (s.clients client).closingConnectionsList) (hgoing : going = some client) :
    wp (connectionFree con) (fun _ t =>
      t = s.put client (((s.clients client).withoutClosing con).offOutput con) con
        (s.connections con).freed s.uses s.allocated) s := by
  obtain ⟨hclosing, -⟩ := (h.clients client hclient).closings.closing con hcon
  rw [wp_connectionFree_closing hclosing.closing, h.clientOf_eq hclient (.inr hcon),
    hclosing.client]
  exact ⟨hclosing.live, h.assertFree hclient (.inl hgoing), hcon, rfl⟩

/-! ### Closing -/

/-- The closing connections are as they were. -/
def Keeps (s t : State) : Prop :=
  ∀ p, (s.connections p).live = true → (s.connections p).closing = true →
    t.connections p = s.connections p

theorem Keeps.refl (s : State) : Keeps s s := fun _ _ _ => rfl

theorem Keeps.trans (h : Keeps s t) (h' : Keeps t u) : Keeps s u := by
  intro p hlive hclosing
  have heq := h p hlive hclosing
  rw [← heq] at hlive hclosing ⊢
  exact h' p hlive hclosing

variable {c : Connection} {k : ClientState} {l : List ℕ} {n : ℕ}

/-- What is written to a connection that is not closing. -/
theorem keeps_put (h : (s.connections con).closing = false) : Keeps s (s.put client k con c l n) := by
  intro p _ hclosing
  refine put_connections_of_ne ?_
  rintro rfl
  cases h.symm.trans hclosing

/-- The connection has left the list of its client. -/
structure Closes (s t : State) (client con : ℕ) : Prop where
  clientsList : t.clientsList = s.clientsList
  connections : ∀ q ≠ con, t.connections q = s.connections q
  conid : (t.connections con).conid = (s.connections con).conid
  udp : (t.connections con).udp = false
  others : ∀ d ≠ client, t.clients d = s.clients d
  list : (t.clients client).connectionsList = (s.clients client).connectionsList.erase con
  keeps : Keeps s t

theorem closes_put (hclosing : (s.connections con).closing = false)
    (hconid : c.conid = (s.connections con).conid) (hudp : c.udp = false)
    (hlist : k.connectionsList = (s.clients client).connectionsList.erase con) :
    Closes s (s.put client k con c l n) client con where
  clientsList := rfl
  connections _ hne := put_connections_of_ne hne
  conid := by rw [put_connections_self, hconid]
  udp := by rw [put_connections_self, hudp]
  others _ hne := put_clients_of_ne hne
  list := by rw [put_clients_self, hlist]
  keeps := keeps_put hclosing

/-- **`connection_close`**: the connection leaves the list, whether it is freed at once or not. -/
theorem connectionClose_spec (h : Inv o options none s) (hclient : client ∈ s.clientsList)
    (hcon : con ∈ (s.clients client).connectionsList) :
    wp (connectionClose con) (fun _ t => Inv o options none t ∧ Closes s t client con) s := by
  have hlisted := (h.clients client hclient).listed
  have hopen := hlisted.opened con hcon
  have hof := h.clientOf_eq hclient (.inl hcon)
  have hcalm := h.calm hclient
  simp only [connectionClose, wp_bind, wp_deref, wp_assert, wp_isBusy, hof]
  refine ⟨hopen.live, hopen.closing, hcalm, ?_⟩
  by_cases hbusy : (s.clients client).sendingFlow = some con
  · rw [decide_eq_true hbusy, if_pos rfl]
    simp only [wp_bind, wp_unlink, wp_connectionFreeUdp, wp_linkClosing, wp_modify,
      wp_setBusyHandler, setConnection_eq_put, hof, hopen.client]
    refine ⟨hcon, (hlisted.tree con).mpr hcon, ?_⟩
    simp only [State.clientOf, put_put, put_connections_self, put_clients_self, put_uses,
      put_allocated, hopen.client, Connection.client_freedUdp, Connection.client_handled]
    refine ⟨hopen.udp, hbusy, hcalm, h.close hclient hcon hbusy, ?_⟩
    exact closes_put hopen.closing rfl rfl rfl
  · rw [decide_eq_false hbusy, if_neg Bool.false_ne_true]
    refine wp_mono (connectionFree_open h hclient hcon (.inr hbusy)) ?_
    rintro _ _ rfl
    exact ⟨h.freeOpen hclient hcon, closes_put hopen.closing rfl rfl rfl⟩

/-! ### The output -/

/-- A connection that is alive is linked with a client. -/
theorem Inv.linked (h : Inv o options going s) (hlive : (s.connections con).live = true) :
    ∃ client ∈ s.clientsList, (s.connections con).client = client ∧
      (s.clients client).Has con := by
  obtain ⟨hclient, hhas⟩ := h.member con hlive
  exact ⟨_, hclient, rfl, hhas⟩

/-- `sending_flow` is set. -/
theorem schedule_spec (h : Inv o options going s) (hlive : (s.connections con).live = true)
    (hidle : (s.clientOf con).sendingFlow = none) :
    Inv o options going (s.setClient (s.connections con).client fun k => { k with
      sendingFlow := some con }) ∧
    Keeps s (s.setClient (s.connections con).client fun k => { k with sendingFlow := some con }) := by
  obtain ⟨client, hclient, heq, hhas⟩ := h.linked hlive
  rw [setClient_eq_put con, State.clientOf, heq]
  rw [State.clientOf, heq] at hidle
  have hold := h.clients client hclient
  have hnone := hold.closing_eq_nil fun p hp => absurd (hidle.symm.trans hp) (by simp)
  have hcon : con ∈ (s.clients client).connectionsList := by
    refine hhas.resolve_right ?_
    rw [hnone]
    exact List.not_mem_nil
  refine ⟨h.setOutput hclient hcon hnone ?_, keeps_put (hold.listed.opened con hcon).closing⟩
  intro p hp
  exact (Option.some_inj.mp hp).symm

/-- **`output_handler_done`**: an open connection is left alone, a closing one is freed. -/
theorem outputHandlerDone_spec (h : Inv o options none s) (hclient : client ∈ s.clientsList)
    (hcon : (s.clients client).sendingFlow = some con) :
    wp (outputHandlerDone client) (fun _ t => Inv o options none t ∧
      (∀ q ≠ con, t.connections q = s.connections q) ∧
      t.connections con = if (s.connections con).closing = true
        then (s.connections con).unhandled.freed else s.connections con) s := by
  have hold := h.clients client hclient
  have hhas := hold.closings.sending con hcon
  obtain ⟨hlive, hown⟩ := hold.owns hhas
  have hoff : { s.clients client with sendingFlow := none } = (s.clients client).offOutput con := by
    rw [ClientState.offOutput, if_pos hcon]
  have hput := setClient_eq_put (s := s) con fun k => { k with sendingFlow := none }
  rw [State.clientOf, hown, hoff] at hput
  simp only [outputHandlerDone, wp_bind, wp_get, hcon, wp_modify, wp_deref]
  rw [hput, put_connections_self]
  refine ⟨hlive, ?_⟩
  rcases hhas with hlist | hclosing
  · have hopen := hold.listed.opened con hlist
    have hnone := hold.closing_eq_nil fun p hp =>
      Option.some_inj.mp (hcon.symm.trans hp) ▸ hlist
    rw [hopen.handlerBusy, if_neg Bool.false_ne_true, wp_pure, hopen.closing,
      if_neg Bool.false_ne_true, put_connections_self]
    refine ⟨?_, fun q hne => put_connections_of_ne hne, rfl⟩
    rw [← hoff]
    exact h.setOutput hclient hlist hnone (by simp)
  · obtain ⟨his, -⟩ := hold.closings.closing con hclosing
    have hclosed : ((s.put client ((s.clients client).offOutput con) con
        (s.connections con).unhandled s.uses s.allocated).connections con).closing = true := by
      rw [put_connections_self]
      exact his.closing
    have hfree : ((s.clients client).offOutput con).sendingFlow ≠ some con :=
      fun heq => (offOutput_eq_some.mp heq).2 rfl
    rw [his.handlerBusy, if_pos rfl, wp_bind, wp_modify, setConnection_eq_put,
      connectionSendQflowBusyHandler]
    simp only [State.clientOf, put_connections_self, hown, put_clients_self, put_put, put_uses,
      put_allocated]
    simp only [wp_bind, wp_deref, wp_assert, wp_assertFree, wp_connectionFree_closing hclosed,
      State.clientOf, put_connections_self, put_clients_self, put_put, put_uses, put_allocated,
      Connection.client_unhandled, hown]
    have htwice : (((s.clients client).offOutput con).withoutClosing con).offOutput con
        = ((s.clients client).withoutClosing con).offOutput con := by
      simp [ClientState.offOutput, ClientState.withoutClosing, hcon]
    rw [htwice, if_pos his.closing]
    refine ⟨his.live, his.closing, .inr hfree, his.live, .inr hfree, hclosing, ?_,
      fun q hne => put_connections_of_ne hne, rfl⟩
    refine h.freeClosing hclient hclosing rfl ?_
    exact ⟨rfl, his.udp, rfl, his.udpFrees, congrArg (· + 1) his.frees⟩

/-! ### Using -/

theorem wp_connectionSendToUdp {time : ℤ} {Q : Unit → State → Prop} :
    wp (connectionSendToUdp con time) Q s ↔ (s.connections con).live = true ∧
      (s.connections con).closing = false ∧ con ∈ (s.clientOf con).connectionsList ∧
      (s.connections con).udp = true ∧
      Q () (s.put (s.connections con).client ((s.clientOf con).touched con) con
        ((s.connections con).touched time).usedUdp (s.uses ++ [con]) s.allocated) := by
  simp only [connectionSendToUdp, wp_bind, wp_deref, wp_assert, wp_touch, wp_useUdp, State.clientOf,
    put_connections_self, put_clients_self, put_put, put_uses, put_allocated,
    Connection.client_touched]
  rfl

section

variable (h : Inv o options going s)

include h

/-- **`connection_send_to_udp`**, and likewise `connection_udp_recv_if_handler_send`. -/
theorem connectionSendToUdp_spec (hclient : client ∈ s.clientsList)
    (hcon : con ∈ (s.clients client).connectionsList) (time : ℤ) :
    wp (connectionSendToUdp con time) (fun _ t => Inv o options going t ∧ Keeps s t) s := by
  have hopen := (h.clients client hclient).listed.opened con hcon
  rw [wp_connectionSendToUdp, h.clientOf_eq hclient (.inl hcon), hopen.client]
  refine ⟨hopen.live, hopen.closing, hcon, hopen.udp, ?_, keeps_put hopen.closing⟩
  exact h.touch hclient hcon { hopen with } rfl { h.fits con hopen.udp with }

theorem connectionFirstJobHandler_spec (hclient : client ∈ s.clientsList) (hcon : con ∈ (s.clients client).connectionsList)
    (time : ℤ) :
    wp (connectionFirstJobHandler con time) (fun _ t => Inv o options going t ∧ Keeps s t) s := by
  have hopen := (h.clients client hclient).listed.opened con hcon
  simp only [connectionFirstJobHandler, wp_bind, wp_modify, wp_deref, wp_assert,
    wp_connectionSendToUdp, setConnection_eq_put, State.clientOf, put_connections_self,
    put_clients_self, put_put, put_uses, put_allocated, Connection.client_jobRun, hopen.client]
  refine ⟨hopen.live, hopen.closing, hopen.live, hopen.closing, hcon, hopen.udp, ?_,
    keeps_put hopen.closing⟩
  exact h.touch hclient hcon { hopen with } rfl { h.fits con hopen.udp with }

/-- What no connection has that is blank, freed or closing, only an open one has. -/
theorem Inv.open_of (f : Connection → Bool)
    (hblank : f Connection.blank = false)
    (hfreed : ∀ c : Connection, c.IsFreed → f c = false)
    (hclosing : ∀ (c : Connection) (d : ℕ), c.IsClosing d → f c = false)
    (hcon : f (s.connections con) = true) :
    ∃ client ∈ s.clientsList, con ∈ (s.clients client).connectionsList := by
  have hbelow : con < s.allocated := by
    by_contra hnot
    rw [h.fresh con (Nat.le_of_not_lt hnot)] at hcon
    cases hblank.symm.trans hcon
  have hlive : (s.connections con).live = true := by
    by_contra hdead
    have his := h.freed con hbelow (Bool.not_eq_true _ ▸ hdead)
    cases (hfreed _ his).symm.trans hcon
  obtain ⟨client, hclient, -, hhas⟩ := h.linked hlive
  refine ⟨client, hclient, hhas.resolve_right fun hmem => ?_⟩
  have his := ((h.clients client hclient).closings.closing con hmem).1
  cases (hclosing _ _ his).symm.trans hcon

theorem Inv.open_of_udp (hudp : (s.connections con).udp = true) :
    ∃ client ∈ s.clientsList, con ∈ (s.clients client).connectionsList :=
  h.open_of Connection.udp rfl (fun _ his => his.udp) (fun _ _ his => his.udp) hudp

theorem Inv.open_of_firstJob (hjob : (s.connections con).firstJob = true) :
    ∃ client ∈ s.clientsList, con ∈ (s.clients client).connectionsList :=
  h.open_of Connection.firstJob rfl (fun _ his => his.firstJob) (fun _ _ his => his.firstJob)
    hjob

end

/-! ### Local ports -/

theorem type_eq_of_sameRemote {addr addr' : BAddr} (h : sameRemote options addr addr' = true) :
    addr.type = addr'.type := by
  unfold sameRemote bipAddrCompare bAddrCompare at h
  cases addr <;> cases addr' <;> simp_all [bAddrGetIPAddr, BAddr.type]

theorem getLocalNumPorts_congr {addr addr' : BAddr} (h : addr.type = addr'.type) :
    getLocalNumPorts options addr = getLocalNumPorts options addr' := by
  cases addr <;> cases addr' <;> first | rfl | cases h

/-- The connection is linked with a client, and not closing. -/
def State.IsLinked (s : State) (con : ℕ) : Prop :=
  ∃ client ∈ s.clientsList, con ∈ (s.clients client).connectionsList

/-- What the loop has found out after some entries. -/
structure Usage (options : Options) (s : State) (addr : BAddr) (visited : List (ℕ × ℕ))
    (usage : PortUsage) : Prop where
  length : usage.portUsage.length = (getLocalNumPorts options addr).toNat
  taken : ∀ e ∈ visited, 0 ≤ (s.connections e.2).localPortIndex →
    sameRemote options (s.connections e.2).addr addr = true →
    usage.portUsage[(s.connections e.2).localPortIndex.toNat]? = some true
  least : ∀ p ∈ usage.leastCon, s.IsLinked p ∧ 0 ≤ (s.connections p).localPortIndex ∧
    sameRemote options (s.connections p).addr addr = true ∧ (s.clientOf p).sendingFlow ≠ some p

variable {e : ℕ × ℕ}

theorem mem_entries :
    e ∈ s.entries ↔ e.1 ∈ s.clientsList ∧ e.2 ∈ (s.clients e.1).connectionsList := by
  obtain ⟨d, p⟩ := e
  simp [State.entries]

theorem wp_isLessUsed (h : Inv o options none s) {least : Option ℕ}
    (hleast : ∀ p ∈ least, s.IsLinked p) {Q : Bool → State → Prop} (hQ : ∀ b, Q b s) :
    wp (isLessUsed c least) Q s := by
  cases least with
  | none =>
    rw [isLessUsed, wp_pure]
    exact hQ true
  | some p =>
    obtain ⟨client, hclient, hp⟩ := hleast p rfl
    rw [isLessUsed, wp_bind, wp_deref]
    refine ⟨((h.clients client hclient).listed.opened p hp).live, ?_⟩
    rw [wp_pure]
    exact hQ _

variable {addr : BAddr} {usage : PortUsage} {visited : List (ℕ × ℕ)}

/-- A connection that takes no port is skipped. -/
theorem Usage.skip
    (h : Usage options s addr visited usage)
    (hskip : 0 ≤ (s.connections e.2).localPortIndex →
      sameRemote options (s.connections e.2).addr addr = true → False) :
    Usage options s addr (visited ++ [e]) usage where
  length := h.length
  least := h.least
  taken := by
    intro e' he' hindex hsame
    rcases List.mem_append.mp he' with hold | hnew
    · exact h.taken e' hold hindex hsame
    · obtain rfl := List.mem_singleton.mp hnew
      exact (hskip hindex hsame).elim

/-- A connection takes its port. -/
theorem Usage.take
    (h : Usage options s addr visited usage) {least : Option ℕ}
    (hindex : (s.connections e.2).localPortIndex.toNat < usage.portUsage.length)
    (hleast : ∀ p ∈ least, s.IsLinked p ∧ 0 ≤ (s.connections p).localPortIndex ∧
      sameRemote options (s.connections p).addr addr = true ∧
        (s.clientOf p).sendingFlow ≠ some p) :
    Usage options s addr (visited ++ [e])
      ⟨usage.portUsage.set (s.connections e.2).localPortIndex.toNat true, least⟩ where
  length := by
    rw [List.length_set]
    exact h.length
  least := hleast
  taken := by
    intro e' he' hnonneg hsame
    rw [List.getElem?_set]
    split_ifs with heq
    · rfl
    · rcases List.mem_append.mp he' with hold | hnew
      · exact h.taken e' hold hnonneg hsame
      · obtain rfl := List.mem_singleton.mp hnew
        exact absurd rfl heq

theorem visitConnection_spec (h : Inv o options none s)
    (he : e ∈ s.entries)
    (husage : Usage options s addr visited usage) :
    wp (visitConnection options addr usage e)
      (fun usage' t => t = s ∧ Usage options s addr (visited ++ [e]) usage') s := by
  obtain ⟨hclient, hcon⟩ := mem_entries.mp he
  have hopen := (h.clients e.1 hclient).listed.opened e.2 hcon
  rw [visitConnection, wp_bind, wp_deref]
  refine ⟨hopen.live, ?_⟩
  rw [wp_bind, wp_assert]
  refine ⟨hopen.client, ?_⟩
  rw [wp_bind, wp_assert]
  refine ⟨hopen.closing, ?_⟩
  by_cases hother : (s.connections e.2).addr.type ≠ addr.type ∨
      (s.connections e.2).localPortIndex < 0
  · rw [if_pos hother, wp_pure]
    refine ⟨rfl, husage.skip fun hindex hsame => ?_⟩
    rcases hother with htype | hneg
    · exact htype (type_eq_of_sameRemote hsame)
    · exact absurd hneg (not_lt.mpr hindex)
  · rw [if_neg hother, wp_bind, wp_assert]
    rw [not_or, not_not, not_lt] at hother
    have hlt : (s.connections e.2).localPortIndex < getLocalNumPorts options addr := by
      rw [← getLocalNumPorts_congr hother.1]
      rcases (h.fits e.2 hopen.udp).index with hnone | ⟨-, hlt⟩
      · omega
      · exact hlt
    refine ⟨hlt, ?_⟩
    by_cases hsame : sameRemote options (s.connections e.2).addr addr = true
    · have hindex : (s.connections e.2).localPortIndex.toNat < usage.portUsage.length := by
        rw [husage.length]
        omega
      have hold : ∀ p ∈ usage.leastCon, s.IsLinked p := fun p hp => (husage.least p hp).1
      rw [if_pos hsame, wp_bind, wp_isBusy, h.clientOf_eq hclient (.inl hcon)]
      refine ⟨h.calm hclient, ?_⟩
      by_cases hbusy : (s.clients e.1).sendingFlow = some e.2
      · rw [decide_eq_true hbusy, if_pos rfl, wp_pure]
        exact ⟨rfl, husage.take hindex husage.least⟩
      · rw [decide_eq_false hbusy, if_neg Bool.false_ne_true, wp_bind]
        refine wp_isLessUsed h hold fun less => ?_
        split_ifs
        · rw [wp_pure]
          refine ⟨rfl, husage.take hindex fun p hp => ?_⟩
          obtain rfl := Option.some_inj.mp hp
          rw [h.clientOf_eq hclient (.inl hcon)]
          exact ⟨⟨e.1, hclient, hcon⟩, hother.2, hsame, hbusy⟩
        · rw [wp_pure]
          exact ⟨rfl, husage.take hindex husage.least⟩
    · rw [if_neg hsame, wp_pure]
      exact ⟨rfl, husage.skip fun _ heq => hsame heq⟩

/-- **`build_port_usage_array_and_find_least_used_connection`**: the array has the ports of all
connections to the address. -/
theorem buildPortUsageArray_spec (h : Inv o options none s) (haddr : addr ≠ .none)
    (hports : 0 ≤ getLocalNumPorts options addr) :
    wp (buildPortUsageArrayAndFindLeastUsedConnection options addr)
      (fun usage t => t = s ∧ Usage options s addr s.entries usage) s := by
  simp only [buildPortUsageArrayAndFindLeastUsedConnection, wp_bind, wp_assert, wp_get]
  refine ⟨haddr, hports, ?_⟩
  refine wp_foldlM (I := fun visited usage t => t = s ∧ Usage options s addr visited usage)
    ⟨rfl, ?_⟩ ?_
  · exact ⟨List.length_replicate, by simp, by simp⟩
  · rintro visited e usage _ he ⟨rfl, husage⟩
    exact visitConnection_spec h he husage

/-- Connections were closed, or none. -/
structure Shrinks (s t : State) : Prop where
  clientsList : t.clientsList = s.clientsList
  list : ∀ d, (t.clients d).connectionsList.Sublist (s.clients d).connectionsList
  conid : t.conidOf = s.conidOf
  keeps : Keeps s t

theorem Shrinks.refl (s : State) : Shrinks s s :=
  ⟨rfl, fun _ => List.Sublist.refl _, rfl, Keeps.refl s⟩

theorem Closes.shrinks (h : Closes s t client con) : Shrinks s t where
  clientsList := h.clientsList
  list := by
    intro d
    obtain rfl | hne := eq_or_ne d client
    · rw [h.list]
      exact List.erase_sublist
    · rw [h.others d hne]
  conid := by
    funext p
    obtain rfl | hne := eq_or_ne p con
    · exact h.conid
    · exact congrArg Connection.conid (h.connections p hne)
  keeps := h.keeps

/-- A port that a new connection to the address may have. -/
def IsFree (options : Options) (s : State) (addr : BAddr) (index : ℤ) : Prop :=
  index = -1 ∨ (0 ≤ index ∧ index < getLocalNumPorts options addr ∧
    ∀ p, (s.connections p).udp = true → sameRemote options (s.connections p).addr addr = true →
      (s.connections p).localPortIndex ≠ index)

/-- A port that the array does not have is free. -/
theorem Usage.isFree (h : Inv o options none s)
    (husage : Usage options s addr s.entries usage) {env : Environment} {i : ℕ}
    (hi : tryPorts usage.portUsage env = some i) : IsFree options s addr i := by
  have hfound := List.find?_some hi
  have hmem := List.mem_range.mp (List.mem_of_find?_eq_some hi)
  rw [husage.length] at hmem
  simp only [decide_eq_true_eq] at hfound
  refine .inr ⟨Int.natCast_nonneg i, by omega, fun p hudp hsame heq => ?_⟩
  obtain ⟨client, hclient, hp⟩ := h.open_of_udp hudp
  have htaken := husage.taken (client, p) (mem_entries.mpr ⟨hclient, hp⟩) (by
    rw [heq]
    exact Int.natCast_nonneg i) hsame
  rw [heq, Int.toNat_natCast, hfound.1] at htaken
  cases htaken

/-- **A port is taken over**: it was the port of the connection that is closed, and of no other to
the same address. -/
theorem stealPort_spec (h : Inv o options none s)
    (husage : Usage options s addr s.entries usage) (env : Environment) :
    wp (stealPort options addr env usage.leastCon)
      (fun index t => Inv o options none t ∧ Shrinks s t ∧ IsFree options t addr index) s := by
  cases hleast : usage.leastCon with
  | none =>
    rw [stealPort, wp_pure]
    exact ⟨h, Shrinks.refl s, .inl rfl⟩
  | some p =>
    obtain ⟨⟨client, hclient, hp⟩, hindex, hsame, hidle⟩ := husage.least p hleast
    have hopen := (h.clients client hclient).listed.opened p hp
    have htype := type_eq_of_sameRemote hsame
    have hlt : (s.connections p).localPortIndex < getLocalNumPorts options addr := by
      rw [← getLocalNumPorts_congr htype]
      rcases (h.fits p hopen.udp).index with hnone | ⟨-, hlt⟩
      · omega
      · exact hlt
    simp only [stealPort, wp_bind, wp_deref, wp_assert, wp_isBusy, wp_pure]
    refine ⟨hopen.live, htype, hindex, hlt, ?_, decide_eq_false hidle, ?_⟩
    · rw [h.clientOf_eq hclient (.inl hp)]
      exact h.calm hclient
    · refine wp_mono (connectionClose_spec h hclient hp) ?_
      rintro _ t ⟨hinv, hcloses⟩
      refine ⟨hinv, hcloses.shrinks, ?_⟩
      split_ifs
      · refine .inr ⟨hindex, hlt, fun q hudp hq heq => ?_⟩
        have hne : q ≠ p := by
          rintro rfl
          cases hcloses.udp.symm.trans hudp
        rw [hcloses.connections q hne] at hudp hq heq
        exact (h.fits q hudp).exclusive p hne.symm hopen.udp (heq ▸ hindex)
          (sameRemote_of_sameRemote hq hsame) heq
      · exact .inl rfl

/-- **The port of a new connection** is free. -/
theorem bindLocalPort_spec (h : Inv o options none s) (haddr : addr ≠ .none)
    (env : Environment) :
    wp (bindLocalPort options addr env)
      (fun index t => Inv o options none t ∧ Shrinks s t ∧ IsFree options t addr index) s := by
  rw [bindLocalPort]
  by_cases hnone : getLocalNumPorts options addr < 0 ∨ env.portUsage = false
  · rw [if_pos hnone, wp_pure]
    exact ⟨h, Shrinks.refl s, .inl rfl⟩
  · rw [if_neg hnone, wp_bind]
    rw [not_or, not_lt] at hnone
    refine wp_mono (buildPortUsageArray_spec h haddr hnone.1) ?_
    rintro usage _ ⟨rfl, husage⟩
    by_cases hreuse : env.setReuseAddr = false
    · rw [if_pos hreuse, wp_pure]
      exact ⟨h, Shrinks.refl _, .inl rfl⟩
    · rw [if_neg hreuse]
      cases htry : tryPorts usage.portUsage env with
      | none => exact stealPort_spec h husage env
      | some =>
        dsimp only
        rw [wp_pure]
        exact ⟨h, Shrinks.refl _, husage.isFree h htry⟩

/-! ### New connections -/

theorem findConnection_eq_none (h : Inv o options going s) (hclient : client ∈ s.clientsList)
    {conid : Word16} : findConnection o s client conid = none ↔
      ∀ p ∈ (s.clients client).connectionsList, s.conidOf p ≠ conid := by
  rw [findConnection, InOrder.lookup_eq_none_iff]
  exact forall_congr' fun p => imp_congr_left ((h.clients client hclient).listed.tree p)

/-- The connection is linked. -/
def ClientState.linked (k : ClientState) (con : ℕ) (tree : List ℕ) : ClientState := { k with
  connectionsTree := tree
  connectionsList := k.connectionsList ++ [con]
  numConnections := k.numConnections + 1 }

section Link

variable {c : Connection} {tree : List ℕ}

/-- What is linked is not new. -/
theorem Inv.ne_allocated (h : Inv o options going s) (hclient : client ∈ s.clientsList)
    (hhas : (s.clients client).Has con) : con ≠ s.allocated :=
  (h.lt_allocated ((h.clients client hclient).owns hhas).1).ne

/-- The tables of the client of a new connection. -/
theorem Listed.link (h : Inv o options going s) (hclient : client ∈ s.clientsList)
    (hroom : (s.clients client).connectionsList.length < options.maxConnectionsForClient)
    (hopen : c.IsOpen client)
    (htree : InOrder.insert (uint16Comparator o)
      (fun p => (update s.connections s.allocated c p).conid) s.allocated
      (s.clients client).connectionsTree = some tree) :
    Listed o options client ((s.clients client).linked s.allocated tree)
      (update s.connections s.allocated c) (s.uses ++ [s.allocated]) := by
  have hlisted := (h.clients client hclient).listed
  have hnew : ∀ p ∈ (s.clients client).connectionsList, p ≠ s.allocated :=
    fun p hp => h.ne_allocated hclient (.inl hp)
  have hnot : s.allocated ∉ (s.clients client).connectionsList :=
    fun hmem => hnew _ hmem rfl
  exact {
    tree := by
      intro p
      change p ∈ tree ↔ p ∈ (s.clients client).connectionsList ++ [s.allocated]
      rw [InOrder.mem_insert htree, List.mem_append, List.mem_singleton, hlisted.tree, or_comm]
    ordered := by
      refine InOrder.ordered_insert htree (hlisted.ordered.congr fun p hp => ?_)
      rw [update_of_ne (hnew p ((hlisted.tree p).mp hp))]
    nodup := List.nodup_append'.mpr ⟨hlisted.nodup, List.nodup_singleton _,
      List.disjoint_singleton.mpr hnot⟩
    num := by
      simp [ClientState.linked, hlisted.num]
    num_le := by
      simpa [ClientState.linked] using hroom
    recent := by
      have huse := Recency.sublist_use hlisted.recent s.allocated
      rw [List.erase_of_not_mem hnot] at huse
      exact huse
    opened := by
      intro p hp
      rcases List.mem_append.mp hp with hold | hself
      · rw [update_of_ne (hnew p hold)]
        exact hlisted.opened p hold
      · obtain rfl := List.mem_singleton.mp hself
        rw [update_self]
        exact hopen }

/-- **A new connection is linked**: with room in the table, an id that is not in use, and a free
port. -/
theorem Inv.link (h : Inv o options going s) (hclient : client ∈ s.clientsList)
    (hroom : (s.clients client).connectionsList.length < options.maxConnectionsForClient)
    (hopen : c.IsOpen client) (haddr : c.addr ≠ .none)
    (hfree : IsFree options s c.addr c.localPortIndex)
    (htree : InOrder.insert (uint16Comparator o)
      (fun p => (update s.connections s.allocated c p).conid) s.allocated
      (s.clients client).connectionsTree = some tree) :
    Inv o options going (s.put client ((s.clients client).linked s.allocated tree) s.allocated c
      (s.uses ++ [s.allocated]) (s.allocated + 1)) := by
  have hold := h.clients client hclient
  refine h.put hclient (.inr ⟨rfl, rfl⟩)
    (fun d hd hhas => absurd rfl (h.ne_allocated hd hhas)) (.inr rfl) ⟨?_, ?_⟩ rfl
    (fun q _ hq => hq.imp_left (List.mem_append_left _))
    (fun _ => ⟨hopen.client, .inl (List.mem_append_right _ (List.mem_singleton_self _))⟩) ?_
    (fun _ => ⟨haddr, ?_, fun q _ hq hindex hsame => ?_⟩)
  · exact Listed.link h hclient hroom hopen htree
  · refine ⟨fun p hp => ?_, hold.closings.nodup, fun p hp => ?_⟩
    · rw [update_of_ne (h.ne_allocated hclient (.inr hp))]
      exact hold.closings.closing p hp
    · exact (hold.closings.sending p hp).imp_left (List.mem_append_left _)
  · intro hdead
    cases hopen.live.symm.trans hdead
  · exact hfree.imp_right fun hport => ⟨hport.1, hport.2.1⟩
  · rcases hfree with hnone | ⟨-, -, hothers⟩
    · omega
    · exact (hothers q hq (sameRemote_comm hsame)).symm

theorem link_spec (h : Inv o options going s) (hclient : c.client ∈ s.clientsList)
    (hroom : (s.clients c.client).connectionsList.length < options.maxConnectionsForClient)
    (hopen : c.IsOpen c.client) (haddr : c.addr ≠ .none)
    (hfree : IsFree options s c.addr c.localPortIndex)
    (hconid : ∀ p ∈ (s.clients c.client).connectionsList, s.conidOf p ≠ c.conid) :
    wp (link o c) (fun _ t => Inv o options going t ∧ Keeps s t) s := by
  have hlisted := (h.clients c.client hclient).listed
  have hplace : ∀ b ∈ (s.clients c.client).connectionsTree, uint16Comparator o
      (update s.connections s.allocated c s.allocated).conid
      (update s.connections s.allocated c b).conid ≠ .eq := by
    intro b hb heq
    have hlist := (hlisted.tree b).mp hb
    have hkeys := Std.LawfulEqCmp.eq_of_compare heq
    rw [update_self,
      update_of_ne (h.ne_allocated hclient (.inl hlist))] at hkeys
    exact hconid b hlist hkeys.symm
  obtain ⟨tree, hinsert⟩ : ∃ tree, InOrder.insert (uint16Comparator o)
      (State.conidOf { s with
        connections := update s.connections s.allocated c
        allocated := s.allocated + 1 }) s.allocated (s.clients c.client).connectionsTree
        = some tree := InOrder.exists_insert hplace
  simp only [Gateway.link, wp_bind, wp_modify, wp_get, Nat.add_sub_cancel, hinsert]
  refine ⟨h.link hclient hroom hopen haddr hfree hinsert, fun p hlive _ => ?_⟩
  exact update_of_ne (h.lt_allocated hlive).ne _ _

end Link

end Tun2Socks.UdpGw.Gateway
