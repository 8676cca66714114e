import Tun2Socks.UdpGw.GatewaySteps

/-!
# The tables and the local ports of the udpgw server

The messages of the clients and the end of a client, as the composition of the steps, and the two
results about every run of the server, with any number of clients.

* `tables_consistent` — the tree, the list and the number of every client agree, the list is in the
  order of last use, and no assertion fails. A connection that is closing is in its own list only,
  has no UDP side and no job, and is not written until it is freed, once, when its packet has left
  or its client goes.
* `local_ports_exclusive` — two open connections to the same remote address do not have the same
  local port.
-/

namespace Tun2Socks.UdpGw.Gateway

open Framework Net Client Function

variable {o : ByteOrder} {options : Options} {s t : State} {con client : ℕ} {going : Option ℕ}

/-! ### Messages -/

theorem connectionInit_spec (h : Inv o options none s) (hclient : client ∈ s.clientsList)
    (hroom : (s.clients client).connectionsList.length < options.maxConnectionsForClient)
    {conid : Word16}
    (hconid : ∀ p ∈ (s.clients client).connectionsList, s.conidOf p ≠ conid)
    {addr origAddr : BAddr} (haddr : addr ≠ .none) (horig : origAddr ≠ .none)
    (env : Environment) :
    wp (connectionInit o options client conid addr origAddr env)
      (fun _ t => Inv o options none t ∧ Keeps s t) s := by
  have hnum : (s.clients client).numConnections < options.maxConnectionsForClient := by
    rw [(h.clients client hclient).listed.num]
    exact_mod_cast hroom
  simp only [connectionInit, wp_bind, wp_get, wp_assert]
  refine ⟨hnum, (findConnection_eq_none h hclient).mpr hconid, haddr, horig, ?_⟩
  by_cases hfail : env.malloc = false ∨ env.sendPpflow = false ∨ env.udpDgram = false
  · rw [if_pos hfail, wp_pure]
    exact ⟨h, Keeps.refl s⟩
  · rw [if_neg hfail, wp_bind]
    refine wp_mono (bindLocalPort_spec h haddr env) ?_
    rintro index t ⟨hinv, hshrinks, hfree⟩
    by_cases hbuffers : env.udpSendBuffer = false ∨ env.udpRecvBuffer = false
    · rw [if_pos hbuffers, wp_pure]
      exact ⟨hinv, hshrinks.keeps⟩
    · rw [if_neg hbuffers]
      have ht : client ∈ t.clientsList := hshrinks.clientsList ▸ hclient
      refine wp_mono (link_spec hinv ht ((hshrinks.list client).length_le.trans_lt hroom)
        ⟨rfl, rfl, rfl, rfl, rfl, rfl, rfl⟩ haddr hfree ?_) ?_
      · intro p hp
        rw [hshrinks.conid]
        exact hconid p ((hshrinks.list client).subset hp)
      · rintro _ u ⟨hu, hkeeps⟩
        exact ⟨hu, hshrinks.keeps.trans hkeeps⟩

/-- The id of the message is not in use any more, or its connection is the right one. -/
theorem closeOld_spec (h : Inv o options none s) (hclient : client ∈ s.clientsList)
    (parsed : Parsed) :
    wp (closeOld o client parsed) (fun r t => Inv o options none t ∧ Keeps s t ∧
      t.clientsList = s.clientsList ∧
      match r with
      | some con => con ∈ (t.clients client).connectionsList
      | none => ∀ p ∈ (t.clients client).connectionsList, t.conidOf p ≠ parsed.conid) s := by
  simp only [closeOld, wp_bind, wp_get]
  cases hfind : findConnection o s client parsed.conid with
  | none =>
    dsimp only
    rw [wp_pure]
    exact ⟨h, Keeps.refl s, rfl, (findConnection_eq_none h hclient).mp hfind⟩
  | some con =>
    have hlisted := (h.clients client hclient).listed
    obtain ⟨htree, hconid⟩ := InOrder.mem_of_lookup hfind
    have hcon := (hlisted.tree con).mp htree
    have hopen := hlisted.opened con hcon
    dsimp only
    rw [wp_bind, wp_deref]
    refine ⟨hopen.live, ?_⟩
    rw [wp_bind, wp_assert]
    refine ⟨hopen.closing, ?_⟩
    rw [wp_ite]
    split_ifs
    · rw [wp_bind]
      refine wp_mono (connectionClose_spec h hclient hcon) ?_
      rintro _ t ⟨hinv, hcloses⟩
      rw [wp_pure]
      refine ⟨hinv, hcloses.keeps, hcloses.clientsList, fun p hp heq => ?_⟩
      rw [hcloses.list, hlisted.nodup.mem_erase_iff] at hp
      rw [hcloses.shrinks.conid] at heq
      exact hp.1 (hlisted.ordered.inj ((hlisted.tree p).mpr hp.2) htree
        (heq.trans hconid.symm))
    · rw [wp_pure]
      exact ⟨h, Keeps.refl s, rfl, hcon⟩

/-- The table has room for a connection. -/
theorem makeRoom_spec (h : Inv o options none s) (hclient : client ∈ s.clientsList)
    {conid : Word16}
    (hconid : ∀ p ∈ (s.clients client).connectionsList, s.conidOf p ≠ conid) :
    wp (makeRoom options client) (fun _ t => Inv o options none t ∧ Keeps s t ∧
      t.clientsList = s.clientsList ∧
      (t.clients client).connectionsList.length < options.maxConnectionsForClient ∧
      ∀ p ∈ (t.clients client).connectionsList, t.conidOf p ≠ conid) s := by
  have hlisted := (h.clients client hclient).listed
  have hle := hlisted.num_le
  simp only [makeRoom, wp_bind, wp_get, wp_ite]
  rw [hlisted.num]
  split_ifs with hfull
  · rw [Nat.cast_inj] at hfull
    cases hlist : (s.clients client).connectionsList with
    | nil =>
      have hpos := options.max_pos
      rw [← hfull, hlist] at hpos
      cases hpos
    | cons con =>
      have hcon : con ∈ (s.clients client).connectionsList := by
        rw [hlist]
        exact List.mem_cons_self
      dsimp only [List.head?_cons]
      refine wp_mono (connectionClose_spec h hclient hcon) ?_
      rintro _ t ⟨hinv, hcloses⟩
      refine ⟨hinv, hcloses.keeps, hcloses.clientsList, ?_, fun p hp => ?_⟩
      · rw [hcloses.list, List.length_erase_of_mem hcon, hfull]
        exact Nat.pred_lt options.max_pos.ne'
      · rw [hcloses.shrinks.conid]
        exact hconid p ((hcloses.shrinks.list client).subset hp)
  · rw [Nat.cast_inj] at hfull
    rw [wp_pure]
    exact ⟨h, Keeps.refl s, rfl, Nat.lt_of_le_of_ne hle hfull, hconid⟩

/-- **A message of a client.** -/
theorem clientRecvIfHandlerSend_spec (h : Inv o options none s) (hclient : client ∈ s.clientsList)
    (data : List Byte) (env : Environment) :
    wp (clientRecvIfHandlerSend o options client data env)
      (fun _ t => Inv o options none t ∧ Keeps s t) s := by
  rw [clientRecvIfHandlerSend]
  match hparse : clientRecvParse o options.udpMtu data with
  | .error _ => exact (wp_pure ()).mpr ⟨h, Keeps.refl s⟩
  | .ok none => exact (wp_pure ()).mpr ⟨h, Keeps.refl s⟩
  | .ok (some parsed) =>
    have horig := addr_ne_none_of_parse hparse
    dsimp only
    rw [submitMessage, wp_bind]
    refine wp_mono (closeOld_spec h hclient parsed) ?_
    rintro (_ | con) t ⟨hinv, hkeeps, hclients, hpost⟩
    · dsimp only
      rw [wp_bind]
      refine wp_mono (makeRoom_spec hinv (hclients ▸ hclient) hpost) ?_
      rintro _ u ⟨hinv', hkeeps', hclients', hroom, hconid⟩
      have hu : client ∈ u.clientsList := hclients' ▸ hclients ▸ hclient
      refine wp_mono (connectionInit_spec hinv' hu hroom hconid ?_ horig env) ?_
      · split_ifs with hdns
        · exact hdns.2
        · exact horig
      · rintro _ v ⟨hv, hlast⟩
        exact ⟨hv, (hkeeps.trans hkeeps').trans hlast⟩
    · refine wp_mono (connectionSendToUdp_spec hinv (hclients ▸ hclient) hpost env.time) ?_
      rintro _ u ⟨hu, hlast⟩
      exact ⟨hu, hkeeps.trans hlast⟩

/-! ### The beginning and the end of a client -/

theorem clientInv_empty {connections : ℕ → Connection} {uses : List ℕ} :
    ClientInv o options client ClientState.empty connections uses where
  listed := ⟨fun _ => Iff.rfl, List.Pairwise.nil, List.nodup_nil, rfl, Nat.zero_le _,
    List.nil_sublist _, nofun⟩
  closings := ⟨nofun, List.nodup_nil, nofun⟩

theorem listenerHandler_spec (h : Inv o options none s) (ok : Bool) :
    wp (listenerHandler options ok) (fun _ t => Inv o options none t ∧ Keeps s t) s := by
  simp only [listenerHandler, wp_bind, wp_get, wp_ite]
  split_ifs
  · rw [wp_pure]
    exact ⟨h, Keeps.refl s⟩
  · rw [wp_modify]
    refine ⟨?_, fun _ _ _ => rfl⟩
    have hne : ∀ d ∈ s.clientsList, d ≠ s.nextClient := fun d hd => (h.below d hd).ne
    exact {
      clients := by
        intro d hd
        dsimp only
        rcases List.mem_append.mp hd with hold | hnew
        · rw [update_of_ne (hne d hold)]
          exact h.clients d hold
        · obtain rfl := List.mem_singleton.mp hnew
          rw [update_self]
          exact clientInv_empty
      freeing := by
        intro d hd
        dsimp only
        rcases List.mem_append.mp hd with hold | hnew
        · rw [update_of_ne (hne d hold)]
          exact h.freeing d hold
        · obtain rfl := List.mem_singleton.mp hnew
          rw [update_self]
          exact iff_of_false Bool.false_ne_true (by simp)
      nodup := List.nodup_append'.mpr ⟨h.nodup, List.nodup_singleton _,
        List.disjoint_singleton.mpr fun hmem => hne _ hmem rfl⟩
      below := by
        intro d hd
        rcases List.mem_append.mp hd with hold | hnew
        · exact Nat.lt_succ_of_lt (h.below d hold)
        · obtain rfl := List.mem_singleton.mp hnew
          exact Nat.lt_succ_self _
      member := by
        intro p hp
        obtain ⟨hd, hhas⟩ := h.member p hp
        refine ⟨List.mem_append_left _ hd, ?_⟩
        rw [State.clientOf]
        dsimp only
        rw [update_of_ne (hne _ hd)]
        exact hhas
      fresh := h.fresh
      freed := h.freed
      fits := fun p hp => { h.fits p hp with } }

/-- The queue of a client is going to be freed. -/
theorem Inv.setFreeing (h : Inv o options none s) (client : ℕ) :
    Inv o options (some client) (s.setClient client fun k => { k with freeing := true }) := by
  have hself : (s.setClient client fun k => { k with freeing := true }).clients client
      = { s.clients client with freeing := true } := update_self _ _ _
  have hne : ∀ d ≠ client, (s.setClient client fun k => { k with freeing := true }).clients d
      = s.clients d := fun d hd => update_of_ne hd _ _
  exact {
    clients := by
      intro d hd
      have hold := h.clients d hd
      obtain rfl | hother := eq_or_ne d client
      · rw [hself]
        exact ⟨{ hold.listed with }, { hold.closings with }⟩
      · rw [hne d hother]
        exact hold
    freeing := by
      intro d hd
      obtain rfl | hother := eq_or_ne d client
      · rw [hself]
        exact iff_of_true rfl rfl
      · rw [hne d hother, h.freeing d hd]
        exact iff_of_false nofun fun heq => hother (Option.some_inj.mp heq).symm
    nodup := h.nodup
    below := h.below
    member := by
      intro p hp
      obtain ⟨hd, hhas⟩ := h.member p hp
      refine ⟨hd, ?_⟩
      change ((s.setClient client fun k => { k with freeing := true }).clients
        (s.connections p).client).Has p
      obtain heq | hother := eq_or_ne (s.connections p).client client
      · rw [State.clientOf, heq] at hhas
        rw [heq, hself]
        exact hhas
      · rw [hne _ hother]
        exact hhas
    fresh := h.fresh
    freed := h.freed
    fits := fun p hp => { h.fits p hp with } }

/-- The first loop of `client_free`. -/
theorem freeAll_open {rounds : ℕ} (h : Inv o options (some client) s)
    (hclient : client ∈ s.clientsList)
    (hrounds : (s.clients client).connectionsList.length < rounds) :
    wp (freeAll ClientState.connectionsList client rounds) (fun _ t =>
      Inv o options (some client) t ∧ Keeps s t ∧ t.clientsList = s.clientsList ∧
      (t.clients client).connectionsList = [] ∧
      (t.clients client).closingConnectionsList = (s.clients client).closingConnectionsList) s := by
  induction rounds generalizing s with
  | zero => cases hrounds
  | succ rounds ih =>
    simp only [freeAll, wp_bind, wp_get]
    cases hlist : (s.clients client).connectionsList with
    | nil =>
      dsimp only [List.head?_nil]
      rw [wp_pure]
      exact ⟨h, Keeps.refl s, rfl, hlist, rfl⟩
    | cons con =>
      have hcon : con ∈ (s.clients client).connectionsList := by
        rw [hlist]
        exact List.mem_cons_self
      have hopen := (h.clients client hclient).listed.opened con hcon
      dsimp only [List.head?_cons]
      rw [wp_bind]
      refine wp_mono (connectionFree_open h hclient hcon (.inl rfl)) ?_
      rintro _ _ rfl
      have hkeeps : Keeps s (s.put client (((s.clients client).without con).offOutput con) con
        (s.connections con).freedUdp.freed s.uses s.allocated) := keeps_put hopen.closing
      refine wp_mono (ih (h.freeOpen hclient hcon) hclient ?_) ?_
      · rw [put_clients_self]
        change ((s.clients client).connectionsList.erase con).length < rounds
        rw [hlist, List.erase_cons_head]
        rw [hlist, List.length_cons] at hrounds
        exact Nat.lt_of_succ_lt_succ hrounds
      · rintro _ t ⟨hinv, hkeeps', hclients, hnil, hclosing⟩
        rw [put_clients_self] at hclosing
        exact ⟨hinv, hkeeps.trans hkeeps', hclients, hnil, hclosing⟩

/-- The second loop of `client_free`. -/
theorem freeAll_closing {rounds : ℕ} (h : Inv o options (some client) s)
    (hclient : client ∈ s.clientsList)
    (hrounds : (s.clients client).closingConnectionsList.length < rounds) :
    wp (freeAll ClientState.closingConnectionsList client rounds) (fun _ t =>
      Inv o options (some client) t ∧ t.clientsList = s.clientsList ∧
      (t.clients client).connectionsList = (s.clients client).connectionsList ∧
      (t.clients client).closingConnectionsList = [] ∧
      ∀ p, t.connections p = if p ∈ (s.clients client).closingConnectionsList
        then (s.connections p).freed else s.connections p) s := by
  induction rounds generalizing s with
  | zero => cases hrounds
  | succ _ ih =>
    simp only [freeAll, wp_bind, wp_get]
    cases hlist : (s.clients client).closingConnectionsList with
    | nil =>
      dsimp only [List.head?_nil]
      rw [wp_pure]
      exact ⟨h, rfl, rfl, hlist, fun p => rfl⟩
    | cons con rest =>
      have hcon : con ∈ (s.clients client).closingConnectionsList := by
        rw [hlist]
        exact List.mem_cons_self
      have hclosings := (h.clients client hclient).closings
      have his := (hclosings.closing con hcon).1
      have hnodup := hclosings.nodup
      rw [hlist] at hnodup
      dsimp only [List.head?_cons]
      rw [wp_bind]
      refine wp_mono (connectionFree_closing h hclient hcon rfl) ?_
      rintro _ _ rfl
      have hrest : (((s.clients client).withoutClosing con).offOutput con).closingConnectionsList
          = rest := by
        change (s.clients client).closingConnectionsList.erase con = rest
        rw [hlist, List.erase_cons_head]
      refine wp_mono (ih (h.freeClosing hclient hcon rfl his.freed) hclient ?_) ?_
      · rw [put_clients_self, hrest]
        rw [hlist, List.length_cons] at hrounds
        exact Nat.lt_of_succ_lt_succ hrounds
      · rintro _ t ⟨hinv, hclients, hopen, hnil, hconnections⟩
        rw [put_clients_self] at hopen
        refine ⟨hinv, hclients, hopen, hnil, fun p => ?_⟩
        rw [hconnections p, put_clients_self, hrest]
        obtain rfl | hne := eq_or_ne p con
        · rw [if_neg (List.nodup_cons.mp hnodup).1, put_connections_self,
            if_pos List.mem_cons_self]
        · rw [put_connections_of_ne hne]
          refine if_congr ?_ rfl rfl
          rw [List.mem_cons, or_iff_right hne]

/-- **`client_free`**: the closing connections of the client are freed, and those of the others
are as they were. -/
theorem clientFree_spec (h : Inv o options none s) (hclient : client ∈ s.clientsList) :
    wp (clientFree client) (fun _ t => Inv o options none t ∧
      ∀ p, (s.connections p).live = true → (s.connections p).closing = true →
        t.connections p = if (s.connections p).client = client
          then (s.connections p).freed else s.connections p) s := by
  have hfreeing := h.setFreeing client
  have hself : (s.setClient client fun k => { k with freeing := true }).clients client
      = { s.clients client with freeing := true } := update_self _ _ _
  simp only [clientFree, wp_bind, wp_modify, wp_get]
  refine wp_mono (freeAll_open hfreeing hclient (Nat.lt_succ_self _)) ?_
  rintro _ t ⟨ht, hkeeps, htClients, htNil, htClosing⟩
  rw [hself] at htClosing
  refine wp_mono (freeAll_closing ht (htClients ▸ hclient) ?_) ?_
  · rw [hself, htClosing]
    exact Nat.lt_succ_self _
  rintro _ u ⟨hu, huClients, huOpen, huNil, hconnections⟩
  have hgone : ∀ p, ¬ (u.clients client).Has p := by
    rintro p (hmem | hmem)
    · rw [huOpen, htNil] at hmem
      cases hmem
    · rw [huNil] at hmem
      cases hmem
  refine ⟨?_, ?_⟩
  · exact {
      clients := fun d hd => hu.clients d (List.mem_of_mem_erase hd)
      freeing := fun d hd => by
        obtain ⟨hne, hmem⟩ := hu.nodup.mem_erase_iff.mp hd
        refine (hu.freeing d hmem).trans (iff_of_false ?_ (by simp))
        exact fun heq => hne (Option.some_inj.mp heq).symm
      nodup := hu.nodup.erase client
      below := fun d hd => hu.below d (List.mem_of_mem_erase hd)
      member := fun p hp => by
        obtain ⟨hd, hhas⟩ := hu.member p hp
        refine ⟨hu.nodup.mem_erase_iff.mpr ⟨?_, hd⟩, hhas⟩
        intro heq
        rw [State.clientOf, heq] at hhas
        exact hgone p hhas
      fresh := hu.fresh
      freed := hu.freed
      fits := fun p hp => { hu.fits p hp with } }
  · intro p hlive hclosing
    have hsame : t.connections p = s.connections p := hkeeps p hlive hclosing
    obtain ⟨d, hd, hown, hhas⟩ := h.linked hlive
    have hmem : p ∈ (s.clients d).closingConnectionsList := by
      refine hhas.resolve_left fun hlist => ?_
      have hopen := ((h.clients d hd).listed.opened p hlist).closing
      cases hopen.symm.trans hclosing
    change u.connections p = _
    rw [hconnections p, hsame, htClosing, hown]
    refine if_congr ?_ rfl rfl
    constructor
    · intro hp
      exact hown.symm.trans ((h.clients client hclient).owns (.inr hp)).2
    · rintro rfl
      exact hmem

/-! ### Every run -/

/-- The packet of the connection leaves, or its client goes. -/
def Ends (s : State) (con : ℕ) : Label → Prop
  | .sendDone client => (s.clients client).sendingFlow = some con
  | .disconnect client => (s.connections con).client = client
  | _ => False

/-- What a step does to the connections that are closing. -/
structure ClosingStep (s : State) (l : Label) (t : State) : Prop where
  /-- It frees those for which it is time. -/
  ends : ∀ p, (s.connections p).live = true → (s.connections p).closing = true → Ends s p l →
    (t.connections p).IsFreed ∧ (t.connections p).udpUses = (s.connections p).udpUses
  /-- It leaves the others alone. -/
  keeps : ∀ p, (s.connections p).live = true → (s.connections p).closing = true → ¬ Ends s p l →
    t.connections p = s.connections p

theorem wp_of_keeps {l : Label} {x : M Unit} (hends : ∀ p, ¬ Ends s p l)
    (h : wp x (fun _ t => Inv o options none t ∧ Keeps s t) s) :
    wp x (fun _ t => Inv o options none t ∧ ClosingStep s l t) s := by
  refine wp_mono h ?_
  rintro _ t ⟨ht, hkeeps⟩
  exact ⟨ht, fun p _ _ hp => (hends p hp).elim, fun p hlive hclosing _ =>
    hkeeps p hlive hclosing⟩

/-- A connection that is closing is in the list for it, and its packet at the output. -/
theorem Inv.isClosing (h : Inv o options going s) (hlive : (s.connections con).live = true)
    (hclosing : (s.connections con).closing = true) :
    ∃ client ∈ s.clientsList, con ∈ (s.clients client).closingConnectionsList ∧
      (s.connections con).IsClosing client ∧ (s.clients client).sendingFlow = some con := by
  obtain ⟨client, hclient, -, hhas⟩ := h.linked hlive
  have hinv := h.clients client hclient
  have hmem : con ∈ (s.clients client).closingConnectionsList := by
    refine hhas.resolve_left fun hlist => ?_
    cases (hinv.listed.opened con hlist).closing.symm.trans hclosing
  obtain ⟨his, hsending⟩ := hinv.closings.closing con hmem
  exact ⟨client, hclient, hmem, his, hsending⟩

/-- **Every step** runs without a fault and keeps the invariant. -/
theorem act_spec (h : Inv o options none s) {l : Label} (henabled : Enabled s l) :
    wp (act o options l) (fun _ t => Inv o options none t ∧ ClosingStep s l t) s := by
  cases l with
  | connect ok => exact wp_of_keeps (fun _ => id) (listenerHandler_spec h ok)
  | message _ data env =>
    exact wp_of_keeps (fun _ => id) (clientRecvIfHandlerSend_spec h henabled data env)
  | disconnect =>
    refine wp_mono (clientFree_spec h henabled) ?_
    rintro _ t ⟨ht, hclosing⟩
    refine ⟨ht, fun p hp hc hends => ?_, fun p hp hc hends => ?_⟩
    · obtain ⟨d, -, -, his, -⟩ := h.isClosing hp hc
      rw [Ends] at hends
      rw [hclosing p hp hc, if_pos hends]
      exact ⟨his.freed, rfl⟩
    · rw [Ends] at hends
      rw [hclosing p hp hc, if_neg hends]
  | schedule =>
    exact wp_of_keeps (fun _ => id) ((wp_modify _).mpr (schedule_spec h henabled.1 henabled.2))
  | sendDone =>
    obtain ⟨hclient, hsome⟩ := henabled
    obtain ⟨con, hcon⟩ := Option.ne_none_iff_exists'.mp hsome
    refine wp_mono (outputHandlerDone_spec h hclient hcon) ?_
    rintro _ t ⟨ht, hothers, hself⟩
    refine ⟨ht, fun p hp hc hends => ?_, fun p hp hc hends => ?_⟩
    · obtain rfl := Option.some_inj.mp (hcon.symm.trans hends)
      obtain ⟨d, -, -, his, -⟩ := h.isClosing hp hc
      rw [hself, if_pos hc]
      exact ⟨⟨rfl, his.udp, rfl, his.udpFrees, congrArg (· + 1) his.frees⟩, rfl⟩
    · refine hothers p ?_
      rintro rfl
      exact hends hcon
  | firstJob _ time =>
    obtain ⟨client, hclient, hcon⟩ := h.open_of_firstJob henabled
    exact wp_of_keeps (fun _ => id) (connectionFirstJobHandler_spec h hclient hcon time)
  | udpArrives _ time =>
    obtain ⟨client, hclient, hcon⟩ := h.open_of_udp henabled
    exact wp_of_keeps (fun _ => id) (connectionSendToUdp_spec h hclient hcon time)
  | udpError con =>
    obtain ⟨client, hclient, hcon⟩ := h.open_of_udp henabled
    have hopen := (h.clients client hclient).listed.opened con hcon
    refine wp_of_keeps (fun _ => id) ?_
    rw [act, connectionDgramHandlerEvent, wp_bind, wp_deref]
    refine ⟨hopen.live, ?_⟩
    rw [wp_bind, wp_assert]
    refine ⟨hopen.closing, wp_mono (connectionClose_spec h hclient hcon) ?_⟩
    rintro _ t ⟨ht, hcloses⟩
    exact ⟨ht, hcloses.keeps⟩

/-- Between two calls the server has not failed. -/
structure WorldInv (o : ByteOrder) (options : Options) (w : World) : Prop where
  fault : w.fault = none
  state : Inv o options none w.state

theorem WorldInv.step {w w' : World} {l : Label} (h : WorldInv o options w)
    (hnext : next o options w l = some w') :
    WorldInv o options w' ∧ ClosingStep w.state l w'.state := by
  rw [next] at hnext
  obtain ⟨⟨-, henabled⟩, rfl⟩ := guard_eq_some.mp hnext
  obtain ⟨⟨_, t⟩, hrun, ht, hclosing⟩ := act_spec h.state henabled
  rw [hrun]
  exact ⟨⟨h.fault, ht⟩, hclosing⟩

theorem worldInv_of_reachable {w : World} (h : (system o options).Reachable w) :
    WorldInv o options w :=
  h.invariant ⟨rfl, Inv.initial⟩ fun _ _ _ hinv hnext => (hinv.step hnext).1

/-! ### The tables -/

/-- What the tables of a client promise. -/
structure ClientTables (options : Options) (s : State) (client : ℕ) : Prop where
  /-- The tree and the list hold the same connections, with different ids, and the number counts
  them. -/
  tree : (s.clients client).connectionsTree.Perm (s.clients client).connectionsList
  distinct : ((s.clients client).connectionsList.map s.conidOf).Nodup
  num : (s.clients client).numConnections = (s.clients client).connectionsList.length
  num_le : (s.clients client).numConnections ≤ options.maxConnectionsForClient
  /-- The list is in the order of last use. -/
  recent : (s.clients client).connectionsList.Pairwise (Recency.Before s.uses)
  /-- They are the connections of the client that are not closing, and the others are in the other
  list. -/
  opened : ∀ p, p ∈ (s.clients client).connectionsList ↔ (s.connections p).live = true ∧
    (s.connections p).client = client ∧ (s.connections p).closing = false
  closing : ∀ p, p ∈ (s.clients client).closingConnectionsList ↔ (s.connections p).live = true ∧
    (s.connections p).client = client ∧ (s.connections p).closing = true

/-- What is true of a connection that is closing. -/
structure ClosingTables (s : State) (con : ℕ) : Prop where
  /-- It is in no list but the one for closing connections. -/
  unlisted : ∀ client ∈ s.clientsList, con ∉ (s.clients client).connectionsList ∧
    con ∉ (s.clients client).connectionsTree
  listed : con ∈ (s.clientOf con).closingConnectionsList
  /-- Its UDP side was freed once, and its job is not set. -/
  udpFrees : (s.connections con).udpFrees = 1
  udp : (s.connections con).udp = false
  firstJob : (s.connections con).firstJob = false
  /-- It was not freed, and its flow is busy. -/
  frees : (s.connections con).frees = 0
  busy : (s.clientOf con).sendingFlow = some con

theorem Inv.clientTables (h : Inv o options going s) (hclient : client ∈ s.clientsList) :
    ClientTables options s client := by
  obtain ⟨hlisted, hclosings⟩ := h.clients client hclient
  have hnodup := hlisted.nodup
  exact {
    tree := (List.perm_ext_iff_of_nodup hlisted.ordered.nodup hnodup).mpr hlisted.tree
    distinct := by
      refine hnodup.map_on fun p hp q hq heq => ?_
      exact hlisted.ordered.inj ((hlisted.tree p).mpr hp) ((hlisted.tree q).mpr hq) heq
    num := hlisted.num
    num_le := by
      rw [hlisted.num]
      exact_mod_cast hlisted.num_le
    recent := Recency.pairwise_before hlisted.recent
    opened := by
      intro p
      refine ⟨fun hp => ?_, ?_⟩
      · have hopen := hlisted.opened p hp
        exact ⟨hopen.live, hopen.client, hopen.closing⟩
      · rintro ⟨hlive, rfl, hopen⟩
        refine (h.member p hlive).2.resolve_right fun hmem => ?_
        cases (hclosings.closing p hmem).1.closing.symm.trans hopen
    closing := by
      intro p
      refine ⟨fun hp => ?_, ?_⟩
      · have his := (hclosings.closing p hp).1
        exact ⟨his.live, his.client, his.closing⟩
      · rintro ⟨hlive, rfl, hclosing⟩
        refine (h.member p hlive).2.resolve_left fun hmem => ?_
        cases ((hlisted.opened p hmem).closing.symm.trans hclosing) }

theorem Inv.closingTables (h : Inv o options going s) (hlive : (s.connections con).live = true)
    (hclosing : (s.connections con).closing = true) : ClosingTables s con := by
  obtain ⟨client, hclient, hmem, his, hsending⟩ := h.isClosing hlive hclosing
  have hof := h.clientOf_eq hclient (.inr hmem)
  exact {
    unlisted := by
      intro d hd
      have hlisted := (h.clients d hd).listed
      have hnot : con ∉ (s.clients d).connectionsList := fun hlist =>
        nomatch ((hlisted.opened con hlist).closing.symm.trans hclosing)
      exact ⟨hnot, fun htree => hnot ((hlisted.tree con).mp htree)⟩
    listed := by
      rw [hof]
      exact hmem
    udpFrees := his.udpFrees
    udp := his.udp
    firstJob := his.firstJob
    frees := his.frees
    busy := by
      rw [hof]
      exact hsending }

/-- **The tables of the server are consistent in every run**, with any number of clients, for all
messages, datagrams and errors: no assertion fails; the tables of every client agree; every
connection that is closing waits for its packet, without a UDP side; whatever happens leaves it as
it is, until it is freed when the packet leaves or the client goes; and what was freed was freed
once, as was its UDP side. -/
theorem tables_consistent {w : World} (h : (system o options).Reachable w) :
    w.fault = none ∧
    (∀ client ∈ w.state.clientsList, ClientTables options w.state client) ∧
    (∀ p, (w.state.connections p).live = true → (w.state.connections p).closing = true →
      ClosingTables w.state p) ∧
    (∀ l w', next o options w l = some w' → ClosingStep w.state l w'.state) ∧
    (∀ p, (w.state.connections p).live = true →
      (w.state.connections p).client ∈ w.state.clientsList) ∧
    ∀ p < w.state.allocated, (w.state.connections p).live = false →
      (w.state.connections p).udpFrees = 1 ∧ (w.state.connections p).frees = 1 := by
  have hinv := worldInv_of_reachable h
  refine ⟨hinv.fault, fun client hclient => hinv.state.clientTables hclient,
    fun p hlive hclosing => hinv.state.closingTables hlive hclosing,
    fun l w' hnext => (hinv.step hnext).2, fun p hlive => (hinv.state.member p hlive).1,
    fun p hp hdead => ?_⟩
  have hfreed := hinv.state.freed p hp hdead
  exact ⟨hfreed.udpFrees, hfreed.frees⟩

/-! ### The local ports -/

/-- Two connections that must not have the same local port: those to the same remote address, or to
the same remote IP with the option `unique_local_ports`. -/
def SameRemote (options : Options) (addr addr' : BAddr) : Prop :=
  if options.uniqueLocalPorts = true then bAddrGetIPAddr addr = bAddrGetIPAddr addr'
  else addr = addr'

theorem sameRemote_iff {addr addr' : BAddr} (h : addr ≠ .none) :
    sameRemote options addr addr' = true ↔ SameRemote options addr addr' := by
  have hip : bAddrGetIPAddr addr ≠ .none := by
    cases addr with
    | none => exact absurd rfl h
    | ipv4 ip port | ipv6 ip port => exact nofun
  rw [sameRemote, SameRemote]
  split_ifs
  · simp [bipAddrCompare, hip]
  · simp [bAddrCompare, h]

theorem toNat_ofNat_mod (o : ByteOrder) (n : ℕ) : (Word16.ofNat o n).toNat o = n % 65536 := by
  cases o <;> simp only [Word16.toNat, Word16.ofNat, UInt8.toNat_ofNat'] <;> omega

/-- Different indices are different ports, as long as there are not more than there are numbers. -/
theorem localPort_ne {c c' : Connection} (htype : c.addr.type = c'.addr.type)
    (hnum : getLocalNumPorts options c.addr ≤ 65536)
    (h : 0 ≤ c.localPortIndex ∧ c.localPortIndex < getLocalNumPorts options c.addr)
    (h' : 0 ≤ c'.localPortIndex ∧ c'.localPortIndex < getLocalNumPorts options c'.addr)
    (hne : c.localPortIndex ≠ c'.localPortIndex) :
    localPort o options c ≠ localPort o options c' := by
  have hhton : Function.Injective (hton16 o) :=
    Function.LeftInverse.injective (g := hton16 o) (hton16_ntoh16 o)
  have hport : getLocalPort options c.addr = getLocalPort options c'.addr := by
    cases hc : c.addr <;> cases hc' : c'.addr <;> rw [hc, hc'] at htype <;>
      first | rfl | cases htype
  rw [← getLocalNumPorts_congr htype] at h'
  intro heq
  rw [localPort, localPort, hport] at heq
  have hvalue := congrArg (Word16.toNat o) (hhton heq)
  rw [toNat_ofNat_mod, toNat_ofNat_mod] at hvalue
  omega

theorem Inv.isLinked (h : Inv o options going s) (hcon : s.IsLinked con) :
    (s.connections con).udp = true := by
  obtain ⟨client, hclient, hmem⟩ := hcon
  exact ((h.clients client hclient).listed.opened con hmem).udp

/-- **Local ports are exclusive in every run.** The local port of an open connection is none, or
one of those configured; and two open connections, of the same client or not, do not have the same
one if they have the same remote address, or the same remote IP if the option asks for this. -/
theorem local_ports_exclusive {w : World} (h : (system o options).Reachable w)
    (hports : options.localUdpNumPorts ≤ 65536) (hports6 : options.localUdpIp6NumPorts ≤ 65536) :
    (∀ p, w.state.IsLinked p → IndexOk options (w.state.connections p)) ∧
    ∀ p q, w.state.IsLinked p → w.state.IsLinked q → p ≠ q →
      0 ≤ (w.state.connections p).localPortIndex → 0 ≤ (w.state.connections q).localPortIndex →
      SameRemote options (w.state.connections p).addr (w.state.connections q).addr →
      (w.state.connections p).localPortIndex ≠ (w.state.connections q).localPortIndex ∧
      localPort o options (w.state.connections p) ≠ localPort o options (w.state.connections q) := by
  have hinv := (worldInv_of_reachable h).state
  have hnum : ∀ addr, getLocalNumPorts options addr ≤ 65536 := by
    intro addr
    cases addr with
    | none => exact Int.ofNat_le.mpr (Nat.zero_le _)
    | ipv4 ip port => exact hports
    | ipv6 ip port => exact hports6
  have hrange : ∀ p, w.state.IsLinked p → 0 ≤ (w.state.connections p).localPortIndex →
      0 ≤ (w.state.connections p).localPortIndex ∧
        (w.state.connections p).localPortIndex
          < getLocalNumPorts options (w.state.connections p).addr := by
    intro p hp hnonneg
    rcases (hinv.fits p (hinv.isLinked hp)).index with hnone | hindex
    · omega
    · exact hindex
  refine ⟨fun p hp => (hinv.fits p (hinv.isLinked hp)).index, ?_⟩
  intro p q hp hq hpq hnonneg hnonneg' hsame
  have hfits := hinv.fits p (hinv.isLinked hp)
  have hremote := (sameRemote_iff hfits.addr).mpr hsame
  have hne := hfits.exclusive q hpq.symm (hinv.isLinked hq) hnonneg hremote
  refine ⟨hne, localPort_ne (type_eq_of_sameRemote hremote) (hnum _) ?_ ?_ hne⟩
  · exact hrange p hp hnonneg
  · exact hrange q hq hnonneg'

/-! ### Two clients -/

/-- Two local ports, and two connections for a client. -/
def exampleOptions : Options where
  udpMtu := 100
  maxClients := 2
  maxConnectionsForClient := 2
  max_pos := by decide
  localUdpNumPorts := 2
  localUdpIp6NumPorts := -1
  localUdpPort := ⟨4, 0⟩
  localUdpIp6Port := ⟨0, 0⟩
  uniqueLocalPorts := false

/-- Everything succeeds, at this time. -/
def allSucceed (time : ℤ) : Environment :=
  ⟨time, true, true, true, true, true, fun _ => true, true, true, true, .none⟩

/-- A message for the connection with this id to `10.0.0.1`, port 53. -/
def exampleMessage (conid : Byte) : List Byte :=
  packet .little 0 ⟨conid, 0⟩ (.ipv4 (.four 10 0 0 1) ⟨0, 53⟩) [1]

/-- A client whose packet is at the output asks for its connection to be opened anew. -/
theorem tables_consistent_rebind : ∃ w, (system .little exampleOptions).Reachable w ∧
    ((w.state.clients 0).connectionsList, (w.state.clients 0).closingConnectionsList) = ([1], [0]) ∧
    ClientTables exampleOptions w.state 0 ∧ ClosingTables w.state 0 := by
  obtain ⟨w, hw, hlists, hclient, hcon⟩ := (system .little exampleOptions).exists_of_run
    (fun w => ((w.state.clients 0).connectionsList,
        (w.state.clients 0).closingConnectionsList) = ([1], [0]) ∧
      0 ∈ w.state.clientsList ∧
      ((w.state.connections 0).live, (w.state.connections 0).closing) = (true, true))
    [.connect true,
      .message 0 (exampleMessage 7) (allSucceed 1),
      .firstJob 0 1,
      .udpArrives 0 2,
      .schedule 0,
      .message 0 (packet .little flagRebind ⟨7, 0⟩ (.ipv4 (.four 10 0 0 1) ⟨0, 53⟩) [2])
        (allSucceed 3)] (by decide +kernel)
  obtain ⟨hlive, hclosing⟩ := Prod.mk.inj hcon
  obtain ⟨-, htables, hclosings, -⟩ := tables_consistent hw
  exact ⟨w, hw, hlists, htables 0 hclient, hclosings 0 hlive hclosing⟩

/-- Two clients have a connection to the same address, and a third connection takes a port over. -/
theorem local_ports_exclusive_stolen : ∃ w, (system .little exampleOptions).Reachable w ∧
    ((w.state.clients 0).connectionsList, (w.state.clients 1).connectionsList) = ([], [1, 2]) ∧
    localPort .little exampleOptions (w.state.connections 1)
      ≠ localPort .little exampleOptions (w.state.connections 2) := by
  obtain ⟨w, hw, hlists, hclient, hsame, hindex⟩ :=
    (system .little exampleOptions).exists_of_run
      (fun w => ((w.state.clients 0).connectionsList,
          (w.state.clients 1).connectionsList) = ([], [1, 2]) ∧ 1 ∈ w.state.clientsList ∧
        (w.state.connections 1).addr = (w.state.connections 2).addr ∧
        0 ≤ (w.state.connections 1).localPortIndex ∧ 0 ≤ (w.state.connections 2).localPortIndex)
      [.connect true,
        .connect true,
        .message 0 (exampleMessage 7) (allSucceed 1),
        .message 1 (exampleMessage 7) (allSucceed 2),
        .message 1 (exampleMessage 8) (allSucceed 3)] (by decide +kernel)
  have hmem := (Prod.mk.inj hlists).2
  have hlinked : ∀ p ∈ [1, 2], w.state.IsLinked p := by
    intro p hp
    exact ⟨1, hclient, by rw [hmem]; exact hp⟩
  have hports := (local_ports_exclusive hw (by decide) (by decide)).2 1 2
    (hlinked 1 (by decide)) (hlinked 2 (by decide)) (by decide) hindex.1 hindex.2 hsame
  exact ⟨w, hw, hlists, hports.2⟩

end Tun2Socks.UdpGw.Gateway
