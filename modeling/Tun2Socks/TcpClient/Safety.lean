import Tun2Socks.TcpClient.System

/-!
# The invariant of the program

`WorldInv` holds in every state any run reaches. A step enters the program on behalf of one
connection, in a state that meets the invariant of the callbacks (`WorldInv.between`); the
specification of the callback brings it back to such a state, and `WorldInv.leave` carries
it to the whole program: the other connections are as they were, and so are the other
entries of `tcp_clients`.
-/

namespace Tun2Socks.TcpClient

open Framework

variable {P : Params}

/-! ### One connection -/

/-- What holds of an accepted connection while no function of its client runs. -/
structure ConnInv (c : Conn P) : Prop where
  books : Books c
  upstream : Upstream c
  downstream : Downstream c
  settled : Settled c
  dead : c.client.clientClosed = false → c.client.deadClient = none

/-- What is left of a connection that was refused. -/
structure RefusedInv (c : Conn P) : Prop where
  allocs : c.allocs ≤ 1
  frees : c.frees = c.allocs
  socks : c.socks = Socks.absent
  releases : c.pcb.releases = [⟨.lost, false⟩]

theorem Between.connInv {x : Context} {m : Machine P} (h : Between x m) (htop : x.nested = false) :
    ConnInv m.toConn where
  books := h.books
  upstream := h.upstream
  downstream := h.downstream
  settled := h.settled
  dead := by
    intro hopen
    have hdead := h.watched.deadClient hopen
    rw [htop] at hdead
    exact hdead

theorem RefusedInv.not_live {c : Conn P} (h : RefusedInv c) : ¬ c.Live := by
  intro ⟨hallocs, hfrees⟩
  have := h.frees
  omega

theorem Books.live_iff_frees {c : Conn P} (h : Books c) : c.Live ↔ c.frees = 0 := by
  rw [Conn.Live, h.allocs]
  exact ⟨fun h => h.2, fun h => ⟨rfl, h⟩⟩

/-! ### The whole program -/

/-- What a callback may have returned. -/
structure ReturnOk (r : Return) : Prop where
  room : r.callback = .recv → r.err ≠ .mem
  abrt : r.err = .abrt ↔ r.released = true

/-- The invariant of the program. -/
structure WorldInv (w : World P) : Prop where
  fault : w.fault = none
  count : w.numClients = w.tcpClients.length
  nodup : w.tcpClients.Nodup
  listed : ∀ i : ℕ, i ∈ w.tcpClients ↔ ∃ c ∈ w.conns[i]?, c.Live
  conns : ∀ i : ℕ, ∀ c ∈ w.conns[i]?, ConnInv c ∨ RefusedInv c
  returns : ∀ r ∈ w.returns, ReturnOk r

section Step

variable {w : World P} {i : ℕ} {c : Conn P}

theorem WorldInv.initial : WorldInv (system P).init where
  fault := rfl
  count := rfl
  nodup := List.nodup_nil
  listed := by simp [system]
  conns := by simp [system]
  returns := by simp [system]

/-- The program is entered in a state that the callbacks can start from. -/
theorem WorldInv.between (h : WorldInv w) (hc : w.conns[i]? = some c) (hconn : ConnInv c)
    (replies : List Reply) (jobs : List SocksEvent) :
    Between (w.context i) (w.machine i c replies jobs) where
  books := { hconn.books with }
  upstream := { hconn.upstream with }
  downstream := { hconn.downstream with }
  listed := {
    id := rfl
    count := h.count
    nodup := h.nodup
    listed := by
      change i ∈ w.tcpClients ↔ c.frees = 0
      rw [h.listed i, hc, ← hconn.books.live_iff_frees]
      simp
    others := fun _ _ => Iff.rfl }
  watched := ⟨rfl, hconn.dead⟩
  pbufFrees := rfl
  settled := { hconn.settled with }

variable {m : Machine P} {x : Context}

/-- **The rest of the program stays as it was** when one connection is brought to a state with
`ConnInv`. -/
theorem WorldInv.leave {conns : List (Conn P)}
    {returns : List Return} (h : WorldInv w) (hlist : x.tcpClients = w.tcpClients)
    (hm : Between x m) (htop : x.nested = false) (hself : conns[x.id]? = some m.toConn)
    (hothers : ∀ j, j ≠ x.id → conns[j]? = w.conns[j]?)
    (hreturns : ∀ r ∈ returns, ReturnOk r) :
    WorldInv { w with
      conns, tcpClients := m.tcpClients, numClients := m.numClients
      returns := w.returns ++ returns } where
  fault := h.fault
  count := hm.listed.count
  nodup := hm.listed.nodup
  listed := by
    intro j
    have hid := hm.listed.id
    by_cases hj : j = x.id
    · -- the client the callback was for
      change j ∈ m.tcpClients ↔ ∃ c ∈ conns[j]?, c.Live
      rw [hj, hself, ← hid, hm.listed.listed, ← hm.books.live_iff_frees]
      simp
    · -- any other one, which the callback left alone
      change j ∈ m.tcpClients ↔ ∃ c ∈ conns[j]?, c.Live
      rw [hothers j hj, ← h.listed j, ← hlist]
      exact hm.listed.others j (hid ▸ hj)
  conns := by
    intro j c hc
    by_cases hj : j = x.id
    · change c ∈ conns[j]? at hc
      rw [hj, hself] at hc
      obtain rfl := Option.mem_some.mp hc
      exact .inl (hm.connInv htop)
    · change c ∈ conns[j]? at hc
      rw [hothers j hj] at hc
      exact h.conns j c hc
  returns := by
    intro r hr
    obtain hold | hnew := List.mem_append.mp hr
    · exact h.returns r hold
    · exact hreturns r hnew

/-- The contexts of the entries on behalf of connection `i`. -/
structure Concerns (w : World P) (i : ℕ) (x : Context) : Prop where
  id : x.id = i
  tcpClients : x.tcpClients = w.tcpClients
  top : x.nested = false

theorem concerns_context : Concerns w i (w.context i) := ⟨rfl, rfl, rfl⟩

theorem concerns_freed : Concerns w i (w.context i).freed := ⟨rfl, rfl, rfl⟩

/-- The pcb is gone exactly when the client side is closed. -/
theorem Books.released_iff (h : Books c) :
    c.pcb.releases ≠ [] ↔ c.client.clientClosed = true := by
  have hlength := h.releases
  rw [← List.length_pos_iff_ne_nil, hlength]
  cases c.client.clientClosed <;> simp

theorem CallbackEnd.returnOk {err : ErrT} (callback : Callback)
    (h : CallbackEnd x err m) : ReturnOk ⟨callback, err, m.pcb.releases ≠ []⟩ := by
  obtain ⟨killed, rfl, hbetween, hkilled⟩ := h
  have hreleased := hbetween.books.released_iff
  rw [hkilled] at hreleased
  constructor
  · intro _
    cases killed <;> simp
  · refine Iff.trans ?_ (decide_eq_true_iff.trans hreleased).symm
    cases killed <;> simp

/-- A callback that ends well leaves the program well. -/
theorem WorldInv.leaveCallback {prog : M P ErrT} (h : WorldInv w)
    (hc : w.conns[i]? = some c) (callback : Callback)
    (hprog : wp prog (fun err m' => ∃ x, Concerns w i x ∧ CallbackEnd x err m') m) :
    WorldInv (w.leaveCallback i callback (prog.run m)) := by
  obtain ⟨⟨err, m'⟩, hrun, x, hx, hend⟩ := hprog
  rw [hrun]
  have hreturn := hend.returnOk callback
  obtain ⟨killed, -, hbetween, -⟩ := hend
  have hi : i < w.conns.length := (List.getElem?_eq_some_iff.mp hc).1
  refine h.leave hx.tcpClients hbetween hx.top ?_ (fun j hj => ?_) ?_
  · rw [hx.id, List.getElem?_set_self hi]
  · exact List.getElem?_set_ne (hx.id ▸ hj.symm)
  · simpa using hreturn

/-- The same for what returns nothing to lwIP. -/
theorem WorldInv.leaveHandler {prog : M P Unit} (h : WorldInv w)
    (hc : w.conns[i]? = some c)
    (hprog : wp prog (fun _ m' => ∃ x, Concerns w i x ∧ Between x m') m) :
    WorldInv (w.leaveHandler i (prog.run m)) := by
  obtain ⟨⟨_, m'⟩, hrun, x, hx, hbetween⟩ := hprog
  rw [hrun]
  have hi : i < w.conns.length := (List.getElem?_eq_some_iff.mp hc).1
  refine h.leave hx.tcpClients hbetween hx.top ?_ (fun j hj => ?_) (by simp)
  · rw [hx.id, List.getElem?_set_self hi]
  · exact List.getElem?_set_ne (hx.id ▸ hj.symm)

/-! ### Who can be called -/

/-- A connection that lwIP still has was accepted, and its client side is open. -/
theorem WorldInv.opened (h : WorldInv w) (hc : w.conns[i]? = some c)
    (hheld : c.pcb.releases = []) : ConnInv c ∧ c.client.clientClosed = false := by
  obtain hconn | hrefused := h.conns i c hc
  · refine ⟨hconn, eq_false_of_ne_true fun hclosed => ?_⟩
    exact hconn.books.released_iff.mpr hclosed hheld
  · cases hrefused.releases.symm.trans hheld

/-- A client that is allocated was accepted. -/
theorem WorldInv.connInv (h : WorldInv w) (hc : c ∈ w.conns) (hlive : c.Live) : ConnInv c := by
  obtain ⟨i, hi⟩ := List.mem_iff_getElem?.mp hc
  exact (h.conns i c hi).resolve_right fun hrefused => hrefused.not_live hlive

/-- A connection that SOCKS acts on was accepted. -/
theorem WorldInv.accepted {e : SocksEvent} (h : WorldInv w) (hc : w.conns[i]? = some c)
    (henabled : e.Enabled c) : ConnInv c := by
  refine (h.conns i c hc).resolve_right fun hrefused => ?_
  cases e <;> simp [SocksEvent.Enabled, hrefused.socks, Socks.absent] at henabled

/-- The bytes that are not credited are the bytes in the buffer. -/
theorem Upstream.window (h : Upstream c) (hopen : c.client.clientClosed = false) :
    c.pcb.credited + c.client.bufUsed = c.pcb.delivered.length := by
  rw [← h.stream, List.length_append, Buffer.length_take h.bound, h.credited hopen]

/-- While lwIP passes on what it receives, SOCKS is open. -/
theorem Settled.socks_open (h : Settled c) (hopen : c.client.clientClosed = false)
    (hfn : c.pcb.recvFn = true) : c.client.socksClosed = false := by
  obtain ⟨-, hrecv, -⟩ := h.callbacks hopen
  rw [hfn] at hrecv
  simpa using hrecv.symm

/-! ### The steps -/

/-- What an enabled step of a connection comes from. -/
theorem of_enabled {p : Conn P → Prop} [∀ c, Decidable (p c)] {f : Conn P → World P}
    {w' : World P}
    (h : ((w.conns[i]?).bind fun c => if p c then some (f c) else none) = some w') :
    ∃ c, w.conns[i]? = some c ∧ p c ∧ f c = w' := by
  obtain ⟨c, hc, heq⟩ := Option.bind_eq_some_iff.mp h
  obtain ⟨hp, heq⟩ := Option.ite_none_right_eq_some.mp heq
  exact ⟨c, hc, hp, Option.some.inj heq⟩

/-- The pcb is lost by lwIP. -/
theorem loseConn_spec (h : Between x m)
    (hopen : m.client.clientClosed = false) : wp loseConn (fun _ => Between x) m := by
  have hheld := h.books.pcb_held hopen
  simp only [loseConn, release, wp_bind, wp_get, wp_onPcb]
  rw [hheld]
  refine ⟨rfl, ?_⟩
  change wp clientErrFunc _ (m.released .lost m.pcb.errFn m.pcb.recvFn m.pcb.sentFn)
  exact wp_mono (clientErrFunc_spec h.toKept hopen) fun _ _ h => h.1

variable {replies : List Reply} {jobs : List SocksEvent}

/-- **lwIP delivers data or its end.** -/
theorem WorldInv.recv {p : Option (List Byte)}
    (h : WorldInv w) (hc : w.conns[i]? = some c) (hcan : c.CanRecv p) :
    WorldInv (w.leaveCallback i .recv ((clientRecvFunc p).run (w.machine i c replies jobs))) := by
  obtain ⟨hheld, hfn, hdata⟩ := hcan
  obtain ⟨hconn, hopen⟩ := h.opened hc hheld
  have hsocks := hconn.settled.socks_open hopen hfn
  have hbetween := h.between hc hconn replies jobs
  refine h.leaveCallback hc .recv ?_
  cases p with
  | none =>
    refine wp_mono (clientRecvFunc_none hbetween hopen hsocks) fun err m' hend => ?_
    exact ⟨_, concerns_context, true, hend.1, hend.2⟩
  | some data =>
    obtain ⟨hpos, hwindow⟩ := hdata data rfl
    -- what is not credited is in the buffer, so the window leaves room for the data
    have hwnd : c.client.bufUsed + data.length ≤ P.tcpWnd := by
      have := hconn.upstream.window hopen
      omega
    refine wp_mono (clientRecvFunc_some (S := fun _ => True) hbetween rfl hopen hsocks hpos
      hwnd (fun _ => trivial) fun hzero hup => ?_) ?_
    · have hcommit := hbetween.recvCommit hwnd hpos hsocks hzero hup
      exact wp_mono (runJobs_spec (hcommit.atCommit hopen rfl)) fun _ _ _ => trivial
    · rintro err m' ⟨killed, -, hend⟩
      cases killed with
      | true => exact ⟨_, concerns_context, true, hend⟩
      | false => exact ⟨_, concerns_freed, false, hend⟩

/-- **lwIP reports acknowledged data.** -/
theorem WorldInv.sent {len : ℕ} (h : WorldInv w)
    (hc : w.conns[i]? = some c) (hcan : c.CanSent len) :
    WorldInv (w.leaveCallback i .sent ((ackConn len).run (w.machine i c replies jobs))) := by
  obtain ⟨hheld, hfn, hpos, hacked⟩ := hcan
  obtain ⟨hconn, hopen⟩ := h.opened hc hheld
  -- the sent callback is set when SOCKS comes up
  have hup : c.client.socksUp = true := by
    obtain ⟨-, -, hsent⟩ := hconn.settled.callbacks hopen
    rw [← hsent, hfn]
  have hpending := hconn.downstream.pending hup
  refine h.leaveCallback hc .sent ?_
  simp only [ackConn, wp_bind, wp_modify]
  refine wp_mono (clientSentFunc_spec (h.between hc hconn replies jobs) rfl hopen hup hpos
    ?_) fun err m' hend => ⟨_, concerns_context, hend⟩
  change len ≤ c.client.socksRecvTcpPending
  omega

/-- **lwIP loses a pcb.** -/
theorem WorldInv.err (h : WorldInv w) (hc : w.conns[i]? = some c) (hcan : c.CanErr) :
    WorldInv (w.leaveHandler i (loseConn.run (w.machine i c [] []))) := by
  obtain ⟨hconn, hopen⟩ := h.opened hc hcan.1
  refine h.leaveHandler hc ?_
  exact wp_mono (loseConn_spec (h.between hc hconn [] []) hopen)
    fun _ _ h' => ⟨_, concerns_context, h'⟩

/-- **SOCKS acts.** -/
theorem WorldInv.socks {e : SocksEvent} (h : WorldInv w)
    (hc : w.conns[i]? = some c) (henabled : e.Enabled c) :
    WorldInv (w.leaveHandler i ((socksEvent e).run (w.machine i c replies []))) := by
  have hconn := h.accepted hc henabled
  have henabled' : e.Enabled (w.machine i c replies []).toConn := by
    cases e <;> exact henabled
  refine h.leaveHandler hc ?_
  exact wp_mono (socksEvent_spec (h.between hc hconn replies []) henabled')
    fun _ _ h' => ⟨_, concerns_context, h'⟩

/-- **A client that is left is murdered.** -/
theorem WorldInv.murder (h : WorldInv w) (hc : w.conns[i]? = some c) (hmem : i ∈ w.tcpClients) :
    WorldInv (w.leaveHandler i (clientMurder.run (w.machine i c [] []))) := by
  have hlive : c.Live := by
    obtain ⟨c', hc', hlive⟩ := (h.listed i).mp hmem
    rw [hc] at hc'
    exact Option.mem_some.mp hc' ▸ hlive
  have hconn := (h.conns i c hc).resolve_right fun hrefused => hrefused.not_live hlive
  refine h.leaveHandler hc ?_
  refine wp_mono (clientMurder_spec (h.between hc hconn [] []).toKept hlive) fun _ m' h' => ?_
  exact ⟨_, concerns_context, h'.returned.1⟩

/-- A connection that was refused changes nothing. -/
theorem WorldInv.refuse {returns : List Return} (h : WorldInv w)
    (hconn : RefusedInv m.toConn) (hlist : m.tcpClients = w.tcpClients)
    (hcount : m.numClients = w.tcpClients.length) (hreturns : ∀ r ∈ returns, ReturnOk r) :
    WorldInv { w with
      conns := w.conns ++ [m.toConn], tcpClients := m.tcpClients, numClients := m.numClients
      returns := w.returns ++ returns } where
  fault := h.fault
  count := by rw [hcount, hlist]
  nodup := hlist ▸ h.nodup
  listed := by
    intro j
    change j ∈ m.tcpClients ↔ ∃ c ∈ (w.conns ++ [m.toConn])[j]?, c.Live
    rw [hlist, h.listed j, List.getElem?_append]
    by_cases hj : j < w.conns.length
    · rw [if_pos hj]
    · rw [if_neg hj, List.getElem?_eq_none (by omega)]
      refine ⟨by simp, fun ⟨c, hc, hlive⟩ => ?_⟩
      obtain rfl := List.mem_singleton.mp (List.mem_of_getElem? hc)
      exact absurd hlive hconn.not_live
  conns := by
    intro j c hc
    change c ∈ (w.conns ++ [m.toConn])[j]? at hc
    rw [List.getElem?_append] at hc
    by_cases hj : j < w.conns.length
    · rw [if_pos hj] at hc
      exact h.conns j c hc
    · rw [if_neg hj] at hc
      obtain rfl := List.mem_singleton.mp (List.mem_of_getElem? hc)
      exact .inr hconn
  returns := by
    intro r hr
    obtain hold | hnew := List.mem_append.mp hr
    · exact h.returns r hold
    · exact hreturns r hnew

/-- The two ends of an accept. -/
def AcceptEnd (x : Context) (a : ErrT × Bool) (m : Machine P) : Prop :=
  (a = (.mem, false) ∧ RefusedInv m.toConn ∧ m.tcpClients = x.tcpClients ∧
    m.numClients = x.tcpClients.length) ∨
  (CallbackEnd x a.1 m ∧ a.2 = decide (m.pcb.releases ≠ []))

theorem acceptConn_spec {o : AcceptOutcome P}
    (hnodup : x.tcpClients.Nodup) (hnew : x.id ∉ x.tcpClients)
    (hpbuf : x.pbufFrees = 0) (htop : x.nested = false) :
    wp (acceptConn o) (AcceptEnd x) (Machine.fresh x o.junk replies jobs) := by
  simp only [acceptConn, wp_bind, wp_get, wp_modify, wp_pure]
  refine wp_mono (listenerAcceptFunc_spec hnodup hnew hpbuf htop) fun err m hend => ?_
  obtain ⟨rfl, hrefused⟩ | hend := hend
  · -- lwIP aborts what was refused
    refine .inl ⟨by rw [hrefused.releases]; rfl, ?_, hrefused.tcpClients,
      hrefused.numClients⟩
    refine ⟨hrefused.allocs, hrefused.frees, hrefused.socks, ?_⟩
    change m.pcb.releases ++ [⟨.lost, decide (m.socks.frees ≠ 0)⟩] = _
    rw [hrefused.releases, hrefused.socks]
    rfl
  · have hsame : afterAccept err m = m := by
      obtain ⟨killed, rfl, -⟩ := hend
      cases killed <;> rfl
    rw [hsame]
    exact .inr ⟨hend, rfl⟩

/-- **lwIP accepts a connection.** -/
theorem WorldInv.accept {o : AcceptOutcome P}
    (h : WorldInv w) :
    WorldInv (w.leave (fun c => w.conns ++ [c]) (fun a _ => [⟨.accept, a.1, a.2⟩])
      ((acceptConn o).run (w.machine w.conns.length (Conn.fresh o.junk) replies jobs))) := by
  have hnew : w.conns.length ∉ w.tcpClients := by
    rw [h.listed, List.getElem?_eq_none le_rfl]
    simp
  have hmachine : w.machine w.conns.length (Conn.fresh o.junk) replies jobs =
      Machine.fresh (w.context w.conns.length) o.junk replies jobs := by
    rw [World.machine, h.count]
    rfl
  rw [hmachine]
  obtain ⟨⟨⟨err, released⟩, m⟩, hrun, hend⟩ :
      wp (acceptConn o) (AcceptEnd (w.context w.conns.length)) _ :=
    acceptConn_spec h.nodup hnew rfl rfl
  rw [hrun]
  obtain ⟨ha, hrefused, hlist, hcount⟩ | ⟨hend, hreleased⟩ := hend
  · -- refused, with `ERR_MEM`
    obtain ⟨rfl, rfl⟩ := Prod.mk.inj ha
    refine h.refuse hrefused hlist hcount fun r hr => ?_
    obtain rfl := List.mem_singleton.mp hr
    exact ⟨by simp, by simp⟩
  · have hreturn := hend.returnOk .accept
    obtain ⟨killed, -, hbetween, -⟩ := hend
    refine h.leave rfl hbetween rfl ?_ (fun j hj => ?_) fun r hr => ?_
    · exact List.getElem?_concat_length
    · have hne : j ≠ w.conns.length := hj
      by_cases hlt : j < w.conns.length
      · exact List.getElem?_append_left hlt
      · have hle : (w.conns ++ [m.toConn]).length ≤ j := by
          rw [List.length_append, List.length_singleton]
          omega
        rw [List.getElem?_eq_none hle, List.getElem?_eq_none (by omega)]
    · obtain rfl := List.mem_singleton.mp hr
      change ReturnOk ⟨.accept, err, released⟩
      rw [show released = decide (m.pcb.releases ≠ []) from hreleased]
      exact hreturn

/-- **Every step keeps the invariant.** -/
theorem WorldInv.step {w' : World P} {l : Label P} (h : WorldInv w) (hnext : next w l = some w') :
    WorldInv w' := by
  cases l with
  | accept =>
    rw [next] at hnext
    obtain ⟨-, rfl⟩ := guard_eq_some.mp hnext
    exact h.accept
  | recv =>
    obtain ⟨c, hc, hcan, rfl⟩ := of_enabled hnext
    exact h.recv hc hcan.2
  | sent =>
    obtain ⟨c, hc, hcan, rfl⟩ := of_enabled hnext
    exact h.sent hc hcan.2
  | err =>
    obtain ⟨c, hc, hcan, rfl⟩ := of_enabled hnext
    exact h.err hc hcan.2
  | socks =>
    obtain ⟨c, hc, hcan, rfl⟩ := of_enabled hnext
    exact h.socks hc hcan.2
  | quit =>
    rw [next] at hnext
    obtain ⟨-, rfl⟩ := guard_eq_some.mp hnext
    exact { h with }
  | murder =>
    obtain ⟨-, heq⟩ := Option.ite_none_right_eq_some.mp hnext
    obtain ⟨i, hhead, heq⟩ := Option.bind_eq_some_iff.mp heq
    obtain ⟨c, hc, heq⟩ := Option.bind_eq_some_iff.mp heq
    cases heq
    exact h.murder hc (List.mem_of_mem_head? hhead)

/-- **The invariant holds in every reachable state.** -/
theorem worldInv_of_reachable (h : (system P).Reachable w) : WorldInv w :=
  h.invariant WorldInv.initial fun _ _ _ h hnext => h.step hnext

end Step

end Tun2Socks.TcpClient
