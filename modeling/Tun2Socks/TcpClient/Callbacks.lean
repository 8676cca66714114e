import Tun2Socks.TcpClient.Downstream

/-!
# The callbacks of a TCP client

Every entry into the client has one specification: started between two callbacks it runs
without a fault and ends between two callbacks, whatever SOCKS and lwIP do meanwhile.

* `socksEvent_spec` — the events of SOCKS, and with it `runJobs_spec` for the jobs of a
  `SYNC_COMMIT`;
* `syncCommitDead_spec` — the dead variable: the callback is told exactly when the jobs took
  the pcb away;
* `clientRecvFunc_some`, `clientRecvFunc_none`, `clientSentFunc_spec` and
  `listenerAcceptFunc_spec` — the callbacks of lwIP, with what they return.
-/

namespace Tun2Socks.TcpClient

open Framework Machine

variable {P : Params}

section Callbacks

variable {x : Context} {m : Machine P}

/-! ### SOCKS events -/

/-- **Every event of SOCKS** is handled without a fault, from any state between two callbacks
and back to such a state. -/
theorem socksEvent_spec {e : SocksEvent} (h : Between x m) (henabled : e.Enabled m.toConn) :
    wp (socksEvent e) (fun _ => Between x) m := by
  cases e with
  | up => exact socksEvent_up h henabled
  | error =>
    have hsocks := h.books.socks_open henabled.2
    have hlive : m.Live := h.books.live_iff.mpr (.inr hsocks)
    simp only [socksEvent, wp_bind, wp_client, wp_assert]
    exact ⟨hlive, hsocks, clientFreeSocks_spec h hsocks⟩
  | closed =>
    have hsocks := h.books.socks_open henabled.2.1
    have hlive : m.Live := h.books.live_iff.mpr (.inr hsocks)
    have hup : m.client.socksUp = true := h.books.up ▸ henabled.2.2
    simp only [socksEvent, wp_bind, wp_client, wp_assert]
    exact ⟨hlive, hsocks, hlive, hup, clientFreeSocks_spec h hsocks⟩
  | sendDone => exact socksEvent_sendDone h henabled
  | recvDone => exact socksEvent_recvDone h henabled

/-- The jobs that `SYNC_COMMIT` runs. -/
theorem runJobs_spec {es : List SocksEvent} (h : Between x m) :
    wp (runJobs es) (fun _ => Between x) m := by
  -- by induction on the jobs: each one ends in a state the next one can start from
  induction es generalizing m with
  | nil => exact (wp_pure ..).mpr h
  | cons e _ ih =>
    simp only [runJobs, wp_bind, wp_get, wp_ite]
    by_cases henabled : e.Enabled m.toConn
    · rw [if_pos henabled]
      exact wp_mono (socksEvent_spec h henabled) fun _ _ h' => ih h'
    · -- a job whose object is gone by now does not run
      rw [if_neg henabled]
      exact ih h

/-! ### `SYNC_COMMIT` -/

/-- The context inside `DEAD_ENTER`. -/
def Context.enter (x : Context) : Context := { x with nested := true }

/-- The state in which `SYNC_COMMIT` runs its jobs. -/
def Machine.atCommit (m : Machine P) : Machine P :=
  { m with
    frames := m.frames ++ [false]
    client := { m.client with deadClient := some m.frames.length }
    jobs := [] }

theorem Between.atCommit (h : Between x m) (hopen : m.client.clientClosed = false)
    (htop : x.nested = false) : Between x.enter m.atCommit := by
  have hframes := h.watched.frames
  rw [htop, if_neg Bool.false_ne_true] at hframes
  exact { h with
    books := { h.books with }
    upstream := { h.upstream with }
    downstream := { h.downstream with }
    listed := { h.listed with }
    watched := {
      frames := by
        change m.frames ++ [false] = [m.client.clientClosed]
        rw [hframes, hopen]
        rfl
      deadClient := by
        intro _
        change some m.frames.length = some 0
        rw [hframes]
        rfl }
    settled := { h.settled with } }

/-- `DEAD_LEAVE2` leaves the only frame there is. -/
theorem deadLeave2_spec (h : Between x.enter m) (htop : x.nested = false) :
    wp (deadLeave2 none) (fun killed m' => Returned x killed m' ∧
      killed = m.client.clientClosed) m := by
  have hframes : m.frames = [m.client.clientClosed] := h.watched.frames
  have hleft : ∀ deadClient, (m.client.clientClosed = false → deadClient = none) →
      Between x { m with frames := [], client := { m.client with deadClient } } := by
    intro deadClient hnone
    exact { h with
      books := { h.books with }
      upstream := { h.upstream with }
      downstream := { h.downstream with }
      listed := { h.listed with }
      watched := {
        frames := by rw [htop]; rfl
        deadClient := by rw [htop]; exact hnone }
      settled := { h.settled with } }
  simp only [deadLeave2, wp_bind, wp_get, wp_modify, wp_ite, wp_pure, wp_setClient]
  rw [hframes]
  change if m.client.clientClosed = true then _ else _
  by_cases hkilled : m.client.clientClosed = true
  · -- the client may be freed: `DEAD_LEAVE2` does not touch it
    rw [if_pos hkilled]
    exact ⟨⟨hleft _ fun hopen => absurd (hkilled.symm.trans hopen) (by simp), rfl⟩, rfl⟩
  · rw [if_neg hkilled]
    have hopen : m.client.clientClosed = false := by simpa using hkilled
    exact ⟨h.books.live_iff.mpr (.inl hopen), ⟨hleft none fun _ => rfl, rfl⟩, rfl⟩

/-- **The dead variable is right**: `DEAD_KILLED` tells whether the jobs took the pcb away, and
what holds between callbacks holds again. The last hypothesis is anything else that is known
of the jobs. -/
theorem syncCommitDead_spec {S : Bool → Prop} (h : Between x m)
    (hopen : m.client.clientClosed = false) (htop : x.nested = false)
    (hjobs : wp (runJobs m.jobs) (fun _ m' => S m'.client.clientClosed) m.atCommit) :
    wp syncCommitDead (fun killed m' => Returned x killed m' ∧ S killed) m := by
  have hlive : m.Live := h.books.live_iff.mpr (.inl hopen)
  have hdead := h.watched.deadClient hopen
  rw [htop, if_neg Bool.false_ne_true] at hdead
  simp only [syncCommitDead, deadEnter, syncCommit, wp_bind, wp_client, wp_get, wp_modify,
    wp_setClient, wp_pure]
  refine ⟨hlive, hlive, ?_⟩
  refine wp_mono (wp_and (runJobs_spec (h.atCommit hopen htop)) hjobs) fun _ m' h' => ?_
  rw [hdead]
  -- the frame says `killed` exactly when the client side is closed
  refine wp_mono (deadLeave2_spec h'.1 htop) fun killed m'' h'' => ⟨h''.1, ?_⟩
  rw [h''.2]
  exact h'.2

/-- The two ends of a callback, by what it returns. -/
def CallbackEnd (x : Context) (err : ErrT) (m : Machine P) : Prop :=
  ∃ killed, err = (if killed = true then .abrt else .ok) ∧ Returned x killed m

/-- A callback that returns `ERR_ABRT` or `ERR_OK` after its `SYNC_COMMIT`, whatever the
jobs. -/
theorem syncCommitDead_end (h : Returned x false m) (htop : x.nested = false) :
    wp syncCommitDead (fun killed m' =>
      if killed = true then CallbackEnd x .abrt m' else CallbackEnd x .ok m') m := by
  obtain ⟨h, hopen⟩ := h
  have hjobs : wp (runJobs m.jobs) (fun _ _ => True) m.atCommit :=
    wp_mono (runJobs_spec (h.atCommit hopen htop)) fun _ _ _ => trivial
  refine wp_mono (syncCommitDead_spec (S := fun _ => True) h hopen htop hjobs) ?_
  rintro killed m' ⟨hreturned, -⟩
  cases killed with
  | true =>
    rw [if_pos rfl]
    exact ⟨true, rfl, hreturned⟩
  | false =>
    rw [if_neg Bool.false_ne_true]
    exact ⟨false, rfl, hreturned⟩

/-! ### `client_recv_func` -/

/-- The context after `pbuf_free`. -/
def Context.freed (x : Context) : Context := { x with pbufFrees := x.pbufFrees + 1 }

/-- The two ends of `client_recv_func` with data it has room for. -/
def RecvEnd (x : Context) : Bool → ErrT → Machine P → Prop
  | false, err, m => err = .ok ∧ Returned x.freed false m
  | true, err, m => err = .abrt ∧ Returned x true m

/-- The state in which `client_recv_func` reaches its `SYNC_COMMIT`. -/
def Machine.recvCommit (m : Machine P) (p : List Byte)
    (h : m.client.bufUsed + p.length ≤ P.tcpWnd) : Machine P :=
  m.bufAppend p h
    (some ((m.client.buf.write m.client.bufUsed p h).take (m.client.bufUsed + p.length)))

theorem wp_pbufCopyPartial {p : List Byte} {offset : ℕ} {Q : Unit → Machine P → Prop}
    (h : offset + p.length ≤ P.tcpWnd) :
    wp (pbufCopyPartial p offset) Q m ↔ m.Live ∧ Q () { m with
      client := { m.client with buf := m.client.buf.write offset p h }
      pcb := { m.pcb with delivered := m.pcb.delivered ++ p } } := by
  rw [pbufCopyPartial, dif_pos h]
  simp only [wp_bind, wp_setClient, wp_modify]

theorem Between.bufAppend {p : List Byte} {op : Option (List Byte)} (h : Between x m)
    (hwnd : m.client.bufUsed + p.length ≤ P.tcpWnd) (hpos : 0 < p.length)
    (hsocks : m.client.socksClosed = false)
    (hop : op = if m.client.bufUsed + p.length = p.length ∧ m.client.socksUp = true
      then some ((m.client.buf.write m.client.bufUsed p hwnd).take (m.client.bufUsed + p.length))
      else m.socks.sendOp) : Between x (m.bufAppend p hwnd op) :=
  { h.toKept.bufAppend hwnd hpos hsocks hop with
    settled := { h.settled with
      clientDown := fun _ _ => Nat.lt_of_lt_of_le hpos (Nat.le_add_left _ _) } }

theorem Between.recvCommit {p : List Byte} (h : Between x m)
    (hwnd : m.client.bufUsed + p.length ≤ P.tcpWnd) (hpos : 0 < p.length)
    (hsocks : m.client.socksClosed = false) (hzero : m.client.bufUsed = 0)
    (hup : m.client.socksUp = true) : Between x (m.recvCommit p hwnd) :=
  h.bufAppend hwnd hpos hsocks (if_pos ⟨by omega, hup⟩).symm

/-- The pbuf is freed, on the way out. -/
theorem Returned.freed (h : Between x m) (hopen : m.client.clientClosed = false) :
    Returned x.freed false { m with pbufFrees := m.pbufFrees + 1 } :=
  ⟨{ h with
    books := { h.books with }
    upstream := { h.upstream with }
    downstream := { h.downstream with }
    listed := { h.listed with }
    watched := { h.watched with }
    pbufFrees := congrArg (· + 1) h.pbufFrees
    settled := { h.settled with } }, hopen⟩

/-- **Data from lwIP** that fits is accepted. The callback returns `ERR_ABRT` if the jobs of
its `SYNC_COMMIT` take the pcb away, and `ERR_OK` with the pbuf freed otherwise. -/
theorem clientRecvFunc_some {p : List Byte} {S : Bool → Prop} (h : Between x m)
    (htop : x.nested = false) (hopen : m.client.clientClosed = false)
    (hsocks : m.client.socksClosed = false) (hpos : 0 < p.length)
    (hwnd : m.client.bufUsed + p.length ≤ P.tcpWnd)
    (hwait : ¬ (m.client.bufUsed = 0 ∧ m.client.socksUp = true) → S false)
    (hjobs : m.client.bufUsed = 0 → m.client.socksUp = true →
      wp (runJobs m.jobs) (fun _ m' => S m'.client.clientClosed) (m.recvCommit p hwnd).atCommit) :
    wp (clientRecvFunc (some p)) (fun err m' => ∃ killed, S killed ∧ RecvEnd x killed err m')
      m := by
  have hlive : m.Live := h.books.live_iff.mpr (.inl hopen)
  simp only [clientRecvFunc, wp_bind, wp_client, wp_assert, wp_ite, wp_pure,
    wp_pbufCopyPartial hwnd, wp_setClient, pbufFree, wp_modify]
  refine ⟨hlive, hopen, hpos, ?_⟩
  rw [if_neg (by omega)]
  refine ⟨hlive, hlive, hlive, ?_⟩
  by_cases hstart : m.client.bufUsed + p.length = p.length ∧ m.client.socksUp = true
  · -- nothing was in the buffer: the send is started here
    rw [if_pos hstart]
    obtain ⟨hempty, hup⟩ := hstart
    have hzero : m.client.bufUsed = 0 := by omega
    have hbetween := h.recvCommit hwnd hpos hsocks hzero hup
    have hidle : m.socks.sendOp = none := by simpa [hzero] using h.upstream.sending
    refine ⟨hsocks, clientSendToSocks_spec hlive hsocks hup (by simpa using .inr hpos)
      hidle (h.books.socks_held hsocks) ?_⟩
    refine wp_mono (syncCommitDead_spec hbetween hopen htop (hjobs hzero hup)) ?_
    rintro killed m' ⟨hreturned, hS⟩
    cases killed with
    | true =>
      rw [if_pos rfl]
      exact ⟨true, hS, rfl, hreturned⟩
    | false =>
      rw [if_neg Bool.false_ne_true]
      exact ⟨false, hS, rfl, Returned.freed hreturned.1 hreturned.2⟩
  · -- a send is under way, or SOCKS is not up: no jobs run
    rw [if_neg hstart]
    have hbetween := h.bufAppend hwnd hpos hsocks (if_neg hstart).symm
    refine ⟨false, hwait fun hnow => hstart ⟨by omega, hnow.2⟩, rfl, ?_⟩
    exact Returned.freed hbetween hopen

/-- **The client closes its side.** -/
theorem clientRecvFunc_none (h : Between x m) (hopen : m.client.clientClosed = false)
    (hsocks : m.client.socksClosed = false) :
    wp (clientRecvFunc none) (fun err m' => err = .abrt ∧ Returned x true m') m := by
  have hlive : m.Live := h.books.live_iff.mpr (.inl hopen)
  simp only [clientRecvFunc, wp_bind, wp_client, wp_assert, wp_pure]
  refine ⟨hlive, hopen, wp_mono (clientFreeClient_spec (by decide) h.toKept hopen ?_)
    fun _ _ h => ⟨trivial, h⟩⟩
  exact fun hclosed => absurd (hsocks.symm.trans hclosed) (by decide)

/-! ### `client_sent_func` -/

/-- lwIP reports `len` more bytes as acknowledged. -/
def Machine.acked (m : Machine P) (len : ℕ) : Machine P :=
  { m with pcb := { m.pcb with acked := m.pcb.acked + len } }

/-- The acknowledged bytes are no longer pending. -/
def Machine.confirmed (m : Machine P) (len : ℕ) : Machine P :=
  { m.acked len with
    client := { m.client with socksRecvTcpPending := m.client.socksRecvTcpPending - len } }

variable {len : ℕ}

theorem Kept.confirmed (h : Kept x m) (hopen : m.client.clientClosed = false)
    (hup : m.client.socksUp = true) (hlen : len ≤ m.client.socksRecvTcpPending) :
    Kept x (m.confirmed len) :=
  { h with
    books := { h.books with }
    upstream := { h.upstream with }
    downstream := { h.downstream with
      idle := fun hdown => nomatch (hup.symm.trans hdown)
      pending := by
        intro _
        have hpending := h.downstream.pending hup
        change m.client.socksRecvTcpPending - len + (m.pcb.acked + len) = m.pcb.written.length
        omega
      closed := by
        intro hmem
        change _ ∈ m.pcb.releases at hmem
        rw [h.books.pcb_held hopen] at hmem
        cases hmem }
    listed := { h.listed with }
    watched := { h.watched with } }

/-- Some of what was received waits for the sent callback. -/
theorem Between.resumeWriting {used : ℕ} (h : Between x m) (hopen : m.client.clientClosed = false)
    (hup : m.client.socksUp = true) (hlen : len ≤ m.client.socksRecvTcpPending)
    (hused : m.client.socksRecvBufUsed = some used) :
    Writing x used m.client.socksClosed
      { m.confirmed len with
        client := { (m.confirmed len).client with socksRecvWaiting := false } } := by
  have hkept := h.toKept.confirmed hopen hup hlen
  have hstream := h.settled.stream hup hopen
  have hcallbacks := h.settled.callbacks hopen
  obtain ⟨hsent, hsize, -⟩ := h.settled.buffered hup hopen used (by rw [hused]; rfl)
  rw [Conn.unsent, hused] at hstream
  rw [hup] at hcallbacks
  exact {
    books := { hkept.books with }
    upstream := { hkept.upstream with }
    downstream := { hkept.downstream with }
    listed := { hkept.listed with }
    watched := { hkept.watched with }
    pbufFrees := hkept.pbufFrees
    opened := hopen
    up := hup
    socks := rfl
    buffered := hused
    sent := le_of_lt hsent
    size := hsize
    waiting := rfl
    stream := hstream
    callbacks := hcallbacks
    idle := by
      -- a receive is under way only with nothing buffered
      refine eq_false_of_ne_true fun hop => ?_
      have hnone := (h.downstream.receiving hop).2.2
      rw [hused] at hnone
      cases hnone }

/-- Nothing waits, and there is a reason to stay. -/
theorem Between.confirmed (h : Between x m) (hopen : m.client.clientClosed = false)
    (hup : m.client.socksUp = true) (hlen : len ≤ m.client.socksRecvTcpPending)
    (hstay : m.client.socksClosed = true → 0 < m.client.socksRecvTcpPending - len) :
    Between x (m.confirmed len) :=
  { h.toKept.confirmed hopen hup hlen with
    settled := { h.settled with
      socksDown := fun hclosed _ => ⟨hup, .inr (hstay hclosed)⟩ } }

/-- **Acknowledged data**: what waits is written on, and a client whose SOCKS side is closed
goes when everything is written and acknowledged. -/
theorem clientSentFunc_spec (h : Between x m) (htop : x.nested = false)
    (hopen : m.client.clientClosed = false) (hup : m.client.socksUp = true) (hpos : 0 < len)
    (hlen : len ≤ m.client.socksRecvTcpPending) :
    wp (clientSentFunc len) (CallbackEnd x) (m.acked len) := by
  have hlive : m.Live := h.books.live_iff.mpr (.inl hopen)
  simp only [clientSentFunc, acked, wp_bind, wp_client, wp_assert, wp_ite, wp_pure,
    wp_setClient]
  refine ⟨hlive, hopen, hup, hpos, hlen, hlive, ?_⟩
  by_cases hwaits : 0 < m.client.socksRecvBufUsed.getD 0
  · -- there is room at lwIP again
    rw [if_pos hwaits]
    obtain ⟨used, hused⟩ : ∃ used, m.client.socksRecvBufUsed = some used :=
      Option.ne_none_iff_exists'.mp fun hnone => by simp [hnone] at hwaits
    obtain ⟨hsent, -, hwaiting⟩ := h.settled.buffered hup hopen used (by rw [hused]; rfl)
    have hwriting := h.resumeWriting hopen hup hlen hused
    refine ⟨hwaiting, by rw [hused]; exact hsent, hlive, ?_⟩
    refine wp_mono (clientSocksRecvSendOut_spec hwriting hsent) fun ok m' hend => ?_
    cases ok with
    | false =>
      rw [if_pos rfl]
      exact ⟨true, rfl, hend⟩
    | true =>
      have hend : SentOut x m.client.socksClosed m' := hend
      rw [if_neg (by simp)]
      refine ⟨hend.live, hend.pending, ?_⟩
      by_cases hask : m'.client.socksRecvBufUsed = none ∧ m'.client.socksClosed = false
      · -- asking for more runs jobs, which may take the pcb away
        rw [if_pos hask]
        rw [← hend.socks, hask.2] at hend
        exact wp_mono (hend.initiate hask.1) fun _ _ h' => syncCommitDead_end h' htop
      · rw [if_neg hask]
        have hbetween := hend.settled fun hnow =>
          hask ⟨hnow.1, hend.socks.trans hnow.2⟩
        exact ⟨false, rfl, hbetween, hend.opened⟩
  · -- nothing waits, since what is buffered is never empty
    rw [if_neg hwaits]
    have hnone : m.client.socksRecvBufUsed = none := by
      cases hused : m.client.socksRecvBufUsed with
      | none => rfl
      | some used =>
        obtain ⟨hsent, -, -⟩ := h.settled.buffered hup hopen used (by rw [hused]; rfl)
        rw [hused, Option.getD_some] at hwaits
        omega
    refine ⟨hlive, ?_⟩
    by_cases hlast : m.client.socksClosed = true ∧ m.client.socksRecvTcpPending - len = 0
    · rw [if_pos hlast]
      refine wp_mono (clientFreeClient_spec (by decide) (h.toKept.confirmed hopen hup hlen)
        hopen fun _ _ => ?_) fun _ _ h => ⟨true, rfl, h⟩
      -- everything that was received is written and acknowledged
      have hstream := h.settled.stream hup hopen
      have hpending := h.downstream.pending hup
      rw [Conn.unsent, hnone, List.append_nil] at hstream
      refine ⟨hstream, ?_⟩
      change m.pcb.acked + len = m.pcb.written.length
      omega
    · rw [if_neg hlast]
      refine ⟨false, rfl, h.confirmed hopen hup hlen fun hclosed => ?_, hopen⟩
      exact Nat.pos_of_ne_zero fun hzero => hlast ⟨hclosed, hzero⟩

/-! ### `listener_accept_func` -/

/-- No `BSocksClient` yet. -/
def Socks.absent : Socks := ⟨0, 0, false, none, false, [], []⟩

/-- A connection before `listener_accept_func`: only lwIP knows of it. -/
def Conn.fresh (junk : Client P) : Conn P where
  client := junk
  allocs := 0
  frees := 0
  pcb := ⟨[], false, false, false, [], 0, [], 0⟩
  socks := Socks.absent
  pbufFrees := 0

/-- The state in which `listener_accept_func` is called. -/
def Machine.fresh (x : Context) (junk : Client P) (replies : List Reply)
    (jobs : List SocksEvent) : Machine P :=
  { Conn.fresh junk with
    id := x.id
    numClients := x.tcpClients.length
    tcpClients := x.tcpClients
    frames := []
    replies
    jobs }

/-- The accept failed: nothing is left of the client, and it was never listed. -/
structure Refused (x : Context) (m : Machine P) : Prop where
  allocs : m.allocs ≤ 1
  frees : m.frees = m.allocs
  socks : m.socks = Socks.absent
  releases : m.pcb.releases = []
  tcpClients : m.tcpClients = x.tcpClients
  numClients : m.numClients = x.tcpClients.length

/-- The state in which `listener_accept_func` reaches its `SYNC_COMMIT`. -/
def Machine.accepted (x : Context) (junk : Client P) (replies : List Reply)
    (jobs : List SocksEvent) : Machine P :=
  { fresh x junk replies jobs with
    client := { junk with
      deadClient := none, clientClosed := false, bufUsed := 0, socksUp := false
      socksClosed := false }
    allocs := 1
    pcb := ⟨[], true, true, false, [], 0, [], 0⟩
    socks := ⟨1, 0, false, none, false, [], []⟩
    numClients := x.tcpClients.length + 1
    tcpClients := x.tcpClients ++ [x.id] }

/-- A client that was just accepted has nothing behind it. -/
theorem Returned.accepted (junk : Client P) (replies : List Reply) (jobs : List SocksEvent)
    (hnodup : x.tcpClients.Nodup) (hnew : x.id ∉ x.tcpClients) (hpbuf : x.pbufFrees = 0)
    (htop : x.nested = false) : Returned x false (accepted x junk replies jobs) := by
  refine ⟨{
    books := ⟨rfl, rfl, rfl, rfl, rfl, by simp [Machine.accepted], rfl⟩
    upstream := ⟨Nat.zero_le _, rfl, fun _ => rfl, by simp [Machine.accepted],
      by simp [Machine.accepted]⟩
    downstream := ⟨fun _ => ⟨rfl, rfl, rfl⟩, by simp [Machine.accepted], List.prefix_rfl,
      by simp [Machine.accepted], by simp [Machine.accepted]⟩
    listed := ?_
    watched := ⟨by rw [htop]; rfl, fun _ => by rw [htop]; rfl⟩
    pbufFrees := hpbuf.symm
    settled := by constructor <;> simp [Machine.accepted] }, rfl⟩
  refine ⟨rfl, ?_, ?_, ?_, ?_⟩
  · simp [Machine.accepted]
  · exact List.Nodup.append hnodup (List.nodup_singleton _) (by simpa using hnew)
  · simp [Machine.accepted, fresh, Conn.fresh]
  · intro j hj
    change j ∈ x.tcpClients ++ [x.id] ↔ j ∈ x.tcpClients
    have hne : j ≠ x.id := hj
    simp [hne]

/-- **A connection is accepted**, or refused with nothing left behind. -/
theorem listenerAcceptFunc_spec {o : AcceptOutcome P} {replies : List Reply}
    {jobs : List SocksEvent} (hnodup : x.tcpClients.Nodup) (hnew : x.id ∉ x.tcpClients)
    (hpbuf : x.pbufFrees = 0) (htop : x.nested = false) :
    wp (listenerAcceptFunc o) (fun err m' => (err = .mem ∧ Refused x m') ∨ CallbackEnd x err m')
      (fresh x o.junk replies jobs) := by
  simp only [listenerAcceptFunc, wp_bind, wp_ite, wp_pure, wp_modify, wp_freeClient, wp_setClient,
    tcpErr, tcpRecv, wp_onPcb]
  by_cases hmalloc : o.malloc = false
  · rw [if_pos hmalloc]
    exact .inl ⟨trivial, Nat.zero_le _, rfl, rfl, rfl, rfl, rfl⟩
  · rw [if_neg hmalloc]
    by_cases hfail : o.concatStrings = false ∨ o.socksInit = false
    · -- the structure is freed again
      rw [if_pos hfail]
      exact ⟨⟨rfl, rfl⟩, .inl ⟨trivial, le_rfl, rfl, rfl, rfl, rfl, rfl⟩⟩
    · rw [if_neg hfail]
      refine ⟨⟨rfl, rfl⟩, ⟨rfl, rfl⟩, rfl, rfl, ⟨rfl, rfl⟩, ⟨rfl, rfl⟩, ?_⟩
      have haccepted := Returned.accepted o.junk replies jobs hnodup hnew hpbuf htop
      refine wp_mono (syncCommitDead_end haccepted htop) fun killed m' hend => ?_
      cases killed with
      | true | false => exact .inr hend

end Callbacks

end Tun2Socks.TcpClient
