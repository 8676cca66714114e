import Tun2Socks.TcpClient.Invariant

/-!
# Teardown of a TCP client

Either side of a client can go first, and from inside the other side's callback:

* `client_free_client` closes the pcb, `client_abort_client` aborts it, and `client_err_func`
  hears that lwIP has lost it; all three end in `client_handle_freed_client`;
* `client_free_socks` frees the `BSocksClient`;
* whichever comes second frees the client, and each calls the other when its side has
  nothing left to wait for;
* `client_murder` does all of it at once.

Each function has one specification here. It starts from `Kept`, which holds in the middle
of a callback too, and says that the function runs without a fault, what it leaves, and
that it restores what holds between callbacks. The calls are at most `maxDepth` deep.
-/

namespace Tun2Socks.TcpClient

open Framework Machine

variable {P : Params}

/-! ### The states teardown goes through -/

namespace Machine

variable (m : Machine P)

/-- lwIP no longer has the pcb. -/
def released (kind : ReleaseKind) (errFn recvFn sentFn : Bool) : Machine P :=
  { m with pcb := { m.pcb with
    releases := [⟨kind, m.socks.frees ≠ 0⟩], errFn, recvFn, sentFn } }

/-- The frame that watches the client is told, and the client side is closed. -/
def clientDown : Machine P :=
  { m with
    frames := m.frames.map fun _ => true
    client := { m.client with clientClosed := true } }

/-- lwIP no longer passes on what it receives. -/
def stopRecv : Machine P := { m with pcb := { m.pcb with recvFn := false } }

/-- The `BSocksClient` is freed, and the SOCKS side is closed. -/
def socksDown : Machine P :=
  { m with
    socks := { m.socks with frees := m.socks.frees + 1, sendOp := none, recvOp := false }
    client := { m.client with socksClosed := true } }

/-- The client is out of the list and freed. -/
def dealloc : Machine P :=
  { m with
    numClients := m.numClients - 1
    tcpClients := m.tcpClients.erase m.id
    frees := m.frees + 1 }

end Machine

section Teardown

variable {x : Context} {m : Machine P} {Q : Unit → Machine P → Prop}

theorem wp_deadKill (hlive : m.Live) (h : Watched x m) (hopen : m.client.clientClosed = false) :
    wp deadKill Q m ↔ Q () { m with frames := m.frames.map fun _ => true } := by
  have hframes := h.frames
  have hdead := h.deadClient hopen
  rw [hopen] at hframes
  cases hnested : x.nested with
  | false =>
    -- no frame watches the client
    rw [hnested] at hframes hdead
    have heq : { m with frames := m.frames.map fun _ => true } = m := by
      cases m
      simp_all
    rw [heq]
    simp [deadKill, hdead, hlive]
  | true =>
    -- the one frame of `SYNC_COMMIT` is the one to tell
    rw [hnested] at hframes hdead
    simp [deadKill, hdead, hframes, hlive]

/-- `tcp_close` releases the pcb, or fails and leaves it in place. -/
theorem tcpClose_spec {Q : ErrT → Machine P → Prop} (hheld : m.pcb.releases = [])
    (hok : ∀ replies, Q .ok { m with
      replies, pcb := { m.pcb with releases := [⟨.closed, m.socks.frees ≠ 0⟩] } })
    (herr : ∀ err replies, err ≠ .ok → Q err { m with replies }) : wp tcpClose Q m := by
  simp only [tcpClose, wp_bind, wp_nextReply, wp_ite, release, wp_get, wp_onPcb, wp_pure]
  by_cases hreply : (m.replies.headD ⟨.ok, 0⟩).err = .ok
  · rw [if_pos hreply, hreply, hheld]
    exact ⟨rfl, hok _⟩
  · rw [if_neg hreply]
    exact ⟨hheld, herr _ _ hreply⟩

theorem wp_clientDealloc (hlive : m.Live) (hclient : m.client.clientClosed = true)
    (hsocks : m.client.socksClosed = true) (h : Listed x m) :
    wp clientDealloc Q m ↔ Q () m.dealloc := by
  have hmem : m.id ∈ m.tcpClients := h.listed.mpr hlive.2
  have hcount : 0 < m.numClients := by
    rw [h.count]
    exact List.length_pos_of_mem hmem
  simp [clientDealloc, dealloc, hlive, hclient, hsocks, hmem, hcount]

/-! ### What teardown keeps -/

variable {kind : ReleaseKind} {e f g : Bool}

theorem Kept.socksClosed_of_released {r : Release}
    (h : Kept x m) (hmem : r ∈ (m.released kind e f g).pcb.releases)
    (hafter : r.afterSocks = true) : m.client.socksClosed = true := by
  have hfrees := h.books.socksFrees
  obtain rfl := List.mem_singleton.mp hmem
  have hfreed : m.socks.frees ≠ 0 := of_decide_eq_true hafter
  rw [hfrees] at hfreed
  exact eq_true_of_ne_false fun hopen => hfreed (Bool.toNat_eq_zero.mpr hopen)

/-- The client side closes while SOCKS is open. -/
theorem Kept.clientDown (h : Kept x m) (kind : ReleaseKind) (e f g : Bool)
    (hopen : m.client.clientClosed = false) (hsocks : m.client.socksClosed = false) :
    Kept x (m.released kind e f g).clientDown where
  books := { h.books with
    frees := by simpa [Machine.clientDown, released, hopen, hsocks] using h.books.frees
    releases := rfl
    order := fun r hmem hafter => h.socksClosed_of_released hmem hafter }
  upstream := { h.upstream with credited := by simp [Machine.clientDown] }
  downstream := { h.downstream with
    closed := by
      -- SOCKS is still there, so this release does not count as one after it
      intro hmem
      have hclosed := h.socksClosed_of_released hmem rfl
      cases (hsocks.symm.trans hclosed) }
  listed := { h.listed with }
  watched := by
    -- a frame, if there is one, has been set together with `clientClosed`
    have hframes := h.watched.frames
    constructor
    · cases hnested : x.nested <;> simp_all [Machine.clientDown, released]
    · simp [Machine.clientDown]
  pbufFrees := h.pbufFrees

/-- The list after a client that was in it is gone. -/
theorem Listed.dealloc (h : Listed x m) (hlive : m.frees = 0) : Listed x m.dealloc := by
  have hmem : m.id ∈ m.tcpClients := h.listed.mpr hlive
  constructor
  · exact h.id
  · rw [Machine.dealloc, List.length_erase_of_mem hmem, h.count]
  · exact h.nodup.erase _
  · have hgone : m.id ∉ m.tcpClients.erase m.id := h.nodup.not_mem_erase
    simp [Machine.dealloc, hgone, hlive]
  · intro j hj
    rw [← h.others j hj]
    exact List.mem_erase_of_ne hj

theorem Kept.stopRecv (h : Kept x m) : Kept x m.stopRecv :=
  { h with
    books := { h.books with }
    upstream := { h.upstream with }
    downstream := { h.downstream with }
    listed := { h.listed with }
    watched := { h.watched with } }

/-- The SOCKS side closes while the client side is open. -/
theorem Kept.socksDown (h : Kept x m) (hopen : m.client.clientClosed = false)
    (hsocks : m.client.socksClosed = false) : Kept x m.socksDown where
  books := { h.books with
    frees := by simpa [Machine.socksDown, hopen] using h.books.frees
    socksFrees := by simp [Machine.socksDown, h.books.socksFrees, hsocks]
    order := fun _ _ _ => rfl }
  upstream := { h.upstream with
    sending := by simp [Machine.socksDown]
    covered := by simp [Machine.socksDown] }
  downstream := { h.downstream with receiving := by simp [Machine.socksDown] }
  listed := { h.listed with }
  watched := { h.watched with }
  pbufFrees := h.pbufFrees

/-- The SOCKS side closes after the client side, and the client is freed. -/
theorem Kept.socksDown_dealloc (h : Kept x m) (hclosed : m.client.clientClosed = true)
    (hsocks : m.client.socksClosed = false) : Kept x m.socksDown.dealloc where
  books := { h.books with
    frees := by simp [Machine.socksDown, dealloc, h.books.frees, hclosed, hsocks]
    socksFrees := by
      simp [Machine.socksDown, dealloc, h.books.socksFrees, hsocks]
    order := fun _ _ _ => rfl }
  upstream := { h.upstream with
    sending := by simp [Machine.socksDown, dealloc]
    covered := by simp [Machine.socksDown, dealloc] }
  downstream := { h.downstream with
    receiving := by simp [Machine.socksDown, dealloc] }
  listed := by
    have hlive : m.frees = 0 := by simpa [hsocks] using h.books.frees
    exact Listed.dealloc (m := m.socksDown) { h.listed with } hlive
  watched := { h.watched with }
  pbufFrees := h.pbufFrees

/-- The client side closes after the SOCKS side, and the client is freed. -/
theorem Kept.clientDown_dealloc (h : Kept x m)
    (hopen : m.client.clientClosed = false) (hsocks : m.client.socksClosed = true)
    (hdrained : kind = .closed → m.client.socksClosed = true → m.Drained) :
    Kept x (m.released kind e f g).clientDown.dealloc where
  books := { h.books with
    frees := by
      simp [Machine.clientDown, released, dealloc, h.books.frees, hopen, hsocks]
    releases := rfl
    order := fun r hmem hafter => h.socksClosed_of_released hmem hafter }
  upstream := { h.upstream with credited := by simp [Machine.clientDown, dealloc] }
  downstream := { h.downstream with
    closed := by
      intro hmem
      have heq := List.mem_singleton.mp hmem
      exact hdrained (congrArg Release.kind heq).symm (h.socksClosed_of_released hmem rfl) }
  listed := by
    have hlive : m.frees = 0 := by simpa [hopen] using h.books.frees
    exact Listed.dealloc (m := (m.released kind e f g).clientDown) { h.listed with } hlive
  watched := by
    have hframes := h.watched.frames
    constructor
    · cases hnested : x.nested <;>
        simp_all [Machine.clientDown, released, dealloc]
    · simp [Machine.clientDown, dealloc]
  pbufFrees := h.pbufFrees

/-- A client that is closed on both sides has nothing left to settle. -/
theorem Settled.of_gone {c : Conn P} (hclient : c.client.clientClosed = true)
    (hsocks : c.client.socksClosed = true) : Settled c := by
  constructor <;> simp [hclient, hsocks]

/-- Nothing buffered and nothing pending: every received byte is written and
acknowledged. -/
theorem Between.drained (h : Between x m) (hopen : m.client.clientClosed = false)
    (hleft : ¬ (m.client.socksRecvBufUsed ≠ none ∨ 0 < m.client.socksRecvTcpPending)) :
    m.Drained := by
  intro hup
  obtain ⟨hused, hpending⟩ := not_or.mp hleft
  have hunsent : m.unsent = [] := by simp [Conn.unsent, not_not.mp hused]
  have hstream := h.settled.stream hup hopen
  have hacked := h.downstream.pending hup
  rw [hunsent, List.append_nil] at hstream
  exact ⟨hstream, by omega⟩

/-! ### The teardown functions -/

/-- The invariant holds again, and the client side is closed or not. -/
def Returned (x : Context) (killed : Bool) (m : Machine P) : Prop :=
  Between x m ∧ m.client.clientClosed = killed

/-- What `client_dealloc` leaves: both sides are closed. -/
def Gone (x : Context) (m : Machine P) : Prop :=
  Kept x m ∧ m.client.clientClosed = true ∧ m.client.socksClosed = true

theorem Gone.returned (h : Gone x m) : Returned x true m := by
  obtain ⟨hkept, hclient, hsocks⟩ := h
  exact ⟨{ hkept with settled := Settled.of_gone hclient hsocks }, hclient⟩

/-- The client is freed after its `BSocksClient`. -/
theorem clientDealloc_socksDown (h : Kept x m) (hclosed : m.client.clientClosed = true)
    (hsocks : m.client.socksClosed = false) : wp clientDealloc (fun _ => Gone x) m.socksDown := by
  have hlive : m.Live := h.books.live_iff.mpr (.inr hsocks)
  refine (wp_clientDealloc (m := m.socksDown) (x := x) hlive hclosed rfl
    { h.listed with }).mpr ?_
  exact ⟨h.socksDown_dealloc hclosed hsocks, hclosed, rfl⟩

/-- The client is freed after its pcb. -/
theorem clientDealloc_clientDown (h : Kept x m)
    (hopen : m.client.clientClosed = false) (hsocks : m.client.socksClosed = true)
    (hdrained : kind = .closed → m.client.socksClosed = true → m.Drained) :
    wp clientDealloc (fun _ => Gone x) (m.released kind e f g).clientDown := by
  have hlive : m.Live := h.books.live_iff.mpr (.inl hopen)
  refine (wp_clientDealloc (m := (m.released kind e f g).clientDown) (x := x) hlive rfl hsocks
    { h.listed with }).mpr ?_
  exact ⟨h.clientDown_dealloc hopen hsocks hdrained, rfl, hsocks⟩

variable {d : ℕ}

/-- **SOCKS is freed after the client side**, and the client with it. -/
theorem clientFreeSocks_of_clientClosed (hdepth : 1 ≤ d) (h : Kept x m)
    (hclosed : m.client.clientClosed = true) (hsocks : m.client.socksClosed = false) :
    wp (clientFreeSocks d) (fun _ => Returned x true) m := by
  obtain ⟨k, rfl⟩ := Nat.exists_eq_add_of_le' hdepth
  have hlive : m.Live := h.books.live_iff.mpr (.inr hsocks)
  simp only [clientFreeSocks, wp_bind, wp_client, wp_assert, wp_ite, wp_pure, bSocksClientFree,
    wp_onSocks, wp_setClient]
  refine ⟨hlive, hsocks, ?_⟩
  -- there is no pcb whose callback could be removed
  rw [if_neg (by simp [hclosed])]
  refine ⟨h.books.socks_held hsocks, hlive, hlive, ?_⟩
  -- and nobody to send to
  rw [if_neg (by simp [hclosed]), if_neg (by simp [hclosed])]
  exact wp_mono (clientDealloc_socksDown h hclosed hsocks) fun _ _ h => h.returned

/-- **The pcb is gone.** The client stays for what it still has to send to SOCKS, and is
freed otherwise. -/
theorem clientHandleFreedClient_spec (hdepth : 2 ≤ d)
    (h : Kept x m) (hopen : m.client.clientClosed = false)
    (hdrained : kind = .closed → m.client.socksClosed = true → m.Drained) :
    wp (clientHandleFreedClient d) (fun _ => Returned x true) (m.released kind e f g) := by
  obtain ⟨k, rfl⟩ := Nat.exists_eq_add_of_le' hdepth
  have hlive : m.Live := h.books.live_iff.mpr (.inl hopen)
  have hwatched : Watched x (m.released kind e f g) := { h.watched with }
  simp only [clientHandleFreedClient, wp_bind, wp_client, wp_assert, wp_ite, wp_pure,
    wp_setClient]
  refine ⟨hlive, hopen, ?_⟩
  refine (wp_deadKill (m := m.released kind e f g) hlive hwatched hopen).mpr ?_
  refine ⟨hlive, hlive, ?_⟩
  change if 0 < m.client.bufUsed ∧ m.client.socksClosed = false
    then Returned x true (m.released kind e f g).clientDown
    else if m.client.socksClosed = false
      then wp (clientFreeSocks (k + 1)) (fun _ => Returned x true)
        (m.released kind e f g).clientDown
      else wp clientDealloc (fun _ => Returned x true) (m.released kind e f g).clientDown
  by_cases hsocks : m.client.socksClosed = false
  · have hkept := h.clientDown kind e f g hopen hsocks
    by_cases hused : 0 < m.client.bufUsed
    · -- the client stays until SOCKS has everything
      rw [if_pos ⟨hused, hsocks⟩]
      refine ⟨{ hkept with settled := ?_ }, rfl⟩
      constructor <;> simp [clientDown, released, hused, hsocks]
    · rw [if_neg (by simp [hused]), if_pos hsocks]
      exact clientFreeSocks_of_clientClosed (by omega) hkept rfl hsocks
  · -- SOCKS went first, and was waited for
    rw [if_neg (by simp [hsocks]), if_neg hsocks]
    have hsocks : m.client.socksClosed = true := by simpa using hsocks
    exact wp_mono (clientDealloc_clientDown h hopen hsocks hdrained) fun _ _ h => h.returned

/-- **The pcb is closed, or aborted if that fails.** -/
theorem clientFreeClient_spec (hdepth : 3 ≤ d) (h : Kept x m)
    (hopen : m.client.clientClosed = false)
    (hdrained : m.client.socksClosed = true → m.Drained) :
    wp (clientFreeClient d) (fun _ => Returned x true) m := by
  obtain ⟨k, rfl⟩ := Nat.exists_eq_add_of_le' hdepth
  have hlive : m.Live := h.books.live_iff.mpr (.inl hopen)
  have hreleases : m.pcb.releases = [] := h.books.pcb_held hopen
  simp only [clientFreeClient, wp_bind, wp_client, wp_assert, wp_ite, tcpErr, tcpRecv, tcpSent,
    wp_onPcb, tcpAbort, release, wp_get]
  refine ⟨hlive, hopen, hreleases, hreleases, hreleases, ?_⟩
  have hkept (replies : List Reply) : Kept x { m with replies } :=
    { h with listed := { h.listed with }, watched := { h.watched with } }
  -- either way the pcb is gone when the function returns
  have hgone (kind : ReleaseKind) (replies : List Reply) :
      wp (clientHandleFreedClient (k + 2)) (fun _ => Returned x true)
        ({ m with replies }.released kind false false false) :=
    clientHandleFreedClient_spec (by omega) (hkept replies) hopen fun _ => hdrained
  refine tcpClose_spec hreleases (fun replies => ?_) (fun err replies herr => ?_)
  · rw [if_pos rfl]
    exact hgone .closed replies
  · rw [if_neg herr, hreleases]
    exact ⟨rfl, hgone .aborted replies⟩

/-- **SOCKS is freed while the client side is open.** The client stays for what it still has
to write to the pcb; otherwise the pcb is closed with everything written and
acknowledged. -/
theorem clientFreeSocks_of_clientOpen (hdepth : 4 ≤ d) (h : Between x m)
    (hopen : m.client.clientClosed = false) (hsocks : m.client.socksClosed = false) :
    wp (clientFreeSocks d) (fun _ => Between x) m := by
  obtain ⟨k, rfl⟩ := Nat.exists_eq_add_of_le' hdepth
  have hlive : m.Live := h.books.live_iff.mpr (.inl hopen)
  have hreleases := h.books.pcb_held hopen
  simp only [clientFreeSocks, wp_bind, wp_client, wp_assert, wp_ite, wp_pure, bSocksClientFree,
    wp_onSocks, wp_setClient, tcpRecv, wp_onPcb]
  refine ⟨hlive, hsocks, ?_⟩
  by_cases hup : m.client.socksUp = true
  · rw [if_pos ⟨hup, hopen⟩]
    refine ⟨hreleases, h.books.socks_held hsocks, hlive, hlive, ?_⟩
    have hkept := (h.toKept.stopRecv).socksDown hopen hsocks
    obtain ⟨herr, hrecv, hsent⟩ := h.settled.callbacks hopen
    by_cases hleft : m.client.socksRecvBufUsed ≠ none ∨ 0 < m.client.socksRecvTcpPending
    · -- the client stays until the pcb has everything; it takes no more from it
      rw [if_pos ⟨hup, hleft, hopen⟩]
      exact { hkept with settled := { h.settled with
        callbacks := fun _ => ⟨herr, rfl, hsent⟩
        clientDown := fun _ h => absurd h (by simp)
        socksDown := fun _ _ => ⟨hup, hleft⟩
        receiving := fun _ _ h => absurd h (by simp) } }
    · rw [if_neg (by simp [hleft]), if_pos hopen]
      refine wp_mono (clientFreeClient_spec (by omega) hkept hopen fun _ => ?_)
        fun _ _ h => h.1
      exact h.drained hopen hleft
  · -- SOCKS never came up: nothing was received, and `Drained` says nothing
    rw [if_neg (by simp [hup])]
    refine ⟨h.books.socks_held hsocks, hlive, hlive, ?_⟩
    rw [if_neg (by simp [hup]), if_pos hopen]
    have hkept := h.toKept.socksDown hopen hsocks
    exact wp_mono (clientFreeClient_spec (by omega) hkept hopen fun _ h => absurd h hup)
      fun _ _ h => h.1

/-- **SOCKS is freed**, between two callbacks. -/
theorem clientFreeSocks_spec (h : Between x m) (hsocks : m.client.socksClosed = false) :
    wp (clientFreeSocks maxDepth) (fun _ => Between x) m := by
  by_cases hopen : m.client.clientClosed = false
  · exact clientFreeSocks_of_clientOpen (by decide) h hopen hsocks
  · have hclosed : m.client.clientClosed = true := by simpa using hopen
    exact wp_mono (clientFreeSocks_of_clientClosed (by decide) h.toKept hclosed hsocks)
      fun _ _ h => h.1

/-- **The pcb is aborted**, at any point of a callback. -/
theorem clientAbortClient_spec (h : Kept x m) (hopen : m.client.clientClosed = false) :
    wp clientAbortClient (fun _ => Returned x true) m := by
  have hlive : m.Live := h.books.live_iff.mpr (.inl hopen)
  have hreleases := h.books.pcb_held hopen
  simp only [clientAbortClient, wp_bind, wp_client, wp_assert, tcpErr, tcpRecv, tcpSent, wp_onPcb,
    tcpAbort, release, wp_get]
  refine ⟨hlive, hopen, hreleases, hreleases, hreleases, hreleases, ?_⟩
  rw [hreleases]
  change wp _ _ (m.released .aborted false false false)
  exact clientHandleFreedClient_spec (by decide) h hopen (by simp)

/-- **lwIP has lost the pcb.** -/
theorem clientErrFunc_spec (h : Kept x m)
    (hopen : m.client.clientClosed = false) :
    wp clientErrFunc (fun _ => Returned x true) (m.released .lost e f g) := by
  have hlive : m.Live := h.books.live_iff.mpr (.inl hopen)
  simp only [clientErrFunc, wp_bind, wp_client, wp_assert]
  exact ⟨hlive, hopen, clientHandleFreedClient_spec (by decide) h hopen (by simp)⟩

/-- **A client that is left is murdered**: its pcb is aborted, its `BSocksClient` and the
client are freed. -/
theorem clientMurder_spec (h : Kept x m) (hlive : m.Live) :
    wp clientMurder (fun _ => Gone x) m := by
  have hsides := h.books.live_iff.mp hlive
  simp only [clientMurder, wp_bind, wp_client, wp_ite, tcpErr, tcpRecv, tcpSent, wp_onPcb,
    tcpAbort, release, wp_get, bSocksClientFree, wp_onSocks, wp_setClient]
  refine ⟨hlive, ?_⟩
  by_cases hopen : m.client.clientClosed = false
  · have hreleases := h.books.pcb_held hopen
    rw [if_pos hopen]
    refine ⟨hreleases, hreleases, hreleases, hreleases, ?_⟩
    rw [hreleases]
    have hwatched : Watched x (m.released .aborted false false false) := { h.watched with }
    refine (wp_deadKill (m := m.released .aborted false false false) hlive hwatched
      hopen).mpr ?_
    refine ⟨hlive, hlive, ?_⟩
    by_cases hsocks : m.client.socksClosed = false
    · have hfrees : m.socks.frees = 0 := by simpa [hsocks] using h.books.socksFrees
      refine (if_pos hsocks).mpr ⟨h.books.socks_held hsocks, hlive, ?_⟩
      have hkept := h.clientDown .aborted false false false hopen hsocks
      exact clientDealloc_socksDown hkept rfl hsocks
    · have hclosed : m.client.socksClosed = true := by simpa using hsocks
      refine (if_neg hsocks).mpr ?_
      change wp _ _ (m.released .aborted false false false).clientDown
      exact clientDealloc_clientDown h hopen hclosed (by simp)
  · -- a client that is left has one open side at least
    have hclosed : m.client.clientClosed = true := by simpa using hopen
    have hsocks : m.client.socksClosed = false := hsides.resolve_left hopen
    rw [if_neg hopen, if_pos hsocks]
    exact ⟨hlive, h.books.socks_held hsocks, hlive, clientDealloc_socksDown h hclosed hsocks⟩

end Teardown

end Tun2Socks.TcpClient
