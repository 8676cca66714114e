import Tun2Socks.TcpClient.Teardown

/-!
# From the client to SOCKS

What lwIP delivers is appended to `buf` while a send drains its front. Three functions touch
the buffer, and each has its effect on a connection stated once:

* `Machine.bufAppend` — `client_recv_func` appends a payload, and starts a send if the buffer
  was empty and SOCKS is up;
* `Machine.sendDone` — `client_socks_send_handler_done` takes the bytes that were sent from the
  front, credits them to lwIP while the client is open, and sends what is left;
* `Machine.socksUp` — `client_socks_handler` starts both directions when SOCKS comes up.

The specifications of the two SOCKS events follow from these.
-/

namespace Tun2Socks.TcpClient

open Framework

variable {P : Params}

section Upstream

variable {x : Context} {m : Machine P} {Q : Unit → Machine P → Prop}

theorem wp_memmoveBuf {n k : ℕ} (h : n + k ≤ P.tcpWnd) :
    wp (memmoveBuf n k) Q m ↔
      m.Live ∧ Q () { m with client := { m.client with buf := m.client.buf.shift n k h } } := by
  rw [memmoveBuf, dif_pos h, wp_setClient]

theorem clientSendToSocks_spec (hlive : m.Live) (hsocks : m.client.socksClosed = false)
    (hup : m.client.socksUp = true) (hused : 0 < m.client.bufUsed)
    (hidle : m.socks.sendOp = none) (hheld : m.socks.inits = 1 ∧ m.socks.frees = 0)
    (h : Q () { m with
      socks := { m.socks with sendOp := some (m.client.buf.take m.client.bufUsed) } }) :
    wp clientSendToSocks Q m := by
  simp only [clientSendToSocks, senderSend, wp_bind, wp_client, wp_assert, wp_get, wp_ensure,
    wp_onSocks]
  exact ⟨hlive, hsocks, hup, hused, hlive, hidle, hused, hheld, h⟩

theorem clientSocksRecvInitiate_spec (hlive : m.Live) (hopen : m.client.clientClosed = false)
    (hsocks : m.client.socksClosed = false) (hup : m.client.socksUp = true)
    (hused : m.client.socksRecvBufUsed = none) (hidle : m.socks.recvOp = false)
    (hheld : m.socks.inits = 1 ∧ m.socks.frees = 0)
    (h : Q () { m with socks := { m.socks with recvOp := true } }) :
    wp clientSocksRecvInitiate Q m := by
  simp only [clientSocksRecvInitiate, receiverRecv, wp_bind, wp_client, wp_assert, wp_get,
    wp_ensure, wp_onSocks]
  exact ⟨hlive, hopen, hsocks, hup, hused, hidle, hheld, h⟩

/-- A send that is started now covers what is in the buffer. -/
theorem prefix_of_mem_ite {p : Prop} [Decidable p] {buf snap : List Byte}
    (h : snap ∈ if p then some buf else none) : snap <+: buf := by
  by_cases hp : p
  · rw [if_pos hp] at h
    exact Option.mem_some.mp h ▸ List.prefix_rfl
  · rw [if_neg hp] at h
    cases h

/-! ### A completed send -/

/-- SOCKS has accepted the first `n` bytes of the buffer; `op` is the send that follows. -/
def Machine.sendDone (m : Machine P) (n : ℕ) (h : n + (m.client.bufUsed - n) ≤ P.tcpWnd)
    (op : Option (List Byte)) (credited : ℕ) : Machine P :=
  { m with
    client := { m.client with
      buf := m.client.buf.shift n (m.client.bufUsed - n) h
      bufUsed := m.client.bufUsed - n }
    socks := { m.socks with
      sendOp := op
      accepted := m.socks.accepted ++ m.client.buf.take n }
    pcb := { m.pcb with credited } }

variable {n credited : ℕ} {op : Option (List Byte)}

/-- The first bytes of the buffer move from its front to the end of what was accepted. -/
theorem Upstream.sendDone {c : Conn P} (h : Upstream c) (hn : n ≤ c.client.bufUsed)
    (hwnd : n + (c.client.bufUsed - n) ≤ P.tcpWnd) :
    (c.socks.accepted ++ c.client.buf.take n) ++
      (c.client.buf.shift n (c.client.bufUsed - n) hwnd).take (c.client.bufUsed - n) =
    c.pcb.delivered := by
  have htake : c.client.buf.take n = (c.client.buf.take c.client.bufUsed).take n := by
    rw [Buffer.take, Buffer.take, List.take_take, Nat.min_eq_left hn]
  rw [Buffer.take_shift, Nat.add_sub_cancel' hn, htake, List.append_assoc,
    List.take_append_drop, h.stream]

theorem Kept.sendDone (h : Kept x m) (hn : n ≤ m.client.bufUsed)
    (hwnd : n + (m.client.bufUsed - n) ≤ P.tcpWnd)
    (hop : op = if 0 < m.client.bufUsed - n
      then some ((m.client.buf.shift n (m.client.bufUsed - n) hwnd).take (m.client.bufUsed - n))
      else none)
    (hsending : m.client.socksUp = true ∧ m.client.socksClosed = false)
    (hcredited : m.client.clientClosed = false → credited = m.pcb.credited + n) :
    Kept x (m.sendDone n hwnd op credited) where
  books := { h.books with }
  upstream := by
    have hbound := h.upstream.bound
    constructor
    · exact le_trans (Nat.sub_le _ _) hbound
    · exact h.upstream.sendDone hn hwnd
    · -- lwIP is credited with exactly what SOCKS has accepted
      intro hopen
      have hbefore := h.upstream.credited hopen
      change credited = (m.socks.accepted ++ m.client.buf.take n).length
      rw [List.length_append, Buffer.length_take (le_trans hn hbound), ← hbefore,
        hcredited hopen]
    · change op ≠ none ↔ m.client.socksUp = true ∧ m.client.socksClosed = false ∧
        0 < m.client.bufUsed - n
      rw [hop]
      by_cases hleft : 0 < m.client.bufUsed - n <;> simp [hleft, hsending]
    · intro snap hsnap
      change snap ∈ op at hsnap
      rw [hop] at hsnap
      exact prefix_of_mem_ite hsnap
  downstream := { h.downstream with }
  listed := { h.listed with }
  watched := { h.watched with }
  pbufFrees := h.pbufFrees

/-- **A send completes** with any number of its bytes: what is left is sent next, and a
client whose other side is closed goes when nothing is left. -/
theorem socksEvent_sendDone (h : Between x m)
    (henabled : (SocksEvent.sendDone n).Enabled m.toConn) :
    wp (socksEvent (.sendDone n)) (fun _ => Between x) m := by
  obtain ⟨hpos, snap, hsnap, hlen⟩ := henabled
  have hsending : m.socks.sendOp ≠ none := fun hnone => by simp [hnone] at hsnap
  obtain ⟨hup, hsocks, hused⟩ := h.upstream.sending.mp hsending
  have hbound := h.upstream.bound
  -- the send covers the front of the buffer, so no more than the buffer can be accepted
  have hn : n ≤ m.client.bufUsed := by
    have hprefix := (h.upstream.covered snap hsnap).length_le
    rw [Buffer.length_take hbound] at hprefix
    omega
  have hwnd : n + (m.client.bufUsed - n) ≤ P.tcpWnd := by omega
  have hlive : m.Live := h.books.live_iff.mpr (.inr hsocks)
  simp only [socksEvent, clientSocksSendHandlerDone, wp_bind, wp_client, wp_modify, wp_assert,
    wp_ite, wp_pure, wp_memmoveBuf hwnd, wp_setClient, tcpRecved, wp_onPcb, senderSend, wp_get,
    wp_ensure, wp_onSocks]
  refine ⟨hlive, hlive, hsocks, hup, hused, hpos, hn, hlive, hlive, ?_⟩
  have hkept := fun credited (hcredited : m.client.clientClosed = false →
    credited = m.pcb.credited + n) => h.toKept.sendDone hn hwnd rfl ⟨hup, hsocks⟩ hcredited
  have hheld := h.books.socks_held hsocks
  by_cases hleft : 0 < m.client.bufUsed - n
  · -- what is left is sent next
    have hbetween := fun credited hcredited => (
      { hkept credited hcredited with
        settled := { h.settled with clientDown := fun _ _ => hleft } } : Between x _)
    rw [if_pos hleft] at hbetween
    by_cases hopen : m.client.clientClosed = false
    · rw [if_pos hopen, if_pos hleft]
      exact ⟨h.books.pcb_held hopen, hlive, hlive, trivial, hleft, hheld,
        hbetween _ fun _ => rfl⟩
    · rw [if_neg hopen, if_pos hleft]
      exact ⟨hlive, hlive, trivial, hleft, hheld, hbetween _ fun h => absurd h hopen⟩
  · rw [if_neg hleft] at hkept
    by_cases hopen : m.client.clientClosed = false
    · -- the next send starts when lwIP delivers more
      rw [if_pos hopen, if_neg hleft, if_neg (by simp [hopen])]
      refine ⟨h.books.pcb_held hopen, hlive, ?_⟩
      exact { hkept _ fun _ => rfl with
        settled := { h.settled with clientDown := fun h _ => by simp [hopen] at h } }
    · -- the client was closed and nothing is left for SOCKS
      have hclosed : m.client.clientClosed = true := by simpa using hopen
      rw [if_neg hopen, if_neg hleft, if_pos hclosed]
      refine ⟨hlive, wp_mono (clientFreeSocks_of_clientClosed (by decide)
        (hkept _ fun h => absurd h hopen) hclosed hsocks) fun _ _ h => h.1⟩

/-! ### Data from lwIP -/

/-- The payload `p` is appended to the buffer; `op` is the send under way after it. -/
def Machine.bufAppend (m : Machine P) (p : List Byte) (h : m.client.bufUsed + p.length ≤ P.tcpWnd)
    (op : Option (List Byte)) : Machine P :=
  { m with
    client := { m.client with
      buf := m.client.buf.write m.client.bufUsed p h
      bufUsed := m.client.bufUsed + p.length }
    socks := { m.socks with sendOp := op }
    pcb := { m.pcb with delivered := m.pcb.delivered ++ p } }

/-- A send is started if the buffer was empty; one that is under way covers the front of the
buffer, which the append leaves alone. -/
theorem Kept.bufAppend {p : List Byte} (h : Kept x m)
    (hwnd : m.client.bufUsed + p.length ≤ P.tcpWnd) (hpos : 0 < p.length)
    (hsocks : m.client.socksClosed = false)
    (hop : op = if m.client.bufUsed + p.length = p.length ∧ m.client.socksUp = true
      then some ((m.client.buf.write m.client.bufUsed p hwnd).take (m.client.bufUsed + p.length))
      else m.socks.sendOp) :
    Kept x (m.bufAppend p hwnd op) where
  books := { h.books with }
  upstream := by
    have htake := Buffer.take_write m.client.buf hwnd rfl
    have hsending := h.upstream.sending
    constructor
    · exact hwnd
    · change m.socks.accepted ++ (m.client.buf.write m.client.bufUsed p hwnd).take
        (m.client.bufUsed + p.length) = m.pcb.delivered ++ p
      rw [htake, ← List.append_assoc, h.upstream.stream]
    · exact h.upstream.credited
    · change op ≠ none ↔ m.client.socksUp = true ∧ m.client.socksClosed = false ∧
        0 < m.client.bufUsed + p.length
      rw [hop]
      by_cases hstart : m.client.bufUsed + p.length = p.length ∧ m.client.socksUp = true
      · simp [hstart, hsocks, hpos]
      · -- with SOCKS up and data in the buffer, a send was under way already
        rw [if_neg hstart, hsending]
        have hused : m.client.socksUp = true → 0 < m.client.bufUsed := fun hup =>
          Nat.pos_of_ne_zero fun hzero => hstart ⟨by omega, hup⟩
        exact ⟨fun ⟨hup, hopen, _⟩ => ⟨hup, hopen, by omega⟩,
          fun ⟨hup, hopen, _⟩ => ⟨hup, hopen, hused hup⟩⟩
    · intro snap hsnap
      change snap ∈ op at hsnap
      rw [hop] at hsnap
      by_cases hstart : m.client.bufUsed + p.length = p.length ∧ m.client.socksUp = true
      · rw [if_pos hstart] at hsnap
        obtain rfl := Option.mem_some.mp hsnap
        exact List.prefix_rfl
      · rw [if_neg hstart] at hsnap
        change snap <+: (m.client.buf.write m.client.bufUsed p hwnd).take
          (m.client.bufUsed + p.length)
        rw [htake]
        exact (h.upstream.covered snap hsnap).trans (List.prefix_append _ _)
  downstream := { h.downstream with }
  listed := { h.listed with }
  watched := { h.watched with }
  pbufFrees := h.pbufFrees

/-! ### SOCKS comes up -/

/-- SOCKS is up, and both directions are started. -/
def Machine.socksUp (m : Machine P) (sentFn : Bool) (op : Option (List Byte)) (recvOp : Bool) :
    Machine P :=
  { m with
    client := { m.client with
      socksRecvBufUsed := none, socksRecvTcpPending := 0, socksUp := true }
    socks := { m.socks with up := true, sendOp := op, recvOp }
    pcb := { m.pcb with sentFn } }

theorem Kept.socksUp {sentFn recvOp : Bool} (h : Kept x m) (hup : m.client.socksUp = false)
    (hsocks : m.client.socksClosed = false)
    (hop : op = if 0 < m.client.bufUsed then some (m.client.buf.take m.client.bufUsed)
      else none) :
    Kept x (m.socksUp sentFn op recvOp) where
  books := { h.books with up := rfl }
  upstream := { h.upstream with
    sending := by
      change op ≠ none ↔ true = true ∧ m.client.socksClosed = false ∧ 0 < m.client.bufUsed
      rw [hop]
      by_cases hused : 0 < m.client.bufUsed <;> simp [hused, hsocks]
    covered := by
      intro snap hsnap
      change snap ∈ op at hsnap
      rw [hop] at hsnap
      exact prefix_of_mem_ite hsnap }
  downstream := by
    -- nothing has gone to the client yet, so the counters start at zero
    obtain ⟨hwritten, hacked, hreceived⟩ := h.downstream.idle hup
    constructor
    · intro hup'
      exact absurd hup' (by simp [Machine.socksUp])
    · intro _
      exact ⟨rfl, hsocks, rfl⟩
    · exact h.downstream.written
    · intro _
      simp [Machine.socksUp, hacked, hwritten]
    · intro _ _
      exact ⟨hreceived.trans hwritten.symm, by rw [Machine.socksUp, hacked, hwritten]; rfl⟩
  listed := { h.listed with }
  watched := { h.watched with }
  pbufFrees := h.pbufFrees

/-- **SOCKS comes up**: what the client has sent so far is sent, and receiving starts unless
the client is closed. -/
theorem socksEvent_up (h : Between x m) (henabled : SocksEvent.up.Enabled m.toConn) :
    wp (socksEvent .up) (fun _ => Between x) m := by
  obtain ⟨-, hfrees, hdown⟩ := henabled
  have hsocks : m.client.socksClosed = false := h.books.socks_open hfrees
  have hup : m.client.socksUp = false := h.books.up ▸ hdown
  have hheld := h.books.socks_held hsocks
  have hlive : m.Live := h.books.live_iff.mpr (.inr hsocks)
  have hidle : m.socks.sendOp = none := by simpa [hup] using h.upstream.sending
  have hrecv : m.socks.recvOp = false := by simpa [hup] using h.downstream.receiving
  obtain ⟨hwritten, hacked, hreceived⟩ := h.downstream.idle hup
  have hbetween : ∀ sentFn recvOp,
      (m.client.clientClosed = false → sentFn = true ∧ recvOp = true) →
      Between x (m.socksUp sentFn (if 0 < m.client.bufUsed
        then some (m.client.buf.take m.client.bufUsed) else none) recvOp) := by
    intro sentFn recvOp hstarted
    refine { h.toKept.socksUp hup hsocks rfl with settled := ?_ }
    constructor
    · intro hopen
      obtain ⟨herr, hrecv, -⟩ := h.settled.callbacks hopen
      exact ⟨herr, hrecv, (hstarted hopen).1⟩
    · exact h.settled.clientDown
    · intro hclosed
      cases hsocks.symm.trans hclosed
    · intro _ _
      simp [Machine.socksUp, Conn.unsent, hreceived, hwritten]
    · simp [Machine.socksUp]
    · simp [Machine.socksUp, hreceived]
    · exact fun _ hopen _ _ => (hstarted hopen).2
  simp only [socksEvent, clientSocksUp, wp_bind, wp_modify, wp_client, wp_assert, wp_setClient,
    wp_ite, wp_pure, tcpSent, wp_onPcb]
  refine ⟨hlive, hsocks, hlive, hup, hlive, ?_⟩
  by_cases hused : 0 < m.client.bufUsed
  · -- the client has sent something while SOCKS was connecting
    rw [if_pos hused] at hbetween
    by_cases hopen : m.client.clientClosed = false
    · rw [if_pos hopen, if_pos hused]
      refine ⟨h.books.pcb_held hopen, hlive, ?_⟩
      refine clientSendToSocks_spec hlive hsocks rfl hused hidle hheld ?_
      rw [if_pos hopen]
      exact clientSocksRecvInitiate_spec hlive hopen hsocks rfl rfl hrecv hheld
        (hbetween _ _ fun _ => ⟨rfl, rfl⟩)
    · rw [if_neg hopen, if_pos hused]
      refine ⟨hlive, clientSendToSocks_spec hlive hsocks rfl hused hidle hheld ?_⟩
      rw [if_neg hopen]
      exact hbetween _ _ fun h => absurd h hopen
  · rw [if_neg hused] at hbetween
    rw [← hidle] at hbetween
    by_cases hopen : m.client.clientClosed = false
    · rw [if_pos hopen, if_neg hused, if_pos hopen]
      refine ⟨h.books.pcb_held hopen, hlive, ?_⟩
      exact clientSocksRecvInitiate_spec hlive hopen hsocks rfl rfl hrecv hheld
        (hbetween _ _ fun _ => ⟨rfl, rfl⟩)
    · rw [if_neg hopen, if_neg hused, if_neg hopen]
      exact ⟨hlive, hbetween _ _ fun h => absurd h hopen⟩

end Upstream

end Tun2Socks.TcpClient
