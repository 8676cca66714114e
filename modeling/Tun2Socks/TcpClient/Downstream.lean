import Tun2Socks.TcpClient.Upstream

/-!
# From SOCKS to the client

What SOCKS delivers is kept in `socks_recv_buf` until all of it is written to the pcb:

* `Writing` is the state of a callback that is writing: the bytes received are the bytes
  written followed by the rest of the buffer;
* the loop of `client_socks_recv_send_out` keeps it, whatever lwIP answers;
* the function ends with everything written, or with the sent callback to wait for
  (`SentOut`), or with the client aborted.

The next receive is started only when the buffer is empty.
-/

namespace Tun2Socks.TcpClient

open Framework

variable {P : Params}

/-! ### What lwIP answers -/

section Replies

variable {m : Machine P}

theorem tcpSndbuf_spec {Q : ℕ → Machine P → Prop} (hheld : m.pcb.releases = [])
    (h : ∀ n replies, Q n { m with replies }) : wp tcpSndbuf Q m := by
  simp only [tcpSndbuf, wp_bind, wp_onPcb, wp_nextReply, wp_pure]
  exact ⟨hheld, h _ _⟩

theorem tcpWrite_spec {data : List Byte} {Q : ErrT → Machine P → Prop}
    (hheld : m.pcb.releases = [])
    (hok : ∀ replies, Q .ok { m with
      replies, pcb := { m.pcb with written := m.pcb.written ++ data } })
    (herr : ∀ err replies, err ≠ .ok → Q err { m with replies }) : wp (tcpWrite data) Q m := by
  simp only [tcpWrite, wp_bind, wp_nextReply, wp_onPcb, wp_pure]
  refine ⟨hheld, ?_⟩
  by_cases hreply : (m.replies.headD ⟨.ok, 0⟩).err = .ok
  · rw [if_pos hreply, hreply]
    exact hok _
  · rw [if_neg hreply]
    exact herr _ _ hreply

theorem tcpOutput_spec {Q : ErrT → Machine P → Prop} (hheld : m.pcb.releases = [])
    (h : ∀ err replies, Q err { m with replies }) : wp tcpOutput Q m := by
  simp only [tcpOutput, wp_bind, wp_onPcb, wp_nextReply, wp_pure]
  exact ⟨hheld, h _ _⟩

end Replies

/-! ### The write loop -/

/-- A callback is writing the received bytes to the pcb: `used` of them are buffered, and
those before `socks_recv_buf_sent` are written; `gone` tells whether SOCKS is closed. -/
structure Writing (x : Context) (used : ℕ) (gone : Bool) (m : Machine P) :
    Prop extends Kept x m where
  opened : m.client.clientClosed = false
  up : m.client.socksUp = true
  socks : m.client.socksClosed = gone
  buffered : m.client.socksRecvBufUsed = some used
  sent : m.client.socksRecvBufSent ≤ used
  size : used ≤ P.socksRecvBufSize
  waiting : m.client.socksRecvWaiting = false
  stream : m.socks.received = m.pcb.written ++
    m.client.socksRecvBuf.slice m.client.socksRecvBufSent used
  callbacks : m.pcb.errFn = true ∧ m.pcb.recvFn = !m.client.socksClosed ∧ m.pcb.sentFn = true
  idle : m.socks.recvOp = false

section Writing

variable {x : Context} {m : Machine P} {used : ℕ} {gone : Bool}

theorem Writing.live (h : Writing x used gone m) : m.Live := h.books.live_iff.mpr (.inl h.opened)

theorem Writing.held (h : Writing x used gone m) : m.pcb.releases = [] := h.books.pcb_held h.opened

theorem Writing.withReplies (h : Writing x used gone m) (replies : List Reply) :
    Writing x used gone { m with replies } :=
  { h with
    books := { h.books with }
    upstream := { h.upstream with }
    downstream := { h.downstream with }
    listed := { h.listed with }
    watched := { h.watched with } }

/-- The next `n` buffered bytes are written to the pcb. -/
def Machine.wrote (m : Machine P) (n : ℕ) : Machine P :=
  { m with
    client := { m.client with
      socksRecvBufSent := m.client.socksRecvBufSent + n
      socksRecvTcpPending := m.client.socksRecvTcpPending + n }
    pcb := { m.pcb with
      written := m.pcb.written ++ m.client.socksRecvBuf.slice m.client.socksRecvBufSent
        (m.client.socksRecvBufSent + n) } }

theorem Writing.wrote {n : ℕ} (h : Writing x used gone m)
    (hn : m.client.socksRecvBufSent + n ≤ used) :
    Writing x used gone (m.wrote n) := by
  have hsize := h.size
  have hsplit := m.client.socksRecvBuf.slice_eq_append (Nat.le_add_right _ n) hn h.size
  have hstream : m.socks.received = (m.wrote n).pcb.written ++
      m.client.socksRecvBuf.slice (m.client.socksRecvBufSent + n) used := by
    rw [Machine.wrote, List.append_assoc, ← hsplit, h.stream]
  exact { h with
    books := { h.books with }
    upstream := { h.upstream with }
    downstream := {
      idle := fun hdown => nomatch (h.up.symm.trans hdown)
      receiving := fun hrecv => nomatch (h.idle.symm.trans hrecv)
      written := hstream ▸ List.prefix_append _ _
      pending := by
        intro hup
        have hpending := h.downstream.pending hup
        rw [Machine.wrote, List.length_append, Buffer.length_slice (by omega)]
        change m.client.socksRecvTcpPending + n + m.pcb.acked = _
        omega
      closed := by
        intro hmem
        change _ ∈ m.pcb.releases at hmem
        rw [h.held] at hmem
        cases hmem }
    listed := { h.listed with }
    watched := { h.watched with }
    sent := hn
    stream := hstream }

/-- What the loop leaves: if it has written everything, something is pending. -/
def Written (x : Context) (used : ℕ) (gone : Bool) (m : Machine P) : Prop :=
  Writing x used gone m ∧
    (m.client.socksRecvBufSent = used → 0 < m.client.socksRecvTcpPending)

/-- **The loop writes in order**, as much as lwIP takes. -/
theorem clientSocksRecvWriteLoop_spec {rounds : ℕ} (h : Writing x used gone m)
    (hleft : m.client.socksRecvBufSent < used)
    (hrounds : used - m.client.socksRecvBufSent ≤ rounds) :
    wp (clientSocksRecvWriteLoop rounds) (fun _ => Written x used gone) m := by
  -- by induction on the rounds: a round that goes on has written a byte at least
  induction rounds generalizing m with
  | zero => omega
  | succ rounds ih =>
    simp only [clientSocksRecvWriteLoop, wp_bind, wp_client, wp_ite, wp_pure, wp_setClient]
    refine ⟨h.live, tcpSndbuf_spec h.held fun sndbuf replies => ?_⟩
    rw [h.buffered, Option.getD_some]
    generalize htoWrite : min (used - m.client.socksRecvBufSent) sndbuf = toWrite
    have hn : m.client.socksRecvBufSent + toWrite ≤ used := by omega
    have hsame : ∀ replies, Written x used gone { m with replies } := fun replies =>
      ⟨h.withReplies replies, fun hall => absurd hall (Nat.ne_of_lt hleft)⟩
    by_cases hzero : toWrite = 0
    · -- lwIP has no room
      rw [if_pos hzero]
      exact hsame replies
    · rw [if_neg hzero]
      refine tcpWrite_spec h.held (fun replies => ?_) (fun err replies herr => ?_)
      · have hwrote := (h.wrote hn).withReplies replies
        rw [if_neg (by decide), if_neg (by decide)]
        refine ⟨h.live, ?_⟩
        by_cases hmore : m.client.socksRecvBufSent + toWrite < used
        · rw [if_pos hmore]
          refine ih hwrote hmore ?_
          change used - (m.client.socksRecvBufSent + toWrite) ≤ rounds
          omega
        · -- the last byte was just written, and cannot have been acknowledged
          rw [if_neg hmore]
          refine ⟨hwrote, fun _ => ?_⟩
          change 0 < m.client.socksRecvTcpPending + toWrite
          omega
      · -- a failed `tcp_write` has written nothing
        by_cases hmem : err = .mem
        · rw [if_pos hmem]
          exact hsame replies
        · rw [if_neg hmem, if_pos herr]
          exact hsame replies

/-! ### `client_socks_recv_send_out` -/

/-- What `client_socks_recv_send_out` leaves when it returns `0`. Once more is asked for, if it
should be, the invariant holds again. -/
structure SentOut (x : Context) (gone : Bool) (m : Machine P) : Prop where
  opened : m.client.clientClosed = false
  up : m.client.socksUp = true
  socks : m.client.socksClosed = gone
  idle : m.socks.recvOp = false
  pending : 0 < m.client.socksRecvTcpPending
  between : Between x { m with socks := { m.socks with
    recvOp := m.client.socksRecvBufUsed.isNone && !gone } }

theorem SentOut.live (h : SentOut x gone m) : m.Live :=
  h.between.books.live_iff.mpr (.inl h.opened)

/-- There is nothing to ask for. -/
theorem SentOut.settled (h : SentOut x gone m)
    (hidle : ¬ (m.client.socksRecvBufUsed = none ∧ gone = false)) : Between x m := by
  have hop : (m.client.socksRecvBufUsed.isNone && !gone) = m.socks.recvOp := by
    rw [h.idle]
    cases hused : m.client.socksRecvBufUsed with
    | none => simpa [hused] using hidle
    | some => rfl
  have hbetween := h.between
  rw [hop] at hbetween
  exact hbetween

/-- More is asked for. -/
theorem SentOut.initiate (h : SentOut x false m) (hnone : m.client.socksRecvBufUsed = none) :
    wp clientSocksRecvInitiate (fun _ => Returned x false) m := by
  have hbetween := h.between
  refine clientSocksRecvInitiate_spec h.live h.opened h.socks h.up hnone h.idle
    (hbetween.books.socks_held h.socks) ?_
  rw [hnone] at hbetween
  exact ⟨hbetween, h.opened⟩

/-- Not everything is written: the sent callback goes on. -/
theorem Writing.waitSent (h : Writing x used gone m) (hleft : m.client.socksRecvBufSent < used)
    (hpending : 0 < m.client.socksRecvTcpPending) :
    SentOut x gone { m with client := { m.client with socksRecvWaiting := true } } where
  opened := h.opened
  up := h.up
  socks := h.socks
  idle := h.idle
  pending := hpending
  between := by
    have hrecv : (m.client.socksRecvBufUsed.isNone && !gone) = false := by rw [h.buffered]; rfl
    refine { h.toKept with
      books := { h.books with }
      upstream := { h.upstream with }
      downstream := { h.downstream with
        receiving := fun hop => nomatch (hrecv.symm.trans hop) }
      listed := { h.listed with }
      watched := { h.watched with }
      settled := ?_ }
    have hsome : m.client.socksRecvBufUsed ≠ none := by rw [h.buffered]; simp
    constructor
    · intro _
      rw [h.up]
      exact h.callbacks
    · exact fun hclosed => nomatch (h.opened.symm.trans hclosed)
    · exact fun _ _ => ⟨h.up, .inl hsome⟩
    · intro _ _
      rw [Conn.unsent, h.buffered]
      exact h.stream
    · intro _ _ u hu
      rw [h.buffered] at hu
      obtain rfl := Option.mem_some.mp hu
      exact ⟨hleft, h.size, rfl⟩
    · exact fun _ _ hnone => absurd hnone hsome
    · exact fun _ _ _ hnone => absurd hnone hsome

/-- Everything is written. -/
theorem Writing.allSent (h : Writing x used gone m) (hall : m.client.socksRecvBufSent = used)
    (hpending : 0 < m.client.socksRecvTcpPending) :
    SentOut x gone { m with client := { m.client with socksRecvBufUsed := none } } where
  opened := h.opened
  up := h.up
  socks := h.socks
  idle := h.idle
  pending := hpending
  between := by
    refine { h.toKept with
      books := { h.books with }
      upstream := { h.upstream with }
      downstream := { h.downstream with
        receiving := fun hop => ⟨h.up, by simpa [h.socks] using hop, rfl⟩ }
      listed := { h.listed with }
      watched := { h.watched with }
      settled := ?_ }
    constructor
    · intro _
      rw [h.up]
      exact h.callbacks
    · exact fun hclosed => nomatch (h.opened.symm.trans hclosed)
    · exact fun _ _ => ⟨h.up, .inr hpending⟩
    · intro _ _
      have hstream := h.stream
      rw [hall, Buffer.slice_self] at hstream
      exact hstream
    · exact fun _ _ u hu => nomatch hu
    · exact fun _ _ _ _ => h.waiting
    · intro _ _ hsocks _
      rw [h.socks] at hsocks
      simp [hsocks]

/-- The two ends of `client_socks_recv_send_out`, by what it returns. -/
def SendOutEnd (x : Context) (gone : Bool) : Bool → Machine P → Prop
  | true => SentOut x gone
  | false => Returned x true

/-- **What is buffered is written out**, or the client is aborted. -/
theorem clientSocksRecvSendOut_spec (h : Writing x used gone m)
    (hleft : m.client.socksRecvBufSent < used) :
    wp clientSocksRecvSendOut (SendOutEnd x gone) m := by
  have habort : ∀ {m' : Machine P}, Writing x used gone m' →
      wp clientAbortClient (fun _ => SendOutEnd x gone false) m' := fun h' =>
    clientAbortClient_spec h'.toKept h'.opened
  simp only [clientSocksRecvSendOut, wp_bind, wp_client, wp_assert, wp_ite, wp_pure, wp_setClient]
  rw [h.buffered, Option.getD_some]
  refine ⟨h.live, h.opened, h.up, by omega, hleft, h.waiting, ?_⟩
  refine wp_mono (clientSocksRecvWriteLoop_spec h hleft le_rfl) ?_
  rintro loopEnd m₁ ⟨h₁, hsome⟩
  by_cases hfailed : loopEnd = .failed
  · rw [if_pos hfailed]
    exact habort h₁
  · rw [if_neg hfailed]
    refine tcpOutput_spec h₁.held fun err replies => ?_
    have h₂ := h₁.withReplies replies
    by_cases herr : err ≠ .ok
    · rw [if_pos herr]
      exact habort h₂
    · rw [if_neg herr]
      refine ⟨h₂.live, ?_⟩
      by_cases hmore : m₁.client.socksRecvBufSent < used
      · rw [if_pos hmore]
        by_cases hnone : m₁.client.socksRecvTcpPending = 0
        · -- no sent callback would come: the client is given up
          rw [if_pos hnone]
          exact habort h₂
        · rw [if_neg hnone]
          exact ⟨h₂.live, h₂.waitSent hmore (Nat.pos_of_ne_zero hnone)⟩
      · rw [if_neg hmore]
        have hall : m₁.client.socksRecvBufSent = used := le_antisymm h₁.sent (not_lt.mp hmore)
        exact ⟨h₂.live, h₂.allSent hall (hsome hall)⟩

/-! ### A completed receive -/

/-- The receive has filled the receive buffer with `data`. -/
def Machine.recvDone (m : Machine P) (data : List Byte) (h : 0 + data.length ≤ P.socksRecvBufSize) :
    Machine P :=
  { m with
    client := { m.client with socksRecvBuf := m.client.socksRecvBuf.write 0 data h }
    socks := { m.socks with recvOp := false, received := m.socks.received ++ data } }

variable {data : List Byte}

/-- A client that is closed takes no notice of what it receives. -/
theorem Between.recvDone (h : Between x m) (hclosed : m.client.clientClosed = true)
    (hsocks : m.client.socksClosed = false) (hup : m.client.socksUp = true)
    (hsize : 0 + data.length ≤ P.socksRecvBufSize) : Between x (m.recvDone data hsize) :=
  { h with
    books := { h.books with }
    upstream := { h.upstream with }
    downstream := { h.downstream with
      idle := fun hdown => nomatch (hup.symm.trans hdown)
      receiving := fun hop => absurd hop (by simp [Machine.recvDone])
      written := h.downstream.written.trans (List.prefix_append _ _)
      closed := fun hmem => by
        have hgone := h.books.order _ hmem rfl
        cases (hsocks.symm.trans hgone) }
    listed := { h.listed with }
    watched := { h.watched with }
    settled := {
      callbacks := h.settled.callbacks
      clientDown := h.settled.clientDown
      socksDown := h.settled.socksDown
      stream := fun _ hopen => nomatch (hclosed.symm.trans hopen)
      buffered := h.settled.buffered
      sent := fun _ hopen => nomatch (hclosed.symm.trans hopen)
      receiving := fun _ hopen => nomatch (hclosed.symm.trans hopen) } }

/-- Nothing was buffered, so what was received is next. -/
theorem Between.startWriting (h : Between x m) (hopen : m.client.clientClosed = false)
    (hsocks : m.client.socksClosed = false) (hup : m.client.socksUp = true)
    (hused : m.client.socksRecvBufUsed = none)
    (hsize : 0 + data.length ≤ P.socksRecvBufSize) :
    Writing x data.length false
      { m.recvDone data hsize with client := { (m.recvDone data hsize).client with
          socksRecvBufUsed := some data.length, socksRecvBufSent := 0, socksRecvWaiting := false } }
    where
  toKept := { h.toKept with
    books := { h.books with }
    upstream := { h.upstream with }
    downstream := { h.downstream with
      idle := fun hdown => nomatch (hup.symm.trans hdown)
      receiving := fun hop => absurd hop (by simp [Machine.recvDone])
      written := h.downstream.written.trans (List.prefix_append _ _)
      closed := fun hmem => by
        have hgone := h.books.order _ hmem rfl
        cases (hsocks.symm.trans hgone) }
    listed := { h.listed with }
    watched := { h.watched with } }
  opened := hopen
  up := hup
  socks := hsocks
  buffered := rfl
  sent := Nat.zero_le _
  size := by omega
  waiting := rfl
  stream := by
    -- everything received before is written, so `data` is what is left
    have hstream := h.settled.stream hup hopen
    rw [Conn.unsent, hused, List.append_nil] at hstream
    change m.socks.received ++ data =
      m.pcb.written ++ (m.client.socksRecvBuf.write 0 data hsize).slice 0 data.length
    rw [Buffer.slice_write_zero, hstream]
  callbacks := by
    have hcallbacks := h.settled.callbacks hopen
    rw [hup] at hcallbacks
    exact hcallbacks
  idle := rfl

/-- **A receive completes**: what was received is written out, and more is asked for when all
of it is. -/
theorem socksEvent_recvDone (h : Between x m)
    (henabled : (SocksEvent.recvDone data).Enabled m.toConn) :
    wp (socksEvent (.recvDone data)) (fun _ => Between x) m := by
  obtain ⟨hop, hpos, hle⟩ := henabled
  obtain ⟨hup, hsocks, hused⟩ := h.downstream.receiving hop
  have hlive : m.Live := h.books.live_iff.mpr (.inr hsocks)
  have hsize : 0 + data.length ≤ P.socksRecvBufSize := by omega
  simp only [socksEvent, dif_pos hsize, clientSocksRecvHandlerDone, wp_bind, wp_setClient,
    wp_modify, wp_client, wp_assert, wp_ite, wp_pure]
  refine ⟨hlive, hlive, hpos, hle, hsocks, hup, hused, ?_⟩
  by_cases hclosed : m.client.clientClosed = true
  · -- the data is dropped
    rw [if_pos hclosed]
    exact h.recvDone hclosed hsocks hup hsize
  · rw [if_neg hclosed]
    have hwriting := h.startWriting (by simpa using hclosed) hsocks hup hused hsize
    refine ⟨hlive, wp_mono (clientSocksRecvSendOut_spec hwriting hpos) ?_⟩
    intro ok m' hend
    cases ok with
    | false =>
      -- the client was aborted, and may be freed: it is not touched again
      rw [if_pos rfl]
      exact hend.1
    | true =>
      rw [if_neg (by simp)]
      refine ⟨hend.live, ?_⟩
      by_cases hnone : m'.client.socksRecvBufUsed = none
      · rw [if_pos hnone]
        exact wp_mono (SentOut.initiate hend hnone) fun _ _ h => h.1
      · rw [if_neg hnone]
        exact SentOut.settled hend fun h => hnone h.1

end Writing

end Tun2Socks.TcpClient
