import Tun2Socks.TcpClient.Safety

/-!
# The two byte streams of a TCP client

What the invariant of the program says about the bytes:

* towards SOCKS nothing is lost, repeated or reordered, the buffer is never overrun, and what
  a send covers stays in place while it is under way (`upstream_intact`);
* towards the client the bytes written to the pcb are a prefix of the bytes received, and
  while the client is open the rest is in `socks_recv_buf` (`downstream_intact`). A client that
  has closed its side takes no more data: what SOCKS still delivers is dropped
  (`dropped_after_close`).
-/

namespace Tun2Socks.TcpClient

open Framework

variable {P : Params} {w : World P} {c : Conn P}

/-! ### From the client to SOCKS -/

/-- **Nothing is lost on the way to SOCKS.** In every state any run reaches: no assertion has
failed; what SOCKS has accepted from a client, followed by its buffer, is what
`client_recv_func` accepted; a send is under way exactly when SOCKS is up and open and the
buffer is not empty, and covers bytes that have not changed since it was started; while the
client is open the buffer holds what is not yet credited to lwIP; and `client_recv_func` has
never run out of room. -/
theorem upstream_intact (h : (system P).Reachable w) :
    w.fault = none ∧
    (∀ c ∈ w.conns, c.Live →
      c.socks.accepted ++ c.client.buf.take c.client.bufUsed = c.pcb.delivered ∧
      (c.socks.sendOp ≠ none ↔
        c.client.socksUp = true ∧ c.client.socksClosed = false ∧ 0 < c.client.bufUsed) ∧
      (∀ snap ∈ c.socks.sendOp, snap <+: c.client.buf.take c.client.bufUsed) ∧
      (c.client.clientClosed = false →
        c.pcb.credited ≤ c.pcb.delivered.length ∧
          c.client.bufUsed = c.pcb.delivered.length - c.pcb.credited)) ∧
    ∀ r ∈ w.returns, r.callback = .recv → r.err ≠ .mem := by
  have hinv := worldInv_of_reachable h
  refine ⟨hinv.fault, fun c hc hlive => ?_, fun r hr => (hinv.returns r hr).room⟩
  have hup := (hinv.connInv hc hlive).upstream
  refine ⟨hup.stream, hup.sending, hup.covered, fun hopen => ?_⟩
  have hwindow := hup.window hopen
  omega

/-- A send of what is left, after one byte of three was accepted. -/
theorem upstream_intact_sending : ∃ w, (system small).Reachable w ∧
    ∃ c ∈ w.conns, c.Live ∧ c.socks.accepted = [1] ∧ c.socks.sendOp = some [2, 3] ∧
      c.socks.accepted ++ c.client.buf.take c.client.bufUsed = c.pcb.delivered := by
  obtain ⟨w, h, c, hc, hlive, haccepted, hop⟩ := System.exists_of_run (system small)
    (fun w => ∃ c ∈ w.conns, c.Live ∧ c.socks.accepted = [1] ∧ c.socks.sendOp = some [2, 3])
    [.accept goodAccept [] [], .recv 0 (some [1, 2]) [] [], .socks 0 .up [],
      .recv 0 (some [3]) [] [], .socks 0 (.sendDone 1) []] (by decide)
  exact ⟨w, h, c, hc, hlive, haccepted, hop, ((upstream_intact h).2.1 c hc hlive).1⟩

/-! ### From SOCKS to the client -/

/-- What is buffered and not written is not empty. -/
theorem Settled.unsent_ne_nil (h : Settled c) (hup : c.client.socksUp = true)
    (hopen : c.client.clientClosed = false) :
    c.unsent ≠ [] ↔ c.client.socksRecvBufUsed ≠ none := by
  cases hused : c.client.socksRecvBufUsed with
  | none => simp [Conn.unsent, hused]
  | some used =>
    obtain ⟨hsent, hsize, -⟩ := h.buffered hup hopen used (by rw [hused]; rfl)
    have hlength : c.unsent.length = used - c.client.socksRecvBufSent := by
      rw [Conn.unsent, hused]
      exact Buffer.length_slice hsize
    refine ⟨fun _ => Option.some_ne_none used, fun _ hnil => ?_⟩
    rw [hnil, List.length_nil] at hlength
    omega

/-- Once something was received, the waiting flag tells whether something is left. -/
theorem Settled.waiting_iff (h : Settled c) (hup : c.client.socksUp = true)
    (hopen : c.client.clientClosed = false) (hsome : c.socks.received ≠ []) :
    c.client.socksRecvWaiting = true ↔ c.unsent ≠ [] := by
  rw [h.unsent_ne_nil hup hopen]
  cases hused : c.client.socksRecvBufUsed with
  | none =>
    rw [h.sent hup hopen hused hsome]
    simp
  | some used =>
    rw [(h.buffered hup hopen used (by rw [hused]; rfl)).2.2]
    simp

/-- **Nothing is lost on the way to the client** while the client is open. In every state any
run reaches: no assertion has failed; what was written to the pcb is a prefix of what was
received; what is pending is what was written and not acknowledged; a receive is under way only
with nothing buffered; while the client is open, the rest of what was received is in
`socks_recv_buf`, more is asked for when there is no rest and SOCKS is open, and once something
was received the waiting flag tells whether there is a rest; and a pcb that was closed after
SOCKS had everything written and acknowledged. -/
theorem downstream_intact (h : (system P).Reachable w) :
    w.fault = none ∧
    (∀ c ∈ w.conns, c.Live →
      c.pcb.written <+: c.socks.received ∧
      (c.socks.recvOp = true → c.client.socksRecvBufUsed = none) ∧
      (c.client.socksUp = true →
        c.pcb.acked ≤ c.pcb.written.length ∧
          c.client.socksRecvTcpPending = c.pcb.written.length - c.pcb.acked) ∧
      (c.client.socksUp = true → c.client.clientClosed = false →
        c.socks.received = c.pcb.written ++ c.unsent ∧
          (c.client.socksClosed = false → c.unsent = [] → c.socks.recvOp = true) ∧
          (c.socks.received ≠ [] → (c.client.socksRecvWaiting = true ↔ c.unsent ≠ [])))) ∧
    ∀ c ∈ w.conns, c.socks.up = true → ⟨.closed, true⟩ ∈ c.pcb.releases →
      c.socks.received = c.pcb.written ∧ c.pcb.acked = c.pcb.written.length := by
  have hinv := worldInv_of_reachable h
  refine ⟨hinv.fault, fun c hc hlive => ?_, fun c hc hup hmem => ?_⟩
  · have hconn := hinv.connInv hc hlive
    have hdown := hconn.downstream
    refine ⟨hdown.written, fun hop => (hdown.receiving hop).2.2, fun hup => ?_,
      fun hup hopen => ⟨hconn.settled.stream hup hopen, fun hsocks hnil => ?_,
        hconn.settled.waiting_iff hup hopen⟩⟩
    · have hpending := hdown.pending hup
      omega
    · -- what is buffered is never empty, so no rest means no buffer
      refine hconn.settled.receiving hup hopen hsocks ?_
      by_contra hused
      exact (hconn.settled.unsent_ne_nil hup hopen).mpr hused hnil
  · obtain ⟨i, hi⟩ := List.mem_iff_getElem?.mp hc
    obtain hconn | hrefused := hinv.conns i c hi
    · exact hconn.downstream.closed hmem (hconn.books.up ▸ hup)
    · -- a connection that was refused was lost, not closed
      rw [hrefused.releases] at hmem
      exact absurd hmem (by simp)

/-- Two of three received bytes are written: lwIP took no more. -/
theorem downstream_intact_waiting : ∃ w, (system small).Reachable w ∧
    ∃ c ∈ w.conns, c.Live ∧ c.pcb.written = [7, 8] ∧ c.unsent = [9] ∧
      c.pcb.written <+: c.socks.received := by
  obtain ⟨w, h, c, hc, hlive, hwritten, hunsent⟩ := System.exists_of_run (system small)
    (fun w => ∃ c ∈ w.conns, c.Live ∧ c.pcb.written = [7, 8] ∧ c.unsent = [9])
    [.accept goodAccept [] [], .socks 0 .up [],
      .socks 0 (.recvDone [7, 8, 9]) [⟨.ok, 2⟩, ⟨.ok, 0⟩, ⟨.ok, 0⟩]] (by decide)
  exact ⟨w, h, c, hc, hlive, hwritten, hunsent, ((downstream_intact h).2.1 c hc hlive).1⟩

/-- A client that has closed its side while data for SOCKS is left: the byte SOCKS delivers
then is neither written nor buffered. And before the first receive the waiting flag is what
`malloc` has found. -/
theorem dropped_after_close : (∃ w, (system small).Reachable w ∧
    ∃ c ∈ w.conns, c.Live ∧ c.socks.received ≠ c.pcb.written ++ c.unsent) ∧
    ∃ w, (system small).Reachable w ∧ ∃ c ∈ w.conns, c.Live ∧ c.client.socksUp = true ∧
      c.client.clientClosed = false ∧ c.client.socksRecvWaiting = true ∧ c.unsent = [] :=
  ⟨System.exists_of_run (system small) _
    [.accept goodAccept [] [], .socks 0 .up [], .recv 0 (some [1]) [] [], .recv 0 none [] [],
      .socks 0 (.recvDone [7]) []] (by decide),
  System.exists_of_run (system small) _
    [.accept ⟨true, true, true, { zeroClient with socksRecvWaiting := true }⟩ [] [],
      .socks 0 .up []] (by decide)⟩

end Tun2Socks.TcpClient
