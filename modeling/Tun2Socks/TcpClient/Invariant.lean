import Tun2Socks.TcpClient.Model

/-!
# What holds between the callbacks of a client

The invariant of a connection has four parts:

* `Books` — the accounts of its life: what was allocated, released and freed agrees with
  `client_closed` and `socks_closed`;
* `Upstream` — the bytes from the client to SOCKS: what SOCKS has accepted, followed by the
  buffer, is what the callbacks accepted, and a send is under way exactly when it should be;
* `Downstream` — the bytes from SOCKS to the client, as far as they are accounted for at
  any time;
* `Settled` — what the code restores before it returns to the event loop: the callbacks on
  the pcb are the right ones, a half-closed client has a reason to stay, and an open one has
  either written everything it received or waits for the sent callback.

Teardown can start in the middle of a callback, where `Settled` does not hold: `Books`,
`Upstream` and `Downstream` are what it needs. `Between` is the whole, with the list of
clients and the dead variable.
-/

namespace Tun2Socks.TcpClient

open Framework

variable {P : Params}

namespace Conn

/-- `socks_recv_buf[socks_recv_buf_sent..socks_recv_buf_used)`. -/
def unsent (c : Conn P) : List Byte :=
  match c.client.socksRecvBufUsed with
  | none => []
  | some used => c.client.socksRecvBuf.slice c.client.socksRecvBufSent used

/-- Everything SOCKS has delivered is written to the pcb and acknowledged. -/
def Drained (c : Conn P) : Prop :=
  c.client.socksUp = true →
    c.socks.received = c.pcb.written ∧ c.pcb.acked = c.pcb.written.length

end Conn

/-- The accounts of a connection whose `BSocksClient` was initialised. -/
structure Books (c : Conn P) : Prop where
  allocs : c.allocs = 1
  inits : c.socks.inits = 1
  frees : c.frees = (c.client.clientClosed && c.client.socksClosed).toNat
  releases : c.pcb.releases.length = c.client.clientClosed.toNat
  socksFrees : c.socks.frees = c.client.socksClosed.toNat
  order : ∀ r ∈ c.pcb.releases, r.afterSocks = true → c.client.socksClosed = true
  up : c.socks.up = c.client.socksUp

section Books

variable {c : Conn P} (h : Books c)

include h

/-- A client is freed when the second of its sides closes. -/
theorem Books.live_iff : c.Live ↔ c.client.clientClosed = false ∨ c.client.socksClosed = false := by
  rw [Conn.Live, h.allocs, h.frees]
  cases c.client.clientClosed <;> cases c.client.socksClosed <;> simp

theorem Books.pcb_held (hopen : c.client.clientClosed = false) : c.pcb.releases = [] := by
  have hlength := h.releases
  rw [hopen] at hlength
  exact List.length_eq_zero_iff.mp hlength

theorem Books.socks_held (hopen : c.client.socksClosed = false) :
    c.socks.inits = 1 ∧ c.socks.frees = 0 := by
  have hfrees := h.socksFrees
  rw [hopen] at hfrees
  exact ⟨h.inits, hfrees⟩

theorem Books.socks_open (hfrees : c.socks.frees = 0) : c.client.socksClosed = false := by
  have hsocks := h.socksFrees
  rw [hfrees] at hsocks
  exact Bool.toNat_eq_zero.mp hsocks.symm

end Books

/-- The stream from the client to SOCKS. -/
structure Upstream (c : Conn P) : Prop where
  bound : c.client.bufUsed ≤ P.tcpWnd
  stream : c.socks.accepted ++ c.client.buf.take c.client.bufUsed = c.pcb.delivered
  credited : c.client.clientClosed = false → c.pcb.credited = c.socks.accepted.length
  /-- A send is under way exactly when there is something to send and someone to send to. -/
  sending : c.socks.sendOp ≠ none ↔
    c.client.socksUp = true ∧ c.client.socksClosed = false ∧ 0 < c.client.bufUsed
  /-- What the send covers is still at the front of the buffer. -/
  covered : ∀ snap ∈ c.socks.sendOp, snap <+: c.client.buf.take c.client.bufUsed

/-- The stream from SOCKS to the client. -/
structure Downstream (c : Conn P) : Prop where
  idle : c.client.socksUp = false →
    c.pcb.written = [] ∧ c.pcb.acked = 0 ∧ c.socks.received = []
  receiving : c.socks.recvOp = true →
    c.client.socksUp = true ∧ c.client.socksClosed = false ∧ c.client.socksRecvBufUsed = none
  written : c.pcb.written <+: c.socks.received
  pending : c.client.socksUp = true →
    c.client.socksRecvTcpPending + c.pcb.acked = c.pcb.written.length
  /-- A pcb that was closed after SOCKS has nothing outstanding. -/
  closed : ⟨.closed, true⟩ ∈ c.pcb.releases → c.Drained

/-- What holds when no function of the client is running. -/
structure Settled (c : Conn P) : Prop where
  callbacks : c.client.clientClosed = false → c.pcb.errFn = true ∧
    c.pcb.recvFn = !c.client.socksClosed ∧ c.pcb.sentFn = c.client.socksUp
  clientDown : c.client.clientClosed = true → c.client.socksClosed = false →
    0 < c.client.bufUsed
  socksDown : c.client.socksClosed = true → c.client.clientClosed = false →
    c.client.socksUp = true ∧
      (c.client.socksRecvBufUsed ≠ none ∨ 0 < c.client.socksRecvTcpPending)
  stream : c.client.socksUp = true → c.client.clientClosed = false →
    c.socks.received = c.pcb.written ++ c.unsent
  buffered : c.client.socksUp = true → c.client.clientClosed = false →
    ∀ used ∈ c.client.socksRecvBufUsed, c.client.socksRecvBufSent < used ∧
      used ≤ P.socksRecvBufSize ∧ c.client.socksRecvWaiting = true
  sent : c.client.socksUp = true → c.client.clientClosed = false →
    c.client.socksRecvBufUsed = none → c.socks.received ≠ [] → c.client.socksRecvWaiting = false

  /-- With nothing buffered, more is asked for. -/
  receiving : c.client.socksUp = true → c.client.clientClosed = false →
    c.client.socksClosed = false → c.client.socksRecvBufUsed = none → c.socks.recvOp = true

/-- The surroundings of a callback that its steps do not change. -/
structure Context where
  id : ℕ
  /-- The list of clients at the start. -/
  tcpClients : List ℕ
  /-- The callback runs inside `SYNC_COMMIT`. -/
  nested : Bool
  pbufFrees : ℕ

/-- The list of clients and its counter: other entries are left alone, and the client is
listed until it is freed. -/
structure Listed (x : Context) (m : Machine P) : Prop where
  id : m.id = x.id
  count : m.numClients = m.tcpClients.length
  nodup : m.tcpClients.Nodup
  listed : m.id ∈ m.tcpClients ↔ m.frees = 0
  others : ∀ j, j ≠ m.id → (j ∈ m.tcpClients ↔ j ∈ x.tcpClients)

/-- The frame that watches the client, if there is one, knows whether the pcb is gone. -/
structure Watched (x : Context) (m : Machine P) : Prop where
  frames : m.frames = if x.nested then [m.client.clientClosed] else []
  deadClient : m.client.clientClosed = false →
    m.client.deadClient = if x.nested then some 0 else none

/-- What every function of the client keeps. -/
structure Kept (x : Context) (m : Machine P) : Prop where
  books : Books m.toConn
  upstream : Upstream m.toConn
  downstream : Downstream m.toConn
  listed : Listed x m
  watched : Watched x m
  pbufFrees : m.pbufFrees = x.pbufFrees

/-- The invariant between two callbacks. -/
structure Between (x : Context) (m : Machine P) : Prop extends Kept x m where
  settled : Settled m.toConn

end Tun2Socks.TcpClient
