import Tun2Socks.Framework.Buffer
import Tun2Socks.Framework.Checked

/-!
# The TCP client of tun2socks

One `struct tcp_client` joins a TCP connection of lwIP (its `pcb`) to a connection through
the SOCKS server (its `BSocksClient`). This file is the code of `tun2socks.c` between
`listener_accept_func` and `client_sent_func`, as checked programs: every `ASSERT`, every
access to the structure after `free`, every use of a pcb or a `BSocksClient` that is gone
and every second request on a busy stream interface is a fault.

What the code calls is the environment:

* **lwIP** answers `tcp_close`, `tcp_write`, `tcp_output` and `tcp_sndbuf` as it likes: each
  call takes the next entry of a list of replies.
* **SOCKS** raises its events and completes sends and receives, whenever they are enabled
  and of any size. The jobs that `SYNC_COMMIT` runs are such events of the same client, in
  any number and order: the mark keeps jobs from before it out, and lwIP input does not run
  inside a job.

The record of a connection also keeps what went through it: the payload taken from lwIP
and the bytes credited, written and acknowledged on the pcb, and the bytes accepted and
received by SOCKS.

`client->dead` is killed in `client_dealloc` and entered nowhere, so it is left out, and so
are the addresses, the log lines and `socks_username`, which belongs to the credentials. A
pbuf is its payload, the chain of its parts in one piece.
-/

namespace Tun2Socks.TcpClient

open Framework

/-- The sizes of the two buffers. -/
structure Params where
  /-- `TCP_WND`. -/
  tcpWnd : ℕ
  /-- `CLIENT_SOCKS_RECV_BUF_SIZE`. -/
  socksRecvBufSize : ℕ

/-- `err_t`. -/
inductive ErrT
  | ok | mem | buf | timeout | rte | inprogress | val | wouldblock | use | isconn | abrt | rst
  | clsd | conn | arg | netif
  deriving DecidableEq, Repr

/-- What lwIP answers to one call. -/
structure Reply where
  err : ErrT
  sndbuf : ℕ
  deriving DecidableEq, Repr

inductive Fault
  | assertion
  | useAfterFree
  | pcbReleased
  | socksFreed
  | busy
  | danglingDead
  | notListed
  | outOfBounds
  | depth
  deriving DecidableEq, Repr

/-- `struct tcp_client`. -/
structure Client (P : Params) where
  /-- `dead_client`: the stack frame to tell, by its position on the stack. -/
  deadClient : Option ℕ
  clientClosed : Bool
  buf : Buffer Byte P.tcpWnd
  bufUsed : ℕ
  socksUp : Bool
  socksClosed : Bool
  socksRecvBuf : Buffer Byte P.socksRecvBufSize
  /-- `none` is `-1`. -/
  socksRecvBufUsed : Option ℕ
  socksRecvBufSent : ℕ
  socksRecvWaiting : Bool
  socksRecvTcpPending : ℕ
  deriving DecidableEq

inductive ReleaseKind
  /-- `tcp_close` succeeded. -/
  | closed
  /-- `tcp_abort`. -/
  | aborted
  /-- lwIP has freed the pcb and called the error callback. -/
  | lost
  deriving DecidableEq, Repr

/-- How a pcb went away. -/
structure Release where
  kind : ReleaseKind
  /-- The `BSocksClient` had been freed before. -/
  afterSocks : Bool
  deriving DecidableEq, Repr

/-- The pcb, as lwIP keeps it. -/
structure Pcb where
  releases : List Release
  errFn : Bool
  recvFn : Bool
  sentFn : Bool
  /-- The payloads `client_recv_func` accepted. -/
  delivered : List Byte
  /-- The bytes credited with `tcp_recved`. -/
  credited : ℕ
  /-- The bytes passed to `tcp_write` with success. -/
  written : List Byte
  /-- The bytes reported to the sent callback. -/
  acked : ℕ
  deriving DecidableEq, Repr

/-- The `BSocksClient` with its two stream interfaces. -/
structure Socks where
  inits : ℕ
  frees : ℕ
  /-- `BSOCKSCLIENT_EVENT_UP` was raised. -/
  up : Bool
  /-- The send under way, by the bytes it covered when it was started. -/
  sendOp : Option (List Byte)
  /-- A receive is under way. -/
  recvOp : Bool
  /-- The bytes accepted by completed sends. -/
  accepted : List Byte
  /-- The bytes delivered by completed receives. -/
  received : List Byte
  deriving DecidableEq, Repr

/-- A connection: the client with its pcb and its `BSocksClient`. -/
structure Conn (P : Params) where
  client : Client P
  allocs : ℕ
  frees : ℕ
  pcb : Pcb
  socks : Socks
  /-- How often the pbuf of the current callback was freed. -/
  pbufFrees : ℕ
  deriving DecidableEq

/-- The structure is allocated. -/
def Conn.Live {P : Params} (c : Conn P) : Prop := c.allocs = 1 ∧ c.frees = 0

instance {P : Params} (c : Conn P) : Decidable c.Live := by unfold Conn.Live; infer_instance

/-- What SOCKS can do next. -/
inductive SocksEvent
  /-- `BSOCKSCLIENT_EVENT_UP`. -/
  | up
  /-- `BSOCKSCLIENT_EVENT_ERROR`. -/
  | error
  /-- `BSOCKSCLIENT_EVENT_ERROR_CLOSED`. -/
  | closed
  /-- The send completes with `n` bytes. -/
  | sendDone (n : ℕ)
  /-- The receive completes with these bytes. -/
  | recvDone (data : List Byte)
  deriving DecidableEq, Repr

/-- The state a callback of one connection runs in. -/
structure Machine (P : Params) extends Conn P where
  id : ℕ
  numClients : ℕ
  tcpClients : List ℕ
  /-- The dead variables on the stack, innermost last. -/
  frames : List Bool
  replies : List Reply
  /-- What the next `SYNC_COMMIT` runs. -/
  jobs : List SocksEvent

variable {P : Params}

/-- Programs over one connection. -/
abbrev M (P : Params) := Checked Fault (Machine P)

/-- `ASSERT`. -/
def assert (p : Prop) [Decidable p] : M P Unit := ensure p .assertion

/-! ### Memory -/

/-- Read the structure. -/
def client : M P (Client P) := do
  let m ← get
  ensure m.Live .useAfterFree
  return m.client

/-- Write the structure. -/
def setClient (f : Client P → Client P) : M P Unit := do
  ensure (← get).Live .useAfterFree
  modify fun m => { m with client := f m.client }

/-- `free(client)`. -/
def freeClient : M P Unit := do
  ensure (← get).Live .useAfterFree
  modify fun m => { m with frees := m.frees + 1 }

/-! ### lwIP -/

/-- Use the pcb. -/
def onPcb (f : Pcb → Pcb) : M P Unit := do
  ensure ((← get).pcb.releases = []) .pcbReleased
  modify fun m => { m with pcb := f m.pcb }

/-- The answer of lwIP to the next call. -/
def nextReply : M P Reply := do
  let m ← get
  modify fun m => { m with replies := m.replies.tail }
  return m.replies.headD ⟨.ok, 0⟩

def tcpErr (set : Bool) : M P Unit := onPcb fun p => { p with errFn := set }

def tcpRecv (set : Bool) : M P Unit := onPcb fun p => { p with recvFn := set }

def tcpSent (set : Bool) : M P Unit := onPcb fun p => { p with sentFn := set }

def tcpRecved (len : ℕ) : M P Unit := onPcb fun p => { p with credited := p.credited + len }

/-- The pcb is gone. -/
def release (kind : ReleaseKind) : M P Unit := do
  let m ← get
  onPcb fun p => { p with releases := p.releases ++ [⟨kind, m.socks.frees ≠ 0⟩] }

def tcpAbort : M P Unit := release .aborted

def tcpClose : M P ErrT := do
  let r ← nextReply
  -- a failing `tcp_close` leaves the pcb in place
  if r.err = .ok then release .closed else onPcb id
  return r.err

def tcpSndbuf : M P ℕ := do
  onPcb id
  return (← nextReply).sndbuf

def tcpWrite (data : List Byte) : M P ErrT := do
  let r ← nextReply
  onPcb fun p => { p with written := if r.err = .ok then p.written ++ data else p.written }
  return r.err

def tcpOutput : M P ErrT := do
  onPcb id
  return (← nextReply).err

/-- `pbuf_copy_partial(p, client->buf + offset, p->tot_len, 0)`. -/
def pbufCopyPartial (p : List Byte) (offset : ℕ) : M P Unit := do
  if h : offset + p.length ≤ P.tcpWnd then
    setClient fun c => { c with buf := c.buf.write offset p h }
    modify fun m => { m with pcb := { m.pcb with delivered := m.pcb.delivered ++ p } }
  else throw .outOfBounds

/-- `memmove(client->buf, client->buf + n, k)`. -/
def memmoveBuf (n k : ℕ) : M P Unit := do
  if h : n + k ≤ P.tcpWnd then setClient fun c => { c with buf := c.buf.shift n k h }
  else throw .outOfBounds

def pbufFree : M P Unit := modify fun m => { m with pbufFrees := m.pbufFrees + 1 }

/-! ### SOCKS -/

/-- Use the `BSocksClient`. -/
def onSocks (f : Socks → Socks) : M P Unit := do
  ensure ((← get).socks.inits = 1 ∧ (← get).socks.frees = 0) .socksFreed
  modify fun m => { m with socks := f m.socks }

/-- `BSocksClient_Free`. The operations under way are dropped with it. -/
def bSocksClientFree : M P Unit :=
  onSocks fun s => { s with frees := s.frees + 1, sendOp := none, recvOp := false }

/-- `StreamPassInterface_Sender_Send(client->socks_send_if, client->buf, len)`. -/
def senderSend (len : ℕ) : M P Unit := do
  let c ← client
  ensure ((← get).socks.sendOp = none) .busy
  assert (0 < len)
  onSocks fun s => { s with sendOp := some (c.buf.take len) }

/-- `StreamRecvInterface_Receiver_Recv`. -/
def receiverRecv : M P Unit := do
  ensure ((← get).socks.recvOp = false) .busy
  onSocks fun s => { s with recvOp := true }

/-! ### Dead variables -/

/-- `DEAD_KILL(client->dead_client)`. -/
def deadKill : M P Unit := do
  match (← client).deadClient with
  | none => pure ()
  | some i =>
    ensure (i < (← get).frames.length) .danglingDead
    modify fun m => { m with frames := m.frames.set i true }

/-- `DEAD_ENTER(client->dead_client)`; returns `badvpn__prev_ptr`. -/
def deadEnter : M P (Option ℕ) := do
  let c ← client
  let i := (← get).frames.length
  modify fun m => { m with frames := m.frames ++ [false] }
  setClient fun c => { c with deadClient := some i }
  return c.deadClient

/-- `DEAD_LEAVE2(client->dead_client)`, and the end of the frame; returns `DEAD_KILLED`. -/
def deadLeave2 (prev : Option ℕ) : M P Bool := do
  let dead := (← get).frames.getLastD false
  modify fun m => { m with frames := m.frames.dropLast }
  if dead then pure () else setClient fun c => { c with deadClient := prev }
  match prev with
  | none => pure ()
  | some i => modify fun m => { m with frames := m.frames.set i dead }
  return dead

/-! ### Teardown -/

def clientDealloc : M P Unit := do
  let c ← client
  assert (c.clientClosed = true)
  assert (c.socksClosed = true)
  assert (0 < (← get).numClients)
  modify fun m => { m with numClients := m.numClients - 1 }
  ensure ((← get).id ∈ (← get).tcpClients) .notListed
  modify fun m => { m with tcpClients := m.tcpClients.erase m.id }
  freeClient

mutual

/-- `client_handle_freed_client`. The three functions call each other; the argument bounds
the depth of the calls. -/
def clientHandleFreedClient : ℕ → M P Unit
  | 0 => throw .depth
  | depth + 1 => do
    assert ((← client).clientClosed = false)
    -- the pcb was taken care of by the caller
    deadKill
    setClient fun c => { c with clientClosed := true }
    let c ← client
    -- with data for SOCKS that can be sent, keep sending
    if 0 < c.bufUsed ∧ c.socksClosed = false then pure ()
    else if c.socksClosed = false then clientFreeSocks depth
    else clientDealloc

def clientFreeClient : ℕ → M P Unit
  | 0 => throw .depth
  | depth + 1 => do
    assert ((← client).clientClosed = false)
    tcpErr false
    tcpRecv false
    tcpSent false
    let err ← tcpClose
    if err = .ok then pure () else tcpAbort
    clientHandleFreedClient depth

def clientFreeSocks : ℕ → M P Unit
  | 0 => throw .depth
  | depth + 1 => do
    let c ← client
    assert (c.socksClosed = false)
    -- stop receiving from the client
    if c.socksUp = true ∧ c.clientClosed = false then tcpRecv false else pure ()
    bSocksClientFree
    setClient fun c => { c with socksClosed := true }
    let c ← client
    -- with data for the client that can be sent, keep sending
    if c.socksUp = true ∧ (c.socksRecvBufUsed ≠ none ∨ 0 < c.socksRecvTcpPending) ∧
        c.clientClosed = false then pure ()
    else if c.clientClosed = false then clientFreeClient depth
    else clientDealloc

end

/-- A bound on how deep the calls of the teardown functions go. -/
def maxDepth : ℕ := 4

def clientAbortClient : M P Unit := do
  assert ((← client).clientClosed = false)
  tcpErr false
  tcpRecv false
  tcpSent false
  tcpAbort
  clientHandleFreedClient maxDepth

def clientMurder : M P Unit := do
  if (← client).clientClosed = false then
    tcpErr false
    tcpRecv false
    tcpSent false
    tcpAbort
    deadKill
    setClient fun c => { c with clientClosed := true }
  else pure ()
  if (← client).socksClosed = false then
    bSocksClientFree
    setClient fun c => { c with socksClosed := true }
  else pure ()
  clientDealloc

def clientErrFunc : M P Unit := do
  assert ((← client).clientClosed = false)
  -- the pcb was taken care of by lwIP
  clientHandleFreedClient maxDepth

/-! ### From the client to SOCKS -/

def clientSendToSocks : M P Unit := do
  let c ← client
  assert (c.socksClosed = false)
  assert (c.socksUp = true)
  assert (0 < c.bufUsed)
  senderSend c.bufUsed

def clientSocksSendHandlerDone (dataLen : ℕ) : M P Unit := do
  let c ← client
  assert (c.socksClosed = false)
  assert (c.socksUp = true)
  assert (0 < c.bufUsed)
  assert (0 < dataLen)
  assert (dataLen ≤ c.bufUsed)
  -- remove sent data from buffer
  memmoveBuf dataLen (c.bufUsed - dataLen)
  setClient fun c => { c with bufUsed := c.bufUsed - dataLen }
  -- confirm sent data
  if c.clientClosed = false then tcpRecved dataLen else pure ()
  let c ← client
  if 0 < c.bufUsed then senderSend c.bufUsed
  -- the client was closed and everything it had sent is on its way
  else if c.clientClosed = true then clientFreeSocks maxDepth
  else pure ()

/-! ### From SOCKS to the client -/

def clientSocksRecvInitiate : M P Unit := do
  let c ← client
  assert (c.clientClosed = false)
  assert (c.socksClosed = false)
  assert (c.socksUp = true)
  assert (c.socksRecvBufUsed = none)
  receiverRecv

/-- How the loop of `client_socks_recv_send_out` ends. -/
inductive LoopEnd
  /-- Everything is written, or lwIP takes no more for now. -/
  | done
  /-- `tcp_write` failed. -/
  | failed
  deriving DecidableEq, Repr

/-- The `do`-`while` loop of `client_socks_recv_send_out`. Every round that does not leave
the loop writes a byte at least, so `rounds` is bounded by what is left to write. -/
def clientSocksRecvWriteLoop : ℕ → M P LoopEnd
  | 0 => throw .depth
  | rounds + 1 => do
    let c ← client
    let used := c.socksRecvBufUsed.getD 0
    let toWrite := min (used - c.socksRecvBufSent) (← tcpSndbuf)
    if toWrite = 0 then return .done
    else
      let err ← tcpWrite (c.socksRecvBuf.slice c.socksRecvBufSent (c.socksRecvBufSent + toWrite))
      if err = .mem then return .done
      else if err ≠ .ok then return .failed
      else
        setClient fun c => { c with
          socksRecvBufSent := c.socksRecvBufSent + toWrite
          socksRecvTcpPending := c.socksRecvTcpPending + toWrite }
        if c.socksRecvBufSent + toWrite < used then clientSocksRecvWriteLoop rounds
        else return .done

/-- `client_socks_recv_send_out`; `false` is the return value `-1`. -/
def clientSocksRecvSendOut : M P Bool := do
  let c ← client
  let used := c.socksRecvBufUsed.getD 0
  assert (c.clientClosed = false)
  assert (c.socksUp = true)
  assert (0 < used)
  assert (c.socksRecvBufSent < used)
  assert (c.socksRecvWaiting = false)
  if (← clientSocksRecvWriteLoop (used - c.socksRecvBufSent)) = .failed then
    clientAbortClient
    return false
  else if (← tcpOutput) ≠ .ok then
    clientAbortClient
    return false
  else
    let c ← client
    if c.socksRecvBufSent < used then
      if c.socksRecvTcpPending = 0 then
        -- nothing queued and nothing to wait for
        clientAbortClient
        return false
      else
        setClient fun c => { c with socksRecvWaiting := true }
        return true
    else
      setClient fun c => { c with socksRecvBufUsed := none }
      return true

def clientSocksRecvHandlerDone (dataLen : ℕ) : M P Unit := do
  let c ← client
  assert (0 < dataLen)
  assert (dataLen ≤ P.socksRecvBufSize)
  assert (c.socksClosed = false)
  assert (c.socksUp = true)
  assert (c.socksRecvBufUsed = none)
  -- if client was closed, stop receiving
  if c.clientClosed = true then pure ()
  else
    setClient fun c => { c with
      socksRecvBufUsed := some dataLen, socksRecvBufSent := 0, socksRecvWaiting := false }
    if (← clientSocksRecvSendOut) = false then pure ()
    else if (← client).socksRecvBufUsed = none then clientSocksRecvInitiate
    else pure ()

/-! ### SOCKS events and jobs -/

/-- `client_socks_handler` for `BSOCKSCLIENT_EVENT_UP`. -/
def clientSocksUp : M P Unit := do
  let c ← client
  assert (c.socksUp = false)
  setClient fun c => { c with socksRecvBufUsed := none, socksRecvTcpPending := 0 }
  if c.clientClosed = false then tcpSent true else pure ()
  setClient fun c => { c with socksUp := true }
  if 0 < c.bufUsed then clientSendToSocks else pure ()
  if c.clientClosed = false then clientSocksRecvInitiate else pure ()

/-- What SOCKS can do in this state. -/
def SocksEvent.Enabled (c : Conn P) : SocksEvent → Prop
  | .up => c.socks.inits = 1 ∧ c.socks.frees = 0 ∧ c.socks.up = false
  | .error => c.socks.inits = 1 ∧ c.socks.frees = 0
  | .closed => c.socks.inits = 1 ∧ c.socks.frees = 0 ∧ c.socks.up = true
  | .sendDone n => 0 < n ∧ ∃ snap ∈ c.socks.sendOp, n ≤ snap.length
  | .recvDone data => c.socks.recvOp = true ∧ 0 < data.length ∧ data.length ≤ P.socksRecvBufSize

instance (c : Conn P) (e : SocksEvent) : Decidable (e.Enabled c) := by
  cases e <;> unfold SocksEvent.Enabled <;> infer_instance

/-- SOCKS acts and calls the handler: `client_socks_handler` with its assertions and its
three events, or the handler of a completed send or receive. A completed send has read its
bytes from the buffer as it is now, a completed receive has filled the receive buffer. -/
def socksEvent : SocksEvent → M P Unit
  | .up => do
    modify fun m => { m with socks := { m.socks with up := true } }
    assert ((← client).socksClosed = false)
    clientSocksUp
  | .error => do
    assert ((← client).socksClosed = false)
    clientFreeSocks maxDepth
  | .closed => do
    assert ((← client).socksClosed = false)
    assert ((← client).socksUp = true)
    clientFreeSocks maxDepth
  | .sendDone n => do
    let c ← client
    modify fun m => { m with
      socks := { m.socks with sendOp := none, accepted := m.socks.accepted ++ c.buf.take n } }
    clientSocksSendHandlerDone n
  | .recvDone data => do
    if h : 0 + data.length ≤ P.socksRecvBufSize then
      setClient fun c => { c with socksRecvBuf := c.socksRecvBuf.write 0 data h }
      modify fun m => { m with
        socks := { m.socks with recvOp := false, received := m.socks.received ++ data } }
      clientSocksRecvHandlerDone data.length
    else throw .outOfBounds

/-- Run the jobs that can run. -/
def runJobs : List SocksEvent → M P Unit
  | [] => pure ()
  | e :: es => do
    if e.Enabled (← get).toConn then socksEvent e else pure ()
    runJobs es

/-- `SYNC_COMMIT`. -/
def syncCommit : M P Unit := do
  let m ← get
  modify fun m => { m with jobs := [] }
  runJobs m.jobs

/-- `DEAD_ENTER(client->dead_client) SYNC_COMMIT DEAD_LEAVE2(client->dead_client)`; returns
`DEAD_KILLED`. -/
def syncCommitDead : M P Bool := do
  let prev ← deadEnter
  syncCommit
  deadLeave2 prev

/-! ### lwIP callbacks -/

def clientRecvFunc : Option (List Byte) → M P ErrT
  | none => do
    assert ((← client).clientClosed = false)
    clientFreeClient maxDepth
    return .abrt
  | some p => do
    let c ← client
    assert (c.clientClosed = false)
    assert (0 < p.length)
    if P.tcpWnd - c.bufUsed < p.length then return .mem
    else
      pbufCopyPartial p c.bufUsed
      setClient fun c => { c with bufUsed := c.bufUsed + p.length }
      let c ← client
      -- nothing in the buffer before, and SOCKS is up: start sending
      if c.bufUsed = p.length ∧ c.socksUp = true then
        assert (c.socksClosed = false)
        clientSendToSocks
        if (← syncCommitDead) = true then return .abrt
        else
          pbufFree
          return .ok
      else
        pbufFree
        return .ok

def clientSentFunc (len : ℕ) : M P ErrT := do
  let c ← client
  assert (c.clientClosed = false)
  assert (c.socksUp = true)
  assert (0 < len)
  assert (len ≤ c.socksRecvTcpPending)
  setClient fun c => { c with socksRecvTcpPending := c.socksRecvTcpPending - len }
  if 0 < c.socksRecvBufUsed.getD 0 then
    assert (c.socksRecvWaiting = true)
    assert (c.socksRecvBufSent < c.socksRecvBufUsed.getD 0)
    setClient fun c => { c with socksRecvWaiting := false }
    if (← clientSocksRecvSendOut) = false then return .abrt
    else
      let c ← client
      -- some data was just queued, so it cannot have been confirmed yet
      assert (0 < c.socksRecvTcpPending)
      if c.socksRecvBufUsed = none ∧ c.socksClosed = false then
        clientSocksRecvInitiate
        if (← syncCommitDead) = true then return .abrt else return .ok
      else return .ok
  else
    let c ← client
    -- everything was sent after SOCKS was closed
    if c.socksClosed = true ∧ c.socksRecvTcpPending = 0 then
      clientFreeClient maxDepth
      return .abrt
    else return .ok

/-- The calls of `listener_accept_func` that can fail, and what `malloc` finds in memory. -/
structure AcceptOutcome (P : Params) where
  malloc : Bool
  concatStrings : Bool
  socksInit : Bool
  junk : Client P

def listenerAcceptFunc (o : AcceptOutcome P) : M P ErrT := do
  if o.malloc = false then return .mem
  else
    modify fun m => { m with allocs := m.allocs + 1, client := o.junk }
    if o.concatStrings = false ∨ o.socksInit = false then
      freeClient
      return .mem
    else
      modify fun m => { m with socks := { m.socks with inits := m.socks.inits + 1 } }
      setClient fun c => { c with deadClient := none }
      modify fun m => { m with
        tcpClients := m.tcpClients ++ [m.id], numClients := m.numClients + 1 }
      setClient fun c => { c with clientClosed := false }
      tcpErr true
      tcpRecv true
      setClient fun c => { c with bufUsed := 0 }
      setClient fun c => { c with socksUp := false, socksClosed := false }
      if (← syncCommitDead) = true then return .abrt else return .ok

/-! ### Rules for the calls of the environment -/

section Rules

variable {m : Machine P} {Q : Unit → Machine P → Prop}

@[simp] theorem wp_assert (p : Prop) [Decidable p] : wp (assert p) Q m ↔ p ∧ Q () m := by
  simp [assert]

@[simp] theorem wp_client {R : Client P → Machine P → Prop} :
    wp client R m ↔ m.Live ∧ R m.client m := by
  simp [client]

@[simp] theorem wp_setClient (f : Client P → Client P) :
    wp (setClient f) Q m ↔ m.Live ∧ Q () { m with client := f m.client } := by
  simp [setClient]

@[simp] theorem wp_freeClient :
    wp freeClient Q m ↔ m.Live ∧ Q () { m with frees := m.frees + 1 } := by
  simp [freeClient]

@[simp] theorem wp_onPcb (f : Pcb → Pcb) :
    wp (onPcb f) Q m ↔ m.pcb.releases = [] ∧ Q () { m with pcb := f m.pcb } := by
  simp [onPcb]

@[simp] theorem wp_nextReply {R : Reply → Machine P → Prop} :
    wp nextReply R m ↔
      R (m.replies.headD ⟨.ok, 0⟩) { m with replies := m.replies.tail } := by
  simp [nextReply]

@[simp] theorem wp_onSocks (f : Socks → Socks) :
    wp (onSocks f) Q m ↔
      (m.socks.inits = 1 ∧ m.socks.frees = 0) ∧ Q () { m with socks := f m.socks } := by
  simp [onSocks]

end Rules

end Tun2Socks.TcpClient
