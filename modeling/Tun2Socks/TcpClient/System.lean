import Tun2Socks.Framework.System
import Tun2Socks.TcpClient.Callbacks

/-!
# All TCP clients together

The state of the program is the list of its connections, in the order lwIP accepted them,
with `tcp_clients` and `num_clients`. A label is one entry into the program, with every
choice lwIP, SOCKS and `malloc` make during it:

* lwIP accepts a connection, delivers data or the end of it, reports acknowledged data, or
  reports that it has lost a pcb. It calls what is registered on a pcb it still has, never
  delivers more than the window, and never reports more than was written;
* SOCKS raises an event or completes an operation;
* the reactor ends, and then the clients that are left are murdered, first to last.

A fault stops the system. The state also records what the callbacks returned, and whether
the program had released the pcb by then.
-/

namespace Tun2Socks.TcpClient

open Framework

variable {P : Params}

/-- The callbacks that return an `err_t`. -/
inductive Callback
  | accept
  | recv
  | sent
  deriving DecidableEq, Repr

/-- What a callback returned. -/
structure Return where
  callback : Callback
  err : ErrT
  /-- The program released the pcb during the callback. -/
  released : Bool
  deriving DecidableEq, Repr

/-- The state of the program. -/
structure World (P : Params) where
  conns : List (Conn P)
  tcpClients : List ℕ
  numClients : ℕ
  /-- `BReactor_Exec` has returned. -/
  quitting : Bool
  fault : Option Fault
  returns : List Return

/-- One entry into the program. -/
inductive Label (P : Params)
  | accept (o : AcceptOutcome P) (replies : List Reply) (jobs : List SocksEvent)
  | recv (i : ℕ) (p : Option (List Byte)) (replies : List Reply) (jobs : List SocksEvent)
  | sent (i len : ℕ) (replies : List Reply) (jobs : List SocksEvent)
  | err (i : ℕ)
  | socks (i : ℕ) (e : SocksEvent) (replies : List Reply)
  | quit
  | murder

/-! ### What lwIP may do -/

/-- lwIP may deliver `p`: it has the pcb, the callback is set, and the window allows it. -/
def Conn.CanRecv (c : Conn P) (p : Option (List Byte)) : Prop :=
  c.pcb.releases = [] ∧ c.pcb.recvFn = true ∧
    ∀ data ∈ p, 0 < data.length ∧
      c.pcb.delivered.length - c.pcb.credited + data.length ≤ P.tcpWnd

/-- lwIP may report `len` bytes as acknowledged. -/
def Conn.CanSent (c : Conn P) (len : ℕ) : Prop :=
  c.pcb.releases = [] ∧ c.pcb.sentFn = true ∧ 0 < len ∧
    c.pcb.acked + len ≤ c.pcb.written.length

/-- lwIP may lose the pcb. -/
def Conn.CanErr (c : Conn P) : Prop := c.pcb.releases = [] ∧ c.pcb.errFn = true

instance (c : Conn P) (p : Option (List Byte)) : Decidable (c.CanRecv p) := by
  unfold Conn.CanRecv
  infer_instance

instance (c : Conn P) (len : ℕ) : Decidable (c.CanSent len) := by
  unfold Conn.CanSent
  infer_instance

instance (c : Conn P) : Decidable c.CanErr := by
  unfold Conn.CanErr
  infer_instance

/-! ### Steps -/

namespace World

variable (w : World P)

/-- The reactor runs. -/
def Running : Prop := w.fault = none ∧ w.quitting = false

instance : Decidable w.Running := by
  unfold Running
  infer_instance

/-- The surroundings of an entry into the program on behalf of connection `i`. -/
def context (i : ℕ) : Context := ⟨i, w.tcpClients, false, 0⟩

/-- The state in which the program is entered on behalf of connection `i`. -/
def machine (i : ℕ) (c : Conn P) (replies : List Reply) (jobs : List SocksEvent) : Machine P :=
  { c with
    pbufFrees := 0
    id := i
    numClients := w.numClients
    tcpClients := w.tcpClients
    frames := []
    replies
    jobs }

/-- The program returns in the state `m`, or stops with a fault. -/
def leave {α : Type} (conns : Conn P → List (Conn P)) (returns : α → Machine P → List Return) :
    Except Fault (α × Machine P) → World P
  | .error f => { w with fault := some f }
  | .ok (a, m) => { w with
      conns := conns m.toConn
      tcpClients := m.tcpClients
      numClients := m.numClients
      returns := w.returns ++ returns a m }

/-- A callback of connection `i` returns. -/
def leaveCallback (i : ℕ) (callback : Callback) : Except Fault (ErrT × Machine P) → World P :=
  w.leave (w.conns.set i) fun err m => [⟨callback, err, m.pcb.releases ≠ []⟩]

/-- Something else that concerns connection `i` returns. -/
def leaveHandler (i : ℕ) : Except Fault (Unit × Machine P) → World P :=
  w.leave (w.conns.set i) fun _ _ => []

end World

/-- lwIP aborts a connection whose accept callback fails. -/
def afterAccept (err : ErrT) (m : Machine P) : Machine P :=
  if err = .ok ∨ err = .abrt then m
  else { m with pcb := { m.pcb with
    releases := m.pcb.releases ++ [⟨.lost, m.socks.frees ≠ 0⟩] } }

/-- `listener_accept_func`, and what lwIP does with its answer. -/
def acceptConn (o : AcceptOutcome P) : M P (ErrT × Bool) := do
  let err ← listenerAcceptFunc o
  let m ← get
  modify (afterAccept err)
  return (err, m.pcb.releases ≠ [])

/-- lwIP frees the pcb and calls `client_err_func`. -/
def loseConn : M P Unit := do
  release .lost
  clientErrFunc

/-- lwIP counts the acknowledged bytes and calls `client_sent_func`. -/
def ackConn (len : ℕ) : M P ErrT := do
  modify fun m => m.acked len
  clientSentFunc len

/-- One step. -/
def next (w : World P) : Label P → Option (World P)
  | .accept o replies jobs =>
    if w.Running then
      some (w.leave (fun c => w.conns ++ [c]) (fun a _ => [⟨.accept, a.1, a.2⟩])
        ((acceptConn o).run (w.machine w.conns.length (Conn.fresh o.junk) replies jobs)))
    else none
  | .recv i p replies jobs =>
    (w.conns[i]?).bind fun c =>
      if w.Running ∧ c.CanRecv p then
        some (w.leaveCallback i .recv ((clientRecvFunc p).run (w.machine i c replies jobs)))
      else none
  | .sent i len replies jobs =>
    (w.conns[i]?).bind fun c =>
      if w.Running ∧ c.CanSent len then
        some (w.leaveCallback i .sent ((ackConn len).run (w.machine i c replies jobs)))
      else none
  | .err i =>
    (w.conns[i]?).bind fun c =>
      if w.Running ∧ c.CanErr then
        some (w.leaveHandler i (loseConn.run (w.machine i c [] [])))
      else none
  | .socks i e replies =>
    (w.conns[i]?).bind fun c =>
      if w.Running ∧ e.Enabled c then
        some (w.leaveHandler i ((socksEvent e).run (w.machine i c replies [])))
      else none
  | .quit => if w.Running then some { w with quitting := true } else none
  | .murder =>
    if w.fault = none ∧ w.quitting = true then
      w.tcpClients.head?.bind fun i =>
        (w.conns[i]?).bind fun c => some (w.leaveHandler i (clientMurder.run (w.machine i c [] [])))
    else none

/-- The program with no clients. -/
def system (P : Params) : System (World P) (Label P) where
  init := ⟨[], [], 0, false, none, []⟩
  next := next

/-! ### A small instance -/

/-- Two buffers of four bytes. -/
def small : Params := ⟨4, 4⟩

/-- Memory in which `malloc` finds zeros. -/
def zeroClient : Client small where
  deadClient := none
  clientClosed := false
  buf := .four 0 0 0 0
  bufUsed := 0
  socksUp := false
  socksClosed := false
  socksRecvBuf := .four 0 0 0 0
  socksRecvBufUsed := none
  socksRecvBufSent := 0
  socksRecvWaiting := false
  socksRecvTcpPending := 0

/-- An accept in which nothing fails. -/
def goodAccept : AcceptOutcome small := ⟨true, true, true, zeroClient⟩

end Tun2Socks.TcpClient
