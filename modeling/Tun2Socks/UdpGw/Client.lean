import Tun2Socks.Framework.Checked
import Tun2Socks.Framework.InOrder
import Tun2Socks.Framework.System
import Tun2Socks.UdpGw.Wire

/-!
# The udpgw client

`UdpGwClient.c`: the table of connections and the messages. A connection stands for a pair of a
local and a remote address (`ConAddr`) and has an id of 16 bits, under which the server knows it.

* The connections are objects in memory, known by their address. Each is linked into two trees,
  by pair and by id, and into a list in the order of last use.
* `submitPacket` finds the connection of a pair, or makes one, or takes the first one of the list
  away from its pair. The first packet of a new connection is sent from a job.
* `recvInterfaceHandlerSend` finds the connection by its id, and compares only the remote address.

What the environment decides comes in with the call: whether memory is there and where
(`Resources`), and whether the send buffer of the connection has room.

The state keeps the pairs in the order in which they were used (`history`), and with every message
the pair whose packet it carries (`Message.account`).
-/

namespace Tun2Socks.UdpGw.Client

open Framework Net Std

/-! ### The state -/

/-- `struct UdpGwClient_conaddr`. -/
structure ConAddr where
  localAddr : BAddr
  remoteAddr : BAddr
  deriving DecidableEq

/-- A message, and the pair whose packet it carries. -/
structure Message where
  bytes : List Byte
  account : ConAddr
  deriving DecidableEq

/-- `struct UdpGwClient_connection`. -/
structure Connection where
  conaddr : ConAddr
  firstFlags : Byte
  firstData : List Byte
  /-- The pair whose packet `firstData` is. -/
  firstAccount : ConAddr
  conid : Word16
  /-- `first_job` is set. -/
  firstJob : Bool
  /-- The messages in `send_ppflow`. -/
  sendIf : List Message
  deriving DecidableEq

/-- The client, as far as connections go. -/
structure UdpGwClient where
  udpMtu : ℕ
  maxConnections : ℕ
  udpgwMtu : ℤ
  connections : ℕ → Connection
  /-- The tree by pair, in order. -/
  connectionsTreeByConaddr : List ℕ
  /-- The tree by id, in order. -/
  connectionsTreeByConid : List ℕ
  connectionsList : List ℕ
  numConnections : ℕ
  nextConid : ℕ
  /-- The pairs for which a packet was submitted or received, in this order. -/
  history : List ConAddr

/-- What the code of the client checks or relies on. -/
inductive Fault
  /-- An `ASSERT`. -/
  | assertion
  /-- A node is taken out of a tree or a list it is not in. -/
  | notLinked
  /-- A loop does not end. -/
  | diverges
  deriving DecidableEq, Repr

abbrev M := Checked Fault UdpGwClient

/-- `ASSERT`. -/
def assert (p : Prop) [Decidable p] : M Unit := ensure p .assertion

variable (o : ByteOrder)

/-- `uint16_comparator`. -/
def uint16Comparator : Word16 → Word16 → Ordering := compareOn fun w => w.toNat o

instance : TransCmp (uint16Comparator o) := inferInstanceAs (TransCmp (compareOn _))

instance : LawfulEqCmp (uint16Comparator o) where
  compare_self := ReflCmp.compare_self
  eq_of_compare h := toNat_injective o (LawfulEqCmp.eq_of_compare h)

/-- `conaddr_comparator`: the remote address first. -/
def conaddrComparator : ConAddr → ConAddr → Ordering :=
  compareLex (comparing (bAddrCompareOrder o) ConAddr.remoteAddr)
    (comparing (bAddrCompareOrder o) ConAddr.localAddr)

instance : TransCmp (conaddrComparator o) := inferInstanceAs (TransCmp (compareLex _ _))

instance : LawfulEqCmp (conaddrComparator o) where
  compare_self := ReflCmp.compare_self
  eq_of_compare {p q} h := by
    obtain ⟨hremote, hlocal⟩ := compareLex_eq_eq.mp h
    have hremote : p.remoteAddr = q.remoteAddr := LawfulEqCmp.eq_of_compare hremote
    have hlocal : p.localAddr = q.localAddr := LawfulEqCmp.eq_of_compare hlocal
    cases p
    cases q
    congr

namespace UdpGwClient

variable (s : UdpGwClient)

/-- One connection is written. -/
def update (con : ℕ) (f : Connection → Connection) : UdpGwClient :=
  { s with connections := Function.update s.connections con (f (s.connections con)) }

/-- The pair of a connection. -/
def conaddrOf (con : ℕ) : ConAddr := (s.connections con).conaddr

/-- The id of a connection. -/
def conidOf (con : ℕ) : Word16 := (s.connections con).conid

def findConnectionByConaddr (conaddr : ConAddr) : Option ℕ :=
  InOrder.lookup (conaddrComparator o) s.conaddrOf conaddr s.connectionsTreeByConaddr

def findConnectionByConid (conid : Word16) : Option ℕ :=
  InOrder.lookup (uint16Comparator o) s.conidOf conid s.connectionsTreeByConid

end UdpGwClient

/-! ### Linking -/

/-- `BAVL_Insert` into the tree by pair. -/
def insertByConaddr (con : ℕ) : M Unit := do
  let s ← get
  match InOrder.insert (conaddrComparator o) s.conaddrOf con s.connectionsTreeByConaddr with
  | none => throw .assertion
  | some t => modify fun s => { s with connectionsTreeByConaddr := t }

/-- `BAVL_Remove` from the tree by pair. -/
def removeByConaddr (con : ℕ) : M Unit := do
  let s ← get
  ensure (con ∈ s.connectionsTreeByConaddr) .notLinked
  modify fun s => { s with connectionsTreeByConaddr := s.connectionsTreeByConaddr.erase con }

/-- `BAVL_Insert` into the tree by id. -/
def insertByConid (con : ℕ) : M Unit := do
  let s ← get
  match InOrder.insert (uint16Comparator o) s.conidOf con s.connectionsTreeByConid with
  | none => throw .assertion
  | some t => modify fun s => { s with connectionsTreeByConid := t }

/-- The connection goes to the end of the list. -/
def moveToEnd (con : ℕ) : M Unit := do
  let s ← get
  ensure (con ∈ s.connectionsList) .notLinked
  modify fun s => { s with connectionsList := s.connectionsList.erase con ++ [con] }

/-! ### Sending -/

/-- `connection_send`, if the buffer has room or not, for a packet of the pair `account`. -/
def connectionSend (con : ℕ) (flags : Byte) (data : List Byte) (account : ConAddr) (room : Bool) :
    M Unit := do
  let s ← get
  assert (data.length ≤ s.udpMtu)
  if room then
    let remoteAddr := (s.connections con).conaddr.remoteAddr
    let bytes := connectionPacket o (s.connections con).conid remoteAddr flags data
    modify fun s => s.update con fun c => { c with sendIf := c.sendIf ++ [⟨bytes, account⟩] }

/-- `connection_first_job_handler`, called when the job runs. -/
def connectionFirstJobHandler (con : ℕ) (room : Bool) : M Unit := do
  modify fun s => s.update con fun c => { c with firstJob := false }
  let c := (← get).connections con
  connectionSend o con (flagRebind ||| c.firstFlags) c.firstData c.firstAccount room

/-! ### New connections -/

/-- What a call finds: the memory `malloc` returns, if any; whether `PacketProtoFlow_Init`
succeeds; and whether the send buffer has room. -/
structure Resources where
  memory : Option ℕ
  flow : Bool
  room : Bool
  deriving DecidableEq, Repr

/-- The loop of `find_unused_conid`, for at most so many rounds. -/
def searchConid : ℕ → M Word16
  | 0 => throw .diverges
  | rounds + 1 => do
    let s ← get
    match s.findConnectionByConid o (Word16.ofNat o s.nextConid) with
    | none => pure (Word16.ofNat o s.nextConid)
    | some _ =>
      modify fun s => { s with
        nextConid := if s.nextConid = s.maxConnections - 1 then 0 else s.nextConid + 1 }
      searchConid rounds

/-- `find_unused_conid`. There are no more ids than `max_connections`, so a search that takes more
rounds goes on for ever. -/
def findUnusedConid : M Word16 := do
  let s ← get
  assert (s.numConnections < s.maxConnections)
  searchConid o s.maxConnections

/-- The end of `connection_init`: the connection is linked. -/
def linkConnection (con : ℕ) : M Unit := do
  insertByConaddr o con
  insertByConid o con
  modify fun s => { s with
    connectionsList := s.connectionsList ++ [con]
    numConnections := s.numConnections + 1 }

def connectionInit (conaddr : ConAddr) (flags : Byte) (data : List Byte) (r : Resources) :
    M Unit := do
  let s ← get
  assert (s.numConnections < s.maxConnections)
  assert (s.findConnectionByConaddr o conaddr = none)
  assert (data.length ≤ s.udpMtu)
  match r.memory with
  | none => pure ()
  | some con =>
    modify fun s => s.update con fun c => { c with
      conaddr, firstFlags := flags, firstData := data, firstAccount := conaddr }
    let conid ← findUnusedConid o
    modify fun s => s.update con fun c => { c with conid, firstJob := true, sendIf := [] }
    if r.flow then linkConnection o con
    else modify fun s => s.update con fun c => { c with firstJob := false }

/-- `reuse_connection`: the connection at the front of the list gets a new pair. -/
def reuseConnection (conaddr : ConAddr) : M ℕ := do
  let s ← get
  assert (s.findConnectionByConaddr o conaddr = none)
  assert (0 < s.numConnections)
  match s.connectionsList.head? with
  | none => throw .notLinked
  | some con =>
    removeByConaddr con
    modify fun s => s.update con fun c => { c with conaddr }
    insertByConaddr o con
    pure con

/-! ### The interface -/

/-- `UdpGwClient_SubmitPacket`, without the connection it looks up first. -/
def submitTo (conaddr : ConAddr) (flags : Byte) (data : List Byte) (r : Resources) :
    Option ℕ → M Unit
  | some con => do
    moveToEnd con
    connectionSend o con flags data conaddr r.room
  | none => do
    let s ← get
    if s.numConnections = s.maxConnections then
      let con ← reuseConnection o conaddr
      moveToEnd con
      connectionSend o con (flags ||| flagRebind) data conaddr r.room
    else connectionInit o conaddr flags data r

def submitPacket (localAddr remoteAddr : BAddr) (isDns : Bool) (data : List Byte)
    (r : Resources) : M Unit := do
  let s ← get
  assert (localAddr ≠ .none)
  assert (remoteAddr ≠ .none)
  assert (data.length ≤ s.udpMtu)
  let conaddr : ConAddr := ⟨localAddr, remoteAddr⟩
  let flags : Byte := if isDns then 0 ||| flagDns else 0
  submitTo o conaddr flags data r (s.findConnectionByConaddr o conaddr)
  modify fun s => { s with history := s.history ++ [conaddr] }

/-- `recv_interface_handler_send`, with what it passes to `handler_received`. -/
def recvInterfaceHandlerSend (data : List Byte) : M (Option (ConAddr × List Byte)) := do
  let s ← get
  assert (data.length ≤ s.udpgwMtu)
  match recvParse o s.udpMtu data with
  | .error _ => pure none
  | .ok parsed =>
    match s.findConnectionByConid o parsed.conid with
    | none => pure none
    | some con =>
      let conaddr := (s.connections con).conaddr
      if bAddrCompareOrder o conaddr.remoteAddr parsed.addr ≠ .eq then pure none
      else
        moveToEnd con
        modify fun s => { s with history := s.history ++ [conaddr] }
        pure (some (conaddr, parsed.data))

/-! ### The system -/

/-- The arguments of `UdpGwClient_Init`, as it asserts them. -/
structure Config where
  udpMtu : ℕ
  maxConnections : ℕ
  mtu_nonneg : 0 ≤ udpgwComputeMtu udpMtu
  mtu_le : udpgwComputeMtu udpMtu ≤ packetprotoMaxpayload
  maxConnections_pos : 0 < maxConnections

/-- `UdpGwClient_Init`. -/
def udpGwClientInit (cfg : Config) : UdpGwClient where
  udpMtu := cfg.udpMtu
  maxConnections := if 65535 + 1 < cfg.maxConnections then 65535 + 1 else cfg.maxConnections
  udpgwMtu := udpgwComputeMtu cfg.udpMtu
  connections := fun _ => ⟨⟨.none, .none⟩, 0, [], ⟨.none, .none⟩, ⟨0, 0⟩, false, []⟩
  connectionsTreeByConaddr := []
  connectionsTreeByConid := []
  connectionsList := []
  numConnections := 0
  nextConid := 0
  history := []

/-- The client, and the fault that has stopped it. -/
structure World where
  client : UdpGwClient
  fault : Option Fault

inductive Label
  | submitPacket (localAddr remoteAddr : BAddr) (isDns : Bool) (data : List Byte) (r : Resources)
  | firstJob (con : ℕ) (room : Bool)
  | received (data : List Byte)

/-- The state a call leaves. -/
def World.leave {α : Type} (w : World) : Except Fault (α × UdpGwClient) → World
  | .ok (_, s) => { w with client := s }
  | .error f => { w with fault := some f }

/-- A packet may be submitted: the addresses and the length are as the interface asks, and the
memory is not in use. -/
def UdpGwClient.CanSubmit (s : UdpGwClient) (localAddr remoteAddr : BAddr) (data : List Byte)
    (r : Resources) : Prop :=
  localAddr ≠ .none ∧ remoteAddr ≠ .none ∧ data.length ≤ s.udpMtu ∧
    ∀ con ∈ r.memory, con ∉ s.connectionsList

instance (s : UdpGwClient) (localAddr remoteAddr : BAddr) (data : List Byte) (r : Resources) :
    Decidable (s.CanSubmit localAddr remoteAddr data r) :=
  inferInstanceAs (Decidable (_ ∧ _ ∧ _ ∧ _))

/-- The job of a connection is set. -/
def UdpGwClient.CanRunFirstJob (s : UdpGwClient) (con : ℕ) : Prop :=
  con ∈ s.connectionsList ∧ (s.connections con).firstJob = true

instance (s : UdpGwClient) (con : ℕ) : Decidable (s.CanRunFirstJob con) :=
  inferInstanceAs (Decidable (_ ∧ _))

def next (w : World) : Label → Option World
  | .submitPacket localAddr remoteAddr isDns data r =>
    if w.fault = none ∧ w.client.CanSubmit localAddr remoteAddr data r then
      some (w.leave ((submitPacket o localAddr remoteAddr isDns data r).run w.client))
    else none
  | .firstJob con room =>
    if w.fault = none ∧ w.client.CanRunFirstJob con then
      some (w.leave ((connectionFirstJobHandler o con room).run w.client))
    else none
  | .received data =>
    if w.fault = none ∧ data.length ≤ w.client.udpgwMtu then
      some (w.leave ((recvInterfaceHandlerSend o data).run w.client))
    else none

def system (cfg : Config) : System World Label where
  init := ⟨udpGwClientInit cfg, none⟩
  next := next o

end Tun2Socks.UdpGw.Client
