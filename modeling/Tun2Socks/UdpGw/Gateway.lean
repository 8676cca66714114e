import Tun2Socks.UdpGw.Client

/-!
# The connections of the udpgw server

`udpgw.c`, for any number of clients: the objects the server keeps for its connections, and every
way in which they are made, used, closed and freed. What the packets carry is the subject of
`Tun2Socks.UdpGw.Server`; here a packet is a use of its connection.

* A client has a tree of its connections by id, a list of them in the order of last use, and their
  number. A connection that is closed while a packet of it is at the output is not freed yet: it
  goes to a second list, without its UDP side, and is freed when the packet has left.
* The fair queue of a client is seen through the flow whose packet is at the output,
  `sendingFlow`. The queue chooses it, and calls the busy handler of the flow when it is done.
* A connection to a remote address gets one of the configured local ports that no other connection
  to this address has. If there is none, the connection that was not used for the longest time
  gives up its own.

A connection that is being made is a value: nothing refers to it until it is linked, and if a step
fails it is gone. Every connection that was linked keeps its place in memory for ever, with how
often its UDP side and the structure were freed. `uses` is the order in which connections were
used.
-/

namespace Tun2Socks.UdpGw.Gateway

open Framework Net Client Function

/-! ### The state -/

/-- `struct connection`. -/
structure Connection where
  client : ℕ
  conid : Word16
  addr : BAddr
  origAddr : BAddr
  lastUseTime : ℤ
  closing : Bool
  /-- `first_job` is set. -/
  firstJob : Bool
  /-- The busy handler of `send_qflow` is set. -/
  handlerBusy : Bool
  localPortIndex : ℤ
  /-- The structure is allocated. -/
  live : Bool
  /-- The UDP side is there. -/
  udp : Bool
  /-- How often the UDP side was used and freed, and the structure freed. -/
  udpUses : ℕ
  udpFrees : ℕ
  frees : ℕ
  deriving DecidableEq

/-- Memory that was not used. -/
def Connection.blank : Connection :=
  ⟨0, ⟨0, 0⟩, .none, .none, 0, false, false, false, -1, false, false, 0, 0, 0⟩

/-- The UDP side is freed. -/
def Connection.freedUdp (c : Connection) : Connection :=
  { c with udp := false, udpFrees := c.udpFrees + 1 }

/-- The first job and the structure are freed. -/
def Connection.freed (c : Connection) : Connection :=
  { c with firstJob := false, live := false, frees := c.frees + 1 }

/-- The busy handler is set. -/
def Connection.handled (c : Connection) : Connection := { c with handlerBusy := true }

/-- The connection is closing, without its first job. -/
def Connection.closed (c : Connection) : Connection := { c with firstJob := false, closing := true }

/-- The busy handler is called once. -/
def Connection.unhandled (c : Connection) : Connection := { c with handlerBusy := false }

/-- The first job is no longer set. -/
def Connection.jobRun (c : Connection) : Connection := { c with firstJob := false }

/-- The connection is used at this time. -/
def Connection.touched (time : ℤ) (c : Connection) : Connection := { c with lastUseTime := time }

/-- The UDP side is used. -/
def Connection.usedUdp (c : Connection) : Connection := { c with udpUses := c.udpUses + 1 }

/-- `struct client`. -/
structure ClientState where
  /-- The tree, in order. -/
  connectionsTree : List ℕ
  connectionsList : List ℕ
  numConnections : ℤ
  closingConnectionsList : List ℕ
  /-- `send_queue.sending_flow`. -/
  sendingFlow : Option ℕ
  /-- `send_queue.freeing`. -/
  freeing : Bool

/-- A new client. -/
def ClientState.empty : ClientState := ⟨[], [], 0, [], none, false⟩

/-- The options, as the arguments are checked. -/
structure Options where
  udpMtu : ℕ
  maxClients : ℕ
  maxConnectionsForClient : ℕ
  max_pos : 0 < maxConnectionsForClient
  /-- The number of local ports, negative if there are none to choose from. -/
  localUdpNumPorts : ℤ
  localUdpIp6NumPorts : ℤ
  /-- The first local port. -/
  localUdpPort : Word16
  localUdpIp6Port : Word16
  uniqueLocalPorts : Bool

/-- The globals, and the memory of the connections. -/
structure State where
  connections : ℕ → Connection
  /-- The memory below is or was in use. -/
  allocated : ℕ
  clients : ℕ → ClientState
  clientsList : List ℕ
  numClients : ℕ
  nextClient : ℕ
  uses : List ℕ

/-- What the code checks or relies on. -/
inductive Fault
  /-- An `ASSERT`. -/
  | assertion
  /-- A node is taken out of a tree or a list it is not in. -/
  | notLinked
  /-- Memory, or a UDP side, is used or freed that is not there. -/
  | freed
  /-- A loop does not end. -/
  | diverges
  deriving DecidableEq, Repr

abbrev M := Checked Fault State

/-- `ASSERT`. -/
def assert (p : Prop) [Decidable p] : M Unit := ensure p .assertion

namespace State

variable (s : State)

/-- One connection is written. -/
def setConnection (con : ℕ) (f : Connection → Connection) : State :=
  { s with connections := update s.connections con (f (s.connections con)) }

/-- One client is written. -/
def setClient (client : ℕ) (f : ClientState → ClientState) : State :=
  { s with clients := update s.clients client (f (s.clients client)) }

/-- The id of a connection. -/
def conidOf (con : ℕ) : Word16 := (s.connections con).conid

/-- The client of a connection. -/
def clientOf (con : ℕ) : ClientState := s.clients (s.connections con).client

end State

/-- A connection is read through a pointer. -/
def deref (con : ℕ) : M Connection := do
  let s ← get
  ensure ((s.connections con).live = true) .freed
  pure (s.connections con)

variable (o : ByteOrder) (options : Options)

def findConnection (s : State) (client : ℕ) (conid : Word16) : Option ℕ :=
  InOrder.lookup (uint16Comparator o) s.conidOf conid (s.clients client).connectionsTree

/-! ### The flows -/

/-- `PacketPassFairQueueFlow_IsBusy`. -/
def isBusy (con : ℕ) : M Bool := do
  let s ← get
  assert ((s.clientOf con).freeing = false)
  pure ((s.clientOf con).sendingFlow = some con)

/-- `PacketPassFairQueueFlow_AssertFree`. -/
def assertFree (con : ℕ) : M Unit := do
  let s ← get
  assert ((s.clientOf con).freeing = true ∨ (s.clientOf con).sendingFlow ≠ some con)

/-- `PacketPassFairQueueFlow_SetBusyHandler`. -/
def setBusyHandler (con : ℕ) : M Unit := do
  let s ← get
  assert ((s.clientOf con).sendingFlow = some con)
  assert ((s.clientOf con).freeing = false)
  modify fun s => s.setConnection con Connection.handled

/-- `PacketPassFairQueueFlow_Free`. -/
def flowFree (con : ℕ) : M Unit := do
  assertFree con
  modify fun s => s.setClient (s.connections con).client fun k => { k with
    sendingFlow := if k.sendingFlow = some con then none else k.sendingFlow }

/-! ### Freeing and closing -/

/-- The number, the list and the tree no longer count the connection. -/
def unlink (con : ℕ) : M Unit := do
  let s ← get
  ensure (con ∈ (s.clientOf con).connectionsList) .notLinked
  ensure (con ∈ (s.clientOf con).connectionsTree) .notLinked
  modify fun s => s.setClient (s.connections con).client fun k => { k with
    numConnections := k.numConnections - 1
    connectionsList := k.connectionsList.erase con
    connectionsTree := k.connectionsTree.erase con }

/-- `connection_free_udp`. -/
def connectionFreeUdp (con : ℕ) : M Unit := do
  let s ← get
  ensure ((s.connections con).udp = true) .freed
  modify fun s => s.setConnection con Connection.freedUdp

/-- The connection leaves the list of closing connections. -/
def unlinkClosing (con : ℕ) : M Unit := do
  let s ← get
  ensure (con ∈ (s.clientOf con).closingConnectionsList) .notLinked
  modify fun s => s.setClient (s.connections con).client fun k => { k with
    closingConnectionsList := k.closingConnectionsList.erase con }

/-- The connection joins the list of closing connections. -/
def linkClosing (con : ℕ) : M Unit :=
  modify fun s => s.setClient (s.connections con).client fun k => { k with
    closingConnectionsList := k.closingConnectionsList ++ [con] }

/-- `connection_free`. -/
def connectionFree (con : ℕ) : M Unit := do
  let c ← deref con
  assertFree con
  if c.closing then unlinkClosing con
  else
    unlink con
    connectionFreeUdp con
  flowFree con
  modify fun s => s.setConnection con Connection.freed

/-- `connection_close`. -/
def connectionClose (con : ℕ) : M Unit := do
  let c ← deref con
  assert (c.closing = false)
  if ← isBusy con then
    unlink con
    connectionFreeUdp con
    linkClosing con
    setBusyHandler con
    modify fun s => s.setConnection con Connection.closed
  else connectionFree con

/-- `connection_send_qflow_busy_handler`. -/
def connectionSendQflowBusyHandler (con : ℕ) : M Unit := do
  let c ← deref con
  assert (c.closing = true)
  assertFree con
  connectionFree con

/-- `output_handler_done` of the fair queue: the packet of a flow has left. -/
def outputHandlerDone (client : ℕ) : M Unit := do
  let s ← get
  match (s.clients client).sendingFlow with
  | none => throw .assertion
  | some con =>
    modify fun s => s.setClient client fun k => { k with sendingFlow := none }
    let c ← deref con
    if c.handlerBusy then
      modify fun s => s.setConnection con Connection.unhandled
      connectionSendQflowBusyHandler con

/-! ### Using -/

/-- The time of the last use is set, and the connection goes to the end of the list. -/
def touch (con : ℕ) (time : ℤ) : M Unit := do
  modify fun s => s.setConnection con (Connection.touched time)
  let s ← get
  ensure (con ∈ (s.clientOf con).connectionsList) .notLinked
  modify fun s => { s.setClient (s.connections con).client fun k => { k with
      connectionsList := k.connectionsList.erase con ++ [con] } with
    uses := s.uses ++ [con] }

/-- Something is done with the UDP side. -/
def useUdp (con : ℕ) : M Unit := do
  let s ← get
  ensure ((s.connections con).udp = true) .freed
  modify fun s => s.setConnection con Connection.usedUdp

/-- `connection_send_to_udp`. -/
def connectionSendToUdp (con : ℕ) (time : ℤ) : M Unit := do
  let c ← deref con
  assert (c.closing = false)
  touch con time
  useUdp con

/-- `connection_first_job_handler`, called when the job runs. -/
def connectionFirstJobHandler (con : ℕ) (time : ℤ) : M Unit := do
  modify fun s => s.setConnection con Connection.jobRun
  let c ← deref con
  assert (c.closing = false)
  connectionSendToUdp con time

/-- `connection_udp_recv_if_handler_send`, without what it sends to the client. -/
def connectionUdpRecvIfHandlerSend (con : ℕ) (time : ℤ) : M Unit := do
  let c ← deref con
  assert (c.closing = false)
  touch con time
  useUdp con

/-- `connection_dgram_handler_event`. -/
def connectionDgramHandlerEvent (con : ℕ) : M Unit := do
  let c ← deref con
  assert (c.closing = false)
  connectionClose con

/-! ### Local ports -/

/-- `get_local_num_ports`. -/
def getLocalNumPorts : BAddr → ℤ
  | .none => 0
  | .ipv4 _ _ => options.localUdpNumPorts
  | .ipv6 _ _ => options.localUdpIp6NumPorts

/-- `BAddr_Compare`. -/
def bAddrCompare (addr1 addr2 : BAddr) : Bool := addr1 ≠ .none ∧ addr1 = addr2

/-- `BAddr_GetIPAddr`. -/
def bAddrGetIPAddr : BAddr → BIPAddr
  | .none => .none
  | .ipv4 ip _ => .ipv4 ip
  | .ipv6 ip _ => .ipv6 ip

/-- `BIPAddr_Compare`. -/
def bipAddrCompare (addr1 addr2 : BIPAddr) : Bool := addr1 ≠ .none ∧ addr1 = addr2

/-- Two connections to these addresses must not have the same local port. -/
def sameRemote (addr1 addr2 : BAddr) : Bool :=
  if options.uniqueLocalPorts then bipAddrCompare (bAddrGetIPAddr addr1) (bAddrGetIPAddr addr2)
  else bAddrCompare addr1 addr2

/-- The ports that are taken, and the connection that was not used for the longest time. -/
structure PortUsage where
  portUsage : List Bool
  leastCon : Option ℕ

/-- A connection is a better choice than the one found so far. -/
def isLessUsed (con : Connection) : Option ℕ → M Bool
  | none => pure true
  | some leastCon => do
    let least ← deref leastCon
    pure (con.lastUseTime < least.lastUseTime)

/-- The body of the loops of `build_port_usage_array_and_find_least_used_connection`. -/
def visitConnection (remoteAddr : BAddr) (usage : PortUsage) (entry : ℕ × ℕ) : M PortUsage := do
  let c ← deref entry.2
  assert (c.client = entry.1)
  assert (c.closing = false)
  if c.addr.type ≠ remoteAddr.type ∨ c.localPortIndex < 0 then pure usage
  else
    assert (c.localPortIndex < getLocalNumPorts options remoteAddr)
    if sameRemote options c.addr remoteAddr then
      let portUsage := usage.portUsage.set c.localPortIndex.toNat true
      if ← isBusy entry.2 then pure ⟨portUsage, usage.leastCon⟩
      else do
        if ← isLessUsed c usage.leastCon then pure ⟨portUsage, some entry.2⟩
        else pure ⟨portUsage, usage.leastCon⟩
    else pure usage

/-- The connections of all clients, in the order of the loops. -/
def State.entries (s : State) : List (ℕ × ℕ) :=
  s.clientsList.flatMap fun client =>
    (s.clients client).connectionsList.map fun con => (client, con)

def buildPortUsageArrayAndFindLeastUsedConnection (remoteAddr : BAddr) : M PortUsage := do
  assert (remoteAddr ≠ .none)
  assert (0 ≤ getLocalNumPorts options remoteAddr)
  let s ← get
  s.entries.foldlM (visitConnection options remoteAddr)
    ⟨List.replicate (getLocalNumPorts options remoteAddr).toNat false, none⟩

/-- What `connection_init` finds: the time; whether there is memory for the connection, its flow and
its socket; for the usage array; whether the socket option can be set; which ports can be bound,
and whether the one of the closed connection can; and whether there is memory for the two
buffers. -/
structure Environment where
  time : ℤ
  malloc : Bool
  sendPpflow : Bool
  udpDgram : Bool
  portUsage : Bool
  setReuseAddr : Bool
  bind : ℕ → Bool
  bindLeast : Bool
  udpSendBuffer : Bool
  udpRecvBuffer : Bool
  dnsAddr : BAddr

/-- The connection that was not used for the longest time is closed for its port. -/
def stealPort (addr : BAddr) (env : Environment) : Option ℕ → M ℤ
  | none => pure (-1)
  | some leastCon => do
    let least ← deref leastCon
    assert (least.addr.type = addr.type)
    assert (0 ≤ least.localPortIndex)
    assert (least.localPortIndex < getLocalNumPorts options addr)
    let busy ← isBusy leastCon
    assert (busy = false)
    connectionClose leastCon
    pure (if env.bindLeast then least.localPortIndex else -1)

/-- The first port that is not taken and can be bound. -/
def tryPorts (portUsage : List Bool) (env : Environment) : Option ℕ :=
  (List.range portUsage.length).find? fun i => portUsage[i]? = some false ∧ env.bind i = true

/-- The socket of a new connection is bound: the `local_port_index`. -/
def bindLocalPort (addr : BAddr) (env : Environment) : M ℤ := do
  if getLocalNumPorts options addr < 0 ∨ env.portUsage = false then pure (-1)
  else
    let usage ← buildPortUsageArrayAndFindLeastUsedConnection options addr
    if env.setReuseAddr = false then pure (-1)
    else
      match tryPorts usage.portUsage env with
      | some i => pure i
      | none => stealPort options addr env usage.leastCon

/-- The port of `get_local_addr`. -/
def getLocalPort : BAddr → Word16
  | .none => ⟨0, 0⟩
  | .ipv4 _ _ => options.localUdpPort
  | .ipv6 _ _ => options.localUdpIp6Port

/-- The port number that belongs to `local_port_index`. -/
def localPort (c : Connection) : Word16 :=
  hton16 o (Word16.ofNat o
    ((ntoh16 o (getLocalPort options c.addr)).toNat o + c.localPortIndex.toNat))

/-! ### New connections -/

/-- The end of `connection_init`: the connection is linked. -/
def link (c : Connection) : M Unit := do
  modify fun s => { s with
    connections := update s.connections s.allocated c
    allocated := s.allocated + 1 }
  let s ← get
  match InOrder.insert (uint16Comparator o) s.conidOf (s.allocated - 1)
      (s.clients c.client).connectionsTree with
  | none => throw .assertion
  | some t =>
    modify fun s => { s.setClient c.client fun k => { k with
        connectionsTree := t
        connectionsList := k.connectionsList ++ [s.allocated - 1]
        numConnections := k.numConnections + 1 } with
      uses := s.uses ++ [s.allocated - 1] }

/-- `connection_init`. -/
def connectionInit (client : ℕ) (conid : Word16) (addr origAddr : BAddr) (env : Environment) :
    M Unit := do
  let s ← get
  assert ((s.clients client).numConnections < options.maxConnectionsForClient)
  assert (findConnection o s client conid = none)
  assert (addr ≠ .none)
  assert (origAddr ≠ .none)
  if env.malloc = false ∨ env.sendPpflow = false ∨ env.udpDgram = false then pure ()
  else
    let localPortIndex ← bindLocalPort options addr env
    if env.udpSendBuffer = false ∨ env.udpRecvBuffer = false then pure ()
    else link o {
      client, conid, addr, origAddr, localPortIndex
      lastUseTime := env.time
      closing := false
      firstJob := true
      handlerBusy := false
      live := true
      udp := true
      udpUses := 0
      udpFrees := 0
      frees := 0 }

/-! ### Clients -/

/-- The old connection of an id, closed if it is not the one the message is for. -/
def closeOld (client : ℕ) (parsed : Parsed) : M (Option ℕ) := do
  let s ← get
  match findConnection o s client parsed.conid with
  | none => pure none
  | some con =>
    let c ← deref con
    assert (c.closing = false)
    if hasFlag parsed.flags flagRebind ∨ bAddrCompare c.origAddr parsed.addr = false then
      connectionClose con
      pure none
    else pure (some con)

/-- The least recently used connection of a client is closed if it has as many as it may have. -/
def makeRoom (client : ℕ) : M Unit := do
  let s ← get
  if (s.clients client).numConnections = options.maxConnectionsForClient then
    match (s.clients client).connectionsList.head? with
    | none => throw .notLinked
    | some con => connectionClose con

/-- `client_recv_if_handler_send`, once the message is parsed. -/
def submitMessage (client : ℕ) (parsed : Parsed) (env : Environment) : M Unit := do
  match ← closeOld o client parsed with
  | some con => connectionSendToUdp con env.time
  | none =>
    makeRoom options client
    let addr := if hasFlag parsed.flags flagDns ∧ env.dnsAddr ≠ .none then env.dnsAddr
      else parsed.addr
    connectionInit o options client parsed.conid addr parsed.addr env

/-- `client_recv_if_handler_send`. -/
def clientRecvIfHandlerSend (client : ℕ) (data : List Byte) (env : Environment) : M Unit :=
  match clientRecvParse o options.udpMtu data with
  | .error _ => pure ()
  | .ok none => pure ()
  | .ok (some parsed) => submitMessage o options client parsed env

/-- `listener_handler`; `ok` says whether everything a client needs can be set up. -/
def listenerHandler (ok : Bool) : M Unit := do
  let s ← get
  if s.numClients = options.maxClients ∨ ok = false then pure ()
  else modify fun s => { s with
    clients := update s.clients s.nextClient ClientState.empty
    clientsList := s.clientsList ++ [s.nextClient]
    numClients := s.numClients + 1
    nextClient := s.nextClient + 1 }

/-- `while (!LinkedList1_IsEmpty(list)) connection_free(first)`, for at most so many rounds. -/
def freeAll (list : ClientState → List ℕ) (client : ℕ) : ℕ → M Unit
  | 0 => throw .diverges
  | rounds + 1 => do
    let s ← get
    match (list (s.clients client)).head? with
    | none => pure ()
    | some con =>
      connectionFree con
      freeAll list client rounds

/-- `client_free`. -/
def clientFree (client : ℕ) : M Unit := do
  modify fun s => s.setClient client fun k => { k with freeing := true }
  let s ← get
  freeAll ClientState.connectionsList client ((s.clients client).connectionsList.length + 1)
  freeAll ClientState.closingConnectionsList client
    ((s.clients client).closingConnectionsList.length + 1)
  modify fun s => { s with
    clientsList := s.clientsList.erase client
    numClients := s.numClients - 1 }

/-! ### The system -/

/-- The server, and the fault that has stopped it. -/
structure World where
  state : State
  fault : Option Fault

inductive Label
  /-- A client connects. -/
  | connect (ok : Bool)
  /-- A message of a client. -/
  | message (client : ℕ) (data : List Byte) (env : Environment)
  /-- A client is disconnected, has sent nothing for too long, or has sent garbage. -/
  | disconnect (client : ℕ)
  /-- The queue of its client takes a packet of the connection to the output. -/
  | schedule (con : ℕ)
  /-- The packet at the output of a client has left. -/
  | sendDone (client : ℕ)
  /-- The first job of a connection runs. -/
  | firstJob (con : ℕ) (time : ℤ)
  /-- A datagram has arrived for a connection. -/
  | udpArrives (con : ℕ) (time : ℤ)
  /-- The socket of a connection reports an error. -/
  | udpError (con : ℕ)

/-- What a label does. -/
def act : Label → M Unit
  | .connect ok => listenerHandler options ok
  | .message client data env => clientRecvIfHandlerSend o options client data env
  | .disconnect client => clientFree client
  | .schedule con => modify fun s => s.setClient (s.connections con).client fun k => { k with
      sendingFlow := some con }
  | .sendDone client => outputHandlerDone client
  | .firstJob con time => connectionFirstJobHandler con time
  | .udpArrives con time => connectionUdpRecvIfHandlerSend con time
  | .udpError con => connectionDgramHandlerEvent con

/-- When it can happen: with a client that is there, a flow that is there while the output is free,
a packet at the output, a job that is set, and a socket that is open. -/
def Enabled (s : State) : Label → Prop
  | .connect _ => True
  | .message client _ _ => client ∈ s.clientsList
  | .disconnect client => client ∈ s.clientsList
  | .schedule con => (s.connections con).live = true ∧ (s.clientOf con).sendingFlow = none
  | .sendDone client => client ∈ s.clientsList ∧ (s.clients client).sendingFlow ≠ none
  | .firstJob con _ => (s.connections con).firstJob = true
  | .udpArrives con _ => (s.connections con).udp = true
  | .udpError con => (s.connections con).udp = true

instance (s : State) : ∀ l, Decidable (Enabled s l)
  | .connect _ => .isTrue trivial
  | .message client _ _ => inferInstanceAs (Decidable (client ∈ s.clientsList))
  | .disconnect client => inferInstanceAs (Decidable (client ∈ s.clientsList))
  | .schedule _ => inferInstanceAs (Decidable (_ ∧ _))
  | .sendDone _ => inferInstanceAs (Decidable (_ ∧ _))
  | .firstJob _ _ => inferInstanceAs (Decidable (_ = _))
  | .udpArrives _ _ => inferInstanceAs (Decidable (_ = _))
  | .udpError _ => inferInstanceAs (Decidable (_ = _))

/-- The state a call leaves. -/
def World.leave (w : World) : Except Fault (Unit × State) → World
  | .ok (_, s) => { w with state := s }
  | .error f => { w with fault := some f }

def next (w : World) (l : Label) : Option World :=
  if w.fault = none ∧ Enabled w.state l then some (w.leave ((act o options l).run w.state)) else none

/-- The server has started. -/
def initial : State := ⟨fun _ => Connection.blank, 0, fun _ => ClientState.empty, [], 0, 0, []⟩

def system : System World Label where
  init := ⟨initial, none⟩
  next := next o options

end Tun2Socks.UdpGw.Gateway
