import Tun2Socks.UdpGw.Client

/-!
# The udpgw server

`udpgw.c`, for one client: the connections of the client, each with a UDP socket, the messages
that arrive for them and the datagrams that arrive at their sockets.

* The connections are kept in the order of `connections_list`, and found in it by their id. A
  connection that is closed while its flow is busy goes to `closing_connections_list`: it has no
  socket any more, but what it has to send may still be sent.
* A message for an id that has a connection closes it if the message asks for it or is for another
  address, and is sent through its socket otherwise. A message for an id without a connection
  opens one.
* Which local port a socket gets is left open. Where binding it closes another connection, the
  environment says which.

Every connection carries the pair whose packet it was opened for (`account`), and every message for
the client the pair of its connection.
-/

namespace Tun2Socks.UdpGw.Server

open Framework Net Client

/-! ### The state -/

/-- `struct connection`. -/
structure Connection where
  conid : Word16
  addr : BAddr
  origAddr : BAddr
  firstData : List Byte
  /-- `first_job` is set. -/
  firstJob : Bool
  /-- The messages in `send_ppflow`. -/
  sendIf : List Message
  /-- The datagrams in `udp_send_buffer`. -/
  udpSendBuffer : List (List Byte)
  /-- The pair whose packet it was opened for. -/
  account : ConAddr
  deriving DecidableEq

/-- `struct client`, as far as connections go. -/
structure ClientState where
  connectionsList : List Connection
  closingConnectionsList : List Connection
  deriving DecidableEq

/-- The options. -/
structure Options where
  udpMtu : ℕ
  maxConnectionsForClient : ℕ
  deriving DecidableEq

variable (s : ClientState)

/-- The connection at a place of the list is written. -/
def ClientState.update (i : ℕ) (f : Connection → Connection) : ClientState :=
  { s with connectionsList := s.connectionsList.modify i f }

/-- The connection at a place of the list goes to its end. -/
def ClientState.moveToEnd (i : ℕ) : ClientState :=
  { s with connectionsList := s.connectionsList.eraseIdx i ++ s.connectionsList[i]?.toList }

def findConnection (conid : Word16) : Option ℕ :=
  s.connectionsList.findIdx? fun con => con.conid = conid

/-! ### Closing and sending -/

/-- `connection_close`, if its flow is busy or not. -/
def connectionClose (i : ℕ) (busy : Bool) : ClientState where
  connectionsList := s.connectionsList.eraseIdx i
  closingConnectionsList := s.closingConnectionsList ++
    if busy then s.connectionsList[i]?.toList.map fun con => { con with firstJob := false } else []

/-- `connection_send_to_udp`, if the buffer has room or not. -/
def connectionSendToUdp (i : ℕ) (data : List Byte) (room : Bool) : ClientState :=
  (s.update i fun con => { con with
    udpSendBuffer := con.udpSendBuffer ++ if room then [data] else [] }).moveToEnd i

/-- `connection_first_job_handler`, called when the job runs. -/
def connectionFirstJobHandler (i : ℕ) (room : Bool) : ClientState :=
  match s.connectionsList[i]? with
  | none => s
  | some con =>
    connectionSendToUdp (s.update i fun con => { con with firstJob := false }) i con.firstData room

variable (o : ByteOrder) (options : Options)

/-- `connection_send_to_client`, if the buffer has room or not. -/
def connectionSendToClient (con : Connection) (flags : Byte) (data : List Byte) (room : Bool) :
    Connection :=
  match connectionToClientPacket o (serverMtu options.udpMtu) con.conid con.origAddr flags data with
  | none => con
  | some bytes =>
    { con with sendIf := con.sendIf ++ if room then [⟨bytes, con.account⟩] else [] }

/-- `connection_udp_recv_if_handler_send`: a datagram has arrived at the socket. -/
def connectionUdpRecvIfHandlerSend (i : ℕ) (data : List Byte) (room : Bool) : ClientState :=
  (s.update i fun con => connectionSendToClient o options con 0 data room).moveToEnd i

/-! ### Messages of the client -/

/-- What a message of the client finds: whether the flows of the connections it closes are busy;
the DNS server; whether there is memory for a connection and a socket; the connection that is
closed for its port; whether there is memory for the buffers; and whether the UDP send buffer has
room. -/
structure Environment where
  oldBusy : Bool
  firstBusy : Bool
  dnsAddr : BAddr
  memory : Bool
  leastCon : Option ℕ
  buffers : Bool
  room : Bool
  deriving DecidableEq

/-- `connection_init`, for a packet of the pair `account`. -/
def connectionInit (conid : Word16) (addr origAddr : BAddr) (data : List Byte) (account : ConAddr)
    (env : Environment) : ClientState :=
  if env.memory = false then s
  else
    let s := match env.leastCon with
      | none => s
      | some i => connectionClose s i false
    if env.buffers = false then s
    else { s with connectionsList := s.connectionsList ++
      [⟨conid, addr, origAddr, data, true, [], [], account⟩] }

/-- The old connection of an id, closed if it is not the one the message is for. -/
def closeOld (parsed : Parsed) (busy : Bool) : ClientState × Option ℕ :=
  match findConnection s parsed.conid with
  | none => (s, none)
  | some i =>
    if hasFlag parsed.flags flagRebind ∨ (s.connectionsList[i]?.map (·.origAddr)) ≠ some parsed.addr
    then (connectionClose s i busy, none)
    else (s, some i)

/-- The rest of `client_recv_if_handler_send`, once the message is parsed. -/
def submitMessage (parsed : Parsed) (account : ConAddr) (env : Environment) : ClientState :=
  match closeOld s parsed env.oldBusy with
  | (s, some i) => connectionSendToUdp s i parsed.data env.room
  | (s, none) =>
    let s := if s.connectionsList.length = options.maxConnectionsForClient then
      connectionClose s 0 env.firstBusy else s
    let addr := if hasFlag parsed.flags flagDns ∧ env.dnsAddr ≠ .none then env.dnsAddr
      else parsed.addr
    connectionInit s parsed.conid addr parsed.addr parsed.data account env

/-- `client_recv_if_handler_send`. -/
def clientRecvIfHandlerSend (message : Message) (env : Environment) : ClientState :=
  match clientRecvParse o options.udpMtu message.bytes with
  | .error _ => s
  | .ok none => s
  | .ok (some parsed) => submitMessage s options parsed message.account env

end Tun2Socks.UdpGw.Server
