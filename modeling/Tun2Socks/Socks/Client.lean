import Tun2Socks.Framework.Checked
import Tun2Socks.Framework.Heap
import Tun2Socks.Net.BAddr

/-!
# The SOCKS client

`BSocksClient.c`: the callbacks that take a `BSocksClient` from the connection to the server
through hello, authentication and request to the up state, as checked programs. One buffer,
reallocated for every message, is what the client sends from and receives into; a fault is

* a failed `ASSERT`;
* an access outside the buffer, or outside the memory that `memcpy` reads;
* a second operation, or a reallocation, while an operation on the buffer is outstanding;
* the use or the release of a part of the object that does not exist.

The environment completes what is outstanding (`Callback`): the connector calls back with
the result of the attempt, a send completes when the whole packet is written, a receive
completes with any part of what was asked for, and the connection may fail or close. It also
decides whether `BRealloc` succeeds; a callback asks for memory at most once.

The table of authentication methods is not part of the object. The object holds a pointer
into it, so every callback reads the table, and the strings it points to, as they are at the
time of the callback: they are the arguments `Env`.

The sizes of all messages are below 1024, so the overflow checks of `bsize_t` never fail and
are left out, and so are the log lines and what the reactor needs.
-/

namespace Tun2Socks.Socks

open Framework Net

/-! ### The object -/

/-- `STATE_*`. -/
inductive State
  | connecting
  | sendingHello
  | sentHello
  | sendingPassword
  | sentPassword
  | sendingRequest
  | sentRequest
  | receivedReplyHeader
  | up
  deriving DecidableEq, Repr

/-- `BSOCKSCLIENT_EVENT_*`. -/
inductive Event
  | error
  | up
  | errorClosed
  deriving DecidableEq, Repr

/-- The union of `BSocksClient_auth_info`: two strings by address and length. -/
structure Password where
  username : ℕ
  usernameLen : ℕ
  password : ℕ
  passwordLen : ℕ
  deriving DecidableEq, Repr

/-- `BSocksClient_auth_info`, as `BSocksClient_auth_none` and `BSocksClient_auth_password`
make it. -/
inductive AuthInfo
  | none
  | password (p : Password)
  deriving DecidableEq, Repr

/-- `auth_type`: no authentication required, or username and password. -/
def AuthInfo.authType : AuthInfo → Byte
  | .none => 0
  | .password _ => 2

/-- The I/O objects on top of the connection. -/
inductive Io
  | none
  | control
  | up
  deriving DecidableEq, Repr

/-- A username/password message that was sent. -/
structure PasswordMessage where
  packet : List Byte
  /-- The string that the username was read from had not been freed. -/
  usernameLive : Bool
  deriving DecidableEq, Repr

/-- `BSocksClient`, with the parts that are initialised, the operations that are outstanding
and what it has done so far. -/
structure Client where
  numAuthInfo : ℕ
  destAddr : BAddr
  state : State
  /-- The buffer, of the size it was last reserved with. -/
  buffer : Option (List Byte)
  /-- `recv_dest`, as an offset into the buffer. -/
  recvDest : ℕ
  recvLen : ℕ
  recvTotal : ℕ
  connector : Bool
  con : Bool
  io : Io
  /-- The packet the sender is writing. -/
  sending : Option (List Byte)
  /-- The offset and the length of the receive that is under way. -/
  receiving : Option (ℕ × ℕ)
  /-- The packets handed to the sender. -/
  sent : List (List Byte)
  events : List Event
  passwordMessages : List PasswordMessage
  deriving DecidableEq

/-- The client has reported an error; it must be freed, and takes no further step. -/
def Client.Failed (o : Client) : Prop := .error ∈ o.events ∨ .errorClosed ∈ o.events

instance (o : Client) : Decidable o.Failed := by
  unfold Client.Failed
  infer_instance

/-- What a callback finds around it. -/
structure Env where
  /-- The table `auth_info` points to. -/
  authInfo : List AuthInfo
  heap : Heap Byte
  /-- `BRealloc` succeeds. -/
  realloc : Bool

/-- Why a callback stops. -/
inductive Fault
  | assert
  | outOfBounds
  | busy
  | notInitialised
  deriving DecidableEq, Repr

/-- A callback of the client. -/
abbrev M := Checked Fault Client

/-! ### The parts of the object -/

def assert (p : Prop) [Decidable p] : M Unit := ensure p .assert

def setState (state : State) : M Unit := modify fun o => { o with state }

/-- `o->handler(o->user, event)`. -/
def callHandler (event : Event) : M Unit :=
  modify fun o => { o with events := o.events ++ [event] }

def reportError (event : Event) : M Unit := callHandler event

def initControlIo : M Unit := do
  let o ← get
  ensure (o.con = true ∧ o.io = .none) .notInitialised
  modify fun o => { o with io := .control }

/-- Freeing the sender and the receiver ends what they were doing. -/
def freeControlIo : M Unit := do
  let o ← get
  ensure (o.io = .control) .notInitialised
  modify fun o => { o with io := .none, sending := none, receiving := none }

def initUpIo : M Unit := do
  let o ← get
  ensure (o.con = true ∧ o.io = .none) .notInitialised
  modify fun o => { o with io := .up }

def freeUpIo : M Unit := do
  let o ← get
  ensure (o.io = .up) .notInitialised
  modify fun o => { o with io := .none }

def bConnectionInit : M Unit := do
  let o ← get
  ensure (o.connector = true ∧ o.con = false) .notInitialised
  modify fun o => { o with con := true }

def bConnectionFree : M Unit := do
  let o ← get
  ensure (o.con = true ∧ o.io = .none) .notInitialised
  modify fun o => { o with con := false }

def bConnectorFree : M Unit := do
  let o ← get
  ensure (o.connector = true) .notInitialised
  modify fun o => { o with connector := false }

/-! ### The buffer -/

/-- `reserve_buffer`. What the buffer held stays at its front; the rest is not specified, and
no callback reads it. -/
def reserveBuffer (env : Env) (size : ℕ) : M Bool := do
  let o ← get
  ensure (o.sending = none ∧ o.receiving = none) .busy
  if env.realloc = false then return false
  else
    modify fun o => { o with buffer := some ((o.buffer.getD []).takeD size 0) }
    return true

/-- `BFree(o->buffer)`. -/
def freeBuffer : M Unit := do
  let o ← get
  ensure (o.sending = none ∧ o.receiving = none) .busy
  modify fun o => { o with buffer := none }

/-- Copy a message to the start of the buffer. -/
def writeBuffer (bytes : List Byte) : M Unit := do
  let o ← get
  ensure (bytes.length ≤ (o.buffer.getD []).length) .outOfBounds
  modify fun o => { o with buffer := o.buffer.map fun b => bytes ++ b.drop bytes.length }

/-- The byte at an offset. -/
def readBuffer (offset : ℕ) : M Byte := do
  let o ← get
  match (o.buffer.getD [])[offset]? with
  | none => throw .outOfBounds
  | some b => return b

/-- `PacketPassInterface_Sender_Send(send_if, o->buffer, size)`. -/
def senderSend (size : ℕ) : M Unit := do
  let o ← get
  ensure (o.io = .control) .notInitialised
  ensure (o.sending = none ∧ o.receiving = none) .busy
  ensure (size ≤ (o.buffer.getD []).length) .outOfBounds
  let packet := (o.buffer.getD []).take size
  modify fun o => { o with sending := some packet, sent := o.sent ++ [packet] }

/-- `StreamRecvInterface_Receiver_Recv`. -/
def receiverRecv (dest len : ℕ) : M Unit := do
  let o ← get
  ensure (o.io = .control) .notInitialised
  ensure (o.sending = none ∧ o.receiving = none) .busy
  ensure (dest + len ≤ (o.buffer.getD []).length) .outOfBounds
  modify fun o => { o with receiving := some (dest, len) }

def doReceive : M Unit := do
  let o ← get
  assert (o.recvLen < o.recvTotal)
  receiverRecv (o.recvDest + o.recvLen) (o.recvTotal - o.recvLen)

def startReceive (dest total : ℕ) : M Unit := do
  assert (0 < total)
  modify fun o => { o with recvDest := dest, recvLen := 0, recvTotal := total }
  doReceive

/-- `memcpy` from a string: the bytes, and whether the string is still allocated. -/
def memcpy (env : Env) (src len : ℕ) : M (List Byte × Bool) :=
  match env.heap[src]? with
  | none => throw .outOfBounds
  | some block => do
    ensure (len ≤ block.cells.length) .outOfBounds
    return (block.cells.take len, block.live)

/-! ### Messages -/

def socksVersion : Byte := 5

/-- The hello: `socks_client_hello_header`, then a `socks_client_hello_method` for each
method. -/
def hello (methods : List AuthInfo) : List Byte :=
  [socksVersion, UInt8.ofNat methods.length] ++ methods.map AuthInfo.authType

def passwordPacket (username password : List Byte) : List Byte :=
  [1, UInt8.ofNat username.length] ++ username ++ [UInt8.ofNat password.length] ++ password

/-- `socks_addr_ipv4` or `socks_addr_ipv6`. -/
def socksAddr : BAddr → List Byte
  | .none => []
  | .ipv4 ip port => ip.cells ++ [port.b0, port.b1]
  | .ipv6 ip port => ip.cells ++ [port.b0, port.b1]

/-- `SOCKS_ATYP_*`. -/
def socksAtyp : BAddr → Byte
  | .none => 0
  | .ipv4 _ _ => 1
  | .ipv6 _ _ => 4

/-- `socks_request_header` with the command to connect, and the address. -/
def request (destAddr : BAddr) : List Byte :=
  [socksVersion, 1, 0, socksAtyp destAddr] ++ socksAddr destAddr

/-- The length of the address in a reply. -/
def replyAddrLen (atyp : Byte) : Option ℕ :=
  if atyp = 1 then some 6 else if atyp = 4 then some 18 else none

/-! ### The callbacks -/

def authFinished (env : Env) : M Unit := do
  let o ← get
  if (← reserveBuffer env (4 + (socksAddr o.destAddr).length)) = false then reportError .error
  else
    assert (o.destAddr ≠ .none)
    writeBuffer (request o.destAddr)
    senderSend (4 + (socksAddr o.destAddr).length)
    setState .sendingRequest

/-- `connector_handler`; `connectionInit` is the result of `BConnection_Init`. -/
def connectorHandler (env : Env) (isError connectionInit : Bool) : M Unit := do
  let o ← get
  assert (o.state = .connecting)
  if isError = true ∨ connectionInit = false then reportError .error
  else
    bConnectionInit
    initControlIo
    if o.numAuthInfo = 0 ∨ 255 < o.numAuthInfo then fail1
    else if (← reserveBuffer env (2 + o.numAuthInfo)) = false then fail1
    else
      -- the loop reads `auth_info[i]` for every method
      ensure (o.numAuthInfo ≤ env.authInfo.length) .outOfBounds
      writeBuffer (hello (env.authInfo.take o.numAuthInfo))
      senderSend (2 + o.numAuthInfo)
      setState .sendingHello
where
  fail1 : M Unit := do
    freeControlIo
    bConnectionFree
    reportError .error

/-- `connection_handler`; the connection was closed by the server, or it failed. -/
def connectionHandler (recvClosed : Bool) : M Unit := do
  let o ← get
  assert (o.state ≠ .connecting)
  if o.state = .up ∧ recvClosed = true then reportError .errorClosed
  else reportError .error

/-- The password method was chosen. -/
def sendPassword (env : Env) (p : Password) : M Unit := do
  if p.usernameLen = 0 ∨ 255 < p.usernameLen ∨ p.passwordLen = 0 ∨ 255 < p.passwordLen then
    reportError .error
  else if (← reserveBuffer env (1 + 1 + p.usernameLen + 1 + p.passwordLen)) = false then
    reportError .error
  else
    let (username, live) ← memcpy env p.username p.usernameLen
    let (password, _) ← memcpy env p.password p.passwordLen
    let packet := passwordPacket username password
    writeBuffer packet
    senderSend (1 + 1 + p.usernameLen + 1 + p.passwordLen)
    modify fun o => { o with passwordMessages := o.passwordMessages ++ [⟨packet, live⟩] }
    setState .sendingPassword

/-- `case STATE_SENT_HELLO` of `recv_handler_done`. -/
def receivedHello (env : Env) : M Unit := do
  let ver ← readBuffer 0
  let method ← readBuffer 1
  if ver ≠ socksVersion then reportError .error
  else
    let o ← get
    match (env.authInfo.take o.numAuthInfo).find? (fun ai => ai.authType = method) with
    | none => reportError .error
    | some .none => authFinished env
    | some (.password p) => sendPassword env p

/-- `case STATE_SENT_REQUEST` of `recv_handler_done`. -/
def receivedReplyHeader : M Unit := do
  let ver ← readBuffer 0
  let rep ← readBuffer 1
  let atyp ← readBuffer 3
  if ver ≠ socksVersion then reportError .error
  else if rep ≠ 0 then reportError .error
  else
    match replyAddrLen atyp with
    | none => reportError .error
    | some addrLen => do
      startReceive 4 addrLen
      setState .receivedReplyHeader

/-- `case STATE_SENT_PASSWORD` of `recv_handler_done`. -/
def receivedPasswordReply (env : Env) : M Unit := do
  let ver ← readBuffer 0
  let status ← readBuffer 1
  if ver ≠ 1 then reportError .error
  else if status ≠ 0 then reportError .error
  else authFinished env

/-- `case STATE_RECEIVED_REPLY_HEADER` of `recv_handler_done`. -/
def receivedReplyRest : M Unit := do
  freeBuffer
  freeControlIo
  initUpIo
  setState .up
  callHandler .up

def recvHandlerDone (env : Env) (dataLen : ℕ) : M Unit := do
  let o ← get
  assert (dataLen ≤ o.recvTotal - o.recvLen)
  modify fun o => { o with recvLen := o.recvLen + dataLen }
  if o.recvLen + dataLen < o.recvTotal then doReceive
  else
    match o.state with
    | .sentHello => receivedHello env
    | .sentRequest => receivedReplyHeader
    | .sentPassword => receivedPasswordReply env
    | .receivedReplyHeader => receivedReplyRest
    | _ => throw .assert

def sendHandlerDone (env : Env) : M Unit := do
  let o ← get
  assert (o.buffer ≠ none)
  match o.state with
  | .sendingHello => await 2 2 .sentHello
  | .sendingRequest => await 22 4 .sentRequest
  | .sendingPassword => await 2 2 .sentPassword
  | _ => throw .assert
where
  /-- Reserve the buffer for the answer and receive the start of it. -/
  await (size total : ℕ) (state : State) : M Unit := do
    if (← reserveBuffer env size) = false then reportError .error
    else
      startReceive 0 total
      setState state

/-- `BSocksClient_Init`; `connectorInit` is the result of `BConnector_Init`. -/
def bSocksClientInit (numAuthInfo : ℕ) (destAddr : BAddr) (connectorInit : Bool) :
    Option Client :=
  if connectorInit = false then none
  else
    some {
      numAuthInfo, destAddr
      state := .connecting
      buffer := none
      recvDest := 0, recvLen := 0, recvTotal := 0
      connector := true, con := false, io := .none
      sending := none, receiving := none
      sent := [], events := [], passwordMessages := [] }

def bSocksClientFree : M Unit := do
  let o ← get
  if o.state ≠ .connecting then
    if o.state = .up then freeUpIo else freeControlIo
    bConnectionFree
  bConnectorFree
  if o.buffer ≠ none then freeBuffer

/-! ### The environment -/

/-- What the environment does next to a client. -/
inductive Callback
  | connector (isError connectionInit : Bool)
  | connection (recvClosed : Bool)
  | received (data : List Byte)
  | sent
  deriving DecidableEq, Repr

/-- What can happen to the client: it has not failed, and what completes is outstanding. -/
def Callback.Enabled (o : Client) (cb : Callback) : Prop :=
  o.connector = true ∧ ¬ o.Failed ∧
    match cb with
    | .connector _ _ => o.state = .connecting
    | .connection _ => o.con = true
    | .received data => ∃ r ∈ o.receiving, 0 < data.length ∧ data.length ≤ r.2
    | .sent => o.sending ≠ none

instance (o : Client) (cb : Callback) : Decidable (cb.Enabled o) := by
  unfold Callback.Enabled
  cases cb <;> infer_instance

/-- The connection puts `data` where the receive asked for it. -/
def Client.deliver (o : Client) (data : List Byte) : Client :=
  match o.receiving with
  | none => o
  | some (dest, _) => { o with
      receiving := none
      buffer := o.buffer.map fun b => b.take dest ++ data ++ b.drop (dest + data.length) }

def callback (env : Env) : Callback → M Unit
  | .connector isError connectionInit => connectorHandler env isError connectionInit
  | .connection recvClosed => connectionHandler recvClosed
  | .received data => do
    modify fun o => o.deliver data
    recvHandlerDone env data.length
  | .sent => do
    modify fun o => { o with sending := none }
    sendHandlerDone env

end Tun2Socks.Socks
