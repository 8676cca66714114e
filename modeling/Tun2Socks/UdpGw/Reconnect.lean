import Tun2Socks.Flow.Sending

/-!
# The udpgw connection and its reconnects

`SocksUdpGwClient` keeps a SOCKS connection to the udpgw server and opens a new one when it breaks.
The packets for the server leave a queue through `PacketPassConnector`, which is connected to a
`PacketStreamSender` while there is a connection and remembers its packet while there is none.

The model has the flags of `SocksUdpGwClient` and `UdpGwClient`, the connector, and the sender and
the decoder of the connection as objects that exist or do not: using one that does not exist is a
fault. `BSocksClient` is what its user sees of it: it is freed, connecting or up, reports `UP` once
and then at most an error, after which it is freed.

For the results the state also records the packets that have left the queue, how many of them the
connector is finished with, and what has been written to each stream.
-/

namespace Tun2Socks.UdpGw.Reconnect

open Framework Tun2Socks.Flow

inductive SocksState
  | none
  | connecting
  | up
  deriving DecidableEq

/-- What has been written to a stream, and how many packets were finished when it was opened. -/
structure Stream where
  first : ℕ
  bytes : List Byte
  deriving DecidableEq

structure State where
  -- SocksUdpGwClient
  /-- `reconnect_timer` is running. -/
  reconnectTimer : Bool
  haveSocks : Bool
  socksUp : Bool
  socksClient : SocksState
  -- UdpGwClient
  haveServer : Bool
  /-- `recv_decoder` and `recv_if` are initialised. -/
  recvDecoder : Bool
  sendSender : Option PacketStreamSender
  -- PacketPassConnector
  input : Interface (List Byte) Unit
  inLen : ℤ
  data : List Byte
  /-- `output` is not `NULL`. -/
  output : Bool
  -- what has happened
  /-- The packets that have left the queue. -/
  given : List (List Byte)
  /-- How many of them the connector is finished with. -/
  finished : ℕ
  /-- The streams, the newest first. -/
  streams : List Stream

variable (mtu : ℕ)

abbrev M := Checked Fault State

/-! ### PacketPassConnector -/

/-- `PacketPassInterface_Sender_Send` of the packet to the output. -/
def sendToOutput : M Unit := do
  match (← get).sendSender with
  | none => throw .memory
  | some s =>
    ensure (s.input = .none) .assert
    modify fun o => { o with sendSender := some { s with input := .operationPending o.data } }

def inputHandlerSend (data : List Byte) : M Unit := do
  ensure (data.length ≤ mtu) .assert
  ensure ((← get).inLen = -1) .assert
  modify fun o => { o with inLen := data.length, data }
  if (← get).output then sendToOutput

def outputHandlerDone : M Unit := do
  ensure (0 ≤ (← get).inLen) .assert
  ensure ((← get).output = true) .assert
  modify fun o => { o with inLen := -1, finished := o.finished + 1 }
  -- PacketPassInterface_Done
  ensure (← get).input.IsBusy .assert
  modify fun o => { o with input := .donePending () }

def connectOutput : M Unit := do
  ensure ((← get).output = false) .assert
  modify fun o => { o with output := true }
  if 0 ≤ (← get).inLen then sendToOutput

def disconnectOutput : M Unit := do
  ensure ((← get).output = true) .assert
  modify fun o => { o with output := false }

/-! ### UdpGwClient -/

def freeServer : M Unit := do
  disconnectOutput
  ensure ((← get).sendSender.isSome = true) .memory
  modify fun o => { o with sendSender := none }
  ensure ((← get).recvDecoder = true) .memory
  modify fun o => { o with recvDecoder := false }

/-- `PacketStreamSender_Init`. -/
def packetStreamSenderInit : PacketStreamSender := ⟨.none, .none, -1, 0, []⟩

/-- `UdpGwClient_ConnectServer`, where `PacketProtoDecoder_Init` succeeds or not. -/
def connectServer (decoderInit : Bool) : M Bool := do
  ensure ((← get).haveServer = false) .assert
  if decoderInit then
    modify fun o => { o with
      recvDecoder := true
      sendSender := some packetStreamSenderInit
      streams := ⟨o.finished, []⟩ :: o.streams }
    connectOutput
    modify fun o => { o with haveServer := true }
    pure true
  else pure false

def disconnectServer : M Unit := do
  ensure ((← get).haveServer = true) .assert
  freeServer
  modify fun o => { o with haveServer := false }

/-! ### SocksUdpGwClient -/

def freeSocks : M Unit := do
  ensure ((← get).haveSocks = true) .assert
  if (← get).socksUp then disconnectServer
  -- BSocksClient_Free
  ensure ((← get).socksClient ≠ .none) .memory
  modify fun o => { o with socksClient := .none, haveSocks := false }

/-- `BReactor_SetTimer` of the reconnect timer. -/
def setReconnectTimer : M Unit := modify fun o => { o with reconnectTimer := true }

/-- `try_connect`, where `BSocksClient_Init` succeeds or not. -/
def tryConnect (socksInit : Bool) : M Unit := do
  ensure ((← get).haveSocks = false) .assert
  ensure ((← get).reconnectTimer = false) .assert
  if socksInit then
    modify fun o => { o with socksClient := .connecting, haveSocks := true, socksUp := false }
  else setReconnectTimer

def reconnectTimerHandler (socksInit : Bool) : M Unit := do
  ensure ((← get).haveSocks = false) .assert
  tryConnect socksInit

/-- `socks_client_handler` for `BSOCKSCLIENT_EVENT_UP`. -/
def socksClientHandlerUp (decoderInit : Bool) : M Unit := do
  ensure ((← get).haveSocks = true) .assert
  ensure ((← get).socksUp = false) .assert
  if ← connectServer decoderInit then
    modify fun o => { o with socksUp := true }
  else
    freeSocks
    setReconnectTimer

/-- `socks_client_handler` for `BSOCKSCLIENT_EVENT_ERROR` and `BSOCKSCLIENT_EVENT_ERROR_CLOSED`. -/
def socksClientHandlerError : M Unit := do
  ensure ((← get).haveSocks = true) .assert
  freeSocks
  setReconnectTimer

def udpgwHandlerServererror : M Unit := do
  ensure ((← get).haveSocks = true) .assert
  ensure ((← get).socksUp = true) .assert
  freeSocks
  setReconnectTimer

/-- `decoder_handler_error`. -/
def decoderHandlerError : M Unit := do
  ensure ((← get).haveServer = true) .assert
  udpgwHandlerServererror

/-! ### The system -/

structure World where
  state : State
  fault : Option Fault

inductive Label
  /-- The reconnect timer expires. -/
  | timer (socksInit : Bool)
  | socksUp (decoderInit : Bool)
  | socksError
  | decoderError
  /-- The queue hands a packet to the connector. -/
  | send (p : List Byte)
  | inputOperation
  | inputDone
  | senderInputOperation
  | senderOutputOperation
  /-- The stream takes `n` bytes. -/
  | write (n : ℕ)
  | senderOutputDone
  | senderInputDone
  deriving DecidableEq

def World.leave (w : World) : Except Fault (Unit × State) → World
  | .ok (_, state) => { w with state }
  | .error f => { w with fault := some f }

/-- What a handler of the sender leaves. -/
def World.leaveSender (w : World) : Except Fault (Unit × PacketStreamSender) → World
  | .ok (_, s) => { w with state := { w.state with sendSender := some s } }
  | .error f => { w with fault := some f }

/-- Steps that open or close a connection. -/
def connectionNext (w : World) : Label → Option World
  | .timer socksInit =>
    if w.state.reconnectTimer then
      some (w.leave ((reconnectTimerHandler socksInit).run
        { w.state with reconnectTimer := false }))
    else none
  | .socksUp decoderInit =>
    if w.state.socksClient = .connecting then
      some (w.leave ((socksClientHandlerUp decoderInit).run { w.state with socksClient := .up }))
    else none
  | .socksError =>
    if w.state.socksClient ≠ .none then some (w.leave (socksClientHandlerError.run w.state))
    else none
  | .decoderError =>
    if w.state.recvDecoder then some (w.leave (decoderHandlerError.run w.state)) else none
  | _ => none

/-- Steps of the connector with its user. -/
def inputNext (w : World) : Label → Option World
  | .send p =>
    if w.state.input = .none ∧ p.length ≤ mtu then
      some { w with state := { w.state with
        input := .operationPending p
        given := w.state.given ++ [p] } }
    else none
  | .inputOperation =>
    match w.state.input with
    | .operationPending p =>
      some (w.leave ((inputHandlerSend mtu p).run { w.state with input := .busy p }))
    | _ => none
  | .inputDone =>
    if w.state.input = .donePending () then
      some { w with state := { w.state with input := .none } }
    else none
  | _ => none

/-- Steps of a sender. -/
def senderNext (w : World) (s : PacketStreamSender) : Label → Option World
  | .senderInputOperation =>
    match s.input with
    | .operationPending p =>
      some (w.leaveSender ((PacketStreamSender.inputHandlerSend p).run { s with input := .busy p }))
    | _ => none
  | .senderOutputOperation =>
    match s.output with
    | .operationPending op =>
      some { w with state := { w.state with sendSender := some { s with output := .busy op } } }
    | _ => none
  | .write n =>
    match s.output, w.state.streams with
    | .busy (place, len), cur :: older =>
      if 0 < n ∧ n ≤ len then
        some { w with state := { w.state with
          sendSender := some { s with output := .donePending n }
          streams := { cur with bytes := cur.bytes ++ (s.data.drop place).take n } :: older } }
      else none
    | _, _ => none
  | .senderOutputDone =>
    match s.output with
    | .donePending n =>
      some (w.leaveSender ((PacketStreamSender.outputHandlerDone n).run { s with output := .none }))
    | _ => none
  | .senderInputDone =>
    if s.input = .donePending () then
      some (w.leave (outputHandlerDone.run
        { w.state with sendSender := some { s with input := .none } }))
    else none
  | _ => none

def next (w : World) (l : Label) : Option World :=
  if w.fault = none then
    (connectionNext w l).orElse fun _ => (inputNext mtu w l).orElse fun _ =>
      w.state.sendSender.bind fun s => senderNext w s l
  else none

/-- `UdpGwClient_Init` and the flags before `try_connect`. -/
def initialState : State where
  reconnectTimer := false
  haveSocks := false
  socksUp := false
  socksClient := .none
  haveServer := false
  recvDecoder := false
  sendSender := none
  input := .none
  inLen := -1
  data := []
  output := false
  given := []
  finished := 0
  streams := []

/-- `SocksUdpGwClient_Init`, where `BSocksClient_Init` succeeds or not. -/
def socksUdpGwClientInit (socksInit : Bool) : World :=
  World.leave ⟨initialState, none⟩ ((tryConnect socksInit).run initialState)

def system (socksInit : Bool) : System World Label where
  init := socksUdpGwClientInit socksInit
  next := next mtu

end Tun2Socks.UdpGw.Reconnect
