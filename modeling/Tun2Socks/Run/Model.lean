import Tun2Socks.Framework.Ledger
import Tun2Socks.UdpGw.Wire

/-!
# `run`, from the options to the end of the process

`run` sets up the reactor, the signal handler, the device with its reading side, the client for
udpgw, the lwip job, a buffer, the TCP timer and the UDP socket, runs the event loop, and releases
everything in the opposite order. When a step fails, it jumps into the releases at the label that
belongs to the step: `fail1` to `fail5` here, each of which goes on to the one before it.

The model has one resource for everything that has its own release, and the outcome of every step
is given. A temporary of a step that fails (inside `BTap_Init` and the like) is released by the
step and left out; what a TCP client holds is one resource, released by `client_murder`. The TCP
timer is held from `BReactor_SetTimer` to `BReactor_RemoveTimer`, which may be called for a timer
that has expired.
-/

namespace Tun2Socks.Run

open Framework

/-! ### Resources -/

inductive Resource
  /-- `password_file_contents`. -/
  | password
  | reactor
  | signal
  | device
  | deviceReadInterface
  | deviceReadBuffer
  | udpgwClient
  | lwipInitJob
  | deviceWriteBuf
  | tcpTimer
  | udpBuffer
  | udpSocket
  /-- The registration of the socket with the reactor. -/
  | udpFd
  | udpMap
  | netif
  | listener
  | listenerIp6
  | client (id : ℕ)
  deriving DecidableEq

/-- It has a file descriptor, a timer or a job registered with the reactor. -/
def Resource.registered : Resource → Bool
  | .signal | .device | .deviceReadInterface | .deviceReadBuffer | .udpgwClient | .lwipInitJob
  | .tcpTimer | .udpFd | .client _ => true
  | .password | .reactor | .deviceWriteBuf | .udpBuffer | .udpSocket | .udpMap | .netif
  | .listener | .listenerIp6 => false

/-- The options that decide what is set up. -/
structure Options where
  username : Bool
  password : Bool
  netifIp6addr : Bool
  udpgwRemoteServerAddr : Bool
  tunFd : ℕ
  setSignal : Bool

/-- What the steps return; for the addresses, whether those before and after the password are
resolved. -/
structure Outcomes where
  networkGlobalInit : Bool
  resolve : Bool
  readFile : Bool
  resolveRemote : Bool
  reactorInit : Bool
  signalInit : Bool
  btapInitWithFd : Bool
  btapInit : Bool
  deviceMtu : ℤ
  singlePacketBufferInit : Bool
  socksUdpGwClientInit : Bool
  balloc : Bool
  malloc : Bool
  socket : Option ℕ
  bind : Bool
  connect : Bool
  addFileDescriptor : Bool

/-- `UdpPcb`: whether the buffer is not null, and the socket. -/
structure UdpPcb where
  buffer : Bool
  sockfd : ℕ

/-- The globals of the program that `run` uses. -/
structure Process where
  ledger : Ledger Resource
  /-- What is registered when the reactor is freed. -/
  leftover : Option (Multiset Resource)
  passwordFileContents : Bool
  udpPcb : UdpPcb
  quitting : Bool
  haveNetif : Bool
  listener : Bool
  listenerIp6 : Bool
  tcpClients : List ℕ
  /-- The job is set. -/
  lwipInitJob : Bool

namespace Process

variable (p : Process)

def acquire (r : Resource) : Process := { p with ledger := p.ledger.acquire r }

def release (r : Resource) : Process := { p with ledger := p.ledger.release r }

/-! ### The labels -/

/-- `BFree` of a null pointer does nothing. -/
def fail1 : Process := if p.passwordFileContents then p.release .password else p

/-- `BReactor_Free`. -/
def fail2 : Process :=
  ({ p with leftover := some (p.ledger.held.filter fun r => r.registered) }.release .reactor).fail1

/-- `BSignal_Finish`. -/
def fail3 : Process := (p.release .signal).fail2

def fail4 : Process := ((p.release .deviceReadInterface).release .device).fail3

def fail4a : Process := (p.release .deviceReadBuffer).fail4

variable (o : Options)

def fail5 : Process :=
  let p := p.release .lwipInitJob
  (if o.udpgwRemoteServerAddr then p.release .udpgwClient else p).fail4a

/-! ### The UDP socket -/

variable (e : Outcomes)

/-- The result is the socket, zero for an error. -/
def udpInit : ℕ × Process :=
  if ¬ e.malloc then (0, { p with udpPcb := { p.udpPcb with buffer := false } }) else
  let p := { p.acquire .udpBuffer with udpPcb := { p.udpPcb with buffer := true } }
  match e.socket with
  | none => (0, p)
  | some sockfd =>
    let p := p.acquire .udpSocket
    if ¬ e.bind then (0, p.release .udpSocket) else
    if ¬ e.connect then (0, p.release .udpSocket) else
    if ¬ e.addFileDescriptor then (0, p.release .udpSocket) else
    let p := p.acquire .udpFd
    (sockfd, { p with udpPcb := { p.udpPcb with sockfd } }.acquire .udpMap)

def udpFree : Process :=
  let p := if p.udpPcb.buffer then p.release .udpBuffer else p
  let p := if p.udpPcb.sockfd ≠ 0 then p.release .udpSocket else p
  p.release .udpMap

/-! ### The event loop -/

def terminate : Process := { p with quitting := true }

end Process

/-- The steps that open a listener. -/
structure ListenerOutcomes where
  new : Bool
  bind : Bool
  listen : Bool

namespace Process

variable (p : Process) (o : Options)

/-- The listener for one version of IP, with whether it is open. -/
def openListener (r : Resource) (e : ListenerOutcomes) : Bool × Process :=
  if ¬ e.new then (false, p) else
  let p := p.acquire r
  if ¬ e.bind then (false, p.release r) else
  if ¬ e.listen then (false, p.release r) else (true, p)

def lwipInitJobHandler (netifAdd : Bool) (ip4 ip6 : ListenerOutcomes) : Process :=
  if ¬ netifAdd then p.terminate else
  let p := { p.acquire .netif with haveNetif := true }
  match p.openListener .listener ip4 with
  | (false, p) => p.terminate
  | (true, p) =>
    let p := { p with listener := true }
    if ¬ o.netifIp6addr then p else
    match p.openListener .listenerIp6 ip6 with
    | (false, p) => p.terminate
    | (true, p) => { p with listenerIp6 := true }

end Process

/-- What happens in the event loop. -/
inductive Event
  | lwipInitJob (netifAdd : Bool) (ip4 ip6 : ListenerOutcomes)
  | accept (client : ℕ)
  /-- A client is freed because its connections are closed. -/
  | free (client : ℕ)
  /-- The TCP timer finds the flag, a signal arrives or the device fails. -/
  | terminate

namespace Process

variable (p : Process) (o : Options)

/-- `client_murder`, and the end of a client of its own. -/
def freeClient (client : ℕ) : Process :=
  { p with tcpClients := p.tcpClients.erase client }.release (.client client)

/-- A job that is not set does not run, and the memory of a new client is not that of another. -/
def handle : Event → Process
  | .lwipInitJob netifAdd ip4 ip6 =>
    if p.lwipInitJob then { p with lwipInitJob := false }.lwipInitJobHandler o netifAdd ip4 ip6
    else p
  | .accept client =>
    if client ∈ p.tcpClients then p
    else { p with tcpClients := client :: p.tcpClients }.acquire (.client client)
  | .free client => if client ∈ p.tcpClients then p.freeClient client else p
  | .terminate => p.terminate

/-- `BReactor_Exec`: the events until the loop is left. -/
def exec : List Event → Process → Process
  | [], p => p
  | ev :: events, p => if p.quitting then p else exec events (p.handle o ev)

/-- The loop over the clients, which frees the first one until there is none. -/
def freeClients : Process := p.tcpClients.foldl freeClient p

/-- What follows the event loop, up to `fail5`. -/
def exit : Process :=
  let p := p.freeClients
  let p := if p.listenerIp6 then p.release .listenerIp6 else p
  let p := if p.listener then p.release .listener else p
  let p := if p.haveNetif then p.release .netif else p
  ((p.udpFree).release .tcpTimer).release .deviceWriteBuf

/-! ### Setting up -/

variable (e : Outcomes)

/-- The arguments before the password, the password, and those after it. -/
def processArguments : Bool × Process :=
  if ¬ e.resolve then (false, p) else
  if o.username ∧ ¬ o.password then
    if ¬ e.readFile then (false, p)
    else (e.resolveRemote, { p.acquire .password with passwordFileContents := true })
  else (e.resolveRemote, p)

def udpMtu : ℤ :=
  let udpMtu := e.deviceMtu - (20 + 8)
  let udpMtu := if o.netifIp6addr then max udpMtu (e.deviceMtu - (40 + 8)) else udpMtu
  max udpMtu 0

/-- The MTU of the packets to udpgw fits. -/
def udpgwMtuOk : Bool :=
  let udpgwMtu := UdpGw.udpgwComputeMtu (udpMtu o e)
  ¬ (udpgwMtu < 0 ∨ UdpGw.packetprotoMaxpayload < udpgwMtu)

variable (events : List Event)

/-- From the TCP timer on. -/
def initTcpTimer : Process :=
  let p := { p.acquire .tcpTimer with
    haveNetif := false
    listener := false
    listenerIp6 := false
    tcpClients := [] }
  match p.udpInit e with
  | (0, p) => p.fail5 o
  | (_ + 1, p) => (exec o events p).exit.fail5 o

/-- From the lwip job on. -/
def initLwipInitJob : Process :=
  let p := { p.acquire .lwipInitJob with lwipInitJob := true }
  if ¬ e.balloc then p.fail5 o else (p.acquire .deviceWriteBuf).initTcpTimer o e events

def initUdpgwClient : Process :=
  if o.udpgwRemoteServerAddr then
    if ¬ udpgwMtuOk o e then p.fail4a else
    if ¬ e.socksUdpGwClientInit then p.fail4a else
    (p.acquire .udpgwClient).initLwipInitJob o e events
  else p.initLwipInitJob o e events

/-- From the device on. -/
def initDevice : Process :=
  if ¬ (if o.tunFd ≠ 0 then e.btapInitWithFd else e.btapInit) then p.fail3 else
  let p := (p.acquire .device).acquire .deviceReadInterface
  if ¬ e.singlePacketBufferInit then p.fail4 else
  (p.acquire .deviceReadBuffer).initUdpgwClient o e events

def initSignal : Process :=
  if o.setSignal then
    if ¬ e.signalInit then p.fail2 else (p.acquire .signal).initDevice o e events
  else p.initDevice o e events

end Process

/-- The program before `run`, with what an earlier run has left in `udp_pcb`. -/
def before (udpPcb : UdpPcb) : Process where
  ledger := .empty
  leftover := none
  passwordFileContents := false
  udpPcb
  quitting := false
  haveNetif := false
  listener := false
  listenerIp6 := false
  tcpClients := []
  lwipInitJob := false

def run (o : Options) (e : Outcomes) (udpPcb : UdpPcb) (events : List Event) : Process :=
  if ¬ e.networkGlobalInit then (before udpPcb).fail1 else
  match (before udpPcb).processArguments o e with
  | (false, p) => p.fail1
  | (true, p) =>
    if ¬ e.reactorInit then p.fail1 else
    (p.acquire .reactor).initSignal o e events

end Tun2Socks.Run
