import Tun2Socks.Jni.Terminate

/-!
# The plugin, the VPN service and the tunnel thread

Four threads share the state of the Java side:

* the **plugin thread** runs `Tun2Socks.execute`, one call after the other:
  `startTunnelService` and `stopTunnelService`, with `TunnelManager.restartTunnel` and
  `TunnelManager.signalStopService` inside them;
* the **main thread** runs the callbacks of `TunnelVpnService` (`onCreate`,
  `onStartCommand`, `onDestroy`) in the order in which the system posted them, and between
  them the receiver of the start broadcasts;
* the **tunnel thread** runs `TunnelManager.runTunnel`;
* the **tun2socks thread** runs `runTun2Socks`, whose hand-shake over `g_terminate` is the
  one of `Jni/Terminate.lean`.

Each access to a shared variable is a step of its own. What one thread does without any
other being able to observe it in between is one step: `startRouting` holds the lock of
its `Tunnel` from `establish` to the start of the tunnel thread, and of the fields it
writes the plugin thread reads only the stop signal, just before the thread is started.
Reads and writes of the plain Java fields are taken to be sequentially consistent.

The model has one `TunnelManager` with its `Tunnel`, the one of the latest service
instance. A `create` message is posted only by `startService`, which the plugin calls only
after it has seen no registered manager, and it is handled by the main thread after the
`onDestroy` of the previous instance has joined the tunnel thread of that instance;
`holdsManager_no_create` states that no plugin call in progress can carry a reference
across that point.

The permission prompt is not modelled: `VpnService.prepare` is taken to return `null`. The
service is declared in `plugin.xml`, so `startService` returns its name. `m_isStopping` is
written and never read, and is left out. So is `onRevoke`, with which Android takes the
tunnel away from the service: no step of the system revokes it.
-/

namespace Tun2Socks.Plugin

open Framework

variable {Addr : Type}

/-! ### Program counters -/

/-- A call of the plugin's JavaScript interface. -/
inductive Request (Addr : Type)
  | start (a : Addr)
  | stop
  deriving DecidableEq, Repr

/-- The plugin thread: what it is about to do. -/
inductive PluginPc (Addr : Type)
  | idle
  /-- `isServiceRunning`: `getStartingTunnelManager()`. -/
  | getStarting (a : Addr)
  /-- `isServiceRunning`: `getTunnelManager() != null`. -/
  | isRegistered (a : Addr)
  /-- `startTunnelService`, service running: `getTunnelManager()`. -/
  | getManager (a : Addr)
  /-- `restartTunnel`: compare with `m_socksServerAddress`. -/
  | compareAddress (a : Addr)
  /-- `restartTunnel`, address unchanged: `broadcastVpnStart(true)`. -/
  | reportUnchanged
  /-- `restartTunnel`: `m_socksServerAddress = socksServerAddress`. -/
  | setAddress (a : Addr)
  /-- `restartTunnel`: `m_isReconnecting.set(true)`. -/
  | setReconnecting
  /-- `restartTunnel`: `signalStopService()`. -/
  | signalRestart
  /-- `startTunnelService`, service not running: `startService`. -/
  | startService (a : Addr)
  /-- `startTunnelService`: `setStartingTunnelManager()`. -/
  | setStarting
  /-- `stopTunnelService`: `getTunnelManager()`. -/
  | stopGetManager
  /-- `stopTunnelService`: `signalStopService()`. -/
  | signalStop
  deriving DecidableEq, Repr

/-- The main thread: what it is about to do. -/
inductive MainPc
  /-- In the looper, about to take the next message. -/
  | idle
  /-- `Tunnel.newTunnel`, stopping the previous tunnel: its `join`. -/
  | newTunnelJoin
  /-- The new service object is being built; `onCreate` follows. -/
  | onCreate
  /-- `onStartCommand`: `m_tunnel.startRouting()`. -/
  | startRouting
  /-- `TunnelVpnService.onDestroy`: `m_tunnelManager.onDestroy()`. -/
  | onDestroy
  /-- `TunnelManager.onDestroy`: `m_tunnelThread.join()`. -/
  | joinTunnelThread
  deriving DecidableEq, Repr

/-- The tunnel thread: what it is about to do. -/
inductive ThreadPc (Addr : Type)
  /-- `m_tunnelThread == null`. -/
  | absent
  /-- `run()`: read `m_socksServerAddress`. -/
  | begin
  /-- `m_tunnel.startTunneling(socksServerAddress)`. -/
  | startTunneling (a : Addr)
  /-- `broadcastVpnStart(true)`. -/
  | reportSuccess
  /-- `broadcastVpnStart(false)` in the exception handler. -/
  | reportFailure
  /-- `m_tunnelThreadStopSignal.await()`. -/
  | await
  /-- `finally`: `m_isReconnecting.get()`. -/
  | readReconnecting
  /-- `m_tunnel.stopTunneling()`: `terminateTun2Socks`. -/
  | stopTunneling
  /-- `m_tunnel.stopTunneling()`: the `join`. -/
  | stopTunnelingJoin
  /-- `m_tunnel.stop()`: `terminateTun2Socks`. -/
  | stop
  /-- `m_tunnel.stop()`: the `join`, then close the descriptor. -/
  | stopJoin
  /-- `stopForeground` and `stopSelf`. -/
  | stopSelf
  /-- `m_isReconnecting.set(false)`. -/
  | clearReconnecting
  | finished
  deriving DecidableEq, Repr

/-- The tun2socks thread. -/
inductive NativePc
  /-- Before its swap of `g_terminate`. -/
  | prologue
  /-- Past the swap, in `run`. -/
  | loop
  /-- `runTun2Socks` has returned. -/
  | exited
  deriving DecidableEq, Repr

/-- What a success broadcast reports, as it was when it was sent. -/
structure Snapshot (Addr : Type) where
  /-- The tun descriptor was open. -/
  tunOpen : Bool
  /-- The address of the tun2socks thread, if one was running. -/
  running : Option Addr
  deriving DecidableEq, Repr

/-- A message by which the system drives the service on the main thread. -/
inductive Message (Addr : Type)
  | create
  | startCommand (a : Addr)
  | destroy
  deriving DecidableEq, Repr

/-- A `TUNNEL_VPN_START_BROADCAST` with its extra. -/
structure Broadcast (Addr : Type) where
  success : Bool
  snap : Snapshot Addr
  deriving DecidableEq, Repr

/-- `m_onStartCallback`: the address of the start call it belongs to, and
`isFinished()`. -/
structure Callback (Addr : Type) where
  address : Addr
  isFinished : Bool
  deriving DecidableEq, Repr

structure State (Addr : Type) where
  plugin : PluginPc Addr
  main : MainPc
  thread : ThreadPc Addr
  /-- `mTun2SocksThread`: the address it was given and where it stands. -/
  tun2socks : Option (Addr × NativePc)
  /-- Messages posted to the main thread by the system. -/
  messages : List (Message Addr)
  /-- Broadcasts not yet delivered. -/
  broadcasts : List (Broadcast Addr)
  /-- The system has a service record: started, and not stopped since. -/
  alive : Bool
  /-- `TunnelState.m_tunnelManager != null`. -/
  tunnelManager : Bool
  startingTunnelManager : Bool
  onStartCallback : Option (Callback Addr)
  socksServerAddress : Option Addr
  /-- `m_tunnelThreadStopSignal`: the latch, `true` once counted down. -/
  stopSignal : Option Bool
  isReconnecting : Bool
  /-- `mTunFd` holds an open descriptor. -/
  tunFd : Bool
  routingThroughTunnel : Bool
  gTerminate : ℕ
  /-- The most recent request. -/
  last : Option (Request Addr)
  /-- A failure was broadcast since the most recent request. -/
  failed : Bool
  /-- Descriptors obtained from `establish`, and descriptors closed. -/
  opened : ℕ
  closed : ℕ
  /-- The success broadcasts sent so far. -/
  issued : List (Snapshot Addr)
  /-- The success broadcasts a start callback received, with the address of its call. -/
  received : List (Addr × Snapshot Addr)
  deriving DecidableEq, Repr

namespace State

/-- The address of the tun2socks thread, if it has not returned. -/
def running (s : State Addr) : Option Addr :=
  match s.tun2socks with
  | some (a, .prologue) => some a
  | some (a, .loop) => some a
  | _ => none

/-- `broadcastVpnStart`. -/
def broadcastVpnStart (s : State Addr) (success : Bool) : State Addr :=
  let snap : Snapshot Addr := ⟨s.tunFd, s.running⟩
  { s with
    broadcasts := s.broadcasts ++ [⟨success, snap⟩]
    failed := s.failed || !success
    issued := if success then s.issued ++ [snap] else s.issued }

/-- `signalStopService`: count the latch down if there is one. -/
def signalStopService (s : State Addr) : State Addr :=
  { s with stopSignal := s.stopSignal.map fun _ => true }

/-- The end of `stopVpn`: `mTunFd.getAndSet(null)`, and close what it held. -/
def closeTunFd (s : State Addr) : State Addr :=
  { s with tunFd := false, closed := if s.tunFd then s.closed + 1 else s.closed }

/-- `terminateTun2Socks`. -/
def terminateTun2Socks (s : State Addr) : State Addr :=
  { s with gTerminate := Jni.compareAndSwap s.gTerminate 0 1 }

/-- The end of `stopTun2Socks`, after its `join`. -/
def tun2SocksStopped (s : State Addr) : State Addr :=
  { s with tun2socks := none, routingThroughTunnel := false }

/-- `Context.startService`: the system creates the service unless it has one. -/
def startService (s : State Addr) (a : Addr) : State Addr :=
  { s with
    messages := s.messages ++ if s.alive then [.startCommand a] else [.create, .startCommand a]
    alive := true }

/-- `Service.stopSelf`. -/
def stopSelf (s : State Addr) : State Addr :=
  { s with
    messages := if s.alive then s.messages ++ [.destroy] else s.messages
    alive := false }

/-- A new `TunnelVpnService` with its `TunnelManager` and `Tunnel`, registered by
`onCreate`. -/
def onCreate (s : State Addr) : State Addr :=
  { s with
    socksServerAddress := none
    stopSignal := none
    isReconnecting := false
    thread := .absent
    tunFd := false
    routingThroughTunnel := false
    tun2socks := none
    tunnelManager := true
    startingTunnelManager := false }

/-- `startVpn` once `establish` has returned a descriptor, with `onVpnEstablished` and
`startTunnel` inside it. -/
def vpnEstablished (s : State Addr) : State Addr :=
  { s with
    tunFd := true
    opened := s.opened + 1
    routingThroughTunnel := false
    stopSignal := some false
    thread := .begin }

/-- `onReceive` for a start broadcast: `onStartVpn` finishes the current callback. -/
def onStartVpn (s : State Addr) (b : Broadcast Addr) : State Addr :=
  match s.onStartCallback with
  | some ⟨a, false⟩ =>
    { s with
      onStartCallback := some ⟨a, true⟩
      received := if b.success then s.received ++ [(a, b.snap)] else s.received }
  | _ => s

end State

open State

/-! ### The steps of the four threads -/

section Steps

variable [DecidableEq Addr]

/-- The next step of the plugin thread. -/
def pluginStep (s : State Addr) : Option (State Addr) :=
  match s.plugin with
  | .idle => none
  | .getStarting a =>
    some { s with plugin := if s.startingTunnelManager then .getManager a else .isRegistered a }
  | .isRegistered a =>
    some { s with plugin := if s.tunnelManager then .getManager a else .startService a }
  | .getManager a =>
    some { s with plugin := if s.tunnelManager then .compareAddress a else .idle }
  | .compareAddress a =>
    some { s with
      plugin := if s.socksServerAddress = some a then .reportUnchanged else .setAddress a }
  | .reportUnchanged => some { s.broadcastVpnStart true with plugin := .idle }
  | .setAddress a => some { s with socksServerAddress := some a, plugin := .setReconnecting }
  | .setReconnecting => some { s with isReconnecting := true, plugin := .signalRestart }
  | .signalRestart => some { s.signalStopService with plugin := .idle }
  | .startService a => some { s.startService a with plugin := .setStarting }
  | .setStarting => some { s with startingTunnelManager := true, plugin := .idle }
  | .stopGetManager =>
    some { s with plugin := if s.tunnelManager then .signalStop else .idle }
  | .signalStop => some { s.signalStopService with plugin := .idle }

/-- The next step of a service callback on the main thread; `routed` is whether `startRouting`
succeeds. -/
def mainStep (routed : Bool) (s : State Addr) : Option (State Addr) :=
  match s.main with
  | .idle =>
    match s.messages with
    | [] => none
    | .create :: q =>
      -- `new TunnelManager`: `Tunnel.newTunnel` stops the previous tunnel first
      if s.tun2socks.isSome then
        some { s.terminateTun2Socks with messages := q, main := .newTunnelJoin }
      else some { s.closeTunFd with messages := q, main := .onCreate }
    | .startCommand a :: q =>
      some { s with messages := q, socksServerAddress := some a, main := .startRouting }
    | .destroy :: q =>
      some { s with
        messages := q
        tunnelManager := false
        startingTunnelManager := false
        main := .onDestroy }
  | .newTunnelJoin =>
    match s.tun2socks with
    | some (_, .exited) => some { s.tun2SocksStopped.closeTunFd with main := .onCreate }
    | _ => none
  | .onCreate => some { s.onCreate with main := .idle }
  | .startRouting =>
    if routed then some { s.vpnEstablished with main := .idle }
    else some { s.broadcastVpnStart false with main := .idle }
  | .onDestroy =>
    if s.thread = .absent then some { s with main := .idle }
    else some { s.signalStopService with main := .joinTunnelThread }
  | .joinTunnelThread =>
    if s.thread = .finished then
      some { s with stopSignal := none, thread := .absent, main := .idle }
    else none

/-- The main thread delivers the oldest broadcast. -/
def deliverStep (s : State Addr) : Option (State Addr) :=
  match s.main, s.broadcasts with
  | .idle, b :: bs => some { s.onStartVpn b with broadcasts := bs }
  | _, _ => none

/-- The next step of the tunnel thread; `raised` is whether `startTunneling` fails for a
reason of its own, by returning `false` or by an exception. -/
def tunnelStep (raised : Bool) (s : State Addr) : Option (State Addr) :=
  match s.thread with
  | .absent => none
  | .begin =>
    match s.socksServerAddress with
    | some a => some { s with thread := .startTunneling a }
    | none => none
  | .startTunneling a =>
    if raised then some { s with thread := .reportFailure }
    else if s.routingThroughTunnel then some { s with thread := .reportFailure }
    else if s.tunFd then
      some { s with
        routingThroughTunnel := true
        -- `startTun2Socks` returns at once if it has a thread already
        tun2socks := s.tun2socks <|> some (a, .prologue)
        thread := .reportSuccess }
    else some { s with routingThroughTunnel := true, thread := .reportFailure }
  | .reportSuccess => some { s.broadcastVpnStart true with thread := .await }
  | .reportFailure => some { s.broadcastVpnStart false with thread := .readReconnecting }
  | .await => if s.stopSignal = some true then some { s with thread := .readReconnecting } else none
  | .readReconnecting =>
    some { s with thread := if s.isReconnecting then .stopTunneling else .stop }
  | .stopTunneling =>
    if s.tun2socks.isSome then some { s.terminateTun2Socks with thread := .stopTunnelingJoin }
    else some { s with thread := .clearReconnecting }
  | .stopTunnelingJoin =>
    match s.tun2socks with
    | some (_, .exited) => some { s.tun2SocksStopped with thread := .clearReconnecting }
    | _ => none
  | .stop =>
    if s.tun2socks.isSome then some { s.terminateTun2Socks with thread := .stopJoin }
    else some { s.closeTunFd with thread := .stopSelf }
  | .stopJoin =>
    match s.tun2socks with
    | some (_, .exited) => some { s.tun2SocksStopped.closeTunFd with thread := .stopSelf }
    | _ => none
  | .stopSelf => some { s.stopSelf with thread := .clearReconnecting }
  | .clearReconnecting => some { s with isReconnecting := false, thread := .finished }
  | .finished => none

inductive Label (Addr : Type)
  /-- `execute("start", [a])`. -/
  | callStart (a : Addr)
  /-- `execute("stop")`. -/
  | callStop
  | plugin
  | main (routed : Bool)
  | deliver
  | tunnel (raised : Bool)
  /-- The swap of `g_terminate` in `runTun2Socks`. -/
  | nativeReset
  /-- A tick of `tcp_timer_handler` that finds `g_terminate` set; the run then ends. -/
  | nativeTick
  /-- `run` ends for a reason of its own: a bad address, a device error. -/
  | nativeEnd
  deriving DecidableEq, Repr

/-- The steps the program takes by itself. New requests come from outside, and so does a
native run that ends by itself. -/
def Label.internal : Label Addr → Prop
  | .callStart _ | .callStop | .nativeEnd => False
  | _ => True

/-- One step of one of the threads. -/
def next (s : State Addr) : Label Addr → Option (State Addr)
  | .callStart a =>
    if s.plugin = .idle then
      some { s with
        plugin := .getStarting a
        onStartCallback := some ⟨a, false⟩
        last := some (.start a)
        failed := false }
    else none
  | .callStop =>
    if s.plugin = .idle then
      some { s with plugin := .stopGetManager, last := some .stop, failed := false }
    else none
  | .plugin => pluginStep s
  | .main routed => mainStep routed s
  | .deliver => deliverStep s
  | .tunnel raised => tunnelStep raised s
  | .nativeReset =>
    match s.tun2socks with
    | some (a, .prologue) =>
      some { s with
        tun2socks := some (a, .loop)
        gTerminate := Jni.compareAndSwap s.gTerminate 1 0 }
    | _ => none
  | .nativeTick =>
    match s.tun2socks with
    | some (a, .loop) =>
      if s.gTerminate = 1 then some { s with tun2socks := some (a, .exited) } else none
    | _ => none
  | .nativeEnd =>
    match s.tun2socks with
    | some (a, .loop) => some { s with tun2socks := some (a, .exited) }
    | _ => none

/-- The process before the first call. -/
def initial (Addr : Type) : State Addr where
  plugin := .idle
  main := .idle
  thread := .absent
  tun2socks := none
  messages := []
  broadcasts := []
  alive := false
  tunnelManager := false
  startingTunnelManager := false
  onStartCallback := none
  socksServerAddress := none
  stopSignal := none
  isReconnecting := false
  tunFd := false
  routingThroughTunnel := false
  gTerminate := 0
  last := none
  failed := false
  opened := 0
  closed := 0
  issued := []
  received := []

/-- The plugin with its service. -/
def pluginSystem (Addr : Type) [DecidableEq Addr] : System (State Addr) (Label Addr) where
  init := initial Addr
  next := next

/-- Nothing is left to do: no thread has an enabled step and no callback is pending. -/
def Quiescent (s : State Addr) : Prop := (pluginSystem Addr).Quiescent Label.internal s

/-! ### Inversion -/

variable {s s' : State Addr}

omit [DecidableEq Addr] in
theorem deliverStep_cases (hstep : deliverStep s = some s') :
    ∃ b bs, s.main = .idle ∧ s.broadcasts = b :: bs ∧
      s' = { s.onStartVpn b with broadcasts := bs } := by
  simp only [deliverStep] at hstep
  split at hstep
  · next b bs hmain hbroadcasts => exact ⟨b, bs, hmain, hbroadcasts, by simpa using hstep.symm⟩
  · cases hstep

theorem nativeReset_cases (hstep : next s .nativeReset = some s') :
    ∃ a, s.tun2socks = some (a, .prologue) ∧
      s' = { s with
        tun2socks := some (a, .loop)
        gTerminate := Jni.compareAndSwap s.gTerminate 1 0 } := by
  simp only [next] at hstep
  split at hstep
  · next a hnative => exact ⟨a, hnative, by simpa using hstep.symm⟩
  · cases hstep

theorem nativeTick_cases (hstep : next s .nativeTick = some s') :
    ∃ a, s.tun2socks = some (a, .loop) ∧ s.gTerminate = 1 ∧
      s' = { s with tun2socks := some (a, .exited) } := by
  simp only [next] at hstep
  split at hstep
  · next a hnative =>
    simp only [Option.ite_none_right_eq_some, Option.some.injEq] at hstep
    exact ⟨a, hnative, hstep.1, hstep.2.symm⟩
  · cases hstep

theorem nativeEnd_cases (hstep : next s .nativeEnd = some s') :
    ∃ a, s.tun2socks = some (a, .loop) ∧ s' = { s with tun2socks := some (a, .exited) } := by
  simp only [next] at hstep
  split at hstep
  · next a hnative => exact ⟨a, hnative, by simpa using hstep.symm⟩
  · cases hstep

/-- Quiescence is decided by the steps the threads could take. -/
theorem quiescent_iff : Quiescent s ↔ pluginStep s = none ∧ (∀ b, mainStep b s = none) ∧
    deliverStep s = none ∧ (∀ b, tunnelStep b s = none) ∧ next s .nativeReset = none ∧
    next s .nativeTick = none := by
  constructor
  · intro h
    exact ⟨h .plugin trivial, fun b => h (.main b) trivial, h .deliver trivial,
      fun b => h (.tunnel b) trivial, h .nativeReset trivial, h .nativeTick trivial⟩
  · rintro ⟨hplugin, hmain, hdeliver, htunnel, hreset, htick⟩ l hinternal
    cases l with
    | callStart a | callStop | nativeEnd => exact absurd hinternal (by simp [Label.internal])
    | plugin => exact hplugin
    | main b => exact hmain b
    | deliver => exact hdeliver
    | tunnel b => exact htunnel b
    | nativeReset => exact hreset
    | nativeTick => exact htick

instance (s : State Addr) : Decidable (Quiescent s) := decidable_of_iff _ quiescent_iff.symm

/-- A start that finds no service, run to its quiescent end. -/
def startRun : List (Label ℕ) :=
  [.callStart 1, .plugin, .plugin, .plugin, .plugin, .main true, .main true, .main true,
    .main true, .tunnel false, .tunnel false, .nativeReset, .tunnel false, .deliver]

example : ((pluginSystem ℕ).run (initial ℕ) startRun).any (fun s => decide (Quiescent s)) := by
  decide

/-! ### Frames -/

/-- What the plugin thread leaves alone. -/
theorem pluginStep_frame (hstep : pluginStep s = some s') :
    s'.main = s.main ∧ s'.thread = s.thread ∧ s'.tun2socks = s.tun2socks ∧
      s'.tunFd = s.tunFd ∧ s'.gTerminate = s.gTerminate ∧ s'.last = s.last ∧
      s'.failed = s.failed ∧ s'.onStartCallback = s.onStartCallback := by
  cases hpc : s.plugin <;>
    simp only [pluginStep, hpc, Option.some.injEq, reduceCtorEq] at hstep <;> subst hstep <;>
    simp [broadcastVpnStart, signalStopService, State.startService]

/-- What the service callbacks leave alone. -/
theorem mainStep_frame {routed : Bool} (hstep : mainStep routed s = some s') :
    s'.plugin = s.plugin ∧ s'.last = s.last ∧ s'.onStartCallback = s.onStartCallback ∧
      s'.received = s.received ∧ s'.alive = s.alive ∧ (s.failed → s'.failed) := by
  unfold mainStep at hstep
  repeat' split at hstep
  all_goals cases hstep
  all_goals
    simp [broadcastVpnStart, signalStopService, terminateTun2Socks, closeTunFd, State.onCreate,
      vpnEstablished, tun2SocksStopped]

/-- The main thread starts and forgets the tunnel thread, and never moves it. -/
theorem mainStep_thread {routed : Bool} (hstep : mainStep routed s = some s') :
    s'.thread = s.thread ∨ s'.thread = .absent ∨ s'.thread = .begin := by
  unfold mainStep at hstep
  repeat' split at hstep
  all_goals cases hstep
  all_goals
    simp [broadcastVpnStart, signalStopService, terminateTun2Socks, closeTunFd, State.onCreate,
      vpnEstablished, tun2SocksStopped]

omit [DecidableEq Addr] in
/-- What the tunnel thread leaves alone. -/
theorem tunnelStep_frame {raised : Bool} (hstep : tunnelStep raised s = some s') :
    s'.plugin = s.plugin ∧ s'.main = s.main ∧ s'.tunnelManager = s.tunnelManager ∧
      s'.startingTunnelManager = s.startingTunnelManager ∧
      s'.socksServerAddress = s.socksServerAddress ∧ s'.stopSignal = s.stopSignal ∧
      s'.last = s.last ∧ s'.onStartCallback = s.onStartCallback ∧
      s'.received = s.received ∧ (s.alive = false → s'.alive = false) ∧
      (s.failed → s'.failed) := by
  unfold tunnelStep at hstep
  repeat' split at hstep
  all_goals cases hstep
  all_goals
    simp +contextual [broadcastVpnStart, terminateTun2Socks, closeTunFd, tun2SocksStopped,
      State.stopSelf]

end Steps

end Tun2Socks.Plugin
