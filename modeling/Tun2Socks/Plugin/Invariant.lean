import Tun2Socks.Plugin.Model

/-!
# Where the service stands

`Wf p s` says that in the state `s` the service is in phase `p` of its life and that what
the threads hold fits that phase. By `HasPhase.step` every reachable state has a phase, over every interleaving and every outcome of `startRouting` and `startTunneling`.

The phases follow the messages of the system:

* `gone` — no service; the main thread may still be in the `onDestroy` of the last one;
* `pending` — `startService` has posted `create`, which the main thread has not taken;
* `creating` — the service object exists, `onCreate` has not registered its manager;
* `created` — registered, with `onStartCommand` to come;
* `routing` — inside `onStartCommand`;
* `started` — past `onStartCommand`, whether or not `startRouting` succeeded;
* `stopped` — `stopSelf` was called and `onDestroy` is to come.

Two consequences carry the results that follow. A tunnel thread that has not reached its
end runs in `started` only (`Wf.started_of_active`). And a tun2socks thread in its loop finds
`g_terminate` set only while the tunnel thread is joining it (`Wf.native`).

A third one is about the model itself: no plugin call holds a manager while another one is
on its way (`holdsManager_no_create`), so that one manager in the state is enough.
-/

namespace Tun2Socks.Plugin

open Framework State

variable {Addr : Type}

/-! ### Phases -/

/-- A phase in the life of the service. -/
inductive Phase (Addr : Type)
  | gone
  | pending (a : Addr)
  | creating (a : Addr)
  | created (a : Addr)
  | routing
  | started
  | stopped
  deriving DecidableEq, Repr

namespace Phase

@[simp] def alive : Phase Addr → Bool
  | gone | stopped => false
  | _ => true

@[simp] def messages : Phase Addr → List (Message Addr)
  | pending a => [.create, .startCommand a]
  | creating a | created a => [.startCommand a]
  | stopped => [.destroy]
  | _ => []

@[simp] def tunnelManager : Phase Addr → Bool
  | gone | pending _ | creating _ => false
  | _ => true

/-- A manager is on its way and not yet registered. -/
@[simp] def coming : Phase Addr → Bool
  | pending _ | creating _ => true
  | _ => false

end Phase

/-- The tunnel thread is past its last use of the tunnel. -/
@[simp] def ThreadPc.ended : ThreadPc Addr → Bool
  | .clearReconnecting | .finished => true
  | _ => false

/-- The tunnel thread is blocked on the tun2socks thread, which it has asked to end. -/
@[simp] def ThreadPc.joining : ThreadPc Addr → Bool
  | .stopTunnelingJoin | .stopJoin => true
  | _ => false

/-- Where the main thread and the tunnel thread can be in each phase. -/
@[simp] def Phase.Allows : Phase Addr → MainPc → ThreadPc Addr → Prop
  | gone, m, t | pending _, m, t =>
    m = .idle ∧ t = .absent ∨ (m = .onDestroy ∨ m = .joinTunnelThread) ∧ t.ended
  | creating _, m, t => m = .onCreate ∧ t = .absent
  | created _, m, t => m = .idle ∧ t = .absent
  | routing, m, t => m = .startRouting ∧ t = .absent
  | started, m, _ => m = .idle
  | stopped, m, t => m = .idle ∧ t.ended

/-- Whether the tunnel holds a descriptor, by where the tunnel thread is. -/
@[simp] def Phase.tunFd (p : Phase Addr) : ThreadPc Addr → Bool
  | .absent | .stopSelf => false
  -- a thread that ended for a restart has left the descriptor open
  | .clearReconnecting | .finished => p.tunnelManager && p.alive
  | _ => true

/-- What the tunnel thread knows of `mTun2SocksThread`. -/
@[simp] def ThreadPc.HasNative (native : Option (Addr × NativePc)) : ThreadPc Addr → Prop
  | .reportSuccess | .await | .stopTunnelingJoin | .stopJoin => native ≠ none
  | .readReconnecting | .stopTunneling | .stop => True
  | _ => native = none

/-- The calls in which the plugin thread carries a reference to a manager. -/
@[simp] def PluginPc.holdsManager : PluginPc Addr → Bool
  | .compareAddress _ | .reportUnchanged | .setAddress _ | .setReconnecting | .signalRestart
  | .signalStop => true
  | _ => false

/-- What the plugin thread knows of the phase. Only it sets `m_startingTunnelManager`, so
what `isServiceRunning` has read stays true until the call acts on it. -/
@[simp] def PluginPc.Knows (p : Phase Addr) (starting : Bool) : PluginPc Addr → Prop
  | .setStarting => True
  | .isRegistered _ => starting = false ∧ p.coming = false
  | .startService _ => starting = false ∧ p = .gone
  | .idle | .getStarting _ | .getManager _ | .stopGetManager => p.coming → starting
  | _ => p.coming = false

/-- The state fits the phase `p` of the service. -/
structure Wf (p : Phase Addr) (s : State Addr) : Prop where
  alive : s.alive = p.alive
  messages : s.messages = p.messages
  tunnelManager : s.tunnelManager = p.tunnelManager
  plugin : s.plugin.Knows p s.startingTunnelManager
  threads : p.Allows s.main s.thread
  tunFd : s.tunFd = p.tunFd s.thread
  hasNative : s.thread.HasNative s.tun2socks
  /-- The stop signal lives as long as the tunnel thread. -/
  stopSignal : s.stopSignal = none ↔ s.thread = .absent
  /-- `startTunneling` is called once, on a fresh tunnel, with an address. -/
  address : p = .routing ∨ s.thread = .begin → s.socksServerAddress ≠ none
  fresh : s.thread = .begin ∨ (∃ a, s.thread = .startTunneling a) →
    s.routingThroughTunnel = false
  gTerminate : s.gTerminate = 0 ∨ s.gTerminate = 1
  /-- Only a thread that is being joined finds the flag set. -/
  native : ∀ a, s.tun2socks = some (a, .loop) → s.gTerminate = 1 → s.thread.joining
  descriptors : s.opened = s.closed + s.tunFd.toNat

/-- The state fits some phase. -/
def HasPhase (s : State Addr) : Prop := ∃ p, Wf p s

/-- A tunnel thread on its way belongs to a started service. -/
theorem Wf.started_of_active {p : Phase Addr} {s : State Addr} (h : Wf p s)
    (habsent : s.thread ≠ .absent) (hended : s.thread.ended = false) : p = .started := by
  have hallows := h.threads
  cases p <;> simp_all

theorem Wf.initial : Wf .gone (initial Addr) := by
  constructor <;> simp [Plugin.initial]

/-- Once a manager is registered or gone, the plugin thread's knowledge survives any change
of phase that starts from another phase than `gone`. -/
theorem PluginPc.Knows.move {p p' : Phase Addr} {starting : Bool} {pc : PluginPc Addr}
    (h : pc.Knows p starting) (hp : p ≠ .gone) (hp' : p'.coming = false) :
    pc.Knows p' starting := by
  cases pc <;> simp_all

theorem PluginPc.Knows.reset {p p' : Phase Addr} {starting : Bool} {pc : PluginPc Addr}
    (h : pc.Knows p starting) (hp : p ≠ .gone) (hp' : p'.coming = false) :
    pc.Knows p' false := by
  cases pc <;> simp_all

theorem PluginPc.Knows.creating {a : Addr} {starting : Bool} {pc : PluginPc Addr}
    (h : pc.Knows (.pending a) starting) : pc.Knows (.creating a) starting := by
  cases pc <;> simp_all

/-! ### What a phase tells about the threads -/

variable {p : Phase Addr} {s s' : State Addr}

/-- Without a tunnel thread the tunnel holds nothing. -/
theorem Wf.unused_of_absent (h : Wf p s) (ht : s.thread = .absent) :
    s.tunFd = false ∧ s.tun2socks = none ∧ s.stopSignal = none := by
  refine ⟨?_, ?_, h.stopSignal.mpr ht⟩
  · simpa [ht] using h.tunFd
  · simpa [ht] using h.hasNative

theorem Wf.creating_of_onCreate (h : Wf p s) (hm : s.main = .onCreate) :
    s.thread = .absent ∧ ∃ a, p = .creating a := by
  have hthreads := h.threads
  cases p <;> simp_all

theorem Wf.routing_of_startRouting (h : Wf p s) (hm : s.main = .startRouting) :
    s.thread = .absent ∧ p = .routing := by
  have hthreads := h.threads
  cases p <;> simp_all

/-- While the main thread is in `onDestroy`, the tunnel thread is at its end. -/
theorem Wf.ended_of_destroying (h : Wf p s)
    (hm : s.main = .onDestroy ∨ s.main = .joinTunnelThread) :
    s.thread.ended ∧ (p = .gone ∨ ∃ a, p = .pending a) := by
  have hthreads := h.threads
  cases p <;> rcases hm with hm | hm <;> simp_all

theorem ThreadPc.HasNative.advance {t : ThreadPc Addr} {native : Option (Addr × NativePc)}
    {x y : Addr × NativePc} (h : t.HasNative native) (hx : native = some x) :
    t.HasNative (some y) := by
  cases t <;> simp_all

/-! ### The tunnel thread inside a started service -/

theorem Wf.broadcast (h : Wf p s) (success : Bool) :
    Wf p (s.broadcastVpnStart success) := { h with }

/-- The tunnel thread moves on inside a started service, past `startTunneling`. -/
theorem Wf.moveThread {t : ThreadPc Addr} (h : Wf .started s) (habsent : s.thread ≠ .absent)
    (hpast : t ≠ .absent ∧ t ≠ .begin ∧ ∀ a, t ≠ .startTunneling a)
    (hfd : s.tunFd = Phase.started.tunFd t) (hnative : t.HasNative s.tun2socks)
    (hjoining : s.thread.joining → t.joining) : Wf .started { s with thread := t } :=
  { h with
    tunFd := hfd
    hasNative := hnative
    stopSignal := by simpa [hpast.1, habsent] using h.stopSignal
    address := by simp [hpast.2.1]
    fresh := by simp [hpast.2.1, hpast.2.2]
    native := fun a hloop hflag => hjoining (h.native a hloop hflag) }

/-- `startTunneling` returns `true`: tun2socks is started with the address. -/
theorem Wf.tunnelStarted {a : Addr} (h : Wf .started s) (ht : s.thread = .startTunneling a)
    (hfd : s.tunFd = true) :
    Wf .started { s with
      routingThroughTunnel := true
      tun2socks := s.tun2socks <|> some (a, .prologue)
      thread := .reportSuccess } := by
  have hnative : s.tun2socks = none := by simpa [ht] using h.hasNative
  exact { h with
    tunFd := hfd
    hasNative := by simp
    stopSignal := by simpa [ht] using h.stopSignal
    address := by simp
    fresh := by simp
    native := by simp [hnative] }

/-- `terminateTun2Socks` before the join of the tun2socks thread. -/
theorem Wf.terminate {t : ThreadPc Addr} (h : Wf .started s) (habsent : s.thread ≠ .absent)
    (hnative : s.tun2socks ≠ none) (hfd : s.tunFd = true)
    (ht : t = .stopTunnelingJoin ∨ t = .stopJoin) :
    Wf .started { s.terminateTun2Socks with thread := t } := by
  have hflag : Jni.compareAndSwap s.gTerminate 0 1 = 1 := by
    rcases h.gTerminate with hflag | hflag <;> simp [Jni.compareAndSwap, hflag]
  have hsignal : s.stopSignal ≠ none := fun hnone => habsent (h.stopSignal.mp hnone)
  rcases ht with rfl | rfl <;>
    exact { h with
      tunFd := hfd
      hasNative := hnative
      stopSignal := iff_of_false hsignal (by simp)
      address := by simp
      fresh := by simp
      gTerminate := .inr hflag
      native := fun _ _ _ => rfl }

/-- The tunnel thread has nothing more to wait for: it goes to its end with the descriptor
open, or closes it and goes on to `stopSelf`. -/
theorem Wf.nativeStopped (h : Wf .started s) (habsent : s.thread ≠ .absent)
    (hfd : s.tunFd = true) :
    Wf .started { s.tun2SocksStopped with thread := .clearReconnecting } ∧
    Wf .started { s.tun2SocksStopped.closeTunFd with thread := .stopSelf } := by
  have hsignal : s.stopSignal ≠ none := fun hnone => habsent (h.stopSignal.mp hnone)
  constructor
  · exact { h with
      tunFd := hfd
      hasNative := rfl
      stopSignal := iff_of_false hsignal (by simp)
      address := by simp
      fresh := fun _ => rfl
      native := by simp [tun2SocksStopped] }
  · exact { h with
      tunFd := rfl
      hasNative := rfl
      stopSignal := iff_of_false hsignal (by simp)
      address := by simp
      fresh := fun _ => rfl
      native := by simp [tun2SocksStopped, closeTunFd]
      descriptors := by simpa [tun2SocksStopped, closeTunFd, hfd] using h.descriptors }

/-- The last step of the tunnel thread, in whatever phase the service is by then. -/
theorem Wf.clearReconnecting (h : Wf p s) (ht : s.thread = .clearReconnecting) :
    Wf p { s with isReconnecting := false, thread := .finished } := by
  have hthreads := h.threads
  exact { h with
    threads := by cases p <;> simp_all
    tunFd := by simpa [ht] using h.tunFd
    hasNative := by simpa [ht] using h.hasNative
    stopSignal := by simpa [ht] using h.stopSignal
    address := by simpa [ht] using h.address
    fresh := by simp
    native := by simpa [ht] using h.native }

/-! ### Every step keeps a phase -/

/-- The steps of the tunnel thread up to `stopSelf`. -/
theorem Wf.activeStep {raised : Bool} (h : Wf .started s) (habsent : s.thread ≠ .absent)
    (hended : s.thread.ended = false) (hstep : tunnelStep raised s = some s') :
    HasPhase s' := by
  have hsignal : s.stopSignal ≠ none := fun hnone => habsent (h.stopSignal.mp hnone)
  have hfd := h.tunFd
  have hnative := h.hasNative
  cases ht : s.thread <;> rw [ht] at hfd hnative habsent hended <;>
    simp only [tunnelStep, ht, Option.some.injEq, reduceCtorEq] at hstep
  case begin =>
    -- `onStartCommand` has set an address before the thread was started
    obtain ⟨a, haddress⟩ := Option.ne_none_iff_exists'.mp (h.address (.inr ht))
    rw [haddress] at hstep
    cases hstep
    exact ⟨.started, { h with
      tunFd := hfd
      hasNative := hnative
      stopSignal := iff_of_false hsignal (by simp)
      address := by simp
      fresh := fun _ => h.fresh (.inl ht)
      native := by simp_all }⟩
  case startTunneling a =>
    have hfresh := h.fresh (.inr ⟨a, ht⟩)
    by_cases hraised : raised
    · rw [if_pos hraised] at hstep
      cases hstep
      exact ⟨.started, h.moveThread (by simp [ht]) (by simp) hfd hnative (by simp [ht])⟩
    · -- the tunnel is fresh and has its descriptor, so nothing else can go wrong
      have hfd : s.tunFd = true := hfd
      rw [if_neg hraised, if_neg (by simp [hfresh]), if_pos hfd] at hstep
      cases hstep
      exact ⟨.started, h.tunnelStarted ht hfd⟩
  case reportSuccess | reportFailure =>
    subst hstep
    exact ⟨.started, (h.broadcast _).moveThread (by simp [broadcastVpnStart, ht])
      (by simp) hfd (by first | exact hnative | trivial) (by simp [broadcastVpnStart, ht])⟩
  case await =>
    simp only [Option.ite_none_right_eq_some, Option.some.injEq] at hstep
    obtain ⟨-, rfl⟩ := hstep
    exact ⟨.started, h.moveThread (by simp [ht]) (by simp) hfd trivial (by simp [ht])⟩
  case readReconnecting =>
    subst hstep
    by_cases hreconnecting : s.isReconnecting
    · rw [if_pos hreconnecting]
      exact ⟨.started, h.moveThread (by simp [ht]) (by simp) hfd trivial (by simp [ht])⟩
    · rw [if_neg hreconnecting]
      exact ⟨.started, h.moveThread (by simp [ht]) (by simp) hfd trivial (by simp [ht])⟩
  case stopTunneling =>
    by_cases hsome : s.tun2socks.isSome
    · rw [if_pos hsome] at hstep
      cases hstep
      have hrunning := Option.isSome_iff_ne_none.mp hsome
      exact ⟨.started, h.terminate (by simp [ht]) hrunning hfd (.inl rfl)⟩
    · rw [if_neg hsome] at hstep
      cases hstep
      exact ⟨.started, h.moveThread (by simp [ht]) (by simp) hfd (by simpa using hsome)
        (by simp [ht])⟩
  case stop =>
    by_cases hsome : s.tun2socks.isSome
    · rw [if_pos hsome] at hstep
      cases hstep
      have hrunning := Option.isSome_iff_ne_none.mp hsome
      exact ⟨.started, h.terminate (by simp [ht]) hrunning hfd (.inr rfl)⟩
    · -- without a tun2socks thread the descriptor is closed at once
      rw [if_neg hsome] at hstep
      cases hstep
      have hnone : s.tun2socks = none := by simpa using hsome
      exact ⟨.started, { h with
        tunFd := rfl
        hasNative := hnone
        stopSignal := iff_of_false hsignal (by simp)
        address := by simp
        fresh := by simp
        native := by simp [closeTunFd, hnone]
        descriptors := by simpa [closeTunFd, hfd] using h.descriptors }⟩
  case stopTunnelingJoin =>
    split at hstep <;> cases hstep
    exact ⟨.started, (h.nativeStopped (by simp [ht]) hfd).1⟩
  case stopJoin =>
    split at hstep <;> cases hstep
    exact ⟨.started, (h.nativeStopped (by simp [ht]) hfd).2⟩
  case stopSelf =>
    subst hstep
    exact ⟨.stopped, { h with
      alive := rfl
      messages := by simp [State.stopSelf, h.alive, h.messages]
      plugin := h.plugin.move (by simp) rfl
      threads := ⟨h.threads, rfl⟩
      tunFd := hfd
      hasNative := hnative
      stopSignal := iff_of_false hsignal (by simp)
      address := by simp
      fresh := by simp
      native := by simp_all [State.stopSelf] }⟩
  all_goals simp at habsent hended

/-- **Tunnel steps.** Only `stopSelf` changes the phase. -/
theorem Wf.tunnelStep {raised : Bool} (h : Wf p s) (hstep : tunnelStep raised s = some s') :
    HasPhase s' := by
  by_cases habsent : s.thread = .absent
  · simp [Plugin.tunnelStep, habsent] at hstep
  by_cases hended : s.thread.ended
  · cases ht : s.thread <;> simp only [ht, ThreadPc.ended, Bool.false_eq_true] at hended <;>
      simp only [Plugin.tunnelStep, ht, Option.some.injEq, reduceCtorEq] at hstep
    subst hstep
    exact ⟨p, h.clearReconnecting ht⟩
  · have hended : s.thread.ended = false := by simpa using hended
    obtain rfl := h.started_of_active habsent hended
    exact h.activeStep habsent hended hstep

theorem Wf.deliver (h : Wf p s) (b : Broadcast Addr) (bs : List (Broadcast Addr)) :
    Wf p { s.onStartVpn b with broadcasts := bs } := by
  unfold onStartVpn
  split
  · exact { h with }
  · exact { h with }

section Steps

variable [DecidableEq Addr]

/-- **Plugin steps.** Only `startService` changes the phase. -/
theorem Wf.pluginStep (h : Wf p s) (hstep : pluginStep s = some s') : HasPhase s' := by
  have hknows := h.plugin
  have hmanager := h.tunnelManager
  cases hpc : s.plugin <;> rw [hpc] at hknows <;>
    simp only [Plugin.pluginStep, hpc, Option.some.injEq, reduceCtorEq] at hstep <;> subst hstep
  case getStarting a =>
    refine ⟨p, { h with plugin := ?_ }⟩
    by_cases hstarting : s.startingTunnelManager <;> simp_all
  case isRegistered a =>
    refine ⟨p, { h with plugin := ?_ }⟩
    -- neither registered nor on its way: there is no service
    cases p <;> simp_all
  case getManager a | stopGetManager =>
    refine ⟨p, { h with plugin := ?_ }⟩
    cases p <;> simp_all
  case compareAddress a =>
    refine ⟨p, { h with plugin := ?_ }⟩
    by_cases hsame : s.socksServerAddress = some a <;> simp_all
  case setAddress a => exact ⟨p, { h with plugin := hknows, address := by simp }⟩
  case setReconnecting => exact ⟨p, { h with plugin := hknows }⟩
  case reportUnchanged => exact ⟨p, { h with plugin := by simp_all }⟩
  case signalRestart | signalStop =>
    exact ⟨p, { h with
      plugin := by simp_all
      stopSignal := by simpa [signalStopService] using h.stopSignal }⟩
  case startService a =>
    -- the call has seen that there is no service, and nobody else starts one
    obtain ⟨-, rfl⟩ := hknows
    exact ⟨.pending a, { h with
      alive := rfl
      messages := by simp [startService, h.alive, h.messages]
      plugin := by simp
      address := by simpa [startService] using h.address }⟩
  case setStarting => exact ⟨p, { h with plugin := by simp }⟩

/-- The main thread takes a message. -/
theorem Wf.takeMessage {routed : Bool} (h : Wf p s) (hm : s.main = .idle)
    (hstep : mainStep routed s = some s') : HasPhase s' := by
  have hthreads := h.threads
  rw [hm] at hthreads
  simp only [Plugin.mainStep, hm, h.messages] at hstep
  cases p <;> simp only [Phase.messages, Option.some.injEq, reduceCtorEq] at hstep
  case pending a =>
    have hthread : s.thread = .absent := by simpa using hthreads
    obtain ⟨hfd, hnative, -⟩ := h.unused_of_absent hthread
    -- the previous tunnel thread was joined, so `Tunnel.newTunnel` finds nothing to stop
    rw [hnative] at hstep
    cases hstep
    exact ⟨.creating a, { h with
      messages := rfl
      plugin := h.plugin.creating
      threads := ⟨rfl, hthread⟩
      tunFd := by simp [closeTunFd, hthread]
      address := by simp [closeTunFd, hthread]
      descriptors := by simpa [closeTunFd, hfd] using h.descriptors }⟩
  case creating a => simp at hthreads
  case created a =>
    -- `onStartCommand` is entered with the address of the intent
    subst hstep
    exact ⟨.routing, { h with
      messages := rfl
      plugin := h.plugin.move (by simp) rfl
      threads := ⟨rfl, hthreads.2⟩
      tunFd := by simpa [hthreads.2] using h.tunFd
      address := by simp }⟩
  case stopped =>
    -- the manager is gone from `TunnelState` before its tunnel thread is joined
    subst hstep
    exact ⟨.gone, { h with
      messages := rfl
      tunnelManager := rfl
      plugin := h.plugin.reset (by simp) rfl
      threads := .inr ⟨.inl rfl, hthreads.2⟩
      tunFd := by cases ht : s.thread <;> simp_all [h.tunFd]
      address := by cases ht : s.thread <;> simp_all }⟩

/-- `onStartCommand` reaches the end of `startRouting`. -/
theorem Wf.routed {routed : Bool} (h : Wf p s) (hm : s.main = .startRouting)
    (hstep : Plugin.mainStep routed s = some s') : HasPhase s' := by
  obtain ⟨hthread, rfl⟩ := h.routing_of_startRouting hm
  obtain ⟨hfd, hnative, -⟩ := h.unused_of_absent hthread
  simp only [Plugin.mainStep, hm] at hstep
  cases routed
  · -- a service without a tunnel thread stays behind
    cases hstep
    exact ⟨.started, { h with
      plugin := h.plugin.move (by simp) rfl
      threads := rfl
      tunFd := by simp [broadcastVpnStart, hthread, hfd]
      address := by simp [broadcastVpnStart, hthread] }⟩
  · cases hstep
    exact ⟨.started, { h with
      plugin := h.plugin.move (by simp) rfl
      threads := rfl
      tunFd := rfl
      hasNative := hnative
      stopSignal := by simp [vpnEstablished]
      address := fun _ => h.address (.inl rfl)
      fresh := fun _ => rfl
      native := by simp [vpnEstablished, hnative]
      descriptors := by simpa [vpnEstablished, hfd] using h.descriptors }⟩

/-- A started service has no callback to run. -/
theorem Wf.mainStep_started (h : Wf .started s) (routed : Bool) : mainStep routed s = none := by
  have hmain : s.main = .idle := h.threads
  have hmessages : s.messages = [] := h.messages
  simp [Plugin.mainStep, hmain, hmessages]

/-- **Main steps.** Each message moves the service to the next phase. -/
theorem Wf.mainStep {routed : Bool} (h : Wf p s) (hstep : mainStep routed s = some s') :
    HasPhase s' := by
  cases hm : s.main with
  | idle => exact h.takeMessage hm hstep
  | newTunnelJoin =>
    -- `Tunnel.newTunnel` has never found a tunnel to stop
    have hthreads := h.threads
    cases p <;> simp [hm] at hthreads
  | onCreate =>
    obtain ⟨hthread, a, rfl⟩ := h.creating_of_onCreate hm
    obtain ⟨hfd, -, -⟩ := h.unused_of_absent hthread
    simp only [Plugin.mainStep, hm, Option.some.injEq] at hstep
    subst hstep
    exact ⟨.created a, { h with
      tunnelManager := rfl
      plugin := h.plugin.reset (by simp) rfl
      threads := ⟨rfl, rfl⟩
      tunFd := rfl
      hasNative := rfl
      stopSignal := by simp [State.onCreate]
      address := by simp [State.onCreate]
      fresh := by simp [State.onCreate]
      native := by simp [State.onCreate]
      descriptors := by simpa [State.onCreate, hfd] using h.descriptors }⟩
  | startRouting => exact h.routed hm hstep
  | onDestroy =>
    obtain ⟨hended, hp⟩ := h.ended_of_destroying (.inl hm)
    have hthread : s.thread ≠ .absent := by
      intro heq
      simp [heq] at hended
    simp only [Plugin.mainStep, hm, if_neg hthread, Option.some.injEq] at hstep
    subst hstep
    refine ⟨p, { h with
      threads := ?_
      stopSignal := by simpa [signalStopService] using h.stopSignal }⟩
    obtain rfl | ⟨a, rfl⟩ := hp <;> exact .inr ⟨.inr rfl, hended⟩
  | joinTunnelThread =>
    obtain ⟨hended, hp⟩ := h.ended_of_destroying (.inr hm)
    simp only [Plugin.mainStep, hm, Option.ite_none_right_eq_some, Option.some.injEq] at hstep
    obtain ⟨hfinished, rfl⟩ := hstep
    have hfd : s.tunFd = false := by
      obtain rfl | ⟨a, rfl⟩ := hp <;> simpa [hfinished] using h.tunFd
    have hnative : s.tun2socks = none := by simpa [hfinished] using h.hasNative
    refine ⟨p, { h with
      threads := ?_
      tunFd := hfd
      hasNative := hnative
      stopSignal := by simp
      address := ?_
      fresh := by simp
      native := by simp [hnative] }⟩
    · obtain rfl | ⟨a, rfl⟩ := hp <;> exact .inl ⟨rfl, rfl⟩
    · obtain rfl | ⟨a, rfl⟩ := hp <;> simp

/-- **Every step keeps a phase.** -/
theorem HasPhase.step {l : Label Addr} (h : HasPhase s) (hstep : next s l = some s') :
    HasPhase s' := by
  obtain ⟨p, h⟩ := h
  cases l with
  | callStart a | callStop =>
    obtain ⟨hidle, rfl⟩ := guard_eq_some.mp hstep
    have hknows := h.plugin
    rw [hidle] at hknows
    exact ⟨p, { h with plugin := hknows }⟩
  | plugin => exact h.pluginStep hstep
  | main => exact h.mainStep hstep
  | deliver =>
    obtain ⟨b, bs, -, -, rfl⟩ := deliverStep_cases hstep
    exact ⟨p, h.deliver b bs⟩
  | tunnel => exact h.tunnelStep hstep
  | nativeReset =>
    -- the flag of an earlier run, or of a stop that came too soon, is cleared
    obtain ⟨a, hnative, rfl⟩ := nativeReset_cases hstep
    have hflag : Jni.compareAndSwap s.gTerminate 1 0 = 0 := by
      rcases h.gTerminate with hflag | hflag <;> simp [Jni.compareAndSwap, hflag]
    exact ⟨p, { h with
      hasNative := h.hasNative.advance hnative
      gTerminate := .inl hflag
      native := by simp [hflag] }⟩
  | nativeTick =>
    obtain ⟨a, hnative, -, rfl⟩ := nativeTick_cases hstep
    exact ⟨p, { h with hasNative := h.hasNative.advance hnative, native := by simp }⟩
  | nativeEnd =>
    obtain ⟨a, hnative, rfl⟩ := nativeEnd_cases hstep
    exact ⟨p, { h with hasNative := h.hasNative.advance hnative, native := by simp }⟩

/-- **One manager.** While a plugin call holds a manager, no other one is on its way. -/
theorem holdsManager_no_create (h : (pluginSystem Addr).Reachable s)
    (hholds : s.plugin.holdsManager = true) : .create ∉ s.messages ∧ s.main ≠ .onCreate := by
  have hphase : HasPhase s :=
    h.invariant ⟨.gone, Wf.initial⟩ fun _ _ _ hold hstep => hold.step hstep
  obtain ⟨p, hwf⟩ := hphase
  have hknows := hwf.plugin
  have hcoming : p.coming = false := by
    cases hpc : s.plugin <;> rw [hpc] at hknows hholds <;>
      first | exact hknows | cases hholds
  have hthreads := hwf.threads
  rw [hwf.messages]
  cases p <;> cases hcoming
  all_goals
    refine ⟨by simp, fun hmain => ?_⟩
    simp [hmain] at hthreads

/-! ### Quiescent states -/

theorem plugin_idle_of_quiescent (hq : Quiescent s) : s.plugin = .idle := by
  have hplugin : pluginStep s = none := hq .plugin trivial
  cases hpc : s.plugin <;> simp_all [pluginStep]

/-- In a quiescent state the tunnel thread waits for a stop signal or for the tun2socks
thread, or there is nothing left for it to do. -/
theorem Wf.thread_of_quiescent (h : Wf p s) (hq : Quiescent s) :
    s.thread = .absent ∨ s.thread = .finished ∨
      (s.thread = .await ∧ s.stopSignal = some false) ∨
      (s.thread.joining ∧ ∀ a, s.tun2socks ≠ some (a, .exited)) := by
  have htunnel : Plugin.tunnelStep false s = none := hq (.tunnel false) trivial
  have hsignal := h.stopSignal
  cases ht : s.thread <;> simp only [Plugin.tunnelStep, ht, reduceCtorEq] at htunnel
  case absent | finished => simp
  case begin =>
    obtain ⟨a, ha⟩ := Option.ne_none_iff_exists'.mp (h.address (.inr ht))
    rw [ha] at htunnel
    cases htunnel
  case startTunneling a => split_ifs at htunnel
  case await =>
    rcases hs : s.stopSignal with _ | _ | _ <;> simp_all
  case stopTunneling | stop => split_ifs at htunnel
  case stopTunnelingJoin | stopJoin =>
    refine .inr (.inr (.inr ⟨rfl, ?_⟩))
    intro a ha
    simp [ha] at htunnel

/-- In a quiescent state the main thread has no message left. -/
theorem Wf.messages_of_quiescent (h : Wf p s) (hq : Quiescent s) :
    s.main = .idle ∧ s.messages = [] := by
  have hmain : Plugin.mainStep false s = none := hq (.main false) trivial
  have hthreads := h.threads
  have hthread := h.thread_of_quiescent hq
  cases hm : s.main <;> simp only [Plugin.mainStep, hm, reduceCtorEq] at hmain
  case idle =>
    refine ⟨rfl, ?_⟩
    rw [h.messages] at hmain ⊢
    cases p <;> simp_all
    split_ifs at hmain
  case newTunnelJoin => cases p <;> simp_all
  case startRouting => simp at hmain
  case onDestroy => split_ifs at hmain
  case joinTunnelThread =>
    obtain ⟨hended, -⟩ := h.ended_of_destroying (.inr hm)
    cases ht : s.thread <;> simp_all

end Steps

end Tun2Socks.Plugin
