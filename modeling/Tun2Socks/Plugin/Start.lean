import Tun2Socks.Plugin.Invariant

/-!
# When a start takes effect

A start is a chain of hand-overs: the plugin posts `startService`, the main thread creates
the service and brings up routing, the tunnel thread starts tun2socks. `Serves s a` says
that this chain is under way for the address `a`, or has arrived, and that nothing has told
it to stop.

A start takes effect when it finds no service at all, or finds one that serves its own
address. The other branch of `startTunnelService`, `restartTunnel` with another address,
counts the stop signal down with `m_isReconnecting` set: the tunnel thread stops tun2socks,
leaves the descriptor open and ends. Its comment names a broadcast of a DNS resolver that
restarts the tunnel; no code does. `restart_counterexample` is that run, and
`start_takes_effect` says that a run without such a restart keeps its promise.
-/

namespace Tun2Socks.Plugin

open Framework State

variable {Addr : Type}

/-! ### Serving an address -/

/-- `isServiceRunning` is false. -/
def Fresh (s : State Addr) : Prop :=
  s.startingTunnelManager = false ∧ s.tunnelManager = false

/-- The service is on its way to `startRouting` for the address `a`. -/
def ComingFor (s : State Addr) (a : Addr) : Prop :=
  .startCommand a ∈ s.messages ∨ s.main = .startRouting ∧ s.socksServerAddress = some a

/-- The tunnel thread is on its way to start tun2socks with `a`, or has started it, and has
not been told to stop. -/
def UpFor (s : State Addr) (a : Addr) : Prop :=
  s.stopSignal = some false ∧
    (s.thread = .begin ∧ s.socksServerAddress = some a ∨ s.thread = .startTunneling a ∨
      (s.thread = .reportSuccess ∨ s.thread = .await) ∧ s.running = some a)

/-- The service is coming up for `a` or up with it. -/
def Serves (s : State Addr) (a : Addr) : Prop := ComingFor s a ∨ UpFor s a

/-- The most recent request is a start. -/
def State.startRequested (s : State Addr) : Bool :=
  match s.last with
  | some (.start _) => true
  | _ => false

/-- The condition on a step under which starts take effect:

* a start finds no service, or one that serves its own address;
* a restart signals before there is a tunnel thread to stop;
* tun2socks does not end by itself while it is wanted. -/
def StartOk (s : State Addr) : Label Addr → Prop
  | .callStart a => Fresh s ∨ Serves s a
  | .plugin => s.plugin = .signalRestart → s.stopSignal = none
  | .nativeEnd => s.startRequested = false
  | _ => True

section Decidable

variable [DecidableEq Addr]

instance (s : State Addr) : Decidable (Fresh s) := by unfold Fresh; infer_instance

instance (s : State Addr) (a : Addr) : Decidable (Serves s a) := by
  unfold Serves ComingFor UpFor; infer_instance

instance (s : State Addr) (l : Label Addr) : Decidable (StartOk s l) := by
  cases l <;> unfold StartOk <;> infer_instance

end Decidable

/-- What has become of a start for `a`: it is served, or about to be reported as failed. -/
def Served (s : State Addr) (a : Addr) : Prop := s.thread = .reportFailure ∨ Serves s a

/-- How far the call that made the most recent start, for the address `a`, has got. -/
@[simp] def PluginPc.Tracks (s : State Addr) (a : Addr) : PluginPc Addr → Prop
  | .getStarting b | .isRegistered b => b = a ∧ (Fresh s ∨ Served s a)
  | .startService b => b = a
  | .getManager b | .compareAddress b | .setAddress b => b = a ∧ Served s a
  | .stopGetManager | .signalStop => False
  | _ => Served s a

/-- As long as no failure was broadcast for it, the most recent start is on track. -/
structure StartInv (s : State Addr) : Prop where
  phase : HasPhase s
  tracks : ∀ a, s.last = some (.start a) → s.failed = false → s.plugin.Tracks s a

variable {p : Phase Addr} {s s' : State Addr} {a : Addr}

theorem PluginPc.Tracks.mono {pc : PluginPc Addr} (h : pc.Tracks s a)
    (hfresh : pc ≠ .setStarting → Fresh s → Fresh s') (hserved : Served s a → Served s' a) :
    pc.Tracks s' a := by
  cases pc <;> simp_all
  all_goals exact h.2.imp hfresh hserved

/-- A call that finds no service running finds none on its way either. -/
theorem Wf.gone_of_fresh (h : Wf p s) (hfresh : Fresh s) (h_pc : s.plugin ≠ .setStarting) :
    p = .gone := by
  obtain ⟨hstarting, hmanager⟩ := hfresh
  have hknows := h.plugin
  rw [h.tunnelManager] at hmanager
  cases hpc : s.plugin <;> cases p <;> simp_all

/-! ### A start stays served -/

/-- A start that is on its way keeps the tunnel thread of an earlier service at its end. -/
theorem Wf.thread_of_comingFor (h : Wf p s) (hcoming : ComingFor s a) :
    s.thread = .absent ∨ s.thread.ended := by
  have hthreads := h.threads
  have hmessages := h.messages
  rcases hcoming with hmem | ⟨hmain, -⟩
  · cases p <;> simp_all
    all_goals rcases hthreads with hthreads | hthreads <;> simp [hthreads]
  · exact .inl (h.routing_of_startRouting hmain).1

theorem Served.running_eq (h : Served s a) (hmain : s'.main = s.main)
    (hthread : s'.thread = s.thread) (hmessages : s'.messages = s.messages)
    (haddress : s'.socksServerAddress = s.socksServerAddress)
    (hsignal : s'.stopSignal = s.stopSignal) (hrunning : s'.running = s.running) :
    Served s' a := by
  unfold Served Serves ComingFor UpFor
  rw [hmain, hthread, hmessages, haddress, hsignal, hrunning]
  exact h

theorem Served.setAddress (h : Served s a) :
    Served { s with socksServerAddress := some a, plugin := .setReconnecting } a := by
  rcases h with ht | (hmem | ⟨hmain, -⟩) | ⟨hsignal, hup⟩
  · exact .inl ht
  · exact .inr (.inl (.inl hmem))
  · exact .inr (.inl (.inr ⟨hmain, rfl⟩))
  · exact .inr (.inr ⟨hsignal, hup.imp_left fun h => ⟨h.1, rfl⟩⟩)

theorem Served.not_joining (hwf : Wf p s) (h : Served s a) : s.thread.joining = false := by
  rcases h with ht | hcoming | ⟨-, hup⟩
  · simp [ht]
  · rcases hwf.thread_of_comingFor hcoming with ht | hended
    · simp [ht]
    · cases ht : s.thread <;> simp_all
  · rcases hup with ⟨ht, -⟩ | ht | ⟨ht | ht, -⟩ <;> simp [ht]

/-- **A served start stays served** through the steps of the tunnel thread, or is reported
as failed. -/
theorem Served.tunnelStep {raised : Bool} (hwf : Wf p s) (h : Served s a)
    (hstep : tunnelStep raised s = some s') : Served s' a ∨ s'.failed = true := by
  rcases h with ht | hcoming | ⟨hsignal, hup⟩
  · simp only [Plugin.tunnelStep, ht, Option.some.injEq] at hstep
    subst hstep
    exact .inr (by simp [broadcastVpnStart])
  · -- only the end of an earlier tunnel thread can overlap with a coming service
    rcases hwf.thread_of_comingFor hcoming with ht | hended
    · simp [Plugin.tunnelStep, ht] at hstep
    · cases ht : s.thread <;> simp only [ht, ThreadPc.ended, Bool.false_eq_true] at hended <;>
        simp only [Plugin.tunnelStep, ht, Option.some.injEq, reduceCtorEq] at hstep
      subst hstep
      exact .inl (.inr (.inl hcoming))
  · -- the thread goes on towards `await`, and stays there
    rcases hup with ⟨ht, haddress⟩ | ht | ⟨ht | ht, hrunning⟩
    · simp only [Plugin.tunnelStep, ht, haddress, Option.some.injEq] at hstep
      subst hstep
      exact .inl (.inr (.inr ⟨hsignal, .inr (.inl rfl)⟩))
    · have hfresh := hwf.fresh (.inr ⟨a, ht⟩)
      have hfd : s.tunFd = true := by simpa [ht] using hwf.tunFd
      have hnative : s.tun2socks = none := by simpa [ht] using hwf.hasNative
      simp only [Plugin.tunnelStep, ht] at hstep
      by_cases hraised : raised
      · rw [if_pos hraised] at hstep
        cases hstep
        exact .inl (.inl rfl)
      · rw [if_neg hraised, if_neg (by simp [hfresh]), if_pos hfd] at hstep
        cases hstep
        refine .inl (.inr (.inr ⟨hsignal, .inr (.inr ⟨.inl rfl, ?_⟩)⟩))
        simp [running, hnative]
    · simp only [Plugin.tunnelStep, ht, Option.some.injEq] at hstep
      subst hstep
      exact .inl (.inr (.inr ⟨hsignal, .inr (.inr ⟨.inr rfl, hrunning⟩)⟩))
    · simp [Plugin.tunnelStep, ht, hsignal] at hstep

section Steps

variable [DecidableEq Addr]

/-- A posted start command is taken by `onStartCommand` and not lost. -/
theorem comingFor_of_posted {routed : Bool} (hmem : .startCommand a ∈ s.messages)
    (hstep : mainStep routed s = some s') : ComingFor s' a := by
  cases hm : s.main <;> simp only [mainStep, hm] at hstep
  case idle =>
    cases hq : s.messages with
    | nil => simp [hq] at hmem
    | cons m q =>
      rw [hq] at hstep hmem
      cases m with
      | startCommand b =>
        cases hstep
        rcases List.mem_cons.mp hmem with heq | hmem
        · obtain rfl : a = b := Message.startCommand.inj heq
          exact .inr ⟨rfl, rfl⟩
        · exact .inl hmem
      | create =>
        have hmem : .startCommand a ∈ q := by simpa using hmem
        dsimp only at hstep
        split_ifs at hstep <;> obtain rfl := Option.some.inj hstep <;> exact .inl hmem
      | destroy =>
        have hmem : .startCommand a ∈ q := by simpa using hmem
        cases hstep
        exact .inl hmem
  all_goals
    repeat' split at hstep
    all_goals cases hstep
    all_goals exact .inl hmem

/-- A service that is coming for `a` stays so until `startRouting`, which brings it up. -/
theorem ComingFor.mainStep {routed : Bool} (h : ComingFor s a)
    (hstep : mainStep routed s = some s') : Served s' a ∨ s'.failed = true := by
  rcases h with hmem | ⟨hmain, haddress⟩
  · exact .inl (.inr (.inl (comingFor_of_posted hmem hstep)))
  · simp only [Plugin.mainStep, hmain] at hstep
    by_cases hrouted : routed
    · rw [if_pos hrouted] at hstep
      cases hstep
      exact .inl (.inr (.inr ⟨rfl, .inl ⟨rfl, haddress⟩⟩))
    · rw [if_neg hrouted] at hstep
      cases hstep
      exact .inr (by simp [broadcastVpnStart])

theorem Served.mainStep {routed : Bool} (hwf : Wf p s) (h : Served s a)
    (hstep : mainStep routed s = some s') : Served s' a ∨ s'.failed = true := by
  by_cases hcoming : ComingFor s a
  · exact hcoming.mainStep hstep
  · -- the tunnel thread is on its way, so the main thread has nothing to do
    exfalso
    have hactive : s.thread ≠ .absent ∧ s.thread.ended = false := by
      rcases h with h | h | ⟨-, h⟩
      · simp [h]
      · exact absurd h hcoming
      · rcases h with ⟨h, -⟩ | h | ⟨h | h, -⟩ <;> simp [h]
    obtain rfl := hwf.started_of_active hactive.1 hactive.2
    exact absurd hstep (by simp [hwf.mainStep_started])

theorem Fresh.mainStep {routed : Bool} (hwf : Wf .gone s) (h : Fresh s)
    (hstep : mainStep routed s = some s') : Fresh s' := by
  have hthreads := hwf.threads
  have hmessages : s.messages = [] := hwf.messages
  cases hm : s.main <;> rw [hm] at hthreads <;> simp at hthreads <;>
    simp only [Plugin.mainStep, hm, hmessages, reduceCtorEq] at hstep
  case onDestroy =>
    split_ifs at hstep <;> obtain rfl := Option.some.inj hstep <;> exact h
  case joinTunnelThread =>
    split_ifs at hstep; obtain rfl := Option.some.inj hstep; exact h

end Steps

/-! ### The start is on track -/

/-- A step of another thread keeps the start on track if it keeps it served. -/
theorem StartInv.transfer (h : StartInv s) (hphase : HasPhase s')
    (hplugin : s'.plugin = s.plugin) (hlast : s'.last = s.last)
    (hfailed : s.failed → s'.failed)
    (hfresh : s.plugin ≠ .setStarting → Fresh s → Fresh s')
    (hserved : ∀ a, Served s a → Served s' a ∨ s'.failed = true) : StartInv s' := by
  refine ⟨hphase, ?_⟩
  intro a hstart hok
  -- a failure that was broadcast before is not forgotten
  have hbefore : s.failed = false := by
    by_contra hcontra
    exact absurd (hfailed (by simpa using hcontra)) (by simp [hok])
  rw [hplugin]
  refine (h.tracks a (hlast ▸ hstart) hbefore).mono hfresh ?_
  intro hsrv
  exact (hserved a hsrv).resolve_right (by simp [hok])

section Runs

variable [DecidableEq Addr]

/-- **Steps of the start call itself.** -/
theorem StartInv.pluginStep (h : StartInv s)
    (hok : s.plugin = .signalRestart → s.stopSignal = none)
    (hstep : pluginStep s = some s') : StartInv s' := by
  obtain ⟨p, hwf⟩ := h.phase
  refine ⟨hwf.pluginStep hstep, ?_⟩
  intro a hlast hfailed
  obtain ⟨-, -, -, -, -, hlast_eq, hfailed_eq, -⟩ := pluginStep_frame hstep
  have htracks := h.tracks a (hlast_eq ▸ hlast) (hfailed_eq ▸ hfailed)
  have hknows := hwf.plugin
  cases hpc : s.plugin <;> rw [hpc] at htracks hknows <;>
    simp only [Plugin.pluginStep, hpc, Option.some.injEq, reduceCtorEq] at hstep <;> subst hstep
  case getStarting b =>
    obtain ⟨rfl, hserved⟩ := htracks
    by_cases hstarting : s.startingTunnelManager
    · rw [if_pos hstarting]
      refine ⟨rfl, hserved.resolve_left ?_⟩
      intro hfresh
      simp [hfresh.1] at hstarting
    · rw [if_neg hstarting]
      exact ⟨rfl, hserved⟩
  case isRegistered b =>
    obtain ⟨rfl, hserved⟩ := htracks
    by_cases hmanager : s.tunnelManager
    · rw [if_pos hmanager]
      refine ⟨rfl, hserved.resolve_left ?_⟩
      intro hfresh
      simp [hfresh.2] at hmanager
    · rw [if_neg hmanager]
      rfl
  case getManager b =>
    obtain ⟨rfl, hserved⟩ := htracks
    by_cases hmanager : s.tunnelManager
    · rw [if_pos hmanager]
      exact ⟨rfl, hserved⟩
    · rw [if_neg hmanager]
      exact hserved
  case compareAddress b =>
    obtain ⟨rfl, hserved⟩ := htracks
    by_cases hsame : s.socksServerAddress = some b
    · rw [if_pos hsame]
      exact hserved
    · rw [if_neg hsame]
      exact ⟨rfl, hserved⟩
  case setAddress b =>
    obtain ⟨rfl, hserved⟩ := htracks
    exact hserved.setAddress
  case signalRestart =>
    -- no tunnel thread yet, so there is no latch to count down
    have hnone := hok hpc
    rcases htracks with ht | hcoming | ⟨hsignal, -⟩
    · exact .inl ht
    · exact .inr (.inl hcoming)
    · exact absurd hsignal (by simp [hnone])
  case startService b =>
    -- there is no service, so the start command is posted behind a `create`
    obtain rfl := htracks
    obtain ⟨-, rfl⟩ := hknows
    refine .inr (.inl (.inl ?_))
    simp [State.startService, hwf.alive]
  case reportUnchanged | setReconnecting | setStarting => exact htracks
  case stopGetManager | signalStop => cases htracks

/-- **Every step that meets the condition keeps the start on track.** -/
theorem StartInv.step {l : Label Addr} (h : StartInv s) (hok : StartOk s l)
    (hstep : next s l = some s') : StartInv s' := by
  obtain ⟨p, hwf⟩ := h.phase
  cases l with
  | callStart a =>
    refine ⟨h.phase.step hstep, ?_⟩
    obtain ⟨hidle, rfl⟩ := guard_eq_some.mp hstep
    intro b hlast _
    obtain rfl : a = b := by simpa using hlast
    exact ⟨rfl, hok.imp_right .inr⟩
  | callStop =>
    refine ⟨h.phase.step hstep, ?_⟩
    obtain ⟨hidle, rfl⟩ := guard_eq_some.mp hstep
    exact fun a hlast => nomatch hlast
  | plugin => exact h.pluginStep hok hstep
  | main =>
    obtain ⟨hplugin, hlast, -, -, -, hfailed⟩ := mainStep_frame hstep
    refine h.transfer (h.phase.step hstep) hplugin hlast hfailed ?_ ?_
    · intro hpc hfresh
      obtain rfl := hwf.gone_of_fresh hfresh hpc
      exact hfresh.mainStep hwf hstep
    · exact fun a hserved => hserved.mainStep hwf hstep
  | deliver =>
    have hphase := h.phase.step hstep
    obtain ⟨b, bs, -, -, rfl⟩ := deliverStep_cases hstep
    revert hphase
    unfold onStartVpn
    split <;> intro hphase <;>
      exact h.transfer hphase rfl rfl id (fun _ => id) fun _ hserved => .inl hserved
  | tunnel =>
    obtain ⟨hplugin, -, hmanager, hstarting, -, -, hlast, -, -, -, hfailed⟩ :=
      tunnelStep_frame hstep
    refine h.transfer (h.phase.step hstep) hplugin hlast hfailed ?_ ?_
    · exact fun _ hfresh => ⟨hstarting.trans hfresh.1, hmanager.trans hfresh.2⟩
    · exact fun a hserved => hserved.tunnelStep hwf hstep
  | nativeReset =>
    have hphase := h.phase.step hstep
    obtain ⟨b, hnative, rfl⟩ := nativeReset_cases hstep
    refine h.transfer hphase rfl rfl id (fun _ => id) fun a hserved => .inl ?_
    refine hserved.running_eq rfl rfl rfl rfl rfl ?_
    simp [running, hnative]
  | nativeTick =>
    have hphase := h.phase.step hstep
    obtain ⟨b, hnative, hflag, rfl⟩ := nativeTick_cases hstep
    refine h.transfer hphase rfl rfl id (fun _ => id) fun a hserved => ?_
    -- the flag is set only for a tunnel thread that has stopped serving
    exact absurd (hwf.native b hnative hflag) (by rw [hserved.not_joining hwf]; simp)
  | nativeEnd =>
    have hphase := h.phase.step hstep
    obtain ⟨b, -, rfl⟩ := nativeEnd_cases hstep
    refine ⟨hphase, fun a hlast => ?_⟩
    have hok : s.startRequested = false := hok
    simp [startRequested, show s.last = some (.start a) from hlast] at hok

theorem startInv_of_reachableUnder (h : (pluginSystem Addr).ReachableUnder StartOk s) :
    StartInv s :=
  h.invariant ⟨⟨.gone, Wf.initial⟩, fun _ hlast => absurd hlast (by simp [pluginSystem, initial])⟩
    fun _ _ _ hinv hok hstep => hinv.step hok hstep

/-- **A start takes effect.** In every run whose steps meet `StartOk`, a quiescent state
whose most recent request is a start, with no failure broadcast for it, has the VPN
interface open and a tun2socks thread running with exactly the address of that start. -/
theorem start_takes_effect (s : State Addr) (a : Addr)
    (h : (pluginSystem Addr).ReachableUnder StartOk s) (hquiet : Quiescent s)
    (hlast : s.last = some (.start a)) (hfailed : s.failed = false) :
    s.tunFd = true ∧ s.running = some a := by
  have hinv := startInv_of_reachableUnder h
  obtain ⟨p, hwf⟩ := hinv.phase
  have htracks := hinv.tracks a hlast hfailed
  rw [plugin_idle_of_quiescent hquiet] at htracks
  obtain ⟨hmain, hmessages⟩ := hwf.messages_of_quiescent hquiet
  have hthread := hwf.thread_of_quiescent hquiet
  -- of all the places a served start can be at, only `await` is quiescent
  rcases htracks with ht | (hmem | ⟨hrouting, -⟩) | ⟨-, ⟨ht, -⟩ | ht | ⟨ht | ht, hrunning⟩⟩
  · simp [ht] at hthread
  · simp [hmessages] at hmem
  · simp [hmain] at hrouting
  · simp [ht] at hthread
  · simp [ht] at hthread
  · simp [ht] at hthread
  · exact ⟨by simpa [ht] using hwf.tunFd, hrunning⟩

/-- A start, and the same start again. -/
theorem start_takes_effect_twice :
    ∃ s, (pluginSystem ℕ).ReachableUnder StartOk s ∧ Quiescent s ∧ s.last = some (.start 1) ∧
      s.failed = false ∧ s.tunFd = true ∧ s.running = some 1 := by
  obtain ⟨s, h, hquiet, hlast, hfailed⟩ := (pluginSystem ℕ).exists_of_runUnder StartOk
    (fun s => Quiescent s ∧ s.last = some (.start 1) ∧ s.failed = false)
    (startRun ++ [.callStart 1, .plugin, .plugin, .plugin, .plugin, .plugin, .deliver])
    (by decide)
  exact ⟨s, h, hquiet, hlast, hfailed, start_takes_effect s 1 h hquiet hlast hfailed⟩

/-- **A restart stops the tunnel for good.** With the tunnel up for address `1`, a start with
address `2` ends the tunnel thread. Nothing is left to do, no failure was broadcast, and no
tun2socks thread runs. -/
theorem restart_counterexample :
    ∃ s, (pluginSystem ℕ).Reachable s ∧ Quiescent s ∧ s.last = some (.start 2) ∧
      s.failed = false ∧ s.running = none :=
  (pluginSystem ℕ).exists_of_run _
    (startRun ++ [.callStart 2, .plugin, .plugin, .plugin, .plugin, .plugin, .plugin, .plugin,
      .tunnel false, .tunnel false, .tunnel false, .nativeTick, .tunnel false, .tunnel false])
    (by decide)

end Runs

end Tun2Socks.Plugin
