import Tun2Socks.Plugin.Invariant

/-!
# When a stop takes effect

`stopTunnelService` only counts the stop signal of the registered manager down. Everything
else is up to the tunnel thread: it wakes, reads `m_isReconnecting`, and, if that is not
set, stops tun2socks, closes the descriptor and asks the service to stop itself. `Ending s`
says that the tunnel thread is on that way.

A stop is lost when there is nobody to hear it: before `onCreate` has registered the
manager (`stop_counterexample`), before `startRouting` has made the signal, after
`startRouting` has failed, and after a restart has ended the tunnel thread. It is taken for
a restart while `m_isReconnecting` is set. And its `join` never returns when
`terminateTun2Socks` runs before `runTun2Socks` has reset `g_terminate`, the lost request of
`Jni/Terminate.lean`. `stop_takes_effect` says that these are the only ways.
-/

namespace Tun2Socks.Plugin

open Framework State ThreadPc

variable {Addr : Type}

/-! ### On the way to the end -/

/-- The tunnel thread has yet to read `m_isReconnecting`. -/
def ThreadPc.undecided : ThreadPc Addr → Bool
  | .begin | .startTunneling _ | .reportSuccess | .reportFailure | .await
  | .readReconnecting => true
  | _ => false

/-- The tunnel thread has read that this is not a restart. -/
def ThreadPc.stopping : ThreadPc Addr → Bool
  | .stop | .stopJoin | .stopSelf => true
  | _ => false

/-- The tunnel thread will stop the tunnel and the service. -/
def Ending (s : State Addr) : Prop :=
  s.thread.undecided = true ∧ s.stopSignal = some true ∧ s.isReconnecting = false ∨
    s.thread.stopping = true

/-- The condition on a step under which stops take effect:

* a stop finds a registered manager, or no service;
* when it signals, there is no service, or there is a tunnel thread that has not been told
  to restart or is stopping already;
* the tunnel thread asks tun2socks to end after `runTun2Socks` has reset `g_terminate`. -/
def StopOk (s : State Addr) : Label Addr → Prop
  | .plugin =>
    (s.plugin = .stopGetManager → s.tunnelManager = true ∨ s.alive = false) ∧
    (s.plugin = .signalStop → s.alive = false ∨
      s.thread.undecided = true ∧ s.isReconnecting = false ∨ s.thread.stopping = true)
  | .tunnel _ => s.thread = .stop → ∀ x ∈ s.tun2socks, x.2 ≠ .prologue
  | _ => True

instance [DecidableEq Addr] (s : State Addr) : ∀ l : Label Addr, Decidable (StopOk s l)
  | .plugin => inferInstanceAs (Decidable (_ ∧ _))
  | .tunnel _ => inferInstanceAs (Decidable (_ → _))
  | .callStart _ | .callStop | .main _ | .deliver | .nativeReset | .nativeTick | .nativeEnd =>
    .isTrue trivial

/-- How far the call that made the most recent stop has got. -/
def PluginPc.Stops (s : State Addr) : PluginPc Addr → Prop
  | .stopGetManager | .signalStop => True
  | .idle => s.alive = false ∨ Ending s
  | _ => False

/-- The most recent stop is heard, and a tunnel thread that waits for tun2socks has been
heard by it. -/
structure StopInv (s : State Addr) : Prop where
  phase : HasPhase s
  stops : s.last = some .stop → s.plugin.Stops s
  heard : s.thread = .stopJoin → ∀ a pc, s.tun2socks = some (a, pc) →
    pc = .loop ∧ s.gTerminate = 1 ∨ pc = .exited

variable {p : Phase Addr} {s s' : State Addr}

theorem PluginPc.Stops.mono {pc : PluginPc Addr} (h : pc.Stops s)
    (hstopped : s.alive = false ∨ Ending s → s'.alive = false ∨ Ending s') : pc.Stops s' := by
  cases pc <;> simp only [PluginPc.Stops] at h ⊢
  exact hstopped h

theorem Ending.started (hwf : Wf p s) (h : Ending s) : p = .started := by
  apply hwf.started_of_active
  · intro ht
    simp [Ending, ht, undecided, stopping] at h
  · cases ht : s.thread <;> simp_all [Ending, undecided, stopping]

/-- **The tunnel thread goes on to its end**, one step at a time, and asks the service to
stop itself on the way. -/
theorem Ending.tunnelStep {raised : Bool} (hwf : Wf p s) (h : Ending s)
    (hstep : tunnelStep raised s = some s') : s'.alive = false ∨ Ending s' := by
  obtain rfl := h.started hwf
  have hframe := tunnelStep_frame hstep
  rcases h with ⟨hundecided, hsignal, hflag⟩ | hstopping
  · cases ht : s.thread <;>
      simp only [ht, undecided, Bool.false_eq_true] at hundecided <;>
      simp only [Plugin.tunnelStep, ht, Option.some.injEq] at hstep
    case begin =>
      split at hstep <;> cases hstep
      exact .inr (.inl ⟨rfl, hsignal, hflag⟩)
    case startTunneling a =>
      split_ifs at hstep <;> obtain rfl := Option.some.inj hstep <;>
        exact .inr (.inl ⟨rfl, hsignal, hflag⟩)
    case reportSuccess | reportFailure =>
      subst hstep
      exact .inr (.inl ⟨rfl, hsignal, hflag⟩)
    case await =>
      -- the latch is counted down, so the thread wakes
      rw [if_pos hsignal] at hstep
      cases hstep
      exact .inr (.inl ⟨rfl, hsignal, hflag⟩)
    case readReconnecting =>
      -- not a restart: the decision for the end
      subst hstep
      exact .inr (.inr (by simp [hflag, stopping]))
  · cases ht : s.thread <;> simp only [ht, stopping, Bool.false_eq_true] at hstopping <;>
      simp only [Plugin.tunnelStep, ht, Option.some.injEq] at hstep
    case stop =>
      split_ifs at hstep <;> obtain rfl := Option.some.inj hstep <;> exact .inr (.inr rfl)
    case stopJoin =>
      split at hstep <;> cases hstep
      exact .inr (.inr rfl)
    case stopSelf =>
      subst hstep
      exact .inl rfl

/-- Only `stop` leads to its join, and asks tun2socks to end on the way. -/
theorem stopJoin_cases {raised : Bool} (hstep : tunnelStep raised s = some s')
    (ht : s'.thread = .stopJoin) :
    s.thread = .stop ∧ s' = { s.terminateTun2Socks with thread := .stopJoin } := by
  cases hthread : s.thread <;> simp only [tunnelStep, hthread] at hstep
  case stop =>
    split_ifs at hstep <;> cases hstep
    · exact ⟨rfl, rfl⟩
    · simp at ht
  all_goals
    repeat' split at hstep
    all_goals cases hstep
    all_goals simp_all

/-! ### The stop is heard -/

theorem StopInv.tunnelStep {raised : Bool} (h : StopInv s) (hok : StopOk s (.tunnel raised))
    (hstep : tunnelStep raised s = some s') : StopInv s' := by
  obtain ⟨p, hwf⟩ := h.phase
  obtain ⟨hplugin, -, -, -, -, -, hlast, -, -, halive, -⟩ := tunnelStep_frame hstep
  refine ⟨hwf.tunnelStep hstep, ?_, ?_⟩
  · rw [hplugin, hlast]
    intro hstop
    refine (h.stops hstop).mono ?_
    rintro (hgone | hending)
    · exact .inl (halive hgone)
    · exact hending.tunnelStep hwf hstep
  · intro ht
    obtain ⟨hstop, rfl⟩ := stopJoin_cases hstep ht
    intro a pc hnative
    -- the reset is behind it, so the request of this step is not cleared
    have hpast : pc ≠ .prologue := hok hstop (a, pc) hnative
    have hflag : Jni.compareAndSwap s.gTerminate 0 1 = 1 := by
      rcases hwf.gTerminate with hflag | hflag <;> simp [Jni.compareAndSwap, hflag]
    cases pc with
    | prologue => exact absurd rfl hpast
    | loop => exact .inl ⟨rfl, hflag⟩
    | exited => exact .inr rfl

section Runs

variable [DecidableEq Addr]

theorem StopInv.pluginStep (h : StopInv s) (hok : StopOk s .plugin)
    (hstep : pluginStep s = some s') : StopInv s' := by
  obtain ⟨p, hwf⟩ := h.phase
  obtain ⟨-, hthread, hnative, -, hflag, hlast, -, -⟩ := pluginStep_frame hstep
  refine ⟨hwf.pluginStep hstep, ?_, by rw [hthread, hnative, hflag]; exact h.heard⟩
  rw [hlast]
  intro hstop
  have hstops := h.stops hstop
  obtain ⟨hget, hsignal⟩ := hok
  cases hpc : s.plugin <;> rw [hpc] at hstops <;>
    simp only [PluginPc.Stops] at hstops <;>
    simp only [Plugin.pluginStep, hpc, Option.some.injEq, reduceCtorEq] at hstep <;> subst hstep
  case stopGetManager =>
    by_cases hmanager : s.tunnelManager
    · rw [if_pos hmanager]
      trivial
    · rw [if_neg hmanager]
      exact .inl ((hget hpc).resolve_left hmanager)
  case signalStop =>
    rcases hsignal hpc with hgone | ⟨hundecided, hflag⟩ | hstopping
    · exact .inl hgone
    · -- the thread is there, so its latch is, and is counted down now
      have habsent : s.thread ≠ .absent := by
        intro ht
        simp [ht, undecided] at hundecided
      obtain ⟨b, hb⟩ := Option.ne_none_iff_exists'.mp (mt hwf.stopSignal.mp habsent)
      exact .inr (.inl ⟨hundecided, by simp [signalStopService, hb], hflag⟩)
    · exact .inr (.inr hstopping)

theorem StopInv.mainStep {routed : Bool} (h : StopInv s) (hstep : mainStep routed s = some s') :
    StopInv s' := by
  obtain ⟨p, hwf⟩ := h.phase
  obtain ⟨hplugin, hlast, -, -, halive, -⟩ := mainStep_frame hstep
  -- the tunnel thread is at its end, or there is none: a started service has no messages
  have hidle : p ≠ .started := by
    rintro rfl
    simp [hwf.mainStep_started] at hstep
  refine ⟨hwf.mainStep hstep, ?_, ?_⟩
  · rw [hplugin, hlast]
    intro hstop
    refine (h.stops hstop).mono ?_
    rintro (hgone | hending)
    · exact .inl (halive.trans hgone)
    · exact absurd (hending.started hwf) hidle
  · intro ht
    rcases mainStep_thread hstep with hthread | hthread | hthread
    · rw [hthread] at ht
      exact absurd (hwf.started_of_active (by simp [ht]) (by simp [ht])) hidle
    · simp [ht] at hthread
    · simp [ht] at hthread

/-- **Every step that meets the condition keeps the stop heard.** -/
theorem StopInv.step {l : Label Addr} (h : StopInv s) (hok : StopOk s l)
    (hstep : next s l = some s') : StopInv s' := by
  cases l with
  | callStart =>
    have hphase := h.phase.step hstep
    obtain ⟨-, rfl⟩ := guard_eq_some.mp hstep
    exact ⟨hphase, fun hlast => absurd hlast (by simp), h.heard⟩
  | callStop =>
    have hphase := h.phase.step hstep
    obtain ⟨-, rfl⟩ := guard_eq_some.mp hstep
    exact ⟨hphase, fun _ => trivial, h.heard⟩
  | plugin => exact h.pluginStep hok hstep
  | main => exact h.mainStep hstep
  | deliver =>
    have hphase := h.phase.step hstep
    obtain ⟨b, bs, -, -, rfl⟩ := deliverStep_cases hstep
    revert hphase
    unfold onStartVpn
    split <;> intro hphase <;> exact ⟨hphase, fun hlast => (h.stops hlast).mono id, h.heard⟩
  | tunnel => exact h.tunnelStep hok hstep
  | nativeReset =>
    have hphase := h.phase.step hstep
    obtain ⟨a, hnative, rfl⟩ := nativeReset_cases hstep
    refine ⟨hphase, fun hlast => (h.stops hlast).mono id, ?_⟩
    -- a thread that is being joined is past its reset
    intro ht
    exact nomatch (h.heard ht a _ hnative)
  | nativeTick =>
    have hphase := h.phase.step hstep
    obtain ⟨a, -, -, rfl⟩ := nativeTick_cases hstep
    exact ⟨hphase, fun hlast => (h.stops hlast).mono id, fun _ _ _ heq => by simp_all⟩
  | nativeEnd =>
    have hphase := h.phase.step hstep
    obtain ⟨a, -, rfl⟩ := nativeEnd_cases hstep
    exact ⟨hphase, fun hlast => (h.stops hlast).mono id, fun _ _ _ heq => by simp_all⟩

theorem stopInv_of_reachableUnder (h : (pluginSystem Addr).ReachableUnder StopOk s) :
    StopInv s :=
  h.invariant
    ⟨⟨.gone, Wf.initial⟩, fun hlast => absurd hlast (by simp [pluginSystem, initial]),
      fun ht => absurd ht (by simp [pluginSystem, initial])⟩
    fun _ _ _ hinv hok hstep => hinv.step hok hstep

/-- The tunnel thread does not wait forever for a tun2socks thread that has heard it. -/
theorem StopInv.not_stopJoin (h : StopInv s) (hwf : Wf p s) (hquiet : Quiescent s) :
    s.thread ≠ .stopJoin := by
  intro ht
  have hnative : s.tun2socks ≠ none := by simpa [ht] using hwf.hasNative
  obtain ⟨⟨a, pc⟩, hsome⟩ := Option.ne_none_iff_exists'.mp hnative
  rcases h.heard ht a pc hsome with ⟨rfl, hflag⟩ | rfl
  · -- the next tick ends the run
    have htick : next s .nativeTick = none := hquiet .nativeTick trivial
    simp [next, hsome, hflag] at htick
  · -- the run has ended, and the join returns
    have hjoin : Plugin.tunnelStep false s = none := hquiet (.tunnel false) trivial
    simp [Plugin.tunnelStep, ht, hsome] at hjoin

/-- **A stop takes effect.** In every run whose steps meet `StopOk`, a quiescent state whose
most recent request is a stop has no tun2socks thread running, every descriptor obtained
from `establish` closed, and no service that has not been asked to stop itself. -/
theorem stop_takes_effect (s : State Addr) (h : (pluginSystem Addr).ReachableUnder StopOk s)
    (hquiet : Quiescent s) (hlast : s.last = some .stop) :
    s.running = none ∧ s.opened = s.closed ∧ s.alive = false := by
  have hinv := stopInv_of_reachableUnder h
  obtain ⟨p, hwf⟩ := hinv.phase
  have hstops := hinv.stops hlast
  rw [plugin_idle_of_quiescent hquiet] at hstops
  rcases hstops with hgone | hending
  · -- the service was asked to stop, and its `onDestroy` has run
    obtain ⟨hmain, hmessages⟩ := hwf.messages_of_quiescent hquiet
    have hthreads := hwf.threads
    have halive := hwf.alive
    rw [hwf.messages] at hmessages
    have hthread : s.thread = .absent := by cases p <;> simp_all
    obtain ⟨hfd, hnative, -⟩ := hwf.unused_of_absent hthread
    refine ⟨by simp [running, hnative], ?_, hgone⟩
    simpa [hfd] using hwf.descriptors
  · -- a thread that is ending can go on
    exfalso
    have hthread := hwf.thread_of_quiescent hquiet
    have hjoin := hinv.not_stopJoin hwf hquiet
    rcases hending with ⟨hundecided, hsignal, -⟩ | hstopping
    · cases ht : s.thread <;> simp_all [ThreadPc.undecided]
    · cases ht : s.thread <;> simp_all [ThreadPc.stopping]

/-- A stop of a tunnel that is up, run to its quiescent end. -/
theorem stop_takes_effect_when_up :
    ∃ s, (pluginSystem ℕ).ReachableUnder StopOk s ∧ Quiescent s ∧ s.last = some .stop ∧
      s.running = none ∧ s.opened = s.closed ∧ s.alive = false := by
  obtain ⟨s, h, hquiet, hlast⟩ := (pluginSystem ℕ).exists_of_runUnder StopOk
    (fun s => Quiescent s ∧ s.last = some .stop)
    (startRun ++ [.callStop, .plugin, .plugin, .tunnel false, .tunnel false, .tunnel false,
      .nativeTick, .tunnel false, .tunnel false, .tunnel false, .main true, .main true,
      .main true])
    (by decide)
  exact ⟨s, h, hquiet, hlast, stop_takes_effect s h hquiet hlast⟩

/-- **A stop that nobody hears.** The stop is called before `onCreate` has registered the
manager, finds none and returns. The tunnel then comes up and stays up. -/
theorem stop_counterexample :
    ∃ s, (pluginSystem ℕ).Reachable s ∧ Quiescent s ∧ s.last = some .stop ∧
      s.running = some 1 ∧ s.opened = s.closed + 1 ∧ s.alive = true :=
  (pluginSystem ℕ).exists_of_run _
    [.callStart 1, .plugin, .plugin, .plugin, .plugin, .callStop, .plugin, .main true,
      .main true, .main true, .main true, .tunnel false, .tunnel false, .nativeReset,
      .tunnel false, .deliver]
    (by decide)

end Runs

end Tun2Socks.Plugin
