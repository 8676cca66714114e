import Tun2Socks.Plugin.Invariant

/-!
# When a reported success is sound

Success is broadcast from two places: by the tunnel thread after `startTunneling`, and by
`restartTunnel` when the new address equals `m_socksServerAddress`. A broadcast carries no
address. Whichever start call left its callback in `m_onStartCallback` receives it.

The second place looks at the address alone. After a failed `startRouting` the address is
set and nothing runs, and the next start with that address is told that it succeeded
(`success_counterexample`). The first place can answer the wrong call: a start with another
address replaces the callback while the thread is on its way, or while its broadcast is on
its way to the main thread.

`success_sound` says that success is sound in every run in which no start is called while an
earlier one is on its way, and none with the address of a registered service whose tunnel is
not up. From the call to the comparison nothing changes for a tunnel that is up
(`SuccessInv.call`), and from the command to the report of the tunnel thread the address stays
that of the call (`SuccessInv.address`).
-/

namespace Tun2Socks.Plugin

open Framework State ThreadPc PluginPc

variable {Addr : Type}

/-- The descriptor is open and a tun2socks thread runs with the address `a`. -/
def Snapshot.Shows (snap : Snapshot Addr) (a : Addr) : Prop :=
  snap.tunOpen = true ∧ snap.running = some a

/-- The address of the start call whose callback is set. -/
def State.callAddress (s : State Addr) : Option Addr := s.onStartCallback.map Callback.address

/-- Every success was broadcast with the tunnel up, and every call that received one
received it from a tunnel with its own address. -/
def SuccessSound (s : State Addr) : Prop :=
  (∀ snap ∈ s.issued, ∃ a, snap.Shows a) ∧ ∀ x ∈ s.received, x.2.Shows x.1

/-! ### The condition -/

/-- The tunnel thread has yet to broadcast how `startTunneling` ended. -/
def ThreadPc.reporting : ThreadPc Addr → Bool
  | .begin | .startTunneling _ | .reportSuccess | .reportFailure => true
  | _ => false

/-- No start is on its way: the service has no command to come, and `startRouting` and
`startTunneling` are over and reported. -/
def NoStart (s : State Addr) : Prop :=
  (∀ m ∈ s.messages, m = .destroy) ∧ s.main ≠ .startRouting ∧ s.thread.reporting = false

/-- The tunnel thread waits, has not been told to stop, and tun2socks has not ended. -/
def Up (s : State Addr) : Prop :=
  s.thread = .await ∧ s.stopSignal = some false ∧ s.running ≠ none

/-- The address of a start call that has yet to act. -/
def PluginPc.startAddress : PluginPc Addr → Option Addr
  | .getStarting a | .isRegistered a | .getManager a | .compareAddress a | .setAddress a
  | .startService a => some a
  | _ => none

/-- The condition on a step under which success is sound:

* a start is called when no earlier one is on its way or has its success undelivered;
* a start with the address of the registered service is called when the tunnel is up;
* tun2socks does not end by itself during a start call, or before its start is reported. -/
def SuccessOk (s : State Addr) : Label Addr → Prop
  | .callStart b =>
    NoStart s ∧ (∀ m ∈ s.broadcasts, m.success = false) ∧
      (s.tunnelManager = true → s.socksServerAddress = some b → Up s)
  | .nativeEnd =>
    s.thread ≠ .reportSuccess ∧ s.plugin.startAddress = none ∧ s.plugin ≠ .reportUnchanged
  | _ => True

instance [DecidableEq Addr] (s : State Addr) : Decidable (NoStart s) :=
  inferInstanceAs (Decidable (_ ∧ _))

instance [DecidableEq Addr] (s : State Addr) : Decidable (Up s) :=
  inferInstanceAs (Decidable (_ ∧ _))

instance [DecidableEq Addr] (s : State Addr) : ∀ l : Label Addr, Decidable (SuccessOk s l)
  | .callStart _ => inferInstanceAs (Decidable (_ ∧ _))
  | .nativeEnd => inferInstanceAs (Decidable (_ ∧ _))
  | .callStop | .plugin | .main _ | .deliver | .tunnel _ | .nativeReset | .nativeTick =>
    .isTrue trivial

/-! ### The invariant -/

/-- `restartTunnel` has set the address and has yet to signal the thread. -/
def PluginPc.restarting : PluginPc Addr → Bool
  | .setReconnecting | .signalRestart => true
  | _ => false

/-- Every success that is broadcast, or about to be, is for the call that will receive
it. -/
structure SuccessInv (s : State Addr) : Prop where
  phase : HasPhase s
  issued : ∀ snap ∈ s.issued, ∃ a, snap.Shows a
  received : ∀ x ∈ s.received, x.2.Shows x.1
  queued : ∀ m ∈ s.broadcasts, m.success = true →
    m.snap.tunOpen = true ∧ ∀ b ∈ s.callAddress, m.snap.running = some b
  command : ∀ a, .startCommand a ∈ s.messages → ∀ b ∈ s.callAddress, a = b
  /-- From its command to its report, the address is that of the call. -/
  address : s.main = .startRouting ∨ s.thread.reporting = true →
    ∀ b ∈ s.callAddress, s.socksServerAddress = some b
  starting : ∀ a, s.thread = .startTunneling a → s.socksServerAddress = some a
  /-- tun2socks runs with the address until the thread is about to be told to stop. -/
  running : s.thread = .reportSuccess ∨
      s.thread = .await ∧ s.stopSignal = some false ∧ s.plugin.restarting = false →
    ∀ a, s.running = some a → s.socksServerAddress = some a
  started : s.thread = .reportSuccess → s.running ≠ none
  /-- What a start call has found stays so until it acts. -/
  call : ∀ a, s.plugin.startAddress = some a → (∀ b ∈ s.callAddress, a = b) ∧ NoStart s ∧
    (s.tunnelManager = true ∨ s.plugin.holdsManager = true →
      s.socksServerAddress = some a → Up s)
  unchanged : s.plugin = .reportUnchanged →
    Up s ∧ ∀ b ∈ s.callAddress, s.socksServerAddress = some b

variable {p : Phase Addr} {s s' : State Addr}

theorem SuccessInv.initial : SuccessInv (initial Addr) where
  phase := ⟨.gone, Wf.initial⟩
  issued := by simp [Plugin.initial]
  received := by simp [Plugin.initial]
  queued := by simp [Plugin.initial]
  command := by simp [Plugin.initial]
  address := by simp [Plugin.initial, reporting]
  starting := by simp [Plugin.initial]
  running := by simp [Plugin.initial]
  started := by simp [Plugin.initial]
  call := by simp [Plugin.initial, startAddress]
  unchanged := by simp [Plugin.initial]

/-- A success broadcast while the tunnel is up for the call that will receive it. -/
theorem SuccessInv.broadcast_success {a : Addr} (h : SuccessInv s) (hfd : s.tunFd = true)
    (hrunning : s.running = some a) (hcallback : ∀ b ∈ s.callAddress, a = b) :
    SuccessInv (s.broadcastVpnStart true) := by
  obtain ⟨p, hwf⟩ := h.phase
  have hshows : Snapshot.Shows ⟨s.tunFd, s.running⟩ a := ⟨hfd, hrunning⟩
  refine { h with phase := ⟨p, hwf.broadcast true⟩, issued := ?_, queued := ?_ }
  · intro snap hmem
    simp only [broadcastVpnStart, if_true] at hmem
    rcases List.mem_append.mp hmem with hmem | hmem
    · exact h.issued snap hmem
    · rw [List.mem_singleton.mp hmem]
      exact ⟨a, hshows⟩
  · intro m hmem hsuccess
    rcases List.mem_append.mp hmem with hmem | hmem
    · exact h.queued m hmem hsuccess
    · rw [List.mem_singleton.mp hmem]
      refine ⟨hfd, fun b hb => ?_⟩
      rw [← hcallback b hb]
      exact hrunning

theorem SuccessInv.broadcast_failure (h : SuccessInv s) :
    SuccessInv (s.broadcastVpnStart false) := by
  obtain ⟨p, hwf⟩ := h.phase
  refine { h with phase := ⟨p, hwf.broadcast false⟩, queued := ?_ }
  intro m hmem hsuccess
  rcases List.mem_append.mp hmem with hmem | hmem
  · exact h.queued m hmem hsuccess
  · rw [List.mem_singleton.mp hmem] at hsuccess
    cases hsuccess

/-! ### Tunnel steps -/

/-- After its report the tunnel thread broadcasts nothing, and does not come to wait again. -/
theorem tunnelStep_reported {raised : Bool} (hstep : tunnelStep raised s = some s')
    (hreported : s.thread.reporting = false) :
    s'.thread.reporting = false ∧ s'.thread ≠ .await ∧ s'.issued = s.issued ∧
      s'.broadcasts = s.broadcasts ∧ ∀ m ∈ s'.messages, m ∈ s.messages ∨ m = .destroy := by
  cases ht : s.thread <;> simp only [ht, reporting, Bool.true_eq_false] at hreported <;>
    simp only [tunnelStep, ht, Option.some.injEq, reduceCtorEq] at hstep
  case readReconnecting =>
    subst hstep
    by_cases hflag : s.isReconnecting <;> simp +contextual [hflag, reporting]
  case stopSelf =>
    subst hstep
    by_cases halive : s.alive <;>
      simp +contextual [State.stopSelf, halive, reporting]
  all_goals
    repeat' split at hstep
    all_goals cases hstep
    all_goals exact ⟨rfl, by simp, rfl, rfl, fun _ => .inl⟩

/-- While the tunnel is up the tunnel thread stays where it is. -/
theorem Up.tunnelStep_eq_none (h : Up s) (raised : Bool) : tunnelStep raised s = none := by
  obtain ⟨ht, hsignal, -⟩ := h
  simp [tunnelStep, ht, hsignal]

/-- **Tunnel steps.** -/
theorem SuccessInv.tunnelStep {raised : Bool} (h : SuccessInv s)
    (hstep : tunnelStep raised s = some s') : SuccessInv s' := by
  obtain ⟨p, hwf⟩ := h.phase
  have hphase := hwf.tunnelStep hstep
  have hdown : ¬ Up s := fun hup =>
    Option.some_ne_none s' (hstep.symm.trans (hup.tunnelStep_eq_none raised))
  have hplugin : s.plugin ≠ .reportUnchanged := fun hpc => hdown (h.unchanged hpc).1
  by_cases hreported : s.thread.reporting = false
  · -- nothing is broadcast any more
    obtain ⟨hthread, hawait, hissued, hbroadcasts, hmessages⟩ :=
      tunnelStep_reported hstep hreported
    obtain ⟨hpc, hmain, hmanager, -, haddress, -, -, hcallback, hreceived, -⟩ :=
      tunnelStep_frame hstep
    constructor
    · exact hphase
    · rw [hissued]; exact h.issued
    · rw [hreceived]; exact h.received
    · rw [hbroadcasts, callAddress, hcallback]; exact h.queued
    · intro a hmem
      rw [callAddress, hcallback]
      exact h.command a ((hmessages _ hmem).resolve_right (by simp))
    · rw [hmain, haddress, callAddress, hcallback, hthread]
      exact fun hmain => h.address (.inl (hmain.resolve_right Bool.false_ne_true))
    · intro a ht
      simp [ht, reporting] at hthread
    · rintro (ht | ht)
      · simp [ht, reporting] at hthread
      · exact absurd ht.1 hawait
    · intro ht
      simp [ht, reporting] at hthread
    · rw [hpc, callAddress, hcallback, hmanager, haddress]
      intro a ha
      obtain ⟨heq, ⟨hnone, hrouting, -⟩, hup⟩ := h.call a ha
      refine ⟨heq, ⟨fun m hm => (hmessages m hm).elim (hnone m) id, ?_, hthread⟩,
        fun hheld hsame => absurd (hup hheld hsame) hdown⟩
      rw [hmain]
      exact hrouting
    · rw [hpc]
      exact fun heq => absurd heq hplugin
  -- no start call has yet to act while the thread is on its way
  have hreporting : s.thread.reporting = true := Bool.eq_true_of_not_eq_false hreported
  have hcall : s.plugin.startAddress = none := by
    refine Option.eq_none_iff_forall_ne_some.mpr fun a ha => hreported (h.call a ha).2.1.2.2
  have hcalls (t : State Addr) (h_t : t.plugin = s.plugin) : ∀ a, t.plugin.startAddress = some a →
      (∀ b ∈ t.callAddress, a = b) ∧ NoStart t ∧ (t.tunnelManager = true ∨
        t.plugin.holdsManager = true → t.socksServerAddress = some a → Up t) := by
    intro a ha
    rw [h_t, hcall] at ha
    cases ha
  cases ht : s.thread <;> simp only [ht, reporting, not_true] at hreported <;>
    simp only [Plugin.tunnelStep, ht, Option.some.injEq] at hstep
  case begin =>
    split at hstep <;> cases hstep
    next a haddress =>
    exact { h with
      phase := hphase
      address := fun _ => h.address (.inr hreporting)
      starting := by
        intro a' heq
        obtain rfl : a = a' := startTunneling.inj heq
        exact haddress
      running := by simp
      started := by simp
      call := hcalls _ rfl
      unchanged := fun hpc => absurd hpc hplugin }
  case startTunneling a =>
    -- there is no thread yet, so the one that is started has the address of this one
    have hnative : s.tun2socks = none := by simpa [ht] using hwf.hasNative
    split_ifs at hstep <;> obtain rfl := Option.some.inj hstep <;>
      exact { h with
        phase := hphase
        address := fun _ => h.address (.inr hreporting)
        starting := by simp
        running := by
          have haddress := h.starting a ht
          simp_all [State.running]
        started := by simp [State.running, hnative]
        call := hcalls _ rfl
        unchanged := fun hpc => absurd hpc hplugin }
  case reportSuccess =>
    subst hstep
    obtain ⟨a, hrunning⟩ := Option.ne_none_iff_exists'.mp (h.started ht)
    have haddress := h.running (.inl ht) a hrunning
    have hfd : s.tunFd = true := by simpa [ht] using hwf.tunFd
    exact { h.broadcast_success hfd hrunning fun b hb => Option.some.inj
        (haddress.symm.trans (h.address (.inr hreporting) b hb)) with
      phase := hphase
      address := fun _ => h.address (.inr hreporting)
      starting := by simp
      running := fun _ => h.running (.inl ht)
      started := by simp
      call := hcalls _ rfl
      unchanged := fun hpc => absurd hpc hplugin }
  case reportFailure =>
    subst hstep
    exact { h.broadcast_failure with
      phase := hphase
      address := fun _ => h.address (.inr hreporting)
      starting := by simp
      running := by simp
      started := by simp
      call := hcalls _ rfl
      unchanged := fun hpc => absurd hpc hplugin }

/-! ### The other steps -/

/-- A broadcast reaches the callback that is set. -/
theorem SuccessInv.deliver {m : Broadcast Addr} {ms : List (Broadcast Addr)} (h : SuccessInv s)
    (hphase : HasPhase { s.onStartVpn m with broadcasts := ms })
    (hbroadcasts : s.broadcasts = m :: ms) :
    SuccessInv { s.onStartVpn m with broadcasts := ms } := by
  have hrest : ∀ m' ∈ ms, m' ∈ s.broadcasts := by
    intro m' hmem
    rw [hbroadcasts]
    exact List.mem_cons_of_mem m hmem
  revert hphase
  unfold onStartVpn
  split
  · next a hcallback =>
    intro hphase
    have haddress : s.callAddress = some a := by simp [callAddress, hcallback]
    have hqueued := h.queued
    have hcommand := h.command
    have hstays := h.address
    have hcall := h.call
    have hunchanged := h.unchanged
    rw [haddress] at hqueued hcommand hstays hcall hunchanged
    refine { h with
      phase := hphase
      received := ?_
      queued := fun m' hmem => hqueued m' (hrest m' hmem)
      command := hcommand
      address := hstays
      call := hcall
      unchanged := hunchanged }
    intro x hmem
    by_cases hsuccess : m.success = true
    · simp only [hsuccess, if_true] at hmem
      rcases List.mem_append.mp hmem with hmem | hmem
      · exact h.received x hmem
      · rw [List.mem_singleton.mp hmem]
        have hshown := hqueued m (by simp [hbroadcasts]) hsuccess
        exact ⟨hshown.1, hshown.2 a rfl⟩
    · simp only [hsuccess] at hmem
      exact h.received x hmem
  · intro hphase
    exact { h with phase := hphase, queued := fun m' hmem => h.queued m' (hrest m' hmem) }

section Runs

variable [DecidableEq Addr]

/-- **Plugin steps.** -/
theorem SuccessInv.pluginStep (h : SuccessInv s) (hstep : pluginStep s = some s') :
    SuccessInv s' := by
  obtain ⟨p, hwf⟩ := h.phase
  have hphase := hwf.pluginStep hstep
  have hcall := h.call
  have hrunning := h.running
  cases hpc : s.plugin <;> rw [hpc] at hcall hrunning <;>
    simp only [Plugin.pluginStep, hpc, Option.some.injEq, reduceCtorEq] at hstep <;> subst hstep
  case getStarting a | isRegistered a =>
    refine { h with
      phase := hphase, running := fun hp => hrunning ?_, call := ?_, unchanged := ?_ }
    · exact hp.imp_right fun ht => ⟨ht.1, ht.2.1, rfl⟩
    · split_ifs <;> exact hcall
    · split_ifs <;> simp
  case getManager a =>
    refine { h with
      phase := hphase, running := fun hp => hrunning ?_, call := ?_, unchanged := ?_ }
    · exact hp.imp_right fun ht => ⟨ht.1, ht.2.1, rfl⟩
    · -- a call that has got the manager has seen that it is registered
      split_ifs with hregistered
      · intro a' ha'
        obtain ⟨heq, hnone, hup⟩ := hcall a' ha'
        exact ⟨heq, hnone, fun _ => hup (.inl hregistered)⟩
      · simp [startAddress]
    · split_ifs <;> simp
  case stopGetManager =>
    refine { h with
      phase := hphase, running := fun hp => hrunning ?_, call := ?_, unchanged := ?_ }
    · exact hp.imp_right fun ht => ⟨ht.1, ht.2.1, rfl⟩
    · split_ifs <;> simp [startAddress]
    · split_ifs <;> simp
  case compareAddress a =>
    obtain ⟨heq, hnone, hup⟩ := hcall a rfl
    refine { h with
      phase := hphase, running := fun hp => hrunning ?_, call := ?_, unchanged := ?_ }
    · exact hp.imp_right fun ht => ⟨ht.1, ht.2.1, rfl⟩
    · split_ifs
      · simp [startAddress]
      · exact hcall
    · split_ifs with hsame
      · exact fun _ => ⟨hup (.inr rfl) hsame, fun b hb => by rw [hsame, heq b hb]⟩
      · simp
  case reportUnchanged =>
    -- the tunnel thread has not moved since the comparison
    obtain ⟨⟨ht, hsignal, hsome⟩, hcallback⟩ := h.unchanged hpc
    obtain ⟨a, ha⟩ := Option.ne_none_iff_exists'.mp hsome
    have haddress := hrunning (.inr ⟨ht, hsignal, rfl⟩) a ha
    have hfd : s.tunFd = true := by simpa [ht] using hwf.tunFd
    exact { h.broadcast_success hfd ha fun b hb => Option.some.inj
        (haddress.symm.trans (hcallback b hb)) with
      phase := hphase
      running := fun _ => hrunning (.inr ⟨ht, hsignal, rfl⟩)
      call := by simp [startAddress]
      unchanged := by simp }
  case setAddress a =>
    -- no start is on its way that would read the new address
    obtain ⟨-, hnone, -⟩ := hcall a rfl
    obtain ⟨-, hrouting, hthread⟩ := hnone
    exact { h with
      phase := hphase
      address := by simp [hrouting, hthread]
      starting := fun a' ht => by simp [show s.thread = _ from ht, reporting] at hthread
      running := by
        rintro (ht | ht)
        · simp [show s.thread = _ from ht, reporting] at hthread
        · simp [restarting] at ht
      call := by simp [startAddress]
      unchanged := by simp }
  case startService a =>
    obtain ⟨heq, ⟨hnone, -⟩, -⟩ := hcall a rfl
    refine { h with
      phase := hphase
      command := ?_
      running := fun hp => hrunning (hp.imp_right fun ht => ⟨ht.1, ht.2.1, rfl⟩)
      call := by simp [startAddress]
      unchanged := by simp }
    intro a' hmem
    rcases List.mem_append.mp hmem with hmem | hmem
    · cases hnone _ hmem
    · obtain rfl : a' = a := by split_ifs at hmem <;> simpa using hmem
      exact heq
  case setReconnecting =>
    exact { h with
      phase := hphase
      running := fun hp => hrunning
        (hp.imp_right fun ht => absurd ht.2.2 (by simp [restarting]))
      call := by simp [startAddress]
      unchanged := by simp }
  case setStarting =>
    exact { h with
      phase := hphase
      running := fun hp => hrunning (hp.imp_right fun ht => ⟨ht.1, ht.2.1, rfl⟩)
      call := by simp [startAddress]
      unchanged := by simp }
  case signalRestart | signalStop =>
    exact { h with
      phase := hphase
      running := fun hp => hrunning
        (hp.imp_right fun ht => absurd ht.2.1 (by simp [signalStopService]))
      call := by simp [startAddress]
      unchanged := by simp }

/-- The main thread broadcasts failures only. -/
theorem mainStep_broadcasts {routed : Bool} (hstep : mainStep routed s = some s') :
    s'.issued = s.issued ∧ ∀ m ∈ s'.broadcasts, m.success = true → m ∈ s.broadcasts := by
  unfold mainStep at hstep
  repeat' split at hstep
  all_goals cases hstep
  all_goals
    simp +contextual [broadcastVpnStart, signalStopService, terminateTun2Socks, closeTunFd,
      State.onCreate, vpnEstablished, tun2SocksStopped]
  rintro m (hmem | rfl) hsuccess
  · exact hmem
  · simp at hsuccess

/-- `startRouting` runs with the address of a command, which stays until it has started the
thread. -/
theorem mainStep_address {routed : Bool} (hstep : mainStep routed s = some s') :
    (∀ m ∈ s'.messages, m ∈ s.messages) ∧
      (s'.main = .startRouting →
        ∃ a, .startCommand a ∈ s.messages ∧ s'.socksServerAddress = some a) ∧
      (s'.thread = .begin → s.thread = .begin ∨
        s.main = .startRouting ∧ s'.socksServerAddress = s.socksServerAddress) := by
  unfold mainStep at hstep
  repeat' split at hstep
  all_goals cases hstep
  all_goals
    simp_all +contextual [broadcastVpnStart, signalStopService, terminateTun2Socks, closeTunFd,
      State.onCreate, vpnEstablished, tun2SocksStopped]

/-- With no start on its way, the main thread can only end a service. -/
theorem NoStart.mainStep {routed : Bool} (h : NoStart s) (hwf : Wf p s)
    (hstep : mainStep routed s = some s') :
    NoStart s' ∧ s'.tunnelManager = false ∧ s'.socksServerAddress = s.socksServerAddress := by
  obtain ⟨hnone, hrouting, hthread⟩ := h
  have hmessages := hwf.messages
  have hthreads := hwf.threads
  have hmanager := hwf.tunnelManager
  cases p with
  | pending a | creating a | created a => simp [hmessages] at hnone
  | routing => exact absurd hthreads.1 hrouting
  | started => simp [hwf.mainStep_started] at hstep
  | gone =>
    have hidle : s.main ≠ .idle := by
      intro hidle
      simp [Plugin.mainStep, hidle, hmessages] at hstep
    obtain ⟨hidle', -⟩ | ⟨hmain | hmain, -⟩ := hthreads
    · exact absurd hidle' hidle
    all_goals
      simp only [Plugin.mainStep, hmain] at hstep
      split_ifs at hstep
      all_goals
        cases hstep
        simp_all [NoStart, signalStopService, reporting]
  | stopped =>
    simp only [Plugin.mainStep, hthreads.1, hmessages, Phase.messages, Option.some.injEq] at hstep
    subst hstep
    simp [NoStart, hthread]

/-- **Main steps.** -/
theorem SuccessInv.mainStep {routed : Bool} (h : SuccessInv s)
    (hstep : mainStep routed s = some s') : SuccessInv s' := by
  obtain ⟨p, hwf⟩ := h.phase
  obtain ⟨hpc, -, hcallback, hreceived, -, -⟩ := mainStep_frame hstep
  obtain ⟨hissued, hbroadcasts⟩ := mainStep_broadcasts hstep
  obtain ⟨hmessages, hrouting, hbegin⟩ := mainStep_address hstep
  -- a tunnel thread on its way leaves the main thread nothing to do
  have hactive : ∀ t, s.thread = t → t ≠ .absent → t.ended = true := by
    intro t ht habsent
    by_contra hended
    obtain rfl := hwf.started_of_active (ht ▸ habsent) (by simpa [ht] using hended)
    simp [hwf.mainStep_started] at hstep
  -- so after the step there is none, or one that has just been started
  have hafter : ∀ t, s'.thread = t → t ≠ .absent → t ≠ .begin → t.ended = true := by
    intro t ht habsent hbegin
    rcases mainStep_thread hstep with heq | heq | heq
    · exact hactive t (heq ▸ ht) habsent
    · exact absurd (ht.symm.trans heq) habsent
    · exact absurd (ht.symm.trans heq) hbegin
  have hdown : ¬ Up s := fun hup => absurd (hactive _ hup.1 (by simp)) (by simp)
  constructor
  · exact hwf.mainStep hstep
  · rw [hissued]; exact h.issued
  · rw [hreceived]; exact h.received
  · rw [callAddress, hcallback]
    exact fun m hmem hsuccess => h.queued m (hbroadcasts m hmem hsuccess) hsuccess
  · rw [callAddress, hcallback]
    exact fun a hmem => h.command a (hmessages _ hmem)
  · rw [callAddress, hcallback]
    rintro (hmain | hreporting) b hb
    · obtain ⟨a, hmem, haddress⟩ := hrouting hmain
      rw [haddress, h.command a hmem b hb]
    · by_cases ht : s'.thread = .begin
      · obtain ht | ⟨hmain, haddress⟩ := hbegin ht
        · cases hactive _ ht (by simp)
        · rw [haddress]
          exact h.address (.inl hmain) b hb
      · have habsent : s'.thread ≠ .absent := by
          intro heq
          simp [heq, reporting] at hreporting
        have hended := hafter _ rfl habsent ht
        cases hthread : s'.thread <;> simp [hthread, reporting] at hreporting hended
  · intro a ht
    cases hafter _ ht (by simp) (by simp)
  · rintro (ht | ⟨ht, -⟩)
    · cases hafter _ ht (by simp) (by simp)
    · cases hafter _ ht (by simp) (by simp)
  · intro ht
    cases hafter _ ht (by simp) (by simp)
  · rw [hpc, callAddress, hcallback]
    intro a ha
    obtain ⟨heq, hnone, hup⟩ := h.call a ha
    obtain ⟨hnone', hmanager, haddress⟩ := hnone.mainStep hwf hstep
    refine ⟨heq, hnone', fun hheld hsame => absurd (hup (.inr ?_) ?_) hdown⟩
    · exact hheld.resolve_left (by simp [hmanager])
    · rwa [haddress] at hsame
  · rw [hpc]
    exact fun heq => absurd (h.unchanged heq).1 hdown

/-- **Every step that meets the condition keeps success sound.** -/
theorem SuccessInv.step {l : Label Addr} (h : SuccessInv s) (hok : SuccessOk s l)
    (hstep : next s l = some s') : SuccessInv s' := by
  have hphase := h.phase.step hstep
  cases l with
  | callStart b =>
    obtain ⟨hidle, rfl⟩ := guard_eq_some.mp hstep
    obtain ⟨⟨hmessages, hrouting, hthread⟩, hqueued, hup⟩ := hok
    exact { h with
      phase := hphase
      queued := fun m hmem hsuccess => absurd hsuccess (by simp [hqueued m hmem])
      command := fun a hmem => nomatch (hmessages _ hmem)
      address := by simp [hrouting, hthread]
      running := fun hp => h.running (hp.imp_right fun ht => ⟨ht.1, ht.2.1, by rw [hidle]; rfl⟩)
      call := by
        intro a ha
        obtain rfl : b = a := Option.some.inj ha
        exact ⟨by simp [callAddress], ⟨hmessages, hrouting, hthread⟩,
          fun hheld => hup (by simpa using hheld)⟩
      unchanged := by simp }
  | callStop =>
    obtain ⟨hidle, rfl⟩ := guard_eq_some.mp hstep
    exact { h with
      phase := hphase
      running := fun hp => h.running (hp.imp_right fun ht => ⟨ht.1, ht.2.1, by rw [hidle]; rfl⟩)
      call := by simp [startAddress]
      unchanged := by simp }
  | plugin => exact h.pluginStep hstep
  | main => exact h.mainStep hstep
  | deliver =>
    obtain ⟨m, ms, -, hbroadcasts, rfl⟩ := deliverStep_cases hstep
    exact h.deliver hphase hbroadcasts
  | tunnel => exact h.tunnelStep hstep
  | nativeReset =>
    obtain ⟨a, hnative, rfl⟩ := nativeReset_cases hstep
    have hrunning : s.running = some a := by simp [State.running, hnative]
    have hsame := h.running
    have hcall := h.call
    have hunchanged := h.unchanged
    simp only [Up, hrunning] at hsame hcall hunchanged
    exact { h with
      phase := hphase
      running := hsame
      started := fun _ => Option.some_ne_none a
      call := hcall
      unchanged := hunchanged }
  | nativeTick =>
    obtain ⟨p, hwf⟩ := h.phase
    obtain ⟨a, hnative, hflag, rfl⟩ := nativeTick_cases hstep
    -- the flag is set only for a thread that is being joined
    have hjoining := hwf.native a hnative hflag
    have hdown : ¬ Up s := fun hup => absurd hjoining (by simp [hup.1])
    refine { h with
      phase := hphase
      running := by simp [State.running]
      started := fun ht => absurd hjoining (by simp [show s.thread = _ from ht])
      call := ?_
      unchanged := fun hpc => absurd (h.unchanged hpc).1 hdown }
    intro b hb
    obtain ⟨heq, hnone, hup⟩ := h.call b hb
    exact ⟨heq, hnone, fun hheld hsame => absurd (hup hheld hsame) hdown⟩
  | nativeEnd =>
    obtain ⟨a, -, rfl⟩ := nativeEnd_cases hstep
    obtain ⟨hreport, hcall, hunchanged⟩ := hok
    exact { h with
      phase := hphase
      running := by simp [State.running]
      started := fun ht => absurd ht hreport
      call := fun b hb => nomatch (hcall.symm.trans hb)
      unchanged := fun hpc => absurd hpc hunchanged }

/-- **Start success is sound.** In every run whose steps meet `SuccessOk`, every success
was broadcast with the descriptor open and a tun2socks thread running, and every start call
that received one received it for its own address. -/
theorem success_sound (s : State Addr) (h : (pluginSystem Addr).ReachableUnder SuccessOk s) :
    SuccessSound s := by
  have hinv : SuccessInv s := h.invariant SuccessInv.initial
    fun _ _ _ hinv hok hstep => hinv.step hok hstep
  exact ⟨hinv.issued, hinv.received⟩

/-- A start, and the same start again: each call is told that it succeeded. -/
theorem success_sound_twice :
    ∃ s, (pluginSystem ℕ).ReachableUnder SuccessOk s ∧ s.received.length = 2 ∧
      SuccessSound s := by
  obtain ⟨s, h, hreceived⟩ := (pluginSystem ℕ).exists_of_runUnder SuccessOk
    (fun s => s.received.length = 2)
    (startRun ++ [.callStart 1, .plugin, .plugin, .plugin, .plugin, .plugin, .deliver])
    (by decide)
  exact ⟨s, h, hreceived, success_sound s h⟩

/-- **Success without a tunnel.** `startRouting` fails for the first start. The second one
finds the address unchanged and is told that it succeeded, with no descriptor open and no
tun2socks thread running. -/
theorem success_counterexample :
    ∃ s, (pluginSystem ℕ).Reachable s ∧ s.issued = [⟨false, none⟩] ∧
      s.received = [(1, ⟨false, none⟩)] :=
  (pluginSystem ℕ).exists_of_run _
    [.callStart 1, .plugin, .plugin, .plugin, .plugin, .main true, .main true, .main true,
      .main false, .deliver, .callStart 1, .plugin, .plugin, .plugin, .plugin, .plugin, .deliver]
    (by decide)

end Runs

end Tun2Socks.Plugin
