import Tun2Socks.Run.Model

/-!
# What `run` releases

Two of the jumps in `run` and one of its releases do not match what was acquired:

* the UDP socket is registered with the reactor, and `udp_free` closes it but does not remove the
  registration;
* when `udp_init` fails, the jump goes to `fail5`, behind the releases of the TCP timer and the
  device write buffer, and the receive buffer is not released at all;
* `BSignal_Finish` is called whether or not the signal handler was set up, which depends on the
  option `set_signal`.

`run_releases_iff` says for all options, outcomes of the steps and events when the releases match:
only in runs that fail before the TCP timer is set, and, once the reactor is there, with
`set_signal`. A run to the normal exit leaves the registration, and with `set_signal` nothing else
(`Holds.exit`), whatever happened in the event loop (`Looping.exec`).
-/

namespace Tun2Socks.Run

open Framework Multiset Process

/-- What a run leaves: `s` is still held, its part with the reactor was so when the reactor was
freed, and nothing was released without being held. -/
structure Leaves (p : Process) (s : Multiset Resource) : Prop where
  held : p.ledger.held = s
  foreign : p.ledger.foreign = 0
  leftover : ∀ t, p.leftover = some t → t = s.filter fun r => r.registered

/-- **Everything that was acquired is released once**, nothing else is, and the reactor is freed
with nothing registered. -/
def Released (p : Process) : Prop := Leaves p 0

/-! ### The labels release what they should -/

section Labels

variable {p : Process} {r : Resource} {s : Multiset Resource} {o : Options} {e : Outcomes}

/-- The password file is held as long as the pointer to it is set. -/
def passwordHeld (p : Process) : Multiset Resource :=
  if p.passwordFileContents then {.password} else 0

/-- Besides the password file `s` is held, and nothing was released wrongly. -/
structure Holds (p : Process) (s : Multiset Resource) : Prop where
  held : p.ledger.held = s + passwordHeld p
  foreign : p.ledger.foreign = 0
  leftover : p.leftover = none

theorem Holds.acquire (h : Holds p s) (r : Resource) : Holds (p.acquire r) ({r} + s) where
  held := by
    rw [Process.acquire, Ledger.held_acquire, h.held, add_assoc]
    rfl
  foreign := h.foreign
  leftover := h.leftover

theorem Holds.release (h : Holds p ({r} + s)) : Holds (p.release r) s := by
  have hheld := h.held
  rw [add_assoc] at hheld
  rw [Process.release, Ledger.release_of_held hheld]
  exact ⟨rfl, h.foreign, h.leftover⟩

/-- The password file is released if it was read. -/
theorem fail1_eq (h : p.ledger.held = s + passwordHeld p) :
    p.fail1 = { p with ledger := { p.ledger with held := s } } := by
  rw [passwordHeld] at h
  rw [fail1]
  split_ifs at h ⊢
  · rw [add_comm] at h
    rw [release, Ledger.release_of_held h]
  · rw [add_zero] at h
    rw [← h]

/-- The label to which the failures before the reactor jump. -/
theorem Holds.fail1 (h : Holds p s) : Leaves p.fail1 s := by
  rw [fail1_eq h.held]
  exact ⟨rfl, h.foreign, by rw [h.leftover]; exact nofun⟩

theorem Holds.fail2 (h : Holds p ({.reactor} + s)) : Leaves p.fail2 s := by
  have hfilter : p.ledger.held.filter (fun r => r.registered) = s.filter fun r => r.registered := by
    have hpassword : (passwordHeld p).filter (fun r => r.registered) = 0 := by
      rw [passwordHeld]
      split_ifs <;> rfl
    rw [h.held, filter_add, filter_add, hpassword, add_zero]
    exact zero_add _
  have hheld := h.held
  rw [add_assoc] at hheld
  have hledger : p.ledger.release .reactor = { p.ledger with held := s + passwordHeld p } :=
    Ledger.release_of_held hheld
  have hreactor : ({ p with leftover := some (p.ledger.held.filter fun r => r.registered) } :
      Process).release .reactor = { p with
        leftover := some (p.ledger.held.filter fun r => r.registered)
        ledger := { p.ledger with held := s + passwordHeld p } } := by
    rw [Process.release]
    dsimp only
    rw [hledger]
  rw [Process.fail2, hreactor, fail1_eq (s := s) rfl]
  exact ⟨rfl, h.foreign, fun t ht => (Option.some.inj ht).symm.trans hfilter⟩

/-- With the signal handler `BSignal_Finish` is right. -/
theorem Holds.fail3 (h : Holds p ({.signal} + ({.reactor} + s))) : Leaves p.fail3 s :=
  h.release.fail2

/-- The udpgw client is set up only with the option. -/
def udpgwHeld (o : Options) : Multiset Resource :=
  if o.udpgwRemoteServerAddr then {.udpgwClient} else 0

/-- The device and what reads from it. -/
def deviceHeld : Multiset Resource := {.deviceReadBuffer} + {.deviceReadInterface} + {.device}

/-- The labels behind the device release it and go on to `fail3`. -/
theorem Holds.fail4a (h : Holds p (deviceHeld + s)) : ∃ q, p.fail4a = q.fail3 ∧ Holds q s := by
  rw [deviceHeld, add_assoc, add_assoc] at h
  exact ⟨_, rfl, h.release.release.release⟩

theorem Holds.fail5 (h : Holds p ({.lwipInitJob} + (udpgwHeld o + (deviceHeld + s)))) :
    ∃ q, p.fail5 o = q.fail3 ∧ Holds q s := by
  have hjob := h.release
  rw [udpgwHeld] at hjob
  rw [Process.fail5]
  split_ifs at hjob ⊢
  · exact hjob.release.fail4a
  · rw [zero_add] at hjob
    exact hjob.fail4a

/-! ### What goes wrong -/

theorem mem_foreign_fail1 (h : r ∈ p.ledger.foreign) : r ∈ p.fail1.ledger.foreign := by
  rw [fail1]
  split_ifs
  · exact Ledger.mem_foreign_release h
  · exact h

/-- `BSignal_Finish` without a signal handler. -/
theorem not_released_fail3 (h : .signal ∉ p.ledger.held) : ¬ Released p.fail3 := by
  intro hreleased
  have hmem : .signal ∈ p.fail3.ledger.foreign :=
    mem_foreign_fail1 (Ledger.mem_foreign_release (Ledger.mem_foreign_of_release h))
  rw [hreleased.foreign] at hmem
  exact notMem_zero _ hmem

/-- The signal handler is set up only with the option. -/
def signalHeld (o : Options) : Multiset Resource := if o.setSignal then {.signal} else 0

/-- **The option decides** whether the releases from `fail3` on match. -/
theorem released_fail3_iff (h : Holds p (signalHeld o + {.reactor})) :
    Released p.fail3 ↔ o.setSignal = true := by
  cases hsignal : o.setSignal with
  | true =>
    rw [signalHeld, hsignal] at h
    exact iff_of_true (h.fail3 (s := 0)) rfl
  | false =>
    rw [signalHeld, hsignal, if_neg Bool.false_ne_true, zero_add] at h
    refine iff_of_false (not_released_fail3 ?_) Bool.false_ne_true
    rw [h.held, passwordHeld]
    split_ifs <;> decide

/-- Something is still registered when the reactor is freed. -/
theorem not_released_fail2 (h : r ∈ p.ledger.held) (hr : r.registered = true) :
    ¬ Released p.fail2 := by
  intro hreleased
  have hleftover : p.fail2.leftover = some (p.ledger.held.filter fun r => r.registered) := by
    rw [fail2, fail1]
    split_ifs <;> rfl
  have hmem : r ∈ p.ledger.held.filter (fun r => r.registered) := mem_filter.mpr ⟨h, hr⟩
  rw [hreleased.leftover _ hleftover] at hmem
  exact notMem_zero _ hmem

/-- The releases behind `fail5` are not those of the TCP timer and the UDP socket. -/
theorem not_released_fail5 (h : r ∈ p.ledger.held) (hr : r = .tcpTimer ∨ r = .udpFd) :
    ¬ Released (p.fail5 o) := by
  have hregistered : r.registered = true := by obtain rfl | rfl := hr <;> rfl
  have hne {q : Resource} (hq : q ≠ .tcpTimer ∧ q ≠ .udpFd) : r ≠ q := by
    rintro rfl
    exact hr.elim hq.1 hq.2
  have hjob : r ∈ (p.release .lwipInitJob).ledger.held :=
    Ledger.mem_held_release h (hne (by decide))
  have hfail4a {q : Process} (h : r ∈ q.ledger.held) : ¬ Released q.fail4a := by
    refine not_released_fail2 ?_ hregistered
    exact Ledger.mem_held_release (Ledger.mem_held_release (Ledger.mem_held_release
      (Ledger.mem_held_release h (hne (by decide))) (hne (by decide))) (hne (by decide)))
      (hne (by decide))
  rw [fail5]
  split_ifs
  · exact hfail4a (Ledger.mem_held_release hjob (hne (by decide)))
  · exact hfail4a hjob

/-! ### The event loop -/

/-- What the event loop has added. -/
def loopHeld (p : Process) : Multiset Resource :=
  (if p.haveNetif then {.netif} else 0) + (if p.listener then {.listener} else 0)
    + (if p.listenerIp6 then {.listenerIp6} else 0) + (p.tcpClients : Multiset ℕ).map .client

/-- In the event loop `s` is held besides what the loop itself has added, and the job that adds
the interface runs once. -/
structure Looping (p : Process) (s : Multiset Resource) : Prop where
  holds : Holds p (loopHeld p + s)
  fresh : p.lwipInitJob = true →
    p.haveNetif = false ∧ p.listener = false ∧ p.listenerIp6 = false
  buffer : p.udpPcb.buffer = true
  sockfd : p.udpPcb.sockfd ≠ 0

theorem loopHeld_client {client : ℕ} {clients rest : List ℕ}
    (h : (clients : Multiset ℕ) = client ::ₘ rest) :
    loopHeld { p with tcpClients := clients }
      = {.client client} + loopHeld { p with tcpClients := rest } := by
  rw [loopHeld, loopHeld]
  dsimp only
  rw [h, map_cons, ← singleton_add]
  ac_rfl

/-- A client is added. -/
theorem Looping.accept (h : Looping p s) (client : ℕ) :
    Looping ({ p with tcpClients := client :: p.tcpClients }.acquire (.client client)) s := by
  have hholds := (Holds.mk (p := { p with tcpClients := client :: p.tcpClients }) h.holds.held
    h.holds.foreign h.holds.leftover).acquire (.client client)
  refine ⟨?_, h.fresh, h.buffer, h.sockfd⟩
  have hloop : loopHeld ({ p with tcpClients := client :: p.tcpClients }.acquire (.client client))
      = {.client client} + loopHeld p := loopHeld_client (cons_coe client _).symm
  rw [hloop, add_assoc]
  exact hholds

/-- A client is freed. -/
theorem Looping.free (h : Looping p s) {client : ℕ} (hclient : client ∈ p.tcpClients) :
    Looping (p.freeClient client) s := by
  have hloop : loopHeld p
      = {.client client} + loopHeld { p with tcpClients := p.tcpClients.erase client } := by
    refine loopHeld_client ?_
    rw [← coe_erase, cons_erase (mem_coe.mpr hclient)]
  have hholds : Holds { p with tcpClients := p.tcpClients.erase client }
      ({.client client} + (loopHeld { p with tcpClients := p.tcpClients.erase client } + s)) := by
    rw [← add_assoc, ← hloop]
    exact ⟨h.holds.held, h.holds.foreign, h.holds.leftover⟩
  exact ⟨hholds.release, h.fresh, h.buffer, h.sockfd⟩

/-- A listener that cannot be opened leaves nothing. -/
theorem openListener_eq (p : Process) (r : Resource) (e : ListenerOutcomes) :
    p.openListener r e = (true, p.acquire r) ∨ p.openListener r e = (false, p) := by
  have hclosed : (p.acquire r).release r = p := by
    rw [release, acquire, Ledger.release_of_held Ledger.held_acquire]
    rfl
  rw [openListener]
  dsimp only
  rw [hclosed]
  split_ifs
  · exact .inl rfl
  · exact .inr rfl
  · exact .inr rfl
  · exact .inr rfl

/-- The lwip job has added something, and a pointer or flag says so. -/
theorem Looping.add (h : Looping p s) {q : Process} (hledger : q.ledger = p.ledger.acquire r)
    (hleftover : q.leftover = p.leftover)
    (hpassword : q.passwordFileContents = p.passwordFileContents)
    (hpcb : q.udpPcb = p.udpPcb) (hloop : loopHeld q = {r} + loopHeld p)
    (hjob : q.lwipInitJob = false) : Looping q s := by
  have hpw : passwordHeld q = passwordHeld p := by rw [passwordHeld, passwordHeld, hpassword]
  refine ⟨⟨?_, ?_, ?_⟩, fun hset => absurd (hjob.symm.trans hset) Bool.false_ne_true,
    hpcb ▸ h.buffer, hpcb ▸ h.sockfd⟩
  · rw [hledger, Ledger.held_acquire, h.holds.held, hloop, hpw]
    ac_rfl
  · rw [hledger]
    exact h.holds.foreign
  · rw [hleftover]
    exact h.holds.leftover

theorem Looping.terminate (h : Looping p s) : Looping p.terminate s :=
  ⟨⟨h.holds.held, h.holds.foreign, h.holds.leftover⟩, h.fresh, h.buffer, h.sockfd⟩

/-- The job of lwip. -/
theorem Looping.lwipInitJobHandler (h : Looping p s) (hjob : p.lwipInitJob = false)
    (hnetif : p.haveNetif = false) (hlistener : p.listener = false)
    (hip6 : p.listenerIp6 = false) (netifAdd : Bool) (ip4 ip6 : ListenerOutcomes) :
    Looping (p.lwipInitJobHandler o netifAdd ip4 ip6) s := by
  rw [Process.lwipInitJobHandler]
  by_cases hadd : netifAdd = true
  · let up : Process := { p.acquire .netif with haveNetif := true }
    have hup : Looping up s := by
      refine h.add rfl rfl rfl rfl ?_ hjob
      simp only [up, loopHeld, hnetif, acquire, if_true, Bool.false_eq_true, if_false]
      ac_rfl
    rw [if_neg (not_not.mpr hadd)]
    dsimp only
    obtain hopen | hopen := openListener_eq up .listener ip4
    · let open4 : Process := { up.acquire .listener with listener := true }
      have hopen4 : Looping open4 s := by
        refine hup.add rfl rfl rfl rfl ?_ hjob
        simp only [open4, up, loopHeld, hlistener, acquire, if_true, Bool.false_eq_true,
          if_false]
        ac_rfl
      rw [hopen]
      dsimp only
      split_ifs
      · obtain hopen6 | hopen6 := openListener_eq open4 .listenerIp6 ip6
        · rw [hopen6]
          refine hopen4.add rfl rfl rfl rfl ?_ hjob
          simp only [open4, up, loopHeld, hip6, acquire, if_true, Bool.false_eq_true,
            if_false]
          ac_rfl
        · rw [hopen6]
          exact hopen4.terminate
      · exact hopen4
    · rw [hopen]
      exact hup.terminate
  · rw [if_pos hadd]
    exact h.terminate

theorem Looping.handle (h : Looping p s) (ev : Event) : Looping (p.handle o ev) s := by
  cases ev with
  | lwipInitJob netifAdd ip4 ip6 =>
    rw [Process.handle]
    split_ifs with hjob
    · obtain ⟨hnetif, hlistener, hip6⟩ := h.fresh hjob
      have hrun : Looping { p with lwipInitJob := false } s :=
        ⟨⟨h.holds.held, h.holds.foreign, h.holds.leftover⟩, nofun, h.buffer, h.sockfd⟩
      exact hrun.lwipInitJobHandler rfl hnetif hlistener hip6 netifAdd ip4 ip6
    · exact h
  | accept client =>
    rw [Process.handle]
    split_ifs with hclient
    · exact h
    · exact h.accept client
  | free =>
    rw [Process.handle]
    split_ifs with hclient
    · exact h.free hclient
    · exact h
  | terminate => exact h.terminate

/-- **The event loop**, by induction on the events. -/
theorem Looping.exec (h : Looping p s) (events : List Event) :
    Looping (exec o events p) s := by
  induction events generalizing p with
  | nil => exact h
  | cons ev _ ih =>
    rw [exec]
    split_ifs
    · exact h
    · exact ih (h.handle ev)

/-! ### The normal exit -/

/-- The clients are freed, from the first to the last. -/
theorem Looping.freeClients (h : Looping p s) :
    Looping p.freeClients s ∧ p.freeClients.tcpClients = [] := by
  rw [Process.freeClients]
  generalize hclients : p.tcpClients = clients
  induction clients generalizing p with
  | nil => exact ⟨h, hclients⟩
  | cons client clients ih =>
    have hrest : (p.freeClient client).tcpClients = clients := by
      rw [freeClient]
      dsimp only [release]
      rw [hclients, List.erase_cons_head]
    rw [List.foldl_cons]
    exact ih (h.free (hclients ▸ List.mem_cons_self)) hrest

/-- Something is released if it is there; nothing but the ledger changes. -/
theorem Holds.releaseIf {b : Bool} (h : Holds p ((if b then {r} else 0) + s)) :
    ∃ l, (if b then p.release r else p) = { p with ledger := l } ∧ Holds { p with ledger := l } s := by
  split_ifs at h ⊢
  · exact ⟨_, rfl, h.release⟩
  · rw [zero_add] at h
    exact ⟨p.ledger, rfl, h⟩

theorem Holds.udpFree (h : Holds p ({.udpBuffer} + ({.udpSocket} + ({.udpMap} + s))))
    (hbuffer : p.udpPcb.buffer = true) (hsockfd : p.udpPcb.sockfd ≠ 0) : Holds p.udpFree s := by
  have hsocket : (p.release .udpBuffer).udpPcb.sockfd ≠ 0 := hsockfd
  rw [Process.udpFree, if_pos hbuffer, if_pos hsocket]
  exact h.release.release.release

/-- **The normal exit** releases what the event loop has added, and the rest but for the
registration. -/
theorem Looping.exit (h : Looping p ({.udpBuffer} + ({.udpSocket} + ({.udpMap} +
      ({.tcpTimer} + ({.deviceWriteBuf} + s)))))) : Holds p.exit s := by
  obtain ⟨hloop, hclients⟩ := h.freeClients
  have hholds := hloop.holds
  rw [loopHeld, hclients, coe_nil, map_zero, add_zero] at hholds
  have horder : ∀ n l i : Multiset Resource, n + l + i + ({.udpBuffer} + ({.udpSocket} + ({.udpMap} +
      ({.tcpTimer} + ({.deviceWriteBuf} + s))))) = i + (l + (n + ({.udpBuffer} + ({.udpSocket} +
      ({.udpMap} + ({.tcpTimer} + ({.deviceWriteBuf} + s))))))) := by
    intro n l i
    ac_rfl
  rw [horder] at hholds
  rw [Process.exit]
  obtain ⟨l₁, heq, hholds⟩ := hholds.releaseIf
  rw [heq]
  obtain ⟨l₂, heq, hholds⟩ := hholds.releaseIf
  rw [heq]
  obtain ⟨l₃, heq, hholds⟩ := hholds.releaseIf
  rw [heq]
  exact (hholds.udpFree hloop.buffer hloop.sockfd).release.release

/-! ### Setting up -/

variable {events : List Event}

theorem tcpTimer_mem_udpInit (h : .tcpTimer ∈ p.ledger.held) :
    .tcpTimer ∈ (p.udpInit e).2.ledger.held := by
  have hbuffer := Ledger.mem_held_acquire (a := .udpBuffer) h
  have hsocket := Ledger.mem_held_acquire (a := .udpSocket) hbuffer
  have hclosed := Ledger.mem_held_release (a := .udpSocket) hsocket (by decide)
  rw [udpInit]
  cases e.malloc with
  | false => exact h
  | true =>
    cases e.socket with
    | none => exact hbuffer
    | some =>
      cases e.bind with
      | false => exact hclosed
      | true =>
        cases e.connect with
        | false => exact hclosed
        | true =>
          cases e.addFileDescriptor with
          | false => exact hclosed
          | true => exact Ledger.mem_held_acquire (Ledger.mem_held_acquire hsocket)

/-- The socket is open, registered, and in `udp_pcb`. -/
theorem Holds.udpInit (h : Holds p s) : (p.udpInit e).1 ≠ 0 →
    ∃ l sockfd, sockfd ≠ 0 ∧
      (p.udpInit e).2 = { p with ledger := l, udpPcb := ⟨true, sockfd⟩ } ∧
      Holds { p with ledger := l, udpPcb := ⟨true, sockfd⟩ }
        ({.udpMap} + ({.udpFd} + ({.udpSocket} + ({.udpBuffer} + s)))) := by
  rw [Process.udpInit]
  cases e.malloc with
  | false => exact fun hok => absurd rfl hok
  | true =>
    cases e.socket with
    | none => exact fun hok => absurd rfl hok
    | some sockfd =>
      cases e.bind with
      | false => exact fun hok => absurd rfl hok
      | true =>
        cases e.connect with
        | false => exact fun hok => absurd rfl hok
        | true =>
          cases e.addFileDescriptor with
          | false => exact fun hok => absurd rfl hok
          | true =>
            intro hok
            have hheld := (((h.acquire .udpBuffer).acquire .udpSocket).acquire .udpFd).acquire
              .udpMap
            exact ⟨_, sockfd, hok, rfl, hheld.held, hheld.foreign, hheld.leftover⟩

/-- The globals that `run` clears before the event loop. -/
theorem initTcpTimer_cases (p : Process) (o : Options) (e : Outcomes) (events : List Event) :
    ∃ q : Process, q = { p.acquire .tcpTimer with
        haveNetif := false
        listener := false
        listenerIp6 := false
        tcpClients := [] } ∧
      ((q.udpInit e).1 = 0 ∧ p.initTcpTimer o e events = (q.udpInit e).2.fail5 o ∨
        (q.udpInit e).1 ≠ 0 ∧
          p.initTcpTimer o e events = (exec o events (q.udpInit e).2).exit.fail5 o) := by
  refine ⟨_, rfl, ?_⟩
  rw [initTcpTimer]
  dsimp only
  cases udpInit _ e with
  | mk sockfd =>
    cases sockfd with
    | zero => exact .inl ⟨rfl, rfl⟩
    | succ n => exact .inr ⟨n.succ_ne_zero, rfl⟩

/-- **A run to the normal exit**, up to `fail5`: the registration of the socket is held besides
what was before the TCP timer. -/
theorem Holds.exit (h : Holds p ({.deviceWriteBuf} + s)) {q : Process}
    (hq : q = { p.acquire .tcpTimer with
      haveNetif := false
      listener := false
      listenerIp6 := false
      tcpClients := [] }) (hok : (q.udpInit e).1 ≠ 0) (o : Options) (events : List Event) :
    Holds (exec o events (q.udpInit e).2).exit ({.udpFd} + s) := by
  have htimer : Holds q ({.tcpTimer} + ({.deviceWriteBuf} + s)) := by
    have hacquired := h.acquire .tcpTimer
    rw [hq]
    exact ⟨hacquired.held, hacquired.foreign, hacquired.leftover⟩
  obtain ⟨l, sockfd, hsockfd, heq, hholds⟩ := htimer.udpInit hok
  have hloop : Looping (q.udpInit e).2 ({.udpBuffer} + ({.udpSocket} + ({.udpMap} +
      ({.tcpTimer} + ({.deviceWriteBuf} + ({.udpFd} + s)))))) := by
    rw [heq]
    refine ⟨?_, ?_, rfl, hsockfd⟩
    · have hnone : loopHeld { q with ledger := l, udpPcb := ⟨true, sockfd⟩ } = 0 := by
        rw [hq]
        rfl
      rw [hnone, zero_add]
      convert hholds using 1
      ac_rfl
    · intro _
      rw [hq]
      exact ⟨rfl, rfl, rfl⟩
  exact (hloop.exec events).exit

/-- **From the TCP timer on** something is always left registered. -/
theorem not_released_initTcpTimer (h : Holds p ({.deviceWriteBuf} + s)) :
    ¬ Released (p.initTcpTimer o e events) := by
  obtain ⟨q, hq, ⟨-, heq⟩ | ⟨hok, heq⟩⟩ := initTcpTimer_cases p o e events
  · have htimer : .tcpTimer ∈ q.ledger.held := by
      rw [hq]
      exact mem_cons_self _ _
    rw [heq]
    exact not_released_fail5 (tcpTimer_mem_udpInit htimer) (.inl rfl)
  · rw [heq]
    refine not_released_fail5 (r := .udpFd) ?_ (.inr rfl)
    rw [(h.exit hq hok o events).held]
    exact mem_add.mpr (.inl (mem_add.mpr (.inl (mem_singleton_self _))))

/-- Before it, everything is released if the signal handler is there. -/
theorem released_initLwipInitJob_iff
    (h : Holds p (udpgwHeld o + (deviceHeld + (signalHeld o + {.reactor})))) :
    Released (p.initLwipInitJob o e events) ↔ o.setSignal = true ∧ e.balloc = false := by
  have hjob : Holds { p.acquire .lwipInitJob with lwipInitJob := true }
      ({.lwipInitJob} + (udpgwHeld o + (deviceHeld + (signalHeld o + {.reactor})))) := by
    have hacquired := h.acquire .lwipInitJob
    exact ⟨hacquired.held, hacquired.foreign, hacquired.leftover⟩
  rw [initLwipInitJob]
  cases e.balloc with
  | false =>
    obtain ⟨q, hq, hholds⟩ := hjob.fail5
    rw [if_pos Bool.false_ne_true, hq, released_fail3_iff hholds]
    exact (and_iff_left rfl).symm
  | true =>
    rw [if_neg (not_not.mpr rfl)]
    exact iff_of_false (not_released_initTcpTimer (hjob.acquire _)) fun hand => by cases hand.2

/-- The client for udpgw is asked for and cannot be set up. -/
def FailsUdpgwClient (o : Options) (e : Outcomes) : Prop :=
  o.udpgwRemoteServerAddr = true ∧
    (udpgwMtuOk o e = false ∨ e.socksUdpGwClientInit = false)

theorem released_initUdpgwClient_iff (h : Holds p (deviceHeld + (signalHeld o + {.reactor}))) :
    Released (p.initUdpgwClient o e events) ↔
      o.setSignal = true ∧ (FailsUdpgwClient o e ∨ e.balloc = false) := by
  obtain ⟨q, hq, hholds⟩ := h.fail4a
  have hfail4a : Released p.fail4a ↔ o.setSignal = true := by
    rw [hq]
    exact released_fail3_iff hholds
  rw [initUdpgwClient, FailsUdpgwClient]
  cases hoption : o.udpgwRemoteServerAddr with
  | false =>
    have hjob : Holds p (udpgwHeld o + (deviceHeld + (signalHeld o + {.reactor}))) := by
      rw [udpgwHeld, hoption, if_neg Bool.false_ne_true, zero_add]
      exact h
    rw [if_neg Bool.false_ne_true, released_initLwipInitJob_iff hjob]
    simp
  | true =>
    have hjob : Holds (p.acquire .udpgwClient)
        (udpgwHeld o + (deviceHeld + (signalHeld o + {.reactor}))) := by
      rw [udpgwHeld, hoption, if_pos rfl]
      exact h.acquire .udpgwClient
    rw [if_pos rfl]
    cases udpgwMtuOk o e with
    | false => simp [hfail4a]
    | true =>
      cases e.socksUdpGwClientInit with
      | false => simp [hfail4a]
      | true => simp [released_initLwipInitJob_iff hjob]

/-- The device cannot be opened. -/
def FailsDevice (o : Options) (e : Outcomes) : Prop :=
  (if o.tunFd ≠ 0 then e.btapInitWithFd else e.btapInit) = false

theorem released_initDevice_iff (h : Holds p (signalHeld o + {.reactor})) :
    Released (p.initDevice o e events) ↔ o.setSignal = true ∧
      (FailsDevice o e ∨ e.singlePacketBufferInit = false ∨ FailsUdpgwClient o e ∨
        e.balloc = false) := by
  have hdevice := (h.acquire .device).acquire .deviceReadInterface
  rw [initDevice, FailsDevice]
  cases (if o.tunFd ≠ 0 then e.btapInitWithFd else e.btapInit) with
  | false => simp [released_fail3_iff h]
  | true =>
    cases e.singlePacketBufferInit with
    | false =>
      have hfail4 : Released ((p.acquire .device).acquire .deviceReadInterface).fail4 ↔
          o.setSignal = true := released_fail3_iff hdevice.release.release
      simp [hfail4]
    | true =>
      have hbuffer := hdevice.acquire .deviceReadBuffer
      rw [← add_assoc, ← add_assoc] at hbuffer
      simp [released_initUdpgwClient_iff hbuffer]

/-- A step before the TCP timer fails, and the reactor is there. -/
def FailsBeforeTcpTimer (o : Options) (e : Outcomes) : Prop :=
  e.signalInit = false ∨ FailsDevice o e ∨ e.singlePacketBufferInit = false ∨
    FailsUdpgwClient o e ∨ e.balloc = false

theorem released_initSignal_iff (h : Holds p {.reactor}) :
    Released (p.initSignal o e events) ↔ o.setSignal = true ∧ FailsBeforeTcpTimer o e := by
  rw [initSignal, FailsBeforeTcpTimer]
  cases hoption : o.setSignal with
  | false =>
    have hdevice : Holds p (signalHeld o + {.reactor}) := by
      rw [signalHeld, hoption, if_neg Bool.false_ne_true, zero_add]
      exact h
    rw [if_neg Bool.false_ne_true, released_initDevice_iff hdevice, hoption]
    simp
  | true =>
    rw [if_pos rfl]
    cases e.signalInit with
    | false =>
      have hfail2 : Released p.fail2 := h.fail2 (s := 0)
      simp [hfail2]
    | true =>
      have hdevice : Holds (p.acquire .signal) (signalHeld o + {.reactor}) := by
        rw [signalHeld, hoption, if_pos rfl]
        exact h.acquire .signal
      simp [released_initDevice_iff hdevice, hoption]

end Labels

/-- An argument cannot be resolved, or the password not be read. -/
def FailsArguments (o : Options) (e : Outcomes) : Prop :=
  e.resolve = false ∨ (o.username = true ∧ o.password = false) ∧ e.readFile = false ∨
    e.resolveRemote = false

/-- The network, the arguments or the reactor cannot be set up. -/
def FailsBeforeReactor (o : Options) (e : Outcomes) : Prop :=
  e.networkGlobalInit = false ∨ FailsArguments o e ∨ e.reactorInit = false

/-- After the arguments at most the password file is held. -/
theorem holds_processArguments (o : Options) (e : Outcomes) (udpPcb : UdpPcb) :
    Holds ((before udpPcb).processArguments o e).2 0 ∧
      (((before udpPcb).processArguments o e).1 = false ↔ FailsArguments o e) := by
  have hbefore : Holds (before udpPcb) 0 := ⟨rfl, rfl, rfl⟩
  have hread : Holds { (before udpPcb).acquire .password with passwordFileContents := true } 0 :=
    ⟨rfl, rfl, rfl⟩
  rw [processArguments, FailsArguments, ← Bool.not_eq_true o.password]
  cases e.resolve with
  | false => simp [hbefore]
  | true =>
    rw [if_neg (not_not.mpr rfl)]
    by_cases hfile : o.username = true ∧ ¬ o.password = true
    · cases e.readFile <;> simp [hbefore, hread, hfile]
    · rw [if_neg hfile, and_comm (a := o.username = true ∧ _)]
      simp only [hfile, and_false, Bool.true_eq_false, false_or]
      exact ⟨hbefore, trivial⟩

/-- **When `run` releases what it acquired.** For all options, outcomes, earlier runs and events:
exactly if a step up to the reactor fails, or the signal handler is asked for and a step up to the
device write buffer fails. -/
theorem run_releases_iff (o : Options) (e : Outcomes) (udpPcb : UdpPcb) (events : List Event) :
    Released (run o e udpPcb events) ↔
      FailsBeforeReactor o e ∨ o.setSignal = true ∧ FailsBeforeTcpTimer o e := by
  have hbefore : Released (before udpPcb).fail1 := (Holds.mk rfl rfl rfl).fail1 (s := 0)
  obtain ⟨hholds, harguments⟩ := holds_processArguments o e udpPcb
  rw [run, FailsBeforeReactor, ← harguments]
  cases e.networkGlobalInit with
  | false => simp [hbefore]
  | true =>
    rw [if_neg (not_not.mpr rfl)]
    generalize (before udpPcb).processArguments o e = result at hholds
    obtain ⟨ok, p⟩ := result
    have hfail1 : Released p.fail1 := hholds.fail1
    cases ok with
    | false => exact iff_of_true hfail1 (.inl (.inr (.inl rfl)))
    | true =>
      have hreactor : Holds (p.acquire .reactor) {.reactor} := hholds.acquire .reactor
      cases e.reactorInit with
      | false => exact iff_of_true hfail1 (.inl (.inr (.inr rfl)))
      | true => simp [released_initSignal_iff hreactor]

/-- The options of `runTun2Socks`, which passes a file descriptor, sets no signal handler and, as
the plugin has it, names no udpgw server. -/
def jniOptions : Options where
  username := false
  password := false
  netifIp6addr := false
  udpgwRemoteServerAddr := false
  tunFd := 5
  setSignal := false

/-- Every step succeeds. -/
def allSucceed : Outcomes where
  networkGlobalInit := true
  resolve := true
  readFile := true
  resolveRemote := true
  reactorInit := true
  signalInit := true
  btapInitWithFd := true
  btapInit := true
  deviceMtu := 1500
  singlePacketBufferInit := true
  socksUdpGwClientInit := true
  balloc := true
  malloc := true
  socket := some 7
  bind := true
  connect := true
  addFileDescriptor := true

/-- **A normal run of the plugin** leaves the registration of its UDP socket, and finishes a signal
handler that was never set up. -/
theorem normal_exit_leaks :
    ¬ Released (run jniOptions allSucceed ⟨false, 0⟩ [.terminate]) ∧
      (run jniOptions allSucceed ⟨false, 0⟩ [.terminate]).ledger = ⟨{.udpFd}, {.signal}⟩ ∧
      (run jniOptions allSucceed ⟨false, 0⟩ [.terminate]).leftover = some {.udpFd} := by
  have hrun : (run jniOptions allSucceed ⟨false, 0⟩ [.terminate]).ledger = ⟨{.udpFd}, {.signal}⟩ ∧
      (run jniOptions allSucceed ⟨false, 0⟩ [.terminate]).leftover = some {.udpFd} := by
    decide +kernel
  refine ⟨fun h => ?_, hrun⟩
  have hheld := h.held
  rw [hrun.1] at hheld
  exact Multiset.singleton_ne_zero _ hheld

end Tun2Socks.Run
