import Tun2Socks.Flow.PacketPassSteps

/-!
# The protocol of the packet pass interface

What the sender and the provider may rely on in every run (`PassProtocol`), and that every packet
gets its done callback at some time, if jobs are run and the provider does not keep packets for
ever. The second part needs no more than that the interface goes through its states in one direction
(`Next.advances`), and that no job is left only if the provider has the packet or there is none.
-/

namespace Tun2Socks.Flow

open Framework Reactor

variable {s : Pass} {r : Round}

/-! ### Every run -/

/-- What is known of a state, by the life of the interface. -/
def Stage (s : Pass) : PassLife → Prop
  | .unborn => Gone s ∧ s.log = []
  | .live => Live s
  | .freed => Gone s ∧ Finished s.log

structure PassInv (w : PassWorld) : Prop where
  fault : w.fault = none
  stage : Stage w.pass w.life

variable {w w' : PassWorld} {l : PassLabel} {memory : PacketPassInterface}

theorem Live.step (h : Live w.pass) (hlife : w.life = .live) (hallowed : w.Allowed l)
    (hfree : l ≠ .free) : wp (PassWorld.program l) (fun _ s' => Next w.pass s') w.pass := by
  cases l with
  | init => cases hlife.symm.trans hallowed.1
  | enableCancel => exact h.enableCancel hallowed.2.1 hallowed.2.2
  | senderInit => exact h.senderInit hallowed.2
  | send =>
    obtain ⟨-, hnonneg, hmtu, hdata, hstate, hdone⟩ := hallowed
    exact h.send hnonneg hmtu hdata hstate hdone
  | requestCancel => exact h.requestCancel hallowed.2.1 hallowed.2.2
  | done => exact h.complete hallowed.2
  | free => exact absurd rfl hfree
  | execute => exact h.execute hallowed
  | other => exact h.other hallowed

theorem Gone.step (h : Gone w.pass) (hlife : w.life ≠ .live) (hallowed : w.Allowed l)
    (hinit : ∀ mtu, l ≠ .init mtu) :
    wp (PassWorld.program l) (fun _ s' => Gone s' ∧ s'.log = w.pass.log) w.pass := by
  cases l with
  | init mtu => exact absurd rfl (hinit mtu)
  | execute => exact h.execute hallowed
  | other => exact h.other hallowed
  | free => exact absurd hallowed hlife
  | enableCancel | senderInit | send | requestCancel | done => exact absurd hallowed.1 hlife

/-- A step that is allowed leaves the interface in the stage that follows. -/
theorem PassInv.program (h : PassInv w) (hallowed : w.Allowed l) :
    wp (PassWorld.program l) (fun _ s' => Stage s' (w.lifeAfter l) ∧
      (w.life = .live → l ≠ .free → Next w.pass s')) w.pass := by
  have hstage := h.stage
  cases hlife : w.life with rw [hlife] at hstage
  | live =>
    by_cases hfree : l = .free
    · subst hfree
      exact wp_mono hstage.free fun _ _ h' => ⟨h', fun _ hne => absurd rfl hne⟩
    · refine wp_mono (hstage.step hlife hallowed hfree) ?_
      intro _ s' hnext
      have hafter : w.lifeAfter l = .live := by
        cases l with
        | free => exact absurd rfl hfree
        | init => rfl
        | _ => exact hlife
      exact ⟨hafter ▸ hnext.live, fun _ _ => hnext⟩
  | unborn =>
    obtain ⟨hgone, hlog⟩ := hstage
    by_cases hinit : ∃ mtu, l = .init mtu
    · obtain ⟨mtu, rfl⟩ := hinit
      exact wp_mono (hgone.init hlog hallowed.2) fun _ _ h' => ⟨h', nofun⟩
    · refine wp_mono (hgone.step (hlife ▸ nofun) hallowed (not_exists.mp hinit)) ?_
      rintro _ s' ⟨hgone', hlog'⟩
      have hafter : w.lifeAfter l = .unborn := by
        cases l with
        | free => cases hlife.symm.trans hallowed
        | init mtu => exact absurd ⟨mtu, rfl⟩ hinit
        | _ => exact hlife
      exact ⟨hafter ▸ ⟨hgone', hlog'.trans hlog⟩, nofun⟩
  | freed =>
    obtain ⟨hgone, hlog⟩ := hstage
    have hinit : ∀ mtu, l ≠ .init mtu := by
      rintro mtu rfl
      cases hlife.symm.trans hallowed.1
    refine wp_mono (hgone.step (hlife ▸ nofun) hallowed hinit) ?_
    rintro _ s' ⟨hgone', hlog'⟩
    have hafter : w.lifeAfter l = .freed := by
      cases l with
      | init mtu => exact absurd rfl (hinit mtu)
      | free => rfl
      | _ => exact hlife
    exact ⟨hafter ▸ ⟨hgone', hlog' ▸ hlog⟩, nofun⟩

theorem PassInv.step (h : PassInv w) (hnext : w.next l = some w') :
    PassInv w' ∧ (w.life = .live → w'.life = .live → Next w.pass w'.pass) := by
  obtain ⟨⟨hfault, hallowed⟩, hnext⟩ := Option.ite_none_right_eq_some.mp hnext
  obtain ⟨⟨_, s'⟩, hrun, hstage, hstep⟩ := h.program hallowed
  rw [hrun] at hnext
  cases hnext
  refine ⟨⟨hfault, hstage⟩, fun hlive hlive' => hstep hlive ?_⟩
  rintro rfl
  cases hlive'

theorem passInv_of_reachable (h : (passSystem memory).Reachable w) : PassInv w := by
  refine h.invariant ⟨rfl, ⟨⟨⟨rfl, List.nodup_nil, .nil, nofun⟩, ?_, nofun, ?_, nofun⟩, ?_⟩, rfl⟩
    fun _ _ _ hinv hnext => (hinv.step hnext).1
  · intro pre p post hlog
    exact absurd hlog.symm (List.append_ne_nil_of_right_ne_nil _ (List.cons_ne_nil _ _))
  · exact fun p hp => absurd rfl hp
  · exact fun _ => rfl

/-- What the interface promises in a state. -/
structure PassProtocol (w : PassWorld) : Prop where
  /-- The assertions of the handlers of the three jobs hold, and those of the job functions. -/
  assertions : w.fault = none
  none : w.life = .live → w.pass.i.state = .none → ∀ job : PassJob, job.address ∉ w.pass.group.due
  operationPending : w.life = .live → w.pass.i.state = .operationPending → ∀ job : PassJob,
    job.address ∈ w.pass.group.due ↔ job = .operation
  busy : w.life = .live → w.pass.i.state = .busy → ∀ job : PassJob,
    job.address ∈ w.pass.group.due → job = .requestcancel
  donePending : w.life = .live → w.pass.i.state = .donePending → ∀ job : PassJob,
    job.address ∈ w.pass.group.due ↔ job = .done
  /-- Every callback comes when it may. -/
  proper : ∀ r ∈ rounds w.pass.log, r.Proper
  once : ∀ r ∈ rounds w.pass.log, r.events.count (.operation r.packet) ≤ 1 ∧
    r.events.count .cancel ≤ 1 ∧ r.events.count .done ≤ 1
  /-- The done callback of a packet comes before the next packet is sent. -/
  answered : ∀ r ∈ (rounds w.pass.log).tail, r.events.count .done = 1
  /-- If no packet is under way, the done callback of every packet has come. -/
  idle : w.life = .live → w.pass.i.state = .none →
    ∀ r ∈ rounds w.pass.log, r.events.count .done = 1
  /-- Nothing happens after `Free`. -/
  freed : History.Always (fun before _ => .freed ∉ before) w.pass.log

theorem Round.Proper.once (h : r.Proper) : r.events.count (.operation r.packet) ≤ 1 ∧
    r.events.count .cancel ≤ 1 ∧ r.events.count .done ≤ 1 :=
  ⟨h.count_le_one fun _ hpermits => hpermits.2.1 _, h.count_le_one fun _ hpermits => hpermits.1,
    h.count_le_one fun _ hpermits => hpermits.1⟩

theorem Live.answered_of_none (h : Live s) (hstate : s.i.state = .none) :
    ∀ r ∈ rounds s.log, r.events.count .done = 1 := by
  cases hrounds : rounds s.log with
  | nil => exact nofun
  | cons r =>
    have hcurrent := h.current r (hrounds ▸ rfl)
    have hanswered := h.log.answered
    rw [Current, hstate] at hcurrent
    rw [hrounds] at hanswered
    exact List.forall_mem_cons.mpr ⟨hcurrent, hanswered⟩

/-- Only the job that belongs to the state is set. -/
theorem Live.state_of_due (h : Live s) {job : PassJob} (hdue : job.address ∈ s.group.due) :
    s.i.state = match job with
      | .operation => .operationPending
      | .requestcancel => .busy
      | .done => .donePending := by
  cases job with
  | operation => exact h.operation.mp hdue
  | requestcancel => exact (h.cancel hdue).1
  | done => exact h.done.mp hdue

theorem PassInv.protocol (h : PassInv w) : PassProtocol w := by
  have hlive : w.life = .live → Live w.pass := by
    intro hlife
    have hstage := h.stage
    rwa [hlife] at hstage
  obtain ⟨hproper, hanswered, hfreed⟩ : Finished w.pass.log := by
    have hstage := h.stage
    cases hlife : w.life with
    | unborn =>
      rw [hlife] at hstage
      rw [hstage.2]
      exact ⟨nofun, nofun, History.always_nil⟩
    | live => exact ⟨(hlive hlife).log.proper, (hlive hlife).log.answered,
        (hlive hlife).log.always_freed⟩
    | freed =>
      rw [hlife] at hstage
      exact hstage.2
  refine ⟨h.fault, ?_, ?_, ?_, ?_, hproper, fun r hr => (hproper r hr).once, hanswered,
    fun hlife => (hlive hlife).answered_of_none, hfreed⟩
  · intro hlife hstate job hdue
    have heq := hstate.symm.trans ((hlive hlife).state_of_due hdue)
    cases job <;> cases heq
  · intro hlife hstate job
    refine ⟨fun hdue => ?_, fun hjob => hjob ▸ (hlive hlife).operation.mpr hstate⟩
    have heq := hstate.symm.trans ((hlive hlife).state_of_due hdue)
    cases job <;> first | rfl | cases heq
  · intro hlife hstate job hdue
    have heq := hstate.symm.trans ((hlive hlife).state_of_due hdue)
    cases job <;> first | rfl | cases heq
  · intro hlife hstate job
    refine ⟨fun hdue => ?_, fun hjob => hjob ▸ (hlive hlife).done.mpr hstate⟩
    have heq := hstate.symm.trans ((hlive hlife).state_of_due hdue)
    cases job <;> first | rfl | cases heq

/-! ### Eventually -/

/-- The interface is not freed, the jobs are run until there is none, again and again, and a
provider that has a packet is done with it at some time. -/
structure Served (run : ℕ → PassWorld) : Prop where
  kept : ∀ n, (run n).life ≠ .freed
  drained : ∀ n, ∃ m ≥ n, (run m).pass.group.due = []
  completes : ∀ n, (run n).life = .live → (run n).pass.i.state = .busy →
    ∃ m ≥ n, (run m).pass.i.state ≠ .busy

section Eventually

variable {run : ℕ → PassWorld} {n : ℕ}

theorem next_of_endless (h : (passSystem memory).Endless run) (hserved : Served run)
    (hlife : (run n).life = .live) :
    (run (n + 1)).life = .live ∧ Next (run n).pass (run (n + 1)).pass := by
  have hinv := passInv_of_reachable (h.reachable n)
  obtain ⟨l, hnext⟩ := h.step n
  have hlive : (run (n + 1)).life = .live := by
    obtain ⟨⟨hfault, hallowed⟩, heq⟩ := Option.ite_none_right_eq_some.mp hnext
    obtain ⟨⟨_, s'⟩, hrun, -⟩ := hinv.program hallowed
    rw [hrun] at heq
    have hafter : (run (n + 1)).life = (run n).lifeAfter l :=
      congrArg PassWorld.life (Option.some.inj heq).symm
    have hkept := hserved.kept (n + 1)
    rw [hafter] at hkept ⊢
    cases l with
    | free => exact absurd rfl hkept
    | init => rfl
    | _ => exact hlife
  exact ⟨hlive, (hinv.step hnext).2 hlife hlive⟩

/-- From then on the interface exists, and the log grows. -/
theorem live_of_le (h : (passSystem memory).Endless run) (hserved : Served run)
    (hlife : (run n).life = .live) {m : ℕ} (hle : n ≤ m) :
    (run m).life = .live ∧ (run n).pass.log <+: (run m).pass.log := by
  induction m, hle using Nat.le_induction with
  | base => exact ⟨hlife, List.prefix_rfl⟩
  | succ _ _ ih =>
    obtain ⟨hlive, hnext⟩ := next_of_endless h hserved ih.1
    exact ⟨hlive, ih.2.trans hnext.log⟩

/-- While there is a packet, the interface does not go back. -/
theorem rank_mono (h : (passSystem memory).Endless run) (hserved : Served run)
    (hlife : (run n).life = .live) (hnever : ∀ m ≥ n, (run m).pass.i.state ≠ .none) {a b : ℕ}
    (ha : n ≤ a) (hle : a ≤ b) :
    (run a).pass.i.state.rank ≤ (run b).pass.i.state.rank := by
  induction b, hle using Nat.le_induction with
  | base => exact le_rfl
  | succ b hb ih =>
    have hlive := (live_of_le h hserved hlife (ha.trans hb)).1
    exact ih.trans ((next_of_endless h hserved hlive).2.advances (hnever b (ha.trans hb)))

/-- When no job is left, the provider has the packet, if there is one. -/
theorem Live.busy_of_due_eq_nil (h : Live s) (hdue : s.group.due = [])
    (hstate : s.i.state ≠ .none) : s.i.state = .busy := by
  have hoperation := h.operation
  have hdone := h.done
  rw [hdue] at hoperation hdone
  obtain hcase | hcase | hcase := PpiState.cases_of_ne_none hstate
  · cases hoperation.mpr hcase
  · exact hcase
  · cases hdone.mpr hcase

theorem exists_none (h : (passSystem memory).Endless run) (hserved : Served run)
    (hlife : (run n).life = .live) : ∃ m ≥ n, (run m).pass.i.state = .none := by
  by_contra hnot
  have hnever : ∀ m ≥ n, (run m).pass.i.state ≠ .none := fun m hm hnone =>
    hnot ⟨m, hm, hnone⟩
  have hinv : ∀ m ≥ n, Live (run m).pass := by
    intro m hm
    have hstage := (passInv_of_reachable (h.reachable m)).stage
    rwa [(live_of_le h hserved hlife hm).1] at hstage
  have hbusy : ∀ m ≥ n, (run m).pass.group.due = [] → (run m).pass.i.state = .busy :=
    fun m hm hdue => (hinv m hm).busy_of_due_eq_nil hdue (hnever m hm)
  -- the provider has the packet, then it is done with it, and then no job can be left
  obtain ⟨a, ha, hdue_a⟩ := hserved.drained n
  obtain ⟨b, hb, hstate_b⟩ := hserved.completes a (live_of_le h hserved hlife ha).1
    (hbusy a ha hdue_a)
  obtain ⟨c, hc, hdue_c⟩ := hserved.drained b
  have hab := rank_mono h hserved hlife hnever ha hb
  have hbc := rank_mono h hserved hlife hnever (ha.trans hb) hc
  rw [hbusy a ha hdue_a] at hab
  rw [hbusy c (ha.trans (hb.trans hc)) hdue_c] at hbc
  obtain hcase | hcase | hcase := PpiState.cases_of_ne_none (hnever b (ha.trans hb))
  · rw [hcase] at hab
    cases hab
  · exact hstate_b hcase
  · rw [hcase] at hbc
    exact nomatch hbc

end Eventually

/-- **The protocol of the interface.** In every state of every run the callbacks that have come are
those that may, the jobs are those of the state, and no assertion has failed. In a run without an end
in which the interface is not freed, jobs are run and the provider is done at some time, all packets
that have been sent up to any time get their done callback. -/
theorem pass_protocol (memory : PacketPassInterface) :
    (∀ w, (passSystem memory).Reachable w → PassProtocol w) ∧
    ∀ run, (passSystem memory).Endless run → Served run → ∀ n, ∃ m ≥ n,
      (run n).pass.log <+: (run m).pass.log ∧
      ∀ r ∈ rounds (run m).pass.log, r.events.count .done = 1 := by
  refine ⟨fun w h => (passInv_of_reachable h).protocol, fun run h hserved n => ?_⟩
  cases hlife : (run n).life with
  | unborn =>
    have hstage := (passInv_of_reachable (h.reachable n)).stage
    rw [hlife] at hstage
    refine ⟨n, le_rfl, List.prefix_rfl, ?_⟩
    rw [hstage.2]
    exact nofun
  | live =>
    obtain ⟨m, hm, hnone⟩ := exists_none h hserved hlife
    obtain ⟨hlive, hlog⟩ := live_of_le h hserved hlife hm
    have hprotocol := (passInv_of_reachable (h.reachable m)).protocol
    exact ⟨m, hm, hlog, hprotocol.idle hlive hnone⟩
  | freed => exact absurd hlife (hserved.kept n)

/-- A packet is cancelled while the provider has it, another one before its operation has begun. -/
theorem pass_protocol_two_packets : ∃ w : PassWorld,
    w.pass.log = [.send ⟨some 7, 40⟩, .operation ⟨some 7, 40⟩, .requestCancel, .cancel, .complete,
      .done, .send ⟨some 9, 20⟩, .requestCancel, .done] ∧ PassProtocol w := by
  obtain ⟨w, hreachable, hlog⟩ := System.exists_of_run
    (passSystem ⟨0, false, false, ⟨none, 0⟩, false, .busy⟩)
    (fun w => w.pass.log = [.send ⟨some 7, 40⟩, .operation ⟨some 7, 40⟩, .requestCancel, .cancel,
      .complete, .done, .send ⟨some 9, 20⟩, .requestCancel, .done])
    [.init 100, .enableCancel, .senderInit, .send ⟨some 7, 40⟩, .execute, .requestCancel, .execute,
      .done, .execute, .send ⟨some 9, 20⟩, .requestCancel, .execute] (by decide +kernel)
  exact ⟨w, hlog, (pass_protocol _).1 w hreachable⟩

end Tun2Socks.Flow
