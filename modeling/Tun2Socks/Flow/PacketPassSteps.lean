import Tun2Socks.Flow.PacketPass

/-!
# The steps of the packet pass interface

`Live` is what holds while the interface exists: which of its jobs are set in which state, and what
has happened in the round of the packet that it has. Every function and every job keeps it
(`Live.send`, `Live.requestCancel`, `Live.complete`, `Live.execute` and so on), and the interface
never goes back to an earlier state while it has a packet (`Next`). Before `Init` and after `Free`
the jobs do not exist (`Gone`), and no handler of the interface is called.
-/

namespace Tun2Socks.Flow

open Framework Reactor Pass PassJob

variable {log : List PassEvent} {e : PassEvent} {r : Round} {rs : List Round}

/-! ### The invariant -/

/-- What is known of the present round. -/
def Current (i : PacketPassInterface) (r : Round) : Prop :=
  match i.state with
  | .none => r.events.count .done = 1
  | .operationPending => r.events = [] ∧ i.jobOperation = r.packet ∧ i.cancelRequested = false
  | .busy => .operation r.packet ∈ r.events ∧ .complete ∉ r.events ∧ .done ∉ r.events ∧
      (.cancel ∈ r.events → i.cancelRequested = true)
  | .donePending => .done ∉ r.events ∧
      (.complete ∈ r.events ∨ .requestCancel ∈ r.events ∧ ∀ p, .operation p ∉ r.events)

/-- What holds while the interface exists. -/
structure Live (s : Pass) : Prop where
  group : GroupInv s.group
  exist : ∀ job : PassJob, s.group.pending job.address ≠ none
  log : Orderly s.log
  handlerDone : s.i.state ≠ .none → s.i.handlerDone = true
  operation : operation.address ∈ s.group.due ↔ s.i.state = .operationPending
  done : done.address ∈ s.group.due ↔ s.i.state = .donePending
  cancel : requestcancel.address ∈ s.group.due → s.i.state = .busy ∧
    s.i.cancelRequested = true ∧ s.i.handlerRequestcancel = true ∧
    ∀ r ∈ (rounds s.log).head?, .cancel ∉ r.events
  begun : s.i.state ≠ .none → rounds s.log ≠ []
  current : ∀ r ∈ (rounds s.log).head?, Current s.i r

/-- The order in which a packet goes through the states. -/
def PpiState.rank : PpiState → ℕ
  | .operationPending => 0
  | .busy => 1
  | .donePending => 2
  | .none => 3

theorem PpiState.cases_of_ne_none {state : PpiState} (h : state ≠ .none) :
    state = .operationPending ∨ state = .busy ∨ state = .donePending := by
  cases state with
  | none => exact absurd rfl h
  | operationPending => exact .inl rfl
  | busy => exact .inr (.inl rfl)
  | donePending => exact .inr (.inr rfl)

/-- What a step leaves: the interface never goes back while it has a packet. -/
structure Next (s s' : Pass) : Prop where
  live : Live s'
  log : s.log <+: s'.log
  advances : s.i.state ≠ .none → s.i.state.rank ≤ s'.i.state.rank

variable {s s' : Pass} {g g' : BPendingGroup} {p : ℕ}

/-- The round of the packet that the interface has. -/
theorem Live.exists_round (h : Live s) (hstate : s.i.state ≠ .none) :
    ∃ r rs, rounds s.log = r :: rs ∧ Current s.i r := by
  cases hrounds : rounds s.log with
  | nil => exact absurd hrounds (h.begun hstate)
  | cons r rs =>
    refine ⟨r, rs, rfl, h.current r ?_⟩
    rw [hrounds]
    rfl

/-! ### Jobs -/

/-- What is done to one job: those that exist are the same, and `due` are those that are set. -/
structure Regrouped (g : BPendingGroup) (due : ℕ → Prop) (g' : BPendingGroup) : Prop where
  inv : GroupInv g'
  exist : ∀ a, g'.pending a ≠ none ↔ g.pending a ≠ none
  mem : ∀ a, a ∈ g'.due ↔ due a

theorem due_of_log {e : Agenda.Event ℕ} (h : g'.log = g.log ++ [e]) :
    g'.due = Agenda.apply g.due e := by
  rw [BPendingGroup.due, h, Agenda.pending_concat]

theorem exist_of_did {e : Agenda.Event ℕ} {flag : Bool} (h : BPendingGroup.Did g e g')
    (hself : g'.pending e.subject = some flag) (hp : g.pending e.subject ≠ none) (a : ℕ) :
    g'.pending a ≠ none ↔ g.pending a ≠ none := by
  by_cases ha : a = e.subject
  · subst ha
    rw [hself]
    exact iff_of_true (Option.some_ne_none _) hp
  · rw [h.other a ha]

theorem set_regroups (h : GroupInv g) (hp : g.pending p ≠ none) :
    wp (BPendingGroup.set p) (fun _ g' => Regrouped g (fun a => a = p ∨ a ∈ g.due) g') g := by
  refine wp_mono (BPendingGroup.set_spec h hp) ?_
  rintro _ g' ⟨hdid, hself⟩
  refine ⟨hdid.inv, exist_of_did hdid hself hp, fun a => ?_⟩
  rw [due_of_log hdid.log, Agenda.apply, List.mem_cons, h.list.nodup.mem_erase_iff]
  tauto

theorem unset_regroups (h : GroupInv g) (hp : g.pending p ≠ none) :
    wp (BPendingGroup.unset p) (fun _ g' => Regrouped g (fun a => a ≠ p ∧ a ∈ g.due) g') g := by
  refine wp_mono (BPendingGroup.unset_spec h hp) ?_
  rintro _ g' ⟨hdid, hself⟩
  refine ⟨hdid.inv, exist_of_did hdid hself hp, fun a => ?_⟩
  rw [due_of_log hdid.log, Agenda.apply, h.list.nodup.mem_erase_iff]

theorem executeJob_regroups (h : GroupInv g) {rest : List ℕ} (hdue : g.due = p :: rest) :
    wp BPendingGroup.executeJob
      (fun _ g' => Regrouped g (fun a => a ≠ p ∧ a ∈ g.due) g') g := by
  refine wp_mono (BPendingGroup.executeJob_spec h hdue) ?_
  rintro _ g' ⟨hdid, hself⟩
  have hp : g.pending p ≠ none := h.exists_of_mem p (hdue ▸ List.mem_cons_self)
  refine ⟨hdid.inv, exist_of_did hdid hself hp, fun a => ?_⟩
  rw [due_of_log hdid.log, Agenda.apply, h.list.nodup.mem_erase_iff]

/-- What others do leaves the jobs of the interface as they are. -/
theorem other_spec (h : GroupInv g) {op : JobOp} (hop : OtherAllowed g op) :
    wp (JobWorld.runOp op) (fun _ g' => GroupInv g' ∧
      ∀ job : PassJob, g'.pending job.address = g.pending job.address ∧
        (job.address ∈ g'.due ↔ job.address ∈ g.due)) g := by
  have hne : ∀ {p : ℕ}, 2 < p → ∀ job : PassJob, job.address ≠ p := by
    intro p hp job
    cases job <;> simp only [address] <;> omega
  have hdid : ∀ {e : Agenda.Event ℕ} {g' : BPendingGroup}, BPendingGroup.Did g e g' →
      2 < e.subject → GroupInv g' ∧
        ∀ job : PassJob, g'.pending job.address = g.pending job.address ∧
          (job.address ∈ g'.due ↔ job.address ∈ g.due) := by
    intro e g' hdid he
    refine ⟨hdid.inv, fun job => ⟨hdid.other _ (hne he job), ?_⟩⟩
    rw [due_of_log hdid.log, Agenda.mem_apply_of_ne (Ne.symm (hne he job))]
  cases op with
  | init =>
    refine wp_mono (BPendingGroup.init_spec h hop.2) ?_
    rintro _ g' ⟨hinv, hlog, -, hother⟩
    refine ⟨hinv, fun job => ⟨hother _ (hne hop.1 job), ?_⟩⟩
    rw [BPendingGroup.due, hlog]
  | set => exact wp_mono (BPendingGroup.set_spec h hop.2) fun _ _ h' => hdid h'.1 hop.1
  | unset => exact wp_mono (BPendingGroup.unset_spec h hop.2) fun _ _ h' => hdid h'.1 hop.1
  | free => exact wp_mono (BPendingGroup.free_spec h hop.2) fun _ _ h' => hdid h'.1 hop.1

/-! ### One step -/

namespace Live

theorem enableCancel (h : Live s) (hcancel : s.i.handlerRequestcancel = false)
    (hdone : s.i.handlerDone = false) : wp enableCancel (fun _ s' => Next s s') s := by
  simp only [Pass.enableCancel, update, wp_bind, wp_get, wp_ensure, wp_modify]
  refine ⟨hcancel, hdone, ⟨h.group, h.exist, h.log, h.handlerDone, h.operation, h.done, ?_,
    h.begun, h.current⟩, List.prefix_rfl, fun _ => le_rfl⟩
  intro hdue
  obtain ⟨hbusy, hrequested, -, hround⟩ := h.cancel hdue
  exact ⟨hbusy, hrequested, rfl, hround⟩

theorem senderInit (h : Live s) (hdone : s.i.handlerDone = false) :
    wp senderInit (fun _ s' => Next s s') s := by
  simp only [Pass.senderInit, update, wp_bind, wp_get, wp_ensure, wp_modify]
  exact ⟨hdone, ⟨h.group, h.exist, h.log, fun _ => rfl, h.operation, h.done, h.cancel,
    h.begun, h.current⟩, List.prefix_rfl, fun _ => le_rfl⟩

theorem send (h : Live s) {packet : PassedPacket} (hnonneg : 0 ≤ packet.dataLen)
    (hmtu : packet.dataLen ≤ s.i.mtu) (hdata : 0 < packet.dataLen → packet.data ≠ none)
    (hstate : s.i.state = .none) (hdone : s.i.handlerDone = true) :
    wp (send packet) (fun _ s' => Next s s') s := by
  simp only [Pass.send, record, update, jobs, wp_bind, wp_get, wp_ensure, wp_modify,
    wp_focus]
  refine ⟨hnonneg, hmtu, hdata, hstate, hdone, ?_⟩
  refine wp_mono (set_regroups h.group (h.exist .operation)) ?_
  rintro _ g₁ h₁
  have hanswered : ∀ r ∈ (rounds s.log).head?, r.events.count .done = 1 := by
    intro r hr
    have hcurrent := h.current r hr
    rw [Current, hstate] at hcurrent
    exact hcurrent
  have hrounds : rounds (s.log ++ [.send packet]) = ⟨packet, []⟩ :: rounds s.log := rounds_concat
  have hcancel : requestcancel.address ∉ s.group.due := fun hdue =>
    absurd (hstate.symm.trans (h.cancel hdue).1) (by decide)
  refine ⟨⟨h₁.inv, fun job => (h₁.exist _).mpr (h.exist job), h.log.send hanswered packet,
    fun _ => hdone, ?_, ?_, ?_, ?_, ?_⟩, List.prefix_append _ _, fun hne => absurd hstate hne⟩
  · exact iff_of_true ((h₁.mem _).mpr (.inl rfl)) rfl
  · rw [h₁.mem, h.done, hstate]
    simp [address]
  · intro hdue
    obtain heq | hdue := (h₁.mem _).mp hdue
    · cases heq
    · exact absurd hdue hcancel
  · exact fun _ => ne_of_eq_of_ne hrounds (List.cons_ne_nil _ _)
  · change ∀ r ∈ (rounds (s.log ++ [.send packet])).head?, _
    rw [hrounds]
    rintro r ⟨⟩
    exact ⟨rfl, rfl, rfl⟩

/-- What has to be shown of a state in which the interface has a packet, or just had it. -/
theorem of_round (hgroup : GroupInv s.group)
    (hexist : ∀ job : PassJob, s.group.pending job.address ≠ none) (hlog : Orderly s.log)
    (hhandler : s.i.handlerDone = true) (hrounds : rounds s.log = r :: rs)
    (hoperation : PassJob.operation.address ∈ s.group.due ↔ s.i.state = .operationPending)
    (hdone : PassJob.done.address ∈ s.group.due ↔ s.i.state = .donePending)
    (hcancel : requestcancel.address ∈ s.group.due → s.i.state = .busy ∧
      s.i.cancelRequested = true ∧ s.i.handlerRequestcancel = true ∧ .cancel ∉ r.events)
    (hcurrent : Current s.i r) : Live s := by
  have hhead : ∀ r' ∈ (rounds s.log).head?, r' = r := by
    rw [hrounds]
    rintro _ ⟨⟩
    rfl
  refine ⟨hgroup, hexist, hlog, fun _ => hhandler, hoperation, hdone, ?_, ?_, ?_⟩
  · intro hdue
    obtain ⟨hbusy, hrequested, hhandler, hnot⟩ := hcancel hdue
    exact ⟨hbusy, hrequested, hhandler, fun r' hr' => hhead r' hr' ▸ hnot⟩
  · exact fun _ => ne_of_eq_of_ne hrounds (List.cons_ne_nil _ _)
  · exact fun r' hr' => hhead r' hr' ▸ hcurrent

/-- An event of the present round, in the course of a step. -/
theorem inner (h : Live s) (hstate : s.i.state ≠ .none) (he : e.IsInner) (hfreed : e ≠ .freed)
    (hpermits : ∀ r : Round, Current s.i r → Round.Permits r.packet r.events e) :
    ∃ r rs, rounds s.log = r :: rs ∧ Current s.i r ∧ Orderly (s.log ++ [e]) ∧
      rounds (s.log ++ [e]) = { r with events := r.events ++ [e] } :: rs := by
  obtain ⟨r, rs, hrounds, hcurrent⟩ := h.exists_round hstate
  exact ⟨r, rs, hrounds, hcurrent, h.log.inner hrounds he (hpermits r hcurrent) hfreed,
    rounds_inner hrounds he⟩

theorem not_done (hstate : s.i.state ≠ .none) (hcurrent : Current s.i r) : .done ∉ r.events := by
  unfold Current at hcurrent
  split at hcurrent
  · rename_i hnone
    exact absurd hnone hstate
  · rw [hcurrent.1]
    exact List.not_mem_nil
  · exact hcurrent.2.2.1
  · exact hcurrent.1

/-- What has happened to the packet the provider has. -/
theorem events_of_busy (hstate : s.i.state = .busy) (hcurrent : Current s.i r) :
    .operation r.packet ∈ r.events ∧ .complete ∉ r.events ∧ .done ∉ r.events ∧
      (.cancel ∈ r.events → s.i.cancelRequested = true) := by
  rw [Current, hstate] at hcurrent
  exact hcurrent

/-- No job of the interface is for a cancel callback, unless the provider has the packet. -/
theorem not_cancel (h : Live s) (hstate : s.i.state ≠ .busy) :
    requestcancel.address ∉ s.group.due := fun hdue => hstate (h.cancel hdue).1

/-- The packet is dropped: its operation has not begun. -/
theorem cancel_operationPending (h : Live s) (hstate : s.i.state = .operationPending)
    (hlog : Orderly (s.log ++ [.requestCancel]))
    (hrounds : rounds (s.log ++ [.requestCancel]) =
      { r with events := r.events ++ [.requestCancel] } :: rs) (hcurrent : Current s.i r) :
    wp (cancelFirst s.i.state) (fun _ s' => Next s s')
      { s with log := s.log ++ [.requestCancel], i := { s.i with cancelRequested := true } } := by
  rw [Current, hstate] at hcurrent
  obtain ⟨hevents, -, -⟩ := hcurrent
  have hcancel := h.not_cancel (by simp [hstate])
  have hprogram : cancelFirst s.i.state = _ := congrArg _ hstate
  rw [hprogram]
  simp only [cancelFirst, update, jobs, wp_bind, wp_modify, wp_focus]
  refine wp_mono (unset_regroups h.group (h.exist .operation)) ?_
  rintro _ g₁ h₁
  refine wp_mono (set_regroups h₁.inv ((h₁.exist _).mpr (h.exist .done))) ?_
  rintro _ g₂ h₂
  refine ⟨of_round h₂.inv (fun job => (h₂.exist _).mpr ((h₁.exist _).mpr (h.exist job))) hlog
    (h.handlerDone (by simp [hstate])) hrounds ?_ ?_ ?_ ?_, List.prefix_append _ _,
    fun _ => ?_⟩
  · rw [h₂.mem, h₁.mem]
    simp [address]
  · exact iff_of_true ((h₂.mem _).mpr (.inl rfl)) rfl
  · intro hdue
    rw [h₂.mem, h₁.mem] at hdue
    obtain heq | ⟨-, hdue⟩ := hdue
    · cases heq
    · exact absurd hdue hcancel
  · rw [hevents]
    exact ⟨by simp, .inr ⟨by simp, by simp⟩⟩
  · rw [hstate]
    exact Nat.zero_le _

/-- The provider is told. -/
theorem cancel_busy (h : Live s) (hstate : s.i.state = .busy)
    (hfirst : s.i.cancelRequested = false) (hhandler : s.i.handlerRequestcancel = true)
    (hlog : Orderly (s.log ++ [.requestCancel]))
    (hrounds : rounds (s.log ++ [.requestCancel]) =
      { r with events := r.events ++ [.requestCancel] } :: rs) (hcurrent : Current s.i r) :
    wp (cancelFirst s.i.state) (fun _ s' => Next s s')
      { s with log := s.log ++ [.requestCancel], i := { s.i with cancelRequested := true } } := by
  obtain ⟨hoperation, hcomplete, hdone, hcancel⟩ := events_of_busy hstate hcurrent
  have hprogram : cancelFirst s.i.state = _ := congrArg _ hstate
  rw [hprogram]
  simp only [cancelFirst, jobs, wp_focus]
  refine wp_mono (set_regroups h.group (h.exist .requestcancel)) ?_
  rintro _ g₁ h₁
  refine ⟨of_round h₁.inv (fun job => (h₁.exist _).mpr (h.exist job)) hlog
    (h.handlerDone (by simp [hstate])) hrounds ?_ ?_ ?_ ?_, List.prefix_append _ _,
    fun _ => le_rfl⟩
  · rw [h₁.mem, h.operation]
    simp [address]
  · rw [h₁.mem, h.done]
    simp [address]
  · refine fun _ => ⟨hstate, rfl, hhandler, ?_⟩
    have hnot : .cancel ∉ r.events := fun hmem =>
      absurd (hfirst.symm.trans (hcancel hmem)) (by decide)
    simpa using hnot
  · rw [Current]
    dsimp only
    rw [hstate]
    simp [hoperation, hcomplete, hdone]

/-- There is nothing to do but to remember the request: it is not the first one, or the provider is
done. -/
theorem cancel_noted (h : Live s) (hstate : s.i.state ≠ .none)
    (hnoted : s.i.cancelRequested = true ∨ s.i.state = .donePending)
    (hlog : Orderly (s.log ++ [.requestCancel]))
    (hrounds : rounds (s.log ++ [.requestCancel]) =
      { r with events := r.events ++ [.requestCancel] } :: rs)
    (hround : r ∈ (rounds s.log).head?) :
    Next s
      { s with log := s.log ++ [.requestCancel], i := { s.i with cancelRequested := true } } := by
  refine ⟨of_round h.group h.exist hlog (h.handlerDone hstate) hrounds h.operation h.done ?_ ?_,
    List.prefix_append _ _, fun _ => le_rfl⟩
  · intro hdue
    obtain ⟨hbusy, -, hhandler, hnot⟩ := h.cancel hdue
    refine ⟨hbusy, rfl, hhandler, ?_⟩
    simpa using hnot r hround
  · have hcurrent := h.current r hround
    unfold Current at hcurrent ⊢
    dsimp only
    split at hcurrent
    · rename_i hnone
      exact absurd hnone hstate
    · rename_i hpending
      obtain htrue | heq := hnoted
      · cases htrue.symm.trans hcurrent.2.2
      · cases hpending.symm.trans heq
    · simp [hcurrent]
    · obtain ⟨hdone, hcomplete | ⟨hrequest, hoperation⟩⟩ := hcurrent
      · simp [hdone, hcomplete]
      · simp [hdone, hoperation]

theorem requestCancel (h : Live s) (hstate : s.i.state ≠ .none)
    (hhandler : s.i.handlerRequestcancel = true) :
    wp requestCancel (fun _ s' => Next s s') s := by
  obtain ⟨r, rs, hrounds, hcurrent, hlog, hrounds'⟩ := h.inner (e := .requestCancel) hstate
    trivial nofun fun r hcurrent => not_done hstate hcurrent
  have hround : r ∈ (rounds s.log).head? := hrounds ▸ rfl
  simp only [Pass.requestCancel, record, update, wp_bind, wp_get, wp_ensure, wp_modify,
    wp_ite, wp_pure]
  refine ⟨hstate, hhandler, ?_⟩
  split_ifs with hrequested
  · have hnext := h.cancel_noted hstate (.inl hrequested) hlog hrounds' hround
    rwa [← hrequested] at hnext
  · rw [Bool.not_eq_true] at hrequested
    obtain hcase | hcase | hcase := PpiState.cases_of_ne_none hstate
    · exact h.cancel_operationPending hcase hlog hrounds' hcurrent
    · exact h.cancel_busy hcase hrequested hhandler hlog hrounds' hcurrent
    · have hprogram : cancelFirst s.i.state = pure () := congrArg cancelFirst hcase
      rw [hprogram, wp_pure]
      exact h.cancel_noted hstate (.inr hcase) hlog hrounds' hround

/-- The provider is done with the packet. -/
theorem complete (h : Live s) (hstate : s.i.state = .busy) :
    wp Pass.done (fun _ s' => Next s s') s := by
  obtain ⟨r, rs, hrounds, hcurrent, hlog, hrounds'⟩ := h.inner (e := .complete)
    (hstate ▸ nofun) trivial nofun fun r hr =>
      ⟨(events_of_busy hstate hr).2.1, (events_of_busy hstate hr).1⟩
  simp only [Pass.done, record, update, jobs, wp_bind, wp_get, wp_ensure, wp_modify,
    wp_focus]
  refine ⟨hstate, wp_mono (unset_regroups h.group (h.exist .requestcancel)) ?_⟩
  rintro _ g₁ h₁
  refine wp_mono (set_regroups h₁.inv ((h₁.exist _).mpr (h.exist .done))) ?_
  rintro _ g₂ h₂
  refine ⟨of_round h₂.inv (fun job => (h₂.exist _).mpr ((h₁.exist _).mpr (h.exist job))) hlog
    (h.handlerDone (by simp [hstate])) hrounds' ?_ ?_ ?_ ?_, List.prefix_append _ _,
    fun _ => ?_⟩
  · rw [h₂.mem, h₁.mem, h.operation, hstate]
    simp [address]
  · exact iff_of_true ((h₂.mem _).mpr (.inl rfl)) rfl
  · intro hdue
    rw [h₂.mem, h₁.mem] at hdue
    simp [address] at hdue
  · refine ⟨?_, .inl ?_⟩ <;> simp [(events_of_busy hstate hcurrent).2.2.1]
  · rw [hstate]
    exact Nat.le_succ 1

/-- Jobs of others were changed. -/
theorem regroup (h : Live s) (hinv : GroupInv g')
    (hexist : ∀ job : PassJob, g'.pending job.address ≠ none)
    (hmem : ∀ job : PassJob, job.address ∈ g'.due ↔ job.address ∈ s.group.due) :
    Next s { s with group := g' } :=
  ⟨⟨hinv, hexist, h.log, h.handlerDone, (hmem .operation).trans h.operation,
    (hmem .done).trans h.done, fun hdue => h.cancel ((hmem .requestcancel).mp hdue), h.begun,
    h.current⟩, List.prefix_rfl, fun _ => le_rfl⟩

theorem other (h : Live s) {op : JobOp} (hop : OtherAllowed s.group op) :
    wp (jobs (JobWorld.runOp op)) (fun _ s' => Next s s') s := by
  simp only [jobs, wp_focus]
  refine wp_mono (other_spec h.group hop) ?_
  rintro _ g' ⟨hinv, hsame⟩
  exact h.regroup hinv (fun job => (hsame job).1 ▸ h.exist job) fun job => (hsame job).2

/-- What the group is when a job of the interface has been taken off the list. -/
abbrev TakenOff (s : Pass) (p : ℕ) (g' : BPendingGroup) : Prop :=
  Regrouped s.group (fun a => a ≠ p ∧ a ∈ s.group.due) g'

theorem runOperation (h : Live s) (hdue : PassJob.operation.address ∈ s.group.due)
    (hg' : TakenOff s PassJob.operation.address g') :
    wp (runJob .operation) (fun _ s' => Next s s') { s with group := g' } := by
  have hstate := h.operation.mp hdue
  have hcancel := h.not_cancel (by simp [hstate])
  have hpending : ∀ r : Round, Current s.i r → r.events = [] ∧ s.i.jobOperation = r.packet := by
    intro r hcurrent
    rw [Current, hstate] at hcurrent
    exact ⟨hcurrent.1, hcurrent.2.1⟩
  obtain ⟨r, rs, hrounds, hcurrent, hlog, hrounds'⟩ := h.inner
    (e := .operation s.i.jobOperation) (hstate ▸ nofun) trivial nofun fun r hr => by
      rw [(hpending r hr).1]
      exact ⟨(hpending r hr).2, fun _ => List.not_mem_nil, List.not_mem_nil⟩
  obtain ⟨hevents, hpacket⟩ := hpending r hcurrent
  simp only [runJob, update, record, wp_bind, wp_get, wp_ensure, wp_modify]
  refine ⟨hstate, of_round hg'.inv (fun job => (hg'.exist _).mpr (h.exist job)) hlog
    (h.handlerDone (by simp [hstate])) hrounds' ?_ ?_ ?_ ?_, List.prefix_append _ _, fun _ => ?_⟩
  · rw [hg'.mem]
    simp
  · rw [hg'.mem, h.done, hstate]
    simp
  · exact fun hdue => absurd ((hg'.mem _).mp hdue).2 hcancel
  · rw [hevents, hpacket]
    exact ⟨List.mem_singleton_self _, by simp, by simp, by simp⟩
  · rw [hstate]
    exact Nat.zero_le _

theorem runRequestcancel (h : Live s) (hdue : requestcancel.address ∈ s.group.due)
    (hg' : TakenOff s requestcancel.address g') :
    wp (runJob .requestcancel) (fun _ s' => Next s s') { s with group := g' } := by
  obtain ⟨hstate, hrequested, hhandler, hnot⟩ := h.cancel hdue
  obtain ⟨r, rs, hrounds, hcurrent⟩ := h.exists_round (hstate ▸ nofun)
  have hr := events_of_busy hstate hcurrent
  have hlog : Orderly (s.log ++ [.cancel]) := h.log.inner hrounds trivial
    ⟨hnot r (hrounds ▸ rfl), hr.1, hr.2.1⟩ nofun
  simp only [runJob, record, wp_bind, wp_get, wp_ensure, wp_modify]
  refine ⟨hstate, hrequested, hhandler, of_round hg'.inv
    (fun job => (hg'.exist _).mpr (h.exist job)) hlog (h.handlerDone (by simp [hstate]))
    (rounds_inner hrounds trivial) ?_ ?_ ?_ ?_, List.prefix_append _ _, fun _ => le_rfl⟩
  · rw [hg'.mem, h.operation, hstate]
    simp
  · rw [hg'.mem, h.done, hstate]
    simp
  · exact fun hdue => absurd rfl ((hg'.mem _).mp hdue).1
  · rw [Current]
    dsimp only
    rw [hstate]
    simp [hr, hrequested]

theorem runDone (h : Live s) (hdue : PassJob.done.address ∈ s.group.due)
    (hg' : TakenOff s PassJob.done.address g') :
    wp (runJob .done) (fun _ s' => Next s s') { s with group := g' } := by
  have hstate := h.done.mp hdue
  have hhandler := h.handlerDone (hstate ▸ nofun)
  have hcancel := h.not_cancel (by simp [hstate])
  obtain ⟨r, rs, hrounds, hcurrent, hlog, hrounds'⟩ := h.inner (e := .done) (hstate ▸ nofun)
    trivial nofun fun r hr => by
      rw [Current, hstate] at hr
      exact hr
  have hnot : .done ∉ r.events := not_done (hstate ▸ nofun) hcurrent
  simp only [runJob, update, record, wp_bind, wp_get, wp_ensure, wp_modify]
  refine ⟨hstate, hhandler, of_round hg'.inv (fun job => (hg'.exist _).mpr (h.exist job)) hlog
    hhandler hrounds' ?_ ?_ ?_ ?_, List.prefix_append _ _, fun _ => ?_⟩
  · rw [hg'.mem, h.operation, hstate]
    simp
  · rw [hg'.mem]
    simp
  · exact fun hdue => absurd ((hg'.mem _).mp hdue).2 hcancel
  · change (r.events ++ [PassEvent.done]).count .done = 1
    rw [List.count_append, List.count_eq_zero_of_not_mem hnot, List.count_singleton_self]
  · rw [hstate]
    exact Nat.le_succ 2

theorem execute (h : Live s) (hjobs : s.group.HasJobs) :
    wp execute (fun _ s' => Next s s') s := by
  obtain ⟨p, rest, hdue⟩ := h.group.exists_due hjobs
  have hfirst : s.group.peekJob = some p := h.group.list.first.trans (congrArg List.head? hdue)
  have hmem : p ∈ s.group.due := hdue ▸ List.mem_cons_self
  simp only [Pass.execute, jobs, wp_bind, wp_get, hfirst, wp_focus]
  refine wp_mono (executeJob_regroups h.group hdue) ?_
  rintro _ g' hg'
  obtain _ | _ | _ | p := p
  · exact h.runOperation hmem hg'
  · exact h.runRequestcancel hmem hg'
  · exact h.runDone hmem hg'
  · change wp (pure ()) _ _
    rw [wp_pure]
    refine h.regroup hg'.inv (fun job => (hg'.exist _).mpr (h.exist job)) fun job => ?_
    rw [hg'.mem, and_iff_right]
    cases job <;> simp only [address] <;> omega

end Live

/-! ### Before `Init` and after `Free` -/

/-- The jobs of the interface do not exist. -/
structure Gone (s : Pass) : Prop where
  group : GroupInv s.group
  gone : ∀ job : PassJob, s.group.pending job.address = none

/-- What the log is after `Free`, as before: nothing comes after `Free`. -/
structure Finished (log : List PassEvent) : Prop where
  proper : ∀ r ∈ rounds log, r.Proper
  answered : ∀ r ∈ (rounds log).tail, r.events.count .done = 1
  freed : History.Always (fun before _ => .freed ∉ before) log

theorem Orderly.always_freed (h : Orderly log) :
    History.Always (fun before _ => .freed ∉ before) log := by
  rintro before e after rfl hmem
  exact h.freed (List.mem_append_left _ hmem)

theorem Orderly.finished (h : Orderly log) : Finished (log ++ [.freed]) := by
  have hfreed : History.Always (fun before _ => .freed ∉ before) (log ++ [PassEvent.freed]) :=
    History.always_concat.mpr ⟨h.always_freed, h.freed⟩
  cases hrounds : rounds log with
  | nil =>
    have hnil : rounds (log ++ [.freed]) = [] := by
      rw [rounds_concat, hrounds]
      rfl
    refine ⟨?_, ?_, hfreed⟩ <;> rw [hnil] <;> exact nofun
  | cons =>
    refine ⟨proper_inner h.proper hrounds trivial trivial, ?_, hfreed⟩
    rw [tail_rounds_inner (e := .freed) hrounds trivial]
    exact h.answered

namespace Gone

theorem not_due (h : Gone s) (job : PassJob) : job.address ∉ s.group.due := fun hdue =>
  h.group.exists_of_mem _ hdue (h.gone job)

theorem other (h : Gone s) {op : JobOp} (hop : OtherAllowed s.group op) :
    wp (jobs (JobWorld.runOp op)) (fun _ s' => Gone s' ∧ s'.log = s.log) s := by
  simp only [jobs, wp_focus]
  refine wp_mono (other_spec h.group hop) ?_
  rintro _ g' ⟨hinv, hsame⟩
  exact ⟨⟨hinv, fun job => (hsame job).1.trans (h.gone job)⟩, trivial⟩

/-- No handler of the interface is called. -/
theorem execute (h : Gone s) (hjobs : s.group.HasJobs) :
    wp execute (fun _ s' => Gone s' ∧ s'.log = s.log) s := by
  obtain ⟨p, rest, hdue⟩ := h.group.exists_due hjobs
  have hfirst : s.group.peekJob = some p := h.group.list.first.trans (congrArg List.head? hdue)
  have hmem : p ∈ s.group.due := hdue ▸ List.mem_cons_self
  simp only [Pass.execute, jobs, wp_bind, wp_get, hfirst, wp_focus]
  refine wp_mono (executeJob_regroups h.group hdue) ?_
  rintro _ g' hg'
  obtain _ | _ | _ | p := p
  · exact absurd hmem (h.not_due .operation)
  · exact absurd hmem (h.not_due .requestcancel)
  · exact absurd hmem (h.not_due .done)
  · change wp (pure ()) _ _
    rw [wp_pure]
    refine ⟨⟨hg'.inv, fun job => ?_⟩, rfl⟩
    exact not_not.mp fun hne => (hg'.exist _).mp hne (h.gone job)

theorem init (h : Gone s) (hlog : s.log = []) {mtu : ℤ} (hmtu : 0 ≤ mtu) :
    wp (init mtu) (fun _ s' => Live s') s := by
  simp only [Pass.init, update, jobs, wp_bind, wp_ensure, wp_modify, wp_focus]
  refine ⟨hmtu, wp_mono (BPendingGroup.init_spec h.group (h.gone .operation)) ?_⟩
  rintro _ g₁ ⟨hinv₁, hlog₁, hself₁, hother₁⟩
  refine wp_mono (BPendingGroup.init_spec hinv₁
    ((hother₁ _ (by decide)).trans (h.gone .requestcancel))) ?_
  rintro _ g₂ ⟨hinv₂, hlog₂, hself₂, hother₂⟩
  refine wp_mono (BPendingGroup.init_spec hinv₂ ((hother₂ _ (by decide)).trans
    ((hother₁ _ (by decide)).trans (h.gone .done)))) ?_
  rintro _ g₃ ⟨hinv₃, hlog₃, hself₃, hother₃⟩
  have hdue : ∀ job : PassJob, job.address ∉ g₃.due := by
    intro job
    rw [BPendingGroup.due, hlog₃, hlog₂, hlog₁]
    exact h.not_due job
  refine ⟨hinv₃, ?_, ?_, fun hne => absurd rfl hne, ?_, ?_, ?_, fun hne => absurd rfl hne, ?_⟩
  · intro job
    cases job with
    | operation =>
      rw [hother₃ _ (by decide), hother₂ _ (by decide), hself₁]
      exact Option.some_ne_none _
    | requestcancel =>
      rw [hother₃ _ (by decide), hself₂]
      exact Option.some_ne_none _
    | done =>
      rw [hself₃]
      exact Option.some_ne_none _
  · rw [hlog]
    exact ⟨fun _ h => absurd h List.not_mem_nil, fun _ h => absurd h List.not_mem_nil,
      List.not_mem_nil⟩
  · exact iff_of_false (hdue .operation) (by simp)
  · exact iff_of_false (hdue .done) (by simp)
  · exact fun hmem => absurd hmem (hdue .requestcancel)
  · rw [hlog]
    exact fun r h => absurd h (by simp [rounds])

end Gone

theorem Live.free (h : Live s) :
    wp free (fun _ s' => Gone s' ∧ Finished s'.log) s := by
  simp only [Pass.free, record, jobs, wp_bind, wp_modify, wp_focus]
  refine wp_mono (BPendingGroup.free_spec h.group (h.exist .done)) ?_
  rintro _ g₁ ⟨hdid₁, hself₁⟩
  have hexist₁ : g₁.pending requestcancel.address ≠ none :=
    ne_of_eq_of_ne (hdid₁.other _ (by decide)) (h.exist .requestcancel)
  refine wp_mono (BPendingGroup.free_spec hdid₁.inv hexist₁) ?_
  rintro _ g₂ ⟨hdid₂, hself₂⟩
  have hexist₂ : g₂.pending PassJob.operation.address ≠ none :=
    ne_of_eq_of_ne ((hdid₂.other _ (by decide)).trans (hdid₁.other _ (by decide)))
      (h.exist .operation)
  refine wp_mono (BPendingGroup.free_spec hdid₂.inv hexist₂) ?_
  rintro _ g₃ ⟨hdid₃, hself₃⟩
  refine ⟨⟨hdid₃.inv, fun job => ?_⟩, h.log.finished⟩
  cases job with
  | operation => exact hself₃
  | requestcancel => exact (hdid₃.other _ (by decide)).trans hself₂
  | done => exact (hdid₃.other _ (by decide)).trans ((hdid₂.other _ (by decide)).trans hself₁)

end Tun2Socks.Flow
