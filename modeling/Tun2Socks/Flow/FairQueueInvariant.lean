import Tun2Socks.Flow.FairQueueSteps

/-!
# The steps of the fair queue keep its invariant

One lemma for each effect. The two that are not bookkeeping are these:

* `AtOutput.queued` — a flow that queues a packet is raised to the current time, so the flow whose
  packet is at the output keeps the least time of all;
* `Shape.finished` — when times are lowered, those in the tree are all lowered by the same amount,
  which is at most the least of them, so the tree stays in order.
-/

namespace Tun2Socks.Flow.FairQueue

open Framework PacketPassFairQueue Function

variable {cfg : FairQueueConfig} {m m' : PacketPassFairQueue} {a b : ℕ}
  {f g : PacketPassFairQueueFlow}

/-- A flow is written, with its place in the queue as it was. -/
theorem Core.put (h : Core cfg m) (hflow : m.flows a = some f) (htime : g.time = f.time)
    (hqueued : g.isQueued = f.isQueued) (hdata : g.data = f.data)
    (hphase : Phase cfg g (decide (m.sendingFlow = some a))) : Core cfg (m.put a g) where
  toShape := h.toShape.put hflow htime hqueued hdata
  phase := by
    intro b f' hb
    by_cases hba : b = a
    · subst hba
      obtain rfl := Option.some.inj (put_flows_self.symm.trans hb)
      exact hphase
    · rw [put_flows_of_ne hba] at hb
      exact h.phase b f' hb
  output := by
    intro b f' hsending hb
    by_cases hba : b = a
    · subst hba
      obtain rfl := Option.some.inj (put_flows_self.symm.trans hb)
      rw [hdata]
      exact h.output _ f hsending hflow
    · rw [put_flows_of_ne hba] at hb
      exact h.output b f' hsending hb
  freed := h.freed

theorem Inv.put (h : Inv cfg m) (hflow : m.flows a = some f) (htime : g.time = f.time)
    (hqueued : g.isQueued = f.isQueued) (hdata : g.data = f.data)
    (hphase : Phase cfg g (decide (m.sendingFlow = some a))) : Inv cfg (m.put a g) :=
  ⟨h.toCore.put hflow htime hqueued hdata hphase, h.waiting⟩

/-- The flows other than the one that is written. -/
theorem queued_flows_self {data : Packet} {tree : List ℕ} :
    (m.queued a f data tree).flows a = some { f with
      input := .busy data
      time := m.raised a f
      data
      isQueued := true } := update_self _ _ _

theorem queued_flows_of_ne {data : Packet} {tree : List ℕ} (h : b ≠ a) :
    (m.queued a f data tree).flows b = m.flows b := update_of_ne h _ _

theorem queued_flowTime_of_ne {data : Packet} {tree : List ℕ} (h : b ≠ a) :
    (m.queued a f data tree).flowTime b = m.flowTime b := by
  rw [flowTime, flowTime, queued_flows_of_ne h]

section Queued

variable {data : Packet} {tree : List ℕ}

/-- The flow gets at least the current time, so it does not come before the flow whose packet is at
the output. -/
theorem AtOutput.queued (h : AtOutput m b) (hsending : m.sendingFlow = some b) (hba : b ≠ a)
    (hmem : ∀ c ∈ tree, c = a ∨ c ∈ m.queuedTree) : AtOutput (m.queued a f data tree) b where
  previous := by
    change (if m.previousFlow = some a then none else m.previousFlow) = none
    rw [h.previous]
    exact ite_self _
  job := h.job
  flow := by
    rw [queued_flows_of_ne hba]
    exact h.flow
  least := by
    intro c hc
    rw [queued_flowTime_of_ne hba]
    by_cases hca : c = a
    · subst hca
      have hraised : m.raised c f = max f.time (m.flowTime b) := by
        rw [raised, h.previous, now_of_sending hsending]
        exact if_neg nofun
      rw [flowTime_of queued_flows_self]
      dsimp only
      rw [hraised]
      exact Nat.le_max_right _ _
    · rw [queued_flowTime_of_ne hca]
      exact h.least c ((hmem c hc).resolve_left hca)

theorem Shape.queued (h : Shape cfg m) (hflow : m.flows a = some f) (hqueued : f.isQueued = false)
    (hsending : m.sendingFlow ≠ some a)
    (hinsert : InOrder.insert compareFlows (m.queued a f data m.queuedTree).key a m.queuedTree
      = some tree) : Shape cfg (m.queued a f data tree) := by
  have hmem {b : ℕ} : b ∈ tree ↔ b = a ∨ b ∈ m.queuedTree := InOrder.mem_insert hinsert
  refine {
    nodup := h.nodup
    mem_list := fun b => (h.mem_list b).trans ?_
    mem_tree := fun b => hmem.trans ?_
    ordered := InOrder.ordered_insert hinsert (h.ordered.congr fun b hb => ?_)
    time := fun b f' hb => ?_
    idle := h.idle
    atOutput := fun b hb => ?_
    previous := fun b hb => ?_ }
  · by_cases hba : b = a
    · subst hba
      rw [queued_flows_self, hflow]
      exact iff_of_true nofun nofun
    · rw [queued_flows_of_ne hba]
  · by_cases hba : b = a
    · subst hba
      exact iff_of_true (.inl rfl) ⟨_, queued_flows_self, rfl⟩
    · rw [queued_flows_of_ne hba, or_iff_right hba]
      exact h.mem_tree b
  · -- the flow was not in the tree, so the keys in it are what they were
    have hba : b ≠ a := by
      rintro rfl
      exact h.not_mem_tree hflow hqueued hb
    rw [key, key, queued_flowTime_of_ne hba]
  · by_cases hba : b = a
    · subst hba
      obtain rfl := Option.some.inj (queued_flows_self.symm.trans hb)
      dsimp only
      rw [raised]
      split_ifs
      · exact h.time _ f hflow
      · exact Nat.max_le.mpr ⟨h.time _ f hflow, h.now_le⟩
    · rw [queued_flows_of_ne hba] at hb
      exact h.time b f' hb
  · refine (h.atOutput b hb).queued hb ?_ fun c hc => hmem.mp hc
    rintro rfl
    exact hsending hb
  · have hprev : (if m.previousFlow = some a then none else m.previousFlow) = some b := hb
    split_ifs at hprev with his
    have hba : b ≠ a := by
      rintro rfl
      exact his hprev
    rw [queued_flows_of_ne hba]
    exact h.previous b hprev

/-- **A packet is queued.** -/
theorem Core.queued (h : Core cfg m) (hflow : m.flows a = some f)
    (hinput : f.input = .operationPending data)
    (hinsert : InOrder.insert compareFlows (m.queued a f data m.queuedTree).key a m.queuedTree
      = some tree) : Core cfg (m.queued a f data tree) := by
  obtain ⟨hsending, hlen, hqueued, hsubmitted, hpassed⟩ :=
    (h.phase a f hflow).of_pending hinput
  have hnot : m.sendingFlow ≠ some a := of_decide_eq_false hsending
  refine {
    toShape := h.toShape.queued hflow hqueued hnot hinsert
    phase := fun b f' hb => ?_
    output := fun b f' hb hf' => ?_
    freed := h.freed }
  · by_cases hba : b = a
    · subst hba
      obtain rfl := Option.some.inj (queued_flows_self.symm.trans hb)
      change Phase cfg _ (decide (m.sendingFlow = some b))
      rw [hsending]
      exact .queued rfl hlen rfl hsubmitted hpassed
    · rw [queued_flows_of_ne hba] at hb
      exact h.phase b f' hb
  · have hba : b ≠ a := by
      rintro rfl
      exact hnot hb
    rw [queued_flows_of_ne hba] at hf'
    exact h.output b f' hb hf'

end Queued

section Scheduled

variable {rest : List ℕ}

theorem scheduled_flows_self : (m.scheduled a f rest).flows a = some { f with
    isQueued := false
    passed := f.passed ++ [f.data] } := update_self _ _ _

theorem scheduled_flows_of_ne (h : b ≠ a) : (m.scheduled a f rest).flows b = m.flows b :=
  update_of_ne h _ _

theorem scheduled_flowTime (hflow : m.flows a = some f) :
    (m.scheduled a f rest).flowTime = m.flowTime := flowTime_put hflow rfl

theorem Shape.scheduled (h : Shape cfg m) (hjob : m.scheduleJob = false)
    (hprevious : m.previousFlow = none) (htree : m.queuedTree = a :: rest)
    (hflow : m.flows a = some f) : Shape cfg (m.scheduled a f rest) := by
  have htimes : (m.scheduled a f rest).flowTime = m.flowTime := scheduled_flowTime hflow
  have hnodup : (a :: rest).Nodup := htree ▸ h.ordered.nodup
  have hordered := h.ordered
  rw [htree] at hordered
  refine {
    nodup := h.nodup
    mem_list := fun b => (h.mem_list b).trans ?_
    mem_tree := fun b => ?_
    ordered := ?_
    time := fun b f' hb => ?_
    idle := nofun
    atOutput := fun b hb => ?_
    previous := fun b hb => absurd (hprevious.symm.trans hb) nofun }
  · by_cases hba : b = a
    · subst hba
      rw [scheduled_flows_self, hflow]
      exact iff_of_true nofun nofun
    · rw [scheduled_flows_of_ne hba]
  · by_cases hba : b = a
    · subst hba
      refine iff_of_false (List.nodup_cons.mp hnodup).1 ?_
      rintro ⟨f', hf', hqueued⟩
      obtain rfl := Option.some.inj (scheduled_flows_self.symm.trans hf')
      exact Bool.false_ne_true hqueued
    · rw [scheduled_flows_of_ne hba, ← h.mem_tree b, htree, List.mem_cons, or_iff_right hba]
      exact Iff.rfl
  · rw [key_eq_of_flowTime htimes]
    exact (List.pairwise_cons.mp hordered).2
  · by_cases hba : b = a
    · subst hba
      obtain rfl := Option.some.inj (scheduled_flows_self.symm.trans hb)
      exact h.time _ f hflow
    · rw [scheduled_flows_of_ne hba] at hb
      exact h.time b f' hb
  · cases hb
    refine ⟨hprevious, hjob, ⟨_, scheduled_flows_self, rfl, rfl⟩, fun c hc => ?_⟩
    rw [htimes]
    exact h.head_least htree c (htree ▸ List.mem_cons_of_mem a hc)

/-- **A packet is passed to the output.** -/
theorem Core.scheduled (h : Core cfg m) (hsending : m.sendingFlow = none)
    (hjob : m.scheduleJob = false) (hprevious : m.previousFlow = none)
    (htree : m.queuedTree = a :: rest) (hflow : m.flows a = some f) :
    Inv cfg (m.scheduled a f rest) := by
  have hqueued : f.isQueued = true := by
    obtain ⟨f', hf', hqueued⟩ := (h.mem_tree a).mp (htree ▸ List.mem_cons_self)
    obtain rfl := Option.some.inj (hflow.symm.trans hf')
    exact hqueued
  obtain ⟨-, hinput, hlen, hsubmitted, hpassed⟩ := (h.phase a f hflow).of_queued hqueued
  refine {
    toShape := h.toShape.scheduled hjob hprevious htree hflow
    phase := fun b f' hb => ?_
    output := fun b f' hb hf' => ?_
    freed := h.freed
    waiting := fun _ => .inl nofun }
  · by_cases hba : b = a
    · subst hba
      obtain rfl := Option.some.inj (scheduled_flows_self.symm.trans hb)
      change Phase cfg _ (decide (some b = some b))
      rw [decide_eq_true rfl]
      exact .sending hinput hlen rfl hsubmitted (congrArg (· ++ [f.data]) hpassed)
    · rw [scheduled_flows_of_ne hba] at hb
      have hphase := h.phase b f' hb
      rw [hsending] at hphase
      change Phase cfg f' (decide (some a = some b))
      rw [decide_eq_false fun heq => hba (Option.some.inj heq).symm]
      exact hphase
  · cases hb
    obtain rfl := Option.some.inj (scheduled_flows_self.symm.trans hf')
    exact .inl (.inl rfl)

end Scheduled

section Finished

variable {amount shift : ℕ}

theorem finished_flows_self : (m.finished a f amount shift).flows a = some { f with
    time := f.time + amount - shift
    handlerBusy := false
    input := .donePending ()
    completed := f.completed ++ [f.data] } := by
  dsimp only [PacketPassFairQueue.finished]
  rw [update_self]

theorem finished_flows_of_ne (h : b ≠ a) : (m.finished a f amount shift).flows b
    = (m.flows b).map fun g => { g with time := g.time - shift } := by
  dsimp only [PacketPassFairQueue.finished]
  rw [update_of_ne h]

theorem finished_flowTime_of_ne (h : b ≠ a) :
    (m.finished a f amount shift).flowTime b = m.flowTime b - shift := by
  rw [flowTime, flowTime, finished_flows_of_ne h]
  cases m.flows b with
  | none => exact (Nat.zero_sub shift).symm
  | some => rfl

/-- Times that are lowered alike compare alike. -/
theorem compareFlows_sub {t u : ℕ} (ht : shift ≤ t) (hu : shift ≤ u)
    (h : compareFlows (t, a) (u, b) = .lt) :
    compareFlows (t - shift, a) (u - shift, b) = .lt := by
  rw [compareFlows_eq_lt] at h ⊢
  dsimp only at h ⊢
  omega

theorem Shape.finished (h : Shape cfg m) (hsending : m.sendingFlow = some a)
    (hflow : m.flows a = some f) (hshift : ∀ b ∈ m.queuedTree, shift ≤ m.flowTime b)
    (hmax : f.time + amount - shift ≤ cfg.maxTime) : Shape cfg (m.finished a f amount shift) := by
  obtain ⟨f', hf', hqueued, -⟩ := (h.atOutput a hsending).flow
  obtain rfl := Option.some.inj (hflow.symm.trans hf')
  have hne {b : ℕ} (hb : b ∈ m.queuedTree) : b ≠ a := by
    rintro rfl
    exact h.not_mem_tree hflow hqueued hb
  refine {
    nodup := h.nodup
    mem_list := fun b => (h.mem_list b).trans ?_
    mem_tree := fun b => ?_
    ordered := ?_
    time := fun b g hb => ?_
    idle := fun _ => rfl
    atOutput := nofun
    previous := fun b hb => ?_ }
  · by_cases hba : b = a
    · subst hba
      rw [finished_flows_self, hflow]
      exact iff_of_true nofun nofun
    · rw [finished_flows_of_ne hba, Ne, Ne, Option.map_eq_none_iff]
  · by_cases hba : b = a
    · subst hba
      refine iff_of_false (h.not_mem_tree hflow hqueued) ?_
      rintro ⟨g, hg, hg_queued⟩
      obtain rfl := Option.some.inj (finished_flows_self.symm.trans hg)
      rw [hqueued] at hg_queued
      exact Bool.false_ne_true hg_queued
    · rw [finished_flows_of_ne hba]
      refine (h.mem_tree b).trans ⟨?_, ?_⟩
      · rintro ⟨g, hg, hg_queued⟩
        exact ⟨_, Option.map_eq_some_iff.mpr ⟨g, hg, rfl⟩, hg_queued⟩
      · rintro ⟨_, hlowered, hg_queued⟩
        obtain ⟨g, hg, rfl⟩ := Option.map_eq_some_iff.mp hlowered
        exact ⟨g, hg, hg_queued⟩
  · -- the times of the flows in the tree are all lowered by the same amount
    refine List.Pairwise.imp_of_mem ?_ h.ordered
    intro b c hb hc hlt
    rw [key, key, finished_flowTime_of_ne (hne hb), finished_flowTime_of_ne (hne hc)]
    exact compareFlows_sub (hshift b hb) (hshift c hc) hlt
  · by_cases hba : b = a
    · subst hba
      obtain rfl := Option.some.inj (finished_flows_self.symm.trans hb)
      exact hmax
    · rw [finished_flows_of_ne hba] at hb
      obtain ⟨g, hg, rfl⟩ := Option.map_eq_some_iff.mp hb
      exact (Nat.sub_le _ _).trans (h.time b g hg)
  · cases hb
    exact ⟨rfl, _, finished_flows_self, hqueued⟩

/-- **The output is done with a packet.** -/
theorem Core.finished (h : Core cfg m) (hsending : m.sendingFlow = some a)
    (hflow : m.flows a = some f) (hshift : ∀ b ∈ m.queuedTree, shift ≤ m.flowTime b)
    (hmax : f.time + amount - shift ≤ cfg.maxTime) : Inv cfg (m.finished a f amount shift) := by
  refine {
    toShape := h.toShape.finished hsending hflow hshift hmax
    phase := fun b g hb => ?_
    output := nofun
    freed := h.freed
    waiting := fun _ => .inr rfl }
  change Phase cfg g false
  by_cases hba : b = a
  · subst hba
    obtain rfl := Option.some.inj (finished_flows_self.symm.trans hb)
    have hphase := h.phase b f hflow
    rw [decide_eq_true hsending] at hphase
    cases hphase with
    | sending _ _ hqueued hsubmitted hpassed =>
      exact .idle (.inr rfl) hqueued hsubmitted hpassed
  · rw [finished_flows_of_ne hba] at hb
    obtain ⟨g, hg, rfl⟩ := Option.map_eq_some_iff.mp hb
    have hphase := h.phase b g hg
    rw [hsending, decide_eq_false fun heq => hba (Option.some.inj heq).symm] at hphase
    exact hphase.withTime _ _

end Finished

section Freed

theorem freedFlow_flows_self : (m.freedFlow a f).flows a = none := update_self _ _ _

theorem freedFlow_flows_of_ne (h : b ≠ a) : (m.freedFlow a f).flows b = m.flows b :=
  update_of_ne h _ _

theorem freedFlow_flowTime_of_ne (h : b ≠ a) : (m.freedFlow a f).flowTime b = m.flowTime b := by
  rw [flowTime, flowTime, freedFlow_flows_of_ne h]

theorem freedFlow_previous (h : (m.freedFlow a f).previousFlow = some b) :
    b ≠ a ∧ m.previousFlow = some b := by
  have hprev : (if m.previousFlow = some a then none else m.previousFlow) = some b := h
  split_ifs at hprev with his
  refine ⟨?_, hprev⟩
  rintro rfl
  exact his hprev

theorem Shape.mem_erase_tree (h : Shape cfg m) : b ∈ m.queuedTree.erase a ↔ b ≠ a ∧ b ∈ m.queuedTree :=
  h.ordered.nodup.mem_erase_iff

theorem Shape.freedFlow (h : Shape cfg m) (hsending : m.sendingFlow ≠ some a) :
    Shape cfg (m.freedFlow a f) := by
  refine {
    nodup := h.nodup.erase a
    mem_list := fun b => h.nodup.mem_erase_iff.trans ?_
    mem_tree := fun b => h.mem_erase_tree.trans ?_
    ordered := (h.ordered.erase a).congr fun b hb => ?_
    time := fun b g hb => ?_
    idle := h.idle
    atOutput := fun b hb => ?_
    previous := fun b hb => ?_ }
  · by_cases hba : b = a
    · subst hba
      rw [freedFlow_flows_self]
      exact iff_of_false (fun hb => hb.1 rfl) (fun hb => hb rfl)
    · rw [freedFlow_flows_of_ne hba, ← h.mem_list b]
      exact and_iff_right hba
  · by_cases hba : b = a
    · subst hba
      rw [freedFlow_flows_self]
      refine iff_of_false (fun hb => hb.1 rfl) ?_
      rintro ⟨_, hg, -⟩
      cases hg
    · rw [freedFlow_flows_of_ne hba, ← h.mem_tree b]
      exact and_iff_right hba
  · rw [key, key, freedFlow_flowTime_of_ne (h.mem_erase_tree.mp hb).1]
  · by_cases hba : b = a
    · subst hba
      rw [freedFlow_flows_self] at hb
      cases hb
    · rw [freedFlow_flows_of_ne hba] at hb
      exact h.time b g hb
  · have hba : b ≠ a := by
      rintro rfl
      exact hsending hb
    have hat := h.atOutput b hb
    refine ⟨?_, hat.job, ?_, fun c hc => ?_⟩
    · change (if m.previousFlow = some a then none else m.previousFlow) = none
      rw [hat.previous]
      exact ite_self _
    · rw [freedFlow_flows_of_ne hba]
      exact hat.flow
    · obtain ⟨hca, hc⟩ := h.mem_erase_tree.mp hc
      rw [freedFlow_flowTime_of_ne hba, freedFlow_flowTime_of_ne hca]
      exact hat.least c hc
  · obtain ⟨hba, hprev⟩ := freedFlow_previous hb
    rw [freedFlow_flows_of_ne hba]
    exact h.previous b hprev

/-- **A flow is freed.** -/
theorem Inv.freedFlow (h : Inv cfg m) (hflow : m.flows a = some f)
    (hsending : m.sendingFlow ≠ some a) : Inv cfg (m.freedFlow a f) := by
  refine {
    toShape := h.toShape.freedFlow hsending
    phase := fun b g hb => ?_
    output := fun b g hb hg => ?_
    freed := fun g hg => ?_
    waiting := fun htree => h.waiting fun hnil => htree ?_ }
  · by_cases hba : b = a
    · subst hba
      rw [freedFlow_flows_self] at hb
      cases hb
    · rw [freedFlow_flows_of_ne hba] at hb
      exact h.phase b g hb
  · have hba : b ≠ a := by
      rintro rfl
      exact hsending hb
    rw [freedFlow_flows_of_ne hba] at hg
    exact h.output b g hb hg
  · obtain rfl | hg := List.mem_cons.mp hg
    · have hphase := h.phase a g hflow
      rw [decide_eq_false hsending] at hphase
      exact hphase.ended
    · exact h.freed g hg
  · change m.queuedTree.erase a = []
    rw [hnil]
    rfl

end Freed

/-- A flow is made. -/
theorem Inv.flowInit (h : Inv cfg m) (hnone : m.flows a = none) :
    Inv cfg { m.put a ⟨false, .none, 0, false, [], [], [], []⟩ with
      flowsList := m.flowsList ++ [a] } := by
  let m₁ := m.put a ⟨false, .none, 0, false, [], [], [], []⟩
  have hself : m₁.flows a = some ⟨false, .none, 0, false, [], [], [], []⟩ := put_flows_self
  have hne {b : ℕ} {f : PacketPassFairQueueFlow} (hb : m.flows b = some f) : b ≠ a := by
    rintro rfl
    rw [hnone] at hb
    cases hb
  -- a flow that is not there has the time zero, too
  have htimes : m₁.flowTime = m.flowTime := by
    funext b
    by_cases hba : b = a
    · subst hba
      rw [flowTime_of hself, flowTime, hnone]
    · rw [flowTime, flowTime, put_flows_of_ne hba]
  have hkeep {b : ℕ} {P : PacketPassFairQueueFlow → Prop}
      (hb : ∃ f, m.flows b = some f ∧ P f) : ∃ f, m₁.flows b = some f ∧ P f := by
    obtain ⟨f, hf, hP⟩ := hb
    exact ⟨f, (put_flows_of_ne (hne hf)).trans hf, hP⟩
  refine {
    nodup := ?_
    mem_list := fun b => ?_
    mem_tree := fun b => (h.mem_tree b).trans ⟨hkeep, ?_⟩
    ordered := ?_
    time := fun b f hb => ?_
    idle := h.idle
    atOutput := fun b hb => ?_
    previous := fun b hb => (h.previous b hb).imp_right hkeep
    phase := fun b f hb => ?_
    output := fun b f hb hf => ?_
    freed := h.freed
    waiting := h.waiting }
  · refine List.nodup_append.mpr ⟨h.nodup, List.nodup_singleton a, fun b hb c hc => ?_⟩
    obtain rfl := List.mem_singleton.mp hc
    rintro rfl
    exact (h.mem_list b).mp hb hnone
  · rw [List.mem_append, List.mem_singleton, h.mem_list b]
    by_cases hba : b = a
    · subst hba
      exact iff_of_true (.inr rfl) (hself ▸ by simp)
    · rw [or_iff_left hba]
      exact not_congr (Eq.congr_left (put_flows_of_ne hba).symm)
  · rintro ⟨f, hf, hqueued⟩
    by_cases hba : b = a
    · subst hba
      obtain rfl := Option.some.inj (hself.symm.trans hf)
      cases hqueued
    · exact ⟨f, (put_flows_of_ne hba).symm.trans hf, hqueued⟩
  · change InOrder.Ordered compareFlows m₁.key m.queuedTree
    rw [key_eq_of_flowTime htimes]
    exact h.ordered
  · by_cases hba : b = a
    · subst hba
      obtain rfl := Option.some.inj (hself.symm.trans hb)
      exact Nat.zero_le _
    · exact h.time b f ((put_flows_of_ne hba).symm.trans hb)
  · have hat := h.atOutput b hb
    refine ⟨hat.previous, hat.job, hkeep hat.flow, ?_⟩
    change ∀ c ∈ m.queuedTree, m₁.flowTime b ≤ m₁.flowTime c
    rw [htimes]
    exact hat.least
  · by_cases hba : b = a
    · subst hba
      obtain rfl := Option.some.inj (hself.symm.trans hb)
      have hsending : m.sendingFlow ≠ some b := by
        intro hsending
        obtain ⟨f, hf, -⟩ := (h.atOutput b hsending).flow
        exact hne hf rfl
      change Phase cfg _ (decide (m.sendingFlow = some b))
      rw [decide_eq_false hsending]
      exact .idle (.inl rfl) rfl rfl rfl
    · exact h.phase b f ((put_flows_of_ne hba).symm.trans hb)
  · by_cases hba : b = a
    · subst hba
      obtain ⟨f', hf', -⟩ := (h.atOutput b hb).flow
      exact absurd rfl (hne hf')
    · exact h.output b f hb ((put_flows_of_ne hba).symm.trans hf)

/-- Nothing is at the output while no flow is sending. -/
theorem Shape.sending_ne_none (h : Shape cfg m) (houtput : m.output ≠ .none) : m.sendingFlow ≠ none :=
  fun hnone => houtput (h.idle hnone)

/-- The output goes on with its packet. -/
theorem Inv.withOutput (h : Inv cfg m) {output : Interface Packet Unit} (hbusy : m.output ≠ .none)
    (houtput : ∀ data, m.output.Started data ∨ m.output = .donePending () →
      output.Started data ∨ output = .donePending ()) : Inv cfg { m with output } where
  nodup := h.nodup
  mem_list := h.mem_list
  mem_tree := h.mem_tree
  ordered := h.ordered
  time := h.time
  idle := fun hnone => absurd hnone (h.sending_ne_none hbusy)
  atOutput := fun a ha =>
    have hat := h.atOutput a ha
    ⟨hat.previous, hat.job, hat.flow, hat.least⟩
  previous := h.previous
  phase := h.phase
  output := fun a f ha hf => houtput f.data (h.output a f ha hf)
  freed := h.freed
  waiting := h.waiting

theorem Rescheduled.inv (hnext : Rescheduled m m') (h : Core cfg m) : Inv cfg m' := by
  cases hnext with
  | later hlater =>
    refine ⟨h, fun htree => ?_⟩
    obtain hsending | hjob | hnil := hlater
    · exact .inl hsending
    · exact .inr hjob
    · exact absurd hnil htree
  | now _ _ _ hsending hjob hprevious htree hflow =>
    exact h.scheduled hsending hjob hprevious htree hflow

/-- The schedule job forgets the flow whose packet was sent last. -/
theorem Core.forget (h : Core cfg m) (hsending : m.sendingFlow = none) :
    Core cfg { m with scheduleJob := false, previousFlow := none } where
  nodup := h.nodup
  mem_list := h.mem_list
  mem_tree := h.mem_tree
  ordered := h.ordered
  time := h.time
  idle := h.idle
  atOutput := fun _ ha => absurd (hsending.symm.trans ha) nofun
  previous := nofun
  phase := h.phase
  output := h.output
  freed := h.freed

/-- **Every step keeps the invariant.** -/
theorem Step.inv {l : FairQueueLabel} (hstep : Step cfg m l m') (h : Inv cfg m) : Inv cfg m' := by
  cases hstep with
  | flowInit _ hflow => exact h.flowInit hflow
  | submit a f data hflow hinput hlen =>
    obtain ⟨hsending, hqueued, hsubmitted, hpassed⟩ :=
      (h.phase a f hflow).of_idle (.inl hinput)
    refine h.put hflow rfl rfl rfl ?_
    rw [hsending]
    exact .pending data rfl hlen hqueued (congrArg (· ++ [data]) hsubmitted) hpassed
  | inputOperation _ _ _ _ _ hflow hinput hinsert hnext =>
    exact hnext.inv (h.toCore.queued hflow hinput hinsert)
  | inputDone a f hflow hinput =>
    obtain ⟨hsending, hqueued, hsubmitted, hpassed⟩ :=
      (h.phase a f hflow).of_idle (.inr hinput)
    refine h.put hflow rfl rfl rfl ?_
    rw [hsending]
    exact .idle (.inl rfl) hqueued hsubmitted hpassed
  | outputOperation _ houtput =>
    refine h.withOutput (houtput ▸ nofun) fun data' hdata => ?_
    rw [houtput] at hdata
    obtain (hstarted | hstarted) | hdone := hdata
    · exact .inl (.inr (congrArg Interface.busy (Interface.operationPending.inj hstarted)))
    · cases hstarted
    · cases hdone
  | outputFinish _ houtput =>
    exact h.withOutput (houtput ▸ nofun) fun _ _ => .inr rfl
  | outputDone _ _ _ _ _ hsending hflow hshift _ hmax hnext =>
    have hfinished := h.toCore.finished hsending hflow hshift hmax
    obtain rfl | ⟨g, hg, rfl⟩ := hnext
    · exact hfinished
    · exact hfinished.freedFlow hg nofun
  | scheduleJob _ _ hsending hnext => exact hnext.inv (h.toCore.forget hsending)
  | setBusyHandler a f hflow =>
    exact h.put hflow rfl rfl rfl ((h.phase a f hflow).withTime f.time true)
  | flowFree _ _ hflow hsending => exact h.freedFlow hflow hsending

end Tun2Socks.Flow.FairQueue
