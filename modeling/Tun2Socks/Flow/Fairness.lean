import Tun2Socks.Flow.FairQueueDelivery

/-!
# How fair the fair queue is

While two flows are both backlogged, what the output has completed for one should not run ahead of
the other by more than two packets of full size with their weight. Two facts give this:

* `Step.drift` — of the flows that stay backlogged, every step keeps the time less what was
  completed, up to an amount that is the same for all;
* `Level` — the times of backlogged flows differ by at most one packet of full size.

The second is not true of all runs. A flow that becomes backlogged is raised to the current time,
but it is never lowered: when the queue is idle the current time is zero, and a flow that was busy
before that keeps its time while the others start from zero (`starved_after_idle`). The output then
serves the others until they have caught up. So `Level` is shown for the runs in which a flow that
becomes backlogged while others are is at most one packet ahead of the current time
(`NotAhead`), and the bound for these (`completed_differ_le`).
-/

namespace Tun2Socks.Flow.FairQueue

open Framework PacketPassFairQueue

variable {cfg : FairQueueConfig} {m m' : PacketPassFairQueue} {a b : ℕ}
  {f g : PacketPassFairQueueFlow} {w w' : FairQueueWorld} {l : FairQueueLabel}

/-! ### Backlogged flows -/

/-- The flow has a packet queued or at the output, or the schedule job has not run since its last
one. -/
def Backlogged (m : PacketPassFairQueue) (a : ℕ) : Prop :=
  a ∈ m.queuedTree ∨ m.sendingFlow = some a ∨ m.previousFlow = some a

/-- What a packet costs its flow at most. -/
def fullCost (cfg : FairQueueConfig) : ℕ := cfg.mtu + cfg.packetWeight

/-- What the packets that were completed on the flow have cost, each its length and the weight. -/
def completedCost (cfg : FairQueueConfig) (m : PacketPassFairQueue) (a : ℕ) : ℕ :=
  match m.flows a with
  | none => 0
  | some f => (f.completed.map fun data => data.length + cfg.packetWeight).sum

/-- The times of backlogged flows differ by at most one packet. -/
def Level (cfg : FairQueueConfig) (m : PacketPassFairQueue) : Prop :=
  ∀ a b, Backlogged m a → Backlogged m b → m.flowTime a ≤ m.flowTime b + fullCost cfg

theorem completedCost_of (h : m.flows a = some f) :
    completedCost cfg m a = (f.completed.map fun data => data.length + cfg.packetWeight).sum := by
  rw [completedCost, h]

theorem completedCost_congr (h : m'.flows a = m.flows a) :
    completedCost cfg m' a = completedCost cfg m a := by
  rw [completedCost, completedCost, h]

theorem flowTime_congr (h : m'.flows a = m.flows a) : m'.flowTime a = m.flowTime a := by
  rw [flowTime, flowTime, h]

/-- A backlogged flow is there. -/
theorem Shape.flow_of_backlogged (h : Shape cfg m) (ha : Backlogged m a) :
    ∃ f, m.flows a = some f := by
  obtain htree | hsending | hprevious := ha
  · obtain ⟨f, hflow, -⟩ := (h.mem_tree a).mp htree
    exact ⟨f, hflow⟩
  · obtain ⟨f, hflow, -⟩ := (h.atOutput a hsending).flow
    exact ⟨f, hflow⟩
  · obtain ⟨-, f, hflow, -⟩ := h.previous a hprevious
    exact ⟨f, hflow⟩

/-- No backlogged flow is behind the current time. -/
theorem Shape.now_le_of_backlogged (h : Shape cfg m) (ha : Backlogged m a) :
    m.now ≤ m.flowTime a := by
  cases hsending : m.sendingFlow with
  | some b =>
    rw [now_of_sending hsending]
    obtain htree | hsame | hprevious := ha
    · exact (h.atOutput b hsending).least a htree
    · rw [Option.some.inj (hsending.symm.trans hsame)]
    · rw [(h.atOutput b hsending).previous] at hprevious
      cases hprevious
  | none =>
    have htree (ha : a ∈ m.queuedTree) : ∃ b, m.queuedTree.head? = some b ∧
        m.flowTime b ≤ m.flowTime a := by
      obtain ⟨b, rest, heq⟩ := List.exists_cons_of_ne_nil (List.ne_nil_of_mem ha)
      exact ⟨b, by rw [heq]; rfl, h.head_least heq a ha⟩
    rw [now, hsending]
    dsimp only
    obtain ha | hsame | hprevious := ha
    · obtain ⟨b, hhead, hle⟩ := htree ha
      rw [hhead]
      cases m.previousFlow with
      | none => exact hle
      | some => exact (Nat.min_le_right _ _).trans hle
    · rw [hsending] at hsame
      cases hsame
    · rw [hprevious]
      cases m.queuedTree.head? with
      | none => exact le_rfl
      | some => exact Nat.min_le_left _ _

/-- The current time is that of a backlogged flow, unless there is none. -/
theorem exists_now (h : m.queuedTree ≠ [] ∨ m.sendingFlow ≠ none ∨ m.previousFlow ≠ none) :
    ∃ a, Backlogged m a ∧ m.now = m.flowTime a := by
  cases hsending : m.sendingFlow with
  | some a => exact ⟨a, .inr (.inl hsending), now_of_sending hsending⟩
  | none =>
    rw [now, hsending]
    dsimp only
    cases hhead : m.queuedTree.head? with
    | none =>
      cases hprevious : m.previousFlow with
      | none =>
        obtain h | h | h := h
        · exact absurd (List.head?_eq_none_iff.mp hhead) h
        · exact absurd hsending h
        · exact absurd hprevious h
      | some p => exact ⟨p, .inr (.inr hprevious), rfl⟩
    | some b =>
      have hb : b ∈ m.queuedTree := List.mem_of_head? hhead
      cases hprevious : m.previousFlow with
      | none => exact ⟨b, .inl hb, rfl⟩
      | some p =>
        obtain hmin | hmin := min_choice (m.flowTime p) (m.flowTime b)
        · exact ⟨p, .inr (.inr hprevious), hmin⟩
        · exact ⟨b, .inl hb, hmin⟩

/-! ### One step -/

/-- The flow has the same time, and no more of its packets are completed. -/
def Kept (cfg : FairQueueConfig) (m m' : PacketPassFairQueue) (a : ℕ) : Prop :=
  m'.flowTime a = m.flowTime a ∧ completedCost cfg m' a = completedCost cfg m a

theorem Kept.trans {n : PacketPassFairQueue} (h : Kept cfg m m' a) (h' : Kept cfg m' n a) :
    Kept cfg m n a :=
  ⟨h'.1.trans h.1, h'.2.trans h.2⟩

theorem kept_of_flows (h : m'.flows a = m.flows a) : Kept cfg m m' a :=
  ⟨flowTime_congr h, completedCost_congr h⟩

/-- A flow is written with the same time and the same completed packets. -/
theorem kept_put (hflow : m.flows a = some f) (htime : g.time = f.time)
    (hcompleted : g.completed = f.completed) : Kept cfg m (m.put a g) b := by
  by_cases hb : b = a
  · subst hb
    refine ⟨?_, ?_⟩
    · rw [flowTime_of put_flows_self, flowTime_of hflow, htime]
    · rw [completedCost_of put_flows_self, completedCost_of hflow, hcompleted]
  · exact kept_of_flows (put_flows_of_ne hb)

/-- Looking for the next packet changes neither who is backlogged nor any time. -/
theorem Rescheduled.kept (h : Rescheduled m m') (cfg : FairQueueConfig) (a : ℕ) :
    (Backlogged m' a ↔ Backlogged m a) ∧ Kept cfg m m' a := by
  cases h with
  | later => exact ⟨Iff.rfl, rfl, rfl⟩
  | now _ f _ hsending _ hprevious htree hflow =>
    refine ⟨?_, ?_⟩
    · simp only [Backlogged, scheduled, htree, hsending, hprevious, List.mem_cons,
        Option.some.injEq, reduceCtorEq, or_false]
      rw [or_comm, eq_comm]
    · exact kept_put (g := { f with isQueued := false, passed := f.passed ++ [f.data] }) hflow rfl rfl

/-- A flow that is freed is not backlogged, and nothing changes for the others. -/
theorem Shape.backlogged_freedFlow (h : Shape cfg m) (hsending : m.sendingFlow ≠ some a)
    (hb : Backlogged (m.freedFlow a f) b) :
    b ≠ a ∧ Backlogged m b := by
  obtain htree | hsome | hprevious := hb
  · obtain ⟨hba, hmem⟩ := h.ordered.nodup.mem_erase_iff.mp htree
    exact ⟨hba, .inl hmem⟩
  · exact ⟨fun hba => hsending (hba ▸ hsome), .inr (.inl hsome)⟩
  · obtain ⟨hba, hprevious⟩ := freedFlow_previous hprevious
    exact ⟨hba, .inr (.inr hprevious)⟩

/-- A flow that sends was not backlogged, or it is the one that was served last and keeps its
time. -/
theorem Inv.kept_queued (h : Inv cfg m) (hflow : m.flows b = some f) {data : Packet}
    {tree : List ℕ} (hinput : f.input = .operationPending data)
    (hinsert : InOrder.insert compareFlows (m.queued b f data m.queuedTree).key b m.queuedTree
      = some tree) (ha : Backlogged (m.queued b f data tree) a) :
    (Backlogged m a ∨ a = b) ∧ (Backlogged m a → Kept cfg m (m.queued b f data tree) a) := by
  by_cases hab : a = b
  · subst hab
    refine ⟨.inr rfl, fun hbefore => ?_⟩
    obtain ⟨hdecide, -, hqueued, -⟩ := (h.phase a f hflow).of_pending hinput
    have hprevious : m.previousFlow = some a := by
      obtain htree | hsending | hprevious := hbefore
      · exact absurd htree (h.toShape.not_mem_tree hflow hqueued)
      · exact absurd hsending (of_decide_eq_false hdecide)
      · exact hprevious
    refine ⟨?_, ?_⟩
    · rw [flowTime_of queued_flows_self, flowTime_of hflow, raised, if_pos hprevious]
    · rw [completedCost_of queued_flows_self, completedCost_of hflow]
  · refine ⟨.inl ?_, fun _ => kept_of_flows (queued_flows_of_ne hab)⟩
    obtain htree | hsending | hprevious := ha
    · exact .inl (((InOrder.mem_insert hinsert).mp htree).resolve_left hab)
    · exact .inr (.inl hsending)
    · have hif : (if m.previousFlow = some b then none else m.previousFlow) = some a := hprevious
      split_ifs at hif
      exact .inr (.inr hif)

/-- **A step at which no packet is completed** makes at most the flow backlogged that sends, and
keeps the times of the flows that were. -/
theorem Step.kept (hstep : Step cfg m l m') (h : Inv cfg m) (hl : ∀ frees, l ≠ .outputDone frees)
    (ha : Backlogged m' a) :
    (Backlogged m a ∨ l = .inputOperation a) ∧ (Backlogged m a → Kept cfg m m' a) := by
  cases hstep with
  | flowInit b hflow =>
    have hbefore : Backlogged m a := ha
    obtain ⟨f, hf⟩ := h.toShape.flow_of_backlogged hbefore
    have hab : a ≠ b := by
      rintro rfl
      rw [hflow] at hf
      cases hf
    exact ⟨.inl hbefore, fun _ => kept_of_flows (put_flows_of_ne hab)⟩
  | submit _ _ _ hflow =>
    exact ⟨.inl ha, fun _ => kept_put hflow rfl rfl⟩
  | inputOperation _ _ _ _ _ hflow hinput hinsert hnext =>
    obtain ⟨hiff, hkept⟩ := hnext.kept cfg a
    obtain ⟨hbefore, hqueued⟩ := h.kept_queued hflow hinput hinsert (hiff.mp ha)
    refine ⟨hbefore.imp_right fun hab => ?_, fun hb => (hqueued hb).trans hkept⟩
    rw [hab]
  | inputDone _ _ hflow => exact ⟨.inl ha, fun _ => kept_put hflow rfl rfl⟩
  | outputOperation | outputFinish => exact ⟨.inl ha, fun _ => ⟨rfl, rfl⟩⟩
  | outputDone _ _ _ frees => exact absurd rfl (hl frees)
  | scheduleJob _ _ _ hnext =>
    obtain ⟨hiff, hkept⟩ := hnext.kept cfg a
    refine ⟨.inl ?_, fun _ => hkept⟩
    obtain htree | hsome | hprevious := hiff.mp ha
    · exact .inl htree
    · exact .inr (.inl hsome)
    · cases hprevious
  | setBusyHandler _ _ hflow => exact ⟨.inl ha, fun _ => kept_put hflow rfl rfl⟩
  | flowFree _ _ _ hsending =>
    obtain ⟨hab, hbefore⟩ := h.toShape.backlogged_freedFlow hsending ha
    exact ⟨.inl hbefore, fun _ => kept_of_flows (freedFlow_flows_of_ne hab)⟩

/-- Of the flows that stay backlogged, the time less what was completed is lowered by the same
amount. -/
def Drift (cfg : FairQueueConfig) (m m' : PacketPassFairQueue) : Prop :=
  ∃ shift, ∀ a, Backlogged m a → Backlogged m' a →
    m'.flowTime a + shift + completedCost cfg m a = m.flowTime a + completedCost cfg m' a

section Finished

variable {shift : ℕ} (h : Inv cfg m) (hsending : m.sendingFlow = some a)
  (hflow : m.flows a = some f)

include h hsending in
/-- When a packet is completed, the flows in the tree and that of the packet are backlogged. -/
theorem backlogged_finished {amount : ℕ} (hb : Backlogged (m.finished a f amount shift) b) :
    b = a ∨ b ≠ a ∧ b ∈ m.queuedTree := by
  obtain htree | hsome | hprevious := hb
  · refine .inr ⟨?_, htree⟩
    rintro rfl
    obtain ⟨f', hf', hqueued, -⟩ := (h.atOutput b hsending).flow
    exact h.not_mem_tree hf' hqueued htree
  · cases hsome
  · exact .inl (Option.some.inj hprevious).symm

variable (hshift : ∀ b ∈ m.queuedTree, shift ≤ m.flowTime b)
  (hle : shift ≤ f.time + (cfg.packetWeight + f.data.length))

include h hsending hflow hshift hle

/-- The flow pays for its packet, and all lose the same. -/
theorem drift_finished (hb : Backlogged (m.finished a f (cfg.packetWeight + f.data.length) shift) b) :
    (m.finished a f (cfg.packetWeight + f.data.length) shift).flowTime b + shift
        + completedCost cfg m b
      = m.flowTime b
        + completedCost cfg (m.finished a f (cfg.packetWeight + f.data.length) shift) b := by
  obtain rfl | ⟨hba, htree⟩ := backlogged_finished h hsending hb
  · rw [flowTime_of finished_flows_self, flowTime_of hflow, completedCost_of hflow,
      completedCost_of finished_flows_self, List.map_append, List.sum_append]
    simp only [List.map_cons, List.map_nil, List.sum_cons, List.sum_nil]
    omega
  · have hcost : completedCost cfg (m.finished a f (cfg.packetWeight + f.data.length) shift) b
        = completedCost cfg m b := by
      rw [completedCost, completedCost, finished_flows_of_ne hba]
      cases m.flows b <;> rfl
    rw [finished_flowTime_of_ne hba, hcost, Nat.sub_add_cancel (hshift b htree)]

/-- The flow had the least time, and has at most the cost of its packet more now. -/
theorem level_finished (hlevel : Level cfg m) :
    Level cfg (m.finished a f (cfg.packetWeight + f.data.length) shift) := by
  have ha : Backlogged m a := .inr (.inl hsending)
  have hleast := (h.atOutput a hsending).least
  have hlen : f.data.length ≤ cfg.mtu := by
    have hphase := h.phase a f hflow
    rw [decide_eq_true hsending] at hphase
    cases hphase with
    | sending _ hlen => exact hlen
  rw [flowTime_of hflow] at hleast
  intro b c hb hc
  rw [fullCost]
  obtain rfl | ⟨hba, hb_tree⟩ := backlogged_finished h hsending hb
  · rw [flowTime_of finished_flows_self]
    dsimp only
    obtain rfl | ⟨hca, hc_tree⟩ := backlogged_finished h hsending hc
    · rw [flowTime_of finished_flows_self]
      exact Nat.le_add_right _ _
    · have hc_shift := hshift c hc_tree
      have hc_least := hleast c hc_tree
      rw [finished_flowTime_of_ne hca]
      omega
  · have hb_shift := hshift b hb_tree
    rw [finished_flowTime_of_ne hba]
    obtain rfl | ⟨hca, hc_tree⟩ := backlogged_finished h hsending hc
    · have hle := hlevel b c (.inl hb_tree) ha
      rw [flowTime_of hflow, fullCost] at hle
      rw [flowTime_of finished_flows_self]
      dsimp only
      omega
    · have hle := hlevel b c (.inl hb_tree) (.inl hc_tree)
      have hc_shift := hshift c hc_tree
      rw [fullCost] at hle
      rw [finished_flowTime_of_ne hca]
      omega

end Finished

/-- **A step lowers all backlogged flows alike.** -/
theorem Step.drift (hstep : Step cfg m l m') (h : Inv cfg m) : Drift cfg m m' := by
  by_cases hl : ∃ frees, l = .outputDone frees
  · cases hstep with
    | outputDone _ _ shift _ _ hsending hflow hshift hle hmax hnext =>
      have hdrift {b : ℕ} := drift_finished (b := b) h hsending hflow hshift hle
      refine ⟨shift, fun b _ hb => ?_⟩
      obtain rfl | ⟨g, hg, rfl⟩ := hnext
      · exact hdrift hb
      · obtain ⟨hba, hb⟩ := (h.toCore.finished hsending hflow hshift hmax).toShape
          |>.backlogged_freedFlow nofun hb
        rw [freedFlow_flowTime_of_ne hba, completedCost_congr (freedFlow_flows_of_ne hba)]
        exact hdrift hb
    | flowInit | submit | inputOperation | inputDone | outputOperation | outputFinish
    | scheduleJob | setBusyHandler | flowFree => obtain ⟨frees, hl⟩ := hl; cases hl
  · refine ⟨0, fun a ha ha' => ?_⟩
    obtain ⟨htime, hcost⟩ := (hstep.kept h (fun frees heq => hl ⟨frees, heq⟩) ha').2 ha
    rw [htime, hcost, Nat.add_zero]

/-- A flow that becomes backlogged while others are is at most one packet ahead of the current
time. -/
def NotAhead (cfg : FairQueueConfig) (w : FairQueueWorld) : FairQueueLabel → Prop
  | .inputOperation a => w.queue.previousFlow = some a ∨
      (w.queue.queuedTree = [] ∧ w.queue.sendingFlow = none ∧ w.queue.previousFlow = none) ∨
      w.queue.flowTime a ≤ w.queue.now + fullCost cfg
  | _ => True

/-- A flow that becomes backlogged is raised to the current time. -/
theorem Step.flowTime_raised (hstep : Step cfg m (.inputOperation a) m')
    (ha : ¬ Backlogged m a) : m'.flowTime a = max (m.flowTime a) m.now := by
  cases hstep with
  | inputOperation _ _ _ _ _ hflow _ _ hnext =>
    have hprevious : m.previousFlow ≠ some a := fun hsame => ha (.inr (.inr hsame))
    rw [(hnext.kept cfg a).2.1, flowTime_of queued_flows_self, flowTime_of hflow, raised,
      if_neg hprevious]

/-- It is level with those that were backlogged before. -/
theorem level_raised (h : Inv cfg w.queue) (hahead : NotAhead cfg w (.inputOperation a))
    (hlevel : Level cfg w.queue) (ha : ¬ Backlogged w.queue a) (hb : Backlogged w.queue b) :
    max (w.queue.flowTime a) w.queue.now ≤ w.queue.flowTime b + fullCost cfg ∧
      w.queue.flowTime b ≤ max (w.queue.flowTime a) w.queue.now + fullCost cfg := by
  have hbusy : w.queue.queuedTree ≠ [] ∨ w.queue.sendingFlow ≠ none ∨
      w.queue.previousFlow ≠ none := by
    obtain htree | hsending | hprevious := hb
    · exact .inl (List.ne_nil_of_mem htree)
    · exact .inr (.inl (hsending ▸ nofun))
    · exact .inr (.inr (hprevious ▸ nofun))
  have hnear : w.queue.flowTime a ≤ w.queue.now + fullCost cfg := by
    obtain hsame | ⟨htree, hsending, hprevious⟩ | hnear := hahead
    · exact absurd (.inr (.inr hsame)) ha
    · obtain h | h | h := hbusy
      · exact absurd htree h
      · exact absurd hsending h
      · exact absurd hprevious h
    · exact hnear
  have hnow := h.toShape.now_le_of_backlogged hb
  obtain ⟨c, hc, hc_now⟩ := exists_now hbusy
  have hle := hlevel b c hb hc
  omega

/-- **A step keeps the flows level.** -/
theorem Step.level (hstep : Step cfg w.queue l m') (h : Inv cfg w.queue)
    (hahead : NotAhead cfg w l) (hlevel : Level cfg w.queue) : Level cfg m' := by
  by_cases hl : ∃ frees, l = .outputDone frees
  · cases hstep with
    | outputDone _ _ _ _ _ hsending hflow hshift hle hmax hnext =>
      have hfinished := level_finished h hsending hflow hshift hle hlevel
      obtain rfl | ⟨g, hg, rfl⟩ := hnext
      · exact hfinished
      · intro b c hb hc
        have hshape := (h.toCore.finished hsending hflow hshift hmax).toShape
        obtain ⟨hba, hb⟩ := hshape.backlogged_freedFlow nofun hb
        obtain ⟨hca, hc⟩ := hshape.backlogged_freedFlow nofun hc
        rw [freedFlow_flowTime_of_ne hba, freedFlow_flowTime_of_ne hca]
        exact hfinished b c hb hc
    | flowInit | submit | inputOperation | inputDone | outputOperation | outputFinish
    | scheduleJob | setBusyHandler | flowFree => obtain ⟨frees, hl⟩ := hl; cases hl
  · have hkept {b : ℕ} := hstep.kept (a := b) h fun frees heq => hl ⟨frees, heq⟩
    intro b c hb hc
    by_cases hb_was : Backlogged w.queue b <;> by_cases hc_was : Backlogged w.queue c
    · rw [((hkept hb).2 hb_was).1, ((hkept hc).2 hc_was).1]
      exact hlevel b c hb_was hc_was
    · obtain rfl := (hkept hc).1.resolve_left hc_was
      rw [((hkept hb).2 hb_was).1, hstep.flowTime_raised hc_was]
      exact (level_raised h hahead hlevel hc_was hb_was).2
    · obtain rfl := (hkept hb).1.resolve_left hb_was
      rw [((hkept hc).2 hc_was).1, hstep.flowTime_raised hb_was]
      exact (level_raised h hahead hlevel hb_was hc_was).1
    · have hsame := ((hkept hb).1.resolve_left hb_was).symm.trans
        ((hkept hc).1.resolve_left hc_was)
      rw [FairQueueLabel.inputOperation.inj hsame]
      exact Nat.le_add_right _ _

/-! ### Intervals -/

/-- Both flows are backlogged. -/
def Both (a b : ℕ) (w : FairQueueWorld) : Prop :=
  Backlogged w.queue a ∧ Backlogged w.queue b

structure LevelInv (cfg : FairQueueConfig) (w : FairQueueWorld) : Prop where
  inv : Inv cfg w.queue
  level : Level cfg w.queue

theorem LevelInv.step (h : LevelInv cfg w) (hahead : NotAhead cfg w l)
    (hnext : (fairQueueSystem cfg).next w l = some w') :
    LevelInv cfg w' ∧ Drift cfg w.queue w'.queue := by
  obtain ⟨-, hstep⟩ := step_of_next h.inv hnext
  exact ⟨⟨hstep.inv h.inv, hstep.level h.inv hahead h.level⟩, hstep.drift h.inv⟩

theorem levelInv_of_reachableUnder (h : (fairQueueSystem cfg).ReachableUnder (NotAhead cfg) w) :
    LevelInv cfg w := by
  refine h.invariant ⟨inv_init, ?_⟩ fun w l w' hw hahead hnext => (hw.step hahead hnext).1
  intro a b ha
  obtain ha | ha | ha := ha <;> cases ha

/-- The steps of an interval in which both flows are backlogged and no flow that sends is ahead. -/
def InInterval (cfg : FairQueueConfig) (a b : ℕ) (w : FairQueueWorld) (l : FairQueueLabel) : Prop :=
  NotAhead cfg w l ∧ Both a b w

/-- **Over an interval** the time less what was completed keeps its difference between the two
flows. By induction on the steps of the interval, from its first one. -/
theorem LevelInv.interval (h : LevelInv cfg w)
    (hpath : (fairQueueSystem cfg).PathUnder (InInterval cfg a b) w w') (hend : Both a b w') :
    LevelInv cfg w' ∧ Both a b w ∧
      w'.queue.flowTime a + completedCost cfg w.queue a + completedCost cfg w'.queue b
          + w.queue.flowTime b
        = w'.queue.flowTime b + completedCost cfg w.queue b + completedCost cfg w'.queue a
          + w.queue.flowTime a := by
  induction hpath using Relation.ReflTransGen.head_induction_on with
  | refl => exact ⟨h, hend, by omega⟩
  | head hfirst _ ih =>
    obtain ⟨l, ⟨hahead, hboth⟩, hnext⟩ := hfirst
    obtain ⟨hinv, shift, hdrift⟩ := h.step hahead hnext
    obtain ⟨hinv', hboth', heq⟩ := ih hinv
    have hdrift_a := hdrift a hboth.1 hboth'.1
    have hdrift_b := hdrift b hboth.2 hboth'.2
    exact ⟨hinv', hboth, by omega⟩

/-- **Bounded unfairness.** In every run in which no flow that becomes backlogged is ahead, and in
every interval of it in which two flows are backlogged, the costs of the packets that are completed
on the two differ by at most twice the cost of a packet of full size. -/
theorem completed_differ_le (cfg : FairQueueConfig) (w w' : FairQueueWorld) (a b : ℕ)
    (h : (fairQueueSystem cfg).ReachableUnder (NotAhead cfg) w)
    (hpath : (fairQueueSystem cfg).PathUnder (InInterval cfg a b) w w') (hend : Both a b w') :
    |((completedCost cfg w'.queue a : ℤ) - completedCost cfg w.queue a)
        - ((completedCost cfg w'.queue b : ℤ) - completedCost cfg w.queue b)|
      ≤ 2 * (cfg.mtu + cfg.packetWeight) := by
  have hinv := levelInv_of_reachableUnder h
  obtain ⟨hinv', ⟨ha, hb⟩, heq⟩ := hinv.interval hpath hend
  have hab := hinv.level a b ha hb
  have hba := hinv.level b a hb ha
  have hab' := hinv'.level a b hend.1 hend.2
  have hba' := hinv'.level b a hend.2 hend.1
  rw [fullCost] at hab hba hab' hba'
  rw [abs_le]
  omega

instance (m : PacketPassFairQueue) (a : ℕ) : Decidable (Backlogged m a) :=
  inferInstanceAs (Decidable (_ ∨ _))

instance (a b : ℕ) (w : FairQueueWorld) : Decidable (Both a b w) :=
  inferInstanceAs (Decidable (_ ∧ _))

instance (cfg : FairQueueConfig) (w : FairQueueWorld) : ∀ l, Decidable (NotAhead cfg w l)
  | .inputOperation _ => inferInstanceAs (Decidable (_ ∨ _))
  | .flowInit _ | .submit _ _ | .inputDone _ | .outputOperation | .outputFinish | .outputDone _
  | .scheduleJob | .setBusyHandler _ | .flowFree _ => inferInstanceAs (Decidable True)

instance (cfg : FairQueueConfig) (a b : ℕ) (w : FairQueueWorld) (l : FairQueueLabel) :
    Decidable (InInterval cfg a b w l) :=
  inferInstanceAs (Decidable (_ ∧ _))

/-- Packets of one byte, each with the weight of one more. -/
def unitConfig : FairQueueConfig where
  maxTime := uint64Max
  mtu := 1
  packetWeight := 1
  max_le := le_rfl
  weight_pos := Nat.one_pos
  fits := by decide

/-- The output serves a flow, which sends its next packet before the schedule job runs. -/
def served (a : ℕ) : List FairQueueLabel := sent ++ [.inputDone a] ++ submits a ++ [.scheduleJob]

/-- Two flows that start together take turns. -/
theorem completed_differ_le_turns :
    ∃ w w', (fairQueueSystem unitConfig).ReachableUnder (NotAhead unitConfig) w ∧
      (fairQueueSystem unitConfig).PathUnder (InInterval unitConfig 0 1) w w' ∧ Both 0 1 w' ∧
      completedCost unitConfig w.queue 0 = 0 ∧ completedCost unitConfig w'.queue 0 = 4 ∧
      |((completedCost unitConfig w'.queue 0 : ℤ) - completedCost unitConfig w.queue 0)
          - ((completedCost unitConfig w'.queue 1 : ℤ) - completedCost unitConfig w.queue 1)|
        ≤ 2 * (unitConfig.mtu + unitConfig.packetWeight) := by
  obtain ⟨w, w', h, hpath, hend, hbefore, hafter⟩ :=
    (fairQueueSystem unitConfig).exists_of_runUnder_runUnder
    (NotAhead unitConfig) (InInterval unitConfig 0 1)
    (fun w w' => Both 0 1 w' ∧ completedCost unitConfig w.queue 0 = 0 ∧
      completedCost unitConfig w'.queue 0 = 4)
    ([.flowInit 0, .flowInit 1] ++ submits 0 ++ submits 1)
    (served 0 ++ served 1 ++ served 0) (by decide +kernel)
  exact ⟨w, w', h, hpath, hend, hbefore, hafter,
    completed_differ_le _ w w' 0 1 h hpath hend⟩

/-- **A flow starves after an idle period.** The first flow sends three packets alone, and the queue
is idle for a moment. The second one then starts from time zero, and three of its packets are
completed while one of the first waits: a cost of six, where four is allowed. -/
theorem starved_after_idle :
    ∃ w w', (fairQueueSystem unitConfig).Reachable w ∧
      (fairQueueSystem unitConfig).PathUnder (fun w _ => Both 0 1 w) w w' ∧ Both 0 1 w' ∧
      ¬ |((completedCost unitConfig w'.queue 0 : ℤ) - completedCost unitConfig w.queue 0)
          - ((completedCost unitConfig w'.queue 1 : ℤ) - completedCost unitConfig w.queue 1)|
        ≤ 2 * (unitConfig.mtu + unitConfig.packetWeight) := by
  obtain ⟨w, w', h, hpath, hend, hfar⟩ :=
    (fairQueueSystem unitConfig).exists_of_runUnder_runUnder
    (fun _ _ => True) (fun w _ => Both 0 1 w)
    (fun w w' => Both 0 1 w' ∧
      ¬ |((completedCost unitConfig w'.queue 0 : ℤ) - completedCost unitConfig w.queue 0)
          - ((completedCost unitConfig w'.queue 1 : ℤ) - completedCost unitConfig w.queue 1)|
        ≤ 2 * (unitConfig.mtu + unitConfig.packetWeight))
    ([.flowInit 0] ++ submits 0 ++ served 0 ++ served 0 ++ sent ++ [.inputDone 0, .scheduleJob,
      .flowInit 1] ++ submits 1 ++ submits 0)
    (served 1 ++ served 1 ++ served 1) (by decide +kernel)
  exact ⟨w, w', h.reachable, hpath, hend, hfar⟩

end Tun2Socks.Flow.FairQueue
