import Tun2Socks.Flow.FairQueueSafety

/-!
# The fair queue delivers every packet once

In every run the packets that were submitted on a flow are those that were passed to the output, in
this order, and at most one more that waits; those passed are the ones reported as done, and at most
the one that is at the output. The queue cannot stall either, and not go on forever:

* `work` — the steps that are left, counted per packet. A pending packet has six, a queued one five,
  of which three are those of the output once it is passed on; the schedule job is one. Looking for
  the next packet moves work from the flow to the output (`Rescheduled.work_eq`), every other
  internal step is one less.
* `Inv.of_quiescent` — where no internal step is left, nothing waits.
-/

namespace Tun2Socks.Flow.FairQueue

open Framework PacketPassFairQueue FairQueueWorld

variable {cfg : FairQueueConfig} {m m' : PacketPassFairQueue} {a b : ℕ}
  {f g : PacketPassFairQueueFlow} {w w' : FairQueueWorld} {l : FairQueueLabel}

/-! ### The work that is left -/

def flowWork : Option PacketPassFairQueueFlow → ℕ
  | none => 0
  | some f =>
    match f.input with
    | .none => 0
    | .donePending _ => 1
    | .busy _ => if f.isQueued then 5 else 2
    | .operationPending _ => 6

def outputWork : Interface Packet Unit → ℕ
  | .none => 0
  | .donePending _ => 1
  | .busy _ => 2
  | .operationPending _ => 3

def flowsWork (m : PacketPassFairQueue) : ℕ :=
  (m.flowsList.map fun b => flowWork (m.flows b)).sum

/-- The internal steps that are left. -/
def work (m : PacketPassFairQueue) : ℕ :=
  flowsWork m + outputWork m.output + if m.scheduleJob then 1 else 0

/-- The steps of the queue, its interfaces and its output, without its users. -/
def Internal : FairQueueLabel → Prop
  | .inputOperation _ | .inputDone _ | .outputOperation | .outputFinish | .outputDone _
  | .scheduleJob => True
  | .flowInit _ | .submit _ _ | .setBusyHandler _ | .flowFree _ => False

/-- Only the work of the flow `a` changes. -/
theorem Shape.flowsWork_add {n : PacketPassFairQueue} (h : Shape cfg m)
    (hflow : m.flows a = some f) (hlist : n.flowsList = m.flowsList)
    (hne : ∀ b, b ≠ a → flowWork (n.flows b) = flowWork (m.flows b)) :
    flowsWork n + flowWork (some f) = flowsWork m + flowWork (n.flows a) := by
  have hmem : a ∈ m.flowsList := (h.mem_list a).mpr (by rw [hflow]; exact nofun)
  have hrest : (m.flowsList.erase a).map (fun b => flowWork (n.flows b))
      = (m.flowsList.erase a).map (fun b => flowWork (m.flows b)) :=
    List.map_congr_left fun b hb => hne b (h.nodup.mem_erase_iff.mp hb).1
  rw [flowsWork, flowsWork, hlist, ← List.sum_map_erase _ hmem, hrest,
    ← List.sum_map_erase (fun b => flowWork (m.flows b)) hmem, hflow]
  omega

/-- A flow that is freed takes its work along. -/
theorem Shape.flowsWork_freedFlow (h : Shape cfg m) (hflow : m.flows a = some f) :
    flowsWork (m.freedFlow a f) ≤ flowsWork m := by
  have hmem : a ∈ m.flowsList := (h.mem_list a).mpr (by rw [hflow]; exact nofun)
  have hrest : (m.flowsList.erase a).map (fun b => flowWork ((m.freedFlow a f).flows b))
      = (m.flowsList.erase a).map (fun b => flowWork (m.flows b)) := by
    refine List.map_congr_left fun b hb => ?_
    rw [freedFlow_flows_of_ne (h.nodup.mem_erase_iff.mp hb).1]
  change ((m.flowsList.erase a).map fun b => flowWork ((m.freedFlow a f).flows b)).sum ≤ _
  rw [hrest, flowsWork, ← List.sum_map_erase (fun b => flowWork (m.flows b)) hmem]
  exact Nat.le_add_left _ _

/-- **Looking for the next packet** moves work from its flow to the output. -/
theorem Rescheduled.work_eq (hnext : Rescheduled m m') (h : Core cfg m) : work m' = work m := by
  cases hnext with
  | later => rfl
  | now a f rest hsending hjob _ htree hflow =>
    have hqueued : f.isQueued = true := by
      obtain ⟨f', hf', hqueued⟩ := (h.mem_tree a).mp (htree ▸ List.mem_cons_self)
      obtain rfl := Option.some.inj (hflow.symm.trans hf')
      exact hqueued
    obtain ⟨-, hinput, -⟩ := (h.phase a f hflow).of_queued hqueued
    have hflows := h.toShape.flowsWork_add (n := m.scheduled a f rest) hflow rfl
      fun b hb => by rw [scheduled_flows_of_ne hb]
    rw [scheduled_flows_self] at hflows
    simp only [flowWork, hinput, hqueued, if_true, Bool.false_eq_true, if_false] at hflows
    have hbefore : work m = flowsWork m := by
      simp only [work, h.idle hsending, outputWork, hjob, Bool.false_eq_true, if_false, add_zero]
    have hafter : work (m.scheduled a f rest) = flowsWork (m.scheduled a f rest) + 3 := by
      simp only [work, scheduled, outputWork, hjob, Bool.false_eq_true, if_false, add_zero]
    omega

theorem work_lt_of_flows (houtput : m'.output = m.output) (hjob : m'.scheduleJob = m.scheduleJob)
    (hlt : flowsWork m' < flowsWork m) : work m' < work m := by
  rw [work, work, houtput, hjob]
  omega

/-- The flow whose packet was sent has one step left, and the schedule job is set. -/
theorem Core.work_finished (h : Core cfg m) (hsending : m.sendingFlow = some a)
    (hflow : m.flows a = some f) (amount shift : ℕ) :
    flowsWork (m.finished a f amount shift) + 1 < work m := by
  have hflows := h.toShape.flowsWork_add (n := m.finished a f amount shift) hflow rfl
    fun b hb => by
      rw [finished_flows_of_ne hb]
      cases m.flows b <;> rfl
  have hphase := h.phase a f hflow
  rw [decide_eq_true hsending] at hphase
  cases hphase with
  | sending hinput _ hqueued =>
    rw [finished_flows_self] at hflows
    simp only [flowWork, hinput, hqueued, Bool.false_eq_true, if_false] at hflows
    have houtput : 1 ≤ outputWork m.output := by
      obtain (houtput | houtput) | houtput := h.output a f hsending hflow
      all_goals simp [houtput, outputWork]
    rw [work]
    omega

/-- **Every internal step leaves less work.** -/
theorem Step.work_lt (hstep : Step cfg m l m') (h : Inv cfg m) (hl : Internal l) :
    work m' < work m := by
  cases hstep with
  | flowInit | submit | setBusyHandler | flowFree => cases hl
  | inputOperation a f data tree m' hflow hinput hinsert hnext =>
    rw [hnext.work_eq (h.toCore.queued hflow hinput hinsert)]
    have hflows := h.toShape.flowsWork_add (n := m.queued a f data tree) hflow rfl
      fun b hb => by rw [queued_flows_of_ne hb]
    rw [queued_flows_self] at hflows
    simp only [flowWork, hinput, if_true] at hflows
    exact work_lt_of_flows rfl rfl (by omega)
  | inputDone a f hflow hinput =>
    have hflows := h.toShape.flowsWork_add (n := m.put a { f with input := .none }) hflow rfl
      fun b hb => by rw [put_flows_of_ne hb]
    rw [put_flows_self] at hflows
    simp only [flowWork, hinput] at hflows
    exact work_lt_of_flows rfl rfl (by omega)
  | outputOperation _ houtput | outputFinish _ houtput =>
    simp only [work, flowsWork, houtput, outputWork]
    omega
  | outputDone _ f shift _ _ hsending hflow hshift _ hmax hnext =>
    have hfinished := (h.toCore.finished hsending hflow hshift hmax).toShape
    have hwork := h.toCore.work_finished hsending hflow
      (cfg.packetWeight + f.data.length) shift
    obtain rfl | ⟨g, hg, rfl⟩ := hnext
    · exact hwork
    · exact (Nat.add_le_add_right (hfinished.flowsWork_freedFlow hg) 1).trans_lt hwork
  | scheduleJob _ hjob hsending hnext =>
    rw [hnext.work_eq (h.toCore.forget hsending)]
    simp only [work, flowsWork, hjob, if_true, Bool.false_eq_true, if_false]
    omega

/-! ### Whole runs -/

/-- While a flow is sending, something is at the output. -/
theorem Core.output_ne_none (h : Core cfg m) (hsending : m.sendingFlow ≠ none) :
    m.output ≠ .none := by
  intro houtput
  obtain ⟨a, ha⟩ := Option.ne_none_iff_exists'.mp hsending
  obtain ⟨f, hflow, -⟩ := (h.atOutput a ha).flow
  obtain (hstarted | hstarted) | hstarted := h.output a f ha hflow
  all_goals
    rw [houtput] at hstarted
    cases hstarted

section Quiet

variable (hfault : w.fault = none) (hquiet : (fairQueueSystem cfg).Quiescent Internal w)

include hfault hquiet

theorem queueNext_eq_none (hl : Internal l) (hof : flowOf l = none) :
    w.queueNext cfg l = none := by
  have hnone : w.next cfg l = none := hquiet l hl
  rw [next, if_pos hfault, hof] at hnone
  exact hnone

theorem flowNext_eq_none (hl : Internal l) (hof : flowOf l = some a)
    (hflow : w.queue.flows a = some f) : w.flowNext cfg a f l = none := by
  have hnone : w.next cfg l = none := hquiet l hl
  rw [next, if_pos hfault, hof] at hnone
  dsimp only at hnone
  rw [hflow] at hnone
  exact hnone

theorem output_eq_none : w.queue.output = .none := by
  have hnext {l : FairQueueLabel} := queueNext_eq_none (l := l) hfault hquiet
  cases houtput : w.queue.output with
  | none => rfl
  | operationPending =>
    have hnone := hnext (l := .outputOperation) trivial rfl
    rw [queueNext, houtput] at hnone
    cases hnone
  | busy =>
    have hnone := hnext (l := .outputFinish) trivial rfl
    rw [queueNext, houtput] at hnone
    cases hnone
  | donePending =>
    have hnone := hnext (l := .outputDone false) trivial rfl
    rw [queueNext, if_pos houtput] at hnone
    cases hnone

theorem scheduleJob_eq_false : w.queue.scheduleJob = false := by
  have hnone := queueNext_eq_none (l := .scheduleJob) hfault hquiet trivial rfl
  rw [queueNext] at hnone
  split_ifs at hnone with hjob
  exact Bool.eq_false_iff.mpr hjob

/-- Where no internal step is left, no flow has a packet. -/
theorem Inv.of_quiescent (h : Inv cfg w.queue) (hflow : w.queue.flows a = some f) :
    f.submitted = f.passed ∧ f.passed = f.completed := by
  have houtput := output_eq_none hfault hquiet
  have hsending : w.queue.sendingFlow = none :=
    Classical.not_not.mp fun hsome => h.toCore.output_ne_none hsome houtput
  have hphase := h.phase a f hflow
  rw [hsending, decide_eq_false nofun] at hphase
  cases hphase with
  | idle _ _ hsubmitted hpassed => exact ⟨hsubmitted, hpassed⟩
  | pending _ hinput =>
    have hnone := flowNext_eq_none (l := .inputOperation a) hfault hquiet trivial rfl hflow
    rw [flowNext, hinput] at hnone
    cases hnone
  | queued _ _ hqueued =>
    -- a queued packet is not forgotten
    have hmem := (h.mem_tree a).mpr ⟨f, hflow, hqueued⟩
    obtain hsome | hjob := h.waiting (List.ne_nil_of_mem hmem)
    · exact absurd hsending hsome
    · rw [scheduleJob_eq_false hfault hquiet] at hjob
      cases hjob

end Quiet

/-- The packets of a live flow, in a state of the queue. -/
structure Account (m : PacketPassFairQueue) (a : ℕ) (f : PacketPassFairQueueFlow) : Prop where
  /-- At most one packet has not been passed to the output. -/
  submitted : f.submitted = f.passed ∨ ∃ data, f.submitted = f.passed ++ [data] ∧
    (f.input = .operationPending data ∨ f.input = .busy data ∧ f.isQueued = true)
  /-- At most one has not been reported as done, and it is at the output. -/
  passed : f.passed = f.completed ∧ m.sendingFlow ≠ some a ∨
    ∃ data, f.passed = f.completed ++ [data] ∧ m.sendingFlow = some a ∧
      (m.output.Started data ∨ m.output = .donePending ())

/-- What holds in every state of the queue. -/
structure Sound (w : FairQueueWorld) : Prop where
  /-- No assertion has failed. -/
  fault : w.fault = none
  nodup : w.queue.queuedTree.Nodup
  mem_tree : ∀ a, a ∈ w.queue.queuedTree ↔ ∃ f, w.queue.flows a = some f ∧ f.isQueued = true
  sending : ∀ a, w.queue.sendingFlow = some a → a ∉ w.queue.queuedTree
  previous : w.queue.previousFlow ≠ none → w.queue.scheduleJob = true
  waiting : w.queue.queuedTree ≠ [] → w.queue.output ≠ .none ∨ w.queue.scheduleJob = true
  account : ∀ a f, w.queue.flows a = some f → Account w.queue a f
  /-- A packet of a freed flow was passed on and reported, or never left its flow. -/
  freed : ∀ f ∈ w.queue.freed, Ended f

theorem Core.account (h : Core cfg m) (hflow : m.flows a = some f) : Account m a f := by
  have houtput := h.output a f
  have hphase := h.phase a f hflow
  generalize hdecide : decide (m.sendingFlow = some a) = sending at hphase
  cases hphase with
  | idle _ _ hsubmitted hpassed =>
    exact ⟨.inl hsubmitted, .inl ⟨hpassed, of_decide_eq_false hdecide⟩⟩
  | pending data hinput _ _ hsubmitted hpassed =>
    exact ⟨.inr ⟨data, hsubmitted, .inl hinput⟩,
      .inl ⟨hpassed, of_decide_eq_false hdecide⟩⟩
  | queued hinput _ hqueued hsubmitted hpassed =>
    exact ⟨.inr ⟨f.data, hsubmitted, .inr ⟨hinput, hqueued⟩⟩,
      .inl ⟨hpassed, of_decide_eq_false hdecide⟩⟩
  | sending _ _ _ hsubmitted hpassed =>
    have hsending := of_decide_eq_true hdecide
    exact ⟨.inl hsubmitted, .inr ⟨f.data, hpassed, hsending, houtput hsending hflow⟩⟩

theorem WorldInv.sound (h : WorldInv cfg w) : Sound w where
  fault := h.fault
  nodup := h.queue.ordered.nodup
  mem_tree := h.queue.mem_tree
  sending a hsending hmem := by
    obtain ⟨f, hflow, hqueued, -⟩ := (h.queue.atOutput a hsending).flow
    exact h.queue.not_mem_tree hflow hqueued hmem
  previous hsome := by
    obtain ⟨a, ha⟩ := Option.ne_none_iff_exists'.mp hsome
    exact (h.queue.previous a ha).1
  waiting htree := (h.queue.waiting htree).imp_left h.queue.toCore.output_ne_none
  account _ _ hflow := h.queue.toCore.account hflow
  freed := h.queue.freed

/-- **Every packet is passed on once.** In every state of every run the packets of each flow are
accounted for, every internal step leaves less work, and where none is left all packets of the flows
that are still there have been passed to the output and reported. -/
theorem delivers_once (cfg : FairQueueConfig) (w : FairQueueWorld)
    (h : (fairQueueSystem cfg).Reachable w) :
    Sound w ∧
    (∀ l w', Internal l → (fairQueueSystem cfg).next w l = some w' →
      work w'.queue < work w.queue) ∧
    ((fairQueueSystem cfg).Quiescent Internal w → ∀ a f, w.queue.flows a = some f →
      f.submitted = f.passed ∧ f.passed = f.completed) := by
  have hinv := worldInv_of_reachable h
  refine ⟨hinv.sound, fun l w' hl hnext => ?_, fun hquiet a f hflow => ?_⟩
  · obtain ⟨-, hstep⟩ := step_of_next hinv.queue hnext
    exact hstep.work_lt hinv.queue hl
  · exact Inv.of_quiescent hinv.fault hquiet hinv.queue hflow

/-- Three flows: the busy handler of the first frees it, the second is freed while its packet is
queued, and the packet of the third is passed on. -/
theorem delivers_once_freed : ∃ w, (fairQueueSystem smallConfig).Reachable w ∧
    w.queue.freed.map (fun f => (f.submitted, f.passed)) = [([[0]], [[0]]), ([[0]], [])] ∧
    (w.queue.flows 2).map (fun f => (f.passed, f.completed)) = some ([[0]], [[0]]) ∧
    Sound w ∧
    (∀ l w', Internal l → (fairQueueSystem smallConfig).next w l = some w' →
      work w'.queue < work w.queue) ∧
    ((fairQueueSystem smallConfig).Quiescent Internal w → ∀ a f, w.queue.flows a = some f →
      f.submitted = f.passed ∧ f.passed = f.completed) := by
  obtain ⟨w, hw, hfreed, hflow⟩ := (fairQueueSystem smallConfig).exists_of_run
    (fun w => w.queue.freed.map (fun f => (f.submitted, f.passed)) = [([[0]], [[0]]), ([[0]], [])] ∧
      (w.queue.flows 2).map (fun f => (f.passed, f.completed)) = some ([[0]], [[0]]))
    ([.flowInit 0, .flowInit 1, .flowInit 2] ++ submits 0 ++ submits 1 ++ submits 2
      ++ [.flowFree 1, .setBusyHandler 0, .outputOperation, .outputFinish, .outputDone true,
        .scheduleJob] ++ sent ++ [.inputDone 2, .scheduleJob])
    (by decide +kernel)
  exact ⟨w, hw, hfreed, hflow, delivers_once _ w hw⟩

end Tun2Socks.Flow.FairQueue
