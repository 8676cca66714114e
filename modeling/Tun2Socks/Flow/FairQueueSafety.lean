import Tun2Socks.Flow.FairQueueInvariant

/-!
# The handlers of the fair queue

The handlers, run in a queue with its invariant, fail none of their assertions and do what `Step`
says: one specification for each handler, `step_of_next` for all labels, and
`worldInv_of_reachable` for all runs. Two of the handlers compute:

* `subtractTime_spec` — the loop over all flows lowers every time, down to zero at most;
* `incrementSentFlow_spec` — with the wrap-around of the flow's own time the result is the exact
  sum, lowered by the same amount as the other times.

`incrementSentFlow_rebases` says what this means for the order of the flows: those in the tree all
lose the same, so the tree stays in order although it is not touched.
-/

namespace Tun2Socks.Flow.FairQueue

open Framework PacketPassFairQueue Function FairQueueWorld

variable {cfg : FairQueueConfig} {m m' : PacketPassFairQueue} {a b : ℕ}
  {f g : PacketPassFairQueueFlow}

/-! ### The rules -/

section Rules

variable {Q : Unit → PacketPassFairQueue → Prop}

theorem wp_getFlow {R : PacketPassFairQueueFlow → PacketPassFairQueue → Prop}
    (h : m.flows a = some f) : wp (getFlow a) R m ↔ R f m := by
  simp only [getFlow, wp_bind, wp_get, h, wp_pure]

@[simp] theorem wp_setFlow : wp (setFlow a f) Q m ↔ Q () (m.put a f) := by
  simp only [setFlow, wp_modify]
  rfl

theorem firstTime_spec
    (h : ∀ b ∈ m.queuedTree, ∃ f, m.flows b = some f ∧ f.isQueued = true) :
    wp firstTime (fun time m' => m' = m ∧ time = m.queuedTree.head?.map m.flowTime) m := by
  simp only [firstTime, wp_bind, wp_get]
  cases hhead : m.queuedTree.head? with
  | none => exact (wp_pure _).mpr ⟨rfl, rfl⟩
  | some a =>
    obtain ⟨f, hflow, hqueued⟩ := h a (List.mem_of_head? hhead)
    simp only [wp_bind, wp_getFlow hflow, wp_ensure, wp_pure]
    refine ⟨hqueued, trivial, ?_⟩
    rw [Option.map_some, flowTime_of hflow]

/-- `get_current_time`. -/
theorem getCurrentTime_spec (h : Shape cfg m) :
    wp getCurrentTime (fun time m' => m' = m ∧ time = m.now) m := by
  simp only [getCurrentTime, wp_bind, wp_get]
  rw [now]
  cases hsending : m.sendingFlow with
  | some a =>
    obtain ⟨f, hflow, -⟩ := (h.atOutput a hsending).flow
    simp only [wp_bind, wp_getFlow hflow, wp_pure]
    exact ⟨trivial, (flowTime_of hflow).symm⟩
  | none =>
    simp only [wp_bind]
    refine wp_mono (firstTime_spec fun b => (h.mem_tree b).mp) ?_
    rintro _ m' ⟨hm, rfl⟩
    rw [hm, wp_get]
    cases hprevious : m.previousFlow with
    | none =>
      rw [wp_pure]
      cases m.queuedTree.head? <;> exact ⟨rfl, rfl⟩
    | some p =>
      obtain ⟨-, f, hflow, -⟩ := h.previous p hprevious
      simp only [wp_bind, wp_getFlow hflow]
      cases m.queuedTree.head? with
      | none => exact (wp_pure _).mpr ⟨rfl, (flowTime_of hflow).symm⟩
      | some =>
        refine (wp_pure _).mpr ⟨rfl, ?_⟩
        dsimp only
        rw [flowTime_of hflow]
        split_ifs with hlt
        · exact (min_eq_left hlt.le).symm
        · exact (min_eq_right (Nat.le_of_not_lt hlt)).symm

/-- The first queued packet goes to the output. -/
theorem schedule_spec (h : Shape cfg m) (hsending : m.sendingFlow = none)
    (hprevious : m.previousFlow = none) {rest : List ℕ} (htree : m.queuedTree = a :: rest)
    (hflow : m.flows a = some f) (hlen : f.data.length ≤ cfg.mtu) :
    wp (schedule cfg) (fun _ m' => m' = m.scheduled a f rest) m := by
  have hqueued : f.isQueued = true := by
    obtain ⟨f', hflow', hqueued⟩ := (h.mem_tree a).mp (htree ▸ List.mem_cons_self)
    obtain rfl := Option.some.inj (hflow.symm.trans hflow')
    exact hqueued
  simp only [schedule, wp_bind, wp_get, wp_ensure, htree]
  refine ⟨hsending, hprevious, ?_⟩
  simp only [wp_bind, wp_getFlow hflow, wp_ensure, wp_modify, wp_setFlow, sendToOutput, wp_get]
  exact ⟨hqueued, hlen, h.idle hsending, rfl⟩

/-- `schedule_job_handler`. -/
theorem scheduleJobHandler_spec (h : Shape cfg m) (hsending : m.sendingFlow = none)
    (hlen : ∀ a f, m.flows a = some f → f.isQueued = true → f.data.length ≤ cfg.mtu) :
    wp (scheduleJobHandler cfg)
      (fun _ m' => Rescheduled { m with scheduleJob := false, previousFlow := none } m')
      { m with scheduleJob := false } := by
  simp only [scheduleJobHandler, wp_bind, wp_get, wp_ensure, wp_modify, wp_ite]
  refine ⟨hsending, ?_⟩
  split_ifs with htree
  · obtain ⟨a, rest, htree⟩ := List.exists_cons_of_ne_nil htree
    have hmem : a ∈ m.queuedTree := htree ▸ List.mem_cons_self
    obtain ⟨f, hflow, hqueued⟩ := (h.mem_tree a).mp hmem
    have hshape : Shape cfg { m with scheduleJob := false, previousFlow := none } :=
      { h with
        atOutput := fun b hb => absurd (hsending.symm.trans hb) (by simp)
        previous := by simp }
    refine wp_mono (schedule_spec hshape hsending rfl htree hflow (hlen a f hflow hqueued)) ?_
    rintro _ _ rfl
    exact .now a f rest hsending rfl rfl htree hflow
  · rw [wp_pure]
    exact .later (.inr (.inr (not_not.mp htree)))

/-- A flow goes into the tree; its address is not there, so its key is not. -/
theorem queueFlow_spec (hflow : m.flows a = some f) (hnot : a ∉ m.queuedTree) (data : Packet) :
    wp (queueFlow a data) (fun _ m' => ∃ tree,
      InOrder.insert compareFlows m.key a m.queuedTree = some tree ∧
      m' = { m.put a { f with data, isQueued := true } with queuedTree := tree }) m := by
  have hkey : (m.put a { f with data }).key = m.key := key_eq_of_flowTime (flowTime_put hflow rfl)
  have hexists : ∃ tree, InOrder.insert compareFlows m.key a m.queuedTree = some tree :=
    InOrder.exists_insert fun b hb => key_ne_of_ne fun hab => hnot (hab ▸ hb)
  obtain ⟨tree, hinsert⟩ := hexists
  have htree : InOrder.insert compareFlows (m.put a { f with data }).key a
      (m.put a { f with data }).queuedTree = some tree := by
    rw [hkey]
    exact hinsert
  simp only [queueFlow, wp_bind, wp_getFlow hflow, wp_setFlow, wp_get, htree, wp_modify]
  refine ⟨tree, hinsert, ?_⟩
  rw [put, put, put]
  dsimp only
  rw [update_idem]

theorem put_put : (m.put a f).put a g = m.put a g := by
  dsimp only [put]
  rw [update_idem]

/-- The queue looks for a packet for the output, unless there is one or the job will. -/
theorem reschedule_spec (h : Core cfg m) (htree : m.queuedTree ≠ []) :
    wp (if m.sendingFlow = none ∧ m.scheduleJob = false then schedule cfg else pure ())
      (fun _ => Rescheduled m) m := by
  rw [wp_ite]
  split_ifs with hnow
  · obtain ⟨hsending, hjob⟩ := hnow
    obtain ⟨a, rest, htree⟩ := List.exists_cons_of_ne_nil htree
    obtain ⟨f, hflow, hqueued⟩ := (h.mem_tree a).mp (htree ▸ List.mem_cons_self)
    have hlen := ((h.phase a f hflow).of_queued hqueued).2.2.1
    have hprevious : m.previousFlow = none := by
      cases hprevious : m.previousFlow with
      | none => rfl
      | some b => cases hjob.symm.trans (h.previous b hprevious).1
    refine wp_mono (schedule_spec h.toShape hsending hprevious htree hflow hlen) ?_
    rintro _ _ rfl
    exact .now a f rest hsending hjob hprevious htree hflow
  · rw [wp_pure]
    refine .later ?_
    by_cases hsending : m.sendingFlow = none
    · exact .inr (.inl (Bool.of_not_eq_false fun hjob => hnow ⟨hsending, hjob⟩))
    · exact .inl hsending

/-- The flow gets its time: its own, or at least the current one. -/
theorem raiseTime_spec (h : Shape cfg m) (hflow : m.flows a = some f) :
    wp (raiseTime a f) (fun _ m' => m' = m.withRaised a f) m := by
  simp only [raiseTime, wp_bind, wp_get, wp_ite]
  split_ifs with hprevious
  · rw [wp_modify, withRaised, raised, if_pos hprevious, if_pos hprevious,
      update_eq_self_iff.mpr hflow.symm]
  · refine wp_mono (getCurrentTime_spec h) ?_
    rintro _ m' ⟨hm, rfl⟩
    rw [hm, wp_setFlow, withRaised, raised, if_neg hprevious, if_neg hprevious]
    rfl

/-- Raising the time of a flow that was written before. -/
theorem put_withRaised (hflow : m.flows a = some f) (htime : g.time = f.time) :
    (m.put a g).withRaised a g = (m.withRaised a f).put a { g with time := m.raised a f } := by
  have hraised : (m.put a g).raised a g = m.raised a f := by
    rw [raised, raised, now_put hflow htime, htime]
    rfl
  rw [withRaised, withRaised, hraised]
  dsimp only [put]
  rw [update_idem, update_idem]
  rfl

/-- `input_handler_send`, after the job has set the state of the input. -/
theorem inputHandlerSend_spec (h : Core cfg m) (hflow : m.flows a = some f) {data : Packet}
    (hinput : f.input = .operationPending data) :
    wp (do
      setFlow a { f with input := .busy data }
      inputHandlerSend cfg a data) (fun _ m' => Step cfg m (.inputOperation a) m') m := by
  obtain ⟨hdecide, hlen, hqueued, -, -⟩ := (h.phase a f hflow).of_pending hinput
  have hsending : m.sendingFlow ≠ some a := of_decide_eq_false hdecide
  have hnot := h.not_mem_tree hflow hqueued
  let f₁ : PacketPassFairQueueFlow := { f with input := .busy data }
  let f₂ : PacketPassFairQueueFlow := { f₁ with time := m.raised a f }
  let m₂ : PacketPassFairQueue := (m.withRaised a f).put a f₂
  have hshape : Shape cfg (m.put a f₁) := h.toShape.put hflow rfl rfl rfl
  have hraise := raiseTime_spec hshape put_flows_self
  rw [put_withRaised (g := f₁) hflow rfl] at hraise
  simp only [inputHandlerSend, wp_bind, wp_setFlow, wp_get, wp_ensure, wp_getFlow put_flows_self]
  refine ⟨hsending, hqueued, wp_mono hraise ?_⟩
  rintro _ _ rfl
  have hflow₂ : m₂.flows a = some f₂ := put_flows_self
  have hnot₂ : a ∉ m₂.queuedTree := hnot
  refine wp_mono (queueFlow_spec hflow₂ hnot₂ data) ?_
  rintro _ _ ⟨tree, hinsert, rfl⟩
  -- of the times that the flow is written, the last one counts
  have heq : { m₂.put a { f₂ with data, isQueued := true } with queuedTree := tree }
      = m.queued a f data tree := by
    dsimp only [m₂, put, withRaised,
      queued]
    rw [update_idem, update_idem]
  rw [heq]
  have hkey : m₂.key = (m.queued a f data m.queuedTree).key := by
    refine key_eq_of_flowTime (funext fun b => ?_)
    by_cases hba : b = a
    · subst hba
      rw [flowTime_of hflow₂, flowTime_of queued_flows_self]
    · have hother : m₂.flows b = m.flows b :=
        (put_flows_of_ne hba).trans (update_of_ne hba _ _)
      rw [flowTime, hother, queued_flowTime_of_ne hba, flowTime]
  rw [hkey] at hinsert
  have hcore := h.queued hflow hinput hinsert
  refine wp_mono (reschedule_spec hcore ?_) fun _ m' hnext => ?_
  · exact List.ne_nil_of_mem ((InOrder.mem_insert hinsert).mpr (.inl rfl))
  · exact .inputOperation a f data tree m' hflow hinput hinsert hnext

/-! ### Growing times -/

/-- What the loop makes of the flow at `b`. -/
def lowered (a subtract b : ℕ) (g : PacketPassFairQueueFlow) : PacketPassFairQueueFlow :=
  { g with
    time := if g.time < subtract ∧ b ≠ a then 0
      else wrap (g.time + (uint64Max + 1) - subtract) }

/-- What the loop makes of the queue. -/
def loweredAll (m : PacketPassFairQueue) (a subtract : ℕ) : PacketPassFairQueue :=
  { m with flows := fun b => (m.flows b).map (lowered a subtract b) }

/-- **The loop over all flows.** By induction on the list; the flows before are done, and those
behind are still as they were. -/
theorem subtractTime_spec {subtract : ℕ} {l : List ℕ} (hnodup : l.Nodup)
    (hlive : ∀ b ∈ l, ∃ g, m.flows b = some g ∧
      (g.time < subtract → b ≠ a → g.isQueued = false)) :
    wp (subtractTime a subtract l) (fun _ m' => m' = { m with
      flows := fun b => if b ∈ l then (m.flows b).map (lowered a subtract b) else m.flows b }) m := by
  induction l generalizing m with
  | nil =>
    rw [subtractTime, wp_pure]
    rfl
  | cons b l ih =>
    obtain ⟨hb, hnodup⟩ := List.nodup_cons.mp hnodup
    obtain ⟨g, hflow, hqueued⟩ := hlive b List.mem_cons_self
    -- the rest of the list, in the queue in which the flow at `b` is done
    have hrest := ih (m := m.put b (lowered a subtract b g)) hnodup fun c hc => by
      have hcb : c ≠ b := fun hcb => hb (hcb ▸ hc)
      rw [put_flows_of_ne hcb]
      exact hlive c (List.mem_cons_of_mem b hc)
    have heq : { m.put b (lowered a subtract b g) with
        flows := fun c => if c ∈ l
          then ((m.put b (lowered a subtract b g)).flows c).map (lowered a subtract c)
          else (m.put b (lowered a subtract b g)).flows c }
        = { m with flows := fun c => if c ∈ b :: l
          then (m.flows c).map (lowered a subtract c) else m.flows c } := by
      dsimp only [put]
      congr 1
      funext c
      by_cases hcb : c = b
      · subst hcb
        rw [if_neg hb, if_pos List.mem_cons_self, update_self, hflow, Option.map_some]
      · rw [update_of_ne hcb]
        simp only [List.mem_cons, hcb, false_or]
    rw [heq] at hrest
    simp only [subtractTime, wp_bind, wp_getFlow hflow, wp_ite, wp_ensure, wp_setFlow]
    split_ifs with hlt
    · refine ⟨hqueued hlt.1 hlt.2, ?_⟩
      rw [lowered, if_pos hlt] at hrest
      exact hrest
    · rw [lowered, if_neg hlt] at hrest
      exact hrest

section Shift

variable {amount : ℕ} (h : Shape cfg m) (hsending : m.sendingFlow = some a)
  (hflow : m.flows a = some f)

include h hsending hflow

/-- The flow that was sending has the least time, so what is subtracted is not less. -/
theorem time_le_shift (hover : cfg.maxTime - f.time < amount) :
    f.time ≤ m.shift cfg f amount := by
  rw [shift, if_pos hover]
  cases hhead : m.queuedTree.head? with
  | none => exact le_rfl
  | some b =>
    have hleast := (h.atOutput a hsending).least b (List.mem_of_head? hhead)
    rw [flowTime_of hflow] at hleast
    exact hleast

omit hsending in
theorem shift_le_maxTime : m.shift cfg f amount ≤ cfg.maxTime := by
  rw [shift]
  split_ifs
  · cases m.queuedTree.head? with
    | none => exact h.time a f hflow
    | some b => exact h.flowTime_le b
  · exact Nat.zero_le _

omit hsending hflow in
/-- Nor more than the time of any queued flow. -/
theorem shift_le_flowTime (hb : b ∈ m.queuedTree) : m.shift cfg f amount ≤ m.flowTime b := by
  obtain ⟨c, rest, htree⟩ := List.exists_cons_of_ne_nil (List.ne_nil_of_mem hb)
  have hleast := h.head_least htree b hb
  rw [shift, htree]
  split_ifs
  · exact hleast
  · exact Nat.zero_le _

omit hsending in
theorem shift_le : m.shift cfg f amount ≤ f.time + amount := by
  have hmax : m.shift cfg f amount ≤ cfg.maxTime := shift_le_maxTime h hflow
  have htime := h.time a f hflow
  by_cases hover : cfg.maxTime - f.time < amount
  · omega
  · rw [shift, if_neg hover]
    exact Nat.zero_le _

theorem grown_le (hamount : amount ≤ cfg.maxTime) :
    f.time + amount - m.shift cfg f amount ≤ cfg.maxTime := by
  have htime := h.time a f hflow
  by_cases hover : cfg.maxTime - f.time < amount
  · have hshift := time_le_shift h hsending hflow hover
    omega
  · rw [shift, if_neg hover]
    omega

end Shift

theorem wrap_of_le {n : ℕ} (h : n ≤ uint64Max) : wrap n = n :=
  Nat.mod_eq_of_lt (Nat.lt_succ_of_le h)

theorem wrap_add {n : ℕ} (h : n ≤ uint64Max) : wrap (n + (uint64Max + 1)) = n := by
  rw [wrap, Nat.add_mod_right]
  exact wrap_of_le h

/-- The other flows lose what is subtracted, down to zero. -/
theorem lowered_of_ne {subtract : ℕ} (hba : b ≠ a) (htime : g.time ≤ uint64Max) :
    lowered a subtract b g = { g with time := g.time - subtract } := by
  rw [lowered]
  split_ifs with hlt
  · rw [Nat.sub_eq_zero_of_le hlt.1.le]
  · have hle : subtract ≤ g.time := Nat.le_of_not_lt fun h => hlt ⟨h, hba⟩
    rw [Nat.sub_add_comm hle, wrap_add ((Nat.sub_le _ _).trans htime)]

/-- **The time that wraps around.** The flow itself may have less time than is subtracted; its time
is then negative until the amount is added. -/
theorem wrap_wrap {time amount subtract : ℕ} (hsubtract : subtract ≤ uint64Max) (hle : subtract ≤ time + amount)
    (hmax : time + amount - subtract ≤ uint64Max) :
    wrap (wrap (time + (uint64Max + 1) - subtract) + amount) = time + amount - subtract := by
  have hmod : wrap (wrap (time + (uint64Max + 1) - subtract) + amount)
      = wrap (time + (uint64Max + 1) - subtract + amount) := by
    rw [wrap, wrap, wrap, Nat.mod_add_mod]
  have hsum : time + (uint64Max + 1) - subtract + amount
      = time + amount - subtract + (uint64Max + 1) := by omega
  rw [hmod, hsum, wrap_add hmax]

/-- The queue with all times lowered, and the new time of the flow `a` written. -/
theorem loweredAll_put (h : ∀ b g, m.flows b = some g → g.time ≤ uint64Max) {amount subtract : ℕ}
    {time : ℕ} (htime : time = f.time + amount - subtract) :
    (loweredAll m a subtract).put a { f with time } = m.incremented a f amount subtract := by
  dsimp only [put, incremented, loweredAll]
  rw [htime]
  congr 1
  funext b
  by_cases hba : b = a
  · subst hba
    rw [update_self, update_self]
  · rw [update_of_ne hba, update_of_ne hba]
    cases hflow : m.flows b with
    | none => rfl
    | some g => rw [Option.map_some, Option.map_some, lowered_of_ne hba (h b g hflow)]

/-- All flows lose the time of the first queued flow, or that of the flow itself. -/
theorem makeRoom_spec (h : Shape cfg m) {amount : ℕ} (hover : cfg.maxTime - f.time < amount) :
    wp (makeRoom cfg a f amount)
      (fun _ m' => m' = loweredAll (m.released a) a (m.shift cfg f amount)) (m.released a) := by
  have hshift : m.shift cfg f amount = (m.queuedTree.head?.map m.flowTime).getD f.time := by
    rw [shift, if_pos hover]
  simp only [makeRoom, wp_bind, if_pos hover]
  refine wp_mono (firstTime_spec fun b hb => (h.mem_tree b).mp hb) ?_
  rintro first _ ⟨rfl, rfl⟩
  rw [wp_get]
  have hfirst : (((m.released a).queuedTree.head?.map (m.released a).flowTime).getD f.time)
      = m.shift cfg f amount := hshift.symm
  rw [hfirst]
  refine wp_mono (subtractTime_spec h.nodup fun b hb => ?_) ?_
  · -- a queued flow has at least the time of the first one
    obtain ⟨g, hg⟩ := Option.ne_none_iff_exists'.mp ((h.mem_list b).mp hb)
    refine ⟨g, hg, fun hlt _ => Bool.eq_false_iff.mpr fun hqueued => ?_⟩
    have hle : m.shift cfg f amount ≤ m.flowTime b :=
      shift_le_flowTime h ((h.mem_tree b).mpr ⟨g, hg, hqueued⟩)
    rw [flowTime_of hg] at hle
    exact absurd hlt (Nat.not_lt.mpr hle)
  · rintro _ m' hm
    rw [hm, loweredAll]
    congr 1
    funext b
    split_ifs with hb
    · rfl
    · have hnone : (m.released a).flows b = none :=
        Classical.not_not.mp fun hsome => hb ((h.mem_list b).mpr hsome)
      rw [hnone]
      rfl

/-- **The time of the flow grows**, by exactly the amount less what all flows lose. -/
theorem incrementSentFlow_spec (h : Shape cfg m) (hsending : m.sendingFlow = some a)
    (hflow : m.flows a = some f) {amount : ℕ} (hamount : amount ≤ cfg.maxTime) :
    wp (incrementSentFlow cfg a amount)
      (fun _ m' => m' = (m.released a).incremented a f amount (m.shift cfg f amount))
      (m.released a) := by
  obtain ⟨f', hf', hqueued, -⟩ := (h.atOutput a hsending).flow
  obtain rfl := Option.some.inj (hflow.symm.trans hf')
  have hreleased : (m.released a).flows a = some f := hflow
  have hfits : ∀ b g, (m.released a).flows b = some g → g.time ≤ uint64Max :=
    fun b g hg => (h.time b g hg).trans cfg.max_le
  simp only [incrementSentFlow, wp_bind, wp_getFlow hreleased, wp_ensure, wp_get]
  refine ⟨hamount, hqueued, rfl, ?_⟩
  by_cases hover : cfg.maxTime - f.time < amount
  · refine wp_mono (makeRoom_spec h hover) ?_
    rintro _ _ rfl
    have hown : (loweredAll (m.released a) a (m.shift cfg f amount)).flows a
        = some (lowered a (m.shift cfg f amount) a f) := by
      rw [loweredAll]
      dsimp only
      rw [hreleased, Option.map_some]
    rw [wp_getFlow hown, wp_setFlow]
    refine loweredAll_put (f := f) hfits ?_
    rw [lowered, if_neg fun hlt => hlt.2 rfl]
    exact wrap_wrap ((shift_le_maxTime h hflow).trans cfg.max_le) (shift_le h hflow)
      ((grown_le h hsending hflow hamount).trans cfg.max_le)
  · have hshift : m.shift cfg f amount = 0 := by rw [shift, if_neg hover]
    have hsum : f.time + amount ≤ uint64Max := by
      have hle := grown_le h hsending hflow hamount
      rw [hshift] at hle
      exact hle.trans cfg.max_le
    simp only [makeRoom, if_neg hover, wp_pure, wp_getFlow hreleased, wp_setFlow]
    rw [hshift, wrap_of_le hsum, incremented, put]
    congr 2
    funext b
    cases (m.released a).flows b <;> rfl

/-! ### The other handlers -/

theorem flowFree_spec (h : Shape cfg m) (hflow : m.flows a = some f)
    (hsending : m.sendingFlow ≠ some a) :
    wp (flowFree a) (fun _ m' => m' = m.freedFlow a f) m := by
  simp only [flowFree, wp_bind, wp_getFlow hflow, wp_get, wp_ensure, wp_modify]
  refine ⟨hsending, ?_⟩
  rw [freedFlow]
  congr 1
  cases hqueued : f.isQueued with
  | false => exact (List.erase_of_not_mem (h.not_mem_tree hflow hqueued)).symm
  | true => rfl

/-- What is at the output belongs to a flow. -/
theorem Core.exists_sending (h : Core cfg m) (houtput : m.output ≠ .none) :
    ∃ a f, m.sendingFlow = some a ∧ m.flows a = some f := by
  cases hsending : m.sendingFlow with
  | none => exact absurd (h.idle hsending) houtput
  | some a =>
    obtain ⟨f, hflow, -⟩ := (h.atOutput a hsending).flow
    exact ⟨a, f, rfl, hflow⟩

/-- A packet at the output fits into the time with its weight. -/
theorem Core.amount_le (h : Core cfg m) (hsending : m.sendingFlow = some a)
    (hflow : m.flows a = some f) : cfg.packetWeight + f.data.length ≤ cfg.maxTime := by
  have hphase := h.phase a f hflow
  rw [decide_eq_true hsending] at hphase
  cases hphase with
  | sending _ => exact (by omega : _ ≤ cfg.mtu + cfg.packetWeight).trans cfg.fits

/-- The queue once the times are new and the schedule job is set. -/
def grown (m : PacketPassFairQueue) (a : ℕ) (f : PacketPassFairQueueFlow) (amount shift : ℕ) :
    PacketPassFairQueue :=
  { (m.released a).incremented a f amount shift with scheduleJob := true }

variable {amount shift : ℕ}

theorem grown_flows_self :
    (grown m a f amount shift).flows a = some { f with time := f.time + amount - shift } := by
  dsimp only [grown, incremented]
  rw [update_self]

/-- Reporting the packet to its flow ends the step. -/
theorem grown_put :
    (grown m a f amount shift).put a { f with
        time := f.time + amount - shift
        handlerBusy := false
        input := .donePending ()
        completed := f.completed ++ [f.data] }
      = m.finished a f amount shift := by
  dsimp only [put, grown, incremented, released, finished]
  rw [update_idem]

/-- What follows the increment: the packet is reported, and the busy handler is called if there
is one. -/
theorem report_spec (h : Shape cfg (m.finished a f amount shift))
    (hinput : f.input = .busy f.data) (frees : Bool)
    (hdone : Q () (m.finished a f amount shift))
    (hfreed : ∀ g, (m.finished a f amount shift).flows a = some g →
      Q () ((m.finished a f amount shift).freedFlow a g)) :
    wp (flowDone a) (fun _ m' => wp (getFlow a) (fun g m' => wp
      (do if g.handlerBusy then do
            setFlow a { g with handlerBusy := false }
            if frees then flowFree a) Q m') m')
      (grown m a f amount shift) := by
  simp only [flowDone, wp_bind, wp_getFlow grown_flows_self, wp_ensure, wp_setFlow,
    wp_getFlow put_flows_self, wp_ite, wp_pure]
  refine ⟨by rw [hinput]; exact trivial, ?_⟩
  split_ifs with hbusy hfrees
  · rw [put_put, grown_put]
    refine wp_mono (flowFree_spec h finished_flows_self (Option.some_ne_none a).symm) ?_
    rintro _ _ rfl
    exact hfreed _ finished_flows_self
  · rw [put_put, grown_put]
    exact hdone
  · rw [Bool.eq_false_iff.mpr hbusy, grown_put]
    exact hdone

theorem outputHandlerDone_spec (h : Core cfg m) (houtput : m.output = .donePending ())
    (frees : Bool) :
    wp (outputHandlerDone cfg frees) (fun _ m' => Step cfg m (.outputDone frees) m')
      { m with output := .none } := by
  obtain ⟨a, f, hsending, hflow⟩ := h.exists_sending (by simp [houtput])
  obtain ⟨hprevious, hjob, ⟨f', hf', hqueued, hlen⟩, -⟩ := h.atOutput a hsending
  obtain rfl := Option.some.inj (hflow.symm.trans hf')
  have hamount := h.amount_le hsending hflow
  -- the state that the handler starts in, by what it reads
  generalize hm : ({ m with output := .none } : PacketPassFairQueue) = n
  have hstart : n.sendingFlow = some a ∧ n.previousFlow = none ∧ n.scheduleJob = false ∧
      n.flows a = some f ∧ n.sendingLen = f.data.length ∧
      { n with sendingFlow := none, previousFlow := some a } = m.released a := by
    rw [← hm]
    exact ⟨hsending, hprevious, hjob, hflow, hlen, rfl⟩
  obtain ⟨hstart, hprevious, hjob, hown, hlen, hreleased⟩ := hstart
  simp only [outputHandlerDone, wp_bind, wp_get, hstart, wp_ensure, wp_modify, wp_getFlow hown]
  refine ⟨hprevious, hjob, hqueued, ?_⟩
  rw [hreleased, hlen]
  refine wp_mono (incrementSentFlow_spec h.toShape hsending hflow hamount) ?_
  rintro _ _ rfl
  have hphase := h.phase a f hflow
  rw [decide_eq_true hsending] at hphase
  have hshift : ∀ b ∈ m.queuedTree, m.shift cfg f (cfg.packetWeight + f.data.length)
      ≤ m.flowTime b := fun b hb => shift_le_flowTime h.toShape hb
  have hmax := grown_le h.toShape hsending hflow hamount
  have hstep : ∀ m', _ → Step cfg m (.outputDone frees) m' := fun m' =>
    .outputDone a f _ frees m' hsending hflow hshift (shift_le h.toShape hflow) hmax
  refine report_spec (h.toShape.finished hsending hflow hshift hmax) ?_ frees ?_ ?_
  · cases hphase with
    | sending hinput => exact hinput
  · exact hstep _ (.inl rfl)
  · exact fun g hg => hstep _ (.inr ⟨g, hg, rfl⟩)

/-! ### All steps -/

/-- A handler that fails no assertion leaves the queue as it says. -/
theorem leave_of_wp {x : M Unit} {w w' : FairQueueWorld} {P : PacketPassFairQueue → Prop}
    (h : wp x (fun _ m' => P m') m) (hfault : w.fault = none) (heq : w.leave (x.run m) = w') :
    w'.fault = none ∧ P w'.queue := by
  obtain ⟨⟨_, m'⟩, hrun, hP⟩ := h
  rw [hrun] at heq
  subst heq
  exact ⟨hfault, hP⟩

end Rules

variable {w w' : FairQueueWorld} {l : FairQueueLabel}

/-- **Steps at a flow fail no assertion and do what `Step` says.** -/
theorem step_of_flowNext (h : Inv cfg w.queue)
    (hfault : w.fault = none) (hof : flowOf l = some a)
    (hflow : w.queue.flows a = some f) (hnext : w.flowNext cfg a f l = some w') :
    w'.fault = none ∧ Step cfg w.queue l w'.queue := by
  cases l with
  | submit b data =>
    obtain rfl := Option.some.inj hof
    rw [flowNext] at hnext
    split_ifs at hnext with hcan
    refine leave_of_wp ?_ hfault (Option.some.inj hnext)
    exact wp_setFlow.mpr (.submit b f data hflow hcan.1 hcan.2)
  | inputOperation b =>
    cases hof
    rw [flowNext] at hnext
    split at hnext
    · rename_i data hinput
      exact leave_of_wp (inputHandlerSend_spec h.toCore hflow hinput) hfault
        (Option.some.inj hnext)
    · cases hnext
  | inputDone b =>
    obtain rfl := Option.some.inj hof
    rw [flowNext] at hnext
    split_ifs at hnext with hinput
    exact leave_of_wp (wp_setFlow.mpr (.inputDone b f hflow hinput)) hfault
      (Option.some.inj hnext)
  | setBusyHandler b =>
    obtain rfl := Option.some.inj hof
    rw [flowNext] at hnext
    split_ifs at hnext with hsending
    refine leave_of_wp ?_ hfault (Option.some.inj hnext)
    simp only [setBusyHandler, wp_bind, wp_get, wp_ensure, wp_getFlow hflow, wp_setFlow]
    exact ⟨hsending, .setBusyHandler b f hflow hsending⟩
  | flowFree b =>
    obtain rfl := Option.some.inj hof
    rw [flowNext] at hnext
    split_ifs at hnext with hsending
    refine leave_of_wp (wp_mono (flowFree_spec h.toShape hflow hsending) ?_) hfault
      (Option.some.inj hnext)
    rintro _ _ rfl
    exact .flowFree b f hflow hsending
  | flowInit | outputOperation | outputFinish | outputDone | scheduleJob => cases hof

/-- **Steps of the queue and its output** fail no assertion either. -/
theorem step_of_queueNext (h : Inv cfg w.queue)
    (hfault : w.fault = none) (hnext : w.queueNext cfg l = some w') :
    w'.fault = none ∧ Step cfg w.queue l w'.queue := by
  cases l with
  | flowInit a =>
    rw [queueNext] at hnext
    split at hnext
    · rename_i hflow
      refine leave_of_wp ?_ hfault (Option.some.inj hnext)
      simp only [flowInit, wp_bind, wp_setFlow, wp_modify]
      exact .flowInit a hflow
    · cases hnext
  | outputOperation =>
    rw [queueNext] at hnext
    split at hnext
    · rename_i data houtput
      cases hnext
      exact ⟨hfault, .outputOperation data houtput⟩
    · cases hnext
  | outputFinish =>
    rw [queueNext] at hnext
    split at hnext
    · rename_i data houtput
      cases hnext
      exact ⟨hfault, .outputFinish data houtput⟩
    · cases hnext
  | outputDone frees =>
    rw [queueNext] at hnext
    split_ifs at hnext with houtput
    exact leave_of_wp (outputHandlerDone_spec h.toCore houtput frees) hfault
      (Option.some.inj hnext)
  | scheduleJob =>
    rw [queueNext] at hnext
    split_ifs at hnext with hjob
    -- while the job is set, nothing is at the output
    have hsending : w.queue.sendingFlow = none := by
      cases hsending : w.queue.sendingFlow with
      | none => rfl
      | some a =>
        rw [(h.atOutput a hsending).job] at hjob
        cases hjob
    refine leave_of_wp (wp_mono (scheduleJobHandler_spec h.toShape hsending ?_) ?_) hfault
      (Option.some.inj hnext)
    · exact fun a f hflow hqueued => ((h.phase a f hflow).of_queued hqueued).2.2.1
    · exact fun _ m' hm' => .scheduleJob m' hjob hsending hm'
  | submit | inputOperation | inputDone | setBusyHandler | flowFree => cases hnext

theorem step_of_next (h : Inv cfg w.queue)
    (hnext : (fairQueueSystem cfg).next w l = some w') :
    w'.fault = none ∧ Step cfg w.queue l w'.queue := by
  have hnext : w.next cfg l = some w' := hnext
  rw [next] at hnext
  split_ifs at hnext with hfault
  cases hof : flowOf l with rw [hof] at hnext
  | none =>
    exact step_of_queueNext h hfault hnext
  | some a =>
    dsimp only at hnext
    cases hflow : w.queue.flows a with rw [hflow] at hnext
    | some =>
      exact step_of_flowNext h hfault hof hflow hnext
    | none => cases hnext

theorem inv_init : Inv cfg (fairQueueSystem cfg).init.queue where
  nodup := List.nodup_nil
  mem_list _ := ⟨nofun, fun h => absurd rfl h⟩
  mem_tree _ := ⟨nofun, fun ⟨_, h, _⟩ => nomatch h⟩
  ordered := List.Pairwise.nil
  time := nofun
  idle _ := rfl
  atOutput := nofun
  previous := nofun
  phase := nofun
  output := nofun
  freed := nofun
  waiting h := absurd rfl h

/-- No assertion has failed, and the queue has its invariant. -/
structure WorldInv (cfg : FairQueueConfig) (w : FairQueueWorld) : Prop where
  fault : w.fault = none
  queue : Inv cfg w.queue

theorem worldInv_of_reachable {w : FairQueueWorld} (h : (fairQueueSystem cfg).Reachable w) :
    WorldInv cfg w := by
  refine h.invariant ⟨rfl, inv_init⟩ fun w l w' hw hnext => ?_
  obtain ⟨hfault, hstep⟩ := step_of_next hw.queue hnext
  exact ⟨hfault, hstep.inv hw.queue⟩

/-! ### Rebasing -/

/-- The queue `m'` that `increment_sent_flow` leaves, called in `m` for the flow `a`, which is `f`,
with `amount`. What it subtracts is `shift`: nothing if the sum fits, and otherwise the time of the
first queued flow, or that of `f` if no flow is queued. -/
structure Rebased (cfg : FairQueueConfig) (m : PacketPassFairQueue) (a : ℕ)
    (f : PacketPassFairQueueFlow) (amount : ℕ) (m' : PacketPassFairQueue) : Prop where
  fits : ∀ b g, m'.flows b = some g → g.time ≤ cfg.maxTime
  /-- The tree is not touched, and is in order for the new times. -/
  tree : m'.queuedTree = m.queuedTree
  ordered : InOrder.Ordered compareFlows m'.key m'.queuedTree
  /-- The sum is exact. -/
  finished : m'.flowTime a + m.shift cfg f amount = f.time + amount
  /-- No queued flow is clamped. -/
  queued : ∀ b ∈ m.queuedTree, m'.flowTime b + m.shift cfg f amount = m.flowTime b
  /-- All other flows lose the same, down to zero. -/
  others : ∀ b, b ≠ a → m'.flowTime b = m.flowTime b - m.shift cfg f amount

/-- The times are those at the end of the step. -/
theorem incremented_flowTime {amount shift : ℕ} :
    ((m.released a).incremented a f amount shift).flowTime = (m.finished a f amount shift).flowTime := by
  funext b
  by_cases hba : b = a
  · subst hba
    have hgrown : (grown m b f amount shift).flowTime b = f.time + amount - shift :=
      flowTime_of grown_flows_self
    rw [flowTime_of finished_flows_self]
    exact hgrown
  · rw [finished_flowTime_of_ne hba, flowTime, flowTime]
    dsimp only [incremented, released]
    rw [update_of_ne hba]
    cases m.flows b with
    | none => exact (Nat.zero_sub shift).symm
    | some => rfl

/-- **Rebasing is exact.** When the output is done with a packet, the time of its flow grows by the
amount although the sum may not fit: all times are lowered by the same amount, those that would be
negative to zero, and no flow in the tree is one of these. -/
theorem incrementSentFlow_rebases (cfg : FairQueueConfig) (w : FairQueueWorld) (a : ℕ)
    (h : (fairQueueSystem cfg).Reachable w) (hsending : w.queue.sendingFlow = some a) :
    ∃ f m', w.queue.flows a = some f ∧
      (incrementSentFlow cfg a (cfg.packetWeight + w.queue.sendingLen)).run
        (w.queue.released a) = .ok ((), m') ∧
      Rebased cfg w.queue a f (cfg.packetWeight + w.queue.sendingLen) m' := by
  have hinv := (worldInv_of_reachable h).queue
  obtain ⟨-, -, ⟨f, hflow, hqueued, hlen⟩, -⟩ := hinv.atOutput a hsending
  rw [hlen]
  have hamount := hinv.toCore.amount_le hsending hflow
  obtain ⟨⟨_, m'⟩, hrun, rfl⟩ := incrementSentFlow_spec hinv.toShape hsending hflow hamount
  refine ⟨f, _, hflow, hrun, ?_⟩
  have hshift : ∀ b ∈ w.queue.queuedTree, w.queue.shift cfg f (cfg.packetWeight + f.data.length)
      ≤ w.queue.flowTime b := fun b hb => shift_le_flowTime hinv.toShape hb
  have hafter := hinv.toShape.finished hsending hflow hshift
    (grown_le hinv.toShape hsending hflow hamount)
  refine ⟨fun b g hg => ?_, rfl, ?_, ?_, fun b hb => ?_, fun b hba => ?_⟩
  · rw [← flowTime_of hg, incremented_flowTime]
    exact hafter.flowTime_le b
  · rw [key_eq_of_flowTime incremented_flowTime]
    exact hafter.ordered
  · rw [incremented_flowTime, flowTime_of finished_flows_self]
    exact Nat.sub_add_cancel (shift_le hinv.toShape hflow)
  · have hba : b ≠ a := fun hba =>
      hinv.toShape.not_mem_tree hflow hqueued (hba ▸ hb)
    rw [incremented_flowTime, finished_flowTime_of_ne hba]
    exact Nat.sub_add_cancel (hshift b hb)
  · rw [incremented_flowTime, finished_flowTime_of_ne hba]

/-- Packets of one byte, each with the weight of one more, and times up to three. -/
def smallConfig : FairQueueConfig where
  maxTime := 3
  mtu := 1
  packetWeight := 1
  max_le := by decide
  weight_pos := by decide
  fits := by decide

/-- The output takes the packet and is done with it. -/
def sent : List FairQueueLabel := [.outputOperation, .outputFinish, .outputDone false]

/-- A flow submits a packet of one byte. -/
def submits (a : ℕ) : List FairQueueLabel := [.submit a [0], .inputOperation a]

/-- Two flows take turns until the next increment of the first does not fit. -/
theorem incrementSentFlow_rebases_small : ∃ w, (fairQueueSystem smallConfig).Reachable w ∧
    w.queue.sendingFlow = some 0 ∧ w.queue.queuedTree = [1] ∧
    smallConfig.maxTime < w.queue.flowTime 0 + (smallConfig.packetWeight + w.queue.sendingLen) ∧
    ∃ f m', w.queue.flows 0 = some f ∧
      (incrementSentFlow smallConfig 0 (smallConfig.packetWeight + w.queue.sendingLen)).run
        (w.queue.released 0) = .ok ((), m') ∧
      Rebased smallConfig w.queue 0 f (smallConfig.packetWeight + w.queue.sendingLen) m' := by
  obtain ⟨w, hw, hsending, htree, hover⟩ := (fairQueueSystem smallConfig).exists_of_run
    (fun w => w.queue.sendingFlow = some 0 ∧ w.queue.queuedTree = [1] ∧
      smallConfig.maxTime < w.queue.flowTime 0 + (smallConfig.packetWeight + w.queue.sendingLen))
    ([.flowInit 0, .flowInit 1] ++ submits 0 ++ submits 1
      ++ sent ++ [.inputDone 0] ++ submits 0 ++ [.scheduleJob]
      ++ sent ++ [.inputDone 1] ++ submits 1 ++ [.scheduleJob, .outputOperation, .outputFinish])
    (by decide +kernel)
  exact ⟨w, hw, hsending, htree, hover, incrementSentFlow_rebases _ w 0 hw hsending⟩

end Tun2Socks.Flow.FairQueue
