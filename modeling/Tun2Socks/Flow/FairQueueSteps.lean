import Tun2Socks.Flow.FairQueue

/-!
# What a step of the fair queue does

The invariant of the queue, and the effect of every step under it. The handlers check what they
rely on, so that the effect of a handler is a plain function of the queue only where the invariant
holds; `step_of_next` is this, once for all labels, and the results about the queue are proved over
`Step` alone.

* `Phase` — how far a flow is with its packet, from the state of its input: the packets submitted,
  passed to the output and reported as done differ by at most the one packet the flow has.
* `Inv` — the tree holds the queued flows in the order of their times; at most one packet is at the
  output, and its flow has the least time.
* `finished` — the one step that changes the times of flows that have a packet:
  it adds to one and lowers all by the same amount. `incrementSentFlow_spec` shows that this is what
  the arithmetic modulo `2 ^ 64` computes.
-/

namespace Tun2Socks.Flow

open Framework Function PacketPassFairQueue

namespace FairQueue

variable {cfg : FairQueueConfig} {m m' : PacketPassFairQueue} {a b : ℕ}
  {f g : PacketPassFairQueueFlow}

/-! ### The invariant -/

/-- How far a flow is with its packet; the index says whether the packet is at the output. -/
inductive Phase (cfg : FairQueueConfig) (f : PacketPassFairQueueFlow) : Bool → Prop
  | idle (hinput : f.input = .none ∨ f.input = .donePending ()) (hqueued : f.isQueued = false)
      (hsubmitted : f.submitted = f.passed) (hpassed : f.passed = f.completed) : Phase cfg f false
  | pending (data : Packet) (hinput : f.input = .operationPending data)
      (hlen : data.length ≤ cfg.mtu) (hqueued : f.isQueued = false)
      (hsubmitted : f.submitted = f.passed ++ [data]) (hpassed : f.passed = f.completed) :
      Phase cfg f false
  | queued (hinput : f.input = .busy f.data) (hlen : f.data.length ≤ cfg.mtu)
      (hqueued : f.isQueued = true) (hsubmitted : f.submitted = f.passed ++ [f.data])
      (hpassed : f.passed = f.completed) : Phase cfg f false
  | sending (hinput : f.input = .busy f.data) (hlen : f.data.length ≤ cfg.mtu)
      (hqueued : f.isQueued = false) (hsubmitted : f.submitted = f.passed)
      (hpassed : f.passed = f.completed ++ [f.data]) : Phase cfg f true

/-- The packet of the flow `a` is at the output. -/
structure AtOutput (m : PacketPassFairQueue) (a : ℕ) : Prop where
  previous : m.previousFlow = none
  job : m.scheduleJob = false
  flow : ∃ f, m.flows a = some f ∧ f.isQueued = false ∧ m.sendingLen = f.data.length
  least : ∀ b ∈ m.queuedTree, m.flowTime a ≤ m.flowTime b

/-- How the queue and its flows refer to each other. -/
structure Shape (cfg : FairQueueConfig) (m : PacketPassFairQueue) : Prop where
  nodup : m.flowsList.Nodup
  mem_list : ∀ a, a ∈ m.flowsList ↔ m.flows a ≠ none
  mem_tree : ∀ a, a ∈ m.queuedTree ↔ ∃ f, m.flows a = some f ∧ f.isQueued = true
  ordered : InOrder.Ordered compareFlows m.key m.queuedTree
  time : ∀ a f, m.flows a = some f → f.time ≤ cfg.maxTime
  idle : m.sendingFlow = none → m.output = .none
  atOutput : ∀ a, m.sendingFlow = some a → AtOutput m a
  previous : ∀ a, m.previousFlow = some a →
    m.scheduleJob = true ∧ ∃ f, m.flows a = some f ∧ f.isQueued = false

/-- A freed flow had every packet that was passed on reported, and at most one that was not passed
on. -/
def Ended (f : PacketPassFairQueueFlow) : Prop :=
  f.passed = f.completed ∧ (f.submitted = f.passed ∨ ∃ data, f.submitted = f.passed ++ [data])

/-- What holds between two steps, and inside a step before it looks for the next packet. -/
structure Core (cfg : FairQueueConfig) (m : PacketPassFairQueue) : Prop extends Shape cfg m where
  phase : ∀ a f, m.flows a = some f → Phase cfg f (decide (m.sendingFlow = some a))
  /-- What is at the output is the packet of the flow that is sending. -/
  output : ∀ a f, m.sendingFlow = some a → m.flows a = some f →
    m.output.Started f.data ∨ m.output = .donePending ()
  freed : ∀ f ∈ m.freed, Ended f

/-- What holds between two steps. -/
structure Inv (cfg : FairQueueConfig) (m : PacketPassFairQueue) : Prop extends Core cfg m where
  /-- A queued packet is not forgotten. -/
  waiting : m.queuedTree ≠ [] → m.sendingFlow ≠ none ∨ m.scheduleJob = true

end FairQueue

/-! ### The effects -/

namespace PacketPassFairQueue

variable (m : PacketPassFairQueue)

/-- A flow is written. -/
def put (a : ℕ) (f : PacketPassFairQueueFlow) : PacketPassFairQueue :=
  { m with flows := update m.flows a (some f) }

/-- The current time. -/
def now : ℕ :=
  match m.sendingFlow with
  | some a => m.flowTime a
  | none =>
    match m.queuedTree.head?, m.previousFlow with
    | none, none => 0
    | some a, none => m.flowTime a
    | none, some p => m.flowTime p
    | some a, some p => min (m.flowTime p) (m.flowTime a)

/-- The time of a flow that sends. -/
def raised (a : ℕ) (f : PacketPassFairQueueFlow) : ℕ :=
  if m.previousFlow = some a then f.time else max f.time m.now

/-- The flow `a` has the time to send with. -/
def withRaised (a : ℕ) (f : PacketPassFairQueueFlow) : PacketPassFairQueue :=
  { m with
    previousFlow := if m.previousFlow = some a then none else m.previousFlow
    flows := update m.flows a (some { f with time := m.raised a f }) }

/-- The flow `a` is in the tree with its packet. -/
def queued (a : ℕ) (f : PacketPassFairQueueFlow) (data : Packet) (tree : List ℕ) :
    PacketPassFairQueue :=
  { m with
    previousFlow := if m.previousFlow = some a then none else m.previousFlow
    flows := update m.flows a (some { f with
      input := .busy data
      time := m.raised a f
      data
      isQueued := true })
    queuedTree := tree }

/-- The packet of the flow `a`, the first in the tree, is at the output. -/
def scheduled (a : ℕ) (f : PacketPassFairQueueFlow) (rest : List ℕ) : PacketPassFairQueue :=
  { m with
    queuedTree := rest
    flows := update m.flows a (some { f with
      isQueued := false
      passed := f.passed ++ [f.data] })
    output := .operationPending f.data
    sendingFlow := some a
    sendingLen := f.data.length }

/-- What is subtracted from all times when that of `f` grows by `amount`. -/
def shift (cfg : FairQueueConfig) (f : PacketPassFairQueueFlow) (amount : ℕ) : ℕ :=
  if cfg.maxTime - f.time < amount then (m.queuedTree.head?.map m.flowTime).getD f.time else 0

/-- The flow `a` is no longer sending, and is remembered. -/
def released (a : ℕ) : PacketPassFairQueue :=
  { m with output := .none, sendingFlow := none, previousFlow := some a }

/-- The time of the flow `a` grows by `amount`, and all times are lowered by `shift`. -/
def incremented (a : ℕ) (f : PacketPassFairQueueFlow) (amount shift : ℕ) : PacketPassFairQueue :=
  { m with
    flows := update
      (fun b => (m.flows b).map fun g => { g with time := g.time - shift }) a
      (some { f with time := f.time + amount - shift }) }

/-- The output is done with the packet of the flow `a`. Its time grows by `amount`, and all times
are lowered by `shift`. -/
def finished (a : ℕ) (f : PacketPassFairQueueFlow) (amount shift : ℕ) : PacketPassFairQueue :=
  { m with
    output := .none
    sendingFlow := none
    previousFlow := some a
    scheduleJob := true
    flows := update
      (fun b => (m.flows b).map fun g => { g with time := g.time - shift }) a
      (some { f with
        time := f.time + amount - shift
        handlerBusy := false
        input := .donePending ()
        completed := f.completed ++ [f.data] }) }

/-- The flow `a` is freed. -/
def freedFlow (a : ℕ) (f : PacketPassFairQueueFlow) : PacketPassFairQueue :=
  { m with
    previousFlow := if m.previousFlow = some a then none else m.previousFlow
    queuedTree := m.queuedTree.erase a
    flowsList := m.flowsList.erase a
    flows := update m.flows a none
    freed := f :: m.freed }

end PacketPassFairQueue

namespace FairQueue

variable {cfg : FairQueueConfig} {m m' : PacketPassFairQueue} {a b : ℕ}
  {f g : PacketPassFairQueueFlow}

/-- What is left after looking for the next packet: nothing changes while a packet is at the output
or the schedule job is to look later. -/
inductive Rescheduled (m : PacketPassFairQueue) : PacketPassFairQueue → Prop
  | later (h : m.sendingFlow ≠ none ∨ m.scheduleJob = true ∨ m.queuedTree = []) : Rescheduled m m
  | now (a : ℕ) (f : PacketPassFairQueueFlow) (rest : List ℕ) (hsending : m.sendingFlow = none)
      (hjob : m.scheduleJob = false) (hprevious : m.previousFlow = none)
      (htree : m.queuedTree = a :: rest) (hflow : m.flows a = some f) :
      Rescheduled m (m.scheduled a f rest)

/-- **What a step does.** -/
inductive Step (cfg : FairQueueConfig) (m : PacketPassFairQueue) :
    FairQueueLabel → PacketPassFairQueue → Prop
  | flowInit (a : ℕ) (hflow : m.flows a = none) : Step cfg m (.flowInit a)
      { m.put a ⟨false, .none, 0, false, [], [], [], []⟩ with flowsList := m.flowsList ++ [a] }
  | submit (a : ℕ) (f : PacketPassFairQueueFlow) (data : Packet) (hflow : m.flows a = some f)
      (hinput : f.input = .none) (hlen : data.length ≤ cfg.mtu) : Step cfg m (.submit a data)
      (m.put a { f with
        input := .operationPending data
        submitted := f.submitted ++ [data] })
  | inputOperation (a : ℕ) (f : PacketPassFairQueueFlow) (data : Packet) (tree : List ℕ)
      (m' : PacketPassFairQueue) (hflow : m.flows a = some f) (hinput : f.input = .operationPending data)
      (hinsert : InOrder.insert compareFlows (m.queued a f data m.queuedTree).key a m.queuedTree
        = some tree)
      (hnext : Rescheduled (m.queued a f data tree) m') : Step cfg m (.inputOperation a) m'
  | inputDone (a : ℕ) (f : PacketPassFairQueueFlow) (hflow : m.flows a = some f)
      (hinput : f.input = .donePending ()) : Step cfg m (.inputDone a)
      (m.put a { f with input := .none })
  | outputOperation (data : Packet) (houtput : m.output = .operationPending data) :
      Step cfg m .outputOperation { m with output := .busy data }
  | outputFinish (data : Packet) (houtput : m.output = .busy data) :
      Step cfg m .outputFinish { m with output := .donePending () }
  | outputDone (a : ℕ) (f : PacketPassFairQueueFlow) (shift : ℕ) (frees : Bool)
      (m' : PacketPassFairQueue)
      (hsending : m.sendingFlow = some a) (hflow : m.flows a = some f)
      (hshift : ∀ b ∈ m.queuedTree, shift ≤ m.flowTime b)
      (hle : shift ≤ f.time + (cfg.packetWeight + f.data.length))
      (hmax : f.time + (cfg.packetWeight + f.data.length) - shift ≤ cfg.maxTime)
      (hnext : m' = m.finished a f (cfg.packetWeight + f.data.length) shift ∨
        ∃ g, (m.finished a f (cfg.packetWeight + f.data.length) shift).flows a = some g ∧
          m' = (m.finished a f (cfg.packetWeight + f.data.length) shift).freedFlow a g) :
      Step cfg m (.outputDone frees) m'
  | scheduleJob (m' : PacketPassFairQueue) (hjob : m.scheduleJob = true)
      (hsending : m.sendingFlow = none)
      (hnext : Rescheduled { m with scheduleJob := false, previousFlow := none } m') :
      Step cfg m .scheduleJob m'
  | setBusyHandler (a : ℕ) (f : PacketPassFairQueueFlow) (hflow : m.flows a = some f)
      (hsending : m.sendingFlow = some a) : Step cfg m (.setBusyHandler a)
      (m.put a { f with handlerBusy := true })
  | flowFree (a : ℕ) (f : PacketPassFairQueueFlow) (hflow : m.flows a = some f)
      (hsending : m.sendingFlow ≠ some a) : Step cfg m (.flowFree a) (m.freedFlow a f)

/-! ### Small facts -/

section Facts

theorem flowTime_of (h : m.flows a = some f) : m.flowTime a = f.time := by
  rw [flowTime, h]

@[simp] theorem put_flows_self : (m.put a f).flows a = some f := update_self _ _ _

theorem put_flows_of_ne (h : b ≠ a) : (m.put a f).flows b = m.flows b :=
  update_of_ne h _ _

/-- A flow that is written with the same time leaves all times as they are. -/
theorem flowTime_put (h : m.flows a = some f) (htime : g.time = f.time) :
    (m.put a g).flowTime = m.flowTime := by
  funext b
  by_cases hb : b = a
  · subst hb
    rw [flowTime_of put_flows_self, flowTime_of h, htime]
  · rw [flowTime, flowTime, put_flows_of_ne hb]

theorem now_put (h : m.flows a = some f) (htime : g.time = f.time) : (m.put a g).now = m.now := by
  rw [now, now, flowTime_put h htime]
  rfl

/-- Nor does it change which flows have a property that it keeps. -/
theorem exists_put (h : m.flows a = some f) {P : PacketPassFairQueueFlow → Prop} (hP : P g ↔ P f)
    (b : ℕ) :
    (∃ f', (m.put a g).flows b = some f' ∧ P f') ↔ ∃ f', m.flows b = some f' ∧ P f' := by
  by_cases hb : b = a
  · subst hb
    rw [put_flows_self, h]
    simp only [Option.some.injEq, exists_eq_left', hP]
  · rw [put_flows_of_ne hb]

theorem key_eq_of_flowTime (h : m'.flowTime = m.flowTime) : m'.key = m.key := by
  funext b
  rw [key, key, h]

/-- A flow may be written as long as its place in the queue stays what it is. -/
theorem Shape.put (h : Shape cfg m) (hflow : m.flows a = some f) (htime : g.time = f.time)
    (hqueued : g.isQueued = f.isQueued) (hdata : g.data = f.data) : Shape cfg (m.put a g) := by
  have htimes := flowTime_put hflow htime
  exact {
    nodup := h.nodup
    mem_list := by
      intro b
      refine (h.mem_list b).trans ?_
      by_cases hb : b = a
      · subst hb
        rw [put_flows_self, hflow]
        exact iff_of_true nofun nofun
      · rw [put_flows_of_ne hb]
    mem_tree := fun b => (h.mem_tree b).trans (exists_put hflow (by rw [hqueued]) b).symm
    ordered := by
      rw [key_eq_of_flowTime htimes]
      exact h.ordered
    time := by
      intro b f' hb
      by_cases hba : b = a
      · subst hba
        obtain rfl := Option.some.inj (put_flows_self.symm.trans hb)
        rw [htime]
        exact h.time _ f hflow
      · rw [put_flows_of_ne hba] at hb
        exact h.time b f' hb
    idle := h.idle
    atOutput := by
      intro b hb
      have hat := h.atOutput b hb
      refine ⟨hat.previous, hat.job, ?_, ?_⟩
      · exact (exists_put hflow (by rw [hqueued, hdata]) b).mpr hat.flow
      · rw [htimes]
        exact hat.least
    previous := by
      intro b hb
      obtain ⟨hjob, hprev⟩ := h.previous b hb
      exact ⟨hjob, (exists_put hflow (by rw [hqueued]) b).mpr hprev⟩ }

theorem compareFlows_eq_lt {p q : ℕ × ℕ} :
    compareFlows p q = .lt ↔ p.1 < q.1 ∨ p.1 = q.1 ∧ p.2 < q.2 := by
  change (compare p.1 q.1).then (compare p.2 q.2) = .lt ↔ _
  obtain h | h | h := lt_trichotomy p.1 q.1
  · rw [Nat.compare_eq_lt.mpr h]
    exact iff_of_true rfl (.inl h)
  · rw [Nat.compare_eq_eq.mpr h]
    refine Nat.compare_eq_lt.trans ⟨fun hlt => .inr ⟨h, hlt⟩, ?_⟩
    rintro (hlt | hlt)
    · exact absurd h hlt.ne
    · exact hlt.2
  · rw [Nat.compare_eq_gt.mpr h]
    refine iff_of_false nofun ?_
    rintro (hlt | hlt)
    · exact absurd hlt h.asymm
    · exact absurd hlt.1 h.ne'

theorem key_ne_of_ne (h : a ≠ b) : compareFlows (m.key a) (m.key b) ≠ .eq := by
  intro heq
  have hsnd := (compareLex_eq_eq.mp heq).2
  exact h (Nat.compare_eq_eq.mp hsnd)

/-- The first flow of the tree has the least time. -/
theorem Shape.head_least (h : Shape cfg m) {rest : List ℕ} (htree : m.queuedTree = a :: rest) :
    ∀ b ∈ m.queuedTree, m.flowTime a ≤ m.flowTime b := by
  have hordered := h.ordered
  rw [htree] at hordered ⊢
  intro b hb
  obtain rfl | hb := List.mem_cons.mp hb
  · exact le_rfl
  · obtain hlt | heq := compareFlows_eq_lt.mp ((List.pairwise_cons.mp hordered).1 b hb)
    · exact hlt.le
    · exact heq.1.le

/-- Everything in the tree is a flow, with a time that fits. -/
theorem Shape.flowTime_le (h : Shape cfg m) (a : ℕ) : m.flowTime a ≤ cfg.maxTime := by
  rw [flowTime]
  cases hflow : m.flows a with
  | none => exact Nat.zero_le _
  | some f => exact h.time a f hflow

theorem Shape.now_le (h : Shape cfg m) : m.now ≤ cfg.maxTime := by
  rw [now]
  split
  · exact h.flowTime_le _
  · split
    · exact Nat.zero_le _
    · exact h.flowTime_le _
    · exact h.flowTime_le _
    · exact (Nat.min_le_left _ _).trans (h.flowTime_le _)

theorem now_of_sending (h : m.sendingFlow = some a) : m.now = m.flowTime a := by
  rw [now, h]

theorem Shape.not_mem_tree (h : Shape cfg m) (hflow : m.flows a = some f)
    (hqueued : f.isQueued = false) : a ∉ m.queuedTree := by
  intro hmem
  obtain ⟨f', hflow', hqueued'⟩ := (h.mem_tree a).mp hmem
  obtain rfl := Option.some.inj (hflow.symm.trans hflow')
  rw [hqueued] at hqueued'
  exact Bool.false_ne_true hqueued'

end Facts

/-! ### Phases -/

section Phases

variable {sending : Bool}

theorem Phase.of_idle (h : Phase cfg f sending)
    (hinput : f.input = .none ∨ f.input = .donePending ()) :
    sending = false ∧ f.isQueued = false ∧ f.submitted = f.passed ∧ f.passed = f.completed := by
  cases h with
  | idle _ hqueued hsubmitted hpassed => exact ⟨rfl, hqueued, hsubmitted, hpassed⟩
  | pending _ hpending => rw [hpending] at hinput; obtain h | h := hinput <;> cases h
  | queued hbusy | sending hbusy => rw [hbusy] at hinput; obtain h | h := hinput <;> cases h

theorem Phase.of_pending (h : Phase cfg f sending) {data : Packet}
    (hinput : f.input = .operationPending data) :
    sending = false ∧ data.length ≤ cfg.mtu ∧ f.isQueued = false ∧
      f.submitted = f.passed ++ [data] ∧ f.passed = f.completed := by
  cases h with
  | idle hidle => rw [hinput] at hidle; obtain h | h := hidle <;> cases h
  | pending _ hpending hlen hqueued hsubmitted hpassed =>
    obtain rfl := Interface.operationPending.inj (hinput.symm.trans hpending)
    exact ⟨rfl, hlen, hqueued, hsubmitted, hpassed⟩
  | queued hbusy | sending hbusy => rw [hbusy] at hinput; cases hinput

theorem Phase.of_queued (h : Phase cfg f sending) (hqueued : f.isQueued = true) :
    sending = false ∧ f.input = .busy f.data ∧ f.data.length ≤ cfg.mtu ∧
      f.submitted = f.passed ++ [f.data] ∧ f.passed = f.completed := by
  cases h with
  | idle _ hnot | pending _ _ _ hnot => rw [hqueued] at hnot; cases hnot
  | queued hinput hlen _ hsubmitted hpassed => exact ⟨rfl, hinput, hlen, hsubmitted, hpassed⟩
  | sending _ _ hnot => rw [hqueued] at hnot; cases hnot

/-- The phase does not depend on the time and the handler. -/
theorem Phase.withTime (h : Phase cfg f sending) (time : ℕ) (handlerBusy : Bool) :
    Phase cfg { f with time, handlerBusy } sending := by
  cases h with
  | idle hinput hqueued hsubmitted hpassed => exact .idle hinput hqueued hsubmitted hpassed
  | pending data hinput hlen hqueued hsubmitted hpassed =>
    exact .pending data hinput hlen hqueued hsubmitted hpassed
  | queued hinput hlen hqueued hsubmitted hpassed =>
    exact .queued hinput hlen hqueued hsubmitted hpassed
  | sending hinput hlen hqueued hsubmitted hpassed =>
    exact .sending hinput hlen hqueued hsubmitted hpassed

/-- A flow that is not sending can be freed. -/
theorem Phase.ended (h : Phase cfg f false) : Ended f := by
  cases h with
  | idle _ _ hsubmitted hpassed => exact ⟨hpassed, .inl hsubmitted⟩
  | pending data _ _ _ hsubmitted hpassed => exact ⟨hpassed, .inr ⟨data, hsubmitted⟩⟩
  | queued _ _ _ hsubmitted hpassed => exact ⟨hpassed, .inr ⟨f.data, hsubmitted⟩⟩

end Phases

end FairQueue

end Tun2Socks.Flow
