import Tun2Socks.Flow.PacketProto
import Tun2Socks.Framework.InOrder

/-!
# The fair queue

`PacketPassFairQueue.c`. Any number of flows share one output. A flow has a virtual time, which
grows with every packet by the length of the packet and a fixed weight, and the packet to be sent
next is that of the queued flow whose time is least. Flows are told apart by their addresses, which
also break ties, and the queued flows are in a tree ordered by both.

* `inputHandlerSend` queues the packet of a flow, `schedule` hands the first queued packet to the
  output, and `outputHandlerDone` is called when the output is done with it.
* Between `outputHandlerDone` and the schedule job the flow whose packet was sent is
  `previousFlow`: if it sends again before the job runs, it keeps its time, and any other flow is
  raised to the current time (`getCurrentTime`) when it sends.
* Times are 64 bits wide and at most `FAIRQUEUE_MAX_TIME`. When one would be more, all times are
  lowered (`incrementSentFlow`).

The jobs of the interfaces and the schedule job run in any order, the output takes any time for a
packet, and flows are made and freed at any time, by the busy handler of a flow too, except that the
flow whose packet is at the output is not freed. This is the queue before
`PacketPassFairQueue_PrepareFree`, so `freeing` is not set, and without cancelling, which
`UdpGwClient` does not use.

For the results a flow also records the packets that were submitted on it, passed to the output,
and reported as done.
-/

namespace Tun2Socks.Flow

open Framework Std

/-- `UINT64_MAX`. -/
def uint64Max : ℕ := 2 ^ 64 - 1

/-- A value of type `uint64_t`. -/
def wrap (n : ℕ) : ℕ := n % (uint64Max + 1)

abbrev Packet := List Byte

/-- What `PacketPassFairQueue_Init` was given and has checked. -/
structure FairQueueConfig where
  /-- `FAIRQUEUE_MAX_TIME`, which is `UINT64_MAX` unless it is lowered for a test. -/
  maxTime : ℕ
  /-- The MTU of the output. -/
  mtu : ℕ
  packetWeight : ℕ
  max_le : maxTime ≤ uint64Max
  weight_pos : 0 < packetWeight
  fits : mtu + packetWeight ≤ maxTime

structure PacketPassFairQueueFlow where
  /-- `handler_busy` is not `NULL`. -/
  handlerBusy : Bool
  input : Interface Packet Unit
  time : ℕ
  isQueued : Bool
  /-- `queued.data` and `queued.data_len`. -/
  data : Packet
  submitted : List Packet
  passed : List Packet
  completed : List Packet

structure PacketPassFairQueue where
  output : Interface Packet Unit
  sendingFlow : Option ℕ
  sendingLen : ℕ
  previousFlow : Option ℕ
  queuedTree : List ℕ
  flowsList : List ℕ
  /-- The flow at an address. -/
  flows : ℕ → Option PacketPassFairQueueFlow
  /-- `schedule_job` is set. -/
  scheduleJob : Bool
  /-- The flows that were freed. -/
  freed : List PacketPassFairQueueFlow

/-- `compare_flows`. -/
def compareFlows : ℕ × ℕ → ℕ × ℕ → Ordering :=
  compareLex (compareOn Prod.fst) (compareOn Prod.snd)

instance : TransCmp compareFlows := inferInstanceAs (TransCmp (compareLex _ _))

namespace PacketPassFairQueue

abbrev M := Checked Fault PacketPassFairQueue

/-- The time of the flow at an address. -/
def flowTime (m : PacketPassFairQueue) (a : ℕ) : ℕ :=
  match m.flows a with
  | none => 0
  | some flow => flow.time

/-- What the tree compares. -/
def key (m : PacketPassFairQueue) (a : ℕ) : ℕ × ℕ := (m.flowTime a, a)

def getFlow (a : ℕ) : M PacketPassFairQueueFlow := do
  match (← get).flows a with
  | none => throw .memory
  | some flow => return flow

def setFlow (a : ℕ) (flow : PacketPassFairQueueFlow) : M Unit :=
  modify fun m => { m with flows := Function.update m.flows a (some flow) }

/-- The time of the first flow in the tree. -/
def firstTime : M (Option ℕ) := do
  match (← get).queuedTree.head? with
  | none => return none
  | some a =>
    let flow ← getFlow a
    ensure (flow.isQueued = true) .assert
    return some flow.time

def getCurrentTime : M ℕ := do
  match (← get).sendingFlow with
  | some a => return (← getFlow a).time
  | none =>
    let first ← firstTime
    match (← get).previousFlow with
    | none => return first.getD 0
    | some a =>
      let previous ← getFlow a
      match first with
      | none => return previous.time
      | some time => return if previous.time < time then previous.time else time

/-- The loop of `increment_sent_flow`. The time of the flow itself may become negative, that is
wrap around, and be right again when the amount is added. -/
def subtractTime (flow subtract : ℕ) : List ℕ → M Unit
  | [] => return
  | a :: rest => do
    let someflow ← getFlow a
    if someflow.time < subtract ∧ a ≠ flow then
      ensure (someflow.isQueued = false) .assert
      setFlow a { someflow with time := 0 }
    else setFlow a { someflow with time := wrap (someflow.time + (uint64Max + 1) - subtract) }
    subtractTime flow subtract rest

variable (cfg : FairQueueConfig)

/-- If the time of the flow would overflow, time is subtracted from all flows. -/
def makeRoom (a : ℕ) (flow : PacketPassFairQueueFlow) (amount : ℕ) : M Unit := do
  if cfg.maxTime - flow.time < amount then
    let first ← firstTime
    subtractTime a (first.getD flow.time) (← get).flowsList

def incrementSentFlow (a amount : ℕ) : M Unit := do
  let flow ← getFlow a
  ensure (amount ≤ cfg.maxTime) .assert
  ensure (flow.isQueued = false) .assert
  ensure ((← get).sendingFlow = none) .assert
  makeRoom cfg a flow amount
  let flow ← getFlow a
  setFlow a { flow with time := wrap (flow.time + amount) }

/-- `PacketPassInterface_Sender_Send` to the output. -/
def sendToOutput (data : Packet) : M Unit := do
  ensure (data.length ≤ cfg.mtu) .assert
  ensure ((← get).output = .none) .assert
  modify fun m => { m with output := .operationPending data }

def schedule : M Unit := do
  ensure ((← get).sendingFlow = none) .assert
  ensure ((← get).previousFlow = none) .assert
  match (← get).queuedTree with
  | [] => throw .assert
  | a :: rest =>
    let qflow ← getFlow a
    ensure (qflow.isQueued = true) .assert
    modify fun m => { m with queuedTree := rest }
    setFlow a { qflow with isQueued := false, passed := qflow.passed ++ [qflow.data] }
    sendToOutput cfg qflow.data
    modify fun m => { m with sendingFlow := some a, sendingLen := qflow.data.length }

def scheduleJobHandler : M Unit := do
  ensure ((← get).sendingFlow = none) .assert
  modify fun m => { m with previousFlow := none }
  if (← get).queuedTree ≠ [] then schedule cfg

/-- The flow is put into the tree with its packet. -/
def queueFlow (a : ℕ) (data : Packet) : M Unit := do
  let flow ← getFlow a
  setFlow a { flow with data }
  let m ← get
  match InOrder.insert compareFlows m.key a m.queuedTree with
  | none => throw .assert
  | some queuedTree =>
    modify fun m => { m with queuedTree }
    setFlow a { flow with data, isQueued := true }

/-- The time of a flow that sends is raised, unless its last packet was sent just now. -/
def raiseTime (a : ℕ) (flow : PacketPassFairQueueFlow) : M Unit := do
  if (← get).previousFlow = some a then modify fun m => { m with previousFlow := none }
  else
    let now ← getCurrentTime
    setFlow a { flow with time := max flow.time now }

def inputHandlerSend (a : ℕ) (data : Packet) : M Unit := do
  ensure ((← get).sendingFlow ≠ some a) .assert
  let flow ← getFlow a
  ensure (flow.isQueued = false) .assert
  raiseTime a flow
  queueFlow a data
  let m ← get
  if m.sendingFlow = none ∧ m.scheduleJob = false then schedule cfg

/-- `PacketPassFairQueueFlow_Init`. -/
def flowInit (a : ℕ) : M Unit := do
  setFlow a {
    handlerBusy := false
    input := .none
    time := 0
    isQueued := false
    data := []
    submitted := []
    passed := []
    completed := [] }
  modify fun m => { m with flowsList := m.flowsList ++ [a] }

/-- `PacketPassFairQueueFlow_Free`. -/
def flowFree (a : ℕ) : M Unit := do
  let flow ← getFlow a
  ensure ((← get).sendingFlow ≠ some a) .assert
  modify fun m => { m with
    previousFlow := if m.previousFlow = some a then none else m.previousFlow
    queuedTree := if flow.isQueued then m.queuedTree.erase a else m.queuedTree
    flowsList := m.flowsList.erase a
    flows := Function.update m.flows a none
    freed := flow :: m.freed }

/-- `PacketPassInterface_Done` to the flow whose packet was sent. -/
def flowDone (a : ℕ) : M Unit := do
  let flow ← getFlow a
  ensure flow.input.IsBusy .assert
  setFlow a { flow with input := .donePending (), completed := flow.completed ++ [flow.data] }

/-- `output_handler_done`; `frees` says whether the busy handler frees its flow. -/
def outputHandlerDone (frees : Bool) : M Unit := do
  match (← get).sendingFlow with
  | none => throw .assert
  | some a =>
    ensure ((← get).previousFlow = none) .assert
    ensure ((← get).scheduleJob = false) .assert
    ensure ((← getFlow a).isQueued = false) .assert
    modify fun m => { m with sendingFlow := none, previousFlow := some a }
    incrementSentFlow cfg a (cfg.packetWeight + (← get).sendingLen)
    modify fun m => { m with scheduleJob := true }
    flowDone a
    let flow ← getFlow a
    -- the handler is one-shot
    if flow.handlerBusy then
      setFlow a { flow with handlerBusy := false }
      if frees then flowFree a

/-- `PacketPassFairQueueFlow_SetBusyHandler`. -/
def setBusyHandler (a : ℕ) : M Unit := do
  ensure ((← get).sendingFlow = some a) .assert
  let flow ← getFlow a
  setFlow a { flow with handlerBusy := true }

end PacketPassFairQueue

/-! ### The system -/

structure FairQueueWorld where
  queue : PacketPassFairQueue
  fault : Option Fault

inductive FairQueueLabel
  | flowInit (a : ℕ)
  /-- The user of a flow sends a packet. -/
  | submit (a : ℕ) (data : Packet)
  | inputOperation (a : ℕ)
  | inputDone (a : ℕ)
  | outputOperation
  /-- The output is done with its packet. -/
  | outputFinish
  | outputDone (frees : Bool)
  | scheduleJob
  | setBusyHandler (a : ℕ)
  | flowFree (a : ℕ)
  deriving DecidableEq

namespace FairQueueWorld

variable (cfg : FairQueueConfig)

def leave (w : FairQueueWorld) : Except Fault (Unit × PacketPassFairQueue) → FairQueueWorld
  | .ok (_, queue) => { w with queue }
  | .error f => { w with fault := some f }

/-- Steps at a flow. -/
def flowNext (w : FairQueueWorld) (a : ℕ) (flow : PacketPassFairQueueFlow) :
    FairQueueLabel → Option FairQueueWorld
  | .submit _ data =>
    if flow.input = .none ∧ data.length ≤ cfg.mtu then
      some (w.leave ((PacketPassFairQueue.setFlow a { flow with
        input := .operationPending data
        submitted := flow.submitted ++ [data] }).run w.queue))
    else none
  | .inputOperation _ =>
    match flow.input with
    | .operationPending data =>
      some (w.leave ((do
        PacketPassFairQueue.setFlow a { flow with input := .busy data }
        PacketPassFairQueue.inputHandlerSend cfg a data).run w.queue))
    | _ => none
  | .inputDone _ =>
    if flow.input = .donePending () then
      some (w.leave ((PacketPassFairQueue.setFlow a { flow with input := .none }).run w.queue))
    else none
  | .setBusyHandler _ =>
    if w.queue.sendingFlow = some a then
      some (w.leave ((PacketPassFairQueue.setBusyHandler a).run w.queue))
    else none
  | .flowFree _ =>
    if w.queue.sendingFlow ≠ some a then
      some (w.leave ((PacketPassFairQueue.flowFree a).run w.queue))
    else none
  | _ => none

/-- Steps of the queue and its output. -/
def queueNext (w : FairQueueWorld) : FairQueueLabel → Option FairQueueWorld
  | .flowInit a =>
    match w.queue.flows a with
    | none => some (w.leave ((PacketPassFairQueue.flowInit a).run w.queue))
    | some _ => none
  | .outputOperation =>
    match w.queue.output with
    | .operationPending data => some { w with queue := { w.queue with output := .busy data } }
    | _ => none
  | .outputFinish =>
    match w.queue.output with
    | .busy _ => some { w with queue := { w.queue with output := .donePending () } }
    | _ => none
  | .outputDone frees =>
    if w.queue.output = .donePending () then
      some (w.leave ((PacketPassFairQueue.outputHandlerDone cfg frees).run
        { w.queue with output := .none }))
    else none
  | .scheduleJob =>
    if w.queue.scheduleJob then
      some (w.leave ((PacketPassFairQueue.scheduleJobHandler cfg).run
        { w.queue with scheduleJob := false }))
    else none
  | _ => none

/-- The flow that a label is about. -/
def flowOf : FairQueueLabel → Option ℕ
  | .submit a _ | .inputOperation a | .inputDone a | .setBusyHandler a | .flowFree a => some a
  | .flowInit _ | .outputOperation | .outputFinish | .outputDone _ | .scheduleJob => none

def next (w : FairQueueWorld) (l : FairQueueLabel) : Option FairQueueWorld :=
  if w.fault = none then
    match flowOf l with
    | none => w.queueNext cfg l
    | some a =>
      match w.queue.flows a with
      | none => none
      | some flow => w.flowNext cfg a flow l
  else none

end FairQueueWorld

/-- `PacketPassFairQueue_Init`. -/
def fairQueueSystem (cfg : FairQueueConfig) : System FairQueueWorld FairQueueLabel where
  init := {
    queue := {
      output := .none
      sendingFlow := none
      sendingLen := 0
      previousFlow := none
      queuedTree := []
      flowsList := []
      flows := fun _ => none
      scheduleJob := false
      freed := [] }
    fault := none }
  next := FairQueueWorld.next cfg

end Tun2Socks.Flow
