import Tun2Socks.Framework.History
import Tun2Socks.Reactor.Synchronize

/-!
# The packet pass interface

`PacketPassInterface`: a sender passes packets to a provider, one at a time. The sender sends a
packet, and a job calls the provider's operation handler with it; the provider reports that it is
done, and another job calls the sender's done handler. In between the sender may ask to cancel. If
the operation has not begun, it is dropped and the packet counts as done; if the provider has the
packet, a third job calls its cancel handler, once; otherwise there is nothing to cancel.

All three jobs are in a `BPendingGroup` together with the jobs of everybody else, which are made,
set, unset, freed and run in between. A handler is called last in its job, so what it does are steps
of their own, and in these it may call the interface again.

The log has all calls and callbacks; `rounds` reads it as one list of events for each packet.
`Round.Permits` says when a callback is allowed.
-/

namespace Tun2Socks.Flow

open Framework Reactor BPendingGroup

/-! ### The interface -/

/-- `PPI_STATE_NONE` and so on. -/
inductive PpiState
  | none
  | operationPending
  | busy
  | donePending
  deriving DecidableEq, Repr

/-- The arguments `data` and `data_len`; `data` may be `NULL`. -/
structure PassedPacket where
  data : Option ℕ
  dataLen : ℤ
  deriving DecidableEq, Repr

structure PacketPassInterface where
  mtu : ℤ
  /-- The handler is not `NULL`. -/
  handlerRequestcancel : Bool
  /-- The handler is not `NULL`. -/
  handlerDone : Bool
  /-- `job_operation_data` and `job_operation_len`. -/
  jobOperation : PassedPacket
  cancelRequested : Bool
  state : PpiState
  deriving DecidableEq, Repr

/-- The calls by the sender and by the provider, and the callbacks. -/
inductive PassEvent
  | send (packet : PassedPacket)
  | requestCancel
  /-- `handler_operation` is called. -/
  | operation (packet : PassedPacket)
  /-- `handler_requestcancel` is called. -/
  | cancel
  /-- The provider calls `PacketPassInterface_Done`. -/
  | complete
  /-- `handler_done` is called. -/
  | done
  | freed
  deriving DecidableEq, Repr

/-- The interface, the jobs, and what has happened. -/
structure Pass where
  i : PacketPassInterface
  group : BPendingGroup
  log : List PassEvent

abbrev PassM := Checked JobFault Pass

/-- The three jobs of the interface. -/
inductive PassJob
  | operation
  | requestcancel
  | done
  deriving DecidableEq, Repr

/-- Where a job is. The jobs of others are elsewhere. -/
def PassJob.address : PassJob → ℕ
  | .operation => 0
  | .requestcancel => 1
  | .done => 2

namespace Pass

/-- Something is done to jobs. -/
def jobs (x : JobM Unit) : PassM Unit := focus Pass.group (fun s group => { s with group }) x

def record (e : PassEvent) : PassM Unit := modify fun s => { s with log := s.log ++ [e] }

/-- The fields of the interface are written. -/
def update (f : PacketPassInterface → PacketPassInterface) : PassM Unit :=
  modify fun s => { s with i := f s.i }

/-- `PacketPassInterface_Init`. -/
def init (mtu : ℤ) : PassM Unit := do
  ensure (0 ≤ mtu) .assert
  update fun i => { i with mtu, handlerRequestcancel := false, handlerDone := false }
  jobs (BPendingGroup.init PassJob.operation.address)
  jobs (BPendingGroup.init PassJob.requestcancel.address)
  jobs (BPendingGroup.init PassJob.done.address)
  update fun i => { i with state := .none }

/-- `PacketPassInterface_Free`. -/
def free : PassM Unit := do
  jobs (BPendingGroup.free PassJob.done.address)
  jobs (BPendingGroup.free PassJob.requestcancel.address)
  jobs (BPendingGroup.free PassJob.operation.address)
  record .freed

/-- `PacketPassInterface_EnableCancel`. -/
def enableCancel : PassM Unit := do
  ensure ((← get).i.handlerRequestcancel = false) .assert
  ensure ((← get).i.handlerDone = false) .assert
  update fun i => { i with handlerRequestcancel := true }

/-- `PacketPassInterface_Sender_Init`. -/
def senderInit : PassM Unit := do
  ensure ((← get).i.handlerDone = false) .assert
  update fun i => { i with handlerDone := true }

/-- `PacketPassInterface_Sender_Send`. -/
def send (packet : PassedPacket) : PassM Unit := do
  ensure (0 ≤ packet.dataLen) .assert
  ensure (packet.dataLen ≤ (← get).i.mtu) .assert
  ensure (0 < packet.dataLen → packet.data ≠ none) .assert
  ensure ((← get).i.state = .none) .assert
  ensure ((← get).i.handlerDone = true) .assert
  record (.send packet)
  update fun i => { i with jobOperation := packet }
  jobs (set PassJob.operation.address)
  update fun i => { i with state := .operationPending, cancelRequested := false }

/-- The first request to cancel a packet. -/
def cancelFirst : PpiState → PassM Unit
  | .operationPending => do
    jobs (unset PassJob.operation.address)
    jobs (set PassJob.done.address)
    update fun i => { i with state := .donePending }
  | .busy => jobs (set PassJob.requestcancel.address)
  | .none | .donePending => pure ()

/-- `PacketPassInterface_Sender_RequestCancel`. -/
def requestCancel : PassM Unit := do
  ensure ((← get).i.state ≠ .none) .assert
  ensure ((← get).i.handlerRequestcancel = true) .assert
  record .requestCancel
  let i := (← get).i
  if i.cancelRequested then pure ()
  else
    update fun i => { i with cancelRequested := true }
    cancelFirst i.state

/-- `PacketPassInterface_Done`. -/
def done : PassM Unit := do
  ensure ((← get).i.state = .busy) .assert
  record .complete
  jobs (unset PassJob.requestcancel.address)
  jobs (set PassJob.done.address)
  update fun i => { i with state := .donePending }

/-- `_PacketPassInterface_job_operation`, `_PacketPassInterface_job_requestcancel` and
`_PacketPassInterface_job_done`. -/
def runJob : PassJob → PassM Unit
  | .operation => do
    ensure ((← get).i.state = .operationPending) .assert
    update fun i => { i with state := .busy }
    record (.operation (← get).i.jobOperation)
  | .requestcancel => do
    ensure ((← get).i.state = .busy) .assert
    ensure ((← get).i.cancelRequested = true) .assert
    ensure ((← get).i.handlerRequestcancel = true) .assert
    record .cancel
  | .done => do
    ensure ((← get).i.state = .donePending) .assert
    update fun i => { i with state := .none }
    ensure ((← get).i.handlerDone = true) .null
    record .done

/-- The handler of the job at an address. The handlers of others do what other steps do. -/
def handler : ℕ → PassM Unit
  | 0 => runJob .operation
  | 1 => runJob .requestcancel
  | 2 => runJob .done
  | _ => pure ()

/-- `BPendingGroup_ExecuteJob`. -/
def execute : PassM Unit := do
  match (← get).group.peekJob with
  | none => throw .assert
  | some p =>
    jobs executeJob
    handler p

end Pass

/-! ### All interleavings -/

inductive PassLife
  | unborn
  | live
  | freed
  deriving DecidableEq, Repr

structure PassWorld where
  pass : Pass
  life : PassLife
  fault : Option JobFault

inductive PassLabel
  | init (mtu : ℤ)
  | enableCancel
  | senderInit
  | send (packet : PassedPacket)
  | requestCancel
  | done
  | free
  | execute
  /-- Somebody else does something to a job of theirs. -/
  | other (op : JobOp)
  deriving DecidableEq, Repr

/-- Others have their own jobs, make them where there is none and use those that exist. -/
def OtherAllowed (g : BPendingGroup) : JobOp → Prop
  | .init p => 2 < p ∧ g.pending p = none
  | .set p | .unset p | .free p => 2 < p ∧ g.pending p ≠ none

instance (g : BPendingGroup) : (op : JobOp) → Decidable (OtherAllowed g op)
  | .init _ => inferInstanceAs (Decidable (_ ∧ _))
  | .set _ => inferInstanceAs (Decidable (_ ∧ _))
  | .unset _ => inferInstanceAs (Decidable (_ ∧ _))
  | .free _ => inferInstanceAs (Decidable (_ ∧ _))

namespace PassWorld

/-- The interface exists, and the assertions at the start of the function hold. -/
def Allowed (w : PassWorld) : PassLabel → Prop
  | .init mtu => w.life = .unborn ∧ 0 ≤ mtu
  | .enableCancel => w.life = .live ∧ w.pass.i.handlerRequestcancel = false ∧
      w.pass.i.handlerDone = false
  | .senderInit => w.life = .live ∧ w.pass.i.handlerDone = false
  | .send packet => w.life = .live ∧ 0 ≤ packet.dataLen ∧ packet.dataLen ≤ w.pass.i.mtu ∧
      (0 < packet.dataLen → packet.data ≠ none) ∧ w.pass.i.state = .none ∧
      w.pass.i.handlerDone = true
  | .requestCancel => w.life = .live ∧ w.pass.i.state ≠ .none ∧
      w.pass.i.handlerRequestcancel = true
  | .done => w.life = .live ∧ w.pass.i.state = .busy
  | .free => w.life = .live
  | .execute => w.pass.group.HasJobs
  | .other op => OtherAllowed w.pass.group op

instance (w : PassWorld) : (l : PassLabel) → Decidable (w.Allowed l)
  | .init _ => inferInstanceAs (Decidable (_ ∧ _))
  | .enableCancel => inferInstanceAs (Decidable (_ ∧ _))
  | .senderInit => inferInstanceAs (Decidable (_ ∧ _))
  | .send _ => inferInstanceAs (Decidable (_ ∧ _))
  | .requestCancel => inferInstanceAs (Decidable (_ ∧ _))
  | .done => inferInstanceAs (Decidable (_ ∧ _))
  | .free => inferInstanceAs (Decidable (_ = _))
  | .execute => inferInstanceAs (Decidable (BPendingGroup.HasJobs _))
  | .other _ => inferInstanceAs (Decidable (OtherAllowed _ _))

def program : PassLabel → PassM Unit
  | .init mtu => Pass.init mtu
  | .enableCancel => Pass.enableCancel
  | .senderInit => Pass.senderInit
  | .send packet => Pass.send packet
  | .requestCancel => Pass.requestCancel
  | .done => Pass.done
  | .free => Pass.free
  | .execute => Pass.execute
  | .other op => Pass.jobs (JobWorld.runOp op)

/-- The interface exists from `Init` to `Free`. -/
def lifeAfter (w : PassWorld) : PassLabel → PassLife
  | .init _ => .live
  | .free => .freed
  | _ => w.life

def leave (w : PassWorld) (life : PassLife) : Except JobFault (Unit × Pass) → PassWorld
  | .ok (_, pass) => { w with pass, life }
  | .error f => { w with fault := some f }

def next (w : PassWorld) (l : PassLabel) : Option PassWorld :=
  if w.fault = none ∧ w.Allowed l then
    some (w.leave (w.lifeAfter l) ((program l).run w.pass))
  else none

end PassWorld

/-- All runs from a state without jobs, in which the interface is memory with anything in it. -/
def passSystem (memory : PacketPassInterface) : System PassWorld PassLabel where
  init := ⟨⟨memory, ⟨⟨none, fun _ => none, fun _ => none⟩, fun _ => none, []⟩, []⟩, .unborn, none⟩
  next := PassWorld.next

/-! ### One packet after the other -/

/-- A packet, and what has happened since it was sent and before the next one was. -/
structure Round where
  packet : PassedPacket
  events : List PassEvent
  deriving DecidableEq, Repr

/-- The rounds with one event more, the latest first. -/
def addEvent : List Round → PassEvent → List Round
  | rs, .send packet => ⟨packet, []⟩ :: rs
  | r :: rs, e => { r with events := r.events ++ [e] } :: rs
  | [], _ => []

/-- The rounds, the latest first. -/
def rounds (log : List PassEvent) : List Round := log.foldl addEvent []

/-- When something may happen in the round of a packet.

* The operation callback comes once, with the packet, and not after a request to cancel.
* The cancel callback comes once, after the operation callback and before the provider is done.
* The provider is done once, after the operation callback.
* The done callback comes once, after the provider is done, or else after a request to cancel and
  without an operation callback. -/
def Round.Permits (packet : PassedPacket) (before : List PassEvent) : PassEvent → Prop
  | .operation packet' => packet' = packet ∧ (∀ p, .operation p ∉ before) ∧
      .requestCancel ∉ before
  | .cancel => .cancel ∉ before ∧ .operation packet ∈ before ∧ .complete ∉ before
  | .complete => .complete ∉ before ∧ .operation packet ∈ before
  | .done => .done ∉ before ∧
      (.complete ∈ before ∨ .requestCancel ∈ before ∧ ∀ p, .operation p ∉ before)
  | .requestCancel => .done ∉ before
  | .send _ | .freed => True

def Round.Proper (r : Round) : Prop := History.Always (Permits r.packet) r.events

variable {log : List PassEvent} {e : PassEvent} {r : Round} {rs : List Round}

theorem rounds_concat : rounds (log ++ [e]) = addEvent (rounds log) e := List.foldl_concat _ _ _ _

/-- What the log is while the interface exists. -/
structure Orderly (log : List PassEvent) : Prop where
  proper : ∀ r ∈ rounds log, r.Proper
  answered : ∀ r ∈ (rounds log).tail, r.events.count .done = 1
  freed : .freed ∉ log

/-- Events of the present round. -/
def PassEvent.IsInner : PassEvent → Prop
  | .send _ => False
  | _ => True

theorem rounds_inner (h : rounds log = r :: rs) (he : e.IsInner) :
    rounds (log ++ [e]) = { r with events := r.events ++ [e] } :: rs := by
  rw [rounds_concat, h]
  cases e with
  | send => exact he.elim
  | _ => rfl

/-- An event that is allowed leaves all rounds proper. -/
theorem proper_inner (h : ∀ r ∈ rounds log, r.Proper) (hrounds : rounds log = r :: rs)
    (he : e.IsInner) (hpermits : Round.Permits r.packet r.events e) :
    ∀ r ∈ rounds (log ++ [e]), r.Proper := by
  rw [hrounds, List.forall_mem_cons] at h
  rw [rounds_inner hrounds he]
  exact List.forall_mem_cons.mpr ⟨History.always_concat.mpr ⟨h.1, hpermits⟩, h.2⟩

theorem tail_rounds_inner (hrounds : rounds log = r :: rs) (he : e.IsInner) :
    (rounds (log ++ [e])).tail = (rounds log).tail := by
  rw [rounds_inner hrounds he, hrounds]
  rfl

theorem Orderly.inner (h : Orderly log) (hrounds : rounds log = r :: rs) (he : e.IsInner)
    (hpermits : Round.Permits r.packet r.events e) (hfreed : e ≠ .freed) :
    Orderly (log ++ [e]) := by
  refine ⟨proper_inner h.proper hrounds he hpermits, ?_, ?_⟩
  · rw [tail_rounds_inner hrounds he]
    exact h.answered
  · rw [List.mem_append, List.mem_singleton, not_or]
    exact ⟨h.freed, Ne.symm hfreed⟩

theorem Orderly.send (h : Orderly log)
    (hanswered : ∀ r ∈ (rounds log).head?, r.events.count .done = 1) (packet : PassedPacket) :
    Orderly (log ++ [.send packet]) := by
  refine ⟨?_, ?_, ?_⟩
  · rw [rounds_concat]
    exact List.forall_mem_cons.mpr ⟨History.always_nil, h.proper⟩
  · rw [rounds_concat]
    change ∀ r ∈ rounds log, _
    cases hrounds : rounds log with
    | nil => exact nofun
    | cons r =>
      have htail := h.answered
      rw [hrounds] at hanswered htail
      exact List.forall_mem_cons.mpr ⟨hanswered r rfl, htail⟩
  · rw [List.mem_append, List.mem_singleton, not_or]
    exact ⟨h.freed, nofun⟩

end Tun2Socks.Flow
