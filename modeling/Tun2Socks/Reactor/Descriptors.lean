import Tun2Socks.Framework.Checked
import Tun2Socks.Framework.System

/-!
# The file descriptors of the reactor

`BReactor_badvpn.c`, as far as file descriptors go, in the build with `epoll`. `epoll_wait` fills an
array with results, one for each descriptor that it reports, and the loop of `BReactor_Exec`
dispatches them one by one, with jobs and timers in between. A handler may remove a descriptor whose
result is still in the array. So every descriptor has a pointer back to its result, which is `NULL`
in the result of a descriptor that was removed.

* `addFileDescriptor`, `removeFileDescriptor` and `setFileDescriptorEvents` are what handlers call,
  any number of times and in any order, on any descriptors.
* `waitForEvents` is given what `epoll_wait` reports: some of the descriptors that are registered,
  each of them once, with any events. `setEpollFdPointers` sets the pointers back.
* `dispatch` takes the next result and calls the handler of its descriptor.

The reactor keeps a record of these calls. `Reported` says that a descriptor was reported by the last
wait and that since then it has not been removed and its handler has not been called, and `Sound`
that every call of a handler was justified by that.
-/

namespace Tun2Socks.Reactor.Descriptors

open Framework

/-- `BREACTOR_READ` and `BREACTOR_WRITE`, what is waited for. -/
structure WaitEvents where
  read : Bool
  write : Bool
  deriving DecidableEq, Repr

/-- `EPOLLIN`, `EPOLLOUT`, `EPOLLERR` and `EPOLLHUP`, what `epoll_wait` reports. -/
structure EpollEvents where
  epollin : Bool
  epollout : Bool
  epollerr : Bool
  epollhup : Bool
  deriving DecidableEq, Repr

/-- What a handler is told. -/
structure Events where
  read : Bool
  write : Bool
  error : Bool
  hup : Bool
  deriving DecidableEq, Repr

def Events.none : Events := ⟨false, false, false, false⟩

structure BFileDescriptor where
  active : Bool
  waitEvents : WaitEvents
  /-- The index of the result to whose pointer this points; `none` is `NULL`. -/
  epollReturnedPtr : Option ℕ
  deriving DecidableEq, Repr

/-- `struct epoll_event`: the descriptor that `data.ptr` points to, and the events. -/
structure EpollEvent where
  ptr : Option ℕ
  events : EpollEvents
  deriving DecidableEq, Repr

inductive Event
  | add (bs : ℕ)
  | remove (bs : ℕ)
  | setEvents (bs : ℕ) (events : WaitEvents)
  /-- `wait_for_events`, and what `epoll_wait` reported, if it did. -/
  | wait (batch : List (ℕ × EpollEvents))
  /-- A handler is called. -/
  | dispatch (bs : ℕ) (events : Events)
  deriving DecidableEq, Repr

/-- The reactor; a descriptor is known by its address. -/
structure BReactor where
  exiting : Bool
  /-- The number of jobs in the pending group. -/
  pendingJobs : ℕ
  /-- The number of timers that have expired. -/
  timersExpired : ℕ
  fds : ℕ → BFileDescriptor
  epollResults : ℕ → EpollEvent
  epollResultsNum : ℕ
  epollResultsPos : ℕ
  log : List Event

inductive Fault
  | assertion
  deriving DecidableEq, Repr

abbrev M := Checked Fault BReactor

/-- `BSYSTEM_MAX_RESULTS`. -/
def maxResults : ℕ := 64

namespace BReactor

/-- One descriptor is written. -/
def update (r : BReactor) (bs : ℕ) (d : BFileDescriptor) : BReactor :=
  { r with fds := Function.update r.fds bs d }

def record (r : BReactor) (e : Event) : BReactor := { r with log := r.log ++ [e] }

/-- `*ptr = NULL`, for a pointer to the descriptor of a result. -/
def clearResult (r : BReactor) : Option ℕ → BReactor
  | some i => { r with
    epollResults := Function.update r.epollResults i { r.epollResults i with ptr := none } }
  | none => r

end BReactor

/-- `BReactor_AddFileDescriptor`, if `epoll_ctl` succeeds. -/
def addFileDescriptor (bs : ℕ) : M Unit := do
  let r ← get
  ensure ((r.fds bs).active = false) .assertion
  modify fun r => (r.update bs ⟨true, ⟨false, false⟩, none⟩).record (.add bs)

/-- `BReactor_RemoveFileDescriptor`. The descriptor keeps its pointer, which is not `NULL` but is
not followed any more. -/
def removeFileDescriptor (bs : ℕ) : M Unit := do
  let r ← get
  ensure ((r.fds bs).active = true) .assertion
  modify fun r => r.update bs { r.fds bs with active := false }
  modify fun r => (r.clearResult (r.fds bs).epollReturnedPtr).record (.remove bs)

/-- `BReactor_SetFileDescriptorEvents`. -/
def setFileDescriptorEvents (bs : ℕ) (events : WaitEvents) : M Unit := do
  let r ← get
  ensure ((r.fds bs).active = true) .assertion
  modify fun r => (r.update bs { r.fds bs with waitEvents := events }).record (.setEvents bs events)

/-- The body of the loop of `set_epoll_fd_pointers`. -/
def setEpollFdPointer (i : ℕ) : M Unit := do
  let r ← get
  match (r.epollResults i).ptr with
  | none => throw .assertion
  | some bfd =>
    ensure ((r.fds bfd).active = true) .assertion
    ensure ((r.fds bfd).epollReturnedPtr = none) .assertion
    modify fun r => r.update bfd { r.fds bfd with epollReturnedPtr := some i }

/-- The loop of `set_epoll_fd_pointers`, with `n` results to go from the result `i` on. -/
def setEpollFdPointers : ℕ → ℕ → M Unit
  | 0, _ => pure ()
  | n + 1, i => do
    setEpollFdPointer i
    setEpollFdPointers n (i + 1)

/-- The array of results is filled. -/
def BReactor.filled (r : BReactor) (batch : List (ℕ × EpollEvents)) : BReactor :=
  { r with
    epollResultsNum := batch.length
    epollResults := fun i => match batch[i]? with
      | some (bs, events) => ⟨some bs, events⟩
      | none => r.epollResults i }

/-- `wait_for_events`: `epoll_wait` reports a number of descriptors, or else some timers expire. -/
def waitForEvents (batch : List (ℕ × EpollEvents)) (timersExpired : ℕ) : M Unit := do
  let r ← get
  ensure (r.pendingJobs = 0) .assertion
  ensure (r.timersExpired = 0) .assertion
  ensure (r.epollResultsPos = r.epollResultsNum) .assertion
  modify fun r => { r.record (.wait batch) with epollResultsNum := 0, epollResultsPos := 0 }
  if batch = [] then modify fun r => { r with timersExpired }
  else
    modify fun r => r.filled batch
    setEpollFdPointers batch.length 0

/-- The events that are reported to a handler. -/
def dispatchedEvents (waited : WaitEvents) (reported : EpollEvents) : Events where
  read := waited.read && reported.epollin
  write := waited.write && reported.epollout
  error := reported.epollerr
  hup := reported.epollhup

/-- The next result is dispatched. Returns whether a handler is called. -/
def dispatch : M Bool := do
  let r ← get
  let pos := r.epollResultsPos
  let event := r.epollResults pos
  modify fun r => { r with epollResultsPos := pos + 1 }
  match event.ptr with
  | none => pure false
  | some bfd =>
    ensure ((r.fds bfd).active = true) .assertion
    ensure ((r.fds bfd).epollReturnedPtr = some pos) .assertion
    modify fun r => r.update bfd { r.fds bfd with epollReturnedPtr := none }
    let events := dispatchedEvents (r.fds bfd).waitEvents event.events
    if events = .none then pure false
    else
      modify fun r => r.record (.dispatch bfd events)
      pure true

/-- One iteration of the loop of `BReactor_Exec`. Returns whether a handler is called: that of a
job, of a timer or of a descriptor. -/
def iterate (batch : List (ℕ × EpollEvents)) (timersExpired : ℕ) : M Bool := do
  let r ← get
  if r.pendingJobs ≠ 0 then
    modify fun r => { r with pendingJobs := r.pendingJobs - 1 }
    pure true
  else if r.timersExpired ≠ 0 then
    modify fun r => { r with timersExpired := r.timersExpired - 1 }
    pure true
  else if r.epollResultsPos < r.epollResultsNum then dispatch
  else
    waitForEvents batch timersExpired
    pure false

/-! ### The system -/

/-- The reactor, whether a handler is running, and the fault that has stopped it. Code outside
`BReactor_Exec` counts as a handler. -/
structure World where
  reactor : BReactor
  inHandler : Bool
  fault : Option Fault

inductive Label
  | add (bs : ℕ)
  | remove (bs : ℕ)
  | setEvents (bs : ℕ) (events : WaitEvents)
  /-- Jobs are set and unset. -/
  | jobs (pendingJobs : ℕ)
  /-- Timers that have expired are removed or set again. -/
  | timers (timersExpired : ℕ)
  | quit
  /-- The handler returns. -/
  | done
  | iterate (batch : List (ℕ × EpollEvents)) (timersExpired : ℕ)

/-- What `epoll_wait` may report: descriptors that are registered, each of them at most once. -/
def Reportable (r : BReactor) (batch : List (ℕ × EpollEvents)) : Prop :=
  batch.length ≤ maxResults ∧ (batch.map Prod.fst).Nodup ∧
    ∀ result ∈ batch, (r.fds result.1).active = true

instance (r : BReactor) (batch : List (ℕ × EpollEvents)) : Decidable (Reportable r batch) :=
  inferInstanceAs (Decidable (_ ∧ _))

def leave (w : World) : Except Fault (Bool × BReactor) → World
  | .ok (inHandler, reactor) => { w with inHandler, reactor }
  | .error f => { w with fault := some f }

/-- A step of a handler. -/
def nextHandler (w : World) : Label → Option World
  | .add bs =>
    if (w.reactor.fds bs).active = false then
      some (leave w ((do addFileDescriptor bs; pure true : M Bool).run w.reactor))
    else none
  | .remove bs =>
    if (w.reactor.fds bs).active = true then
      some (leave w ((do removeFileDescriptor bs; pure true : M Bool).run w.reactor))
    else none
  | .setEvents bs events =>
    if (w.reactor.fds bs).active = true then
      some (leave w ((do setFileDescriptorEvents bs events; pure true : M Bool).run w.reactor))
    else none
  | .jobs pendingJobs => some { w with reactor := { w.reactor with pendingJobs } }
  | .timers timersExpired => some { w with reactor := { w.reactor with timersExpired } }
  | .quit => some { w with reactor := { w.reactor with exiting := true } }
  | .done => some { w with inHandler := false }
  | .iterate _ _ => none

def next (w : World) (l : Label) : Option World :=
  if w.fault.isSome then none
  else if w.inHandler then nextHandler w l
  else match l with
    | .iterate batch timersExpired =>
      if w.reactor.exiting = false ∧ Reportable w.reactor batch then
        some (leave w ((iterate batch timersExpired).run w.reactor))
      else none
    | _ => none

/-- The reactor after `BReactor_Init`, with descriptors that `BFileDescriptor_Init` has
initialised. It leaves the pointers as they were. -/
def initial (ptrs : ℕ → Option ℕ) (waits : ℕ → WaitEvents) (results : ℕ → EpollEvent) : BReactor where
  exiting := false
  pendingJobs := 0
  timersExpired := 0
  fds := fun bs => ⟨false, waits bs, ptrs bs⟩
  epollResults := results
  epollResultsNum := 0
  epollResultsPos := 0
  log := []

def system (ptrs : ℕ → Option ℕ) (waits : ℕ → WaitEvents) (results : ℕ → EpollEvent) :
    System World Label where
  init := ⟨initial ptrs waits results, true, none⟩
  next := next

/-! ### The record -/

/-- What a descriptor waits for after a history, if it is active. -/
def interestStep (bs : ℕ) (waited : Option WaitEvents) : Event → Option WaitEvents
  | .add b => if b = bs then some ⟨false, false⟩ else waited
  | .remove b => if b = bs then none else waited
  | .setEvents b events => if b = bs then some events else waited
  | _ => waited

def interest (log : List Event) (bs : ℕ) : Option WaitEvents := log.foldl (interestStep bs) none

/-- After this event a result for the descriptor is not pending any more. -/
def Event.Ends (bs : ℕ) : Event → Prop
  | .remove b => b = bs
  | .dispatch b _ => b = bs
  | .wait _ => True
  | _ => False

/-- The last wait reported these events for the descriptor, which was active then and has been ever
since, and its handler has not been called since. -/
def Reported (log : List Event) (bs : ℕ) (events : EpollEvents) : Prop :=
  ∃ x batch y, log = x ++ .wait batch :: y ∧ (bs, events) ∈ batch ∧ interest x bs ≠ none ∧
    ∀ e ∈ y, ¬ e.Ends bs

/-- A call of a handler with these events is justified. -/
def Justified (log : List Event) (bs : ℕ) (events : Events) : Prop :=
  ∃ reported waited, Reported log bs reported ∧ interest log bs = some waited ∧
    (events.read = true → waited.read = true ∧ reported.epollin = true) ∧
    (events.write = true → waited.write = true ∧ reported.epollout = true) ∧
    events.error = reported.epollerr ∧ events.hup = reported.epollhup

/-- Every call of a handler was justified. -/
def Sound (log : List Event) : Prop :=
  ∀ pre bs events post, log = pre ++ .dispatch bs events :: post → Justified pre bs events

variable {log : List Event} {e : Event} {bs : ℕ}

theorem interest_concat (log : List Event) (e : Event) (bs : ℕ) :
    interest (log ++ [e]) bs = interestStep bs (interest log bs) e := List.foldl_concat _ _ _ _

variable {events : EpollEvents}

theorem Reported.concat (h : Reported log bs events) (he : ¬ e.Ends bs) :
    Reported (log ++ [e]) bs events := by
  obtain ⟨x, batch, y, rfl, hmem, hactive, hy⟩ := h
  refine ⟨x, batch, y ++ [e], by rw [List.append_assoc, List.cons_append], hmem, hactive, ?_⟩
  rw [List.forall_mem_append, List.forall_mem_singleton]
  exact ⟨hy, he⟩

theorem Sound.concat (h : Sound log)
    (he : ∀ bs events, e = .dispatch bs events → Justified log bs events) : Sound (log ++ [e]) := by
  intro pre bs events post heq
  obtain rfl | ⟨post, e', rfl⟩ := List.eq_nil_or_concat post
  · obtain ⟨rfl, hlast⟩ := List.append_inj' heq rfl
    exact he bs events (List.singleton_inj.mp hlast)
  · rw [List.concat_eq_append, ← List.cons_append, ← List.append_assoc] at heq
    obtain ⟨rfl, -⟩ := List.append_inj' heq rfl
    exact h pre bs events post rfl

/-! ### The invariant -/

/-- What a descriptor waits for, if it is active. -/
def BFileDescriptor.interest (d : BFileDescriptor) : Option WaitEvents :=
  if d.active then some d.waitEvents else none

/-- Pending results and descriptors point at each other. -/
structure FdInv (r : BReactor) : Prop where
  pos_le : r.epollResultsPos ≤ r.epollResultsNum
  /-- A pending result that is not cleared was reported for a descriptor that points back at it. -/
  result : ∀ i bs, r.epollResultsPos ≤ i → i < r.epollResultsNum →
    (r.epollResults i).ptr = some bs → (r.fds bs).active = true ∧
      (r.fds bs).epollReturnedPtr = some i ∧ Reported r.log bs (r.epollResults i).events
  /-- The pointer of an active descriptor is `NULL` or points at its pending result. -/
  pointer : ∀ bs i, (r.fds bs).active = true → (r.fds bs).epollReturnedPtr = some i →
    r.epollResultsPos ≤ i ∧ i < r.epollResultsNum ∧ (r.epollResults i).ptr = some bs
  interest : ∀ bs, interest r.log bs = (r.fds bs).interest
  sound : Sound r.log

variable {r : BReactor}

theorem update_self (r : BReactor) (bs : ℕ) (d : BFileDescriptor) : (r.update bs d).fds bs = d :=
  Function.update_self _ _ _

theorem update_of_ne {b : ℕ} (d : BFileDescriptor) (h : b ≠ bs) :
    (r.update bs d).fds b = r.fds b :=
  Function.update_of_ne h _ _

theorem FdInv.jobs (h : FdInv r) (exiting : Bool) (pendingJobs timersExpired : ℕ) :
    FdInv { r with exiting, pendingJobs, timersExpired } :=
  ⟨h.pos_le, h.result, h.pointer, h.interest, h.sound⟩

theorem addFileDescriptor_spec (h : FdInv r) (hbs : (r.fds bs).active = false) :
    wp (addFileDescriptor bs) (fun _ r' => FdInv r') r := by
  simp only [addFileDescriptor, wp_bind, wp_get, wp_ensure, wp_modify]
  refine ⟨hbs, h.pos_le, ?_, ?_, ?_, h.sound.concat (by simp)⟩
  · intro i b hi hnum hptr
    obtain ⟨hactive, hback, hrep⟩ := h.result i b hi hnum hptr
    have hne : b ≠ bs := fun heq => Bool.false_ne_true (hbs.symm.trans (heq ▸ hactive))
    refine ⟨?_, ?_, hrep.concat id⟩
    · exact (congrArg _ (update_of_ne _ hne)).trans hactive
    · exact (congrArg _ (update_of_ne _ hne)).trans hback
  · intro b i hactive hptr
    by_cases heq : b = bs
    · subst heq
      cases (congrArg _ (update_self r b _)).symm.trans hptr
    · exact h.pointer b i ((congrArg _ (update_of_ne _ heq)).symm.trans hactive)
        ((congrArg _ (update_of_ne _ heq)).symm.trans hptr)
  · intro b
    change Descriptors.interest (r.log ++ [_]) b = ((r.update bs _).fds b).interest
    rw [interest_concat, h.interest b]
    by_cases heq : b = bs
    · subst heq
      rw [update_self]
      exact if_pos rfl
    · rw [update_of_ne _ heq]
      exact if_neg (Ne.symm heq)

theorem setFileDescriptorEvents_spec (h : FdInv r) (hbs : (r.fds bs).active = true)
    (events : WaitEvents) :
    wp (setFileDescriptorEvents bs events) (fun _ r' => FdInv r') r := by
  simp only [setFileDescriptorEvents, wp_bind, wp_get, wp_ensure, wp_modify]
  have hsame : ∀ b, ((r.update bs { r.fds bs with waitEvents := events }).fds b).active =
      (r.fds b).active ∧ ((r.update bs { r.fds bs with waitEvents := events }).fds b).epollReturnedPtr =
      (r.fds b).epollReturnedPtr := by
    intro b
    by_cases heq : b = bs
    · subst heq
      rw [update_self]
      exact ⟨rfl, rfl⟩
    · rw [update_of_ne _ heq]
      exact ⟨rfl, rfl⟩
  refine ⟨hbs, h.pos_le, ?_, ?_, ?_, h.sound.concat (by simp)⟩
  · intro i b hi hnum hptr
    obtain ⟨hactive, hback, hrep⟩ := h.result i b hi hnum hptr
    exact ⟨(hsame b).1.trans hactive, (hsame b).2.trans hback, hrep.concat id⟩
  · intro b i hactive hptr
    exact h.pointer b i ((hsame b).1.symm.trans hactive) ((hsame b).2.symm.trans hptr)
  · intro b
    change Descriptors.interest (r.log ++ [_]) b = ((r.update bs _).fds b).interest
    rw [interest_concat, h.interest b]
    by_cases heq : b = bs
    · subst heq
      rw [update_self, BFileDescriptor.interest, BFileDescriptor.interest, if_pos hbs, if_pos hbs]
      exact if_pos rfl
    · rw [update_of_ne _ heq]
      exact if_neg (Ne.symm heq)

variable {i : ℕ}

theorem clearResult_of_ne {ptr : Option ℕ} (h : ptr ≠ some i) :
    (r.clearResult ptr).epollResults i = r.epollResults i := by
  cases ptr with
  | none => rfl
  | some => exact Function.update_of_ne (fun heq => h (congrArg some heq.symm)) _ _

/-- A cleared result has no descriptor; the others are as they were. -/
theorem clearResult_ptr {ptr : Option ℕ} {i b : ℕ}
    (h : ((r.clearResult ptr).epollResults i).ptr = some b) :
    ptr ≠ some i ∧ (r.epollResults i).ptr = some b := by
  have hne : ptr ≠ some i := by
    rintro rfl
    have hself : ((r.clearResult (some i)).epollResults i).ptr = none :=
      congrArg EpollEvent.ptr (Function.update_self i _ r.epollResults)
    cases hself.symm.trans h
  exact ⟨hne, clearResult_of_ne hne ▸ h⟩

theorem clearResult_fields (r : BReactor) (ptr : Option ℕ) :
    (r.clearResult ptr).fds = r.fds ∧ (r.clearResult ptr).log = r.log ∧
      (r.clearResult ptr).epollResultsPos = r.epollResultsPos ∧
      (r.clearResult ptr).epollResultsNum = r.epollResultsNum := by
  cases ptr <;> exact ⟨rfl, rfl, rfl, rfl⟩

/-- The reactor after a descriptor was removed. -/
def BReactor.removed (r : BReactor) (bs : ℕ) : BReactor :=
  ((r.update bs { r.fds bs with active := false }).clearResult
    (r.fds bs).epollReturnedPtr).record (.remove bs)

theorem FdInv.removed (h : FdInv r) (hbs : (r.fds bs).active = true) : FdInv (r.removed bs) := by
  obtain ⟨hfds, hlog, hpos, hnum⟩ :=
    clearResult_fields (r.update bs { r.fds bs with active := false }) (r.fds bs).epollReturnedPtr
  have hother : ∀ b, b ≠ bs → (r.removed bs).fds b = r.fds b :=
    fun b hne => (congrFun hfds b).trans (update_of_ne _ hne)
  have hself : (r.removed bs).fds bs = { r.fds bs with active := false } :=
    (congrFun hfds bs).trans (update_self _ _ _)
  have hlog' : (r.removed bs).log = r.log ++ [.remove bs] := congrArg (· ++ [_]) hlog
  refine ⟨?_, ?_, ?_, ?_, ?_⟩
  · exact (hpos.trans_le h.pos_le).trans_eq hnum.symm
  · intro i b hi hlt hptr
    obtain ⟨hne, hptr⟩ := clearResult_ptr hptr
    obtain ⟨hactive, hback, hrep⟩ := h.result i b (hpos ▸ hi) (hnum ▸ hlt) hptr
    have hb : b ≠ bs := by
      rintro rfl
      exact hne hback
    have hresult : (r.removed bs).epollResults i = r.epollResults i := clearResult_of_ne hne
    rw [hother b hb, hlog', hresult]
    exact ⟨hactive, hback, hrep.concat fun heq => hb heq.symm⟩
  · intro b i hactive hptr
    have hb : b ≠ bs := by
      rintro rfl
      rw [hself] at hactive
      exact Bool.false_ne_true hactive
    rw [hother b hb] at hactive hptr
    obtain ⟨hi, hlt, hresult⟩ := h.pointer b i hactive hptr
    have hne : (r.fds bs).epollReturnedPtr ≠ some i := by
      intro heq
      obtain ⟨-, -, hbs_result⟩ := h.pointer bs i hbs heq
      exact hb (Option.some.inj (hresult.symm.trans hbs_result))
    have hsame : (r.removed bs).epollResults i = r.epollResults i := clearResult_of_ne hne
    exact ⟨hpos.trans_le hi, hlt.trans_eq hnum.symm, hsame ▸ hresult⟩
  · intro b
    rw [hlog', interest_concat, h.interest b]
    by_cases heq : b = bs
    · subst heq
      rw [hself]
      exact if_pos rfl
    · rw [hother b heq]
      exact if_neg (Ne.symm heq)
  · rw [hlog']
    exact h.sound.concat nofun

theorem removeFileDescriptor_spec (h : FdInv r) (hbs : (r.fds bs).active = true) :
    wp (removeFileDescriptor bs) (fun _ r' => FdInv r') r := by
  simp only [removeFileDescriptor, wp_bind, wp_get, wp_ensure, wp_modify, update_self]
  exact ⟨hbs, h.removed hbs⟩

/-! ### The wait -/

/-- Between two batches no active descriptor has a pointer. -/
theorem FdInv.pointer_eq_none (h : FdInv r) (hend : r.epollResultsPos = r.epollResultsNum)
    (hbs : (r.fds bs).active = true) : (r.fds bs).epollReturnedPtr = none := by
  cases hptr : (r.fds bs).epollReturnedPtr with
  | none => rfl
  | some i =>
    obtain ⟨hi, hlt, -⟩ := h.pointer bs i hbs hptr
    omega

variable {batch : List (ℕ × EpollEvents)}

/-- The loop has set the pointers of the first `i` results; everything else is as it was in `r`. -/
structure Pointed (batch : List (ℕ × EpollEvents)) (r : BReactor) (i : ℕ) (r' : BReactor) : Prop where
  active : ∀ bs, (r'.fds bs).active = (r.fds bs).active
  waitEvents : ∀ bs, (r'.fds bs).waitEvents = (r.fds bs).waitEvents
  pointer : ∀ bs, (r.fds bs).active = true → (r'.fds bs).epollReturnedPtr =
    if (batch.map Prod.fst).idxOf bs < i then some ((batch.map Prod.fst).idxOf bs) else none
  results : r'.epollResults = r.epollResults
  pos : r'.epollResultsPos = r.epollResultsPos
  num : r'.epollResultsNum = r.epollResultsNum
  log : r'.log = r.log

/-- The place of a descriptor in a batch. -/
theorem idxOf_eq (hnodup : (batch.map Prod.fst).Nodup)
    (hi : batch[i]? = some (bs, events)) : (batch.map Prod.fst).idxOf bs = i := by
  obtain ⟨hlt, hget⟩ := List.getElem?_eq_some_iff.mp hi
  have hlt' : i < (batch.map Prod.fst).length := by rwa [List.length_map]
  have hbs : (batch.map Prod.fst)[i] = bs := by rw [List.getElem_map, hget]
  rw [← hbs]
  exact hnodup.idxOf_getElem i hlt'

variable {r' : BReactor}

theorem setEpollFdPointer_spec
    (h : Pointed batch r i r') (hnodup : (batch.map Prod.fst).Nodup)
    (hi : batch[i]? = some (bs, events)) (hresult : (r.epollResults i).ptr = some bs)
    (hactive : (r.fds bs).active = true) :
    wp (setEpollFdPointer i) (fun _ r'' => Pointed batch r (i + 1) r'') r' := by
  have hidx := idxOf_eq hnodup hi
  have hresult' : (r'.epollResults i).ptr = some bs := by rw [h.results, hresult]
  have hnone : (r'.fds bs).epollReturnedPtr = none := by
    rw [h.pointer bs hactive, hidx, if_neg (Nat.lt_irrefl i)]
  simp only [setEpollFdPointer, wp_bind, wp_get, hresult', wp_ensure, wp_modify]
  refine ⟨(h.active bs).trans hactive, hnone, ?_, ?_, ?_, h.results, h.pos, h.num, h.log⟩
  · intro b
    by_cases heq : b = bs
    · subst heq
      rw [update_self]
      exact h.active b
    · rw [update_of_ne _ heq]
      exact h.active b
  · intro b
    by_cases heq : b = bs
    · subst heq
      rw [update_self]
      exact h.waitEvents b
    · rw [update_of_ne _ heq]
      exact h.waitEvents b
  · intro b hb
    by_cases heq : b = bs
    · subst heq
      rw [update_self, hidx, if_pos (Nat.lt_succ_self i)]
    · rw [update_of_ne _ heq, h.pointer b hb]
      -- Another descriptor is not at the place `i`.
      have hother : (batch.map Prod.fst).idxOf b ≠ i := by
        intro hat
        have hlt : (batch.map Prod.fst).idxOf b < (batch.map Prod.fst).length := by
          rw [hat, List.length_map]
          exact (List.getElem?_eq_some_iff.mp hi).1
        have hb : (batch.map Prod.fst)[(batch.map Prod.fst).idxOf b]? = some b :=
          List.getElem?_eq_some_iff.mpr ⟨hlt, List.getElem_idxOf hlt⟩
        rw [hat, List.getElem?_map, hi] at hb
        exact heq (Option.some.inj hb).symm
      refine if_congr ?_ rfl rfl
      omega

theorem setEpollFdPointers_spec {n i : ℕ} (h : Pointed batch r i r')
    (hnodup : (batch.map Prod.fst).Nodup) (hlen : i + n = batch.length)
    (hresults : ∀ i bs events, batch[i]? = some (bs, events) →
      (r.epollResults i).ptr = some bs ∧ (r.fds bs).active = true) :
    wp (setEpollFdPointers n i) (fun _ r'' => Pointed batch r batch.length r'') r' := by
  induction n generalizing i r' with
  | zero =>
    rw [setEpollFdPointers, wp_pure, ← hlen]
    exact h
  | succ _ ih =>
    rw [setEpollFdPointers, wp_bind]
    have hi : batch[i]? = some batch[i] := List.getElem?_eq_getElem (by omega)
    obtain ⟨hresult, hactive⟩ := hresults i _ _ hi
    refine wp_mono (setEpollFdPointer_spec h hnodup hi hresult hactive) ?_
    intro _ r'' h''
    exact ih h'' (by omega)

theorem filled_result (hi : batch[i]? = some (bs, events)) :
    (r.filled batch).epollResults i = ⟨some bs, events⟩ := by
  change (match batch[i]? with
    | some (bs, events) => (⟨some bs, events⟩ : EpollEvent)
    | none => r.epollResults i) = _
  rw [hi]

/-- The descriptors of a new batch point at their results. -/
theorem FdInv.pointed (h : FdInv r) (hbatch : Reportable r batch)
    (hr' : Pointed batch ({ r.record (.wait batch) with
      epollResultsNum := 0, epollResultsPos := 0 }.filled batch) batch.length r') : FdInv r' := by
  obtain ⟨-, hnodup, hactive⟩ := hbatch
  have hpos : r'.epollResultsPos = 0 := hr'.pos
  have hnum : r'.epollResultsNum = batch.length := hr'.num
  have hlog : r'.log = r.log ++ [.wait batch] := hr'.log
  refine ⟨by omega, ?_, ?_, ?_, ?_⟩
  · intro i b hi hlt hptr
    obtain ⟨⟨b', events⟩, hget⟩ : ∃ result, batch[i]? = some result :=
      ⟨_, List.getElem?_eq_getElem (by omega)⟩
    rw [hr'.results, filled_result hget] at hptr ⊢
    obtain rfl := Option.some.inj hptr
    have hmem := List.mem_of_getElem? hget
    have hact : (r.fds b').active = true := hactive _ hmem
    refine ⟨(hr'.active _).trans hact, ?_, ?_⟩
    · rw [hr'.pointer _ hact, idxOf_eq hnodup hget, if_pos (by omega)]
    · refine ⟨r.log, batch, [], hlog, hmem, ?_, nofun⟩
      rw [h.interest, BFileDescriptor.interest, if_pos hact]
      exact Option.some_ne_none _
  · intro b i hact hptr
    have hact : (r.fds b).active = true := (hr'.active b).symm.trans hact
    rw [hr'.pointer b hact] at hptr
    split at hptr
    · rename_i hlt
      cases hptr
      refine ⟨by omega, by omega, ?_⟩
      have hlt' : (batch.map Prod.fst).idxOf b < (batch.map Prod.fst).length := by
        rwa [List.length_map]
      have hb : batch[(batch.map Prod.fst).idxOf b].1 = b := by
        rw [← List.getElem_map Prod.fst (h := hlt')]
        exact List.getElem_idxOf hlt'
      rw [hr'.results, filled_result (List.getElem?_eq_getElem hlt)]
      exact congrArg some hb
    · cases hptr
  · intro b
    rw [hlog, interest_concat, h.interest b, BFileDescriptor.interest, BFileDescriptor.interest,
      hr'.active, hr'.waitEvents]
    rfl
  · rw [hlog]
    exact h.sound.concat nofun

theorem waitForEvents_spec (h : FdInv r) (hjobs : r.pendingJobs = 0) (htimers : r.timersExpired = 0)
    (hend : r.epollResultsPos = r.epollResultsNum) (hbatch : Reportable r batch) (expired : ℕ) :
    wp (waitForEvents batch expired) (fun _ r' => FdInv r') r := by
  simp only [waitForEvents, wp_bind, wp_get, wp_ensure, wp_modify, wp_ite]
  refine ⟨hjobs, htimers, hend, ?_⟩
  split
  · -- No result is pending, and none was.
    refine ⟨Nat.le_refl 0, fun i b _ hlt => absurd hlt (Nat.not_lt_zero i), ?_, ?_,
      h.sound.concat (by simp)⟩
    · intro b i hactive hptr
      cases (h.pointer_eq_none hend hactive).symm.trans hptr
    · intro b
      exact (interest_concat _ _ _).trans (h.interest b)
  · refine wp_mono (setEpollFdPointers_spec ⟨fun _ => rfl, fun _ => rfl, ?_, rfl, rfl, rfl, rfl⟩
      hbatch.2.1 (Nat.zero_add _) ?_) fun _ r' hr' => h.pointed hbatch hr'
    · intro b hb
      rw [if_neg (Nat.not_lt_zero _)]
      exact h.pointer_eq_none hend hb
    · intro i b events hi
      refine ⟨by rw [filled_result hi], ?_⟩
      exact hbatch.2.2 (b, events) (List.mem_of_getElem? hi)

/-! ### The dispatch -/

/-- The next result is taken. -/
def BReactor.advanced (r : BReactor) : BReactor :=
  { r with epollResultsPos := r.epollResultsPos + 1 }

/-- A result that was cleared is skipped. -/
theorem FdInv.skip (h : FdInv r) (hlt : r.epollResultsPos < r.epollResultsNum)
    (hptr : (r.epollResults r.epollResultsPos).ptr = none) : FdInv r.advanced := by
  refine ⟨hlt, ?_, ?_, h.interest, h.sound⟩
  · intro i b hi hnum hb
    exact h.result i b (Nat.le_of_succ_le hi) hnum hb
  · intro b i hactive hb
    obtain ⟨hi, hnum, hresult⟩ := h.pointer b i hactive hb
    have hne : i ≠ r.epollResultsPos := by
      rintro rfl
      cases hptr.symm.trans hresult
    exact ⟨show r.epollResultsPos + 1 ≤ i by omega, hnum, hresult⟩

/-- The pointer of a descriptor is taken away with its result. -/
theorem FdInv.take (h : FdInv r) (hlt : r.epollResultsPos < r.epollResultsNum)
    (hptr : (r.epollResults r.epollResultsPos).ptr = some bs) :
    FdInv (r.advanced.update bs { r.fds bs with epollReturnedPtr := none }) := by
  obtain ⟨hactive, hback, -⟩ := h.result _ bs (Nat.le_refl _) hlt hptr
  refine ⟨hlt, ?_, ?_, ?_, h.sound⟩
  · intro i b hi hnum hb
    have hi : r.epollResultsPos + 1 ≤ i := hi
    obtain ⟨hb_active, hb_back, hb_rep⟩ := h.result i b (Nat.le_of_succ_le hi) hnum hb
    have hne : b ≠ bs := by
      rintro rfl
      have := Option.some.inj (hback.symm.trans hb_back)
      omega
    rw [update_of_ne _ hne]
    exact ⟨hb_active, hb_back, hb_rep⟩
  · intro b i hb_active hb
    have hne : b ≠ bs := by
      rintro rfl
      rw [update_self] at hb
      cases hb
    rw [update_of_ne _ hne] at hb_active hb
    obtain ⟨hi, hnum, hresult⟩ := h.pointer b i hb_active hb
    have hother : i ≠ r.epollResultsPos := by
      rintro rfl
      exact hne (Option.some.inj (hresult.symm.trans hptr))
    exact ⟨show r.epollResultsPos + 1 ≤ i by omega, hnum, hresult⟩
  · intro b
    refine (h.interest b).trans ?_
    by_cases heq : b = bs
    · subst heq
      rw [update_self]
      rfl
    · rw [update_of_ne _ heq]
      rfl

theorem dispatch_spec (h : FdInv r) (hlt : r.epollResultsPos < r.epollResultsNum) :
    wp dispatch (fun _ r' => FdInv r') r := by
  simp only [dispatch, wp_bind, wp_get, wp_modify]
  cases hptr : (r.epollResults r.epollResultsPos).ptr with
  | none =>
    rw [wp_pure]
    exact h.skip hlt hptr
  | some bfd =>
    obtain ⟨hactive, hback, hrep⟩ := h.result _ bfd (Nat.le_refl _) hlt hptr
    have htake := h.take hlt hptr
    simp only [wp_bind, wp_ensure, wp_modify, wp_ite, wp_pure]
    refine ⟨hactive, hback, ?_⟩
    split
    · exact htake
    · refine ⟨htake.pos_le, ?_, htake.pointer, ?_, h.sound.concat ?_⟩
      · intro i b hi hnum hb
        obtain ⟨hb_active, hb_back, hb_rep⟩ := htake.result i b hi hnum hb
        refine ⟨hb_active, hb_back, hb_rep.concat ?_⟩
        -- The descriptor has no pointer any more, so this is the result of another one.
        rintro rfl
        rw [update_self] at hb_back
        cases hb_back
      · intro b
        exact (interest_concat _ _ _).trans (htake.interest b)
      · intro b events heq
        obtain ⟨rfl, rfl⟩ := Event.dispatch.inj heq
        refine ⟨_, _, hrep, (h.interest bfd).trans (if_pos hactive), ?_, ?_, rfl, rfl⟩
        · intro hread
          exact Bool.and_eq_true_iff.mp hread
        · intro hwrite
          exact Bool.and_eq_true_iff.mp hwrite

theorem iterate_spec (h : FdInv r) (hbatch : Reportable r batch) (expired : ℕ) :
    wp (iterate batch expired) (fun _ r' => FdInv r') r := by
  simp only [iterate, wp_bind, wp_get, wp_ite, wp_modify, wp_pure]
  split
  · exact h.jobs _ _ _
  · rename_i hjobs
    split
    · exact h.jobs _ _ _
    · rename_i htimers
      split
      · rename_i hlt
        exact dispatch_spec h hlt
      · rename_i hle
        exact waitForEvents_spec h (not_not.mp hjobs) (not_not.mp htimers)
          (Nat.le_antisymm h.pos_le (not_lt.mp hle)) hbatch expired

/-! ### Runs -/

structure WorldInv (w : World) : Prop where
  fault : w.fault = none
  reactor : FdInv w.reactor

variable {w w' : World}

theorem WorldInv.leave {x : M Bool} (h : WorldInv w) (hx : wp x (fun _ r' => FdInv r') w.reactor) :
    WorldInv (leave w (x.run w.reactor)) := by
  obtain ⟨⟨b, r'⟩, hrun, hr'⟩ := hx
  rw [hrun]
  exact ⟨h.fault, hr'⟩

theorem WorldInv.stepHandler (h : WorldInv w) {l : Label} (hnext : nextHandler w l = some w') :
    WorldInv w' := by
  cases l with
  | add =>
    obtain ⟨hbs, rfl⟩ := guard_eq_some.mp hnext
    refine h.leave ?_
    simp only [wp_bind, wp_pure]
    exact addFileDescriptor_spec h.reactor hbs
  | remove =>
    obtain ⟨hbs, rfl⟩ := guard_eq_some.mp hnext
    refine h.leave ?_
    simp only [wp_bind, wp_pure]
    exact removeFileDescriptor_spec h.reactor hbs
  | setEvents _ events =>
    obtain ⟨hbs, rfl⟩ := guard_eq_some.mp hnext
    refine h.leave ?_
    simp only [wp_bind, wp_pure]
    exact setFileDescriptorEvents_spec h.reactor hbs events
  | jobs | timers | quit =>
    cases hnext
    exact ⟨h.fault, h.reactor.jobs _ _ _⟩
  | done =>
    cases hnext
    exact ⟨h.fault, h.reactor⟩
  | iterate => cases hnext

theorem WorldInv.step (h : WorldInv w) {l : Label} (hnext : next w l = some w') : WorldInv w' := by
  obtain ⟨-, hnext⟩ := Option.ite_none_left_eq_some.mp hnext
  split at hnext
  · exact h.stepHandler hnext
  · split at hnext
    · obtain ⟨⟨-, hbatch⟩, rfl⟩ := guard_eq_some.mp hnext
      exact h.leave (iterate_spec h.reactor hbatch _)
    · cases hnext

variable {ptrs : ℕ → Option ℕ} {waits : ℕ → WaitEvents} {results : ℕ → EpollEvent}

theorem worldInv_of_reachable (h : (system ptrs waits results).Reachable w) : WorldInv w := by
  refine h.invariant ⟨rfl, Nat.le_refl 0, ?_, ?_, fun _ => rfl, ?_⟩ fun _ _ _ hinv hnext =>
    hinv.step hnext
  · exact fun i _ _ hlt => absurd hlt (Nat.not_lt_zero i)
  · exact fun _ _ hactive => nomatch hactive
  · intro pre bs events post hlog
    exact absurd hlog.symm (List.append_ne_nil_of_right_ne_nil _ (List.cons_ne_nil _ _))

/-- **Only what was reported is dispatched.** Whatever handlers do, no assertion fails. The handler
of a descriptor is called only if the last wait reported the descriptor, which has been active ever
since, and not a second time for the same wait, and it is told that it can read or write only if that
was reported and is waited for at the time. The pointer of an active descriptor is `NULL` unless its
result is pending. -/
theorem descriptors_dispatched_soundly (h : (system ptrs waits results).Reachable w) :
    w.fault = none ∧ Sound w.reactor.log ∧
    ∀ bs i, (w.reactor.fds bs).active = true → (w.reactor.fds bs).epollReturnedPtr = some i →
      w.reactor.epollResultsPos ≤ i ∧ i < w.reactor.epollResultsNum ∧
        (w.reactor.epollResults i).ptr = some bs :=
  have hinv := worldInv_of_reachable h
  ⟨hinv.fault, hinv.reactor.sound, hinv.reactor.pointer⟩

/-- Three descriptors are reported. The handler of the first removes the second and adds it again,
and stops the third from waiting to read, so that only the error of the third is dispatched. -/
theorem descriptors_dispatched_soundly_readded :
    ∃ w, (system (fun _ => none) (fun _ => ⟨true, true⟩)
        (fun _ => ⟨none, ⟨true, true, true, true⟩⟩)).Reachable w ∧
      w.reactor.log = [.add 1, .setEvents 1 ⟨true, false⟩, .add 2, .setEvents 2 ⟨true, false⟩, .add 3,
        .setEvents 3 ⟨true, false⟩,
        .wait [(1, ⟨true, false, false, false⟩), (2, ⟨true, false, false, false⟩),
          (3, ⟨true, false, true, false⟩)],
        .dispatch 1 ⟨true, false, false, false⟩, .remove 2, .add 2, .setEvents 3 ⟨false, true⟩,
        .dispatch 3 ⟨false, false, true, false⟩] ∧
      w.fault = none ∧ Sound w.reactor.log := by
  obtain ⟨w, hw, hlog⟩ := System.exists_of_run (system (fun _ => none) (fun _ => ⟨true, true⟩)
      (fun _ => ⟨none, ⟨true, true, true, true⟩⟩))
    (fun w => w.reactor.log = [.add 1, .setEvents 1 ⟨true, false⟩, .add 2,
      .setEvents 2 ⟨true, false⟩, .add 3, .setEvents 3 ⟨true, false⟩,
      .wait [(1, ⟨true, false, false, false⟩), (2, ⟨true, false, false, false⟩),
        (3, ⟨true, false, true, false⟩)],
      .dispatch 1 ⟨true, false, false, false⟩, .remove 2, .add 2, .setEvents 3 ⟨false, true⟩,
      .dispatch 3 ⟨false, false, true, false⟩])
    [.add 1, .setEvents 1 ⟨true, false⟩, .add 2, .setEvents 2 ⟨true, false⟩, .add 3,
      .setEvents 3 ⟨true, false⟩, .done,
      .iterate [(1, ⟨true, false, false, false⟩), (2, ⟨true, false, false, false⟩),
        (3, ⟨true, false, true, false⟩)] 0,
      .iterate [] 0, .remove 2, .add 2, .setEvents 3 ⟨false, true⟩, .jobs 1, .done, .iterate [] 0,
      .done, .iterate [] 0, .iterate [] 0]
    (by decide +kernel)
  obtain ⟨hfault, hsound, -⟩ := descriptors_dispatched_soundly hw
  exact ⟨w, hw, hlog, hfault, hsound⟩

end Tun2Socks.Reactor.Descriptors
