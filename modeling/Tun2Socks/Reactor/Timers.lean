import Tun2Socks.Framework.Checked
import Tun2Socks.Framework.InOrder
import Tun2Socks.Framework.System

/-!
# The timers of the reactor

`BReactor_badvpn.c`, as far as timers go, in the build with `epoll`. A timer is in one of three
places: in the tree of running timers, ordered by the time it is set for and its address; in the
list of expired timers, whose handlers are to be called; or in neither.

* `bReactorSetSmallTimer` and `bReactorRemoveSmallTimer` are what the handlers call. A handler is
  any list of such operations (`Op`), with pending jobs that come and go and a quit request
  between them.
* `waitForEvents` moves timers from the tree to the list: those that are due when it is entered
  (`moveExpiredTimers`), or the first ones once `epoll_wait` has waited for them
  (`moveFirstTimers`).
* `iterate` is one iteration of the loop of `BReactor_Exec`. It runs a job, or calls the handler
  of the first expired timer, or of a file descriptor, or waits.

The clock is what `btime_gettime` returns, the milliseconds since `BTime_Init`. It does not go
back: the environment says by how much it has advanced whenever it is read and whenever
`epoll_wait` returns. `epoll_wait` returns `0` only after its timeout has elapsed.

The state keeps a history of the operations on timers, the waits and the dispatches.
-/

namespace Tun2Socks.Reactor

open Framework Std

/-! ### Time -/

/-- `INT64_MAX`. -/
def int64Max : ℤ := 9223372036854775807

/-- `INT64_MIN`. -/
def int64Min : ℤ := -9223372036854775808

/-- `INT_MAX`. -/
def intMax : ℤ := 2147483647

/-- The values of a `btime_t`. -/
def IsTime (t : ℤ) : Prop := int64Min ≤ t ∧ t ≤ int64Max

instance (t : ℤ) : Decidable (IsTime t) := inferInstanceAs (Decidable (_ ∧ _))

def btimeAdd (t1 t2 : ℤ) : ℤ :=
  if int64Max < t1 + t2 then int64Max else if t1 + t2 < int64Min then int64Min else t1 + t2

/-! ### The state -/

/-- `TIMER_STATE_INACTIVE`, `TIMER_STATE_RUNNING`, `TIMER_STATE_EXPIRED`. -/
inductive TimerState
  | inactive
  | running
  | expired
  deriving DecidableEq, Repr

structure BSmallTimer where
  state : TimerState
  absTime : ℤ
  /-- The number of the wait that moved it to the expired list. -/
  movedIn : ℕ
  deriving DecidableEq, Repr

/-- A call of a timer's handler. -/
structure Dispatch where
  timer : ℕ
  absTime : ℤ
  /-- The number of the wait that moved it to the expired list. -/
  movedIn : ℕ
  /-- The time at the call. -/
  clock : ℤ
  deriving DecidableEq, Repr

inductive Event
  /-- `BReactor_SetSmallTimer`, with the absolute time. -/
  | set (bt : ℕ) (absTime : ℤ)
  | remove (bt : ℕ)
  /-- `wait_for_events` is entered, with this expired list. -/
  | wait (timersExpiredList : List ℕ)
  | dispatch (d : Dispatch)
  deriving DecidableEq, Repr

/-- The reactor; a timer is known by its address. -/
structure BReactor where
  exiting : Bool
  /-- The number of jobs in the pending group. -/
  pendingJobs : ℕ
  timers : ℕ → BSmallTimer
  /-- The tree of running timers, in order. -/
  timersTree : List ℕ
  timersExpiredList : List ℕ
  /-- The results of `epoll_wait` that are not dispatched yet. -/
  epollResults : ℕ
  clock : ℤ
  /-- How often `wait_for_events` was entered. -/
  waits : ℕ
  history : List Event

/-- What the code of the reactor checks or relies on. -/
inductive Fault
  /-- An `ASSERT`. -/
  | assertion
  /-- A node is taken out of a tree or a list it is not in. -/
  | notLinked
  /-- A signed overflow. -/
  | overflow
  /-- The call does not return. -/
  | blocked
  deriving DecidableEq, Repr

abbrev M := Checked Fault BReactor

/-- `ASSERT`. -/
def assert (p : Prop) [Decidable p] : M Unit := ensure p .assertion

/-- `compare_timers`. -/
def compareTimers : ℤ × ℕ → ℤ × ℕ → Ordering :=
  compareLex (compareOn Prod.fst) (compareOn Prod.snd)

instance : TransCmp compareTimers := inferInstanceAs (TransCmp (compareLex _ _))

instance : LawfulEqCmp compareTimers where
  compare_self := ReflCmp.compare_self
  eq_of_compare {a b} h := by
    obtain ⟨hfst, hsnd⟩ := compareLex_eq_eq.mp h
    exact Prod.ext (LawfulEqCmp.eq_of_compare hfst) (LawfulEqCmp.eq_of_compare hsnd)

namespace BReactor

variable (s : BReactor)

/-- What the tree compares. -/
def key (bt : ℕ) : ℤ × ℕ := ((s.timers bt).absTime, bt)

/-- One timer is written. -/
def update (bt : ℕ) (f : BSmallTimer → BSmallTimer) : BReactor :=
  { s with timers := Function.update s.timers bt (f (s.timers bt)) }

def log (e : Event) : BReactor := { s with history := s.history ++ [e] }

end BReactor

/-! ### Timer operations -/

/-- Time passes. -/
def elapse (d : ℤ) : M Unit := modify fun s => { s with clock := min (s.clock + d) int64Max }

/-- `btime_gettime`, `d` after the last time the clock was known. -/
def btimeGettime (d : ℕ) : M ℤ := do
  elapse d
  let s ← get
  pure s.clock

/-- The body of `BReactor_RemoveSmallTimer`. -/
def unlinkTimer (bt : ℕ) : M Unit := do
  let s ← get
  match (s.timers bt).state with
  | .inactive => pure ()
  | .expired =>
    ensure (bt ∈ s.timersExpiredList) .notLinked
    modify fun s => { s with timersExpiredList := s.timersExpiredList.erase bt }
    modify fun s => s.update bt fun timer => { timer with state := .inactive }
  | .running =>
    ensure (bt ∈ s.timersTree) .notLinked
    modify fun s => { s with timersTree := s.timersTree.erase bt }
    modify fun s => s.update bt fun timer => { timer with state := .inactive }

def bReactorRemoveSmallTimer (bt : ℕ) : M Unit := do
  unlinkTimer bt
  modify fun s => s.log (.remove bt)

/-- `BTIMER_SET_ABSOLUTE`, or `BTIMER_SET_RELATIVE` with the delay until the clock is read. -/
inductive Mode
  | absolute
  | relative (d : ℕ)
  deriving DecidableEq, Repr

def insertTimer (bt : ℕ) : M Unit := do
  let s ← get
  match InOrder.insert compareTimers s.key bt s.timersTree with
  | none => throw .assertion
  | some t => modify fun s => { s with timersTree := t }

/-- The absolute time, with the current time added if the mode is relative. -/
def absoluteTime (time : ℤ) : Mode → M ℤ
  | .absolute => pure time
  | .relative d => do
    let now ← btimeGettime d
    pure (btimeAdd now time)

def bReactorSetSmallTimer (bt : ℕ) (mode : Mode) (time : ℤ) : M Unit := do
  unlinkTimer bt
  let time ← absoluteTime time mode
  modify fun s => s.update bt fun timer => { timer with absTime := time, state := .running }
  insertTimer bt
  modify fun s => s.log (.set bt time)

/-! ### Moving timers to the expired list -/

/-- The first timer of the tree goes to the end of the expired list. -/
def expireTimer (bt : ℕ) : M Unit := do
  modify fun s => { s with
    timersTree := s.timersTree.erase bt
    timersExpiredList := s.timersExpiredList ++ [bt] }
  modify fun s => s.update bt fun timer => { timer with state := .expired, movedIn := s.waits }

/-- The loop of `move_expired_timers` and of `move_first_timers`, over the timers of the tree. It
moves those up to the time `now`, and says whether there were any; `move_first_timers` asserts
that there are none before `now`. -/
def moveTimers (asserted : Bool) (now : ℤ) : List ℕ → M Bool
  | [] => pure false
  | bt :: t => do
    let timer := (← get).timers bt
    assert (timer.state = .running)
    assert (asserted = true → now ≤ timer.absTime)
    if now < timer.absTime then pure false
    else
      expireTimer bt
      let _ ← moveTimers asserted now t
      pure true

def moveExpiredTimers (now : ℤ) : M Bool := do moveTimers false now (← get).timersTree

def moveFirstTimers : M Unit := do
  match (← get).timersTree with
  | [] => throw .assertion
  | bt :: t =>
    let firstTimer := (← get).timers bt
    assert (firstTimer.state = .running)
    expireTimer bt
    let _ ← moveTimers true firstTimer.absTime t
    pure ()

/-! ### Waiting -/

/-- What `epoll_wait` returns, the time after which it returns (with its timeout, if that is what
it waited for) and the delay until the clock is read again. -/
inductive Wait
  | events (n : ℕ) (d : ℕ)
  | timedOut (d d' : ℕ)
  | interrupted (d d' : ℕ)
  deriving DecidableEq, Repr

/-- After `try_again`: `k` is the next iteration of the loop. -/
def tryAgain (timeoutAbs : Option ℤ) (now : ℤ) (d' : ℕ) (k : ℤ → M Unit) : M Unit :=
  match timeoutAbs with
  | none => k now
  | some timeoutAbs => do
    let now ← btimeGettime d'
    if timeoutAbs ≤ now then moveFirstTimers else k now

/-- The loop of `wait_for_events`. It does not return as long as `epoll_wait` does not. -/
def waitLoop (timeoutAbs : Option ℤ) : List Wait → ℤ → M Unit
  | [], _ => throw .blocked
  | w :: ws, now => do
    let timeoutRel := timeoutAbs.map (· - now)
    ensure (∀ rel ∈ timeoutRel, IsTime rel) .overflow
    let timeoutRelTrunc := timeoutRel.map fun rel => min rel intMax
    match w with
    | .events n d =>
      elapse d
      modify fun s => { s with epollResults := n + 1 }
    | .interrupted d d' =>
      elapse d
      tryAgain timeoutAbs now d' (waitLoop timeoutAbs ws)
    | .timedOut d d' =>
      match timeoutRelTrunc with
      | none => throw .blocked
      | some trunc =>
        elapse (trunc + d)
        if timeoutRel = some trunc then moveFirstTimers
        else tryAgain timeoutAbs now d' (waitLoop timeoutAbs ws)

/-- `wait_for_events`; `d` is the delay until the clock is first read. -/
def waitForEvents (d : ℕ) (ws : List Wait) : M Unit := do
  modify fun s => { s.log (.wait s.timersExpiredList) with waits := s.waits + 1 }
  let s ← get
  assert (s.pendingJobs = 0)
  assert (s.timersExpiredList = [])
  assert (s.epollResults = 0)
  match s.timersTree with
  | [] => waitLoop none ws 0
  | bt :: _ =>
    assert ((s.timers bt).state = .running)
    let now ← btimeGettime d
    if (← moveExpiredTimers now) = false then
      waitLoop (some (s.timers bt).absTime) ws now

/-! ### The loop -/

/-- What a handler may do. -/
inductive Op
  | set (bt : ℕ) (mode : Mode) (time : ℤ)
  | remove (bt : ℕ)
  /-- Jobs are set and unset. -/
  | jobs (pendingJobs : ℕ)
  | quit
  deriving DecidableEq, Repr

def runOp : Op → M Unit
  | .set bt mode time => bReactorSetSmallTimer bt mode time
  | .remove bt => bReactorRemoveSmallTimer bt
  | .jobs pendingJobs => modify fun s => { s with pendingJobs }
  | .quit => modify fun s => { s with exiting := true }

/-- A handler runs. -/
def runOps : List Op → M Unit
  | [] => pure ()
  | op :: ops => do
    runOp op
    runOps ops

/-- The time arguments are values of a `btime_t`. -/
def Op.Valid : Op → Prop
  | .set _ _ time => IsTime time
  | _ => True

instance : ∀ op : Op, Decidable op.Valid
  | .set _ _ time => inferInstanceAs (Decidable (IsTime time))
  | .remove _ | .jobs _ | .quit => .isTrue trivial

/-- The handler of the first expired timer is about to be called. -/
def dispatchTimer (bt : ℕ) (rest : List ℕ) : M Unit := do
  let timer := (← get).timers bt
  assert (timer.state = .expired)
  modify fun s => { s with timersExpiredList := rest }
  modify fun s => s.update bt fun timer => { timer with state := .inactive }
  modify fun s => s.log (.dispatch ⟨bt, timer.absTime, timer.movedIn, s.clock⟩)

/-- One iteration of the loop of `BReactor_Exec`: what the handler does that is called, if one is,
and how the wait goes, if there is one. -/
def iterate (ops : List Op) (d : ℕ) (ws : List Wait) : M Unit := do
  let s ← get
  if s.pendingJobs ≠ 0 then
    modify fun s => { s with pendingJobs := s.pendingJobs - 1 }
    runOps ops
  else
    match s.timersExpiredList with
    | bt :: rest =>
      dispatchTimer bt rest
      runOps ops
    | [] =>
      if s.epollResults ≠ 0 then
        modify fun s => { s with epollResults := s.epollResults - 1 }
        runOps ops
      else waitForEvents d ws

/-! ### The system -/

/-- The reactor, and the fault that has stopped it. -/
structure World where
  reactor : BReactor
  fault : Option Fault

inductive Label
  /-- Code outside the loop, before `BReactor_Exec`, uses timers. -/
  | setup (ops : List Op)
  | iterate (ops : List Op) (d : ℕ) (ws : List Wait)

/-- The state a call leaves. A call that does not return is no step. -/
def World.leave (w : World) : Except Fault (Unit × BReactor) → Option World
  | .ok (_, s) => some { w with reactor := s }
  | .error .blocked => none
  | .error f => some { w with fault := some f }

def next (w : World) : Label → Option World
  | .setup ops =>
    if w.fault = none ∧ ∀ op ∈ ops, op.Valid then w.leave ((runOps ops).run w.reactor) else none
  | .iterate ops d ws =>
    if w.fault = none ∧ w.reactor.exiting = false ∧ ∀ op ∈ ops, op.Valid then
      w.leave ((iterate ops d ws).run w.reactor)
    else none

/-- The reactor after `BReactor_Init`, with timers that `BSmallTimer_Init` has initialised. -/
def initial : BReactor where
  exiting := false
  pendingJobs := 0
  timers := fun _ => ⟨.inactive, 0, 0⟩
  timersTree := []
  timersExpiredList := []
  epollResults := 0
  clock := 0
  waits := 0
  history := []

def system : System World Label where
  init := ⟨initial, none⟩
  next := next

end Tun2Socks.Reactor
