import Tun2Socks.Framework.System
import Tun2Socks.Socks.Handshake

/-!
# The buffer and the parts of a SOCKS client

One buffer serves all messages of the handshake, and asynchronous operations hold pointers into
it. This module follows a client from `BSocksClient_Init` to `BSocksClient_Free`, which the user
may call at any time; every call of the user's handler is the last thing a callback does, so
freeing the client from the handler is freeing it after the callback.

* `Disciplined` — at most one operation is outstanding, and it stays inside the buffer as it was
  last reserved. It holds after an error as well, when an operation may be left outstanding, and
  every callback keeps it (`Turn`).
* `freeOrder` — what `BSocksClient_Free` releases, as it reads it off the state variable;
  `bSocksClientFree_eq` says that the function is the release of these parts one after another,
  and `ClientInv.freesExactly` that they are the parts that exist.

An access outside the buffer, a reallocation or release of it under an operation, and the release
of a part that does not exist are faults of the programs, and `disciplined_of_reachable` says
that there are none.
-/

namespace Tun2Socks.Socks

open Framework Net

variable {env : Env} {o : Client}

/-! ### The parts -/

/-- What a client consists of. -/
inductive Part
  | connector
  | connection
  | controlIo
  | upIo
  | buffer
  deriving DecidableEq, Repr

/-- The part exists and has to be released. -/
def Initialised (o : Client) : Part → Prop
  | .connector => o.connector = true
  | .connection => o.con = true
  | .controlIo => o.io = .control
  | .upIo => o.io = .up
  | .buffer => o.buffer ≠ none

instance (o : Client) : ∀ p, Decidable (Initialised o p)
  | .connector => inferInstanceAs (Decidable (o.connector = true))
  | .connection => inferInstanceAs (Decidable (o.con = true))
  | .controlIo => inferInstanceAs (Decidable (o.io = .control))
  | .upIo => inferInstanceAs (Decidable (o.io = .up))
  | .buffer => inferInstanceAs (Decidable (o.buffer ≠ none))

def release : Part → M Unit
  | .connector => bConnectorFree
  | .connection => bConnectionFree
  | .controlIo => freeControlIo
  | .upIo => freeUpIo
  | .buffer => freeBuffer

/-- What `BSocksClient_Free` releases, in its order. -/
def freeOrder (o : Client) : List Part :=
  (if o.state ≠ .connecting then [if o.state = .up then .upIo else .controlIo, .connection]
    else []) ++ [.connector] ++ if o.buffer ≠ none then [.buffer] else []

/-- **`BSocksClient_Free`** is the release of these parts, one after another. -/
theorem bSocksClientFree_eq :
    bSocksClientFree = get >>= fun o => (freeOrder o).forM release := by
  unfold bSocksClientFree
  refine bind_congr fun o => ?_
  rw [freeOrder]
  split_ifs <;> simp [release]

/-- `BSocksClient_Free` does what it has to do in this state. -/
structure FreesExactly (o : Client) : Prop where
  /-- It returns, and nothing is left. -/
  returns : wp bSocksClientFree (fun _ o' => ∀ p, ¬ Initialised o' p) o
  order : bSocksClientFree.run o = ((freeOrder o).forM release).run o
  once : (freeOrder o).Nodup
  exact : ∀ p, p ∈ freeOrder o ↔ Initialised o p

theorem nodup_freeOrder (o : Client) : (freeOrder o).Nodup := by
  rw [freeOrder]
  split_ifs <;> decide

/-- The parts the state variable stands for are those that exist. -/
theorem Owned.mem_freeOrder {n : ℕ} (h : Owned n o.state o) (p : Part) :
    p ∈ freeOrder o ↔ Initialised o p := by
  have hio := h.io
  have hcon := h.con
  rw [freeOrder]
  cases p with
  | connector => simp [Initialised, h.connector]
  | connection =>
    rw [Initialised, hcon]
    split_ifs <;> simp [*]
  | buffer => split_ifs <;> simp [Initialised, *]
  | controlIo | upIo =>
    rw [Initialised, hio]
    cases o.state <;> simp [State.io]

theorem ClientInv.freesExactly {n : ℕ} (h : ClientInv n o) : FreesExactly o where
  returns := by
    refine wp_mono (bSocksClientFree_spec h) ?_
    rintro _ o' ⟨hconnector, hcon, hio, hbuffer, -⟩ p
    cases p <;> simp [Initialised, *]
  order := by
    rw [bSocksClientFree_eq]
    rfl
  once := nodup_freeOrder o
  exact := h.owned.mem_freeOrder

/-! ### The life of a client -/

/-- The arguments of `BSocksClient_Init`, and everything a callback may find around it: the
table and the strings may change between callbacks, and every `BRealloc` may fail. -/
structure Setup where
  numAuthInfo : ℕ
  destAddr : BAddr
  env : ℕ → Env
  dest : destAddr ≠ .none
  count : ∀ k, (env k).authInfo.length = numAuthInfo
  readable : ∀ k, (env k).Readable

structure LifeWorld where
  client : Client
  freed : Bool
  fault : Option Fault

namespace LifeWorld

inductive Label
  /-- A callback, in the `k`-th surroundings. -/
  | callback (k : ℕ) (cb : Callback)
  | free
  deriving DecidableEq, Repr

def leave (w : LifeWorld) (freed : Bool) : Except Fault (Unit × Client) → LifeWorld
  | .error f => { w with fault := some f }
  | .ok (_, client) => { w with client, freed }

def next (setup : Setup) (w : LifeWorld) : Label → Option LifeWorld
  | .callback k cb =>
    if w.fault = none ∧ w.freed = false ∧ cb.Enabled w.client then
      some (w.leave false ((Socks.callback (setup.env k) cb).run w.client))
    else none
  | .free =>
    if w.fault = none ∧ w.freed = false then
      some (w.leave true (bSocksClientFree.run w.client))
    else none

/-- From `BSocksClient_Init` on, over every stream of the server. -/
def system (setup : Setup) : System LifeWorld Label where
  init := {
    client := (bSocksClientInit setup.numAuthInfo setup.destAddr true).get rfl
    freed := false
    fault := none }
  next := next setup

/-- What holds of a client until it is freed, and after. -/
structure Inv (setup : Setup) (w : LifeWorld) : Prop where
  fault : w.fault = none
  live : w.freed = false → ClientInv setup.numAuthInfo w.client ∧ Disciplined w.client
  freed : w.freed = true → ∀ p, ¬ Initialised w.client p

variable {setup : Setup} {w w' : LifeWorld}

theorem inv_init (setup : Setup) : Inv setup (system setup).init where
  fault := rfl
  live _ := by
    refine ⟨⟨⟨rfl, iff_of_false Bool.false_ne_true (not_not.mpr rfl), rfl, setup.dest, le_rfl,
      fun _ => ⟨rfl, rfl, rfl⟩⟩, fun _ => trivial⟩, .of_idle ⟨rfl, rfl⟩⟩
  freed h := nomatch h

theorem leave_of_wp {x : M Unit} {P : Client → Prop} {freed : Bool}
    (h : wp x (fun _ => P) w.client) :
    ∃ client, w.leave freed (x.run w.client) = { w with client, freed } ∧ P client := by
  obtain ⟨r, hrun, hr⟩ := h
  refine ⟨r.2, ?_, hr⟩
  rw [hrun]
  rfl

theorem Inv.step (h : Inv setup w) {l : Label} (hnext : next setup w l = some w') :
    Inv setup w' := by
  cases l with
  | callback k cb =>
    obtain ⟨⟨hfault, hlive, hcb⟩, rfl⟩ := guard_eq_some.mp hnext
    obtain ⟨hinv, hdisciplined⟩ := h.live hlive
    rw [← setup.count k] at hinv
    obtain ⟨client, hleave, hstep⟩ := leave_of_wp (w := w)
      (callback_spec hinv (setup.readable k) cb hcb)
    rw [hleave]
    exact ⟨hfault, fun _ => ⟨setup.count k ▸ hstep.inv, hstep.disciplined hdisciplined⟩,
      fun hfreed => nomatch hfreed⟩
  | free =>
    obtain ⟨⟨hfault, hlive⟩, rfl⟩ := guard_eq_some.mp hnext
    obtain ⟨client, hleave, hclient⟩ := leave_of_wp (w := w)
      (h.live hlive).1.freesExactly.returns
    rw [hleave]
    exact ⟨hfault, fun hfreed => absurd hfreed.symm Bool.false_ne_true, fun _ => hclient⟩

theorem inv_of_reachable (h : (system setup).Reachable w) : Inv setup w :=
  h.invariant (inv_init setup) fun _ _ _ hinv hnext => hinv.step hnext

end LifeWorld

/-- **Buffer and resource discipline.** In every state of a client between `BSocksClient_Init`
and `BSocksClient_Free` there was no access outside the buffer and no reallocation or release of
it under an operation; what is outstanding is one operation inside the buffer; and
`BSocksClient_Free`, called now, releases exactly the parts that exist, each once. Once freed,
nothing of it is left. -/
theorem disciplined_of_reachable (setup : Setup) {w : LifeWorld}
    (h : (LifeWorld.system setup).Reachable w) :
    w.fault = none ∧ (w.freed = false → Disciplined w.client ∧ FreesExactly w.client) ∧
      (w.freed = true → ∀ p, ¬ Initialised w.client p) := by
  have hinv := LifeWorld.inv_of_reachable h
  refine ⟨hinv.fault, fun hlive => ?_, hinv.freed⟩
  obtain ⟨hclient, hdisciplined⟩ := hinv.live hlive
  exact ⟨hdisciplined, hclient.freesExactly⟩

/-- A client that offers no authentication, with memory in every other callback. -/
def plainSetup : Setup where
  numAuthInfo := 1
  destAddr := .ipv4 (.four 10 0 0 1) ⟨0, 80⟩
  env k := ⟨[.none], [], k % 2 == 0⟩
  dest := nofun
  count _ := rfl
  readable _ _ hp := nomatch hp

/-- The hello is sent, but there is no memory for the answer; the client is freed in the state
it had, with its control I/O and its buffer. -/
theorem disciplined_of_reachable_plainSetup :
    ∃ w, (LifeWorld.system plainSetup).Reachable w ∧
      (w.freed = false ∧ w.client.Failed ∧
        freeOrder w.client = [.controlIo, .connection, .connector, .buffer]) ∧
      w.fault = none ∧ (w.freed = false → Disciplined w.client ∧ FreesExactly w.client) ∧
      (w.freed = true → ∀ p, ¬ Initialised w.client p) := by
  obtain ⟨w, hreachable, hw⟩ := (LifeWorld.system plainSetup).exists_of_run
    (fun w => w.freed = false ∧ w.client.Failed ∧
      freeOrder w.client = [.controlIo, .connection, .connector, .buffer])
    [.callback 0 (.connector false true), .callback 1 .sent] (by decide +kernel)
  exact ⟨w, hreachable, hw, disciplined_of_reachable plainSetup hreachable⟩

end Tun2Socks.Socks
