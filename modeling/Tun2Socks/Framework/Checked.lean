import Mathlib

/-!
# Checked programs

A `Checked Fault State` program reads and writes a state and stops with a fault where the
program it models would fail an assertion or touch memory it must not touch. The one
judgment about such programs is total and free of faults:

* `wp x Q s` — started in `s`, the program `x` returns, and `Q` holds of its result and of
  the state it leaves.

The `wp_*` lemmas compute it along the program, so that `simp` turns a straight-line
program into the conditions it checks and the state it leaves. `wp_mono` replaces the
postcondition, which is how a caller uses the specification of a callee.

A program that models a call which need not return stops with a fault that stands for that.
`wpUnless f x Q s` is `wp` with this way out: `x` stops with the fault `f`, or returns with `Q`.
-/

namespace Tun2Socks.Framework

/-- A program over `State` that may stop with a `Fault`. -/
abbrev Checked (Fault State : Type) := StateT State (Except Fault)

variable {Fault State α β : Type}

/-- Go on if `p` holds, stop with the fault `f` if it does not. -/
def ensure (p : Prop) [Decidable p] (f : Fault) : Checked Fault State Unit :=
  if p then pure () else throw f

/-- `x`, started in `s`, returns without a fault, with a result and a state in `Q`. -/
def wp (x : Checked Fault State α) (Q : α → State → Prop) (s : State) : Prop :=
  ∃ r, x.run s = .ok r ∧ Q r.1 r.2

variable {Q Q' : α → State → Prop} {s : State}

@[simp] theorem wp_pure (a : α) : wp (pure a : Checked Fault State α) Q s ↔ Q a s := by
  simp [wp, pure, Except.pure, StateT.run, StateT.pure]

@[simp] theorem wp_bind (x : Checked Fault State α) (f : α → Checked Fault State β)
    (R : β → State → Prop) :
    wp (x >>= f) R s ↔ wp x (fun a s' => wp (f a) R s') s := by
  unfold wp
  rw [StateT.run_bind]
  constructor
  · rintro ⟨r, hrun, hpost⟩
    cases hx : x.run s with
    | error => simp [hx, bind, Except.bind] at hrun
    | ok r' => exact ⟨r', rfl, r, by simpa [hx, bind, Except.bind] using hrun, hpost⟩
  · rintro ⟨r', hx, r, hrun, hpost⟩
    exact ⟨r, by simpa [hx, bind, Except.bind] using hrun, hpost⟩

@[simp] theorem wp_map (f : α → β) (x : Checked Fault State α) (R : β → State → Prop) :
    wp (f <$> x) R s ↔ wp x (fun a s' => R (f a) s') s := by
  rw [← bind_pure_comp, wp_bind]
  simp

@[simp] theorem wp_get {R : State → State → Prop} :
    wp (get : Checked Fault State State) R s ↔ R s s := by
  simp [wp, get, getThe, MonadStateOf.get, StateT.get, StateT.run, pure, Except.pure]

variable {R : Unit → State → Prop}

@[simp] theorem wp_modify (f : State → State) :
    wp (modify f : Checked Fault State Unit) R s ↔ R () (f s) := by
  simp [wp, modify, modifyGet, MonadStateOf.modifyGet, StateT.modifyGet, StateT.run, pure,
    Except.pure]

@[simp] theorem wp_throw (f : Fault) : wp (throw f : Checked Fault State α) Q s ↔ False := by
  simp [wp, throw, throwThe, MonadExceptOf.throw, StateT.lift, StateT.run, bind, Except.bind]

@[simp] theorem wp_ensure (p : Prop) [Decidable p] (f : Fault) :
    wp (ensure p f : Checked Fault State Unit) R s ↔ p ∧ R () s := by
  unfold ensure
  split <;> simp [*]

theorem wp_ite (p : Prop) [Decidable p] (x y : Checked Fault State α) :
    wp (if p then x else y) Q s ↔ if p then wp x Q s else wp y Q s := by
  split <;> rfl

variable {x : Checked Fault State α}

theorem wp_mono (h : wp x Q s) (hpost : ∀ a s', Q a s' → Q' a s') :
    wp x Q' s := by
  obtain ⟨r, hrun, hr⟩ := h
  exact ⟨r, hrun, hpost _ _ hr⟩

/-- Programs are deterministic: what is true of a run is true of its result. -/
theorem wp_iff_of_run {r : α × State} (hrun : x.run s = .ok r) :
    wp x Q s ↔ Q r.1 r.2 := by
  constructor
  · rintro ⟨r', hrun', hr'⟩
    rw [hrun] at hrun'
    exact Except.ok.inj hrun' ▸ hr'
  · exact fun hr => ⟨r, hrun, hr⟩

/-- Two things a program does at once. -/
theorem wp_and (h : wp x Q s) (h' : wp x Q' s) :
    wp x (fun a s' => Q a s' ∧ Q' a s') s := by
  obtain ⟨r, hrun, hr⟩ := h
  exact ⟨r, hrun, hr, (wp_iff_of_run hrun).mp h'⟩

/-- The rule for a loop over a list: what holds at the start and is kept by the body, which knows
the entries before the present one, holds at the end. -/
theorem wp_foldlM {f : β → α → Checked Fault State β} {l : List α} {b : β}
    {I : List α → β → State → Prop} (hstart : I [] b s)
    (hbody : ∀ pre a b s, a ∈ l → I pre b s → wp (f b a) (fun b' s' => I (pre ++ [a]) b' s') s) :
    wp (l.foldlM f b) (fun b' s' => I l b' s') s := by
  have hrest : ∀ (rest pre : List α) (b : β) (s : State), (∀ a ∈ rest, a ∈ l) → I pre b s →
      wp (rest.foldlM f b) (fun b' s' => I (pre ++ rest) b' s') s := by
    intro rest
    induction rest with
    | nil =>
      intro pre b s _ h
      rw [List.foldlM_nil, wp_pure, List.append_nil]
      exact h
    | cons a _ ih =>
      intro pre b s hmem h
      rw [List.foldlM_cons, wp_bind]
      refine wp_mono (hbody pre a b s (hmem a List.mem_cons_self) h) ?_
      intro b' s' h'
      have hnext := ih (pre ++ [a]) b' s' (fun a' ha' => hmem a' (List.mem_cons_of_mem a ha')) h'
      rw [List.append_assoc, List.singleton_append] at hnext
      exact hnext
  exact hrest l [] b s (fun _ ha => ha) hstart

/-- Run a program on a part of the state. -/
def focus {Part : Type} (part : State → Part) (update : State → Part → State)
    (x : Checked Fault Part α) : Checked Fault State α := fun s =>
  (x.run (part s)).map fun r => (r.1, update s r.2)

@[simp] theorem wp_focus {Part : Type} (part : State → Part) (update : State → Part → State)
    (x : Checked Fault Part α) :
    wp (focus part update x) Q s ↔ wp x (fun a t => Q a (update s t)) (part s) := by
  unfold wp focus
  change (∃ r, (x.run (part s)).map _ = .ok r ∧ _) ↔ _
  cases x.run (part s) with
  | error | ok => simp [Except.map]

/-- Run a program with other faults. -/
def mapFault {Fault' : Type} (f : Fault → Fault') (x : Checked Fault State α) :
    Checked Fault' State α := fun s => (x.run s).mapError f

@[simp] theorem wp_mapFault {Fault' : Type} (f : Fault → Fault') (x : Checked Fault State α) :
    wp (mapFault f x) Q s ↔ wp x Q s := by
  unfold wp mapFault
  change (∃ r, (x.run s).mapError f = .ok r ∧ _) ↔ _
  cases x.run s with
  | error | ok => simp [Except.mapError]

/-! ### Programs that may not return -/

/-- `x`, started in `s`, stops with the fault `f`, or returns with a result and a state in `Q`. -/
def wpUnless (f : Fault) (x : Checked Fault State α) (Q : α → State → Prop) (s : State) : Prop :=
  x.run s = .error f ∨ wp x Q s

variable {f : Fault}

theorem wpUnless_throw : wpUnless f (throw f : Checked Fault State α) Q s := .inl rfl

/-- What comes after a part that returns. -/
theorem wpUnless_bind {k : α → Checked Fault State β}
    {R : β → State → Prop} (h : wp x (fun a s' => wpUnless f (k a) R s') s) :
    wpUnless f (x >>= k) R s := by
  obtain ⟨r, hrun, hstop | hk⟩ := h
  · left
    rw [StateT.run_bind, hrun]
    exact hstop
  · right
    rw [wp_bind]
    exact ⟨r, hrun, hk⟩

end Tun2Socks.Framework
