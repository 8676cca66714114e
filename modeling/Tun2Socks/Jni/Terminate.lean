import Tun2Socks.Framework.System

/-!
# The terminate flag between the Java caller and the native thread

`Tunnel.startTun2Socks` starts a thread in `runTun2Socks`, and `Tunnel.stopTun2Socks`
asks it to end with `terminateTun2Socks` and then joins it. The request travels in one
global, `g_terminate`: `terminateTun2Socks` swaps it from `0` to `1`, `runTun2Socks`
swaps it from `1` back to `0` before it enters `run`, and every tick of
`tcp_timer_handler` looks for a `1`.

The reset belongs to the native thread, so it runs some time after the Java caller was
told that the thread has started. A stop that lands in between stores its `1` first and
loses it to the reset. `lost_counterexample` is that run, and
`not_lost_iff_no_reset_after_request` says that this order of the two swaps is the only
way to lose a request.

Both `startTun2Socks` and `stopTun2Socks` are reached through synchronized methods of
`Tunnel`, hence the single caller. Nothing interrupts it, so `join` returns only once
the native thread has ended.
-/

namespace Tun2Socks.Jni

open Framework

/-- `__sync_bool_compare_and_swap`, as its effect on the variable. -/
def compareAndSwap (v old new : ℕ) : ℕ := if v = old then new else v

/-- Where the Java caller stands. -/
inductive CallerPc
  | idle
  /-- Inside `stopTun2Socks`, past `terminateTun2Socks` and blocked in `join`. -/
  | join
  deriving DecidableEq, Repr

/-- Where the native thread stands. -/
inductive NativePc
  /-- No native thread: none was started, or the last one has returned. -/
  | absent
  /-- In `runTun2Socks`, before its swap of `g_terminate`. -/
  | prologue
  /-- Past the swap, in `run` before `BReactor_Exec`. -/
  | init
  /-- In `BReactor_Exec`, `quitting` is `0`. -/
  | loop
  /-- `terminate` has set `quitting`. -/
  | quitting
  deriving DecidableEq, Repr

/-- The run is under way and `quitting` has not been set. -/
def NativePc.active : NativePc → Bool
  | .prologue | .init | .loop => true
  | .absent | .quitting => false

structure State where
  caller : CallerPc
  /-- `mTun2SocksThread != null`. -/
  thread : Bool
  native : NativePc
  gTerminate : ℕ
  /-- `terminateTun2Socks` has been called for the current run. -/
  requested : Bool
  deriving DecidableEq, Repr

inductive Label
  /-- `startTun2Socks`. -/
  | start
  /-- `stopTun2Socks` up to and including `terminateTun2Socks`. -/
  | stop
  /-- `mTun2SocksThread.join()` returns and the field is cleared. -/
  | joined
  /-- The swap of `g_terminate` in `runTun2Socks`. -/
  | reset
  /-- `run` reaches the event loop, or leaves through one of its failure labels. -/
  | runInit (ok : Bool)
  /-- `tcp_timer_handler`. -/
  | tick
  /-- `terminate` from another source: a device error, or a failed lwIP set-up. -/
  | fail
  /-- The native thread leaves the event loop, cleans up and returns. -/
  | exit
  deriving DecidableEq, Repr

/-- One atomic step of the caller or of the native thread. -/
def next (s : State) : Label → Option State
  | .start =>
    if s.caller = .idle then
      -- a second start returns at once
      if s.thread then some s
      else some { s with thread := true, native := .prologue, requested := false }
    else none
  | .stop =>
    if s.caller = .idle then
      if s.thread then
        some { s with
          caller := .join
          gTerminate := compareAndSwap s.gTerminate 0 1
          requested := true }
      else some s
    else none
  | .joined =>
    if s.caller = .join ∧ s.native = .absent then
      some { s with caller := .idle, thread := false }
    else none
  | .reset =>
    if s.native = .prologue then
      some { s with native := .init, gTerminate := compareAndSwap s.gTerminate 1 0 }
    else none
  | .runInit ok =>
    if s.native = .init then some { s with native := if ok then .loop else .absent } else none
  | .tick =>
    if s.native = .loop then
      if compareAndSwap s.gTerminate 1 1 = 1 then some { s with native := .quitting } else some s
    else none
  | .fail => if s.native = .loop then some { s with native := .quitting } else none
  | .exit => if s.native = .quitting then some { s with native := .absent } else none

/-- The process before the first start: `g_terminate` is initialised to `0`. -/
def terminateSystem : System State Label where
  init := ⟨.idle, false, .absent, 0, false⟩
  next := next

/-- A lost request: `terminateTun2Socks` was called for the current run, the run is not
quitting, the flag it polls is `0`, and the caller is already in `join`, so that no store
of `1` is still to come. -/
def Lost (s : State) : Prop :=
  s.requested = true ∧ s.native.active = true ∧ s.gTerminate = 0 ∧ s.caller = .join

instance (s : State) : Decidable (Lost s) := by unfold Lost; infer_instance

/-! ### Invariants of every run -/

/-- What holds in every state: the flag is `0` or `1`, and the caller is in `join`
exactly while a request for the current run is outstanding. -/
structure FlagInv (s : State) : Prop where
  flag_le : s.gTerminate ≤ 1
  join_iff : s.caller = .join ↔ s.requested = true ∧ s.thread = true
  absent : s.thread = false → s.native = .absent
  idle : s.caller = .idle → s.thread = true → s.requested = false

theorem FlagInv.initial : FlagInv terminateSystem.init where
  flag_le := by decide
  join_iff := by decide
  absent := by decide
  idle := by decide

theorem compareAndSwap_le_one {v old new : ℕ} (hv : v ≤ 1) (hnew : new ≤ 1) :
    compareAndSwap v old new ≤ 1 := by
  unfold compareAndSwap
  split <;> assumption

/-- A native thread that has not returned belongs to a non-null field. -/
theorem FlagInv.thread_of_native {s : State} (hI : FlagInv s) {pc : NativePc}
    (hpc : s.native = pc) (hne : pc ≠ .absent) : s.thread = true := by
  by_contra ht
  rw [Bool.not_eq_true] at ht
  exact hne (hpc.symm.trans (hI.absent ht))

/-- **Invariant preservation.** -/
theorem FlagInv.step {s s' : State} {l : Label} (hI : FlagInv s)
    (hstep : terminateSystem.next s l = some s') : FlagInv s' := by
  have hthread := @hI.thread_of_native
  obtain ⟨hle, hjoin, habs, hidle⟩ := hI
  change next s l = some s' at hstep
  cases l with
  | start =>
    obtain ⟨hc, hstep⟩ := Option.ite_none_right_eq_some.mp hstep
    split at hstep <;> cases hstep
    · exact ⟨hle, hjoin, habs, hidle⟩
    · exact ⟨hle, by simp [hc], by simp, by simp⟩
  | stop =>
    obtain ⟨hc, hstep⟩ := Option.ite_none_right_eq_some.mp hstep
    split at hstep <;> obtain rfl := Option.some.inj hstep
    · next ht _ => exact ⟨compareAndSwap_le_one hle le_rfl, by simp [ht], by simp [ht], by simp⟩
    · exact ⟨hle, hjoin, habs, hidle⟩
  | joined =>
    obtain ⟨hc, rfl⟩ := guard_eq_some.mp hstep
    exact ⟨hle, by simp, fun _ => hc.2, by simp⟩
  | reset =>
    obtain ⟨hn, rfl⟩ := guard_eq_some.mp hstep
    have ht := hthread hn (by decide)
    exact ⟨compareAndSwap_le_one hle (Nat.zero_le 1), hjoin, by simp [ht], hidle⟩
  | runInit =>
    obtain ⟨hn, rfl⟩ := guard_eq_some.mp hstep
    have ht := hthread hn (by decide)
    exact ⟨hle, hjoin, by simp [ht], hidle⟩
  | tick =>
    obtain ⟨hn, hstep⟩ := Option.ite_none_right_eq_some.mp hstep
    have ht := hthread hn (by decide)
    split at hstep <;> cases hstep
    · exact ⟨hle, hjoin, by simp [ht], hidle⟩
    · exact ⟨hle, hjoin, habs, hidle⟩
  | fail =>
    obtain ⟨hn, rfl⟩ := guard_eq_some.mp hstep
    have ht := hthread hn (by decide)
    exact ⟨hle, hjoin, by simp [ht], hidle⟩
  | exit =>
    obtain ⟨hn, rfl⟩ := guard_eq_some.mp hstep
    exact ⟨hle, hjoin, fun _ => rfl, hidle⟩

theorem flagInv_of_reachable {s : State} (h : terminateSystem.Reachable s) : FlagInv s :=
  h.invariant FlagInv.initial fun _ _ _ hI hn => hI.step hn

/-! ### Losing and keeping a request -/

/-- The one step that can lose a request: the reset of `g_terminate` taken while a
terminate request for the same run is outstanding. -/
def LosesRequest (s : State) (l : Label) : Prop := l = .reset ∧ s.requested = true

/-- A reset after the request wipes it: the flag was `1` or `0` and is `0` now, and the
caller is past its only store. -/
theorem lost_of_reset {s s' : State} (hI : FlagInv s) (hr : s.requested = true)
    (hstep : terminateSystem.next s .reset = some s') : Lost s' := by
  change next s .reset = some s' at hstep
  obtain ⟨hn, rfl⟩ := guard_eq_some.mp hstep
  have ht := hI.thread_of_native hn (by decide)
  refine ⟨hr, rfl, ?_, hI.join_iff.mpr ⟨hr, ht⟩⟩
  have hle := hI.flag_le
  -- a `1` is swapped to `0`; anything else is a `0` already
  simp only [compareAndSwap]
  split <;> omega

/-- The request is still visible: as long as the requested run is active, the flag it
polls is `1`. -/
structure KeptInv (s : State) : Prop where
  inv : FlagInv s
  kept : s.requested = true → s.native.active = true → s.gTerminate = 1

/-- **A request is kept by every step but the reset.** -/
theorem KeptInv.step {s s' : State} {l : Label} (hI : KeptInv s) (hC : ¬ LosesRequest s l)
    (hstep : terminateSystem.next s l = some s') : KeptInv s' := by
  refine ⟨hI.inv.step hstep, ?_⟩
  have hle := hI.inv.flag_le
  have hkept := hI.kept
  change next s l = some s' at hstep
  cases l with
  | start =>
    obtain ⟨-, hstep⟩ := Option.ite_none_right_eq_some.mp hstep
    split at hstep <;> cases hstep
    · exact hkept
    · exact fun h => nomatch h
  | stop =>
    obtain ⟨-, hstep⟩ := Option.ite_none_right_eq_some.mp hstep
    split at hstep <;> cases hstep
    · -- the flag was `0` and is swapped, or is the `1` an earlier run left behind
      intro _ _
      simp only [compareAndSwap]
      split <;> omega
    · exact hkept
  | reset =>
    -- an unrequested run: the flag it resets is of an earlier one
    obtain ⟨-, rfl⟩ := guard_eq_some.mp hstep
    exact fun hr => absurd ⟨rfl, hr⟩ hC
  | tick =>
    obtain ⟨hn, hstep⟩ := Option.ite_none_right_eq_some.mp hstep
    split at hstep <;> cases hstep
    · exact fun _ h => absurd h (by simp [NativePc.active])
    · exact hkept
  | runInit =>
    obtain ⟨hn, rfl⟩ := guard_eq_some.mp hstep
    exact fun hr _ => hkept hr (by rw [hn]; rfl)
  | joined =>
    obtain ⟨-, rfl⟩ := guard_eq_some.mp hstep
    exact hkept
  | fail | exit =>
    obtain ⟨-, rfl⟩ := guard_eq_some.mp hstep
    exact fun _ h => absurd h (by simp [NativePc.active])

theorem KeptInv.not_lost {s : State} (hI : KeptInv s) : ¬ Lost s := by
  rintro ⟨hr, hactive, hflag, -⟩
  have := hI.kept hr hactive
  omega

/-- **When a terminate request survives.** Along any run of start/stop pairs, no state
loses a request if and only if no reset of `g_terminate` is executed while a terminate
request for the same run is outstanding. -/
theorem not_lost_iff_no_reset_after_request (ls : List Label) (s : State)
    (h : terminateSystem.run terminateSystem.init ls = some s) :
    (∀ pre t, pre <+: ls → terminateSystem.run terminateSystem.init pre = some t → ¬ Lost t) ↔
      ∀ pre l t, pre ++ [l] <+: ls → terminateSystem.run terminateSystem.init pre = some t →
        ¬ LosesRequest t l := by
  constructor
  · rintro hsafe pre l t hpre ht ⟨rfl, hr⟩
    -- the run goes on past the reset, to a state that has lost the request
    obtain ⟨rest, rfl⟩ := hpre
    rw [System.run_append, System.run_concat, ht] at h
    obtain ⟨t', ht', -⟩ := Option.bind_eq_some_iff.mp h
    refine hsafe (pre ++ [.reset]) t' (List.prefix_append _ _) ?_
      (lost_of_reset (flagInv_of_reachable ⟨pre, ht⟩) hr ht')
    rw [System.run_concat, ht]
    exact ht'
  · intro hC pre t hpre ht
    have hexec : terminateSystem.ReachableUnder (fun s l => ¬ LosesRequest s l) t :=
      ⟨pre, System.exec_of_run ht fun pre' l t' hpre' ht' =>
        hC pre' l t' (hpre'.trans hpre) ht'⟩
    have hkept : KeptInv t := hexec.invariant
      ⟨FlagInv.initial, fun h => absurd h (by decide)⟩ fun _ _ _ hI hC hn => hI.step hC hn
    exact hkept.not_lost

/-- A start whose stop comes after the reset: the request survives and the run ends. -/
theorem not_lost_late_stop :
    terminateSystem.run terminateSystem.init
        [.start, .reset, .runInit true, .stop, .tick, .exit, .joined]
        = some ⟨.idle, false, .absent, 1, true⟩ ∧
      ∀ pre t, pre <+: [Label.start, .reset, .runInit true, .stop, .tick, .exit, .joined] →
        terminateSystem.run terminateSystem.init pre = some t → ¬ Lost t :=
  ⟨by decide, (not_lost_iff_no_reset_after_request _
    ⟨.idle, false, .absent, 1, true⟩ (by decide)).mpr (by
    rintro pre l t hpre ht ⟨rfl, hr⟩
    obtain ⟨rest, hrest⟩ := hpre
    rcases pre with _ | ⟨a, _ | ⟨b, pre⟩⟩
    · simp at hrest
    · obtain rfl : a = .start := by simpa using congrArg List.head? hrest
      obtain rfl := Option.some.inj ht
      exact absurd hr (by decide)
    · simp only [List.cons_append, List.append_assoc, List.cons.injEq] at hrest
      have hmem : Label.reset ∈ [Label.runInit true, .stop, .tick, .exit, .joined] := by
        rw [← hrest.2.2]; simp
      exact absurd hmem (by decide))⟩

/-- **A stop that overtakes the reset.** The caller starts the thread and stops it before
it has reached its reset; the reset then clears the request for good. -/
theorem lost_counterexample :
    ∃ s, terminateSystem.Reachable s ∧ Lost s :=
  ⟨⟨.join, true, .init, 0, true⟩, ⟨[.start, .stop, .reset], by decide⟩, by decide⟩

end Tun2Socks.Jni
