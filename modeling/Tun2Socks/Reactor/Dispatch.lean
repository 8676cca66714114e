import Tun2Socks.Reactor.Timers

/-!
# When the handlers of timers are called

What holds of the timers whenever the reactor is between two calls:

* `TimersInv` — the state invariant. A timer is in the tree exactly when it is running and in the
  expired list exactly when it is expired. The tree is in order, and so is the expired list. An
  expired timer is due, and it was moved by the latest wait. The last thing that happened to a
  timer that is not inactive is that it was set.
* `Sound` — what the history says. Every dispatch is the first thing that happens to its timer
  after it was set, at its time or later. Dispatches of timers that one wait has moved are in the
  order of their times, and every wait was entered with an empty expired list.

Each operation keeps the invariant: `TimersInv.unlinked` and `TimersInv.started` are the two halves
of setting a timer, and `Moving.step` is the step of the loops that move timers. The times in the
expired list are in order because the tree is: what `expireTimer` appends was before everything
that stays in the tree.

`timers_sound` puts this together for every run: any operations from any handlers, any clock
readings and any outcomes of `epoll_wait`.
-/

namespace Tun2Socks.Reactor

open Framework Std Function TimerState

/-! ### What a history says -/

/-- The event concerns the timer `bt`. -/
def Event.about (bt : ℕ) : Event → Bool
  | .set b _ => b = bt
  | .remove b => b = bt
  | .dispatch d => d.timer = bt
  | .wait _ => false

/-- The last event that concerns the timer `bt`. -/
def lastAbout (bt : ℕ) (h : List Event) : Option Event := (h.filter (Event.about bt)).getLast?

def Event.dispatch? : Event → Option Dispatch
  | .dispatch d => some d
  | _ => none

/-- The dispatches of a history. -/
def dispatches (h : List Event) : List Dispatch := h.filterMap Event.dispatch?

/-- What is true of the history of a reactor. -/
structure Sound (h : List Event) : Prop where
  /-- When a timer is dispatched, the last thing that happened to it is that it was set, for a
  time that has come: it was not dispatched before since then, and it was not removed or set
  again. -/
  justified : ∀ pre d, pre ++ [.dispatch d] <+: h →
    lastAbout d.timer pre = some (.set d.timer d.absTime) ∧ d.absTime ≤ d.clock
  /-- Timers moved by the same wait are dispatched in the order of their times. -/
  ordered : (dispatches h).Pairwise fun d d' => d.movedIn = d'.movedIn → d.absTime ≤ d'.absTime
  waits : ∀ l, .wait l ∈ h → l = []

theorem lastAbout_concat (bt : ℕ) (h : List Event) (e : Event) :
    lastAbout bt (h ++ [e]) = if e.about bt = true then some e else lastAbout bt h := by
  unfold lastAbout
  rw [List.filter_append, List.filter_cons, List.filter_nil]
  split_ifs with habout
  · exact List.getLast?_concat
  · rw [List.append_nil]

theorem dispatches_concat (h : List Event) (e : Event) :
    dispatches (h ++ [e]) = dispatches h ++ e.dispatch?.toList := by
  unfold dispatches
  rw [List.filterMap_append, List.filterMap_cons, List.filterMap_nil]
  cases e.dispatch? <;> rfl

/-- An event that is no dispatch, and no wait with timers left over. -/
theorem Sound.concat {h : List Event} (hsound : Sound h) {e : Event}
    (hdispatch : e.dispatch? = none) (hwait : ∀ l, e = .wait l → l = []) : Sound (h ++ [e]) where
  justified pre d hpre := by
    obtain heq | hpre := List.prefix_concat_iff.mp hpre
    · obtain ⟨-, hlast⟩ := List.append_inj' heq rfl
      obtain rfl := List.singleton_inj.mp hlast
      cases hdispatch
    · exact hsound.justified pre d hpre
  ordered := by
    rw [dispatches_concat, hdispatch, Option.toList_none, List.append_nil]
    exact hsound.ordered
  waits l hmem := by
    obtain hmem | hmem := List.mem_append.mp hmem
    · exact hsound.waits l hmem
    · exact hwait l (List.mem_singleton.mp hmem).symm

theorem Sound.dispatch {h : List Event} (hsound : Sound h) {d : Dispatch}
    (hlast : lastAbout d.timer h = some (.set d.timer d.absTime)) (hdue : d.absTime ≤ d.clock)
    (hordered : ∀ d' ∈ dispatches h, d'.movedIn = d.movedIn → d'.absTime ≤ d.absTime) :
    Sound (h ++ [.dispatch d]) where
  justified pre d' hpre := by
    obtain heq | hpre := List.prefix_concat_iff.mp hpre
    · obtain ⟨rfl, hlast'⟩ := List.append_inj' heq rfl
      obtain rfl := Event.dispatch.inj (List.singleton_inj.mp hlast')
      exact ⟨hlast, hdue⟩
    · exact hsound.justified pre d' hpre
  ordered := by
    rw [dispatches_concat]
    refine List.pairwise_append.mpr ⟨hsound.ordered, List.pairwise_singleton _ _, ?_⟩
    intro d' hd' e he
    obtain rfl := List.mem_singleton.mp he
    exact hordered d' hd'
  waits l hmem := by
    obtain hmem | hmem := List.mem_append.mp hmem
    · exact hsound.waits l hmem
    · cases List.mem_singleton.mp hmem

/-! ### The invariant -/

/-- What holds of the timers between two calls. -/
structure TimersInv (s : BReactor) : Prop where
  tree : ∀ bt, bt ∈ s.timersTree ↔ (s.timers bt).state = .running
  ordered : InOrder.Ordered compareTimers s.key s.timersTree
  expired : ∀ bt, bt ∈ s.timersExpiredList ↔ (s.timers bt).state = .expired
  nodup : s.timersExpiredList.Nodup
  sorted : s.timersExpiredList.Pairwise fun a b => (s.timers a).absTime ≤ (s.timers b).absTime
  isTime : ∀ bt, IsTime (s.timers bt).absTime
  clock_nonneg : 0 ≤ s.clock
  clock_le : s.clock ≤ int64Max
  due : ∀ bt ∈ s.timersExpiredList, (s.timers bt).absTime ≤ s.clock
  moved : ∀ bt ∈ s.timersExpiredList, (s.timers bt).movedIn = s.waits
  pending : ∀ bt, (s.timers bt).state ≠ .inactive →
    lastAbout bt s.history = some (.set bt (s.timers bt).absTime)
  sound : Sound s.history
  /-- What the latest wait has moved and is already dispatched was before what is still in the
  expired list. -/
  before : ∀ d ∈ dispatches s.history, d.movedIn ≤ s.waits ∧
    (d.movedIn = s.waits → ∀ bt ∈ s.timersExpiredList, d.absTime ≤ (s.timers bt).absTime)

theorem TimersInv.initial : TimersInv initial where
  tree bt := iff_of_false List.not_mem_nil noConfusion
  ordered := List.Pairwise.nil
  expired bt := iff_of_false List.not_mem_nil noConfusion
  nodup := List.nodup_nil
  sorted := List.Pairwise.nil
  isTime bt := show IsTime 0 by decide
  clock_nonneg := le_rfl
  clock_le := show (0 : ℤ) ≤ int64Max by decide
  due bt h := nomatch h
  moved bt h := nomatch h
  pending bt h := absurd rfl h
  sound :=
    { justified := fun pre d h => by
        have hnil := List.prefix_nil.mp h
        exact absurd hnil (List.append_ne_nil_of_right_ne_nil pre (List.cons_ne_nil _ _))
      ordered := List.Pairwise.nil
      waits := fun l h => nomatch h }
  before d h := nomatch h

variable {s : BReactor} {bt : ℕ}

/-- Pending jobs, results and the quit flag are not looked at. -/
theorem TimersInv.other (h : TimersInv s) (exiting : Bool) (pendingJobs epollResults : ℕ) :
    TimersInv { s with exiting, pendingJobs, epollResults } :=
  { h with ordered := h.ordered }

/-! ### Time -/

/-- The reactor at a later time. -/
def BReactor.later (s : BReactor) (d : ℤ) : BReactor :=
  { s with clock := min (s.clock + d) int64Max }

variable {d : ℤ}

theorem TimersInv.clock_le_later (h : TimersInv s) (hd : 0 ≤ d) :
    s.clock ≤ (s.later d).clock :=
  le_min (by omega) h.clock_le

theorem TimersInv.later (h : TimersInv s) (hd : 0 ≤ d) : TimersInv (s.later d) :=
  have hle := h.clock_le_later hd
  { h with
    ordered := h.ordered
    clock_nonneg := h.clock_nonneg.trans hle
    clock_le := min_le_right _ _
    due := fun bt hbt => (h.due bt hbt).trans hle }

variable {Q : Unit → BReactor → Prop}

theorem wp_elapse : wp (elapse d) Q s ↔ Q () (s.later d) :=
  wp_modify _

theorem wp_btimeGettime {d : ℕ} {Q : ℤ → BReactor → Prop} :
    wp (btimeGettime d) Q s ↔ Q (s.later d).clock (s.later d) := by
  rw [btimeGettime, wp_bind, wp_elapse, wp_bind, wp_get, wp_pure]

/-! ### Removing and setting a timer -/

/-- The timer is in neither place. -/
def BReactor.unlinked (s : BReactor) (bt : ℕ) : BReactor := { s with
  timersTree := s.timersTree.erase bt
  timersExpiredList := s.timersExpiredList.erase bt
  timers := Function.update s.timers bt { s.timers bt with state := .inactive } }

theorem unlinked_self (s : BReactor) (bt : ℕ) :
    (s.unlinked bt).timers bt = { s.timers bt with state := .inactive } :=
  update_self bt _ s.timers

theorem unlinked_of_ne (s : BReactor) {bt b : ℕ} (h : b ≠ bt) :
    (s.unlinked bt).timers b = s.timers b :=
  update_of_ne h _ s.timers

theorem TimersInv.unlinked (h : TimersInv s) (bt : ℕ) : TimersInv (s.unlinked bt) := by
  have htime : ∀ b, ((s.unlinked bt).timers b).absTime = (s.timers b).absTime := by
    intro b
    obtain rfl | hne := eq_or_ne b bt
    · rw [unlinked_self]
    · rw [unlinked_of_ne s hne]
  have hmem : ∀ b, b ∈ (s.unlinked bt).timersExpiredList → b ≠ bt ∧ b ∈ s.timersExpiredList :=
    fun b hb => h.nodup.mem_erase_iff.mp hb
  exact {
    tree := fun b => by
      change b ∈ s.timersTree.erase bt ↔ _
      rw [h.ordered.nodup.mem_erase_iff, h.tree]
      obtain rfl | hne := eq_or_ne b bt
      · rw [unlinked_self]
        exact iff_of_false (fun h' => h'.1 rfl) noConfusion
      · rw [unlinked_of_ne s hne]
        exact and_iff_right hne
    ordered := by
      refine (h.ordered.erase bt).congr ?_
      intro b _
      exact Prod.ext (htime b) rfl
    expired := fun b => by
      change b ∈ s.timersExpiredList.erase bt ↔ _
      rw [h.nodup.mem_erase_iff, h.expired]
      obtain rfl | hne := eq_or_ne b bt
      · rw [unlinked_self]
        exact iff_of_false (fun h' => h'.1 rfl) noConfusion
      · rw [unlinked_of_ne s hne]
        exact and_iff_right hne
    nodup := h.nodup.erase bt
    sorted := by
      refine (h.sorted.sublist List.erase_sublist).imp ?_
      intro a b hle
      rw [htime, htime]
      exact hle
    isTime := fun b => by
      rw [htime]
      exact h.isTime b
    clock_nonneg := h.clock_nonneg
    clock_le := h.clock_le
    due := fun b hb => by
      rw [htime]
      exact h.due b (hmem b hb).2
    moved := fun b hb => by
      rw [unlinked_of_ne s (hmem b hb).1]
      exact h.moved b (hmem b hb).2
    pending := fun b hb => by
      obtain rfl | hne := eq_or_ne b bt
      · rw [unlinked_self] at hb
        exact absurd rfl hb
      · rw [unlinked_of_ne s hne] at hb ⊢
        exact h.pending b hb
    sound := h.sound
    before := fun d hd => by
      obtain ⟨hle, hbefore⟩ := h.before d hd
      refine ⟨hle, fun heq b hb => ?_⟩
      rw [htime]
      exact hbefore heq b (hmem b hb).2 }

/-- `BReactor_RemoveSmallTimer` finds the timer where its state says. -/
theorem wp_unlinkTimer (h : TimersInv s) (hQ : Q () (s.unlinked bt)) :
    wp (unlinkTimer bt) Q s := by
  have htree := h.tree bt
  have hexpired := h.expired bt
  unfold unlinkTimer
  rw [wp_bind, wp_get]
  cases hstate : (s.timers bt).state with rw [hstate] at htree hexpired
  | inactive =>
    -- in neither place, so there is nothing to take out
    have hsame : s.unlinked bt = s := by
      have htimer : ({ s.timers bt with state := .inactive } : BSmallTimer) = s.timers bt := by
        rw [← hstate]
      rw [BReactor.unlinked, htimer, update_eq_self,
        List.erase_of_not_mem (fun h' => noConfusion (htree.mp h')),
        List.erase_of_not_mem (fun h' => noConfusion (hexpired.mp h'))]
    rw [hsame] at hQ
    exact (wp_pure ()).mpr hQ
  | expired =>
    have hsame : s.timersTree.erase bt = s.timersTree :=
      List.erase_of_not_mem fun h' => noConfusion (htree.mp h')
    simp only [wp_bind, wp_ensure, wp_modify]
    refine ⟨hexpired.mpr rfl, ?_⟩
    rw [BReactor.unlinked, hsame] at hQ
    exact hQ
  | running =>
    have hsame : s.timersExpiredList.erase bt = s.timersExpiredList :=
      List.erase_of_not_mem fun h' => noConfusion (hexpired.mp h')
    simp only [wp_bind, wp_ensure, wp_modify]
    refine ⟨htree.mpr rfl, ?_⟩
    rw [BReactor.unlinked, hsame] at hQ
    exact hQ

/-- The timer is set: in the tree, with its new time. -/
def BReactor.started (s : BReactor) (bt : ℕ) (time : ℤ) (t : List ℕ) : BReactor := { s with
  timersTree := t
  timers := Function.update s.timers bt { s.timers bt with absTime := time, state := .running }
  history := s.history ++ [.set bt time] }

variable {t : List ℕ} {time : ℤ}

theorem TimersInv.started (h : TimersInv s) (hstate : (s.timers bt).state = .inactive)
    (htime : IsTime time)
    (hinsert : InOrder.insert compareTimers
      (s.update bt fun timer => { timer with absTime := time, state := .running }).key bt
      s.timersTree = some t) :
    TimersInv (s.started bt time t) := by
  have hself : (s.started bt time t).timers bt
      = { s.timers bt with absTime := time, state := .running } :=
    update_self bt _ s.timers
  have hother : ∀ b, b ≠ bt → (s.started bt time t).timers b = s.timers b :=
    fun b hne => update_of_ne hne _ s.timers
  have htree : bt ∉ s.timersTree := by
    rw [h.tree, hstate]
    exact noConfusion
  have hlist : bt ∉ s.timersExpiredList := by
    rw [h.expired, hstate]
    exact noConfusion
  have hexpired : ∀ b ∈ s.timersExpiredList, (s.started bt time t).timers b = s.timers b :=
    fun b hb => hother b fun heq => hlist (heq ▸ hb)
  exact {
    tree := fun b => by
      change b ∈ t ↔ _
      rw [InOrder.mem_insert hinsert]
      obtain rfl | hne := eq_or_ne b bt
      · rw [hself]
        exact iff_of_true (.inl rfl) rfl
      · rw [hother b hne, ← h.tree]
        exact or_iff_right hne
    ordered := by
      -- the key of `bt` is written before it is inserted, the others are as they were
      refine InOrder.ordered_insert hinsert (h.ordered.congr ?_)
      intro b hb
      have hne : b ≠ bt := fun heq => htree (heq ▸ hb)
      exact congrArg (fun timer : BSmallTimer => (timer.absTime, b)) (hother b hne)
    expired := fun b => by
      change b ∈ s.timersExpiredList ↔ _
      obtain rfl | hne := eq_or_ne b bt
      · rw [hself]
        exact iff_of_false hlist noConfusion
      · rw [hother b hne]
        exact h.expired b
    nodup := h.nodup
    sorted := by
      refine List.Pairwise.imp_of_mem ?_ h.sorted
      intro a b ha hb hle
      rw [hexpired a ha, hexpired b hb]
      exact hle
    isTime := fun b => by
      obtain rfl | hne := eq_or_ne b bt
      · rw [hself]
        exact htime
      · rw [hother b hne]
        exact h.isTime b
    clock_nonneg := h.clock_nonneg
    clock_le := h.clock_le
    due := fun b hb => by
      rw [hexpired b hb]
      exact h.due b hb
    moved := fun b hb => by
      rw [hexpired b hb]
      exact h.moved b hb
    pending := fun b hb => by
      change lastAbout b (s.history ++ [.set bt time]) = _
      rw [lastAbout_concat]
      obtain rfl | hne := eq_or_ne b bt
      · rw [if_pos (by simp [Event.about]), hself]
      · rw [if_neg (by simpa [Event.about] using hne.symm), hother b hne]
        rw [hother b hne] at hb
        exact h.pending b hb
    sound := h.sound.concat rfl fun l heq => Event.noConfusion heq
    before := fun d hd => by
      change d ∈ dispatches (s.history ++ [.set bt time]) at hd
      rw [dispatches_concat] at hd
      obtain ⟨hle, hbefore⟩ := h.before d ((List.append_nil _).subst hd)
      refine ⟨hle, fun heq b hb => ?_⟩
      rw [hexpired b hb]
      exact hbefore heq b hb }

/-- A timer that is inactive is removed. -/
theorem TimersInv.logRemove (h : TimersInv s) (hstate : (s.timers bt).state = .inactive) :
    TimersInv (s.log (.remove bt)) :=
  { h with
    ordered := h.ordered
    pending := fun b hb => by
      change lastAbout b (s.history ++ [.remove bt]) = _
      have hne : bt ≠ b := by
        rintro rfl
        exact hb hstate
      rw [lastAbout_concat, if_neg (by simpa [Event.about] using hne)]
      exact h.pending b hb
    sound := h.sound.concat rfl fun l heq => Event.noConfusion heq
    before := fun d hd => by
      change d ∈ dispatches (s.history ++ [.remove bt]) at hd
      rw [dispatches_concat] at hd
      exact h.before d ((List.append_nil _).subst hd) }

theorem unlinked_inactive (s : BReactor) (bt : ℕ) :
    ((s.unlinked bt).timers bt).state = .inactive := by
  rw [unlinked_self]

theorem wp_insertTimer
    (h : InOrder.insert compareTimers s.key bt s.timersTree = some t) :
    wp (insertTimer bt) Q s ↔ Q () { s with timersTree := t } := by
  unfold insertTimer
  rw [wp_bind, wp_get, h, wp_modify]

/-- A timer that is inactive can be inserted: no other timer has its address. -/
theorem TimersInv.exists_insert (h : TimersInv s) (hstate : (s.timers bt).state = .inactive)
    (key : ℕ → ℤ × ℕ) (hkey : ∀ b, (key b).2 = b) :
    ∃ t, InOrder.insert compareTimers key bt s.timersTree = some t := by
  refine InOrder.exists_insert ?_
  intro b hb hcmp
  have heq := congrArg Prod.snd (LawfulEqCmp.eq_of_compare hcmp)
  rw [hkey, hkey] at heq
  rw [← heq, h.tree, hstate] at hb
  cases hb

/-- The second half of `BReactor_SetSmallTimer`. -/
theorem start_spec (h : TimersInv s) (hstate : (s.timers bt).state = .inactive)
    (htime : IsTime time) :
    wp (do
      modify fun s => s.update bt fun timer => { timer with absTime := time, state := .running }
      insertTimer bt
      modify fun s => s.log (.set bt time)) (fun _ => TimersInv) s := by
  obtain ⟨t, hinsert⟩ := h.exists_insert hstate
    (s.update bt fun timer => { timer with absTime := time, state := .running }).key fun _ => rfl
  rw [wp_bind, wp_modify, wp_bind, wp_insertTimer hinsert, wp_modify]
  exact h.started hstate htime hinsert

theorem isTime_btimeAdd (t1 t2 : ℤ) : IsTime (btimeAdd t1 t2) := by
  unfold btimeAdd IsTime
  split_ifs
  · decide
  · decide
  · omega

/-- **Setting a timer** keeps the invariant, in both modes. -/
theorem bReactorSetSmallTimer_spec (h : TimersInv s) (mode : Mode)
    (htime : IsTime time) : wp (bReactorSetSmallTimer bt mode time) (fun _ => TimersInv) s := by
  unfold bReactorSetSmallTimer
  rw [wp_bind]
  refine wp_unlinkTimer h ?_
  have hunlinked := h.unlinked bt
  have hinactive := unlinked_inactive s bt
  rw [wp_bind]
  cases mode with
  | absolute =>
    rw [absoluteTime, wp_pure]
    exact start_spec hunlinked hinactive htime
  | relative d =>
    rw [absoluteTime, wp_bind, wp_btimeGettime, wp_pure]
    exact start_spec (hunlinked.later (Int.natCast_nonneg d)) hinactive (isTime_btimeAdd _ time)

/-- **Removing a timer** keeps the invariant. -/
theorem bReactorRemoveSmallTimer_spec (h : TimersInv s) :
    wp (bReactorRemoveSmallTimer bt) (fun _ => TimersInv) s := by
  rw [bReactorRemoveSmallTimer, wp_bind]
  refine wp_unlinkTimer h ?_
  rw [wp_modify]
  exact (h.unlinked bt).logRemove (unlinked_inactive s bt)

theorem runOp_spec (h : TimersInv s) {op : Op} (hop : op.Valid) :
    wp (runOp op) (fun _ => TimersInv) s := by
  cases op with
  | set _ mode => exact bReactorSetSmallTimer_spec h mode hop
  | remove => exact bReactorRemoveSmallTimer_spec h
  | jobs pendingJobs =>
    rw [runOp, wp_modify]
    exact h.other s.exiting pendingJobs s.epollResults
  | quit =>
    rw [runOp, wp_modify]
    exact h.other true s.pendingJobs s.epollResults

/-- **A handler**, whatever it does, keeps the invariant. -/
theorem runOps_spec {ops : List Op} (h : TimersInv s) (hops : ∀ op ∈ ops, op.Valid) :
    wp (runOps ops) (fun _ => TimersInv) s := by
  induction ops generalizing s with
  | nil => exact (wp_pure ()).mpr h
  | cons _ _ ih =>
    obtain ⟨hop, hops⟩ := List.forall_mem_cons.mp hops
    rw [runOps, wp_bind]
    refine wp_mono (runOp_spec h hop) ?_
    intro _ s' h'
    exact ih h' hops

/-! ### Moving timers to the expired list -/

/-- The timer is moved from the tree to the end of the expired list. -/
def BReactor.moved (s : BReactor) (bt : ℕ) : BReactor := { s with
  timersTree := s.timersTree.erase bt
  timersExpiredList := s.timersExpiredList ++ [bt]
  timers := Function.update s.timers bt { s.timers bt with state := .expired, movedIn := s.waits } }

theorem moved_self (s : BReactor) (bt : ℕ) :
    (s.moved bt).timers bt = { s.timers bt with state := .expired, movedIn := s.waits } :=
  update_self bt _ s.timers

theorem moved_of_ne (s : BReactor) {bt b : ℕ} (h : b ≠ bt) : (s.moved bt).timers b = s.timers b :=
  update_of_ne h _ s.timers

theorem moved_absTime (s : BReactor) (bt b : ℕ) :
    ((s.moved bt).timers b).absTime = (s.timers b).absTime := by
  obtain rfl | hne := eq_or_ne b bt
  · rw [moved_self]
  · rw [moved_of_ne s hne]

theorem wp_expireTimer :
    wp (expireTimer bt) Q s ↔ Q () (s.moved bt) := by
  rw [expireTimer, wp_bind, wp_modify, wp_modify]
  rfl

/-- In the middle of a wait: what is in the expired list is before what is in the tree, and
nothing that this wait has moved is dispatched yet. -/
structure Moving (s : BReactor) : Prop extends TimersInv s where
  split : ∀ a ∈ s.timersExpiredList, ∀ b ∈ s.timersTree,
    (s.timers a).absTime ≤ (s.timers b).absTime
  fresh : ∀ d ∈ dispatches s.history, d.movedIn < s.waits

/-- The tree is in the order of the times. -/
theorem absTime_le_of_compare {a b : ℕ} (h : compareTimers (s.key a) (s.key b) = .lt) :
    (s.timers a).absTime ≤ (s.timers b).absTime := by
  by_contra hlt
  have hgt : compare (s.timers a).absTime (s.timers b).absTime = .gt :=
    compare_gt_iff_gt.mpr (Int.not_le.mp hlt)
  have hkey : compareTimers (s.key a) (s.key b) = .gt := by
    change (compare (s.timers a).absTime (s.timers b).absTime).then _ = .gt
    rw [hgt]
    rfl
  rw [h] at hkey
  cases hkey

theorem TimersInv.first_le (h : TimersInv s) (htree : s.timersTree = bt :: t) :
    ∀ b ∈ t, (s.timers bt).absTime ≤ (s.timers b).absTime := by
  intro b hb
  have hordered := h.ordered
  rw [htree] at hordered
  exact absTime_le_of_compare ((List.pairwise_cons.mp hordered).1 b hb)

/-- **The first timer of the tree expires** when its time has come. -/
theorem Moving.step (h : Moving s) (htree : s.timersTree = bt :: t)
    (hdue : (s.timers bt).absTime ≤ s.clock) :
    Moving (s.moved bt) ∧ (s.moved bt).timersTree = t := by
  have herase : (s.moved bt).timersTree = t := by
    change s.timersTree.erase bt = t
    rw [htree, List.erase_cons_head]
  have hfirst : bt ∈ s.timersTree := by
    rw [htree]
    exact List.mem_cons_self
  have hrunning := (h.tree bt).mp hfirst
  have hlist : bt ∉ s.timersExpiredList := by
    rw [h.expired, hrunning]
    exact noConfusion
  have hmem : ∀ b, b ∈ (s.moved bt).timersExpiredList ↔ b ∈ s.timersExpiredList ∨ b = bt :=
    fun b => by
      change b ∈ s.timersExpiredList ++ [bt] ↔ _
      rw [List.mem_append, List.mem_singleton]
  refine ⟨?_, herase⟩
  exact {
    tree := fun b => by
      change b ∈ s.timersTree.erase bt ↔ _
      rw [h.ordered.nodup.mem_erase_iff, h.tree]
      obtain rfl | hne := eq_or_ne b bt
      · rw [moved_self]
        exact iff_of_false (fun h' => h'.1 rfl) noConfusion
      · rw [moved_of_ne s hne]
        exact and_iff_right hne
    ordered := by
      refine (h.ordered.erase bt).congr ?_
      intro b _
      exact Prod.ext (moved_absTime s bt b) rfl
    expired := fun b => by
      rw [hmem, h.expired]
      obtain rfl | hne := eq_or_ne b bt
      · rw [moved_self]
        exact iff_of_true (.inr rfl) rfl
      · rw [moved_of_ne s hne]
        exact or_iff_left hne
    nodup := List.nodup_append.mpr ⟨h.nodup, List.nodup_singleton bt, by
      intro a ha b hb heq
      rw [List.mem_singleton.mp hb] at heq
      exact hlist (heq ▸ ha)⟩
    sorted := by
      -- what is in the list already is before everything in the tree
      refine List.pairwise_append.mpr ⟨?_, List.pairwise_singleton _ _, ?_⟩
      · refine h.sorted.imp ?_
        intro a b hle
        rw [moved_absTime, moved_absTime]
        exact hle
      · intro a ha b hb
        rw [List.mem_singleton.mp hb, moved_absTime, moved_absTime]
        exact h.split a ha bt hfirst
    isTime := fun b => by
      rw [moved_absTime]
      exact h.isTime b
    clock_nonneg := h.clock_nonneg
    clock_le := h.clock_le
    due := fun b hb => by
      rw [moved_absTime]
      obtain hb | rfl := (hmem b).mp hb
      · exact h.due b hb
      · exact hdue
    moved := fun b hb => by
      obtain rfl | hne := eq_or_ne b bt
      · rw [moved_self]
        rfl
      · rw [moved_of_ne s hne]
        exact h.moved b (((hmem b).mp hb).resolve_right hne)
    pending := fun b hb => by
      rw [moved_absTime]
      refine h.pending b ?_
      obtain rfl | hne := eq_or_ne b bt
      · rw [hrunning]
        exact noConfusion
      · rw [moved_of_ne s hne] at hb
        exact hb
    sound := h.sound
    before := fun d hd => ⟨(h.fresh d hd).le, fun heq => absurd heq (h.fresh d hd).ne⟩
    split := fun a ha b hb => by
      rw [herase] at hb
      rw [moved_absTime, moved_absTime]
      obtain ha | rfl := (hmem a).mp ha
      · exact h.split a ha b (htree ▸ List.mem_cons_of_mem bt hb)
      · exact h.first_le htree b hb
    fresh := h.fresh }

/-- **The loop of `move_expired_timers`.** It moves timers that are due, and if it has moved none
the first one is in the future. -/
theorem moveTimers_spec {asserted : Bool} {now : ℤ} (h : Moving s)
    (htree : s.timersTree = t) (hnow : now ≤ s.clock)
    (hasserted : asserted = true → ∀ b ∈ t, now ≤ (s.timers b).absTime) :
    wp (moveTimers asserted now t) (fun moved s' => Moving s' ∧
      (moved = false → s' = s ∧ ∀ b ∈ t.head?, now < (s.timers b).absTime)) s := by
  induction t generalizing s with
  | nil => exact (wp_pure false).mpr ⟨h, fun _ => ⟨rfl, fun b hb => nomatch hb⟩⟩
  | cons bt _ ih =>
    have hrunning : (s.timers bt).state = .running := by
      rw [← h.tree, htree]
      exact List.mem_cons_self
    rw [moveTimers, wp_bind, wp_get]
    simp only [assert, wp_bind, wp_ensure, wp_ite]
    refine ⟨hrunning, fun ha => hasserted ha bt List.mem_cons_self, ?_⟩
    split_ifs with hfuture
    · rw [wp_pure]
      refine ⟨h, fun _ => ⟨rfl, fun b hb => ?_⟩⟩
      cases hb
      exact hfuture
    · obtain ⟨hmoving, hrest⟩ := h.step htree ((Int.not_lt.mp hfuture).trans hnow)
      rw [wp_expireTimer]
      refine wp_mono (ih hmoving hrest hnow ?_) ?_
      · intro ha b hb
        rw [moved_absTime]
        exact hasserted ha b (List.mem_cons_of_mem bt hb)
      · rintro moved s' ⟨h', -⟩
        exact (wp_pure true).mpr ⟨h', fun heq => Bool.noConfusion heq⟩

/-- **`move_first_timers`**, once the time of the first timer has come. -/
theorem moveFirstTimers_spec (h : Moving s) (htree : s.timersTree = bt :: t)
    (hdue : (s.timers bt).absTime ≤ s.clock) :
    wp moveFirstTimers (fun _ => TimersInv) s := by
  have hrunning : (s.timers bt).state = .running := by
    rw [← h.tree, htree]
    exact List.mem_cons_self
  obtain ⟨hmoving, hrest⟩ := h.step htree hdue
  unfold moveFirstTimers
  rw [wp_bind, wp_get, htree]
  simp only [assert, wp_bind, wp_get, wp_ensure, wp_expireTimer]
  refine ⟨hrunning, wp_mono (moveTimers_spec hmoving hrest hdue ?_) ?_⟩
  · intro _ b hb
    rw [moved_absTime]
    exact h.first_le htree b hb
  · rintro moved s' ⟨h', -⟩
    exact (wp_pure ()).mpr h'.toTimersInv

/-! ### Waiting -/

/-- In the loop of `wait_for_events`: the timeout is the time of the first timer, which was in the
future when the clock was read. -/
structure Awaits (timeoutAbs : Option ℤ) (now : ℤ) (s : BReactor) : Prop extends Moving s where
  first : ∀ t ∈ timeoutAbs, ∃ bt rest, s.timersTree = bt :: rest ∧ (s.timers bt).absTime = t
  now_nonneg : 0 ≤ now
  now_le : now ≤ s.clock
  future : ∀ t ∈ timeoutAbs, now < t

section Waiting

variable {timeoutAbs : Option ℤ} {now : ℤ}

theorem Moving.later (h : Moving s) {d : ℤ} (hd : 0 ≤ d) : Moving (s.later d) :=
  { h.toTimersInv.later hd with
    split := h.split
    fresh := h.fresh }

section

variable (h : Awaits timeoutAbs now s)

include h

theorem Awaits.later {d : ℤ} (hd : 0 ≤ d) :
    Awaits timeoutAbs now (s.later d) :=
  { h.toMoving.later hd with
    first := h.first
    now_nonneg := h.now_nonneg
    now_le := h.now_le.trans (h.clock_le_later hd)
    future := h.future }

/-- The timeout is over. -/
theorem Awaits.timeout {t : ℤ} (ht : t ∈ timeoutAbs)
    (hdue : t ≤ s.clock) : wp moveFirstTimers (fun _ => TimersInv) s := by
  obtain ⟨bt, rest, htree, rfl⟩ := h.first t ht
  exact moveFirstTimers_spec h.toMoving htree hdue

theorem Awaits.time_le {t : ℤ} (ht : t ∈ timeoutAbs) :
    t ≤ int64Max := by
  obtain ⟨bt, rest, -, rfl⟩ := h.first t ht
  exact (h.isTime bt).2

theorem tryAgain_spec {d' : ℕ} {k : ℤ → M Unit}
    (hk : ∀ s' now', Awaits timeoutAbs now' s' →
      wpUnless .blocked (k now') (fun _ => TimersInv) s') :
    wpUnless .blocked (tryAgain timeoutAbs now d' k) (fun _ => TimersInv) s := by
  cases timeoutAbs with
  | none => exact hk s now h
  | some =>
    have hlater := h.later (Int.natCast_nonneg d')
    refine wpUnless_bind (wp_btimeGettime.mpr ?_)
    split_ifs with hover
    · exact .inr (hlater.timeout rfl hover)
    · refine hk _ _ { hlater with
        now_nonneg := hlater.clock_nonneg
        now_le := le_rfl
        future := ?_ }
      intro t' ht'
      cases ht'
      exact Int.not_le.mp hover

/-- **The loop of `wait_for_events`** keeps the invariant, however often `epoll_wait` is
interrupted and its timeout truncated. -/
theorem waitLoop_spec {ws : List Wait} :
    wpUnless .blocked (waitLoop timeoutAbs ws now) (fun _ => TimersInv) s := by
  induction ws generalizing s now with
  | nil => exact wpUnless_throw
  | cons w _ ih =>
    have hisTime : ∀ rel ∈ timeoutAbs.map (· - now), IsTime rel := by
      intro rel hrel
      obtain ⟨t, ht, rfl⟩ := Option.mem_map.mp hrel
      have hle := h.time_le ht
      have hlt := h.future t ht
      have hpos := h.now_nonneg
      have hmin : int64Min ≤ 0 := by decide
      exact ⟨by omega, by omega⟩
    rw [waitLoop]
    refine wpUnless_bind ((wp_ensure _ _).mpr ⟨hisTime, ?_⟩)
    cases w with
    | events n d =>
      refine .inr ?_
      rw [wp_bind, wp_elapse, wp_modify]
      have hlater := h.toTimersInv.later (Int.natCast_nonneg d)
      exact hlater.other s.exiting s.pendingJobs (n + 1)
    | interrupted d =>
      refine wpUnless_bind (wp_elapse.mpr ?_)
      exact tryAgain_spec (h.later (Int.natCast_nonneg d)) fun _ _ h' => ih h'
    | timedOut d =>
      cases timeoutAbs with
      | none => exact wpUnless_throw
      | some t =>
        have hlt := h.future t rfl
        have htrunc : 0 ≤ min (t - now) intMax + d := by
          have hmax : 0 ≤ intMax := by decide
          have := le_min (Int.sub_nonneg_of_le hlt.le) hmax
          omega
        refine wpUnless_bind (wp_elapse.mpr ?_)
        have hlater := h.later htrunc
        split_ifs with hwhole
        · -- the timeout was not truncated, so its time has come
          refine .inr (hlater.timeout rfl ?_)
          have hrel : t - now = min (t - now) intMax := Option.some.inj hwhole
          have hnow := h.now_le
          refine le_min ?_ (h.time_le rfl)
          rw [← hrel]
          omega
        · exact tryAgain_spec hlater fun _ _ h' => ih h'

end

/-- **`wait_for_events`**, entered with nothing left to dispatch. -/
theorem waitForEvents_spec {d : ℕ} {ws : List Wait} (h : TimersInv s) (hjobs : s.pendingJobs = 0)
    (hlist : s.timersExpiredList = []) (hresults : s.epollResults = 0) :
    wpUnless .blocked (waitForEvents d ws) (fun _ => TimersInv) s := by
  -- with the number of this wait, nothing is dispatched yet
  have henter : Moving { s.log (.wait s.timersExpiredList) with waits := s.waits + 1 } := by
    have hnone : ∀ bt, bt ∉ s.timersExpiredList := by
      rw [hlist]
      exact fun bt => List.not_mem_nil
    have hfresh : ∀ d ∈ dispatches (s.history ++ [.wait s.timersExpiredList]),
        d.movedIn < s.waits + 1 := by
      intro d hd
      rw [dispatches_concat] at hd
      exact Nat.lt_succ_of_le (h.before d ((List.append_nil _).subst hd)).1
    exact { h with
      ordered := h.ordered
      moved := fun bt hbt => absurd hbt (hnone bt)
      pending := fun bt hbt => by
        change lastAbout bt (s.history ++ [.wait s.timersExpiredList]) = _
        rw [lastAbout_concat, if_neg (by simp [Event.about])]
        exact h.pending bt hbt
      sound := h.sound.concat rfl fun l heq => (Event.wait.inj heq).symm.trans hlist
      before := fun d hd => ⟨(hfresh d hd).le, fun _ bt hbt => absurd hbt (hnone bt)⟩
      split := fun a ha => absurd ha (hnone a)
      fresh := hfresh }
  unfold waitForEvents
  refine wpUnless_bind ((wp_modify _).mpr (wpUnless_bind (wp_get.mpr ?_)))
  refine wpUnless_bind ((wp_ensure _ _).mpr ⟨hjobs, wpUnless_bind ((wp_ensure _ _).mpr
    ⟨hlist, wpUnless_bind ((wp_ensure _ _).mpr ⟨hresults, ?_⟩)⟩)⟩)
  dsimp only
  split
  case h_1 =>
    refine waitLoop_spec { henter with
      first := fun t ht => absurd ht (Option.not_mem_none t)
      now_nonneg := le_rfl
      now_le := h.clock_nonneg
      future := fun t ht => nomatch ht }
  case h_2 bt t hlog =>
    have htree : s.timersTree = bt :: t := hlog
    have hrunning : (s.timers bt).state = .running := by
      rw [← h.tree, htree]
      exact List.mem_cons_self
    refine wpUnless_bind ((wp_ensure _ _).mpr ⟨hrunning, wpUnless_bind (wp_btimeGettime.mpr ?_)⟩)
    have hlater := henter.later (Int.natCast_nonneg d)
    refine wpUnless_bind ?_
    unfold moveExpiredTimers
    rw [wp_bind, wp_get]
    refine wp_mono (moveTimers_spec hlater rfl le_rfl fun heq => Bool.noConfusion heq) ?_
    rintro moved s' ⟨h', hsame⟩
    split_ifs with hmoved
    · -- no timer was due: wait for the first
      obtain ⟨rfl, hfuture⟩ := hsame hmoved
      refine waitLoop_spec { hlater with
        first := ?_
        now_nonneg := hlater.clock_nonneg
        now_le := le_rfl
        future := ?_ }
      · intro t' ht'
        cases ht'
        exact ⟨bt, t, htree, rfl⟩
      · intro t' ht'
        cases ht'
        refine hfuture bt ?_
        change bt ∈ s.timersTree.head?
        rw [htree]
        rfl
    · exact .inr ((wp_pure ()).mpr h'.toTimersInv)

end Waiting

/-! ### The loop -/

/-- The handler of a timer that was expired is called. -/
theorem TimersInv.logDispatch (h : TimersInv s) {d : Dispatch}
    (hstate : (s.timers d.timer).state = .inactive) (hsound : Sound (s.history ++ [.dispatch d]))
    (hmoved : d.movedIn = s.waits)
    (hbefore : ∀ b ∈ s.timersExpiredList, d.absTime ≤ (s.timers b).absTime) :
    TimersInv (s.log (.dispatch d)) :=
  { h with
    ordered := h.ordered
    pending := fun b hb => by
      change lastAbout b (s.history ++ [.dispatch d]) = _
      have hne : d.timer ≠ b := by
        rintro rfl
        exact hb hstate
      rw [lastAbout_concat, if_neg (by simpa [Event.about] using hne)]
      exact h.pending b hb
    sound := hsound
    before := fun d' hd' => by
      change d' ∈ dispatches (s.history ++ [.dispatch d]) at hd'
      rw [dispatches_concat] at hd'
      obtain hd' | hd' := List.mem_append.mp hd'
      · exact h.before d' hd'
      · obtain rfl := List.mem_singleton.mp hd'
        exact ⟨hmoved.le, fun _ => hbefore⟩ }

/-- **The first expired timer is dispatched.** -/
theorem dispatchTimer_spec (h : TimersInv s) {rest : List ℕ}
    (hlist : s.timersExpiredList = bt :: rest) :
    wp (dispatchTimer bt rest) (fun _ => TimersInv) s := by
  have hmem : bt ∈ s.timersExpiredList := by
    rw [hlist]
    exact List.mem_cons_self
  have hstate : (s.timers bt).state = .expired := (h.expired bt).mp hmem
  have htree : bt ∉ s.timersTree := by
    rw [h.tree, hstate]
    exact noConfusion
  have hunlinked : { s with
      timersExpiredList := rest
      timers := update s.timers bt { s.timers bt with state := .inactive } }
      = s.unlinked bt := by
    rw [BReactor.unlinked, List.erase_of_not_mem htree, hlist, List.erase_cons_head]
  -- what was dispatched of this wait, and what is left, is on the right side of `bt`
  have hsorted := h.sorted
  rw [hlist] at hsorted
  have hafter : ∀ b ∈ (s.unlinked bt).timersExpiredList,
      (s.timers bt).absTime ≤ ((s.unlinked bt).timers b).absTime := by
    intro b hb
    obtain ⟨hne, hb⟩ := h.nodup.mem_erase_iff.mp hb
    rw [unlinked_of_ne s hne]
    rw [hlist] at hb
    exact (List.pairwise_cons.mp hsorted).1 b ((List.mem_cons.mp hb).resolve_left hne)
  have hsound : Sound (s.history ++
      [.dispatch ⟨bt, (s.timers bt).absTime, (s.timers bt).movedIn, s.clock⟩]) := by
    refine h.sound.dispatch (h.pending bt ?_) (h.due bt hmem) ?_
    · rw [hstate]
      exact noConfusion
    · intro d hd heq
      exact (h.before d hd).2 (heq.trans (h.moved bt hmem)) bt hmem
  unfold dispatchTimer
  simp only [assert, wp_bind, wp_get, wp_ensure, wp_modify]
  refine ⟨hstate, ?_⟩
  change TimersInv (BReactor.log { s with
    timersExpiredList := rest
    timers := update s.timers bt { s.timers bt with state := .inactive } } _)
  rw [hunlinked]
  exact (h.unlinked bt).logDispatch (unlinked_inactive s bt) hsound (h.moved bt hmem) hafter

/-- **An iteration of the loop of `BReactor_Exec`** keeps the invariant, or does not end. -/
theorem iterate_spec {ops : List Op} {d : ℕ} {ws : List Wait} (h : TimersInv s)
    (hops : ∀ op ∈ ops, op.Valid) :
    wpUnless .blocked (iterate ops d ws) (fun _ => TimersInv) s := by
  unfold iterate
  refine wpUnless_bind (wp_get.mpr ?_)
  by_cases hjobs : s.pendingJobs ≠ 0
  · rw [if_pos hjobs]
    right
    rw [wp_bind, wp_modify]
    exact runOps_spec (h.other s.exiting (s.pendingJobs - 1) s.epollResults) hops
  · rw [if_neg hjobs]
    cases hlist : s.timersExpiredList with
    | cons =>
      right
      rw [wp_bind]
      refine wp_mono (dispatchTimer_spec h hlist) ?_
      intro _ s' h'
      exact runOps_spec h' hops
    | nil =>
      dsimp only
      split_ifs with hresults
      · right
        rw [wp_bind, wp_modify]
        exact runOps_spec (h.other s.exiting s.pendingJobs (s.epollResults - 1)) hops
      · exact waitForEvents_spec h (of_not_not hjobs) hlist (of_not_not hresults)

/-! ### Every run -/

section Step

variable {w w' : World}

/-- Between two calls the reactor has not failed. -/
structure WorldInv (w : World) : Prop where
  fault : w.fault = none
  timers : TimersInv w.reactor

theorem WorldInv.leave {prog : M Unit} (h : WorldInv w)
    (hprog : wpUnless .blocked prog (fun _ => TimersInv) w.reactor)
    (hnext : w.leave (prog.run w.reactor) = some w') : WorldInv w' := by
  obtain hstop | ⟨⟨_, s⟩, hrun, hs⟩ := hprog
  · rw [hstop] at hnext
    cases hnext
  · rw [hrun] at hnext
    cases hnext
    exact ⟨h.fault, hs⟩

/-- **Every step keeps the invariant.** -/
theorem WorldInv.step {l : Label} (h : WorldInv w) (hnext : next w l = some w') :
    WorldInv w' := by
  cases l with
  | setup =>
    obtain ⟨⟨-, hops⟩, hnext⟩ := Option.ite_none_right_eq_some.mp hnext
    exact h.leave (.inr (runOps_spec h.timers hops)) hnext
  | iterate =>
    obtain ⟨⟨-, -, hops⟩, hnext⟩ := Option.ite_none_right_eq_some.mp hnext
    exact h.leave (iterate_spec h.timers hops) hnext

theorem worldInv_of_reachable (h : system.Reachable w) : WorldInv w :=
  h.invariant ⟨rfl, TimersInv.initial⟩ fun _ _ _ h hnext => h.step hnext

/-- **Timers are dispatched once, in time and in order.** In every run no check fails; a timer is
in the tree once if it is running, in the expired list once if it is expired, and otherwise in
neither; and the history is sound. -/
theorem timers_sound (h : system.Reachable w) :
    w.fault = none ∧
    (∀ bt, w.reactor.timersTree.count bt
        = (if (w.reactor.timers bt).state = .running then 1 else 0) ∧
      w.reactor.timersExpiredList.count bt
        = if (w.reactor.timers bt).state = .expired then 1 else 0) ∧
    Sound w.reactor.history := by
  obtain ⟨hfault, htimers⟩ := worldInv_of_reachable h
  refine ⟨hfault, fun bt => ⟨?_, ?_⟩, htimers.sound⟩
  · rw [htimers.ordered.nodup.count]
    exact if_congr (htimers.tree bt) rfl rfl
  · rw [htimers.nodup.count]
    exact if_congr (htimers.expired bt) rfl rfl

/-- Two timers are set and waited for, one is set again from the handler of the other. -/
theorem timers_sound_reset : ∃ w, system.Reachable w ∧
    dispatches w.reactor.history = [⟨1, 5, 1, 6⟩, ⟨2, 9, 2, 9⟩] ∧ w.fault = none ∧
    Sound w.reactor.history := by
  obtain ⟨w, hw, hdispatches⟩ := system.exists_of_run
    (fun w => dispatches w.reactor.history = [⟨1, 5, 1, 6⟩, ⟨2, 9, 2, 9⟩])
    [.setup [.set 1 .absolute 5, .set 2 .absolute 6],
      .iterate [] 0 [.interrupted 1 1, .timedOut 1 0],
      .iterate [.set 2 (.relative 0) 3] 0 [],
      .iterate [] 0 [.timedOut 0 0],
      .iterate [] 0 []] (by decide +kernel)
  obtain ⟨hfault, -, hsound⟩ := timers_sound hw
  exact ⟨w, hw, hdispatches, hfault, hsound⟩

end Step

end Tun2Socks.Reactor
