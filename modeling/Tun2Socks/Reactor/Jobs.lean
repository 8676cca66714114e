import Tun2Socks.Framework.Agenda
import Tun2Socks.Framework.Checked
import Tun2Socks.Framework.System
import Tun2Socks.Structure.SLinkedList

/-!
# Pending jobs

`BPending.c`. A `BPendingGroup` is a list of jobs that are to be run, the one that was set last
first. A job is set, at the front of the list, also if it is in it already; it is unset; it is freed,
which unsets it; and it is run, by `BPendingGroup_ExecuteJob`, which takes the first job off the list
before it calls its handler.

The list is an `SLinkedList`, in which a job that is not set is marked as removed. In a debug build
a job also has a flag that says whether it is set, and accessing a job that does not exist fails.

The group records what happens to its jobs. `GroupInv` says that the list is what is pending
according to this record (`Agenda.pending`), and that only ever the first job was run; the
specifications of the functions are in its terms.
-/

namespace Tun2Socks.Reactor

open Framework Structure Function

/-- The group; a job is known by its address. -/
structure BPendingGroup where
  jobs : SLinkedList
  /-- The jobs that exist, and the flag `pending` of each. -/
  pending : ℕ → Option Bool
  /-- `Unset` and `Free` are both recorded as `cancel`. -/
  log : List (Agenda.Event ℕ)

inductive JobFault
  | assert
  /-- A pointer that is `NULL` is dereferenced. -/
  | null
  /-- `BReactor_Synchronize` finds no job. -/
  | noJobs
  deriving DecidableEq, Repr

abbrev JobM := Checked JobFault BPendingGroup

namespace BPendingGroup

/-- `DebugObject_Access` and the flag of the job. -/
def access (p : ℕ) : JobM Bool := do
  match (← get).pending p with
  | some pending => pure pending
  | none => throw .assert

/-- The flag says whether the job is in the list. -/
def checkPending (p : ℕ) : JobM Unit := do
  let pending ← access p
  ensure (pending = !decide ((← get).jobs.IsRemoved p)) .assert

/-- The job is removed from the list if it is in it. -/
def unlink (p : ℕ) : JobM Unit := do
  let g ← get
  if g.jobs.IsRemoved p then pure ()
  else match g.jobs.remove p with
    | some jobs => modify fun g => { g with jobs }
    | none => throw .null

/-- The flag of a job is set. -/
def withPending (g : BPendingGroup) (p : ℕ) (pending : Option Bool) : BPendingGroup :=
  { g with pending := update g.pending p pending }

def record (g : BPendingGroup) (e : Agenda.Event ℕ) : BPendingGroup := { g with log := g.log ++ [e] }

/-- `BPending__ListMarkRemoved` -/
def marked (g : BPendingGroup) (p : ℕ) : BPendingGroup := { g with jobs := g.jobs.markRemoved p }

/-- `BPending__List_Prepend`. -/
def prepended (g : BPendingGroup) (p : ℕ) : BPendingGroup := { g with jobs := g.jobs.prepend p }

/-- `BSmallPending_Init`. -/
def init (p : ℕ) : JobM Unit := modify fun g => (g.marked p).withPending p (some false)

/-- `BSmallPending_Set`. -/
def set (p : ℕ) : JobM Unit := do
  checkPending p
  unlink p
  modify fun g => ((g.prepended p).withPending p (some true)).record (.set p)

/-- `BSmallPending_Unset`. A job that is not set stays as it is. -/
def unset (p : ℕ) : JobM Unit := do
  checkPending p
  unlink p
  modify fun g => ((g.marked p).withPending p (some false)).record (.cancel p)

/-- `BSmallPending_Free`. -/
def free (p : ℕ) : JobM Unit := do
  checkPending p
  unlink p
  modify fun g => (g.withPending p none).record (.cancel p)

/-- `BPendingGroup_HasJobs`. -/
def HasJobs (g : BPendingGroup) : Prop := g.jobs.first ≠ none

instance (g : BPendingGroup) : Decidable g.HasJobs := inferInstanceAs (Decidable (_ ≠ _))

/-- `BPendingGroup_PeekJob`. -/
def peekJob (g : BPendingGroup) : Option ℕ := g.jobs.first

/-- `BPendingGroup_ExecuteJob`, up to the call of the handler. -/
def executeJob : JobM Unit := do
  match (← get).peekJob with
  | none => throw .assert
  | some p =>
    let pending ← access p
    ensure (¬ (← get).jobs.IsRemoved p) .assert
    ensure (pending = true) .assert
    modify fun g => { g with jobs := g.jobs.removeFirst }
    modify fun g => ((g.marked p).withPending p (some false)).record (.run p)

end BPendingGroup

/-! ### The list and the record -/

/-- The jobs that are pending, the one that was set last first. -/
abbrev BPendingGroup.due (g : BPendingGroup) : List ℕ := Agenda.pending g.log

structure GroupInv (g : BPendingGroup) : Prop where
  list : g.jobs.Represents g.due
  runsFirst : Agenda.RunsFirst g.log
  /-- A job is in the list if and only if its flag is set. -/
  flag : ∀ p pending, g.pending p = some pending → (pending = true ↔ p ∈ g.due)
  /-- A job that exists and is not in the list is marked. -/
  removed : ∀ p, g.pending p ≠ none → p ∉ g.due → g.jobs.IsRemoved p
  /-- A job in the list exists. -/
  exists_of_mem : ∀ p ∈ g.due, g.pending p ≠ none

variable {g : BPendingGroup} {p : ℕ}

theorem GroupInv.isRemoved_iff (h : GroupInv g) (hp : g.pending p ≠ none) :
    g.jobs.IsRemoved p ↔ p ∉ g.due :=
  ⟨fun hremoved hmem => h.list.not_isRemoved hmem hremoved, h.removed p hp⟩

/-- What an operation on a job leaves: one event more, and the other jobs exist as before. -/
structure BPendingGroup.Did (g : BPendingGroup) (e : Agenda.Event ℕ) (g' : BPendingGroup) :
    Prop where
  inv : GroupInv g'
  log : g'.log = g.log ++ [e]
  other : ∀ a, a ≠ e.subject → g'.pending a = g.pending a

/-- What has to be shown of a group in which one job was changed. -/
theorem GroupInv.change {g' : BPendingGroup} {e : Agenda.Event ℕ} {pending : Option Bool}
    (h : GroupInv g) (hlog : g'.log = g.log ++ [e])
    (hlist : g'.jobs.Represents (Agenda.apply g.due e))
    (hrun : ∀ a, e = .run a → g.due.head? = some a)
    (hnext : ∀ a ∉ g.due, a ≠ e.subject → g'.jobs.next a = g.jobs.next a)
    (hpending : g'.pending = update g.pending e.subject pending)
    (hflag : pending = some true ∧ e.subject ∈ Agenda.apply g.due e ∨
      e.subject ∉ Agenda.apply g.due e ∧
        (pending = none ∨ pending = some false ∧ g'.jobs.IsRemoved e.subject)) :
    g.Did e g' ∧ g'.pending e.subject = pending := by
  have hdue : g'.due = Agenda.apply g.due e := by
    rw [BPendingGroup.due, hlog, Agenda.pending_concat]
  have hself : g'.pending e.subject = pending := by rw [hpending, update_self]
  have hother : ∀ a, a ≠ e.subject → g'.pending a = g.pending a := fun a ha => by
    rw [hpending, update_of_ne ha]
  refine ⟨⟨⟨hdue ▸ hlist, hlog ▸ h.runsFirst.concat hrun, ?_, ?_, ?_⟩, hlog, hother⟩, hself⟩
  · intro p flag hp
    rw [hdue]
    by_cases heq : p = e.subject
    · rw [heq, hself] at hp
      rw [heq]
      rcases hflag with ⟨hset, hmem⟩ | ⟨hnot, hnone | ⟨hunset, -⟩⟩ <;> simp_all
    · rw [Agenda.mem_apply_of_ne (Ne.symm heq)]
      exact h.flag p flag (hother p heq ▸ hp)
  · intro p hp hnot
    rw [hdue] at hnot
    by_cases heq : p = e.subject
    · rw [heq, hself] at hp
      rw [heq] at hnot ⊢
      rcases hflag with ⟨-, hmem⟩ | ⟨-, hnone | ⟨-, hremoved⟩⟩
      exacts [absurd hmem hnot, absurd hnone hp, hremoved]
    · rw [Agenda.mem_apply_of_ne (Ne.symm heq)] at hnot
      rw [SLinkedList.IsRemoved, hnext p hnot heq]
      exact h.removed p (hother p heq ▸ hp) hnot
  · intro p hp
    rw [hdue] at hp
    by_cases heq : p = e.subject
    · rw [heq] at hp
      rw [heq, hself, (hflag.resolve_right fun hout => hout.1 hp).1]
      exact Option.some_ne_none _
    · rw [Agenda.mem_apply_of_ne (Ne.symm heq)] at hp
      rw [hother p heq]
      exact h.exists_of_mem p hp

namespace BPendingGroup

theorem wp_access {Q : Bool → BPendingGroup → Prop} {pending : Bool}
    (h : g.pending p = some pending) : wp (access p) Q g ↔ Q pending g := by
  simp only [access, wp_bind, wp_get, h, wp_pure]

/-- The assertion about the flag holds. -/
theorem checkPending_spec (h : GroupInv g) (hp : g.pending p ≠ none) :
    wp (checkPending p) (fun _ g' => g = g') g := by
  obtain ⟨pending, hpending⟩ := Option.ne_none_iff_exists'.mp hp
  simp only [checkPending, wp_bind, wp_access hpending, wp_get, wp_ensure]
  refine ⟨?_, trivial⟩
  rw [Bool.eq_iff_iff, h.flag p pending hpending, Bool.not_eq_true', decide_eq_false_iff_not,
    h.isRemoved_iff hp, not_not]

/-- The job is not in the list any more, and the others are as before. -/
structure Unlinked (g : BPendingGroup) (p : ℕ) (g' : BPendingGroup) : Prop where
  list : g'.jobs.Represents (g.due.erase p)
  next : ∀ a ∉ g.due, g'.jobs.next a = g.jobs.next a
  pending : g'.pending = g.pending
  log : g'.log = g.log

theorem unlink_spec (h : GroupInv g) (hp : g.pending p ≠ none) :
    wp (unlink p) (fun _ g' => Unlinked g p g') g := by
  simp only [unlink, wp_bind, wp_get, wp_ite]
  by_cases hmem : p ∈ g.due
  · obtain ⟨jobs, hremove, hlist, hnext⟩ := h.list.remove hmem
    rw [if_neg (h.list.not_isRemoved hmem), hremove, wp_modify]
    exact ⟨hlist, hnext, rfl, rfl⟩
  · rw [if_pos (h.removed p hp hmem), wp_pure]
    refine ⟨?_, fun _ _ => rfl, rfl, rfl⟩
    rw [List.erase_of_not_mem hmem]
    exact h.list

theorem marked_next_of_ne {a : ℕ} (h : a ≠ p) : (g.marked p).jobs.next a = g.jobs.next a :=
  update_of_ne h _ _

theorem isRemoved_marked (g : BPendingGroup) (p : ℕ) : (g.marked p).jobs.IsRemoved p := by
  change some p = update g.jobs.next p (some p) p
  rw [update_self]

theorem withPending_of_ne {a : ℕ} {pending : Option Bool} (h : a ≠ p) :
    (g.withPending p pending).pending a = g.pending a :=
  update_of_ne h _ _

theorem withPending_self {pending : Option Bool} : (g.withPending p pending).pending p = pending :=
  update_self _ _ _

theorem set_spec (h : GroupInv g) (hp : g.pending p ≠ none) :
    wp (set p) (fun _ g' => Did g (.set p) g' ∧ g'.pending p = some true) g := by
  simp only [set, wp_bind, wp_modify]
  refine wp_mono (checkPending_spec h hp) ?_
  rintro _ _ rfl
  refine wp_mono (unlink_spec h hp) ?_
  rintro _ g' hg'
  refine h.change (congrArg (· ++ [_]) hg'.log)
    (hg'.list.prepend h.list.nodup.not_mem_erase) (by simp) (fun a ha hne => ?_)
    (congrArg (update · p _) hg'.pending) (.inl ⟨rfl, List.mem_cons_self⟩)
  rw [← hg'.next a ha]
  change (g'.jobs.prepend p).next a = _
  rw [SLinkedList.prepend, SLinkedList.setPrev_next]
  exact update_of_ne hne _ _

theorem unset_spec (h : GroupInv g) (hp : g.pending p ≠ none) :
    wp (unset p) (fun _ g' => Did g (.cancel p) g' ∧ g'.pending p = some false) g := by
  simp only [unset, wp_bind, wp_modify]
  refine wp_mono (checkPending_spec h hp) ?_
  rintro _ _ rfl
  refine wp_mono (unlink_spec h hp) ?_
  rintro _ g' hg'
  have hnot : p ∉ g.due.erase p := h.list.nodup.not_mem_erase
  refine h.change (congrArg (· ++ [_]) hg'.log) ?_ (by simp)
    (fun a ha hne => (marked_next_of_ne hne).trans (hg'.next a ha))
    (congrArg (update · p _) hg'.pending) (.inr ⟨hnot, .inr ⟨rfl, isRemoved_marked g' p⟩⟩)
  exact hg'.list.congr rfl (fun a ha => marked_next_of_ne (ne_of_mem_of_not_mem ha hnot))
    fun _ _ => rfl

theorem free_spec (h : GroupInv g) (hp : g.pending p ≠ none) :
    wp (free p) (fun _ g' => Did g (.cancel p) g' ∧ g'.pending p = none) g := by
  simp only [free, wp_bind, wp_modify]
  refine wp_mono (checkPending_spec h hp) ?_
  rintro _ _ rfl
  refine wp_mono (unlink_spec h hp) ?_
  rintro _ g' hg'
  exact h.change (congrArg (· ++ [_]) hg'.log) hg'.list (by simp) (fun a ha _ => hg'.next a ha)
    (congrArg (update · p _) hg'.pending) (.inr ⟨h.list.nodup.not_mem_erase, .inl rfl⟩)

theorem executeJob_spec (h : GroupInv g) {rest : List ℕ} (hdue : g.due = p :: rest) :
    wp executeJob (fun _ g' => Did g (.run p) g' ∧ g'.pending p = some false) g := by
  have hmem : p ∈ g.due := hdue ▸ List.mem_cons_self
  obtain ⟨pending, hpending⟩ := Option.ne_none_iff_exists'.mp (h.exists_of_mem p hmem)
  obtain rfl : pending = true := (h.flag p pending hpending).mpr hmem
  have hfirst : g.peekJob = some p := h.list.first.trans (congrArg List.head? hdue)
  have hnot : p ∉ g.due.erase p := h.list.nodup.not_mem_erase
  have hlist : g.jobs.removeFirst.Represents (g.due.erase p) := by
    have hlist := h.list
    rw [hdue] at hlist ⊢
    rw [List.erase_cons_head]
    exact hlist.removeFirst
  simp only [executeJob, wp_bind, wp_get, hfirst, wp_access hpending, wp_ensure, wp_modify]
  refine ⟨h.list.not_isRemoved hmem, trivial, h.change rfl ?_ ?_
    (fun a _ hne => marked_next_of_ne hne) rfl
    (.inr ⟨hnot, .inr ⟨rfl, isRemoved_marked { g with jobs := g.jobs.removeFirst } p⟩⟩)⟩
  · exact hlist.congr rfl (fun a ha => marked_next_of_ne (ne_of_mem_of_not_mem ha hnot))
      fun _ _ => rfl
  · intro a ha
    obtain rfl : p = a := Agenda.Event.run.inj ha
    rw [hdue]
    rfl

/-- A new job is not set. -/
theorem init_spec (h : GroupInv g) (hp : g.pending p = none) :
    wp (init p) (fun _ g' => GroupInv g' ∧ g'.log = g.log ∧ g'.pending p = some false ∧
      ∀ a, a ≠ p → g'.pending a = g.pending a) g := by
  have hnot : p ∉ g.due := fun hmem => h.exists_of_mem p hmem hp
  simp only [init, wp_modify]
  refine ⟨⟨?_, h.runsFirst, ?_, ?_, ?_⟩, rfl, withPending_self, fun a hne => withPending_of_ne hne⟩
  · exact h.list.congr rfl (fun a ha => marked_next_of_ne (ne_of_mem_of_not_mem ha hnot))
      fun _ _ => rfl
  · intro a pending ha
    by_cases heq : a = p
    · subst heq
      obtain rfl := Option.some.inj (withPending_self.symm.trans ha)
      exact iff_of_false Bool.false_ne_true hnot
    · exact h.flag a pending ((withPending_of_ne heq).symm.trans ha)
  · intro a ha hout
    by_cases heq : a = p
    · subst heq
      exact isRemoved_marked g a
    · exact (h.removed a (ne_of_eq_of_ne (withPending_of_ne heq).symm ha) hout).trans
        (marked_next_of_ne heq).symm
  · intro a hmem
    have hne : a ≠ p := ne_of_mem_of_not_mem hmem hnot
    exact ne_of_eq_of_ne (withPending_of_ne hne) (h.exists_of_mem a hmem)

end BPendingGroup

end Tun2Socks.Reactor
