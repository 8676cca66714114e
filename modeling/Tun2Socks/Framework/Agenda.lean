import Mathlib

/-!
# Agendas

An agenda is a list of things that are due. Whatever is set goes to its front, also if it was in it
before; it leaves the agenda when it is cancelled and when it is run. `pending h` is what is due
after a history `h` of such events, the latest set first, and `RunsFirst h` says that only ever the
first is run.

* `mem_pending_iff` — what is due is what was set and since then neither cancelled nor run.
* `RunsFirst.exists_set` — what is run was set last of all that is due.
* `RunsFirst.pending_append` — as long as one thing is left alone, all that happens to what is due
  behind it is that the rest may be moved to the front or cancelled.
-/

namespace Tun2Socks.Framework.Agenda

variable {α : Type} [DecidableEq α]

inductive Event (α : Type)
  | set (a : α)
  | cancel (a : α)
  | run (a : α)
  deriving DecidableEq, Repr

/-- What an event is about. -/
def Event.subject : Event α → α
  | .set a => a
  | .cancel a => a
  | .run a => a

/-- One event. -/
def apply (l : List α) : Event α → List α
  | .set a => a :: l.erase a
  | .cancel a => l.erase a
  | .run a => l.erase a

/-- What is due after a history, the latest set first. -/
def pending (h : List (Event α)) : List α := h.foldl apply []

/-- No event is about `a`. -/
def Untouched (h : List (Event α)) (a : α) : Prop := ∀ e ∈ h, e.subject ≠ a

instance (h : List (Event α)) (a : α) : Decidable (Untouched h a) :=
  inferInstanceAs (Decidable (∀ e ∈ h, e.subject ≠ a))

/-- The last event about `a`. -/
def last (h : List (Event α)) (a : α) : Option (Event α) :=
  (h.filter fun e => e.subject = a).getLast?

/-- Only the first of what is due is run. -/
def RunsFirst (h : List (Event α)) : Prop :=
  ∀ pre a post, h = pre ++ .run a :: post → (pending pre).head? = some a

variable {h : List (Event α)} {a b : α} {e : Event α}

theorem pending_concat (h : List (Event α)) (e : Event α) :
    pending (h ++ [e]) = apply (pending h) e := List.foldl_concat _ _ _ _

theorem last_concat_self (h : List (Event α)) (e : Event α) :
    last (h ++ [e]) e.subject = some e := by
  rw [last, List.filter_append, List.filter_singleton, decide_eq_true rfl, cond_true,
    List.getLast?_concat]

theorem last_concat_of_ne (hne : e.subject ≠ a) : last (h ++ [e]) a = last h a := by
  rw [last, List.filter_append, List.filter_singleton, decide_eq_false hne, cond_false,
    List.append_nil, last]

theorem last_append_of_untouched {h' : List (Event α)} (hun : Untouched h' a) :
    last (h ++ h') a = last h a := by
  have hnil : h'.filter (fun e => e.subject = a) = [] := by
    rw [List.filter_eq_nil_iff]
    intro e he
    simpa using hun e he
  rw [last, List.filter_append, hnil, List.append_nil, last]

omit [DecidableEq α] in
theorem untouched_concat : Untouched (h ++ [e]) a ↔ Untouched h a ∧ e.subject ≠ a := by
  unfold Untouched
  rw [List.forall_mem_append, List.forall_mem_singleton]

theorem nodup_apply {l : List α} (hl : l.Nodup) (e : Event α) : (apply l e).Nodup := by
  cases e with
  | set a => exact List.nodup_cons.mpr ⟨hl.not_mem_erase, hl.erase a⟩
  | cancel a | run a => exact hl.erase a

theorem nodup_pending (h : List (Event α)) : (pending h).Nodup := by
  induction h using List.reverseRecOn with
  | nil => exact List.nodup_nil
  | append_singleton _ e ih =>
    rw [pending_concat]
    exact nodup_apply ih e

theorem mem_apply_of_ne {l : List α} (hne : e.subject ≠ a) : a ∈ apply l e ↔ a ∈ l := by
  cases e with
  | set b =>
    have hba : a ≠ b := Ne.symm hne
    rw [apply, List.mem_cons, or_iff_right hba, List.mem_erase_of_ne hba]
  | cancel | run => exact List.mem_erase_of_ne (Ne.symm hne)

/-- What is due is what was set and since then neither cancelled nor run. -/
theorem mem_pending_iff : a ∈ pending h ↔ last h a = some (.set a) := by
  induction h using List.reverseRecOn with
  | nil => simp [pending, last]
  | append_singleton h e ih =>
    rw [pending_concat]
    by_cases he : e.subject = a
    · subst he
      rw [last_concat_self]
      have hnot := (nodup_pending h).not_mem_erase (a := e.subject)
      cases e with
      | set => simp [apply, Event.subject]
      | cancel | run => simpa [apply, Event.subject] using hnot
    · rw [last_concat_of_ne he, mem_apply_of_ne he, ih]

theorem RunsFirst.concat (hfirst : RunsFirst h)
    (he : ∀ a, e = .run a → (pending h).head? = some a) : RunsFirst (h ++ [e]) := by
  intro pre a post heq
  obtain rfl | ⟨post, e', rfl⟩ := List.eq_nil_or_concat post
  · obtain ⟨rfl, hrun⟩ := List.append_inj' heq rfl
    exact he a (List.singleton_inj.mp hrun)
  · rw [List.concat_eq_append, ← List.cons_append, ← List.append_assoc] at heq
    obtain ⟨rfl, -⟩ := List.append_inj' heq rfl
    exact hfirst pre a post rfl

variable {above below : List α}

/-- What one event leaves around something that it is not about. -/
theorem apply_append (hnodup : (above ++ b :: below).Nodup)
    (hne : e.subject ≠ b) :
    ∃ above', apply (above ++ b :: below) e = above' ++ b :: below.filter (e.subject ≠ ·) := by
  have herase : (above ++ b :: below).erase e.subject =
      above.filter (e.subject ≠ ·) ++ b :: below.filter (e.subject ≠ ·) := by
    have hfilter : ∀ l : List α, l.filter (· != e.subject) = l.filter (e.subject ≠ ·) :=
      fun l => List.filter_congr fun c _ => by
        rw [Bool.eq_iff_iff, bne_iff_ne, decide_eq_true_eq]
        exact ne_comm
    rw [hnodup.erase_eq_filter, hfilter, List.filter_append,
      List.filter_cons_of_pos (p := fun c => decide (e.subject ≠ c)) (decide_eq_true hne)]
  cases e with
  | set a => exact ⟨a :: above.filter (a ≠ ·), congrArg (a :: ·) herase⟩
  | cancel | run => exact ⟨_, herase⟩

variable {L : List (Event α)}

/-- **What is behind something that is left alone.** It may be moved to the front or cancelled, and
otherwise it stays as it is. -/
theorem pending_append
    (hh : pending h = above ++ a :: below) (hL : Untouched L a) :
    ∃ above', pending (h ++ L) = above' ++ a :: below.filter (Untouched L ·) := by
  induction L using List.reverseRecOn with
  | nil =>
    refine ⟨above, ?_⟩
    rw [List.append_nil, hh, List.filter_eq_self.mpr]
    exact fun b _ => decide_eq_true fun e he => nomatch he
  | append_singleton _ _ ih =>
    obtain ⟨hL, he⟩ := untouched_concat.mp hL
    obtain ⟨above', hih⟩ := ih hL
    obtain ⟨above'', happly⟩ := apply_append (hih ▸ nodup_pending _) he
    refine ⟨above'', ?_⟩
    rw [← List.append_assoc, pending_concat, hih, happly, List.filter_filter]
    congr 2
    refine List.filter_congr fun b _ => ?_
    rw [← Bool.decide_and, decide_eq_decide, untouched_concat, and_comm]

/-- The last event about something, and what came after it. -/
theorem exists_of_last (hlast : last h a = some e) :
    ∃ x y, h = x ++ e :: y ∧ e.subject = a ∧ Untouched y a := by
  induction h using List.reverseRecOn with
  | nil => cases hlast
  | append_singleton h e' ih =>
    by_cases he' : e'.subject = a
    · subst he'
      rw [last_concat_self] at hlast
      cases hlast
      exact ⟨h, [], rfl, rfl, fun _ he => nomatch he⟩
    · rw [last_concat_of_ne he'] at hlast
      obtain ⟨x, y, rfl, he, hy⟩ := ih hlast
      exact ⟨x, y ++ [e'], by rw [List.append_assoc, List.cons_append], he,
        untouched_concat.mpr ⟨hy, he'⟩⟩

theorem untouched_iff_last : Untouched h a ↔ last h a = none := by
  simp [Untouched, last]

theorem last_append {h' : List (Event α)} (hlast : last h' a = some e) :
    last (h ++ h') a = some e := by
  rw [last, List.filter_append, List.getLast?_append, ← last, ← last, hlast]
  rfl

/-- What is due and was set in the meantime is in front of what was left alone. -/
theorem mem_of_last_set
    (hpending : pending (h ++ L) = above ++ a :: below.filter (Untouched L ·))
    (hL : Untouched L a) (hb : last L b = some (.set b)) : b ∈ above := by
  have htouched : ¬ Untouched L b := by
    rw [untouched_iff_last, hb]
    exact Option.some_ne_none _
  have hmem : b ∈ pending (h ++ L) := mem_pending_iff.mpr (last_append hb)
  rw [hpending, List.mem_append, List.mem_cons, List.mem_filter, decide_eq_true_eq] at hmem
  obtain habove | rfl | ⟨-, hbelow⟩ := hmem
  · exact habove
  · exact absurd hL htouched
  · exact absurd hbelow htouched

/-- If something is first, nothing is in front of it. -/
theorem eq_nil_of_head? (hpending : pending h = above ++ a :: below)
    (hhead : (pending h).head? = some a) : above = [] := by
  have hnodup := nodup_pending h
  rw [hpending] at hhead hnodup
  cases above with
  | nil => rfl
  | cons _ above =>
    cases hhead
    exact absurd (List.mem_append_right above List.mem_cons_self) (List.nodup_cons.mp hnodup).1

/-- **What is run was set last of all that is due.** Everything that was set after it has been run
or cancelled since. -/
theorem RunsFirst.exists_set (hfirst : RunsFirst h) {pre post : List (Event α)}
    (hrun : h = pre ++ .run a :: post) :
    ∃ x y, pre = x ++ .set a :: y ∧ Untouched y a ∧ ∀ b, last y b ≠ some (.set b) := by
  have hhead := hfirst pre a post hrun
  obtain ⟨x, y, rfl, hy⟩ : ∃ x y, pre = x ++ [.set a] ++ y ∧ Untouched y a := by
    obtain ⟨x, y, hpre, -, hy⟩ :=
      exists_of_last (mem_pending_iff.mp (List.mem_of_mem_head? hhead))
    exact ⟨x, y, by rw [hpre, List.append_assoc, List.singleton_append], hy⟩
  refine ⟨x, y, by rw [List.append_assoc, List.singleton_append], hy, ?_⟩
  intro b hb
  have hset : pending (x ++ [.set a]) = [] ++ a :: (pending x).erase a := pending_concat _ _
  obtain ⟨above, habove⟩ := pending_append hset hy
  obtain rfl := eq_nil_of_head? habove hhead
  cases mem_of_last_set habove hy hb

/-- **An interval at whose end something is first that was left alone.** What was due in front of
it and what was set in the meantime has been run, cancelled or set again, nothing else has been run,
and what was due behind it and was left alone is still due, in the same order. -/
theorem RunsFirst.interval
    (hfirst : RunsFirst (h ++ L)) (hpending : pending h = above ++ a :: below)
    (hL : Untouched L a) (hhead : (pending (h ++ L)).head? = some a) :
    pending (h ++ L) = a :: below.filter (Untouched L ·) ∧
      (∀ b ∈ above, ¬ Untouched L b) ∧
      (∀ pre b post, L = pre ++ .set b :: post → ¬ Untouched post b) ∧
      ∀ pre b post, L = pre ++ .run b :: post →
        last pre b = some (.set b) ∨ Untouched pre b ∧ b ∈ above := by
  obtain ⟨above', hend⟩ := pending_append hpending hL
  obtain rfl := eq_nil_of_head? hend hhead
  refine ⟨hend, ?_, ?_, ?_⟩
  · intro b hb hun
    have hdue : last h b = some (.set b) :=
      mem_pending_iff.mp (hpending ▸ List.mem_append_left _ hb)
    have hmem : b ∈ pending (h ++ L) :=
      mem_pending_iff.mpr ((last_append_of_untouched hun).trans hdue)
    rw [hend, List.nil_append] at hmem
    have hsub : b ∈ a :: below := (List.filter_sublist.cons_cons a).subset hmem
    exact List.disjoint_of_nodup_append (hpending ▸ nodup_pending h) hb hsub
  · rintro pre b post rfl hun
    refine nomatch mem_of_last_set hend hL (b := b) ?_
    rw [← List.singleton_append, ← List.append_assoc, last_append_of_untouched hun]
    exact last_concat_self pre (.set b)
  · rintro pre b post rfl
    have hb := hfirst (h ++ pre) b post (List.append_assoc _ _ _).symm
    have hdue := mem_pending_iff.mp (List.mem_of_mem_head? hb)
    by_cases hun : Untouched pre b
    · refine .inr ⟨hun, ?_⟩
      have hmem : b ∈ pending h :=
        mem_pending_iff.mpr ((last_append_of_untouched hun).symm.trans hdue)
      rw [hpending, List.mem_append, List.mem_cons] at hmem
      have hne : b ≠ a := hL (.run b) (List.mem_append_right _ List.mem_cons_self)
      obtain habove | rfl | hbelow := hmem
      · exact habove
      · exact absurd rfl hne
      · -- It would be behind `a`, which is due, and so not be the first.
        have hpre : Untouched pre a := fun e he => hL e (List.mem_append_left _ he)
        obtain ⟨above', hmid⟩ := pending_append hpending hpre
        have hnodup := nodup_pending (h ++ pre)
        rw [hmid] at hb hnodup
        cases above' with
        | nil => exact absurd (Option.some.inj hb).symm hne
        | cons =>
          cases hb
          refine absurd ?_ (List.nodup_cons.mp hnodup).1
          exact List.mem_append_right _ (List.mem_cons_of_mem _
            (List.mem_filter.mpr ⟨hbelow, decide_eq_true hun⟩))
    · rw [untouched_iff_last] at hun
      obtain ⟨e, he⟩ := Option.ne_none_iff_exists'.mp hun
      rw [last_append he] at hdue
      exact .inl (he.trans hdue)

end Tun2Socks.Framework.Agenda
