import Tun2Socks.Reactor.Jobs

/-!
# Running jobs

The two places of `BReactor_badvpn.c` that run jobs: the loop of `BReactor_Exec`, and
`BReactor_Synchronize(ref)`, which runs jobs until `ref` is the first one. The macros `SYNC_FROMHERE`
and `SYNC_COMMIT` of `tun2socks.c` set a mark and synchronise with it.

A handler is any code. It makes jobs, sets, unsets and frees them, asks the reactor to quit, and
synchronises, so that calls of `BReactor_Synchronize` nest; the only thing it does not do is to touch
a job with which a call that has not returned synchronises. The state has the stack of calls
(`Frame`), and the label of a step says what the code at its top does.

A call of `BReactor_Synchronize` is an interval of a run: from a state in which its frame is at the
top to one in which it is again, with no return from that frame in between (`Within`).
-/

namespace Tun2Socks.Reactor

open Framework Structure

/-- A call that has not returned. -/
inductive Frame
  /-- A handler, or the program before and after `BReactor_Exec`. -/
  | code
  /-- `BReactor_Exec`. -/
  | exec
  /-- `BReactor_Synchronize(ref)`. -/
  | synchronize (ref : ℕ)
  deriving DecidableEq, Repr

/-- The reactor, as far as it runs jobs. -/
structure JobWorld where
  group : BPendingGroup
  exiting : Bool
  frames : List Frame
  fault : Option JobFault

/-- What code does. -/
inductive JobOp
  | init (p : ℕ)
  | set (p : ℕ)
  | unset (p : ℕ)
  | free (p : ℕ)
  deriving DecidableEq, Repr

inductive JobLabel
  | op (op : JobOp)
  /-- `BReactor_Quit`. -/
  | quit
  | callExec
  | callSynchronize (ref : ℕ)
  /-- A handler returns. -/
  | done
  /-- `BReactor_Exec` or `BReactor_Synchronize` goes on. -/
  | iterate
  deriving DecidableEq, Repr

namespace JobWorld

/-- The jobs with which calls that have not returned synchronise. -/
def marks (w : JobWorld) : List ℕ := w.frames.filterMap fun
  | .synchronize ref => some ref
  | _ => none

/-- Jobs are made where there is none, and a job that exists is used, unless it is a mark. -/
def Allowed (w : JobWorld) : JobOp → Prop
  | .init p => w.group.pending p = none
  | .set p => w.group.pending p ≠ none ∧ p ∉ w.marks
  | .unset p => w.group.pending p ≠ none ∧ p ∉ w.marks
  | .free p => w.group.pending p ≠ none ∧ p ∉ w.marks

instance (w : JobWorld) : (op : JobOp) → Decidable (w.Allowed op)
  | .init _ => inferInstanceAs (Decidable (_ = _))
  | .set _ => inferInstanceAs (Decidable (_ ∧ _))
  | .unset _ => inferInstanceAs (Decidable (_ ∧ _))
  | .free _ => inferInstanceAs (Decidable (_ ∧ _))

def runOp : JobOp → JobM Unit
  | .init p => BPendingGroup.init p
  | .set p => BPendingGroup.set p
  | .unset p => BPendingGroup.unset p
  | .free p => BPendingGroup.free p

def leave (w : JobWorld) : Except JobFault (Unit × BPendingGroup) → JobWorld
  | .ok (_, group) => { w with group }
  | .error f => { w with fault := some f }

/-- The first job is run: its handler is called. -/
def execute (w : JobWorld) : JobWorld :=
  leave { w with frames := .code :: w.frames } (BPendingGroup.executeJob.run w.group)

/-- One iteration of the loop of `BReactor_Exec`. Without jobs it calls the handler of a timer or of
a file descriptor, or waits. -/
def iterateExec (w : JobWorld) (below : List Frame) : JobWorld :=
  if w.exiting then { w with frames := below }
  else if w.group.HasJobs then w.execute
  else { w with frames := .code :: w.frames }

/-- One iteration of the loop of `BReactor_Synchronize`, which returns when the reactor is to quit
or when `ref` is the first job. -/
def iterateSynchronize (w : JobWorld) (ref : ℕ) (below : List Frame) : JobWorld :=
  if w.exiting then { w with frames := below }
  else if ¬ w.group.HasJobs then { w with fault := some .noJobs }
  else if w.group.peekJob = some ref then { w with frames := below }
  else w.execute

/-- What the code at the top of the stack does. -/
def nextCode (w : JobWorld) (below : List Frame) : JobLabel → Option JobWorld
  | .op op => if w.Allowed op then some (w.leave ((runOp op).run w.group)) else none
  | .quit => some { w with exiting := true }
  | .callExec => if below = [] then some { w with frames := .exec :: w.frames } else none
  | .callSynchronize ref =>
    if w.group.pending ref ≠ none then some { w with frames := .synchronize ref :: w.frames }
    else none
  | .done => if below = [] then none else some { w with frames := below }
  | .iterate => none

def next (w : JobWorld) (l : JobLabel) : Option JobWorld :=
  if w.fault.isSome then none
  else match w.frames with
    | .code :: below => w.nextCode below l
    | .exec :: below => if l = .iterate then some (w.iterateExec below) else none
    | .synchronize ref :: below =>
      if l = .iterate then some (w.iterateSynchronize ref below) else none
    | [] => none

end JobWorld

/-- All runs of the program, from the start on. -/
def jobSystem : System JobWorld JobLabel where
  init := ⟨⟨⟨none, fun _ => none, fun _ => none⟩, fun _ => none, []⟩, false, [.code], none⟩
  next := JobWorld.next

/-! ### One step -/

/-- In every state the list is what is pending, and no assertion has failed but the one that there
is a job with which to go on. -/
structure JobInv (w : JobWorld) : Prop where
  group : GroupInv w.group
  fault : w.fault = none ∨ w.fault = some .noJobs ∧ ¬ w.group.HasJobs

/-- What a step does to the record: nothing, or one event, which is not that a mark is set, unset or
freed. -/
def Records (w w' : JobWorld) : Prop :=
  w'.group.log = w.group.log ∨
    ∃ e, w'.group.log = w.group.log ++ [e] ∧ (e.subject ∈ w.marks → e = .run e.subject)

variable {w w' : JobWorld}

theorem leave_of_wp {x : JobM Unit} {Q : Unit → BPendingGroup → Prop} {g : BPendingGroup}
    (h : wp x Q g) : ∃ g', w.leave (x.run g) = { w with group := g' } ∧ Q () g' := by
  obtain ⟨⟨_, g'⟩, hrun, hg'⟩ := h
  exact ⟨g', by rw [hrun]; rfl, hg'⟩

theorem JobInv.op (h : JobInv w) {op : JobOp} (hop : w.Allowed op) :
    ∃ g', w.leave ((JobWorld.runOp op).run w.group) = { w with group := g' } ∧ GroupInv g' ∧
      Records w { w with group := g' } := by
  cases op with
  | init =>
    obtain ⟨g', hg', hinv, hlog, -⟩ := leave_of_wp (BPendingGroup.init_spec h.group hop)
    exact ⟨g', hg', hinv, .inl hlog⟩
  | set =>
    obtain ⟨g', hg', hdid, -⟩ := leave_of_wp (BPendingGroup.set_spec h.group hop.1)
    exact ⟨g', hg', hdid.inv, .inr ⟨_, hdid.log, fun hmark => absurd hmark hop.2⟩⟩
  | unset =>
    obtain ⟨g', hg', hdid, -⟩ := leave_of_wp (BPendingGroup.unset_spec h.group hop.1)
    exact ⟨g', hg', hdid.inv, .inr ⟨_, hdid.log, fun hmark => absurd hmark hop.2⟩⟩
  | free =>
    obtain ⟨g', hg', hdid, -⟩ := leave_of_wp (BPendingGroup.free_spec h.group hop.1)
    exact ⟨g', hg', hdid.inv, .inr ⟨_, hdid.log, fun hmark => absurd hmark hop.2⟩⟩

/-- There is a first job if the list is not empty. -/
theorem GroupInv.exists_due {g : BPendingGroup} (h : GroupInv g) (hjobs : g.HasJobs) :
    ∃ p rest, g.due = p :: rest := by
  cases hdue : g.due with
  | nil => exact absurd (h.list.first.trans (congrArg List.head? hdue)) hjobs
  | cons p rest => exact ⟨p, rest, rfl⟩

theorem JobInv.execute (h : JobInv w) (hjobs : w.group.HasJobs) :
    ∃ g', w.execute = { w with group := g', frames := .code :: w.frames } ∧ GroupInv g' ∧
      Records w { w with group := g', frames := .code :: w.frames } := by
  obtain ⟨p, rest, hdue⟩ := h.group.exists_due hjobs
  obtain ⟨g', hg', hdid, -⟩ := leave_of_wp (w := { w with frames := .code :: w.frames })
    (BPendingGroup.executeJob_spec h.group hdue)
  exact ⟨g', hg', hdid.inv, .inr ⟨_, hdid.log, fun _ => rfl⟩⟩

/-- What a step can do: it calls or returns, or it does something to jobs, and then it may call a
handler too. -/
inductive StepKind (w w' : JobWorld) : Prop
  | calls (frame : Frame) : w'.frames = frame :: w.frames → w'.group = w.group →
      w'.fault = w.fault → StepKind w w'
  | returns (frame : Frame) : w.frames = frame :: w'.frames → w'.group = w.group →
      w'.fault = w.fault → w'.exiting = w.exiting →
      (∀ ref, frame = .synchronize ref → w.exiting = true ∨ w.group.peekJob = some ref) →
      StepKind w w'
  | works : GroupInv w'.group → Records w w' → w'.frames = w.frames → w'.fault = w.fault →
      StepKind w w'
  | executes : GroupInv w'.group → Records w w' → w'.frames = .code :: w.frames →
      w'.fault = w.fault → StepKind w w'
  | stops : w'.frames = w.frames → w'.group = w.group →
      w'.fault = some .noJobs ∧ ¬ w'.group.HasJobs → StepKind w w'

theorem fault_of_next {l : JobLabel} (h : w.next l = some w') : w.fault = none := by
  obtain ⟨hfault, -⟩ := Option.ite_none_left_eq_some.mp h
  exact Option.isNone_iff_eq_none.mp (by simpa using hfault)

theorem JobInv.stepKind (h : JobInv w) {l : JobLabel} (hnext : w.next l = some w') :
    StepKind w w' := by
  unfold JobWorld.next at hnext
  rw [Option.ite_none_left_eq_some] at hnext
  obtain ⟨-, hnext⟩ := hnext
  split at hnext
  · rename_i below hframes
    cases l with
    | op =>
      obtain ⟨hop, hnext⟩ := Option.ite_none_right_eq_some.mp hnext
      obtain ⟨g', hg', hinv, hrec⟩ := h.op hop
      rw [hg'] at hnext
      cases hnext
      exact .works hinv hrec rfl rfl
    | quit =>
      cases hnext
      exact .works h.group (.inl rfl) rfl rfl
    | callExec | callSynchronize =>
      obtain ⟨-, rfl⟩ := guard_eq_some.mp hnext
      exact .calls _ rfl rfl rfl
    | done =>
      obtain ⟨-, hnext⟩ := Option.ite_none_left_eq_some.mp hnext
      cases hnext
      exact .returns _ hframes rfl rfl rfl nofun
    | iterate => cases hnext
  · rename_i below hframes
    obtain ⟨-, rfl⟩ := guard_eq_some.mp hnext
    unfold JobWorld.iterateExec
    split
    · exact .returns _ hframes rfl rfl rfl nofun
    · split
      · rename_i hjobs
        obtain ⟨g', hg', hinv, hrec⟩ := h.execute hjobs
        rw [hg']
        exact .executes hinv hrec rfl rfl
      · exact .calls _ rfl rfl rfl
  · rename_i ref below hframes
    obtain ⟨-, rfl⟩ := guard_eq_some.mp hnext
    unfold JobWorld.iterateSynchronize
    split
    · rename_i hexiting
      exact .returns _ hframes rfl rfl rfl fun _ _ => .inl hexiting
    · split
      · rename_i hjobs
        exact .stops rfl rfl ⟨rfl, hjobs⟩
      · rename_i hjobs
        split
        · rename_i hpeek
          refine .returns _ hframes rfl rfl rfl fun ref' href => .inr ?_
          rw [hpeek, Frame.synchronize.inj href]
        · obtain ⟨g', hg', hinv, hrec⟩ := h.execute (not_not.mp hjobs)
          rw [hg']
          exact .executes hinv hrec rfl rfl
  · cases hnext

theorem JobInv.step (h : JobInv w) {l : JobLabel} (hnext : w.next l = some w') :
    JobInv w' ∧ Records w w' := by
  have hnone := fault_of_next hnext
  cases h.stepKind hnext with
  | calls _ _ hgroup hfault | returns _ _ hgroup hfault _ _ =>
    exact ⟨⟨hgroup ▸ h.group, .inl (hfault.trans hnone)⟩, .inl (congrArg _ hgroup)⟩
  | works hinv hrec _ hfault | executes hinv hrec _ hfault =>
    exact ⟨⟨hinv, .inl (hfault.trans hnone)⟩, hrec⟩
  | stops _ hgroup hfault =>
    exact ⟨⟨hgroup ▸ h.group, .inr hfault⟩, .inl (congrArg _ hgroup)⟩

theorem jobInv_of_reachable (h : jobSystem.Reachable w) : JobInv w := by
  refine h.invariant ?_ fun _ _ _ hinv hnext => (hinv.step hnext).1
  refine ⟨⟨⟨rfl, List.nodup_nil, .nil, nofun⟩, ?_, nofun, ?_, nofun⟩, .inl rfl⟩
  · intro pre p post hlog
    exact absurd hlog.symm (List.append_ne_nil_of_right_ne_nil _ (List.cons_ne_nil _ _))
  · exact fun p hp => absurd rfl hp

/-! ### A call of `BReactor_Synchronize` -/

/-- The call of `BReactor_Synchronize(ref)` with these frames below it does not return with the next
step. -/
def Within (ref : ℕ) (below : List Frame) (w : JobWorld) (_ : JobLabel) : Prop :=
  w.frames = .synchronize ref :: below → w.exiting = false ∧ w.group.peekJob ≠ some ref

instance (ref : ℕ) (below : List Frame) (w : JobWorld) (l : JobLabel) :
    Decidable (Within ref below w l) :=
  inferInstanceAs (Decidable (_ → _))

variable {ref : ℕ} {below : List Frame}

/-- While the call has not returned, its frame is on the stack. -/
theorem StepKind.suffix (h : StepKind w w') (hbelow : .synchronize ref :: below <:+ w.frames)
    {l : JobLabel} (hwithin : Within ref below w l) : .synchronize ref :: below <:+ w'.frames := by
  cases h with
  | calls _ hframes _ _ => exact hframes ▸ hbelow.trans (List.suffix_cons _ _)
  | returns frame hframes _ _ _ hsync =>
    rw [hframes, List.suffix_cons_iff] at hbelow
    obtain heq | hsuffix := hbelow
    · -- It would be the frame of the call.
      obtain ⟨rfl, rfl⟩ := List.cons.inj heq
      obtain ⟨hexiting, hpeek⟩ := hwithin hframes
      obtain hquit | href := hsync ref rfl
      · cases hexiting.symm.trans hquit
      · exact absurd href hpeek
    · exact hsuffix
  | works _ _ hframes => exact hframes ▸ hbelow
  | executes _ _ hframes _ => exact hframes ▸ hbelow.trans (List.suffix_cons _ _)
  | stops hframes => exact hframes ▸ hbelow

theorem mem_marks_of_suffix (h : .synchronize ref :: below <:+ w.frames) : ref ∈ w.marks :=
  List.mem_filterMap.mpr ⟨_, h.subset List.mem_cons_self, rfl⟩

/-- What is known of a state in the interval, whose record began as that of the state `s`. -/
structure During (ref : ℕ) (below : List Frame) (s w : JobWorld) : Prop where
  inv : JobInv w
  frames : .synchronize ref :: below <:+ w.frames
  /-- The mark is not set, unset or freed. -/
  log : ∃ L, w.group.log = s.group.log ++ L ∧ ∀ e ∈ L, e.subject = ref → e = .run ref

theorem During.step {s : JobWorld} (h : During ref below s w) {l : JobLabel}
    (hwithin : Within ref below w l) (hnext : w.next l = some w') : During ref below s w' := by
  obtain ⟨hinv, hrec⟩ := h.inv.step hnext
  refine ⟨hinv, (h.inv.stepKind hnext).suffix h.frames hwithin, ?_⟩
  obtain ⟨L, hlog, hL⟩ := h.log
  obtain hsame | ⟨e, he, hmark⟩ := hrec
  · exact ⟨L, hsame.trans hlog, hL⟩
  · refine ⟨L ++ [e], by rw [he, hlog, List.append_assoc], ?_⟩
    rw [List.forall_mem_append, List.forall_mem_singleton]
    refine ⟨hL, ?_⟩
    rintro rfl
    exact hmark (mem_marks_of_suffix h.frames)

theorem during_of_path {s : JobWorld} (hinv : JobInv s)
    (hframes : s.frames = .synchronize ref :: below)
    (hpath : jobSystem.PathUnder (Within ref below) s w) : During ref below s w := by
  induction hpath with
  | refl => exact ⟨hinv, hframes ▸ List.suffix_rfl, [], (List.append_nil _).symm, nofun⟩
  | tail _ hstep ih =>
    obtain ⟨l, hwithin, hnext⟩ := hstep
    exact ih.step hwithin hnext

/-- What a call of `BReactor_Synchronize(ref)` has done when it returns in the state `t`, seen from
a state `s` in which it has not run anything yet. -/
structure Synchronized (ref : ℕ) (s t : JobWorld) : Prop where
  exists_events : ∃ L above behind, t.group.log = s.group.log ++ L ∧
    s.group.jobs.Represents (above ++ ref :: behind) ∧
    -- The mark is the first job, and the jobs behind it that no handler touched have not been run
    -- and are in the same order.
    t.group.jobs.Represents (ref :: behind.filter (Agenda.Untouched L ·)) ∧
    Agenda.Untouched L ref ∧
    -- The jobs that were set after the mark have been run, cancelled or set again.
    (∀ p ∈ above, ¬ Agenda.Untouched L p) ∧
    (∀ pre p post, L = pre ++ .set p :: post → ¬ Agenda.Untouched post p) ∧
    -- Only these have been run.
    ∀ pre p post, L = pre ++ .run p :: post →
      Agenda.last pre p = some (.set p) ∨ Agenda.Untouched pre p ∧ p ∈ above

theorem synchronized_of_path {s t : JobWorld} (hinv : JobInv s)
    (hframes : s.frames = .synchronize ref :: below)
    (hpath : jobSystem.PathUnder (Within ref below) s t)
    (hpeek : t.group.peekJob = some ref) : Synchronized ref s t := by
  have hduring := during_of_path hinv hframes hpath
  obtain ⟨L, hlog, hL⟩ := hduring.log
  have hhead : (Agenda.pending (s.group.log ++ L)).head? = some ref := by
    rw [← hlog, ← hduring.inv.group.list.first]
    exact hpeek
  -- The mark has not been run, since it is pending and has not been set in the interval.
  have hlast := Agenda.mem_pending_iff.mp (List.mem_of_mem_head? hhead)
  have hun : Agenda.Untouched L ref := by
    rw [Agenda.untouched_iff_last]
    cases he : Agenda.last L ref with
    | none => rfl
    | some e =>
      obtain ⟨x, y, rfl, hsubject, -⟩ := Agenda.exists_of_last he
      obtain rfl := hL e (List.mem_append_right _ List.mem_cons_self) hsubject
      cases (Agenda.last_append he).symm.trans hlast
  have hmem : ref ∈ s.group.due :=
    Agenda.mem_pending_iff.mpr ((Agenda.last_append_of_untouched hun).symm.trans hlast)
  obtain ⟨above, behind, hdue⟩ := List.append_of_mem hmem
  obtain ⟨hend, habove, hset, hrun⟩ :=
    (hlog ▸ hduring.inv.group.runsFirst).interval hdue hun hhead
  refine ⟨L, above, behind, hlog, hdue ▸ hinv.group.list, ?_, hun, habove, hset, hrun⟩
  rw [← hend, ← hlog]
  exact hduring.inv.group.list

/-- A call returns only when its mark is the first job, unless the reactor is to quit. -/
theorem peekJob_of_returned (h : StepKind w w') (hframes : w.frames = .synchronize ref :: below)
    (hframes' : w'.frames = below) (hexiting : w'.exiting = false) :
    w'.group = w.group ∧ w.group.peekJob = some ref := by
  have hlength := congrArg List.length hframes
  have hlength' := congrArg List.length hframes'
  rw [List.length_cons] at hlength
  cases h with
  | calls _ heq =>
    rw [heq, List.length_cons] at hlength'
    omega
  | returns _ heq hgroup _ hsame hsync =>
    obtain ⟨rfl, -⟩ := List.cons.inj (heq.symm.trans hframes)
    refine ⟨hgroup, (hsync ref rfl).resolve_left fun hquit => ?_⟩
    exact Bool.false_ne_true (hexiting.symm.trans (hsame.trans hquit))
  | works _ _ heq =>
    rw [heq] at hlength'
    omega
  | executes _ _ heq =>
    rw [heq, List.length_cons] at hlength'
    omega
  | stops heq =>
    rw [heq] at hlength'
    omega

/-- **Jobs and synchronisation.** In every run, whatever handlers do: the assertions of `BPending.c`
hold; a job that is run was set, has since then neither been run, set again, unset nor freed, and
all that was set after it has been run or cancelled; and when a call of `BReactor_Synchronize(ref)`
returns and the reactor is not to quit, it has run the jobs that were set after `ref`, except those
that were cancelled, `ref` is the first job, and the jobs behind it that were not touched are as they
were. -/
theorem jobs_last_set_first_run (h : jobSystem.Reachable w) :
    (w.fault = none ∨ w.fault = some .noJobs ∧ ¬ w.group.HasJobs) ∧
    (∀ pre p post, w.group.log = pre ++ .run p :: post →
      ∃ x y, pre = x ++ .set p :: y ∧ Agenda.Untouched y p ∧
        ∀ q, Agenda.last y q ≠ some (.set q)) ∧
    ∀ ref below t t', w.frames = .synchronize ref :: below →
      jobSystem.PathUnder (Within ref below) w t → t.frames = .synchronize ref :: below →
      jobSystem.next t .iterate = some t' → t'.frames = below → t'.exiting = false →
      Synchronized ref w t' := by
  have hinv := jobInv_of_reachable h
  refine ⟨hinv.fault, fun _ _ _ hrun => hinv.group.runsFirst.exists_set hrun, ?_⟩
  intro ref below t t' hframes hpath ht hnext ht' hexiting
  have hduring := during_of_path hinv hframes hpath
  obtain ⟨hgroup, hpeek⟩ :=
    peekJob_of_returned (hduring.inv.stepKind hnext) ht ht' hexiting
  obtain ⟨hsync⟩ := synchronized_of_path hinv hframes hpath hpeek
  rw [← hgroup] at hsync
  exact ⟨hsync⟩

/-- Job `9` is set and then the mark `1`. The handler of job `2` moves job `9` and synchronises with
a mark of its own, which runs it. -/
theorem jobs_last_set_first_run_nested : ∃ w t t', jobSystem.Reachable w ∧
    w.frames = [.synchronize 1, .code] ∧
    jobSystem.PathUnder (Within 1 [.code]) w t ∧ t.frames = [.synchronize 1, .code] ∧
    jobSystem.next t .iterate = some t' ∧ t'.frames = [.code] ∧ t'.exiting = false ∧
    t'.group.log = w.group.log ++ [.run 2, .set 3, .set 9, .run 9, .cancel 3] ∧
    Synchronized 1 w t' := by
  obtain ⟨w, t, hw, hpath, hframes, ht, hreturn⟩ :=
    System.exists_of_runUnder_runUnder jobSystem (fun _ _ => True) (Within 1 [.code])
      (fun w t => w.frames = [.synchronize 1, .code] ∧ t.frames = [.synchronize 1, .code] ∧
        (jobSystem.next t .iterate).any (fun t' => decide (t'.frames = [.code] ∧
          t'.exiting = false ∧
          t'.group.log = w.group.log ++
            ([.run 2, .set 3, .set 9, .run 9, .cancel 3] : List (Agenda.Event ℕ)))) = true)
      [.op (.init 9), .op (.set 9), .op (.init 1), .op (.set 1), .op (.init 2), .op (.set 2),
        .callSynchronize 1]
      [.iterate, .op (.init 3), .op (.set 3), .op (.set 9), .callSynchronize 3, .iterate, .done,
        .iterate, .op (.free 3), .done]
      (by decide +kernel)
  obtain ⟨t', hnext, ht'⟩ := (Option.any_eq_true _ _).mp hreturn
  obtain ⟨hframes', hexiting, hlog⟩ := of_decide_eq_true ht'
  have hsync := (jobs_last_set_first_run hw.reachable).2.2 1 [.code] t t' hframes hpath ht
    hnext hframes' hexiting
  exact ⟨w, t, t', hw.reachable, hframes, hpath, ht, hnext, hframes', hexiting, hlog, hsync⟩

end Tun2Socks.Reactor
