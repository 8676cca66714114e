import Mathlib

/-!
# Labelled transition systems with an executable step

The systems of this development are deterministic given their label: the label
names the thread that moves and every choice the environment makes with the move,
so one step is a partial function `next : State → Label → Option State`, and a run
is a list of labels.

* `System.run` executes a list of labels; `System.Reachable` is what some run
  reaches.
* `System.Exec C ls s` is a run of labels `ls` to `s` all of whose steps meet the
  condition `C`, read at the state before the step and the label. It is the form in
  which a safety statement is given for the runs that avoid a known defect.
* `System.Endless` is a run without an end, for statements about what happens eventually.
* `System.ReachableUnder.invariant` is the induction behind every safety result, and
  `System.Quiescent` the states in which the program itself has nothing left to do.
-/

namespace Tun2Socks.Framework

/-- A guarded step. -/
theorem guard_eq_some {α : Type} {p : Prop} [Decidable p] {a b : α} :
    (if p then some a else none) = some b ↔ p ∧ a = b := by
  rw [Option.ite_none_right_eq_some, Option.some_inj]

/-- A transition system: the label determines the step. -/
structure System (State Label : Type) where
  /-- The unique initial state. -/
  init : State
  /-- The step a label performs, `none` when it is not enabled. -/
  next : State → Label → Option State

namespace System

variable {State Label : Type} (sys : System State Label)

/-- Execute a list of labels; `none` as soon as one of them is not enabled. -/
def run (s : State) : List Label → Option State
  | [] => some s
  | l :: ls => (sys.next s l).bind fun s' => run s' ls

/-- `Exec C ls s`: the labels `ls` lead from the initial state to `s`, and every
step on the way meets `C`. -/
inductive Exec (C : State → Label → Prop) : List Label → State → Prop
  | nil : Exec C [] sys.init
  | snoc {ls : List Label} {s s' : State} {l : Label} :
      Exec C ls s → C s l → sys.next s l = some s' → Exec C (ls ++ [l]) s'

/-- The states some run reaches. -/
def Reachable (s : State) : Prop := ∃ ls, sys.run sys.init ls = some s

/-- The states reached by a run whose steps all meet `C`. -/
def ReachableUnder (C : State → Label → Prop) (s : State) : Prop := ∃ ls, sys.Exec C ls s

/-- Execute a list of labels while every step meets `C`. -/
def runUnder (C : State → Label → Prop) [∀ s l, Decidable (C s l)] (s : State) :
    List Label → Option State
  | [] => some s
  | l :: ls => if C s l then (sys.next s l).bind fun s' => runUnder C s' ls else none

/-- An interval of a run: every step from `s` to `t` meets `C`. -/
def PathUnder (C : State → Label → Prop) : State → State → Prop :=
  Relation.ReflTransGen fun s t => ∃ l, C s l ∧ sys.next s l = some t

/-- No label of the class `internal` is enabled. -/
def Quiescent (internal : Label → Prop) (s : State) : Prop :=
  ∀ l, internal l → sys.next s l = none

@[simp] theorem run_cons (s : State) (l : Label) (ls : List Label) :
    sys.run s (l :: ls) = (sys.next s l).bind fun s' => sys.run s' ls := rfl

theorem run_append (s : State) (ls ls' : List Label) :
    sys.run s (ls ++ ls') = (sys.run s ls).bind fun s' => sys.run s' ls' := by
  induction ls generalizing s with
  | nil => rfl
  | cons l _ ih =>
    rw [List.cons_append, run_cons, run_cons]
    cases h : sys.next s l with
    | none => rfl
    | some s' => exact ih s'

theorem run_concat (s : State) (ls : List Label) (l : Label) :
    sys.run s (ls ++ [l]) = (sys.run s ls).bind fun s' => sys.next s' l := by
  rw [run_append]
  congr 1
  funext s'
  rw [run_cons]
  cases sys.next s' l <;> rfl

variable {sys}

/-- **Run induction.** What holds initially and is preserved by every step that
meets `C` holds after every run whose steps meet `C`. The step case may use that
the state before the step is itself reached. -/
theorem ReachableUnder.invariant {C : State → Label → Prop} {Inv : State → Prop}
    (hinit : Inv sys.init)
    (hstep : ∀ s l s', Inv s → C s l → sys.next s l = some s' → Inv s')
    {s : State} (h : sys.ReachableUnder C s) : Inv s := by
  obtain ⟨ls, h⟩ := h
  induction h with
  | nil => exact hinit
  | snoc _ hC hnext ih => exact hstep _ _ _ ih hC hnext

/-- A run is an execution under every condition that its steps meet. -/
theorem exec_of_run {C : State → Label → Prop} {ls : List Label} {s : State}
    (h : sys.run sys.init ls = some s)
    (hC : ∀ pre l t, pre ++ [l] <+: ls → sys.run sys.init pre = some t → C t l) :
    sys.Exec C ls s := by
  induction ls using List.reverseRecOn generalizing s with
  | nil =>
    obtain rfl : sys.init = s := Option.some.inj h
    exact Exec.nil
  | append_singleton ls l ih =>
    rw [run_concat] at h
    obtain ⟨t, ht, hnext⟩ := Option.bind_eq_some_iff.mp h
    refine Exec.snoc (ih ht fun pre l' t' hpre => ?_) (hC ls l t (List.prefix_refl _) ht) hnext
    exact hC pre l' t' (hpre.trans (List.prefix_append ls [l]))

theorem Exec.append_runUnder {C : State → Label → Prop} [∀ s l, Decidable (C s l)] {s t : State}
    {pre ls : List Label} (hpre : sys.Exec C pre s) (h : sys.runUnder C s ls = some t) :
    sys.Exec C (pre ++ ls) t := by
  induction ls generalizing s pre with
  | nil =>
    obtain rfl : s = t := Option.some.inj h
    rwa [List.append_nil]
  | cons _ _ ih =>
    simp only [runUnder, Option.ite_none_right_eq_some, Option.bind_eq_some_iff] at h
    obtain ⟨hC, s', hnext, h⟩ := h
    have := ih (hpre.snoc hC hnext) h
    rwa [List.append_assoc] at this

/-- A checked run reaches its state under the condition it checks. -/
theorem reachableUnder_of_runUnder {C : State → Label → Prop} [∀ s l, Decidable (C s l)]
    {ls : List Label} {s : State} (h : sys.runUnder C sys.init ls = some s) :
    sys.ReachableUnder C s :=
  ⟨[] ++ ls, Exec.nil.append_runUnder h⟩

/-- **Simulation.** Two systems over the same labels whose steps keep a relation, and are enabled
together, run together. -/
theorem rel_run {State' : Type} {sys' : System State' Label} {R : State → State' → Prop}
    (hstep : ∀ s t l, R s t → Option.Rel R (sys.next s l) (sys'.next t l)) {s : State}
    {t : State'} (h : R s t) (ls : List Label) :
    Option.Rel R (sys.run s ls) (sys'.run t ls) := by
  induction ls generalizing s t with
  | nil => exact .some h
  | cons l _ ih =>
    have hrel := hstep s t l h
    rw [run_cons, run_cons]
    generalize sys.next s l = o at hrel ⊢
    generalize sys'.next t l = o' at hrel ⊢
    cases hrel with
    | none => exact .none
    | some h' => exact ih h'

/-- A run that ends in a state with a decidable property, found by executing it. -/
theorem exists_of_run (sys : System State Label) (P : State → Prop) [DecidablePred P]
    (ls : List Label) (h : (sys.run sys.init ls).any (fun s => decide (P s)) = true) :
    ∃ s, sys.Reachable s ∧ P s := by
  obtain ⟨s, hs, hP⟩ := (Option.any_eq_true _ _).mp h
  exact ⟨s, ⟨ls, hs⟩, of_decide_eq_true hP⟩

/-- The same for a run whose steps are checked on the way. -/
theorem exists_of_runUnder (sys : System State Label) (C : State → Label → Prop)
    [∀ s l, Decidable (C s l)] (P : State → Prop) [DecidablePred P] (ls : List Label)
    (h : (sys.runUnder C sys.init ls).any (fun s => decide (P s)) = true) :
    ∃ s, sys.ReachableUnder C s ∧ P s := by
  obtain ⟨s, hs, hP⟩ := (Option.any_eq_true _ _).mp h
  exact ⟨s, reachableUnder_of_runUnder hs, of_decide_eq_true hP⟩

/-- **Run induction** over all runs. -/
theorem Reachable.invariant {Inv : State → Prop} (hinit : Inv sys.init)
    (hstep : ∀ s l s', Inv s → sys.next s l = some s' → Inv s')
    {s : State} (h : sys.Reachable s) : Inv s := by
  obtain ⟨ls, h⟩ := h
  exact ReachableUnder.invariant hinit (fun s l s' hI _ hn => hstep s l s' hI hn)
    ⟨ls, exec_of_run h fun _ _ _ _ _ => trivial⟩

theorem Reachable.step {s s' : State} {l : Label} (h : sys.Reachable s)
    (hnext : sys.next s l = some s') : sys.Reachable s' := by
  obtain ⟨ls, h⟩ := h
  exact ⟨ls ++ [l], by rw [run_concat, h]; exact hnext⟩

theorem ReachableUnder.reachable {C : State → Label → Prop} {s : State}
    (h : sys.ReachableUnder C s) : sys.Reachable s :=
  h.invariant ⟨[], rfl⟩ fun _ _ _ hreached _ hnext => hreached.step hnext

theorem pathUnder_of_runUnder {C : State → Label → Prop} [∀ s l, Decidable (C s l)]
    {ls : List Label} {s t : State} (h : sys.runUnder C s ls = some t) : sys.PathUnder C s t := by
  induction ls generalizing s with
  | nil =>
    obtain rfl : s = t := Option.some.inj h
    exact .refl
  | cons l _ ih =>
    simp only [runUnder, Option.ite_none_right_eq_some, Option.bind_eq_some_iff] at h
    obtain ⟨hC, s', hnext, h⟩ := h
    exact .head ⟨l, hC, hnext⟩ (ih h)

/-- An interval between two states with a decidable property, found by executing the run to it and
through it. -/
theorem exists_of_runUnder_runUnder (sys : System State Label) (C D : State → Label → Prop)
    [∀ s l, Decidable (C s l)] [∀ s l, Decidable (D s l)] (P : State → State → Prop)
    [∀ s t, Decidable (P s t)] (ls ls' : List Label)
    (h : (sys.runUnder C sys.init ls).any (fun s =>
      (sys.runUnder D s ls').any fun t => decide (P s t)) = true) :
    ∃ s t, sys.ReachableUnder C s ∧ sys.PathUnder D s t ∧ P s t := by
  obtain ⟨s, hs, h⟩ := (Option.any_eq_true _ _).mp h
  obtain ⟨t, ht, hP⟩ := (Option.any_eq_true _ _).mp h
  exact ⟨s, t, reachableUnder_of_runUnder hs, pathUnder_of_runUnder ht, of_decide_eq_true hP⟩

variable (sys)

/-- A run without an end. -/
structure Endless (run : ℕ → State) : Prop where
  init : run 0 = sys.init
  step : ∀ n, ∃ l, sys.next (run n) l = some (run (n + 1))

variable {sys}

theorem Endless.reachable {run : ℕ → State} (h : sys.Endless run) (n : ℕ) :
    sys.Reachable (run n) := by
  induction n with
  | zero => exact ⟨[], congrArg some h.init.symm⟩
  | succ n ih =>
    obtain ⟨l, hnext⟩ := h.step n
    exact ih.step hnext

end System

/-- States often keep a list that grows at its end, and name its elements by their position:
a new list has the old elements where they were, and one more. -/
theorem getElem?_concat {α : Type} {l : List α} {a b : α} {i : ℕ}
    (h : (l ++ [a])[i]? = some b) : l[i]? = some b ∨ i = l.length ∧ b = a := by
  rw [List.getElem?_append] at h
  split_ifs at h with hlt
  · exact .inl h
  · rw [List.getElem?_singleton] at h
    split_ifs at h with hzero
    exact .inr ⟨by omega, (Option.some.inj h).symm⟩

end Tun2Socks.Framework
