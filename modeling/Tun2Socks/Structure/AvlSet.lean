import Tun2Socks.Framework.System
import Tun2Socks.Structure.AvlMoves

/-!
# Balanced trees as ordered sets

The user of an intrusive tree owns the nodes and the values in them, compares values by an order
of its own, and calls the tree to insert a node that is not in it or to remove one that is. Two
systems describe this.

* `setSystem` is the user and the memory, for any `Operations` on it. The user keeps track of the
  nodes it has inserted (`members`) and of what the insertions returned (`results`).
* `treeSystem` is what the tree is for: a balanced tree in order. An insertion goes to the place
  where the search ends, a removal takes out the element that the search for its value finds.

`Operations.Correct` is what the functions of a tree have to do on the memory. If they do it, the
first system does step by step what the second does (`rep_run`): no fault, the same results, and
the memory represents the tree. What is true of the trees of `treeSystem` (`TreeInv`) is therefore
true of the memory.
-/

namespace Tun2Socks.Structure.Avl

open Framework AvlTree Function

/-- The functions of a tree: `insert` gives the result and `*ref`. The loops in them take a number
of rounds. -/
structure Operations where
  insert : (ℕ → Ordering) → ℕ → ℕ → M (Bool × Option ℕ)
  remove : ℕ → ℕ → M Unit
  getFirst : ℕ → M (Option ℕ)
  getNext : ℕ → ℕ → M (Option ℕ)

/-- `for (n = first; n; n = next(n))`, with the nodes in the order in which they come. -/
def enumerate (next : ℕ → M (Option ℕ)) : ℕ → Option ℕ → M (List ℕ)
  | _, none => return []
  | 0, some _ => throw .diverges
  | fuel + 1, some n => do
    let l ← enumerate next fuel (← next n)
    return n :: l

/-- What the functions do to a memory that holds a balanced tree. -/
structure Operations.Correct (ops : Operations) : Prop where
  insert (cut : ℕ → Ordering) {base s : Memory} {fuel a : ℕ} {t : AvlTree ℕ} :
    Holds base s t → t.Balanced → a ∉ t.toList → t.toList.length ≤ fuel →
      wp (ops.insert cut fuel a) (fun res s' =>
        match descend cut t [] with
        | (ctx, nil) => res = (true, parentOf ctx) ∧
            Holds base s' (AvlTree.rebalance ctx (leaf a) 1)
        | (_, node _ c _ _) => res = (false, some c) ∧ s' = s) s
  remove {base s : Memory} {ctx : List (Frame ℕ)} {fuel a : ℕ} {b : ℤ} {l r : AvlTree ℕ} :
    Holds base s (plug ctx (node l a b r)) → (plug ctx (node l a b r)).Balanced →
      (plug ctx (node l a b r)).toList.length ≤ fuel →
      wp (ops.remove fuel a) (fun _ s' => ∃ base' : Memory,
        (∀ x ≠ a, base'.node x = base.node x) ∧ Holds base' s' (removeAt ctx b l r)) s
  getFirst {base s : Memory} {fuel : ℕ} {t : AvlTree ℕ} :
    Holds base s t → t.toList.length ≤ fuel →
      wp (ops.getFirst fuel) (fun res s' => s' = s ∧ res = t.toList.head?) s
  getNext {base s : Memory} {ctx : List (Frame ℕ)} {fuel a : ℕ} {b : ℤ} {l r : AvlTree ℕ} :
    Holds base s (plug ctx (node l a b r)) → (plug ctx (node l a b r)).toList.length ≤ fuel →
      wp (ops.getNext fuel a) (fun res s' => s' = s ∧ res = (r.toList ++ after ctx).head?) s

/-! ### Enumeration -/

section Enumeration

variable {base s : Memory} {next : ℕ → M (Option ℕ)} {fuel : ℕ}

/-- From any place of a list on, if the successor of each element is found. -/
theorem enumerate_spec {whole : List ℕ}
    (hnext : ∀ front n l, whole = front ++ n :: l →
      wp (next n) (fun res s' => s' = s ∧ res = l.head?) s)
    {front l : List ℕ} (h : whole = front ++ l) (hfuel : l.length ≤ fuel) :
    wp (enumerate next fuel l.head?) (fun res s' => s' = s ∧ res = l) s := by
  induction l generalizing front fuel with
  | nil =>
    cases fuel <;> exact (wp_pure _).mpr ⟨rfl, rfl⟩
  | cons n l ih =>
    cases fuel with
    | zero => cases hfuel
    | succ =>
      rw [List.head?_cons, enumerate, wp_bind]
      refine wp_mono (hnext front n l h) ?_
      rintro _ _ ⟨rfl, rfl⟩
      rw [wp_bind]
      have h' : whole = (front ++ [n]) ++ l := by
        rw [h, List.append_assoc, List.singleton_append]
      refine wp_mono (ih h' (Nat.le_of_succ_le_succ hfuel)) ?_
      rintro _ _ ⟨rfl, rfl⟩
      exact (wp_pure _).mpr ⟨rfl, rfl⟩

/-- The elements of a tree, from one end to the other. -/
theorem Holds.enumerate {t : AvlTree ℕ} (h : Holds base s t) (side : Bool)
    (hnext : ∀ ctx x y n b, t = plug ctx (branch side x y n b) →
      wp (next n) (fun res s' => s' = s ∧ res = (x.walk (!side) ++ rest (!side) ctx).head?) s)
    (hfuel : t.toList.length ≤ fuel) :
    wp (enumerate next fuel (t.walk (!side)).head?)
      (fun res s' => s' = s ∧ res = t.walk (!side)) s := by
  have hnodup := h.nodup
  refine enumerate_spec (fun front n l hl => ?_) (List.nil_append _).symm
    ((length_walk (!side) t).le.trans hfuel)
  have hmem : n ∈ t.toList := by
    have hwalk : n ∈ t.walk (!side) := by
      rw [hl]
      exact List.mem_append_right _ List.mem_cons_self
    cases side
    · exact List.mem_reverse.mp hwalk
    · exact hwalk
  obtain ⟨ctx, x, y, b, rfl⟩ := exists_plug_branch side hmem
  rw [eq_of_walk_plug hnodup hl]
  exact hnext ctx x y n b rfl

/-- The nodes in the order in which `GetFirst` and `GetNext` give them. -/
def Operations.ascending (ops : Operations) (fuel : ℕ) : M (List ℕ) := do
  Avl.enumerate (ops.getNext fuel) fuel (← ops.getFirst fuel)

theorem Operations.Correct.ascending {ops : Operations} (hops : ops.Correct) {t : AvlTree ℕ}
    (h : Holds base s t) (hfuel : t.toList.length ≤ fuel) :
    wp (ops.ascending fuel) (fun res s' => s' = s ∧ res = t.toList) s := by
  rw [Operations.ascending, wp_bind]
  refine wp_mono (hops.getFirst h hfuel) ?_
  rintro _ s' ⟨rfl, rfl⟩
  refine h.enumerate true (fun ctx x y n b ht => ?_) hfuel
  subst ht
  exact hops.getNext h hfuel

end Enumeration

/-! ### The two systems -/

/-- What the user does: it writes a value into a node and inserts it, or it removes a node. -/
inductive SetLabel (α : Type)
  | insert (node : ℕ) (v : α)
  | remove (node : ℕ)

structure SetWorld (α : Type) where
  memory : Memory
  value : ℕ → α
  members : List ℕ
  results : List (Bool × Option ℕ)
  fault : Option Fault

namespace SetWorld

variable {α : Type}

/-- The number of rounds that loops are given. -/
def fuel (w : SetWorld α) : ℕ := w.members.length + 1

/-- The comparison of the value of a node with that of another. -/
def cut (cmp : α → α → Ordering) (w : SetWorld α) (n c : ℕ) : Ordering :=
  cmp (w.value n) (w.value c)

/-- The user writes a value into a node. -/
def write (w : SetWorld α) (n : ℕ) (v : α) : SetWorld α :=
  { w with value := update w.value n v }

def inserted (w : SetWorld α) (n : ℕ) : Except Fault ((Bool × Option ℕ) × Memory) → SetWorld α
  | .error f => { w with fault := some f }
  | .ok (res, memory) =>
    { w with
      memory := memory
      members := if res.1 then n :: w.members else w.members
      results := w.results ++ [res] }

def removed (w : SetWorld α) (n : ℕ) : Except Fault (Unit × Memory) → SetWorld α
  | .error f => { w with fault := some f }
  | .ok (_, memory) => { w with memory := memory, members := w.members.erase n }

def insert (ops : Operations) (cmp : α → α → Ordering) (w : SetWorld α) (n : ℕ) : SetWorld α :=
  w.inserted n ((ops.insert (w.cut cmp n) w.fuel n).run w.memory)

def remove (ops : Operations) (w : SetWorld α) (n : ℕ) : SetWorld α :=
  w.removed n ((ops.remove w.fuel n).run w.memory)

def next (ops : Operations) (cmp : α → α → Ordering) (w : SetWorld α) :
    SetLabel α → Option (SetWorld α)
  | .insert n v => if n ∈ w.members then none else some ((w.write n v).insert ops cmp n)
  | .remove n => if n ∈ w.members then some (w.remove ops n) else none

end SetWorld

/-- The nodes and their values are arbitrary at first, and the tree is empty. -/
def setSystem {α : Type} (ops : Operations) (cmp : α → α → Ordering) (nodes : ℕ → Node)
    (values : ℕ → α) : System (SetWorld α) (SetLabel α) where
  init := ⟨⟨none, nodes⟩, values, [], [], none⟩
  next := SetWorld.next ops cmp

/-- The ordered set: a tree, the values of all nodes, and the results. -/
structure TreeState (α : Type) where
  tree : AvlTree ℕ
  value : ℕ → α
  results : List (Bool × Option ℕ)

namespace TreeState

variable {α : Type} (cmp : α → α → Ordering)

/-- Where the search for the value of a node ends. -/
def place (s : TreeState α) (n : ℕ) : List (Frame ℕ) × AvlTree ℕ :=
  descend (fun c => cmp (s.value n) (s.value c)) s.tree []

def write (s : TreeState α) (n : ℕ) (v : α) : TreeState α :=
  { s with value := update s.value n v }

def insert (s : TreeState α) (n : ℕ) : TreeState α :=
  match s.place cmp n with
  | (ctx, nil) =>
    { s with tree := rebalance ctx (leaf n) 1, results := s.results ++ [(true, parentOf ctx)] }
  | (_, node _ c _ _) => { s with results := s.results ++ [(false, some c)] }

def remove (s : TreeState α) (n : ℕ) : TreeState α :=
  match s.place cmp n with
  | (_, nil) => s
  | (ctx, node l _ b r) => { s with tree := removeAt ctx b l r }

def next (s : TreeState α) : SetLabel α → Option (TreeState α)
  | .insert n v => if n ∈ s.tree.toList then none else some ((s.write n v).insert cmp n)
  | .remove n => if n ∈ s.tree.toList then some (s.remove cmp n) else none

end TreeState

def treeSystem {α : Type} (cmp : α → α → Ordering) (values : ℕ → α) :
    System (TreeState α) (SetLabel α) where
  init := ⟨nil, values, []⟩
  next := TreeState.next cmp

/-! ### The abstract trees are balanced and in order -/

section Invariant

variable {α : Type} {cmp : α → α → Ordering} {s s' : TreeState α}

structure TreeInv (cmp : α → α → Ordering) (s : TreeState α) : Prop where
  balanced : s.tree.Balanced
  ordered : s.tree.Ordered cmp s.value

/-- A value is written into a node outside of the tree. -/
theorem TreeInv.write (h : TreeInv cmp s) {n : ℕ} (hn : n ∉ s.tree.toList) (v : α) :
    TreeInv cmp (s.write n v) where
  balanced := h.balanced
  ordered := by
    refine List.Pairwise.imp_of_mem (fun {x y} hx hy hlt => ?_) h.ordered
    have h_x : x ≠ n := fun heq => hn (heq ▸ hx)
    have h_y : y ≠ n := fun heq => hn (heq ▸ hy)
    simp only [TreeState.write, update_of_ne h_x, update_of_ne h_y]
    exact hlt

/-- The tree around the place of a search. -/
theorem TreeState.plug_place {n : ℕ} {ctx : List (Frame ℕ)} {t : AvlTree ℕ}
    (h : s.place cmp n = (ctx, t)) : s.tree = plug ctx t := by
  have hplug := plug_descend (fun c => cmp (s.value n) (s.value c)) s.tree []
  rw [← TreeState.place, h, plug_nil] at hplug
  exact hplug.symm

theorem TreeInv.remove (h : TreeInv cmp s) (n : ℕ) : TreeInv cmp (s.remove cmp n) := by
  rw [TreeState.remove]
  split
  · exact h
  · rename_i ctx l c b r hplace
    have hbalanced := h.balanced
    have hordered := h.ordered
    rw [TreeState.plug_place hplace] at hbalanced hordered
    exact ⟨balanced_removeAt hbalanced, ordered_removeAt hordered⟩

variable [Std.TransCmp cmp]

theorem TreeInv.insert (h : TreeInv cmp s) (n : ℕ) : TreeInv cmp (s.insert cmp n) := by
  rw [TreeState.insert]
  split
  · rename_i ctx hplace
    have hbalanced := h.balanced
    rw [TreeState.plug_place hplace] at hbalanced
    exact ⟨balanced_insert hbalanced n, ordered_insert h.ordered hplace⟩
  · exact ⟨h.balanced, h.ordered⟩

end Invariant

/-! ### Refinement -/

section Refinement

variable {α : Type} {ops : Operations} {cmp : α → α → Ordering} {w : SetWorld α}
  {s : TreeState α}

/-- The memory represents the tree, and the user knows its elements. -/
structure SetWorld.Rep (cmp : α → α → Ordering) (w : SetWorld α) (s : TreeState α) : Prop where
  inv : TreeInv cmp s
  memory : Represents w.memory s.tree
  members : s.tree.toList.Perm w.members
  value : w.value = s.value
  results : w.results = s.results
  fault : w.fault = none

theorem SetWorld.Rep.length_le (h : w.Rep cmp s) : s.tree.toList.length ≤ w.fuel :=
  h.members.length_eq.le.trans (Nat.le_succ _)

theorem SetWorld.Rep.cut_eq (h : w.Rep cmp s) (n : ℕ) :
    descend (w.cut cmp n) s.tree [] = s.place cmp n := by
  rw [TreeState.place, ← h.value]
  rfl

theorem SetWorld.Rep.ordered (h : w.Rep cmp s) : s.tree.Ordered cmp w.value := by
  rw [h.value]
  exact h.inv.ordered

theorem SetWorld.Rep.write (h : w.Rep cmp s) {n : ℕ} (hn : n ∉ w.members) (v : α) :
    (w.write n v).Rep cmp (s.write n v) where
  inv := h.inv.write (mt h.members.mem_iff.mp hn) v
  memory := h.memory
  members := h.members
  value := by simp only [SetWorld.write, TreeState.write, h.value]
  results := h.results
  fault := h.fault

theorem rep_init (nodes : ℕ → Node) (values : ℕ → α) :
    (setSystem ops cmp nodes values).init.Rep cmp (treeSystem cmp values).init where
  inv := ⟨trivial, .nil⟩
  memory := ⟨rfl, fun _ h => absurd h (Multiset.notMem_zero _), Multiset.nodup_zero, fun _ _ => rfl⟩
  members := .nil
  value := rfl
  results := rfl
  fault := rfl

variable [Std.TransCmp cmp]

theorem SetWorld.Rep.insert (hops : ops.Correct) (h : w.Rep cmp s) {n : ℕ}
    (hn : n ∉ w.members) : (w.insert ops cmp n).Rep cmp (s.insert cmp n) := by
  have hinv := h.inv.insert n
  obtain ⟨⟨res, memory⟩, hrun, hres⟩ := hops.insert (w.cut cmp n) h.memory h.inv.balanced
    (mt h.members.mem_iff.mp hn) h.length_le
  rw [SetWorld.insert, hrun, SetWorld.inserted]
  rw [h.cut_eq] at hres
  rw [TreeState.insert] at hinv ⊢
  split at hres
  · rename_i ctx hplace
    obtain ⟨rfl, hholds⟩ := hres
    rw [hplace] at hinv
    refine ⟨hinv, hholds.represents, ?_, h.value, congrArg (· ++ _) h.results, h.fault⟩
    have hperm := h.members
    rw [TreeState.plug_place hplace] at hperm
    exact (perm_insert ctx n).trans (hperm.cons n)
  · rename_i ctx l c b r hplace
    obtain ⟨rfl, rfl⟩ := hres
    rw [hplace] at hinv
    exact ⟨hinv, h.memory, h.members, h.value, congrArg (· ++ _) h.results, h.fault⟩

/-- The element that the search for `n` finds is removed, and it is `n`. -/
theorem SetWorld.Rep.remove (hops : ops.Correct) (h : w.Rep cmp s) {n : ℕ}
    (hn : n ∈ w.members) : (w.remove ops n).Rep cmp (s.remove cmp n) := by
  have hinv := h.inv.remove n
  obtain ⟨ctx, l, b, r, hplace⟩ : ∃ ctx l b r, s.place cmp n = (ctx, node l n b r) :=
    h.inv.ordered.descend_of_eq (h.members.mem_iff.mpr hn) Std.ReflCmp.compare_self
  have htree := TreeState.plug_place hplace
  have hmemory := h.memory
  have hbalanced := h.inv.balanced
  have hlen := h.length_le
  have hperm := h.members
  rw [htree] at hmemory hbalanced hlen hperm
  obtain ⟨⟨_, memory⟩, hrun, base, -, hholds⟩ := hops.remove hmemory hbalanced hlen
  rw [SetWorld.remove, hrun, SetWorld.removed]
  rw [TreeState.remove, hplace] at hinv ⊢
  refine ⟨hinv, hholds.represents, ?_, h.value, h.results, h.fault⟩
  have herase := hperm.trans (List.perm_cons_erase hn)
  exact ((perm_removeAt ctx n b l r).trans herase).cons_inv

theorem SetWorld.Rep.step (hops : ops.Correct) (h : w.Rep cmp s) (l : SetLabel α) :
    Option.Rel (SetWorld.Rep cmp) (w.next ops cmp l) (s.next cmp l) := by
  cases l with
  | insert n v =>
    rw [SetWorld.next, TreeState.next]
    by_cases hn : n ∈ w.members
    · rw [if_pos hn, if_pos (h.members.mem_iff.mpr hn)]
      exact .none
    · rw [if_neg hn, if_neg (mt h.members.mem_iff.mp hn)]
      exact .some ((h.write hn v).insert hops hn)
  | remove n =>
    rw [SetWorld.next, TreeState.next]
    by_cases hn : n ∈ w.members
    · rw [if_pos hn, if_pos (h.members.mem_iff.mpr hn)]
      exact .some (h.remove hops hn)
    · rw [if_neg hn, if_neg (mt h.members.mem_iff.mp hn)]
      exact .none

/-- **Refinement.** The memory follows the abstract tree along every sequence of calls. -/
theorem rep_run (hops : ops.Correct) (nodes : ℕ → Node) (values : ℕ → α)
    (ls : List (SetLabel α)) :
    Option.Rel (SetWorld.Rep cmp)
      ((setSystem ops cmp nodes values).run (setSystem ops cmp nodes values).init ls)
      ((treeSystem cmp values).run (treeSystem cmp values).init ls) :=
  System.rel_run (fun _ _ l h => h.step hops l) (rep_init nodes values) ls

theorem exists_rep_of_reachable (hops : ops.Correct) {nodes : ℕ → Node} {values : ℕ → α}
    (h : (setSystem ops cmp nodes values).Reachable w) : ∃ s, w.Rep cmp s := by
  obtain ⟨ls, hrun⟩ := h
  have hrel : Option.Rel (SetWorld.Rep cmp) _ _ := rep_run hops nodes values ls
  rw [hrun] at hrel
  generalize (treeSystem cmp values).run (treeSystem cmp values).init ls = o at hrel
  cases hrel with
  | some hrep => exact ⟨_, hrep⟩

end Refinement

/-! ### What a call does to the memory -/

/-- The large memory has the elements of the small one and `n`, and differs in no node outside of
its tree. -/
def OneMore (small large : Memory) (n : ℕ) : Prop :=
  ∃ t t', Represents small t ∧ Represents large t' ∧ n ∈ t'.toList ∧
    t.toList = t'.toList.erase n ∧ ∀ x ∉ t'.toList, small.node x = large.node x

end Tun2Socks.Structure.Avl
