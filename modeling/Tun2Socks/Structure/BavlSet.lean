import Tun2Socks.Structure.AvlSet
import Tun2Socks.Structure.Bavl

/-!
# `BAVL` is an ordered set

The functions of `BAVL.h` do what a tree has to do (`correct`), so every sequence of calls follows
the abstract trees of `treeSystem`. `OrderedSet` collects what a user can rely on after any such
sequence: what the memory holds, what each function would return, and what it would leave.
-/

namespace Tun2Socks.Structure.Bavl

open Framework Avl AvlTree

/-- `BAVL_Insert`, `BAVL_Remove`, `BAVL_GetFirst` and `BAVL_GetNext`. -/
def operations : Operations where
  insert := insert
  remove := remove
  getFirst := getFirst
  getNext := getNext

theorem correct : operations.Correct where
  insert _ := Variant.insert_spec variant_correct
  remove := Variant.remove_spec variant_correct
  getFirst := getEnd_spec
  getNext := by
    intro base s ctx fuel a b l r h hfuel
    have hbranch : Holds base s (plug ctx (branch true r l a b)) := h
    exact neighbour_spec hbranch hfuel

/-- The nodes in the order in which `BAVL_GetLast` and `BAVL_GetPrev` give them. -/
def descending (fuel : ℕ) : M (List ℕ) := do
  enumerate (getPrev fuel) fuel (← getLast fuel)

theorem descending_spec {base s : Avl.Memory} {fuel : ℕ} {t : AvlTree ℕ} (h : Holds base s t)
    (hfuel : t.toList.length ≤ fuel) :
    wp (descending fuel) (fun res s' => s' = s ∧ res = t.toList.reverse) s := by
  rw [descending, wp_bind]
  refine wp_mono (getEnd_spec h hfuel) ?_
  rintro _ s' ⟨rfl, rfl⟩
  refine h.enumerate false (fun ctx x y n b ht => ?_) hfuel
  subst ht
  exact neighbour_spec h hfuel

/-! ### Search trees -/

section SearchTree

variable {α : Type} {cmp : α → α → Ordering} {value : ℕ → α} {m : Avl.Memory} {t : AvlTree ℕ}

/-- The memory holds a search tree: what every function needs, and what it leaves. -/
structure SearchTree (cmp : α → α → Ordering) (value : ℕ → α) (m : Avl.Memory) (t : AvlTree ℕ) :
    Prop where
  represents : Represents m t
  balanced : t.Balanced
  ordered : t.Ordered cmp value

namespace SearchTree

variable {fuel n c : ℕ}

section

variable (h : SearchTree cmp value m t)

include h

/-- Only the nodes of the tree and their values matter. -/
theorem congr {value' : ℕ → α} {m' : Avl.Memory} (hroot : m'.root = m.root)
    (hsame : ∀ x ∈ t.toList, m'.node x = m.node x ∧ value' x = value x) :
    SearchTree cmp value' m' t where
  represents := by
    have howns := h.represents.owns
    refine ⟨hroot.trans h.represents.root, fun c hc => ?_, howns.nodup, fun _ _ => rfl⟩
    have hmem := Multiset.mem_map_of_mem Prod.fst hc
    rw [keys_cells] at hmem
    exact (hsame c.1 hmem).1.trans (howns.has c hc)
  balanced := h.balanced
  ordered := h.ordered.imp_of_mem fun hx hy hlt => by
    rw [(hsame _ hx).2, (hsame _ hy).2]
    exact hlt

section

variable (hfuel : t.toList.length ≤ fuel)

include hfuel

theorem first :
    wp (getFirst fuel) (fun res m' => m' = m ∧ res = t.toList.head?) m :=
  correct.getFirst h.represents hfuel

theorem next {before behind : List ℕ} (hsplit : t.toList = before ++ n :: behind) :
    wp (getNext fuel n) (fun res m' => m' = m ∧ res = behind.head?) m := by
  have hn : n ∈ t.toList := by
    rw [hsplit]
    exact List.mem_append_right _ List.mem_cons_self
  have hnodup := h.represents.nodup
  obtain ⟨ctx, x, y, b, rfl⟩ := exists_plug_branch true hn
  rw [eq_of_walk_plug hnodup hsplit]
  exact correct.getNext h.represents hfuel

theorem remove_mem (hn : n ∈ t.toList) :
    wp (remove fuel n) (fun _ m' => ∃ t', SearchTree cmp value m' t' ∧
      t'.toList = t.toList.erase n ∧ ∀ x ∉ t.toList, m'.node x = m.node x) m := by
  obtain ⟨ctx, l, b, r, rfl⟩ := exists_plug hn
  refine wp_mono (Variant.remove_spec variant_correct h.represents h.balanced hfuel) ?_
  rintro _ m' ⟨base, hbase, hholds⟩
  have herase := erase_plug_node h.represents.nodup
  refine ⟨_, ⟨hholds.represents, balanced_removeAt h.balanced, ordered_removeAt h.ordered⟩,
    herase.symm, fun x hx => ?_⟩
  have h_x : x ∉ (removeAt ctx b l r).toList := fun hmem =>
    hx (List.mem_of_mem_erase (herase ▸ hmem))
  have hne : x ≠ n := fun heq => hx (heq ▸ hn)
  rw [hholds.same h_x, hbase x hne]

theorem walk_up :
    wp (operations.ascending fuel) (fun res m' => m' = m ∧ res = t.toList) m :=
  correct.ascending h.represents hfuel

theorem walk_down :
    wp (descending fuel) (fun res m' => m' = m ∧ res = t.toList.reverse) m :=
  descending_spec h.represents hfuel

end

end

variable [Std.TransCmp cmp]

theorem insert_equal (h : SearchTree cmp value m t) (hfuel : t.toList.length ≤ fuel)
    (hn : n ∉ t.toList) (hc : c ∈ t.toList) (heq : cmp (value n) (value c) = .eq) :
    wp (insert (fun c => cmp (value n) (value c)) fuel n)
      (fun res m' => res = (false, some c) ∧ m' = m) m := by
  obtain ⟨ctx, l, b, r, hplace⟩ := h.ordered.descend_of_eq hc heq
  refine wp_mono (Variant.insert_spec variant_correct h.represents h.balanced hn hfuel) ?_
  intro res m' hres
  rw [hplace] at hres
  exact hres

theorem insert_new (h : SearchTree cmp value m t) (hfuel : t.toList.length ≤ fuel)
    (hn : n ∉ t.toList) (hne : ∀ c ∈ t.toList, cmp (value n) (value c) ≠ .eq) :
    wp (insert (fun c => cmp (value n) (value c)) fuel n) (fun res m' => res.1 = true ∧
      ∃ t', SearchTree cmp value m' t' ∧ n ∈ t'.toList ∧ t.toList = t'.toList.erase n ∧
        ∀ x ∉ t'.toList, m'.node x = m.node x) m := by
  obtain ⟨ctx, hplace⟩ := h.ordered.descend_of_ne hne
  have hplug := plug_descend (fun c => cmp (value n) (value c)) t []
  rw [hplace, plug_nil] at hplug
  refine wp_mono (Variant.insert_spec variant_correct h.represents h.balanced hn hfuel) ?_
  intro res m' hres
  rw [hplace] at hres
  obtain ⟨rfl, hholds⟩ := hres
  have hbalanced := h.balanced
  rw [← hplug] at hbalanced hn
  refine ⟨rfl, _, ⟨hholds.represents, balanced_insert hbalanced n,
    ordered_insert h.ordered hplace⟩, ?_, ?_, fun x hx => hholds.same hx⟩
  · exact (perm_insert ctx n).mem_iff.mpr List.mem_cons_self
  · rw [erase_insert hn, hplug]

theorem lookup_iff (h : SearchTree cmp value m t) (hfuel : t.toList.length ≤ fuel) (v : α) :
    wp (lookupExact (fun c => cmp v (value c)) fuel)
      (fun res m' => m' = m ∧ ∀ c, res = some c ↔ c ∈ t.toList ∧ cmp v (value c) = .eq) m := by
  refine wp_mono (lookupExact_spec h.represents hfuel) ?_
  rintro res _ ⟨rfl, rfl⟩
  refine ⟨rfl, fun c => ?_⟩
  by_cases heq : ∃ c ∈ t.toList, cmp v (value c) = .eq
  · obtain ⟨d, hd, hv⟩ := heq
    obtain ⟨ctx, l, b, r, hplace⟩ := h.ordered.descend_of_eq hd hv
    rw [hplace]
    refine ⟨fun hsome => ?_, fun h_c => ?_⟩
    · cases hsome
      exact ⟨hd, hv⟩
    · exact congrArg some (h.ordered.eq_of_cmp hd h_c.1
        (Std.TransCmp.eq_trans (Std.OrientedCmp.eq_symm hv) h_c.2))
  · obtain ⟨ctx, hplace⟩ := h.ordered.descend_of_ne (v := v) fun c hc hv => heq ⟨c, hc, hv⟩
    rw [hplace]
    exact iff_of_false (Option.some_ne_none c).symm fun h_c => heq ⟨c, h_c⟩

end SearchTree

end SearchTree

/-! ### Every sequence of calls -/

/-- What holds between two calls of a user with the comparator `cmp`. -/
structure OrderedSet {α : Type} (cmp : α → α → Ordering) (w : SetWorld α) : Prop where
  /-- No `ASSERT` has failed, no null pointer was followed and every loop has ended. -/
  fault : w.fault = none
  /-- The links are those of a binary search tree of the members, with its balance factors. -/
  tree : ∃ t, Represents w.memory t ∧ t.Balanced ∧ t.Ordered cmp w.value ∧
    t.toList.Perm w.members
  /-- An equal element is returned, and nothing is written. -/
  insert_equal : ∀ n ∉ w.members, ∀ v, ∀ c ∈ w.members, cmp v (w.value c) = .eq →
    wp (insert ((w.write n v).cut cmp n) w.fuel n)
      (fun res m => res = (false, some c) ∧ m = w.memory) w.memory
  /-- Without an equal element, the node is added. -/
  insert_new : ∀ n ∉ w.members, ∀ v, (∀ c ∈ w.members, cmp v (w.value c) ≠ .eq) →
    wp (insert ((w.write n v).cut cmp n) w.fuel n)
      (fun res m => res.1 = true ∧ OneMore w.memory m n) w.memory
  remove : ∀ n ∈ w.members,
    wp (Bavl.remove w.fuel n) (fun _ m => OneMore m w.memory n) w.memory
  lookup : ∀ v, wp (lookupExact (fun c => cmp v (w.value c)) w.fuel)
    (fun res m => m = w.memory ∧
      ∀ c, res = some c ↔ c ∈ w.members ∧ cmp v (w.value c) = .eq) w.memory
  ascending : wp (operations.ascending w.fuel)
    (fun res m => m = w.memory ∧ res.Perm w.members ∧
      res.Pairwise fun x y => cmp (w.value x) (w.value y) = .lt) w.memory
  descending : wp (descending w.fuel)
    (fun res m => m = w.memory ∧ res.Perm w.members ∧
      res.Pairwise fun x y => cmp (w.value y) (w.value x) = .lt) w.memory

section Reachable

variable {α : Type} {cmp : α → α → Ordering} {w : SetWorld α} {s : TreeState α}

/-- The comparison of a new value with that of a member. -/
theorem cut_write {n c : ℕ} (h : c ≠ n) (v : α) :
    (w.write n v).cut cmp n c = cmp v (w.value c) := by
  simp only [SetWorld.cut, SetWorld.write, Function.update_self, Function.update_of_ne h]

theorem searchTree_of_rep (h : w.Rep cmp s) : SearchTree cmp w.value w.memory s.tree :=
  ⟨h.memory, h.inv.balanced, h.ordered⟩

variable [Std.TransCmp cmp]

/-- **`BAVL` is an ordered set.** For every comparator that is a total order, whatever the nodes and
values were at first, after every sequence of insertions and removals. -/
theorem orderedSet_of_reachable {nodes : ℕ → Node} {values : ℕ → α}
    (h : (setSystem operations cmp nodes values).Reachable w) : OrderedSet cmp w := by
  obtain ⟨s, h⟩ := exists_rep_of_reachable correct h
  have htree := searchTree_of_rep h
  have hmem {n : ℕ} : n ∈ s.tree.toList ↔ n ∈ w.members := h.members.mem_iff
  have hne {n : ℕ} (hn : n ∉ w.members) : ∀ c ∈ w.members, c ≠ n :=
    fun c hc heq => hn (heq ▸ hc)
  constructor
  case fault => exact h.fault
  case tree => exact ⟨s.tree, h.memory, h.inv.balanced, h.ordered, h.members⟩
  case insert_equal =>
    intro n hn v c h_c heq
    have hwrite := h.write hn v
    refine (searchTree_of_rep hwrite).insert_equal hwrite.length_le (mt hmem.mp hn)
      (hmem.mpr h_c) ?_
    exact (cut_write (hne hn c h_c) v).trans heq
  case insert_new =>
    intro n hn v hall
    have hwrite := h.write hn v
    refine wp_mono ((searchTree_of_rep hwrite).insert_new hwrite.length_le (mt hmem.mp hn)
      fun c hc => ?_) ?_
    · have hc := hmem.mp hc
      exact fun heq => hall c hc ((cut_write (hne hn c hc) v).symm.trans heq)
    · rintro res m ⟨hres, t', ht', hn', herase, hsame⟩
      exact ⟨hres, _, _, h.memory, ht'.represents, hn', herase, fun x hx => (hsame x hx).symm⟩
  case remove =>
    intro n hn
    refine wp_mono (htree.remove_mem h.length_le (hmem.mpr hn)) ?_
    rintro _ m ⟨t', ht', herase, hsame⟩
    exact ⟨_, _, ht'.represents, h.memory, hmem.mpr hn, herase, hsame⟩
  case lookup =>
    intro v
    refine wp_mono (htree.lookup_iff h.length_le v) ?_
    rintro res m ⟨rfl, hres⟩
    exact ⟨rfl, fun c => (hres c).trans (and_congr_left fun _ => hmem)⟩
  case ascending =>
    refine wp_mono (htree.walk_up h.length_le) ?_
    rintro _ m ⟨rfl, rfl⟩
    exact ⟨rfl, h.members, h.ordered⟩
  case descending =>
    refine wp_mono (htree.walk_down h.length_le) ?_
    rintro _ m ⟨rfl, rfl⟩
    exact ⟨rfl, (List.reverse_perm _).trans h.members, List.pairwise_reverse.mpr h.ordered⟩

/-- Seven insertions, one of them of a value that is there, and the removal of the root. -/
theorem orderedSet_of_reachable_seven : ∃ w : SetWorld ℕ,
    (setSystem operations compare (fun _ => ⟨none, fun _ => none, 0⟩) fun _ => 0).Reachable w ∧
      (w.members = [6, 5, 3, 2, 1] ∧ w.results.map Prod.fst =
        [true, true, true, true, true, true, false]) ∧ OrderedSet compare w := by
  obtain ⟨w, hreach, hw⟩ := System.exists_of_run
    (setSystem operations compare (fun _ => ⟨none, fun _ => none, 0⟩) fun _ => 0)
    (fun w => w.members = [6, 5, 3, 2, 1] ∧
      w.results.map Prod.fst = [true, true, true, true, true, true, false])
    [.insert 1 10, .insert 2 20, .insert 3 30, .insert 4 40, .insert 5 50, .insert 6 25,
      .insert 7 30, .remove 4] (by decide +kernel)
  exact ⟨w, hreach, hw, orderedSet_of_reachable hreach⟩

end Reachable

end Tun2Socks.Structure.Bavl
