import Tun2Socks.Structure.AvlProgram
import Tun2Socks.Structure.AvlSet

/-!
# `CAvl`

`structure/CAvl_impl.h`, as the timer tree of the reactor and the tree of the fair queue configure
it: without counts and associative values, and with pointers to nodes as links, so that a reference
is a pointer that may be null. The functions are under their names without the prefix.

Where `BAVL` reads the parent of a node from the node, this implementation passes the parent along
that it has read before the links changed, and checks it by an `ASSERT` (`assertParent`). Otherwise
the functions are the programs of `AvlProgram`.
-/

namespace Tun2Socks.Structure.CAvl

open Framework Avl

/-- `ASSERT(CAvl_check_parent(p, c))`. -/
def assertParent (p : Option ℕ) (c : ℕ) : M Unit := do
  assert (p = (← readNode c).parent)
  match p with
  | none => return ()
  | some q => do
    let n ← readNode q
    assert (n.link false = some c ∨ n.link true = some c)

/-- `CAvl_rotate`. -/
def rotate (r : ℕ) (dir : Bool) (rParent : Option ℕ) : M Unit := do
  assertParent rParent r
  let nr ← deref ((← readNode r).link !dir)
  setChild r (!dir) ((← readNode nr).link dir)
  writeLink nr dir (some r)
  writeParent nr rParent
  relink rParent rParent r (some nr)
  writeParent r (some nr)

/-- `CAvl_replace_subtree_fix_assoc`. -/
def replaceSubtreeFixAssoc (dest : ℕ) (n destParent : Option ℕ) : M Unit := do
  assertParent destParent dest
  relink destParent destParent dest n
  match n with
  | none => return ()
  | some n => writeParent n (← readNode dest).parent

/-- The nodes are directly connected. -/
def swapConnected (node enode : ℕ) (nodeParent : Option ℕ) : M Unit := do
  let side := decide ((← readNode node).link true = some enode)
  let c := (← readNode node).link !side
  setChild node false ((← readNode enode).link false)
  setChild node true ((← readNode enode).link true)
  writeParent enode (← readNode node).parent
  relink nodeParent nodeParent node (some enode)
  writeLink enode side (some node)
  writeParent node (some enode)
  setChild enode (!side) c

/-- The nodes are not directly connected. -/
def swapApart (node enode : ℕ) (nodeParent enodeParent : Option ℕ) : M Unit := do
  -- swap parents
  writeParent node (← readNode enode).parent
  relink enodeParent enodeParent enode (some node)
  writeParent enode nodeParent
  relink nodeParent nodeParent node (some enode)
  -- swap left children
  let temp := (← readNode node).link false
  setChild node false ((← readNode enode).link false)
  setChild enode false temp
  -- swap right children
  let temp := (← readNode node).link true
  setChild node true ((← readNode enode).link true)
  setChild enode true temp

/-- `CAvl_swap_for_remove`. -/
def swapForRemove (node enode : ℕ) (nodeParent enodeParent : Option ℕ) : M Unit := do
  assertParent nodeParent node
  assertParent enodeParent enode
  if enodeParent = some node then do
    swapConnected node enode nodeParent
    swapBalance node enode
  else do
    swapApart node enode nodeParent enodeParent
    swapBalance node enode

/-- The parts of this implementation. -/
def variant : Variant where
  rotate node dir := do rotate node dir (← readNode node).parent
  rotateBelow node child dir := rotate child dir (some node)
  swap node max := do
    swapForRemove node max (← readNode node).parent (← readNode max).parent
  replaceSubtree := replaceSubtreeFixAssoc

/-- `CAvl_Insert`. -/
def insert (cut : ℕ → Ordering) (fuel node : ℕ) : M (Bool × Option ℕ) := variant.insert cut fuel node

/-- `CAvl_Remove`. -/
def remove (fuel node : ℕ) : M Unit := do
  assert ((← readRoot) ≠ none)
  variant.remove fuel node

/-- `CAvl_subtree_min`. -/
def subtreeMin (fuel : ℕ) (n : Option ℕ) : M ℕ := do
  assert (n ≠ none)
  subtreeEnd false fuel (← deref n)

/-- `CAvl_GetFirst`. -/
def getFirst (fuel : ℕ) : M (Option ℕ) := do
  match ← readRoot with
  | none => return none
  | some n => return some (← subtreeMin fuel (some n))

/-- `CAvl_GetNext`. -/
def getNext (fuel n : ℕ) : M (Option ℕ) := do
  assert ((← readRoot) ≠ none)
  neighbour true fuel n

/-! ### Specifications -/

open AvlTree

variable {base s : Avl.Memory} {ctx : List (Frame ℕ)}

variable {side : Bool} {a : ℕ} {b : ℤ}

/-- The parent of a node, as its place says. -/
theorem wp_assertParent {x y : AvlTree ℕ} {Q : Unit → Avl.Memory → Prop}
    (h : Holds base s (plug ctx (branch side x y a b))) :
    wp (assertParent (parentOf ctx) a) Q s ↔ Q () s := by
  simp only [assertParent, wp_bind, wp_readNode, wp_assert, h.read, true_and]
  cases ctx with
  | nil => exact wp_pure _
  | cons f =>
    have hlink : (s.node f.a).link false = some a ∨ (s.node f.a).link true = some a := by
      rw [h.link_iff, h.link_iff]
      exact Bool.eq_false_or_eq_true f.side |>.symm
    simp only [parentOf, wp_bind, wp_readNode, wp_assert]
    exact and_iff_right hlink

theorem wp_assertParent_cons {f : Frame ℕ} {x y : AvlTree ℕ}
    {Q : Unit → Avl.Memory → Prop} (h : Holds base s (plug (f :: ctx) (branch side x y a b))) :
    wp (assertParent (some f.a) a) Q s ↔ Q () s := wp_assertParent h

theorem rotate_spec {c1 c2 outer : AvlTree ℕ} {a c : ℕ} {b cb : ℤ}
    (h : Holds base s (plug ctx (branch side (branch side c1 c2 c cb) outer a b))) :
    wp (rotate a (!side) (parentOf ctx)) (fun _ s' =>
      Holds base s' (plug ctx (branch side c1 (branch side c2 outer a b) c cb))) s := by
  have hc := h.read_near
  obtain ⟨-, -, hside⟩ := h.turned_reads
  rw [rotate, wp_bind, wp_assertParent h]
  simp only [wp_bind, wp_readNode, h.read, hc, Bool.not_not, links_self, links_not, top_branch,
    wp_deref, wp_setChild, wp_writeLink, wp_writeParent]
  rw [Memory.turned] at hside
  rw [wp_relink hside]
  exact h.rotated

section Swap

variable {lm r : AvlTree ℕ} {n1 n2 : ℕ} {b1 b2 : ℤ}

theorem swapForRemove_connected
    (h : Holds base s (plug ctx (node (node lm n2 b2 nil) n1 b1 r))) :
    wp (swapForRemove n1 n2 (parentOf ctx) (some n1)) (fun _ s' =>
      Holds base s' (plug ctx (node (node lm n1 b2 nil) n2 b1 r))) s := by
  have hupper : Holds base s (plug ctx (branch false (node lm n2 b2 nil) r n1 b1)) := h
  have hlower : Holds base s (plug (⟨false, n1, b1, r⟩ :: ctx) (branch false lm nil n2 b2)) := h
  have hmem : n2 ∈ (node lm n2 b2 nil).toList := mem_of_top rfl
  have hright : decide (r.top = some n2) = false := decide_eq_false (h.top_ne hmem)
  obtain ⟨hlink, hup, -, hside⟩ := h.lowered_reads
  obtain ⟨hb1, hb2⟩ := h.swapped_balances
  rw [Memory.swapped] at hb1 hb2
  rw [Memory.lowered] at hside hb1 hb2
  rw [swapForRemove, wp_bind, wp_assertParent hupper, wp_bind, wp_assertParent_cons hlower]
  simp only [swapConnected, swapBalance, wp_bind, wp_readNode, hupper.read, hlower.read,
    if_true, links_false_true, links_self, hright, Bool.not_false, wp_setChild, wp_writeParent,
    wp_writeLink, top_node, top_nil, hlink, hup]
  rw [wp_relink hside, hb1, hb2, wp_writeBalance, wp_writeBalance]
  exact h.swapped

theorem swapForRemove_apart {f : Frame ℕ} {sp : List (Frame ℕ)}
    (h : Holds base s (apart ctx sp f lm r n1 n2 b1 b2)) (hside : f.side = true) :
    wp (swapForRemove n1 n2 (parentOf ctx) (some f.a)) (fun _ s' =>
      Holds base s' (apart ctx sp f lm r n2 n1 b1 b2)) s := by
  obtain ⟨l0, hreads, hholds⟩ := h.exchanged hside
  have hupper : Holds base s (plug ctx
      (branch false (plug (f :: sp) (node lm n2 b2 nil)) r n1 b1)) := by
    rw [apart_eq] at h
    exact h
  have hlower : Holds base s (plug (f :: (sp ++ ⟨false, n1, b1, r⟩ :: ctx))
      (branch false lm nil n2 b2)) := h
  rw [swapForRemove, wp_bind, wp_assertParent hupper, wp_bind, wp_assertParent_cons hlower,
    wp_ite, if_neg h.inner_ne]
  simp only [swapApart, swapBalance, wp_bind, wp_readNode, hreads.lower, wp_writeParent,
    wp_relink hreads.innerSide]
  rw [wp_relink hreads.outerSide, ← Memory.crossed, hreads.lowerLeft, hreads.upperLeft,
    wp_setChild, wp_setChild, ← Memory.crossedLeft, hreads.lowerRight, hreads.upperRight,
    wp_setChild, wp_setChild, ← Memory.exchanged, hreads.lowerBalance, hreads.upperBalance,
    wp_writeBalance, wp_writeBalance]
  exact hholds

end Swap

theorem replaceSubtreeFixAssoc_spec {t : AvlTree ℕ}
    (h : Holds base s (plug ctx (branch side t nil a b))) :
    wp (replaceSubtreeFixAssoc a t.top (parentOf ctx)) (fun _ s' => ∃ base' : Avl.Memory,
      (∀ x ≠ a, base'.node x = base.node x) ∧ Holds base' s' (plug ctx t)) s := by
  obtain ⟨base', hbase, hholds⟩ := h.replaced
  have hread := h.relinked.read
  simp only [replaceSubtreeFixAssoc, wp_bind, wp_assertParent h, wp_relink h.side_eq]
  cases t with
  | nil => exact (wp_pure _).mpr ⟨base', hbase, hholds⟩
  | node =>
    simp only [top_node, wp_bind, wp_readNode, wp_writeParent] at hread ⊢
    rw [hread]
    exact ⟨base', hbase, hholds⟩

theorem variant_correct : variant.Correct where
  rotate h := by
    simp only [variant, wp_bind, wp_readNode, h.read]
    exact rotate_spec h
  rotateBelow h := rotate_spec h
  swap_connected {_ _ ctx lm r n1 n2 b1 b2} h := by
    have hlower : Holds _ _ (plug (⟨false, n1, b1, r⟩ :: ctx) (node lm n2 b2 nil)) := h
    simp only [variant, wp_bind, wp_readNode, h.read_node, hlower.read_node]
    exact swapForRemove_connected h
  swap_apart h hside := by
    obtain ⟨l0, hreads, -⟩ := h.exchanged hside
    simp only [variant, wp_bind, wp_readNode, hreads.upper, hreads.lower]
    exact swapForRemove_apart h hside
  replaceSubtree := replaceSubtreeFixAssoc_spec

/-- `CAvl_Insert`, `CAvl_Remove`, `CAvl_GetFirst` and `CAvl_GetNext`. -/
def operations : Operations where
  insert := insert
  remove := remove
  getFirst := getFirst
  getNext := getNext

/-- The tree around a node is not empty. -/
theorem root_ne_none {l r : AvlTree ℕ}
    (h : Holds base s (plug ctx (node l a b r))) : s.root ≠ none := by
  rw [h.root]
  intro htop
  have hnil := congrArg AvlTree.toList (top_eq_none.mp htop)
  rw [toList_plug_node] at hnil
  exact absurd hnil (List.append_ne_nil_of_right_ne_nil _ (List.cons_ne_nil _ _))

theorem getFirst_spec {fuel : ℕ} {t : AvlTree ℕ} (h : Holds base s t)
    (hfuel : t.toList.length ≤ fuel) :
    wp (getFirst fuel) (fun res s' => s' = s ∧ res = t.toList.head?) s := by
  have hend : wp (getEnd false fuel) _ s := getEnd_spec h hfuel
  rw [getEnd, wp_bind, wp_readRoot] at hend
  rw [getFirst, wp_bind, wp_readRoot]
  cases hroot : s.root with rw [hroot] at hend
  | none =>
    exact hend
  | some n =>
    simp only [subtreeMin, wp_bind, wp_assert, wp_deref] at hend ⊢
    exact ⟨Option.some_ne_none n, hend⟩

theorem correct : operations.Correct where
  insert _ := Variant.insert_spec variant_correct
  remove h hbal hfuel := by
    simp only [operations, remove, wp_bind, wp_readRoot, wp_assert]
    exact ⟨root_ne_none h, Variant.remove_spec variant_correct h hbal hfuel⟩
  getFirst := getFirst_spec
  getNext {_ _ ctx _ a b l r} h hfuel := by
    have hbranch : Holds _ _ (plug ctx (branch true r l a b)) := h
    simp only [operations, getNext, wp_bind, wp_readRoot, wp_assert]
    exact ⟨root_ne_none h, neighbour_spec hbranch hfuel⟩

end Tun2Socks.Structure.CAvl
