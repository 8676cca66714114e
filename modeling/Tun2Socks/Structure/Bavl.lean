import Tun2Socks.Structure.AvlProgram

/-!
# `BAVL`

`structure/BAVL.h`: an intrusive balanced tree. The functions are programs over the fields of the
nodes, under their names without the prefix. Those that `CAvl_impl.h` has in the same form are the
programs of `AvlProgram` with the parts of this implementation (`variant`): it reads the parent of
a node from the node whenever it needs it.
-/

namespace Tun2Socks.Structure.Bavl

open Framework Avl

/-- `_BAVL_rotate`. -/
def rotate (r : ℕ) (dir : Bool) : M Unit := do
  let nr ← deref ((← readNode r).link !dir)
  setChild r (!dir) ((← readNode nr).link dir)
  writeLink nr dir (some r)
  writeParent nr (← readNode r).parent
  relink (← readNode nr).parent (← readNode r).parent r (some nr)
  writeParent r (some nr)

/-- `_BAVL_replace_subtree`. -/
def replaceSubtree (dest : ℕ) (n : Option ℕ) : M Unit := do
  relink (← readNode dest).parent (← readNode dest).parent dest n
  match n with
  | none => return ()
  | some n => writeParent n (← readNode dest).parent

/-- The nodes are directly connected, `n1` above `n2`. -/
def swapConnected (n1 n2 : ℕ) : M Unit := do
  let side := decide ((← readNode n1).link true = some n2)
  let c := (← readNode n1).link !side
  setChild n1 false ((← readNode n2).link false)
  setChild n1 true ((← readNode n2).link true)
  writeParent n2 (← readNode n1).parent
  relink (← readNode n2).parent (← readNode n1).parent n1 (some n2)
  writeLink n2 side (some n1)
  writeParent n1 (some n2)
  setChild n2 (!side) c

/-- The nodes are not directly connected. -/
def swapApart (n1 n2 : ℕ) : M Unit := do
  -- swap parents
  let temp := (← readNode n1).parent
  writeParent n1 (← readNode n2).parent
  relink (← readNode n1).parent (← readNode n2).parent n2 (some n1)
  writeParent n2 temp
  relink (← readNode n2).parent temp n1 (some n2)
  -- swap left children
  let temp := (← readNode n1).link false
  setChild n1 false ((← readNode n2).link false)
  setChild n2 false temp
  -- swap right children
  let temp := (← readNode n1).link true
  setChild n1 true ((← readNode n2).link true)
  setChild n2 true temp

/-- `_BAVL_swap_nodes`. -/
def swapNodes (n1 n2 : ℕ) : M Unit := do
  if (← readNode n2).parent = some n1 ∨ (← readNode n1).parent = some n2 then
    -- make sure n1 is above n2
    if (← readNode n1).parent = some n2 then do
      swapConnected n2 n1
      swapBalance n2 n1
    else do
      swapConnected n1 n2
      swapBalance n1 n2
  else do
    swapApart n1 n2
    swapBalance n1 n2

/-- The parts of this implementation. -/
def variant : Variant where
  rotate := rotate
  rotateBelow _ child dir := rotate child dir
  swap := swapNodes
  replaceSubtree dest n _ := replaceSubtree dest n

/-- `BAVL_Insert`. -/
def insert (cut : ℕ → Ordering) (fuel node : ℕ) : M (Bool × Option ℕ) := variant.insert cut fuel node

/-- `BAVL_Remove`. -/
def remove (fuel node : ℕ) : M Unit := variant.remove fuel node

/-- `BAVL_GetFirst`. -/
def getFirst (fuel : ℕ) : M (Option ℕ) := getEnd false fuel

/-- `BAVL_GetLast`. -/
def getLast (fuel : ℕ) : M (Option ℕ) := getEnd true fuel

/-- `BAVL_GetNext`. -/
def getNext (fuel n : ℕ) : M (Option ℕ) := neighbour true fuel n

/-- `BAVL_GetPrev`. -/
def getPrev (fuel n : ℕ) : M (Option ℕ) := neighbour false fuel n

/-! ### Specifications -/

open AvlTree

variable {base s : Avl.Memory} {ctx : List (Frame ℕ)}

theorem rotate_spec {side : Bool} {c1 c2 outer : AvlTree ℕ} {a c : ℕ} {b cb : ℤ}
    (h : Holds base s (plug ctx (branch side (branch side c1 c2 c cb) outer a b))) :
    wp (rotate a (!side)) (fun _ s' =>
      Holds base s' (plug ctx (branch side c1 (branch side c2 outer a b) c cb))) s := by
  have hc := h.read_near
  obtain ⟨hparent, hturned, hside⟩ := h.turned_reads
  simp only [rotate, wp_bind, wp_readNode, h.read, hc, Bool.not_not, links_self, links_not,
    top_branch, wp_deref, wp_setChild, wp_writeLink, wp_writeParent, Memory.setLink_parent,
    hparent, Memory.setParent_parent]
  rw [Memory.turned] at hturned hside
  rw [hturned, wp_relink hside]
  exact h.rotated

section Swap

variable {lm r : AvlTree ℕ} {n1 n2 : ℕ} {b1 b2 : ℤ}

theorem swapNodes_connected
    (h : Holds base s (plug ctx (node (node lm n2 b2 nil) n1 b1 r))) :
    wp (swapNodes n1 n2) (fun _ s' =>
      Holds base s' (plug ctx (node (node lm n1 b2 nil) n2 b1 r))) s := by
  have hlower : Holds base s (plug (⟨false, n1, b1, r⟩ :: ctx) (node lm n2 b2 nil)) := h
  have hn1 : s.node n1 = ⟨parentOf ctx, links false (some n2) r.top, b1⟩ := h.read_node
  have hn2 : s.node n2 = ⟨some n1, links false lm.top none, b2⟩ :=
    hlower.read_node
  have hmem : n2 ∈ (node lm n2 b2 nil).toList := mem_of_top rfl
  have hparent : parentOf ctx ≠ some n2 :=
    h.parent_ne (List.mem_append_left _ hmem)
  have hright : decide (r.top = some n2) = false := decide_eq_false (h.top_ne hmem)
  obtain ⟨hlink, hup, hup', hside⟩ := h.lowered_reads
  obtain ⟨hb1, hb2⟩ := h.swapped_balances
  rw [Memory.swapped] at hb1 hb2
  rw [Memory.lowered] at hup' hside hb1 hb2
  simp only [swapNodes, swapConnected, swapBalance, wp_bind, wp_readNode, wp_ite, hn1, hn2,
    true_or, if_true, if_neg hparent, links_false_true, links_self, hright, Bool.not_false,
    wp_setChild, wp_writeParent, wp_writeLink, hlink, hup, Memory.setParent_parent]
  rw [hup', wp_relink hside, hb1, hb2, wp_writeBalance, wp_writeBalance]
  exact h.swapped

theorem swapNodes_apart {f : Frame ℕ} {sp : List (Frame ℕ)}
    (h : Holds base s (apart ctx sp f lm r n1 n2 b1 b2)) (hside : f.side = true) :
    wp (swapNodes n1 n2) (fun _ s' => Holds base s' (apart ctx sp f lm r n2 n1 b1 b2)) s := by
  obtain ⟨l0, hreads, hholds⟩ := h.exchanged hside
  simp only [swapNodes, swapApart, swapBalance, wp_bind, wp_readNode, wp_ite, hreads.upper,
    hreads.lower, if_neg (not_or.mpr ⟨h.inner_ne, h.outer_ne⟩), wp_writeParent, Memory.setParent_parent,
    hreads.inner, wp_relink hreads.innerSide]
  rw [wp_relink hreads.outerSide, ← Memory.crossed, hreads.lowerLeft, hreads.upperLeft,
    wp_setChild, wp_setChild, ← Memory.crossedLeft, hreads.lowerRight, hreads.upperRight,
    wp_setChild, wp_setChild, ← Memory.exchanged, hreads.lowerBalance, hreads.upperBalance,
    wp_writeBalance, wp_writeBalance]
  exact hholds

end Swap

theorem replaceSubtree_spec {side : Bool} {t : AvlTree ℕ} {a : ℕ} {b : ℤ}
    (h : Holds base s (plug ctx (branch side t nil a b))) :
    wp (replaceSubtree a t.top) (fun _ s' => ∃ base' : Avl.Memory,
      (∀ x ≠ a, base'.node x = base.node x) ∧ Holds base' s' (plug ctx t)) s := by
  obtain ⟨base', hbase, hholds⟩ := h.replaced
  have hread := h.relinked.read
  simp only [replaceSubtree, wp_bind, wp_readNode, h.read]
  rw [wp_relink h.side_eq]
  cases t with
  | nil => exact (wp_pure _).mpr ⟨base', hbase, hholds⟩
  | node =>
    simp only [top_node, wp_bind, wp_readNode, wp_writeParent] at hread ⊢
    rw [hread]
    exact ⟨base', hbase, hholds⟩

theorem variant_correct : variant.Correct where
  rotate := rotate_spec
  rotateBelow := rotate_spec
  swap_connected := swapNodes_connected
  swap_apart := swapNodes_apart
  replaceSubtree := replaceSubtree_spec

end Tun2Socks.Structure.Bavl
