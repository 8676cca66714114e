import Tun2Socks.Structure.AvlMemory

/-!
# Moves of nodes

What the steps of the balanced trees do to the cells of the memory: the rotation of a node with its
child, the exchange of a node with the last one of its left subtree, the replacement of a node by
its only subtree, and the insertion of a new one.

* `Owns` of `AvlMemory.lean` is kept by every write; the cells a write does not touch are carried
  along as one multiset.
* `Holds.rotated`, `Holds.swapped`, `Holds.exchanged`, `Holds.replaced`, `Holds.linked` — the
  memory after the writes holds the tree after the move.
-/

namespace Tun2Socks.Structure.Avl

open Framework AvlTree Function

/-! ### Addresses -/

section Addresses

variable {base s : Memory} {ctx : List (Frame ℕ)} {t l r : AvlTree ℕ} {a x : ℕ} {b : ℤ}

theorem Holds.nodup (h : Holds base s t) : t.toList.Nodup := by
  have hnodup := h.owns.nodup
  rw [keys_cells] at hnodup
  exact Multiset.coe_nodup.mp hnodup

/-- A node in a subtree is not above it. -/
theorem Holds.parent_ne (h : Holds base s (plug ctx t)) (hx : x ∈ t.toList) :
    parentOf ctx ≠ some x := by
  intro hparent
  have hnodup := h.owns.nodup
  rw [cells_plug, Multiset.map_add, Multiset.nodup_add, keys_cells] at hnodup
  have hmem : x ∈ (cellsAt t.top ctx).map Prod.fst := by
    cases ctx with
    | nil => cases hparent
    | cons =>
      cases hparent
      simp [cellsAt]
  exact Multiset.disjoint_left.mp hnodup.2.2 hmem hx

/-- A node in the left subtree is not the root, nor in the right one. -/
theorem Holds.notMem_right (h : Holds base s (plug ctx (node l a b r))) (hx : x ∈ l.toList) :
    x ∉ a :: r.toList := by
  have hnodup := h.nodup
  rw [toList_plug, List.nodup_append, List.nodup_append, toList, List.nodup_append] at hnodup
  exact fun hmem => hnodup.2.1.1.2.2 x hx x hmem rfl

theorem Holds.top_ne (h : Holds base s (plug ctx (node l a b r))) (hx : x ∈ l.toList) :
    r.top ≠ some x :=
  fun htop => h.notMem_right hx (List.mem_cons_of_mem a (mem_of_top htop))

end Addresses

/-! ### Rotation -/

/-- The subtree `c` of `a` on the side `side` comes below `p`, and `a` below it with the inner
subtree `m` of `c`; the links from and to the old place of `a` are not changed yet. -/
def Memory.turned (s : Memory) (side : Bool) (a c : ℕ) (m p : Option ℕ) : Memory :=
  ((s.setChild a side m).setLink c (!side) (some a)).setParent c p

/-- The subtree `c` of `a` takes its place below `p`. -/
def Memory.rotated (s : Memory) (side : Bool) (a c : ℕ) (m p : Option ℕ) (pside : Bool) :
    Memory :=
  ((s.turned side a c m p).relink p pside (some c)).setParent a (some c)

section Rotation

variable {base s : Memory} {ctx : List (Frame ℕ)} {side : Bool} {c1 c2 outer : AvlTree ℕ}
  {a c : ℕ} {b cb : ℤ}
  (h : Holds base s (plug ctx (branch side (branch side c1 c2 c cb) outer a b)))

include h

theorem Holds.turned :
    Owns base (s.turned side a c c2.top (parentOf ctx))
      (headCell (some a) ctx + ({(a, ⟨parentOf ctx, links side c2.top outer.top, b⟩)} +
        (outerCells ctx + ({(c, ⟨parentOf ctx, links side c1.top (some a), cb⟩)} +
          topCell (some a) c2 +
          (innerCells c2 + cells (some c) c1 + cells (some a) outer))))) := by
  have howns := h.owns
  simp only [cells_plug, cells_branch, cellsAt_eq, top_branch, cells_eq _ c2] at howns
  -- the cells that are not written
  generalize hrest : innerCells c2 + cells (some c) c1 + cells (some a) outer = rest
  have h₀ : Owns base s ({(a, ⟨parentOf ctx, links side (some c) outer.top, b⟩)} +
      topCell (some c) c2 + ({(c, ⟨some a, links side c1.top c2.top, cb⟩)} +
        headCell (some a) ctx + outerCells ctx + rest)) :=
    howns.of_eq (by rw [← hrest]; ac_rfl)
  have h₁ : Owns base _ ({(c, ⟨some a, links side c1.top c2.top, cb⟩)} +
      ({(a, ⟨parentOf ctx, links side c2.top outer.top, b⟩)} + topCell (some a) c2 +
        headCell (some a) ctx + outerCells ctx + rest)) := h₀.setChild.of_eq (by ac_rfl)
  exact ((h₁.setLink_not (some a)).setParent (parentOf ctx)).of_eq (by ac_rfl)

theorem Holds.rotated :
    Holds base (s.rotated side a c c2.top (parentOf ctx) (sideOf ctx))
      (plug ctx (branch side c1 (branch side c2 outer a b) c cb)) := by
  refine ⟨?_, ?_⟩
  · rw [top_plug, top_branch]
    refine root_relink (p := some a) ?_ _ _
    have hroot := h.root
    rw [top_plug, top_branch] at hroot
    simpa [Memory.turned] using hroot
  · have h₁ := h.turned.relink (some c)
    rw [add_left_comm] at h₁
    refine (h₁.setParent (some c)).of_eq ?_
    simp only [cells_plug, cells_branch, cellsAt_eq, top_branch, cells_eq _ c2]
    ac_rfl

/-- The pointers a rotation reads on its way. -/
theorem Holds.turned_reads :
    ((s.setChild a side c2.top).node a).parent = parentOf ctx ∧
      ((s.turned side a c c2.top (parentOf ctx)).node a).parent = parentOf ctx ∧
      ∀ q ∈ parentOf ctx, decide
        (((s.turned side a c c2.top (parentOf ctx)).node q).link true = some a) = sideOf ctx := by
  have hturned := h.turned
  have hside := hturned.side_eq
  rw [add_left_comm] at hturned
  have ha := congrArg Node.parent hturned.read
  refine ⟨?_, ha, hside⟩
  have hne : a ≠ c := hturned.ne (by simp)
  rw [Memory.turned, Memory.setParent_parent_ne hne, Memory.setLink_parent] at ha
  exact ha

end Rotation

/-! ### Balance factors -/

section Balance

variable {base s : Memory} {ctx : List (Frame ℕ)} {side : Bool} {x y z : AvlTree ℕ} {a c : ℕ}
  {b cb : ℤ}

theorem Holds.setBalance (h : Holds base s (plug ctx (branch side x y a b))) (b' : ℤ) :
    Holds base (s.setBalance a b') (plug ctx (branch side x y a b')) := by
  obtain ⟨hroot, howns⟩ := h
  rw [top_plug, top_branch] at hroot
  rw [cells_plug, cells_branch, top_branch, add_left_comm] at howns
  refine ⟨?_, ?_⟩
  · rw [top_plug, top_branch]
    exact hroot
  · rw [cells_plug, cells_branch, top_branch, add_left_comm]
    exact howns.setBalance b'

theorem Holds.setBalance_near
    (h : Holds base s (plug ctx (branch side (branch side x y a b) z c cb))) (b' : ℤ) :
    Holds base (s.setBalance a b') (plug ctx (branch side (branch side x y a b') z c cb)) := by
  have ha : Holds base s (plug (⟨side, c, cb, z⟩ :: ctx) (branch side x y a b)) := h
  exact ha.setBalance b'

theorem Holds.setBalance_far
    (h : Holds base s (plug ctx (branch side z (branch side x y a b) c cb))) (b' : ℤ) :
    Holds base (s.setBalance a b') (plug ctx (branch side z (branch side x y a b') c cb)) := by
  have ha : Holds base s (plug (⟨!side, c, cb, z⟩ :: ctx) (branch side x y a b)) := by
    rw [plug_cons, Frame.fill, branch_not]
    exact h
  have hb := ha.setBalance b'
  rwa [plug_cons, Frame.fill, branch_not] at hb

end Balance

/-! ### Two nodes that change places -/

/-- The cells of two nodes, of the subtrees that change hands between them, the roots of which are
below `pl` and `pr`, of the place with the node `q`, and others. -/
def pairCells (ctx : List (Frame ℕ)) (lm r : AvlTree ℕ) (c c' : Cell) (pl pr q : Option ℕ)
    (rest : Multiset Cell) : Multiset Cell :=
  {c} + (topCell pl lm + (topCell pr r + ({c'} + headCell q ctx +
    (outerCells ctx + innerCells lm + innerCells r + rest))))

namespace Owns

variable {base s : Memory} {ctx : List (Frame ℕ)} {lm r : AvlTree ℕ} {c c' : Cell}
  {p x y pl pr q : Option ℕ} {a : ℕ} {b : ℤ} {rest : Multiset Cell}

theorem swap (h : Owns base s (pairCells ctx lm r c c' pl pr q rest)) :
    Owns base s (pairCells ctx lm r c' c pl pr q rest) :=
  h.of_eq (by simp only [pairCells]; ac_rfl)

theorem pair_relink (h : Owns base s (pairCells ctx lm r c c' pl pr q rest)) (q' : Option ℕ) :
    Owns base (s.relink (parentOf ctx) (sideOf ctx) q')
      (pairCells ctx lm r c c' pl pr q' rest) := by
  simp only [pairCells, add_left_comm _ (headCell _ ctx), add_assoc] at h ⊢
  exact h.relink q'

/-- The left subtree comes below the first node. -/
theorem pair_setChild
    (h : Owns base s (pairCells ctx lm r (a, ⟨p, links false x y, b⟩) c' pl pr q rest)) :
    Owns base (s.setChild a false lm.top)
      (pairCells ctx lm r (a, ⟨p, links false lm.top y, b⟩) c' (some a) pr q rest) := by
  rw [pairCells, ← add_assoc] at h ⊢
  exact h.setChild

/-- The right subtree comes below the first node. -/
theorem pair_setChild_right
    (h : Owns base s (pairCells ctx lm r (a, ⟨p, links false x y, b⟩) c' pl pr q rest)) :
    Owns base (s.setChild a true r.top)
      (pairCells ctx lm r (a, ⟨p, links false x r.top, b⟩) c' pl (some a) q rest) := by
  rw [pairCells, add_left_comm (topCell pl lm), ← add_assoc] at h ⊢
  exact h.setChild_right

theorem pair_side_eq {n : Node}
    (h : Owns base s (pairCells ctx lm r (a, n) c' pl pr (some a) rest)) :
    ∀ q ∈ parentOf ctx, decide ((s.node q).link true = some a) = sideOf ctx := by
  have h' : Owns base s (headCell (some a) ctx + ({(a, n)} + (outerCells ctx +
      (topCell pl lm + topCell pr r + {c'} + (innerCells lm + innerCells r + rest))))) :=
    h.of_eq (by rw [pairCells]; ac_rfl)
  exact h'.side_eq

end Owns

/-! ### Swapping connected nodes

A node `n1` and its left subtree's root `n2`, which has no right subtree. -/

/-- The subtrees of `n2` have gone to `n1`, and `n2` knows its new parent. -/
def Memory.lowered (s : Memory) (n1 n2 : ℕ) (lm p : Option ℕ) : Memory :=
  ((s.setChild n1 false lm).setChild n1 true none).setParent n2 p

/-- `n2` is in the place of `n1`, and has it as its left subtree. -/
def Memory.swapped (s : Memory) (n1 n2 : ℕ) (lm r p : Option ℕ) (pside : Bool) : Memory :=
  ((((s.lowered n1 n2 lm p).relink p pside (some n2)).setLink n2 false (some n1)).setParent n1
    (some n2)).setChild n2 true r

section Connected

variable {base s : Memory} {ctx : List (Frame ℕ)} {lm r : AvlTree ℕ} {n1 n2 : ℕ} {b1 b2 : ℤ}
  (h : Holds base s (plug ctx (node (node lm n2 b2 nil) n1 b1 r)))

include h

theorem Holds.setChild_connected :
    Owns base (s.setChild n1 false lm.top) (pairCells ctx lm r
      (n2, ⟨some n1, links false lm.top none, b2⟩)
      (n1, ⟨parentOf ctx, links false lm.top r.top, b1⟩) (some n1) (some n1) (some n1) 0) := by
  have howns := h.owns
  simp only [cells_plug, cells_node, cells_nil, cellsAt_eq, top_node, top_nil, cells_eq _ lm,
    cells_eq _ r] at howns
  have h₀ : Owns base s (pairCells ctx lm r (n1, ⟨parentOf ctx, links false (some n2) r.top, b1⟩)
      (n2, ⟨some n1, links false lm.top none, b2⟩) (some n2) (some n1) (some n1) 0) :=
    howns.of_eq (by rw [pairCells]; ac_rfl)
  exact h₀.pair_setChild.swap

theorem Holds.lowered :
    Owns base (s.lowered n1 n2 lm.top (parentOf ctx)) (pairCells ctx lm r
      (n1, ⟨parentOf ctx, links false lm.top none, b1⟩)
      (n2, ⟨parentOf ctx, links false lm.top none, b2⟩) (some n1) (some n1) (some n1) 0) := by
  have hright : Owns base ((s.setChild n1 false lm.top).setLink n1 true none) (pairCells ..) :=
    h.setChild_connected.swap.setLink_not none
  exact Owns.swap (hright.swap.setParent (parentOf ctx))

/-- The pointers that are read while the nodes are swapped. -/
theorem Holds.lowered_reads :
    ((s.setChild n1 false lm.top).node n2).link true = none ∧
      (((s.setChild n1 false lm.top).setChild n1 true none).node n1).parent = parentOf ctx ∧
      ((s.lowered n1 n2 lm.top (parentOf ctx)).node n1).parent = parentOf ctx ∧
      ∀ q ∈ parentOf ctx, decide
        (((s.lowered n1 n2 lm.top (parentOf ctx)).node q).link true = some n1) = sideOf ctx := by
  have hlowered := h.lowered
  have hn1 := congrArg Node.parent hlowered.read
  refine ⟨?_, ?_, hn1, hlowered.pair_side_eq⟩
  · rw [h.setChild_connected.read]
    rfl
  · rwa [Memory.lowered, Memory.setParent_parent_ne (hlowered.ne (by simp))] at hn1

theorem Holds.swapped_cells :
    Owns base (s.swapped n1 n2 lm.top r.top (parentOf ctx) (sideOf ctx)) (pairCells ctx lm r
      (n2, ⟨parentOf ctx, links false (some n1) r.top, b2⟩)
      (n1, ⟨some n2, links false lm.top none, b1⟩) (some n1) (some n2) (some n2) 0) := by
  have hlink : Owns base _ (pairCells ..) :=
    (h.lowered.pair_relink (some n2)).swap.setLink_self (some n1)
  have hparent : Owns base _ (pairCells ..) := hlink.swap.setParent (some n2)
  exact hparent.swap.pair_setChild_right

theorem Holds.swapped_balances :
    ((s.swapped n1 n2 lm.top r.top (parentOf ctx) (sideOf ctx)).node n1).balance = b1 ∧
      ((s.swapped n1 n2 lm.top r.top (parentOf ctx) (sideOf ctx)).node n2).balance = b2 := by
  have hcells := h.swapped_cells
  constructor
  · rw [hcells.swap.read]
  · rw [hcells.read]

/-- The nodes have changed places, and their balance factors. -/
theorem Holds.swapped :
    Holds base (((s.swapped n1 n2 lm.top r.top (parentOf ctx) (sideOf ctx)).setBalance n1
      b2).setBalance n2 b1) (plug ctx (node (node lm n1 b2 nil) n2 b1 r)) := by
  refine ⟨?_, ?_⟩
  · have hroot := h.root
    rw [top_plug, top_node] at hroot ⊢
    have hlowered : (s.lowered n1 n2 lm.top (parentOf ctx)).root = rootAt (some n1) ctx := by
      simpa [Memory.lowered] using hroot
    have hrelink := root_relink hlowered (sideOf ctx) (some n2)
    simpa [Memory.swapped] using hrelink
  · have h₁ : Owns base _ (pairCells ..) := h.swapped_cells.swap.setBalance b2
    refine (h₁.swap.setBalance b1).of_eq ?_
    simp only [cells_plug, cells_node, cells_nil, cellsAt_eq, top_node, top_nil, cells_eq _ lm,
      cells_eq _ r]
    ac_rfl

end Connected

/-! ### Swapping nodes that are apart

A node `n1` and the last node `n2` of its left subtree, with the way `f :: sp` between them. -/

/-- The way `f :: sp` from the node `n1` upwards: of its cells, only that of the first node `l0`
depends on the frame above. -/
def Way (f : Frame ℕ) (sp : List (Frame ℕ)) (n1 l0 : ℕ) (n : Node) (I : Multiset Cell) : Prop :=
  ∀ (g : Frame ℕ) (ctx : List (Frame ℕ)), cellsAt (some n1) (f :: sp ++ g :: ctx)
    = {(l0, { n with parent := some g.a })} + (I + cellsAt (some l0) (g :: ctx))

theorem exists_way (f : Frame ℕ) (sp : List (Frame ℕ)) (n1 : ℕ) :
    ∃ l0 n I, rootAt (some n1) (f :: sp) = some l0 ∧ Way f sp n1 l0 n I := by
  induction sp generalizing f n1 with
  | nil =>
    refine ⟨f.a, ⟨none, links f.side (some n1) f.other.top, f.b⟩, cells (some f.a) f.other, rfl, ?_⟩
    exact fun g ctx => rfl
  | cons f' _ ih =>
    obtain ⟨l0, n, I, hroot, h⟩ := ih f' f.a
    refine ⟨l0, n, {(f.a, ⟨some f'.a, links f.side (some n1) f.other.top, f.b⟩)} +
      (cells (some f.a) f.other + I), hroot, fun g ctx => ?_⟩
    rw [List.cons_append, cellsAt, h, List.cons_append, parentOf]
    ac_rfl

theorem Memory.setLink_setParent_comm (s : Memory) (a c : ℕ) (side : Bool) (p q : Option ℕ) :
    (s.setParent a p).setLink c side q = (s.setLink c side q).setParent a p := by
  simp only [setParent, setLink, Memory.mk.injEq, true_and]
  by_cases h : c = a
  · subst h
    simp
  · rw [update_of_ne h, update_of_ne (Ne.symm h)]
    exact update_comm (Ne.symm h) _ _ _

/-- The links from above are exchanged. -/
def Memory.crossed (s : Memory) (n1 n2 f : ℕ) (p : Option ℕ) (pside : Bool) : Memory :=
  ((((s.setParent n1 (some f)).relink (some f) true (some n1)).setParent n2 p).relink p pside
    (some n2))

/-- The left subtrees are exchanged. -/
def Memory.crossedLeft (s : Memory) (n1 n2 f : ℕ) (l0 lm p : Option ℕ) (pside : Bool) : Memory :=
  ((s.crossed n1 n2 f p pside).setChild n1 false lm).setChild n2 false l0

/-- The right subtrees are exchanged. -/
def Memory.exchanged (s : Memory) (n1 n2 f : ℕ) (l0 lm r p : Option ℕ) (pside : Bool) : Memory :=
  ((s.crossedLeft n1 n2 f l0 lm p pside).setChild n1 true none).setChild n2 true r

section Apart

variable {base s : Memory} {ctx sp : List (Frame ℕ)} {f : Frame ℕ} {lm r : AvlTree ℕ} {n1 n2 : ℕ}
  {b1 b2 : ℤ}

/-- The tree in which `n2` is the last node of the left subtree of `n1`. -/
def apart (ctx sp : List (Frame ℕ)) (f : Frame ℕ) (lm r : AvlTree ℕ) (n1 n2 : ℕ) (b1 b2 : ℤ) :
    AvlTree ℕ :=
  plug (f :: sp ++ ⟨false, n1, b1, r⟩ :: ctx) (node lm n2 b2 nil)

/-- The pointers that are read while the nodes are exchanged. -/
structure ApartReads (s : Memory) (ctx : List (Frame ℕ)) (f : Frame ℕ) (lm r : AvlTree ℕ)
    (n1 n2 l0 : ℕ) (b1 b2 : ℤ) : Prop where
  upper : s.node n1 = ⟨parentOf ctx, links false (some l0) r.top, b1⟩
  lower : s.node n2 = ⟨some f.a, links false lm.top none, b2⟩
  inner : ((s.setParent n1 (some f.a)).node n2).parent = some f.a
  innerSide : ∀ q ∈ some f.a,
    decide (((s.setParent n1 (some f.a)).node q).link true = some n2) = true
  outerSide : ∀ q ∈ parentOf ctx, decide (((((s.setParent n1 (some f.a)).relink (some f.a) true
    (some n1)).setParent n2 (parentOf ctx)).node q).link true = some n1) = sideOf ctx
  upperLeft : ((s.crossed n1 n2 f.a (parentOf ctx) (sideOf ctx)).node n1).link false = some l0
  lowerLeft : ((s.crossed n1 n2 f.a (parentOf ctx) (sideOf ctx)).node n2).link false = lm.top
  upperRight : ((s.crossedLeft n1 n2 f.a (some l0) lm.top (parentOf ctx) (sideOf ctx)).node
    n1).link true = r.top
  lowerRight : ((s.crossedLeft n1 n2 f.a (some l0) lm.top (parentOf ctx) (sideOf ctx)).node
    n2).link true = none
  upperBalance : ((s.exchanged n1 n2 f.a (some l0) lm.top r.top (parentOf ctx) (sideOf ctx)).node
    n1).balance = b1
  lowerBalance : ((s.exchanged n1 n2 f.a (some l0) lm.top r.top (parentOf ctx) (sideOf ctx)).node
    n2).balance = b2

/-- The tree seen from the upper node. -/
theorem apart_eq (ctx sp : List (Frame ℕ)) (f : Frame ℕ) (lm r : AvlTree ℕ) (n1 n2 : ℕ)
    (b1 b2 : ℤ) : apart ctx sp f lm r n1 n2 b1 b2
      = plug ctx (node (plug (f :: sp) (node lm n2 b2 nil)) n1 b1 r) := by
  rw [apart, plug_append]
  rfl

/-- The two nodes are in different places, and neither is the parent of the other. -/
theorem Holds.inner_ne (h : Holds base s (apart ctx sp f lm r n1 n2 b1 b2)) :
    some f.a ≠ some n1 := by
  have hf : f.a ∈ (plug (f :: sp) (node lm n2 b2 nil)).toList := by
    rw [plug_cons, toList_plug]
    exact List.mem_append_right _ (List.mem_append_left _ (mem_of_top (top_branch ..)))
  rw [apart_eq] at h
  intro heq
  exact h.notMem_right hf (Option.some.inj heq ▸ List.mem_cons_self)

theorem Holds.outer_ne (h : Holds base s (apart ctx sp f lm r n1 n2 b1 b2)) :
    parentOf ctx ≠ some n2 := by
  have hmem : n2 ∈ (plug (f :: sp) (node lm n2 b2 nil)).toList := by
    rw [toList_plug]
    exact List.mem_append_right _ (List.mem_append_left _ (mem_of_top rfl))
  rw [apart_eq] at h
  exact h.parent_ne (List.mem_append_left _ hmem)

section Exchange

variable {l0 : ℕ} {n : Node} {I : Multiset Cell}
  (h : Holds base s (apart ctx sp f lm r n1 n2 b1 b2))
  (hside : f.side = true) (hway : Way f sp n1 l0 n I)

include h hside hway

/-- The link of the node above `n2` leads to `n1`, which is still in its place but knows its new
parent. -/
theorem Holds.crossed_inner :
    Owns base ((s.setParent n1 (some f.a)).relink (some f.a) true (some n1)) (pairCells ctx lm r
      (n2, ⟨some f.a, links false lm.top none, b2⟩)
      (n1, ⟨some f.a, links false (some l0) r.top, b1⟩) (some n2) (some n1) (some n1)
      ({(l0, { n with parent := some n1 })} + I)) := by
  have howns := h.owns
  rw [apart, cells_plug, cellsAt_eq, add_assoc] at howns
  -- the link is written before the parent of `n1`, which makes no difference
  have h₁ := howns.relink (some n1)
  rw [← add_assoc, ← cellsAt_eq, hway] at h₁
  simp only [cells_node, cells_nil, cellsAt, cellsAt_eq, cells_eq _ r, cells_eq _ lm, top_nil,
    add_zero] at h₁
  have h₂ : Owns base _ (pairCells ctx lm r
      (n1, ⟨parentOf ctx, links false (some l0) r.top, b1⟩)
      (n2, ⟨some f.a, links false lm.top none, b2⟩) (some n2) (some n1) (some n1)
      ({(l0, { n with parent := some n1 })} + I)) :=
    h₁.of_eq (by simp only [pairCells, List.cons_append, parentOf]; ac_rfl)
  have h₃ := h₂.setParent (some f.a)
  simp only [List.cons_append, parentOf, sideOf, hside] at h₃
  rw [Memory.relink, Memory.setLink_setParent_comm]
  exact Owns.swap h₃

/-- The memory in which the node above the place of `n1` is asked for its side. -/
theorem Holds.crossed_outer :
    Owns base (((s.setParent n1 (some f.a)).relink (some f.a) true (some n1)).setParent n2
      (parentOf ctx)) (pairCells ctx lm r (n1, ⟨some f.a, links false (some l0) r.top, b1⟩)
      (n2, ⟨parentOf ctx, links false lm.top none, b2⟩) (some n2) (some n1) (some n1)
      ({(l0, { n with parent := some n1 })} + I)) :=
  Owns.swap ((h.crossed_inner hside hway).setParent (parentOf ctx))

theorem Holds.crossed :
    Owns base (s.crossed n1 n2 f.a (parentOf ctx) (sideOf ctx)) (pairCells ctx lm r
      (n1, ⟨some f.a, links false (some l0) r.top, b1⟩)
      (n2, ⟨parentOf ctx, links false lm.top none, b2⟩) (some n2) (some n1) (some n2)
      ({(l0, { n with parent := some n1 })} + I)) :=
  (h.crossed_outer hside hway).pair_relink (some n2)

theorem Holds.crossedLeft :
    Owns base (s.crossedLeft n1 n2 f.a (some l0) lm.top (parentOf ctx) (sideOf ctx))
      (pairCells ctx lm r (n1, ⟨some f.a, links false lm.top r.top, b1⟩)
        (n2, ⟨parentOf ctx, links false (some l0) none, b2⟩) (some n1) (some n1) (some n2)
        ({(l0, { n with parent := some n2 })} + I)) := by
  have hleft := (h.crossed hside hway).pair_setChild.swap
  simp only [pairCells, add_left_comm _ {(l0, _)}] at hleft
  rw [← add_assoc, add_comm {(l0, _)}] at hleft
  have hcell := hleft.setChild_cell
  exact hcell.of_eq (by rw [pairCells]; ac_rfl)

theorem Holds.exchanged_cells :
    Owns base (s.exchanged n1 n2 f.a (some l0) lm.top r.top (parentOf ctx) (sideOf ctx))
      (pairCells ctx lm r (n2, ⟨parentOf ctx, links false (some l0) r.top, b2⟩)
        (n1, ⟨some f.a, links false lm.top none, b1⟩) (some n1) (some n2) (some n2)
        ({(l0, { n with parent := some n2 })} + I)) := by
  have hright : Owns base _ (pairCells ..) := (h.crossedLeft hside hway).setLink_not none
  exact hright.swap.pair_setChild_right

theorem Holds.apart_reads (hroot : rootAt (some n1) (f :: sp) = some l0) :
    ApartReads s ctx f lm r n1 n2 l0 b1 b2 where
  upper := by
    have hupper := h
    rw [apart_eq] at hupper
    have hread := hupper.read_node
    rwa [top_plug, show rootAt (node lm n2 b2 nil).top (f :: sp) = some l0 from hroot] at hread
  lower := h.read_node
  inner := by
    have hne : n2 ≠ n1 := (h.crossed_inner hside hway).ne (by simp)
    rw [Memory.setParent_parent_ne hne, h.read_node]
    rfl
  innerSide := by
    intro q hq
    cases hq
    have hf : Holds base s (plug (sp ++ ⟨false, n1, b1, r⟩ :: ctx)
        (branch f.side (node lm n2 b2 nil) f.other f.a f.b)) := h
    rw [Memory.setParent_link, hf.read, hside]
    exact decide_eq_true rfl
  outerSide := (h.crossed_outer hside hway).pair_side_eq
  upperLeft := by
    rw [(h.crossed hside hway).read]
    rfl
  lowerLeft := by
    rw [(h.crossed hside hway).swap.read]
    rfl
  upperRight := by
    rw [(h.crossedLeft hside hway).read]
    rfl
  lowerRight := by
    rw [(h.crossedLeft hside hway).swap.read]
    rfl
  upperBalance := by
    rw [(h.exchanged_cells hside hway).swap.read]
  lowerBalance := by
    rw [(h.exchanged_cells hside hway).read]

end Exchange

/-- **Exchange.** The node and the last one of its left subtree have changed places, and their
balance factors. -/
theorem Holds.exchanged (h : Holds base s (apart ctx sp f lm r n1 n2 b1 b2))
    (hside : f.side = true) :
    ∃ l0, ApartReads s ctx f lm r n1 n2 l0 b1 b2 ∧
      Holds base (((s.exchanged n1 n2 f.a (some l0) lm.top r.top (parentOf ctx)
        (sideOf ctx)).setBalance n1 b2).setBalance n2 b1) (apart ctx sp f lm r n2 n1 b1 b2) := by
  obtain ⟨l0, n, I, hroot, hway⟩ := exists_way f sp n1
  refine ⟨l0, h.apart_reads hside hway hroot, ?_, ?_⟩
  · have hroot' : s.root = rootAt (some n1) ctx := by
      rw [h.root, apart_eq, top_plug, top_node]
    have hcrossed : (s.crossed n1 n2 f.a (parentOf ctx) (sideOf ctx)).root
        = rootAt (some n2) ctx :=
      root_relink (s := ((s.setParent n1 (some f.a)).relink (some f.a) true (some n1)).setParent n2
        (parentOf ctx)) hroot' _ _
    rw [apart_eq, top_plug, top_node]
    simpa [Memory.exchanged, Memory.crossedLeft] using hcrossed
  · have h₁ : Owns base _ (pairCells ..) := (h.exchanged_cells hside hway).swap.setBalance b2
    refine (h₁.swap.setBalance b1).of_eq ?_
    rw [apart, cells_plug, top_node, hway]
    simp only [cells_node, cells_nil, cellsAt, cellsAt_eq, cells_eq _ r, cells_eq _ lm, top_nil,
      add_zero, List.cons_append, parentOf]
    ac_rfl

end Apart

/-! ### Replacing a node by its only subtree -/

/-- The subtree `t` of a node takes its place below `p`. -/
def Memory.replaced (s : Memory) (t p : Option ℕ) (pside : Bool) : Memory :=
  match t with
  | none => s.relink p pside none
  | some c => (s.relink p pside (some c)).setParent c p

section Replace

variable {base s : Memory} {ctx : List (Frame ℕ)} {t : AvlTree ℕ} {side : Bool} {a : ℕ} {b : ℤ}

theorem Holds.side_eq {x y : AvlTree ℕ} (h : Holds base s (plug ctx (branch side x y a b))) :
    ∀ q ∈ parentOf ctx, decide ((s.node q).link true = some a) = sideOf ctx := by
  have howns := h.owns
  rw [cells_plug, cells_branch, top_branch, cellsAt_eq] at howns
  have howns' : Owns base s (headCell (some a) ctx +
      ({(a, ⟨parentOf ctx, links side x.top y.top, b⟩)} +
        (outerCells ctx + (cells (some a) x + cells (some a) y)))) := howns.of_eq (by ac_rfl)
  exact howns'.side_eq

/-- A node is on the side of its parent on which its place is. -/
theorem Holds.link_iff {f : Frame ℕ} {x y : AvlTree ℕ} {dir : Bool}
    (h : Holds base s (plug (f :: ctx) (branch side x y a b))) :
    (s.node f.a).link dir = some a ↔ f.side = dir := by
  have hf : Holds base s (plug ctx (branch f.side (branch side x y a b) f.other f.a f.b)) := h
  have hmem : a ∈ (branch side x y a b).toList := mem_of_top (top_branch ..)
  rw [hf.read, top_branch]
  dsimp only
  by_cases heq : f.side = dir
  · rw [← heq, links_self]
    exact iff_of_true rfl rfl
  · obtain rfl : dir = !f.side := by
      cases dir <;> simpa using heq
    rw [links_not]
    refine iff_of_false (fun hlink => ?_) heq
    -- it would be in both subtrees
    cases hside : f.side with rw [hside] at hf
    | false =>
      exact hf.top_ne hmem hlink
    | true =>
      exact hf.top_ne (mem_of_top hlink) (top_branch ..)

theorem Holds.relinked (h : Holds base s (plug ctx (branch side t nil a b))) :
    Owns base (s.relink (parentOf ctx) (sideOf ctx) t.top)
      ({(a, ⟨parentOf ctx, links side t.top none, b⟩)} +
        (headCell t.top ctx + outerCells ctx + (topCell (some a) t + innerCells t))) := by
  have howns := h.owns
  simp only [cells_plug, cells_branch, top_branch, cellsAt_eq, cells_nil, add_zero, top_nil,
    cells_eq _ t] at howns
  rw [add_assoc] at howns
  exact (howns.relink t.top).of_eq (by ac_rfl)

/-- **Replacement.** The subtree is in the place of the node, which is given up. -/
theorem Holds.replaced (h : Holds base s (plug ctx (branch side t nil a b))) :
    ∃ base' : Memory, (∀ x ≠ a, base'.node x = base.node x) ∧
      Holds base' (s.replaced t.top (parentOf ctx) (sideOf ctx)) (plug ctx t) := by
  have hroot := h.root
  rw [top_plug, top_branch] at hroot
  have hrelink := root_relink hroot (sideOf ctx) t.top
  have howns : Owns base (s.replaced t.top (parentOf ctx) (sideOf ctx))
      ({(a, ⟨parentOf ctx, links side t.top none, b⟩)} + cells none (plug ctx t)) := by
    have hrelinked := h.relinked
    rw [cells_plug, cellsAt_eq, cells_eq]
    cases t with
    | nil => exact hrelinked
    | node =>
      rw [topCell, add_left_comm _ {_}, add_left_comm] at hrelinked
      exact (hrelinked.setParent (parentOf ctx)).of_eq (by rw [topCell]; ac_rfl)
  obtain ⟨base', hbase, hleave⟩ := howns.leave
  refine ⟨base', hbase, ?_, hleave⟩
  rw [top_plug, ← hrelink]
  cases t <;> rfl

end Replace

/-! ### Linking a new node -/

/-- A node without subtrees comes below `p`. -/
def Memory.linked (s : Memory) (p : Option ℕ) (pside : Bool) (a : ℕ) : Memory :=
  ((((s.relink p pside (some a)).setParent a p).setLink a false none).setLink a true
    none).setBalance a 0

/-- **Insertion.** A node that is not in the tree gets an empty place. -/
theorem Holds.linked {base s : Memory} {ctx : List (Frame ℕ)} {a : ℕ}
    (h : Holds base s (plug ctx nil)) (ha : a ∉ (plug ctx nil).toList) :
    Holds base (s.linked (parentOf ctx) (sideOf ctx) a) (plug ctx (leaf a)) := by
  have hroot := h.root
  rw [top_plug] at hroot
  refine ⟨?_, ?_⟩
  · rw [top_plug]
    exact root_relink hroot (sideOf ctx) (some a)
  · have hjoin : Owns base s ({(a, s.node a)} + cells none (plug ctx nil)) := by
      refine h.owns.join ?_
      rw [keys_cells]
      exact ha
    rw [cells_plug, cellsAt_eq, cells_nil, add_zero, add_left_comm] at hjoin
    have h₁ := hjoin.relink (some a)
    rw [add_left_comm] at h₁
    have h₂ := (((h₁.setParent (parentOf ctx)).setLink false none).setLink true none).setBalance 0
    rw [update_update_links] at h₂
    refine h₂.of_eq ?_
    simp only [cells_plug, cellsAt_eq, leaf, cells_node, cells_nil, top_node, top_nil, add_zero]
    ac_rfl

end Tun2Socks.Structure.Avl
