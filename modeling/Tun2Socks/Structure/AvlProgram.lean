import Tun2Socks.Structure.AvlMoves

/-!
# The programs of a balanced tree

`BAVL.h` and `CAvl_impl.h` are two implementations of one design. They search, insert, rebalance,
remove and enumerate alike, and differ in how they rotate, exchange two nodes and replace a node
by its subtree: `CAvl` passes the parents that it has read before, `BAVL` reads them again. The
programs here have these parts as parameters (`Variant`); `link[0]` and `link[1]` are `link false`
and `link true`. Loops and the recursion of the rebalancing take the number of rounds they may make.

The user's comparator is not part of the tree. A search is given as `cut`, the result of comparing
what is searched for with the value of a node: an insertion compares the value of the new node,
a lookup the value it is asked for.

Every function is specified against the trees of `Framework.AvlTree`: the memory held a tree, and
holds the tree that the abstract operation makes of it. What is assumed of the parameters is
`Variant.Correct`. Counts and associative values are not configured in this program, and the
functions that verify a tree are for debugging.
-/

namespace Tun2Socks.Structure.Avl

open Framework

/-- The parts in which the two implementations differ. -/
structure Variant where
  /-- Rotate a node, in a direction. -/
  rotate : ℕ → Bool → M Unit
  /-- Rotate a child of a node: the node, the child and the direction. -/
  rotateBelow : ℕ → ℕ → Bool → M Unit
  /-- Exchange a node and the last one of its left subtree. -/
  swap : ℕ → ℕ → M Unit
  /-- Replace a node by a subtree: the node, the subtree and the parent of the node. -/
  replaceSubtree : ℕ → Option ℕ → Option ℕ → M Unit

/-! ### Rotation and rebalancing -/

/-- `BAVL_OPTNEG` and `CAvl_OPTNEG`. -/
def optNeg (a : ℤ) (neg : Bool) : ℤ := if neg then -a else a

namespace Variant

variable (v : Variant)

/-- `case 1` of the rebalancing. -/
def rotateStraight (node child : ℕ) (bside : Bool) (delta : ℤ) : M (ℕ × ℤ) := do
  v.rotate node (!bside)
  writeBalance node 0
  writeBalance child 0
  return (child, delta - 1)

/-- `case 0`. -/
def rotateEven (node child : ℕ) (bside : Bool) (bsidef delta : ℤ) : M (ℕ × ℤ) := do
  v.rotate node (!bside)
  writeBalance node (1 * bsidef)
  writeBalance child (-1 * bsidef)
  return (child, delta)

/-- `case -1`. -/
def rotateBent (node child : ℕ) (bside : Bool) (bsidef delta : ℤ) : M (ℕ × ℤ) := do
  assert ((← readNode child).link (!bside) ≠ none)
  let gchild ← deref ((← readNode child).link !bside)
  v.rotateBelow node child bside
  v.rotate node (!bside)
  writeBalance node (-max 0 ((← readNode gchild).balance * bsidef) * bsidef)
  writeBalance child (max 0 (-(← readNode gchild).balance * bsidef) * bsidef)
  writeBalance gchild 0
  return (gchild, delta - 1)

/-- The node is too heavy on the side `bside`: the new root of the subtree, and `delta`. -/
def transform (node : ℕ) (bside : Bool) (bsidef delta : ℤ) : M (ℕ × ℤ) := do
  assert ((← readNode node).link bside ≠ none)
  let child ← deref ((← readNode node).link bside)
  let balance := (← readNode child).balance
  if balance * bsidef = 1 then v.rotateStraight node child bside delta
  else if balance * bsidef = 0 then v.rotateEven node child bside bsidef delta
  else if balance * bsidef = -1 then v.rotateBent node child bside bsidef delta
  else throw .assert

/-- Perform transformations if the balance factor is wrong. -/
def restore (node : ℕ) (delta : ℤ) : M (ℕ × ℤ) := do
  let balance := (← readNode node).balance
  if balance = 2 then v.transform node true 1 delta
  else if balance = -2 then v.transform node false (-1) delta
  else return (node, delta)

/-- `_BAVL_rebalance` and `CAvl_rebalance`. -/
def rebalance : ℕ → ℕ → Bool → ℤ → M Unit
  | 0, _, _, _ => throw .diverges
  | fuel + 1, node, side, deltac => do
    assert (-1 ≤ deltac ∧ deltac ≤ 1)
    let balance := (← readNode node).balance
    assert (-1 ≤ balance ∧ balance ≤ 1)
    if deltac = 0 then return ()
    else
      let delta := max deltac (optNeg balance side) - max 0 (optNeg balance side)
      assert (-1 ≤ delta ∧ delta ≤ 1)
      writeBalance node (balance - optNeg deltac side)
      let res ← v.restore node delta
      assert (-1 ≤ res.2 ∧ res.2 ≤ 1)
      match (← readNode res.1).parent with
      | none => return ()
      | some p => rebalance fuel p (decide ((← readNode p).link true = some res.1)) res.2

end Variant

/-! ### Insertion -/

/-- The loop of an insertion and of a lookup: the node that compares equal, or the last
one before the way ends, with the side on which it ends. -/
def search (cut : ℕ → Ordering) : ℕ → ℕ → M (ℕ × Option Bool)
  | 0, _ => throw .diverges
  | fuel + 1, c => do
    if cut c = .eq then return (c, none)
    else
      let side := decide (cut c = .gt)
      match (← readNode c).link side with
      | none => return (c, some side)
      | some c' => search cut fuel c'

/-- The fields of the new node. -/
def initNode (node : ℕ) (parent : Option ℕ) : M Unit := do
  writeParent node parent
  writeLink node false none
  writeLink node true none
  writeBalance node 0

/-- `BAVL_Insert` and `CAvl_Insert`: the result and `*ref`. -/
def Variant.insert (v : Variant) (cut : ℕ → Ordering) (fuel node : ℕ) : M (Bool × Option ℕ) := do
  match ← readRoot with
  | none => do
    writeRoot (some node)
    initNode node none
    return (true, none)
  | some c => do
    let found ← search cut fuel c
    match found.2 with
    | none => return (false, some found.1)
    | some side => do
      writeLink found.1 side (some node)
      initNode node (some found.1)
      v.rebalance fuel found.1 side 1
      return (true, some found.1)

/-! ### Removal -/

/-- `while (n->link[side]) { n = n->link[side]; }`. -/
def subtreeEnd (side : Bool) : ℕ → ℕ → M ℕ
  | 0, _ => throw .diverges
  | fuel + 1, n => do
    match (← readNode n).link side with
    | none => return n
    | some n' => subtreeEnd side fuel n'

/-- `_BAVL_subtree_max` and `CAvl_subtree_max`. -/
def subtreeMax (fuel : ℕ) (n : Option ℕ) : M ℕ := do
  assert (n ≠ none)
  subtreeEnd true fuel (← deref n)

namespace Variant

variable (v : Variant)

/-- If the node has both subtrees, swap it with the largest one of the left subtree. -/
def lower (fuel node : ℕ) : M Unit := do
  let n ← readNode node
  if n.link false ≠ none ∧ n.link true ≠ none then do
    let max ← subtreeMax fuel (n.link false)
    v.swap node max
  else return ()

/-- Remove a node that has at most one subtree. -/
def unlink (fuel node : ℕ) : M Unit := do
  let n ← readNode node
  assert (¬ (n.link false ≠ none ∧ n.link true ≠ none))
  let child := if n.link false ≠ none then n.link false else n.link true
  match n.parent with
  | some p => do
    let side := decide ((← readNode p).link true = some node)
    v.replaceSubtree node child n.parent
    v.rebalance fuel p side (-1)
  | none => v.replaceSubtree node child n.parent

/-- `BAVL_Remove` and `CAvl_Remove`. -/
def remove (fuel node : ℕ) : M Unit := do
  v.lower fuel node
  v.unlink fuel node

end Variant

/-- Exchange the balance factors of two nodes. -/
def swapBalance (n1 n2 : ℕ) : M Unit := do
  let b := (← readNode n1).balance
  writeBalance n1 (← readNode n2).balance
  writeBalance n2 b

/-! ### Lookup and enumeration -/

/-- The lookup of a value. -/
def lookupExact (cut : ℕ → Ordering) (fuel : ℕ) : M (Option ℕ) := do
  match ← readRoot with
  | none => return none
  | some c => do
    let found ← search cut fuel c
    match found.2 with
    | none => return some found.1
    | some _ => return none

/-- The end of the tree on a side. -/
def getEnd (side : Bool) (fuel : ℕ) : M (Option ℕ) := do
  match ← readRoot with
  | none => return none
  | some n => return some (← subtreeEnd side fuel n)

/-- `while (n->parent && n == n->parent->link[side]) { n = n->parent; } n = n->parent;`. -/
def climb (side : Bool) : ℕ → ℕ → M (Option ℕ)
  | 0, _ => throw .diverges
  | fuel + 1, n => do
    match (← readNode n).parent with
    | none => return none
    | some p => do
      if (← readNode p).link side = some n then climb side fuel p
      else return some p

/-- The neighbour of a node on a side. -/
def neighbour (side : Bool) (fuel n : ℕ) : M (Option ℕ) := do
  match (← readNode n).link side with
  | some m => return some (← subtreeEnd (!side) fuel m)
  | none => climb side fuel n

/-! ### Specifications -/

open AvlTree

/-- What the parts do to a memory that holds a tree. -/
structure Variant.Correct (v : Variant) : Prop where
  rotate {base s : Memory} {ctx : List (Frame ℕ)} {side : Bool} {c1 c2 outer : AvlTree ℕ}
    {a c : ℕ} {b cb : ℤ} :
    Holds base s (plug ctx (branch side (branch side c1 c2 c cb) outer a b)) →
      wp (v.rotate a (!side)) (fun _ s' =>
        Holds base s' (plug ctx (branch side c1 (branch side c2 outer a b) c cb))) s
  rotateBelow {base s : Memory} {f : Frame ℕ} {ctx : List (Frame ℕ)} {side : Bool}
    {c1 c2 outer : AvlTree ℕ} {a c : ℕ} {b cb : ℤ} :
    Holds base s (plug (f :: ctx) (branch side (branch side c1 c2 c cb) outer a b)) →
      wp (v.rotateBelow f.a a (!side)) (fun _ s' =>
        Holds base s' (plug (f :: ctx) (branch side c1 (branch side c2 outer a b) c cb))) s
  swap_connected {base s : Memory} {ctx : List (Frame ℕ)} {lm r : AvlTree ℕ} {n1 n2 : ℕ}
    {b1 b2 : ℤ} :
    Holds base s (plug ctx (node (node lm n2 b2 nil) n1 b1 r)) →
      wp (v.swap n1 n2) (fun _ s' =>
        Holds base s' (plug ctx (node (node lm n1 b2 nil) n2 b1 r))) s
  swap_apart {base s : Memory} {ctx sp : List (Frame ℕ)} {f : Frame ℕ} {lm r : AvlTree ℕ}
    {n1 n2 : ℕ} {b1 b2 : ℤ} :
    Holds base s (apart ctx sp f lm r n1 n2 b1 b2) → f.side = true →
      wp (v.swap n1 n2) (fun _ s' => Holds base s' (apart ctx sp f lm r n2 n1 b1 b2)) s
  replaceSubtree {base s : Memory} {ctx : List (Frame ℕ)} {side : Bool} {t : AvlTree ℕ} {a : ℕ}
    {b : ℤ} :
    Holds base s (plug ctx (branch side t nil a b)) →
      wp (v.replaceSubtree a t.top (parentOf ctx)) (fun _ s' => ∃ base' : Memory,
        (∀ x ≠ a, base'.node x = base.node x) ∧ Holds base' s' (plug ctx t)) s

variable {v : Variant} {base s : Memory} {ctx : List (Frame ℕ)}

section Rotations

variable {side : Bool} {c1 c2 outer : AvlTree ℕ} {a c : ℕ} {b cb : ℤ}

/-- What a repair leaves: the tree and the number that the abstract repair gives. -/
def Mended (base : Memory) (ctx : List (Frame ℕ)) (res : AvlTree ℕ × ℤ) (r : ℕ × ℤ) (s' : Memory) :
    Prop :=
  Holds base s' (plug ctx res.1) ∧ res.1.top = some r.1 ∧ res.2 = r.2

theorem Variant.rotateStraight_spec (hv : v.Correct)
    (h : Holds base s (plug ctx (branch side (branch side c1 c2 c cb) outer a b)))
    (hcb : cb * sgn side = 1) (d : ℤ) :
    wp (v.rotateStraight a c side d)
      (Mended base ctx (mendSide side (branch side c1 c2 c cb) outer a b d)) s := by
  rw [mendSide_straight hcb, rotateStraight, wp_bind]
  refine wp_mono (hv.rotate h) fun _ s' h' => ?_
  simp only [wp_bind, wp_writeBalance, wp_pure]
  exact ⟨(h'.setBalance_far 0).setBalance 0, top_branch .., rfl⟩

theorem Variant.rotateEven_spec (hv : v.Correct)
    (h : Holds base s (plug ctx (branch side (branch side c1 c2 c cb) outer a b)))
    (hcb : cb * sgn side = 0) (d : ℤ) :
    wp (v.rotateEven a c side (sgn side) d)
      (Mended base ctx (mendSide side (branch side c1 c2 c cb) outer a b d)) s := by
  rw [mendSide_even hcb, rotateEven, wp_bind]
  refine wp_mono (hv.rotate h) fun _ s' h' => ?_
  simp only [wp_bind, wp_writeBalance, wp_pure]
  exact ⟨(h'.setBalance_far _).setBalance _, top_branch .., rfl⟩

theorem Variant.rotateBent_spec (hv : v.Correct) {g1 g2 : AvlTree ℕ} {g : ℕ} {gb : ℤ}
    (h : Holds base s (plug ctx (branch side (branch side c1 (branch side g1 g2 g gb) c cb) outer a
      b))) (hcb : cb * sgn side = -1) (d : ℤ) :
    wp (v.rotateBent a c side (sgn side) d)
      (Mended base ctx (mendSide side (branch side c1 (branch side g1 g2 g gb) c cb) outer a b d))
      s := by
  have hchild : Holds base s (plug (⟨side, a, b, outer⟩ :: ctx)
      (branch (!side) (branch (!side) g2 g1 g gb) c1 c cb)) := by
    rw [branch_not, branch_not]
    exact h
  have hc := hchild.read
  rw [top_branch, links_comm] at hc
  rw [mendSide_bent hcb, rotateBent]
  simp only [wp_bind, wp_readNode, hc, links_not, wp_assert, wp_deref]
  refine ⟨Option.some_ne_none g, ?_⟩
  have hrotate := hv.rotateBelow hchild
  rw [Bool.not_not] at hrotate
  refine wp_mono hrotate fun _ s₁ h₁ => ?_
  -- the grandchild is now between the node and the child
  have h₁' : Holds base s₁ (plug ctx (branch side (branch side (branch side c1 g1 c cb) g2 g gb)
      outer a b)) := by
    rw [branch_not, branch_not] at h₁
    exact h₁
  refine wp_mono (hv.rotate h₁') fun _ s₂ h₂ => ?_
  -- its balance factor is read twice before it is written
  have h₃ := h₂.setBalance_far (-max 0 (gb * sgn side) * sgn side)
  have h₄ := h₃.setBalance_near (max 0 (-gb * sgn side) * sgn side)
  simp only [wp_writeBalance, wp_pure, h₂.read, h₃.read]
  exact ⟨h₄.setBalance 0, top_branch .., rfl⟩

/-- `transform` is the abstract repair, below a node that is too heavy on the side. -/
theorem Variant.transform_spec (hv : v.Correct) {child : AvlTree ℕ} (side : Bool)
    (h : Holds base s (plug ctx (branch side child outer a b))) (hchild : child.Balanced)
    (hheight : 2 ≤ child.height) (d : ℤ) :
    wp (v.transform a side (sgn side) d) (Mended base ctx (mendSide side child outer a b d)) s := by
  obtain ⟨c1, c2, c, cb, rfl, -, -, hcase⟩ := exists_heavy hchild hheight side
  have hc := h.read_near
  simp only [transform, wp_bind, wp_readNode, h.read, links_self, top_branch, wp_assert, wp_deref,
    hc]
  refine ⟨Option.some_ne_none c, ?_⟩
  obtain ⟨hcb, -⟩ | ⟨hcb, -⟩ | ⟨hcb, -, g1, g2, g, gb, rfl, -⟩ := hcase
  · rw [if_pos hcb]
    exact Variant.rotateStraight_spec hv h hcb d
  · rw [if_neg (by omega), if_pos hcb]
    exact Variant.rotateEven_spec hv h hcb d
  · rw [if_neg (by omega), if_neg (by omega), if_pos hcb]
    exact Variant.rotateBent_spec hv h hcb d

/-- A node whose balance factor is that of its subtrees, and at most two. -/
theorem Variant.restore_spec (hv : v.Correct) {l r : AvlTree ℕ} (h : Holds base s (plug ctx (node l a b r)))
    (hb : b = r.height - l.height) (hl : l.Balanced) (hr : r.Balanced) (d : ℤ) :
    wp (v.restore a d) (Mended base ctx (mend (node l a b r) d)) s := by
  simp only [restore, wp_bind, wp_readNode, h.read_node, mend]
  split_ifs with htwo htwo
  · exact Variant.transform_spec hv true h hr (by omega) d
  · exact Variant.transform_spec hv false h hl (by omega) d
  · exact (wp_pure _).mpr ⟨h, rfl, rfl⟩

end Rotations

/-! ### Rebalancing -/

theorem optNeg_eq (z : ℤ) (side : Bool) : optNeg z side = -(sgn side * z) := by
  cases side <;> simp [optNeg]

variable {t : AvlTree ℕ}

/-- One step upwards. -/
theorem adjust_node {f : Frame ℕ} {h : ℕ} {d : ℤ} (hf : f.Balanced h)
    (ht : t.Balanced) (hheight : (t.height : ℤ) = h + d) :
    ∃ l r, branch f.side t f.other f.a (f.b + sgn f.side * d)
        = node l f.a (f.b + sgn f.side * d) r ∧
      f.b + sgn f.side * d = r.height - l.height ∧ l.Balanced ∧ r.Balanced := by
  have hdiff := hf.diff
  have hother := hf.other
  obtain ⟨side, a, fb, other⟩ := f
  cases side
  · refine ⟨t, other, rfl, ?_, ht, hother⟩
    rw [sgn_false] at hdiff ⊢
    dsimp only at hdiff ⊢
    omega
  · refine ⟨other, t, rfl, ?_, hother, ht⟩
    rw [sgn_true] at hdiff ⊢
    dsimp only at hdiff ⊢
    omega

/-- **Rebalancing.** The program does what the abstract function does, from the frame around the
subtree that changed up to the first ancestor whose height stays. -/
theorem Variant.rebalance_spec (hv : v.Correct) {fuel h : ℕ} {f : Frame ℕ} {d : ℤ}
    (hholds : Holds base s (plug (f :: ctx) t)) (hctx : BalancedAt h (f :: ctx))
    (ht : t.Balanced) (hheight : (t.height : ℤ) = h + d) (hge : -1 ≤ d) (hle : d ≤ 1)
    (hfuel : ctx.length < fuel) :
    wp (v.rebalance fuel f.a f.side d) (fun _ s' =>
      Holds base s' (AvlTree.rebalance (f :: ctx) t d)) s := by
  induction fuel generalizing s h f ctx t d with
  | zero => cases hfuel
  | succ _ ih =>
    rw [plug_cons, Frame.fill] at hholds
    have hf := hctx.1
    obtain ⟨hsge, hsle⟩ := (sgn_mul_mem f.side f.b).mp ⟨hf.ge, hf.le⟩
    simp only [rebalance, AvlTree.rebalance, wp_bind, wp_assert, wp_readNode, hholds.read, wp_ite]
    refine ⟨⟨hge, hle⟩, ⟨hf.ge, hf.le⟩, ?_⟩
    split_ifs with hzero
    · exact (wp_pure _).mpr hholds
    simp only [wp_writeBalance, optNeg_eq, sub_neg_eq_add]
    refine ⟨⟨by omega, by omega⟩, ?_⟩
    have hset := hholds.setBalance (f.b + sgn f.side * d)
    obtain ⟨l, r, hnode, hb, hl, hr⟩ := adjust_node hf ht hheight
    rw [hnode] at hset
    refine wp_mono (Variant.restore_spec hv hset hb hl hr _) fun res s' hres => ?_
    rw [← hnode] at hres
    obtain ⟨hholds', htop, hd⟩ : Mended base ctx (adjust f t d) res s' := hres
    obtain ⟨hbal, hge', hle', hh⟩ := adjust_spec hf ht hheight hge hle
    rw [hd] at hge' hle' hh ⊢
    generalize (adjust f t d).1 = t' at hholds' htop hbal hh ⊢
    cases t' with
    | nil => cases htop
    | node l' _ b' r' =>
      cases htop
      refine ⟨⟨hge', hle'⟩, ?_⟩
      rw [hholds'.read_node]
      cases ctx with
      | nil => exact (wp_pure _).mpr hholds'
      | cons f' ctx =>
        have hbranch : Holds base s' (plug (f' :: ctx) (branch false l' r' _ b')) := hholds'
        simp only [parentOf, wp_bind, wp_readNode, hbranch.side_eq f'.a rfl, sideOf]
        exact ih hholds' hctx.2 hbal hh hge' hle' (Nat.lt_of_succ_lt_succ hfuel)

/-! ### Insertion -/

/-- What a search returns for the place that the abstract search finds. -/
def Found (res : ℕ × Option Bool) (place : List (Frame ℕ) × AvlTree ℕ) : Prop :=
  match place.2 with
  | nil => parentOf place.1 = some res.1 ∧ res.2 = some (sideOf place.1)
  | node _ a _ _ => res = (a, none)

variable {cut : ℕ → Ordering}

theorem search_spec {fuel c : ℕ}
    (h : Holds base s (plug ctx t)) (htop : t.top = some c) (hfuel : t.toList.length ≤ fuel) :
    wp (search cut fuel c) (fun res s' => s' = s ∧ Found res (descend cut t ctx)) s := by
  induction fuel generalizing t ctx c with
  | zero =>
    have hmem := mem_of_top htop
    rw [List.length_eq_zero_iff.mp (Nat.le_zero.mp hfuel)] at hmem
    cases hmem
  | succ fuel ih =>
    cases t with
    | nil => cases htop
    | node l a b r =>
      obtain rfl := Option.some.inj htop
      rw [toList, List.length_append, List.length_cons] at hfuel
      have hread := h.read_node
      -- the way goes on with a subtree, or ends if it is empty
      have hnext (side : Bool) (x y : AvlTree ℕ) (hx : Holds base s
          (plug (⟨side, a, b, y⟩ :: ctx) x)) (hfuel : x.toList.length ≤ fuel) :
          wp (match x.top with
            | none => pure (a, some side)
            | some c' => search cut fuel c')
            (fun res s' => s' = s ∧ Found res (descend cut x (⟨side, a, b, y⟩ :: ctx))) s := by
        cases hx_top : x.top with
        | none =>
          obtain rfl := top_eq_none.mp hx_top
          exact (wp_pure _).mpr ⟨rfl, rfl, rfl⟩
        | some => exact ih hx hx_top hfuel
      rw [search, wp_ite, descend]
      cases hcut : cut a with
      | lt =>
        rw [if_neg (by decide), wp_bind, wp_readNode, hread]
        exact hnext false l r h (by omega)
      | eq =>
        rw [if_pos rfl]
        exact (wp_pure _).mpr ⟨rfl, rfl⟩
      | gt =>
        rw [if_neg (by decide), wp_bind, wp_readNode, hread]
        exact hnext true r l h (by omega)

variable {fuel a : ℕ}

/-- **Insertion.** A node that is not in the tree gets the place the search finds, if none there
compares equal; otherwise nothing is written. -/
theorem Variant.insert_spec (hv : v.Correct) (h : Holds base s t)
    (hbal : t.Balanced) (ha : a ∉ t.toList) (hfuel : t.toList.length ≤ fuel) :
    wp (v.insert cut fuel a) (fun res s' =>
      match descend cut t [] with
      | (ctx, nil) => res = (true, parentOf ctx) ∧
          Holds base s' (AvlTree.rebalance ctx (leaf a) 1)
      | (_, node _ c _ _) => res = (false, some c) ∧ s' = s) s := by
  have hplug := plug_descend cut t []
  rw [insert, wp_bind, wp_readRoot, h.root]
  cases htop : t.top with
  | none =>
    obtain rfl := top_eq_none.mp htop
    have hplain : Holds base s (plug [] nil) := h
    simp only [initNode, wp_bind, wp_writeRoot, wp_writeParent, wp_writeLink, wp_writeBalance,
      wp_pure]
    exact ⟨rfl, hplain.linked ha⟩
  | some =>
    have hplain : Holds base s (plug [] t) := h
    rw [wp_bind]
    refine wp_mono (search_spec hplain htop hfuel) ?_
    rintro res _ ⟨rfl, hfound⟩
    generalize descend cut t [] = place at hplug hfound ⊢
    obtain ⟨ctx, t'⟩ := place
    cases t' with
    | node _ c' =>
      obtain rfl : res = (c', none) := hfound
      exact (wp_pure _).mpr ⟨rfl, rfl⟩
    | nil =>
      obtain ⟨c', side⟩ := res
      obtain ⟨hparent, hside⟩ := hfound
      cases ctx with
      | nil => cases hparent
      | cons f ctx =>
        cases hparent
        obtain rfl : side = some f.side := hside
        obtain rfl : t = plug (f :: ctx) nil := hplug.symm
        obtain ⟨hctx, -⟩ := (balanced_plug (f :: ctx) nil).mp hbal
        have hlen := length_add_le_plug (f :: ctx) nil
        rw [List.length_cons] at hlen
        simp only [initNode, wp_bind, wp_writeParent, wp_writeLink, wp_writeBalance]
        refine wp_mono (Variant.rebalance_spec hv (h.linked ha) hctx (balanced_leaf a) rfl (by decide)
          le_rfl (by omega)) fun _ s' h' => ?_
        exact (wp_pure _).mpr ⟨rfl, h'⟩

/-! ### Removal -/

variable {side : Bool}

/-- The end of a subtree. -/
theorem subtreeEnd_spec {fuel n : ℕ} (h : Holds base s (plug ctx t))
    (htop : t.top = some n) (hfuel : t.toList.length ≤ fuel) :
    wp (subtreeEnd side fuel n) (fun r s' => s' = s ∧ (t.walk side).head? = some r) s := by
  induction fuel generalizing t ctx n with
  | zero =>
    have hmem := mem_of_top htop
    rw [List.length_eq_zero_iff.mp (Nat.le_zero.mp hfuel)] at hmem
    cases hmem
  | succ fuel ih =>
    have hne : t ≠ nil := by
      rintro rfl
      cases htop
    obtain ⟨x, y, a, b, rfl⟩ := exists_branch side hne
    obtain rfl : a = n := Option.some.inj ((top_branch side x y a b).symm.trans htop)
    have hlen : x.toList.length ≤ fuel := by
      rw [← length_walk side, walk_branch, List.length_append, List.length_cons, length_walk]
        at hfuel
      omega
    simp only [subtreeEnd, wp_bind, wp_readNode, h.read, links_self]
    cases hx : x.top with
    | none =>
      obtain rfl := top_eq_none.mp hx
      rw [walk_branch, walk_nil]
      exact (wp_pure _).mpr ⟨rfl, rfl⟩
    | some n' =>
      have hx_ne : x ≠ nil := by
        rintro rfl
        cases hx
      have hholds_x : Holds base s (plug (⟨side, a, b, y⟩ :: ctx) x) := h
      rw [head_walk_branch hx_ne]
      exact ih hholds_x hx hlen

variable {b : ℤ}

/-- If a node has two subtrees, it goes to the place of the last node of the left one. -/
theorem Variant.lower_spec (hv : v.Correct) {ll lr r : AvlTree ℕ} {la : ℕ} {lb : ℤ}
    (h : Holds base s (plug ctx (node (node ll la lb lr) a b r))) (hr : r ≠ nil)
    (hfuel : (node ll la lb lr).toList.length ≤ fuel) :
    wp (v.lower fuel a) (fun _ s' => Holds base s'
      (plug ((lastOf ll la lb lr []).ctx ++ ⟨false, (lastOf ll la lb lr []).a, b, r⟩ :: ctx)
        (node (lastOf ll la lb lr []).left a (lastOf ll la lb lr []).b nil))) s := by
  have ha : s.node a = ⟨parentOf ctx, links false (some la) r.top, b⟩ := h.read_node
  have htop : r.top ≠ none := fun hnone => hr (top_eq_none.mp hnone)
  have hleft : Holds base s (plug (⟨false, a, b, r⟩ :: ctx) (node ll la lb lr)) := h
  simp only [lower, subtreeMax, wp_bind, wp_readNode, ha, links_self, links_false_true, wp_ite,
    wp_assert, wp_deref]
  rw [if_pos ⟨Option.some_ne_none la, htop⟩]
  refine ⟨Option.some_ne_none la, wp_mono (subtreeEnd_spec hleft rfl hfuel) ?_⟩
  rintro m s' ⟨rfl, hhead⟩
  rw [head_walk_lastOf] at hhead
  have hlast := plug_lastOf ll la lb lr []
  have hsides : ∀ f ∈ (lastOf ll la lb lr []).ctx, f.side = true :=
    fun f hf => (side_lastOf hf).resolve_left List.not_mem_nil
  generalize lastOf ll la lb lr [] = last at hhead hlast hsides ⊢
  obtain ⟨way, lm, n2, b2⟩ := last
  cases hhead
  dsimp only at hlast hsides ⊢
  rw [plug_nil] at hlast
  rw [← hlast] at h
  cases way with
  | nil => exact hv.swap_connected h
  | cons f =>
    rw [← apart_eq] at h
    exact hv.swap_apart h (hsides f List.mem_cons_self)

section Unlink

variable {t : AvlTree ℕ} {fuel a : ℕ} {b : ℤ}

/-- A node with at most one subtree is replaced by it, and what is above is rebalanced. -/
theorem Variant.unlink_spec (hv : v.Correct) (side : Bool) (h : Holds base s (plug ctx (branch side t nil a b)))
    (hbal : (plug ctx (branch side t nil a b)).Balanced) (hfuel : ctx.length ≤ fuel) :
    wp (v.unlink fuel a) (fun _ s' => ∃ base' : Memory, (∀ x ≠ a, base'.node x = base.node x) ∧
      Holds base' s' (AvlTree.rebalance ctx t (-1))) s := by
  obtain ⟨hctx, ht⟩ := balanced_single hbal
  simp only [unlink, wp_bind, wp_readNode, h.read, top_nil, wp_assert, links_child]
  refine ⟨links_none side t.top, ?_⟩
  have hreplace := hv.replaceSubtree h
  cases ctx with
  | nil => exact hreplace
  | cons f =>
    simp only [parentOf, wp_bind, wp_readNode, h.side_eq f.a rfl, sideOf]
    refine wp_mono hreplace ?_
    rintro _ s' ⟨base', hbase, hholds⟩
    refine wp_mono (Variant.rebalance_spec hv hholds hctx ht (by omega) le_rfl (by decide) hfuel) ?_
    exact fun _ s'' h'' => ⟨base', hbase, h''⟩

end Unlink

/-- **Removal.** The node is taken out of the tree, and is the only one outside of it that is
written. -/
theorem Variant.remove_spec (hv : v.Correct) {l r : AvlTree ℕ}
    (h : Holds base s (plug ctx (node l a b r))) (hbal : (plug ctx (node l a b r)).Balanced)
    (hfuel : (plug ctx (node l a b r)).toList.length ≤ fuel) :
    wp (v.remove fuel a) (fun _ s' => ∃ base' : Memory, (∀ x ≠ a, base'.node x = base.node x) ∧
      Holds base' s' (removeAt ctx b l r)) s := by
  have hlen := length_add_le_plug ctx (node l a b r)
  rw [toList, List.length_append, List.length_cons] at hlen
  rw [remove, wp_bind]
  -- with an empty subtree the node stays where it is
  have hstay (side : Bool) (t : AvlTree ℕ)
      (h : Holds base s (plug ctx (branch side t nil a b)))
      (hbal : (plug ctx (branch side t nil a b)).Balanced) :
      wp (v.lower fuel a) (fun _ s' => wp (v.unlink fuel a) (fun _ s' => ∃ base' : Memory,
        (∀ x ≠ a, base'.node x = base.node x) ∧
          Holds base' s' (AvlTree.rebalance ctx t (-1))) s') s := by
    simp only [lower, wp_bind, wp_readNode, wp_ite, h.read, top_nil, if_neg (links_none side t.top),
      wp_pure]
    exact Variant.unlink_spec hv side h hbal (by omega)
  match l, r with
  | nil, r => exact hstay true r h hbal
  | node ll la lb lr, nil => exact hstay false (node ll la lb lr) h hbal
  | node ll la lb lr, node rl ra rb rr =>
    refine wp_mono (Variant.lower_spec hv h (by nofun) (by omega)) fun _ s' h' => ?_
    refine Variant.unlink_spec hv false h' (balanced_lowered hbal) ?_
    rw [← plug_append_lastOf] at hfuel
    have hway := length_add_le_plug ((lastOf ll la lb lr []).ctx ++
      ⟨false, a, b, node rl ra rb rr⟩ :: ctx)
        (node (lastOf ll la lb lr []).left (lastOf ll la lb lr []).a (lastOf ll la lb lr []).b nil)
    rw [List.length_append, List.length_cons] at hway ⊢
    omega

/-! ### Lookup -/

/-- What an exact lookup returns for the place that the abstract search finds. -/
theorem lookupExact_spec {fuel : ℕ} (h : Holds base s t)
    (hfuel : t.toList.length ≤ fuel) :
    wp (lookupExact cut fuel) (fun res s' => s' = s ∧ res = (descend cut t []).2.top) s := by
  rw [lookupExact, wp_bind, wp_readRoot, h.root]
  cases htop : t.top with
  | none =>
    obtain rfl := top_eq_none.mp htop
    exact (wp_pure _).mpr ⟨rfl, rfl⟩
  | some =>
    have hplain : Holds base s (plug [] t) := h
    rw [wp_bind]
    refine wp_mono (search_spec hplain htop hfuel) ?_
    rintro res _ ⟨rfl, hfound⟩
    generalize descend cut t [] = place at hfound ⊢
    obtain ⟨ctx, t'⟩ := place
    cases t' with
    | nil =>
      obtain ⟨c', side⟩ := res
      obtain ⟨-, rfl⟩ := hfound
      exact (wp_pure _).mpr ⟨rfl, rfl⟩
    | node _ c' =>
      obtain rfl : res = (c', none) := hfound
      exact (wp_pure _).mpr ⟨rfl, rfl⟩

/-! ### Enumeration -/

theorem getEnd_spec {fuel : ℕ} (h : Holds base s t)
    (hfuel : t.toList.length ≤ fuel) :
    wp (getEnd side fuel) (fun res s' => s' = s ∧ res = (t.walk side).head?) s := by
  rw [getEnd, wp_bind, wp_readRoot, h.root]
  cases htop : t.top with
  | none =>
    obtain rfl := top_eq_none.mp htop
    rw [walk_nil]
    exact (wp_pure _).mpr ⟨rfl, rfl⟩
  | some =>
    have hplain : Holds base s (plug [] t) := h
    rw [wp_bind]
    refine wp_mono (subtreeEnd_spec hplain htop hfuel) ?_
    rintro res _ ⟨rfl, hres⟩
    exact (wp_pure _).mpr ⟨rfl, hres.symm⟩

/-- The first ancestor from which the way to the node goes to the other side. -/
theorem climb_spec {dir side : Bool} {fuel n : ℕ} {x y : AvlTree ℕ}
    (h : Holds base s (plug ctx (branch dir x y n b))) (hfuel : ctx.length < fuel) :
    wp (climb side fuel n) (fun res s' => s' = s ∧ res = (rest (!side) ctx).head?) s := by
  induction fuel generalizing ctx n b dir x y with
  | zero => cases hfuel
  | succ _ ih =>
    simp only [climb, wp_bind, wp_readNode, h.read]
    cases ctx with
    | nil => exact (wp_pure _).mpr ⟨rfl, rfl⟩
    | cons f ctx =>
      have hf : Holds base s (plug ctx (branch f.side (branch dir x y n b) f.other f.a f.b)) := h
      simp only [parentOf, wp_bind, wp_readNode, wp_ite, h.link_iff, rest]
      by_cases hside : f.side = side
      · rw [if_pos hside, if_neg (by simp [hside]), List.nil_append]
        exact ih hf (Nat.lt_of_succ_lt_succ hfuel)
      · rw [if_neg hside, if_pos (by cases side <;> simpa using hside)]
        exact (wp_pure _).mpr ⟨rfl, rfl⟩

/-- The neighbour of a node is the element next to it. -/
theorem neighbour_spec {fuel n : ℕ} {x y : AvlTree ℕ}
    (h : Holds base s (plug ctx (branch side x y n b)))
    (hfuel : (plug ctx (branch side x y n b)).toList.length ≤ fuel) :
    wp (neighbour side fuel n)
      (fun res s' => s' = s ∧ res = (x.walk (!side) ++ rest (!side) ctx).head?) s := by
  have hlen := length_add_le_plug ctx (branch side x y n b)
  rw [← length_walk side (branch side x y n b), walk_branch, List.length_append, List.length_cons,
    length_walk, length_walk] at hlen
  simp only [neighbour, wp_bind, wp_readNode, h.read, links_self]
  cases htop : x.top with
  | none =>
    obtain rfl := top_eq_none.mp htop
    rw [walk_nil, List.nil_append]
    exact climb_spec h (by omega)
  | some =>
    have hx : Holds base s (plug (⟨side, n, b, y⟩ :: ctx) x) := h
    rw [wp_bind]
    refine wp_mono (subtreeEnd_spec hx htop (by omega)) ?_
    rintro res _ ⟨rfl, hres⟩
    rw [List.head?_append, hres]
    exact (wp_pure _).mpr ⟨rfl, rfl⟩

end Tun2Socks.Structure.Avl
