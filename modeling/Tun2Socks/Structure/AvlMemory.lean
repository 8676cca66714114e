import Tun2Socks.Framework.Checked
import Tun2Socks.Framework.AvlTree

/-!
# Balanced trees in memory

The nodes that `BAVL.h` and `CAvl_impl.h` link into a tree: each has a pointer to its parent, two
pointers to its subtrees and a balance factor, and there is a pointer to the root. The programs
read and write single fields; a fault is a failed `ASSERT`, a null pointer that is followed, or a
loop that has not ended after as many rounds as it was given (the specifications say how many
are enough).

What a program does to the memory is followed cell by cell.

* A `Cell` is the address of a node with the contents of its fields, and `cells` and `cellsAt` are
  the cells that a tree, or the place around a subtree, needs.
* `Owns base s C` says that the cells of the multiset `C` are in the memory `s`, at different
  addresses, and that every other node is as in `base`. Each write has a rule that changes one
  cell and keeps the others.
* `Holds base s t` says that the memory holds the tree `t`: the cells of `t`, and the pointer to
  the root. `Represents s t` says so without a word about the nodes outside.
-/

namespace Tun2Socks.Structure.Avl

open Framework AvlTree Function

/-- The fields of a node. -/
structure Node where
  parent : Option ℕ
  link : Bool → Option ℕ
  balance : ℤ

/-- The pointer to the root, and the nodes by their address. -/
structure Memory where
  root : Option ℕ
  node : ℕ → Node

inductive Fault
  | assert
  | nullPointer
  | diverges
  deriving DecidableEq, Repr

/-- A program on the nodes. -/
abbrev M := Checked Fault Memory

/-! ### Fields -/

namespace Memory

variable (s : Memory)

def setRoot (p : Option ℕ) : Memory := { s with root := p }

def setParent (a : ℕ) (p : Option ℕ) : Memory :=
  { s with node := update s.node a { s.node a with parent := p } }

def setLink (a : ℕ) (side : Bool) (p : Option ℕ) : Memory :=
  { s with
    node := update s.node a
      { s.node a with link := update (s.node a).link side p } }

def setBalance (a : ℕ) (b : ℤ) : Memory :=
  { s with node := update s.node a { s.node a with balance := b } }

variable {s} {a x : ℕ}

@[simp] theorem setRoot_root (p : Option ℕ) : (s.setRoot p).root = p := rfl

@[simp] theorem setRoot_node (p : Option ℕ) : (s.setRoot p).node = s.node := rfl

@[simp] theorem setParent_root (p : Option ℕ) : (s.setParent a p).root = s.root := rfl

@[simp] theorem setLink_root (side : Bool) (p : Option ℕ) : (s.setLink a side p).root = s.root :=
  rfl

@[simp] theorem setBalance_root (b : ℤ) : (s.setBalance a b).root = s.root := rfl

@[simp] theorem setParent_parent (p : Option ℕ) : ((s.setParent a p).node a).parent = p := by
  simp [setParent]

theorem setParent_parent_ne (h : x ≠ a) (p : Option ℕ) :
    ((s.setParent a p).node x).parent = (s.node x).parent := by
  simp [setParent, h]

@[simp] theorem setParent_link (p : Option ℕ) :
    ((s.setParent a p).node x).link = (s.node x).link := by
  simp only [setParent, update_apply]
  split_ifs with h
  · rw [h]
  · rfl

@[simp] theorem setLink_link (side : Bool) (p : Option ℕ) :
    ((s.setLink a side p).node a).link side = p := by
  simp [setLink]

@[simp] theorem setLink_parent (side : Bool) (p : Option ℕ) :
    ((s.setLink a side p).node x).parent = (s.node x).parent := by
  simp only [setLink, update_apply]
  split_ifs with h
  · rw [h]
  · rfl

/-- `c` becomes the subtree of `n` on a side. -/
def setChild (s : Memory) (n : ℕ) (side : Bool) (c : Option ℕ) : Memory :=
  match c with
  | none => s.setLink n side none
  | some c => (s.setLink n side (some c)).setParent c (some n)

/-- `n` comes below `p` on a side, or becomes the root. -/
def relink (s : Memory) (p : Option ℕ) (side : Bool) (n : Option ℕ) : Memory :=
  match p with
  | none => s.setRoot n
  | some p => s.setLink p side n

@[simp] theorem setChild_root (side : Bool) (c : Option ℕ) :
    (s.setChild a side c).root = s.root := by
  cases c <;> rfl

end Memory

def assert (p : Prop) [Decidable p] : M Unit := ensure p .assert

/-- Follow a pointer. -/
def deref : Option ℕ → M ℕ
  | none => throw .nullPointer
  | some a => pure a

def readNode (a : ℕ) : M Node := do return (← get).node a

def readRoot : M (Option ℕ) := do return (← get).root

def writeRoot (p : Option ℕ) : M Unit := modify fun s => s.setRoot p

def writeParent (a : ℕ) (p : Option ℕ) : M Unit := modify fun s => s.setParent a p

def writeLink (a : ℕ) (side : Bool) (p : Option ℕ) : M Unit :=
  modify fun s => s.setLink a side p

def writeBalance (a : ℕ) (b : ℤ) : M Unit := modify fun s => s.setBalance a b

/-- `if (n->link[side] = c) { n->link[side]->parent = n; }`. -/
def setChild (n : ℕ) (side : Bool) (c : Option ℕ) : M Unit := do
  writeLink n side c
  match (← readNode n).link side with
  | some c => writeParent c (some n)
  | none => pure ()

/-- `if (p) { p->link[r == q->link[1]] = n; } else { tree->root = n; }`. -/
def relink (p q : Option ℕ) (r : ℕ) (n : Option ℕ) : M Unit :=
  match p with
  | some p => do
    let q ← deref q
    writeLink p (decide ((← readNode q).link true = some r)) n
  | none => writeRoot n

section Rules

variable {s : Memory} {Q : Unit → Memory → Prop}

@[simp] theorem wp_assert (p : Prop) [Decidable p] : wp (assert p) Q s ↔ p ∧ Q () s :=
  wp_ensure p _

@[simp] theorem wp_deref {R : ℕ → Memory → Prop} (a : ℕ) :
    wp (deref (some a)) R s ↔ R a s := wp_pure a

@[simp] theorem wp_readNode {R : Node → Memory → Prop} (a : ℕ) :
    wp (readNode a) R s ↔ R (s.node a) s := by
  simp only [readNode, wp_bind, wp_get, wp_pure]

@[simp] theorem wp_readRoot {R : Option ℕ → Memory → Prop} :
    wp readRoot R s ↔ R s.root s := by
  simp only [readRoot, wp_bind, wp_get, wp_pure]

@[simp] theorem wp_writeRoot (p : Option ℕ) : wp (writeRoot p) Q s ↔ Q () (s.setRoot p) :=
  wp_modify _

@[simp] theorem wp_writeParent (a : ℕ) (p : Option ℕ) :
    wp (writeParent a p) Q s ↔ Q () (s.setParent a p) := wp_modify _

@[simp] theorem wp_writeLink (a : ℕ) (side : Bool) (p : Option ℕ) :
    wp (writeLink a side p) Q s ↔ Q () (s.setLink a side p) := wp_modify _

@[simp] theorem wp_writeBalance (a : ℕ) (b : ℤ) :
    wp (writeBalance a b) Q s ↔ Q () (s.setBalance a b) := wp_modify _

@[simp] theorem wp_setChild (n : ℕ) (side : Bool) (c : Option ℕ) :
    wp (setChild n side c) Q s ↔ Q () (s.setChild n side c) := by
  simp only [setChild, wp_bind, wp_writeLink, wp_readNode, Memory.setLink_link]
  cases c with
  | none => exact wp_pure ()
  | some c => exact wp_writeParent c (some n)

theorem wp_relink {p : Option ℕ} {side : Bool} {r : ℕ}
    (h : ∀ q ∈ p, decide ((s.node q).link true = some r) = side) (n : Option ℕ) :
    wp (relink p p r n) Q s ↔ Q () (s.relink p side n) := by
  cases p with
  | none => exact wp_writeRoot n
  | some q => simp only [relink, wp_bind, wp_deref, wp_readNode, wp_writeLink, h q rfl]; rfl

end Rules

/-! ### Cells -/

/-- `x` on the side `side` and `y` on the other. -/
def links (side : Bool) (x y : Option ℕ) : Bool → Option ℕ := fun i => if i = side then x else y

section Links

variable (side : Bool) (x y z : Option ℕ)

@[simp] theorem links_self : links side x y side = x := if_pos rfl

@[simp] theorem links_not : links side x y (!side) = y := if_neg (Bool.not_ne_self side)

theorem links_comm : links (!side) x y = links side y x := by
  funext i
  cases side <;> cases i <;> rfl

@[simp] theorem update_links_self : update (links side x y) side z = links side z y := by
  funext i
  cases side <;> cases i <;> rfl

@[simp] theorem update_links_not :
    update (links side x y) (!side) z = links side x z := by
  funext i
  cases side <;> cases i <;> rfl

theorem update_update_links (l : Bool → Option ℕ) :
    update (update l false x) true y = links false x y := by
  funext i
  cases i <;> rfl

/-- A node with at most one subtree. -/
theorem links_none : ¬ (links side x none false ≠ none ∧ links side x none true ≠ none) := by
  rintro ⟨hleft, hright⟩
  cases side
  · exact hright rfl
  · exact hleft rfl

theorem links_child : (if links side x none false ≠ none then links side x none false
    else links side x none true) = x := by
  cases side
  · split_ifs with hleft
    · rfl
    · exact (not_not.mp hleft).symm
  · exact if_neg (not_not.mpr rfl)

/-- The two sides of a node as left and right. -/
@[simp] theorem links_false_true : links false x y true = y := rfl

end Links

/-- The address and the fields of a node. -/
abbrev Cell := ℕ × Node

/-- The cells of a tree below the node `p`. -/
def cells (p : Option ℕ) : AvlTree ℕ → Multiset Cell
  | nil => 0
  | node l a b r =>
    {(a, ⟨p, links false l.top r.top, b⟩)} + (cells (some a) l + cells (some a) r)

/-- The node above a place. -/
def parentOf : List (Frame ℕ) → Option ℕ
  | [] => none
  | f :: _ => some f.a

/-- The cells around a place, at which there is the node `p`. -/
def cellsAt (p : Option ℕ) : List (Frame ℕ) → Multiset Cell
  | [] => 0
  | f :: ctx =>
    {(f.a, ⟨parentOf ctx, links f.side p f.other.top, f.b⟩)} +
      (cells (some f.a) f.other + cellsAt (some f.a) ctx)

/-- The root, if the node `p` is at the place. -/
def rootAt (p : Option ℕ) : List (Frame ℕ) → Option ℕ
  | [] => p
  | f :: ctx => rootAt (some f.a) ctx

@[simp] theorem cells_nil (p : Option ℕ) : cells p nil = 0 := rfl

theorem cells_node (p : Option ℕ) (l : AvlTree ℕ) (a : ℕ) (b : ℤ) (r : AvlTree ℕ) :
    cells p (node l a b r)
      = {(a, ⟨p, links false l.top r.top, b⟩)} + (cells (some a) l + cells (some a) r) := rfl

theorem cells_branch (p : Option ℕ) (side : Bool) (x y : AvlTree ℕ) (a : ℕ) (b : ℤ) :
    cells p (branch side x y a b)
      = {(a, ⟨p, links side x.top y.top, b⟩)} + (cells (some a) x + cells (some a) y) := by
  cases side
  · rfl
  · rw [branch, cells, add_comm (cells (some a) y), ← links_comm]
    rfl

theorem top_plug (ctx : List (Frame ℕ)) (t : AvlTree ℕ) : (plug ctx t).top = rootAt t.top ctx := by
  induction ctx generalizing t with
  | nil => rfl
  | cons _ _ ih => rw [plug_cons, ih, Frame.fill, top_branch, rootAt]

theorem cells_plug (ctx : List (Frame ℕ)) (t : AvlTree ℕ) :
    cells none (plug ctx t) = cellsAt t.top ctx + cells (parentOf ctx) t := by
  induction ctx generalizing t with
  | nil => exact (zero_add _).symm
  | cons _ _ ih =>
    rw [plug_cons, ih, Frame.fill, cells_branch, top_branch, cellsAt, parentOf]
    ac_rfl

theorem keys_cells (p : Option ℕ) (t : AvlTree ℕ) : (cells p t).map Prod.fst = t.toList := by
  induction t generalizing p with
  | nil => rfl
  | node _ _ _ _ ih_l ih_r =>
    rw [cells, Multiset.map_add, Multiset.map_add, ih_l, ih_r, Multiset.map_singleton, toList,
      ← Multiset.coe_add, ← Multiset.cons_coe, ← Multiset.singleton_add]
    ac_rfl

/-! ### Memory that holds cells -/

/-- The memory `s` has the cells `C`, no two at one address, and is like `base` elsewhere. -/
structure Owns (base s : Memory) (C : Multiset Cell) : Prop where
  has : ∀ c ∈ C, s.node c.1 = c.2
  nodup : (C.map Prod.fst).Nodup
  same : ∀ x, x ∉ C.map Prod.fst → s.node x = base.node x

namespace Owns

variable {base s s' : Memory} {C : Multiset Cell} {a : ℕ} {n : Node}

theorem of_eq {C' : Multiset Cell} (h : Owns base s C) (heq : C = C') : Owns base s C' := heq ▸ h

theorem read (h : Owns base s ({(a, n)} + C)) : s.node a = n :=
  h.has (a, n) (Multiset.mem_add.mpr (.inl (Multiset.mem_singleton_self _)))

/-- One cell is written, and the others stay. -/
theorem write (h : Owns base s ({(a, n)} + C)) {n' : Node}
    (hnode : s'.node = update s.node a n') : Owns base s' ({(a, n')} + C) where
  has c hc := by
    have hnodup := h.nodup
    rw [Multiset.map_add, Multiset.map_singleton, Multiset.nodup_add,
      Multiset.singleton_disjoint] at hnodup
    rw [hnode]
    obtain ha | h_c := Multiset.mem_add.mp hc
    · obtain rfl := Multiset.mem_singleton.mp ha
      exact update_self ..
    · have hne : c.1 ≠ a := fun heq => hnodup.2.2 (Multiset.mem_map.mpr ⟨c, h_c, heq⟩)
      rw [update_of_ne hne]
      exact h.has c (Multiset.mem_add.mpr (.inr h_c))
  nodup := by
    have hnodup := h.nodup
    rwa [Multiset.map_add, Multiset.map_singleton] at hnodup ⊢
  same x hx := by
    rw [Multiset.map_add, Multiset.map_singleton, Multiset.mem_add, not_or,
      Multiset.mem_singleton] at hx
    rw [hnode, update_of_ne hx.1]
    refine h.same x ?_
    rw [Multiset.map_add, Multiset.map_singleton, Multiset.mem_add, not_or, Multiset.mem_singleton]
    exact hx

/-- A node that is not among the cells joins them. -/
theorem join (h : Owns base s C) (ha : a ∉ C.map Prod.fst) :
    Owns base s ({(a, s.node a)} + C) where
  has c hc := by
    obtain hc | hc := Multiset.mem_add.mp hc
    · obtain rfl := Multiset.mem_singleton.mp hc
      rfl
    · exact h.has c hc
  nodup := by
    rw [Multiset.map_add, Multiset.map_singleton, Multiset.nodup_add, Multiset.singleton_disjoint]
    exact ⟨Multiset.nodup_singleton a, h.nodup, ha⟩
  same x hx := by
    rw [Multiset.map_add, Multiset.map_singleton, Multiset.mem_add, not_or] at hx
    exact h.same x hx.2

/-- A cell is given up. -/
theorem leave (h : Owns base s ({(a, n)} + C)) :
    ∃ base' : Memory, (∀ x ≠ a, base'.node x = base.node x) ∧ Owns base' s C := by
  refine ⟨{ base with node := update base.node a n }, ?_, ?_, ?_, ?_⟩
  · exact fun x hx => update_of_ne hx ..
  · exact fun c hc => h.has c (Multiset.mem_add.mpr (.inr hc))
  · have hnodup := h.nodup
    rw [Multiset.map_add, Multiset.nodup_add] at hnodup
    exact hnodup.2.1
  · intro x hx
    change s.node x = update base.node a n x
    by_cases h_x : x = a
    · subst h_x
      rw [h.read, update_self]
    · rw [update_of_ne h_x]
      refine h.same x ?_
      rw [Multiset.map_add, Multiset.map_singleton, Multiset.mem_add, not_or,
        Multiset.mem_singleton]
      exact ⟨h_x, hx⟩

theorem setRoot (h : Owns base s C) (p : Option ℕ) : Owns base (s.setRoot p) C :=
  ⟨h.has, h.nodup, h.same⟩

theorem setParent (h : Owns base s ({(a, n)} + C)) (p : Option ℕ) :
    Owns base (s.setParent a p) ({(a, { n with parent := p })} + C) :=
  h.write (by rw [← h.read]; rfl)

theorem setBalance (h : Owns base s ({(a, n)} + C)) (b : ℤ) :
    Owns base (s.setBalance a b) ({(a, { n with balance := b })} + C) :=
  h.write (by rw [← h.read]; rfl)

theorem setLink (h : Owns base s ({(a, n)} + C)) (side : Bool) (p : Option ℕ) :
    Owns base (s.setLink a side p)
      ({(a, { n with link := update n.link side p })} + C) :=
  h.write (by rw [← h.read]; rfl)

theorem setLink_self {p x y : Option ℕ} {side : Bool} {b : ℤ}
    (h : Owns base s ({(a, ⟨p, links side x y, b⟩)} + C)) (z : Option ℕ) :
    Owns base (s.setLink a side z) ({(a, ⟨p, links side z y, b⟩)} + C) := by
  have hlink := h.setLink side z
  rwa [update_links_self] at hlink

theorem setLink_not {p x y : Option ℕ} {side : Bool} {b : ℤ}
    (h : Owns base s ({(a, ⟨p, links side x y, b⟩)} + C)) (z : Option ℕ) :
    Owns base (s.setLink a (!side) z) ({(a, ⟨p, links side x z, b⟩)} + C) := by
  have hlink := h.setLink (!side) z
  rwa [update_links_not] at hlink

end Owns

/-! ### The cells next to a change -/

/-- The cell at the root of a tree below `p`. -/
def topCell (p : Option ℕ) : AvlTree ℕ → Multiset Cell
  | nil => 0
  | node l a b r => {(a, ⟨p, links false l.top r.top, b⟩)}

/-- The other cells of a tree. -/
def innerCells : AvlTree ℕ → Multiset Cell
  | nil => 0
  | node l a _ r => cells (some a) l + cells (some a) r

/-- The cell above a place with the node `p`. -/
def headCell (p : Option ℕ) : List (Frame ℕ) → Multiset Cell
  | [] => 0
  | f :: ctx => {(f.a, ⟨parentOf ctx, links f.side p f.other.top, f.b⟩)}

/-- The other cells around a place. -/
def outerCells : List (Frame ℕ) → Multiset Cell
  | [] => 0
  | f :: ctx => cells (some f.a) f.other + cellsAt (some f.a) ctx

theorem cells_eq (p : Option ℕ) (t : AvlTree ℕ) : cells p t = topCell p t + innerCells t := by
  cases t <;> rfl

theorem cellsAt_eq (p : Option ℕ) (ctx : List (Frame ℕ)) :
    cellsAt p ctx = headCell p ctx + outerCells ctx := by
  cases ctx <;> rfl

/-- The side of its parent on which a place is. -/
def sideOf : List (Frame ℕ) → Bool
  | [] => false
  | f :: _ => f.side

namespace Owns

variable {base s : Memory} {C : Multiset Cell}

variable {a : ℕ} {b : ℤ}

/-- A tree becomes a subtree of a node. -/
theorem setChild {p q x y : Option ℕ} {t : AvlTree ℕ} {side : Bool}
    (h : Owns base s ({(a, ⟨p, links side x y, b⟩)} + topCell q t + C)) :
    Owns base (s.setChild a side t.top)
      ({(a, ⟨p, links side t.top y, b⟩)} + topCell (some a) t + C) := by
  rw [add_assoc] at h ⊢
  have hlink := h.setLink_self t.top
  cases t with
  | nil => exact hlink
  | node =>
    rw [add_left_comm] at hlink ⊢
    exact hlink.setParent (some a)

theorem setChild_right {p q x y : Option ℕ} {t : AvlTree ℕ}
    (h : Owns base s ({(a, ⟨p, links false x y, b⟩)} + topCell q t + C)) :
    Owns base (s.setChild a true t.top)
      ({(a, ⟨p, links false x t.top, b⟩)} + topCell (some a) t + C) := by
  rw [← links_comm] at h ⊢
  exact h.setChild

/-- Another node comes to a place. -/
theorem relink {p : Option ℕ} {ctx : List (Frame ℕ)} (h : Owns base s (headCell p ctx + C))
    (p' : Option ℕ) :
    Owns base (s.relink (parentOf ctx) (sideOf ctx) p') (headCell p' ctx + C) := by
  cases ctx with
  | nil => exact h.setRoot p'
  | cons => exact h.setLink_self p'

variable {n : Node}

/-- Another node gets hold of a cell. -/
theorem setChild_cell {a c : ℕ} {p x y : Option ℕ} {side : Bool}
    (h : Owns base s ({(a, ⟨p, links side x y, b⟩)} + {(c, n)} + C)) :
    Owns base (s.setChild a side (some c))
      ({(a, ⟨p, links side (some c) y, b⟩)} + {(c, { n with parent := some a })} + C) := by
  rw [add_assoc] at h ⊢
  have hlink := h.setLink_self (some c)
  rw [add_left_comm] at hlink ⊢
  exact hlink.setParent (some a)

/-- Two cells are at different addresses. -/
theorem ne {a c : ℕ} (h : Owns base s ({(a, n)} + C)) (hc : c ∈ C.map Prod.fst) :
    a ≠ c := by
  have hnodup := h.nodup
  rw [Multiset.map_add, Multiset.map_singleton, Multiset.nodup_add,
    Multiset.singleton_disjoint] at hnodup
  rintro rfl
  exact hnodup.2.2 hc

/-- A node is on the side of its parent on which its place is. -/
theorem side_eq {ctx : List (Frame ℕ)}
    (h : Owns base s (headCell (some a) ctx + ({(a, n)} + (outerCells ctx + C)))) :
    ∀ q ∈ parentOf ctx, decide ((s.node q).link true = some a) = sideOf ctx := by
  cases ctx with
  | nil => exact fun q hq => nomatch hq
  | cons f =>
    intro q hq
    cases hq
    rw [h.read, sideOf]
    dsimp only
    cases hside : f.side
    · -- the other subtree has another root
      rw [decide_eq_false_iff_not]
      change f.other.top ≠ some a
      intro htop
      have hmem : a ∈ (cells (some f.a) f.other).map Prod.fst := by
        rw [keys_cells]
        exact mem_of_top htop
      have hnodup := h.nodup
      simp only [outerCells, Multiset.map_add, Multiset.map_singleton, Multiset.nodup_add,
        Multiset.singleton_disjoint, Multiset.mem_add, not_or] at hnodup
      exact hnodup.2.1.2.2.1.1 hmem
    · exact decide_eq_true rfl

end Owns

variable {ctx : List (Frame ℕ)}

theorem root_relink {s : Memory} {p : Option ℕ}
    (h : s.root = rootAt p ctx) (side : Bool) (p' : Option ℕ) :
    (s.relink (parentOf ctx) side p').root = rootAt p' ctx := by
  cases ctx with
  | nil => rfl
  | cons => exact h

/-! ### Memory that holds a tree -/

/-- The memory `s` holds the tree `t`, and is like `base` elsewhere. -/
structure Holds (base s : Memory) (t : AvlTree ℕ) : Prop where
  root : s.root = t.top
  owns : Owns base s (cells none t)

/-- The memory `s` holds the tree `t`. -/
def Represents (s : Memory) (t : AvlTree ℕ) : Prop := Holds s s t

variable {base s : Memory}

/-- A node outside of the tree. -/
theorem Holds.same {t : AvlTree ℕ} (h : Holds base s t) {x : ℕ}
    (hx : x ∉ t.toList) : s.node x = base.node x := by
  refine h.owns.same x ?_
  rw [keys_cells]
  exact hx

theorem Holds.represents {t : AvlTree ℕ} (h : Holds base s t) :
    Represents s t :=
  ⟨h.root, h.owns.has, h.owns.nodup, fun _ _ => rfl⟩

/-- The fields of the node at a place. -/
theorem Holds.read {side : Bool} {x y : AvlTree ℕ}
    {a : ℕ} {b : ℤ} (h : Holds base s (plug ctx (branch side x y a b))) :
    s.node a = ⟨parentOf ctx, links side x.top y.top, b⟩ := by
  have howns := h.owns
  rw [cells_plug, cells_branch, add_left_comm] at howns
  exact howns.read

theorem Holds.read_node {l r : AvlTree ℕ} {a : ℕ} {b : ℤ}
    (h : Holds base s (plug ctx (node l a b r))) :
    s.node a = ⟨parentOf ctx, links false l.top r.top, b⟩ := by
  have hbranch : Holds base s (plug ctx (branch false l r a b)) := h
  exact hbranch.read

/-- The child on a side, seen from its parent. -/
theorem Holds.read_near {side : Bool}
    {x y z : AvlTree ℕ} {a c : ℕ} {b cb : ℤ}
    (h : Holds base s (plug ctx (branch side (branch side x y c cb) z a b))) :
    s.node c = ⟨some a, links side x.top y.top, cb⟩ := by
  have hchild : Holds base s (plug (⟨side, a, b, z⟩ :: ctx) (branch side x y c cb)) := h
  exact hchild.read

end Tun2Socks.Structure.Avl
