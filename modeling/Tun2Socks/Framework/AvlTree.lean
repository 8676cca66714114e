import Mathlib

/-!
# Balanced binary trees

Binary trees with a balance factor at every node, and how they are kept balanced from the place
of a change upwards. Everything is stated for a *side* (`false` is left, `true` is right) where
the two sides are mirror images: `branch side x y a b` is the node `a` with `x` on that side and
`y` on the other.

* A place in a tree is a list of frames, innermost first: `plug ctx t` is the tree with `t` at
  the place `ctx`. What comes before and after the place is `before ctx` and `after ctx`.
* `rebalance ctx t d` puts `t` at the place `ctx` and repairs the ancestors one after the other,
  as long as the height changes: `d` is by how much `t` is higher than what was there. It keeps
  the elements in their order (`toList_rebalance`) and restores the balance
  (`balanced_rebalance`).
* `descend cut t` is the search: the place where the comparison `cut` leads.
* `removeAt` takes an element out of its place; with two subtrees the last element of the left
  one takes its place.

The elements are in order if `cut` is compatible with their list (`Cuts`), which is all the
search needs.
-/

namespace Tun2Socks.Framework

/-- A binary tree with a balance factor at every node. -/
inductive AvlTree (α : Type)
  | nil
  | node (left : AvlTree α) (a : α) (b : ℤ) (right : AvlTree α)
  deriving DecidableEq

namespace AvlTree

variable {α : Type}

/-- The element at the root. -/
def top : AvlTree α → Option α
  | nil => none
  | node _ a _ _ => some a

@[simp] theorem top_nil : (nil : AvlTree α).top = none := rfl

@[simp] theorem top_node (l : AvlTree α) (a : α) (b : ℤ) (r : AvlTree α) :
    (node l a b r).top = some a := rfl

def toList : AvlTree α → List α
  | nil => []
  | node l a _ r => l.toList ++ a :: r.toList

def height : AvlTree α → ℕ
  | nil => 0
  | node l _ _ r => max l.height r.height + 1

@[simp] theorem height_nil : (nil : AvlTree α).height = 0 := rfl

/-- Every balance factor is the height of the right subtree less that of the left one, and they
differ by at most one. -/
def Balanced : AvlTree α → Prop
  | nil => True
  | node l _ b r => b = r.height - l.height ∧ -1 ≤ b ∧ b ≤ 1 ∧ l.Balanced ∧ r.Balanced

/-- The node `a` with `x` on the side `side` and `y` on the other. -/
def branch (side : Bool) (x y : AvlTree α) (a : α) (b : ℤ) : AvlTree α :=
  match side with
  | false => node x a b y
  | true => node y a b x

/-- A balance factor is positive towards the right. -/
def sgn (side : Bool) : ℤ := if side then 1 else -1

@[simp] theorem sgn_false : sgn false = -1 := rfl

@[simp] theorem sgn_true : sgn true = 1 := rfl

@[simp] theorem sgn_not (side : Bool) : sgn (!side) = -sgn side := by
  cases side <;> rfl

theorem sgn_mul_mem (side : Bool) (b : ℤ) :
    -1 ≤ b ∧ b ≤ 1 ↔ -1 ≤ sgn side * b ∧ sgn side * b ≤ 1 := by
  cases side
  · rw [sgn_false]
    omega
  · rw [sgn_true]
    omega

/-! ### Branches -/

section Branch

variable (side : Bool) (x y : AvlTree α) (a : α) (b : ℤ)

theorem branch_not : branch (!side) x y a b = branch side y x a b := by
  cases side <;> rfl

@[simp] theorem top_branch : (branch side x y a b).top = some a := by
  cases side <;> rfl

@[simp] theorem height_branch : (branch side x y a b).height = max x.height y.height + 1 := by
  cases side
  · rfl
  · exact congrArg (· + 1) (max_comm _ _)

theorem balanced_branch : (branch side x y a b).Balanced ↔
    sgn side * b = x.height - y.height ∧ -1 ≤ b ∧ b ≤ 1 ∧ x.Balanced ∧ y.Balanced := by
  cases side
  · simp only [branch, Balanced, sgn_false]
    constructor <;> (rintro ⟨h, hrest⟩; exact ⟨by omega, hrest⟩)
  · simp only [branch, Balanced, sgn_true, one_mul]
    tauto

/-- Every tree with an element is a branch, for either side. -/
theorem exists_branch {t : AvlTree α} (h : t ≠ nil) :
    ∃ x y a b, t = branch side x y a b := by
  cases t with
  | nil => exact absurd rfl h
  | node l a b r =>
    cases side
    · exact ⟨l, r, a, b, rfl⟩
    · exact ⟨r, l, a, b, rfl⟩

end Branch

variable {t : AvlTree α}

theorem top_eq_none : t.top = none ↔ t = nil := by
  cases t with
  | nil => exact iff_of_true rfl rfl
  | node _ a => exact iff_of_false (Option.some_ne_none a) nofun

variable {a : α}

theorem mem_of_top (h : t.top = some a) : a ∈ t.toList := by
  cases t with
  | nil => cases h
  | node =>
    cases h
    exact List.mem_append_right _ List.mem_cons_self

theorem ne_nil_of_height (h : 0 < t.height) : t ≠ nil := by
  rintro rfl
  exact absurd h (lt_irrefl 0)

/-! ### Walks -/

/-- The elements in order, beginning at the end `side`. -/
def walk (side : Bool) (t : AvlTree α) : List α := if side then t.toList.reverse else t.toList

@[simp] theorem walk_nil (side : Bool) : (nil : AvlTree α).walk side = [] := by
  cases side <;> rfl

@[simp] theorem walk_branch (side : Bool) (x y : AvlTree α) (a : α) (b : ℤ) :
    (branch side x y a b).walk side = x.walk side ++ a :: y.walk side := by
  cases side
  · rfl
  · simp [walk, branch, toList]

theorem reverse_walk (side : Bool) (t : AvlTree α) : (t.walk side).reverse = t.walk (!side) := by
  cases side <;> simp [walk]

theorem walk_false (t : AvlTree α) : t.walk false = t.toList := rfl

theorem walk_true (t : AvlTree α) : t.walk true = t.toList.reverse := rfl

theorem length_walk (side : Bool) (t : AvlTree α) : (t.walk side).length = t.toList.length := by
  cases side <;> simp [walk]

variable {side : Bool}

theorem head_walk_branch {x : AvlTree α} (h : x ≠ nil) (y : AvlTree α) (a : α)
    (b : ℤ) : ((branch side x y a b).walk side).head? = (x.walk side).head? := by
  have hne : x.walk side ≠ [] := by
    obtain ⟨x', y', a', b', rfl⟩ := exists_branch side h
    rw [walk_branch]
    exact List.append_ne_nil_of_right_ne_nil _ (List.cons_ne_nil _ _)
  rw [walk_branch, List.head?_append_of_ne_nil _ hne]

/-! ### Places -/

/-- One step from the root of a tree towards a place in it. -/
structure Frame (α : Type) where
  /-- The side on which the place is. -/
  side : Bool
  a : α
  b : ℤ
  /-- The subtree on the other side. -/
  other : AvlTree α

def Frame.fill (f : Frame α) (t : AvlTree α) : AvlTree α := branch f.side t f.other f.a f.b

/-- The tree with `t` at the place `ctx`. -/
def plug : List (Frame α) → AvlTree α → AvlTree α
  | [], t => t
  | f :: ctx, t => plug ctx (f.fill t)

@[simp] theorem plug_nil (t : AvlTree α) : plug [] t = t := rfl

@[simp] theorem plug_cons (f : Frame α) (ctx : List (Frame α)) (t : AvlTree α) :
    plug (f :: ctx) t = plug ctx (f.fill t) := rfl

theorem plug_append (inner outer : List (Frame α)) (t : AvlTree α) :
    plug (inner ++ outer) t = plug outer (plug inner t) := by
  induction inner generalizing t with
  | nil => rfl
  | cons f _ ih => exact ih (f.fill t)

/-- The elements that follow the place, on a walk from the end `side`. -/
def rest (side : Bool) : List (Frame α) → List α
  | [] => []
  | f :: ctx => (if f.side = side then f.a :: f.other.walk side else []) ++ rest side ctx

/-- The elements before the place. -/
def before (ctx : List (Frame α)) : List α := (rest true ctx).reverse

/-- The elements after the place. -/
def after (ctx : List (Frame α)) : List α := rest false ctx

theorem walk_plug (side : Bool) (ctx : List (Frame α)) (t : AvlTree α) :
    (plug ctx t).walk side = (rest (!side) ctx).reverse ++ (t.walk side ++ rest side ctx) := by
  induction ctx generalizing t with
  | nil => simp [rest]
  | cons f _ ih =>
    rw [plug_cons, ih, rest, rest, Frame.fill]
    by_cases h : f.side = side
    · -- the place is met before the element of the frame
      subst h
      simp
    · have hnot : f.side = !side := Bool.eq_not_of_ne h
      rw [hnot, branch_not, walk_branch]
      simp [reverse_walk]

theorem toList_plug (ctx : List (Frame α)) (t : AvlTree α) :
    (plug ctx t).toList = before ctx ++ (t.toList ++ after ctx) := walk_plug false ctx t

theorem toList_plug_congr {t t' : AvlTree α} (h : t.toList = t'.toList) (ctx : List (Frame α)) :
    (plug ctx t).toList = (plug ctx t').toList := by
  rw [toList_plug, toList_plug, h]

theorem length_le_rest (ctx : List (Frame α)) :
    ctx.length ≤ (rest false ctx).length + (rest true ctx).length := by
  induction ctx with
  | nil => exact Nat.zero_le _
  | cons f =>
    rw [rest, rest, List.length_cons, List.length_append, List.length_append]
    cases f.side <;> simp <;> omega

/-- A place is not deeper than the tree has elements. -/
theorem length_add_le_plug (ctx : List (Frame α)) (t : AvlTree α) :
    ctx.length + t.toList.length ≤ (plug ctx t).toList.length := by
  have h := length_le_rest ctx
  rw [toList_plug, before, after, List.length_append, List.length_append, List.length_reverse]
  omega

/-- Every element has its place. -/
theorem exists_plug (h : a ∈ t.toList) :
    ∃ ctx l b r, t = plug ctx (node l a b r) := by
  induction t with
  | nil => cases h
  | node l a' b r ih_l ih_r =>
    obtain h | h := List.mem_append.mp h
    · obtain ⟨ctx, l', b', r', rfl⟩ := ih_l h
      refine ⟨ctx ++ [⟨false, a', b, r⟩], l', b', r', ?_⟩
      rw [plug_append]
      rfl
    obtain rfl | h := List.mem_cons.mp h
    · exact ⟨[], l, b, r, rfl⟩
    · obtain ⟨ctx, l', b', r', rfl⟩ := ih_r h
      refine ⟨ctx ++ [⟨true, a', b, l⟩], l', b', r', ?_⟩
      rw [plug_append]
      rfl

theorem exists_plug_branch (side : Bool) (h : a ∈ t.toList) :
    ∃ ctx x y b, t = plug ctx (branch side x y a b) := by
  obtain ⟨ctx, l, b, r, rfl⟩ := exists_plug h
  cases side
  · exact ⟨ctx, l, r, b, rfl⟩
  · exact ⟨ctx, r, l, b, rfl⟩

variable {ctx : List (Frame α)} {b : ℤ}

/-- What comes after an element in a walk. -/
theorem eq_of_walk_plug {x y : AvlTree α}
    {front l : List α} (hnodup : (plug ctx (branch side x y a b)).toList.Nodup)
    (h : (plug ctx (branch side x y a b)).walk (!side) = front ++ a :: l) :
    l = x.walk (!side) ++ rest (!side) ctx := by
  have hwalk : ((plug ctx (branch side x y a b)).walk (!side)).Nodup := by
    cases side
    · exact List.nodup_reverse.mpr hnodup
    · exact hnodup
  rw [walk_plug, ← branch_not, walk_branch, List.append_assoc, List.cons_append,
    ← List.append_assoc] at h hwalk
  rw [List.nodup_middle, List.nodup_cons, List.mem_append, not_or] at hwalk
  obtain ⟨⟨hfront, hrest⟩, -⟩ := hwalk
  exact ((List.append_cons_inj_of_notMem hfront hrest).mp h).2.2.symm

/-! ### Repair -/

/-- A node whose subtree `child` on the side `side` is too high by two: it is rotated away from
that side, after the child was rotated towards it if the child is higher inside. The number is
the change of height so far. -/
def mendSide (side : Bool) (child outer : AvlTree α) (a : α) (b d : ℤ) : AvlTree α × ℤ :=
  match child with
  | nil => (branch side child outer a b, d)
  | node cl c cb cr =>
    let near := cond side cr cl
    let far := cond side cl cr
    if cb * sgn side = 1 then (branch side near (branch side far outer a 0) c 0, d - 1)
    else if cb * sgn side = 0 then
      (branch side near (branch side far outer a (1 * sgn side)) c (-1 * sgn side), d)
    else
      match far with
      | nil => (branch side child outer a b, d)
      | node gl g gb gr =>
        (branch side
          (branch side near (cond side gr gl) c (max 0 (-gb * sgn side) * sgn side))
          (branch side (cond side gl gr) outer a (-max 0 (gb * sgn side) * sgn side)) g 0, d - 1)

/-- A node that is out of balance by two is repaired. -/
def mend (t : AvlTree α) (d : ℤ) : AvlTree α × ℤ :=
  match t with
  | nil => (t, d)
  | node l a b r =>
    if b = 2 then mendSide true r l a b d
    else if b = -2 then mendSide false l r a b d
    else (t, d)

/-- The frame `f` around a subtree `t` that is higher by `d` than what was there: the new tree,
and by how much it is higher than before. -/
def adjust (f : Frame α) (t : AvlTree α) (d : ℤ) : AvlTree α × ℤ :=
  mend (branch f.side t f.other f.a (f.b + sgn f.side * d))
    (max d (-(sgn f.side * f.b)) - max 0 (-(sgn f.side * f.b)))

/-- Put `t`, which is higher by `d` than what was there, at the place `ctx`. -/
def rebalance : List (Frame α) → AvlTree α → ℤ → AvlTree α
  | [], t, _ => t
  | f :: ctx, t, d =>
    if d = 0 then plug (f :: ctx) t else rebalance ctx (adjust f t d).1 (adjust f t d).2

section MendSide

variable {side : Bool} {c1 c2 outer : AvlTree α} {a c : α} {b cb d : ℤ}

/-- The child is higher outside: one rotation. -/
theorem mendSide_straight (h : cb * sgn side = 1) :
    mendSide side (branch side c1 c2 c cb) outer a b d
      = (branch side c1 (branch side c2 outer a 0) c 0, d - 1) := by
  cases side <;> exact if_pos h

/-- The child is even: one rotation, which keeps the height. -/
theorem mendSide_even (h : cb * sgn side = 0) :
    mendSide side (branch side c1 c2 c cb) outer a b d
      = (branch side c1 (branch side c2 outer a (1 * sgn side)) c (-1 * sgn side), d) := by
  cases side <;> exact (if_neg (by omega)).trans (if_pos h)

/-- The child is higher inside: two rotations. -/
theorem mendSide_bent {g1 g2 : AvlTree α} {g : α} {gb : ℤ} (h : cb * sgn side = -1) :
    mendSide side (branch side c1 (branch side g1 g2 g gb) c cb) outer a b d
      = (branch side (branch side c1 g1 c (max 0 (-gb * sgn side) * sgn side))
          (branch side g2 outer a (-max 0 (gb * sgn side) * sgn side)) g 0, d - 1) := by
  cases side <;> exact (if_neg (by omega)).trans (if_neg (by omega))

theorem toList_mendSide (side : Bool) (child outer : AvlTree α) (a : α) (b d : ℤ) :
    (mendSide side child outer a b d).1.toList = (branch side child outer a b).toList := by
  unfold mendSide
  split
  · rfl
  dsimp only
  split_ifs
  · cases side <;> simp [branch, toList]
  · cases side <;> simp [branch, toList]
  · split
    · rfl
    · rename_i hfar
      cases side
      · obtain rfl := hfar
        simp [branch, toList]
      · obtain rfl := hfar
        simp [branch, toList]

/-- The cases of a child that is balanced, below a node that is out of balance by two. -/
theorem exists_heavy {child : AvlTree α} (h : child.Balanced) (hheight : 2 ≤ child.height)
    (side : Bool) :
    ∃ c1 c2 c cb, child = branch side c1 c2 c cb ∧ c1.Balanced ∧ c2.Balanced ∧
      (cb * sgn side = 1 ∧ c1.height = c2.height + 1 ∨
        cb * sgn side = 0 ∧ c1.height = c2.height ∨
        cb * sgn side = -1 ∧ c2.height = c1.height + 1 ∧
          ∃ g1 g2 g gb, c2 = branch side g1 g2 g gb ∧ g1.Balanced ∧ g2.Balanced ∧
            sgn side * gb = g1.height - g2.height ∧ -1 ≤ gb ∧ gb ≤ 1) := by
  obtain ⟨c1, c2, c, cb, rfl⟩ := exists_branch side (ne_nil_of_height (t := child) (by omega))
  obtain ⟨hcb, hge, hle, h1, h2⟩ := (balanced_branch side c1 c2 c cb).mp h
  rw [mul_comm] at hcb
  refine ⟨c1, c2, c, cb, rfl, h1, h2, ?_⟩
  have hrange : cb * sgn side = 1 ∨ cb * sgn side = 0 ∨ cb * sgn side = -1 := by
    cases side <;> simp <;> omega
  obtain hcase | hcase | hcase := hrange
  · exact .inl ⟨hcase, by omega⟩
  · exact .inr (.inl ⟨hcase, by omega⟩)
  · refine .inr (.inr ⟨hcase, by omega, ?_⟩)
    obtain ⟨g1, g2, g, gb, rfl⟩ := exists_branch side (ne_nil_of_height (t := c2) (by omega))
    obtain ⟨hgb, hge, hle, hg1, hg2⟩ := (balanced_branch side g1 g2 g gb).mp h2
    exact ⟨g1, g2, g, gb, rfl, hg1, hg2, hgb, hge, hle⟩

/-- The repair restores the balance, and returns the change of height: before, the node was as
high as `child` and one more. -/
theorem mendSide_spec {child : AvlTree α} (hchild : child.Balanced) (houter : outer.Balanced)
    (hheight : child.height = outer.height + 2) (side : Bool) (a : α) (b d : ℤ) :
    (mendSide side child outer a b d).1.Balanced ∧
      ((mendSide side child outer a b d).2 = d ∨ (mendSide side child outer a b d).2 = d - 1) ∧
      ((mendSide side child outer a b d).1.height : ℤ)
        = child.height + 1 + ((mendSide side child outer a b d).2 - d) := by
  obtain ⟨c1, c2, c, cb, rfl, h1, h2, hcase⟩ := exists_heavy hchild (by omega) side
  rw [height_branch] at hheight
  obtain ⟨hcb, heq⟩ | ⟨hcb, heq⟩ | ⟨hcb, heq, g1, g2, g, gb, rfl, hg1, hg2, hgb, hge, hle⟩
    := hcase
  · rw [mendSide_straight hcb]
    simp only [balanced_branch, height_branch]
    exact ⟨⟨by omega, by omega, by omega, h1, by omega, by omega, by omega, h2, houter⟩,
      .inr trivial, by omega⟩
  · rw [mendSide_even hcb]
    simp only [balanced_branch, height_branch]
    refine ⟨⟨?_, ?_, ?_, h1, ?_, ?_, ?_, h2, houter⟩, .inl trivial, by omega⟩
    all_goals cases side <;> simp <;> omega
  · rw [mendSide_bent hcb]
    rw [height_branch] at hheight heq
    simp only [balanced_branch, height_branch]
    refine ⟨⟨?_, ?_, ?_, ⟨?_, ?_, ?_, h1, hg1⟩, ?_, ?_, ?_, hg2, houter⟩, .inr trivial, by omega⟩
    all_goals cases side <;> simp at hgb ⊢ <;> omega

end MendSide

theorem toList_mend (t : AvlTree α) (d : ℤ) : (mend t d).1.toList = t.toList := by
  cases t with
  | nil => rfl
  | node l a b r =>
    rw [mend]
    split_ifs
    · exact toList_mendSide true r l a b d
    · exact toList_mendSide false l r a b d
    · rfl

theorem toList_branch_congr {x y : AvlTree α} (b b' : ℤ) :
    (branch side x y a b).toList = (branch side x y a b').toList := by
  cases side <;> rfl

theorem toList_adjust (f : Frame α) (t : AvlTree α) (d : ℤ) :
    (adjust f t d).1.toList = (f.fill t).toList :=
  (toList_mend _ _).trans (toList_branch_congr _ _)

/-- **Order.** Repairing the balance keeps the elements in their order. -/
theorem toList_rebalance (ctx : List (Frame α)) (t : AvlTree α) (d : ℤ) :
    (rebalance ctx t d).toList = (plug ctx t).toList := by
  induction ctx generalizing t d with
  | nil => rfl
  | cons f ctx ih =>
    rw [rebalance]
    split_ifs
    · rfl
    · exact (ih _ _).trans (toList_plug_congr (toList_adjust f t d) ctx)

/-! ### Balance -/

/-- The frame is balanced around a subtree of height `h`. -/
structure Frame.Balanced (f : Frame α) (h : ℕ) : Prop where
  other : f.other.Balanced
  diff : sgn f.side * f.b = h - f.other.height
  ge : -1 ≤ f.b
  le : f.b ≤ 1

/-- The tree around the place is balanced, if a tree of height `h` is there. -/
def BalancedAt (h : ℕ) : List (Frame α) → Prop
  | [] => True
  | f :: ctx => f.Balanced h ∧ BalancedAt (max h f.other.height + 1) ctx

theorem balanced_fill (f : Frame α) (t : AvlTree α) :
    (f.fill t).Balanced ↔ f.Balanced t.height ∧ t.Balanced := by
  rw [Frame.fill, balanced_branch]
  constructor
  · rintro ⟨hdiff, hge, hle, ht, hother⟩
    exact ⟨⟨hother, hdiff, hge, hle⟩, ht⟩
  · rintro ⟨h, ht⟩
    exact ⟨h.diff, h.ge, h.le, ht, h.other⟩

theorem balanced_plug (ctx : List (Frame α)) (t : AvlTree α) :
    (plug ctx t).Balanced ↔ BalancedAt t.height ctx ∧ t.Balanced := by
  induction ctx generalizing t with
  | nil => exact (and_iff_right trivial).symm
  | cons _ _ ih =>
    rw [plug_cons, ih, balanced_fill, BalancedAt, Frame.fill, height_branch]
    tauto

/-- A node that is out of balance by two towards `side` is repaired from there. -/
theorem mend_branch (h : sgn side * b = 2) (x y : AvlTree α) (a : α)
    (d : ℤ) : mend (branch side x y a b) d = mendSide side x y a b d := by
  cases side
  · rw [sgn_false] at h
    exact (if_neg (by omega)).trans (if_pos (by omega))
  · rw [sgn_true] at h
    exact if_pos (by omega)

theorem mend_branch_even (hge : -1 ≤ b) (hle : b ≤ 1)
    (x y : AvlTree α) (a : α) (d : ℤ) :
    mend (branch side x y a b) d = (branch side x y a b, d) := by
  cases side <;> exact (if_neg (by omega)).trans (if_neg (by omega))

/-- A subtree changed its height by at most one: the frame around it becomes balanced, and
returns the change of its own height. -/
theorem adjust_spec {f : Frame α} {h : ℕ} {d : ℤ} (hf : f.Balanced h)
    (ht : t.Balanced) (hheight : (t.height : ℤ) = h + d) (hge : -1 ≤ d) (hle : d ≤ 1) :
    (adjust f t d).1.Balanced ∧ -1 ≤ (adjust f t d).2 ∧ (adjust f t d).2 ≤ 1 ∧
      ((adjust f t d).1.height : ℤ) = (max h f.other.height + 1 : ℕ) + (adjust f t d).2 := by
  have hdiff := hf.diff
  obtain ⟨hfge, hfle⟩ := (sgn_mul_mem f.side f.b).mp ⟨hf.ge, hf.le⟩
  rw [adjust]
  generalize he : max d (-(sgn f.side * f.b)) - max 0 (-(sgn f.side * f.b)) = e
  generalize hb : f.b + sgn f.side * d = b
  -- the new balance factor is that of the new heights
  have hnew : sgn f.side * b = t.height - f.other.height := by
    have hsq : sgn f.side * sgn f.side = 1 := by cases f.side <;> rfl
    rw [← hb, mul_add, ← mul_assoc, hsq, hdiff, hheight]
    omega
  by_cases heven : -1 ≤ b ∧ b ≤ 1
  · -- no rotation is needed
    rw [mend_branch_even heven.1 heven.2, balanced_branch, height_branch]
    exact ⟨⟨hnew, heven.1, heven.2, ht, hf.other⟩, by omega, by omega, by omega⟩
  rw [sgn_mul_mem f.side] at heven
  obtain htwo | htwo : sgn f.side * b = 2 ∨ sgn f.side * b = -2 := by omega
  · -- the subtree that grew is too high
    obtain ⟨hbal, hd, hh⟩ := mendSide_spec ht hf.other (by omega) f.side f.a b e
    rw [mend_branch htwo]
    exact ⟨hbal, by omega, by omega, by omega⟩
  · -- the other subtree is too high, since this one shrank
    obtain ⟨hbal, hd, hh⟩ := mendSide_spec hf.other ht (by omega) (!f.side) f.a b e
    have hnot : sgn (!f.side) * b = 2 := by
      rw [sgn_not, neg_mul]
      omega
    rw [← Bool.not_not f.side, branch_not, mend_branch hnot]
    exact ⟨hbal, by omega, by omega, by omega⟩

/-- **Balance.** A tree that is higher or lower by one than what was at the place is put there,
and the whole is balanced again. -/
theorem balanced_rebalance {h : ℕ} {d : ℤ}
    (hctx : BalancedAt h ctx) (ht : t.Balanced) (hheight : (t.height : ℤ) = h + d)
    (hge : -1 ≤ d) (hle : d ≤ 1) : (rebalance ctx t d).Balanced := by
  induction ctx generalizing t d h with
  | nil => exact ht
  | cons _ _ ih =>
    rw [rebalance]
    split_ifs with hzero
    · rw [balanced_plug]
      obtain rfl : t.height = h := by omega
      exact ⟨hctx, ht⟩
    · obtain ⟨hbal, hge', hle', hh⟩ := adjust_spec hctx.1 ht hheight hge hle
      exact ih hctx.2 hbal hh hge' hle'

/-! ### Search -/

/-- The place where the comparison leads, and what is there. -/
def descend (cut : α → Ordering) : AvlTree α → List (Frame α) → List (Frame α) × AvlTree α
  | nil, ctx => (ctx, nil)
  | node l a b r, ctx =>
    match cut a with
    | .lt => descend cut l (⟨false, a, b, r⟩ :: ctx)
    | .eq => (ctx, node l a b r)
    | .gt => descend cut r (⟨true, a, b, l⟩ :: ctx)

/-- What is searched for lies between elements of the list, or is one of them. -/
def Cuts (cut : α → Ordering) (l : List α) : Prop :=
  l.Pairwise fun x y => cut x = .gt ∨ cut y = .lt

theorem plug_descend (cut : α → Ordering) (t : AvlTree α) (ctx : List (Frame α)) :
    plug (descend cut t ctx).1 (descend cut t ctx).2 = plug ctx t := by
  induction t generalizing ctx with
  | nil => rfl
  | node _ _ _ _ ih_l ih_r =>
    rw [descend]
    split
    · exact ih_l _
    · rfl
    · exact ih_r _

variable {cut : α → Ordering}

/-- An element that is found compares equal. -/
theorem cut_of_descend {t l r : AvlTree α} {ctx ctx' : List (Frame α)}
    (h : descend cut t ctx = (ctx', node l a b r)) : cut a = .eq := by
  induction t generalizing ctx with
  | nil => cases congrArg Prod.snd h
  | node l' a' b' r' ih_l ih_r =>
    rw [descend] at h
    split at h
    · exact ih_l h
    · rename_i hcut
      cases congrArg Prod.snd h
      exact hcut
    · exact ih_r h

/-- If none is found, what is searched for lies between what is before and after the place. -/
theorem between_of_descend {ctx ctx' : List (Frame α)}
    (h : descend cut t ctx = (ctx', nil)) (hcuts : Cuts cut t.toList)
    (hbefore : ∀ x ∈ before ctx, cut x = .gt) (hafter : ∀ x ∈ after ctx, cut x = .lt) :
    (∀ x ∈ before ctx', cut x = .gt) ∧ ∀ x ∈ after ctx', cut x = .lt := by
  induction t generalizing ctx with
  | nil =>
    cases congrArg Prod.fst h
    exact ⟨hbefore, hafter⟩
  | node l a b r ih_l ih_r =>
    obtain ⟨hl, har, hlar⟩ := List.pairwise_append.mp hcuts
    obtain ⟨ha, hr⟩ := List.pairwise_cons.mp har
    rw [descend] at h
    split at h
    · rename_i hcut
      refine ih_l h hl (fun x hx => hbefore x ?_) fun x hx => ?_
      · simpa [before, rest] using hx
      · -- what follows an element that is greater is greater
        simp only [after, rest, walk_false, if_true, List.cons_append, List.mem_cons,
          List.mem_append] at hx
        obtain rfl | hx | hx := hx
        · exact hcut
        · exact (ha x hx).resolve_left (by rw [hcut]; decide)
        · exact hafter x hx
    · cases congrArg Prod.snd h
    · rename_i hcut
      refine ih_r h hr (fun x hx => ?_) fun x hx => hafter x ?_
      · simp only [before, rest, walk_true, if_true, List.reverse_append, List.reverse_cons,
          List.reverse_reverse, List.mem_append, List.mem_singleton] at hx
        obtain hx | hx | rfl := hx
        · exact hbefore x hx
        · exact (hlar x hx a List.mem_cons_self).resolve_right (by rw [hcut]; decide)
        · exact hcut
      · simpa [after, rest] using hx

/-- **Search.** An element that compares equal is found exactly if there is one. -/
theorem descend_eq_nil (hcuts : Cuts cut t.toList) :
    (descend cut t []).2 = nil ↔ ∀ x ∈ t.toList, cut x ≠ .eq := by
  have hplug := plug_descend cut t []
  generalize h : descend cut t [] = place at hplug ⊢
  obtain ⟨ctx, t'⟩ := place
  rw [plug_nil] at hplug
  cases t' with
  | nil =>
    obtain ⟨hbefore, hafter⟩ := between_of_descend h hcuts
      (fun x hx => nomatch hx) fun x hx => nomatch hx
    refine iff_of_true rfl fun x hx heq => ?_
    rw [← hplug, toList_plug, List.mem_append, List.mem_append] at hx
    obtain hx | hx | hx := hx
    · cases heq.symm.trans (hbefore x hx)
    · cases hx
    · cases heq.symm.trans (hafter x hx)
  | node _ a =>
    refine iff_of_false nofun fun hnone => hnone a ?_ (cut_of_descend h)
    rw [← hplug, toList_plug]
    exact List.mem_append_right _ (List.mem_append_left _ (mem_of_top rfl))

/-! ### Insertion and removal -/

def leaf (a : α) : AvlTree α := node nil a 0 nil

theorem balanced_leaf (a : α) : (leaf a).Balanced := ⟨rfl, by decide, by decide, trivial, trivial⟩

/-- A new element at an empty place of a balanced tree. -/
theorem balanced_insert (h : (plug ctx nil).Balanced) (a : α) :
    (rebalance ctx (leaf a) 1).Balanced := by
  obtain ⟨hctx, -⟩ := (balanced_plug ctx nil).mp h
  exact balanced_rebalance hctx (balanced_leaf a) rfl (by decide) le_rfl

theorem toList_insert (ctx : List (Frame α)) (a : α) :
    (rebalance ctx (leaf a) 1).toList = before ctx ++ a :: after ctx := by
  rw [toList_rebalance, toList_plug]
  rfl

theorem perm_insert (ctx : List (Frame α)) (a : α) :
    (rebalance ctx (leaf a) 1).toList.Perm (a :: (plug ctx nil).toList) := by
  rw [toList_insert, toList_plug]
  exact List.perm_middle

/-- The place of the last element of a tree with the subtrees `l` and `r`: the way to it, and
what is left of it. -/
structure Last (α : Type) where
  ctx : List (Frame α)
  left : AvlTree α
  a : α
  b : ℤ

def lastOf (l : AvlTree α) (a : α) (b : ℤ) : AvlTree α → List (Frame α) → Last α
  | nil, ctx => ⟨ctx, l, a, b⟩
  | node l' a' b' r', ctx => lastOf l' a' b' r' (⟨true, a, b, l⟩ :: ctx)

theorem plug_lastOf (l : AvlTree α) (a : α) (b : ℤ) (r : AvlTree α) (ctx : List (Frame α)) :
    plug (lastOf l a b r ctx).ctx
        (node (lastOf l a b r ctx).left (lastOf l a b r ctx).a (lastOf l a b r ctx).b nil)
      = plug ctx (node l a b r) := by
  induction r generalizing l a b ctx with
  | nil => rfl
  | node l' a' b' _ _ ih_r => exact ih_r l' a' b' (⟨true, a, b, l⟩ :: ctx)

/-- The tree without the element between `l` and `r` at the place `ctx`. -/
def removeAt (ctx : List (Frame α)) (b : ℤ) : AvlTree α → AvlTree α → AvlTree α
  | nil, r => rebalance ctx r (-1)
  | node ll la lb lr, nil => rebalance ctx (node ll la lb lr) (-1)
  | node ll la lb lr, node rl ra rb rr =>
    let last := lastOf ll la lb lr []
    rebalance (last.ctx ++ ⟨false, last.a, b, node rl ra rb rr⟩ :: ctx) last.left (-1)

theorem after_lastOf (l : AvlTree α) (a : α) (b : ℤ) (r : AvlTree α) (ctx : List (Frame α)) :
    after (lastOf l a b r ctx).ctx = after ctx := by
  induction r generalizing l a b ctx with
  | nil => rfl
  | node l' a' b' _ _ ih_r => exact ih_r l' a' b' (⟨true, a, b, l⟩ :: ctx)

/-- The way to the last element goes to the right. -/
theorem side_lastOf {l : AvlTree α} {r : AvlTree α}
    {f : Frame α} (hf : f ∈ (lastOf l a b r ctx).ctx) : f ∈ ctx ∨ f.side = true := by
  induction r generalizing l a b ctx with
  | nil => exact .inl hf
  | node _ _ _ _ _ ih_r =>
    obtain hf | hf := ih_r hf
    · obtain rfl | hf := List.mem_cons.mp hf
      · exact .inr rfl
      · exact .inl hf
    · exact .inr hf

/-- The last element is where a walk from the right begins. -/
theorem head_walk_lastOf (l : AvlTree α) (a : α) (b : ℤ) (r : AvlTree α) :
    ((node l a b r).walk true).head? = some (lastOf l a b r []).a := by
  have hplug := plug_lastOf l a b r []
  have hafter : rest false (lastOf l a b r []).ctx = [] := after_lastOf l a b r []
  rw [plug_nil] at hplug
  rw [← hplug, walk_true, toList_plug, after, hafter]
  simp [toList]

/-- **Order.** Removal takes out one element and keeps the others in their order. -/
theorem toList_removeAt (ctx : List (Frame α)) (b : ℤ) (l r : AvlTree α) :
    (removeAt ctx b l r).toList = before ctx ++ (l.toList ++ r.toList ++ after ctx) := by
  unfold removeAt
  split
  · rw [toList_rebalance, toList_plug]
    rfl
  · rw [toList_rebalance, toList_plug, toList.eq_1, List.append_nil]
  · rename_i ll la lb lr rl ra rb rr
    have hplug := congrArg toList (plug_lastOf ll la lb lr [])
    have hafter : rest false (lastOf ll la lb lr []).ctx = [] := after_lastOf ll la lb lr []
    generalize lastOf ll la lb lr [] = last at hplug hafter ⊢
    rw [toList_plug, after, hafter, plug_nil] at hplug
    rw [← hplug, toList_rebalance, plug_append, plug_cons, toList_plug]
    simp [Frame.fill, branch, toList, toList_plug, hafter, after]

/-- A tree, split at an element. -/
theorem toList_plug_node (ctx : List (Frame α)) (l : AvlTree α) (a : α) (b : ℤ) (r : AvlTree α) :
    (plug ctx (node l a b r)).toList
      = before ctx ++ l.toList ++ a :: (r.toList ++ after ctx) := by
  rw [toList_plug, toList]
  simp only [List.append_assoc, List.cons_append]

theorem perm_removeAt (ctx : List (Frame α)) (a : α) (b : ℤ) (l r : AvlTree α) :
    (a :: (removeAt ctx b l r).toList).Perm (plug ctx (node l a b r)).toList := by
  have heq : before ctx ++ (l.toList ++ r.toList ++ after ctx)
      = before ctx ++ l.toList ++ (r.toList ++ after ctx) := by
    simp only [List.append_assoc]
  rw [toList_removeAt, heq, toList_plug_node]
  exact List.perm_middle.symm

theorem erase_insert [DecidableEq α] (h : a ∉ (plug ctx nil).toList) :
    (rebalance ctx (leaf a) 1).toList.erase a = (plug ctx nil).toList := by
  rw [toList_plug] at h ⊢
  rw [toList_insert, List.erase_append_right _ fun hmem => h (List.mem_append_left _ hmem),
    List.erase_cons_head]
  rfl

theorem erase_plug_node [DecidableEq α] {l r : AvlTree α}
    (h : (plug ctx (node l a b r)).toList.Nodup) :
    (plug ctx (node l a b r)).toList.erase a = (removeAt ctx b l r).toList := by
  rw [toList_plug_node] at h ⊢
  have hfront : a ∉ before ctx ++ l.toList := fun hfront =>
    List.disjoint_of_nodup_append h hfront List.mem_cons_self
  rw [List.erase_append_right _ hfront, List.erase_cons_head, toList_removeAt]
  simp only [List.append_assoc]

/-- The balance does not depend on which element is in a frame. -/
theorem balancedAt_congr (inner ctx : List (Frame α)) (side : Bool) (a a' : α) (b : ℤ)
    (other : AvlTree α) (h : ℕ) :
    BalancedAt h (inner ++ ⟨side, a, b, other⟩ :: ctx)
      ↔ BalancedAt h (inner ++ ⟨side, a', b, other⟩ :: ctx) := by
  induction inner generalizing h with
  | nil =>
    refine and_congr_left fun _ => ?_
    exact ⟨fun h => ⟨h.other, h.diff, h.ge, h.le⟩, fun h => ⟨h.other, h.diff, h.ge, h.le⟩⟩
  | cons _ _ ih => exact and_congr_right fun _ => ih _

/-- A tree, seen from the last element of the left subtree of an element. -/
theorem plug_append_lastOf (ctx : List (Frame α)) (ll : AvlTree α) (la : α) (lb : ℤ)
    (lr : AvlTree α) (a : α) (b : ℤ) (r : AvlTree α) :
    plug ((lastOf ll la lb lr []).ctx ++ ⟨false, a, b, r⟩ :: ctx)
        (node (lastOf ll la lb lr []).left (lastOf ll la lb lr []).a (lastOf ll la lb lr []).b nil)
      = plug ctx (node (node ll la lb lr) a b r) := by
  rw [plug_append, plug_lastOf]
  rfl

/-- The place of an element with at most one subtree, and the subtree. -/
theorem balanced_single
    (h : (plug ctx (branch side t nil a b)).Balanced) :
    BalancedAt (t.height + 1) ctx ∧ t.Balanced := by
  rw [balanced_plug, height_branch, height_nil, max_eq_left (Nat.zero_le _), balanced_branch] at h
  exact ⟨h.1, h.2.2.2.2.1⟩

theorem balanced_rebalance_single
    (side : Bool) (h : (plug ctx (branch side t nil a b)).Balanced) :
    (rebalance ctx t (-1)).Balanced := by
  obtain ⟨hctx, ht⟩ := balanced_single h
  refine balanced_rebalance hctx ht ?_ le_rfl (by decide)
  omega

/-- An element and the last one of its left subtree may exchange their places. -/
theorem balanced_lowered {ll lr r : AvlTree α} {la a : α} {lb b : ℤ}
    (h : (plug ctx (node (node ll la lb lr) a b r)).Balanced) :
    (plug ((lastOf ll la lb lr []).ctx ++ ⟨false, (lastOf ll la lb lr []).a, b, r⟩ :: ctx)
      (node (lastOf ll la lb lr []).left a (lastOf ll la lb lr []).b nil)).Balanced := by
  rw [← plug_append_lastOf, balanced_plug,
    balancedAt_congr _ ctx false a (lastOf ll la lb lr []).a] at h
  exact (balanced_plug _ _).mpr h

theorem balanced_removeAt {l r : AvlTree α}
    (h : (plug ctx (node l a b r)).Balanced) : (removeAt ctx b l r).Balanced := by
  unfold removeAt
  split
  · exact balanced_rebalance_single true h
  · exact balanced_rebalance_single false h
  · exact balanced_rebalance_single false (balanced_lowered h)

/-! ### Trees in order -/

section Order

variable {β : Type} {cmp : β → β → Ordering} {value : α → β} {t : AvlTree α}

/-- The values of the elements are in ascending order. -/
def Ordered (cmp : β → β → Ordering) (value : α → β) (t : AvlTree α) : Prop :=
  t.toList.Pairwise fun x y => cmp (value x) (value y) = .lt

section

variable (h : t.Ordered cmp value)

include h

theorem Ordered.cuts [Std.TransCmp cmp] (v : β) :
    Cuts (fun c => cmp v (value c)) t.toList := by
  refine List.Pairwise.imp (fun {x y} hlt => ?_) h
  by_cases hx : cmp v (value x) = .gt
  · exact .inl hx
  · exact .inr (Std.TransCmp.lt_of_isLE_of_lt (Ordering.isLE_iff_ne_gt.mpr hx) hlt)

/-- The values of two elements are different. -/
theorem Ordered.eq_of_cmp [Std.TransCmp cmp] {x y : α}
    (hx : x ∈ t.toList) (hy : y ∈ t.toList) (heq : cmp (value x) (value y) = .eq) : x = y := by
  by_contra hne
  have hpairwise : t.toList.Pairwise fun x y => cmp (value x) (value y) ≠ .eq :=
    h.imp fun hlt heq => nomatch (hlt.symm.trans heq)
  have : Std.Symm fun x y => cmp (value x) (value y) ≠ .eq :=
    ⟨fun _ _ => mt Std.OrientedCmp.eq_symm⟩
  exact hpairwise.forall hx hy hne heq

/-- The search finds an element that compares equal. -/
theorem Ordered.descend_of_eq [Std.TransCmp cmp] {v : β} {c : α}
    (hc : c ∈ t.toList) (heq : cmp v (value c) = .eq) :
    ∃ ctx l b r, descend (fun c => cmp v (value c)) t [] = (ctx, node l c b r) := by
  have hnil := descend_eq_nil (h.cuts v)
  have hplug := plug_descend (fun c => cmp v (value c)) t []
  generalize hplace : descend (fun c => cmp v (value c)) t [] = place at hnil hplug ⊢
  obtain ⟨ctx, t'⟩ := place
  cases t' with
  | nil => exact absurd heq (hnil.mp rfl c hc)
  | node l a b r =>
    have ha : a ∈ t.toList := by
      rw [← plug_nil t, ← hplug, toList_plug]
      exact List.mem_append_right _ (List.mem_append_left _ (mem_of_top rfl))
    have heq' := cut_of_descend hplace
    obtain rfl := h.eq_of_cmp ha hc
      (Std.TransCmp.eq_trans (Std.OrientedCmp.eq_symm heq') heq)
    exact ⟨ctx, l, b, r, rfl⟩

/-- The search ends at an empty place if there is none. -/
theorem Ordered.descend_of_ne [Std.TransCmp cmp] {v : β}
    (hne : ∀ c ∈ t.toList, cmp v (value c) ≠ .eq) :
    ∃ ctx, descend (fun c => cmp v (value c)) t [] = (ctx, nil) :=
  ⟨_, Prod.ext rfl ((descend_eq_nil (h.cuts v)).mpr hne)⟩

theorem ordered_insert [Std.TransCmp cmp] {ctx : List (Frame α)} {a : α}
    (hat : descend (fun c => cmp (value a) (value c)) t [] = (ctx, nil)) :
    (rebalance ctx (leaf a) 1).Ordered cmp value := by
  obtain ⟨hbefore, hafter⟩ := between_of_descend hat (h.cuts (value a))
    (fun x hx => nomatch hx) fun x hx => nomatch hx
  have hplug := plug_descend (fun c => cmp (value a) (value c)) t []
  rw [hat, plug_nil] at hplug
  rw [Ordered, ← hplug, toList_plug] at h
  rw [Ordered, toList_insert, List.pairwise_append, List.pairwise_cons]
  obtain ⟨hb, ha, hba⟩ := List.pairwise_append.mp h
  refine ⟨hb, ⟨hafter, ha⟩, fun x hx y hy => ?_⟩
  obtain rfl | hy := List.mem_cons.mp hy
  · exact Std.OrientedCmp.gt_iff_lt.mp (hbefore x hx)
  · exact hba x hx y hy

end

theorem ordered_removeAt {ctx : List (Frame α)} {a : α} {b : ℤ} {l r : AvlTree α}
    (h : (plug ctx (node l a b r)).Ordered cmp value) : (removeAt ctx b l r).Ordered cmp value := by
  rw [Ordered, toList_removeAt]
  refine List.Pairwise.sublist ?_ h
  rw [toList_plug, toList]
  simp

end Order

end AvlTree

end Tun2Socks.Framework
