import Mathlib

/-!
# Trees whose nodes lie in the objects they order

The search trees of C programs are often intrusive: the node is a field of the object, and the
key is read from the object whenever two nodes are compared. Such a tree is seen here through its
in-order sequence, a list of objects, together with the function `key` that reads the keys at the
moment:

* `insert` puts an object in its place, and refuses if an equal key is there;
* `lookup` finds the object with a key;
* an object is taken out with `List.erase`, which does not look at keys, as the removal of a node
  does not.

The key of an object that is in the tree must not change. This is not part of the data structure,
so it is not part of the type either: `Ordered` says that the sequence is in increasing order
under the present keys, `Ordered.congr` that it stays so under other keys that agree on the
objects in the tree, and `ordered_insert` and `Ordered.erase` that the operations keep it.
-/

namespace Tun2Socks.Framework
namespace InOrder

open Std

variable {K A : Type} (cmp : K → K → Ordering) (key : A → K)

/-- Put `a` in its place, unless an object with an equal key is there. -/
def insert (a : A) : List A → Option (List A)
  | [] => some [a]
  | b :: t =>
    match cmp (key a) (key b) with
    | .lt => some (a :: b :: t)
    | .eq => none
    | .gt => (insert a t).map (b :: ·)

/-- The object with the key `k`. -/
def lookup (k : K) : List A → Option A
  | [] => none
  | a :: t => if cmp k (key a) = .eq then some a else lookup k t

/-- The sequence is in increasing order. -/
def Ordered (t : List A) : Prop := t.Pairwise fun a b => cmp (key a) (key b) = .lt

variable {cmp key} {a : A} {t t' : List A}

/-- Insertion adds the object and nothing else. -/
theorem perm_insert (h : insert cmp key a t = some t') : t'.Perm (a :: t) := by
  induction t generalizing t' with
  | nil =>
    cases h
    exact List.Perm.refl _
  | cons b t ih =>
    rw [insert] at h
    cases hcmp : cmp (key a) (key b) with rw [hcmp] at h
    | lt =>
      cases h
      exact List.Perm.refl _
    | eq => cases h
    | gt =>
      obtain ⟨t₁, hinsert, rfl⟩ := Option.map_eq_some_iff.mp h
      calc b :: t₁
        _ |>.Perm (b :: a :: t) := (ih hinsert).cons b
        _ |>.Perm (a :: b :: t) := List.Perm.swap a b t

theorem mem_insert (h : insert cmp key a t = some t') {b : A} : b ∈ t' ↔ b = a ∨ b ∈ t := by
  rw [(perm_insert h).mem_iff, List.mem_cons]

theorem ordered_insert [TransCmp cmp] (h : insert cmp key a t = some t')
    (hordered : Ordered cmp key t) : Ordered cmp key t' := by
  induction t generalizing t' with
  | nil =>
    cases h
    exact List.pairwise_singleton _ _
  | cons b t ih =>
    obtain ⟨hhead, htail⟩ := List.pairwise_cons.mp hordered
    rw [insert] at h
    cases hcmp : cmp (key a) (key b) with rw [hcmp] at h
    | lt =>
      cases h
      refine List.pairwise_cons.mpr ⟨?_, hordered⟩
      intro c hc
      obtain rfl | hc := List.mem_cons.mp hc
      · exact hcmp
      · exact TransCmp.lt_trans hcmp (hhead c hc)
    | eq => cases h
    | gt =>
      obtain ⟨t₁, hinsert, rfl⟩ := Option.map_eq_some_iff.mp h
      refine List.pairwise_cons.mpr ⟨?_, ih hinsert htail⟩
      intro c hc
      obtain rfl | hc := (mem_insert hinsert).mp hc
      · exact OrientedCmp.lt_of_gt hcmp
      · exact hhead c hc

/-- There is a place for a key that is not there. -/
theorem exists_insert (h : ∀ b ∈ t, cmp (key a) (key b) ≠ .eq) :
    ∃ t', insert cmp key a t = some t' := by
  induction t with
  | nil => exact ⟨[a], rfl⟩
  | cons b t ih =>
    obtain ⟨t', hinsert⟩ := ih fun c hc => h c (List.mem_cons_of_mem b hc)
    rw [insert]
    cases hcmp : cmp (key a) (key b) with
    | lt => exact ⟨_, rfl⟩
    | eq => exact absurd hcmp (h b List.mem_cons_self)
    | gt => exact ⟨b :: t', by rw [hinsert]; rfl⟩

namespace Ordered

theorem nodup [ReflCmp cmp] (h : Ordered cmp key t) : t.Nodup := by
  refine h.imp ?_
  rintro a _ hlt rfl
  have hself : cmp (key a) (key a) = .eq := ReflCmp.compare_self
  rw [hlt] at hself
  cases hself

theorem erase [DecidableEq A] (h : Ordered cmp key t) (a : A) : Ordered cmp key (t.erase a) :=
  List.Pairwise.sublist List.erase_sublist h

/-- Keys may change, except those in the tree. -/
theorem congr (h : Ordered cmp key t) {key' : A → K} (hkey : ∀ a ∈ t, key' a = key a) :
    Ordered cmp key' t := by
  refine List.Pairwise.imp_of_mem ?_ h
  intro a b ha hb hlt
  rw [hkey a ha, hkey b hb]
  exact hlt

/-- No two objects have the same key. -/
theorem inj [ReflCmp cmp] (h : Ordered cmp key t) {a b : A} (ha : a ∈ t) (hb : b ∈ t)
    (hkey : key a = key b) : a = b := by
  induction t with
  | nil => cases ha
  | cons c t ih =>
    obtain ⟨hhead, htail⟩ := List.pairwise_cons.mp h
    have hne : ∀ d ∈ t, key c ≠ key d := by
      intro d hd heq
      have hlt := hhead d hd
      have hself : cmp (key d) (key d) = .eq := ReflCmp.compare_self
      rw [heq, hself] at hlt
      cases hlt
    obtain rfl | ha' := List.mem_cons.mp ha <;> obtain rfl | hb' := List.mem_cons.mp hb
    · rfl
    · exact absurd hkey (hne b hb')
    · exact absurd hkey.symm (hne a ha')
    · exact ih htail ha' hb'

end Ordered

/-- Lookup finds an object that is there and has the key. -/
theorem mem_of_lookup [LawfulEqCmp cmp] {k : K} (h : lookup cmp key k t = some a) :
    a ∈ t ∧ key a = k := by
  induction t with
  | nil => cases h
  | cons b t ih =>
    rw [lookup] at h
    split_ifs at h with heq
    · cases h
      exact ⟨List.mem_cons_self, (LawfulEqCmp.eq_of_compare heq).symm⟩
    · obtain ⟨hmem, hkey⟩ := ih h
      exact ⟨List.mem_cons_of_mem b hmem, hkey⟩

theorem lookup_eq_none_iff [LawfulEqCmp cmp] {k : K} :
    lookup cmp key k t = none ↔ ∀ a ∈ t, key a ≠ k := by
  induction t with
  | nil => exact iff_of_true rfl fun _ ha => nomatch ha
  | cons b t ih =>
    rw [lookup, List.forall_mem_cons]
    by_cases heq : k = key b
    · rw [if_pos (LawfulEqCmp.compare_eq_iff_eq.mpr heq)]
      exact iff_of_false (Option.some_ne_none b) fun hall => hall.1 heq.symm
    · rw [if_neg (mt LawfulEqCmp.eq_of_compare heq), ih]
      exact ⟨fun hall => ⟨fun h' => heq h'.symm, hall⟩, And.right⟩

end InOrder

/-! ### Comparing by a field -/

/-- Compare what `f` reads. -/
def comparing {K A : Type} (cmp : K → K → Ordering) (f : A → K) (a b : A) : Ordering :=
  cmp (f a) (f b)

instance {K A : Type} (cmp : K → K → Ordering) [Std.TransCmp cmp] (f : A → K) :
    Std.TransCmp (comparing cmp f) where
  eq_swap {a b} := show cmp (f a) (f b) = _ from Std.OrientedCmp.eq_swap
  isLE_trans {a b c} h h' := by
    have hab : (cmp (f a) (f b)).isLE = true := h
    have hbc : (cmp (f b) (f c)).isLE = true := h'
    have hac : (cmp (f a) (f c)).isLE = true := Std.TransCmp.isLE_trans hab hbc
    exact hac

end Tun2Socks.Framework
