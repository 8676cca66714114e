import Mathlib

/-!
# Linked lists without a last pointer

`SLinkedList_impl.h`, with `SLINKEDLIST_PARAM_FEATURE_LAST` off. The nodes are in the entries, and
an entry is known by its address. The list itself has only a pointer to its first entry, whose
`prev` is never read and is left as it is.

An entry that is not in a list can be marked as such: its `next` is then the entry itself.

`Represents o l` says that the list `o` has the entries `l`, in this order. `Represents.prepend`,
`Represents.remove` and `Represents.removeFirst` are what the operations do to them.
-/

namespace Tun2Socks.Structure

/-- The list and the nodes of all entries. -/
structure SLinkedList where
  first : Option ℕ
  next : ℕ → Option ℕ
  prev : ℕ → Option ℕ

namespace SLinkedList

/-- `SLinkedListMarkRemoved`. -/
def markRemoved (o : SLinkedList) (entry : ℕ) : SLinkedList :=
  { o with next := Function.update o.next entry (some entry) }

/-- `SLinkedListIsRemoved`. -/
def IsRemoved (o : SLinkedList) (entry : ℕ) : Prop := some entry = o.next entry

instance (o : SLinkedList) (entry : ℕ) : Decidable (o.IsRemoved entry) :=
  inferInstanceAs (Decidable (_ = _))

def init (o : SLinkedList) : SLinkedList := { o with first := none }

/-- `prev` of an entry is changed, if there is one. -/
def setPrev (o : SLinkedList) : Option ℕ → Option ℕ → SLinkedList
  | some entry, p => { o with prev := Function.update o.prev entry p }
  | none, _ => o

def prepend (o : SLinkedList) (entry : ℕ) : SLinkedList :=
  setPrev { o with next := Function.update o.next entry o.first, first := some entry } o.first
    (some entry)

/-- `SLinkedList_Remove`; `none` is a `NULL` that is dereferenced. -/
def remove (o : SLinkedList) (entry : ℕ) : Option SLinkedList :=
  if o.first ≠ some entry then
    (o.prev entry).map fun p =>
      setPrev { o with next := Function.update o.next p (o.next entry) } (o.next entry) (some p)
  else some { o with first := o.next entry }

/-- `SLinkedList_RemoveFirst`, of a list that is not empty. -/
def removeFirst (o : SLinkedList) : SLinkedList := { o with first := o.first.bind o.next }

/-- One entry is followed by another. -/
def Link (o : SLinkedList) (a b : ℕ) : Prop := o.next a = some b ∧ o.prev b = some a

/-- The entries of the list, in order. -/
structure Represents (o : SLinkedList) (l : List ℕ) : Prop where
  first : o.first = l.head?
  nodup : l.Nodup
  links : l.IsChain o.Link
  last : ∀ a ∈ l.getLast?, o.next a = none

variable {o : SLinkedList} {l : List ℕ} {entry : ℕ}

/-- The entry after an entry of the list. -/
theorem Represents.next_eq {x y : List ℕ} (h : o.Represents (x ++ entry :: y)) :
    o.next entry = y.head? := by
  have hlinks := (List.isChain_split.mp h.links).2
  cases y with
  | nil => exact h.last entry (by rw [List.getLast?_concat]; rfl)
  | cons => exact (List.isChain_cons_cons.mp hlinks).1.1

/-- An entry of the list is not marked as removed. -/
theorem Represents.not_isRemoved (h : o.Represents l) (hmem : entry ∈ l) : ¬ o.IsRemoved entry := by
  obtain ⟨x, y, rfl⟩ := List.append_of_mem hmem
  rw [IsRemoved, h.next_eq]
  intro hhead
  have hy : entry ∈ y := List.mem_of_mem_head? hhead.symm
  exact (List.nodup_cons.mp (List.nodup_append.mp h.nodup).2.1).1 hy

/-- Nodes that are not in the list do not matter. -/
theorem Represents.congr {o' : SLinkedList} (h : o.Represents l) (hfirst : o'.first = o.first)
    (hnext : ∀ a ∈ l, o'.next a = o.next a) (hprev : ∀ a ∈ l.tail, o'.prev a = o.prev a) :
    o'.Represents l where
  first := hfirst.trans h.first
  nodup := h.nodup
  links := by
    refine h.links.imp_of_mem_tail_imp ?_
    rintro a b ha hb ⟨hab, hba⟩
    exact ⟨(hnext a ha).trans hab, (hprev b hb).trans hba⟩
  last := fun a ha => (hnext a (List.mem_of_mem_getLast? ha)).trans (h.last a ha)

theorem setPrev_next (o : SLinkedList) (a p : Option ℕ) : (o.setPrev a p).next = o.next := by
  cases a <;> rfl

theorem setPrev_first (o : SLinkedList) (a p : Option ℕ) : (o.setPrev a p).first = o.first := by
  cases a <;> rfl

theorem setPrev_of_ne (o : SLinkedList) {a p : Option ℕ} {b : ℕ} (h : a ≠ some b) :
    (o.setPrev a p).prev b = o.prev b := by
  cases a with
  | none => rfl
  | some => exact Function.update_of_ne (fun heq => h (congrArg some heq.symm)) _ _

theorem setPrev_self (o : SLinkedList) (a : ℕ) (p : Option ℕ) :
    (o.setPrev (some a) p).prev a = p :=
  Function.update_self _ _ _

theorem Represents.prepend (h : o.Represents l) (hmem : entry ∉ l) :
    (o.prepend entry).Represents (entry :: l) := by
  have hnext : ∀ a ∈ l, (o.prepend entry).next a = o.next a := by
    intro a ha
    rw [SLinkedList.prepend, setPrev_next]
    exact Function.update_of_ne (ne_of_mem_of_not_mem ha hmem) _ _
  have hentry : (o.prepend entry).next entry = l.head? := by
    rw [SLinkedList.prepend, setPrev_next, ← h.first]
    exact Function.update_self _ _ _
  refine ⟨by rw [SLinkedList.prepend, setPrev_first]; rfl, List.nodup_cons.mpr ⟨hmem, h.nodup⟩, ?_, ?_⟩
  · refine List.IsChain.cons ?_ ?_
    · refine h.links.imp_of_mem_tail_imp ?_
      rintro a b ha hb ⟨hab, hba⟩
      refine ⟨(hnext a ha).trans hab, (setPrev_of_ne _ ?_).trans hba⟩
      -- `b` has an entry before it, so it is not the first one, whose `prev` is changed.
      rw [h.first]
      cases l with
      | nil => cases hb
      | cons =>
        rintro heq
        cases heq
        exact (List.nodup_cons.mp h.nodup).1 hb
    · intro b hb
      refine ⟨hentry.trans hb, ?_⟩
      rw [SLinkedList.prepend, h.first, hb]
      exact setPrev_self _ _ _
  · intro a ha
    cases l with
    | nil =>
      cases ha
      exact hentry
    | cons =>
      rw [List.getLast?_cons_cons] at ha
      rw [hnext a (List.mem_of_mem_getLast? ha)]
      exact h.last a ha

/-- The first entry is removed. Its node keeps its pointers. -/
theorem Represents.removeFirst (h : o.Represents (entry :: l)) : o.removeFirst.Represents l := by
  have hnext : o.next entry = l.head? := h.next_eq (x := [])
  refine ⟨?_, (List.nodup_cons.mp h.nodup).2, h.links.tail, ?_⟩
  · rw [SLinkedList.removeFirst, h.first]
    exact hnext
  · intro a ha
    refine h.last a ?_
    cases l with
    | nil => cases ha
    | cons => exact ha

/-- An entry with another one before it is taken out from between its neighbours. -/
theorem Represents.unlink {x y : List ℕ} {p : ℕ} (h : o.Represents (x ++ p :: entry :: y)) :
    (setPrev { o with next := Function.update o.next p (o.next entry) } (o.next entry)
      (some p)).Represents (x ++ p :: y) := by
  have hnodup : (x ++ p :: y).Nodup :=
    h.nodup.sublist ((List.sublist_cons_self entry y).cons_cons p |>.append_left x)
  have hentry : o.next entry = y.head? :=
    Represents.next_eq (x := x ++ [p]) (by rw [List.append_assoc]; exact h)
  have hfresh : entry ∉ x ++ [p] := by
    intro hmem
    have hall := h.nodup
    rw [← List.singleton_append, ← List.append_assoc] at hall
    exact (List.nodup_append.mp hall).2.2 entry hmem entry List.mem_cons_self rfl
  have hnot : entry ∉ y :=
    (List.nodup_cons.mp (List.nodup_cons.mp (List.nodup_append.mp h.nodup).2.1).2).1
  have hapart : ∀ a ∈ x ++ [p], a ∉ y := by
    intro a ha hy
    rw [← List.singleton_append, ← List.append_assoc] at hnodup
    exact (List.nodup_append.mp hnodup).2.2 a ha a hy rfl
  obtain ⟨hfront, hback⟩ := List.isChain_split.mp h.links
  obtain ⟨hlink, hback⟩ := List.isChain_cons_cons.mp hback
  obtain ⟨hafter, hrest⟩ := List.isChain_cons.mp hback
  generalize ho' : setPrev { o with next := Function.update o.next p (o.next entry) }
    (o.next entry) (some p) = o'
  have hnext : ∀ a ≠ p, o'.next a = o.next a := by
    intro a ha
    rw [← ho', setPrev_next]
    exact Function.update_of_ne ha _ _
  have hnext_p : o'.next p = y.head? := by
    rw [← ho', setPrev_next, ← hentry]
    exact Function.update_self _ _ _
  have hprev : ∀ a, y.head? ≠ some a → o'.prev a = o.prev a := by
    intro a ha
    rw [← ho', hentry]
    exact setPrev_of_ne _ ha
  refine ⟨?_, hnodup, ?_, ?_⟩
  · rw [← ho', setPrev_first]
    refine h.first.trans ?_
    cases x <;> rfl
  · refine List.isChain_split.mpr ⟨?_, List.isChain_cons.mpr ⟨?_, ?_⟩⟩
    · refine hfront.imp_of_mem_imp ?_
      rintro a b ha hb ⟨hab, hba⟩
      refine ⟨(hnext a ?_).trans hab, (hprev b ?_).trans hba⟩
      · -- `p` is followed by the entry, which is not before it.
        rintro rfl
        obtain rfl : entry = b := Option.some.inj (hlink.1.symm.trans hab)
        exact hfresh hb
      · intro hy
        exact hapart b hb (List.mem_of_mem_head? hy)
    · intro b hb
      refine ⟨hnext_p.trans hb, ?_⟩
      rw [← ho', hentry, hb]
      exact setPrev_self _ _ _
    · refine hrest.imp_of_mem_imp ?_
      rintro a b ha hb ⟨hab, hba⟩
      refine ⟨(hnext a ?_).trans hab, (hprev b ?_).trans hba⟩
      · rintro rfl
        exact hapart a (List.mem_append_right _ List.mem_cons_self) ha
      · -- The first of `y` follows the entry, so it follows nothing in `y`.
        intro hy
        obtain rfl : a = entry := Option.some.inj (hba.symm.trans (hafter b hy).2)
        exact hnot ha
  · intro a ha
    cases y with
    | nil =>
      rw [List.getLast?_concat] at ha
      cases ha
      exact hnext_p
    | cons =>
      rw [List.getLast?_append_cons, List.getLast?_cons_cons] at ha
      have ha_mem := List.mem_of_mem_getLast? ha
      rw [hnext a]
      · refine h.last a ?_
        rw [List.getLast?_append_cons, List.getLast?_cons_cons, List.getLast?_cons_cons]
        exact ha
      · rintro rfl
        exact hapart a (List.mem_append_right _ List.mem_cons_self) ha_mem

/-- An entry of the list is removed. The nodes of other lists are not touched. -/
theorem Represents.remove (h : o.Represents l) (hmem : entry ∈ l) :
    ∃ o', o.remove entry = some o' ∧ o'.Represents (l.erase entry) ∧
      ∀ a ∉ l, o'.next a = o.next a := by
  obtain ⟨x, y, rfl⟩ := List.append_of_mem hmem
  have hnot : entry ∉ x := by
    intro hx
    exact (List.nodup_append.mp h.nodup).2.2 entry hx entry List.mem_cons_self rfl
  rw [List.erase_append_right _ hnot, List.erase_cons_head]
  obtain rfl | ⟨x, p, rfl⟩ := List.eq_nil_or_concat x
  · refine ⟨o.removeFirst, ?_, h.removeFirst, fun _ _ => rfl⟩
    have hfirst : o.first = some entry := h.first
    rw [SLinkedList.remove, if_neg (by rw [hfirst]; exact fun h => h rfl), SLinkedList.removeFirst,
      hfirst]
    rfl
  · rw [List.concat_eq_append] at hnot
    rw [List.concat_eq_append, List.append_assoc, List.singleton_append] at h
    rw [List.concat_eq_append, List.append_assoc, List.singleton_append, List.append_assoc,
      List.singleton_append]
    refine ⟨_, ?_, h.unlink, ?_⟩
    · have hfirst : o.first ≠ some entry := by
        rw [h.first]
        intro hhead
        refine hnot (List.mem_of_mem_head? ?_)
        cases x <;> exact hhead
      have hprev : o.prev entry = some p :=
        (List.isChain_cons_cons.mp (List.isChain_split.mp h.links).2).1.2
      rw [SLinkedList.remove, if_pos hfirst, hprev]
      rfl
    · intro a ha
      rw [setPrev_next]
      exact Function.update_of_ne (fun heq => ha (by rw [heq]; simp)) _ _

end SLinkedList
end Tun2Socks.Structure
