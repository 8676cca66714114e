import Mathlib

/-!
# The order of last use

A list `h` records uses as they happen, the latest at its end. Without repetitions, keeping the
last occurrence of each, it is the order of last use: `h.dedup`. `Before h a b` says that the last
use of `a` is before the last use of `b`.

A structure that claims to keep its members in the order of last use keeps a sublist of `h.dedup`
(`pairwise_before`). Moving a member to the end when it is used keeps that (`sublist_use`), as does
a use of something that is not a member (`sublist_use_of_not_mem`).
-/

namespace Tun2Socks.Framework.Recency

variable {α : Type} [DecidableEq α]

/-- The last use of `a` is before the last use of `b`. -/
def Before (h : List α) (a b : α) : Prop := [a, b].Sublist h.dedup

variable {h l : List α}

/-- What is used goes to the end. -/
theorem dedup_concat (h : List α) (a : α) : (h ++ [a]).dedup = h.dedup.erase a ++ [a] := by
  induction h with
  | nil => rfl
  | cons b h ih =>
    rw [List.cons_append]
    by_cases hmem : b ∈ h
    · rw [List.dedup_cons_of_mem (List.mem_append_left _ hmem), List.dedup_cons_of_mem hmem, ih]
    · rw [List.dedup_cons_of_notMem hmem]
      obtain rfl | hne := eq_or_ne b a
      · rw [List.dedup_cons_of_mem (List.mem_append_right _ List.mem_cons_self), ih,
          List.erase_cons_head, List.erase_of_not_mem (mt List.mem_dedup.mp hmem)]
      · have hnew : b ∉ h ++ [a] := by
          rw [List.mem_append, List.mem_singleton]
          exact not_or.mpr ⟨hmem, hne⟩
        rw [List.dedup_cons_of_notMem hnew, ih, List.erase_cons_tail (by simpa using hne),
          List.cons_append]

/-- A member, or a new one, is used. -/
theorem sublist_use (hsub : l.Sublist h.dedup) (a : α) :
    (l.erase a ++ [a]).Sublist (h ++ [a]).dedup := by
  rw [dedup_concat]
  exact (hsub.erase a).append (List.Sublist.refl _)

/-- Something that is not a member is used. -/
theorem sublist_use_of_not_mem (hsub : l.Sublist h.dedup) {a : α} (hmem : a ∉ l) :
    l.Sublist (h ++ [a]).dedup := by
  have huse := sublist_use hsub a
  rw [List.erase_of_not_mem hmem] at huse
  exact (List.sublist_append_left l [a]).trans huse

/-- Members that are known by something else, such as their address, are taken out by it. -/
theorem map_erase {β : Type} [DecidableEq β] {f : β → α} {m : List β} {b : β}
    (hinj : ∀ a ∈ m, f a = f b → a = b) : (m.map f).erase (f b) = (m.erase b).map f := by
  induction m with
  | nil => rfl
  | cons c m ih =>
    obtain ⟨hhead, htail⟩ := List.forall_mem_cons.mp hinj
    rw [List.map_cons]
    obtain rfl | hne := eq_or_ne c b
    · rw [List.erase_cons_head, List.erase_cons_head]
    · rw [List.erase_cons_tail (by simpa using mt hhead hne),
        List.erase_cons_tail (by simpa using hne), ih htail, List.map_cons]

theorem pairwise_before (hsub : l.Sublist h.dedup) : l.Pairwise (Before h) :=
  List.pairwise_iff_forall_sublist.mpr fun hpair => hpair.trans hsub

end Tun2Socks.Framework.Recency
