import Mathlib

/-!
# Histories

A history is a list of events that grows at its end. `Always P h` says that every event of `h` came
at a time when it was allowed: `P before e` is read with the events before it.
-/

namespace Tun2Socks.Framework.History

variable {α : Type} {P : List α → α → Prop} {h : List α} {e : α}

def Always (P : List α → α → Prop) (h : List α) : Prop :=
  ∀ before e after, h = before ++ e :: after → P before e

theorem always_nil : Always P [] := fun _ _ _ heq =>
  absurd heq.symm (List.append_ne_nil_of_right_ne_nil _ (List.cons_ne_nil _ _))

/-- One event more. -/
theorem always_concat : Always P (h ++ [e]) ↔ Always P h ∧ P h e := by
  constructor
  · intro hall
    refine ⟨fun before e' after heq => hall before e' (after ++ [e]) ?_, hall h e [] rfl⟩
    rw [heq, List.append_assoc, List.cons_append]
  · rintro ⟨hall, he⟩ before e' after heq
    obtain rfl | ⟨after, e'', rfl⟩ := List.eq_nil_or_concat after
    · obtain ⟨rfl, hlast⟩ := List.append_inj' heq rfl
      exact List.singleton_inj.mp hlast ▸ he
    · rw [List.concat_eq_append, ← List.cons_append, ← List.append_assoc] at heq
      obtain ⟨rfl, -⟩ := List.append_inj' heq rfl
      exact hall before e' after rfl

/-- What only comes if it has not come yet comes at most once. -/
theorem Always.count_le_one [DecidableEq α] (hall : Always P h)
    (honce : ∀ before, P before e → e ∉ before) : h.count e ≤ 1 := by
  induction h using List.reverseRecOn with
  | nil => exact Nat.zero_le 1
  | append_singleton h e' ih =>
    obtain ⟨hall, hlast⟩ := always_concat.mp hall
    by_cases heq : e' = e
    · subst heq
      rw [List.count_append, List.count_eq_zero_of_not_mem (honce h hlast),
        List.count_singleton_self]
    · have hnot : e ∉ [e'] := fun hmem => heq (List.mem_singleton.mp hmem).symm
      rw [List.count_append, List.count_eq_zero_of_not_mem hnot]
      exact ih hall

end Tun2Socks.Framework.History
