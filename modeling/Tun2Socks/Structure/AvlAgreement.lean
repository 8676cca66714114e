import Tun2Socks.Structure.BavlSet
import Tun2Socks.Structure.CAvl

/-!
# `CAvl` agrees with `BAVL`

Both implementations do what `Operations.Correct` asks for, so both follow the trees of
`treeSystem`, whatever is in the nodes at first. That system is deterministic: after the same
calls it has one tree, and both memories represent it. A represented tree determines every link
and every balance factor, so the two memories hold trees of the same shape.
-/

namespace Tun2Socks.Structure.Avl

open Framework AvlTree

section Agreement

variable {α : Type}

/-- The two worlds hold the same tree, have returned the same and enumerate the same. -/
structure Agree (w w' : SetWorld α) : Prop where
  fault : w.fault = none ∧ w'.fault = none
  tree : ∃ t, Represents w.memory t ∧ Represents w'.memory t
  value : w.value = w'.value
  results : w.results = w'.results
  enumeration : ∃ l, wp (Bavl.operations.ascending w.fuel) (fun res _ => res = l) w.memory ∧
    wp (CAvl.operations.ascending w'.fuel) (fun res _ => res = l) w'.memory

variable {cmp : α → α → Ordering}

theorem agree_of_rep {w w' : SetWorld α} {s : TreeState α} (h : w.Rep cmp s) (h' : w'.Rep cmp s) :
    Agree w w' where
  fault := ⟨h.fault, h'.fault⟩
  tree := ⟨s.tree, h.memory, h'.memory⟩
  value := h.value.trans h'.value.symm
  results := h.results.trans h'.results.symm
  enumeration := by
    refine ⟨s.tree.toList, ?_, ?_⟩
    · exact wp_mono (Bavl.correct.ascending h.memory h.length_le) fun _ _ hres => hres.2
    · exact wp_mono (CAvl.correct.ascending h'.memory h'.length_le) fun _ _ hres => hres.2

/-- **Agreement.** The same calls are possible on both trees, and have the same effect. -/
theorem cAvl_agrees (cmp : α → α → Ordering) [Std.TransCmp cmp] (nodes nodes' : ℕ → Node) (values : ℕ → α)
    (ls : List (SetLabel α)) :
    Option.Rel Agree
      ((setSystem Bavl.operations cmp nodes values).run
        (setSystem Bavl.operations cmp nodes values).init ls)
      ((setSystem CAvl.operations cmp nodes' values).run
        (setSystem CAvl.operations cmp nodes' values).init ls) := by
  have h : Option.Rel (SetWorld.Rep cmp) _ _ := rep_run Bavl.correct nodes values ls
  have h' : Option.Rel (SetWorld.Rep cmp) _ _ := rep_run CAvl.correct nodes' values ls
  generalize (treeSystem cmp values).run (treeSystem cmp values).init ls = o at h h'
  generalize (setSystem Bavl.operations cmp nodes values).run _ ls = run at h ⊢
  generalize (setSystem CAvl.operations cmp nodes' values).run _ ls = run' at h' ⊢
  cases h with
  | none =>
    cases h'
    exact .none
  | some hrep =>
    cases h' with
    | some hrep' => exact .some (agree_of_rep hrep hrep')

/-- Six insertions and two removals. -/
def eightCalls : List (SetLabel ℕ) :=
  [.insert 1 10, .insert 2 20, .insert 3 30, .insert 4 40, .insert 5 50, .insert 6 25, .remove 4,
    .remove 2]

/-- The two trees in memories with different contents. -/
theorem cAvl_agrees_eightCalls : ∃ w w' : SetWorld ℕ,
    (setSystem Bavl.operations compare (fun _ => ⟨none, fun _ => none, 0⟩) id).run
      (setSystem Bavl.operations compare (fun _ => ⟨none, fun _ => none, 0⟩) id).init eightCalls
        = some w ∧
    (setSystem CAvl.operations compare (fun n => ⟨some n, fun _ => some 7, 3⟩) id).run
      (setSystem CAvl.operations compare (fun n => ⟨some n, fun _ => some 7, 3⟩) id).init eightCalls
        = some w' ∧
    Agree w w' := by
  have hrel := cAvl_agrees compare (fun _ => ⟨none, fun _ => none, 0⟩)
    (fun n => ⟨some n, fun _ => some 7, 3⟩) id eightCalls
  have hsome : ((setSystem Bavl.operations compare (fun _ => ⟨none, fun _ => none, 0⟩) id).run
      (setSystem Bavl.operations compare (fun _ => ⟨none, fun _ => none, 0⟩) id).init
      eightCalls).isSome = true := by
    decide +kernel
  generalize (setSystem Bavl.operations compare _ id).run _ eightCalls = run at hrel hsome ⊢
  generalize (setSystem CAvl.operations compare _ id).run _ eightCalls = run' at hrel ⊢
  cases hrel with
  | none => exact absurd hsome (by decide)
  | some hagree => exact ⟨_, _, rfl, rfl, hagree⟩

end Agreement

end Tun2Socks.Structure.Avl
