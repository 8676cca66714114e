import Tun2Socks.Framework.Text

/-!
# String maps

What a `BStringMap` is for: a finite map from strings to strings, in the order of `strcmp`.

`BStringMap_Set` asks for memory three times, for the entry, the key and the value, and any of
the three may fail. `BStringMapSteps.lean` shows that the code does to its memory what the functions
here do to the map. `get_set` and `get_unset` are what the users of the map need.
-/

namespace Tun2Socks.Structure

open Framework Std

/-- `strcmp`, as far as its sign goes. -/
def strcmp : CString → CString → Ordering := compareOn CString.chars

instance : TransCmp strcmp := inferInstanceAs (TransCmp (compareOn CString.chars))

instance : LawfulEqCmp strcmp where
  compare_self {s} := (ReflOrd.compare_self : compare s.chars s.chars = .eq)
  eq_of_compare h := CString.ext (LawfulEqCmp.eq_of_compare h)

/-- What a `BStringMap` holds. -/
abbrev StringMap := ExtTreeMap CString CString strcmp

namespace StringMap

/-- The three calls of `malloc` in `BStringMap_Set`. -/
structure Mallocs where
  entry : Bool
  key : Bool
  value : Bool
  deriving DecidableEq, Repr

/-- All three succeed. -/
def Mallocs.Succeed (r : Mallocs) : Prop := r.entry = true ∧ r.key = true ∧ r.value = true

instance (r : Mallocs) : Decidable r.Succeed := by
  unfold Mallocs.Succeed
  infer_instance

def bStringMapGet (m : StringMap) (key : CString) : Option CString := m[key]?

/-- `BStringMap_Set`, with what it returns. -/
def bStringMapSet (m : StringMap) (key value : CString) (r : Mallocs) : Bool × StringMap :=
  if r.Succeed then (true, m.insert key value) else (false, m)

def bStringMapUnset (m : StringMap) (key : CString) : StringMap := m.erase key

variable {m : StringMap} {r : Mallocs}

/-- Without memory, the map is left as it was. -/
theorem set_of_not_succeed (key value : CString) (h : ¬ r.Succeed) :
    m.bStringMapSet key value r = (false, m) := if_neg h

theorem fst_set_of_succeed (key value : CString) (h : r.Succeed) :
    (m.bStringMapSet key value r).1 = true := by
  rw [bStringMapSet, if_pos h]

/-- With memory, the key has the new value and every other key its old one. -/
theorem get_set (key value : CString) (h : r.Succeed) (key' : CString) :
    (m.bStringMapSet key value r).2.bStringMapGet key'
      = if key' = key then some value else m.bStringMapGet key' := by
  rw [bStringMapSet, if_pos h, bStringMapGet, ExtTreeMap.getElem?_insert]
  exact if_congr (LawfulEqCmp.compare_eq_iff_eq.trans eq_comm) rfl rfl

theorem get_unset (key key' : CString) :
    (m.bStringMapUnset key).bStringMapGet key'
      = if key' = key then none else m.bStringMapGet key' := by
  rw [bStringMapUnset, bStringMapGet, ExtTreeMap.getElem?_erase]
  exact if_congr (LawfulEqCmp.compare_eq_iff_eq.trans eq_comm) rfl rfl

end StringMap

end Tun2Socks.Structure
