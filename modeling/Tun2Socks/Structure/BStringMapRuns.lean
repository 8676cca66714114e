import Tun2Socks.Framework.System
import Tun2Socks.Structure.BStringMapSteps

/-!
# `BStringMap` refines a finite map

The users of `BStringMap.c` have maps, call its functions on them in any order, and any `malloc` may
fail. Every map has a record of what was done to it, the latest first: the calls of `BStringMap_Set`
that have returned 1 and the calls of `BStringMap_Unset`. `valueOf` reads off the record what a key
should have, and `stringMap_refines` says that this is what the functions find.
-/

namespace Tun2Socks.Structure.BStringMap

open Framework Std Function

/-- What was done to a map. -/
inductive Event
  | set (key value : CString)
  | unset (key : CString)
  deriving DecidableEq

/-- The value of the last `Set` of a key, unless it was unset since. -/
def valueOf : List Event → CString → Option CString
  | [], _ => none
  | .set k v :: events, key => if key = k then some v else valueOf events key
  | .unset k :: events, key => if key = k then none else valueOf events key

/-- The map that the events lead to. -/
def content : List Event → StringMap
  | [] => ∅
  | .set k v :: events => (content events).insert k v
  | .unset k :: events => (content events).bStringMapUnset k

theorem content_get (events : List Event) (key : CString) :
    (content events).bStringMapGet key = valueOf events key := by
  induction events with
  | nil => exact ExtTreeMap.getElem?_empty
  | cons event events ih =>
    cases event with
    | set k v =>
      rw [content, valueOf, ← ih, StringMap.bStringMapGet, ExtTreeMap.getElem?_insert]
      exact if_congr (LawfulEqCmp.compare_eq_iff_eq.trans eq_comm) rfl rfl
    | unset k =>
      rw [valueOf, ← ih]
      exact StringMap.get_unset k key

/-! ### Runs -/

inductive Call
  | init (o : ℕ) (nodes : ℕ → Avl.Node)
  | set (o : ℕ) (key value : CString) (r : Mallocs)
  | unset (o : ℕ) (key : CString)
  | initCopy (o src : ℕ) (nodes : ℕ → Avl.Node) (mallocs : ℕ → Mallocs)
  | free (o : ℕ)

structure World where
  /-- The map at an address, with its record. -/
  maps : ℕ → Option (BStringMap × List Event)
  fault : Option Fault

namespace World

def put (w : World) (o : ℕ) (map : Option (BStringMap × List Event)) : World :=
  { w with maps := update w.maps o map }

/-- What a function has returned, or its fault. -/
def after {α : Type} (w : World) (f : α → World) : Except Fault α → World
  | .error fault => { w with fault := some fault }
  | .ok a => f a

/-- A map is initialised before it is used, and again only after it was freed. The memory of its
tree nodes is arbitrary at first. -/
def next (w : World) : Call → Option World
  | .init o nodes => if w.maps o = none then some (w.put o (some (init nodes, []))) else none
  | .set o key value r => do
    let (s, events) ← w.maps o
    some (w.after (fun (ok, s) => w.put o (some (s, if ok then .set key value :: events else events)))
      ((bStringMapSet key value r).run s))
  | .unset o key => do
    let (s, events) ← w.maps o
    some (w.after (fun (_, s) => w.put o (some (s, .unset key :: events)))
      ((bStringMapUnset key).run s))
  | .initCopy o src nodes mallocs => do
    let (s, events) ← w.maps src
    if w.maps o = none then
      some (w.after (fun (ok, s) =>
          (w.put src (some (s.src, events))).put o (if ok then some (s.o, events) else none))
        ((bStringMapInitCopy mallocs).run ⟨init nodes, s⟩))
    else none
  | .free o => do
    let (s, _) ← w.maps o
    some (w.after (fun _ => w.put o none) (bStringMapFree.run s))

end World

def mapSystem : System World Call where
  init := ⟨fun _ => none, none⟩
  next := World.next

/-! ### What the functions find -/

/-- The map is what the events say: `BStringMap_Get` finds the value of every key, and
`BStringMap_First` and `BStringMap_Next` give every key that has one, once and in order. -/
def Serves (s : BStringMap) (events : List Event) : Prop :=
  (∀ key, wp (bStringMapGet key)
    (fun p s' => s' = s ∧ p = (valueOf events key).elim .null .live) s) ∧
  wp keys (fun res s' => s' = s ∧ ∃ keys, res = some keys ∧
    keys.Pairwise (strcmp · · = .lt) ∧ ∀ key, key ∈ keys ↔ (valueOf events key).isSome) s

theorem Rep.serves {s : BStringMap} {events : List Event} (h : Rep s (content events)) :
    Serves s events := by
  refine ⟨fun key => content_get events key ▸ h.get_spec key, ?_⟩
  obtain ⟨t, h, hview⟩ := h
  refine wp_mono h.keys_spec ?_
  rintro _ s' ⟨heq, rfl⟩
  refine ⟨heq, _, rfl, List.pairwise_map.mpr h.tree.ordered, fun key => ?_⟩
  rw [← content_get, Option.isSome_iff_exists, List.mem_map]
  constructor
  · rintro ⟨e, he, rfl⟩
    obtain ⟨key, value, hfull⟩ := h.live e he
    exact ⟨value, (hview _ value).mpr ⟨e, he, keyAt_eq hfull ▸ hfull⟩⟩
  · rintro ⟨value, hvalue⟩
    obtain ⟨e, he, hfull⟩ := (hview key value).mp hvalue
    exact ⟨e, he, keyAt_eq hfull⟩

/-- What the functions do in a world. -/
structure FiniteMaps (w : World) : Prop where
  fault : w.fault = none
  serves : ∀ o s events, w.maps o = some (s, events) → Serves s events
  /-- A failed `Set` changes nothing, and a successful one changes the value of the key and nothing
  else. -/
  set : ∀ o s events key value r, w.maps o = some (s, events) →
    wp (bStringMapSet key value r) (fun ok s' =>
      ok = false ∧ s' = s ∨ ok = true ∧ Serves s' (.set key value :: events)) s
  /-- The copy is equal to the source, or nothing is left of it; the source is as it was. -/
  copy : ∀ src s events nodes mallocs, w.maps src = some (s, events) →
    wp (bStringMapInitCopy mallocs) (fun ok s' => s'.src = s ∧
      if ok then Serves s'.o events else ∀ e, s'.o.entry e = none) ⟨init nodes, s⟩
  /-- Every block is given back. -/
  free : ∀ o s events, w.maps o = some (s, events) →
    wp bStringMapFree (fun _ s' => ∀ e, s'.entry e = none) s

section Reachable

variable {w : World}

/-- Every map is what was done to it. -/
structure Recorded (w : World) : Prop where
  fault : w.fault = none
  rep : ∀ o s events, w.maps o = some (s, events) → Rep s (content events)

namespace Recorded

theorem put (h : Recorded w) (o : ℕ) {map : Option (BStringMap × List Event)}
    (hmap : ∀ s events, map = some (s, events) → Rep s (content events)) :
    Recorded (w.put o map) := by
  refine ⟨h.fault, fun o' s events ho' => ?_⟩
  change update w.maps o map o' = _ at ho'
  by_cases ho : o' = o
  · rw [ho, update_self] at ho'
    exact hmap s events ho'
  · rw [update_of_ne ho] at ho'
    exact h.rep o' s events ho'

/-- A program that does not fault leads to a world in which all is as its specification says. -/
theorem after {α State : Type} {x : Checked Fault State α} {s : State} {f : α × State → World}
    (h : wp x (fun a s' => Recorded (f (a, s'))) s) : Recorded (w.after f (x.run s)) := by
  obtain ⟨r, hrun, hr⟩ := h
  rw [hrun]
  exact hr

theorem step (h : Recorded w) {call : Call} {w' : World} (hnext : w.next call = some w') :
    Recorded w' := by
  cases call with
  | init o nodes =>
    obtain ⟨-, rfl⟩ := guard_eq_some.mp hnext
    refine h.put o ?_
    rintro _ _ ⟨⟩
    exact rep_init nodes
  | set o key value r =>
    obtain ⟨⟨s, events⟩, ho, hnext⟩ := Option.bind_eq_some_iff.mp hnext
    cases hnext
    have hrep := h.rep o s events ho
    refine after (wp_mono (hrep.set_spec key value r) ?_)
    rintro _ s' (⟨rfl, rfl⟩ | ⟨rfl, hrep'⟩) <;> refine h.put o ?_ <;> rintro _ _ ⟨⟩
    exacts [hrep, hrep']
  | unset o key =>
    obtain ⟨⟨s, events⟩, ho, hnext⟩ := Option.bind_eq_some_iff.mp hnext
    cases hnext
    refine after (wp_mono ((h.rep o s events ho).unset_spec key) ?_)
    intro _ s' hrep
    refine h.put o ?_
    rintro _ _ ⟨⟩
    exact hrep
  | initCopy o src nodes mallocs =>
    obtain ⟨⟨s, events⟩, hsrc, hnext⟩ := Option.bind_eq_some_iff.mp hnext
    obtain ⟨-, rfl⟩ := guard_eq_some.mp hnext
    have hrep := h.rep src s events hsrc
    refine after (wp_mono (hrep.initCopy_spec (rep_init nodes) mallocs) ?_)
    rintro ok s' ⟨rfl, hcopy⟩
    refine (h.put src ?_).put o fun _ _ hmap => ?_
    · rintro _ _ ⟨⟩
      exact hrep
    · cases ok with
      | false => cases hmap
      | true =>
        cases hmap
        exact hcopy
  | free o =>
    obtain ⟨⟨s, events⟩, ho, hnext⟩ := Option.bind_eq_some_iff.mp hnext
    cases hnext
    refine after (wp_mono (h.rep o s events ho).free_spec ?_)
    exact fun _ _ _ => h.put o fun _ _ hmap => nomatch hmap

theorem initial : Recorded mapSystem.init := ⟨rfl, fun _ _ _ ho => nomatch ho⟩

end Recorded

/-- **`BStringMap` refines a finite map.** After every sequence of calls, with allocations that fail
at any point, no assertion has failed and no pointer was bad, and every map is what was done to
it. -/
theorem stringMap_refines (h : mapSystem.Reachable w) : FiniteMaps w := by
  have hrecorded : Recorded w :=
    System.Reachable.invariant Recorded.initial (fun _ _ _ hw hnext => hw.step hnext) h
  refine ⟨hrecorded.fault, fun o s events ho => (hrecorded.rep o s events ho).serves,
    fun o s events key value r ho => ?_, fun src s events nodes mallocs hsrc => ?_,
    fun o s events ho => (hrecorded.rep o s events ho).free_spec⟩
  · refine wp_mono ((hrecorded.rep o s events ho).set_spec key value r) ?_
    rintro _ s' (hfail | ⟨rfl, hrep⟩)
    · exact .inl hfail
    · exact .inr ⟨rfl, Rep.serves hrep⟩
  · refine wp_mono ((hrecorded.rep src s events hsrc).initCopy_spec (rep_init nodes) mallocs) ?_
    rintro (- | -) s' ⟨heq, hcopy⟩
    · exact ⟨heq, hcopy⟩
    · exact ⟨heq, Rep.serves hcopy⟩

def textA : CString := ⟨[97], by decide⟩

def textB : CString := ⟨[98], by decide⟩

def textAB : CString := ⟨[97, 98], by decide⟩

/-- Three keys, the value of one of them replaced after an attempt for which there was no memory,
and another one unset; a copy of the map, and a copy for which there was not enough memory. -/
theorem stringMap_refines_copies : ∃ w, mapSystem.Reachable w ∧
    ((w.maps 0).map Prod.snd = some [.unset textB, .set textA textB, .set textAB textA,
        .set textB textB, .set textA textA] ∧
      (w.maps 1).map Prod.snd = (w.maps 0).map Prod.snd ∧ (w.maps 2).map Prod.snd = none) ∧
    FiniteMaps w := by
  obtain ⟨w, hreach, hw⟩ := System.exists_of_run mapSystem
    (fun w => (w.maps 0).map Prod.snd = some [.unset textB, .set textA textB, .set textAB textA,
        .set textB textB, .set textA textA] ∧
      (w.maps 1).map Prod.snd = (w.maps 0).map Prod.snd ∧ (w.maps 2).map Prod.snd = none)
    [.init 0 fun _ => ⟨none, fun _ => none, 0⟩, .set 0 textA textA ⟨some 1, true, true⟩,
      .set 0 textB textB ⟨some 2, true, true⟩, .set 0 textAB textA ⟨some 3, true, true⟩,
      .set 0 textA textB ⟨some 4, true, false⟩, .set 0 textA textB ⟨some 4, true, true⟩,
      .unset 0 textB,
      .initCopy 1 0 (fun _ => ⟨none, fun _ => none, 0⟩) fun i => ⟨some i, true, true⟩,
      .initCopy 2 0 (fun _ => ⟨none, fun _ => none, 0⟩) fun i => ⟨some i, true, i = 0⟩]
    (by decide +kernel)
  exact ⟨w, hreach, hw, stringMap_refines hreach⟩

end Reachable

end Tun2Socks.Structure.BStringMap
