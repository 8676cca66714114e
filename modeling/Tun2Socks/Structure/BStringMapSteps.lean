import Tun2Socks.Structure.BStringMap

/-!
# What the functions of `BStringMap` do

`Inv` says what the memory of a map looks like between the steps of a function: the tree is a search
tree of the entries in the order of `strcmp`, every entry in it has its key and its value, and no
other entry is allocated. Only while `BStringMap_Set` is at work there is one more, which is not
inserted yet.

`Rep` relates the memory to a `StringMap`, and every function does to the memory what the function
of `StringMap` does to the map:

* `set_spec` — `BStringMap_Set` fails and leaves the memory as it was, or it inserts; the second
  insertion finds no equal key;
* `unset_spec`, `get_spec`, `free_spec` — the other functions;
* `forKeys_spec` — the rule for a loop over the keys, from which `keys_spec` and `initCopy_spec`
  follow.
-/

namespace Tun2Socks.Structure

namespace BStringMap

open Framework Std Function

/-! ### Memory -/

/-- An entry with its key and its value. -/
def full (key value : CString) : BStringMapEntry := ⟨.live key, .live value⟩

theorem full_inj {a b c d : CString} : full a b = full c d ↔ a = c ∧ b = d := by
  simp [full]

section Memory

variable {s : BStringMap} {e : ℕ} {key value : CString}

theorem setEntry_self (x : Option BStringMapEntry) : (s.setEntry e x).entry e = x := update_self ..

theorem keyAt_eq (h : s.entry e = some (full key value)) : s.keyAt e = key := by
  rw [keyAt, h]
  rfl

theorem wp_readEntry {x : BStringMapEntry} {Q : BStringMapEntry → BStringMap → Prop}
    (h : s.entry e = some x) : wp (readEntry e) Q s ↔ Q x s := by
  simp only [readEntry, wp_bind, wp_get, h, wp_pure]

theorem wp_writeEntry {x : BStringMapEntry} {f : BStringMapEntry → BStringMapEntry}
    {Q : Unit → BStringMap → Prop} (h : s.entry e = some x) :
    wp (writeEntry e f) Q s ↔ Q () (s.setEntry e (some (f x))) := by
  simp only [writeEntry, wp_bind, wp_readEntry h, wp_modify]

theorem wp_freeText {x : BStringMapEntry} {text : BStringMapEntry → Text}
    {drop : BStringMapEntry → BStringMapEntry} {Q : Unit → BStringMap → Prop}
    (h : s.entry e = some x) (hx : text x ≠ .dangling) :
    wp (freeText e text drop) Q s ↔ Q () (s.setEntry e (some (drop x))) := by
  simp only [freeText, wp_bind, wp_readEntry h, wp_ensure, wp_writeEntry h]
  exact and_iff_right hx

theorem wp_freeBlock {x : BStringMapEntry} {Q : Unit → BStringMap → Prop} (h : s.entry e = some x)
    (hx : x.key.isLive = false ∧ x.value.isLive = false) :
    wp (freeBlock e) Q s ↔ Q () (s.setEntry e none) := by
  simp only [freeBlock, wp_bind, wp_readEntry h, wp_ensure, wp_modify]
  exact and_iff_right hx

theorem setEntry_setEntry (x y : Option BStringMapEntry) :
    (s.setEntry e x).setEntry e y = s.setEntry e y := by
  simp only [setEntry, update_idem]

theorem setEntry_of_eq {x : Option BStringMapEntry} (h : s.entry e = x) : s.setEntry e x = s := by
  rw [setEntry, ← h, update_eq_self]

theorem mallocEntry_spec (p : Option ℕ) : wp (mallocEntry p) (fun res s' => res = none ∧ s' = s ∨
    ∃ e, res = some e ∧ s.entry e = none ∧
      s' = s.setEntry e (some ⟨.dangling, .dangling⟩)) s := by
  cases p with
  | none => exact (wp_pure _).mpr (.inl ⟨rfl, rfl⟩)
  | some e =>
    simp only [mallocEntry, wp_bind, wp_get, wp_ite]
    split_ifs with he
    · simp only [wp_modify, wp_pure]
      exact .inr ⟨e, rfl, he, rfl⟩
    · exact (wp_pure _).mpr (.inl ⟨rfl, rfl⟩)

/-- An entry that could not be completed is given back, and its key with it. -/
theorem newEntry_spec (key value : CString) (r : Mallocs) : wp (newEntry key value r) (fun res s' =>
    res = none ∧ s' = s ∨ ∃ e, res = some e ∧ s.entry e = none ∧
      s' = { s.setEntry e (some (full key value)) with rounds := s.rounds + 1 }) s := by
  rw [newEntry, wp_bind]
  refine wp_mono (mallocEntry_spec r.entry) ?_
  rintro _ _ (⟨rfl, rfl⟩ | ⟨e, rfl, he, rfl⟩)
  · exact (wp_pure _).mpr (.inl ⟨rfl, rfl⟩)
  simp only [wp_bind, wp_writeEntry (setEntry_self _), setEntry_setEntry]
  rcases r with ⟨_, _ | _, _ | _⟩
  all_goals simp only [mallocText, Bool.false_eq_true, if_false, if_true, wp_bind, wp_modify,
    wp_writeEntry (setEntry_self _), setEntry_setEntry]
  · rw [wp_freeBlock (setEntry_self _) ⟨rfl, rfl⟩, setEntry_setEntry, setEntry_of_eq he, wp_pure]
    exact .inl ⟨rfl, rfl⟩
  · rw [wp_freeBlock (setEntry_self _) ⟨rfl, rfl⟩, setEntry_setEntry, setEntry_of_eq he, wp_pure]
    exact .inl ⟨rfl, rfl⟩
  · rw [freeKey, wp_freeText (setEntry_self _) (by simp), setEntry_setEntry,
      wp_freeBlock (setEntry_self _) ⟨rfl, rfl⟩, setEntry_setEntry, setEntry_of_eq he, wp_pure]
    exact .inl ⟨rfl, rfl⟩
  · exact (wp_pure _).mpr (.inr ⟨e, rfl, he, rfl⟩)

end Memory

/-! ### The invariant -/

/-- The memory of a map with the tree `t`. At most the entry `loose` is not in the tree. -/
structure Inv (s : BStringMap) (t : AvlTree ℕ) (loose : Option ℕ) : Prop where
  tree : Bavl.SearchTree strcmp s.keyAt ⟨s.root, s.node⟩ t
  length_le : t.toList.length ≤ s.rounds
  live : ∀ e ∈ t.toList, ∃ key value, s.entry e = some (full key value)
  owned : ∀ e, e ∉ t.toList → loose ≠ some e → s.entry e = none

namespace Inv

variable {s s' : BStringMap} {t t' : AvlTree ℕ} {loose : Option ℕ} {e x : ℕ} {key value : CString}

theorem lookupExact_spec (h : Inv s t loose) (key : CString) : wp (lookupExact key) (fun res s' =>
    s' = s ∧ ∀ e, res = some e ↔ e ∈ t.toList ∧ s.keyAt e = key) s := by
  simp only [lookupExact, onTree, wp_bind, wp_get, wp_focus, wp_mapFault]
  refine wp_mono (h.tree.lookup_iff h.length_le key) ?_
  rintro res _ ⟨rfl, hres⟩
  refine ⟨rfl, fun e => (hres e).trans (and_congr_right fun _ => ?_)⟩
  exact LawfulEqCmp.compare_eq_iff_eq.trans eq_comm

/-- Two entries of a map do not have the same key. -/
theorem eq_of_keyAt (h : Inv s t loose) (he : e ∈ t.toList) (hx : x ∈ t.toList)
    (hkey : s.keyAt e = s.keyAt x) : e = x :=
  h.tree.ordered.eq_of_cmp he hx (LawfulEqCmp.compare_eq_iff_eq.mpr hkey)

/-- An entry is made. -/
theorem build (h : Inv s t none) (key value : CString) (he : s.entry e = none) :
    Inv { s.setEntry e (some (full key value)) with rounds := s.rounds + 1 } t (some e) ∧
      e ∉ t.toList := by
  have hout : e ∉ t.toList := by
    intro hmem
    obtain ⟨key, value, hx⟩ := h.live e hmem
    cases (he.symm.trans hx).symm
  have hsame : ∀ x, x ≠ e → update s.entry e (some (full key value)) x = s.entry x :=
    fun x hx => update_of_ne hx ..
  refine ⟨⟨h.tree.congr rfl fun x hx => ⟨rfl, ?_⟩, Nat.le_succ_of_le h.length_le, fun x hx => ?_,
    fun x hx hne => ?_⟩, hout⟩
  · have hentry := hsame x (ne_of_mem_of_not_mem hx hout)
    simp only [keyAt, setEntry, hentry]
  · obtain ⟨key', value', hlive⟩ := h.live x hx
    exact ⟨key', value', (hsame x (ne_of_mem_of_not_mem hx hout)).trans hlive⟩
  · exact (hsame x fun heq => hne (congrArg some heq.symm)).trans
      (h.owned x hx (Option.some_ne_none x).symm)

/-- A new entry, with a key that the map does not have, is inserted. -/
theorem insert_new (h : Inv s t (some e)) (he : s.entry e = some (full key value))
    (hout : e ∉ t.toList) (hlength : t.toList.length < s.rounds)
    (hne : ∀ x ∈ t.toList, s.keyAt x ≠ key) :
    wp (insert e) (fun res s' => res.1 = true ∧ s'.entry = s.entry ∧
      ∃ t', Inv s' t' none ∧ ∀ x, x ∈ t'.toList ↔ x = e ∨ x ∈ t.toList) s := by
  simp only [insert, onTree, wp_bind, wp_get, wp_focus, wp_mapFault]
  refine wp_mono (h.tree.insert_new h.length_le hout fun x hx heq => hne x hx ?_) ?_
  · exact (LawfulEqCmp.eq_of_compare heq).symm.trans (keyAt_eq he)
  rintro res m ⟨hres, t', htree, hmem, herase, -⟩
  have hperm := List.perm_cons_erase hmem
  rw [← herase] at hperm
  have hiff : ∀ x, x ∈ t'.toList ↔ x = e ∨ x ∈ t.toList := fun x =>
    hperm.mem_iff.trans List.mem_cons
  refine ⟨hres, trivial, t', ⟨htree, ?_, fun x hx => ?_, fun x hx _ => ?_⟩, hiff⟩
  · rw [hperm.length_eq]
    exact hlength
  · rcases (hiff x).mp hx with rfl | hx
    exacts [⟨key, value, he⟩, h.live x hx]
  · obtain ⟨h_x, ht⟩ := not_or.mp (mt (hiff x).mpr hx)
    exact h.owned x ht fun heq => h_x (Option.some.inj heq).symm

/-- `BAVL_Insert` finds the entry of the map with the same key. -/
theorem insert_equal (h : Inv s t loose) (hout : e ∉ t.toList) (hx : x ∈ t.toList)
    (hkey : s.keyAt e = s.keyAt x) :
    wp (insert e) (fun res s' => res = (false, some x) ∧ s' = s) s := by
  simp only [insert, onTree, wp_bind, wp_get, wp_focus, wp_mapFault]
  refine wp_mono (h.tree.insert_equal h.length_le hout hx
    (LawfulEqCmp.compare_eq_iff_eq.mpr hkey)) ?_
  rintro res _ ⟨hres, rfl⟩
  exact ⟨hres, rfl⟩

/-- An entry of a map is freed. -/
theorem freeEntry_spec (h : Inv s t loose) (he : e ∈ t.toList) :
    wp (freeEntry e) (fun _ s' => s'.rounds = s.rounds ∧ (∀ x, x ≠ e → s'.entry x = s.entry x) ∧
      ∃ t', Inv s' t' loose ∧ t'.toList = t.toList.erase e) s := by
  obtain ⟨key, value, hfull⟩ := h.live e he
  simp only [freeEntry, onTree, wp_bind, wp_get, wp_focus, wp_mapFault]
  refine wp_mono (h.tree.remove_mem h.length_le he) ?_
  rintro _ m ⟨t', htree, herase, -⟩
  have hfull' : BStringMap.entry { s with root := m.root, node := m.node } e = some (full key value) :=
    hfull
  rw [freeValue, wp_freeText hfull' (by simp [full]), freeKey,
    wp_freeText (setEntry_self _) (by simp [full]),
    wp_freeBlock (setEntry_self _) ⟨rfl, rfl⟩, setEntry_setEntry, setEntry_setEntry]
  have hmem : ∀ x, x ∈ t'.toList ↔ x ≠ e ∧ x ∈ t.toList := fun x => by
    rw [herase, h.tree.represents.nodup.mem_erase_iff]
  have hsame : ∀ x, x ≠ e → update s.entry e none x = s.entry x := fun x hx => update_of_ne hx ..
  refine ⟨rfl, hsame, t', ⟨htree.congr rfl fun x hx => ⟨rfl, ?_⟩, ?_, fun x hx => ?_,
    fun x hx h_x => ?_⟩, herase⟩
  · have hentry := hsame x ((hmem x).mp hx).1
    simp only [keyAt, setEntry, hentry]
  · rw [herase]
    exact List.length_erase_le.trans h.length_le
  · obtain ⟨hne, ht⟩ := (hmem x).mp hx
    obtain ⟨key', value', h_x⟩ := h.live x ht
    exact ⟨key', value', (hsame x hne).trans h_x⟩
  · by_cases hne : x = e
    · rw [hne]
      exact update_self ..
    · exact (hsame x hne).trans (h.owned x (fun ht => hx ((hmem x).mpr ⟨hne, ht⟩)) h_x)

/-- The loop of `BStringMap_Free`: no entry is left. -/
theorem freeEntries_spec {n : ℕ} (h : Inv s t none) (hn : t.toList.length < n) :
    wp (freeEntries n) (fun _ s' => ∀ e, s'.entry e = none) s := by
  induction n generalizing s t with
  | zero => cases hn
  | succ n ih =>
    simp only [freeEntries, onTree, wp_bind, wp_get, wp_focus, wp_mapFault]
    refine wp_mono (h.tree.first h.length_le) ?_
    rintro _ _ ⟨rfl, rfl⟩
    cases hlist : t.toList with
    | nil =>
      refine (wp_pure _).mpr fun e => h.owned e ?_ (Option.some_ne_none e).symm
      rw [hlist]
      exact List.not_mem_nil
    | cons e rest =>
      have he : e ∈ t.toList := hlist ▸ List.mem_cons_self
      simp only [List.head?_cons, wp_bind]
      refine wp_mono (h.freeEntry_spec he) ?_
      rintro _ s' ⟨-, -, t', hinv, herase⟩
      refine ih hinv ?_
      have hpos := List.length_pos_of_mem he
      rw [herase, List.length_erase_of_mem he]
      omega

end Inv

/-! ### The map -/

/-- The entries of the tree are those of the map. -/
def View (s : BStringMap) (t : AvlTree ℕ) (m : StringMap) : Prop :=
  ∀ key value, m[key]? = some value ↔ ∃ e ∈ t.toList, s.entry e = some (full key value)

/-- The memory holds the map. -/
def Rep (s : BStringMap) (m : StringMap) : Prop := ∃ t, Inv s t none ∧ View s t m

variable {s s' : BStringMap} {t : AvlTree ℕ} {m : StringMap} {e : ℕ} {key value : CString}

theorem rep_init (nodes : ℕ → Avl.Node) : Rep (init nodes) ∅ := by
  refine ⟨.nil, ⟨⟨⟨rfl, ?_, ?_, fun _ _ => rfl⟩, trivial, List.Pairwise.nil⟩, Nat.zero_le _, ?_,
    fun _ _ _ => rfl⟩, fun key value => ?_⟩ <;> simp [Avl.cells, AvlTree.toList]

theorem Rep.free_spec (h : Rep s m) : wp bStringMapFree (fun _ s' => ∀ e, s'.entry e = none) s := by
  obtain ⟨t, h, -⟩ := h
  simp only [bStringMapFree, wp_bind, wp_get]
  exact h.freeEntries_spec (Nat.lt_succ_of_le h.length_le)

/-- `BStringMap_Get` finds the value of the key. -/
theorem Rep.get_spec (h : Rep s m) (key : CString) : wp (bStringMapGet key) (fun p s' => s' = s ∧
    p = (m.bStringMapGet key).elim .null .live) s := by
  obtain ⟨t, h, hview⟩ := h
  rw [bStringMapGet, wp_bind]
  refine wp_mono (h.lookupExact_spec key) ?_
  rintro (- | e) _ ⟨rfl, hres⟩
  · cases hget : m.bStringMapGet key with
    | none => exact (wp_pure _).mpr ⟨rfl, rfl⟩
    | some value =>
      obtain ⟨e, he, hfull⟩ := (hview key value).mp hget
      cases (hres e).mpr ⟨he, keyAt_eq hfull⟩
  · obtain ⟨he, rfl⟩ := (hres e).mp rfl
    obtain ⟨key, value, hfull⟩ := h.live e he
    rw [keyAt_eq hfull]
    have hget : m.bStringMapGet key = some value := (hview key value).mpr ⟨e, he, hfull⟩
    simp only [wp_bind, wp_readEntry hfull, wp_pure, hget]
    exact ⟨trivial, rfl⟩

/-- The last step of `BStringMap_Set`: the entry is inserted where no other has its key. -/
theorem insert_spec {t' : AvlTree ℕ} (hview : View s t m) (hinv : Inv s' t' (some e))
    (he : s'.entry e = some (full key value)) (hout : e ∉ t'.toList)
    (hlength : t'.toList.length < s'.rounds)
    (hmem : ∀ x, x ∈ t'.toList ↔ x ∈ t.toList ∧ s.keyAt x ≠ key)
    (hsame : ∀ x ∈ t'.toList, s'.entry x = s.entry x) :
    wp (insert e) (fun res s'' => res.1 = true ∧ Rep s'' (m.insert key value)) s' := by
  have hne : ∀ x ∈ t'.toList, s'.keyAt x ≠ key := by
    intro x hx
    rw [keyAt, hsame x hx]
    exact ((hmem x).mp hx).2
  refine wp_mono (hinv.insert_new he hout hlength hne) ?_
  rintro res s'' ⟨hres, hentry, t'', hinv'', hmem''⟩
  refine ⟨hres, t'', hinv'', fun key' value' => ?_⟩
  have hkey : ∀ x a b, s.entry x = some (full a b) → s.keyAt x = a := fun x a b => keyAt_eq
  have hold : ∀ x ∈ t.toList, s.keyAt x ≠ key → s''.entry x = s.entry x := fun x hx h_x =>
    (congrFun hentry x).trans (hsame x ((hmem x).mpr ⟨hx, h_x⟩))
  rw [← hentry] at he
  simp only [ExtTreeMap.getElem?_insert, LawfulEqCmp.compare_eq_iff_eq, hmem'', hmem]
  split_ifs with heq
  · grind [full_inj]
  · rw [hview]
    grind [full_inj]

theorem Rep.set_spec (h : Rep s m) (key value : CString) (r : Mallocs) :
    wp (bStringMapSet key value r) (fun ok s' => ok = false ∧ s' = s ∨
      ok = true ∧ Rep s' (m.insert key value)) s := by
  obtain ⟨t, h, hview⟩ := h
  rw [bStringMapSet, wp_bind]
  refine wp_mono (newEntry_spec key value r) ?_
  rintro _ s₁ (⟨rfl, rfl⟩ | ⟨e, rfl, he, hs₁⟩)
  · exact (wp_pure _).mpr (.inl ⟨rfl, rfl⟩)
  obtain ⟨hinv, hout⟩ := h.build key value he
  have hfull : s₁.entry e = some (full key value) := hs₁ ▸ setEntry_self _
  have hsame : ∀ x ∈ t.toList, s₁.entry x = s.entry x := fun x hx =>
    hs₁ ▸ update_of_ne (ne_of_mem_of_not_mem hx hout) ..
  have hlength : t.toList.length < s₁.rounds := hs₁ ▸ Nat.lt_succ_of_le h.length_le
  rw [← hs₁] at hinv
  simp only [wp_bind]
  by_cases hkey : ∃ x ∈ t.toList, s.keyAt x = key
  · -- the old entry is found, freed, and not found again
    obtain ⟨x, hx, hkey⟩ := hkey
    have hkeyAt : s₁.keyAt e = s₁.keyAt x := by
      rw [keyAt_eq hfull, ← hkey, keyAt, keyAt, hsame x hx]
    refine wp_mono (hinv.insert_equal hout hx hkeyAt) ?_
    rintro _ _ ⟨rfl, heq⟩
    rw [heq]
    simp only [Bool.false_eq_true, if_false, wp_bind, deref, wp_pure]
    refine wp_mono (hinv.freeEntry_spec hx) ?_
    rintro _ s₂ ⟨hrounds, hentry, t₂, hinv₂, herase⟩
    have hmem : ∀ y, y ∈ t₂.toList ↔ y ∈ t.toList ∧ s.keyAt y ≠ key := by
      intro y
      rw [herase, h.tree.represents.nodup.mem_erase_iff, and_comm, ← hkey]
      exact and_congr_right fun hy => not_congr ⟨congrArg _, h.eq_of_keyAt hy hx⟩
    have hfull₂ : s₂.entry e = some (full key value) := by
      rw [hentry e (ne_of_mem_of_not_mem hx hout).symm, hfull]
    refine wp_mono (insert_spec hview hinv₂ hfull₂ ?_ ?_ hmem ?_) ?_
    · exact fun he => hout ((hmem e).mp he).1
    · rw [herase, hrounds]
      exact List.length_erase_le.trans_lt hlength
    · intro y hy
      obtain ⟨ht, hne⟩ := (hmem y).mp hy
      rw [hentry y fun hyx => hne (hyx ▸ hkey), hsame y ht]
    · rintro res s₃ ⟨hres, hrep⟩
      exact (wp_ensure _ _).mpr ⟨hres, .inr ⟨trivial, hrep⟩⟩
  · push Not at hkey
    refine wp_mono (insert_spec hview hinv hfull hout hlength
      (fun x => ⟨fun hx => ⟨hx, hkey x hx⟩, And.left⟩) hsame) ?_
    rintro res s₂ ⟨hres, hrep⟩
    rw [if_pos hres, wp_pure]
    exact .inr ⟨rfl, hrep⟩

theorem Rep.unset_spec (h : Rep s m) (key : CString) :
    wp (bStringMapUnset key) (fun _ s' => Rep s' (m.bStringMapUnset key)) s := by
  obtain ⟨t, h, hview⟩ := h
  have hkeyAt : ∀ x a b, s.entry x = some (full a b) → s.keyAt x = a := fun x a b => keyAt_eq
  rw [bStringMapUnset, wp_bind]
  refine wp_mono (h.lookupExact_spec key) ?_
  rintro (- | e) _ ⟨heq, hres⟩
  · rw [heq]
    refine (wp_pure _).mpr ⟨t, h, fun key' value' => ?_⟩
    simp only [StringMap.bStringMapUnset, ExtTreeMap.getElem?_erase, LawfulEqCmp.compare_eq_iff_eq]
    split_ifs with heq
    · grind
    · exact hview key' value'
  · obtain ⟨he, hkey⟩ := (hres e).mp rfl
    rw [heq]
    refine wp_mono (h.freeEntry_spec he) ?_
    rintro _ s' ⟨-, hentry, t', hinv, herase⟩
    refine ⟨t', hinv, fun key' value' => ?_⟩
    have hunique : ∀ x ∈ t.toList, s.keyAt x = key → x = e := fun x hx h_x =>
      h.eq_of_keyAt hx he (h_x.trans hkey.symm)
    simp only [StringMap.bStringMapUnset, ExtTreeMap.getElem?_erase, LawfulEqCmp.compare_eq_iff_eq,
      herase, h.tree.represents.nodup.mem_erase_iff]
    split_ifs with heq
    · grind
    · rw [hview]
      grind

/-! ### Loops over the keys -/

section Loops

variable {done rest : List ℕ}

theorem wp_readKey {Q : CString → BStringMap → Prop} (h : s.entry e = some (full key value)) :
    wp (readKey e) Q s ↔ Q key s := by
  simp only [readKey, wp_bind, wp_readEntry h]
  exact wp_pure _

theorem Inv.first_spec (h : Inv s t none) :
    wp bStringMapFirst (fun res s' => s' = s ∧ res = t.toList.head?) s := by
  simp only [bStringMapFirst, onTree, wp_bind, wp_get, wp_focus, wp_mapFault]
  refine wp_mono (h.tree.first h.length_le) ?_
  rintro _ _ ⟨rfl, rfl⟩
  exact ⟨rfl, rfl⟩

theorem Inv.next_spec (h : Inv s t none) (hlist : t.toList = done ++ e :: rest) :
    wp (do bStringMapNext (← readKey e)) (fun res s' => s' = s ∧ res = rest.head?) s := by
  have he : e ∈ t.toList := hlist ▸ List.mem_append_right _ List.mem_cons_self
  obtain ⟨key, value, hfull⟩ := h.live e he
  rw [wp_bind, wp_readKey hfull, bStringMapNext, wp_bind]
  refine wp_mono (h.lookupExact_spec key) ?_
  rintro res _ ⟨heq, hres⟩
  obtain rfl := (hres e).mpr ⟨he, keyAt_eq hfull⟩
  rw [heq]
  simp only [wp_bind, wp_ensure, deref, wp_pure, onTree, wp_get, wp_focus, wp_mapFault]
  refine ⟨Option.some_ne_none e, wp_mono (h.tree.next h.length_le hlist) ?_⟩
  rintro _ _ ⟨rfl, rfl⟩
  exact ⟨rfl, rfl⟩

/-- The rule for a loop over the keys of a map: what holds at the start and is kept by the body,
which knows the entries before the present one, holds at the end. -/
theorem forKeys_spec {State α : Type} {next : ℕ → Checked Fault State (Option ℕ)}
    {body : α → ℕ → Checked Fault State (Option α)} {I : List ℕ → α → State → Prop}
    {Q : State → Prop} {all : List ℕ} {n : ℕ} {a : α} {s : State}
    (hbody : ∀ done e rest a s, all = done ++ e :: rest → I done a s → wp (body a e) (fun r s' =>
      (r = none → Q s') ∧ ∀ a, r = some a → I (done ++ [e]) a s') s)
    (hnext : ∀ done e rest a s, all = done ++ e :: rest → I (done ++ [e]) a s →
      wp (next e) (fun r s' => s' = s ∧ r = rest.head?) s)
    (hall : all = done ++ rest) (hn : rest.length ≤ n) (hI : I done a s) :
    wp (forKeys next body n a rest.head?) (fun r s' =>
      (r = none → Q s') ∧ ∀ a, r = some a → I all a s') s := by
  induction rest generalizing n done a s with
  | nil =>
    rw [List.append_nil] at hall
    cases n <;> refine (wp_pure _).mpr ⟨fun h => absurd h (Option.some_ne_none a), ?_⟩ <;>
      exact fun _ h => hall ▸ Option.some.inj h ▸ hI
  | cons e rest ih =>
    cases n with
    | zero => cases hn
    | succ n =>
      rw [List.head?_cons, forKeys, wp_bind]
      refine wp_mono (hbody done e rest a s hall hI) ?_
      rintro (- | a) s' ⟨hQ, hmore⟩
      · exact (wp_pure _).mpr ⟨fun _ => hQ rfl, fun _ h => nomatch h⟩
      simp only [wp_bind]
      refine wp_mono (hnext done e rest a s' hall (hmore a rfl)) ?_
      rintro _ _ ⟨rfl, rfl⟩
      refine ih ?_ (Nat.le_of_succ_le_succ hn) (hmore a rfl)
      rw [hall, List.append_assoc, List.singleton_append]

/-- The keys are those of the entries, in their order. -/
theorem Inv.keys_spec (h : Inv s t none) :
    wp keys (fun res s' => s' = s ∧ res = some (t.toList.map s.keyAt)) s := by
  simp only [keys, wp_bind, wp_get]
  refine wp_mono h.first_spec ?_
  rintro _ _ ⟨heq, rfl⟩
  rw [heq]
  refine wp_mono (forKeys_spec (I := fun done keys s' => s' = s ∧ keys = done.map s.keyAt)
    (Q := fun _ => False) ?_ ?_ (List.nil_append _).symm h.length_le ⟨rfl, rfl⟩) ?_
  · rintro done e rest keys _ hlist ⟨heq, rfl⟩
    obtain ⟨key, value, hfull⟩ :=
      h.live e (hlist ▸ List.mem_append_right _ List.mem_cons_self)
    rw [heq, wp_bind, wp_readKey hfull, wp_pure]
    refine ⟨fun hnone => absurd hnone (Option.some_ne_none _), ?_⟩
    rintro _ ⟨⟩
    rw [List.map_append, List.map_singleton, keyAt_eq hfull]
    exact ⟨rfl, rfl⟩
  · rintro done e rest keys _ hlist ⟨heq, -⟩
    rw [heq]
    exact h.next_spec hlist
  · rintro (- | keys) s' ⟨hQ, hI⟩
    · exact (hQ rfl).elim
    · obtain ⟨heq, rfl⟩ := hI keys rfl
      exact ⟨heq, rfl⟩

/-- A round of the loop of `BStringMap_InitCopy`. -/
theorem copyKey_spec {src : BStringMap} {m m' : StringMap} {i : ℕ} {mallocs : ℕ → Mallocs}
    (h : Rep src m) (hm : m.bStringMapGet key = some value)
    (he : src.entry e = some (full key value)) (hrep : Rep s m') :
    wp (copyKey mallocs i e) (fun r s' => s'.src = src ∧ (r = none → Rep s'.o m') ∧
      ∀ i, r = some i → Rep s'.o (m'.insert key value)) ⟨s, src⟩ := by
  simp only [copyKey, onSource, onCopy, wp_bind, wp_focus, wp_readKey he]
  refine wp_mono (h.get_spec key) ?_
  rintro _ _ ⟨heq, rfl⟩
  rw [hm, heq]
  simp only [Option.elim_some, readText, wp_pure]
  refine wp_mono (hrep.set_spec key value (mallocs i)) ?_
  rintro _ s' (⟨rfl, rfl⟩ | ⟨rfl, hrep'⟩) <;> refine (wp_pure _).mpr ⟨rfl, ?_, ?_⟩
  · exact fun _ => hrep
  · exact fun _ hnone => absurd hnone (by simp)
  · exact fun hnone => absurd hnone (by simp)
  · exact fun _ _ => hrep'

/-- The copy is equal to its source, or it has failed and nothing of it is left. -/
theorem Rep.initCopy_spec {src : BStringMap} (h : Rep src m) (hs : Rep s ∅)
    (mallocs : ℕ → Mallocs) :
    wp (bStringMapInitCopy mallocs) (fun ok s' => s'.src = src ∧
      if ok then Rep s'.o m else ∀ e, s'.o.entry e = none) ⟨s, src⟩ := by
  obtain ⟨t, hinv, hview⟩ := id h
  simp only [bStringMapInitCopy, wp_bind, wp_get, onSource, wp_focus]
  refine wp_mono hinv.first_spec ?_
  rintro _ _ ⟨heq, rfl⟩
  rw [heq]
  refine wp_mono (forKeys_spec (Q := fun s' => s'.src = src ∧ ∃ m', Rep s'.o m')
    (I := fun done _ s' => s'.src = src ∧ ∃ m', Rep s'.o m' ∧ ∀ key value, m'[key]? = some value
      ↔ ∃ e ∈ done, src.entry e = some (full key value))
    ?_ ?_ (List.nil_append _).symm hinv.length_le ⟨rfl, ∅, hs, by simp⟩) ?_
  · rintro done e rest i s' hlist ⟨hsrc, m', hrep, hdone⟩
    obtain ⟨o, rfl⟩ : ∃ o, s' = ⟨o, src⟩ := ⟨s'.o, by rw [← hsrc]⟩
    obtain ⟨key, value, hfull⟩ :=
      hinv.live e (hlist ▸ List.mem_append_right _ List.mem_cons_self)
    have hget := (hview key value).mpr ⟨e, hlist ▸ List.mem_append_right _ List.mem_cons_self, hfull⟩
    -- an earlier entry with this key would have the same value
    have hold : ∀ x ∈ done, ∀ b, src.entry x = some (full key b) → b = value := by
      intro x hx b h_x
      have hmem : x ∈ t.toList := hlist ▸ List.mem_append_left _ hx
      exact Option.some.inj (((hview key b).mpr ⟨x, hmem, h_x⟩).symm.trans hget)
    refine wp_mono (copyKey_spec h hget hfull hrep) ?_
    rintro r s' ⟨hsrc, hnone, hsome⟩
    refine ⟨fun hr => ⟨hsrc, m', hnone hr⟩, fun i hr => ⟨hsrc, _, hsome i hr, fun a b => ?_⟩⟩
    simp only [ExtTreeMap.getElem?_insert, LawfulEqCmp.compare_eq_iff_eq, List.mem_append,
      List.mem_singleton]
    split_ifs with heq
    · grind [full_inj]
    · rw [hdone]
      grind [full_inj]
  · rintro done e rest i ⟨o, _⟩ hlist ⟨hsrc, -⟩
    cases hsrc
    rw [wp_focus]
    refine wp_mono (hinv.next_spec hlist) ?_
    rintro _ _ ⟨rfl, rfl⟩
    exact ⟨rfl, rfl⟩
  · rintro (- | i) s' ⟨hfail, hdone⟩
    · obtain ⟨hsrc, m', hrep⟩ := hfail rfl
      simp only [onCopy, wp_bind, wp_focus]
      refine wp_mono hrep.free_spec ?_
      exact fun _ o ho => (wp_pure _).mpr ⟨hsrc, ho⟩
    · obtain ⟨hsrc, m', hrep, hiff⟩ := hdone i rfl
      have hm : m' = m := ExtTreeMap.ext_getElem? fun key => Option.ext fun value =>
        (hiff key value).trans (hview key value).symm
      exact (wp_pure _).mpr ⟨hsrc, hm ▸ hrep⟩

end Loops

end BStringMap

end Tun2Socks.Structure
