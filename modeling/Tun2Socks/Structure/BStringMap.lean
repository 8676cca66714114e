import Tun2Socks.Structure.BavlSet
import Tun2Socks.Structure.StringMap

/-!
# `BStringMap`

`BStringMap.c` on its tree and its heap. An entry is a block with a tree node in it, and it owns two
more blocks, the copies of the key and of the value. No other pointer than those of the entry leads
to these two, so that they are modelled where the entry has its pointers to them (`Text`).

`malloc` returns what the environment decides: a null pointer, or an address where no block is. A
fault is an `ASSERT` that fails, a pointer that does not lead to what it should, a second `free`, an
entry that is freed before its strings are, or a fault of the tree. The comparator follows the
pointers of the entries to their keys (`keyAt`).

The loops of the tree take a number of rounds: as many as entries were ever made.
-/

namespace Tun2Socks.Structure

open Framework Std

/-- A pointer to a block with a string. -/
inductive Text
  | null
  | live (s : CString)
  /-- Not written yet, or the block is freed. -/
  | dangling
  deriving DecidableEq

def Text.isLive : Text → Bool
  | .live _ => true
  | _ => false

/-- `struct BStringMap_entry`, without the tree node. -/
structure BStringMapEntry where
  key : Text
  value : Text
  deriving DecidableEq

structure BStringMap where
  root : Option ℕ
  /-- The tree node of the entry at an address. -/
  node : ℕ → Avl.Node
  /-- The entry at an address, if one is allocated there. -/
  entry : ℕ → Option BStringMapEntry
  rounds : ℕ

namespace BStringMap

inductive Fault
  | assert
  | badPointer
  | badFree
  | leak
  | diverges
  | tree (f : Avl.Fault)
  deriving DecidableEq, Repr

abbrev M := Checked Fault BStringMap

/-- What the calls of `malloc` in `BStringMap_Set` return. -/
structure Mallocs where
  entry : Option ℕ
  key : Bool
  value : Bool

/-- The key of the entry at an address, for `string_comparator`. -/
def keyAt (o : BStringMap) (e : ℕ) : CString :=
  match o.entry e with
  | some ⟨.live key, _⟩ => key
  | _ => .empty

def setEntry (o : BStringMap) (e : ℕ) (x : Option BStringMapEntry) : BStringMap :=
  { o with entry := Function.update o.entry e x }

/-! ### Memory -/

def readEntry (e : ℕ) : M BStringMapEntry := do
  match (← get).entry e with
  | some x => return x
  | none => throw .badPointer

def writeEntry (e : ℕ) (f : BStringMapEntry → BStringMapEntry) : M Unit := do
  let x ← readEntry e
  modify (·.setEntry e (some (f x)))

/-- `malloc` of an entry. What it returns is an address without a block. -/
def mallocEntry : Option ℕ → M (Option ℕ)
  | none => return none
  | some e => do
    if (← get).entry e = none then do
      modify (·.setEntry e (some ⟨.dangling, .dangling⟩))
      return some e
    else return none

/-- `malloc` of a string that is copied at once. -/
def mallocText (ok : Bool) (s : CString) : Text := if ok then .live s else .null

/-- `free` of a string of an entry: its pointer is read, and leads nowhere afterwards. -/
def freeText (e : ℕ) (text : BStringMapEntry → Text) (drop : BStringMapEntry → BStringMapEntry) :
    M Unit := do
  ensure (text (← readEntry e) ≠ .dangling) .badFree
  writeEntry e drop

/-- `free(e->key)`. -/
def freeKey (e : ℕ) : M Unit := freeText e (·.key) fun x => { x with key := .dangling }

/-- `free(e->value)`. -/
def freeValue (e : ℕ) : M Unit := freeText e (·.value) fun x => { x with value := .dangling }

/-- `free(e)`. No pointer to a string is lost with the entry. -/
def freeBlock (e : ℕ) : M Unit := do
  let x ← readEntry e
  ensure (x.key.isLive = false ∧ x.value.isLive = false) .leak
  modify (·.setEntry e none)

def deref : Option ℕ → M ℕ
  | none => throw .badPointer
  | some e => return e

def readText : Text → M CString
  | .live s => return s
  | _ => throw .badPointer

/-- A function of the tree. -/
def onTree {α : Type} (x : ℕ → Avl.M α) : M α := do
  focus (fun o => ⟨o.root, o.node⟩) (fun o m => { o with root := m.root, node := m.node })
    (mapFault .tree (x (← get).rounds))

/-! ### The functions -/

/-- `free_entry`. -/
def freeEntry (e : ℕ) : M Unit := do
  onTree fun rounds => Bavl.remove rounds e
  freeValue e
  freeKey e
  freeBlock e

/-- `BStringMap_Init`. -/
def init (nodes : ℕ → Avl.Node) : BStringMap := ⟨none, nodes, fun _ => none, 0⟩

/-- `BAVL_LookupExact`, with `string_comparator`. -/
def lookupExact (key : CString) : M (Option ℕ) := do
  let o ← get
  onTree fun rounds => Avl.lookupExact (fun c => strcmp key (o.keyAt c)) rounds

/-- `BStringMap_Get`. -/
def bStringMapGet (key : CString) : M Text := do
  match ← lookupExact key with
  | none => return .null
  | some e => return (← readEntry e).value

/-- `BAVL_Insert`, with `string_comparator`. -/
def insert (e : ℕ) : M (Bool × Option ℕ) := do
  let o ← get
  onTree fun rounds => Bavl.insert (fun c => strcmp (o.keyAt e) (o.keyAt c)) rounds e

/-- The part of `BStringMap_Set` that allocates and fills an entry. -/
def newEntry (key value : CString) (r : Mallocs) : M (Option ℕ) := do
  match ← mallocEntry r.entry with
  | none => return none
  | some e => do
    writeEntry e fun x => { x with key := mallocText r.key key }
    if r.key then do
      writeEntry e fun x => { x with value := mallocText r.value value }
      if r.value then do
        modify fun o => { o with rounds := o.rounds + 1 }
        return some e
      else do
        -- `fail2`
        freeKey e
        freeBlock e
        return none
    else do
      -- `fail1`
      freeBlock e
      return none

/-- `BStringMap_Set`. An entry with the same key is removed first. -/
def bStringMapSet (key value : CString) (r : Mallocs) : M Bool := do
  match ← newEntry key value r with
  | none => return false
  | some e => do
    let res ← insert e
    if res.1 then return true
    else do
      freeEntry (← deref res.2)
      let res ← insert e
      ensure (res.1 = true) .assert
      return true

/-- `BStringMap_Unset`. -/
def bStringMapUnset (key : CString) : M Unit := do
  match ← lookupExact key with
  | none => return ()
  | some e => freeEntry e

/-- `BStringMap_First`. The pointer to a key is given by the entry that owns it. -/
def bStringMapFirst : M (Option ℕ) := onTree Bavl.getFirst

/-- `BStringMap_Next`. -/
def bStringMapNext (key : CString) : M (Option ℕ) := do
  let e ← lookupExact key
  ensure (e ≠ none) .assert
  let e ← deref e
  onTree fun rounds => Bavl.getNext rounds e

/-- The string behind a pointer to a key. -/
def readKey (e : ℕ) : M CString := do readText (← readEntry e).key

/-- The loop of `BStringMap_Free`. -/
def freeEntries : ℕ → M Unit
  | 0 => throw .diverges
  | n + 1 => do
    match ← onTree Bavl.getFirst with
    | none => return ()
    | some e => do
      freeEntry e
      freeEntries n

/-- `BStringMap_Free`. -/
def bStringMapFree : M Unit := do freeEntries ((← get).rounds + 1)

/-- A loop over the keys of a map, from a key on. The body may leave it. -/
def forKeys {State α : Type} (next : ℕ → Checked Fault State (Option ℕ))
    (body : α → ℕ → Checked Fault State (Option α)) :
    ℕ → α → Option ℕ → Checked Fault State (Option α)
  | _, a, none => return some a
  | 0, _, some _ => throw .diverges
  | n + 1, a, some key => do
    match ← body a key with
    | none => return none
    | some a => forKeys next body n a (← next key)

/-- The keys in the order in which `BStringMap_First` and `BStringMap_Next` give them. -/
def keys : M (Option (List CString)) := do
  forKeys (fun key => do bStringMapNext (← readKey key))
    (fun keys key => do return some (keys ++ [← readKey key])) (← get).rounds [] (← bStringMapFirst)

/-! ### Two maps -/

/-- The two maps of `BStringMap_InitCopy`. -/
structure Maps where
  o : BStringMap
  src : BStringMap

def onCopy {α : Type} (x : M α) : Checked Fault Maps α :=
  focus Maps.o (fun s o => { s with o := o }) x

def onSource {α : Type} (x : M α) : Checked Fault Maps α :=
  focus Maps.src (fun s src => { s with src := src }) x

/-- A round of the loop of `BStringMap_InitCopy`; `i` counts them. -/
def copyKey (mallocs : ℕ → Mallocs) (i key : ℕ) : Checked Fault Maps (Option ℕ) := do
  let key ← onSource (readKey key)
  let value ← onSource (do readText (← bStringMapGet key))
  if ← onCopy (bStringMapSet key value (mallocs i)) then return some (i + 1)
  else return none

/-- `BStringMap_InitCopy`, after `BStringMap_Init`. -/
def bStringMapInitCopy (mallocs : ℕ → Mallocs) : Checked Fault Maps Bool := do
  let copied ← forKeys (fun key => onSource (do bStringMapNext (← readKey key)))
    (copyKey mallocs) (← get).src.rounds 0 (← onSource bStringMapFirst)
  match copied with
  | some _ => return true
  | none => do
    onCopy bStringMapFree
    return false

end BStringMap

end Tun2Socks.Structure
