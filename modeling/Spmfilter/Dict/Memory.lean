import Mathlib.Data.Multiset.Bind
import Spmfilter.Dict
import Spmfilter.Lib.Heap

/-!
# Dictionaries on the heap

The functions of `smf_dict.c` with the blocks that they allocate and free: the record, its three
arrays, and a string for each key and each value.  `Dict` is what a dictionary says; here a slot
holds pointers.

* `DictMemory` is a dictionary on the heap, and `DictMemory.view` what it says.
* `PtrCall` are the calls of a caller, with what it does on the heap on its own account, and
  `Admits` says which of them are in order.
* `Sound` is the invariant, and `Becomes` what a call should come to.
* `Sound.overwrite`, `Sound.addKey`, `Sound.clear` and `Sound.grown` are the parts of the calls.
-/

namespace Spmfilter

open CString Heaps Slots

/-- What a block holds that is not a string: the record or one of its arrays, whose cells are
fields of `DictMemory`. -/
inductive DictObject
  | cells
deriving DecidableEq

abbrev DictBlock := Block Bytes DictObject

/-- One index of the arrays `key`, `val` and `hash`. -/
structure PtrSlot where
  key : Option Nat := none
  val : Option Nat := none
  hash : UInt32 := 0
deriving DecidableEq

/-- A slot as `calloc` and `smf_dict_remove` leave it. -/
abbrev PtrSlot.free : PtrSlot := {}

/-- `SMFDict_T`, with the heap that it points to. -/
structure DictMemory where
  heap : Heap DictBlock
  n : Nat
  slots : List PtrSlot
  record : Nat
  /-- The array `val`; `keys` and `hashes` are the two others. -/
  vals : Nat
  keys : Nat
  hashes : Nat

namespace DictMemory

def size (m : DictMemory) : Nat := m.slots.length

/-- `smf_dict_new`, on the heap of the program. -/
def new (heap : Heap DictBlock) : DictMemory where
  heap := (((heap.alloc (.object .cells)).alloc (.object .cells)).alloc (.object .cells)).alloc
    (.object .cells)
  n := 0
  slots := List.replicate 128 .free
  record := heap.next
  vals := heap.next + 1
  keys := heap.next + 2
  hashes := heap.next + 3

/-- The loop over the slots that `smf_dict_set`, `smf_dict_get` and `smf_dict_remove` share.  A
string is read where the hash is the same. -/
def seek (heap : Heap DictBlock) (key : Bytes) : List PtrSlot → Option (Option Nat)
  | [] => some none
  | slot :: slots =>
    match slot.key with
    | none => (seek heap key slots).map fun i => i.map (· + 1)
    | some p =>
      if dictHash key = slot.hash then
        (stringAt heap p).bind fun k =>
          if key = k then some (some 0) else (seek heap key slots).map fun i => i.map (· + 1)
      else (seek heap key slots).map fun i => i.map (· + 1)

def find (m : DictMemory) (key : Bytes) : Option (Option Nat) := seek m.heap key m.slots

/-- `_mem_double` of one array: a new block, and the old one is freed. -/
def memDouble (heap : Heap DictBlock) (array : Nat) : Option (Nat × Heap DictBlock) :=
  ((heap.alloc (.object .cells)).free array).map fun h => (heap.next, h)

/-- The arrays are doubled.  `2 * size` is an `int`. -/
def double (m : DictMemory) : Option DictMemory :=
  if 2 * (m.size * 8) ≤ INT_MAX then do
    let (vals, heap) ← memDouble m.heap m.vals
    let (keys, heap) ← memDouble heap m.keys
    let (hashes, heap) ← memDouble heap m.hashes
    some { m with
      heap := heap
      vals := vals
      keys := keys
      hashes := hashes
      slots := m.slots ++ List.replicate m.slots.length .free }
  else none

def grown (m : DictMemory) : Option DictMemory := if m.n = m.size then m.double else some m

/-- The new value for the key in slot `i`: the old one is freed first. -/
def overwrite (m : DictMemory) (i : Nat) (val : Nat) : Option DictMemory := do
  let slot ← m.slots[i]?
  let heap ← m.heap.freeOpt slot.val
  let (p, heap) ← strdup heap val
  some { m with heap := heap, slots := m.slots.set i { slot with val := some p } }

/-- A new key, in the first free slot. -/
def addKey (m : DictMemory) (k : Bytes) (key val : Nat) : Option DictMemory := do
  let i ← probe (fun slot => slot.key.isNone) m.slots m.slots.length m.n
  let (p, heap) ← strdup m.heap key
  let (q, heap) ← strdup heap val
  some { m with
    heap := heap
    n := m.n + 1
    slots := m.slots.set i ⟨some p, some q, dictHash k⟩ }

/-- The first part of `smf_dict_set`: an empty dictionary is not searched. -/
def present (m : DictMemory) (key : Bytes) : Option (Option Nat) :=
  if 0 < m.n then m.find key else some none

/-- `smf_dict_set`; `none` where an array cannot grow, or a block that is not there is read or
freed. -/
def set (m : DictMemory) (key val : Nat) : Option DictMemory := do
  let k ← stringAt m.heap key
  match ← m.present k with
  | some i => m.overwrite i val
  | none =>
    let m ← m.grown
    m.addKey k key val

/-- `smf_dict_get`: NULL or the pointer to the value. -/
def get (m : DictMemory) (key : Nat) : Option (Option Nat) := do
  let k ← stringAt m.heap key
  match ← m.find k with
  | some i =>
    let slot ← m.slots[i]?
    some slot.val
  | none => some none

/-- Slot `i` is cleared. -/
def clear (m : DictMemory) (i : Nat) : Option DictMemory := do
  let slot ← m.slots[i]?
  let heap ← m.heap.freeOpt slot.key
  let heap ← heap.freeOpt slot.val
  some { m with heap := heap, n := m.n - 1, slots := m.slots.set i .free }

/-- `smf_dict_remove`. -/
def remove (m : DictMemory) (key : Nat) : Option DictMemory := do
  let k ← stringAt m.heap key
  match ← m.find k with
  | some i => m.clear i
  | none => some m

end DictMemory

def PtrSlot.pointers (slot : PtrSlot) : List Nat := slot.key.toList ++ slot.val.toList

namespace DictMemory

/-- The blocks that `smf_dict_free` frees, in its order. -/
def owned (m : DictMemory) : List Nat :=
  m.slots.flatMap PtrSlot.pointers ++ [m.vals, m.keys, m.hashes, m.record]

/-- `smf_dict_free`. -/
def free (m : DictMemory) : Option (Heap DictBlock) := m.heap.freeAll m.owned

/-- What a slot says. -/
def viewSlot (heap : Heap DictBlock) (slot : PtrSlot) : Slot :=
  ⟨slot.key.bind (stringAt heap), slot.val.bind (stringAt heap), slot.hash⟩

/-- What the dictionary says. -/
def view (m : DictMemory) : Dict := ⟨m.n, m.slots.map (viewSlot m.heap)⟩

end DictMemory

/-- A call that changes the dictionary, or what the caller does on the heap for itself. -/
inductive PtrCall
  | set (key val : Nat)
  | remove (key : Nat)
  | newString (s : Bytes)
  | drop (p : Nat)
deriving DecidableEq

namespace DictMemory

/-- The call, `none` where it reads or frees a block that is not there. -/
def call (m : DictMemory) : PtrCall → Option DictMemory
  | .set key val => m.set key val
  | .remove key => m.remove key
  | .newString s => some { m with heap := m.heap.alloc (.string s) }
  | .drop p => (m.heap.free p).map fun heap => { m with heap := heap }

/-! ## What the calls should do -/

/-- The change that a call should make to what the dictionary says. -/
def effect (m : DictMemory) : PtrCall → Option DictCall
  | .set key val => do
    let k ← stringAt m.heap key
    let v ← stringAt m.heap val
    some (.set k v)
  | .remove key => (stringAt m.heap key).map .remove
  | _ => none

/-- The blocks of the caller after a call: those it has allocated and not freed. -/
def callers (m : DictMemory) (mine : Set Nat) : PtrCall → Set Nat
  | .newString _ => insert m.heap.next mine
  | .drop p => mine \ {p}
  | _ => mine

/-- The caller may make this call: what it hands over are strings, a value is not the one that
the dictionary holds for the key, and the caller frees nothing of the dictionary. -/
def Admits (m : DictMemory) : PtrCall → Prop
  | .set key val =>
    (stringAt m.heap key).isSome = true ∧ (stringAt m.heap val).isSome = true ∧
      m.get key ≠ some (some val)
  | .remove key => (stringAt m.heap key).isSome = true
  | .newString _ => True
  | .drop p => m.heap.Live p ∧ p ∉ m.owned

instance (m : DictMemory) : (c : PtrCall) → Decidable (m.Admits c)
  | .set key val =>
    inferInstanceAs (Decidable ((stringAt m.heap key).isSome = true ∧
      (stringAt m.heap val).isSome = true ∧ m.get key ≠ some (some val)))
  | .remove key => inferInstanceAs (Decidable ((stringAt m.heap key).isSome = true))
  | .newString _ => inferInstanceAs (Decidable True)
  | .drop p => inferInstanceAs (Decidable ((m.heap.block p).isSome = true ∧ p ∉ m.owned))

def interface : Interface DictMemory PtrCall DictCall := ⟨call, effect, callers, Admits⟩

instance (m : DictMemory) (c : PtrCall) : Decidable (interface.Admits m c) :=
  inferInstanceAs (Decidable (m.Admits c))

abbrev calls (m : DictMemory) (cs : List PtrCall) : Option DictMemory := interface.calls m cs

abbrev effects (m : DictMemory) (cs : List PtrCall) : List DictCall := interface.effects m cs

abbrev callersAfter (m : DictMemory) (mine : Set Nat) (cs : List PtrCall) : Set Nat :=
  interface.callersAfter m mine cs

abbrev AdmitsAll (m : DictMemory) (cs : List PtrCall) : Prop := interface.AdmitsAll m cs

/-! ## The invariant -/

/-- The strings of the slots. -/
def pointers (slots : List PtrSlot) : Multiset Nat := (slots.flatMap PtrSlot.pointers : List Nat)

/-- The record and its arrays. -/
def cells (m : DictMemory) : Multiset Nat := [m.vals, m.keys, m.hashes, m.record]

/-- The blocks of the dictionary are its own, and a slot that is not free has two strings. -/
structure Sound (m : DictMemory) (others : Set Nat) : Prop where
  owns : m.heap.Owns (pointers m.slots + m.cells) others
  strings : ∀ p ∈ pointers m.slots, ∃ s, stringAt m.heap p = some s
  arrays : ∀ p ∈ m.cells, m.heap.block p = some (.object .cells)
  filled : ∀ slot ∈ m.slots, slot = .free ∨ ∃ k v hash, slot = ⟨some k, some v, hash⟩

theorem coe_owned (m : DictMemory) : (m.owned : Multiset Nat) = pointers m.slots + m.cells := by
  rw [owned, ← Multiset.coe_add, pointers, cells]

section Slots

variable {slots : List PtrSlot} {heap heap' : Heap DictBlock} {i : Nat} {slot : PtrSlot}

/-- The blocks of one slot, and those of the others. -/
theorem pointers_set (h : slots[i]? = some slot) (new : PtrSlot) :
    (slot.pointers : Multiset Nat) + pointers (slots.set i new) =
      (new.pointers : Multiset Nat) + pointers slots := by
  have hset := congrArg (Multiset.bind · fun s => (s.pointers : Multiset Nat))
    (coe_set (e := new) h)
  simp only [Multiset.cons_bind, Multiset.coe_bind] at hset
  exact hset

/-- The blocks of the other slots. -/
theorem pointers_split (h : slots[i]? = some slot) :
    pointers slots = (slot.pointers : Multiset Nat) + pointers (slots.set i .free) ∧
      ∀ new : PtrSlot, pointers (slots.set i new) =
        (new.pointers : Multiset Nat) + pointers (slots.set i .free) := by
  have hfree := pointers_set h .free
  rw [show (PtrSlot.free.pointers : Multiset Nat) = 0 from rfl, Multiset.zero_add] at hfree
  refine ⟨hfree.symm, fun new => ?_⟩
  have hnew := pointers_set h new
  rw [← hfree, Multiset.add_comm (new.pointers : Multiset Nat), Multiset.add_assoc] at hnew
  rw [Multiset.add_right_inj.mp hnew, Multiset.add_comm]

theorem viewSlot_congr (h : ∀ p ∈ slot.pointers, heap'.block p = heap.block p) :
    viewSlot heap' slot = viewSlot heap slot := by
  have hpart : ∀ q : Option Nat, (∀ p ∈ q.toList, heap'.block p = heap.block p) →
      q.bind (stringAt heap') = q.bind (stringAt heap) := by
    intro q hq
    cases q with
    | none => rfl
    | some p => exact stringAt_congr (hq p (List.mem_singleton_self p))
  rw [viewSlot, viewSlot, hpart slot.key fun p hp => h p (List.mem_append_left _ hp),
    hpart slot.val fun p hp => h p (List.mem_append_right _ hp)]

theorem map_viewSlot_congr (h : ∀ p ∈ pointers slots, heap'.block p = heap.block p) :
    slots.map (viewSlot heap') = slots.map (viewSlot heap) :=
  List.map_congr_left fun slot hslot => viewSlot_congr fun p hp =>
    h p (Multiset.mem_coe.mpr (List.mem_flatMap.mpr ⟨slot, hslot, hp⟩))

/-- A change of one slot is one of what that slot says, where the strings of the others stay. -/
theorem map_viewSlot_set (new : PtrSlot)
    (h : ∀ p ∈ pointers (slots.set i .free), heap'.block p = heap.block p) :
    (slots.set i new).map (viewSlot heap') =
      (slots.map (viewSlot heap)).set i (viewSlot heap' new) := by
  have hothers := map_viewSlot_congr h
  rw [← List.set_set .free, List.map_set, hothers, List.map_set, List.set_set]

/-- The loop finds the slot that says the key. -/
theorem seek_eq (key : Bytes)
    (h : ∀ p ∈ pointers slots, ∃ s, stringAt heap p = some s) :
    seek heap key slots = some ((slots.map (viewSlot heap)).findIdx? (Slot.matches key)) := by
  induction slots with
  | nil => rfl
  | cons slot slots ih =>
    have hrest := ih fun p hp => h p
      (Multiset.mem_coe.mpr (List.mem_append_right _ (Multiset.mem_coe.mp hp)))
    rw [seek, hrest, List.map_cons, List.findIdx?_cons, Option.map_some]
    cases hkey : slot.key with
    | none =>
      have hmiss : (viewSlot heap slot).matches key = false := by
        rw [viewSlot, hkey]
        rfl
      rw [hmiss, if_neg Bool.false_ne_true]
    | some p =>
      have hmem : p ∈ slot.pointers := by
        rw [PtrSlot.pointers, hkey]
        exact List.mem_append_left _ (List.mem_singleton_self p)
      obtain ⟨k, hk⟩ := h p (Multiset.mem_coe.mpr (List.mem_append_left _ hmem))
      have hmatch : (viewSlot heap slot).matches key = true ↔
          dictHash key = slot.hash ∧ key = k := by
        rw [viewSlot, hkey, Option.bind_some, hk, Slot.matches, Bool.and_eq_true, beq_iff_eq,
          beq_iff_eq]
      dsimp only
      rw [hk, Option.bind_some]
      by_cases hhash : dictHash key = slot.hash
      · by_cases heq : key = k
        · rw [if_pos hhash, if_pos heq, if_pos (hmatch.mpr ⟨hhash, heq⟩)]
        · rw [if_pos hhash, if_neg heq, if_neg fun h => heq (hmatch.mp h).2]
      · rw [if_neg hhash, if_neg fun h => hhash (hmatch.mp h).1]

end Slots

/-- A call has left a dictionary that says `d`, and the blocks of the others alone. -/
structure Becomes (m : DictMemory) (others : Set Nat) (m' : DictMemory) (d : Dict) : Prop where
  sound : m'.Sound others
  view : m'.view = d
  kept : ∀ p ∈ others, m'.heap.block p = m.heap.block p

/-! ## The parts of the calls -/

section Parts

variable {m : DictMemory} {others : Set Nat} {i k v : Nat} {hash : UInt32} {key s : Bytes}

theorem Sound.find_eq (hm : m.Sound others) (key : Bytes) : m.find key = some (m.view.find key) :=
  seek_eq key hm.strings

/-- A slot that is found has two strings, and the first is the key. -/
theorem Sound.found (hm : m.Sound others) (h : m.view.find key = some i) :
    ∃ k v hash, m.slots[i]? = some ⟨some k, some v, hash⟩ := by
  obtain ⟨hi, hmatch, -⟩ := List.findIdx?_eq_some_iff_getElem.mp h
  have hi' : i < m.slots.length := by rwa [view, List.length_map] at hi
  rcases hm.filled m.slots[i] (List.getElem_mem hi') with hfree | ⟨k, v, hash, hslot⟩
  · simp only [view, List.getElem_map, hfree] at hmatch
    cases hmatch
  · exact ⟨k, v, hash, by rw [List.getElem?_eq_getElem hi', hslot]⟩

theorem Sound.freeSlot_eq (hm : m.Sound others) :
    probe (fun slot => slot.key.isNone) m.slots m.slots.length m.n =
      freeSlot m.view.n m.view.slots := by
  rw [freeSlot, view, List.length_map]
  refine (probe_map fun slot hslot => ?_).symm
  rcases hm.filled slot hslot with rfl | ⟨k, v, hash, rfl⟩
  · rfl
  · obtain ⟨s, hs⟩ := hm.strings k
      (Multiset.mem_coe.mpr (List.mem_flatMap.mpr ⟨_, hslot, List.mem_cons_self⟩))
    show ((some k).bind (stringAt m.heap)).isNone = false
    rw [Option.bind_some, hs]
    rfl

/-- The blocks of a slot that is not free, and all the others of the dictionary. -/
theorem Sound.split (hm : m.Sound others) (hslot : m.slots[i]? = some ⟨some k, some v, hash⟩) :
    let rest := pointers (m.slots.set i .free) + m.cells
    pointers m.slots + m.cells = k ::ₘ v ::ₘ rest ∧ k ≠ v ∧ k ∉ rest ∧ v ∉ rest := by
  have hall : pointers m.slots + m.cells =
      k ::ₘ v ::ₘ (pointers (m.slots.set i .free) + m.cells) := by
    rw [(pointers_split hslot).1, Multiset.add_assoc]
    rfl
  have hnodup := hm.owns.nodup
  rw [hall, Multiset.nodup_cons, Multiset.nodup_cons] at hnodup
  exact ⟨hall, fun hkv => hnodup.1 (hkv ▸ Multiset.mem_cons_self v _),
    fun hk => hnodup.1 (Multiset.mem_cons_of_mem hk), hnodup.2.1⟩

/-- Slot `i` is replaced, on a heap that leaves the blocks of the others alone. -/
theorem Sound.replace (hm : m.Sound others) {slot new : PtrSlot} {m' : DictMemory}
    (hslot : m.slots[i]? = some slot) (hslots : m'.slots = m.slots.set i new)
    (hcells : m'.cells = m.cells) (hnew : new = .free ∨ ∃ k v hash, new = ⟨some k, some v, hash⟩)
    (howns : m'.heap.Owns
      ((new.pointers : Multiset Nat) + (pointers (m.slots.set i .free) + m.cells)) others)
    (hstrings : ∀ p ∈ new.pointers, ∃ s, stringAt m'.heap p = some s)
    (hrest : ∀ p ∈ pointers (m.slots.set i .free) + m.cells, m'.heap.block p = m.heap.block p)
    (hothers : ∀ p ∈ others, m'.heap.block p = m.heap.block p) :
    m.Becomes others m' ⟨m'.n, m.view.slots.set i (viewSlot m'.heap new)⟩ := by
  obtain ⟨hold, hpointers⟩ := pointers_split hslot
  have hkept : ∀ p ∈ pointers (m.slots.set i .free), m'.heap.block p = m.heap.block p :=
    fun p hp => hrest p (Multiset.mem_add.mpr (.inl hp))
  refine ⟨⟨?_, ?_, ?_, ?_⟩, ?_, hothers⟩
  · rwa [hslots, hcells, hpointers, Multiset.add_assoc]
  · intro p hp
    rw [hslots, hpointers, Multiset.mem_add] at hp
    rcases hp with hp | hp
    · exact hstrings p hp
    · obtain ⟨s, hs⟩ := hm.strings p (by rw [hold]; exact Multiset.mem_add.mpr (.inr hp))
      exact ⟨s, (stringAt_congr (hkept p hp)).trans hs⟩
  · intro p hp
    rw [hcells] at hp
    exact (hrest p (Multiset.mem_add.mpr (.inr hp))).trans (hm.arrays p hp)
  · intro slot hmem
    rw [hslots] at hmem
    rcases List.mem_or_eq_of_mem_set hmem with hmem | rfl
    · exact hm.filled slot hmem
    · exact hnew
  · rw [view, hslots, map_viewSlot_set new hkept]
    rfl

/-- The value of a slot is replaced by another string. -/
theorem Sound.overwrite (hm : m.Sound others)
    (hslot : m.slots[i]? = some ⟨some k, some v, hash⟩) {val : Nat}
    (hs : stringAt m.heap val = some s) (hne : val ≠ v) :
    ∃ m', m.overwrite i val = some m' ∧ m.Becomes others m'
      { m.view with slots := m.view.slots.modify i fun slot => { slot with val := some s } } := by
  obtain ⟨hall, hkv, -, hv⟩ := hm.split hslot
  have hown : v ∈ pointers m.slots + m.cells := by
    rw [hall]
    exact Multiset.mem_cons_of_mem (Multiset.mem_cons_self v _)
  obtain ⟨heap, hfree, hnext, hblock, howns⟩ := hm.owns.free hown
  have hread : stringAt heap val = some s :=
    (stringAt_congr ((hblock val).trans (if_neg hne))).trans hs
  have hkept : ∀ p, m.heap.Live p → p ≠ v →
      (heap.alloc (.string s)).block p = m.heap.block p := by
    intro p hp hpv
    rw [Heap.alloc_block_old (hnext ▸ hp.lt), hblock, if_neg hpv]
  have hlive : ∀ p ∈ k ::ₘ v ::ₘ (pointers (m.slots.set i .free) + m.cells), m.heap.Live p :=
    fun p hp => (hm.owns.live p).mpr (.inl (hall ▸ hp))
  have hkey := hkept k (hlive k (Multiset.mem_cons_self k _)) hkv
  have hnewString : stringAt (heap.alloc (.string s)) heap.next = some s :=
    stringAt_eq_some.mpr (heap.alloc_block_new _)
  have hmem : k ∈ pointers m.slots := by
    rw [(pointers_split hslot).1]
    exact Multiset.mem_add.mpr (.inl (Multiset.mem_coe.mpr List.mem_cons_self))
  obtain ⟨t, ht⟩ := hm.strings k hmem
  have hkeyString := (stringAt_congr hkey).trans ht
  have hmodify : (m.view.slots.modify i fun slot => { slot with val := some s }) =
      m.view.slots.set i
        (viewSlot (heap.alloc (.string s)) ⟨some k, some heap.next, hash⟩) := by
    rw [List.modify_eq_set, view, List.getElem?_map, hslot]
    simp only [viewSlot, Option.bind_some, Option.map_some, Option.getD_some, ht, hkeyString,
      hnewString]
  have hbecomes := @replace m others i hm _ ⟨some k, some heap.next, hash⟩ { m with
    heap := heap.alloc (.string s)
    slots := m.slots.set i ⟨some k, some heap.next, hash⟩ } hslot rfl rfl (.inr ⟨_, _, _, rfl⟩)
    ?_ ?_ ?_ ?_
  · rw [hmodify]
    refine ⟨_, ?_, hbecomes⟩
    rw [DictMemory.overwrite, hslot]
    show (m.heap.free v).bind _ = _
    rw [hfree, Option.bind_some, strdup_some hread]
    rfl
  · have howned := howns.alloc (.string s)
    rwa [hall, Multiset.erase_cons_tail _ hkv, Multiset.erase_cons_head,
      Multiset.cons_swap] at howned
  · intro p hp
    rcases List.mem_pair.mp hp with rfl | rfl
    · exact ⟨t, hkeyString⟩
    · exact ⟨s, hnewString⟩
  · intro p hp
    refine hkept p (hlive p (Multiset.mem_cons_of_mem (Multiset.mem_cons_of_mem hp))) ?_
    rintro rfl
    exact hv hp
  · intro p hp
    refine hkept p ((hm.owns.live p).mpr (.inr hp)) ?_
    rintro rfl
    exact hm.owns.apart p hown hp

/-- A new key goes into a free slot. -/
theorem Sound.addKey (hm : m.Sound others) (hprobe : freeSlot m.view.n m.view.slots = some i)
    (hslot : m.slots[i]? = some .free) {arg val : Nat} (hkey : stringAt m.heap arg = some key)
    (hs : stringAt m.heap val = some s) :
    ∃ m', m.addKey key arg val = some m' ∧ m.Becomes others m'
      { n := m.view.n + 1, slots := m.view.slots.set i ⟨some key, some s, dictHash key⟩ } := by
  obtain ⟨heap, hheap⟩ : ∃ heap, heap = m.heap.alloc (.string key) := ⟨_, rfl⟩
  have hnext : heap.next = m.heap.next + 1 := by
    rw [hheap]
    rfl
  have hread : stringAt heap val = some s := by
    rw [hheap]
    exact (stringAt_congr (Heap.alloc_block_old (lt_of_stringAt hs) _)).trans hs
  have hkept : ∀ p, m.heap.Live p → (heap.alloc (.string s)).block p = m.heap.block p := by
    intro p hp
    have hlt := hp.lt
    rw [Heap.alloc_block_old (by omega), hheap, Heap.alloc_block_old hlt]
  have hkeyString : stringAt (heap.alloc (.string s)) m.heap.next = some key := by
    rw [stringAt_eq_some, Heap.alloc_block_old (by omega), hheap]
    exact m.heap.alloc_block_new _
  have hvalString : stringAt (heap.alloc (.string s)) heap.next = some s :=
    stringAt_eq_some.mpr (heap.alloc_block_new _)
  have hentry : viewSlot (heap.alloc (.string s)) ⟨some m.heap.next, some heap.next, dictHash key⟩ =
      ⟨some key, some s, dictHash key⟩ := by
    simp only [viewSlot, Option.bind_some, hkeyString, hvalString]
  have hbecomes := @replace m others i hm _ ⟨some m.heap.next, some heap.next, dictHash key⟩
    { m with
      heap := heap.alloc (.string s)
      n := m.n + 1
      slots := m.slots.set i ⟨some m.heap.next, some heap.next, dictHash key⟩ }
    hslot rfl rfl (.inr ⟨_, _, _, rfl⟩) ?_ ?_ ?_ ?_
  · rw [← hentry]
    refine ⟨_, ?_, hbecomes⟩
    rw [DictMemory.addKey, hm.freeSlot_eq, hprobe, strdup_some hkey, ← hheap]
    show (strdup heap val).bind _ = _
    rw [strdup_some hread]
    rfl
  · have howned := (hm.owns.alloc (.string key)).alloc (.string s)
    rw [← hheap, Multiset.cons_swap, (pointers_split hslot).1, Multiset.add_assoc] at howned
    exact howned
  · intro p hp
    rcases List.mem_pair.mp hp with rfl | rfl
    · exact ⟨key, hkeyString⟩
    · exact ⟨s, hvalString⟩
  · intro p hp
    refine hkept p ((hm.owns.live p).mpr (.inl ?_))
    rw [(pointers_split hslot).1, Multiset.add_assoc]
    exact Multiset.mem_add.mpr (.inr hp)
  · exact fun p hp => hkept p ((hm.owns.live p).mpr (.inr hp))

/-- A slot is cleared, and both of its strings are freed. -/
theorem Sound.clear (hm : m.Sound others) (hslot : m.slots[i]? = some ⟨some k, some v, hash⟩) :
    ∃ m', m.clear i = some m' ∧ m.Becomes others m'
      { n := m.view.n - 1, slots := m.view.slots.set i .free } := by
  obtain ⟨hall, hkv, hk, hv⟩ := hm.split hslot
  have howns := hm.owns
  rw [hall] at howns
  obtain ⟨heap, hfree, -, hblock, howns⟩ := howns.free (Multiset.mem_cons_self k _)
  rw [Multiset.erase_cons_head] at howns
  obtain ⟨heap', hfree', -, hblock', howns'⟩ := howns.free (Multiset.mem_cons_self v _)
  rw [Multiset.erase_cons_head] at howns'
  have hkept : ∀ p, p ≠ k → p ≠ v → heap'.block p = m.heap.block p := by
    intro p hpk hpv
    rw [hblock', if_neg hpv, hblock, if_neg hpk]
  have hbecomes := @replace m others i hm _ .free { m with
    heap := heap'
    n := m.n - 1
    slots := m.slots.set i .free } hslot rfl rfl (.inl rfl) ?_ ?_ ?_ ?_
  · refine ⟨_, ?_, hbecomes⟩
    rw [DictMemory.clear, hslot]
    show (m.heap.free k).bind _ = _
    rw [hfree]
    show (heap.free v).bind _ = _
    rw [hfree']
    rfl
  · show heap'.Owns (0 + _) others
    rw [Multiset.zero_add]
    exact howns'
  · exact fun p hp => absurd hp List.not_mem_nil
  · refine fun p hp => hkept p ?_ ?_
    · rintro rfl
      exact hk hp
    · rintro rfl
      exact hv hp
  · refine fun p hp => hkept p ?_ ?_
    · rintro rfl
      exact hm.owns.apart p (by rw [hall]; exact Multiset.mem_cons_self p _) hp
    · rintro rfl
      exact howns.apart p (Multiset.mem_cons_self p _) hp

/-- One array is doubled. -/
theorem memDouble_owns {heap : Heap DictBlock} {rest : Multiset Nat} {array : Nat}
    (ho : heap.Owns (array ::ₘ rest) others) :
    ∃ heap', memDouble heap array = some (heap.next, heap') ∧ heap'.next = heap.next + 1 ∧
      heap'.Owns (heap.next ::ₘ rest) others ∧ heap'.block heap.next = some (.object .cells) ∧
      ∀ p < heap.next, heap'.block p = if p = array then none else heap.block p := by
  have hlive : heap.Live array := (ho.live array).mpr (.inl (Multiset.mem_cons_self array _))
  have hne : heap.next ≠ array := (Nat.ne_of_lt hlive.lt).symm
  have howns := ho.alloc (.object .cells)
  rw [Multiset.cons_swap] at howns
  obtain ⟨heap', hfree, hnext, hblock, howns⟩ := howns.free (Multiset.mem_cons_self array _)
  rw [Multiset.erase_cons_head] at howns
  refine ⟨heap', ?_, hnext, howns, ?_, fun p hp => ?_⟩
  · rw [memDouble, hfree]
    rfl
  · rw [hblock, if_neg hne]
    exact heap.alloc_block_new _
  · rw [hblock, Heap.alloc_block_old hp]

theorem pointers_append_free (slots : List PtrSlot) (n : Nat) :
    pointers (slots ++ List.replicate n .free) = pointers slots := by
  have hnone : (List.replicate n PtrSlot.free).flatMap PtrSlot.pointers = [] := by
    rw [List.flatMap_eq_nil_iff]
    intro slot hslot
    rw [List.eq_of_mem_replicate hslot]
    rfl
  rw [pointers, pointers, List.flatMap_append, hnone, List.append_nil]

theorem pointers_add_cells (m : DictMemory) :
    pointers m.slots + m.cells =
      m.vals ::ₘ m.keys ::ₘ m.hashes ::ₘ m.record ::ₘ pointers m.slots := by
  rw [Multiset.add_comm]
  show (m.vals ::ₘ m.keys ::ₘ m.hashes ::ₘ m.record ::ₘ 0) + _ = _
  simp only [Multiset.cons_add, Multiset.zero_add]

/-- A string is in no array. -/
theorem Sound.notMem_cells (hm : m.Sound others) {p : Nat} (hs : stringAt m.heap p = some s) :
    p ∉ m.cells := by
  intro hp
  rw [stringAt_eq_some, hm.arrays p hp] at hs
  cases hs

theorem mem_cells {p : Nat} :
    p ∈ m.cells ↔ p = m.vals ∨ p = m.keys ∨ p = m.hashes ∨ p = m.record := by
  simp [cells]

/-- The three blocks that take the place of the arrays, and those that stay. -/
theorem Sound.doubleArrays (hm : m.Sound others) :
    ∃ heap₁ heap₂ heap₃ : Heap DictBlock,
      memDouble m.heap m.vals = some (m.heap.next, heap₁) ∧
      memDouble heap₁ m.keys = some (heap₁.next, heap₂) ∧
      memDouble heap₂ m.hashes = some (heap₂.next, heap₃) ∧
      heap₃.Owns (m.heap.next ::ₘ heap₁.next ::ₘ heap₂.next ::ₘ m.record ::ₘ pointers m.slots)
        others ∧ m.heap.next ≤ heap₃.next ∧
      (∀ p, p = m.heap.next ∨ p = heap₁.next ∨ p = heap₂.next →
        heap₃.block p = some (.object .cells)) ∧
      ∀ p < m.heap.next, heap₃.block p =
        if p = m.vals ∨ p = m.keys ∨ p = m.hashes then none else m.heap.block p := by
  have howns := hm.owns
  rw [pointers_add_cells] at howns
  obtain ⟨heap₁, hdouble₁, hnext₁, howns₁, hnew₁, hkept₁⟩ := memDouble_owns howns
  rw [Multiset.cons_swap] at howns₁
  obtain ⟨heap₂, hdouble₂, hnext₂, howns₂, hnew₂, hkept₂⟩ := memDouble_owns howns₁
  rw [Multiset.cons_swap m.heap.next, Multiset.cons_swap heap₁.next] at howns₂
  obtain ⟨heap₃, hdouble₃, hnext₃, howns₃, hnew₃, hkept₃⟩ := memDouble_owns howns₂
  have hlt : ∀ p ∈ m.cells, p < m.heap.next :=
    fun p hp => (Heap.live_of_block (hm.arrays p hp)).lt
  have hkeys := hlt m.keys (mem_cells.mpr (.inr (.inl rfl)))
  have hhashes := hlt m.hashes (mem_cells.mpr (.inr (.inr (.inl rfl))))
  refine ⟨heap₁, heap₂, heap₃, hdouble₁, hdouble₂, hdouble₃, ?_, by omega, ?_, ?_⟩
  · rw [Multiset.cons_swap m.heap.next, Multiset.cons_swap m.heap.next,
      Multiset.cons_swap heap₁.next]
    exact howns₃
  · rintro p (rfl | rfl | rfl)
    · rw [hkept₃ _ (by omega), if_neg (by omega), hkept₂ _ (by omega), if_neg (by omega), hnew₁]
    · rw [hkept₃ _ (by omega), if_neg (by omega), hnew₂]
    · exact hnew₃
  · intro p hp
    rw [hkept₃ p (by omega), hkept₂ p (by omega), hkept₁ p hp]
    split_ifs <;> first | rfl | tauto

/-- The arrays are doubled, and the strings stay where they are. -/
theorem Sound.double (hm : m.Sound others) (hbytes : 2 * (m.size * 8) ≤ INT_MAX) :
    ∃ m', m.double = some m' ∧ m.Becomes others m'
        { m.view with
          slots := m.view.slots ++ List.replicate m.view.slots.length .free } ∧
      m.heap.next ≤ m'.heap.next ∧ ∀ p < m.heap.next, stringAt m'.heap p = stringAt m.heap p := by
  obtain ⟨heap₁, heap₂, heap₃, hdouble₁, hdouble₂, hdouble₃, howns, hnext, hnew, hkept⟩ :=
    hm.doubleArrays
  have hother : ∀ p, m.heap.Live p → p ∉ m.cells → heap₃.block p = m.heap.block p := by
    intro p hp hnot
    rw [mem_cells, not_or, not_or, not_or] at hnot
    rw [hkept p hp.lt, if_neg (by tauto)]
  have hstring : ∀ p < m.heap.next, stringAt heap₃ p = stringAt m.heap p := by
    intro p hp
    by_cases hcell : p = m.vals ∨ p = m.keys ∨ p = m.hashes
    · have hold := hm.arrays p (mem_cells.mpr (by tauto))
      rw [stringAt, stringAt, hkept p hp, if_pos hcell, hold]
    · exact stringAt_congr ((hkept p hp).trans (if_neg hcell))
  have hslots : ∀ p ∈ pointers m.slots, heap₃.block p = m.heap.block p := by
    intro p hp
    obtain ⟨s, hs⟩ := hm.strings p hp
    exact hother p (Heap.live_of_block (stringAt_eq_some.mp hs)) (hm.notMem_cells hs)
  have hnodup := hm.owns.nodup
  rw [pointers_add_cells] at hnodup
  simp only [Multiset.nodup_cons, Multiset.mem_cons, not_or] at hnodup
  obtain ⟨⟨-, -, hvals, -⟩, ⟨-, hkeys, -⟩, ⟨hhashes, -⟩, -⟩ := hnodup
  have hrecord : heap₃.block m.record = some (.object .cells) := by
    have hold := hm.arrays m.record (mem_cells.mpr (.inr (.inr (.inr rfl))))
    rw [hkept _ (Heap.live_of_block hold).lt, if_neg (by tauto), hold]
  refine ⟨{ m with
    heap := heap₃
    vals := m.heap.next
    keys := heap₁.next
    hashes := heap₂.next
    slots := m.slots ++ List.replicate m.slots.length .free }, ?_, ⟨⟨?_, ?_, ?_, ?_⟩, ?_, ?_⟩,
    hnext, hstring⟩
  · rw [DictMemory.double, if_pos hbytes, hdouble₁]
    show (memDouble heap₁ m.keys).bind _ = _
    rw [hdouble₂]
    show (memDouble heap₂ m.hashes).bind _ = _
    rw [hdouble₃]
    rfl
  · rw [pointers_add_cells, pointers_append_free]
    exact howns
  · intro p hp
    rw [pointers_append_free] at hp
    obtain ⟨s, hs⟩ := hm.strings p hp
    exact ⟨s, (stringAt_congr (hslots p hp)).trans hs⟩
  · intro p hp
    rcases mem_cells.mp hp with rfl | rfl | rfl | rfl
    · exact hnew _ (.inl rfl)
    · exact hnew _ (.inr (.inl rfl))
    · exact hnew _ (.inr (.inr rfl))
    · exact hrecord
  · intro slot hslot
    rcases List.mem_append.mp hslot with hslot | hslot
    · exact hm.filled slot hslot
    · exact .inl (List.eq_of_mem_replicate hslot)
  · refine congrArg (Dict.mk m.n) ?_
    rw [List.map_append, map_viewSlot_congr hslots, List.map_replicate, view, List.length_map]
    rfl
  · intro p hp
    refine hother p ((hm.owns.live p).mpr (.inr hp)) fun hcell => ?_
    exact hm.owns.apart p (Multiset.mem_add.mpr (.inr hcell)) hp

/-- The arrays grow where those of the view do. -/
theorem Sound.grown (hm : m.Sound others) {slots : List Slot} (hgrown : m.view.grown = some slots) :
    ∃ m', m.grown = some m' ∧ m.Becomes others m' { m.view with slots := slots } ∧
      m.heap.next ≤ m'.heap.next ∧ ∀ p < m.heap.next, stringAt m'.heap p = stringAt m.heap p := by
  have hsize : m.view.size = m.size := by
    rw [Dict.size, view, List.length_map]
    rfl
  rw [Dict.grown, hsize] at hgrown
  rw [DictMemory.grown]
  by_cases hfull : m.n = m.size
  · rw [if_pos hfull]
    rw [show m.view.n = m.n from rfl, if_pos hfull, Spmfilter.memDouble] at hgrown
    split at hgrown
    · rename_i hbytes
      obtain rfl := Option.some.inj hgrown
      rw [show m.view.slots.length = m.size from hsize] at hbytes
      exact hm.double hbytes
    · cases hgrown
  · rw [if_neg hfull]
    rw [show m.view.n = m.n from rfl, if_neg hfull] at hgrown
    obtain rfl := Option.some.inj hgrown
    exact ⟨m, rfl, ⟨hm, rfl, fun _ _ => rfl⟩, Nat.le_refl _, fun _ _ => rfl⟩

end Parts

end DictMemory

end Spmfilter
