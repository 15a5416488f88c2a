import Mathlib.Data.Nat.Prime.Basic
import Spmfilter.Core
import Spmfilter.Lib.Graph
import Spmfilter.Lib.Slots

/-!
# Dictionaries

`smf_dict.c`: three arrays of `size` slots for keys, values and hashes, in which
the bound keys stand in any order with holes between them.  A slot is free when its
key is NULL.  A new key goes into the first free slot from the `n`th on, around the
end of the arrays, which double when every slot is taken.

* `Dict.Represents` ties the slots to a finite map, and `represents_call` is the step
  lemma for `smf_dict_set` and `smf_dict_remove`.
* `Dict.Represents.get_eq`, `getKeys` and `map` read such a dictionary.
* `dict_refines` carries this along every sequence of calls.
-/

namespace Spmfilter

open CString Slots Graph

/-! ## Slots and dictionaries -/

/-- One index of the arrays `key`, `val` and `hash`. -/
structure Slot where
  key : Option Bytes := none
  val : Option Bytes := none
  hash : UInt32 := 0
deriving DecidableEq, Inhabited

/-- A slot as `calloc` and `smf_dict_remove` leave it. -/
abbrev Slot.free : Slot := {}

/-- `SMFDict_T`.  `size` is the length of the arrays. -/
structure Dict where
  n : Nat
  slots : List Slot
deriving DecidableEq

def Dict.size (dict : Dict) : Nat := dict.slots.length

/-- `_dict_hash`.  A `char` is signed. -/
def dictHash (key : Bytes) : UInt32 :=
  let hash := key.foldl (fun (hash : UInt32) c =>
    let hash := hash + c.toInt8.toInt32.toUInt32
    let hash := hash + (hash <<< 10)
    hash ^^^ (hash >>> 6)) 0
  let hash := hash + (hash <<< 3)
  let hash := hash ^^^ (hash >>> 11)
  hash + (hash <<< 15)

def smfDictNew : Dict where
  n := 0
  slots := List.replicate 128 .free

/-- `_mem_double` for each of the arrays.  `2 * size` is an `int` there, and the arrays
of pointers have eight bytes for each slot; `none` where that is too many. -/
def memDouble (slots : List Slot) : Option (List Slot) :=
  if 2 * (slots.length * 8) ≤ INT_MAX then some (slots ++ List.replicate slots.length .free)
  else none

/-- The slot is bound to `key`: the hashes are compared first. -/
def Slot.matches (key : Bytes) (slot : Slot) : Bool :=
  match slot.key with
  | none => false
  | some k => dictHash key == slot.hash && key == k

/-- The loop over the slots that `smf_dict_set`, `smf_dict_get` and `smf_dict_remove`
share. -/
def Dict.find (key : Bytes) (dict : Dict) : Option Nat :=
  dict.slots.findIdx? (Slot.matches key)

/-- The slot `smf_dict_set` puts a new key into. -/
def freeSlot (n : Nat) (slots : List Slot) : Option Nat :=
  probe (fun slot => slot.key.isNone) slots slots.length n

/-- The slots `smf_dict_set` adds a new key to. -/
def Dict.grown (dict : Dict) : Option (List Slot) :=
  if dict.n = dict.size then memDouble dict.slots else some dict.slots

/-- `smf_dict_set`; `none` where an array cannot grow or the search leaves it. -/
def smfDictSet (key val : Bytes) (dict : Dict) : Option Dict :=
  match if 0 < dict.n then dict.find key else none with
  | some i =>
    some { dict with slots := dict.slots.modify i fun slot => { slot with val := some val } }
  | none => do
    let slots ← dict.grown
    let i ← freeSlot dict.n slots
    some { n := dict.n + 1, slots := slots.set i ⟨some key, some val, dictHash key⟩ }

def smfDictGet (key : Bytes) (dict : Dict) : Option Bytes := do
  let i ← dict.find key
  let slot ← dict.slots[i]?
  slot.val

def smfDictRemove (key : Bytes) (dict : Dict) : Dict :=
  match dict.find key with
  | none => dict
  | some i => { n := dict.n - 1, slots := dict.slots.set i .free }

def smfDictGetKeys (dict : Dict) : List Bytes := dict.slots.filterMap Slot.key

/-- `smf_dict_map`, for a function that changes a state. -/
def smfDictMap {S : Type} (func : Bytes → Option Bytes → S → S) (dict : Dict) (args : S) : S :=
  (smfDictGetKeys dict).foldl (fun args key => func key (smfDictGet key dict) args) args

/-! ## The finite map of a dictionary -/

/-- The slot of a binding. -/
def Slot.entry (b : Bytes × Bytes) : Slot := ⟨some b.1, some b.2, dictHash b.1⟩

/-- `2 ^ 27`, the most slots for which `_mem_double` keeps its sizes in an `int`. -/
def DICT_LIMIT : Nat := 134217728

/-- The slots of `dict` are the free ones and those of the bindings of `m`. -/
def Dict.Represents (dict : Dict) (m : Bytes → Option Bytes) : Prop :=
  ∃ b, IsGraph b m ∧ held .free dict.slots = b.map Slot.entry ∧ dict.n = b.card ∧
    dict.size ∣ DICT_LIMIT

theorem Slot.entry_ne (b : Bytes × Bytes) : Slot.entry b ≠ .free := nofun

theorem Slot.matches_entry {key : Bytes} {b : Bytes × Bytes} :
    (Slot.entry b).matches key = true ↔ b.1 = key := by
  show (dictHash key == dictHash b.1 && key == b.1) = true ↔ _
  rw [Bool.and_eq_true, beq_iff_eq, beq_iff_eq]
  constructor
  · rintro ⟨-, rfl⟩
    rfl
  · rintro rfl
    exact ⟨rfl, rfl⟩

section
variable {dict : Dict} {m : Bytes → Option Bytes} {b : Multiset (Bytes × Bytes)} {key val : Bytes}

/-- A slot is free or holds one of the bindings. -/
theorem free_or_entry (hheld : held .free dict.slots = b.map Slot.entry) {slot : Slot}
    (hslot : slot ∈ dict.slots) : slot = .free ∨ ∃ e ∈ b, slot = Slot.entry e := by
  by_cases hfree : slot = .free
  · exact Or.inl hfree
  · right
    have hmem : slot ∈ held .free dict.slots := mem_held.mpr ⟨hslot, hfree⟩
    rw [hheld] at hmem
    obtain ⟨e, he, rfl⟩ := Multiset.mem_map.mp hmem
    exact ⟨e, he, rfl⟩

/-- The search ends at the slot of the key's binding. -/
theorem find_eq_some (hheld : held .free dict.slots = b.map Slot.entry) {i : Nat}
    (h : dict.find key = some i) :
    ∃ v, (key, v) ∈ b ∧ dict.slots[i]? = some (Slot.entry (key, v)) := by
  obtain ⟨hi, hmatch, -⟩ := List.findIdx?_eq_some_iff_getElem.mp h
  rcases free_or_entry hheld (List.getElem_mem hi) with hfree | ⟨e, he, hslot⟩
  · rw [hfree] at hmatch
    cases hmatch
  · rw [hslot, Slot.matches_entry] at hmatch
    subst hmatch
    exact ⟨e.2, he, by rw [List.getElem?_eq_getElem hi, hslot]⟩

/-- Without a slot for the key the search finds none. -/
theorem find_eq_none (hgraph : IsGraph b m) (hheld : held .free dict.slots = b.map Slot.entry)
    (h : dict.find key = none) : m key = none := by
  by_contra hsome
  obtain ⟨v, hv⟩ := Option.ne_none_iff_exists'.mp hsome
  have hmem : Slot.entry (key, v) ∈ held .free dict.slots := by
    rw [hheld]
    exact Multiset.mem_map_of_mem _ ((hgraph.mem key v).mpr hv)
  have hmiss := List.findIdx?_eq_none_iff.mp h _ (mem_held.mp hmem).1
  have hmatch : (Slot.entry (key, v)).matches key = true := Slot.matches_entry.mpr rfl
  rw [hmatch] at hmiss
  cases hmiss

theorem Dict.Represents.get_eq (h : dict.Represents m) (key : Bytes) :
    smfDictGet key dict = m key := by
  obtain ⟨b, hgraph, hheld, -, -⟩ := h
  rw [smfDictGet]
  cases hfind : dict.find key with
  | none => exact (find_eq_none hgraph hheld hfind).symm
  | some i =>
    obtain ⟨v, hmem, hslot⟩ := find_eq_some hheld hfind
    rw [(hgraph.mem key v).mp hmem]
    show (dict.slots[i]?).bind Slot.val = some v
    rw [hslot]
    rfl

/-! ## What the calls do -/

/-- The binding that a search has found, and the slots without it. -/
theorem Dict.Represents.found (h : dict.Represents m) {i : Nat} (hfind : dict.find key = some i) :
    ∃ v b, IsGraph ((key, v) ::ₘ b) m ∧ dict.slots[i]? = some (Slot.entry (key, v)) ∧
      held .free dict.slots = Slot.entry (key, v) ::ₘ b.map Slot.entry ∧
      dict.n = b.card + 1 ∧ dict.size ∣ DICT_LIMIT := by
  obtain ⟨b, hgraph, hheld, hn, hsize⟩ := h
  obtain ⟨v, hmem, hslot⟩ := find_eq_some hheld hfind
  obtain ⟨rest, rfl⟩ := Multiset.exists_cons_of_mem hmem
  exact ⟨v, rest, hgraph, hslot, hheld.trans (Multiset.map_cons _ _ _),
    hn.trans (Multiset.card_cons _ _), hsize⟩

/-- Setting a bound key trades the values in its slot. -/
theorem represents_overwrite (h : dict.Represents m) {i : Nat} (hfind : dict.find key = some i) :
    ({ dict with slots := dict.slots.modify i fun slot => { slot with val := some val } } : Dict)
      |>.Represents (Function.update m key (some val)) := by
  obtain ⟨v, b, hgraph, hslot, hheld, hn, hsize⟩ := h.found hfind
  have hmodify : (dict.slots.modify i fun slot => { slot with val := some val }) =
      dict.slots.set i (Slot.entry (key, val)) := by
    rw [List.modify_eq_set, hslot]
    rfl
  refine ⟨(key, val) ::ₘ b, hgraph.rebind, ?_, ?_, ?_⟩
  · have hset := held_set (Slot.entry_ne (key, val)) (Slot.entry_ne (key, v)) hslot
    rw [hheld, Multiset.cons_swap] at hset
    rw [hmodify, Multiset.cons_inj_right _ |>.mp hset, Multiset.map_cons]
  · rw [Multiset.card_cons]
    exact hn
  · show (dict.slots.modify i _).length ∣ _
    rw [List.length_modify]
    exact hsize

theorem represents_remove (h : dict.Represents m) :
    (smfDictRemove key dict).Represents (Function.update m key none) := by
  rw [smfDictRemove]
  cases hfind : dict.find key with
  | none =>
    have hnone : m key = none := by
      obtain ⟨b, hgraph, hheld, -, -⟩ := h
      exact find_eq_none hgraph hheld hfind
    rw [← hnone, Function.update_eq_self]
    exact h
  | some i =>
    obtain ⟨v, b, hgraph, hslot, hheld, hn, hsize⟩ := h.found hfind
    refine ⟨b, hgraph.erase, ?_, ?_, ?_⟩
    · have hclear := held_clear (Slot.entry_ne (key, v)) hslot
      rw [hheld] at hclear
      exact (Multiset.cons_inj_right _).mp hclear
    · show dict.n - 1 = _
      omega
    · show (dict.slots.set i .free).length ∣ _
      rw [List.length_set]
      exact hsize

theorem Dict.Represents.n_le_size (h : dict.Represents m) : dict.n ≤ dict.size := by
  obtain ⟨b, -, hheld, hcard, -⟩ := h
  rw [hcard, ← Multiset.card_map Slot.entry b, ← hheld, Dict.size, ← Multiset.coe_card]
  exact Multiset.card_le_card (Multiset.filter_le _ _)

theorem Dict.Represents.n_le (h : dict.Represents m) : dict.n ≤ DICT_LIMIT := by
  obtain ⟨b, -, -, -, hsize⟩ := id h
  exact h.n_le_size.trans (Nat.le_of_dvd (by decide) hsize)

/-- Up to the limit the arrays can grow. -/
theorem Dict.grown_eq_some (hn : dict.n < DICT_LIMIT) :
    ∃ slots, dict.grown = some slots := by
  rw [Dict.grown]
  split
  · rename_i hall
    have hbytes : 2 * (dict.slots.length * 8) ≤ INT_MAX := by
      show 2 * (dict.size * 8) ≤ 2147483647
      rw [show DICT_LIMIT = 134217728 from rfl] at hn
      omega
    exact ⟨_, if_pos hbytes⟩
  · exact ⟨_, rfl⟩

/-- Growing changes nothing but the number of free slots. -/
theorem Dict.Represents.of_grown (h : dict.Represents m) {slots : List Slot}
    (hgrown : dict.grown = some slots) :
    held .free slots = held .free dict.slots ∧ dict.n < slots.length ∧
      slots.length ∣ DICT_LIMIT := by
  have hfull := h.n_le_size
  obtain ⟨b, -, -, -, hsize⟩ := h
  rw [Dict.grown] at hgrown
  split at hgrown
  · rename_i hall
    rw [memDouble] at hgrown
    split at hgrown
    · rename_i hbytes
      obtain rfl := Option.some.inj hgrown
      rw [held_append, held_replicate, Multiset.add_zero, List.length_append,
        List.length_replicate]
      have hlimit : dict.size ≤ 134217727 := by
        rw [show INT_MAX = 2147483647 from rfl] at hbytes
        show dict.slots.length ≤ _
        omega
      refine ⟨rfl, ?_, ?_⟩
      · have hpos : 0 < dict.size := Nat.pos_of_dvd_of_pos hsize (by decide)
        show _ < dict.size + dict.size
        omega
      · -- both are powers of two
        obtain ⟨j, hj, hpow⟩ := (Nat.dvd_prime_pow (m := 27) Nat.prime_two).mp hsize
        have hlt : j < 27 := by
          by_contra hge
          obtain rfl : j = 27 := by omega
          rw [hpow] at hlimit
          exact absurd hlimit (by decide)
        show dict.size + dict.size ∣ _
        rw [hpow, ← Nat.two_mul, ← Nat.pow_succ']
        exact Nat.pow_dvd_pow 2 (by omega : j + 1 ≤ 27)
    · cases hgrown
  · rename_i hfewer
    obtain rfl := Option.some.inj hgrown
    refine ⟨rfl, ?_, hsize⟩
    show dict.n < dict.size
    omega

/-- The search ends at a free slot of the array. -/
theorem Dict.Represents.freeSlot_eq_some (h : dict.Represents m) {slots : List Slot}
    (hgrown : dict.grown = some slots) :
    ∃ i, freeSlot dict.n slots = some i ∧ slots[i]? = some .free := by
  obtain ⟨hsame, hroom, -⟩ := h.of_grown hgrown
  obtain ⟨b, -, hheld, hcard, -⟩ := h
  have hfree : Slot.free ∈ slots := by
    apply free_mem_of_card_lt
    rw [hsame, hheld, Multiset.card_map, ← hcard]
    exact hroom
  obtain ⟨i, hi⟩ := Option.isSome_iff_exists.mp
    (show (freeSlot dict.n slots).isSome from probe_isSome hfree rfl hroom)
  refine ⟨i, hi, ?_⟩
  obtain ⟨slot, hslot, hkey⟩ := probe_eq_some hi
  have hentries : held .free (Dict.mk 0 slots).slots = b.map Slot.entry := hsame.trans hheld
  rcases free_or_entry hentries (List.mem_of_getElem? hslot) with rfl | ⟨e, -, rfl⟩
  · exact hslot
  · cases hkey

/-- The search for a key that is not bound finds none, also where it is left out. -/
theorem Dict.Represents.unbound (h : dict.Represents m)
    (hfind : (if 0 < dict.n then dict.find key else none) = none) : m key = none := by
  obtain ⟨b, hgraph, hheld, hcard, -⟩ := h
  split at hfind
  · exact find_eq_none hgraph hheld hfind
  · -- nothing is bound yet
    obtain rfl : b = 0 := Multiset.card_eq_zero.mp (by omega)
    by_contra hsome
    obtain ⟨v, hv⟩ := Option.ne_none_iff_exists'.mp hsome
    exact absurd ((hgraph.mem key v).mpr hv) (Multiset.notMem_zero _)

/-- A call that goes through binds the key. -/
theorem represents_set (h : dict.Represents m) {dict' : Dict}
    (hset : smfDictSet key val dict = some dict') :
    dict'.Represents (Function.update m key (some val)) ∧ dict'.n ≤ dict.n + 1 := by
  rw [smfDictSet] at hset
  split at hset
  · rename_i i hfind
    obtain rfl := Option.some.inj hset
    refine ⟨?_, Nat.le_succ _⟩
    split at hfind
    · exact represents_overwrite h hfind
    · cases hfind
  · rename_i hfind
    have hnone := h.unbound hfind
    obtain ⟨slots, hgrown, hset⟩ := Option.bind_eq_some_iff.mp hset
    obtain ⟨i, hprobe, hslot⟩ := h.freeSlot_eq_some hgrown
    obtain ⟨hsame, -, hlimit⟩ := h.of_grown hgrown
    obtain ⟨b, hgraph, hheld, hcard, -⟩ := h
    rw [hprobe] at hset
    obtain rfl := Option.some.inj hset
    refine ⟨⟨(key, val) ::ₘ b, hgraph.cons hnone, ?_, ?_, ?_⟩, le_refl _⟩
    · show held .free (slots.set i (Slot.entry (key, val))) = _
      rw [held_set_free (Slot.entry_ne _) hslot, hsame, hheld, Multiset.map_cons]
    · rw [Multiset.card_cons, ← hcard]
    · show (slots.set i _).length ∣ _
      rw [List.length_set]
      exact hlimit

/-- Up to the limit a call goes through. -/
theorem Dict.Represents.set_eq_some (h : dict.Represents m) (hn : dict.n < DICT_LIMIT) :
    ∃ dict', smfDictSet key val dict = some dict' := by
  rw [smfDictSet]
  split
  · exact ⟨_, rfl⟩
  · obtain ⟨slots, hgrown⟩ := Dict.grown_eq_some hn
    obtain ⟨i, hprobe, -⟩ := h.freeSlot_eq_some hgrown
    rw [hgrown]
    show ∃ dict', ((freeSlot dict.n slots).bind _) = some dict'
    rw [hprobe]
    exact ⟨_, rfl⟩

theorem smfDictSet_found {i : Nat} (hfind : dict.find key = some i) (hn : 0 < dict.n) :
    smfDictSet key val dict =
      some { dict with slots := dict.slots.modify i fun slot => { slot with val := some val } } := by
  rw [smfDictSet, if_pos hn, hfind]

theorem smfDictSet_missing {slots : List Slot} {i : Nat}
    (hmissing : (if 0 < dict.n then dict.find key else none) = none)
    (hgrown : dict.grown = some slots) (hprobe : freeSlot dict.n slots = some i) :
    smfDictSet key val dict =
      some { n := dict.n + 1, slots := slots.set i ⟨some key, some val, dictHash key⟩ } := by
  rw [smfDictSet, hmissing]
  show (dict.grown.bind fun slots => (freeSlot dict.n slots).bind _) = _
  rw [hgrown, Option.bind_some, hprobe]
  rfl

/-- The search does not look at the values. -/
theorem Dict.find_modify (key val : Bytes) (n : Nat) (slots : List Slot) (i : Nat) :
    (Dict.mk n (slots.modify i fun slot => { slot with val := some val })).find key =
      (Dict.mk n slots).find key := by
  have hsame : (slots.modify i fun slot => { slot with val := some val }).map
      (Slot.matches key) = slots.map (Slot.matches key) := by
    apply List.ext_getElem?
    intro j
    rw [List.getElem?_map, List.getElem?_map, List.getElem?_modify]
    split <;> cases slots[j]? <;> rfl
  rw [Dict.find, Dict.find, ← Function.id_comp (Slot.matches key), ← List.findIdx?_map,
    ← List.findIdx?_map]
  exact congrArg _ hsame

/-- The slot that a call has filled is found by the next one. -/
theorem Dict.find_set (key val : Bytes) {slots : List Slot} (n : Nat) {i : Nat}
    (hother : ∀ slot ∈ slots, slot.matches key = false) (hi : i < slots.length) :
    (Dict.mk n (slots.set i (Slot.entry (key, val)))).find key = some i := by
  have hmatch : (Slot.entry (key, val)).matches key = true := Slot.matches_entry.mpr rfl
  rw [Dict.find, List.findIdx?_eq_some_iff_getElem]
  refine ⟨by rwa [List.length_set], ?_, fun j hj => ?_⟩
  · rw [List.getElem_set_self]
    exact hmatch
  · rw [List.getElem_set_ne (Nat.ne_of_gt hj), hother _ (List.getElem_mem _)]
    exact Bool.false_ne_true

/-- A second value for a key replaces the first. -/
theorem Dict.Represents.set_set (h : dict.Represents m) {dict' : Dict} {val' : Bytes}
    (hset : smfDictSet key val dict = some dict') :
    smfDictSet key val' dict' = smfDictSet key val' dict := by
  cases hsearch : if 0 < dict.n then dict.find key else none with
  | some i =>
    obtain ⟨hn, hfind⟩ := Option.ite_none_right_eq_some.mp hsearch
    rw [smfDictSet_found hfind hn] at hset
    obtain rfl := Option.some.inj hset
    have hagain := (Dict.find_modify key val dict.n dict.slots i).trans hfind
    refine (smfDictSet_found hagain hn).trans ?_
    rw [smfDictSet_found hfind hn, List.modify_modify_eq]
    rfl
  | none =>
    have hnone := h.unbound hsearch
    have hset' := hset
    rw [smfDictSet, hsearch] at hset'
    obtain ⟨slots, hgrown, -⟩ := Option.bind_eq_some_iff.mp hset'
    obtain ⟨i, hprobe, hslot⟩ := h.freeSlot_eq_some hgrown
    obtain ⟨hsame, -, -⟩ := h.of_grown hgrown
    obtain ⟨b, hgraph, hheld, -, -⟩ := h
    rw [smfDictSet_missing hsearch hgrown hprobe] at hset
    obtain rfl := Option.some.inj hset
    have hentries : held .free (Dict.mk 0 slots).slots = b.map Slot.entry := hsame.trans hheld
    have hother : ∀ slot ∈ slots, slot.matches key = false := by
      intro slot hmem
      rcases free_or_entry hentries hmem with rfl | ⟨e, he, rfl⟩
      · rfl
      · rw [← Bool.not_eq_true, Slot.matches_entry]
        rintro rfl
        exact Option.some_ne_none e.2 (((hgraph.mem e.1 e.2).mp he).symm.trans hnone)
    have hi : i < slots.length := (List.getElem?_eq_some_iff.mp hslot).1
    have hagain := Dict.find_set key val (dict.n + 1) hother hi
    refine (smfDictSet_found hagain (Nat.succ_pos dict.n)).trans ?_
    rw [smfDictSet_missing hsearch hgrown hprobe, List.modify_eq_set, List.set_set,
      List.getElem?_set_self hi]
    rfl

/-! ## What a dictionary shows -/

/-- The keys of the slots are those of the bindings. -/
theorem coe_getKeys (slots : List Slot) {b : Multiset (Bytes × Bytes)}
    (hheld : held .free slots = b.map Slot.entry) :
    (slots.filterMap Slot.key : Multiset Bytes) = b.map Prod.fst := by
  have hfilter : ∀ l : List Slot, (l.filterMap Slot.key : Multiset Bytes) =
      (held .free l).filterMap Slot.key := by
    intro l
    induction l with
    | nil => rfl
    | cons slot l ih =>
      by_cases hfree : slot = .free
      · subst hfree
        rw [held_free, ← ih]
        rfl
      · rw [held_cons hfree]
        cases hkey : slot.key with
        | none => rw [Multiset.filterMap_cons_none _ _ hkey, List.filterMap_cons_none hkey, ih]
        | some k =>
          rw [Multiset.filterMap_cons_some _ _ _ hkey, List.filterMap_cons_some hkey, ← ih]
          rfl
  rw [hfilter, hheld, Multiset.filterMap_map]
  exact congrFun (Multiset.filterMap_eq_map Prod.fst) b

/-- The keys come out in some order, each once. -/
theorem Dict.Represents.getKeys (h : dict.Represents m) :
    (smfDictGetKeys dict).Nodup ∧ ∀ key, key ∈ smfDictGetKeys dict ↔ m key ≠ none := by
  obtain ⟨b, hgraph, hheld, -, -⟩ := h
  have hkeys : (smfDictGetKeys dict : Multiset Bytes) = b.map Prod.fst := coe_getKeys _ hheld
  refine ⟨?_, fun key => ?_⟩
  · rw [← Multiset.coe_nodup, hkeys]
    exact hgraph.nodup
  · rw [← Multiset.mem_coe, hkeys, hgraph.mem_keys, Option.isSome_iff_ne_none]

/-- As many keys come out as are bound. -/
theorem Dict.Represents.length_getKeys (h : dict.Represents m) :
    (smfDictGetKeys dict).length = dict.n := by
  obtain ⟨b, -, hheld, hcard, -⟩ := h
  have hkeys : (smfDictGetKeys dict : Multiset Bytes) = b.map Prod.fst := coe_getKeys _ hheld
  rw [← Multiset.coe_card, hkeys, Multiset.card_map, hcard]

end

/-! ## Sequences of calls -/

/-- What a dictionary shows is the finite map `m`, and it has room for another key. -/
structure Dict.Refines (dict : Dict) (m : Bytes → Option Bytes) : Prop where
  get : ∀ key, smfDictGet key dict = m key
  count : dict.n = {key | m key ≠ none}.ncard
  keys : (smfDictGetKeys dict).Nodup ∧ ∀ key, key ∈ smfDictGetKeys dict ↔ m key ≠ none
  map : ∃ visits : List (Bytes × Bytes), (visits.map Prod.fst).Nodup ∧
    (∀ key val, (key, val) ∈ visits ↔ m key = some val) ∧
    ∀ (S : Type) (func : Bytes → Option Bytes → S → S) (args : S),
      smfDictMap func dict args = visits.foldl (fun args b => func b.1 (some b.2) args) args
  search : ∃ slots i, dict.grown = some slots ∧ freeSlot dict.n slots = some i ∧
    i < slots.length

inductive DictCall
  | set (key val : Bytes)
  | remove (key : Bytes)

def DictCall.run : DictCall → Dict → Option Dict
  | .set key val, dict => smfDictSet key val dict
  | .remove key, dict => some (smfDictRemove key dict)

/-- The dictionary after the calls. -/
def dictAfter (calls : List DictCall) : Option Dict :=
  calls.foldlM (fun dict call => call.run dict) smfDictNew

/-- What a call does to the finite map. -/
def DictCall.effect : DictCall → (Bytes → Option Bytes) → Bytes → Option Bytes
  | .set key val, m => Function.update m key (some val)
  | .remove key, m => Function.update m key none

/-- The value last set for each key and not removed since. -/
def lastSet (calls : List DictCall) : Bytes → Option Bytes :=
  calls.foldl (fun m call => call.effect m) fun _ => none

section
variable {dict : Dict} {m : Bytes → Option Bytes}

theorem represents_new : smfDictNew.Represents fun _ => none := by
  refine ⟨0, isGraph_empty, held_replicate 128, rfl, ?_⟩
  show (List.replicate 128 Slot.free).length ∣ _
  rw [List.length_replicate]
  decide

/-- The step lemma. -/
theorem represents_call {call : DictCall} (h : dict.Represents m) {dict' : Dict}
    (hrun : call.run dict = some dict') :
    dict'.Represents (call.effect m) ∧ dict'.n ≤ dict.n + 1 := by
  cases call with
  | set key val => exact represents_set h hrun
  | remove key =>
    obtain rfl := Option.some.inj hrun
    refine ⟨represents_remove h, ?_⟩
    rw [smfDictRemove]
    split
    · exact Nat.le_succ _
    · show dict.n - 1 ≤ _
      omega

/-- The induction over the calls. -/
theorem represents_calls {calls : List DictCall} (h : dict.Represents m) {dict' : Dict}
    (hrun : calls.foldlM (fun dict call => call.run dict) dict = some dict') :
    dict'.Represents (calls.foldl (fun m call => call.effect m) m) := by
  induction calls generalizing dict m with
  | nil =>
    obtain rfl : dict = dict' := Option.some.inj hrun
    exact h
  | cons call calls ih =>
    rw [List.foldlM_cons] at hrun
    obtain ⟨d, hd, hrest⟩ := Option.bind_eq_some_iff.mp hrun
    exact ih (represents_call h hd).1 hrest

/-- Fewer calls than the limit all go through. -/
theorem calls_eq_some (calls : List DictCall) (h : dict.Represents m)
    (hn : dict.n + calls.length ≤ DICT_LIMIT) :
    ∃ dict', calls.foldlM (fun dict call => call.run dict) dict = some dict' ∧
      dict'.n ≤ dict.n + calls.length := by
  induction calls generalizing dict m with
  | nil => exact ⟨dict, rfl, le_refl _⟩
  | cons call calls ih =>
    rw [List.length_cons] at hn
    obtain ⟨d, hd⟩ : ∃ d, call.run dict = some d := by
      cases call with
      | set key val => exact h.set_eq_some (by omega)
      | remove key => exact ⟨_, rfl⟩
    obtain ⟨hrep, hdn⟩ := represents_call h hd
    obtain ⟨dict', hrun, hn'⟩ := ih hrep (by omega)
    refine ⟨dict', ?_, ?_⟩
    · rw [List.foldlM_cons, hd]
      exact hrun
    · rw [List.length_cons]
      omega

/-- `smf_dict_map` calls the function once for each binding. -/
theorem Dict.Represents.map (h : dict.Represents m) :
    ∃ visits : List (Bytes × Bytes), (visits.map Prod.fst).Nodup ∧
      (∀ key val, (key, val) ∈ visits ↔ m key = some val) ∧
      ∀ (S : Type) (func : Bytes → Option Bytes → S → S) (args : S),
        smfDictMap func dict args =
          visits.foldl (fun args b => func b.1 (some b.2) args) args := by
  obtain ⟨hnodup, hkeys⟩ := h.getKeys
  have hvalue : ∀ key ∈ smfDictGetKeys dict, m key = some ((m key).getD []) := by
    intro key hkey
    obtain ⟨val, hval⟩ := Option.ne_none_iff_exists'.mp ((hkeys key).mp hkey)
    rw [hval]
    rfl
  refine ⟨(smfDictGetKeys dict).map fun key => (key, (m key).getD []), ?_, ?_, ?_⟩
  · rw [List.map_map]
    exact (List.map_id (smfDictGetKeys dict)).symm ▸ hnodup
  · intro key val
    rw [List.mem_map]
    constructor
    · rintro ⟨k, hk, hpair⟩
      obtain ⟨rfl, rfl⟩ := Prod.mk.inj hpair
      exact hvalue k hk
    · intro hval
      refine ⟨key, (hkeys key).mpr ?_, ?_⟩
      · rw [hval]
        exact Option.some_ne_none val
      · rw [hval]
        rfl
  · intro S func args
    rw [smfDictMap, List.foldl_map]
    apply List.foldl_ext
    intro args key hkey
    rw [h.get_eq, ← hvalue key hkey]

theorem Dict.Represents.refines (h : dict.Represents m) (hn : dict.n < DICT_LIMIT) :
    dict.Refines m where
  get := h.get_eq
  count := by
    obtain ⟨b, hgraph, -, hcard, -⟩ := h
    rw [hgraph.ncard, hcard]
  keys := h.getKeys
  map := h.map
  search := by
    obtain ⟨slots, hgrown⟩ := Dict.grown_eq_some hn
    obtain ⟨i, hprobe, hslot⟩ := h.freeSlot_eq_some hgrown
    exact ⟨slots, i, hgrown, hprobe, (List.getElem?_eq_some_iff.mp hslot).1⟩

end

/-- **A dictionary is a finite map**, after every sequence of fewer than `2 ^ 26`
calls. -/
theorem dict_refines (calls : List DictCall) (hfew : calls.length < 67108864) :
    ∃ dict, dictAfter calls = some dict ∧ dict.Refines (lastSet calls) := by
  have hlimit : smfDictNew.n + calls.length ≤ 67108864 := by
    rw [show smfDictNew.n = 0 from rfl]
    omega
  obtain ⟨dict, hrun, hn⟩ :=
    calls_eq_some calls represents_new (hlimit.trans (by decide))
  have hrep := represents_calls represents_new hrun
  exact ⟨dict, hrun, hrep.refines (lt_of_le_of_lt (hn.trans hlimit) (by decide))⟩

/-- A key is set, set again and, after another one, removed. -/
theorem dict_refines_removed :
    ∃ dict, dictAfter [.set (ascii "a") (ascii "1"), .set (ascii "a") (ascii "2"),
        .set (ascii "b") (ascii "3"), .remove (ascii "a")] = some dict ∧
      dict.Refines (lastSet [.set (ascii "a") (ascii "1"), .set (ascii "a") (ascii "2"),
        .set (ascii "b") (ascii "3"), .remove (ascii "a")]) :=
  dict_refines _ (by decide)

end Spmfilter
