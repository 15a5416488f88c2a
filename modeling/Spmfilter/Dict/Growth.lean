import Spmfilter.Dict

/-!
# Dictionaries that cannot grow

`smf_dict_set` doubles three arrays one after the other and stores what `_mem_double` returns,
NULL included, before it looks at it.

* `DictArrays` is a dictionary with the arrays that are still there, and `DictArrays.set`,
  `get` and `remove` are the functions on it; `none` is an access through NULL.
* `set_whole` connects them to the dictionaries of `Dict`, where every allocation succeeds.
* `set_whole_fails` and `get_lost` say what a failed allocation leaves.
* `keepsOnFailure_iff` is about whole runs of calls.
-/

namespace Spmfilter

open CString Slots

/-! ## The arrays -/

/-- A dictionary, and which of its arrays are not NULL.  An array that has been doubled in
vain has the same slots in front. -/
structure DictArrays where
  dict : Dict
  key : Bool
  val : Bool
  hash : Bool

/-- All arrays are there. -/
def DictArrays.whole (dict : Dict) : DictArrays := ⟨dict, true, true, true⟩

/-- Which of the three `calloc` of a growth succeed. -/
structure GrowthAllocs where
  val : Bool
  key : Bool
  hash : Bool

/-- The loop over the slots that `smf_dict_set`, `smf_dict_get` and `smf_dict_remove` share. -/
def searchLoop (d : DictArrays) (key : Bytes) : (i : Nat) → List Slot → Option (Option Nat)
  | _, [] => some none
  | i, slot :: slots =>
    if d.key = false then none
    else
      match slot.key with
      | none => searchLoop d key (i + 1) slots
      | some k =>
        if d.hash = false then none
        else if dictHash key = slot.hash ∧ key = k then some (some i)
        else searchLoop d key (i + 1) slots

def DictArrays.search (d : DictArrays) (key : Bytes) : Option (Option Nat) :=
  searchLoop d key 0 d.dict.slots

/-- `_mem_double`: whether the new array is there.  `2 * size` is an `int`. -/
def doubleArray (present succeeds : Bool) (size : Nat) : Option Bool :=
  if succeeds = false ∨ INT_MAX < 2 * size then some false
  else if present = false then none
  else some true

/-- The three calls of `_mem_double` in `smf_dict_set`. -/
def DictArrays.double (allocs : GrowthAllocs) (d : DictArrays) : Option DictArrays := do
  let val ← doubleArray d.val allocs.val (d.dict.size * 8)
  let key ← doubleArray d.key allocs.key (d.dict.size * 8)
  let hash ← doubleArray d.hash allocs.hash (d.dict.size * 4)
  some { d with val := val, key := key, hash := hash }

/-- The end of `smf_dict_set`: the key goes into the first empty slot. -/
def DictArrays.insert (key val : Bytes) (d : DictArrays) : Option (Int × DictArrays) :=
  if d.key = false ∨ d.val = false ∨ d.hash = false then none
  else
    (freeSlot d.dict.n d.dict.slots).map fun i =>
      (0, { d with
        dict :=
          { n := d.dict.n + 1
            slots := d.dict.slots.set i ⟨some key, some val, dictHash key⟩ } })

/-- The first part of `smf_dict_set`: an empty dictionary is not searched. -/
def DictArrays.present (d : DictArrays) (key : Bytes) : Option (Option Nat) :=
  if 0 < d.dict.n then d.search key else some none

/-- A new value for the key at index `i`. -/
def DictArrays.overwrite (i : Nat) (val : Bytes) (d : DictArrays) : Option (Int × DictArrays) :=
  if d.val = false then none
  else
    some (0, { d with
      dict :=
        { d.dict with
          slots := d.dict.slots.modify i fun slot => { slot with val := some val } } })

/-- The arrays with slots for as many keys again. -/
def DictArrays.enlarged (d : DictArrays) : DictArrays :=
  { d with
    dict := { d.dict with slots := d.dict.slots ++ List.replicate d.dict.size .free } }

/-- A new key. -/
def DictArrays.add (allocs : GrowthAllocs) (key val : Bytes) (d : DictArrays) :
    Option (Int × DictArrays) :=
  if d.dict.n = d.dict.size then
    (d.double allocs).bind fun d =>
      if d.val = false ∨ d.key = false ∨ d.hash = false then some (-1, d)
      else d.enlarged.insert key val
  else d.insert key val

/-- `smf_dict_set`. -/
def DictArrays.set (allocs : GrowthAllocs) (key val : Bytes) (d : DictArrays) :
    Option (Int × DictArrays) := do
  match ← d.present key with
  | some i => d.overwrite i val
  | none => d.add allocs key val

/-- `smf_dict_get`. -/
def DictArrays.get (key : Bytes) (d : DictArrays) : Option (Option Bytes) := do
  match ← d.search key with
  | none => some none
  | some i => if d.val = false then none else some (d.dict.slots[i]?.bind Slot.val)

/-- `smf_dict_remove`. -/
def DictArrays.remove (key : Bytes) (d : DictArrays) : Option DictArrays := do
  match ← d.search key with
  | none => some d
  | some i =>
    if d.val = false then none
    else some { d with dict := { n := d.dict.n - 1, slots := d.dict.slots.set i .free } }

/-! ## With all arrays -/

section

variable {dict : Dict} {m : Bytes → Option Bytes} {key val : Bytes} {allocs : GrowthAllocs}

theorem searchLoop_whole (i : Nat) (slots : List Slot) :
    searchLoop (.whole dict) key i slots =
      some ((slots.findIdx? (Slot.matches key)).map (· + i)) := by
  induction slots generalizing i with
  | nil => rfl
  | cons slot slots ih =>
    have hnext : (slots.findIdx? (Slot.matches key)).map (· + (i + 1)) =
        ((slots.findIdx? (Slot.matches key)).map (· + 1)).map (· + i) := by
      rw [Option.map_map]
      refine congrArg (Option.map · _) (funext fun j => ?_)
      show j + (i + 1) = j + 1 + i
      omega
    have hthere : ¬ true = false := by decide
    rw [searchLoop, DictArrays.whole, if_neg hthere, List.findIdx?_cons, Slot.matches]
    cases hkey : slot.key with
    | none =>
      dsimp only
      rw [if_neg (by decide), ← hnext]
      exact ih (i + 1)
    | some k =>
      dsimp only
      rw [if_neg hthere]
      by_cases hmatch : dictHash key = slot.hash ∧ key = k
      · rw [if_pos hmatch, if_pos (by rw [hmatch.1, hmatch.2]; simp)]
        simp
      · have hmiss : ¬ (dictHash key == slot.hash && key == k) = true := by
          rw [Bool.and_eq_true, beq_iff_eq, beq_iff_eq]
          exact hmatch
        rw [if_neg hmatch, if_neg hmiss, ← hnext]
        exact ih (i + 1)

theorem search_whole : (DictArrays.whole dict).search key = some (dict.find key) := by
  rw [DictArrays.search, searchLoop_whole]
  exact congrArg some Option.map_id'

theorem get_whole : (DictArrays.whole dict).get key = some (smfDictGet key dict) := by
  rw [DictArrays.get, search_whole, smfDictGet]
  cases dict.find key with
  | none => rfl
  | some i => rfl

theorem remove_whole :
    (DictArrays.whole dict).remove key = some (.whole (smfDictRemove key dict)) := by
  rw [DictArrays.remove, search_whole, smfDictRemove]
  cases dict.find key with
  | none => rfl
  | some i => rfl

/-- The arrays of this size can be doubled. -/
def GrowthAllocs.Suffice (allocs : GrowthAllocs) (size : Nat) : Prop :=
  (allocs.val = true ∧ allocs.key = true ∧ allocs.hash = true) ∧ 2 * (size * 8) ≤ INT_MAX

/-- The size fits an `int` after it has been doubled. -/
def fitsDoubled (size : Nat) : Bool := decide (2 * size ≤ INT_MAX)

theorem doubleArray_there (succeeds : Bool) (size : Nat) :
    doubleArray true succeeds size = some (succeeds && fitsDoubled size) := by
  rw [doubleArray, fitsDoubled]
  cases succeeds with
  | false => rfl
  | true =>
    by_cases hsize : 2 * size ≤ INT_MAX
    · rw [if_neg (by simpa using hsize), if_neg (by decide), decide_eq_true hsize]
      rfl
    · rw [if_pos (.inr (by omega)), decide_eq_false hsize]
      rfl

/-- The arrays that are there after the three calls. -/
def DictArrays.doubled (allocs : GrowthAllocs) (dict : Dict) : DictArrays where
  dict := dict
  key := allocs.key && fitsDoubled (dict.size * 8)
  val := allocs.val && fitsDoubled (dict.size * 8)
  hash := allocs.hash && fitsDoubled (dict.size * 4)

theorem double_whole :
    (DictArrays.whole dict).double allocs = some (.doubled allocs dict) := by
  rw [DictArrays.double]
  show (doubleArray true allocs.val (dict.size * 8)).bind _ = _
  rw [doubleArray_there]
  show (doubleArray true allocs.key (dict.size * 8)).bind _ = _
  rw [doubleArray_there]
  show (doubleArray true allocs.hash (dict.size * 4)).bind _ = _
  rw [doubleArray_there]
  rfl

/-- One of them is lost exactly when an allocation fails. -/
theorem doubled_lost_iff :
    ((DictArrays.doubled allocs dict).val = false ∨ (DictArrays.doubled allocs dict).key = false ∨
        (DictArrays.doubled allocs dict).hash = false) ↔ ¬ allocs.Suffice dict.size := by
  have hhash : fitsDoubled (dict.size * 8) = true → fitsDoubled (dict.size * 4) = true := by
    rw [fitsDoubled, fitsDoubled, decide_eq_true_eq, decide_eq_true_eq]
    omega
  have hfits : 2 * (dict.size * 8) ≤ INT_MAX ↔ fitsDoubled (dict.size * 8) = true := by
    rw [fitsDoubled, decide_eq_true_eq]
  rw [GrowthAllocs.Suffice, hfits, DictArrays.doubled]
  obtain ⟨aval, akey, ahash⟩ := allocs
  dsimp only
  cases hlong : fitsDoubled (dict.size * 8) with
  | false => simp
  | true =>
    rw [hhash hlong]
    cases aval <;> cases akey <;> cases ahash <;> simp

theorem doubled_whole (h : allocs.Suffice dict.size) :
    DictArrays.doubled allocs dict = .whole dict := by
  have hthere : ¬ ((DictArrays.doubled allocs dict).val = false ∨
      (DictArrays.doubled allocs dict).key = false ∨
      (DictArrays.doubled allocs dict).hash = false) := fun hlost => doubled_lost_iff.mp hlost h
  have hdict : (DictArrays.doubled allocs dict).dict = dict := rfl
  generalize DictArrays.doubled allocs dict = d at hthere hdict ⊢
  obtain ⟨dict', key, val, hash⟩ := d
  obtain rfl : dict' = dict := hdict
  cases key <;> cases val <;> cases hash <;> first | rfl | exact absurd (by simp) hthere

/-! ## `smf_dict_set` -/

/-- What the function has found before it adds a key. -/
def Dict.present (dict : Dict) (key : Bytes) : Option Nat :=
  if 0 < dict.n then dict.find key else none

theorem present_whole : (DictArrays.whole dict).present key = some (dict.present key) := by
  rw [DictArrays.present, search_whole, Dict.present]
  show (if 0 < dict.n then some (dict.find key) else some none) = _
  split
  · rfl
  · rfl

theorem insert_whole :
    (DictArrays.whole dict).insert key val =
      (freeSlot dict.n dict.slots).map fun i =>
        (0, .whole
          { n := dict.n + 1, slots := dict.slots.set i ⟨some key, some val, dictHash key⟩ }) := by
  rw [DictArrays.insert, DictArrays.whole, if_neg (by simp)]
  rfl

theorem set_missing (hmissing : dict.present key = none) :
    (DictArrays.whole dict).set allocs key val = (DictArrays.whole dict).add allocs key val := by
  rw [DictArrays.set, present_whole, hmissing]
  rfl

theorem add_full (hfull : dict.n = dict.size) :
    (DictArrays.whole dict).add allocs key val =
      if (DictArrays.doubled allocs dict).val = false ∨
          (DictArrays.doubled allocs dict).key = false ∨
          (DictArrays.doubled allocs dict).hash = false then
        some (-1, .doubled allocs dict)
      else (DictArrays.doubled allocs dict).enlarged.insert key val := by
  have hfull' : (DictArrays.whole dict).dict.n = (DictArrays.whole dict).dict.size := hfull
  rw [DictArrays.add, if_pos hfull', double_whole]
  rfl

/-- A growth that fails. -/
theorem set_whole_fails (hmissing : dict.present key = none) (hfull : dict.n = dict.size)
    (h : ¬ allocs.Suffice dict.size) :
    (DictArrays.whole dict).set allocs key val = some (-1, .doubled allocs dict) := by
  rw [set_missing hmissing, add_full hfull, if_pos (doubled_lost_iff.mpr h)]

theorem smfDictSet_added {slots : List Slot} (hmissing : dict.present key = none)
    (hgrown : dict.grown = some slots) :
    smfDictSet key val dict = (freeSlot dict.n slots).map fun i =>
      { n := dict.n + 1, slots := slots.set i ⟨some key, some val, dictHash key⟩ } := by
  have hsearch : (if 0 < dict.n then dict.find key else none) = none := hmissing
  rw [smfDictSet, hsearch]
  show (dict.grown.bind fun slots => (freeSlot dict.n slots).bind _) = _
  rw [hgrown, Option.bind_some, Option.map_eq_bind]
  rfl

/-- In every other call the arrays are those of `smfDictSet`. -/
theorem set_whole
    (h : ¬(dict.present key = none ∧ dict.n = dict.size ∧ ¬ allocs.Suffice dict.size)) :
    (DictArrays.whole dict).set allocs key val =
      (smfDictSet key val dict).map fun d => (0, .whole d) := by
  cases hpresent : dict.present key with
  | some i =>
    obtain ⟨hn, hfind⟩ := Option.ite_none_right_eq_some.mp hpresent
    rw [DictArrays.set, present_whole, hpresent, smfDictSet_found hfind hn]
    rfl
  | none =>
    rw [set_missing hpresent]
    by_cases hfull : dict.n = dict.size
    · have hsuffice : allocs.Suffice dict.size := by
        by_contra hnot
        exact h ⟨hpresent, hfull, hnot⟩
      have hgrown : dict.grown =
          some (dict.slots ++ List.replicate dict.slots.length .free) := by
        have hbytes : 2 * (dict.slots.length * 8) ≤ INT_MAX := hsuffice.2
        rw [Dict.grown, if_pos hfull, memDouble, if_pos hbytes]
      rw [add_full hfull, if_neg fun hlost => doubled_lost_iff.mp hlost hsuffice,
        doubled_whole hsuffice, smfDictSet_added hpresent hgrown, Option.map_map]
      exact @insert_whole ⟨dict.n, dict.slots ++ List.replicate dict.slots.length .free⟩ key val
    · have hfew : ¬ (DictArrays.whole dict).dict.n = (DictArrays.whole dict).dict.size := hfull
      have hgrown : dict.grown = some dict.slots := by rw [Dict.grown, if_neg hfull]
      rw [DictArrays.add, if_neg hfew, insert_whole, smfDictSet_added hpresent hgrown,
        Option.map_map]
      rfl

/-! ## A lost array -/

/-- The search for the key of the first slot comes to an array that has been lost. -/
theorem get_lost {d : DictArrays} {slot : Slot} {slots : List Slot}
    (hlost : d.val = false ∨ d.key = false ∨ d.hash = false) (hslots : d.dict.slots = slot :: slots)
    (hkey : slot.key = some key) (hmatch : slot.matches key = true) : d.get key = none := by
  have hsearch : d.search key =
      if d.key = false then none else if d.hash = false then none else some (some 0) := by
    have hboth : dictHash key = slot.hash ∧ key = key := by
      rw [Slot.matches, hkey] at hmatch
      simpa using hmatch
    rw [DictArrays.search, hslots, searchLoop, hkey]
    dsimp only
    rw [if_pos hboth]
  rw [DictArrays.get, hsearch]
  by_cases hk : d.key = false
  · rw [if_pos hk]
    rfl
  · by_cases hh : d.hash = false
    · rw [if_neg hk, if_pos hh]
      rfl
    · have hv : d.val = false := hlost.resolve_right fun hor => hor.elim hk hh
      rw [if_neg hk, if_neg hh]
      exact if_pos hv

theorem Dict.Represents.present_eq_none_iff (h : dict.Represents m) :
    dict.present key = none ↔ smfDictGet key dict = none := by
  rw [h.get_eq]
  constructor
  · exact h.unbound
  · intro hnone
    cases hpresent : dict.present key with
    | none => rfl
    | some i =>
      obtain ⟨b, hgraph, hheld, -, -⟩ := h
      obtain ⟨-, hfind⟩ := Option.ite_none_right_eq_some.mp hpresent
      obtain ⟨v, hmem, -⟩ := find_eq_some hheld hfind
      rw [(hgraph.mem key v).mp hmem] at hnone
      cases hnone

/-- The first slot of a full dictionary is taken. -/
theorem Dict.Represents.full (h : dict.Represents m) (hfull : dict.n = dict.size) :
    ∃ key val slots, dict.slots = Slot.entry (key, val) :: slots ∧
      smfDictGet key dict = some val := by
  obtain ⟨b, hgraph, hheld, hcard, hsize⟩ := id h
  have hpos : 0 < dict.size := Nat.pos_of_dvd_of_pos hsize (by decide)
  have hall : held .free dict.slots = (dict.slots : Multiset Slot) := by
    refine Multiset.eq_of_le_of_card_le (Multiset.filter_le _ _) ?_
    rw [hheld, Multiset.card_map, ← hcard, hfull]
    exact Nat.le_refl _
  obtain ⟨slot, slots, hslots⟩ := List.exists_cons_of_length_pos hpos
  have hmem : slot ∈ b.map Slot.entry := by
    rw [← hheld, hall, hslots]
    exact Multiset.mem_coe.mpr List.mem_cons_self
  obtain ⟨⟨key, val⟩, he, rfl⟩ := Multiset.mem_map.mp hmem
  exact ⟨key, val, slots, hslots, (h.get_eq key).trans ((hgraph.mem key val).mp he)⟩

/-- After a growth that fails a key that was bound is no longer found. -/
theorem doubled_loses (h : dict.Represents m) (hfull : dict.n = dict.size)
    (hfails : ¬ allocs.Suffice dict.size) :
    ∃ key val, (DictArrays.whole dict).get key = some (some val) ∧
      (DictArrays.doubled allocs dict).get key = none := by
  obtain ⟨key, val, slots, hslots, hget⟩ := h.full hfull
  refine ⟨key, val, get_whole.trans (congrArg some hget), ?_⟩
  exact get_lost (doubled_lost_iff.mpr hfails) hslots rfl (Slot.matches_entry.mpr rfl)

/-! ## Runs of calls -/

/-- A call, and which allocations succeed in it. -/
abbrev GrowthCall := DictCall × GrowthAllocs

/-- The result of a call, which `smf_dict_remove` does not have, and the arrays. -/
def DictArrays.call (d : DictArrays) (call : GrowthCall) : Option (Int × DictArrays) :=
  match call.1 with
  | .set key val => d.set call.2 key val
  | .remove key => (d.remove key).map fun d => (0, d)

/-- `P` holds of every call and the dictionary that it is made on. -/
def EveryCall (P : DictArrays → GrowthCall → Prop) : DictArrays → List GrowthCall → Prop
  | _, [] => True
  | d, call :: calls =>
    P d call ∧ ∀ ret d', d.call call = some (ret, d') → EveryCall P d' calls

/-- As many keys are bound, and every key to what it was bound to. -/
def SameBindings (d d' : DictArrays) : Prop :=
  d'.dict.n = d.dict.n ∧ ∀ key, d'.get key = d.get key

/-- The result `-1` leaves the bindings as they are. -/
def KeepsOnFailure (d : DictArrays) (call : GrowthCall) : Prop :=
  ∀ d', d.call call = some (-1, d') → SameBindings d d'

/-- A new key in a full dictionary, and one of the arrays cannot grow. -/
def GrowthFails (d : DictArrays) (call : GrowthCall) : Prop :=
  ∃ key val, call.1 = .set key val ∧ d.get key = some none ∧ d.dict.n = d.dict.size ∧
    ¬ call.2.Suffice d.dict.size

/-- A call that meets no failure does what it does in `Dict`. -/
theorem call_whole (h : dict.Represents m) {call : GrowthCall}
    (hgrows : ¬ GrowthFails (.whole dict) call) :
    (DictArrays.whole dict).call call = (call.1.run dict).map fun d => (0, .whole d) := by
  obtain ⟨call, allocs⟩ := call
  cases call with
  | remove key =>
    rw [DictArrays.call]
    show ((DictArrays.whole dict).remove key).map _ = _
    rw [remove_whole]
    rfl
  | set key val =>
    refine set_whole fun hfails => hgrows ⟨key, val, rfl, ?_, hfails.2⟩
    rw [get_whole, h.present_eq_none_iff.mp hfails.1]

/-- One step: the call keeps the bindings exactly when no growth fails. -/
theorem keepsOnFailure_call_iff (h : dict.Represents m) (call : GrowthCall) :
    KeepsOnFailure (.whole dict) call ↔ ¬ GrowthFails (.whole dict) call := by
  constructor
  · rintro hkeeps ⟨key, val, hcall, hget, hfull, hfails⟩
    have hmissing : dict.present key = none := by
      rw [get_whole] at hget
      exact h.present_eq_none_iff.mpr (Option.some.inj hget)
    have hrun : (DictArrays.whole dict).call call = some (-1, .doubled call.2 dict) := by
      rw [DictArrays.call, hcall]
      exact set_whole_fails hmissing hfull hfails
    obtain ⟨lost, val', hbound, hgone⟩ := doubled_loses h hfull hfails
    have hsame := (hkeeps _ hrun).2 lost
    rw [hbound, hgone] at hsame
    cases hsame
  · intro hgrows d' hrun
    rw [call_whole h hgrows] at hrun
    obtain ⟨d, -, hd⟩ := Option.map_eq_some_iff.mp hrun
    cases (Prod.mk.inj hd).1

theorem everyCall_iff (h : dict.Represents m) (calls : List GrowthCall) :
    EveryCall KeepsOnFailure (.whole dict) calls ↔
      EveryCall (fun d call => ¬ GrowthFails d call) (.whole dict) calls := by
  induction calls generalizing dict m with
  | nil => exact Iff.rfl
  | cons call calls ih =>
    rw [EveryCall, EveryCall, keepsOnFailure_call_iff h call]
    refine and_congr_right fun hgrows => forall_congr' fun ret => forall_congr' fun d' => ?_
    refine imp_congr_right fun hrun => ?_
    rw [call_whole h hgrows] at hrun
    obtain ⟨d, hd, hpair⟩ := Option.map_eq_some_iff.mp hrun
    obtain ⟨-, rfl⟩ := Prod.mk.inj hpair
    exact ih (represents_call h hd).1

end

/-- **Which runs keep the bindings where `smf_dict_set` fails**: those in which no growth fails.
Then the function never returns `-1`. -/
theorem keepsOnFailure_iff (calls : List GrowthCall) :
    EveryCall KeepsOnFailure (.whole smfDictNew) calls ↔
      EveryCall (fun d call => ¬ GrowthFails d call) (.whole smfDictNew) calls :=
  everyCall_iff represents_new calls

/-! ## A full dictionary -/

/-- The call that binds the key of `i` letters. -/
def fillCall (i : Nat) : GrowthCall := (.set (List.replicate i 97) [], ⟨true, true, true⟩)

/-- A dictionary that has been filled with the keys of fewer than `k` letters. -/
structure Filled (k : Nat) (dict : Dict) : Prop where
  represents : ∃ m, dict.Represents m ∧ ∀ j, k ≤ j → m (List.replicate j 97) = none
  n : dict.n = k
  size : dict.size = 128

theorem filled_new : Filled 0 smfDictNew where
  represents := ⟨_, represents_new, fun _ _ => rfl⟩
  n := rfl
  size := List.length_replicate

theorem Filled.next {k : Nat} {dict : Dict} (h : Filled k dict) (hk : k < 128) :
    ∃ dict', (DictArrays.whole dict).call (fillCall k) = some (0, .whole dict') ∧
      Filled (k + 1) dict' := by
  obtain ⟨m, hrep, hfree⟩ := h.represents
  have hroom : dict.n ≠ dict.size := by
    rw [h.n, h.size]
    omega
  have hgrows : ¬ GrowthFails (.whole dict) (fillCall k) := by
    rintro ⟨key, val, -, -, hfull, -⟩
    exact hroom hfull
  have hgrown : dict.grown = some dict.slots := by rw [Dict.grown, if_neg hroom]
  have hmissing : dict.present (List.replicate k 97) = none := by
    rw [hrep.present_eq_none_iff, hrep.get_eq]
    exact hfree k (Nat.le_refl k)
  obtain ⟨i, hprobe, -⟩ := hrep.freeSlot_eq_some hgrown
  have hset := @smfDictSet_missing dict (List.replicate k 97) [] _ _ hmissing hgrown hprobe
  refine ⟨_, (call_whole hrep hgrows).trans (congrArg _ hset), ?_⟩
  exact
    { represents := by
        refine ⟨_, (represents_set hrep hset).1, fun j hj => ?_⟩
        rw [Function.update_of_ne]
        · exact hfree j (by omega)
        · intro heq
          have hlength := congrArg List.length heq
          rw [List.length_replicate, List.length_replicate] at hlength
          omega
      n := congrArg (· + 1) h.n
      size := List.length_set.trans h.size }

theorem everyCall_fill {P : DictArrays → GrowthCall → Prop} {k : Nat} (hk : k ≤ 128)
    {calls : List GrowthCall}
    (h : EveryCall P (.whole smfDictNew) ((List.range k).map fillCall ++ calls)) :
    ∃ dict, Filled k dict ∧ EveryCall P (.whole dict) calls := by
  induction k generalizing calls with
  | zero => exact ⟨smfDictNew, filled_new, h⟩
  | succ k ih =>
    rw [List.range_succ, List.map_append, List.append_assoc] at h
    obtain ⟨dict, hfilled, hrest⟩ := ih (by omega) h
    obtain ⟨dict', hcall, hfilled'⟩ := hfilled.next (by omega)
    exact ⟨dict', hfilled', hrest.2 0 _ hcall⟩

/-- The first key behind `128` others, where the array of values cannot grow. -/
theorem not_keepsOnFailure :
    ¬ ∀ calls : List GrowthCall, EveryCall KeepsOnFailure (.whole smfDictNew) calls := by
  intro hall
  obtain ⟨dict, hfilled, hlast⟩ := everyCall_fill (Nat.le_refl 128)
    (hall ((List.range 128).map fillCall ++
      [(.set (List.replicate 128 97) [], ⟨false, true, true⟩)]))
  obtain ⟨m, hrep, hfree⟩ := hfilled.represents
  refine (keepsOnFailure_call_iff hrep _).mp hlast.1 ⟨_, _, rfl, ?_, ?_, ?_⟩
  · rw [get_whole, hrep.get_eq]
    exact congrArg some (hfree 128 (Nat.le_refl 128))
  · exact hfilled.n.trans hfilled.size.symm
  · rintro ⟨⟨hval, -⟩, -⟩
    cases hval

end Spmfilter
