import Mathlib.Data.Multiset.Filter
import Mathlib.Data.Multiset.AddSub
import Mathlib.Data.Multiset.Replicate

/-!
# Slot arrays

An array of slots, each free or holding one entry.  An entry goes into the
first free slot, and is taken out of the first slot that holds it.  What the
array holds is a multiset: which slot an entry sits in does not matter.

* `held_put` and `held_remove`: putting adds an entry, removing erases one.
* `held_put_le`: a full array drops the entry.
* `free_mem_of_card_lt`: an array that holds less than its length has room.
* `held_set`, `held_set_free`, `held_clear`: the same for a slot given by its index.
* `probe_isSome`: a search that goes around the array finds a free slot if there is
  one.
-/

namespace Slots

variable {α : Type} [DecidableEq α] {free e : α} {slots : List α}

/-- The first free slot takes `e`.  A full array stays as it is. -/
def put (free e : α) (slots : List α) : List α := slots.replace free e

/-- The first slot that holds `e` is free again. -/
def remove (free e : α) (slots : List α) : List α := slots.replace e free

/-- What the slots hold. -/
def held (free : α) (slots : List α) : Multiset α := (slots : Multiset α).filter (· ≠ free)

@[simp] theorem length_put : (put free e slots).length = slots.length :=
  List.length_replace

@[simp] theorem length_remove : (remove free e slots).length = slots.length :=
  List.length_replace

@[simp] theorem held_free : held free (free :: slots) = held free slots := by
  rw [held, ← Multiset.cons_coe,
    Multiset.filter_cons_of_neg (p := (· ≠ free)) _ (not_not_intro rfl), held]

@[simp] theorem held_cons (he : e ≠ free) : held free (e :: slots) = e ::ₘ held free slots := by
  rw [held, ← Multiset.cons_coe, Multiset.filter_cons_of_pos (p := (· ≠ free)) _ he, held]

@[simp] theorem held_replicate (n : Nat) : held free (List.replicate n free) = 0 := by
  induction n with
  | zero => rfl
  | succ n ih => rw [List.replicate_succ, held_free, ih]

theorem mem_held {x : α} : x ∈ held free slots ↔ x ∈ slots ∧ x ≠ free := by
  simp [held]

/-- With a free slot, the entry joins the others. -/
theorem held_put (he : e ≠ free) (h : free ∈ slots) :
    held free (put free e slots) = e ::ₘ held free slots := by
  induction slots with
  | nil => cases h
  | cons s slots ih =>
    by_cases hs : s = free
    · subst hs
      rw [put, List.replace_cons_self, held_cons he, held_free]
    · have hmem : free ∈ slots := (List.mem_cons.mp h).resolve_left fun h => hs h.symm
      have hput : put free e (s :: slots) = s :: put free e slots := by
        rw [put, List.replace_cons, beq_eq_false_iff_ne.mpr (Ne.symm hs), put]
      rw [hput, held_cons hs, held_cons hs, ih hmem, Multiset.cons_swap]

/-- A full array drops the entry. -/
theorem put_full (h : free ∉ slots) : put free e slots = slots :=
  List.replace_of_not_mem h

/-- Full or not, the array gains nothing but the entry. -/
theorem held_put_le (he : e ≠ free) :
    held free (put free e slots) ≤ e ::ₘ held free slots := by
  by_cases h : free ∈ slots
  · rw [held_put he h]
  · rw [put_full h]
    exact Multiset.le_cons_self _ _

/-- Removing an entry erases one copy of it. -/
theorem held_remove (he : e ≠ free) :
    held free (remove free e slots) = (held free slots).erase e := by
  induction slots with
  | nil => rfl
  | cons s slots ih =>
    by_cases hs : s = e
    · subst hs
      rw [remove, List.replace_cons_self, held_free, held_cons he, Multiset.erase_cons_head]
    · have hremove : remove free e (s :: slots) = s :: remove free e slots := by
        rw [remove, List.replace_cons, beq_eq_false_iff_ne.mpr (Ne.symm hs), remove]
      rw [hremove]
      by_cases hf : s = free
      · rw [hf, held_free, held_free, ih]
      · rw [held_cons hf, held_cons hf, ih, Multiset.erase_cons_tail _ hs]

/-- An array that holds less than its length has a free slot. -/
theorem free_mem_of_card_lt (h : (held free slots).card < slots.length) : free ∈ slots := by
  by_contra hfree
  have hall : held free slots = slots :=
    Multiset.filter_eq_self.mpr fun x hx hxf => hfree (hxf ▸ Multiset.mem_coe.mp hx)
  rw [hall, Multiset.coe_card] at h
  exact Nat.lt_irrefl _ h

/-! ## Slots by their index -/

omit [DecidableEq α] in
/-- Setting a slot trades what was in it for the new entry. -/
theorem coe_set {i : Nat} {x : α} (h : slots[i]? = some x) :
    x ::ₘ (slots.set i e : Multiset α) = e ::ₘ (slots : Multiset α) := by
  induction slots generalizing i with
  | nil => cases h
  | cons s slots ih =>
    cases i with
    | zero =>
      obtain rfl : s = x := Option.some.inj h
      show s ::ₘ e ::ₘ (slots : Multiset α) = e ::ₘ s ::ₘ (slots : Multiset α)
      exact Multiset.cons_swap _ _ _
    | succ i =>
      rw [List.set_cons_succ, ← Multiset.cons_coe, ← Multiset.cons_coe, Multiset.cons_swap,
        ih (by simpa using h), Multiset.cons_swap]

/-- An entry goes into a free slot. -/
theorem held_set_free {i : Nat} (he : e ≠ free) (h : slots[i]? = some free) :
    held free (slots.set i e) = e ::ₘ held free slots := by
  have hset := congrArg (Multiset.filter (· ≠ free)) (coe_set (e := e) h)
  rwa [Multiset.filter_cons_of_neg (p := (· ≠ free)) _ (not_not_intro rfl),
    Multiset.filter_cons_of_pos (p := (· ≠ free)) _ he] at hset

/-- An entry goes into a slot that holds another. -/
theorem held_set {i : Nat} {x : α} (he : e ≠ free) (hx : x ≠ free) (h : slots[i]? = some x) :
    x ::ₘ held free (slots.set i e) = e ::ₘ held free slots := by
  have hset := congrArg (Multiset.filter (· ≠ free)) (coe_set (e := e) h)
  rwa [Multiset.filter_cons_of_pos (p := (· ≠ free)) _ hx,
    Multiset.filter_cons_of_pos (p := (· ≠ free)) _ he] at hset

/-- A slot is cleared. -/
theorem held_clear {i : Nat} {x : α} (hx : x ≠ free) (h : slots[i]? = some x) :
    x ::ₘ held free (slots.set i free) = held free slots := by
  have hset := congrArg (Multiset.filter (· ≠ free)) (coe_set (e := free) h)
  rwa [Multiset.filter_cons_of_pos (p := (· ≠ free)) _ hx,
    Multiset.filter_cons_of_neg (p := (· ≠ free)) _ (not_not_intro rfl)] at hset

theorem held_append (more : List α) :
    held free (slots ++ more) = held free slots + held free more := by
  rw [held, ← Multiset.coe_add, Multiset.filter_add, held, held]

/-! ## Going around the array -/

/-- Look for a free slot from index `i` on, and on from the first slot after the last
one.  The search ends with `none` outside of the array, or after `fuel` slots. -/
def probe (isFree : α → Bool) (slots : List α) : Nat → Nat → Option Nat
  | 0, _ => none
  | fuel + 1, i =>
    slots[i]?.bind fun s =>
      if isFree s then some i
      else probe isFree slots fuel (if i + 1 = slots.length then 0 else i + 1)

section
variable {isFree : α → Bool} {fuel i j : Nat}

omit [DecidableEq α] in
/-- What the search finds is a free slot of the array. -/
theorem probe_eq_some (h : probe isFree slots fuel i = some j) :
    ∃ s, slots[j]? = some s ∧ isFree s = true := by
  induction fuel generalizing i with
  | zero => cases h
  | succ fuel ih =>
    obtain ⟨s, hs, h⟩ := Option.bind_eq_some_iff.mp h
    split at h
    · rename_i hfree
      obtain rfl := Option.some.inj h
      exact ⟨s, hs, hfree⟩
    · exact ih h

omit [DecidableEq α] in
/-- Slots that stand for others are searched like those. -/
theorem probe_map {β : Type} {f : β → α} {isFreeOf : β → Bool} {l : List β}
    (h : ∀ s ∈ l, isFree (f s) = isFreeOf s) :
    probe isFree (l.map f) fuel i = probe isFreeOf l fuel i := by
  induction fuel generalizing i with
  | zero => rfl
  | succ fuel ih =>
    rw [probe, probe, List.getElem?_map, List.length_map]
    cases hs : l[i]? with
    | none => rfl
    | some s =>
      rw [Option.map_some, Option.bind_some, Option.bind_some, h s (List.mem_of_getElem? hs), ih]

/-- How many slots lie between `i` and `j`, going around. -/
def around (n i j : Nat) : Nat := if i ≤ j then j - i else n - i + j

omit [DecidableEq α] in
theorem probe_isSome_of_around {s : α} (hj : slots[j]? = some s) (hfree : isFree s = true)
    (hi : i < slots.length) (hfuel : around slots.length i j < fuel) :
    (probe isFree slots fuel i).isSome := by
  induction fuel generalizing i with
  | zero => exact absurd hfuel (Nat.not_lt_zero _)
  | succ fuel ih =>
    have hjlt : j < slots.length := (List.getElem?_eq_some_iff.mp hj).1
    rw [probe, List.getElem?_eq_getElem hi, Option.bind_some]
    by_cases hslot : isFree slots[i] = true
    · rw [if_pos hslot]
      rfl
    · have hne : i ≠ j := by
        rintro rfl
        rw [List.getElem?_eq_getElem hi, Option.some.injEq] at hj
        exact hslot (hj ▸ hfree)
      rw [if_neg hslot]
      unfold around at hfuel ih
      split
      · apply ih (by omega)
        rw [if_pos (Nat.zero_le _)]
        split at hfuel <;> omega
      · apply ih (by omega)
        split at hfuel <;> split <;> omega

omit [DecidableEq α] in
/-- One round is enough to find a free slot. -/
theorem probe_isSome {s : α} (hs : s ∈ slots) (hfree : isFree s = true) (hi : i < slots.length) :
    (probe isFree slots slots.length i).isSome := by
  obtain ⟨j, hj⟩ := List.getElem?_of_mem hs
  have hjlt : j < slots.length := (List.getElem?_eq_some_iff.mp hj).1
  apply probe_isSome_of_around hj hfree hi
  unfold around
  split <;> omega

end

end Slots
