import Mathlib.Data.List.Basic
import Mathlib.Data.Multiset.Filter
import Mathlib.Data.Option.Basic
import Mathlib.Data.Set.Insert

/-!
# Blocks on the heap

Blocks that are allocated and freed one by one.  A block is named by a number that no other
block has had before, so that a pointer to a freed block stays one.

* `alloc` gives a new block, and `free` takes one back; a block that is not there cannot be
  freed.
* `freeAll` frees some blocks, one after the other, and `freeAll_eq` says what is left.
* `Owns` splits the blocks between an owner and the rest of the program, and its lemmas say how
  a call on either side changes the split.
* `Block` are blocks some of which are strings, with `stringAt` and `strdup`.
* `Interface` are the calls that a caller with blocks of its own can make on a state.  `AdmitsAll`
  says which runs are in order, and `calls_run` is the induction over the calls of a run.
-/

namespace Heaps

structure Heap (α : Type) where
  block : Nat → Option α
  next : Nat
  fresh : ∀ p, next ≤ p → block p = none

namespace Heap

variable {α : Type}

def empty : Heap α := ⟨fun _ => none, 0, fun _ _ => rfl⟩

/-- The block is there. -/
def Live (h : Heap α) (p : Nat) : Prop := (h.block p).isSome = true

/-- `malloc`: the new block is `h.next`. -/
def alloc (h : Heap α) (x : α) : Heap α where
  block := fun p => if p = h.next then some x else h.block p
  next := h.next + 1
  fresh := fun p hp => by
    rw [if_neg (by omega)]
    exact h.fresh p (by omega)

/-- `free`. -/
def free (h : Heap α) (p : Nat) : Option (Heap α) :=
  if (h.block p).isSome then
    some
      { block := fun q => if q = p then none else h.block q
        next := h.next
        fresh := fun q hq => by split <;> [rfl; exact h.fresh q hq] }
  else none

/-- `free` of a pointer that may be NULL, behind a test for it. -/
def freeOpt (h : Heap α) : Option Nat → Option (Heap α)
  | none => some h
  | some p => h.free p

/-- `free` of some blocks in a row. -/
def freeAll (h : Heap α) (ps : List Nat) : Option (Heap α) :=
  ps.foldlM free h

section

variable {h h' : Heap α} {x : α} {p : Nat} {ps : List Nat}

theorem Live.lt (hp : h.Live p) : p < h.next := by
  by_contra hge
  rw [Live, h.fresh p (by omega)] at hp
  cases hp

theorem live_of_block (hp : h.block p = some x) : h.Live p := by
  rw [Live, hp]
  rfl

@[simp] theorem alloc_next (h : Heap α) (x : α) : (h.alloc x).next = h.next + 1 := rfl

theorem alloc_block_new (h : Heap α) (x : α) : (h.alloc x).block h.next = some x :=
  if_pos rfl

theorem alloc_block_old (hp : p < h.next) (x : α) : (h.alloc x).block p = h.block p :=
  if_neg (by omega)

theorem alloc_block (h : Heap α) (x : α) (p : Nat) :
    (h.alloc x).block p = if p = h.next then some x else h.block p := rfl

theorem free_of_live (hp : h.Live p) : ∃ h', h.free p = some h' ∧ h'.next = h.next ∧
    ∀ q, h'.block q = if q = p then none else h.block q :=
  ⟨_, if_pos hp, rfl, fun _ => rfl⟩

/-- A list of blocks can be freed when all are there and none is named twice. -/
theorem freeAll_eq (hlive : ∀ p ∈ ps, h.Live p) (hnodup : ps.Nodup) :
    ∃ h', h.freeAll ps = some h' ∧ h'.next = h.next ∧
      ∀ q, h'.block q = if q ∈ ps then none else h.block q := by
  induction ps generalizing h with
  | nil => exact ⟨h, rfl, rfl, fun q => (if_neg (List.not_mem_nil)).symm⟩
  | cons p ps ih =>
    obtain ⟨hnot, hnodup⟩ := List.nodup_cons.mp hnodup
    obtain ⟨h₁, hfree, hnext, hblock⟩ := free_of_live (hlive p List.mem_cons_self)
    have hrest : ∀ q ∈ ps, h₁.Live q := by
      intro q hq
      have hne : q ≠ p := fun heq => hnot (heq ▸ hq)
      rw [Live, hblock, if_neg hne]
      exact hlive q (List.mem_cons_of_mem _ hq)
    obtain ⟨h', hall, hnext', hblock'⟩ := ih hrest hnodup
    refine ⟨h', ?_, hnext'.trans hnext, fun q => ?_⟩
    · rw [freeAll, List.foldlM_cons, hfree]
      exact hall
    · rw [hblock', hblock]
      by_cases hq : q ∈ ps
      · rw [if_pos hq, if_pos (List.mem_cons_of_mem _ hq)]
      · rw [if_neg hq]
        by_cases hqp : q = p
        · rw [if_pos hqp, if_pos (hqp ▸ List.mem_cons_self)]
        · rw [if_neg hqp, if_neg (by rw [List.mem_cons]; tauto)]

end

/-! ## Who owns the blocks -/

/-- Every block that is there belongs to the owner, and then once, or to the others. -/
structure Owns (h : Heap α) (owned : Multiset Nat) (others : Set Nat) : Prop where
  nodup : owned.Nodup
  live : ∀ p, h.Live p ↔ p ∈ owned ∨ p ∈ others
  apart : ∀ p ∈ owned, p ∉ others

namespace Owns

variable {h : Heap α} {owned : Multiset Nat} {others : Set Nat} {p : Nat}

theorem next_notMem (ho : h.Owns owned others) : h.next ∉ owned ∧ h.next ∉ others := by
  have hnot : ¬ h.Live h.next := fun hlive => Nat.lt_irrefl _ hlive.lt
  exact not_or.mp fun how => hnot ((ho.live _).mpr how)

theorem alloc_live (x : α) (p : Nat) : (h.alloc x).Live p ↔ p = h.next ∨ h.Live p := by
  rw [Live, alloc_block]
  split_ifs with hp
  · exact iff_of_true rfl (.inl hp)
  · exact (or_iff_right hp).symm

theorem alloc (ho : h.Owns owned others) (x : α) :
    (h.alloc x).Owns (h.next ::ₘ owned) others where
  nodup := Multiset.nodup_cons.mpr ⟨ho.next_notMem.1, ho.nodup⟩
  live := fun p => by rw [alloc_live, ho.live, Multiset.mem_cons, or_assoc]
  apart := fun p hp => by
    rcases Multiset.mem_cons.mp hp with rfl | hp
    · exact ho.next_notMem.2
    · exact ho.apart p hp

theorem alloc_others (ho : h.Owns owned others) (x : α) :
    (h.alloc x).Owns owned (insert h.next others) where
  nodup := ho.nodup
  live := fun p => by rw [alloc_live, ho.live, Set.mem_insert_iff, or_left_comm]
  apart := fun p hp hmem => by
    rcases Set.mem_insert_iff.mp hmem with rfl | hmem
    · exact ho.next_notMem.1 hp
    · exact ho.apart p hp hmem

theorem free (ho : h.Owns owned others) (hp : p ∈ owned) :
    ∃ h', h.free p = some h' ∧ h'.next = h.next ∧
      (∀ q, h'.block q = if q = p then none else h.block q) ∧
      h'.Owns (owned.erase p) others := by
  obtain ⟨h', hfree, hnext, hblock⟩ := free_of_live ((ho.live p).mpr (.inl hp))
  refine ⟨h', hfree, hnext, hblock, ho.nodup.erase p, fun q => ?_, fun q hq => ?_⟩
  · rw [Live, hblock, ho.nodup.mem_erase_iff]
    split_ifs with hqp
    · refine iff_of_false Bool.false_ne_true ?_
      rintro (⟨hne, -⟩ | hother)
      · exact hne hqp
      · exact ho.apart p hp (hqp ▸ hother)
    · rw [← Live, ho.live, and_iff_right hqp]
  · exact ho.apart q (Multiset.mem_of_mem_erase hq)

theorem free_others (ho : h.Owns owned others) (hp : p ∈ others) :
    ∃ h', h.free p = some h' ∧ h'.next = h.next ∧
      (∀ q, h'.block q = if q = p then none else h.block q) ∧
      h'.Owns owned (others \ {p}) := by
  obtain ⟨h', hfree, hnext, hblock⟩ := free_of_live ((ho.live p).mpr (.inr hp))
  refine ⟨h', hfree, hnext, hblock, ho.nodup, fun q => ?_, fun q hq hmem => ?_⟩
  · rw [Live, hblock, Set.mem_sdiff, Set.mem_singleton_iff]
    split_ifs with hqp
    · refine iff_of_false Bool.false_ne_true ?_
      rintro (hown | ⟨-, hne⟩)
      · exact ho.apart q hown (hqp ▸ hp)
      · exact hne hqp
    · rw [← Live, ho.live, and_iff_left hqp]
  · exact ho.apart q hq hmem.1

/-- The owner frees all of its blocks. -/
theorem freeAll {ps : List Nat} (ho : h.Owns ps others) :
    ∃ h', h.freeAll ps = some h' ∧ (∀ p, h'.Live p ↔ p ∈ others) ∧
      ∀ p ∈ others, h'.block p = h.block p := by
  have hlive : ∀ p ∈ ps, h.Live p := fun p hp => (ho.live p).mpr (.inl hp)
  obtain ⟨h', hall, -, hblock⟩ := freeAll_eq hlive (Multiset.coe_nodup.mp ho.nodup)
  have hkept : ∀ p ∈ others, h'.block p = h.block p := by
    intro p hp
    have hnot : p ∉ ps := fun hown => ho.apart p (Multiset.mem_coe.mpr hown) hp
    rw [hblock, if_neg hnot]
  refine ⟨h', hall, fun p => ?_, hkept⟩
  by_cases hp : p ∈ ps
  · rw [Live, hblock, if_pos hp]
    exact iff_of_false Bool.false_ne_true (ho.apart p hp)
  · rw [Live, hblock, if_neg hp, ← Live, ho.live]
    exact or_iff_right hp

end Owns

end Heap

/-! ## Strings -/

/-- What a block holds. -/
inductive Block (σ κ : Type) where
  | string (s : σ)
  | object (x : κ)
deriving DecidableEq

section Strings

variable {σ κ : Type} {heap heap' : Heap (Block σ κ)} {p : Nat} {s : σ} {f : σ → σ}

/-- The string that a pointer points to. -/
def stringAt (heap : Heap (Block σ κ)) (p : Nat) : Option σ :=
  match heap.block p with
  | some (.string s) => some s
  | _ => none

/-- `strdup(p)`, with a function that is applied on the way. -/
def strdupWith (f : σ → σ) (heap : Heap (Block σ κ)) (p : Nat) :
    Option (Nat × Heap (Block σ κ)) :=
  (stringAt heap p).map fun s => (heap.next, heap.alloc (.string (f s)))

def strdup (heap : Heap (Block σ κ)) (p : Nat) : Option (Nat × Heap (Block σ κ)) :=
  strdupWith (fun s => s) heap p

theorem stringAt_eq_some : stringAt heap p = some s ↔ heap.block p = some (.string s) := by
  unfold stringAt
  split
  · rename_i s' hblock
    rw [hblock]
    simp
  · rename_i hblock
    exact iff_of_false (by simp) fun h => hblock s h

theorem stringAt_congr (h : heap'.block p = heap.block p) :
    stringAt heap' p = stringAt heap p := by
  unfold stringAt
  rw [h]

theorem live_of_stringAt (h : (stringAt heap p).isSome = true) : heap.Live p := by
  obtain ⟨s, hs⟩ := Option.isSome_iff_exists.mp h
  exact Heap.live_of_block (stringAt_eq_some.mp hs)

theorem lt_of_stringAt (h : stringAt heap p = some s) : p < heap.next :=
  (Heap.live_of_block (stringAt_eq_some.mp h)).lt

theorem strdupWith_some (h : stringAt heap p = some s) :
    strdupWith f heap p = some (heap.next, heap.alloc (.string (f s))) := by
  rw [strdupWith, h]
  rfl

theorem strdupWith_none (h : stringAt heap p = none) : strdupWith f heap p = none := by
  rw [strdupWith, h]
  rfl

theorem strdup_some (h : stringAt heap p = some s) :
    strdup heap p = some (heap.next, heap.alloc (.string s)) :=
  strdupWith_some h

theorem strdup_none (h : stringAt heap p = none) : strdup heap p = none :=
  strdupWith_none h

end Strings

/-! ## Runs of calls -/

/-- The calls on a state, by a caller that has blocks of its own.  `call` is `none` where a block
that is not there is read or freed. -/
structure Interface (S C E : Type) where
  call : S → C → Option S
  /-- The change that a call should make. -/
  effect : S → C → Option E
  /-- The blocks of the caller after a call. -/
  callers : S → Set Nat → C → Set Nat
  /-- The caller may make this call. -/
  Admits : S → C → Prop

namespace Interface

variable {S C E : Type} (I : Interface S C E)

def calls (m : S) (cs : List C) : Option S := cs.foldlM I.call m

/-- The changes of some calls. -/
def effects (m : S) : List C → List E
  | [] => []
  | c :: cs => (I.effect m c).toList ++ ((I.call m c).map fun m => effects m cs).getD []

/-- The blocks of the caller after some calls. -/
def callersAfter (m : S) (mine : Set Nat) : List C → Set Nat
  | [] => mine
  | c :: cs => ((I.call m c).map fun m' => callersAfter m' (I.callers m mine c) cs).getD mine

/-- The caller may make these calls one after the other. -/
def AdmitsAll (m : S) : List C → Prop
  | [] => True
  | c :: cs => I.Admits m c ∧ ∀ m', I.call m c = some m' → AdmitsAll m' cs

instance decidableAdmitsAll [∀ m c, Decidable (I.Admits m c)] :
    (m : S) → (cs : List C) → Decidable (I.AdmitsAll m cs)
  | _, [] => inferInstanceAs (Decidable True)
  | m, c :: cs =>
    match hcall : I.call m c with
    | none =>
      decidable_of_iff (I.Admits m c)
        ⟨fun h => ⟨h, fun m' h' => absurd (hcall.symm.trans h') (Option.some_ne_none m').symm⟩,
          And.left⟩
    | some m₁ =>
      have : Decidable (I.AdmitsAll m₁ cs) := decidableAdmitsAll m₁ cs
      decidable_of_iff (I.Admits m c ∧ I.AdmitsAll m₁ cs)
        ⟨fun h => ⟨h.1, fun _ h' => Option.some.inj (hcall.symm.trans h') ▸ h.2⟩,
          fun h => ⟨h.1, h.2 m₁ hcall⟩⟩

/-- **A run of calls that are in order.**  `Inv k` holds in front of the last `k` calls, and
`change` is what an effect does to what the state says. -/
theorem calls_run {V : Type} (view : S → V) (change : V → E → Option V)
    (Inv : Nat → S → Set Nat → Prop)
    (hstep : ∀ k m mine c, Inv (k + 1) m mine → I.Admits m c →
      ∃ m', I.call m c = some m' ∧ Inv k m' (I.callers m mine c) ∧
        (I.effect m c).toList.foldlM change (view m) = some (view m'))
    {cs : List C} {m : S} {mine : Set Nat} (hm : Inv cs.length m mine)
    (hcs : I.AdmitsAll m cs) :
    ∃ m', I.calls m cs = some m' ∧ Inv 0 m' (I.callersAfter m mine cs) ∧
      (I.effects m cs).foldlM change (view m) = some (view m') := by
  induction cs generalizing m mine with
  | nil => exact ⟨m, rfl, hm, rfl⟩
  | cons c cs ih =>
    obtain ⟨hc, hrest⟩ := hcs
    obtain ⟨m₁, hcall, hm₁, hview⟩ := hstep cs.length m mine c hm hc
    obtain ⟨m', hcalls, hm', hview'⟩ := ih hm₁ (hrest m₁ hcall)
    refine ⟨m', ?_, ?_, ?_⟩
    · rw [calls, List.foldlM_cons, hcall]
      exact hcalls
    · rw [callersAfter, hcall]
      exact hm'
    · rw [effects, hcall, List.foldlM_append, hview]
      exact hview'

end Interface

end Heaps
