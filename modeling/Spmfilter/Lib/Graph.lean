import Mathlib.Data.Multiset.AddSub
import Mathlib.Data.Multiset.Dedup
import Mathlib.Data.Multiset.MapFold
import Mathlib.Data.Set.Card
import Mathlib.Logic.Function.Basic

/-!
# The graph of a finite map

A map that binds finitely many keys is given by the multiset of its bindings.
What a data structure keeps is such a multiset, in whatever order, and what it
means is the map.

* `IsGraph b m`: `b` holds each binding of `m` once.
* `IsGraph.cons`, `IsGraph.rebind`, `IsGraph.erase`: binding a new key, binding a
  key again and unbinding it.
* `IsGraph.ncard`: the number of bound keys.
-/

namespace Graph

variable {K V : Type}

/-- `b` holds each binding of `m` once, and nothing else. -/
structure IsGraph (b : Multiset (K × V)) (m : K → Option V) : Prop where
  nodup : (b.map Prod.fst).Nodup
  mem : ∀ k v, (k, v) ∈ b ↔ m k = some v

variable {b : Multiset (K × V)} {m : K → Option V} {k : K} {v w : V}

theorem isGraph_empty : IsGraph (0 : Multiset (K × V)) fun _ => none where
  nodup := Multiset.nodup_zero
  mem := by simp

/-- A key without a value is not among the keys. -/
theorem IsGraph.notMem_keys (h : IsGraph b m) (hk : m k = none) : k ∉ b.map Prod.fst := by
  intro hmem
  obtain ⟨⟨k', v⟩, hb, rfl⟩ := Multiset.mem_map.mp hmem
  rw [(h.mem k' v).mp hb] at hk
  cases hk

theorem IsGraph.mem_keys (h : IsGraph b m) : k ∈ b.map Prod.fst ↔ (m k).isSome = true := by
  rw [Option.isSome_iff_exists, Multiset.mem_map]
  constructor
  · rintro ⟨⟨k', v⟩, hb, rfl⟩
    exact ⟨v, (h.mem k' v).mp hb⟩
  · rintro ⟨v, hv⟩
    exact ⟨(k, v), (h.mem k v).mpr hv, rfl⟩

section
variable [DecidableEq K]

/-- A key that has no value is bound. -/
theorem IsGraph.cons (h : IsGraph b m) (hk : m k = none) :
    IsGraph ((k, v) ::ₘ b) (Function.update m k (some v)) where
  nodup := by
    rw [Multiset.map_cons, Multiset.nodup_cons]
    exact ⟨h.notMem_keys hk, h.nodup⟩
  mem := by
    intro k' v'
    rw [Multiset.mem_cons, Prod.mk.injEq]
    by_cases hk' : k' = k
    · subst hk'
      have hout : (k', v') ∉ b := fun hb => by
        rw [h.mem, hk] at hb
        cases hb
      rw [Function.update_self, Option.some.injEq]
      simp only [hout, or_false, true_and]
      exact eq_comm
    · rw [Function.update_of_ne hk', ← h.mem]
      simp only [hk', false_and, false_or]

/-- A key that has a value is unbound. -/
theorem IsGraph.erase (h : IsGraph ((k, v) ::ₘ b) m) : IsGraph b (Function.update m k none) where
  nodup := by
    have hnodup := h.nodup
    rw [Multiset.map_cons, Multiset.nodup_cons] at hnodup
    exact hnodup.2
  mem := by
    intro k' v'
    have hnodup := h.nodup
    rw [Multiset.map_cons, Multiset.nodup_cons] at hnodup
    by_cases hk' : k' = k
    · subst hk'
      have hout : (k', v') ∉ b := fun hb =>
        hnodup.1 (Multiset.mem_map.mpr ⟨(k', v'), hb, rfl⟩)
      rw [Function.update_self]
      exact iff_of_false hout nofun
    · rw [Function.update_of_ne hk', ← h.mem, Multiset.mem_cons, Prod.mk.injEq]
      simp only [hk', false_and, false_or]

/-- A key that has a value gets another one. -/
theorem IsGraph.rebind (h : IsGraph ((k, v) ::ₘ b) m) :
    IsGraph ((k, w) ::ₘ b) (Function.update m k (some w)) := by
  have hcons := h.erase.cons (k := k) (v := w) (Function.update_self k none m)
  rwa [Function.update_idem] at hcons

end

/-- The bound keys are as many as the bindings. -/
theorem IsGraph.ncard (h : IsGraph b m) : {k | m k ≠ none}.ncard = b.card := by
  classical
  have hset : {k | m k ≠ none} = ((b.map Prod.fst).toFinset : Set K) := by
    ext k
    rw [Set.mem_ofPred_eq, Finset.mem_coe, Multiset.mem_toFinset, h.mem_keys,
      Option.isSome_iff_ne_none]
  rw [hset, Set.ncard_coe_finset, Multiset.toFinset_card_of_nodup h.nodup, Multiset.card_map]

end Graph
