import Mathlib.Data.Option.Basic
import Mathlib.Data.List.Basic

/-!
# Steps that look at one cell

The states of a system are made of cells, and each step reads and changes one cell alone.  It may
fail, which depends on that cell as well.  So a run is the product of its parts, one for each cell.

* `System` are such steps.  A state has room for a number of them.
* `System.run_held` : what a cell holds after a run is what the steps on it make of it.
* `System.run_some_iff` : a run goes through when its part on each cell does.
* `System.run_rel` : runs that have the same part on each cell come to the same.
-/

namespace Locality

/-- Steps `W` on the cells `K` of the states `S`, which hold values `V`. -/
structure System (S W K V : Type) where
  apply : W → S → Option S
  cell : W → K
  held : S → K → V
  /-- What a step makes of its cell. -/
  step : W → V → Option V
  /-- The states that are well formed, with room for so many steps. -/
  Sound : Nat → S → Prop
  apply_sound : ∀ {n w s t}, Sound (n + 1) s → apply w s = some t → Sound n t
  apply_cell : ∀ {n w s}, Sound (n + 1) s →
    (apply w s).map (held · (cell w)) = step w (held s (cell w))
  apply_other : ∀ {n w s t}, Sound (n + 1) s → apply w s = some t →
    ∀ k, k ≠ cell w → held t k = held s k

namespace System

variable {S W K V : Type} [DecidableEq K] (c : System S W K V)

/-- The steps one after the other. -/
def run (s : S) (ws : List W) : Option S := ws.foldlM (fun s w => c.apply w s) s

/-- The steps on one cell. -/
def on (k : K) (ws : List W) : List W := ws.filter fun w => c.cell w = k

/-- The part of a run on one cell. -/
def runOn (k : K) (v : V) (ws : List W) : Option V :=
  (c.on k ws).foldlM (fun v w => c.step w v) v

theorem runOn_self (w : W) (v : V) (ws : List W) :
    c.runOn (c.cell w) v (w :: ws) = (c.step w v).bind fun v => c.runOn (c.cell w) v ws := by
  rw [runOn, on, List.filter_cons_of_pos (by simp), List.foldlM_cons]
  rfl

theorem runOn_other {k : K} {w : W} (hw : c.cell w ≠ k) (v : V) (ws : List W) :
    c.runOn k v (w :: ws) = c.runOn k v ws := by
  rw [runOn, on, List.filter_cons_of_neg (by simpa using hw)]
  rfl

/-- A step that goes through leaves the rest of each part. -/
theorem runOn_apply {n : Nat} {s t : S} {w : W} (hs : c.Sound (n + 1) s)
    (h : c.apply w s = some t) (k : K) (ws : List W) :
    c.runOn k (c.held s k) (w :: ws) = c.runOn k (c.held t k) ws := by
  by_cases hw : c.cell w = k
  · subst hw
    have hstep := c.apply_cell (w := w) hs
    rw [h, Option.map_some] at hstep
    rw [runOn_self, ← hstep, Option.bind_some]
  · rw [c.runOn_other hw, c.apply_other hs h k (Ne.symm hw)]

theorem run_held {s t : S} {ws : List W} (hs : c.Sound ws.length s) (h : c.run s ws = some t)
    (k : K) : c.runOn k (c.held s k) ws = some (c.held t k) := by
  induction ws generalizing s with
  | nil =>
    obtain rfl := Option.some.inj h
    rfl
  | cons w ws ih =>
    obtain ⟨u, hu, hrest⟩ := Option.bind_eq_some_iff.mp h
    rw [c.runOn_apply hs hu]
    exact ih (c.apply_sound hs hu) hrest

/-- Where all the parts go through nothing stops the run. -/
theorem run_some {s : S} {ws : List W} (hs : c.Sound ws.length s)
    (h : ∀ k, ∃ v, c.runOn k (c.held s k) ws = some v) : ∃ t, c.run s ws = some t := by
  induction ws generalizing s with
  | nil => exact ⟨s, rfl⟩
  | cons w ws ih =>
    obtain ⟨v, hv⟩ := h (c.cell w)
    rw [runOn_self] at hv
    obtain ⟨v', hstep, -⟩ := Option.bind_eq_some_iff.mp hv
    rw [← c.apply_cell hs] at hstep
    obtain ⟨u, hu, -⟩ := Option.map_eq_some_iff.mp hstep
    obtain ⟨t, ht⟩ := ih (c.apply_sound hs hu) fun k => by
      rw [← c.runOn_apply hs hu]
      exact h k
    refine ⟨t, ?_⟩
    rw [run, List.foldlM_cons, hu]
    exact ht

theorem run_some_iff {s : S} {ws : List W} (hs : c.Sound ws.length s) :
    (∃ t, c.run s ws = some t) ↔ ∀ k, ∃ v, c.runOn k (c.held s k) ws = some v :=
  ⟨fun ⟨_, h⟩ k => ⟨_, c.run_held hs h k⟩, c.run_some hs⟩

/-- The order of steps on different cells makes no difference. -/
theorem run_rel {s s' : S} {ws us : List W} (hs : c.Sound ws.length s)
    (hs' : c.Sound us.length s') (hheld : c.held s = c.held s')
    (hsame : ∀ k, c.on k ws = c.on k us) :
    Option.Rel (fun t t' => c.held t = c.held t') (c.run s ws) (c.run s' us) := by
  have hpart : ∀ k, c.runOn k (c.held s k) ws = c.runOn k (c.held s' k) us := fun k => by
    rw [runOn, runOn, hsame k, hheld]
  have hgoes : (∃ t, c.run s ws = some t) ↔ ∃ t', c.run s' us = some t' := by
    rw [c.run_some_iff hs, c.run_some_iff hs']
    exact forall_congr' fun k => by rw [hpart k]
  cases hws : c.run s ws with
  | none =>
    cases hus : c.run s' us with
    | none => exact .none
    | some t' =>
      obtain ⟨t, ht⟩ := hgoes.mpr ⟨t', hus⟩
      rw [hws] at ht
      cases ht
  | some t =>
    obtain ⟨t', hus⟩ := hgoes.mp ⟨t, hws⟩
    rw [hus]
    refine .some (funext fun k => ?_)
    have hheld := (c.run_held hs hws k).symm.trans (hpart k)
    exact Option.some.inj (hheld.trans (c.run_held hs' hus k))

end System

end Locality
