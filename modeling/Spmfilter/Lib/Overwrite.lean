import Mathlib.Data.Option.Basic
import Mathlib.Logic.Function.Basic

/-!
# Writes to cells

The states of a system are made of cells, and each write is to one cell.  A write may fail,
and what it leaves in a cell that is filled does not depend on what was there.

* `Cells` are such a system.
* `Cells.run_held` : what a cell holds after a run is the last value written to it.
* `Cells.run_covered` : writes that the last one covers leave no trace.
* `Cells.lastTo_value_eq` : runs that lead to the same from two states have the same last value.
-/

namespace Overwrite

/-- Writes `W` to the cells `K` of the states `S`, which hold values `V`. -/
structure Cells (S W K V : Type) where
  apply : W → S → Option S
  cell : W → K
  value : W → V
  held : S → K → V
  /-- The states that are well formed. -/
  Sound : S → Prop
  /-- The values that a write replaces by its own. -/
  Filled : V → Prop
  apply_sound : ∀ {w s t}, Sound s → apply w s = some t → Sound t
  apply_same : ∀ {w s t}, Sound s → apply w s = some t → Filled (held s (cell w)) →
    held t (cell w) = value w
  apply_other : ∀ {w s t}, Sound s → apply w s = some t → ∀ k, k ≠ cell w → held t k = held s k
  value_filled : ∀ w, Filled (value w)

namespace Cells

variable {S W K V : Type} (c : Cells S W K V)

/-- The writes one after the other. -/
def run (s : S) (ws : List W) : Option S := ws.foldlM (fun s w => c.apply w s) s

theorem run_cons (s : S) (w : W) (ws : List W) :
    c.run s (w :: ws) = (c.apply w s).bind fun s => c.run s ws := rfl

theorem run_append (s : S) (ws more : List W) :
    c.run s (ws ++ more) = (c.run s ws).bind fun s => c.run s more :=
  List.foldlM_append

theorem run_singleton (s : S) (w : W) : c.run s [w] = c.apply w s := by
  rw [run_cons]
  exact Option.bind_fun_some _

theorem run_sound {s t : S} {ws : List W} (hs : c.Sound s) (h : c.run s ws = some t) :
    c.Sound t := by
  induction ws generalizing s with
  | nil => exact Option.some.inj h ▸ hs
  | cons w ws ih =>
    obtain ⟨u, hu, hrest⟩ := Option.bind_eq_some_iff.mp h
    exact ih (c.apply_sound hs hu) hrest

section LastWrite

variable [DecidableEq K]

/-- The last write to a cell. -/
def lastTo (k : K) (ws : List W) : Option W := (ws.filter fun w => c.cell w = k).getLast?

theorem lastTo_cons (k : K) (w : W) (ws : List W) :
    c.lastTo k (w :: ws) =
      if c.cell w = k then some ((c.lastTo k ws).getD w) else c.lastTo k ws := by
  by_cases hw : c.cell w = k
  · rw [if_pos hw, lastTo, List.filter_cons_of_pos (by simpa using hw), List.getLast?_cons, lastTo]
  · rw [if_neg hw, lastTo, List.filter_cons_of_neg (by simpa using hw), lastTo]

theorem lastTo_singleton (k : K) (w : W) :
    c.lastTo k [w] = if c.cell w = k then some w else none :=
  c.lastTo_cons k w []

theorem cell_of_lastTo {k : K} {ws : List W} {w : W} (h : c.lastTo k ws = some w) :
    w ∈ ws ∧ c.cell w = k := by
  obtain ⟨hmem, hcell⟩ := List.mem_filter.mp (List.mem_of_getLast? h)
  exact ⟨hmem, of_decide_eq_true hcell⟩

theorem lastTo_eq_none {k : K} {ws : List W} (h : c.lastTo k ws = none) :
    ∀ w ∈ ws, c.cell w ≠ k := by
  intro w hw hk
  have hnil := List.getLast?_eq_none_iff.mp h
  exact absurd (List.mem_filter.mpr ⟨hw, decide_eq_true hk⟩) (hnil ▸ List.not_mem_nil)

/-- A write behind which its cell is left alone. -/
theorem lastTo_append_cons {ws more : List W} {w : W} (hmore : ∀ v ∈ more, c.cell v ≠ c.cell w) :
    c.lastTo (c.cell w) (ws ++ w :: more) = some w := by
  have hrest : more.filter (fun v => c.cell v = c.cell w) = [] := by
    rw [List.filter_eq_nil_iff]
    intro v hv hsame
    exact hmore v hv (of_decide_eq_true hsame)
  rw [lastTo, List.filter_append, List.filter_cons_of_pos (by simp), hrest]
  exact List.getLast?_concat

/-- A filled cell holds the last value written to it, or what it held in front of the run. -/
theorem run_held {s t : S} {ws : List W} {k : K} (hs : c.Sound s) (hfilled : c.Filled (c.held s k))
    (h : c.run s ws = some t) :
    c.held t k = (c.lastTo k ws).elim (c.held s k) c.value := by
  induction ws generalizing s with
  | nil => exact congrArg (c.held · k) (Option.some.inj h).symm
  | cons w ws ih =>
    obtain ⟨u, hu, hrest⟩ := Option.bind_eq_some_iff.mp h
    have hu' := c.apply_sound hs hu
    rw [lastTo_cons]
    by_cases hw : c.cell w = k
    · have hheld : c.held u k = c.value w := by
        subst hw
        exact c.apply_same hs hu hfilled
      rw [if_pos hw, ih hu' (hheld ▸ c.value_filled w) hrest, hheld]
      cases c.lastTo k ws <;> rfl
    · have hheld : c.held u k = c.held s k := c.apply_other hs hu k (Ne.symm hw)
      rw [if_neg hw, ih hu' (hheld ▸ hfilled) hrest, hheld]

theorem run_filled {s t : S} {ws : List W} {k : K} (hs : c.Sound s)
    (hfilled : c.Filled (c.held s k)) (h : c.run s ws = some t) : c.Filled (c.held t k) := by
  rw [c.run_held hs hfilled h]
  cases c.lastTo k ws with
  | none => exact hfilled
  | some w => exact c.value_filled w

/-- Two states that differ in a cell tell whether two runs write the same to it. -/
theorem lastTo_value_eq {s s' t t' : S} {ws us : List W} {k : K} (hs : c.Sound s)
    (hs' : c.Sound s') (hfilled : c.Filled (c.held s k)) (hfilled' : c.Filled (c.held s' k))
    (hdiffer : c.held s k ≠ c.held s' k) (hws : c.run s ws = some t) (hus : c.run s us = some t)
    (hws' : c.run s' ws = some t') (hus' : c.run s' us = some t') :
    (c.lastTo k ws).map c.value = (c.lastTo k us).map c.value := by
  have hsame := (c.run_held hs hfilled hws).symm.trans (c.run_held hs hfilled hus)
  have hsame' := (c.run_held hs' hfilled' hws').symm.trans (c.run_held hs' hfilled' hus')
  cases hlast : c.lastTo k ws with
  | none =>
    cases hlast' : c.lastTo k us with
    | none => rfl
    | some u =>
      rw [hlast, hlast'] at hsame hsame'
      exact absurd (hsame.trans hsame'.symm) hdiffer
  | some w =>
    cases hlast' : c.lastTo k us with
    | none =>
      rw [hlast, hlast'] at hsame hsame'
      exact absurd (hsame.symm.trans hsame') hdiffer
    | some u =>
      rw [hlast, hlast'] at hsame
      exact congrArg some hsame

end LastWrite

/-- `v` leaves no trace in front of `w`. -/
def Covers (w v : W) : Prop :=
  ∀ s t, c.Sound s → c.apply w s = some t → ∃ u, c.apply v s = some u ∧ c.apply w u = some t

theorem run_covered {w : W} {ws : List W} (hcovers : ∀ v ∈ ws, c.Covers w v) {s t : S}
    (hs : c.Sound s) (h : c.apply w s = some t) : c.run s (ws ++ [w]) = some t := by
  induction ws generalizing s with
  | nil => exact (c.run_singleton s w).trans h
  | cons v ws ih =>
    rw [List.forall_mem_cons] at hcovers
    obtain ⟨u, hu, hw⟩ := hcovers.1 s t hs h
    rw [List.cons_append, run_cons, hu]
    exact ih hcovers.2 (c.apply_sound hs hu) hw

end Cells

end Overwrite
