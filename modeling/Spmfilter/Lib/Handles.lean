import Mathlib.Data.Finset.Basic
import Mathlib.Data.Finset.Image
import Mathlib.Data.List.Count
import Mathlib.Data.Option.Basic

/-!
# Handles

A library gives out handles, and a program uses each of them until it closes it.

* `run` goes through the operations of a program and says which handles are open after them.  It
  ends with `none` where one is used or closed that is not open.
* `run_count` : every handle has been closed as often as it was opened, but for those that are
  open at the end.
* `run_map` : operations go through under other names, with other handles open.
* `run_open` : in front of a use the handle has been opened once more than closed.
-/

namespace Handles

inductive Op (H : Type)
  | opens (h : H)
  | uses (h : H)
  | closes (h : H)
deriving DecidableEq

variable {H : Type} [DecidableEq H]

/-- The handles that are open after one operation. -/
def step (held : Finset H) : Op H → Option (Finset H)
  | .opens h => if h ∈ held then none else some (insert h held)
  | .uses h => if h ∈ held then some held else none
  | .closes h => if h ∈ held then some (held.erase h) else none

/-- The handles that are open after some operations. -/
def run (held : Finset H) (ops : List (Op H)) : Option (Finset H) := ops.foldlM step held

variable {held held' : Finset H} {ops more : List (Op H)} {h : H}

@[simp] theorem run_nil (held : Finset H) : run held [] = some held := rfl

theorem run_cons (held : Finset H) (op : Op H) (ops : List (Op H)) :
    run held (op :: ops) = (step held op).bind fun held => run held ops := rfl

theorem run_append (held : Finset H) (ops more : List (Op H)) :
    run held (ops ++ more) = (run held ops).bind fun held => run held more :=
  List.foldlM_append

theorem run_trans {held'' : Finset H} (hops : run held ops = some held')
    (hmore : run held' more = some held'') : run held (ops ++ more) = some held'' := by
  rw [run_append, hops]
  exact hmore

theorem run_opens (hh : h ∉ held) : run held [.opens h] = some (insert h held) := by
  rw [run_cons, step, if_neg hh]
  rfl

theorem run_uses (hh : h ∈ held) (ops : List (Op H)) (hops : ∀ op ∈ ops, op = .uses h) :
    run held ops = some held := by
  induction ops with
  | nil => rfl
  | cons op ops ih =>
    rw [List.forall_mem_cons] at hops
    rw [run_cons, hops.1, step, if_pos hh]
    exact ih hops.2

theorem run_closes (hh : h ∈ held) : run held [.closes h] = some (held.erase h) := by
  rw [run_cons, step, if_pos hh]
  rfl

/-- How often the operations have opened and closed a handle. -/
theorem run_count (h : H) (hrun : run held ops = some held') :
    (if h ∈ held then 1 else 0) + ops.count (.opens h) =
      ops.count (.closes h) + if h ∈ held' then 1 else 0 := by
  induction ops generalizing held with
  | nil =>
    obtain rfl := Option.some.inj hrun
    simp
  | cons op ops ih =>
    obtain ⟨mid, hstep, hrest⟩ := Option.bind_eq_some_iff.mp hrun
    have hcount := ih hrest
    rw [List.count_cons, List.count_cons]
    cases op with
    | opens g =>
      rw [step] at hstep
      split at hstep
      · cases hstep
      · rename_i hg
        obtain rfl := Option.some.inj hstep
        by_cases hgh : g = h
        · subst hgh
          simp [hg] at hcount ⊢
          omega
        · have hne : h ≠ g := Ne.symm hgh
          simp [hgh, hne] at hcount ⊢
          omega
    | uses g =>
      rw [step] at hstep
      split at hstep
      · obtain rfl := Option.some.inj hstep
        simpa using hcount
      · cases hstep
    | closes g =>
      rw [step] at hstep
      split at hstep
      · rename_i hg
        obtain rfl := Option.some.inj hstep
        by_cases hgh : g = h
        · subst hgh
          simp [hg] at hcount ⊢
          omega
        · have hne : h ≠ g := Ne.symm hgh
          simp [hgh, hne] at hcount ⊢
          omega
      · cases hstep

/-- A handle that is used is open there. -/
theorem run_open (hrun : run ∅ (ops ++ .uses h :: more) = some held') :
    ops.count (.opens h) = ops.count (.closes h) + 1 := by
  rw [run_append] at hrun
  obtain ⟨mid, hops, hrest⟩ := Option.bind_eq_some_iff.mp hrun
  have hcount := run_count h hops
  have hmem : h ∈ mid := by
    by_contra hnot
    rw [run_cons, step, if_neg hnot] at hrest
    cases hrest
  simpa [hmem] using hcount

/-! ## Names -/

section Names

variable {K : Type} [DecidableEq K]

def Op.map (f : K → H) : Op K → Op H
  | .opens k => .opens (f k)
  | .uses k => .uses (f k)
  | .closes k => .closes (f k)

/-- Operations on handles of their own go through whatever else is open. -/
theorem run_map {f : K → H} (hf : Function.Injective f) {others : Finset H}
    (hothers : ∀ k, f k ∉ others) {held held' : Finset K} {ops : List (Op K)}
    (hrun : run held ops = some held') :
    run (others ∪ held.image f) (ops.map (Op.map f)) = some (others ∪ held'.image f) := by
  have hmem : ∀ (k : K) (s : Finset K), f k ∈ others ∪ s.image f ↔ k ∈ s := fun k s => by
    rw [Finset.mem_union, or_iff_right (hothers k), hf.mem_finset_image]
  induction ops generalizing held with
  | nil =>
    obtain rfl := Option.some.inj hrun
    rfl
  | cons op ops ih =>
    obtain ⟨mid, hstep, hrest⟩ := Option.bind_eq_some_iff.mp hrun
    suffices hfirst : step (others ∪ held.image f) (op.map f) = some (others ∪ mid.image f) by
      rw [List.map_cons, run_cons, hfirst]
      exact ih hrest
    cases op with
    | opens k =>
      rw [step] at hstep
      split at hstep
      · cases hstep
      · rename_i hk
        obtain rfl := Option.some.inj hstep
        rw [Op.map, step, if_neg (mt (hmem k held).mp hk), Finset.image_insert,
          Finset.union_insert]
    | uses k =>
      rw [step] at hstep
      split at hstep
      · rename_i hk
        obtain rfl := Option.some.inj hstep
        rw [Op.map, step, if_pos ((hmem k held).mpr hk)]
      · cases hstep
    | closes k =>
      rw [step] at hstep
      split at hstep
      · rename_i hk
        obtain rfl := Option.some.inj hstep
        rw [Op.map, step, if_pos ((hmem k held).mpr hk), Finset.image_erase hf,
          Finset.erase_union_distrib, Finset.erase_eq_of_notMem (hothers k)]
      · cases hstep

end Names

end Handles
