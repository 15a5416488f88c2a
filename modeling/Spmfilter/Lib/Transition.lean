import Mathlib.Logic.Relation

/-!
# Transition systems

A system is given by what one event does to a state; `none` means that the
event cannot happen there.  A run is any sequence of events, and a constraint
on the steps picks out the runs whose steps all meet it.

* `RunsIn.invariant` and `Runs.invariant` lift a step lemma to every state a
  run reaches.
* `RunsIn.of_events` and `Runs.of_events` turn a list of events that goes
  through into a run.
* `tally` adds up along such a list, and `events_cons` takes its first event off.
-/

namespace Transition

variable {A S : Type} (step : A → S → Option S)

/-- Some event leads from `s` to `t`. -/
def Step (s t : S) : Prop := ∃ a, step a s = some t

/-- A run from `s` to `t` whose steps all meet `C`. -/
def RunsIn (C : S → S → Prop) : S → S → Prop :=
  Relation.ReflTransGen fun s t => Step step s t ∧ C s t

/-- A run from `s` to `t`. -/
def Runs : S → S → Prop := Relation.ReflTransGen (Step step)

/-- Let events happen one after another, as long as the steps meet `C`. -/
def events (C : S → S → Prop) [∀ s t, Decidable (C s t)] (s : S) : List A → Option S
  | [] => some s
  | a :: as => (step a s).bind fun t => if C s t then events C t as else none

/-- How much `f` adds up to along a list of events. -/
def tally (f : A → S → Nat) (s : S) : List A → Nat
  | [] => 0
  | a :: as => f a s + ((step a s).map fun t => tally f t as).getD 0

variable {step} {C : S → S → Prop} {s t u : S}

/-- What every step that meets `C` preserves holds all along a run under `C`. -/
theorem RunsIn.invariant {I : S → Prop}
    (hstep : ∀ s t, I s → Step step s t → C s t → I t) (h0 : I s)
    (h : RunsIn step C s t) : I t := by
  induction h with
  | refl => exact h0
  | tail _ hlast ih => exact hstep _ _ ih hlast.1 hlast.2

/-- A run under a constraint is a run. -/
theorem RunsIn.runs (h : RunsIn step C s t) : Runs step s t := by
  induction h with
  | refl => exact Relation.ReflTransGen.refl
  | tail _ hlast ih => exact Relation.ReflTransGen.tail ih hlast.1

/-- What every step preserves holds all along a run. -/
theorem Runs.invariant {I : S → Prop} (hstep : ∀ s t, I s → Step step s t → I t)
    (h0 : I s) (h : Runs step s t) : I t := by
  induction h with
  | refl => exact h0
  | tail _ hlast ih => exact hstep _ _ ih hlast

theorem Runs.refl (s : S) : Runs step s s := Relation.ReflTransGen.refl

theorem Runs.tail {a : A} (h : Runs step s t) (hlast : step a t = some u) : Runs step s u :=
  Relation.ReflTransGen.tail h ⟨a, hlast⟩

/-- Events that go through under a constraint make a run under it. -/
theorem RunsIn.of_events [∀ s t, Decidable (C s t)] {l : List A}
    (h : events step C s l = some t) : RunsIn step C s t := by
  induction l generalizing s with
  | nil =>
    obtain rfl : s = t := Option.some.inj h
    exact Relation.ReflTransGen.refl
  | cons a l ih =>
    obtain ⟨s1, hfirst, hrest⟩ := Option.bind_eq_some_iff.mp h
    by_cases hC : C s s1
    · rw [if_pos hC] at hrest
      exact Relation.ReflTransGen.head ⟨⟨a, hfirst⟩, hC⟩ (ih hrest)
    · rw [if_neg hC] at hrest
      cases hrest

/-- The first event leads to a state from which the others go through. -/
theorem events_cons {a : A} {l : List A}
    (h : events step (fun _ _ => True) s (a :: l) = some t) :
    ∃ s1, step a s = some s1 ∧ events step (fun _ _ => True) s1 l = some t ∧
      ∀ f, tally step f s (a :: l) = f a s + tally step f s1 l := by
  obtain ⟨s1, hfirst, hrest⟩ := Option.bind_eq_some_iff.mp h
  refine ⟨s1, hfirst, hrest, fun f => ?_⟩
  rw [tally, hfirst]
  rfl

/-- Events that go through make a run. -/
theorem Runs.of_events {l : List A} (h : events step (fun _ _ => True) s l = some t) :
    Runs step s t :=
  (RunsIn.of_events h).runs

end Transition
