/-!
# Calls that return

A function body that does nothing but call another function, or that gives a value.  Nothing
here names a program.

* `Returns` is a chain of calls down to a value, and `Returns.unique` makes it a function.
* `not_returns` is about calls that only lead to one another.
* `returns_of_measure` is about calls that come nearer to something.
-/

namespace Calls

variable {C V : Type}

/-- The call `c` returns `v`.  `body` is the call made in the place of another one, or its
value. -/
inductive Returns (body : C → C ⊕ V) : C → V → Prop
  | value {c : C} {v : V} (h : body c = .inr v) : Returns body c v
  | call {c d : C} {v : V} (h : body c = .inl d) (hd : Returns body d v) : Returns body c v

variable {body : C → C ⊕ V} {c : C} {v w : V}

theorem Returns.unique (h : Returns body c v) (h' : Returns body c w) : v = w := by
  induction h with
  | value hv =>
    cases h' with
    | value hw =>
      rw [hv] at hw
      exact Sum.inr.inj hw
    | call hd _ =>
      rw [hv] at hd
      cases hd
  | call hd _ ih =>
    cases h' with
    | value hw =>
      rw [hd] at hw
      cases hw
    | call hd' hrest =>
      rw [hd] at hd'
      obtain rfl := Sum.inl.inj hd'
      exact ih hrest

/-- Calls that only lead to calls of their own kind do not return. -/
theorem not_returns {I : C → Prop} (hstep : ∀ c, I c → ∃ d, body c = .inl d ∧ I d) (hc : I c) :
    ¬ Returns body c v := by
  intro h
  induction h with
  | value hv =>
    obtain ⟨d, hd, -⟩ := hstep _ hc
    rw [hv] at hd
    cases hd
  | call hd _ ih =>
    obtain ⟨d, hd', hI⟩ := hstep _ hc
    rw [hd] at hd'
    obtain rfl := Sum.inl.inj hd'
    exact ih hI

/-- A measure that every call makes smaller. -/
theorem returns_of_measure (size : C → Nat) (hsize : ∀ c d, body c = .inl d → size d < size c)
    (c : C) : ∃ v, Returns body c v := by
  induction hn : size c using Nat.strongRecOn generalizing c with
  | ind n ih =>
    cases hbody : body c with
    | inr v => exact ⟨v, .value hbody⟩
    | inl d =>
      have hlt := hsize c d hbody
      obtain ⟨v, hv⟩ := ih (size d) (by omega) d rfl
      exact ⟨v, .call hbody hv⟩

end Calls
