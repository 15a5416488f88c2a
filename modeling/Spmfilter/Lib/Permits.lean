import Mathlib.Data.List.Basic
import Mathlib.Data.Option.Basic

/-!
# Permits

A client takes permits from a bounded number of them.  It may keep one for good, and it may start
over with all of them.

* `step` and `run` say how many permits are kept, and `none` where the client is refused.
* `held` counts the permits that are kept without asking how many there are, and `held_eq_count`
  is about clients that never start over.
* `run_eq_some` : a run that is not refused ends with that number, within the bound.
* `run_eq_none_iff` : which event a run is refused at.
* `run_map` : a system whose steps do to its permits what events do to theirs has these runs.
-/

namespace Permits

/-- What a client does with one permit. -/
inductive Event
  | skips
  | returns
  | keeps
  /-- All permits are back afterwards, also those that were kept. -/
  | renews
  /-- The permit is not given, however many there are. -/
  | fails
deriving DecidableEq

/-- The permits that are kept after one event. -/
def after (n : Nat) : Event → Nat
  | .keeps => n + 1
  | .renews => 0
  | .skips | .returns | .fails => n

def held (n : Nat) (es : List Event) : Nat := es.foldl after n

/-- The event meets a refusal when so many permits are kept. -/
def Refused (max n : Nat) : Event → Prop
  | .skips => False
  | .returns | .keeps | .renews => max ≤ n
  | .fails => True

instance (max n : Nat) : DecidablePred (Refused max n)
  | .skips => inferInstanceAs (Decidable False)
  | .returns | .keeps | .renews => inferInstanceAs (Decidable (max ≤ n))
  | .fails => inferInstanceAs (Decidable True)

def step (max n : Nat) (e : Event) : Option Nat :=
  if Refused max n e then none else some (after n e)

def run (max n : Nat) (es : List Event) : Option Nat := es.foldlM (step max) n

variable {max n m : Nat} {e : Event} {es : List Event}

theorem held_cons : held n (e :: es) = held (after n e) es := rfl

theorem run_cons : run max n (e :: es) = (step max n e).bind fun n => run max n es := rfl

theorem refused_iff : Refused max n e ↔ e = .fails ∨ e ≠ .skips ∧ max ≤ n := by
  cases e <;> simp [Refused]

/-- The bound is kept by an event that is not refused. -/
theorem after_le (hn : n ≤ max) (he : ¬ Refused max n e) : after n e ≤ max := by
  cases e with
  | skips | returns | fails => exact hn
  | renews => exact Nat.zero_le max
  | keeps => exact Nat.lt_of_not_le he

/-- **What is kept**, along a run that is not refused. -/
theorem run_eq_some (hn : n ≤ max) (h : run max n es = some m) : m = held n es ∧ m ≤ max := by
  induction es generalizing n with
  | nil =>
    obtain rfl := Option.some.inj h
    exact ⟨rfl, hn⟩
  | cons e es ih =>
    rw [run_cons, step] at h
    by_cases he : Refused max n e
    · rw [if_pos he] at h
      cases h
    · rw [if_neg he] at h
      exact ih (after_le hn he) h

theorem held_eq_count (h : Event.renews ∉ es) : held n es = n + es.count .keeps := by
  induction es generalizing n with
  | nil => rfl
  | cons e es ih =>
    rw [List.mem_cons, not_or] at h
    rw [held_cons, ih h.2, List.count_cons]
    cases e with
    | renews => exact absurd rfl h.1
    | keeps => simp [after, Nat.add_comm, Nat.add_left_comm]
    | skips | returns | fails => simp [after]

/-- **Where a run is refused**: at an event that is refused after those in front of it. -/
theorem run_eq_none_iff : run max n es = none ↔
    ∃ before e later, es = before ++ e :: later ∧ Refused max (held n before) e := by
  induction es generalizing n with
  | nil =>
    refine iff_of_false (Option.some_ne_none n) ?_
    rintro ⟨before, e, later, hes, -⟩
    exact List.append_ne_nil_of_right_ne_nil before (List.cons_ne_nil e later) hes.symm
  | cons e es ih =>
    rw [run_cons, step]
    by_cases he : Refused max n e
    · rw [if_pos he]
      exact iff_of_true rfl ⟨[], e, es, rfl, he⟩
    · rw [if_neg he]
      refine (ih (n := after n e)).trans ⟨?_, ?_⟩
      · rintro ⟨before, e', later, rfl, href⟩
        exact ⟨e :: before, e', later, rfl, href⟩
      · rintro ⟨before, e', later, hes, href⟩
        cases before with
        | nil =>
          obtain ⟨rfl, -⟩ := List.cons.inj hes
          exact absurd href he
        | cons e₀ before =>
          obtain ⟨rfl, rfl⟩ := List.cons.inj hes
          exact ⟨before, e', later, rfl, href⟩

/-- A system whose steps keep as many permits as the events that they are taken for. -/
theorem run_map {S A : Type} {next : S → A → Option S} {kept : S → Nat} {event : A → Event}
    {I : S → Prop} {as : List A}
    (hstep : ∀ s, I s → ∀ a ∈ as, (next s a).map kept = step max (kept s) (event a))
    (hinv : ∀ s, I s → ∀ a ∈ as, ∀ s', next s a = some s' → I s') {s : S} (hs : I s) :
    (as.foldlM next s).map kept = run max (kept s) (as.map event) := by
  induction as generalizing s with
  | nil => rfl
  | cons a as ih =>
    rw [List.foldlM_cons, List.map_cons, run_cons, ← hstep s hs a List.mem_cons_self]
    cases hnext : next s a with
    | none => rfl
    | some s' =>
      refine ih ?_ ?_ (hinv s hs a List.mem_cons_self s' hnext)
      · intro s hs a ha
        exact hstep s hs a (List.mem_cons_of_mem _ ha)
      · intro s hs a ha
        exact hinv s hs a (List.mem_cons_of_mem _ ha)

end Permits
