import Mathlib.Data.List.Basic

/-!
# Machines driven by a list of inputs

A machine takes one input at a time, puts out what it has to say, and either
goes on in a new state or closes.  A run feeds it a list of inputs.  An audit
runs the machine together with a second state, which notes what happened and
which the machine never reads: a property of the history of a run is an
invariant of its audit.

* `run_append` cuts a run in two.
* `run_invariant` and `audit_invariant` lift a step lemma to whole runs.
-/

/-- A machine with states `S`, inputs `I` and outputs `O`.  A step to `none`
closes it. -/
structure Machine (S I O : Type) where
  step : S → I → Option S × List O

namespace Machine

variable {S I O N : Type} (m : Machine S I O)

/-- Feed the machine a list of inputs. -/
def run (s : S) : List I → Option S × List O
  | [] => (some s, [])
  | i :: is =>
    match m.step s i with
    | (none, out) => (none, out)
    | (some s', out) => ((run s' is).1, out ++ (run s' is).2)

@[simp] theorem run_nil (s : S) : m.run s [] = (some s, []) := rfl

/-- The first step of a run that goes on. -/
theorem run_cons_some {s s' : S} {i : I} {out : List O} (h : m.step s i = (some s', out))
    (is : List I) : m.run s (i :: is) = ((m.run s' is).1, out ++ (m.run s' is).2) := by
  rw [run, h]

/-- The first step of a run that closes. -/
theorem run_cons_none {s : S} {i : I} {out : List O} (h : m.step s i = (none, out))
    (is : List I) : m.run s (i :: is) = (none, out) := by
  rw [run, h]

/-- A run that is still open after its first part continues from the state that
part left. -/
theorem run_append {s s' : S} {is : List I} (h : (m.run s is).1 = some s') (js : List I) :
    m.run s (is ++ js) = ((m.run s' js).1, (m.run s is).2 ++ (m.run s' js).2) := by
  induction is generalizing s with
  | nil =>
    rw [run_nil] at h
    obtain rfl : s = s' := Option.some.inj h
    simp
  | cons i is ih =>
    rcases hstep : m.step s i with ⟨_ | s1, out⟩
    · rw [m.run_cons_none hstep] at h
      exact absurd h (by simp)
    · rw [m.run_cons_some hstep] at h ⊢
      rw [List.cons_append, m.run_cons_some hstep, ih h]
      simp

/-- An invariant of one step is an invariant of every run. -/
theorem run_invariant {Inv : S → Prop}
    (hstep : ∀ s i s', Inv s → (m.step s i).1 = some s' → Inv s') {s s' : S} {is : List I}
    (h0 : Inv s) (h : (m.run s is).1 = some s') : Inv s' := by
  induction is generalizing s with
  | nil =>
    rw [run_nil] at h
    exact Option.some.inj h ▸ h0
  | cons i is ih =>
    rcases hi : m.step s i with ⟨_ | s1, out⟩
    · rw [m.run_cons_none hi] at h
      cases h
    · rw [m.run_cons_some hi] at h
      exact ih (hstep s i s1 h0 (by rw [hi])) h

/-- Run the machine and keep notes of each step.  `note` sees the notes so far,
the state before the step, the input and the outcome. -/
def audit (note : N → S → I → Option S × List O → N) (s : S) (n : N) :
    List I → Option (S × N)
  | [] => some (s, n)
  | i :: is =>
    match (m.step s i).1 with
    | none => none
    | some s' => audit note s' (note n s i (m.step s i)) is

variable {note : N → S → I → Option S × List O → N}

/-- An invariant of one audited step is an invariant of every audited run. -/
theorem audit_invariant {Inv : S → N → Prop}
    (hstep : ∀ s n i s', Inv s n → (m.step s i).1 = some s' →
      Inv s' (note n s i (m.step s i)))
    {s s' : S} {n n' : N} {is : List I} (h0 : Inv s n)
    (h : m.audit note s n is = some (s', n')) : Inv s' n' := by
  induction is generalizing s n with
  | nil =>
    rw [audit, Option.some.injEq, Prod.mk.injEq] at h
    rw [← h.1, ← h.2]
    exact h0
  | cons i is ih =>
    rw [audit] at h
    rcases hs : (m.step s i).1 with _ | s1
    · rw [hs] at h
      exact absurd h (by simp)
    · rw [hs] at h
      exact ih (hstep s n i s1 h0 hs) h

end Machine
