import Spmfilter.Lib.Machine

/-!
# The turns of a run

A run of a machine, step by step, with what each step puts out.  Where the output of every
step opens with a mark and holds no other, the steps can be told from the output of the run.

* `turns` are the steps of a run, and `run_turns` says that their output is its output.
* `cut_at_mark` cuts the output of a run in front of a mark.
-/

namespace Machine

/-- One step of a run: the state before it, its input and its output. -/
structure Turn (S I O : Type) where
  state : S
  input : I
  out : List O

variable {S I O : Type} (m : Machine S I O)

/-- The steps of a run. -/
def turns (s : S) : List I → List (Turn S I O)
  | [] => []
  | i :: is =>
    ⟨s, i, (m.step s i).2⟩ ::
      match (m.step s i).1 with
      | none => []
      | some s' => turns s' is

theorem run_turns (s : S) (is : List I) : (m.run s is).2 = (m.turns s is).flatMap Turn.out := by
  induction is generalizing s with
  | nil => rfl
  | cons i is ih =>
    rcases hstep : m.step s i with ⟨_ | s', out⟩
    · rw [m.run_cons_none hstep, turns, hstep, List.flatMap_cons, List.flatMap_nil,
        List.append_nil]
    · rw [m.run_cons_some hstep, turns, hstep, List.flatMap_cons, ih]

/-- What every step does, every turn does. -/
theorem turns_forall {P : Turn S I O → Prop} (h : ∀ s i, P ⟨s, i, (m.step s i).2⟩) (s : S)
    (is : List I) : ∀ t ∈ m.turns s is, P t := by
  induction is generalizing s with
  | nil => exact nofun
  | cons i is ih =>
    rw [turns, List.forall_mem_cons]
    refine ⟨h s i, ?_⟩
    cases (m.step s i).1 with
    | none => exact nofun
    | some s' => exact ih s'

/-- The output of a turn opens with a mark and holds no other. -/
def Turn.Opens (mark : O → Prop) (t : Turn S I O) : Prop :=
  ∃ o out, t.out = o :: out ∧ mark o ∧ ∀ x ∈ out, ¬ mark x

/-- What stands in front of a mark is the output of whole turns. -/
theorem cut_at_mark {mark : O → Prop} {ts : List (Turn S I O)} (hts : ∀ t ∈ ts, t.Opens mark)
    {o : O} (ho : mark o) {before after : List O}
    (h : ts.flatMap Turn.out = before ++ o :: after) :
    ∃ n, before = (ts.take n).flatMap Turn.out := by
  induction ts generalizing before with
  | nil => cases List.append_eq_nil_iff.mp h.symm |>.2
  | cons t ts ih =>
    rw [List.forall_mem_cons] at hts
    obtain ⟨x, out, hout, -, hrest⟩ := hts.1
    rw [List.flatMap_cons, hout, List.cons_append] at h
    cases before with
    | nil => exact ⟨0, rfl⟩
    | cons y before =>
      rw [List.cons_append] at h
      obtain ⟨rfl, htail⟩ := List.cons.inj h
      -- the mark cannot stand in the rest of the first turn
      have hlater : ∃ more, before = out ++ more ∧ ts.flatMap Turn.out = more ++ o :: after := by
        rcases List.append_eq_append_iff.mp htail with
          ⟨more, hbefore, hmore⟩ | ⟨more, hfirst, hmore⟩
        · exact ⟨more, hbefore, hmore⟩
        · cases more with
          | nil =>
            rw [List.append_nil] at hfirst
            exact ⟨[], by rw [List.append_nil, hfirst], hmore.symm⟩
          | cons z more =>
            obtain ⟨rfl, -⟩ := List.cons.inj hmore
            exact absurd ho (hrest o (by rw [hfirst]; simp))
      obtain ⟨more, rfl, hmore⟩ := hlater
      obtain ⟨n, rfl⟩ := ih hts.2 hmore
      exact ⟨n + 1, by rw [List.take_succ_cons, List.flatMap_cons, hout, List.cons_append]⟩

end Machine
