import Spmfilter.Modules.Queue

/-!
# `module_fail = 1`

The manual calls this setting "proceed and ignore".  Both engines answer `1` to
a module that has failed then, and the queue takes `1` for an order to stop.

`faultyEnv` gives every module its own work and lets any of them fail after
it.  `IgnoresFailures` compares such a run with the run in which none of them
fails.
-/

namespace Spmfilter

open CString

section

variable {M : Type}

/-- The module at position `i` does `effects i`.  It returns `-1` when `fails i`
holds, and `0` otherwise. -/
def faultyEnv (env : QueueEnv M) (effects : Nat → World M → World M) (fails : Nat → Bool) :
    QueueEnv M :=
  { env with runs := fun i => some fun w => (if fails i then -1 else 0, effects i w) }

/-- `module_fail` says that failures are to be ignored. -/
def proceed (settings : Settings) : Settings := { settings with moduleFail := 1 }

/-- No module fails. -/
def noneFails : Nat → Bool :=
  fun _ => false

/-- A run calls every module of `modules`, and the message reaches the next hop
as it does in the other run. -/
structure IgnoresFailures (out asIf : Outcome M) (modules : List Bytes) : Prop where
  runs : invokedNames out.events = modules
  nexthop : nexthopCalls out.events = nexthopCalls asIf.events
  delivered : nexthopCalls asIf.events ≠ [] → out.world = asIf.world

variable (cmime : Cmime M) (settings : Settings)

/-- A run reads the modules of the list only. -/
theorem untilStop_congr {env env' : QueueEnv M} (mods : List Bytes) (k : Nat) (header : Bytes)
    (w : World M) (h : ∀ i, k ≤ i → i < k + mods.length → env.runs i = env'.runs i) :
    untilStop cmime settings env mods k header w =
      untilStop cmime settings env' mods k header w := by
  induction mods generalizing k header w with
  | nil => rfl
  | cons name mods ih =>
    have hhead : env.runs k = env'.runs k := by
      apply h
      · omega
      · simp
    have htail := fun header w => ih (k + 1) header w (fun i hi hlt => h i (by omega) (by
      rw [List.length_cons]
      omega))
    rw [untilStop, untilStop, hhead]
    dsimp only
    rw [htail]

variable (env : QueueEnv M) (effects : Nat → World M → World M) (fails : Nat → Bool) (w : World M)

theorem calledName_faultyEnv (i : Nat) :
    calledName settings (faultyEnv env effects fails) i = some (settings.modules.getD i []) :=
  rfl

/-- The first `n` modules of a list, called by position. -/
theorem filterMap_calledName {n : Nat} (hn : n ≤ settings.modules.length) :
    (List.range n).filterMap (calledName settings (faultyEnv env effects fails)) =
      settings.modules.take n := by
  induction n with
  | zero => rfl
  | succ n ih =>
    rw [List.range_succ, List.filterMap_append, ih (by omega), List.take_add_one]
    have hlt : n < settings.modules.length := by omega
    simp [calledName_faultyEnv, hlt]

/-- Every module is called when all before the last return `0`. -/
theorem calledCount_eq_length :
    calledCount cmime settings env w = settings.modules.length ↔
      ∀ i, i + 1 < settings.modules.length → resultAt cmime settings env w i = 0 := by
  have hle := finishedCount_le cmime settings env w
  unfold calledCount
  constructor
  · intro h i hi
    apply resultAt_of_lt_finished
    omega
  · intro h
    rcases Nat.lt_or_ge (finishedCount cmime settings env w + 1) settings.modules.length with
      hlt | hge
    · exact absurd (h _ hlt) (resultAt_finished cmime settings env w (by omega))
    · omega

theorem resultAt_of_fails {i : Nat} (h : fails i = true) :
    resultAt cmime settings (faultyEnv env effects fails) w i = -1 := by
  unfold resultAt invokeAt smfModuleInvoke faultyEnv
  simp [h]

/-- Up to the first module that fails, nothing tells the two runs apart. -/
theorem invokeAt_of_not_fails {i : Nat} (h : fails i = false) (w : World M) :
    invokeAt cmime settings (faultyEnv env effects fails) i w =
      invokeAt cmime settings (faultyEnv env effects noneFails) i w := by
  unfold invokeAt faultyEnv noneFails
  simp [h]

theorem worldBefore_of_not_fails {n : Nat} (h : ∀ i, i < n → fails i = false) :
    worldBefore cmime settings (faultyEnv env effects fails) w n =
      worldBefore cmime settings (faultyEnv env effects noneFails) w n := by
  induction n with
  | zero => rfl
  | succ n ih =>
    rw [worldBefore, worldBefore, ih (fun i hi => h i (by omega)),
      invokeAt_of_not_fails cmime settings env effects fails (h n (by omega))]

theorem resultAt_of_not_fails {n : Nat} (h : ∀ i, i ≤ n → fails i = false) :
    resultAt cmime settings (faultyEnv env effects fails) w n =
      resultAt cmime settings (faultyEnv env effects noneFails) w n := by
  unfold resultAt
  rw [worldBefore_of_not_fails cmime settings env effects fails w (fun i hi => h i (by omega)),
    invokeAt_of_not_fails cmime settings env effects fails (h n (Nat.le_refl n))]

/-- Every module is called exactly when, but for the last, none fails and each
has its message parsed again without an error. -/
theorem calledCount_faultyEnv :
    calledCount cmime settings (faultyEnv env effects fails) w = settings.modules.length ↔
      ∀ i, i + 1 < settings.modules.length → fails i = false ∧
        resultAt cmime settings (faultyEnv env effects noneFails) w i = 0 := by
  rw [calledCount_eq_length]
  constructor
  · intro h i hi
    have hnot : ∀ j, j ≤ i → fails j = false := by
      intro j hj
      rw [Bool.eq_false_iff]
      intro hfail
      have hzero := h j (by omega)
      rw [resultAt_of_fails cmime settings env effects fails w hfail] at hzero
      cases hzero
    refine ⟨hnot i (Nat.le_refl i), ?_⟩
    rw [← resultAt_of_not_fails cmime settings env effects fails w hnot]
    exact h i hi
  · intro h i hi
    rw [resultAt_of_not_fails cmime settings env effects fails w
      (fun j hj => (h j (by omega)).1)]
    exact (h i hi).2

/-- When no module of the list fails, the runs are the same. -/
theorem smfModulesProcess_of_not_fails (q : ProcessQueue) (hq : q.Stops settings)
    (h : ∀ i, i < settings.modules.length → fails i = false) :
    smfModulesProcess cmime q settings (faultyEnv env effects fails) w =
      smfModulesProcess cmime q settings (faultyEnv env effects noneFails) w := by
  have hstop : modulesStop cmime settings (faultyEnv env effects fails) w =
      modulesStop cmime settings (faultyEnv env effects noneFails) w := by
    apply untilStop_congr
    intro i _ hi
    show (some fun w => (if fails i then -1 else 0, effects i w)) =
      some fun w => (if noneFails i then -1 else 0, effects i w)
    rw [h i (by omega)]
    rfl
  rw [smfModulesProcess_stop cmime settings _ q hq, smfModulesProcess_stop cmime settings _ q hq,
    hstop]
  rfl

/-- A module that fails keeps the message from the next hop. -/
theorem not_turnsToNexthop_of_fails {i : Nat} (hi : i + 1 = settings.modules.length)
    (hbefore : ∀ j, j < i →
      resultAt cmime settings (faultyEnv env effects fails) w j = 0)
    (hfail : fails i = true) :
    ¬ TurnsToNexthop cmime settings (faultyEnv env effects fails) w := by
  have hret := resultAt_of_fails cmime settings env effects fails w hfail
  have hfin : finishedCount cmime settings (faultyEnv env effects fails) w = i := by
    apply finishedCount_eq cmime settings _ w (by omega) hbefore
    intro _
    rw [hret]
    decide
  intro hturn
  rcases hturn with hall | ⟨_, htwo⟩
  · have hzero := hall i (by omega)
    rw [hret] at hzero
    cases hzero
  · rw [hfin, hret] at htwo
    cases htwo

variable (engine : Engine M)

/-- The run calls as many modules as it counts, from the front of the list. -/
theorem invokedNames_faultyEnv :
    invokedNames
        (smfModulesProcess cmime engine.queue settings (faultyEnv env effects fails) w).events =
      settings.modules.take (calledCount cmime settings (faultyEnv env effects fails) w) := by
  have hout := smfModulesProcess_queueCalls cmime settings (faultyEnv env effects fails) w engine
  have hle : calledCount cmime settings (faultyEnv env effects fails) w ≤
      settings.modules.length := Nat.min_le_right _ _
  rw [hout.modules, filterMap_calledName settings env effects fails hle]

/-- When the last module fails and no other does, the run does not get to the next
hop. -/
theorem nexthopCalls_of_last_fails {i : Nat} (hi : i + 1 = settings.modules.length)
    (hbefore : ∀ j, j < i → fails j = false ∧
      resultAt cmime settings (faultyEnv env effects noneFails) w j = 0)
    (hfail : fails i = true) :
    nexthopCalls (smfModulesProcess cmime engine.queue settings
      (faultyEnv env effects fails) w).events = [] := by
  have hout := smfModulesProcess_queueCalls cmime settings (faultyEnv env effects fails) w engine
  have hnot : ¬ TurnsToNexthop cmime settings (faultyEnv env effects fails) w := by
    apply not_turnsToNexthop_of_fails cmime settings env effects fails w hi ?_ hfail
    intro j hj
    rw [resultAt_of_not_fails cmime settings env effects fails w
      (fun l hl => (hbefore l (by omega)).1)]
    exact (hbefore j hj).2
  by_contra hne
  exact hnot (hout.nexthop.1 hne).1

/-- With `module_fail = 1` the modules that fail are ignored exactly when, but
for the last one, no module of the list fails (and every message that is parsed
again parses), and the last one does not fail either unless the message would
not reach the next hop anyway. -/
theorem proceed_ignores_iff :
    IgnoresFailures
        (smfModulesProcess cmime engine.queue (proceed settings) (faultyEnv env effects fails) w)
        (smfModulesProcess cmime engine.queue (proceed settings)
          (faultyEnv env effects noneFails) w)
        settings.modules ↔
      (∀ i, i + 1 < settings.modules.length →
          fails i = false ∧
            resultAt cmime (proceed settings) (faultyEnv env effects noneFails) w i = 0) ∧
        ∀ i, i + 1 = settings.modules.length → fails i = true →
          ¬ Delivers cmime (proceed settings) (faultyEnv env effects noneFails) w := by
  have hmodules : settings.modules = (proceed settings).modules := rfl
  rw [hmodules]
  generalize proceed settings = settings
  have hasIf :=
    smfModulesProcess_queueCalls cmime settings (faultyEnv env effects noneFails) w engine
  have hcalled := calledCount_faultyEnv cmime settings env effects fails w
  have hle : calledCount cmime settings (faultyEnv env effects fails) w ≤
      settings.modules.length := Nat.min_le_right _ _
  have hnames := invokedNames_faultyEnv cmime settings env effects fails w engine
  constructor
  · intro h
    have hlen : calledCount cmime settings (faultyEnv env effects fails) w =
        settings.modules.length := by
      have hruns := congrArg List.length (hnames.symm.trans h.runs)
      rw [List.length_take] at hruns
      omega
    have hbefore := hcalled.1 hlen
    refine ⟨hbefore, ?_⟩
    intro i hi hfail hdelivers
    have hne := hasIf.nexthop.2 hdelivers
    rw [← h.nexthop] at hne
    exact hne (nexthopCalls_of_last_fails cmime settings env effects fails w engine hi
      (fun j hj => hbefore j (by omega)) hfail)
  · intro h
    obtain ⟨hbefore, hend⟩ := h
    have hruns : invokedNames (smfModulesProcess cmime engine.queue settings
        (faultyEnv env effects fails) w).events = settings.modules := by
      rw [hnames, hcalled.2 hbefore, List.take_length]
    by_cases hfail : ∃ i, i + 1 = settings.modules.length ∧ fails i = true
    · obtain ⟨i, hi, hfail⟩ := hfail
      have hnone : nexthopCalls (smfModulesProcess cmime engine.queue settings
          (faultyEnv env effects noneFails) w).events = [] := by
        by_contra hne
        exact hend i hi hfail (hasIf.nexthop.1 hne)
      constructor
      · exact hruns
      · rw [hnone]
        exact nexthopCalls_of_last_fails cmime settings env effects fails w engine hi
          (fun j hj => hbefore j (by omega)) hfail
      · intro hne
        exact absurd hnone hne
    · have hsame := smfModulesProcess_of_not_fails cmime settings env effects fails w engine.queue
        (engine.stops settings) (fun i hi => by
          rcases Nat.lt_or_ge (i + 1) settings.modules.length with hlt | hge
          · exact (hbefore i hlt).1
          · rw [Bool.eq_false_iff]
            intro h
            exact hfail ⟨i, by omega, h⟩)
      constructor
      · exact hruns
      · rw [hsame]
      · intro _
        rw [hsame]

end

/-! ## A run that stops -/

/-- The first of two modules fails, and the second one is not called. -/
theorem proceed_stops :
    ¬ IgnoresFailures
        (smfModulesProcess plainCmime pipeQueue
          { modules := [ascii "a", ascii "b"], moduleFail := 1, nexthop := some (ascii "/out") }
          (faultyEnv (mailEnv fun w => (0, w)) (fun _ w => w) fun i => i == 0) mailWorld)
        (smfModulesProcess plainCmime pipeQueue
          { modules := [ascii "a", ascii "b"], moduleFail := 1, nexthop := some (ascii "/out") }
          (faultyEnv (mailEnv fun w => (0, w)) (fun _ w => w) noneFails) mailWorld)
        [ascii "a", ascii "b"] := by
  intro h
  have hruns := h.runs
  revert hruns
  decide

end Spmfilter
