import Spmfilter.Modules.Stop

/-!
# The modules of a run, by position

`worldBefore` is the world that each module of the configured list meets when
every module before it has been called, and `resultAt` is what
`smf_module_invoke` returns for it.  A run of the queue calls the modules up to
the first whose result is not `0`:

* `finishedCount` of them return `0`, and `calledCount` of them are called.
* `modulesStop_eq` is the whole run in these terms.

What a step of the run does is thus a statement about `invokeAt` at one
position, and what a run does is a statement about every position below
`calledCount`.
-/

namespace Spmfilter

open CString

section

variable {M : Type} (cmime : Cmime M) (settings : Settings) (env : QueueEnv M)

/-- `smf_module_invoke` on the module at position `i`. -/
def invokeAt (i : Nat) (w : World M) : Outcome M :=
  smfModuleInvoke cmime (settings.modules.getD i []) (env.runs i) w

/-- The world before the module at position `i`, when every module before it has
been called. -/
def worldBefore (w : World M) : Nat → World M
  | 0 => { w with session := smfInternalFetchUserData settings env.queryUser w.session }
  | i + 1 => (invokeAt cmime settings env i (worldBefore w i)).world

/-- What `smf_module_invoke` returns for the module at position `i`. -/
def resultAt (w : World M) (i : Nat) : Int :=
  (invokeAt cmime settings env i (worldBefore cmime settings env w i)).ret

/-- The actions of the module at position `i`. -/
def eventsAt (w : World M) (i : Nat) : List Event :=
  (invokeAt cmime settings env i (worldBefore cmime settings env w i)).events

/-- How many modules return `0` before one does not. -/
def finishedCount (w : World M) : Nat :=
  (List.range settings.modules.length).findIdx fun i =>
    decide (resultAt cmime settings env w i ≠ 0)

/-- How many modules are called: those that return `0`, and the next one. -/
def calledCount (w : World M) : Nat :=
  min (finishedCount cmime settings env w + 1) settings.modules.length

/-- The result that stops the run, or `0` when every module returns `0`. -/
def stopResult (w : World M) : Int :=
  if finishedCount cmime settings env w < settings.modules.length then
    resultAt cmime settings env w (finishedCount cmime settings env w)
  else 0

/-- The header text after the first `i` modules. -/
def headerAt : Nat → Bytes
  | 0 => ascii "X-Spmfilter: "
  | i + 1 => appendModuleName settings (headerAt i) (settings.modules.getD i []) (i + 1)

variable (w : World M)

theorem finishedCount_le : finishedCount cmime settings env w ≤ settings.modules.length := by
  have h : finishedCount cmime settings env w ≤ (List.range settings.modules.length).length :=
    List.findIdx_le_length
  rw [List.length_range] at h
  exact h

theorem resultAt_of_lt_finished {i : Nat} (hi : i < finishedCount cmime settings env w) :
    resultAt cmime settings env w i = 0 := by
  have h := List.not_of_lt_findIdx hi
  rw [List.getElem_range] at h
  simpa using h

theorem resultAt_finished
    (h : finishedCount cmime settings env w < settings.modules.length) :
    resultAt cmime settings env w (finishedCount cmime settings env w) ≠ 0 := by
  have hlt : finishedCount cmime settings env w <
      (List.range settings.modules.length).length := by
    rw [List.length_range]
    exact h
  have hget := List.findIdx_getElem (w := hlt)
  rw [decide_eq_true_eq] at hget
  exact List.getElem_range hlt ▸ hget

/-- The count is the only position with only `0` before it and no `0` at it. -/
theorem finishedCount_eq {n : Nat} (hn : n ≤ settings.modules.length)
    (hbefore : ∀ i, i < n → resultAt cmime settings env w i = 0)
    (hat : n < settings.modules.length → resultAt cmime settings env w n ≠ 0) :
    finishedCount cmime settings env w = n := by
  have hle := finishedCount_le cmime settings env w
  rcases Nat.lt_trichotomy (finishedCount cmime settings env w) n with hlt | heq | hgt
  · exact absurd (hbefore _ hlt) (resultAt_finished cmime settings env w (by omega))
  · exact heq
  · exact absurd (resultAt_of_lt_finished cmime settings env w hgt) (hat (by omega))

/-- Every module returns `0` exactly when none stops the run. -/
theorem finishedCount_eq_length :
    finishedCount cmime settings env w = settings.modules.length ↔
      ∀ i, i < settings.modules.length → resultAt cmime settings env w i = 0 := by
  constructor
  · intro h i hi
    exact resultAt_of_lt_finished cmime settings env w (by omega)
  · intro h
    exact finishedCount_eq cmime settings env w (Nat.le_refl _) h
      (fun hlt => absurd hlt (Nat.lt_irrefl _))

theorem stopResult_eq_zero :
    stopResult cmime settings env w = 0 ↔
      finishedCount cmime settings env w = settings.modules.length := by
  have hle := finishedCount_le cmime settings env w
  unfold stopResult
  split
  · rename_i hlt
    have hne := resultAt_finished cmime settings env w hlt
    exact iff_of_false hne (by omega)
  · exact iff_of_true rfl (by omega)

/-- `untilStop` from a position that the run gets to. -/
theorem untilStop_drop (k : Nat) (hk : k ≤ finishedCount cmime settings env w) :
    untilStop cmime settings env (settings.modules.drop k) k (headerAt settings k)
        (worldBefore cmime settings env w k) =
      ⟨stopResult cmime settings env w, headerAt settings (finishedCount cmime settings env w),
        worldBefore cmime settings env w (calledCount cmime settings env w),
        (List.range' k (calledCount cmime settings env w - k)).flatMap
          (eventsAt cmime settings env w)⟩ := by
  have hle := finishedCount_le cmime settings env w
  -- on the number of modules that are still in the list
  induction hn : settings.modules.length - k generalizing k with
  | zero =>
    have hfin : finishedCount cmime settings env w = k := by omega
    have hlen : settings.modules.length = k := by omega
    rw [List.drop_of_length_le (by omega), untilStop, stopResult, calledCount, hfin, hlen]
    simp
  | succ n ih =>
    have hlt : k < settings.modules.length := by omega
    rw [List.drop_eq_getElem_cons hlt, untilStop]
    dsimp only
    have hname : settings.modules[k] = settings.modules.getD k [] := by
      simp [hlt]
    have hinv : smfModuleInvoke cmime settings.modules[k] (env.runs k)
        (worldBefore cmime settings env w k) =
        invokeAt cmime settings env k (worldBefore cmime settings env w k) := by
      rw [hname, invokeAt]
    rw [hinv]
    by_cases hret : resultAt cmime settings env w k = 0
    · have hk' : k + 1 ≤ finishedCount cmime settings env w := by
        rcases Nat.lt_or_ge k (finishedCount cmime settings env w) with h | h
        · exact h
        · have heq : finishedCount cmime settings env w = k := by omega
          have hne := resultAt_finished cmime settings env w (by omega)
          rw [heq] at hne
          exact absurd hret hne
      have hcalled : calledCount cmime settings env w - k =
          (calledCount cmime settings env w - (k + 1)) + 1 := by
        unfold calledCount
        omega
      rw [if_neg (fun h => h hret), hname,
        show (invokeAt cmime settings env k (worldBefore cmime settings env w k)).world =
          worldBefore cmime settings env w (k + 1) from rfl,
        show appendModuleName settings (headerAt settings k) (settings.modules.getD k []) (k + 1) =
          headerAt settings (k + 1) from rfl,
        ih (k + 1) hk' (by omega), hcalled, List.range'_succ, List.flatMap_cons]
      rfl
    · have hfin : finishedCount cmime settings env w = k :=
        finishedCount_eq cmime settings env w (by omega)
          (fun i hi => resultAt_of_lt_finished cmime settings env w (by omega)) (fun _ => hret)
      have hcalled : calledCount cmime settings env w = k + 1 := by
        unfold calledCount
        omega
      have hne : (invokeAt cmime settings env k (worldBefore cmime settings env w k)).ret ≠ 0 :=
        hret
      rw [if_pos hne, stopResult, hfin, if_pos hlt, hcalled, Nat.add_sub_cancel_left]
      simp [resultAt, eventsAt, worldBefore]

/-- The run of the modules, by position. -/
theorem modulesStop_eq :
    modulesStop cmime settings env w =
      ⟨stopResult cmime settings env w, headerAt settings (finishedCount cmime settings env w),
        worldBefore cmime settings env w (calledCount cmime settings env w),
        (List.range (calledCount cmime settings env w)).flatMap
          (eventsAt cmime settings env w)⟩ := by
  have h := untilStop_drop cmime settings env w 0 (Nat.zero_le _)
  rw [List.drop_zero, Nat.sub_zero, ← List.range_eq_range'] at h
  exact h

/-! ## What one position calls -/

/-- The name of the module at position `i`, when it can be called. -/
def calledName (i : Nat) : Option Bytes :=
  (env.runs i).map fun _ => settings.modules.getD i []

theorem invokedNames_eventsAt (i : Nat) :
    invokedNames (eventsAt cmime settings env w i) = (calledName settings env i).toList := by
  unfold eventsAt invokeAt smfModuleInvoke calledName
  cases env.runs i with
  | none => rfl
  | some runner =>
    dsimp only
    split
    · split <;> rfl
    · rfl

theorem nexthopCalls_moduleEvents {events : List Event} (h : ∀ e ∈ events, isModuleEvent e) :
    nexthopCalls events = [] := by
  apply List.filterMap_eq_nil_iff.2
  intro e he
  have hmod := h e he
  cases e <;> first | rfl | exact hmod.elim

end

/-! ## A sample run -/

/-- The header block of a mail, with its closing empty line. -/
def mailHeader : Bytes :=
  ascii "Subject: test\r\n\r\n"

/-- The mail. -/
def mailText : Bytes :=
  mailHeader ++ ascii "Hello\r\n"

/-- A session that has just read the header of `mailText`. -/
def mailWorld : World Bytes where
  session := { id := ascii "1", messageFile := some (ascii "/q/1") }
  message := ⟨0, mailHeader⟩
  spool := some ⟨mailText, 0⟩

/-- Nothing outside fails, and every module does `run`. -/
def mailEnv (run : ModuleLoad Bytes) : QueueEnv Bytes where
  queryUser := fun _ => none
  runs := fun _ => some run
  flushIo := .done
  flushTmp := ascii "/q/tmp"
  nexthop := ⟨true, true, ⟨fun _ => true, fun _ => true, true, fun _ => 250, 250⟩⟩

end Spmfilter
