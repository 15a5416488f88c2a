import Spmfilter.Modules

/-!
# Where the module queue stops

`smf_modules_process` runs its modules until one of them does not return `0`,
and then asks the engine what to do.  When the engine's answer always ends the
loop, the loop is a plain search for the first such module.

* `untilStop` is that search, written without the engine.  `StopTrace` says
  where its result has come from: a module, a new parse of the message, or a
  module that could not be called.
* `smfModulesProcess_stop` says what `smf_modules_process` makes of its result.
* The last section lists what the flush and the next hop functions return.
-/

namespace Spmfilter

open CString

section

variable {M : Type} (cmime : Cmime M) (settings : Settings) (env : QueueEnv M)

/-- The run of the modules up to the first that does not return `0`. -/
structure Stop (M : Type) where
  /-- Its result, or `0` when there is none. -/
  ret : Int
  /-- The header text, with the names of the modules before it. -/
  header : Bytes
  world : World M
  events : List Event

/-- Run the modules until one does not return `0`. -/
def untilStop : (mods : List Bytes) → (modCount : Nat) → (header : Bytes) → World M → Stop M
  | [], _, header, w => ⟨0, header, w, []⟩
  | name :: mods, modCount, header, w =>
    let inv := smfModuleInvoke cmime name (env.runs modCount) w
    if inv.ret ≠ 0 then ⟨inv.ret, header, inv.world, inv.events⟩
    else
      let rest := untilStop mods (modCount + 1)
        (appendModuleName settings header name (modCount + 1)) inv.world
      { rest with events := inv.events ++ rest.events }

/-- The run of the configured modules, as `smf_modules_process` starts it. -/
def modulesStop (w : World M) : Stop M :=
  untilStop cmime settings env settings.modules 0 (ascii "X-Spmfilter: ")
    { w with session := smfInternalFetchUserData settings env.queryUser w.session }

/-- The engine's answer to every result but `0` ends the loop. -/
def ProcessQueue.Stops (q : ProcessQueue) (settings : Settings) : Prop :=
  ∀ session ret, ret ≠ 0 →
    (q.processingError settings session ret).1 = 0 ∨
      (q.processingError settings session ret).1 = 1 ∨
      (q.processingError settings session ret).1 = 2

/-! ## The actions of a run -/

/-- A module has run, or the message has been parsed again. -/
def isModuleEvent : Event → Prop
  | .invoke _ _ => True
  | .reload _ => True
  | _ => False

theorem replies_of_moduleEvents {events : List Event} (h : ∀ e ∈ events, isModuleEvent e) :
    replies events = [] := by
  induction events with
  | nil => rfl
  | cons e events ih =>
    have he := h e (by simp)
    have htail := ih (fun e' he' => h e' (by simp [he']))
    cases e with
    | invoke => exact htail
    | reload => exact htail
    | _ => exact he.elim

/-- Where a result other than `0` has come from. -/
inductive StopTrace (stop : Stop M) : Prop where
  | through (hret : stop.ret = 0) (hinvoke : ∀ name ret, .invoke name ret ∈ stop.events → ret = 0)
      (hreload : ∀ code, .reload code ∈ stop.events → code = 0)
  | returned (name : Bytes) (hmem : .invoke name stop.ret ∈ stop.events)
      (hinvoke : ∀ name ret, .invoke name ret ∈ stop.events → ret = 0 ∨ ret = stop.ret)
      (hreload : ∀ code, .reload code ∈ stop.events → code = 0)
  | reloaded (hmem : .reload stop.ret ∈ stop.events)
      (hinvoke : ∀ name ret, .invoke name ret ∈ stop.events → ret = 0)
      (hreload : ∀ code, .reload code ∈ stop.events → code = 0 ∨ code = stop.ret)
  | missing (hret : stop.ret = -1)
      (hinvoke : ∀ name ret, .invoke name ret ∈ stop.events → ret = 0)
      (hreload : ∀ code, .reload code ∈ stop.events → code = 0)

/-- The ways in which one module comes out. -/
theorem smfModuleInvoke_cases (name : Bytes) (run : Option (ModuleLoad M)) (w : World M) :
    let inv := smfModuleInvoke cmime name run w
    (inv.ret = -1 ∧ inv.events = []) ∨
      inv.events = [.invoke name inv.ret] ∨
      inv.events = [.invoke name 0, .reload inv.ret] := by
  intro inv
  show (smfModuleInvoke cmime name run w).ret = -1 ∧ _ ∨ _
  unfold inv smfModuleInvoke
  cases run with
  | none => exact Or.inl ⟨rfl, rfl⟩
  | some runner =>
    dsimp only
    split
    · rename_i h
      rw [h.1]
      split
      · exact Or.inr (Or.inr rfl)
      · exact Or.inr (Or.inr rfl)
    · exact Or.inr (Or.inl rfl)

theorem untilStop_moduleEvents (mods : List Bytes) (modCount : Nat) (header : Bytes)
    (w : World M) :
    ∀ e ∈ (untilStop cmime settings env mods modCount header w).events, isModuleEvent e := by
  induction mods generalizing modCount header w with
  | nil => simp [untilStop]
  | cons name mods ih =>
    have hinv : ∀ e ∈ (smfModuleInvoke cmime name (env.runs modCount) w).events,
        isModuleEvent e := by
      intro e he
      rcases smfModuleInvoke_cases cmime name (env.runs modCount) w with
        ⟨_, hevents⟩ | hevents | hevents <;> rw [hevents] at he
      · cases he
      · rw [List.mem_singleton.1 he]
        trivial
      · rcases List.mem_cons.1 he with rfl | he
        · trivial
        · rw [List.mem_singleton.1 he]
          trivial
    rw [untilStop]
    dsimp only
    split
    · exact hinv
    · intro e he
      rcases List.mem_append.1 he with he | he
      · exact hinv e he
      · exact ih _ _ _ e he

/-- Actions in front of a run that all went well do not change where its result
has come from. -/
theorem StopTrace.cons {stop : Stop M} {before : List Event} (h : StopTrace stop)
    (hinvoke : ∀ name ret, .invoke name ret ∈ before → ret = 0)
    (hreload : ∀ code, .reload code ∈ before → code = 0) :
    StopTrace { stop with events := before ++ stop.events } := by
  cases h with
  | through hret hi hr =>
    refine .through hret (fun name ret hmem => ?_) (fun code hmem => ?_)
    · exact (List.mem_append.1 hmem).elim (hinvoke name ret) (hi name ret)
    · exact (List.mem_append.1 hmem).elim (hreload code) (hr code)
  | returned name hmem hi hr =>
    refine .returned name (List.mem_append_right _ hmem) (fun name ret hmem => ?_)
      (fun code hmem => ?_)
    · exact (List.mem_append.1 hmem).elim (fun h => Or.inl (hinvoke name ret h)) (hi name ret)
    · exact (List.mem_append.1 hmem).elim (hreload code) (hr code)
  | reloaded hmem hi hr =>
    refine .reloaded (List.mem_append_right _ hmem) (fun name ret hmem => ?_)
      (fun code hmem => ?_)
    · exact (List.mem_append.1 hmem).elim (hinvoke name ret) (hi name ret)
    · exact (List.mem_append.1 hmem).elim (fun h => Or.inl (hreload code h)) (hr code)
  | missing hret hi hr =>
    refine .missing hret (fun name ret hmem => ?_) (fun code hmem => ?_)
    · exact (List.mem_append.1 hmem).elim (hinvoke name ret) (hi name ret)
    · exact (List.mem_append.1 hmem).elim (hreload code) (hr code)

theorem untilStop_trace (mods : List Bytes) (modCount : Nat) (header : Bytes) (w : World M) :
    StopTrace (untilStop cmime settings env mods modCount header w) := by
  induction mods generalizing modCount header w with
  | nil => exact .through rfl (by simp [untilStop]) (by simp [untilStop])
  | cons name mods ih =>
    have hinv := smfModuleInvoke_cases cmime name (env.runs modCount) w
    rw [untilStop]
    dsimp only at hinv ⊢
    split
    · rcases hinv with ⟨hret, hevents⟩ | hevents | hevents
      · exact .missing hret (by simp [hevents]) (by simp [hevents])
      · refine .returned name (by simp [hevents]) (fun n ret hmem => ?_) (by simp [hevents])
        dsimp only at hmem ⊢
        rw [hevents, List.mem_singleton] at hmem
        exact Or.inr (Event.invoke.inj hmem).2
      · refine .reloaded (by simp [hevents]) (by simp [hevents]) (fun code hmem => ?_)
        dsimp only at hmem ⊢
        rw [hevents] at hmem
        simp at hmem
        exact Or.inr hmem
    · rename_i hzero
      have hret : (smfModuleInvoke cmime name (env.runs modCount) w).ret = 0 := by
        simpa using hzero
      rw [hret] at hinv
      refine StopTrace.cons (ih _ _ _) (fun n ret hmem => ?_) (fun code hmem => ?_)
      · rcases hinv with ⟨hret, _⟩ | hevents | hevents
        · cases hret
        · rw [hevents] at hmem
          simp at hmem
          exact hmem.2
        · rw [hevents] at hmem
          simp at hmem
          exact hmem.2
      · rcases hinv with ⟨hret, _⟩ | hevents | hevents
        · cases hret
        · rw [hevents] at hmem
          simp at hmem
        · rw [hevents] at hmem
          simp at hmem
          exact hmem

/-! ## The queue after a stop -/

variable (q : ProcessQueue)

/-- How the loop is left after a stop. -/
def stopExit (stop : Stop M) : LoopExit M × List Event :=
  if stop.ret = 0 then (.ended 0 stop.header stop.world, stop.events)
  else
    let err := q.processingError settings stop.world.session stop.ret
    if err.1 = 0 then (.returned (-1) stop.world, stop.events ++ err.2)
    else if err.1 = 1 then (.returned 1 stop.world, stop.events ++ err.2)
    else (.ended 2 stop.header stop.world, stop.events ++ err.2)

theorem smfModulesLoop_stop (hq : q.Stops settings) (mods : List Bytes) (modCount : Nat)
    (header : Bytes) (w : World M) :
    smfModulesLoop cmime q settings env mods modCount 0 header w =
      stopExit settings q (untilStop cmime settings env mods modCount header w) := by
  induction mods generalizing modCount header w with
  | nil => rfl
  | cons name mods ih =>
    rw [smfModulesLoop, untilStop]
    dsimp only
    by_cases hret : (smfModuleInvoke cmime name (env.runs modCount) w).ret = 0
    · rw [if_neg (fun h => h hret), if_neg (fun h => h hret), ih, stopExit, stopExit]
      dsimp only
      split_ifs <;> simp
    · have hstops := hq
        (smfModuleInvoke cmime name (env.runs modCount) w).world.session _ hret
      rw [if_pos hret, if_pos hret, stopExit]
      dsimp only
      rw [if_neg hret]
      rcases hstops with h | h | h <;> simp [h]

/-- `smf_modules_process` after a stop: the rest of the queue, or a result. -/
theorem smfModulesProcess_stop (hq : q.Stops settings) (w : World M) :
    smfModulesProcess cmime q settings env w =
      let stop := modulesStop cmime settings env w
      let err := q.processingError settings stop.world.session stop.ret
      let fin := smfModulesFinish cmime q settings env w.message.ref (cmime.headers w.message.msg)
        stop.header stop.world
      if stop.ret = 0 then ⟨fin.ret, fin.world, stop.events ++ fin.events⟩
      else if err.1 = 0 then ⟨-1, stop.world, stop.events ++ err.2⟩
      else if err.1 = 1 then ⟨1, stop.world, stop.events ++ err.2⟩
      else ⟨fin.ret, fin.world, stop.events ++ err.2 ++ fin.events⟩ := by
  rw [smfModulesProcess]
  dsimp only
  rw [smfModulesLoop_stop cmime settings env q hq]
  rw [show untilStop cmime settings env settings.modules 0 (ascii "X-Spmfilter: ")
      { w with session := smfInternalFetchUserData settings env.queryUser w.session } =
    modulesStop cmime settings env w from rfl, stopExit]
  dsimp only
  split_ifs <;> simp

/-! ## What the parts return -/

theorem smfModulesFlushDirty_cases (io : FlushIo) (tmp : Bytes) (init : List Header)
    (w : World M) :
    ((smfModulesFlushDirty cmime io tmp init w).ret = 0 ∨
        (smfModulesFlushDirty cmime io tmp init w).ret = -1) ∧
      ∃ ops : List FileOp, (smfModulesFlushDirty cmime io tmp init w).events = ops.map .file := by
  unfold smfModulesFlushDirty
  split
  · exact ⟨Or.inl rfl, [], rfl⟩
  · dsimp only
    split
    · exact ⟨Or.inr rfl, [], rfl⟩
    · exact ⟨Or.inr rfl, [.create tmp, .unlink _], rfl⟩
    · exact ⟨Or.inl rfl, [.create tmp, .unlink _, .rename tmp _], rfl⟩
    · exact ⟨Or.inr rfl, [.create tmp], rfl⟩

/-- The flush fails when a header has changed and the new spool file cannot be
put in the place of the old one. -/
theorem smfModulesFlushDirty_fails (io : FlushIo) (tmp : Bytes) (init : List Header)
    (w : World M) :
    (smfModulesFlushDirty cmime io tmp init w).ret = -1 ↔
      headersDirty (cmime.headers w.message.msg) init = true ∧
        (io = .done → w.spool.isNone = true) := by
  unfold smfModulesFlushDirty
  split
  · rename_i hclean
    rw [hclean]
    exact iff_of_false (by simp) (by simp)
  · rename_i hdirty
    have hdirty : headersDirty (cmime.headers w.message.msg) init = true := by simpa using hdirty
    rw [hdirty]
    cases hspool : w.spool <;> cases io <;> simp

/-- A next hop function returns `0` or `-1` and tells so. -/
theorem smfNexthopFind_cases {next : World M → Outcome M}
    (h : smfNexthopFind cmime settings env.nexthop = some next) (w : World M) :
    ((next w).ret = 0 ∨ (next w).ret = -1) ∧
      ∃ rcpts, (next w).events = [.nexthop (next w).ret rcpts] := by
  unfold smfNexthopFind at h
  split_ifs at h with _ hfile
  · obtain rfl := Option.some.inj h
    unfold fileDeliveryNexthop
    dsimp only
    refine ⟨?_, _, rfl⟩
    split_ifs <;> simp
  · obtain rfl := Option.some.inj h
    unfold smtpDeliveryNexthop deliverEnvelope
    dsimp only
    split
    · exact ⟨Or.inr rfl, _, rfl⟩
    · refine ⟨?_, _, rfl⟩
      dsimp only
      split
      · exact Or.inr rfl
      · exact Or.inl rfl

end

end Spmfilter
