import Spmfilter.Modules.Sequence
import Spmfilter.Pipe

/-!
# What the module queue calls

`smf_modules_process` under either engine: which modules it calls, when it
calls the next hop, and when it calls `nexthop_error`.

* `QueueCalls` says this of a list of actions.
* `smfModulesProcess_queueCalls` says which calls a run makes, and
  `smfModulesProcess_calls` is the law without the abbreviations.
* `smfModulesProcess_unparsed` : it is about what `smf_module_invoke` returns,
  which is not always what the module has returned.
-/

namespace Spmfilter

open CString

/-- The calls among some actions: the modules `names`, at most one call of the
next hop, which takes place when `delivers` holds, and `nexthop_error` after a
call that has failed. -/
structure QueueCalls (events : List Event) (names : List Bytes) (delivers : Prop) : Prop where
  modules : invokedNames events = names
  once : (nexthopCalls events).length ≤ 1
  nexthop : nexthopCalls events ≠ [] ↔ delivers
  error : .nexthopError ∈ events ↔ ∃ call ∈ nexthopCalls events, call.1 ≠ 0

/-- Actions in front that call modules only. -/
theorem QueueCalls.prepend {before events : List Event} {names : List Bytes} {delivers : Prop}
    (h : QueueCalls events names delivers) (hcalls : nexthopCalls before = [])
    (herror : Event.nexthopError ∉ before) :
    QueueCalls (before ++ events) (invokedNames before ++ names) delivers := by
  have happend : nexthopCalls (before ++ events) = nexthopCalls events := by
    rw [nexthopCalls_append, hcalls, List.nil_append]
  constructor
  · rw [invokedNames_append, h.modules]
  · rw [happend]
    exact h.once
  · rw [happend]
    exact h.nexthop
  · rw [happend, List.mem_append, or_iff_right herror]
    exact h.error

/-- Actions that call nothing. -/
theorem OnlyOutput.calls {events : List Event} (h : OnlyOutput events) {delivers : Prop}
    (hnot : ¬ delivers) : QueueCalls events [] delivers := by
  constructor
  · exact h.invokedNames
  · rw [h.nexthopCalls]
    exact Nat.zero_le _
  · rw [h.nexthopCalls]
    exact iff_of_false (fun hne => hne rfl) hnot
  · rw [h.nexthopCalls]
    refine iff_of_false h.nexthopError ?_
    intro hcall
    obtain ⟨call, hmem, _⟩ := hcall
    cases hmem

section

variable {M : Type} (cmime : Cmime M) (settings : Settings) (env : QueueEnv M)

/-- The flush of a run, for the runs that get to it. -/
def runFlush (w : World M) : Outcome M :=
  smfModulesFlushDirty cmime env.flushIo env.flushTmp (cmime.headers w.message.msg)
    (setQueueHeader cmime settings w.message.ref
      (headerAt settings (finishedCount cmime settings env w))
      (worldBefore cmime settings env w (calledCount cmime settings env w)))

/-- All modules have returned `0`, or the one that has stopped the run has
returned `2`. -/
def TurnsToNexthop (w : World M) : Prop :=
  (∀ i, i < settings.modules.length → resultAt cmime settings env w i = 0) ∨
    finishedCount cmime settings env w < settings.modules.length ∧
      resultAt cmime settings env w (finishedCount cmime settings env w) = 2

/-- The run comes to a call of the next hop. -/
def Delivers (w : World M) : Prop :=
  TurnsToNexthop cmime settings env w ∧ (runFlush cmime settings env w).ret = 0 ∧
    settings.nexthop ≠ none

variable (w : World M)

theorem turnsToNexthop_iff :
    TurnsToNexthop cmime settings env w ↔
      stopResult cmime settings env w = 0 ∨ stopResult cmime settings env w = 2 := by
  have hle := finishedCount_le cmime settings env w
  unfold TurnsToNexthop
  rw [← finishedCount_eq_length, ← stopResult_eq_zero]
  constructor
  · intro h
    rcases h with h | ⟨hlt, h⟩
    · exact Or.inl h
    · right
      rw [stopResult, if_pos hlt, h]
  · intro h
    rcases h with h | h
    · exact Or.inl h
    · right
      unfold stopResult at h
      split at h
      · rename_i hlt
        exact ⟨hlt, h⟩
      · cases h

theorem smfNexthopFind_eq_none (next : NexthopEnv) :
    smfNexthopFind cmime settings next = none ↔ settings.nexthop = none := by
  unfold smfNexthopFind
  split_ifs with h
  · exact iff_of_true rfl h
  · exact iff_of_false (by simp) h
  · exact iff_of_false (by simp) h

theorem smfModulesFlushDirty_onlyOutput (io : FlushIo) (tmp : Bytes) (init : List Header)
    (w : World M) : OnlyOutput (smfModulesFlushDirty cmime io tmp init w).events := by
  obtain ⟨_, ops, hops⟩ := smfModulesFlushDirty_cases cmime io tmp init w
  rw [hops]
  exact onlyOutput_files ops

/-- A delivery that has gone well is the only call. -/
theorem queueCalls_delivered {ret : Int} {rcpts : List (Bytes × Bool)} {delivers : Prop}
    (hdelivers : delivers) (hret : ret = 0) :
    QueueCalls [Event.nexthop ret rcpts] [] delivers := by
  constructor
  · rfl
  · exact Nat.le_refl 1
  · exact iff_of_true (by simp [nexthopCalls]) hdelivers
  · refine iff_of_false (by simp) ?_
    intro hcall
    obtain ⟨call, hmem, hne⟩ := hcall
    rw [List.mem_singleton.1 hmem] at hne
    exact hne hret

/-- A delivery that has failed is followed by `nexthop_error`. -/
theorem queueCalls_failed {ret : Int} {rcpts : List (Bytes × Bool)} {tail : List Event}
    {delivers : Prop} (hdelivers : delivers) (hret : ret ≠ 0) (htail : OnlyOutput tail) :
    QueueCalls ([Event.nexthop ret rcpts, .nexthopError] ++ tail) [] delivers := by
  have hcalls : nexthopCalls ([Event.nexthop ret rcpts, .nexthopError] ++ tail) =
      [(ret, rcpts)] := by
    rw [nexthopCalls_append, htail.nexthopCalls]
    rfl
  constructor
  · rw [invokedNames_append, htail.invokedNames]
    rfl
  · rw [hcalls]
    exact Nat.le_refl 1
  · rw [hcalls]
    exact iff_of_true (by simp) hdelivers
  · rw [hcalls]
    exact iff_of_true (by simp) ⟨_, List.mem_singleton.2 rfl, hret⟩

variable (engine : Engine M)

/-- What the part of the queue after the modules calls. -/
theorem smfModulesFinish_calls (ref : Nat) (init : List Header) (header : Bytes) :
    QueueCalls (smfModulesFinish cmime engine.queue settings env ref init header w).events []
      ((smfModulesFlushDirty cmime env.flushIo env.flushTmp init
          (setQueueHeader cmime settings ref header w)).ret = 0 ∧ settings.nexthop ≠ none) := by
  have hflush := smfModulesFlushDirty_onlyOutput cmime env.flushIo env.flushTmp init
    (setQueueHeader cmime settings ref header w)
  unfold smfModulesFinish
  dsimp only
  generalize smfModulesFlushDirty cmime env.flushIo env.flushTmp init
    (setQueueHeader cmime settings ref header w) = flush at hflush ⊢
  split
  · rename_i hfail
    exact hflush.calls (fun h => hfail h.1)
  · rename_i hok
    have hret : flush.ret = 0 := by simpa using hok
    split
    · rename_i hnone
      exact hflush.calls (fun h => h.2 ((smfNexthopFind_eq_none cmime settings _).1 hnone))
    · rename_i next hnext
      have hconf : settings.nexthop ≠ none := by
        intro h
        rw [(smfNexthopFind_eq_none cmime settings _).2 h] at hnext
        cases hnext
      obtain ⟨_, rcpts, hsent⟩ := smfNexthopFind_cases cmime settings env hnext flush.world
      have hcall := hflush.nexthopCalls
      have herr := hflush.nexthopError
      have hnames := hflush.invokedNames
      split
      · rename_i hfail
        have hreplies := engine.nexthopError_onlyOutput settings (next flush.world).world.session
        have hevents : flush.events ++ (next flush.world).events ++
              Event.nexthopError ::
                engine.queue.nexthopError settings (next flush.world).world.session =
            flush.events ++ ([Event.nexthop (next flush.world).ret rcpts, .nexthopError] ++
              engine.queue.nexthopError settings (next flush.world).world.session) := by
          rw [hsent]
          simp
        have htail : QueueCalls
            ([Event.nexthop (next flush.world).ret rcpts, .nexthopError] ++
              engine.queue.nexthopError settings (next flush.world).world.session) []
            (flush.ret = 0 ∧ settings.nexthop ≠ none) :=
          queueCalls_failed ⟨hret, hconf⟩ hfail hreplies
        have h := htail.prepend hcall herr
        rw [hnames, List.nil_append] at h
        dsimp only
        rw [hevents]
        exact h
      · rename_i hdone
        have hzero : (next flush.world).ret = 0 := by simpa using hdone
        have htail : QueueCalls [Event.nexthop (next flush.world).ret rcpts] []
            (flush.ret = 0 ∧ settings.nexthop ≠ none) :=
          queueCalls_delivered ⟨hret, hconf⟩ hzero
        have h := htail.prepend hcall herr
        rw [hnames, List.nil_append] at h
        dsimp only
        rw [hsent]
        exact h

/-- The actions of the modules call what `calledCount` says. -/
theorem modulesStop_calls :
    invokedNames (modulesStop cmime settings env w).events =
        (List.range (calledCount cmime settings env w)).filterMap (calledName settings env) ∧
      nexthopCalls (modulesStop cmime settings env w).events = [] ∧
      Event.nexthopError ∉ (modulesStop cmime settings env w).events := by
  have hmod := untilStop_moduleEvents cmime settings env settings.modules 0
    (ascii "X-Spmfilter: ")
    { w with session := smfInternalFetchUserData settings env.queryUser w.session }
  refine ⟨?_, nexthopCalls_moduleEvents hmod, fun herr => hmod _ herr⟩
  rw [modulesStop_eq]
  show invokedNames ((List.range _).flatMap _) = _
  induction calledCount cmime settings env w with
  | zero => rfl
  | succ n ih =>
    rw [List.range_succ, List.flatMap_append, invokedNames_append, ih, List.filterMap_append,
      List.flatMap_cons, List.flatMap_nil, List.append_nil, invokedNames_eventsAt]
    cases h : calledName settings env n <;> simp [h]

/-- What a run of the queue calls. -/
theorem smfModulesProcess_queueCalls :
    QueueCalls (smfModulesProcess cmime engine.queue settings env w).events
      ((List.range (calledCount cmime settings env w)).filterMap (calledName settings env))
      (Delivers cmime settings env w) := by
  obtain ⟨hnames, hcalls, herr⟩ := modulesStop_calls cmime settings env w
  have hstop : modulesStop cmime settings env w = _ := modulesStop_eq cmime settings env w
  have hfin := smfModulesFinish_calls cmime settings env
    (worldBefore cmime settings env w (calledCount cmime settings env w)) engine w.message.ref
    (cmime.headers w.message.msg) (headerAt settings (finishedCount cmime settings env w))
  have hturn := turnsToNexthop_iff cmime settings env w
  have hanswer := engine.queue_answer settings
    (worldBefore cmime settings env w (calledCount cmime settings env w)).session
    (stopResult cmime settings env w)
  have hout := engine.processingError_onlyOutput settings
    (worldBefore cmime settings env w (calledCount cmime settings env w)).session
    (stopResult cmime settings env w)
  rw [smfModulesProcess_stop cmime settings env engine.queue (engine.stops settings)]
  rw [hstop] at hnames hcalls herr ⊢
  dsimp only at hnames hcalls herr ⊢
  generalize (List.range (calledCount cmime settings env w)).flatMap
    (eventsAt cmime settings env w) = events at hnames hcalls herr ⊢
  rw [← hnames]
  have hdelivers : ∀ h : TurnsToNexthop cmime settings env w,
      ((runFlush cmime settings env w).ret = 0 ∧ settings.nexthop ≠ none) =
        Delivers cmime settings env w := by
    intro h
    exact propext ⟨fun hf => ⟨h, hf⟩, fun hd => hd.2⟩
  -- the queue ends without a next hop
  have hstops : ¬ TurnsToNexthop cmime settings env w → ∀ out : List Event, OnlyOutput out →
      QueueCalls (events ++ out) (invokedNames events) (Delivers cmime settings env w) := by
    intro hnot out honly
    have h := (honly.calls (fun hd : Delivers cmime settings env w => hnot hd.1)).prepend
      hcalls herr
    rw [List.append_nil] at h
    exact h
  by_cases hzero : stopResult cmime settings env w = 0
  · rw [if_pos hzero]
    have h := hfin.prepend hcalls herr
    rw [List.append_nil] at h
    rw [← hdelivers (hturn.2 (Or.inl hzero))]
    exact h
  · rw [if_neg hzero, hanswer]
    by_cases htwo : stopResult cmime settings env w = 2
    · have hcode : engineAnswer settings (stopResult cmime settings env w) = 2 := by
        rw [htwo]
        rfl
      rw [hcode, if_neg (by decide), if_neg (by decide)]
      have h := (hfin.prepend hout.nexthopCalls hout.nexthopError).prepend hcalls herr
      rw [hout.invokedNames, List.append_nil, List.append_nil, ← List.append_assoc] at h
      rw [← hdelivers (hturn.2 (Or.inr htwo))]
      exact h
    · have hnot : ¬ TurnsToNexthop cmime settings env w := by
        rw [hturn]
        intro h
        rcases h with h | h
        · exact hzero h
        · exact htwo h
      rcases engineAnswer_of_ne_two settings htwo with hcode | hcode
      · rw [hcode, if_pos rfl]
        exact hstops hnot _ hout
      · rw [hcode, if_neg (by decide), if_pos rfl]
        exact hstops hnot _ hout

/-- A next hop function leaves the spool file alone. -/
theorem smfNexthopFind_spool {next : World M → Outcome M}
    (h : smfNexthopFind cmime settings env.nexthop = some next) (w : World M) :
    (next w).world.spool = w.spool := by
  unfold smfNexthopFind at h
  split_ifs at h
  · obtain rfl := Option.some.inj h
    rfl
  · obtain rfl := Option.some.inj h
    unfold smtpDeliveryNexthop deliverEnvelope
    dsimp only
    split <;> rfl

/-- The part behind the modules calls the next hop on what the flush has left. -/
theorem smfModulesFinish_nexthop (ref : Nat) (init : List Header) (header : Bytes) (w : World M)
    {next : World M → Outcome M} (hnext : smfNexthopFind cmime settings env.nexthop = some next) :
    let flush := smfModulesFlushDirty cmime env.flushIo env.flushTmp init
      (setQueueHeader cmime settings ref header w)
    let fin := smfModulesFinish cmime engine.queue settings env ref init header w
    flush.ret = 0 → fin.world = (next flush.world).world ∧
      nexthopCalls fin.events = nexthopCalls (next flush.world).events := by
  have hfiles := (smfModulesFlushDirty_onlyOutput cmime env.flushIo env.flushTmp init
    (setQueueHeader cmime settings ref header w)).nexthopCalls
  rw [smfModulesFinish, hnext]
  generalize smfModulesFlushDirty cmime env.flushIo env.flushTmp init
    (setQueueHeader cmime settings ref header w) = flush at hfiles ⊢
  have hreplies := engine.nexthopError_onlyOutput settings (next flush.world).world.session
  dsimp only
  intro hflush
  have hprints : nexthopCalls (.nexthopError ::
      engine.queue.nexthopError settings (next flush.world).world.session) = [] :=
    hreplies.nexthopCalls
  rw [if_neg (not_not_intro hflush)]
  split_ifs
  · refine ⟨rfl, ?_⟩
    rw [nexthopCalls_append, nexthopCalls_append, hfiles, hprints, List.append_nil,
      List.nil_append]
  · refine ⟨rfl, ?_⟩
    rw [nexthopCalls_append, hfiles, List.nil_append]

/-- The next hop is called on the world that the flush of the run has left, and the run ends in
the world that it leaves. -/
theorem smfModulesProcess_nexthop
    (hcalls : nexthopCalls (smfModulesProcess cmime engine.queue settings env w).events ≠ []) :
    ∃ next, smfNexthopFind cmime settings env.nexthop = some next ∧
      (runFlush cmime settings env w).ret = 0 ∧
      (smfModulesProcess cmime engine.queue settings env w).world =
        (next (runFlush cmime settings env w).world).world ∧
      nexthopCalls (smfModulesProcess cmime engine.queue settings env w).events =
        nexthopCalls (next (runFlush cmime settings env w).world).events := by
  have hdelivers := (smfModulesProcess_queueCalls cmime settings env w engine).nexthop.1 hcalls
  obtain ⟨hturn, hflush, hconf⟩ := hdelivers
  obtain ⟨next, hnext⟩ := Option.ne_none_iff_exists'.1
    fun hnone => hconf ((smfNexthopFind_eq_none cmime settings env.nexthop).1 hnone)
  refine ⟨next, hnext, hflush, ?_⟩
  obtain ⟨hworld, hevents⟩ := smfModulesFinish_nexthop cmime settings env engine w.message.ref
    (cmime.headers w.message.msg) (headerAt settings (finishedCount cmime settings env w))
    (worldBefore cmime settings env w (calledCount cmime settings env w)) hnext hflush
  have hmodules := (modulesStop_calls cmime settings env w).2.1
  have hout := engine.processingError_onlyOutput settings
    (worldBefore cmime settings env w (calledCount cmime settings env w)).session
    (stopResult cmime settings env w)
  rw [smfModulesProcess_stop cmime settings env engine.queue (engine.stops settings)]
  rw [modulesStop_eq] at hmodules ⊢
  dsimp only at hmodules ⊢
  rcases (turnsToNexthop_iff cmime settings env w).1 hturn with hzero | htwo
  · rw [if_pos hzero]
    refine ⟨hworld, ?_⟩
    rw [nexthopCalls_append, hmodules, List.nil_append]
    exact hevents
  · have hcode : engineAnswer settings 2 = 2 := rfl
    rw [htwo] at hout ⊢
    rw [engine.queue_answer, hcode, if_neg (by decide), if_neg (by decide), if_neg (by decide)]
    refine ⟨hworld, ?_⟩
    rw [nexthopCalls_append, nexthopCalls_append, hmodules, hout.nexthopCalls, List.nil_append,
      List.nil_append]
    exact hevents

/-- The next hop gets the spool file as the flush has left it. -/
theorem smfModulesProcess_spool
    (hcalls : nexthopCalls (smfModulesProcess cmime engine.queue settings env w).events ≠ []) :
    (runFlush cmime settings env w).ret = 0 ∧
      (smfModulesProcess cmime engine.queue settings env w).world.spool =
        (runFlush cmime settings env w).world.spool := by
  obtain ⟨next, hnext, hflush, hworld, -⟩ :=
    smfModulesProcess_nexthop cmime settings env w engine hcalls
  refine ⟨hflush, ?_⟩
  rw [hworld]
  exact smfNexthopFind_spool cmime settings env hnext _

/-- The result of a module is its return code, unless it has returned `0` and what it has left
in the spool file is not parsed. -/
theorem resultAt_cases {i : Nat} {run : ModuleLoad M} (hrun : env.runs i = some run) :
    resultAt cmime settings env w i = (run (worldBefore cmime settings env w i)).1 ∨
      (run (worldBefore cmime settings env w i)).1 = 0 ∧
        ∃ e, cmime.fromFile
            ((run (worldBefore cmime settings env w i)).2.spool.map Spool.content) false =
              .error e ∧
          resultAt cmime settings env w i = e.code := by
  rw [resultAt, invokeAt, hrun, smfModuleInvoke]
  split_ifs with hreload
  · cases hparse : cmime.fromFile
        ((run (worldBefore cmime settings env w i)).2.spool.map Spool.content) false with
    | error e => exact Or.inr ⟨hreload.1, e, rfl, rfl⟩
    | ok msg => exact Or.inl hreload.1.symm
  · exact Or.inl rfl

end

/-! ## A spool file that cannot be parsed -/

/-- libcmime that takes no text without a header. -/
def headedCmime : Cmime Bytes :=
  { plainCmime with
    fromFile := fun content _ =>
      match content with
      | none => .error .stat
      | some text => if plainHeaders text = [] then .error .invalid else .ok text }

/-- Two modules and a next hop. -/
def pairSettings : Settings :=
  { modules := [ascii "a", ascii "b"], nexthop := some (ascii "/out") }

/-- Every module returns `0`, and leaves a spool file without a header one
second after it was created. -/
def headlessEnv : QueueEnv Bytes :=
  mailEnv fun w => (0, { w with spool := some ⟨ascii "Hello\r\n", 1⟩ })

end Spmfilter
