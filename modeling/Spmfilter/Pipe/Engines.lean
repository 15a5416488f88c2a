import Spmfilter.Pipe

/-!
# One queue, two engines

The engines hand different callbacks to `smf_modules_process`.  What they print differs; what
the queue does does not.

* `withoutReplies` are the actions of a run other than its output.
* `ProcessQueue.Agrees` says of two queues that their callbacks answer the same and do nothing
  but print.
* `smfModulesProcess_agrees` carries this over a whole run.
-/

namespace Spmfilter

open CString

/-- The actions other than replies. -/
def withoutReplies (events : List Event) : List Event :=
  events.filter fun e =>
    match e with
    | .reply _ => false
    | _ => true

@[simp] theorem withoutReplies_append (a b : List Event) :
    withoutReplies (a ++ b) = withoutReplies a ++ withoutReplies b :=
  List.filter_append a b

theorem withoutReplies_nexthopError (events : List Event) :
    withoutReplies (.nexthopError :: events) = .nexthopError :: withoutReplies events := rfl

/-- The callbacks of two queues answer the same and do nothing but print. -/
structure ProcessQueue.Agrees (settings : Settings) (q q' : ProcessQueue) : Prop where
  code : ∀ session ret,
    (q.processingError settings session ret).1 = (q'.processingError settings session ret).1
  prints : ∀ session ret, withoutReplies (q.processingError settings session ret).2 = [] ∧
    withoutReplies (q'.processingError settings session ret).2 = []
  printsNexthop : ∀ session, withoutReplies (q.nexthopError settings session) = [] ∧
    withoutReplies (q'.nexthopError settings session) = []

section

variable {M : Type} (settings : Settings)

theorem smfSmtpdStringReply_prints (p : Vasprintf) (text : Bytes) :
    withoutReplies (smfSmtpdStringReply p text) = [] := by
  unfold smfSmtpdStringReply
  split <;> rfl

theorem Engine.processingError_prints (engine : Engine M) (session : Session) (ret : Int) :
    withoutReplies (engine.queue.processingError settings session ret).2 = [] := by
  cases engine with
  | smtpd d =>
    show withoutReplies (smfSmtpdHandleQProcessingError d settings session ret).2 = []
    unfold smfSmtpdHandleQProcessingError
    split_ifs
    · rfl
    · rfl
    · rfl
    · rfl
    · cases session.responseMsg with
      | none => rfl
      | some msg => exact smfSmtpdStringReply_prints _ _
    · rfl
    · cases session.responseMsg with
      | none => rfl
      | some msg => exact smfSmtpdStringReply_prints _ _
  | pipe =>
    show withoutReplies (smfPipeHandleQProcessingError settings session ret).2 = []
    unfold smfPipeHandleQProcessingError
    split_ifs
    · rfl
    · rfl
    · rfl
    · rfl
    · cases session.responseMsg <;> rfl

theorem Engine.nexthopError_prints (engine : Engine M) (session : Session) :
    withoutReplies (engine.queue.nexthopError settings session) = [] := by
  cases engine with
  | smtpd d => exact smfSmtpdStringReply_prints _ _
  | pipe => rfl

theorem Engine.agrees (engine engine' : Engine M) :
    engine.queue.Agrees settings engine'.queue where
  code := fun session ret => by
    rw [engine.queue_answer, engine'.queue_answer]
  prints := fun session ret => ⟨engine.processingError_prints settings session ret,
    engine'.processingError_prints settings session ret⟩
  printsNexthop := fun session =>
    ⟨engine.nexthopError_prints settings session, engine'.nexthopError_prints settings session⟩

end

section

variable {M : Type} (cmime : Cmime M) {settings : Settings} (env : QueueEnv M) {q q' : ProcessQueue}

/-- The module loop is left in the same way. -/
theorem smfModulesLoop_agrees (h : q.Agrees settings q') (mods : List Bytes) (modCount : Nat)
    (ret : Int) (header : Bytes) (w : World M) :
    (smfModulesLoop cmime q settings env mods modCount ret header w).1 =
        (smfModulesLoop cmime q' settings env mods modCount ret header w).1 ∧
      withoutReplies (smfModulesLoop cmime q settings env mods modCount ret header w).2 =
        withoutReplies (smfModulesLoop cmime q' settings env mods modCount ret header w).2 := by
  induction mods generalizing modCount ret header w with
  | nil => exact ⟨rfl, rfl⟩
  | cons name mods ih =>
    rw [smfModulesLoop, smfModulesLoop]
    generalize smfModuleInvoke cmime name (env.runs modCount) w = inv
    obtain ⟨hq, hq'⟩ := h.prints inv.world.session inv.ret
    have hcode := h.code inv.world.session inv.ret
    dsimp only
    rw [hcode]
    split_ifs
    · exact ⟨rfl, by rw [withoutReplies_append, withoutReplies_append, hq, hq']⟩
    · exact ⟨rfl, by rw [withoutReplies_append, withoutReplies_append, hq, hq']⟩
    · exact ⟨rfl, by rw [withoutReplies_append, withoutReplies_append, hq, hq']⟩
    · obtain ⟨hexit, hevents⟩ := ih (modCount + 1)
        (q'.processingError settings inv.world.session inv.ret).1
        (appendModuleName settings header name (modCount + 1)) inv.world
      refine ⟨hexit, ?_⟩
      simp only [withoutReplies_append, hq, hq', hevents]
    · obtain ⟨hexit, hevents⟩ := ih (modCount + 1) 0
        (appendModuleName settings header name (modCount + 1)) inv.world
      refine ⟨hexit, ?_⟩
      rw [withoutReplies_append, withoutReplies_append, hevents]

/-- So is the part behind it. -/
theorem smfModulesFinish_agrees (h : q.Agrees settings q') (ref : Nat) (init : List Header)
    (header : Bytes) (w : World M) :
    let out := smfModulesFinish cmime q settings env ref init header w
    let out' := smfModulesFinish cmime q' settings env ref init header w
    out.ret = out'.ret ∧ out.world = out'.world ∧
      withoutReplies out.events = withoutReplies out'.events := by
  intro out out'
  unfold out out' smfModulesFinish
  generalize smfModulesFlushDirty cmime env.flushIo env.flushTmp init
    (setQueueHeader cmime settings ref header w) = flush
  by_cases hflush : flush.ret = 0
  · rw [if_neg (not_not_intro hflush), if_neg (not_not_intro hflush)]
    cases smfNexthopFind cmime settings env.nexthop with
    | none => exact ⟨rfl, rfl, rfl⟩
    | some nexthop =>
      dsimp only
      generalize nexthop flush.world = sent
      obtain ⟨hq, hq'⟩ := h.printsNexthop sent.world.session
      split_ifs
      · refine ⟨rfl, rfl, ?_⟩
        simp only [withoutReplies_append, withoutReplies_nexthopError, hq, hq']
      · exact ⟨rfl, rfl, rfl⟩
  · rw [if_pos hflush, if_pos hflush]
    exact ⟨rfl, rfl, rfl⟩

/-- The whole queue: the result, the world and every action but the output. -/
theorem smfModulesProcess_agrees (h : q.Agrees settings q') (w : World M) :
    let out := smfModulesProcess cmime q settings env w
    let out' := smfModulesProcess cmime q' settings env w
    out.ret = out'.ret ∧ out.world = out'.world ∧
      withoutReplies out.events = withoutReplies out'.events := by
  intro out out'
  unfold out out' smfModulesProcess
  obtain ⟨hexit, hevents⟩ := smfModulesLoop_agrees cmime env h settings.modules 0 0
    (ascii "X-Spmfilter: ")
    { w with session := smfInternalFetchUserData settings env.queryUser w.session }
  dsimp only
  rw [hexit]
  generalize (smfModulesLoop cmime q' settings env settings.modules 0 0 (ascii "X-Spmfilter: ")
    { w with session := smfInternalFetchUserData settings env.queryUser w.session }).1 = exit
  cases exit with
  | returned ret w' => exact ⟨rfl, rfl, hevents⟩
  | ended ret header w' =>
    dsimp only
    split_ifs
    · obtain ⟨hret, hworld, hfinish⟩ := smfModulesFinish_agrees cmime env h w.message.ref
        (cmime.headers w.message.msg) header w'
      refine ⟨hret, hworld, ?_⟩
      rw [withoutReplies_append, withoutReplies_append, hevents, hfinish]
    · exact ⟨rfl, rfl, hevents⟩

/-- **The engines differ in their output alone.** -/
theorem engines_agree (settings : Settings) (engine engine' : Engine M) (w : World M) :
    let out := smfModulesProcess cmime engine.queue settings env w
    let out' := smfModulesProcess cmime engine'.queue settings env w
    out.ret = out'.ret ∧ out.world = out'.world ∧
      withoutReplies out.events = withoutReplies out'.events :=
  smfModulesProcess_agrees cmime env (engine.agrees settings engine') w

end

end Spmfilter
