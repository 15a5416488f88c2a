import Spmfilter.Modules.Stop
import Spmfilter.Smtpd.Reply

/-!
# The outcomes of the module queue

Everything that `smf_smtpd_process_modules` can do, as one relation.
`Processed` has a case for each way through the queue: the stop of the modules,
the engine's answer to it, the flush, the next hop, and the reply to the
client.  `smfSmtpdProcessModules_processed` says that there is no other.
-/

namespace Spmfilter

open CString

section

variable {M : Type} (d : Daemon M)

/-! ## The replies -/

/-- The reply when a module has returned `1`. -/
def acceptedReply (session : Session) : Bytes :=
  match session.responseMsg with
  | some msg => d.vasprintf.expand (ascii "250 " ++ msg ++ CRLF)
  | none => CODE_250_ACCEPTED

/-- The reply to any other result of a module. -/
def moduleReply (session : Session) (ret : Int) : Bytes :=
  match session.responseMsg with
  | some msg => d.vasprintf.expand (formatInt ret ++ ascii " " ++ msg ++ CRLF)
  | none => smfSmtpdCodeReply d.settings.smtpCodes ret

/-- The reply when the next hop has failed. -/
def nexthopReply : Bytes :=
  d.vasprintf.expand
    (formatInt d.settings.nexthopFailCode ++ ascii " " ++ d.settings.nexthopFailMsg ++ CRLF)

/-- The reply when the queue is through. -/
def doneReply (session : Session) : Bytes :=
  d.vasprintf.expand (processedText session)

/-- Literal text is printed, so the reply is sent. -/
theorem smfSmtpdStringReply_sent (p : Vasprintf) {text : Bytes} (rest : Bytes) (hne : text ≠ [])
    (hlit : PERCENT ∉ text) :
    smfSmtpdStringReply p (text ++ rest) = [.reply (p.expand (text ++ rest))] := by
  rw [smfSmtpdStringReply_literal p rest hne hlit, p.literal text rest hlit]

theorem smfSmtpdStringReply_250 (p : Vasprintf) (msg rest : Bytes) :
    smfSmtpdStringReply p (ascii "250 " ++ msg ++ rest) =
      [.reply (p.expand (ascii "250 " ++ msg ++ rest))] := by
  rw [List.append_assoc]
  exact smfSmtpdStringReply_sent p _ (by decide) (by decide)

theorem smfSmtpdStringReply_code (p : Vasprintf) (code : Int) (msg rest : Bytes) :
    smfSmtpdStringReply p (formatInt code ++ ascii " " ++ msg ++ rest) =
      [.reply (p.expand (formatInt code ++ ascii " " ++ msg ++ rest))] := by
  rw [List.append_assoc]
  apply smfSmtpdStringReply_sent
  · simp [ascii]
  · intro h
    rcases List.mem_append.1 h with h | h
    · exact percent_notMem_formatInt code h
    · exact absurd h (by decide)

theorem smfSmtpdHandleNexthopError_eq (session : Session) :
    smfSmtpdHandleNexthopError d d.settings session = [.reply (nexthopReply d)] := by
  rw [smfSmtpdHandleNexthopError, smfSmtpdStringReply_code, nexthopReply]

/-- The engine's answer to a result of a module. -/
inductive QueueAnswer (session : Session) : Int → Int → List Event → Prop where
  | ignored (h : d.settings.moduleFail = 1) : QueueAnswer session (-1) 1 []
  | failed (code : Int)
      (h : d.settings.moduleFail = 2 ∧ code = 552 ∨ d.settings.moduleFail = 3 ∧ code = 451) :
      QueueAnswer session (-1) 0 [.reply (smfSmtpdCodeReply d.settings.smtpCodes code)]
  | silent (h : d.settings.moduleFail ≠ 1 ∧ d.settings.moduleFail ≠ 2 ∧ d.settings.moduleFail ≠ 3) :
      QueueAnswer session (-1) 0 []
  | accepted : QueueAnswer session 1 1 [.reply (acceptedReply d session)]
  | deliver : QueueAnswer session 2 2 []
  | other (ret : Int) (h : ret ≠ -1 ∧ ret ≠ 1 ∧ ret ≠ 2) :
      QueueAnswer session ret 1 [.reply (moduleReply d session ret)]

theorem smfSmtpdHandleQProcessingError_answer (session : Session) (ret : Int) :
    QueueAnswer d session ret (smfSmtpdHandleQProcessingError d d.settings session ret).1
      (smfSmtpdHandleQProcessingError d d.settings session ret).2 := by
  unfold smfSmtpdHandleQProcessingError
  split_ifs with hfail h1 h2 h3 hone htwo
  · rw [hfail]
    exact .ignored h1
  · rw [hfail]
    exact .failed 552 (Or.inl ⟨h2, rfl⟩)
  · rw [hfail]
    exact .failed 451 (Or.inr ⟨h3, rfl⟩)
  · rw [hfail]
    exact .silent ⟨h1, h2, h3⟩
  · rw [hone]
    have haccepted := @QueueAnswer.accepted _ d session
    unfold acceptedReply at haccepted
    cases hmsg : session.responseMsg with
    | none =>
      rw [hmsg] at haccepted
      exact haccepted
    | some msg =>
      rw [hmsg] at haccepted
      dsimp only at haccepted ⊢
      rw [smfSmtpdStringReply_250]
      exact haccepted
  · rw [htwo]
    exact .deliver
  · have hother := @QueueAnswer.other _ d session ret ⟨hfail, hone, htwo⟩
    unfold moduleReply at hother
    cases hmsg : session.responseMsg with
    | none =>
      rw [hmsg] at hother
      exact hother
    | some msg =>
      rw [hmsg] at hother
      dsimp only at hother ⊢
      rw [smfSmtpdStringReply_code]
      exact hother

theorem smtpdQueue_stops : (smtpdQueue d).Stops d.settings := by
  intro session ret _
  have hanswer := smfSmtpdHandleQProcessingError_answer d session ret
  show (smfSmtpdHandleQProcessingError d d.settings session ret).1 = 0 ∨
    (smfSmtpdHandleQProcessingError d d.settings session ret).1 = 1 ∨
    (smfSmtpdHandleQProcessingError d d.settings session ret).1 = 2
  generalize (smfSmtpdHandleQProcessingError d d.settings session ret).1 = code at hanswer ⊢
  generalize (smfSmtpdHandleQProcessingError d d.settings session ret).2 = out at hanswer
  cases hanswer <;> simp

/-! ## The ways through the queue -/

section Queue

variable (env : QueueEnv M) (w : World M)

/-- The stop of the modules in one run of the queue. -/
def queueStop : Stop M :=
  modulesStop d.cmime d.settings env w

/-- The flush after it. -/
def queueFlush : Outcome M :=
  smfModulesFlushDirty d.cmime env.flushIo env.flushTmp (d.cmime.headers w.message.msg)
    (setQueueHeader d.cmime d.settings w.message.ref (queueStop d env w).header
      (queueStop d env w).world)

/-- The modules have changed a header, or the queue has added one, and the new
spool file cannot be put in the place of the old one. -/
def FlushFails : Prop :=
  let left :=
    setQueueHeader d.cmime d.settings w.message.ref (queueStop d env w).header
      (queueStop d env w).world
  headersDirty (d.cmime.headers left.message.msg) (d.cmime.headers w.message.msg) = true ∧
    (env.flushIo = .done → left.spool.isNone = true)

theorem queueFlush_fails_iff : (queueFlush d env w).ret = -1 ↔ FlushFails d env w :=
  smfModulesFlushDirty_fails d.cmime env.flushIo env.flushTmp _ _

theorem queueFlush_ok_iff : (queueFlush d env w).ret = 0 ↔ ¬ FlushFails d env w := by
  rw [← queueFlush_fails_iff]
  have hret := (smfModulesFlushDirty_cases d.cmime env.flushIo env.flushTmp
    (d.cmime.headers w.message.msg)
    (setQueueHeader d.cmime d.settings w.message.ref (queueStop d env w).header
      (queueStop d env w).world)).1
  rw [← queueFlush] at hret
  omega

/-- The queue goes on to the flush. -/
def queueGoesOn : Prop :=
  (queueStop d env w).ret = 0 ∨ (queueStop d env w).ret = 2

theorem queueGoesOn_ne {d : Daemon M} {env : QueueEnv M} {w : World M} (h : queueGoesOn d env w) :
    (queueStop d env w).ret ≠ -1 ∧ (queueStop d env w).ret ≠ 1 := by
  rcases h with h | h <;> rw [h] <;> decide

theorem queueStop_moduleEvents : ∀ e ∈ (queueStop d env w).events, isModuleEvent e :=
  untilStop_moduleEvents d.cmime d.settings env _ _ _ _

theorem queueStop_replies : replies (queueStop d env w).events = [] :=
  replies_of_moduleEvents (queueStop_moduleEvents d env w)

/-- The ways through the queue, with the world that each leaves and its
actions. -/
inductive Processed : World M → List Event → Prop where
  | ignored (hret : (queueStop d env w).ret = -1) (h : d.settings.moduleFail = 1) :
      Processed (queueStop d env w).world (queueStop d env w).events
  | failed (hret : (queueStop d env w).ret = -1) (code : Int)
      (h : d.settings.moduleFail = 2 ∧ code = 552 ∨ d.settings.moduleFail = 3 ∧ code = 451) :
      Processed (queueStop d env w).world ((queueStop d env w).events ++
        [.reply (smfSmtpdCodeReply d.settings.smtpCodes code)])
  | silent (hret : (queueStop d env w).ret = -1)
      (h : d.settings.moduleFail ≠ 1 ∧ d.settings.moduleFail ≠ 2 ∧ d.settings.moduleFail ≠ 3) :
      Processed (queueStop d env w).world (queueStop d env w).events
  | accepted (hret : (queueStop d env w).ret = 1) :
      Processed (queueStop d env w).world ((queueStop d env w).events ++
        [.reply (acceptedReply d (queueStop d env w).world.session)])
  | answered (hret : (queueStop d env w).ret ≠ -1 ∧ (queueStop d env w).ret ≠ 0 ∧
        (queueStop d env w).ret ≠ 1 ∧ (queueStop d env w).ret ≠ 2) :
      Processed (queueStop d env w).world ((queueStop d env w).events ++
        [.reply (moduleReply d (queueStop d env w).world.session (queueStop d env w).ret)])
  | unflushed (hret : queueGoesOn d env w) (hflush : FlushFails d env w)
      (ops : List FileOp) :
      Processed (queueFlush d env w).world ((queueStop d env w).events ++ ops.map .file)
  | noNexthop (hret : queueGoesOn d env w) (hflush : ¬ FlushFails d env w)
      (hnext : smfNexthopFind d.cmime d.settings env.nexthop = none) (ops : List FileOp) :
      Processed (queueFlush d env w).world ((queueStop d env w).events ++ ops.map .file ++
        [.reply (doneReply d (queueFlush d env w).world.session)])
  | undelivered (hret : queueGoesOn d env w) (hflush : ¬ FlushFails d env w)
      (next : World M → Outcome M)
      (hnext : smfNexthopFind d.cmime d.settings env.nexthop = some next) (ops : List FileOp)
      (rcpts : List (Bytes × Bool))
      (hsent : (next (queueFlush d env w).world).events = [.nexthop (-1) rcpts]) :
      Processed (next (queueFlush d env w).world).world
        ((queueStop d env w).events ++ ops.map .file ++
        [.nexthop (-1) rcpts, .nexthopError, .reply (nexthopReply d)])
  | delivered (hret : queueGoesOn d env w) (hflush : ¬ FlushFails d env w)
      (next : World M → Outcome M)
      (hnext : smfNexthopFind d.cmime d.settings env.nexthop = some next) (ops : List FileOp)
      (rcpts : List (Bytes × Bool))
      (hsent : (next (queueFlush d env w).world).events = [.nexthop 0 rcpts]) :
      Processed (next (queueFlush d env w).world).world
        ((queueStop d env w).events ++ ops.map .file ++
        [.nexthop 0 rcpts,
          .reply (doneReply d (next (queueFlush d env w).world).world.session)])

/-- The reply at the end of the queue is sent. -/
theorem doneReply_sent (session : Session) :
    smfSmtpdStringReply d.vasprintf (processedText session) = [.reply (doneReply d session)] := by
  unfold doneReply processedText
  cases session.responseMsg with
  | some msg => exact smfSmtpdStringReply_250 d.vasprintf msg CRLF
  | none =>
    dsimp only
    rw [List.append_assoc]
    exact smfSmtpdStringReply_sent d.vasprintf _ (by decide) (by decide)

/-- What the part after the loop returns and does. -/
theorem smfModulesFinish_cases :
    ∃ ops : List FileOp,
      let fin := smfModulesFinish d.cmime (smtpdQueue d) d.settings env w.message.ref
        (d.cmime.headers w.message.msg) (queueStop d env w).header (queueStop d env w).world
      ((queueFlush d env w).ret = -1 ∧ fin.ret = -1 ∧ fin.world = (queueFlush d env w).world ∧
        fin.events = ops.map .file) ∨
      ((queueFlush d env w).ret = 0 ∧ smfNexthopFind d.cmime d.settings env.nexthop = none ∧
        fin.ret = 0 ∧ fin.world = (queueFlush d env w).world ∧ fin.events = ops.map .file) ∨
      ((queueFlush d env w).ret = 0 ∧ ∃ next rcpts,
        smfNexthopFind d.cmime d.settings env.nexthop = some next ∧
        fin.world = (next (queueFlush d env w).world).world ∧
        ((next (queueFlush d env w).world).events = [.nexthop (-1) rcpts] ∧ fin.ret = -1 ∧
            fin.events = ops.map .file ++
              [.nexthop (-1) rcpts, .nexthopError, .reply (nexthopReply d)] ∨
          (next (queueFlush d env w).world).events = [.nexthop 0 rcpts] ∧ fin.ret = 0 ∧
            fin.events = ops.map .file ++ [.nexthop 0 rcpts])) := by
  obtain ⟨hret, ops, hops⟩ := smfModulesFlushDirty_cases d.cmime env.flushIo env.flushTmp
    (d.cmime.headers w.message.msg)
    (setQueueHeader d.cmime d.settings w.message.ref (queueStop d env w).header
      (queueStop d env w).world)
  rw [← queueFlush] at hret hops
  refine ⟨ops, ?_⟩
  rw [smfModulesFinish, ← queueFlush]
  dsimp only
  rcases hret with hret | hret
  · rw [if_neg (fun h => h hret)]
    cases hnext : smfNexthopFind d.cmime d.settings env.nexthop with
    | none => exact Or.inr (Or.inl ⟨hret, rfl, hret, rfl, hops⟩)
    | some next =>
      obtain ⟨hsent, rcpts, hevents⟩ :=
        smfNexthopFind_cases d.cmime d.settings env hnext (queueFlush d env w).world
      refine Or.inr (Or.inr ⟨hret, next, rcpts, rfl, ?_⟩)
      dsimp only
      rcases hsent with hsent | hsent
      · rw [if_neg (fun h => h hsent), hops, hevents, hsent]
        exact ⟨rfl, Or.inr ⟨rfl, rfl, rfl⟩⟩
      · rw [if_pos (by rw [hsent]; decide), hops, hevents, hsent]
        refine ⟨rfl, Or.inl ⟨rfl, rfl, ?_⟩⟩
        rw [show (smtpdQueue d).nexthopError = smfSmtpdHandleNexthopError d from rfl,
          smfSmtpdHandleNexthopError_eq, List.append_assoc]
        rfl
  · rw [if_pos (by rw [hret]; decide)]
    exact Or.inl ⟨hret, hret, rfl, hops⟩

/-- `smf_smtpd_process_modules` when the queue goes on after the stop. -/
theorem processed_finish (hret : queueGoesOn d env w)
    (hout : smfModulesProcess d.cmime (smtpdQueue d) d.settings env w =
      let fin := smfModulesFinish d.cmime (smtpdQueue d) d.settings env w.message.ref
        (d.cmime.headers w.message.msg) (queueStop d env w).header (queueStop d env w).world
      ⟨fin.ret, fin.world, (queueStop d env w).events ++ fin.events⟩) :
    Processed d env w (smfSmtpdProcessModules d env w).world
      (smfSmtpdProcessModules d env w).events := by
  obtain ⟨ops, hfin⟩ := smfModulesFinish_cases d env w
  rw [smfSmtpdProcessModules, hout]
  dsimp only at hfin ⊢
  rcases hfin with ⟨hflush, hfret, hworld, hevents⟩ | ⟨hflush, hnext, hfret, hworld, hevents⟩ |
    ⟨hflush, next, rcpts, hnext, hworld, ⟨hsent, hfret, hevents⟩ | ⟨hsent, hfret, hevents⟩⟩
  · rw [if_pos hfret, hevents, hworld]
    exact .unflushed hret ((queueFlush_fails_iff d env w).1 hflush) ops
  · rw [if_neg (by rw [hfret]; decide), if_neg (by rw [hfret]; decide), hevents, hworld,
      doneReply_sent]
    exact .noNexthop hret ((queueFlush_ok_iff d env w).1 hflush) hnext ops
  · rw [if_pos hfret, hevents, hworld, ← List.append_assoc]
    exact .undelivered hret ((queueFlush_ok_iff d env w).1 hflush) next hnext ops rcpts hsent
  · rw [if_neg (by rw [hfret]; decide), if_neg (by rw [hfret]; decide), hevents, hworld,
      doneReply_sent, ← List.append_assoc, List.append_assoc]
    exact .delivered hret ((queueFlush_ok_iff d env w).1 hflush) next hnext ops rcpts hsent

/-- There is no other way. -/
theorem smfSmtpdProcessModules_processed :
    Processed d env w (smfSmtpdProcessModules d env w).world
      (smfSmtpdProcessModules d env w).events := by
  have hout := smfModulesProcess_stop d.cmime d.settings env (smtpdQueue d) (smtpdQueue_stops d) w
  dsimp only at hout
  rw [← queueStop, show (smtpdQueue d).processingError = smfSmtpdHandleQProcessingError d from rfl]
    at hout
  by_cases hzero : (queueStop d env w).ret = 0
  · rw [if_pos hzero] at hout
    exact processed_finish d env w (Or.inl hzero) hout
  rw [if_neg hzero] at hout
  have hanswer := smfSmtpdHandleQProcessingError_answer d (queueStop d env w).world.session
    (queueStop d env w).ret
  generalize hanswered : smfSmtpdHandleQProcessingError d d.settings
    (queueStop d env w).world.session (queueStop d env w).ret = answer at hout hanswer
  obtain ⟨code, out⟩ := answer
  generalize hstop : (queueStop d env w).ret = ret at hanswer hzero
  dsimp only at hout hanswer
  cases hanswer with
  | ignored h =>
    rw [if_neg (by decide), if_pos rfl] at hout
    rw [smfSmtpdProcessModules, hout]
    dsimp only
    rw [if_neg (by decide), if_pos rfl, List.append_nil]
    exact .ignored hstop h
  | failed fail h =>
    rw [if_pos rfl] at hout
    rw [smfSmtpdProcessModules, hout]
    dsimp only
    rw [if_pos rfl]
    exact .failed hstop fail h
  | silent h =>
    rw [if_pos rfl] at hout
    rw [smfSmtpdProcessModules, hout]
    dsimp only
    rw [if_pos rfl, List.append_nil]
    exact .silent hstop h
  | accepted =>
    rw [if_neg (by decide), if_pos rfl] at hout
    rw [smfSmtpdProcessModules, hout]
    dsimp only
    rw [if_neg (by decide), if_pos rfl]
    exact .accepted hstop
  | deliver =>
    rw [if_neg (by decide), if_neg (by decide), List.append_nil] at hout
    exact processed_finish d env w (Or.inr hstop) hout
  | other _ h =>
    rw [if_neg (by decide), if_pos rfl] at hout
    rw [smfSmtpdProcessModules, hout]
    dsimp only
    rw [if_neg (by decide), if_pos rfl, ← hstop]
    rw [← hstop] at h hzero
    exact .answered ⟨h.1, hzero, h.2.1, h.2.2⟩

end Queue

end

end Spmfilter
