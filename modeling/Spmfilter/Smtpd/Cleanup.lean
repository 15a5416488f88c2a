import Mathlib.Data.Finset.Basic
import Spmfilter.Smtpd.Outcome

/-!
# The files that a DATA phase leaves behind

`smf_smtpd_process_data` makes a spool file and removes it as its last action.  In between it
returns early, and two functions put a new file in the place of the spool file: the header
step and the flush of the queue.

* `filesLeft` follows the files that a run has made.
* `Replaced` and `Abandoned` are what a step that replaces a file does to the directory, and
  both functions do one or the other.
* `processDataFinish_cleans_iff` goes through the ways on after the loop, and
  `leavesNothing_iff` says exactly when nothing is left of the call.
-/

namespace Spmfilter

open CString

/-! ## The files that are left -/

/-- The changes of the queue directory among some actions. -/
def fileOps (events : List Event) : List FileOp :=
  events.filterMap fun e =>
    match e with
    | .file op => some op
    | _ => none

@[simp] theorem fileOps_append (a b : List Event) : fileOps (a ++ b) = fileOps a ++ fileOps b :=
  List.filterMap_append

theorem fileOps_eq_nil {events : List Event} (h : ∀ e ∈ events, ∀ op, e ≠ .file op) :
    fileOps events = [] := by
  apply List.filterMap_eq_nil_iff.2
  intro e he
  cases e with
  | file op => exact absurd rfl (h _ he op)
  | _ => rfl

/-- The files that have been made and are still there, after one more change. -/
def FileOp.after (left : Finset Bytes) : FileOp → Finset Bytes
  | .create path => insert path left
  | .unlink path => left.erase path
  | .rename source dest =>
    if source ∈ left then insert dest (left.erase source) else left.erase dest

/-- The files that have been made and are still there. -/
def filesLeft (left : Finset Bytes) (ops : List FileOp) : Finset Bytes :=
  ops.foldl FileOp.after left

theorem filesLeft_append (left : Finset Bytes) (a b : List FileOp) :
    filesLeft left (a ++ b) = filesLeft (filesLeft left a) b :=
  List.foldl_append

/-! ## A file in the place of another -/

section Replace

variable (tmp path : Bytes)

/-- The new file has the name of the old one, or nothing has happened. -/
def Replaced (ops : List FileOp) : Prop :=
  ops = [] ∨ ops = [.create tmp, .unlink path, .rename tmp path]

/-- The new file has been made and has kept its own name. -/
def Abandoned (ops : List FileOp) : Prop :=
  ops = [.create tmp] ∨ ops = [.create tmp, .unlink path]

variable {tmp path : Bytes} {ops : List FileOp} {left : Finset Bytes}

theorem Replaced.stays (h : Replaced tmp path ops) (hne : tmp ≠ path) :
    filesLeft {path} ops = {path} := by
  rcases h with rfl | rfl
  · rfl
  · show FileOp.after (({tmp, path} : Finset Bytes).erase path) (.rename tmp path) = {path}
    have herase : ({tmp, path} : Finset Bytes).erase path = {tmp} := by
      rw [Finset.pair_comm]
      exact Finset.erase_insert (by simpa using hne.symm)
    rw [herase, FileOp.after, if_pos (Finset.mem_singleton_self tmp), Finset.erase_singleton]
    rfl

theorem Abandoned.mem (h : Abandoned tmp path ops) (hne : tmp ≠ path) :
    tmp ∈ filesLeft left ops := by
  rcases h with rfl | rfl
  · exact Finset.mem_insert_self tmp left
  · exact Finset.mem_erase.mpr ⟨hne, Finset.mem_insert_self tmp left⟩

/-- Any other file stays. -/
theorem mem_filesLeft_replace {name : Bytes}
    (h : Replaced tmp path ops ∨ Abandoned tmp path ops) (htmp : name ≠ tmp) (hpath : name ≠ path)
    (hmem : name ∈ left) : name ∈ filesLeft left ops := by
  have hcreated : name ∈ insert tmp left := Finset.mem_insert_of_mem hmem
  have hunlinked : name ∈ (insert tmp left).erase path := Finset.mem_erase.mpr ⟨hpath, hcreated⟩
  rcases h with (rfl | rfl) | (rfl | rfl)
  · exact hmem
  · show name ∈ FileOp.after ((insert tmp left).erase path) (.rename tmp path)
    rw [FileOp.after]
    split_ifs
    · exact Finset.mem_insert_of_mem (Finset.mem_erase.mpr ⟨htmp, hunlinked⟩)
    · exact Finset.mem_erase.mpr ⟨hpath, hunlinked⟩
  · exact hcreated
  · exact hunlinked

end Replace

section

variable {M : Type}

/-! ## The header step -/

/-- A header is missing, and the temporary file of the header step stays. -/
def AppendLeaves (env : DataEnv M) (st : DataState) : Prop :=
  (st.foundMid && st.foundTo && st.foundFrom && st.foundDate) = false ∧
    env.appendIo ≠ .mkstemp ∧ env.appendIo ≠ .done

/-- What the header step does.  Where it loses the spool file, it leaves its own. -/
theorem completeHeaders_ops {env : DataEnv M} {session : Session} {path : Bytes}
    (hfile : session.messageFile = some path) (st : DataState) :
    ¬ AppendLeaves env st ∧
        Replaced env.appendTmp path (fileOps (completeHeaders env session st).events) ∨
      AppendLeaves env st ∧
        (fileOps (completeHeaders env session st).events = [.create env.appendTmp] ∨
          fileOps (completeHeaders env session st).events =
              [.create env.appendTmp, .unlink path] ∧
            (completeHeaders env session st).spool = none) := by
  unfold completeHeaders AppendLeaves
  by_cases hfound : (st.foundMid && st.foundTo && st.foundFrom && st.foundDate) = true
  · rw [if_pos hfound, hfound]
    exact Or.inl ⟨fun h => Bool.noConfusion h.1, Or.inl rfl⟩
  · rw [if_neg hfound, smfSmtpdAppendMissingHeaders, hfile]
    have hmissing := Bool.eq_false_iff.mpr hfound
    cases hio : env.appendIo with
    | mkstemp => exact Or.inl ⟨fun h => h.2.1 rfl, Or.inl rfl⟩
    | done => exact Or.inl ⟨fun h => h.2.2 rfl, Or.inr rfl⟩
    | rename => exact Or.inr ⟨⟨hmissing, by simp, by simp⟩, Or.inr ⟨rfl, rfl⟩⟩
    | openNew | write | openOld | unlink =>
      exact Or.inr ⟨⟨hmissing, by simp, by simp⟩, Or.inl rfl⟩

/-! ## The queue -/

section Queue

variable (d : Daemon M) (env : QueueEnv M) (w : World M)

/-- The queue comes to the flush, and its temporary file stays. -/
def FlushLeaves : Prop :=
  queueGoesOn d env w ∧ FlushFails d env w ∧ env.flushIo ≠ .mkstemp

/-- The changes of the directory in a flush. -/
theorem smfModulesFlushDirty_ops (cmime : Cmime M) (io : FlushIo) (tmp : Bytes)
    (init : List Header) (w : World M) :
    ¬ ((smfModulesFlushDirty cmime io tmp init w).ret = -1 ∧ io ≠ .mkstemp) ∧
        Replaced tmp (w.session.messageFile.getD [])
          (fileOps (smfModulesFlushDirty cmime io tmp init w).events) ∨
      ((smfModulesFlushDirty cmime io tmp init w).ret = -1 ∧ io ≠ .mkstemp) ∧
        Abandoned tmp (w.session.messageFile.getD [])
          (fileOps (smfModulesFlushDirty cmime io tmp init w).events) := by
  unfold smfModulesFlushDirty
  by_cases hclean : headersDirty (cmime.headers w.message.msg) init = false
  · rw [if_pos hclean]
    exact Or.inl ⟨fun h => absurd (show (0 : Int) = -1 from h.1) (by decide), Or.inl rfl⟩
  · rw [if_neg hclean]
    cases w.spool with
    | none =>
      cases io with
      | mkstemp => exact Or.inl ⟨fun h => h.2 rfl, Or.inl rfl⟩
      | _ => exact Or.inr ⟨⟨rfl, by simp⟩, Or.inl rfl⟩
    | some old =>
      cases io with
      | mkstemp => exact Or.inl ⟨fun h => h.2 rfl, Or.inl rfl⟩
      | done =>
        exact Or.inl ⟨fun h => absurd (show (0 : Int) = -1 from h.1) (by decide), Or.inr rfl⟩
      | rename => exact Or.inr ⟨⟨rfl, by simp⟩, Or.inr rfl⟩
      | _ => exact Or.inr ⟨⟨rfl, by simp⟩, Or.inl rfl⟩

theorem fileOps_stringReply (p : Vasprintf) (format : Bytes) :
    fileOps (smfSmtpdStringReply p format) = [] := by
  unfold smfSmtpdStringReply
  split_ifs <;> rfl

/-- The engine's answer goes on only after a `2`, and changes no file. -/
theorem QueueAnswer.files {session : Session} {ret code : Int} {out : List Event}
    (h : QueueAnswer d session ret code out) :
    fileOps out = [] ∧ ((code = 0 ∨ code = 1) ∧ ret ≠ 2 ∨ code = 2 ∧ ret = 2) := by
  cases h with
  | ignored _ => exact ⟨rfl, Or.inl ⟨Or.inr rfl, by decide⟩⟩
  | failed fail _ => exact ⟨rfl, Or.inl ⟨Or.inl rfl, by decide⟩⟩
  | silent _ => exact ⟨rfl, Or.inl ⟨Or.inl rfl, by decide⟩⟩
  | accepted => exact ⟨rfl, Or.inl ⟨Or.inr rfl, by decide⟩⟩
  | deliver => exact ⟨rfl, Or.inr ⟨rfl, rfl⟩⟩
  | other ret h => exact ⟨rfl, Or.inl ⟨Or.inr rfl, h.2.2⟩⟩

/-- After the module loop only the flush changes files. -/
theorem smfModulesFinish_files :
    fileOps (smfModulesFinish d.cmime (smtpdQueue d) d.settings env w.message.ref
        (d.cmime.headers w.message.msg) (queueStop d env w).header
        (queueStop d env w).world).events =
      fileOps (queueFlush d env w).events := by
  rw [smfModulesFinish, ← queueFlush]
  by_cases hret : (queueFlush d env w).ret = 0
  · rw [if_neg (fun h => h hret)]
    cases hnext : smfNexthopFind d.cmime d.settings env.nexthop with
    | none => rfl
    | some next =>
      obtain ⟨-, rcpts, hsent⟩ :=
        smfNexthopFind_cases d.cmime d.settings env hnext (queueFlush d env w).world
      dsimp only
      split_ifs
      · rw [hsent, show (smtpdQueue d).nexthopError = smfSmtpdHandleNexthopError d from rfl,
          smfSmtpdHandleNexthopError_eq, List.append_assoc, fileOps_append]
        exact List.append_nil _
      · rw [hsent, fileOps_append]
        exact List.append_nil _
  · rw [if_pos hret]

/-- The changes of the directory in a run of the queue are those of its flush. -/
theorem smfSmtpdProcessModules_files :
    queueGoesOn d env w ∧
        fileOps (smfSmtpdProcessModules d env w).events = fileOps (queueFlush d env w).events ∨
      ¬ queueGoesOn d env w ∧ fileOps (smfSmtpdProcessModules d env w).events = [] := by
  have hprocess : fileOps (smfSmtpdProcessModules d env w).events =
      fileOps (smfModulesProcess d.cmime (smtpdQueue d) d.settings env w).events := by
    rw [smfSmtpdProcessModules]
    split_ifs
    · rfl
    · rfl
    · rw [fileOps_append, fileOps_stringReply, List.append_nil]
  have hstop : fileOps (queueStop d env w).events = [] := by
    apply fileOps_eq_nil
    intro e he op heq
    have hmodule := queueStop_moduleEvents d env w e he
    rw [heq] at hmodule
    exact hmodule
  obtain ⟨hanswer, hcode⟩ := (smfSmtpdHandleQProcessingError_answer d
    (queueStop d env w).world.session (queueStop d env w).ret).files
  rw [hprocess, smfModulesProcess_stop d.cmime d.settings env (smtpdQueue d) (smtpdQueue_stops d),
    ← queueStop, show (smtpdQueue d).processingError = smfSmtpdHandleQProcessingError d from rfl]
  dsimp only
  unfold queueGoesOn
  by_cases hzero : (queueStop d env w).ret = 0
  · rw [if_pos hzero, fileOps_append, hstop, smfModulesFinish_files]
    exact Or.inl ⟨Or.inl hzero, rfl⟩
  rw [if_neg hzero]
  rcases hcode with ⟨hcode, htwo⟩ | ⟨hcode, htwo⟩
  · refine Or.inr ⟨fun h => h.elim hzero htwo, ?_⟩
    rcases hcode with hcode | hcode
    · rw [if_pos hcode, fileOps_append, hstop, hanswer, List.append_nil]
    · rw [if_neg (by rw [hcode]; decide), if_pos hcode, fileOps_append, hstop, hanswer,
        List.append_nil]
  · rw [if_neg (by rw [hcode]; decide), if_neg (by rw [hcode]; decide), fileOps_append,
      fileOps_append, hstop, hanswer, smfModulesFinish_files]
    exact Or.inl ⟨Or.inr htwo, rfl⟩

theorem setQueueHeader_session (cmime : Cmime M) (settings : Settings) (ref : Nat)
    (header : Bytes) (w : World M) :
    (setQueueHeader cmime settings ref header w).session = w.session := by
  unfold setQueueHeader
  split_ifs <;> rfl

theorem queueFlush_session :
    (queueFlush d env w).world.session = (queueStop d env w).world.session := by
  rw [← setQueueHeader_session d.cmime d.settings w.message.ref (queueStop d env w).header
    (queueStop d env w).world, queueFlush]
  unfold smfModulesFlushDirty
  split_ifs
  · rfl
  · dsimp only
    split <;> rfl

theorem smfNexthopFind_messageFile {next : World M → Outcome M}
    (h : smfNexthopFind d.cmime d.settings env.nexthop = some next) (v : World M) :
    (next v).world.session.messageFile = v.session.messageFile := by
  unfold smfNexthopFind at h
  split_ifs at h
  · obtain rfl := Option.some.inj h
    rfl
  · obtain rfl := Option.some.inj h
    unfold smtpDeliveryNexthop
    dsimp only
    split_ifs <;> rfl

/-- The flush and the next hop keep the name of the spool file that the modules have left. -/
theorem smfSmtpdProcessModules_messageFile :
    (smfSmtpdProcessModules d env w).world.session.messageFile =
      (queueStop d env w).world.session.messageFile := by
  have hprocessed := smfSmtpdProcessModules_processed d env w
  generalize (smfSmtpdProcessModules d env w).world = w' at hprocessed ⊢
  generalize (smfSmtpdProcessModules d env w).events = out at hprocessed
  cases hprocessed with
  | ignored _ _ => rfl
  | failed _ _ _ => rfl
  | silent _ _ => rfl
  | accepted _ => rfl
  | answered _ => rfl
  | unflushed _ _ _ => rw [queueFlush_session]
  | noNexthop _ _ _ _ => rw [queueFlush_session]
  | undelivered _ _ next hfind _ _ _ =>
    rw [smfNexthopFind_messageFile d env hfind, queueFlush_session]
  | delivered _ _ next hfind _ _ _ =>
    rw [smfNexthopFind_messageFile d env hfind, queueFlush_session]

/-- What a run of the queue does to the directory. -/
theorem smfSmtpdProcessModules_ops :
    ¬ FlushLeaves d env w ∧
        Replaced env.flushTmp ((queueStop d env w).world.session.messageFile.getD [])
          (fileOps (smfSmtpdProcessModules d env w).events) ∨
      FlushLeaves d env w ∧
        Abandoned env.flushTmp ((queueStop d env w).world.session.messageFile.getD [])
          (fileOps (smfSmtpdProcessModules d env w).events) := by
  have hflush := smfModulesFlushDirty_ops d.cmime env.flushIo env.flushTmp
    (d.cmime.headers w.message.msg) (setQueueHeader d.cmime d.settings w.message.ref
      (queueStop d env w).header (queueStop d env w).world)
  rw [← queueFlush, setQueueHeader_session, queueFlush_fails_iff] at hflush
  unfold FlushLeaves
  rcases smfSmtpdProcessModules_files d env w with ⟨hgoes, hfiles⟩ | ⟨hstops, hfiles⟩
  · rw [hfiles, and_iff_right hgoes]
    exact hflush
  · rw [hfiles]
    exact Or.inl ⟨fun h => hstops h.1, Or.inl rfl⟩

end Queue

/-! ## The whole call -/

/-- A run that returns has left none of the files it has made. -/
def LeavesNothing (result : DataResult) : Prop :=
  result.alive = true → filesLeft ∅ (fileOps result.events) = ∅

/-- `mkstemp` gives no file the name of another that is there.  The template of the spool file
is longer than that of the two temporary files. -/
structure NewNames (env : DataEnv M) (path : Bytes) : Prop where
  append : env.appendTmp ≠ path
  flush : env.queue.flushTmp ≠ path
  /-- The first temporary file may still be there. -/
  both : env.appendIo ≠ .mkstemp → env.appendIo ≠ .done → env.queue.flushTmp ≠ env.appendTmp

section Finish

variable (d : Daemon M)

/-- After the loop the process is ended by `strdup`, or the header step leaves nothing and the
end of the function is reached: the message is too big, or it gets through a queue that keeps
the name of the spool file and does not leave a file of its own. -/
def EndCleans (env : DataEnv M) (session : Session) (st : DataState) (path : Bytes) : Prop :=
  (sizeExceeded d.settings st.messageSize = false ∧
      ∃ msg, d.cmime.fromFile (completedSpool env session st) true = .ok msg ∧
        d.cmime.messageId msg = none) ∨
    ¬ AppendLeaves env st ∧
      (sizeExceeded d.settings st.messageSize = true ∨
        ∃ w, ReachesQueue d env session st w ∧
          (queueStop d env.queue w).world.session.messageFile.getD [] = path ∧
          ¬ FlushLeaves d env.queue w)

variable {d} {env : DataEnv M} {session : Session} {st : DataState} {path : Bytes}

/-- The changes of the directory in the header step. -/
def headerOps (env : DataEnv M) (session : Session) (st : DataState) : List FileOp :=
  fileOps (completeHeaders env (receivedSession session st) st).events

/-! The ways on after the loop, with what each does to the directory. -/

theorem processDataFinish_oversize (hfile : session.messageFile = some path)
    (hsize : sizeExceeded d.settings st.messageSize = true) :
    (processDataFinish d env session st).alive = true ∧
      fileOps (processDataFinish d env session st).events =
        headerOps env session st ++ [.unlink path] := by
  have hunlink : session.messageFile.getD [] = path := by
    rw [hfile]
    rfl
  rw [processDataFinish, if_pos hsize, ← hunlink]
  refine ⟨rfl, ?_⟩
  rw [fileOps_append]
  rfl

theorem processDataFinish_unparsable {e : ParseError}
    (hsize : sizeExceeded d.settings st.messageSize = false)
    (herror : d.cmime.fromFile (completedSpool env session st) true = .error e) :
    (processDataFinish d env session st).alive = true ∧
      fileOps (processDataFinish d env session st).events = headerOps env session st := by
  rw [processDataFinish, if_neg (by rw [hsize]; decide), processDataMessage]
  dsimp only
  rw [← receivedSession, ← completedSpool, herror]
  refine ⟨rfl, ?_⟩
  rw [fileOps_append]
  exact List.append_nil _

theorem processDataFinish_crashed {msg : M}
    (hsize : sizeExceeded d.settings st.messageSize = false)
    (hmsg : d.cmime.fromFile (completedSpool env session st) true = .ok msg)
    (hid : d.cmime.messageId msg = none) :
    (processDataFinish d env session st).alive = false := by
  rw [processDataFinish, if_neg (by rw [hsize]; decide), processDataMessage]
  dsimp only
  rw [← receivedSession, ← completedSpool, hmsg]
  dsimp only
  rw [if_pos hid]

theorem processDataFinish_processed {w : World M} (hreaches : ReachesQueue d env session st w) :
    (processDataFinish d env session st).alive = true ∧
      fileOps (processDataFinish d env session st).events =
        headerOps env session st ++ (fileOps (smfSmtpdProcessModules d env.queue w).events ++
          [.unlink ((queueStop d env.queue w).world.session.messageFile.getD [])]) := by
  rw [← smfSmtpdProcessModules_messageFile, processDataFinish,
    if_neg (by rw [hreaches.size]; decide), processDataMessage]
  dsimp only
  rw [← receivedSession, ← completedSpool, hreaches.parsed]
  dsimp only
  rw [if_neg hreaches.named, ← queueWorld, ← hreaches.world]
  refine ⟨rfl, ?_⟩
  rw [fileOps_append]
  exact congrArg (headerOps env session st ++ ·)
    (fileOps_append (smfSmtpdProcessModules d env.queue w).events _)

/-- What the header step leaves of the spool file and its own. -/
theorem headerOps_left (hfile : session.messageFile = some path) (hnames : NewNames env path) :
    ¬ AppendLeaves env st ∧ filesLeft {path} (headerOps env session st) = {path} ∨
      AppendLeaves env st ∧ env.appendTmp ∈ filesLeft {path} (headerOps env session st) ∧
        (path ∈ filesLeft {path} (headerOps env session st) ∨
          completedSpool env session st = none) := by
  have hreceived : (receivedSession session st).messageFile = some path := hfile
  rcases @completeHeaders_ops _ env _ _ hreceived st with
    ⟨hkeeps, hops⟩ | ⟨hleaves, hops | ⟨hops, hspool⟩⟩
  · exact Or.inl ⟨hkeeps, hops.stays hnames.append⟩
  · have habandoned : Abandoned env.appendTmp path (headerOps env session st) := Or.inl hops
    refine Or.inr ⟨hleaves, habandoned.mem hnames.append, Or.inl ?_⟩
    rw [headerOps, hops]
    exact Finset.mem_insert_of_mem (Finset.mem_singleton_self path)
  · have habandoned : Abandoned env.appendTmp path (headerOps env session st) := Or.inr hops
    exact Or.inr ⟨hleaves, habandoned.mem hnames.append, Or.inr hspool⟩

/-- A file that neither the queue nor the last `remove` names is left. -/
theorem queue_keeps {w : World M} {left : Finset Bytes} {name : Bytes} (hmem : name ∈ left)
    (htmp : name ≠ env.queue.flushTmp)
    (hpath : name ≠ (queueStop d env.queue w).world.session.messageFile.getD []) :
    filesLeft left (fileOps (smfSmtpdProcessModules d env.queue w).events ++
      [.unlink ((queueStop d env.queue w).world.session.messageFile.getD [])]) ≠ ∅ := by
  have hops := (smfSmtpdProcessModules_ops d env.queue w).imp And.right And.right
  rw [filesLeft_append]
  exact Finset.ne_empty_of_mem (Finset.mem_erase.mpr
    ⟨hpath, mem_filesLeft_replace hops htmp hpath hmem⟩)

/-- The queue and the last `remove`, when the spool file is the one file that is there. -/
theorem queue_cleans_iff (hnames : NewNames env path) (w : World M) :
    filesLeft {path} (fileOps (smfSmtpdProcessModules d env.queue w).events ++
        [.unlink ((queueStop d env.queue w).world.session.messageFile.getD [])]) = ∅ ↔
      (queueStop d env.queue w).world.session.messageFile.getD [] = path ∧
        ¬ FlushLeaves d env.queue w := by
  by_cases hpath : (queueStop d env.queue w).world.session.messageFile.getD [] = path
  · rw [and_iff_right hpath, filesLeft_append]
    have hqueue := smfSmtpdProcessModules_ops d env.queue w
    rw [hpath] at hqueue ⊢
    rcases hqueue with ⟨hclean, hops⟩ | ⟨hleaves, hops⟩
    · rw [hops.stays hnames.flush]
      exact iff_of_true (Finset.erase_singleton path) hclean
    · refine iff_of_false ?_ (not_not_intro hleaves)
      exact Finset.ne_empty_of_mem (Finset.mem_erase.mpr ⟨hnames.flush, hops.mem hnames.flush⟩)
  · exact iff_of_false
      (queue_keeps (Finset.mem_singleton_self path) hnames.flush.symm (Ne.symm hpath))
      fun h => hpath h.1

/-- A temporary file of the header step is not removed any more. -/
theorem queue_keeps_append {w : World M} (hfile : session.messageFile = some path)
    (hnames : NewNames env path)
    (hmissing : ∀ headerOnly, d.cmime.fromFile none headerOnly = .error .stat)
    (hreaches : ReachesQueue d env session st w) (hleaves : AppendLeaves env st) :
    filesLeft (filesLeft {path} (headerOps env session st))
      (fileOps (smfSmtpdProcessModules d env.queue w).events ++
        [.unlink ((queueStop d env.queue w).world.session.messageFile.getD [])]) ≠ ∅ := by
  rcases @headerOps_left _ env session st _ hfile hnames with ⟨hkeeps, -⟩ | ⟨-, htmp, hspool⟩
  · exact absurd hleaves hkeeps
  · -- a spool file that is gone is not parsed
    have hpath : path ∈ filesLeft {path} (headerOps env session st) := by
      refine hspool.resolve_right fun hnone => ?_
      have hparsed := hreaches.parsed
      rw [hnone, hmissing] at hparsed
      cases hparsed
    by_cases hsame : path = (queueStop d env.queue w).world.session.messageFile.getD []
    · exact queue_keeps htmp (hnames.both hleaves.2.1 hleaves.2.2).symm (hsame ▸ hnames.append)
    · exact queue_keeps hpath hnames.flush.symm hsame

/-! `EndCleans` on each way on. -/

theorem endCleans_oversize (hsize : sizeExceeded d.settings st.messageSize = true) :
    EndCleans d env session st path ↔ ¬ AppendLeaves env st := by
  rw [EndCleans, or_iff_right (fun h => Bool.noConfusion (hsize.symm.trans h.1)),
    and_iff_left (Or.inl hsize)]

theorem not_endCleans_unparsable {e : ParseError}
    (hsize : sizeExceeded d.settings st.messageSize = false)
    (herror : d.cmime.fromFile (completedSpool env session st) true = .error e) :
    ¬ EndCleans d env session st path := by
  rintro (⟨-, msg, hmsg, -⟩ | ⟨-, hbig | ⟨w, hreaches, -⟩⟩)
  · cases herror.symm.trans hmsg
  · cases hsize.symm.trans hbig
  · cases herror.symm.trans hreaches.parsed

theorem endCleans_processed {w : World M} (hreaches : ReachesQueue d env session st w) :
    EndCleans d env session st path ↔
      ¬ AppendLeaves env st ∧
        (queueStop d env.queue w).world.session.messageFile.getD [] = path ∧
        ¬ FlushLeaves d env.queue w := by
  constructor
  · rintro (⟨-, msg, hmsg, hid⟩ | ⟨hkeeps, hbig | ⟨w', hreaches', hqueue⟩⟩)
    · obtain rfl := Except.ok.inj (hreaches.parsed.symm.trans hmsg)
      exact absurd hid hreaches.named
    · cases hreaches.size.symm.trans hbig
    · rw [hreaches.unique d hreaches']
      exact ⟨hkeeps, hqueue⟩
  · rintro ⟨hkeeps, hqueue⟩
    exact Or.inr ⟨hkeeps, Or.inr ⟨w, hreaches, hqueue⟩⟩

/-- The files that are left of the spool file and those made after it. -/
theorem processDataFinish_cleans_iff (hfile : session.messageFile = some path)
    (hnames : NewNames env path)
    (hmissing : ∀ headerOnly, d.cmime.fromFile none headerOnly = .error .stat) :
    ((processDataFinish d env session st).alive = true →
        filesLeft {path} (fileOps (processDataFinish d env session st).events) = ∅) ↔
      EndCleans d env session st path := by
  have hheader := @headerOps_left _ env session st _ hfile hnames
  by_cases hsize : sizeExceeded d.settings st.messageSize = true
  · obtain ⟨halive, hfiles⟩ := @processDataFinish_oversize _ d env _ _ _ hfile hsize
    rw [endCleans_oversize hsize, imp_iff_right halive, hfiles, filesLeft_append]
    rcases hheader with ⟨hkeeps, hleft⟩ | ⟨hleaves, htmp, -⟩
    · rw [hleft]
      exact iff_of_true (Finset.erase_singleton path) hkeeps
    · refine iff_of_false ?_ (not_not_intro hleaves)
      exact Finset.ne_empty_of_mem (Finset.mem_erase.mpr ⟨hnames.append, htmp⟩)
  have hsmall : sizeExceeded d.settings st.messageSize = false := by simpa using hsize
  cases hparse : d.cmime.fromFile (completedSpool env session st) true with
  | error e =>
    obtain ⟨halive, hfiles⟩ := processDataFinish_unparsable hsmall hparse
    rw [imp_iff_right halive, hfiles]
    refine iff_of_false ?_ (not_endCleans_unparsable hsmall hparse)
    rcases hheader with ⟨-, hleft⟩ | ⟨-, htmp, -⟩
    · rw [hleft]
      exact Finset.singleton_ne_empty path
    · exact Finset.ne_empty_of_mem htmp
  | ok msg =>
    by_cases hid : d.cmime.messageId msg = none
    · refine iff_of_true (fun h => ?_) (Or.inl ⟨hsmall, msg, hparse, hid⟩)
      rw [processDataFinish_crashed hsmall hparse hid] at h
      cases h
    · have hreaches : ReachesQueue d env session st (queueWorld env (receivedSession session st)
          (completedSpool env session st) msg) := ⟨hsmall, hparse, hid, rfl⟩
      obtain ⟨halive, hfiles⟩ := processDataFinish_processed hreaches
      rw [endCleans_processed hreaches, imp_iff_right halive, hfiles, filesLeft_append]
      rcases hheader with ⟨hkeeps, hleft⟩ | ⟨hleaves, -⟩
      · rw [hleft, and_iff_right hkeeps]
        exact queue_cleans_iff hnames _
      · exact iff_of_false (queue_keeps_append hfile hnames hmissing hreaches hleaves)
          fun h => h.1 hleaves

end Finish

section Call

variable (d : Daemon M) {R : Type} (feed : Feed UInt8 R)

/-- The call cleans up: no file is made, or it can be opened and the end of the function
cleans up.  Where `mkstemp` fails it is `fopen` that makes the file. -/
def CallCleans (env : DataEnv M) (session : Session) (r : R) : Prop :=
  let received (path : Bytes) :=
    EndCleans d env { session with messageFile := some path }
      (dataLoop feed.toSource { messageSize := session.messageSize } (feed.enter r)).state path
  match env.queueFile with
  | .noPath => True
  | .mkstempFailed path => env.openSpool = true → received path
  | .made path => env.openSpool = true ∧ received path

/-- The name that the spool file gets. -/
def QueueFile.path? : QueueFile → Option Bytes
  | .noPath => none
  | .mkstempFailed path | .made path => some path

variable {d feed} {env : DataEnv M} {session : Session} {path : Bytes}

/-- A call that is refused before it has asked for data. -/
theorem leavesNothing_refused {events : List Event}
    (h : processDataOpen d env session = (none, events)) (r : R) :
    LeavesNothing (smfSmtpdProcessData d feed env session r).1 ↔
      filesLeft ∅ (fileOps events) = ∅ := by
  rw [smfSmtpdProcessData_refused d feed h, LeavesNothing]
  exact imp_iff_right rfl

/-- A call that has opened its spool file. -/
theorem leavesNothing_opened
    (h : processDataOpen d env session =
      (some { session with messageFile := some path }, [.file (.create path), .reply REPLY_354]))
    (hnames : NewNames env path)
    (hmissing : ∀ headerOnly, d.cmime.fromFile none headerOnly = .error .stat) (r : R) :
    LeavesNothing (smfSmtpdProcessData d feed env session r).1 ↔
      EndCleans d env { session with messageFile := some path }
        (dataLoop feed.toSource { messageSize := session.messageSize } (feed.enter r)).state
        path := by
  rw [smfSmtpdProcessData_opened d feed h, LeavesNothing]
  exact processDataFinish_cleans_iff rfl hnames hmissing

variable (d feed session)

/-- **When nothing is left in the queue directory.** -/
theorem leavesNothing_iff (hnames : ∀ path, env.queueFile.path? = some path → NewNames env path)
    (hmissing : ∀ headerOnly, d.cmime.fromFile none headerOnly = .error .stat) (r : R) :
    LeavesNothing (smfSmtpdProcessData d feed env session r).1 ↔
      CallCleans d feed env session r := by
  unfold CallCleans
  cases hqueue : env.queueFile with
  | noPath =>
    rw [leavesNothing_refused (by rw [processDataOpen, hqueue]) r]
    exact iff_of_true rfl trivial
  | mkstempFailed path =>
    rw [hqueue] at hnames
    by_cases hopen : env.openSpool = true
    · dsimp only
      rw [imp_iff_right hopen]
      exact leavesNothing_opened (processDataOpen_opened d (Or.inr hqueue) hopen session)
        (hnames path rfl) hmissing r
    · rw [leavesNothing_refused (by rw [processDataOpen, hqueue]; exact if_neg hopen) r]
      exact iff_of_true rfl fun h => absurd h hopen
  | made path =>
    rw [hqueue] at hnames
    by_cases hopen : env.openSpool = true
    · dsimp only
      rw [and_iff_right hopen]
      exact leavesNothing_opened (processDataOpen_opened d (Or.inl hqueue) hopen session)
        (hnames path rfl) hmissing r
    · rw [leavesNothing_refused (by rw [processDataOpen, hqueue]; exact if_neg hopen) r]
      exact iff_of_false (Finset.insert_ne_empty path ∅) fun h => hopen h.1

end Call

end

/-- `mkstemp` gives these three names. -/
theorem newNames_plain : NewNames DataEnv.plain (ascii "/q/1") where
  append := by decide
  flush := by decide
  both := by
    intro _ _
    decide

/-- A message that is too big for the daemon. -/
theorem leavesNothing_oversize :
    LeavesNothing (smfSmtpdProcessData tightDaemon socketFeed DataEnv.plain openClient.session
      (chunkSocket (ascii "a: b\r\n.\r\n") (by decide) (by decide))).1 := by
  have hloop := (dataLoop_oneLine (ascii "a: b\r") (by decide) (by decide) (by decide)
    { messageSize := openClient.session.messageSize } (by decide) (by decide)).1
  refine (leavesNothing_iff tightDaemon socketFeed openClient.session ?_ (fun _ => rfl) _).mpr
    ⟨rfl, Or.inr ⟨fun h => h.2.2 rfl, Or.inl ?_⟩⟩
  · intro path hpath
    obtain rfl := Option.some.inj hpath
    exact newNames_plain
  · exact (congrArg (fun st : DataState => sizeExceeded tightDaemon.settings st.messageSize)
      hloop).trans rfl

/-- A daemon whose parser takes no message. -/
def deafDaemon : Daemon Bytes :=
  { Daemon.plain with
    cmime :=
      { plainCmime with
        fromFile := fun content _ =>
          match content with
          | none => .error .stat
          | some _ => .error .invalid } }

/-- The spool file is left when it cannot be opened and when it cannot be parsed, and the
temporary file of the header step is left when its `rename` fails. -/
theorem leavesNothing_fails :
    ¬ LeavesNothing (smfSmtpdProcessData Daemon.plain socketFeed
      { DataEnv.plain with openSpool := false } openClient.session ({}, [])).1 ∧
    ¬ LeavesNothing (smfSmtpdProcessData deafDaemon socketFeed DataEnv.plain openClient.session
      ({}, [])).1 ∧
    ¬ LeavesNothing (smfSmtpdProcessData tightDaemon socketFeed
      { DataEnv.plain with appendIo := .rename } openClient.session
      (chunkSocket (ascii "a: b\r\n.\r\n") (by decide) (by decide))).1 := by
  have hrenames : NewNames { DataEnv.plain with appendIo := .rename } (ascii "/q/1") :=
    ⟨by decide, by decide, fun _ _ => by decide⟩
  refine ⟨?_, ?_, ?_⟩
  · refine mt (leavesNothing_refused rfl _).mp ?_
    decide
  · refine mt (leavesNothing_opened rfl newNames_plain (fun _ => rfl) _).mp ?_
    refine not_endCleans_unparsable (Bool.and_false _) (e := .invalid) ?_
    unfold completedSpool completeHeaders
    split_ifs <;> rfl
  · have hloop := (dataLoop_oneLine (ascii "a: b\r") (by decide) (by decide) (by decide)
      { messageSize := openClient.session.messageSize } (by decide) (by decide)).1
    refine mt (leavesNothing_opened rfl hrenames (fun _ => rfl) _).mp ?_
    rw [endCleans_oversize]
    · exact not_not_intro ((congrArg (AppendLeaves _) hloop).mpr ⟨by decide, by decide, by decide⟩)
    · exact (congrArg (fun st : DataState => sizeExceeded tightDaemon.settings st.messageSize)
        hloop).trans rfl

end Spmfilter
