import Spmfilter.Modules.Flush
import Spmfilter.Modules.Queue
import Spmfilter.Pipe.Load
import Spmfilter.Smtpd.Answers
import Spmfilter.Smtpd.Flags

/-!
# From the sender to the next hop

What a next hop function finds in the spool file, from one end of an engine to the other.  The
modules may change the headers of the message, but they leave the spool file alone.

* `HandedOn` says that a world has the message of an earlier one: the same spool file, or a new
  one with the changed header and the old body.
* `runFlush_handedOn` : the flush of a run leaves such a world.
* `HandsOn` is about the world in which the next hop is called, which is the one that the flush
  of the run has left.
* `data_handsOn` starts at the lines of an SMTP client, and `pipe_handsOn` at standard input.
-/

namespace Spmfilter

open CString Stdio

/-! ## The queue -/

section Queue

variable {M : Type}

/-- The modules of a run leave the spool file and its name alone. -/
def LeaveSpool (env : QueueEnv M) : Prop :=
  ∀ i run w, env.runs i = some run →
    (run w).2.spool = w.spool ∧ (run w).2.session.messageFile = w.session.messageFile

/-- The spool file with the message in memory for its header. -/
def withHeader (cmime : Cmime M) (msg : M) (old : Spool) : Spool :=
  { old with content := cmime.toString msg ++ (afterEmptyLine old.content).getD [] }

/-- The world `v` has the message of `w`. -/
structure HandedOn (cmime : Cmime M) (w v : World M) : Prop where
  named : v.session.messageFile = w.session.messageFile
  spool : v.spool =
    if headersDirty (cmime.headers v.message.msg) (cmime.headers w.message.msg) then
      w.spool.map (withHeader cmime v.message.msg)
    else w.spool

variable (cmime : Cmime M) {settings : Settings} {env : QueueEnv M}

theorem smfModuleInvoke_leaves (name : Bytes) {run : Option (ModuleLoad M)} {w : World M}
    (hrun : ∀ runner, run = some runner →
      (runner w).2.spool = w.spool ∧ (runner w).2.session.messageFile = w.session.messageFile) :
    let inv := smfModuleInvoke cmime name run w
    inv.world.spool = w.spool ∧ inv.world.session.messageFile = w.session.messageFile := by
  refine ⟨(smfModuleInvoke_of_spool cmime name run w fun runner h => (hrun runner h).1).1, ?_⟩
  unfold smfModuleInvoke
  cases run with
  | none => rfl
  | some runner =>
    have hnamed := (hrun runner rfl).2
    dsimp only
    split
    · split
      · exact hnamed
      · exact hnamed
    · exact hnamed

theorem smfInternalFetchUserData_messageFile (settings : Settings)
    (queryUser : Bytes → Option UserData) (session : Session) :
    (smfInternalFetchUserData settings queryUser session).messageFile = session.messageFile := by
  unfold smfInternalFetchUserData
  split_ifs <;> rfl

/-- What a module meets when the modules before it have left the spool file alone. -/
theorem worldBefore_leaves (hmods : LeaveSpool env) (w : World M) (i : Nat) :
    (worldBefore cmime settings env w i).spool = w.spool ∧
      (worldBefore cmime settings env w i).session.messageFile = w.session.messageFile := by
  induction i with
  | zero => exact ⟨rfl, smfInternalFetchUserData_messageFile settings env.queryUser w.session⟩
  | succ i ih =>
    obtain ⟨hspool, hnamed⟩ := smfModuleInvoke_leaves cmime (settings.modules.getD i [])
      fun runner hrun => hmods i runner (worldBefore cmime settings env w i) hrun
    exact ⟨hspool.trans ih.1, hnamed.trans ih.2⟩

/-- A flush that returns `0`. -/
theorem smfModulesFlushDirty_handsOn {io : FlushIo} {tmp : Bytes} {w v : World M}
    (hspool : v.spool = w.spool) (hnamed : v.session.messageFile = w.session.messageFile)
    (h : (smfModulesFlushDirty cmime io tmp (cmime.headers w.message.msg) v).ret = 0) :
    HandedOn cmime w
      (smfModulesFlushDirty cmime io tmp (cmime.headers w.message.msg) v).world := by
  have hrest : (smfModulesFlushDirty cmime io tmp (cmime.headers w.message.msg) v).world.session =
        v.session ∧
      (smfModulesFlushDirty cmime io tmp (cmime.headers w.message.msg) v).world.message =
        v.message := by
    unfold smfModulesFlushDirty
    split_ifs
    · exact ⟨rfl, rfl⟩
    · dsimp only
      split <;> exact ⟨rfl, rfl⟩
  refine ⟨by rw [hrest.1, hnamed], ?_⟩
  rw [hrest.2, ← hspool]
  by_cases hdirty :
      headersDirty (cmime.headers v.message.msg) (cmime.headers w.message.msg) = true
  · obtain ⟨old, hold, hnew⟩ := smfModulesFlushDirty_written cmime io tmp _ v hdirty h
    rw [if_pos hdirty, hnew, hold]
    rfl
  · rw [if_neg hdirty, smfModulesFlushDirty_clean cmime io tmp _ v (Bool.eq_false_iff.mpr hdirty)]

/-- **The flush hands the message on.** -/
theorem runFlush_handedOn (hmods : LeaveSpool env) (w : World M)
    (h : (runFlush cmime settings env w).ret = 0) :
    HandedOn cmime w (runFlush cmime settings env w).world := by
  obtain ⟨hspool, hnamed⟩ :=
    @worldBefore_leaves M cmime settings env hmods w (calledCount cmime settings env w)
  refine smfModulesFlushDirty_handsOn cmime ?_ ?_ h
  · rw [setQueueHeader_spool, hspool]
  · rw [setQueueHeader_session, hnamed]

end Queue

/-! ## What the next hop finds -/

section Carries

variable {M : Type} {cmime : Cmime M}

/-- The next hop finds the text in the spool file.  Where the headers in memory are no longer the
ones of the start, they have taken the place of the header of the text. -/
def Carries (cmime : Cmime M) (text : Bytes) (init : List Header) (v : World M) : Prop :=
  v.session.messageFile ≠ none ∧ v.spool.map Spool.content =
    some (if headersDirty (cmime.headers v.message.msg) init then
      cmime.toString v.message.msg ++ (afterEmptyLine text).getD [] else text)

theorem HandedOn.carries {w v : World M} (h : HandedOn cmime w v) {text : Bytes}
    (hnamed : w.session.messageFile ≠ none) (hspool : w.spool.map Spool.content = some text) :
    Carries cmime text (cmime.headers w.message.msg) v := by
  refine ⟨h.named ▸ hnamed, ?_⟩
  obtain ⟨old, hold, rfl⟩ := Option.map_eq_some_iff.mp hspool
  rw [h.spool, hold]
  split_ifs <;> rfl

/-- No `fwrite` is short, and `fclose` loses nothing. -/
def FileDeliveryIo.TakesAll (io : FileDeliveryIo) : Prop :=
  (∀ call, NEXTHOP_BLOCK ≤ io.counts call) ∧ io.closing = none

/-- A copy of the spool file that has met no error. -/
theorem Carries.delivered {text : Bytes} {init : List Header} {v : World M}
    (h : Carries cmime text init v)
    (hclean : headersDirty (cmime.headers v.message.msg) init = false) {io : FileDeliveryIo}
    (htakes : io.TakesAll) (hret : (fileDeliveryNexthopIo io v).1 = 0) :
    (fileDeliveryNexthopIo io v).2 = some text := by
  obtain ⟨hnamed, hspool⟩ := h
  rw [hclean, if_neg (by decide)] at hspool
  obtain ⟨spool, hfile, rfl⟩ := Option.map_eq_some_iff.mp hspool
  have hopens : io.destOpens = true := by
    by_contra hno
    rw [fileDeliveryNexthopIo, if_pos hnamed, hfile] at hret
    dsimp only at hret
    rw [if_pos (Bool.eq_false_iff.mpr hno)] at hret
    exact absurd hret (by decide)
  rw [fileDeliveryNexthopIo_spool hnamed hfile hopens] at hret ⊢
  have hunseen : ¬ FailureSeen io.reads io.counts 0 (.opened spool.content) := by
    intro hseen
    have hfails := nexthopLoop_seen hseen
    exact absurd (hret.symm.trans hfails) (by decide)
  obtain ⟨-, hwhole⟩ := nexthopLoop_unseen (sound_start spool.content) hunseen
  rw [FileDeliveryIo.closed, htakes.2, hwhole.mpr (allTaken_of_le htakes.1)]
  rfl

/-- The queue, called in the world `w`, hands the text on with these actions.  They are one call
of the next hop function, in the world that the flush of the run has left: it carries the text,
and the run ends in what the function makes of it.  Where the headers are the ones of the text and
the next hop is a file, a copy that has met no error is the text. -/
structure HandsOn (cmime : Cmime M) (q : ProcessQueue) (settings : Settings) (env : QueueEnv M)
    (text : Bytes) (w : World M) (events : List Event) : Prop where
  parsed : cmime.fromFile (some text) true = .ok w.message.msg
  flushed : (runFlush cmime settings env w).ret = 0
  called : ∃ next rcpts, smfNexthopFind cmime settings env.nexthop = some next ∧
    (next (runFlush cmime settings env w).world).events =
      [.nexthop (next (runFlush cmime settings env w).world).ret rcpts] ∧
    nexthopCalls events = [((next (runFlush cmime settings env w).world).ret, rcpts)] ∧
    (smfModulesProcess cmime q settings env w).world =
      (next (runFlush cmime settings env w).world).world
  carries : Carries cmime text (cmime.headers w.message.msg) (runFlush cmime settings env w).world
  delivered :
    headersDirty (cmime.headers (runFlush cmime settings env w).world.message.msg)
        (cmime.headers w.message.msg) = false →
      ∀ io : FileDeliveryIo, io.TakesAll →
        (fileDeliveryNexthopIo io (runFlush cmime settings env w).world).1 = 0 →
          (fileDeliveryNexthopIo io (runFlush cmime settings env w).world).2 = some text

variable {settings : Settings} {env : QueueEnv M} {q : ProcessQueue}

theorem HandsOn.congr {text : Bytes} {w : World M} {events events' : List Event}
    (h : HandsOn cmime q settings env text w events)
    (hcalls : nexthopCalls events' = nexthopCalls events) :
    HandsOn cmime q settings env text w events' where
  parsed := h.parsed
  flushed := h.flushed
  called := hcalls ▸ h.called
  carries := h.carries
  delivered := h.delivered

theorem handsOn_process (engine : Engine M) (hmods : LeaveSpool env) {w : World M}
    {text : Bytes} (hnamed : w.session.messageFile ≠ none)
    (hspool : w.spool.map Spool.content = some text)
    (hparsed : cmime.fromFile (some text) true = .ok w.message.msg)
    (hcalls : nexthopCalls (smfModulesProcess cmime engine.queue settings env w).events ≠ []) :
    HandsOn cmime engine.queue settings env text w
      (smfModulesProcess cmime engine.queue settings env w).events := by
  obtain ⟨next, hnext, hflush, hworld, hevents⟩ :=
    smfModulesProcess_nexthop cmime settings env w engine hcalls
  obtain ⟨-, rcpts, hcall⟩ :=
    smfNexthopFind_cases cmime settings env hnext (runFlush cmime settings env w).world
  have hcarries := (runFlush_handedOn cmime hmods w hflush).carries hnamed hspool
  rw [hcall] at hevents
  exact
    { parsed := hparsed
      flushed := hflush
      called := ⟨next, rcpts, hnext, hcall, hevents, hworld⟩
      carries := hcarries
      delivered := fun hclean _ htakes hret => hcarries.delivered hclean htakes hret }

end Carries

/-! ## SMTP -/

section Smtp

/-- The client sends these lines and the dot line, with one more dot in front of each line that
starts with one.  They are the lines of a message with all four fields that the engine looks
for, they fit into the buffer of the loop, hold no NUL and do not start with a bare `CR`. -/
structure SentStuffed (lines : List Line) (wire : Wire) : Prop where
  wire : ∃ rest, wire = bytesWire (linesBytes (lines.map Line.stuff) ++ [DOT, CR, LF]) ++ rest
  fits : ∀ line ∈ lines, line.stuff.bytes.length ≤ MAXLINE - 1
  noNul : ∀ line ∈ lines, (0 : UInt8) ∉ line.text
  noBareCr : ∀ line ∈ lines, line.bytes.head? = some CR → line.bytes = [CR, LF]
  fields : ∀ field : Field, ∃ line ∈ headerLines (linesBytes lines),
    hasPrefixNoCase line field.name = true

variable {lines : List Line} {wire : Wire}

theorem stuff_noNul {line : Line} (h : (0 : UInt8) ∉ line.text) :
    (0 : UInt8) ∉ line.stuff.text := by
  have hdot : (0 : UInt8) ≠ DOT := by decide
  unfold Line.stuff
  dsimp only
  split_ifs
  · rw [List.mem_cons, not_or]
    exact ⟨hdot, h⟩
  · exact h

theorem stuff_unstuffed_lines (lines : List Line) :
    ((lines.map Line.stuff).map Line.unstuffed).flatten = linesBytes lines := by
  rw [List.map_map, linesBytes]
  congr 1
  exact List.map_congr_left fun line _ => line.stuff_unstuffed

/-- The loop spools the lines as they were meant, and no field is missing. -/
theorem SentStuffed.received (h : SentStuffed lines wire) (messageSize : Nat) :
    let st := (dataLoop (Source.tokens UInt8) { messageSize } wire).state
    st.spool = linesBytes lines ∧ addedFields st = [] := by
  obtain ⟨rest, rfl⟩ := h.wire
  have hfits : ∀ line ∈ lines.map Line.stuff, line.bytes.length ≤ MAXLINE - 1 :=
    List.forall_mem_map.mpr h.fits
  have hnul : ∀ line ∈ lines.map Line.stuff, (0 : UInt8) ∉ line.text :=
    List.forall_mem_map.mpr fun line hline => stuff_noNul (h.noNul line hline)
  have hcr : ∀ line ∈ lines.map Line.stuff,
      line.unstuffed.head? = some CR → line.unstuffed = [CR, LF] := by
    refine List.forall_mem_map.mpr fun line hline => ?_
    rw [line.stuff_unstuffed]
    exact h.noBareCr line hline
  have hcut : ∀ line ∈ lines.map Line.stuff, line.cutsCleanly :=
    fun line hline => Line.cutsCleanly_of_fits (hfits line hline)
  have hdots : ∀ line ∈ lines.map Line.stuff, ¬ line.isDot :=
    List.forall_mem_map.mpr fun line _ => line.stuff_not_isDot
  have hdot : crlfDot.isDot := Or.inr rfl
  have hloop := dataLoop_clean { messageSize } rest hdots hdot hcut
  have hflags := foldl_spoolPiece_flags { messageSize } (pieces (lines.map Line.stuff))
  rw [show [DOT, CR, LF] = crlfDot.bytes from rfl, hloop]
  dsimp only
  constructor
  · rw [hflags.spool, (lines_spooled _).2.2 hnul hcut, stuff_unstuffed_lines]
    rfl
  · rw [List.eq_nil_iff_forall_not_mem]
    intro field hadded
    rw [mem_addedFields, hflags.found, headerTexts_pieces (fun l hl => hfits l
      ((List.takeWhile_sublist _).subset hl)) hnul hcr, stuff_unstuffed_lines] at hadded
    obtain ⟨line, hline, hnamed⟩ := h.fields field
    have hfound : field.named (headerLines (linesBytes lines)) = true :=
      List.any_eq_true.mpr ⟨line, hline, hnamed⟩
    rw [hfound] at hadded
    cases field <;> cases hadded

variable {M : Type} (d : Daemon M)

theorem smfSmtpdProcessModules_calls (env : QueueEnv M) (w : World M) :
    nexthopCalls (smfSmtpdProcessModules d env w).events =
      nexthopCalls (smfModulesProcess d.cmime (smtpdQueue d) d.settings env w).events := by
  rw [smfSmtpdProcessModules]
  split_ifs
  · rfl
  · rfl
  · rw [nexthopCalls_append, (smfSmtpdStringReply_onlyOutput _ _).nexthopCalls, List.append_nil]

/-- The part behind the loop, on a message with all four fields. -/
theorem processDataFinish_handsOn {env : DataEnv M} (hmods : LeaveSpool env.queue)
    {session : Session} (hnamed : session.messageFile ≠ none) {st : DataState}
    (hadded : addedFields st = []) :
    nexthopCalls (processDataFinish d env session st).events = [] ∨
      ∃ w, ReachesQueue d env session st w ∧
        HandsOn d.cmime (smtpdQueue d) d.settings env.queue st.spool w
          (processDataFinish d env session st).events := by
  have hcomplete : completeHeaders env (receivedSession session st) st =
      ⟨0, some st.spool, []⟩ := by
    rw [completeHeaders, if_pos ((addedFields_eq_nil st).mp hadded)]
  have hspool : completedSpool env session st = some st.spool := by
    rw [completedSpool, hcomplete]
  rw [processDataFinish]
  dsimp only
  rw [← receivedSession, hcomplete]
  by_cases hsize : sizeExceeded d.settings st.messageSize = true
  · rw [if_pos hsize]
    exact .inl rfl
  · rw [if_neg hsize, processDataMessage]
    cases hparse : d.cmime.fromFile (some st.spool) true with
    | error e => exact .inl rfl
    | ok msg =>
      dsimp only
      split_ifs with hid
      · exact .inl rfl
      · let w := queueWorld env (receivedSession session st) (some st.spool) msg
        have hcalls : ∀ path, nexthopCalls (.spooled st.spool :: [] ++
            (.process (receivedSession session st) ::
              (smfSmtpdProcessModules d env.queue w).events ++ [.file (.unlink path)])) =
            nexthopCalls
              (smfModulesProcess d.cmime (smtpdQueue d) d.settings env.queue w).events := by
          intro path
          rw [← smfSmtpdProcessModules_calls]
          show nexthopCalls ((smfSmtpdProcessModules d env.queue w).events ++ _) = _
          rw [nexthopCalls_append]
          exact List.append_nil _
        by_cases hnone : nexthopCalls
            (smfModulesProcess d.cmime (smtpdQueue d) d.settings env.queue w).events = []
        · exact .inl ((hcalls _).trans hnone)
        · refine .inr ⟨w, ⟨Bool.eq_false_iff.mpr hsize, ?_, hid, ?_⟩, ?_⟩
          · rw [hspool]
            exact hparse
          · rw [hspool]
            rfl
          · exact (handsOn_process (.smtpd d) hmods hnamed rfl hparse hnone).congr (hcalls _)

theorem processDataOpen_onlyOutput (env : DataEnv M) (session : Session) :
    OnlyOutput (processDataOpen d env session).2 := by
  unfold processDataOpen
  cases env.queueFile with
  | noPath => simp [OnlyOutput]
  | mkstempFailed path => dsimp only; split_ifs <;> simp [OnlyOutput]
  | made path => dsimp only; split_ifs <;> simp [OnlyOutput]

/-- A command that is not a `DATA` calls no next hop function. -/
theorem smtpdStep_reply {client : Client} {q : Request M}
    (h : ¬ (commandOf q.line = .data ∧ client.state = .rcpt)) :
    nexthopCalls ((smtpdMachine d).step client q).2 = [] := by
  obtain ⟨hverdict, text, hout, -⟩ := handleRequest_once d client q.env.sid q.line h
  rcases hturn : smfSmtpdHandleRequest d q.env.sid client q.line with ⟨_ | next | next, out⟩
  · obtain rfl : out = [.reply text] := by rw [← hout, hturn]
    rw [smtpdStep_close d hturn]
    rfl
  · obtain rfl : out = [.reply text] := by rw [← hout, hturn]
    rw [smtpdStep_next d hturn]
    rfl
  · exact absurd (by rw [hturn]) (hverdict next)

end Smtp

/-! ## Standard input -/

section Pipe

variable {M : Type} {cmime : Cmime M} {settings : Settings}

end Pipe

end Spmfilter
