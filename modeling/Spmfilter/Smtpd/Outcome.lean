import Spmfilter.Smtpd.Process
import Spmfilter.Smtpd.Run

/-!
# The outcomes of the DATA phase

What `smf_smtpd_process_data` does around its loop, said once.

* `processDataOpen_some` gives the start that asks for the data, and
  `smfSmtpdProcessData_opened` the call from there on.
* `Finished` lists the four ways on after the loop: the message is too large,
  cannot be parsed, has no message id, or is processed.
-/

namespace Spmfilter

open CString

section

variable {M : Type} (d : Daemon M)

/-! ## The start -/

/-- The start that asks for the data makes the spool file and sends `354`. -/
theorem processDataOpen_some {env : DataEnv M} {session opened : Session} {events : List Event}
    (h : processDataOpen d env session = (some opened, events)) :
    ∃ path, opened = { session with messageFile := some path } ∧
      events = [.file (.create path), .reply REPLY_354] := by
  unfold processDataOpen at h
  cases hq : env.queueFile <;> rw [hq] at h <;> dsimp only at h
  case noPath => cases h
  all_goals
    split at h
    · cases h
      exact ⟨_, rfl, rfl⟩
    · cases h

/-- It does so when the file that has a name can be opened. -/
theorem processDataOpen_opened {env : DataEnv M} {path : Bytes}
    (hqueue : env.queueFile = .made path ∨ env.queueFile = .mkstempFailed path)
    (hopen : env.openSpool = true) (session : Session) :
    processDataOpen d env session =
      (some { session with messageFile := some path }, [.file (.create path), .reply REPLY_354]) := by
  rcases hqueue with hqueue | hqueue
  · rw [processDataOpen, hqueue]
    exact if_pos hopen
  · rw [processDataOpen, hqueue]
    exact if_pos hopen

section Feed

variable {R : Type} (feed : Feed UInt8 R)

theorem smfSmtpdProcessData_opened {env : DataEnv M} {session opened : Session}
    {events : List Event} (h : processDataOpen d env session = (some opened, events)) (r : R) :
    smfSmtpdProcessData d feed env session r =
      let loop := dataLoop feed.toSource { messageSize := opened.messageSize } (feed.enter r)
      let result := processDataFinish d env opened loop.state
      ({ result with events := events ++ result.events }, feed.leave r loop.reader) := by
  rw [smfSmtpdProcessData, h]

/-- A message of one line that comes with its dot line in one chunk. -/
theorem smfSmtpdProcessData_oneLine {env : DataEnv M} {session opened : Session}
    {events : List Event} (h : processDataOpen d env session = (some opened, events))
    (line : Bytes) (hlf : LF ∉ line) (hlen : line.length < MAXLINE - 1)
    (hdot : isDotLine (line ++ [LF]) = false) (hne : line ++ [LF] ++ [DOT, CR, LF] ≠ [])
    (hfits : (line ++ [LF] ++ [DOT, CR, LF]).length ≤ BUFSIZE) :
    (smfSmtpdProcessData d socketFeed env session
        (chunkSocket (line ++ [LF] ++ [DOT, CR, LF]) hne hfits)).1.events =
      events ++ (processDataFinish d env opened
        (spoolPiece { messageSize := opened.messageSize } (line ++ [LF]))).events := by
  have hstate := (dataLoop_oneLine line hlf hlen hdot { messageSize := opened.messageSize } hne
    hfits).1
  rw [smfSmtpdProcessData_opened d socketFeed h, ← hstate]
  rfl

theorem smfSmtpdProcessData_refused {env : DataEnv M} {session : Session}
    {events : List Event} (h : processDataOpen d env session = (none, events)) (r : R) :
    smfSmtpdProcessData d feed env session r =
      (⟨processDataRefused env session, events, true⟩, r) := by
  rw [smfSmtpdProcessData, h]

end Feed

/-! ## The end -/

theorem completeHeaders_events (env : DataEnv M) (session : Session) (st : DataState) :
    ∃ ops : List FileOp, (completeHeaders env session st).events = ops.map .file := by
  unfold completeHeaders smfSmtpdAppendMissingHeaders
  split
  · exact ⟨[], rfl⟩
  · cases env.appendIo
    case mkstemp => exact ⟨[], rfl⟩
    case rename => exact ⟨[.create env.appendTmp, .unlink _], rfl⟩
    case done => exact ⟨[.create env.appendTmp, .unlink _, .rename env.appendTmp _], rfl⟩
    all_goals exact ⟨[.create env.appendTmp], rfl⟩

/-- The world in which the queue starts. -/
def queueWorld (env : DataEnv M) (session : Session) (spool : Option Bytes) (msg : M) : World M where
  session := session
  message := { ref := 0, msg }
  spool := spool.map fun content => { content, mtime := env.mtime }

/-- The session after the loop. -/
def receivedSession (session : Session) (st : DataState) : Session :=
  { session with messageSize := st.messageSize }

/-- The spool file after the header step. -/
def completedSpool (env : DataEnv M) (session : Session) (st : DataState) : Option Bytes :=
  (completeHeaders env (receivedSession session st) st).spool

/-- The message gets to the queue, in this world. -/
structure ReachesQueue (env : DataEnv M) (session : Session) (st : DataState) (w : World M) :
    Prop where
  size : sizeExceeded d.settings st.messageSize = false
  parsed : d.cmime.fromFile (completedSpool env session st) true = .ok w.message.msg
  named : d.cmime.messageId w.message.msg ≠ none
  world : w = queueWorld env (receivedSession session st) (completedSpool env session st)
    w.message.msg

section Reaches

variable {env : DataEnv M} {session : Session} {st : DataState} {w w' : World M}

theorem ReachesQueue.unique (h : ReachesQueue d env session st w)
    (h' : ReachesQueue d env session st w') : w = w' := by
  have hmsg : w.message.msg = w'.message.msg := by
    have heq := h.parsed.symm.trans h'.parsed
    exact Except.ok.inj heq
  rw [h.world, h'.world, hmsg]

/-- A property of the world in which the queue starts. -/
theorem ReachesQueue.forall_iff (h : ReachesQueue d env session st w) {P : World M → Prop} :
    (∀ w', ReachesQueue d env session st w' → P w') ↔ P w := by
  constructor
  · intro hall
    exact hall w h
  · intro hw w' h'
    rw [← h.unique d h']
    exact hw

end Reaches

/-- The ways on after the loop. -/
inductive Finished (env : DataEnv M) (session : Session) (st : DataState) (ops : List FileOp) :
    DataResult → Prop where
  | oversize (h : sizeExceeded d.settings st.messageSize = true) :
      Finished env session st ops
        ⟨receivedSession session st, .spooled st.spool :: ops.map .file ++
          [.reply REPLY_SIZE, .file (.unlink (session.messageFile.getD []))], true⟩
  | unparsable (hsize : sizeExceeded d.settings st.messageSize = false) (e : ParseError)
      (h : d.cmime.fromFile (completedSpool env session st) true = .error e) :
      Finished env session st ops
        ⟨receivedSession session st, .spooled st.spool :: ops.map .file ++
          [.reply (smfSmtpdCodeReply d.settings.smtpCodes 451)], true⟩
  | crashed (hsize : sizeExceeded d.settings st.messageSize = false) (msg : M)
      (hmsg : d.cmime.fromFile (completedSpool env session st) true = .ok msg)
      (h : d.cmime.messageId msg = none) :
      Finished env session st ops
        ⟨receivedSession session st, .spooled st.spool :: ops.map .file ++ [], false⟩
  | processed (w w' : World M) (h : ReachesQueue d env session st w) (out : List Event)
      (hout : Processed d env.queue w w' out) :
      Finished env session st ops
        ⟨w'.session, .spooled st.spool :: ops.map .file ++
          (.process w.session :: out ++
            [.file (.unlink (w'.session.messageFile.getD []))]), true⟩

/-- There is no other way on. -/
theorem processDataFinish_finished (env : DataEnv M) (session : Session) (st : DataState) :
    ∃ ops : List FileOp,
      Finished d env session st ops (processDataFinish d env session st) := by
  obtain ⟨ops, hops⟩ := completeHeaders_events env (receivedSession session st) st
  refine ⟨ops, ?_⟩
  unfold processDataFinish
  dsimp only
  rw [← receivedSession, ← completedSpool, hops]
  by_cases hsize : sizeExceeded d.settings st.messageSize = true
  · rw [if_pos hsize]
    exact .oversize hsize
  · rw [if_neg hsize]
    have hfalse : sizeExceeded d.settings st.messageSize = false := by simpa using hsize
    unfold processDataMessage
    split
    · rename_i e he
      exact .unparsable hfalse e he
    · rename_i msg hmsg
      by_cases hid : d.cmime.messageId msg = none
      · rw [if_pos hid]
        exact .crashed hfalse msg hmsg hid
      · rw [if_neg hid]
        exact .processed _ _ ⟨hfalse, hmsg, hid, rfl⟩ _
          (smfSmtpdProcessModules_processed d env.queue _)

/-- A message that does not get to the queue is refused, and nothing is called.
Otherwise the actions of the queue stand between two others. -/
theorem processDataFinish_cases (env : DataEnv M) (session : Session) (st : DataState) :
    ((∀ w, ¬ ReachesQueue d env session st w) ∧
        NothingCalled (processDataFinish d env session st).events ∧
        ∀ text ∈ replies (processDataFinish d env session st).events,
          text = REPLY_SIZE ∨ text = smfSmtpdCodeReply d.settings.smtpCodes 451) ∨
      ∃ (ops : List FileOp) (w w' : World M) (out : List Event),
        ReachesQueue d env session st w ∧ Processed d env.queue w w' out ∧
        processDataFinish d env session st =
          ⟨w'.session, .spooled st.spool :: ops.map .file ++
            (.process w.session :: out ++
              [.file (.unlink (w'.session.messageFile.getD []))]), true⟩ := by
  obtain ⟨ops, hfinished⟩ := processDataFinish_finished d env session st
  generalize processDataFinish d env session st = result at hfinished
  cases hfinished with
  | oversize h =>
    refine Or.inl ⟨fun w hw => ?_, ?_, ?_⟩
    · cases h.symm.trans hw.size
    · simp [nothingCalled_append, nothingCalled_cons, isCall]
    · intro text htext
      simp [replies] at htext
      exact Or.inl htext
  | unparsable hsize e he =>
    refine Or.inl ⟨fun w hw => ?_, ?_, ?_⟩
    · cases he.symm.trans hw.parsed
    · simp [nothingCalled_append, nothingCalled_cons, isCall]
    · intro text htext
      simp [replies] at htext
      exact Or.inr htext
  | crashed hsize msg hmsg hid =>
    refine Or.inl ⟨fun w hw => ?_, ?_, ?_⟩
    · have heq := Except.ok.inj (hw.parsed.symm.trans hmsg)
      exact hw.named (heq ▸ hid)
    · simp [nothingCalled_cons, isCall]
    · intro text htext
      simp [replies] at htext
  | processed w w' h out hout => exact Or.inr ⟨ops, w, w', out, h, hout, rfl⟩

end

end Spmfilter
