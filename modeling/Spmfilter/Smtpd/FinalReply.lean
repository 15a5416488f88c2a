import Spmfilter.Smtpd.Size

/-!
# The final reply

A client that has sent the dot line waits for one reply.

* `processed_replies` counts the replies of the queue: one, or none when the
  queue ends silently.
* `finalReply_once_iff` says when there is exactly one reply after the `354`.
  There are never two.
-/

namespace Spmfilter

open CString

section

variable {M : Type} (d : Daemon M)

/-! ## How many replies the queue sends -/

section Queue

variable (env : QueueEnv M) (w : World M)

/-- The queue ends without a reply: a module has failed and `module_fail` is
not to be reported, or the flush has failed. -/
def QueueSilent : Prop :=
  (queueStop d env w).ret = -1 ∧ d.settings.moduleFail ≠ 2 ∧ d.settings.moduleFail ≠ 3 ∨
    queueGoesOn d env w ∧ FlushFails d env w

variable {env w} {w' : World M} {out : List Event}

/-- The queue sends one reply, or none when it ends silently. -/
theorem processed_replies (h : Processed d env w w' out) :
    QueueSilent d env w ∧ replies out = [] ∨
      ¬ QueueSilent d env w ∧ ∃ text, replies out = [text] := by
  have hstop := queueStop_replies d env w
  have hspeaks : ∀ n : Int, (queueStop d env w).ret = n → n ≠ -1 → ¬ queueGoesOn d env w →
      ¬ QueueSilent d env w := by
    intro n hret hn hgoes hsilent
    rcases hsilent with ⟨hfail, _⟩ | ⟨hon, _⟩
    · exact hn (hret.symm.trans hfail)
    · exact hgoes hon
  have hflushed : queueGoesOn d env w → ¬ FlushFails d env w → ¬ QueueSilent d env w := by
    intro hon hflush hsilent
    rcases hsilent with ⟨hfail, _⟩ | ⟨_, hbad⟩
    · exact (queueGoesOn_ne hon).1 hfail
    · exact hflush hbad
  cases h with
  | ignored hret h =>
    refine Or.inl ⟨Or.inl ⟨hret, ?_, ?_⟩, hstop⟩ <;> rw [h] <;> decide
  | failed hret code h =>
    refine Or.inr ⟨?_, _, by simp [hstop]; rfl⟩
    intro hsilent
    rcases hsilent with ⟨_, h2, h3⟩ | ⟨hon, _⟩
    · rcases h with ⟨h, _⟩ | ⟨h, _⟩
      · exact h2 h
      · exact h3 h
    · exact (queueGoesOn_ne hon).1 hret
  | silent hret h => exact Or.inl ⟨Or.inl ⟨hret, h.2⟩, hstop⟩
  | accepted hret =>
    refine Or.inr ⟨hspeaks 1 hret (by decide) ?_, _, by simp [hstop]; rfl⟩
    exact fun hon => (queueGoesOn_ne hon).2 hret
  | answered hret =>
    refine Or.inr ⟨hspeaks _ rfl hret.1 ?_, _, by simp [hstop]; rfl⟩
    exact fun hon => hon.elim hret.2.1 hret.2.2.2
  | unflushed hret hflush ops => exact Or.inl ⟨Or.inr ⟨hret, hflush⟩, by simp [hstop]⟩
  | noNexthop hret hflush hnext ops =>
    exact Or.inr ⟨hflushed hret hflush, _, by simp [hstop]; rfl⟩
  | undelivered hret hflush next hnext ops rcpts hsent =>
    exact Or.inr ⟨hflushed hret hflush, _, by simp [hstop, replies]; rfl⟩
  | delivered hret hflush next hnext ops rcpts hsent =>
    exact Or.inr ⟨hflushed hret hflush, _, by simp [hstop, replies]; rfl⟩

end Queue

/-! ## How many replies the call sends -/

/-- The call ends without a final reply: the message has no message id, or the
queue ends silently. -/
def EndsSilently (env : DataEnv M) (session : Session) (st : DataState) : Prop :=
  (sizeExceeded d.settings st.messageSize = false ∧
    ∃ msg, d.cmime.fromFile (completedSpool env session st) true = .ok msg ∧
      d.cmime.messageId msg = none) ∨
  ∃ w, ReachesQueue d env session st w ∧ QueueSilent d env.queue w

theorem processDataFinish_replies (env : DataEnv M) (session : Session) (st : DataState) :
    EndsSilently d env session st ∧ replies (processDataFinish d env session st).events = [] ∨
      ¬ EndsSilently d env session st ∧
        ∃ text, replies (processDataFinish d env session st).events = [text] := by
  obtain ⟨ops, hfinished⟩ := processDataFinish_finished d env session st
  generalize processDataFinish d env session st = result at hfinished
  cases hfinished with
  | oversize h =>
    refine Or.inr ⟨?_, _, by simp [replies]; rfl⟩
    intro hsilent
    rcases hsilent with ⟨hsize, _⟩ | ⟨w, hw, _⟩
    · cases h.symm.trans hsize
    · cases h.symm.trans hw.size
  | unparsable hsize e he =>
    refine Or.inr ⟨?_, _, by simp [replies]; rfl⟩
    intro hsilent
    rcases hsilent with ⟨_, msg, hmsg, _⟩ | ⟨w, hw, _⟩
    · cases he.symm.trans hmsg
    · cases he.symm.trans hw.parsed
  | crashed hsize msg hmsg hid =>
    exact Or.inl ⟨Or.inl ⟨hsize, msg, hmsg, hid⟩, by simp [replies]⟩
  | processed w w' h out hout =>
    have hreplies : replies (.spooled st.spool :: ops.map .file ++
        (.process w.session :: out ++ [.file (.unlink (w'.session.messageFile.getD []))])) =
        replies out := by
      simp [replies]
    rw [hreplies]
    rcases processed_replies d hout with ⟨hsilent, hout⟩ | ⟨hspeaks, text, hout⟩
    · exact Or.inl ⟨Or.inr ⟨w, h, hsilent⟩, hout⟩
    · refine Or.inr ⟨?_, text, hout⟩
      intro hends
      rcases hends with ⟨_, msg, hmsg, hid⟩ | ⟨w'', hw, hsilent⟩
      · have heq := Except.ok.inj (h.parsed.symm.trans hmsg)
        exact h.named (heq ▸ hid)
      · exact hspeaks (h.unique d hw ▸ hsilent)

section Call

variable {R : Type} (feed : Feed UInt8 R) {env : DataEnv M} {session opened : Session}
  {events : List Event} (hopen : processDataOpen d env session = (some opened, events)) (r : R)

include hopen

/-- A call that has asked for the data sends exactly one more reply, unless it
ends silently. -/
theorem finalReply_once_iff :
    (∃ text, replies (smfSmtpdProcessData d feed env session r).1.events = [REPLY_354, text]) ↔
      ¬ EndsSilently d env opened
        (dataLoop feed.toSource { messageSize := opened.messageSize } (feed.enter r)).state := by
  obtain ⟨path, _, hevents⟩ := processDataOpen_some d hopen
  rw [smfSmtpdProcessData_opened d feed hopen, hevents]
  dsimp only
  rw [replies_append, show replies [.file (.create path), .reply REPLY_354] = [REPLY_354] from rfl]
  rcases processDataFinish_replies d env opened
    (dataLoop feed.toSource { messageSize := opened.messageSize } (feed.enter r)).state with
    ⟨hsilent, hreplies⟩ | ⟨hspeaks, text, hreplies⟩
  · rw [hreplies]
    refine iff_of_false ?_ (fun h => h hsilent)
    intro h
    obtain ⟨text, h⟩ := h
    simp at h
  · rw [hreplies]
    exact iff_of_true ⟨text, rfl⟩ hspeaks

end Call

end

/-- A message over the size limit. -/
theorem finalReply_once_oversize :
    ∃ text, replies (smfSmtpdProcessData tightDaemon socketFeed .plain openClient.session
      (chunkSocket (ascii "abcdef\n.\r\n") (by decide) (by decide))).1.events =
        [REPLY_354, text] := by
  refine (finalReply_once_iff tightDaemon socketFeed rfl _).2 ?_
  let line : Line := ⟨ascii "abcdef", by decide⟩
  have hcount : bytesTaken [line] + cutsTaken [line] = 7 :=
    sizeCount_of_fits (by decide) (by decide)
  have hdot : crlfDot.isDot := Or.inr rfl
  have hloop := dataLoop_map socketSource_hom {}
    (chunkSocket (ascii "abcdef\n.\r\n") (by decide) (by decide))
  have hmessage := dataLoop_messageSize {} [line] hdot []
  have hwire : wireOf (chunkSocket (ascii "abcdef\n.\r\n") (by decide) (by decide)) =
      bytesWire (linesBytes [line] ++ crlfDot.bytes) ++ [] := rfl
  rw [hwire] at hloop
  rw [hloop] at hmessage
  have hsize : sizeExceeded tightDaemon.settings (dataLoop socketSource {}
      (chunkSocket (ascii "abcdef\n.\r\n") (by decide) (by decide))).state.messageSize =
        true := by
    rw [hmessage, ← bytesTaken, ← cutsTaken, hcount]
    decide
  intro hends
  rcases hends with ⟨hfalse, _⟩ | ⟨w, hw, _⟩
  · cases hsize.symm.trans hfalse
  · cases hsize.symm.trans hw.size

/-- A daemon with one module, which is to be ignored when it fails. -/
def ignoringDaemon : Daemon Bytes :=
  { Daemon.plain with settings := { modules := [ascii "m"], moduleFail := 1 } }

/-- The module fails. -/
def failingEnv : DataEnv Bytes :=
  { DataEnv.plain with
    queue := { DataEnv.plain.queue with runs := fun _ => some fun w => (-1, w) } }

/-- The client waits for a reply that is never sent. -/
theorem finalReply_missing :
    0 < (dataLoop socketSource {}
        (chunkSocket (ascii "a: b\r\n.\r\n") (by decide) (by decide))).br ∧
      replies (smfSmtpdProcessData ignoringDaemon socketFeed failingEnv openClient.session
        (chunkSocket (ascii "a: b\r\n.\r\n") (by decide) (by decide))).1.events =
          [REPLY_354] := by
  constructor
  · have hbr := (dataLoop_oneLine (ascii "a: b\r") (by decide) (by decide) (by decide) {}
      (by decide) (by decide)).2
    exact hbr ▸ by decide
  · refine (congrArg replies (smfSmtpdProcessData_oneLine ignoringDaemon
      (@processDataOpen_opened _ ignoringDaemon failingEnv _ (Or.inl rfl) rfl openClient.session)
      (ascii "a: b\r") (by decide) (by decide) (by decide) (by decide) (by decide))).trans ?_
    rfl

end Spmfilter
