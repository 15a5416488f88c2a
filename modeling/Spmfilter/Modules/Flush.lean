import Spmfilter.Message.Files
import Spmfilter.Modules.Sequence

/-!
# The flush, call by call

`smf_modules_flush_dirty` with the files it writes.  `smfModulesFlushDirty` is
the same function without the calls, and `smfModulesFlushDirtyFiles_eq`
connects the two.

The section about runs has modules that leave the spool file alone.  The
message in memory is then the one that the engine has parsed, with the headers
that the modules have changed, and the flush puts it in front of the old body.
-/

namespace Spmfilter

open CString Stdio

section

variable {M : Type} (cmime : Cmime M)

/-- `smf_modules_flush_dirty`.  `fdWrites` and `fileWrites` are the schedules of
`write` and of `fwrite`.  There is no result when the length of the message
text does not fit an `int`. -/
def smfModulesFlushDirtyFiles (io : FlushIo) (fdWrites fileWrites : WriteSchedule) (tmp : Bytes)
    (init : List Header) (w : World M) : Option (Outcome M) :=
  if headersDirty (cmime.headers w.message.msg) init = false then some ⟨0, w, []⟩
  else
    let path := w.session.messageFile.getD []
    let created := Event.file (.create tmp)
    let removed := Event.file (.unlink path)
    if io = .mkstemp then some ⟨-1, w, []⟩
    else if io = .toFd then some ⟨-1, w, [created]⟩
    else
      match smfMessageToFd cmime fdWrites w.message.msg with
      | none => none
      | some (total, new) =>
        if total = -1 then some ⟨-1, w, [created]⟩
        else if io = .openNew then some ⟨-1, w, [created]⟩
        else
          match w.spool with
          | none => some ⟨-1, w, [created]⟩
          | some old =>
            if io = .openOld then some ⟨-1, w, [created]⟩
            else
              let copied := smfMessageWriteSkipHeaderFile fileWrites old.content new
              if io = .skipHeader ∨ copied.1 = -1 then some ⟨-1, w, [created]⟩
              else if io = .unlink then some ⟨-1, w, [created]⟩
              else if io = .rename then
                some ⟨-1, { w with spool := none }, [created, removed]⟩
              else
                some ⟨0, { w with spool := some { old with content := copied.2 } },
                  [created, removed, .file (.rename tmp path)]⟩

variable (io : FlushIo) (fdWrites fileWrites : WriteSchedule) (tmp : Bytes) (init : List Header)
  (w : World M)

/-- The calls do what the description without them says, when both lengths fit an
`int`. -/
theorem smfModulesFlushDirtyFiles_eq
    (hint : (cmime.toString w.message.msg).length ≤ INT_MAX)
    (hsize : ∀ old, w.spool = some old →
      truncInt (smfMessageWriteSkipHeader [] old.content).length ≠ -1) :
    smfModulesFlushDirtyFiles cmime io fdWrites fileWrites tmp init w =
      some (smfModulesFlushDirty cmime io tmp init w) := by
  have hlen : ((cmime.toString w.message.msg).length : Int) ≠ -1 := by omega
  unfold smfModulesFlushDirtyFiles smfModulesFlushDirty
  by_cases hclean : headersDirty (cmime.headers w.message.msg) init = false
  · rw [if_pos hclean, if_pos hclean]
  rw [if_neg hclean, if_neg hclean, smfMessageToFd_eq, if_pos hint]
  dsimp only
  rw [if_neg hlen]
  cases hspool : w.spool with
  | none => cases io <;> simp
  | some old =>
    dsimp only
    rw [smfMessageWriteSkipHeaderFile_eq]
    dsimp only
    cases io <;> simp [hsize old hspool]

/-- When the length of the body reads as `-1` in an `int`, the copy counts as
failed. -/
theorem smfModulesFlushDirtyFiles_size
    (hint : (cmime.toString w.message.msg).length ≤ INT_MAX) {old : Spool}
    (hspool : w.spool = some old)
    (hsize : truncInt (smfMessageWriteSkipHeader [] old.content).length = -1)
    (hdirty : headersDirty (cmime.headers w.message.msg) init = true) :
    ∃ out, smfModulesFlushDirtyFiles cmime io fdWrites fileWrites tmp init w = some out ∧
      out.ret = -1 := by
  have hlen : ((cmime.toString w.message.msg).length : Int) ≠ -1 := by omega
  unfold smfModulesFlushDirtyFiles
  rw [hdirty, if_neg (by decide), smfMessageToFd_eq, if_pos hint, hspool]
  dsimp only
  rw [if_neg hlen, smfMessageWriteSkipHeaderFile_eq]
  dsimp only
  cases io <;> simp [hsize]

theorem smfMessageWriteSkipHeader_nil (text : Bytes) :
    smfMessageWriteSkipHeader [] text = (afterEmptyLine text).getD [] := by
  rw [smfMessageWriteSkipHeader_eq, skipTo_eq [] text (by simp), List.nil_append]

/-- Without a changed header the flush does nothing. -/
theorem smfModulesFlushDirty_clean
    (h : headersDirty (cmime.headers w.message.msg) init = false) :
    smfModulesFlushDirty cmime io tmp init w = ⟨0, w, []⟩ := by
  rw [smfModulesFlushDirty, if_pos h]

/-- With a changed header, a flush that returns `0` writes the message text and
the old body. -/
theorem smfModulesFlushDirty_written
    (hdirty : headersDirty (cmime.headers w.message.msg) init = true)
    (h : (smfModulesFlushDirty cmime io tmp init w).ret = 0) :
    ∃ old, w.spool = some old ∧
      (smfModulesFlushDirty cmime io tmp init w).world.spool =
        some { old with
          content := cmime.toString w.message.msg ++ (afterEmptyLine old.content).getD [] } := by
  unfold smfModulesFlushDirty at h ⊢
  rw [hdirty, if_neg (by decide)] at h ⊢
  cases hspool : w.spool with
  | none =>
    rw [hspool] at h
    cases io <;> simp at h
  | some old =>
    rw [hspool] at h
    cases io with
    | done =>
      refine ⟨old, rfl, ?_⟩
      dsimp only
      rw [smfMessageWriteSkipHeader_nil]
    | _ => simp at h

/-- A flush that returns `0` has met none of the exceptions. -/
theorem smfModulesFlushDirtyFiles_ret
    {out : Outcome M} (h : smfModulesFlushDirtyFiles cmime io fdWrites fileWrites tmp init w =
      some out) (hret : out.ret = 0) :
    out = smfModulesFlushDirty cmime io tmp init w := by
  by_cases hclean : headersDirty (cmime.headers w.message.msg) init = false
  · unfold smfModulesFlushDirtyFiles at h
    unfold smfModulesFlushDirty
    rw [if_pos hclean] at h ⊢
    exact (Option.some.inj h).symm
  have hdirty : headersDirty (cmime.headers w.message.msg) init = true := by simpa using hclean
  by_cases hint : (cmime.toString w.message.msg).length ≤ INT_MAX
  · by_cases hsize : ∀ old, w.spool = some old →
        truncInt (smfMessageWriteSkipHeader [] old.content).length ≠ -1
    · rw [smfModulesFlushDirtyFiles_eq cmime io fdWrites fileWrites tmp init w hint hsize] at h
      exact (Option.some.inj h).symm
    · push Not at hsize
      obtain ⟨old, hspool, hsize⟩ := hsize
      obtain ⟨out', hout', hfail⟩ := smfModulesFlushDirtyFiles_size cmime io fdWrites fileWrites
        tmp init w hint hspool hsize hdirty
      rw [hout'] at h
      rw [← Option.some.inj h, hfail] at hret
      cases hret
  · unfold smfModulesFlushDirtyFiles at h
    rw [if_neg hclean, smfMessageToFd_eq, if_neg hint] at h
    dsimp only at h
    split_ifs at h
    · rw [← Option.some.inj h] at hret
      cases hret
    · rw [← Option.some.inj h] at hret
      cases hret

end

/-! ## Modules that leave the spool file alone -/

section

variable {M : Type} (cmime : Cmime M) (settings : Settings) (env : QueueEnv M) (w : World M)

/-- Such a module does not lead to a new parse. -/
theorem smfModuleInvoke_of_spool (name : Bytes) (run : Option (ModuleLoad M)) (w : World M)
    (hrun : ∀ runner, run = some runner → (runner w).2.spool = w.spool) :
    (smfModuleInvoke cmime name run w).world.spool = w.spool ∧
      ∀ code, .reload code ∉ (smfModuleInvoke cmime name run w).events := by
  unfold smfModuleInvoke
  cases run with
  | none =>
    refine ⟨rfl, ?_⟩
    intro code h
    cases h
  | some runner =>
    have hspool := hrun runner rfl
    have hmtime : messageFileMtime (runner w).2 = messageFileMtime w := by
      unfold messageFileMtime
      rw [hspool]
    dsimp only
    rw [hmtime, if_neg (fun h => Nat.lt_irrefl _ h.2.2)]
    refine ⟨hspool, ?_⟩
    intro code h
    cases List.mem_singleton.1 h

theorem worldBefore_spool
    (hmods : ∀ i run w, env.runs i = some run → (run w).2.spool = w.spool) (n : Nat) :
    (worldBefore cmime settings env w n).spool = w.spool := by
  induction n with
  | zero => rfl
  | succ n ih =>
    rw [worldBefore, ← ih]
    exact (smfModuleInvoke_of_spool cmime _ _ _ (fun runner h => hmods n runner _ h)).1

theorem modulesStop_noReload
    (hmods : ∀ i run w, env.runs i = some run → (run w).2.spool = w.spool) (code : Int) :
    .reload code ∉ (modulesStop cmime settings env w).events := by
  rw [modulesStop_eq]
  intro h
  obtain ⟨i, _, hi⟩ := List.mem_flatMap.1 h
  exact (smfModuleInvoke_of_spool cmime _ _ _ (fun runner hr => hmods i runner _ hr)).2 code hi

variable (io : FlushIo) (fdWrites fileWrites : WriteSchedule) (out : Outcome M)

/-- When no module touches the spool file, the message is not parsed again, and
a flush that returns `0` leaves the file as it was or puts the text of the
message in front of what came after the first empty line of the old file. -/
theorem flush_keepsBody
    (hmods : ∀ i run w, env.runs i = some run → (run w).2.spool = w.spool)
    (hflush : smfModulesFlushDirtyFiles cmime io fdWrites fileWrites env.flushTmp
      (cmime.headers w.message.msg)
      (setQueueHeader cmime settings w.message.ref (modulesStop cmime settings env w).header
        (modulesStop cmime settings env w).world) = some out)
    (hret : out.ret = 0) :
    (∀ code, .reload code ∉ (modulesStop cmime settings env w).events) ∧
      (out.world.spool = w.spool ∨
        ∃ old new, w.spool = some old ∧ out.world.spool = some new ∧
          new.content =
            cmime.toString (setQueueHeader cmime settings w.message.ref
                (modulesStop cmime settings env w).header
                (modulesStop cmime settings env w).world).message.msg ++
              (afterEmptyLine old.content).getD []) := by
  refine ⟨modulesStop_noReload cmime settings env w hmods, ?_⟩
  have hstop : (modulesStop cmime settings env w).world.spool = w.spool := by
    rw [modulesStop_eq]
    exact worldBefore_spool cmime settings env w hmods _
  generalize hflushed : setQueueHeader cmime settings w.message.ref
    (modulesStop cmime settings env w).header
    (modulesStop cmime settings env w).world = flushed at hflush ⊢
  have hspool : flushed.spool = w.spool := by
    rw [← hflushed, setQueueHeader_spool]
    exact hstop
  have heq := smfModulesFlushDirtyFiles_ret cmime io fdWrites fileWrites env.flushTmp _ flushed
    hflush hret
  rw [heq] at hret ⊢
  cases hdirty : headersDirty (cmime.headers flushed.message.msg)
    (cmime.headers w.message.msg) with
  | false =>
    left
    rw [smfModulesFlushDirty_clean cmime io env.flushTmp _ flushed hdirty]
    exact hspool
  | true =>
    right
    obtain ⟨old, hold, hnew⟩ := smfModulesFlushDirty_written cmime io env.flushTmp _ flushed
      hdirty hret
    rw [hspool] at hold
    exact ⟨old, _, hold, hnew, rfl⟩

end

/-! ## A sample flush -/

/-- A module that sets a header of the session message. -/
def settingHeader (header : Bytes) : ModuleLoad Bytes := fun w =>
  (0, { w with message := { w.message with msg := plainCmime.setHeader w.message.msg header } })

/-- One module is configured. -/
def oneModule : Settings :=
  { modules := [ascii "a"] }

/-- That module sets a header. -/
def headerEnv : QueueEnv Bytes :=
  mailEnv (settingHeader (ascii "X-Test: 1"))

/-- What the flush makes of it. -/
def headerFlushed : Outcome Bytes where
  ret := 0
  world :=
    { mailWorld with
      message := ⟨0, ascii "X-Test: 1\r\n" ++ mailHeader⟩
      spool := some ⟨ascii "X-Test: 1\r\n" ++ mailText, 0⟩ }
  events := [.file (.create (ascii "/q/tmp")), .file (.unlink (ascii "/q/1")),
    .file (.rename (ascii "/q/tmp") (ascii "/q/1"))]

/-- The flush of that run, when every write takes one byte. -/
theorem headerFlushed_bytewise :
    smfModulesFlushDirtyFiles plainCmime .done .bytewise .bytewise headerEnv.flushTmp
      (plainCmime.headers mailWorld.message.msg)
      (setQueueHeader plainCmime oneModule mailWorld.message.ref
        (modulesStop plainCmime oneModule headerEnv mailWorld).header
        (modulesStop plainCmime oneModule headerEnv mailWorld).world) = some headerFlushed := by
  have hstop : setQueueHeader plainCmime oneModule mailWorld.message.ref
      (modulesStop plainCmime oneModule headerEnv mailWorld).header
      (modulesStop plainCmime oneModule headerEnv mailWorld).world =
        { mailWorld with message := ⟨0, ascii "X-Test: 1\r\n" ++ mailHeader⟩ } := rfl
  have hdirty : headersDirty (plainHeaders (ascii "X-Test: 1\r\n" ++ mailHeader))
      (plainHeaders mailHeader) = true := by decide
  rw [hstop, smfModulesFlushDirtyFiles_eq]
  · show some (if headersDirty (plainHeaders (ascii "X-Test: 1\r\n" ++ mailHeader))
      (plainHeaders mailHeader) = false then _ else _) = _
    rw [hdirty]
    rfl
  · decide
  · intro old hold
    obtain rfl := Option.some.inj hold
    decide

/-- The body stays behind the new header. -/
theorem flush_keepsBody_settingHeader :
    (∀ code, .reload code ∉ (modulesStop plainCmime oneModule headerEnv mailWorld).events) ∧
      (headerFlushed.world.spool = mailWorld.spool ∨
        ∃ old new, mailWorld.spool = some old ∧ headerFlushed.world.spool = some new ∧
          new.content =
            plainCmime.toString (setQueueHeader plainCmime oneModule mailWorld.message.ref
                (modulesStop plainCmime oneModule headerEnv mailWorld).header
                (modulesStop plainCmime oneModule headerEnv mailWorld).world).message.msg ++
              (afterEmptyLine old.content).getD []) :=
  flush_keepsBody plainCmime oneModule headerEnv mailWorld .done .bytewise .bytewise headerFlushed
    (by
      intro i run w h
      obtain rfl := Option.some.inj h
      rfl)
    headerFlushed_bytewise rfl

end Spmfilter
