import Spmfilter.Modules.Flush
import Spmfilter.Modules.Queue

/-!
# Messages that are parsed again

`smf_module_invoke` parses the message again when a module has left the spool
file with a later modification time.  The first section looks at what this does
to the message in memory, one module at a time:

* `Parsed` is a module after which the message has been parsed again, and
  `KeptMessage` one after which the queue has left it alone.
* `merged_iff` says which changes of the file the next module gets to see.

The second section follows the body of the message through a run.  The message
that the engine parses holds the header only.  A message that is parsed again
holds the body as well, and the flush writes it in front of the body of the
file.
-/

namespace Spmfilter

open CString Stdio

/-- What a mail has behind its header. -/
def mailBody (text : Bytes) : Bytes :=
  (afterEmptyLine text).getD []

/-- The content of the spool file. -/
def spoolText {M : Type} (w : World M) : Bytes :=
  (w.spool.map Spool.content).getD []

section

variable {M : Type} (cmime : Cmime M)

/-- The queue has parsed the file that the module has left, and has put the new
message in the place of the old one. -/
structure Parsed (before : World M) (runner : ModuleLoad M) (after : Outcome M) (text : Bytes) :
    Prop where
  ok : (runner before).1 = 0
  named : (runner before).2.session.messageFile ≠ none
  later : messageFileMtime before < messageFileMtime (runner before).2
  content : (runner before).2.spool.map Spool.content = some text
  parse : cmime.fromFile (some text) false = .ok after.world.message.msg
  ref : after.world.message.ref = (runner before).2.message.ref + 1
  spool : after.world.spool = (runner before).2.spool
  event : .reload 0 ∈ after.events

/-- The queue has left the message as it is after the module. -/
structure KeptMessage (before : World M) (runner : ModuleLoad M) (after : Outcome M) : Prop where
  world : after.world = (runner before).2
  event : .reload 0 ∉ after.events

theorem ParseError.code_ne_zero (e : ParseError) : e.code ≠ 0 := by
  cases e <;> decide

/-- A file with a modification time exists. -/
theorem spool_of_mtime {w : World M} {t : Nat} (h : t < messageFileMtime w) :
    ∃ spool, w.spool = some spool ∧ t < spool.mtime := by
  unfold messageFileMtime at h
  cases hspool : w.spool with
  | none =>
    rw [hspool] at h
    exact absurd h (Nat.not_lt_zero t)
  | some spool =>
    rw [hspool] at h
    exact ⟨spool, rfl, h⟩

/-- What the queue does to the message after a module. -/
theorem smfModuleInvoke_message (name : Bytes) (runner : ModuleLoad M) (before : World M) :
    (∃ text, Parsed cmime before runner (smfModuleInvoke cmime name (some runner) before) text) ∨
      KeptMessage before runner (smfModuleInvoke cmime name (some runner) before) := by
  unfold smfModuleInvoke
  dsimp only
  split
  · rename_i hcond
    obtain ⟨hok, hnamed, hlater⟩ := hcond
    obtain ⟨spool, hspool, _⟩ := spool_of_mtime hlater
    have hcontent : (runner before).2.spool.map Spool.content = some spool.content := by
      rw [hspool]
      rfl
    rw [hcontent]
    split
    · rename_i e _
      right
      constructor
      · rfl
      · intro h
        rcases List.mem_cons.1 h with h | h
        · cases h
        · have hcode := List.mem_singleton.1 h
          exact e.code_ne_zero (Event.reload.inj hcode).symm
    · rename_i msg hparse
      left
      exact ⟨spool.content, hok, hnamed, hlater, hcontent, hparse, rfl, rfl, by simp⟩
  · right
    constructor
    · rfl
    · intro h
      cases List.mem_singleton.1 h

/-- A module that is configured but cannot be called. -/
theorem smfModuleInvoke_none (name : Bytes) (before : World M) :
    smfModuleInvoke cmime name none before = ⟨-1, before, []⟩ :=
  rfl

variable (settings : Settings) (env : QueueEnv M) (w : World M)

/-! ## What the next module sees -/

/-- The module at position `i` changes the content of the spool file and returns
`0`, and the next module is called. -/
structure ChangesSpool (i : Nat) (runner : ModuleLoad M) (new : Spool) : Prop where
  called : i + 1 < calledCount cmime settings env w
  runs : env.runs i = some runner
  ok : (runner (worldBefore cmime settings env w i)).1 = 0
  spool : (runner (worldBefore cmime settings env w i)).2.spool = some new
  changed : (worldBefore cmime settings env w i).spool.map Spool.content ≠ some new.content

/-- The message in memory is the parse of this file. -/
def InMemory (message : MessageRef M) (new : Spool) : Prop :=
  cmime.fromFile (some new.content) false = .ok message.msg

/-- A module that is followed by another one has returned `0`. -/
theorem resultAt_of_called {i : Nat} (h : i + 1 < calledCount cmime settings env w) :
    resultAt cmime settings env w i = 0 := by
  unfold calledCount at h
  exact resultAt_of_lt_finished cmime settings env w (by omega)

/-- The message that the next module sees is the parse of the changed file when
the file has a later modification time, and otherwise only when the module
itself has put that parse there. -/
theorem inMemory_step {i : Nat} {runner : ModuleLoad M} {new : Spool}
    (h : ChangesSpool cmime settings env w i runner new) :
    InMemory cmime (worldBefore cmime settings env w (i + 1)).message new ↔
      (runner (worldBefore cmime settings env w i)).2.session.messageFile ≠ none ∧
          messageFileMtime (worldBefore cmime settings env w i) < new.mtime ∨
        InMemory cmime (runner (worldBefore cmime settings env w i)).2.message new := by
  have hret := resultAt_of_called cmime settings env w h.called
  have hcases := smfModuleInvoke_message cmime (settings.modules.getD i []) runner
    (worldBefore cmime settings env w i)
  have hinvoke : invokeAt cmime settings env i (worldBefore cmime settings env w i) =
      smfModuleInvoke cmime (settings.modules.getD i []) (some runner)
        (worldBefore cmime settings env w i) := by
    rw [invokeAt, h.runs]
  have hmtime : messageFileMtime (runner (worldBefore cmime settings env w i)).2 = new.mtime := by
    unfold messageFileMtime
    rw [h.spool]
  rw [worldBefore, hinvoke]
  rcases hcases with ⟨text, hparsed⟩ | hkept
  · have htext : text = new.content := by
      have hcontent := hparsed.content
      rw [h.spool] at hcontent
      exact (Option.some.inj hcontent).symm
    have hlater := hparsed.later
    rw [hmtime] at hlater
    refine iff_of_true ?_ (Or.inl ⟨hparsed.named, hlater⟩)
    unfold InMemory
    rw [← htext]
    exact hparsed.parse
  · rw [hkept.world, or_iff_right]
    intro hnew
    -- the parse would have failed, and the next module would not have been called
    rw [resultAt, hinvoke] at hret
    have hnone := hkept.event
    unfold smfModuleInvoke at hret hnone
    dsimp only at hret hnone
    rw [if_pos ⟨h.ok, hnew.1, by rw [hmtime]; exact hnew.2⟩] at hret hnone
    split at hret
    · rename_i e _
      exact e.code_ne_zero hret
    · rename_i msg hparse
      rw [hparse] at hnone
      exact hnone (by simp)

/-- In a run, every module sees the changes that the modules before it have made
to the spool file exactly when each of these has left the file with a later
modification time (and with its name in the session), or has put the parse of
the new content into memory itself. -/
theorem merged_iff :
    (∀ i runner new, ChangesSpool cmime settings env w i runner new →
        InMemory cmime (worldBefore cmime settings env w (i + 1)).message new) ↔
      ∀ i runner new, ChangesSpool cmime settings env w i runner new →
        (runner (worldBefore cmime settings env w i)).2.session.messageFile ≠ none ∧
            messageFileMtime (worldBefore cmime settings env w i) < new.mtime ∨
          InMemory cmime (runner (worldBefore cmime settings env w i)).2.message new := by
  constructor
  · intro h i runner new hchange
    exact (inMemory_step cmime settings env w hchange).1 (h i runner new hchange)
  · intro h i runner new hchange
    exact (inMemory_step cmime settings env w hchange).2 (h i runner new hchange)

end

/-- A module that writes `text` into the spool file at the time `mtime`. -/
def writingSpool (text : Bytes) (mtime : Nat) : ModuleLoad Bytes := fun w =>
  (0, { w with spool := some ⟨text, mtime⟩ })

/-- A change in the second in which the file was created is not seen. -/
theorem merged_sameSecond :
    ¬ ∀ i runner new,
      ChangesSpool plainCmime { modules := [ascii "a", ascii "b"] }
          (mailEnv (writingSpool (ascii "Subject: new\r\n\r\nHello\r\n") 0)) mailWorld i runner
          new →
        InMemory plainCmime
          (worldBefore plainCmime { modules := [ascii "a", ascii "b"] }
            (mailEnv (writingSpool (ascii "Subject: new\r\n\r\nHello\r\n") 0)) mailWorld
            (i + 1)).message new := by
  intro h
  have hchange : ChangesSpool plainCmime { modules := [ascii "a", ascii "b"] }
      (mailEnv (writingSpool (ascii "Subject: new\r\n\r\nHello\r\n") 0)) mailWorld 0
      (writingSpool (ascii "Subject: new\r\n\r\nHello\r\n") 0)
      ⟨ascii "Subject: new\r\n\r\nHello\r\n", 0⟩ := by
    refine ⟨by decide, rfl, rfl, rfl, ?_⟩
    intro heq
    exact absurd (Option.some.inj heq) (by decide)
  have hmem := h 0 _ _ hchange
  have htext : ascii "Subject: new\r\n\r\nHello\r\n" = mailHeader := Except.ok.inj hmem
  exact absurd htext (by decide)

/-! ## The body through a run -/

section

variable {M : Type} (cmime : Cmime M)

/-- The module changes the message in memory through the message functions
only, which leave alone what is printed behind the header. -/
def OnlyHeaders (runner : ModuleLoad M) : Prop :=
  ∀ w, (runner w).2.message.ref = w.message.ref ∧
    mailBody (cmime.toString (runner w).2.message.msg) = mailBody (cmime.toString w.message.msg)

variable (settings : Settings) (env : QueueEnv M) (w : World M)

/-- The text that the queue has parsed after the module at position `i`. -/
def parsedAt (i : Nat) : Option Bytes :=
  if .reload 0 ∈ eventsAt cmime settings env w i then
    (worldBefore cmime settings env w (i + 1)).spool.map Spool.content
  else none

/-- The text that the queue has parsed last, after `n` modules. -/
def lastParsed : Nat → Option Bytes
  | 0 => none
  | n + 1 => (parsedAt cmime settings env w n).or (lastParsed n)

/-- One module: the message is a new parse, or prints the body that it has
printed before. -/
theorem parsedAt_cases
    (hfull : ∀ text m, cmime.fromFile (some text) false = .ok m → cmime.toString m = text)
    (hmods : ∀ i runner, env.runs i = some runner → OnlyHeaders cmime runner) (i : Nat) :
    let before := (worldBefore cmime settings env w i).message
    let after := (worldBefore cmime settings env w (i + 1)).message
    (∃ text, parsedAt cmime settings env w i = some text ∧ after.ref = before.ref + 1 ∧
        mailBody (cmime.toString after.msg) = mailBody text) ∨
      (parsedAt cmime settings env w i = none ∧ after.ref = before.ref ∧
        mailBody (cmime.toString after.msg) = mailBody (cmime.toString before.msg)) := by
  intro before after
  have hnext : worldBefore cmime settings env w (i + 1) =
      (invokeAt cmime settings env i (worldBefore cmime settings env w i)).world := rfl
  have hevents : eventsAt cmime settings env w i =
      (invokeAt cmime settings env i (worldBefore cmime settings env w i)).events := rfl
  show (∃ text, parsedAt cmime settings env w i = some text ∧
      (worldBefore cmime settings env w (i + 1)).message.ref = _ ∧
      mailBody (cmime.toString (worldBefore cmime settings env w (i + 1)).message.msg) = _) ∨
    (_ ∧ (worldBefore cmime settings env w (i + 1)).message.ref = _ ∧
      mailBody (cmime.toString (worldBefore cmime settings env w (i + 1)).message.msg) = _)
  unfold parsedAt
  rw [hnext, hevents, invokeAt]
  cases hruns : env.runs i with
  | none =>
    right
    rw [smfModuleInvoke_none]
    exact ⟨if_neg (by simp), rfl, rfl⟩
  | some runner =>
    obtain ⟨href, hbody⟩ := hmods i runner hruns (worldBefore cmime settings env w i)
    rcases smfModuleInvoke_message cmime (settings.modules.getD i []) runner
      (worldBefore cmime settings env w i) with ⟨text, hparsed⟩ | hkept
    · left
      refine ⟨text, ?_, ?_, ?_⟩
      · rw [if_pos hparsed.event, hparsed.spool, hparsed.content]
      · rw [hparsed.ref, href]
      · rw [hfull text _ hparsed.parse]
    · right
      refine ⟨if_neg hkept.event, ?_, ?_⟩
      · rw [hkept.world]
        exact href
      · rw [hkept.world]
        exact hbody

/-- Through a run: once a text has been parsed, the message prints its body, and
it is not the object any more that the queue has taken at its start. -/
theorem lastParsed_body
    (hfull : ∀ text m, cmime.fromFile (some text) false = .ok m → cmime.toString m = text)
    (hmods : ∀ i runner, env.runs i = some runner → OnlyHeaders cmime runner) (n : Nat) :
    w.message.ref ≤ (worldBefore cmime settings env w n).message.ref ∧
      ∀ text, lastParsed cmime settings env w n = some text →
        w.message.ref < (worldBefore cmime settings env w n).message.ref ∧
          mailBody (cmime.toString (worldBefore cmime settings env w n).message.msg) =
            mailBody text := by
  induction n with
  | zero =>
    refine ⟨Nat.le_refl _, ?_⟩
    intro text h
    cases h
  | succ n ih =>
    obtain ⟨hle, hlast⟩ := ih
    rcases parsedAt_cases cmime settings env w hfull hmods n with
      ⟨text, hparsed, href, hbody⟩ | ⟨hnone, href, hbody⟩
    · refine ⟨by omega, ?_⟩
      intro text' h
      rw [lastParsed, hparsed, Option.some_or] at h
      obtain rfl := Option.some.inj h
      exact ⟨by omega, hbody⟩
    · refine ⟨by omega, ?_⟩
      intro text h
      rw [lastParsed, hnone, Option.none_or] at h
      obtain ⟨hlt, hprev⟩ := hlast text h
      exact ⟨by omega, hbody.trans hprev⟩

/-- Two texts in one file: the body of the first stands in front of the second,
when the first has one. -/
theorem mailBody_append_iff (text body : Bytes) :
    mailBody (text ++ body) = body ↔
      mailBody text = [] ∧ ((afterEmptyLine text).isSome ∨ body = []) := by
  have hsplit := skipTo_append [] text body
  rw [skipTo_eq [] _ (by simp), skipTo_eq [] _ (by simp), List.nil_append, List.nil_append]
    at hsplit
  unfold mailBody
  rw [hsplit]
  cases hempty : afterEmptyLine text with
  | some rest =>
    simp
  | none =>
    dsimp only
    cases hskip : skipTo (lastLine [] text) body with
    | some rest =>
      have hshort := skipTo_length hskip
      have hne : body ≠ [] := by
        intro h
        rw [h] at hskip
        cases hskip
      refine iff_of_false ?_ ?_
      · intro h
        rw [Option.getD_some] at h
        rw [h] at hshort
        exact Nat.lt_irrefl _ hshort
      · simp [hne]
    | none =>
      simp [eq_comm]

variable (engine : Engine M)

/-- A run in which the message has been parsed again and the next hop is called:
the body that the modules have left in the spool file gets to the next hop
exactly when no header differs from those at the start, or the text that was
parsed last has no body and either the message prints an empty line or the file
has no body either. -/
theorem body_kept_iff
    (hfull : ∀ text m, cmime.fromFile (some text) false = .ok m → cmime.toString m = text)
    (hmods : ∀ i runner, env.runs i = some runner → OnlyHeaders cmime runner) (parsed : Bytes)
    (hparsed : lastParsed cmime settings env w (calledCount cmime settings env w) = some parsed)
    (hnexthop :
      nexthopCalls (smfModulesProcess cmime engine.queue settings env w).events ≠ []) :
    mailBody (spoolText (smfModulesProcess cmime engine.queue settings env w).world) =
        mailBody (spoolText (modulesStop cmime settings env w).world) ↔
      headersDirty (cmime.headers (modulesStop cmime settings env w).world.message.msg)
          (cmime.headers w.message.msg) = false ∨
        mailBody parsed = [] ∧
          ((afterEmptyLine
              (cmime.toString (modulesStop cmime settings env w).world.message.msg)).isSome ∨
            mailBody (spoolText (modulesStop cmime settings env w).world) = []) := by
  obtain ⟨hret, hspool⟩ := smfModulesProcess_spool cmime settings env w engine hnexthop
  obtain ⟨_, hlast⟩ := lastParsed_body cmime settings env w hfull hmods
    (calledCount cmime settings env w)
  obtain ⟨hlt, hbody⟩ := hlast parsed hparsed
  rw [modulesStop_eq]
  dsimp only
  unfold runFlush at hret hspool
  generalize worldBefore cmime settings env w (calledCount cmime settings env w) = stop
    at hlt hbody hret hspool ⊢
  -- the header of the queue is lost with the old message
  have hheader : setQueueHeader cmime settings w.message.ref
      (headerAt settings (finishedCount cmime settings env w)) stop = stop := by
    apply setQueueHeader_other
    omega
  rw [hheader] at hret hspool
  rw [spoolText, hspool, ← hbody]
  cases hdirty : headersDirty (cmime.headers stop.message.msg) (cmime.headers w.message.msg) with
  | false =>
    rw [smfModulesFlushDirty_clean cmime env.flushIo env.flushTmp _ stop hdirty]
    exact iff_of_true rfl (Or.inl rfl)
  | true =>
    obtain ⟨old, hold, hnew⟩ := smfModulesFlushDirty_written cmime env.flushIo env.flushTmp _ stop
      hdirty hret
    have htext : spoolText stop = old.content := by
      rw [spoolText, hold]
      rfl
    rw [hnew, htext, or_iff_right (by decide)]
    exact mailBody_append_iff (cmime.toString stop.message.msg) (mailBody old.content)

end

/-- One module and a next hop. -/
def reloadSettings : Settings :=
  { modules := [ascii "a"], nexthop := some (ascii "/out") }

/-- The module adds a header in the spool file, one second after the file was
created. -/
def reloadEnv : QueueEnv Bytes :=
  mailEnv (writingSpool (ascii "X-New: 1\r\nSubject: test\r\n\r\nHello\r\n") 1)

/-- What that module leaves has the body once, and the next hop gets it twice. -/
theorem body_repeated :
    lastParsed plainCmime reloadSettings reloadEnv mailWorld 1 =
        some (ascii "X-New: 1\r\nSubject: test\r\n\r\nHello\r\n") ∧
      nexthopCalls
          (smfModulesProcess plainCmime pipeQueue reloadSettings reloadEnv mailWorld).events =
        [(0, [])] ∧
      mailBody (spoolText (modulesStop plainCmime reloadSettings reloadEnv mailWorld).world) =
        ascii "Hello\r\n" ∧
      mailBody (spoolText
          (smfModulesProcess plainCmime pipeQueue reloadSettings reloadEnv mailWorld).world) =
        ascii "Hello\r\nHello\r\n" := by
  refine ⟨?_, ?_, ?_, ?_⟩ <;> decide

/-- That run under the condition: neither side holds. -/
theorem body_kept_iff_reloadEnv :
    mailBody (spoolText (smfModulesProcess plainCmime (Engine.queue (M := Bytes) .pipe)
          reloadSettings reloadEnv mailWorld).world) =
        mailBody (spoolText (modulesStop plainCmime reloadSettings reloadEnv mailWorld).world) ↔
      headersDirty (plainHeaders
            (modulesStop plainCmime reloadSettings reloadEnv mailWorld).world.message.msg)
          (plainHeaders mailWorld.message.msg) = false ∨
        mailBody (ascii "X-New: 1\r\nSubject: test\r\n\r\nHello\r\n") = [] ∧
          ((afterEmptyLine
              (modulesStop plainCmime reloadSettings reloadEnv
                mailWorld).world.message.msg).isSome ∨
            mailBody (spoolText
              (modulesStop plainCmime reloadSettings reloadEnv mailWorld).world) = []) :=
  body_kept_iff plainCmime reloadSettings reloadEnv mailWorld .pipe
    (by
      intro text m h
      exact (Except.ok.inj h).symm)
    (by
      intro i runner h w
      obtain rfl := Option.some.inj h
      exact ⟨rfl, rfl⟩)
    _ (by decide) (by decide)

end Spmfilter
