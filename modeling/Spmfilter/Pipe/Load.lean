import Spmfilter.Nexthop.File
import Spmfilter.Pipe.Engines
import Spmfilter.Smtpd.Cleanup

/-!
# A run of the pipe engine

`load` of `smf_pipe.c`: standard input goes into a spool file, the file is parsed, and the
queue runs on it.

* `pipeLoop` is the copy loop and `smfPipeLoad` the function.
* `CopyFails` says that a read or a write error stops the loop; `pipeLoop_eq` is the loop with
  and without it.
* `pipe_whole_or_nothing` says when the queue runs, and on what.
* `smfPipeLoad_left_iff` says when no file is left.
-/

namespace Spmfilter

open CString Stdio

/-- `BUF_SIZE`. -/
def BUF_SIZE : Nat := 1024

/-- The loop of `load` over `stdin`, with `error` for `ferror(stdin)`: whether it comes to the
end of the stream, and what has been written to the spool file. -/
def pipeLoop (reads : ReadFaults) (counts : WriteCounts) (call : Nat) (stdin : InFile)
    (error : Bool) (spool : Bytes) : Bool × Bytes :=
  if stdin.eof = true then (true, spool)
  else
    let block := freadCall reads call (BUF_SIZE - 1) stdin
    let error := error || (reads call).isSome
    if block.1.length = 0 ∧ error = true then (false, spool)
    else
      let nwritten := min (counts call) block.1.length
      if block.1.length ≠ nwritten then (false, spool ++ block.1.take nwritten)
      else pipeLoop reads counts (call + 1) block.2 error (spool ++ block.1)
termination_by stdin.size
decreasing_by
  rename_i hopen hread _
  refine freadCall_size (Bool.eq_false_iff.mpr hopen) (by decide) ?_
  rintro ⟨hzero, hfault⟩
  exact hread ⟨hzero, Bool.or_eq_true_iff.mpr (.inr hfault)⟩

/-- What the calls of `load` meet. -/
structure PipeEnv (M : Type) where
  queueFile : QueueFile
  /-- `fopen` of the spool file succeeds. -/
  openSpool : Bool
  reads : ReadFaults
  counts : WriteCounts
  /-- An error of `fclose`, and how many bytes are in the spool file then. -/
  closing : Option Nat
  /-- The time of the last change of the spool file before the queue runs. -/
  mtime : Nat
  queue : QueueEnv M

/-- What the spool file holds after `fclose`, whose result is not looked at. -/
def PipeEnv.closed {M : Type} (env : PipeEnv M) (written : Bytes) : Bytes :=
  match env.closing with
  | none => written
  | some kept => written.take kept

structure PipeResult where
  ret : Int
  events : List Event

section

variable {M : Type}

/-- The spool file of `load` when it can be opened.  `fopen` fails without a path, and makes the
file where `mkstemp` has not. -/
def pipeOpen (env : PipeEnv M) : Option Bytes × List Event :=
  match env.queueFile with
  | .noPath => (none, [])
  | .mkstempFailed path =>
    if env.openSpool then (some path, [.file (.create path)]) else (none, [])
  | .made path => (if env.openSpool then some path else none, [.file (.create path)])

variable (cmime : Cmime M) (settings : Settings)

/-- The session that the pipe engine hands to the queue. -/
def pipeSession (sid path : Bytes) : Session :=
  { smfSessionNew sid with messageFile := some path }

/-- What the queue of the pipe engine works on. -/
def pipeWorld (env : PipeEnv M) (sid path content : Bytes) (msg : M) : World M where
  session := pipeSession sid path
  message := { ref := 0, msg }
  spool := some { content, mtime := env.mtime }

/-- `load` of the pipe engine. -/
def smfPipeLoad (env : PipeEnv M) (sid stdin : Bytes) : PipeResult :=
  match pipeOpen env with
  | (none, events) => ⟨-1, events⟩
  | (some path, events) =>
    let copy := pipeLoop env.reads env.counts 0 (.start stdin) false []
    if copy.1 = false then ⟨-1, events⟩
    else
      let content := env.closed copy.2
      match cmime.fromFile (some content) true with
      | .error _ => ⟨-1, events ++ [.spooled content]⟩
      | .ok msg =>
        let world := pipeWorld env sid path content msg
        let out := smfModulesProcess cmime pipeQueue settings env.queue world
        ⟨out.ret, events ++ [.spooled content, .process world.session] ++ out.events ++
          [.file (.unlink (out.world.session.messageFile.getD []))]⟩

end

/-! ## The loop -/

section Loop

variable {reads : ReadFaults} {counts : WriteCounts} {call : Nat} {stdin : InFile} {error : Bool}

/-- Before the end of the stream, an `fread` delivers nothing after a read error, or an
`fwrite` is short. -/
def CopyFails (reads : ReadFaults) (counts : WriteCounts) (call : Nat) (stdin : InFile)
    (error : Bool) : Prop :=
  ∃ j, (fileAfter reads (BUF_SIZE - 1) call j stdin).eof = false ∧
    ((blockAt reads (BUF_SIZE - 1) call stdin j).length = 0 ∧
        ErrorBy error (fun i => (reads (call + i)).isSome = true) j ∨
      counts (call + j) < (blockAt reads (BUF_SIZE - 1) call stdin j).length)

/-- The first turn fails. -/
def PipeTurnFails (reads : ReadFaults) (counts : WriteCounts) (call : Nat) (stdin : InFile)
    (error : Bool) : Prop :=
  let block := (freadCall reads call (BUF_SIZE - 1) stdin).1
  (block.length = 0 ∧ (error || (reads call).isSome) = true) ∨ counts call < block.length

theorem copyFails_turn (hopen : stdin.eof = false) :
    CopyFails reads counts call stdin error ↔ PipeTurnFails reads counts call stdin error ∨
      CopyFails reads counts (call + 1) (freadCall reads call (BUF_SIZE - 1) stdin).2
        (error || (reads call).isSome) := by
  unfold CopyFails
  rw [← Nat.or_exists_add_one]
  refine or_congr ?_ (exists_congr fun j => ?_)
  · rw [errorBy_zero, blockAt_zero, PipeTurnFails, Bool.or_eq_true]
    exact and_iff_right hopen
  · rw [errorBy_succ, fileAfter_succ, blockAt_succ, ErrorBy, Bool.or_eq_true]
    simp only [Nat.add_assoc, Nat.add_comm 1, Nat.add_zero]

theorem pipeLoop_fails (hopen : stdin.eof = false)
    (hfails : PipeTurnFails reads counts call stdin error) (spool : Bytes) :
    (pipeLoop reads counts call stdin error spool).1 = false := by
  rw [pipeLoop, hopen, if_neg (by decide)]
  dsimp only
  split_ifs with hread hshort
  · rfl
  · rfl
  · rcases hfails with hread' | hlt
    · exact absurd hread' hread
    · omega

theorem pipeLoop_turn (hopen : stdin.eof = false)
    (hgoes : ¬ PipeTurnFails reads counts call stdin error) (spool : Bytes) :
    pipeLoop reads counts call stdin error spool =
      pipeLoop reads counts (call + 1) (freadCall reads call (BUF_SIZE - 1) stdin).2
        (error || (reads call).isSome)
        (spool ++ (freadCall reads call (BUF_SIZE - 1) stdin).1) := by
  have hwhole := not_or.mp hgoes
  rw [pipeLoop, hopen, if_neg (by decide)]
  dsimp only
  rw [if_neg hwhole.1, if_neg (by have := hwhole.2; omega)]

/-- The loop fails exactly at such an error.  Without one it writes all of the stream. -/
theorem pipeLoop_eq (hsound : stdin.Sound) (spool : Bytes) :
    ((pipeLoop reads counts call stdin error spool).1 = false ↔
        CopyFails reads counts call stdin error) ∧
      ((pipeLoop reads counts call stdin error spool).1 = true →
        (pipeLoop reads counts call stdin error spool).2 = spool ++ stdin.rest) := by
  induction hn : stdin.size using Nat.strongRecOn generalizing call stdin error spool with
  | ind n ih =>
    by_cases heof : stdin.eof = true
    · have hend : pipeLoop reads counts call stdin error spool = (true, spool) := by
        rw [pipeLoop, if_pos heof]
      rw [hend, hsound heof, List.append_nil]
      refine ⟨iff_of_false (fun h => Bool.noConfusion h) ?_, fun _ => rfl⟩
      rintro ⟨j, hopen, -⟩
      rw [fileAfter_eof heof j] at hopen
      cases hopen
    · have hopen : stdin.eof = false := Bool.eq_false_iff.mpr heof
      rw [copyFails_turn hopen]
      by_cases hfails : PipeTurnFails reads counts call stdin error
      · have hfalse := pipeLoop_fails hopen hfails spool
        rw [hfalse]
        exact ⟨iff_of_true rfl (.inl hfails), fun h => absurd h (by decide)⟩
      · have hsize : (freadCall reads call (BUF_SIZE - 1) stdin).2.size < stdin.size := by
          refine freadCall_size hopen (by decide) ?_
          rintro ⟨hzero, hfault⟩
          exact hfails (.inl ⟨hzero, by rw [hfault, Bool.or_true]⟩)
        obtain ⟨hiff, hall⟩ := @ih _ (hn ▸ hsize) (call + 1) _ (error || (reads call).isSome)
          hsound.freadCall (spool ++ (freadCall reads call (BUF_SIZE - 1) stdin).1) rfl
        rw [pipeLoop_turn hopen hfails, or_iff_right hfails]
        refine ⟨hiff, fun h => ?_⟩
        rw [hall h, List.append_assoc, freadCall_append]

end Loop

/-! ## The run -/

section Run

variable {M : Type} {cmime : Cmime M} {settings : Settings} {env : PipeEnv M} {sid stdin : Bytes}

/-- The run comes to the queue, which works on `w`: the spool file has been opened, all of
standard input has been read and written, and what is in the file then is a message. -/
structure PipeRuns (cmime : Cmime M) (env : PipeEnv M) (sid stdin path : Bytes) (w : World M) :
    Prop where
  opened : (pipeOpen env).1 = some path
  copied : ¬ CopyFails env.reads env.counts 0 (.start stdin) false
  parsed : cmime.fromFile (some (env.closed stdin)) true = .ok w.message.msg
  world : w = pipeWorld env sid path (env.closed stdin) w.message.msg

theorem PipeRuns.unique {path path' : Bytes} {w w' : World M}
    (h : PipeRuns cmime env sid stdin path w) (h' : PipeRuns cmime env sid stdin path' w') :
    path = path' ∧ w = w' := by
  have hpath := Option.some.inj (h.opened.symm.trans h'.opened)
  have hmsg := Except.ok.inj (h.parsed.symm.trans h'.parsed)
  refine ⟨hpath, ?_⟩
  rw [h.world, h'.world, hpath, hmsg]

/-- The run that comes to the queue. -/
theorem smfPipeLoad_runs {path : Bytes} {w : World M} (h : PipeRuns cmime env sid stdin path w) :
    smfPipeLoad cmime settings env sid stdin =
      let out := smfModulesProcess cmime pipeQueue settings env.queue w
      ⟨out.ret, (pipeOpen env).2 ++ [.spooled (env.closed stdin), .process w.session] ++
        out.events ++ [.file (.unlink (out.world.session.messageFile.getD []))]⟩ := by
  obtain ⟨hiff, hall⟩ := @pipeLoop_eq env.reads env.counts 0 _ false (sound_start stdin) []
  have hok : (pipeLoop env.reads env.counts 0 (.start stdin) false []).1 = true := by
    rw [← Bool.not_eq_false, hiff]
    exact h.copied
  have hcontent := hall hok
  rw [List.nil_append] at hcontent
  have hopen : pipeOpen env = (some path, (pipeOpen env).2) := Prod.ext h.opened rfl
  rw [smfPipeLoad, hopen]
  dsimp only
  rw [if_neg (by rw [hok]; decide), hcontent, show (InFile.start stdin).rest = stdin from rfl,
    h.parsed]
  dsimp only
  rw [← h.world]

/-- Any other run. -/
theorem smfPipeLoad_stops (h : ¬ ∃ path w, PipeRuns cmime env sid stdin path w) :
    (smfPipeLoad cmime settings env sid stdin).ret = -1 ∧
      ((smfPipeLoad cmime settings env sid stdin).events = (pipeOpen env).2 ∨
        (smfPipeLoad cmime settings env sid stdin).events =
          (pipeOpen env).2 ++ [.spooled (env.closed stdin)]) := by
  obtain ⟨hiff, hall⟩ := @pipeLoop_eq env.reads env.counts 0 _ false (sound_start stdin) []
  rw [smfPipeLoad]
  cases hopen : pipeOpen env with
  | mk opened events =>
    cases opened with
    | none => exact ⟨rfl, .inl rfl⟩
    | some path =>
      dsimp only
      by_cases hok : (pipeLoop env.reads env.counts 0 (.start stdin) false []).1 = false
      · rw [if_pos hok]
        exact ⟨rfl, .inl rfl⟩
      · have hcontent := hall (by rwa [Bool.not_eq_false] at hok)
        rw [List.nil_append] at hcontent
        rw [if_neg hok, hcontent, show (InFile.start stdin).rest = stdin from rfl]
        cases hparse : cmime.fromFile (some (env.closed stdin)) true with
        | error e => exact ⟨rfl, .inr rfl⟩
        | ok msg =>
          refine absurd ⟨path, pipeWorld env sid path (env.closed stdin) msg, ?_⟩ h
          exact ⟨by rw [hopen], fun hfails => hok (hiff.mpr hfails), hparse, rfl⟩

theorem pipeOpen_created (env : PipeEnv M) :
    ∀ e ∈ (pipeOpen env).2, ∃ path, e = .file (.create path) := by
  intro e he
  unfold pipeOpen at he
  cases hqueue : env.queueFile with
  | noPath =>
    rw [hqueue] at he
    cases he
  | mkstempFailed path =>
    rw [hqueue] at he
    dsimp only at he
    split_ifs at he
    · exact ⟨path, List.mem_singleton.mp he⟩
    · cases he
  | made path =>
    rw [hqueue] at he
    exact ⟨path, List.mem_singleton.mp he⟩

/-- **The queue gets all of standard input or nothing.**  However the calls of `fread` cut the
stream up, the message has been parsed from what `fclose` has kept of the whole of it.  A read
error that is noticed, a short write and a text that is no message end the run before, with `-1`
and without a call of a module or of the next hop. -/
theorem pipe_whole_or_nothing (cmime : Cmime M) (settings : Settings) (env : PipeEnv M)
    (sid stdin : Bytes) :
    (∀ path w, PipeRuns cmime env sid stdin path w →
        smfPipeLoad cmime settings env sid stdin =
            (let out := smfModulesProcess cmime pipeQueue settings env.queue w
            ⟨out.ret, (pipeOpen env).2 ++ [.spooled (env.closed stdin), .process w.session] ++
              out.events ++ [.file (.unlink (out.world.session.messageFile.getD []))]⟩) ∧
          w.spool.map Spool.content = some (env.closed stdin)) ∧
      ((¬ ∃ path w, PipeRuns cmime env sid stdin path w) →
        (smfPipeLoad cmime settings env sid stdin).ret = -1 ∧
          NothingCalled (smfPipeLoad cmime settings env sid stdin).events ∧
          ∀ text, .spooled text ∈ (smfPipeLoad cmime settings env sid stdin).events →
            text = env.closed stdin) := by
  constructor
  · intro path w h
    refine ⟨smfPipeLoad_runs h, ?_⟩
    rw [h.world]
    rfl
  · intro h
    obtain ⟨hret, hevents⟩ := @smfPipeLoad_stops M cmime settings env sid stdin h
    have hopened : NothingCalled (pipeOpen env).2 := by
      intro e he
      obtain ⟨path, rfl⟩ := pipeOpen_created env e he
      exact id
    have hspooled : ∀ text, .spooled text ∉ (pipeOpen env).2 := by
      intro text he
      obtain ⟨path, heq⟩ := pipeOpen_created env _ he
      cases heq
    refine ⟨hret, ?_⟩
    rcases hevents with hevents | hevents
    · rw [hevents]
      exact ⟨hopened, fun text he => absurd he (hspooled text)⟩
    · rw [hevents, nothingCalled_append]
      refine ⟨⟨hopened, ?_⟩, ?_⟩
      · intro e he
        rw [List.mem_singleton.mp he]
        exact id
      · intro text he
        rcases List.mem_append.mp he with he | he
        · exact absurd he (hspooled text)
        · cases List.mem_singleton.mp he
          rfl

end Run

/-! ## The files -/

section Files

variable {M : Type}

theorem fileOps_withoutReplies (events : List Event) :
    fileOps (withoutReplies events) = fileOps events := by
  induction events with
  | nil => rfl
  | cons e events ih =>
    cases e with
    | reply text => exact ih
    | file op => exact congrArg (op :: ·) ih
    | _ => exact ih

/-- Replacing the file at `path` and removing the one at `name`. -/
theorem replaced_unlink_iff {tmp path name : Bytes} {ops : List FileOp} {leaves : Prop}
    (h : ¬ leaves ∧ Replaced tmp name ops ∨ leaves ∧ Abandoned tmp name ops) (hne : tmp ≠ path) :
    filesLeft {path} (ops ++ [.unlink name]) = ∅ ↔ name = path ∧ ¬ leaves := by
  have hafter : filesLeft {path} (ops ++ [.unlink name]) = (filesLeft {path} ops).erase name :=
    filesLeft_append _ _ _
  rw [hafter]
  by_cases hname : name = path
  · subst hname
    rw [and_iff_right rfl]
    rcases h with ⟨hclean, hops⟩ | ⟨hleaves, hops⟩
    · rw [hops.stays hne]
      exact iff_of_true (Finset.erase_singleton name) hclean
    · exact iff_of_false (Finset.ne_empty_of_mem (Finset.mem_erase.mpr ⟨hne, hops.mem hne⟩))
        (not_not_intro hleaves)
  · have hmem := mem_filesLeft_replace (h.imp And.right And.right) hne.symm (Ne.symm hname)
      (Finset.mem_singleton_self path)
    exact iff_of_false (Finset.ne_empty_of_mem (Finset.mem_erase.mpr ⟨Ne.symm hname, hmem⟩))
      fun h => hname h.1

variable (d : Daemon M)

/-- The files and the spool file's name are the same as under the other engine. -/
theorem pipeQueue_files (env : QueueEnv M) (w : World M) :
    fileOps (smfModulesProcess d.cmime pipeQueue d.settings env w).events =
        fileOps (smfSmtpdProcessModules d env w).events ∧
      (smfModulesProcess d.cmime pipeQueue d.settings env w).world =
        (smfSmtpdProcessModules d env w).world := by
  obtain ⟨-, hworld, hevents⟩ := smfModulesProcess_agrees d.cmime env
    (Engine.agrees d.settings (.pipe : Engine M) (.smtpd d)) w
  have hfiles := congrArg fileOps hevents
  rw [fileOps_withoutReplies, fileOps_withoutReplies] at hfiles
  have hqueue : (smfSmtpdProcessModules d env w).world =
        (smfModulesProcess d.cmime (smtpdQueue d) d.settings env w).world ∧
      fileOps (smfSmtpdProcessModules d env w).events =
        fileOps (smfModulesProcess d.cmime (smtpdQueue d) d.settings env w).events := by
    rw [smfSmtpdProcessModules]
    split_ifs
    · exact ⟨rfl, rfl⟩
    · exact ⟨rfl, rfl⟩
    · refine ⟨rfl, ?_⟩
      rw [fileOps_append, fileOps_stringReply, List.append_nil]
  exact ⟨hfiles.trans hqueue.2.symm, hworld.trans hqueue.1.symm⟩

/-- The run comes to its end, and the queue keeps the name of the spool file and leaves no file
of its own. -/
def PipeCleans (env : PipeEnv M) (sid stdin path : Bytes) : Prop :=
  ∃ w, PipeRuns d.cmime env sid stdin path w ∧
    (queueStop d env.queue w).world.session.messageFile.getD [] = path ∧
    ¬ FlushLeaves d env.queue w

variable {d} {env : PipeEnv M} {sid stdin path : Bytes}

/-- The files of a run that has opened its spool file. -/
theorem smfPipeLoad_opened_left (hopen : pipeOpen env = (some path, [.file (.create path)]))
    (htmp : env.queue.flushTmp ≠ path) :
    filesLeft ∅ (fileOps (smfPipeLoad d.cmime d.settings env sid stdin).events) = ∅ ↔
      PipeCleans d env sid stdin path := by
  by_cases hruns : ∃ path w, PipeRuns d.cmime env sid stdin path w
  · obtain ⟨path', w, hruns⟩ := hruns
    obtain rfl : path' = path := Option.some.inj (hruns.opened.symm.trans (by rw [hopen]))
    have hcleans : PipeCleans d env sid stdin path' ↔
        (queueStop d env.queue w).world.session.messageFile.getD [] = path' ∧
          ¬ FlushLeaves d env.queue w := by
      constructor
      · rintro ⟨w', hruns', hend⟩
        rwa [(hruns.unique hruns').2]
      · intro hend
        exact ⟨w, hruns, hend⟩
    obtain ⟨hfiles, hworld⟩ := pipeQueue_files d env.queue w
    rw [hcleans, smfPipeLoad_runs hruns, hopen]
    have hops : fileOps ([.file (.create path')] ++ [.spooled (env.closed stdin),
          .process w.session] ++
          (smfModulesProcess d.cmime pipeQueue d.settings env.queue w).events ++
          [.file (.unlink ((smfModulesProcess d.cmime pipeQueue d.settings env.queue
            w).world.session.messageFile.getD []))]) =
        .create path' :: (fileOps (smfSmtpdProcessModules d env.queue w).events ++
          [.unlink ((queueStop d env.queue w).world.session.messageFile.getD [])]) := by
      rw [hworld, smfSmtpdProcessModules_messageFile, fileOps_append, fileOps_append, hfiles]
      rfl
    dsimp only
    rw [hops]
    exact replaced_unlink_iff (smfSmtpdProcessModules_ops d env.queue w) htmp
  · refine iff_of_false ?_ fun ⟨w, h, _⟩ => hruns ⟨path, w, h⟩
    have hcreated : fileOps (smfPipeLoad d.cmime d.settings env sid stdin).events =
        [.create path] := by
      rcases (@smfPipeLoad_stops M d.cmime d.settings env sid stdin hruns).2 with hevents | hevents
      · rw [hevents, hopen]
        rfl
      · rw [hevents, hopen]
        rfl
    rw [hcreated]
    exact Finset.insert_ne_empty path ∅

/-- A run that has not. -/
theorem smfPipeLoad_unopened {events : List Event} (hopen : pipeOpen env = (none, events)) :
    (smfPipeLoad d.cmime d.settings env sid stdin).events = events := by
  rw [smfPipeLoad, hopen]

variable (d env sid stdin)

/-- **When the pipe engine leaves no file.**  A spool file that has been made is removed only at
the end of the function, behind the queue. -/
theorem smfPipeLoad_left_iff (htmp : ∀ path, env.queueFile.path? = some path →
      env.queue.flushTmp ≠ path) :
    filesLeft ∅ (fileOps (smfPipeLoad d.cmime d.settings env sid stdin).events) = ∅ ↔
      match env.queueFile with
      | .noPath => True
      | .mkstempFailed path => env.openSpool = true → PipeCleans d env sid stdin path
      | .made path => env.openSpool = true ∧ PipeCleans d env sid stdin path := by
  cases hqueue : env.queueFile with
  | noPath =>
    rw [smfPipeLoad_unopened (by rw [pipeOpen, hqueue])]
    exact iff_of_true rfl trivial
  | mkstempFailed path =>
    rw [hqueue] at htmp
    dsimp only
    by_cases hopen : env.openSpool = true
    · rw [imp_iff_right hopen]
      exact smfPipeLoad_opened_left (by rw [pipeOpen, hqueue]; exact if_pos hopen) (htmp path rfl)
    · rw [smfPipeLoad_unopened (by rw [pipeOpen, hqueue]; exact if_neg hopen)]
      exact iff_of_true rfl fun h => absurd h hopen
  | made path =>
    rw [hqueue] at htmp
    dsimp only
    by_cases hopen : env.openSpool = true
    · rw [and_iff_right hopen]
      exact smfPipeLoad_opened_left (by rw [pipeOpen, hqueue]; simp only [hopen, if_true])
        (htmp path rfl)
    · have hunopened : pipeOpen env = (none, [.file (.create path)]) := by
        rw [pipeOpen, hqueue]
        dsimp only
        rw [if_neg hopen]
      rw [smfPipeLoad_unopened hunopened]
      exact iff_of_false (Finset.insert_ne_empty path ∅) fun h => hopen h.1

end Files

/-- `fopen` fails on the file that `mkstemp` has made. -/
def unopenedPipe : PipeEnv Bytes where
  queueFile := .made (ascii "/q/1")
  openSpool := false
  reads := .none
  counts := fun _ => 1024
  closing := none
  mtime := 1
  queue := DataEnv.plain.queue

/-- The file is left. -/
theorem smfPipeLoad_left_unopened :
    ¬ filesLeft ∅ (fileOps (smfPipeLoad plainCmime Daemon.plain.settings unopenedPipe (ascii "1")
      (ascii "a: b\n")).events) = ∅ := by
  intro h
  have hnames : ∀ path, unopenedPipe.queueFile.path? = some path →
      unopenedPipe.queue.flushTmp ≠ path := by
    intro path hpath
    obtain rfl := Option.some.inj hpath
    decide
  exact absurd ((smfPipeLoad_left_iff Daemon.plain unopenedPipe (ascii "1") (ascii "a: b\n")
    hnames).mp h).1 (by decide)

end Spmfilter
