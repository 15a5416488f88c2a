import Spmfilter.Modules.Replace
import Spmfilter.Smtpd.Run

/-!
# The missing headers, call by call

`smf_smtpd_append_missing_headers` with every call that may fail.  It writes the missing
headers into a new file, copies the spool file behind them, and puts the new file in the
place of the spool file.

* `copyLoop_iff` says exactly when the copy ends with the whole spool file in the new one.
  Neither of the two tests for an error in its loop is ever true, because both counts are
  unsigned.
* `copyLoops_iff` is the same for the two copy loops of the daemon.
* `append_cases` is how a run ends, and `smfSmtpdAppendMissingHeadersIo_eq` connects it to
  `smfSmtpdAppendMissingHeaders`, where one value says how far the run gets.
* `spoolKept_iff` says which failures lose the spool file, here and in the flush.
-/

namespace Spmfilter

open CString Stdio

/-- Which calls fail in one run of `smf_smtpd_append_missing_headers`. -/
structure AppendFaults where
  mkstemp : Bool := false
  openNew : Bool := false
  /-- The calls of `fputs`, each with what it has written when it fails. -/
  puts : Nat → Option Nat := fun _ => none
  openOld : Bool := false
  reads : ReadFaults := .none
  counts : WriteCounts
  unlink : Bool := false
  rename : Bool := false

/-- The texts that go into the new file one by one. -/
def missingHeaderTexts {M : Type} (env : DataEnv M) (session : Session) (st : DataState) :
    List Bytes :=
  let nl := st.nl.getD (ascii "(null)")
  (if st.foundMid then [] else [ascii "Message-Id: " ++ env.messageId ++ nl]) ++
  (if st.foundDate then [] else [ascii "Date: " ++ env.date ++ nl]) ++
  (if st.foundFrom then []
    else [ascii "From: " ++ session.envelope.sender.getD (ascii "(null)") ++ nl]) ++
  (if st.foundTo then [] else [ascii "To: undisclosed-recipients:;" ++ nl]) ++
  (if st.foundHeader then [] else [nl])

theorem missingHeaderTexts_flatten {M : Type} (env : DataEnv M) (session : Session)
    (st : DataState) :
    (missingHeaderTexts env session st).flatten = missingHeaders env session st := by
  have hpart : ∀ (b : Bool) (t : Bytes),
      (if b then [] else [t]).flatten = if b then [] else t := by
    intro b t
    cases b
    · exact List.append_nil t
    · rfl
  unfold missingHeaderTexts missingHeaders
  dsimp only
  rw [List.flatten_append, List.flatten_append, List.flatten_append, List.flatten_append, hpart,
    hpart, hpart, hpart, hpart]

/-- The calls of `fputs_or_return`: the new file, and whether one has failed. -/
def putsLoop (faults : Nat → Option Nat) : (call : Nat) → List Bytes → Bytes → Except Bytes Bytes
  | _, [], file => .ok file
  | call, s :: texts, file =>
    match faults call with
    | none => putsLoop faults (call + 1) texts (file ++ s)
    | some m => .error (file ++ s.take m)

/-! ## The copy loop -/

/-- The loop of `smf_smtpd_append_missing_headers`: the new file at its end. -/
def copyLoop (faults : ReadFaults) (counts : WriteCounts) :
    (fuel : Nat) → (call : Nat) → (old : InFile) → (new : Bytes) → Option Bytes
  | 0, _, _, _ => none
  | fuel + 1, call, old, new =>
    if old.eof = true then some new
    else
      -- `fread` and `fwrite` never return less than zero
      let block := freadCall faults call BUFSIZE old
      copyLoop faults counts fuel (call + 1) block.2 (new ++ block.1.take (counts call))

section

variable {faults : ReadFaults} {counts : WriteCounts} {call : Nat} {src : InFile} {new : Bytes}

theorem copyLoop_eof (heof : src.eof = true) (fuel : Nat) :
    copyLoop faults counts (fuel + 1) call src new = some new := by
  rw [copyLoop, if_pos heof]

theorem copyLoop_block (hopen : src.eof = false) (fuel : Nat) :
    copyLoop faults counts (fuel + 1) call src new =
      copyLoop faults counts fuel (call + 1) (freadCall faults call BUFSIZE src).2
        (new ++ (freadCall faults call BUFSIZE src).1.take (counts call)) := by
  rw [copyLoop, hopen, if_neg (by decide)]

/-- The loop ends at the end of the file.  It never writes too much, and it loses nothing
only when each block is taken whole. -/
theorem copyLoop_length {fuel : Nat} {file : Bytes}
    (h : copyLoop faults counts fuel call src new = some file) :
    ∃ k, (fileAfter faults BUFSIZE call k src).eof = true ∧
      file.length ≤ new.length + src.rest.length ∧
      (file.length = new.length + src.rest.length →
        TakesWhole counts call (blocks faults BUFSIZE call k src)) := by
  induction fuel generalizing call src new with
  | zero => cases h
  | succ fuel ih =>
    by_cases heof : src.eof = true
    · rw [copyLoop_eof heof] at h
      obtain rfl := Option.some.inj h
      refine ⟨0, heof, by omega, ?_⟩
      intro _
      exact takesWhole_nil counts call
    · rw [copyLoop_block (by simpa using heof)] at h
      obtain ⟨k, hend, hle, hwhole⟩ := ih h
      have hsplit : (freadCall faults call BUFSIZE src).1.length +
          (freadCall faults call BUFSIZE src).2.rest.length = src.rest.length := by
        rw [← List.length_append, freadCall_append]
      rw [List.length_append, List.length_take] at hle hwhole
      refine ⟨k + 1, hend, by omega, ?_⟩
      intro hlen
      rw [blocks, takesWhole_cons]
      exact ⟨by omega, hwhole (by omega)⟩

/-- The loop ends when the reads come to the end of the file. -/
theorem copyLoop_ends (h : ReachesEnd faults BUFSIZE call src) :
    ∃ fuel file, copyLoop faults counts fuel call src new = some file := by
  obtain ⟨k, hend⟩ := h
  induction k generalizing call src new with
  | zero => exact ⟨1, new, copyLoop_eof hend 0⟩
  | succ k ih =>
    by_cases heof : src.eof = true
    · exact ⟨1, new, copyLoop_eof heof 0⟩
    · obtain ⟨fuel, file, hrun⟩ := ih hend
      exact ⟨fuel + 1, file, (copyLoop_block (by simpa using heof) fuel).trans hrun⟩

/-- More turns do not change the result of the loop. -/
theorem copyLoop_more {fuel : Nat} {file : Bytes}
    (h : copyLoop faults counts fuel call src new = some file) :
    copyLoop faults counts (fuel + 1) call src new = some file := by
  induction fuel generalizing call src new with
  | zero => cases h
  | succ fuel ih =>
    by_cases heof : src.eof = true
    · rw [copyLoop_eof heof] at h ⊢
      exact h
    · rw [copyLoop_block (by simpa using heof)] at h ⊢
      exact ih h

/-- The copy is complete exactly when the reads come to the end of the file and each block
is taken whole. -/
theorem copyEnds_iff (hsound : src.Sound) :
    Ends (fun fuel => copyLoop faults counts fuel call src new)
        (fun file => file = new ++ src.rest) ↔
      ∃ k, (fileAfter faults BUFSIZE call k src).eof = true ∧
        TakesWhole counts call (blocks faults BUFSIZE call k src) := by
  constructor
  · rintro ⟨fuel, file, hrun, rfl⟩
    obtain ⟨k, hend, -, hwhole⟩ := copyLoop_length hrun
    exact ⟨k, hend, hwhole List.length_append⟩
  · rintro ⟨k, hend, hwhole⟩
    induction k generalizing call src new with
    | zero =>
      apply (ends_last rfl (copyLoop_eof hend)).mpr
      rw [hsound hend, List.append_nil]
    | succ k ih =>
      by_cases heof : src.eof = true
      · apply (ends_last rfl (copyLoop_eof heof)).mpr
        rw [hsound heof, List.append_nil]
      · rw [blocks, takesWhole_cons] at hwhole
        have hrest : Ends (fun fuel => copyLoop faults counts fuel (call + 1)
            (freadCall faults call BUFSIZE src).2 (new ++ (freadCall faults call BUFSIZE src).1))
            (fun file => file = new ++ (freadCall faults call BUFSIZE src).1 ++
              (freadCall faults call BUFSIZE src).2.rest) :=
          ih hsound.freadCall hend hwhole.2
        rw [List.append_assoc, freadCall_append] at hrest
        apply (ends_turn rfl (copyLoop_block (by simpa using heof))).mpr
        rw [List.take_of_length_le hwhole.1]
        exact hrest

end

/-- The reads come to the end of the file, and each block is taken whole. -/
def CopiesWhole (faults : ReadFaults) (counts : WriteCounts) (old : Bytes) : Prop :=
  ∃ k, (fileAfter faults BUFSIZE 0 k (.start old)).eof = true ∧
    TakesWhole counts 0 (blocks faults BUFSIZE 0 k (.start old))

theorem copyLoop_iff (faults : ReadFaults) (counts : WriteCounts) (old new : Bytes) :
    Ends (fun fuel => copyLoop faults counts fuel 0 (.start old) new)
        (fun file => file = new ++ old) ↔ CopiesWhole faults counts old :=
  copyEnds_iff (sound_start old)

/-- **When the copy loops end, and report a success only for a whole copy.**  The copy of
`smf_smtpd_append_missing_headers` always counts as a success. -/
theorem copyLoops_iff (faults : ReadFaults) (counts : WriteCounts) (old new : Bytes) :
    (Ends (fun fuel => copyLoop faults counts fuel 0 (.start old) new)
        (fun file => file = new ++ old) ↔ CopiesWhole faults counts old) ∧
    (Ends (fun fuel => smfMessageWriteSkipHeaderIo faults counts fuel old new)
        (fun out => out.1 ≠ -1 → out.2 = new ++ (afterEmptyLine old).getD []) ↔
      SkipReads faults counts old 0 0) :=
  ⟨copyLoop_iff faults counts old new, skipHeaderIo_iff faults counts old new⟩

/-- A write that takes nothing is not noticed by the one loop, and a `getline` that fails
is not noticed by the other. -/
theorem copyLoops_unnoticed :
    ¬ Ends (fun fuel => copyLoop .none (fun _ => 0) fuel 0 (.start (ascii "a")) [])
        (fun file => file = ascii "a") ∧
    ¬ Ends (fun fuel => smfMessageWriteSkipHeaderIo (fun _ => some 0) (fun _ => 1) fuel
        (ascii "\na") []) (fun out => out.1 ≠ -1 → out.2 = ascii "a") := by
  constructor
  · intro h
    obtain ⟨k, hend, hwhole⟩ := (copyLoop_iff .none (fun _ => 0) (ascii "a") []).mp h
    cases k with
    | zero => cases hend
    | succ k => exact absurd (hwhole 0 (ascii "a") rfl) (by decide)
  · intro h
    have hreads := (skipHeaderIo_iff (fun _ => some 0) (fun _ => 1) (ascii "\na") []).mp h
    rcases hreads (ascii "a") (by decide) with ⟨-, hbody⟩ | ⟨hall, -⟩
    · cases hbody
    · cases hall 0 (Nat.zero_le _)

/-! ## The whole function -/

section

variable {M : Type} (env : DataEnv M) (session : Session) (st : DataState)
  (faults : AppendFaults) (files : Files)

/-- `smf_smtpd_append_missing_headers` call by call: the result and the files.  `fuel` is
for the copy loop. -/
def smfSmtpdAppendMissingHeadersIo (fuel : Nat) : Option (Int × Files) :=
  let path := session.messageFile.getD []
  let tmp := env.appendTmp
  -- `mkstemp` makes a file that was not there
  if faults.mkstemp = true ∨ (files tmp).isSome = true then some (-1, files)
  else if faults.openNew = true then some (-1, files.write tmp [])
  else
    match putsLoop faults.puts 0 (missingHeaderTexts env session st) [] with
    | .error new => some (-1, files.write tmp new)
    | .ok new =>
      match files.write tmp new path with
      | none => some (-1, files.write tmp new)
      | some old =>
        if faults.openOld = true then some (-1, files.write tmp new)
        else
          match copyLoop faults.reads faults.counts fuel 0 (.start old) new with
          | none => none
          | some new =>
            some (replaceFile faults.unlink faults.rename tmp path (files.write tmp new))

/-- Everything before the `unlink` succeeds. -/
structure AppendReaches (old : Bytes) : Prop where
  made : faults.mkstemp = false
  fresh : files env.appendTmp = none
  openNew : faults.openNew = false
  puts : ∀ j < (missingHeaderTexts env session st).length, faults.puts j = none
  openOld : faults.openOld = false
  reads : ReachesEnd faults.reads BUFSIZE 0 (.start old)

/-- How a run on a spool file with the content `old` ends. -/
inductive AppendEnds (fuel : Nat) (path old : Bytes) : Int × Files → Prop where
  | failed (files' : Files) (hkeep : files' path = some old) :
    AppendEnds fuel path old (-1, files')
  | copied (new : Bytes) (hreaches : AppendReaches env session st faults files old)
    (hkeep : files.write env.appendTmp new path = some old)
    (hcopy : copyLoop faults.reads faults.counts fuel 0 (.start old)
      (missingHeaders env session st) = some new) :
    AppendEnds fuel path old
      (replaceFile faults.unlink faults.rename env.appendTmp path
        (files.write env.appendTmp new))

end

/-- The texts go into the file when no call fails. -/
theorem putsLoop_ok {faults : Nat → Option Nat} {call : Nat} {texts : List Bytes}
    {file new : Bytes} (h : putsLoop faults call texts file = .ok new) :
    new = file ++ texts.flatten ∧ ∀ j < texts.length, faults (call + j) = none := by
  induction texts generalizing call file with
  | nil =>
    cases h
    exact ⟨(List.append_nil _).symm, by simp⟩
  | cons t texts ih =>
    rw [putsLoop] at h
    cases hcall : faults call with
    | some m =>
      rw [hcall] at h
      cases h
    | none =>
      rw [hcall] at h
      obtain ⟨hnew, hall⟩ := ih h
      refine ⟨by rw [hnew, List.flatten_cons, List.append_assoc], ?_⟩
      intro j hj
      cases j with
      | zero => exact hcall
      | succ j =>
        have hnext := hall j (by simpa using hj)
        rw [Nat.add_assoc, Nat.add_comm 1 j] at hnext
        exact hnext

theorem putsLoop_of_ok {faults : Nat → Option Nat} {call : Nat} {texts : List Bytes}
    (h : ∀ j < texts.length, faults (call + j) = none) (file : Bytes) :
    putsLoop faults call texts file = .ok (file ++ texts.flatten) := by
  induction texts generalizing call file with
  | nil => rw [putsLoop, List.flatten_nil, List.append_nil]
  | cons t texts ih =>
    have hfirst : faults call = none := h 0 (by simp)
    have hrest : ∀ j < texts.length, faults (call + 1 + j) = none := by
      intro j hj
      rw [Nat.add_assoc, Nat.add_comm 1 j]
      exact h (j + 1) (by simpa using hj)
    rw [putsLoop, hfirst]
    dsimp only
    rw [ih hrest, List.flatten_cons, List.append_assoc]

section

variable {M : Type} {env : DataEnv M} {session : Session} {st : DataState}
  {faults : AppendFaults} {files : Files} {path old : Bytes}
  (hpath : session.messageFile = some path) (hold : files path = some old)

include hpath hold

/-- What a run leaves of the spool file. -/
theorem append_cases {fuel : Nat} {out : Int × Files}
    (hrun : smfSmtpdAppendMissingHeadersIo env session st faults files fuel = some out) :
    AppendEnds env session st faults files fuel path old out := by
  unfold smfSmtpdAppendMissingHeadersIo at hrun
  rw [hpath] at hrun
  dsimp only [Option.getD_some] at hrun
  by_cases hmk : faults.mkstemp = true ∨ (files env.appendTmp).isSome = true
  · rw [if_pos hmk] at hrun
    obtain rfl := Option.some.inj hrun
    exact .failed files hold
  rw [if_neg hmk] at hrun
  have hmade : faults.mkstemp = false := by simpa using fun h => hmk (Or.inl h)
  have hfresh : files env.appendTmp = none := by simpa using fun h => hmk (Or.inr h)
  -- until the `unlink` only the new file is written
  have hkeep := Files.write_fresh hold hfresh
  have hfailed : ∀ new : Bytes, some ((-1 : Int), files.write env.appendTmp new) = some out →
      AppendEnds env session st faults files fuel path old out := by
    intro new h
    obtain rfl := Option.some.inj h
    exact .failed _ (hkeep new)
  by_cases hnew : faults.openNew = true
  · rw [if_pos hnew] at hrun
    exact hfailed [] hrun
  rw [if_neg hnew] at hrun
  cases hputs : putsLoop faults.puts 0 (missingHeaderTexts env session st) [] with
  | error new =>
    rw [hputs] at hrun
    exact hfailed new hrun
  | ok new =>
    rw [hputs] at hrun
    dsimp only at hrun
    rw [hkeep] at hrun
    dsimp only at hrun
    obtain ⟨htexts, hall⟩ := putsLoop_ok hputs
    rw [List.nil_append, missingHeaderTexts_flatten] at htexts
    by_cases hopen : faults.openOld = true
    · rw [if_pos hopen] at hrun
      exact hfailed new hrun
    rw [if_neg hopen] at hrun
    cases hcopy : copyLoop faults.reads faults.counts fuel 0 (.start old) new with
    | none =>
      rw [hcopy] at hrun
      cases hrun
    | some new' =>
      rw [hcopy] at hrun
      obtain rfl := Option.some.inj hrun
      obtain ⟨k, hend, -⟩ := copyLoop_length hcopy
      have hreaches : AppendReaches env session st faults files old :=
        { made := hmade
          fresh := hfresh
          openNew := by simpa using hnew
          puts := fun j hj => by simpa using hall j hj
          openOld := by simpa using hopen
          reads := ⟨k, hend⟩ }
      rw [htexts] at hcopy
      exact .copied new' hreaches (hkeep new') hcopy

/-- When everything before the `unlink` succeeds, some run comes to it. -/
theorem append_reaches (h : AppendReaches env session st faults files old) :
    ∃ fuel files', files' path = some old ∧
      smfSmtpdAppendMissingHeadersIo env session st faults files fuel =
        some (replaceFile faults.unlink faults.rename env.appendTmp path files') := by
  have hkeep := Files.write_fresh hold h.fresh
  have hputs : putsLoop faults.puts 0 (missingHeaderTexts env session st) [] =
      .ok (missingHeaders env session st) := by
    rw [putsLoop_of_ok (fun j hj => by simpa using h.puts j hj), List.nil_append,
      missingHeaderTexts_flatten]
  obtain ⟨fuel, new, hcopy⟩ : ∃ fuel new, copyLoop faults.reads faults.counts fuel 0 (.start old)
      (missingHeaders env session st) = some new := copyLoop_ends h.reads
  refine ⟨fuel, files.write env.appendTmp new, hkeep new, ?_⟩
  unfold smfSmtpdAppendMissingHeadersIo
  rw [hpath]
  dsimp only [Option.getD_some]
  rw [h.made, h.fresh, if_neg (by decide), h.openNew, if_neg (by decide), hputs]
  dsimp only
  rw [hkeep, h.openOld]
  dsimp only
  rw [if_neg (by decide), hcopy]

/-- A failure keeps the spool file, unless everything up to the `unlink` succeeds and the
`rename` fails. -/
theorem append_keeps_iff :
    KeepsFile (smfSmtpdAppendMissingHeadersIo env session st faults files) path old ↔
      ¬(AppendReaches env session st faults files old ∧
        faults.unlink = false ∧ faults.rename = true) := by
  apply keepsFile_iff ?_ (append_reaches hpath hold)
  intro fuel out hrun
  cases append_cases hpath hold hrun with
  | failed _ hkeep => exact Or.inl hkeep
  | copied _ hreaches hkeep _ => exact Or.inr ⟨hreaches, _, hkeep, rfl⟩

/-- A run whose copy is whole does what `smfSmtpdAppendMissingHeaders` describes. -/
theorem smfSmtpdAppendMissingHeadersIo_eq (hspool : st.spool = old)
    (hcopies : CopiesWhole faults.reads faults.counts old) {fuel : Nat} {out : Int × Files}
    (hrun : smfSmtpdAppendMissingHeadersIo env session st faults files fuel = some out) :
    ∃ io, out.1 = (smfSmtpdAppendMissingHeaders { env with appendIo := io } session st).ret ∧
      out.2 path = (smfSmtpdAppendMissingHeaders { env with appendIo := io } session st).spool := by
  cases append_cases hpath hold hrun with
  | failed files' hkeep =>
    refine ⟨.mkstemp, rfl, ?_⟩
    show files' path = some st.spool
    rw [hkeep, hspool]
  | copied new hreaches hkeep hcopy =>
    have hne : path ≠ env.appendTmp := Files.ne_of_fresh hold hreaches.fresh
    have hnew : new = missingHeaders env session st ++ old := by
      have hends := (copyLoop_iff faults.reads faults.counts old
        (missingHeaders env session st)).mpr hcopies
      exact hends.of_run (fun _ _ h => copyLoop_more h) hcopy
    cases hunlink : faults.unlink with
    | true =>
      refine ⟨.unlink, rfl, ?_⟩
      show files.write env.appendTmp new path = some st.spool
      rw [hkeep, hspool]
    | false =>
      cases hrename : faults.rename with
      | true => exact ⟨.rename, rfl, Files.remove_same⟩
      | false =>
        refine ⟨.done, rfl, ?_⟩
        rw [replaceFile_done hne, Files.write_same, hnew, ← hspool]
        rfl

end

/-! ## Both functions -/

section

variable {M : Type} {env : DataEnv M} {session : Session} {st : DataState}
  {appendFaults : AppendFaults} {cmime : Cmime M} {flushFaults : FlushFaults} {tmp : Bytes}
  {init : List Header} {w : World M} {files : Files} {path old : Bytes}

/-- **Which failures lose the spool file**: only a `rename` that fails after the `unlink`.
In every other run that returns `-1`, of the one function or the other,
`session->message_file` names a file with its old content. -/
theorem spoolKept_iff (hsession : session.messageFile = some path)
    (hworld : w.session.messageFile = some path) (hold : files path = some old) :
    (KeepsFile (smfSmtpdAppendMissingHeadersIo env session st appendFaults files) path old ↔
      ¬(AppendReaches env session st appendFaults files old ∧
        appendFaults.unlink = false ∧ appendFaults.rename = true)) ∧
    (KeepsFile (smfModulesFlushDirtyIo cmime flushFaults tmp init w files) path old ↔
      ¬(FlushReaches cmime flushFaults tmp init w files old ∧
        flushFaults.unlink = false ∧ flushFaults.rename = true)) :=
  ⟨append_keeps_iff hsession hold, flush_keeps_iff hworld hold⟩

end

/-- A queue directory with one file. -/
def oneFile : Files := fun name => if name = ascii "/q/1" then some (ascii "x") else none

/-- The message that the file belongs to, with a header that it did not have at first. -/
def oneFileWorld : World Bytes where
  session := { id := ascii "1", messageFile := some (ascii "/q/1") }
  message := ⟨0, []⟩
  spool := some ⟨ascii "x", 0⟩

/-- A failed `unlink` does not lose the file. -/
theorem spoolKept_iff_unlink :
    KeepsFile (smfSmtpdAppendMissingHeadersIo DataEnv.plain oneFileWorld.session {}
      { counts := fun _ => BUFSIZE, unlink := true } oneFile) (ascii "/q/1") (ascii "x") ∧
    KeepsFile (smfModulesFlushDirtyIo plainCmime
      { sched := .bytewise, counts := fun _ => BUFSIZE, unlink := true } (ascii "/q/2")
      [⟨ascii "A", []⟩] oneFileWorld oneFile) (ascii "/q/1") (ascii "x") := by
  have hiff := @spoolKept_iff Bytes DataEnv.plain oneFileWorld.session {}
    { counts := fun _ => BUFSIZE, unlink := true } plainCmime
    { sched := .bytewise, counts := fun _ => BUFSIZE, unlink := true } (ascii "/q/2")
    [⟨ascii "A", []⟩] oneFileWorld oneFile (ascii "/q/1") (ascii "x") rfl rfl (by decide)
  exact ⟨hiff.1.mpr (by simp), hiff.2.mpr (by simp)⟩

/-- A `rename` that fails loses it, in both functions. -/
theorem spoolLost_rename :
    ¬ KeepsFile (smfSmtpdAppendMissingHeadersIo DataEnv.plain oneFileWorld.session {}
      { counts := fun _ => BUFSIZE, rename := true } oneFile) (ascii "/q/1") (ascii "x") ∧
    ¬ KeepsFile (smfModulesFlushDirtyIo plainCmime
      { sched := .bytewise, counts := fun _ => BUFSIZE, rename := true } (ascii "/q/2")
      [⟨ascii "A", []⟩] oneFileWorld oneFile) (ascii "/q/1") (ascii "x") := by
  have hold : oneFile (ascii "/q/1") = some (ascii "x") := by decide
  constructor
  · intro hkeeps
    apply (append_keeps_iff rfl hold).mp hkeeps
    refine ⟨⟨rfl, by decide, rfl, fun _ _ => rfl, rfl, 1, by decide⟩, rfl, rfl⟩
  · intro hkeeps
    apply (flush_keeps_iff rfl hold).mp hkeeps
    have hfd : smfMessageToFdIo plainCmime .bytewise (fun _ => false) oneFileWorld.message.msg =
        some (0, []) := by
      show toFdIoLoop .bytewise (fun _ => false) [] 0 0 [] = some (0, [])
      rw [toFdIoLoop]
      rfl
    refine ⟨⟨by decide, rfl, by decide, 0, [], hfd, by decide, rfl, rfl, 2, (0, []), ?_, by decide⟩,
      rfl, rfl⟩
    decide

end Spmfilter
