import Spmfilter.Lib.Files
import Spmfilter.Message.Faults
import Spmfilter.Modules.Flush

/-!
# The flush on files that fail

`smf_modules_flush_dirty` with every call that may fail, on the files of the queue
directory.

* `flush_cases`: the spool file is as it was after a failure, or the new file was complete
  and has been put in its place.
* `smfModulesFlushDirtyIo_eq` connects this to `smfModulesFlushDirty`, where one value
  says how far the flush gets.
-/

namespace Spmfilter

open CString Stdio

/-- Which calls fail in one run of `smf_modules_flush_dirty`. -/
structure FlushFaults where
  mkstemp : Bool := false
  /-- How much each call of `write` takes, and which of them fail. -/
  sched : WriteSchedule
  fails : Nat → Bool := fun _ => false
  openNew : Bool := false
  openOld : Bool := false
  reads : ReadFaults := .none
  counts : WriteCounts
  unlink : Bool := false
  rename : Bool := false

section

variable {M : Type} (cmime : Cmime M) (faults : FlushFaults) (tmp : Bytes) (init : List Header)
  (w : World M) (files : Files)

/-- `smf_modules_flush_dirty` call by call: the result and the files.  `fuel` is for the
copy loop. -/
def smfModulesFlushDirtyIo (fuel : Nat) : Option (Int × Files) :=
  if headersDirty (cmime.headers w.message.msg) init = false then some (0, files)
  else
    let path := w.session.messageFile.getD []
    -- `mkstemp` makes a file that was not there
    if faults.mkstemp = true ∨ (files tmp).isSome = true then some (-1, files)
    else
      match smfMessageToFdIo cmime faults.sched faults.fails w.message.msg with
      | none => none
      | some (total, new) =>
        if total = -1 then some (-1, files.write tmp new)
        else if faults.openNew = true then some (-1, files.write tmp new)
        else
          match files.write tmp new path with
          | none => some (-1, files.write tmp new)
          | some old =>
            if faults.openOld = true then some (-1, files.write tmp new)
            else
              match smfMessageWriteSkipHeaderIo faults.reads faults.counts fuel old new with
              | none => none
              | some (n, new) =>
                if n = -1 then some (-1, files.write tmp new)
                else some (replaceFile faults.unlink faults.rename tmp path (files.write tmp new))

/-- Everything before the `unlink` succeeds. -/
def FlushReaches (old : Bytes) : Prop :=
  headersDirty (cmime.headers w.message.msg) init = true ∧
    faults.mkstemp = false ∧ files tmp = none ∧
    ∃ total new, smfMessageToFdIo cmime faults.sched faults.fails w.message.msg =
        some (total, new) ∧ total ≠ -1 ∧
      faults.openNew = false ∧ faults.openOld = false ∧
      Ends (fun fuel => smfMessageWriteSkipHeaderIo faults.reads faults.counts fuel old new)
        (fun out => out.1 ≠ -1)

/-- What `smfModulesFlushDirty` makes of a spool file when it has to write a new one. -/
theorem smfModulesFlushDirty_of_dirty {spool : Spool}
    (hdirty : headersDirty (cmime.headers w.message.msg) init = true)
    (hspool : w.spool = some spool) (io : FlushIo) :
    (smfModulesFlushDirty cmime io tmp init w).ret = (if io = .done then 0 else -1) ∧
    (smfModulesFlushDirty cmime io tmp init w).world.spool =
      match io with
      | .rename => none
      | .done => some { spool with
          content := cmime.toString w.message.msg ++ smfMessageWriteSkipHeader [] spool.content }
      | _ => some spool := by
  unfold smfModulesFlushDirty
  rw [hdirty, if_neg (by decide), hspool]
  cases io <;> simp [hspool]

/-- How a run of the flush on a spool file with the content `old` ends. -/
inductive FlushEnds (fuel : Nat) (path old : Bytes) : Int × Files → Prop where
  | clean (hclean : headersDirty (cmime.headers w.message.msg) init = false) :
    FlushEnds fuel path old (0, files)
  | failed (files' : Files) (hdirty : headersDirty (cmime.headers w.message.msg) init = true)
    (hkeep : files' path = some old) : FlushEnds fuel path old (-1, files')
  | copied (n : Int) (new : Bytes) (hreaches : FlushReaches cmime faults tmp init w files old)
    (hkeep : files.write tmp new path = some old)
    (hskip : smfMessageWriteSkipHeaderIo faults.reads faults.counts fuel old
      (cmime.toString w.message.msg) = some (n, new)) (hn : n ≠ -1) :
    FlushEnds fuel path old
      (replaceFile faults.unlink faults.rename tmp path (files.write tmp new))

variable {cmime faults tmp init w files} {path old : Bytes}
  (hpath : w.session.messageFile = some path) (hold : files path = some old)

include hpath hold

/-- What a run of the flush leaves of the spool file. -/
theorem flush_cases {fuel : Nat} {out : Int × Files}
    (hrun : smfModulesFlushDirtyIo cmime faults tmp init w files fuel = some out) :
    FlushEnds cmime faults tmp init w files fuel path old out := by
  unfold smfModulesFlushDirtyIo at hrun
  rw [hpath] at hrun
  dsimp only [Option.getD_some] at hrun
  by_cases hclean : headersDirty (cmime.headers w.message.msg) init = false
  · rw [if_pos hclean] at hrun
    obtain rfl := Option.some.inj hrun
    exact .clean hclean
  have hdirty : headersDirty (cmime.headers w.message.msg) init = true := by simpa using hclean
  rw [if_neg hclean] at hrun
  by_cases hmk : faults.mkstemp = true ∨ (files tmp).isSome = true
  · rw [if_pos hmk] at hrun
    obtain rfl := Option.some.inj hrun
    exact .failed files hdirty hold
  rw [if_neg hmk] at hrun
  have hmade : faults.mkstemp = false := by simpa using fun h => hmk (Or.inl h)
  have hfresh : files tmp = none := by simpa using fun h => hmk (Or.inr h)
  -- until the `unlink` only the new file is written
  have hkeep := Files.write_fresh hold hfresh
  have hfailed : ∀ new : Bytes, some ((-1 : Int), files.write tmp new) = some out →
      FlushEnds cmime faults tmp init w files fuel path old out := by
    intro new h
    obtain rfl := Option.some.inj h
    exact .failed _ hdirty (hkeep new)
  cases hfd : smfMessageToFdIo cmime faults.sched faults.fails w.message.msg with
  | none =>
    rw [hfd] at hrun
    cases hrun
  | some written =>
    obtain ⟨total, new⟩ := written
    rw [hfd] at hrun
    dsimp only at hrun
    by_cases htotal : total = -1
    · rw [if_pos htotal] at hrun
      exact hfailed new hrun
    rw [if_neg htotal] at hrun
    by_cases hnew : faults.openNew = true
    · rw [if_pos hnew] at hrun
      exact hfailed new hrun
    rw [if_neg hnew, hkeep] at hrun
    dsimp only at hrun
    by_cases hopen : faults.openOld = true
    · rw [if_pos hopen] at hrun
      exact hfailed new hrun
    rw [if_neg hopen] at hrun
    cases hskip : smfMessageWriteSkipHeaderIo faults.reads faults.counts fuel old new with
    | none =>
      rw [hskip] at hrun
      cases hrun
    | some copied =>
      obtain ⟨n, new'⟩ := copied
      rw [hskip] at hrun
      dsimp only at hrun
      by_cases hn : n = -1
      · rw [if_pos hn] at hrun
        exact hfailed new' hrun
      rw [if_neg hn] at hrun
      obtain rfl := Option.some.inj hrun
      have htext : new = cmime.toString w.message.msg := smfMessageToFdIo_written hfd htotal
      have hreaches : FlushReaches cmime faults tmp init w files old :=
        ⟨hdirty, hmade, hfresh, total, new, hfd, htotal, by simpa using hnew, by simpa using hopen,
          fuel, (n, new'), hskip, hn⟩
      rw [htext] at hskip
      exact .copied n new' hreaches (hkeep new') hskip hn

/-- When everything before the `unlink` succeeds, some run comes to it. -/
theorem flush_reaches (h : FlushReaches cmime faults tmp init w files old) :
    ∃ fuel files', files' path = some old ∧
      smfModulesFlushDirtyIo cmime faults tmp init w files fuel =
        some (replaceFile faults.unlink faults.rename tmp path files') := by
  obtain ⟨hdirty, hmk, hfresh, total, new, hfd, htotal, hnew, hopen, fuel, ⟨n, new'⟩, hskip, hn⟩ := h
  have hkeep := Files.write_fresh hold hfresh
  dsimp only at hskip
  refine ⟨fuel, files.write tmp new', hkeep new', ?_⟩
  unfold smfModulesFlushDirtyIo
  rw [hpath, hdirty, if_neg (by decide), hmk, hfresh, if_neg (by decide), hfd]
  dsimp only [Option.getD_some]
  rw [if_neg htotal, hnew, if_neg (by decide), hkeep, hopen]
  dsimp only
  rw [if_neg (by decide), hskip]
  exact if_neg hn

/-- The flush keeps the spool file when it fails, unless everything up to the `unlink`
succeeds and the `rename` fails. -/
theorem flush_keeps_iff :
    KeepsFile (smfModulesFlushDirtyIo cmime faults tmp init w files) path old ↔
      ¬(FlushReaches cmime faults tmp init w files old ∧
        faults.unlink = false ∧ faults.rename = true) := by
  apply keepsFile_iff ?_ (flush_reaches hpath hold)
  intro fuel out hrun
  cases flush_cases hpath hold hrun with
  | clean _ => exact Or.inl hold
  | failed _ _ hkeep => exact Or.inl hkeep
  | copied _ _ hreaches hkeep _ _ => exact Or.inr ⟨hreaches, _, hkeep, rfl⟩

/-- A run whose copy of the old file is whole, when it ends, does what
`smfModulesFlushDirty` describes. -/
theorem smfModulesFlushDirtyIo_eq {mtime : Nat} (hspool : w.spool = some ⟨old, mtime⟩)
    (hreads : SkipReads faults.reads faults.counts old 0 0) {fuel : Nat} {out : Int × Files}
    (hrun : smfModulesFlushDirtyIo cmime faults tmp init w files fuel = some out) :
    ∃ io, out.1 = (smfModulesFlushDirty cmime io tmp init w).ret ∧
      out.2 path = (smfModulesFlushDirty cmime io tmp init w).world.spool.map Spool.content := by
  cases flush_cases hpath hold hrun with
  | clean hclean =>
    refine ⟨.done, ?_⟩
    rw [smfModulesFlushDirty_clean cmime .done tmp init w hclean, hspool]
    exact ⟨rfl, hold⟩
  | failed files' hdirty hkeep =>
    have hflush := smfModulesFlushDirty_of_dirty cmime tmp init w hdirty hspool
    refine ⟨.mkstemp, ?_⟩
    rw [(hflush .mkstemp).1, (hflush .mkstemp).2]
    exact ⟨rfl, hkeep⟩
  | copied n new hreaches hkeep hskip hn =>
    obtain ⟨hdirty, -, hfresh, -⟩ := hreaches
    have hne : path ≠ tmp := Files.ne_of_fresh hold hfresh
    have hnew : new = cmime.toString w.message.msg ++ smfMessageWriteSkipHeader [] old := by
      rw [smfMessageWriteSkipHeader_nil]
      have hends := (skipHeaderIo_iff faults.reads faults.counts old
        (cmime.toString w.message.msg)).mpr hreads
      exact hends.of_run (fun _ _ h => skipHeaderIo_more h) hskip hn
    have hflush := smfModulesFlushDirty_of_dirty cmime tmp init w hdirty hspool
    cases hunlink : faults.unlink with
    | true =>
      refine ⟨.unlink, ?_⟩
      rw [(hflush .unlink).1, (hflush .unlink).2]
      exact ⟨rfl, hkeep⟩
    | false =>
      cases hrename : faults.rename with
      | true =>
        refine ⟨.rename, ?_⟩
        rw [(hflush .rename).1, (hflush .rename).2]
        exact ⟨rfl, Files.remove_same⟩
      | false =>
        refine ⟨.done, ?_⟩
        rw [(hflush .done).1, (hflush .done).2, replaceFile_done hne, Files.write_same, hnew]
        exact ⟨rfl, rfl⟩

end

end Spmfilter
