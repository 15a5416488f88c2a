import Spmfilter.Message.Files

/-!
# The body of a message, through short reads and writes

`smf_message_write_skip_header` where `fread` and `fwrite` both may do less than they are
asked for.  No call fails.

* `skipHeaderShortLoop_found` is the part of the loop that copies blocks, and
  `skipHeaderShortLoop_eq` takes the part that reads lines to the loop of `Message.Files`.
* `skipHeaderShort_writes` says what is in the second file: the bytes after the first empty
  line, under every two schedules.
* `skipsHeader_iff` says when the result is their number as well.  It is counted in a
  `size_t` and returned as an `int`.
-/

namespace Spmfilter

open CString Stdio

/-- The loop of `smf_message_write_skip_header`: `nwritten` and the file at its end. -/
def skipHeaderShortLoop (reads : ReadSchedule) (writes : WriteSchedule) (found : Bool)
    (src : InFile) (rcall wcall nwritten : Nat) (dest : Bytes) : Nat × Bytes :=
  if src.eof = true then (nwritten, dest)
  else if found = false then
    match _hline : getline src with
    | (none, _) => (nwritten, dest)
    | (some buf, src') =>
      if cstr buf = [LF] ∨ cstr buf = [CR, LF] then
        skipHeaderShortLoop reads writes true src' rcall wcall nwritten dest
      else skipHeaderShortLoop reads writes false src' rcall wcall nwritten dest
  else
    let block := freadShort reads rcall BUFSIZE src
    let wrote := fwriteLoop writes block.1 wcall block.1.length 0 nwritten dest
    skipHeaderShortLoop reads writes true block.2 (rcall + 1) wrote.1 wrote.2.1 wrote.2.2
termination_by src.size
decreasing_by
  · rename_i hopen _ _
    exact getline_size (by simpa using hopen) (by assumption)
  · rename_i hopen _ _
    exact getline_size (by simpa using hopen) (by assumption)
  · rename_i hopen _
    exact freadShort_size (by simpa using hopen) (by decide)

/-- `smf_message_write_skip_header` from a file with the content `old` to one with the
content `new`: the result, which is `nwritten` as an `int`, and the second file. -/
def smfMessageWriteSkipHeaderShort (reads : ReadSchedule) (writes : WriteSchedule)
    (old new : Bytes) : Int × Bytes :=
  let r := skipHeaderShortLoop reads writes false (.start old) 0 0 0 new
  (truncInt r.1, r.2)

section

variable (reads : ReadSchedule) (writes : WriteSchedule)

/-- Once the empty line has been found, the rest of the file is copied. -/
theorem skipHeaderShortLoop_found (src : InFile) (hopen : src.eof = false)
    (rcall wcall nwritten : Nat) (dest : Bytes) :
    skipHeaderShortLoop reads writes true src rcall wcall nwritten dest =
      (nwritten + src.rest.length, dest ++ src.rest) := by
  -- on what is left to do on the file; a read may leave any part of a block
  induction hn : src.size using Nat.strongRecOn
    generalizing src rcall wcall nwritten dest with
  | ind n ih =>
    subst hn
    have hsize := @freadShort_size reads rcall BUFSIZE src hopen (by decide)
    have hsplit := @freadShort_append reads rcall BUFSIZE src
    have hend := @freadShort_eof reads rcall BUFSIZE src hopen
    rw [skipHeaderShortLoop, if_neg (by simp [hopen]), if_neg (by decide)]
    dsimp only
    generalize freadShort reads rcall BUFSIZE src = block at hsize hsplit hend ⊢
    rw [fwriteLoop_eq writes block.1 wcall block.1.length 0 nwritten dest (Nat.zero_add _),
      List.drop_zero]
    cases heof : block.2.eof with
    | true => rw [skipHeaderShortLoop, if_pos heof, hend heof]
    | false =>
      rw [ih block.2.size hsize block.2 heof _ _ _ _ rfl, List.append_assoc, Nat.add_assoc,
        ← List.length_append, hsplit]

/-- One turn of the loop before the empty line. -/
theorem skipHeaderShortLoop_line {src src' : InFile} {buf : Bytes} (hopen : ¬ src.eof = true)
    (hline : getline src = (some buf, src')) (rcall wcall nwritten : Nat) (dest : Bytes) :
    skipHeaderShortLoop reads writes false src rcall wcall nwritten dest =
      skipHeaderShortLoop reads writes (decide (cstr buf = [LF] ∨ cstr buf = [CR, LF])) src'
        rcall wcall nwritten dest := by
  rw [skipHeaderShortLoop, if_neg hopen, if_pos rfl]
  split
  · rename_i heq
    rw [hline] at heq
    cases heq
  · rename_i heq
    rw [hline] at heq
    cases heq
    by_cases hempty : cstr buf = [LF] ∨ cstr buf = [CR, LF]
    · rw [if_pos hempty, decide_eq_true hempty]
    · rw [if_neg hempty, decide_eq_false hempty]

/-- How much a call of `fread` gives makes no difference to the loop. -/
theorem skipHeaderShortLoop_eq (found : Bool) (src : InFile) (rcall wcall call nwritten : Nat)
    (dest : Bytes) :
    skipHeaderShortLoop reads writes found src rcall wcall nwritten dest =
      skipHeaderLoop writes found src call nwritten dest := by
  fun_induction skipHeaderLoop writes found src call nwritten dest with
  | case1 found src call nwritten dest heof => rw [skipHeaderShortLoop, if_pos heof]
  | case2 src call nwritten dest hopen src' hline =>
    rw [skipHeaderShortLoop, if_neg hopen, if_pos rfl]
    split
    · rfl
    · rename_i heq
      rw [hline] at heq
      cases heq
  | case3 src call nwritten dest hopen buf src' hline hempty ih =>
    rw [skipHeaderShortLoop_line reads writes hopen hline, decide_eq_true hempty, ih]
  | case4 src call nwritten dest hopen buf src' hline hempty ih =>
    rw [skipHeaderShortLoop_line reads writes hopen hline, decide_eq_false hempty, ih]
  | case5 found src call nwritten dest hopen hfound block wrote _ =>
    -- the blocks differ, and so do the calls of `fwrite`
    have heof : src.eof = false := by simpa using hopen
    have hloop := skipHeaderLoop_found writes src heof call nwritten dest
    rw [skipHeaderLoop, if_neg hopen, if_neg (by decide)] at hloop
    rw [show found = true by simpa using hfound, skipHeaderShortLoop_found reads writes src heof]
    exact hloop.symm

/-- The second file gets the bytes after the first empty line, each once and in order, and
the result is their number as an `int`. -/
theorem skipHeaderShort_writes (old new : Bytes) :
    smfMessageWriteSkipHeaderShort reads writes old new =
      (truncInt ((afterEmptyLine old).getD []).length, new ++ (afterEmptyLine old).getD []) := by
  have hfile := smfMessageWriteSkipHeaderFile_eq writes old new
  rw [smfMessageWriteSkipHeader_eq, skipTo_eq [] old (by simp), List.nil_append] at hfile
  rw [← hfile, smfMessageWriteSkipHeaderShort,
    skipHeaderShortLoop_eq reads writes false (.start old) 0 0 0]
  rfl

end

/-! ## The number -/

/-- The function writes what comes after the first empty line, nothing where there is no
such line, and returns the number of these bytes. -/
def SkipsHeader (reads : ReadSchedule) (writes : WriteSchedule) (old new : Bytes) : Prop :=
  smfMessageWriteSkipHeaderShort reads writes old new =
    ((((afterEmptyLine old).getD []).length : Int), new ++ (afterEmptyLine old).getD [])

/-- **When the header is skipped and the bytes are counted**: the body fits an `int`. -/
theorem skipsHeader_iff (reads : ReadSchedule) (writes : WriteSchedule) (old new : Bytes) :
    SkipsHeader reads writes old new ↔ ((afterEmptyLine old).getD []).length < 2147483648 := by
  rw [SkipsHeader, skipHeaderShort_writes, Prod.mk.injEq, and_iff_left rfl, truncInt_eq_iff]

/-- A body of `2 ^ 32 - 1` bytes is written whole, and `-1` is returned. -/
theorem skipHeaderShort_huge :
    (smfMessageWriteSkipHeaderShort .bytewise .bytewise
      (LF :: List.replicate 4294967295 65) []).1 = -1 ∧
    ¬ SkipsHeader .bytewise .bytewise (LF :: List.replicate 4294967295 65) [] := by
  have hbody : afterEmptyLine (LF :: List.replicate 4294967295 65) =
      some (List.replicate 4294967295 65) :=
    afterEmptyLine_closed [] (List.replicate 4294967295 65) (by decide)
  have hret : (smfMessageWriteSkipHeaderShort .bytewise .bytewise
      (LF :: List.replicate 4294967295 65) []).1 = -1 := by
    rw [skipHeaderShort_writes, hbody, Option.getD_some, List.length_replicate]
    decide
  refine ⟨hret, fun hskips => ?_⟩
  rw [SkipsHeader, hbody, Option.getD_some, List.length_replicate] at hskips
  rw [hskips] at hret
  exact absurd hret (by decide)

end Spmfilter
