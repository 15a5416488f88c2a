import Spmfilter.Lib.IoFaults
import Spmfilter.Message.Files

/-!
# Writing a message where calls fail

`smf_message_to_fd` and `smf_message_write_skip_header` when reads and writes may fail at
any call.  `fread` returns an unsigned count, so the test for an error of it is never true,
and a loop that waits for the end of the file goes on after a read error.  Such a loop may
not end; `fuel` is the number of its turns, and `none` says that there were too few.

* `skipHeaderIo_iff` says exactly when `smf_message_write_skip_header` ends and either
  reports a failure or has copied everything behind the first empty line.
* `skipHeaderIo_faultless` is the same function on files without an error.
-/

namespace Spmfilter

open CString Stdio

/-! ## `smf_message_to_fd` -/

/-- The loop of `smf_message_to_fd`.  `fails` says which calls of `write` fail. -/
def toFdIoLoop (sched : WriteSchedule) (fails : Nat → Bool) (s : Bytes) (call total : Nat)
    (file : Bytes) : Option (Int × Bytes) :=
  if total < s.length then
    if fails call = true then some (-1, file)
    else
      let written := sched.taken call (s.length - total)
      if INT_MAX < total + written then none
      else
        toFdIoLoop sched fails s (call + 1) (total + written)
          (file ++ (s.drop total).take written)
  else some (total, file)
termination_by s.length - total
decreasing_by
  rename_i h _ _
  have hpos := sched.taken_pos call (Nat.sub_pos_of_lt h)
  omega

/-- `smf_message_to_fd` on an empty file: the result and the file. -/
def smfMessageToFdIo {M : Type} (cmime : Cmime M) (sched : WriteSchedule) (fails : Nat → Bool)
    (message : M) : Option (Int × Bytes) :=
  toFdIoLoop sched fails (cmime.toString message) 0 0 []

/-- Without a failure it is the loop of `Message.Files`. -/
theorem toFdIoLoop_faultless (sched : WriteSchedule) {fails : Nat → Bool}
    (hfails : ∀ call, fails call = false) (s : Bytes) (call total : Nat) (file : Bytes) :
    toFdIoLoop sched fails s call total file = toFdLoop sched s call total file := by
  fun_induction toFdLoop sched s call total file with
  | case1 call total file hlt written hover =>
    rw [toFdIoLoop, if_pos hlt, hfails, if_neg (by decide)]
    exact if_pos hover
  | case2 call total file hlt written hover ih =>
    rw [toFdIoLoop, if_pos hlt, hfails, if_neg (by decide), ← ih]
    exact if_neg hover
  | case3 call total file hlt => rw [toFdIoLoop, if_neg hlt]

/-- What is not reported as a failure has been written whole. -/
theorem toFdIoLoop_written (sched : WriteSchedule) (fails : Nat → Bool) (s : Bytes)
    (call total : Nat) (file : Bytes) {out : Int × Bytes}
    (h : toFdIoLoop sched fails s call total file = some out) (hout : out.1 ≠ -1) :
    out.2 = file ++ s.drop total := by
  fun_induction toFdIoLoop sched fails s call total file with
  | case1 call total file hlt hfail =>
    obtain rfl := Option.some.inj h
    exact absurd rfl hout
  | case2 call total file hlt hfail written hover => cases h
  | case3 call total file hlt hfail written hover ih =>
    rw [ih h, List.append_assoc, ← List.drop_drop, List.take_append_drop]
  | case4 call total file hlt =>
    obtain rfl := Option.some.inj h
    rw [List.drop_of_length_le (by omega), List.append_nil]

theorem smfMessageToFdIo_written {M : Type} {cmime : Cmime M} {sched : WriteSchedule}
    {fails : Nat → Bool} {message : M} {out : Int × Bytes}
    (h : smfMessageToFdIo cmime sched fails message = some out) (hout : out.1 ≠ -1) :
    out.2 = cmime.toString message :=
  toFdIoLoop_written sched fails _ 0 0 [] h hout

/-! ## `smf_message_write_skip_header` -/

/-- The inner loop of `smf_message_write_skip_header`: the file as it is left when `fwrite`
returns zero, or the count of calls, `nwritten` and the file. -/
def fwriteIoLoop (counts : WriteCounts) (buf : Bytes) (call nbytes nbytesDest nwritten : Nat)
    (dest : Bytes) : Except Bytes (Nat × Nat × Bytes) :=
  if 0 < nbytes then
    let n := min (counts call) nbytes
    if n = 0 then .error dest
    else
      fwriteIoLoop counts buf (call + 1) (nbytes - n) (nbytesDest + n) (nwritten + n)
        (dest ++ (buf.drop nbytesDest).take n)
  else .ok (call, nwritten, dest)
termination_by nbytes
decreasing_by omega

/-- The loop of `smf_message_write_skip_header`: the result and the second file. -/
def skipHeaderIo (faults : ReadFaults) (counts : WriteCounts) :
    (fuel : Nat) → (found : Bool) → (src : InFile) → (reads writes nwritten : Nat) →
      (dest : Bytes) → Option (Int × Bytes)
  | 0, _, _, _, _, _, _ => none
  | fuel + 1, found, src, reads, writes, nwritten, dest =>
    if src.eof = true then some (truncInt nwritten, dest)
    else if found = false then
      match getlineCall faults reads src with
      -- `getline` gives no line after an error, just as at the end of the file
      | (none, _) => some (truncInt nwritten, dest)
      | (some buf, src') =>
        if cstr buf = [LF] ∨ cstr buf = [CR, LF] then
          skipHeaderIo faults counts fuel true src' (reads + 1) writes nwritten dest
        else skipHeaderIo faults counts fuel false src' (reads + 1) writes nwritten dest
    else
      -- the count of `fread` is never below zero
      let block := freadCall faults reads BUFSIZE src
      match fwriteIoLoop counts block.1 writes block.1.length 0 nwritten dest with
      | .error dest => some (-1, dest)
      | .ok (writes, nwritten, dest) =>
        skipHeaderIo faults counts fuel true block.2 (reads + 1) writes nwritten dest

/-- `smf_message_write_skip_header` from a file with the content `old` to one with the
content `new`. -/
def smfMessageWriteSkipHeaderIo (faults : ReadFaults) (counts : WriteCounts) (fuel : Nat)
    (old new : Bytes) : Option (Int × Bytes) :=
  skipHeaderIo faults counts fuel false (.start old) 0 0 0 new

/-- The inner loop gives up where a call takes nothing, and writes the whole block
otherwise. -/
theorem fwriteIoLoop_eq (counts : WriteCounts) (buf : Bytes)
    (call nbytes nbytesDest nwritten : Nat) (dest : Bytes)
    (hlen : nbytesDest + nbytes = buf.length) :
    (writeCalls counts call nbytes = none ∧
        ∃ file, fwriteIoLoop counts buf call nbytes nbytesDest nwritten dest = .error file) ∨
      ∃ call', writeCalls counts call nbytes = some call' ∧
        fwriteIoLoop counts buf call nbytes nbytesDest nwritten dest =
          .ok (call', nwritten + nbytes, dest ++ buf.drop nbytesDest) := by
  induction hn : nbytes using Nat.strongRecOn
    generalizing call nbytes nbytesDest nwritten dest with
  | ind n ih =>
    subst hn
    rw [writeCalls, fwriteIoLoop]
    by_cases hpos : 0 < nbytes
    · rw [if_pos hpos, if_pos hpos]
      dsimp only
      by_cases hzero : counts call = 0
      · left
        rw [if_pos hzero, if_pos (by omega)]
        exact ⟨rfl, dest, rfl⟩
      · have hle : min (counts call) nbytes ≤ nbytes := Nat.min_le_right _ _
        have htaken : 0 < min (counts call) nbytes := by omega
        rw [if_neg hzero, if_neg (by omega)]
        generalize min (counts call) nbytes = m at hle htaken ⊢
        rcases ih (nbytes - m) (by omega) (call + 1) (nbytes - m) (nbytesDest + m) (nwritten + m)
          (dest ++ (buf.drop nbytesDest).take m) (by omega) rfl with h | ⟨call', hcalls, hloop⟩
        · exact Or.inl h
        · right
          refine ⟨call', hcalls, ?_⟩
          rw [hloop, List.append_assoc, ← List.drop_drop, List.take_append_drop, Nat.add_assoc,
            Nat.add_sub_cancel' hle]
    · right
      rw [if_neg hpos, if_neg hpos, List.drop_of_length_le (by omega), List.append_nil]
      refine ⟨call, rfl, ?_⟩
      rw [show nbytes = 0 by omega, Nat.add_zero]

section

variable {faults : ReadFaults} {counts : WriteCounts} {src : InFile}
  {found : Bool} {reads writes nwritten : Nat} {dest : Bytes}

/-! One turn of the loop, by what it finds. -/

theorem skipHeaderIo_eof (heof : src.eof = true) (fuel : Nat) :
    skipHeaderIo faults counts (fuel + 1) found src reads writes nwritten dest =
      some (truncInt nwritten, dest) := by
  rw [skipHeaderIo, if_pos heof]

theorem skipHeaderIo_noLine (hopen : src.eof = false)
    (hline : (getlineCall faults reads src).1 = none) (fuel : Nat) :
    skipHeaderIo faults counts (fuel + 1) false src reads writes nwritten dest =
      some (truncInt nwritten, dest) := by
  rw [skipHeaderIo, hopen, if_neg (by decide), if_pos rfl]
  split
  · rfl
  · rename_i heq
    rw [heq] at hline
    cases hline

theorem skipHeaderIo_line {buf : Bytes} {src' : InFile} (hopen : src.eof = false)
    (hline : getlineCall faults reads src = (some buf, src')) (fuel : Nat) :
    skipHeaderIo faults counts (fuel + 1) false src reads writes nwritten dest =
      skipHeaderIo faults counts fuel (decide (cstr buf = [LF] ∨ cstr buf = [CR, LF])) src'
        (reads + 1) writes nwritten dest := by
  rw [skipHeaderIo, hopen, if_neg (by decide), if_pos rfl, hline]
  dsimp only
  by_cases hempty : cstr buf = [LF] ∨ cstr buf = [CR, LF]
  · rw [if_pos hempty, decide_eq_true hempty]
  · rw [if_neg hempty, decide_eq_false hempty]

theorem skipHeaderIo_fail (hopen : src.eof = false)
    (hfail : writeCalls counts writes (freadCall faults reads BUFSIZE src).1.length = none) :
    ∃ file, ∀ fuel, skipHeaderIo faults counts (fuel + 1) true src reads writes nwritten dest =
      some (-1, file) := by
  rcases fwriteIoLoop_eq counts (freadCall faults reads BUFSIZE src).1 writes _ 0 nwritten dest
    (Nat.zero_add _) with ⟨-, file, hloop⟩ | ⟨call', hcalls, -⟩
  · refine ⟨file, ?_⟩
    intro fuel
    rw [skipHeaderIo, hopen, if_neg (by decide), if_neg (by decide)]
    dsimp only
    rw [hloop]
  · rw [hfail] at hcalls
    cases hcalls

theorem skipHeaderIo_block {writes' : Nat} (hopen : src.eof = false)
    (hcalls : writeCalls counts writes (freadCall faults reads BUFSIZE src).1.length =
      some writes') (fuel : Nat) :
    skipHeaderIo faults counts (fuel + 1) true src reads writes nwritten dest =
      skipHeaderIo faults counts fuel true (freadCall faults reads BUFSIZE src).2 (reads + 1)
        writes' (nwritten + (freadCall faults reads BUFSIZE src).1.length)
        (dest ++ (freadCall faults reads BUFSIZE src).1) := by
  rcases fwriteIoLoop_eq counts (freadCall faults reads BUFSIZE src).1 writes _ 0 nwritten dest
    (Nat.zero_add _) with ⟨hnone, -⟩ | ⟨call', hsome, hloop⟩
  · rw [hcalls] at hnone
    cases hnone
  · rw [hcalls] at hsome
    obtain rfl := Option.some.inj hsome
    rw [skipHeaderIo, hopen, if_neg (by decide), if_neg (by decide)]
    dsimp only
    rw [hloop, List.drop_zero]

end

section

variable (faults : ReadFaults) (counts : WriteCounts)

/-- The loop ends, and it has copied `body` or reports a failure. -/
def SkipEnds (found : Bool) (src : InFile) (reads writes nwritten : Nat) (dest body : Bytes) :
    Prop :=
  Ends (fun fuel => skipHeaderIo faults counts fuel found src reads writes nwritten dest)
    fun out => out.1 ≠ -1 → out.2 = dest ++ body

/-- The copy of what is left of a file ends: the reads come to the end of the file, or a
write on the way takes nothing. -/
def CopyEnds (src : InFile) (reads writes : Nat) : Prop :=
  ∃ k, (fileAfter faults BUFSIZE reads k src).eof = true ∨
    writeBlocks counts writes (blocks faults BUFSIZE reads k src) = none

variable {faults counts} {src : InFile} {reads writes nwritten : Nat} {dest : Bytes}

theorem skipEnds_line {buf body : Bytes} {src' : InFile} (hopen : src.eof = false)
    (hline : getlineCall faults reads src = (some buf, src')) :
    SkipEnds faults counts false src reads writes nwritten dest body ↔
      SkipEnds faults counts (decide (cstr buf = [LF] ∨ cstr buf = [CR, LF])) src' (reads + 1)
        writes nwritten dest body :=
  ends_turn rfl (skipHeaderIo_line hopen hline)

/-- Once the empty line has been found, the loop copies all that is left if it ends. -/
theorem skipEnds_found (hsound : src.Sound) :
    SkipEnds faults counts true src reads writes nwritten dest src.rest ↔
      CopyEnds faults counts src reads writes := by
  constructor
  · rintro ⟨fuel, out, hrun, hcopied⟩
    dsimp only at hrun
    induction fuel generalizing src reads writes nwritten dest with
    | zero => cases hrun
    | succ fuel ih =>
      by_cases heof : src.eof = true
      · exact ⟨0, Or.inl heof⟩
      · have hopen : src.eof = false := by simpa using heof
        cases hcalls : writeCalls counts writes (freadCall faults reads BUFSIZE src).1.length with
        | none =>
          refine ⟨1, Or.inr ?_⟩
          rw [blocks, writeBlocks_cons, hcalls]
          rfl
        | some writes' =>
          rw [skipHeaderIo_block hopen hcalls] at hrun
          rw [← freadCall_append, ← List.append_assoc] at hcopied
          obtain ⟨k, hk⟩ := ih hsound.freadCall hrun hcopied
          refine ⟨k + 1, ?_⟩
          rw [fileAfter, blocks, writeBlocks_cons, hcalls]
          exact hk
  · rintro ⟨k, hk⟩
    induction k generalizing src reads writes nwritten dest with
    | zero =>
      rcases hk with heof | hnone
      · apply (ends_last rfl (skipHeaderIo_eof heof)).mpr
        intro _
        rw [hsound heof, List.append_nil]
      · cases hnone
    | succ k ih =>
      by_cases heof : src.eof = true
      · apply (ends_last rfl (skipHeaderIo_eof heof)).mpr
        intro _
        rw [hsound heof, List.append_nil]
      · have hopen : src.eof = false := by simpa using heof
        rw [fileAfter, blocks, writeBlocks_cons] at hk
        cases hcalls : writeCalls counts writes (freadCall faults reads BUFSIZE src).1.length with
        | none =>
          obtain ⟨file, hfail⟩ : ∃ file, ∀ fuel, skipHeaderIo faults counts (fuel + 1) true src reads
              writes nwritten dest = some (-1, file) := skipHeaderIo_fail hopen hcalls
          apply (ends_last rfl hfail).mpr
          intro h
          exact absurd rfl h
        | some writes' =>
          rw [hcalls] at hk
          have hrest : SkipEnds faults counts true (freadCall faults reads BUFSIZE src).2 (reads + 1)
              writes' (nwritten + (freadCall faults reads BUFSIZE src).1.length)
              (dest ++ (freadCall faults reads BUFSIZE src).1) _ := ih hsound.freadCall hk
          unfold SkipEnds at hrest ⊢
          rw [List.append_assoc, freadCall_append] at hrest
          exact (ends_turn rfl (skipHeaderIo_block hopen hcalls)).mpr hrest

/-- What the loop needs to do its work on a text: if something comes after the first empty
line, no `getline` up to there fails, and the copy of what comes after it ends. -/
def SkipReads (faults : ReadFaults) (counts : WriteCounts) (text : Bytes) (reads writes : Nat) :
    Prop :=
  ∀ body, afterEmptyLine text = some body →
    (∃ j ≤ (headerLines text).length, faults (reads + j) ≠ none) ∧ body = [] ∨
    (∀ j ≤ (headerLines text).length, faults (reads + j) = none) ∧
      CopyEnds faults counts (.start body) (reads + (headerLines text).length + 1) writes

/-- A line of the header goes by. -/
theorem skipReads_line {line rest : Bytes} (hlf : LF ∉ line) (hempty : ¬(line = [] ∨ line = [CR]))
    (hok : faults reads = none) :
    SkipReads faults counts (line ++ LF :: rest) reads writes ↔
      SkipReads faults counts rest (reads + 1) writes := by
  have hshift : ∀ j, reads + 1 + j = reads + (j + 1) := by
    intro j
    omega
  unfold SkipReads
  rw [afterEmptyLine_closed line rest hlf, headerLines_closed line rest hlf, if_neg hempty,
    if_neg hempty, List.length_cons]
  apply forall_congr'
  intro body
  apply imp_congr_right
  intro _
  simp only [hshift]
  have hsome : (∃ j ≤ (headerLines rest).length + 1, faults (reads + j) ≠ none) ↔
      ∃ j ≤ (headerLines rest).length, faults (reads + (j + 1)) ≠ none := by
    constructor
    · rintro ⟨j, hj, hfault⟩
      cases j with
      | zero => exact absurd hok hfault
      | succ j => exact ⟨j, by omega, hfault⟩
    · rintro ⟨j, hj, hfault⟩
      exact ⟨j + 1, by omega, hfault⟩
  have hall : (∀ j ≤ (headerLines rest).length + 1, faults (reads + j) = none) ↔
      ∀ j ≤ (headerLines rest).length, faults (reads + (j + 1)) = none := by
    constructor
    · intro h j hj
      exact h (j + 1) (by omega)
    · intro h j hj
      cases j with
      | zero => exact hok
      | succ j => exact h j (by omega)
  rw [hsome, hall]

/-- The empty line has been read. -/
theorem skipReads_empty {line rest : Bytes} (hlf : LF ∉ line) (hempty : line = [] ∨ line = [CR])
    (hok : faults reads = none) :
    SkipReads faults counts (line ++ LF :: rest) reads writes ↔
      CopyEnds faults counts (.start rest) (reads + 1) writes := by
  unfold SkipReads
  rw [afterEmptyLine_closed line rest hlf, headerLines_closed line rest hlf, if_pos hempty,
    if_pos hempty]
  constructor
  · intro h
    rcases h rest rfl with ⟨⟨j, hj, hfault⟩, -⟩ | ⟨-, hcopy⟩
    · obtain rfl := Nat.le_zero.mp hj
      exact absurd hok hfault
    · exact hcopy
  · intro hcopy body hbody
    obtain rfl := Option.some.inj hbody
    refine Or.inr ⟨?_, hcopy⟩
    intro j hj
    obtain rfl := Nat.le_zero.mp hj
    exact hok

/-- A loop that ends before it has found the empty line has copied nothing. -/
theorem skipEnds_stops (hrun : ∀ fuel, skipHeaderIo faults counts (fuel + 1) false src reads writes
      0 dest = some (truncInt 0, dest)) (body : Bytes) :
    SkipEnds faults counts false src reads writes 0 dest body ↔ body = [] := by
  have hzero : truncInt 0 ≠ -1 := by decide
  apply (ends_last rfl hrun).trans
  constructor
  · intro h
    exact List.append_right_eq_self.mp (h hzero).symm
  · rintro rfl _
    exact (List.append_nil dest).symm

/-- The loop ends when the first `getline` fails. -/
theorem skipEnds_failed (hopen : src.eof = false) (hfault : faults reads ≠ none) :
    SkipEnds faults counts false src reads writes 0 dest ((afterEmptyLine src.rest).getD []) ↔
      SkipReads faults counts src.rest reads writes := by
  have hnone : (getlineCall faults reads src).1 = none := by
    unfold getlineCall
    cases hcall : faults reads with
    | none => exact absurd hcall hfault
    | some m => rfl
  apply (skipEnds_stops (skipHeaderIo_noLine hopen hnone) _).trans
  constructor
  · intro hbody body hafter
    rw [hafter] at hbody
    exact Or.inl ⟨⟨0, Nat.zero_le _, hfault⟩, hbody⟩
  · intro hreads
    cases hafter : afterEmptyLine src.rest with
    | none => rfl
    | some body =>
      rcases hreads body hafter with ⟨-, hbody⟩ | ⟨hall, -⟩
      · exact hbody
      · exact absurd (hall 0 (Nat.zero_le _)) hfault

/-- Without an empty line there is nothing to copy. -/
theorem skipReads_none (hafter : afterEmptyLine src.rest = none) :
    SkipReads faults counts src.rest reads writes := by
  intro body hbody
  rw [hafter] at hbody
  cases hbody

/-- The loop from the start of a file on. -/
theorem skipEnds_header (hopen : src.eof = false) :
    SkipEnds faults counts false src reads writes 0 dest ((afterEmptyLine src.rest).getD []) ↔
      SkipReads faults counts src.rest reads writes := by
  induction hn : src.rest.length using Nat.strongRecOn generalizing src reads with
  | ind n ih =>
    subst hn
    cases hok : faults reads with
    | some m => exact skipEnds_failed hopen (by simp [hok])
    | none =>
      have hcall : getlineCall faults reads src = getline src := by
        unfold getlineCall
        rw [hok]
      rcases getline_cases src with
        ⟨hrest, hend⟩ | ⟨-, hlf, hlast⟩ | ⟨line, rest, hlf, hrest, hget⟩
      · -- nothing is left of the file
        have hafter : afterEmptyLine src.rest = none := by
          rw [hrest]
          rfl
        rw [hafter]
        apply iff_of_true ?_ (skipReads_none hafter)
        exact (skipEnds_stops (skipHeaderIo_noLine hopen (by rw [hcall, hend])) []).mpr rfl
      · -- the last line has no line feed, and the file ends with it
        have hafter : afterEmptyLine src.rest = none := afterEmptyLine_open hlf
        rw [hafter]
        apply iff_of_true ?_ (skipReads_none hafter)
        apply (ends_turn rfl (skipHeaderIo_line hopen (hcall.trans hlast))).mpr
        apply (ends_last rfl (skipHeaderIo_eof rfl)).mpr
        intro _
        exact (List.append_nil dest).symm
      · rw [skipEnds_line hopen (hcall.trans hget), decide_eq_decide.mpr (cstr_line line hlf), hrest,
          afterEmptyLine_closed line rest hlf]
        by_cases hempty : line = [] ∨ line = [CR]
        · have hsound : (InFile.mk rest src.eof).Sound := by
            intro heof
            rw [hopen] at heof
            cases heof
          rw [decide_eq_true hempty, if_pos hempty]
          refine (skipEnds_found hsound).trans ?_
          rw [hopen]
          exact (skipReads_empty hlf hempty hok).symm
        · rw [decide_eq_false hempty, if_neg hempty, skipReads_line hlf hempty hok]
          have hshort : rest.length < src.rest.length := by
            rw [hrest, List.length_append, List.length_cons]
            omega
          exact @ih rest.length hshort ⟨rest, src.eof⟩ (reads + 1) hopen rfl

/-- `smf_message_write_skip_header` ends, and reports a failure or has copied what comes
after the first empty line, exactly when the reads of its header and the copy allow it. -/
theorem skipHeaderIo_iff (faults : ReadFaults) (counts : WriteCounts) (old new : Bytes) :
    Ends (fun fuel => smfMessageWriteSkipHeaderIo faults counts fuel old new)
        (fun out => out.1 ≠ -1 → out.2 = new ++ (afterEmptyLine old).getD []) ↔
      SkipReads faults counts old 0 0 :=
  @skipEnds_header faults counts (.start old) 0 0 new rfl

end

/-- More turns do not change the result of the loop. -/
theorem skipHeaderIo_more {faults : ReadFaults} {counts : WriteCounts} {found : Bool}
    {src : InFile} {reads writes nwritten : Nat} {dest : Bytes} {fuel : Nat} {out : Int × Bytes}
    (h : skipHeaderIo faults counts fuel found src reads writes nwritten dest = some out) :
    skipHeaderIo faults counts (fuel + 1) found src reads writes nwritten dest = some out := by
  induction fuel generalizing found src reads writes nwritten dest with
  | zero => cases h
  | succ fuel ih =>
    by_cases heof : src.eof = true
    · rw [skipHeaderIo_eof heof] at h ⊢
      exact h
    have hopen : src.eof = false := by simpa using heof
    cases found with
    | false =>
      rcases hline : getlineCall faults reads src with ⟨_ | buf, src'⟩
      · have hnone : (getlineCall faults reads src).1 = none := by rw [hline]
        rw [skipHeaderIo_noLine hopen hnone] at h ⊢
        exact h
      · rw [skipHeaderIo_line hopen hline] at h ⊢
        exact ih h
    | true =>
      cases hcalls : writeCalls counts writes (freadCall faults reads BUFSIZE src).1.length with
      | none =>
        obtain ⟨file, hfail⟩ : ∃ file, ∀ fuel, skipHeaderIo faults counts (fuel + 1) true src reads
            writes nwritten dest = some (-1, file) := skipHeaderIo_fail hopen hcalls
        rw [hfail] at h ⊢
        exact h
      | some writes' =>
        rw [skipHeaderIo_block hopen hcalls] at h ⊢
        exact ih h

/-! ## Without a failure -/

theorem fwriteIoLoop_faultless (sched : WriteSchedule) (buf : Bytes)
    (call nbytes nbytesDest nwritten : Nat) (dest : Bytes) :
    fwriteIoLoop sched.count buf call nbytes nbytesDest nwritten dest =
      .ok (fwriteLoop sched buf call nbytes nbytesDest nwritten dest) := by
  fun_induction fwriteLoop sched buf call nbytes nbytesDest nwritten dest with
  | case1 call nbytes nbytesDest nwritten dest hpos n ih =>
    have htaken := sched.taken_pos call hpos
    have hn : min (sched.count call) nbytes ≠ 0 := by
      show sched.taken call nbytes ≠ 0
      omega
    rw [fwriteIoLoop, if_pos hpos]
    dsimp only
    rw [if_neg hn]
    exact ih
  | case2 call nbytes nbytesDest nwritten dest hpos => rw [fwriteIoLoop, if_neg hpos]

/-- On files without an error the loop is the one of `Message.Files`. -/
theorem skipHeaderIo_faultless (sched : WriteSchedule) (found : Bool) (src : InFile)
    (reads call nwritten : Nat) (dest : Bytes) {fuel : Nat} (hfuel : src.size < fuel) :
    skipHeaderIo .none sched.count fuel found src reads call nwritten dest =
      some (truncInt (skipHeaderLoop sched found src call nwritten dest).1,
        (skipHeaderLoop sched found src call nwritten dest).2) := by
  induction fuel generalizing found src reads call nwritten dest with
  | zero => omega
  | succ fuel ih =>
    rw [skipHeaderLoop]
    by_cases heof : src.eof = true
    · rw [skipHeaderIo_eof heof, if_pos heof]
    have hopen : src.eof = false := by simpa using heof
    rw [if_neg heof]
    cases found with
    | false =>
      rw [if_pos rfl]
      split
      · rename_i hnone
        rw [skipHeaderIo_noLine hopen (by rw [show getlineCall .none reads src = getline src from rfl,
          hnone])]
      · rename_i buf src' hsome
        have hsize := getline_size hopen hsome
        have hcall : getlineCall .none reads src = (some buf, src') := hsome
        rw [skipHeaderIo_line hopen hcall]
        by_cases hempty : cstr buf = [LF] ∨ cstr buf = [CR, LF]
        · rw [if_pos hempty, decide_eq_true hempty]
          exact ih _ _ _ _ _ _ (by omega)
        · rw [if_neg hempty, decide_eq_false hempty]
          exact ih _ _ _ _ _ _ (by omega)
    | true =>
      have hsize := fread_size (n := BUFSIZE) hopen (by decide)
      rw [if_neg (by decide)]
      dsimp only
      rw [skipHeaderIo, if_neg heof, if_neg (by decide)]
      show (match fwriteIoLoop sched.count (fread BUFSIZE src).1 call (fread BUFSIZE src).1.length 0
        nwritten dest with
        | .error dest => some (-1, dest)
        | .ok (writes, nwritten, dest) =>
          skipHeaderIo .none sched.count fuel true (fread BUFSIZE src).2 (reads + 1) writes nwritten
            dest) = _
      rw [fwriteIoLoop_faultless]
      exact ih _ _ _ _ _ _ (by omega)

/-- The whole function. -/
theorem smfMessageWriteSkipHeaderIo_faultless (sched : WriteSchedule) (old new : Bytes)
    {fuel : Nat} (hfuel : old.length + 1 < fuel) :
    smfMessageWriteSkipHeaderIo .none sched.count fuel old new =
      some (smfMessageWriteSkipHeaderFile sched old new) :=
  skipHeaderIo_faultless sched false (.start old) 0 0 0 new hfuel

end Spmfilter
