import Spmfilter.Internal
import Spmfilter.Lib.Stdio
import Spmfilter.Message

/-!
# Writing a message into a file

`smf_message_to_fd` and `smf_message_write_skip_header` call by call.  Each has
a loop that goes on after a short write.  Neither meets an I/O error here.

* `smfMessageToFd_eq` and `smfMessageWriteSkipHeaderFile_eq` say what the loops
  leave in the file, under every schedule of short writes.
* `smfMessageWriteSkipHeader` of `Message` is the second one without the calls.
-/

namespace Spmfilter

open CString Stdio

/-! ## `smf_message_to_fd` -/

/-- The loop of `smf_message_to_fd` over the string `s`, with the file it has
written so far.  `total` is an `int`.  When the sum does not fit, the C standard
gives the addition no meaning, and there is no result. -/
def toFdLoop (sched : WriteSchedule) (s : Bytes) (call total : Nat) (file : Bytes) :
    Option (Int × Bytes) :=
  if total < s.length then
    let written := sched.taken call (s.length - total)
    if INT_MAX < total + written then none
    else toFdLoop sched s (call + 1) (total + written) (file ++ (s.drop total).take written)
  else some (total, file)
termination_by s.length - total
decreasing_by
  rename_i h _
  have hpos := sched.taken_pos call (Nat.sub_pos_of_lt h)
  omega

/-- `smf_message_to_fd` on an empty file: the result and the file. -/
def smfMessageToFd {M : Type} (cmime : Cmime M) (sched : WriteSchedule) (message : M) :
    Option (Int × Bytes) :=
  toFdLoop sched (cmime.toString message) 0 0 []

theorem toFdLoop_eq (sched : WriteSchedule) (s : Bytes) (call total : Nat) (file : Bytes)
    (htotal : total ≤ s.length) (hint : total ≤ INT_MAX) :
    toFdLoop sched s call total file =
      if s.length ≤ INT_MAX then some ((s.length : Int), file ++ s.drop total) else none := by
  -- on the bytes that are still to be written
  induction hn : s.length - total using Nat.strongRecOn generalizing call total file with
  | ind n ih =>
    rw [toFdLoop]
    by_cases hlt : total < s.length
    · have hpos := sched.taken_pos call (Nat.sub_pos_of_lt hlt)
      have hle := sched.taken_le call (s.length - total)
      rw [if_pos hlt]
      dsimp only
      generalize sched.taken call (s.length - total) = written at hpos hle ⊢
      by_cases hover : INT_MAX < total + written
      · rw [if_pos hover, if_neg (by omega)]
      · rw [if_neg hover, ih (s.length - (total + written)) (by omega) _ _ _ (by omega) (by omega)
          rfl, List.append_assoc, ← List.drop_drop, List.take_append_drop]
    · have heq : s.length = total := by omega
      rw [if_neg hlt, if_pos (by omega), List.drop_of_length_le (by omega), List.append_nil, heq]

/-- The whole string is written, however short the writes are, as long as its
length fits an `int`. -/
theorem smfMessageToFd_eq {M : Type} (cmime : Cmime M) (sched : WriteSchedule) (message : M) :
    smfMessageToFd cmime sched message =
      if (cmime.toString message).length ≤ INT_MAX then
        some (((cmime.toString message).length : Int), cmime.toString message)
      else none := by
  have h := toFdLoop_eq sched (cmime.toString message) 0 0 [] (Nat.zero_le _) (Nat.zero_le _)
  rw [List.drop_zero, List.nil_append] at h
  exact h

/-! ## `smf_message_write_skip_header` -/

/-- The inner loop of `smf_message_write_skip_header`: the count of `fwrite`
calls, `nwritten` and the file after one block. -/
def fwriteLoop (sched : WriteSchedule) (buf : Bytes) (call nbytes nbytesDest nwritten : Nat)
    (dest : Bytes) : Nat × Nat × Bytes :=
  if 0 < nbytes then
    let n := sched.taken call nbytes
    fwriteLoop sched buf (call + 1) (nbytes - n) (nbytesDest + n) (nwritten + n)
      (dest ++ (buf.drop nbytesDest).take n)
  else (call, nwritten, dest)
termination_by nbytes
decreasing_by
  rename_i h
  have hpos := sched.taken_pos call h
  omega

/-- The loop of `smf_message_write_skip_header`: `nwritten` and the file at its
end. -/
def skipHeaderLoop (sched : WriteSchedule) (found : Bool) (src : InFile) (call nwritten : Nat)
    (dest : Bytes) : Nat × Bytes :=
  if src.eof = true then (nwritten, dest)
  else if found = false then
    match _hline : getline src with
    | (none, _) => (nwritten, dest)
    | (some buf, src') =>
      if cstr buf = [LF] ∨ cstr buf = [CR, LF] then
        skipHeaderLoop sched true src' call nwritten dest
      else skipHeaderLoop sched false src' call nwritten dest
  else
    let block := fread BUFSIZE src
    let wrote := fwriteLoop sched block.1 call block.1.length 0 nwritten dest
    skipHeaderLoop sched true block.2 wrote.1 wrote.2.1 wrote.2.2
termination_by src.size
decreasing_by
  · rename_i hopen _ _
    exact getline_size (by simpa using hopen) (by assumption)
  · rename_i hopen _ _
    exact getline_size (by simpa using hopen) (by assumption)
  · rename_i hopen _
    exact fread_size (by simpa using hopen) (by decide)

/-- `smf_message_write_skip_header` from a file with the content `old` to one
with the content `new`: the result, which is `nwritten` as an `int`, and the
second file. -/
def smfMessageWriteSkipHeaderFile (sched : WriteSchedule) (old new : Bytes) : Int × Bytes :=
  let r := skipHeaderLoop sched false (.start old) 0 0 new
  (truncInt r.1, r.2)

theorem fwriteLoop_eq (sched : WriteSchedule) (buf : Bytes)
    (call nbytes nbytesDest nwritten : Nat) (dest : Bytes)
    (hlen : nbytesDest + nbytes = buf.length) :
    (fwriteLoop sched buf call nbytes nbytesDest nwritten dest).2 =
      (nwritten + nbytes, dest ++ buf.drop nbytesDest) := by
  induction hn : nbytes using Nat.strongRecOn
    generalizing call nbytes nbytesDest nwritten dest with
  | ind n ih =>
    subst hn
    rw [fwriteLoop]
    by_cases hpos : 0 < nbytes
    · have htaken := sched.taken_pos call hpos
      have hle := sched.taken_le call nbytes
      rw [if_pos hpos]
      dsimp only
      generalize sched.taken call nbytes = m at htaken hle ⊢
      rw [ih (nbytes - m) (by omega) _ _ _ _ _ (by omega) rfl, List.append_assoc,
        ← List.drop_drop, List.take_append_drop, Nat.add_assoc, Nat.add_sub_cancel' hle]
    · rw [if_neg hpos, List.drop_of_length_le (by omega), List.append_nil]
      simp
      omega

/-- Once the empty line has been found, the rest of the file is copied. -/
theorem skipHeaderLoop_found (sched : WriteSchedule) (src : InFile) (hopen : src.eof = false)
    (call nwritten : Nat) (dest : Bytes) :
    skipHeaderLoop sched true src call nwritten dest =
      (nwritten + src.rest.length, dest ++ src.rest) := by
  -- on what is left of the file; the last call finds its end
  induction hn : src.rest.length using Nat.strongRecOn generalizing src call nwritten dest with
  | ind n ih =>
    subst hn
    rw [skipHeaderLoop, if_neg (by simp [hopen]), if_neg (by decide)]
    dsimp only
    have hwrote := fwriteLoop_eq sched (fread BUFSIZE src).1 call (fread BUFSIZE src).1.length 0
      nwritten dest (Nat.zero_add _)
    rw [hwrote, List.drop_zero]
    dsimp only
    unfold fread
    dsimp only
    have hsize : 0 < BUFSIZE := by decide
    by_cases hlt : src.rest.length < BUFSIZE
    · have htake : src.rest.take BUFSIZE = src.rest := List.take_of_length_le (by omega)
      rw [skipHeaderLoop, if_pos (by simp [hlt]), htake]
    · have hdrop : (src.rest.drop BUFSIZE).length < src.rest.length := by
        rw [List.length_drop]
        omega
      rw [ih _ hdrop ⟨src.rest.drop BUFSIZE, src.eof || decide (src.rest.length < BUFSIZE)⟩
        (by simp [hopen, hlt]) _ _ _ rfl]
      rw [List.append_assoc, List.take_append_drop, List.length_take, List.length_drop]
      simp
      omega

/-- The C string of a line is a line end alone exactly when the line is one. -/
theorem cstr_line (line : Bytes) (hline : LF ∉ line) :
    cstr (line ++ [LF]) = [LF] ∨ cstr (line ++ [LF]) = [CR, LF] ↔ line = [] ∨ line = [CR] := by
  have hcr : CR ≠ LF := by decide
  match line with
  | [] => exact iff_of_true (Or.inl rfl) (Or.inl rfl)
  | [b] =>
    have hb : b ≠ LF := fun h => hline (by simp [h])
    by_cases hzero : b = 0
    · rw [hzero]
      decide
    · simp [cstr, hzero, hb]
      intro _
      decide
  | b :: c :: line =>
    have hb : b ≠ LF := fun h => hline (by simp [h])
    have hc : c ≠ LF := fun h => hline (by simp [h])
    refine iff_of_false ?_ (by simp)
    unfold cstr
    rw [List.cons_append, List.cons_append, List.takeWhile_cons, List.takeWhile_cons]
    split_ifs <;> simp [hb, hc]

/-- Before the empty line has been found, the loop looks for it. -/
theorem skipHeaderLoop_eq (sched : WriteSchedule) (src : InFile) (hopen : src.eof = false)
    (call nwritten : Nat) (dest : Bytes) :
    skipHeaderLoop sched false src call nwritten dest =
      (nwritten + ((skipTo [] src.rest).getD []).length,
        dest ++ (skipTo [] src.rest).getD []) := by
  -- on what is left of the file
  induction hn : src.rest.length using Nat.strongRecOn generalizing src call nwritten dest with
  | ind n ih =>
    subst hn
    rw [skipHeaderLoop, if_neg (by simp [hopen]), if_pos rfl]
    rcases getline_cases src with ⟨hrest, hnone⟩ | ⟨_, hlf, hlast⟩ | ⟨line, rest, hlf, hrest, hget⟩
    · split
      · rw [hrest]
        simp [skipTo]
      · rename_i heq
        rw [heq] at hnone
        cases hnone
    · -- the last line has no line feed, and the file ends with it
      rw [skipTo_open [] src.rest hlf]
      split
      · simp
      · rename_i buf src' heq
        rw [hlast] at heq
        obtain ⟨_, rfl⟩ := Prod.mk.inj heq
        have hend : ∀ found, skipHeaderLoop sched found ⟨[], true⟩ call nwritten dest =
            (nwritten, dest) := by
          intro found
          rw [skipHeaderLoop, if_pos rfl]
        rw [hend, hend]
        simp
    · have hshort : rest.length < src.rest.length := by
        rw [hrest, List.length_append, List.length_cons]
        omega
      rw [hrest, skipTo_closed [] line rest hlf, List.nil_append]
      split
      · rename_i heq
        rw [heq] at hget
        cases hget
      · rename_i buf src' heq
        rw [hget] at heq
        obtain ⟨hbuf, rfl⟩ := Prod.mk.inj heq
        obtain rfl := Option.some.inj hbuf
        by_cases hempty : line = [] ∨ line = [CR]
        · rw [if_pos ((cstr_line line hlf).2 hempty), if_pos hempty,
            skipHeaderLoop_found sched ⟨rest, src.eof⟩ hopen]
          rfl
        · rw [if_neg (fun h => hempty ((cstr_line line hlf).1 h)), if_neg hempty,
            ih rest.length hshort ⟨rest, src.eof⟩ hopen _ _ _ rfl]

/-- The loop without its calls. -/
theorem smfMessageWriteSkipHeader_eq (line text : Bytes) :
    smfMessageWriteSkipHeader line text = (skipTo line text).getD [] := by
  induction text generalizing line with
  | nil => rfl
  | cons b text ih =>
    rw [smfMessageWriteSkipHeader, skipTo]
    split_ifs
    · rfl
    · exact ih []
    · exact ih _

/-- The bytes after the first empty line are copied, however short the writes
are.  The result is their number as an `int`. -/
theorem smfMessageWriteSkipHeaderFile_eq (sched : WriteSchedule) (old new : Bytes) :
    smfMessageWriteSkipHeaderFile sched old new =
      (truncInt (smfMessageWriteSkipHeader [] old).length,
        new ++ smfMessageWriteSkipHeader [] old) := by
  unfold smfMessageWriteSkipHeaderFile
  rw [skipHeaderLoop_eq sched (.start old) rfl, smfMessageWriteSkipHeader_eq]
  simp [InFile.start]

/-! ## The header of a file -/

/-- The lines before the first empty line. -/
def headerLines (text : Bytes) : List Bytes :=
  (lines text).takeWhile fun line => !isEmptyLine line

theorem headerLines_closed (line rest : Bytes) (hline : LF ∉ line) :
    headerLines (line ++ LF :: rest) =
      if line = [] ∨ line = [CR] then [] else (line ++ [LF]) :: headerLines rest := by
  rw [headerLines, lines_closed line rest hline, List.takeWhile_cons, isEmptyLine_append]
  by_cases hempty : line = [] ∨ line = [CR]
  · rw [if_pos hempty, decide_eq_true hempty]
    rfl
  · rw [if_neg hempty, decide_eq_false hempty]
    rfl

end Spmfilter
