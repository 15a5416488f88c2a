import Mathlib.Data.List.Nodup
import Spmfilter.Core
import Spmfilter.Lib.Stdio

/-!
# Copying a file to a descriptor

`smf_core_copy_to_fd` reads the file in blocks and writes each block until the results of
`write` add up to its length.

* `copyWriteLoop` and `copyToFdLoop` are the two loops, over elements of any type.  A file is a
  list of bytes; `CopiesEachOnce` puts the offset next to each byte.
* `copyToFdLoop_whole` is the copy when every `write` takes its whole block, and
  `copyToFdLoop_short` what a shorter one does to it.
* `smfCoreCopyToFd_once_iff` puts the two together.
-/

namespace Spmfilter

open CString Stdio

/-- `sizeof(buf)`. -/
def COPY_BLOCK : Nat := 512

/-- How the calls of one copy go. -/
structure CopyIo where
  openFails : Bool
  readFails : Nat → Bool
  writeFails : Nat → Bool
  /-- How many bytes the calls of `write` take that do not fail. -/
  sched : WriteSchedule

/-- No call fails. -/
def CopyIo.ofWrites (sched : WriteSchedule) : CopyIo where
  openFails := false
  readFails := fun _ => false
  writeFails := fun _ => false
  sched := sched

/-- What has been written, and by how many calls. -/
structure Copied (α : Type) where
  dest : List α
  nbytes : Nat
  calls : Nat

section Loops

variable {α : Type}

/-- The inner loop of `smf_core_copy_to_fd`: every `write` gets the block from its start. -/
def copyWriteLoop (io : CopyIo) (buf : List α) (nwritten : Nat) (st : Copied α) :
    Bool × Copied α :=
  if nwritten < buf.length then
    if io.writeFails st.calls = true then (false, st)
    else
      let n := io.sched.taken st.calls buf.length
      copyWriteLoop io buf (nwritten + n) ⟨st.dest ++ buf.take n, st.nbytes + n, st.calls + 1⟩
  else (true, st)
termination_by buf.length - nwritten
decreasing_by
  rename_i h _
  have hpos := io.sched.taken_pos st.calls (Nat.zero_lt_of_lt h)
  omega

/-- The outer loop, with what is left of the file.  `nbytes` is returned as an `int`. -/
def copyToFdLoop (io : CopyIo) (rest : List α) (reads : Nat) (st : Copied α) : Int × List α :=
  if io.readFails reads = true then (-1, st.dest)
  else if _hend : rest.length = 0 then (truncInt st.nbytes, st.dest)
  else
    match copyWriteLoop io (rest.take COPY_BLOCK) 0 st with
    | (false, st') => (-1, st'.dest)
    | (true, st') => copyToFdLoop io (rest.drop COPY_BLOCK) (reads + 1) st'
termination_by rest.length
decreasing_by
  rw [List.length_drop]
  have hblock : 0 < COPY_BLOCK := by decide
  omega

/-- `smf_core_copy_to_fd`: the result, and what has been written to `dest`. -/
def smfCoreCopyToFd (io : CopyIo) (source : List α) : Int × List α :=
  if io.openFails = true then (-1, [])
  else copyToFdLoop io source 0 ⟨[], 0, 0⟩

end Loops

/-! ## Every write takes its block -/

/-- From this call on, with so many bytes left, every `write` takes the whole block. -/
def TakesBlocks (sched : WriteSchedule) (call len : Nat) : Prop :=
  ∀ j, COPY_BLOCK * j < len → min COPY_BLOCK (len - COPY_BLOCK * j) ≤ sched.count (call + j)

theorem takesBlocks_zero (sched : WriteSchedule) (call : Nat) : TakesBlocks sched call 0 := by
  intro j hj
  omega

theorem takesBlocks_step {sched : WriteSchedule} {call len : Nat} (hlen : 0 < len) :
    TakesBlocks sched call len ↔
      min COPY_BLOCK len ≤ sched.count call ∧ TakesBlocks sched (call + 1) (len - COPY_BLOCK) := by
  constructor
  · intro h
    refine ⟨by simpa using h 0 (by simpa using hlen), ?_⟩
    intro j hj
    have hnext := h (j + 1) (by rw [Nat.mul_succ]; omega)
    rw [Nat.mul_succ, ← Nat.sub_sub, Nat.sub_right_comm, ← Nat.add_assoc,
      Nat.add_right_comm] at hnext
    exact hnext
  · rintro ⟨hfirst, hrest⟩ j hj
    cases j with
    | zero => simpa using hfirst
    | succ j =>
      rw [Nat.mul_succ] at hj
      have hnext := hrest j (by omega)
      rw [Nat.mul_succ, ← Nat.sub_sub, Nat.sub_right_comm, ← Nat.add_assoc, Nat.add_right_comm]
      exact hnext

section Copy

variable {α : Type} {sched : WriteSchedule}

theorem taken_eq_iff (sched : WriteSchedule) (call len : Nat) :
    sched.taken call len = len ↔ len ≤ sched.count call := by
  rw [WriteSchedule.taken]
  omega

theorem copyWriteLoop_done {io : CopyIo} {buf : List α} {nwritten : Nat} (st : Copied α)
    (h : buf.length ≤ nwritten) : copyWriteLoop io buf nwritten st = (true, st) := by
  rw [copyWriteLoop, if_neg (by omega)]

theorem copyWriteLoop_next {buf : List α} {nwritten : Nat} (st : Copied α)
    (h : nwritten < buf.length) :
    copyWriteLoop (.ofWrites sched) buf nwritten st =
      copyWriteLoop (.ofWrites sched) buf (nwritten + sched.taken st.calls buf.length)
        ⟨st.dest ++ buf.take (sched.taken st.calls buf.length),
          st.nbytes + sched.taken st.calls buf.length, st.calls + 1⟩ := by
  rw [copyWriteLoop, if_pos h]
  rfl

/-- One call for the whole block. -/
theorem copyWriteLoop_whole {buf : List α} (st : Copied α)
    (h : buf.length ≤ sched.count st.calls) (hne : 0 < buf.length) :
    copyWriteLoop (.ofWrites sched) buf 0 st =
      (true, ⟨st.dest ++ buf, st.nbytes + buf.length, st.calls + 1⟩) := by
  rw [copyWriteLoop_next st hne, (taken_eq_iff sched _ _).mpr h, copyWriteLoop_done _ (by omega),
    List.take_length]

/-- Without a failure the loop comes to its end, and what it has written stays. -/
theorem copyWriteLoop_grows (sched : WriteSchedule) (buf : List α) (nwritten : Nat)
    (st : Copied α) :
    ∃ st' more, copyWriteLoop (.ofWrites sched) buf nwritten st = (true, st') ∧
      st'.dest = st.dest ++ more := by
  -- on the part of the block that the sum of the results has not come to
  induction hn : buf.length - nwritten using Nat.strongRecOn generalizing nwritten st with
  | ind n ih =>
    by_cases hlt : nwritten < buf.length
    · have hpos := sched.taken_pos st.calls (Nat.zero_lt_of_lt hlt)
      rw [copyWriteLoop_next st hlt]
      obtain ⟨st', more, hrun, hdest⟩ :=
        ih (buf.length - (nwritten + sched.taken st.calls buf.length)) (by omega)
          (nwritten + sched.taken st.calls buf.length)
          ⟨st.dest ++ buf.take (sched.taken st.calls buf.length),
            st.nbytes + sched.taken st.calls buf.length, st.calls + 1⟩ rfl
      refine ⟨st', buf.take (sched.taken st.calls buf.length) ++ more, hrun, ?_⟩
      rw [hdest, List.append_assoc]
    · refine ⟨st, [], copyWriteLoop_done st (by omega), ?_⟩
      rw [List.append_nil]

/-- After a short first call the next one begins with the first element again. -/
theorem copyWriteLoop_short {a : α} {buf : List α} (st : Copied α)
    (hshort : sched.taken st.calls (a :: buf).length < (a :: buf).length) :
    ∃ st' more, copyWriteLoop (.ofWrites sched) (a :: buf) 0 st = (true, st') ∧
      st'.dest = st.dest ++ ((a :: buf).take (sched.taken st.calls (a :: buf).length) ++
        a :: more) := by
  generalize hfirst : sched.taken st.calls (a :: buf).length = n at hshort ⊢
  rw [copyWriteLoop_next st (by simp), hfirst, Nat.zero_add, copyWriteLoop_next _ hshort]
  obtain ⟨k, hk⟩ : ∃ k, sched.taken (st.calls + 1) (a :: buf).length = k + 1 :=
    Nat.exists_eq_add_one.mpr (sched.taken_pos _ (by simp))
  obtain ⟨st', more, hrun, hdest⟩ := copyWriteLoop_grows sched (a :: buf)
    (n + sched.taken (st.calls + 1) (a :: buf).length)
    ⟨st.dest ++ (a :: buf).take n ++ (a :: buf).take (sched.taken (st.calls + 1) (a :: buf).length),
      st.nbytes + n + sched.taken (st.calls + 1) (a :: buf).length, st.calls + 1 + 1⟩
  refine ⟨st', buf.take k ++ more, hrun, ?_⟩
  rw [hdest, hk, List.take_succ_cons]
  simp

theorem copyToFdLoop_end (st : Copied α) (reads : Nat) :
    copyToFdLoop (.ofWrites sched) [] reads st = (truncInt st.nbytes, st.dest) := by
  rw [copyToFdLoop]
  rfl

theorem copyToFdLoop_block {rest : List α} {st st' : Copied α} (reads : Nat) (hne : rest ≠ [])
    (hrun : copyWriteLoop (.ofWrites sched) (rest.take COPY_BLOCK) 0 st = (true, st')) :
    copyToFdLoop (.ofWrites sched) rest reads st =
      copyToFdLoop (.ofWrites sched) (rest.drop COPY_BLOCK) (reads + 1) st' := by
  have hlen : rest.length ≠ 0 := fun h => hne (List.length_eq_zero_iff.mp h)
  rw [copyToFdLoop, dif_neg hlen, hrun]
  rfl

/-- What has been written stays. -/
theorem copyToFdLoop_grows (sched : WriteSchedule) (rest : List α) (reads : Nat)
    (st : Copied α) :
    ∃ more, (copyToFdLoop (.ofWrites sched) rest reads st).2 = st.dest ++ more := by
  induction hn : rest.length using Nat.strongRecOn generalizing rest reads st with
  | ind n ih =>
    by_cases hend : rest = []
    · subst hend
      exact ⟨[], by rw [copyToFdLoop_end, List.append_nil]⟩
    · have hpos := List.length_pos_iff.mpr hend
      have hblock : 0 < COPY_BLOCK := by decide
      obtain ⟨st', first, hrun, hdest⟩ :=
        copyWriteLoop_grows sched (rest.take COPY_BLOCK) 0 st
      obtain ⟨more, hmore⟩ := ih (rest.drop COPY_BLOCK).length (by rw [List.length_drop]; omega)
        (rest.drop COPY_BLOCK) (reads + 1) st' rfl
      rw [copyToFdLoop_block reads hend hrun]
      exact ⟨first ++ more, by rw [hmore, hdest, List.append_assoc]⟩

theorem copyToFdLoop_whole (rest : List α) (reads : Nat) (st : Copied α)
    (h : TakesBlocks sched st.calls rest.length) :
    copyToFdLoop (.ofWrites sched) rest reads st =
      (truncInt (st.nbytes + rest.length), st.dest ++ rest) := by
  induction hn : rest.length using Nat.strongRecOn generalizing rest reads st with
  | ind n ih =>
    by_cases hend : rest = []
    · subst hend
      subst hn
      rw [copyToFdLoop_end, List.append_nil]
      rfl
    · have hpos := List.length_pos_iff.mpr hend
      have hblock : 0 < COPY_BLOCK := by decide
      obtain ⟨hfirst, hlater⟩ := (takesBlocks_step hpos).mp h
      rw [← List.length_take] at hfirst
      have htake : 0 < (rest.take COPY_BLOCK).length := by rw [List.length_take]; omega
      have hsum : (rest.take COPY_BLOCK).length + (rest.drop COPY_BLOCK).length = n := by
        rw [← List.length_append, List.take_append_drop, hn]
      rw [copyToFdLoop_block reads hend (copyWriteLoop_whole st hfirst htake),
        ih _ (by omega) _ _ _ (by rwa [List.length_drop]) rfl, List.append_assoc,
        List.take_append_drop, Nat.add_assoc, hsum]

/-- A list without repetition does not have its first element at a later offset. -/
theorem take_again_ne {a : α} {l more : List α} (hnodup : (a :: l).Nodup) {k : Nat} (hpos : 0 < k)
    (hk : k < (a :: l).length) : (a :: l).take k ++ a :: more ≠ a :: l := by
  intro heq
  have hcut : ((a :: l).take k).length = k := by
    rw [List.length_take]
    omega
  have hat : ((a :: l).take k ++ a :: more)[k]? = some a := by
    rw [List.getElem?_append_right (by omega), hcut, Nat.sub_self, List.getElem?_cons_zero]
  rw [heq] at hat
  have hsame : (a :: l)[0]? = (a :: l)[k]? := by rw [List.getElem?_cons_zero, hat]
  have hzero := (List.getElem?_inj (by simp) hnodup).mp hsame
  omega

/-- The first block that is not taken whole comes again: the copy is not the list. -/
theorem copyToFdLoop_short (rest : List α) (hnodup : rest.Nodup) (reads : Nat) (st : Copied α)
    (h : ¬ TakesBlocks sched st.calls rest.length) :
    (copyToFdLoop (.ofWrites sched) rest reads st).2 ≠ st.dest ++ rest := by
  induction hn : rest.length using Nat.strongRecOn generalizing rest reads st with
  | ind n ih =>
    cases rest with
    | nil => exact absurd (takesBlocks_zero _ _) h
    | cons a rest =>
      have hblock : (a :: rest).take COPY_BLOCK = a :: rest.take 511 := rfl
      by_cases hfirst : ((a :: rest).take COPY_BLOCK).length ≤ sched.count st.calls
      · have hlater : ¬ TakesBlocks sched (st.calls + 1) ((a :: rest).drop COPY_BLOCK).length := by
          intro hlater
          refine h ((takesBlocks_step (by simp)).mpr ⟨?_, ?_⟩)
          · rwa [List.length_take] at hfirst
          · rwa [List.length_drop] at hlater
        have hne := ih ((a :: rest).drop COPY_BLOCK).length
          (by rw [← hn, List.length_drop, List.length_cons, COPY_BLOCK]; omega)
          ((a :: rest).drop COPY_BLOCK) (hnodup.sublist (List.drop_sublist _ _)) (reads + 1)
          ⟨st.dest ++ (a :: rest).take COPY_BLOCK,
            st.nbytes + ((a :: rest).take COPY_BLOCK).length, st.calls + 1⟩ hlater rfl
        rw [copyToFdLoop_block reads (List.cons_ne_nil _ _)
          (copyWriteLoop_whole st hfirst (by simp [COPY_BLOCK]))]
        rwa [List.append_assoc, List.take_append_drop] at hne
      · have hshort : sched.taken st.calls (a :: rest.take 511).length <
            (a :: rest.take 511).length := by
          rw [hblock] at hfirst
          have hle := sched.taken_le st.calls (a :: rest.take 511).length
          have hiff := taken_eq_iff sched st.calls (a :: rest.take 511).length
          omega
        have hpos : 0 < sched.taken st.calls (a :: rest.take 511).length :=
          sched.taken_pos _ (by simp)
        obtain ⟨st', more, hrun, hdest⟩ := copyWriteLoop_short st hshort
        generalize sched.taken st.calls (a :: rest.take 511).length = k at hshort hpos hdest
        obtain ⟨later, hlater⟩ := copyToFdLoop_grows sched ((a :: rest).drop COPY_BLOCK)
          (reads + 1) st'
        rw [copyToFdLoop_block reads (List.cons_ne_nil _ _) (hblock ▸ hrun), hlater, hdest,
          List.append_assoc]
        intro hcopy
        have hlen : k < (a :: rest).length := by
          rw [List.length_cons, List.length_take] at hshort
          rw [List.length_cons]
          omega
        have hcut : (a :: rest.take 511).take k = (a :: rest).take k := by
          rw [← hblock, List.take_take, Nat.min_eq_left]
          exact hshort.le.trans (by rw [← hblock]; exact List.length_take_le _ _)
        rw [hcut, List.append_assoc, List.cons_append] at hcopy
        exact take_again_ne hnodup hpos hlen (List.append_cancel_left hcopy)

end Copy

/-! ## Each byte once -/

/-- The destination gets the bytes of the file in order and each once, the offset that a byte
comes from being told apart, and their number is returned. -/
def CopiesEachOnce (sched : WriteSchedule) (source : Bytes) : Prop :=
  smfCoreCopyToFd (.ofWrites sched) source.zipIdx = ((source.length : Int), source.zipIdx)

theorem nodup_zipIdx {α : Type} (l : List α) : l.zipIdx.Nodup := by
  have hoffsets : (l.zipIdx.map Prod.snd).Nodup := by
    rw [List.zipIdx_map_snd]
    exact List.nodup_range'
  exact hoffsets.of_map Prod.snd

/-- A `write` that takes less than its block spoils the copy. -/
theorem not_copiesEachOnce {sched : WriteSchedule} {source : Bytes}
    (h : ¬ TakesBlocks sched 0 source.length) : ¬ CopiesEachOnce sched source := by
  intro hcopy
  have hne := copyToFdLoop_short source.zipIdx (nodup_zipIdx source) 0 ⟨[], 0, 0⟩
    (by rwa [List.length_zipIdx])
  exact hne (congrArg Prod.snd hcopy)

/-- **Which copies are right**: those where every `write` takes its whole block, of a file
whose length is an `int`. -/
theorem smfCoreCopyToFd_once_iff (sched : WriteSchedule) (source : Bytes) :
    CopiesEachOnce sched source ↔
      TakesBlocks sched 0 source.length ∧ source.length ≤ INT_MAX := by
  by_cases htakes : TakesBlocks sched 0 source.length
  · have hrun : smfCoreCopyToFd (.ofWrites sched) source.zipIdx =
        (truncInt source.length, source.zipIdx) := by
      have hloop := copyToFdLoop_whole source.zipIdx 0 ⟨[], 0, 0⟩ (by rwa [List.length_zipIdx])
      rw [List.length_zipIdx, Nat.zero_add, List.nil_append] at hloop
      exact hloop
    have hbound : source.length < 2147483648 ↔ source.length ≤ INT_MAX := by
      rw [INT_MAX]
      omega
    rw [CopiesEachOnce, hrun, Prod.mk.injEq, truncInt_eq_iff, hbound, and_iff_left rfl,
      and_iff_right htakes]
  · exact iff_of_false (not_copiesEachOnce htakes) fun h => htakes h.1

/-- `ab`, written byte by byte, comes out as `aa`. -/
theorem smfCoreCopyToFd_not_once :
    ¬ ∀ (sched : WriteSchedule) (source : Bytes), CopiesEachOnce sched source := by
  intro hall
  have hshort : ¬ TakesBlocks .bytewise 0 ([97, 98] : Bytes).length := by
    intro htakes
    exact absurd (htakes 0 (by decide)) (by decide)
  exact not_copiesEachOnce hshort (hall .bytewise [97, 98])

end Spmfilter
