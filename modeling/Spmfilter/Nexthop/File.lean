import Spmfilter.Lib.IoFaults
import Spmfilter.Nexthop

/-!
# Delivery to a file

`file_delivery_nexthop` with the results of `fread`, `fwrite` and `fclose`.  A stream
remembers that it has met an error, and the loop looks at that only after a call that has
delivered or taken nothing.

* `nexthopLoop` is the loop and `fileDeliveryNexthopIo` the function;
  `fileDeliveryNexthop_io` connects it to `fileDeliveryNexthop` of `Nexthop`.
* `FailureSeen` says that some turn meets such a call, and `AllTaken` that no `fwrite` is
  short.
* `nexthopLoop_seen` and `nexthopLoop_unseen` are the loop with and without that turn.
* `fileDeliveryNexthopIo_whole_iff` says when the result `0` can be trusted.
-/

namespace Spmfilter

open CString Stdio

/-- `sizeof(block)`. -/
def NEXTHOP_BLOCK : Nat := 512

/-- The two streams of `file_delivery_nexthop`. -/
structure DeliveryStreams where
  src : InFile
  /-- `ferror(src)`. -/
  srcError : Bool
  /-- The bytes that `dest` has taken. -/
  dest : Bytes
  /-- `ferror(dest)`. -/
  destError : Bool

/-- The streams as they have been opened. -/
def DeliveryStreams.opened (content : Bytes) : DeliveryStreams :=
  ⟨.start content, false, [], false⟩

/-- The streams after the `fread` and the `fwrite` of one turn. -/
def DeliveryStreams.turn (reads : ReadFaults) (counts : WriteCounts) (call : Nat)
    (st : DeliveryStreams) : DeliveryStreams :=
  let block := freadCall reads call NEXTHOP_BLOCK st.src
  { src := block.2
    srcError := st.srcError || (reads call).isSome
    dest := st.dest ++ block.1.take (counts call)
    destError := st.destError || decide (counts call < block.1.length) }

theorem turn_srcError {reads : ReadFaults} {counts : WriteCounts} {call : Nat}
    {st : DeliveryStreams} (h : (reads call).isSome = true) :
    (st.turn reads counts call).srcError = true := by
  simp [DeliveryStreams.turn, h]

/-- `nbytes` after the `fread`. -/
def nbytesRead (reads : ReadFaults) (call : Nat) (st : DeliveryStreams) : Nat :=
  (freadCall reads call NEXTHOP_BLOCK st.src).1.length

/-- The loop of `file_delivery_nexthop`: the result, and what `dest` has taken.  Each turn has
one call of `fread` and at most one of `fwrite`. -/
def nexthopLoop (reads : ReadFaults) (counts : WriteCounts) (call : Nat) (st : DeliveryStreams) :
    Int × Bytes :=
  if st.src.eof = true then (0, st.dest)
  else
    let st' := st.turn reads counts call
    if nbytesRead reads call st = 0 ∧ st'.srcError = true then (-1, st.dest)
    else if min (counts call) (nbytesRead reads call st) = 0 ∧ st'.destError = true then
      (-1, st.dest)
    else nexthopLoop reads counts (call + 1) st'
termination_by st.src.size
decreasing_by
  rename_i hopen hread _
  refine freadCall_size (Bool.eq_false_iff.mpr hopen) (by decide) ?_
  rintro ⟨hzero, hfault⟩
  exact hread ⟨hzero, turn_srcError hfault⟩

/-- What the calls of one delivery meet. -/
structure FileDeliveryIo where
  /-- `fopen(settings->nexthop, "w")` succeeds. -/
  destOpens : Bool
  reads : ReadFaults
  counts : WriteCounts
  /-- An error of `fclose(dest)`, and how many bytes are in the file then. -/
  closing : Option Nat
  /-- The result of `smf_message_to_file`. -/
  nitems : Int

/-- What the file holds after `fclose(dest)`. -/
def FileDeliveryIo.closed (io : FileDeliveryIo) (taken : Bytes) : Bytes :=
  match io.closing with
  | none => taken
  | some kept => taken.take kept

/-- `file_delivery_nexthop`: the result, and the new file at the next hop when it has been
opened. -/
def fileDeliveryNexthopIo {M : Type} (io : FileDeliveryIo) (w : World M) : Int × Option Bytes :=
  if w.session.messageFile ≠ none then
    match w.spool with
    | none => (-1, none)
    | some spool =>
      if io.destOpens = false then (-1, none)
      else
        let copy := nexthopLoop io.reads io.counts 0 (.opened spool.content)
        -- the result of `fclose` is not looked at
        (copy.1, some (io.closed copy.2))
  else if 0 < io.nitems then (0, none)
  else (-1, none)

section

variable {reads : ReadFaults} {counts : WriteCounts} {call : Nat} {st : DeliveryStreams}

/-! ## The results of one turn -/

/-- The turn ends the loop: an error that a call without bytes brings to light. -/
def TurnFails (reads : ReadFaults) (counts : WriteCounts) (call : Nat) (st : DeliveryStreams) :
    Prop :=
  (nbytesRead reads call st = 0 ∧ (st.turn reads counts call).srcError = true) ∨
    (min (counts call) (nbytesRead reads call st) = 0 ∧
      (st.turn reads counts call).destError = true)

theorem nexthopLoop_eof (heof : st.src.eof = true) :
    nexthopLoop reads counts call st = (0, st.dest) := by
  rw [nexthopLoop, if_pos heof]

theorem nexthopLoop_fails (hopen : st.src.eof = false) (hfails : TurnFails reads counts call st) :
    nexthopLoop reads counts call st = (-1, st.dest) := by
  rw [nexthopLoop, hopen, if_neg (by decide)]
  dsimp only
  split
  · rfl
  · rename_i hread
    rw [if_pos (hfails.resolve_left hread)]

theorem nexthopLoop_turn (hopen : st.src.eof = false) (hgoes : ¬ TurnFails reads counts call st) :
    nexthopLoop reads counts call st =
      nexthopLoop reads counts (call + 1) (st.turn reads counts call) := by
  rw [nexthopLoop, hopen, if_neg (by decide)]
  dsimp only
  rw [if_neg fun h => hgoes (.inl h), if_neg fun h => hgoes (.inr h)]

theorem turn_size (hopen : st.src.eof = false) (hgoes : ¬ TurnFails reads counts call st) :
    (st.turn reads counts call).src.size < st.src.size := by
  refine freadCall_size hopen (by decide) ?_
  rintro ⟨hzero, hfault⟩
  exact hgoes (.inl ⟨hzero, turn_srcError hfault⟩)

/-! ## Over all turns -/

/-- An error that has been there before, or that one of the calls up to number `j` has met. -/
def ErrorBy (before : Bool) (meets : Nat → Prop) (j : Nat) : Prop :=
  before = true ∨ ∃ i ≤ j, meets i

theorem errorBy_zero {before : Bool} {meets : Nat → Prop} :
    ErrorBy before meets 0 ↔ before = true ∨ meets 0 := by
  refine or_congr_right ⟨?_, fun h => ⟨0, Nat.le_refl 0, h⟩⟩
  rintro ⟨i, hi, h⟩
  rwa [Nat.le_zero.mp hi] at h

theorem errorBy_succ {before : Bool} {meets : Nat → Prop} {j : Nat} :
    ErrorBy before meets (j + 1) ↔
      (before = true ∨ meets 0) ∨ ∃ i ≤ j, meets (i + 1) := by
  unfold ErrorBy
  constructor
  · rintro (h | ⟨i, hi, h⟩)
    · exact .inl (.inl h)
    · cases i with
      | zero => exact .inl (.inr h)
      | succ i => exact .inr ⟨i, by omega, h⟩
  · rintro ((h | h) | ⟨i, hi, h⟩)
    · exact .inl h
    · exact .inr ⟨0, Nat.zero_le _, h⟩
    · exact .inr ⟨i + 1, by omega, h⟩

/-- Before the end of the file, some `fread` delivers nothing after a read error, or some
`fwrite` puts out nothing after a short one. -/
def FailureSeen (reads : ReadFaults) (counts : WriteCounts) (call : Nat) (st : DeliveryStreams) :
    Prop :=
  ∃ j, (fileAfter reads NEXTHOP_BLOCK call j st.src).eof = false ∧
    ((blockAt reads NEXTHOP_BLOCK call st.src j).length = 0 ∧
        ErrorBy st.srcError (fun i => (reads (call + i)).isSome = true) j ∨
      min (counts (call + j)) (blockAt reads NEXTHOP_BLOCK call st.src j).length = 0 ∧
        ErrorBy st.destError
          (fun i => counts (call + i) < (blockAt reads NEXTHOP_BLOCK call st.src i).length) j)

/-- Every `fwrite` takes the block that it is given. -/
def AllTaken (reads : ReadFaults) (counts : WriteCounts) (call : Nat) (src : InFile) : Prop :=
  ∀ j, (fileAfter reads NEXTHOP_BLOCK call j src).eof = false →
    (blockAt reads NEXTHOP_BLOCK call src j).length ≤ counts (call + j)

/-- At the end of the file no call is left. -/
theorem fileAfter_eof {faults : ReadFaults} {n : Nat} {f : InFile} (heof : f.eof = true)
    (j : Nat) : (fileAfter faults n call j f).eof = true := by
  induction j generalizing call f with
  | zero => exact heof
  | succ j ih =>
    refine ih ?_
    unfold freadCall
    cases faults call with
    | none => simp [fread, heof]
    | some m => exact heof

theorem not_failureSeen_eof (heof : st.src.eof = true) :
    ¬ FailureSeen reads counts call st := by
  rintro ⟨j, hopen, -⟩
  rw [fileAfter_eof heof j] at hopen
  cases hopen

theorem failureSeen_turn (hopen : st.src.eof = false) :
    FailureSeen reads counts call st ↔ TurnFails reads counts call st ∨
      FailureSeen reads counts (call + 1) (st.turn reads counts call) := by
  unfold FailureSeen
  rw [← Nat.or_exists_add_one]
  refine or_congr ?_ (exists_congr fun j => ?_)
  · rw [errorBy_zero, errorBy_zero, blockAt_zero]
    simp only [TurnFails, nbytesRead, DeliveryStreams.turn, Bool.or_eq_true, decide_eq_true_eq,
      fileAfter, hopen, true_and, Nat.add_zero]
  · rw [errorBy_succ, errorBy_succ, fileAfter_succ, blockAt_succ]
    simp only [blockAt_succ, blockAt_zero, ErrorBy, DeliveryStreams.turn, Bool.or_eq_true,
      decide_eq_true_eq, Nat.add_zero, Nat.add_assoc, Nat.add_comm 1]

theorem allTaken_turn (hopen : st.src.eof = false) :
    AllTaken reads counts call st.src ↔ nbytesRead reads call st ≤ counts call ∧
      AllTaken reads counts (call + 1) (st.turn reads counts call).src := by
  unfold AllTaken
  rw [← Nat.and_forall_add_one]
  refine and_congr ⟨fun h => h hopen, fun h _ => h⟩ (forall_congr' fun j => ?_)
  rw [fileAfter_succ, blockAt_succ, Nat.add_assoc call 1 j, Nat.add_comm 1 j]
  rfl

theorem allTaken_of_le {src : InFile} (h : ∀ call, NEXTHOP_BLOCK ≤ counts call) :
    AllTaken reads counts call src := fun j _ =>
  (freadCall_length_le (by decide)).trans (h (call + j))

/-- A turn hands on what the `fread` has delivered, as far as `fwrite` takes it. -/
theorem turn_length (reads : ReadFaults) (counts : WriteCounts) (call : Nat)
    (st : DeliveryStreams) :
    (st.turn reads counts call).dest.length + (st.turn reads counts call).src.rest.length +
        nbytesRead reads call st =
      st.dest.length + st.src.rest.length + min (counts call) (nbytesRead reads call st) := by
  have hsplit : nbytesRead reads call st + (st.turn reads counts call).src.rest.length =
      st.src.rest.length := by
    rw [← freadCall_append (f := st.src), List.length_append]
    rfl
  have hdest : (st.turn reads counts call).dest.length =
      st.dest.length + min (counts call) (nbytesRead reads call st) := by
    rw [nbytesRead, ← List.length_take, ← List.length_append]
    rfl
  omega

/-! ## The whole loop -/

theorem nexthopLoop_seen (h : FailureSeen reads counts call st) :
    (nexthopLoop reads counts call st).1 = -1 := by
  induction hn : st.src.size using Nat.strongRecOn generalizing call st with
  | ind n ih =>
    by_cases heof : st.src.eof = true
    · exact absurd h (not_failureSeen_eof heof)
    · have hopen : st.src.eof = false := Bool.eq_false_iff.mpr heof
      by_cases hfails : TurnFails reads counts call st
      · rw [nexthopLoop_fails hopen hfails]
      · have hlater := ((failureSeen_turn hopen).mp h).resolve_left hfails
        have hsize := turn_size hopen hfails
        rw [nexthopLoop_turn hopen hfails]
        exact ih _ (by omega) hlater rfl

theorem nexthopLoop_length (reads : ReadFaults) (counts : WriteCounts) (call : Nat)
    (st : DeliveryStreams) :
    (nexthopLoop reads counts call st).2.length ≤ st.dest.length + st.src.rest.length := by
  induction hn : st.src.size using Nat.strongRecOn generalizing call st with
  | ind n ih =>
    by_cases heof : st.src.eof = true
    · rw [nexthopLoop_eof heof]
      exact Nat.le_add_right _ _
    · have hopen : st.src.eof = false := Bool.eq_false_iff.mpr heof
      by_cases hfails : TurnFails reads counts call st
      · rw [nexthopLoop_fails hopen hfails]
        exact Nat.le_add_right _ _
      · have hsize := turn_size hopen hfails
        have hlength := turn_length reads counts call st
        have hrest := ih _ (hn ▸ hsize) (call + 1) (st.turn reads counts call) rfl
        rw [nexthopLoop_turn hopen hfails]
        omega

/-- When no failure is seen the file is read to its end.  Nothing of it is lost exactly when no
`fwrite` is short. -/
theorem nexthopLoop_unseen (hsound : st.src.Sound) (h : ¬ FailureSeen reads counts call st) :
    (nexthopLoop reads counts call st).1 = 0 ∧
      ((nexthopLoop reads counts call st).2 = st.dest ++ st.src.rest ↔
        AllTaken reads counts call st.src) := by
  induction hn : st.src.size using Nat.strongRecOn generalizing call st with
  | ind n ih =>
    by_cases heof : st.src.eof = true
    · rw [nexthopLoop_eof heof, hsound heof, List.append_nil]
      refine ⟨rfl, iff_of_true rfl ?_⟩
      intro j hopen
      rw [fileAfter_eof heof j] at hopen
      cases hopen
    · have hopen : st.src.eof = false := Bool.eq_false_iff.mpr heof
      have hturn : ¬ (TurnFails reads counts call st ∨
          FailureSeen reads counts (call + 1) (st.turn reads counts call)) :=
        fun hor => h ((failureSeen_turn hopen).mpr hor)
      have hgoes : ¬ TurnFails reads counts call st := fun hfails => hturn (.inl hfails)
      have hsize := turn_size hopen hgoes
      rw [nexthopLoop_turn hopen hgoes, allTaken_turn hopen]
      have hsound' : (st.turn reads counts call).src.Sound := hsound.freadCall
      obtain ⟨hret, hdest⟩ := ih _ (hn ▸ hsize) hsound' (fun hlater => hturn (.inr hlater)) rfl
      refine ⟨hret, ?_⟩
      by_cases htaken : nbytesRead reads call st ≤ counts call
      · rw [and_iff_right htaken, ← hdest]
        have hcontent : (st.turn reads counts call).dest ++ (st.turn reads counts call).src.rest =
            st.dest ++ st.src.rest := by
          show st.dest ++ (freadCall reads call NEXTHOP_BLOCK st.src).1.take (counts call) ++
            (freadCall reads call NEXTHOP_BLOCK st.src).2.rest = _
          rw [List.take_of_length_le htaken, List.append_assoc, freadCall_append]
        rw [hcontent]
      · refine iff_of_false ?_ fun hboth => htaken hboth.1
        intro heq
        have hlength := turn_length reads counts call st
        have hle := nexthopLoop_length reads counts (call + 1)
          (st.turn reads counts call)
        rw [heq, List.length_append] at hle
        omega

end

/-! ## The function -/

section

variable {M : Type}

/-- `copied` of `fileDeliveryNexthop` is the success of these calls. -/
theorem fileDeliveryNexthop_io (io : FileDeliveryIo) (w : World M) :
    (fileDeliveryNexthop (decide ((fileDeliveryNexthopIo io w).1 = 0)) w).ret =
      (fileDeliveryNexthopIo io w).1 := by
  have hret : (fileDeliveryNexthopIo io w).1 = 0 ∨ (fileDeliveryNexthopIo io w).1 = -1 := by
    unfold fileDeliveryNexthopIo
    split
    · split
      · exact .inr rfl
      · rename_i spool _
        split
        · exact .inr rfl
        · by_cases hseen : FailureSeen io.reads io.counts 0 (.opened spool.content)
          · exact .inr (nexthopLoop_seen hseen)
          · exact .inl (nexthopLoop_unseen (sound_start spool.content) hseen).1
    · split
      · exact .inl rfl
      · exact .inr rfl
  by_cases hmissing : w.session.messageFile ≠ none ∧ w.spool.isNone = true
  · have hspool := Option.isNone_iff_eq_none.mp hmissing.2
    rw [fileDeliveryNexthop, fileDeliveryNexthopIo, if_pos hmissing, if_pos hmissing.1, hspool]
  · rw [fileDeliveryNexthop, if_neg hmissing]
    rcases hret with hret | hret
    · rw [hret]
      rfl
    · rw [hret]
      rfl

theorem fileDeliveryNexthopIo_spool {io : FileDeliveryIo} {w : World M} {spool : Spool}
    (hfile : w.session.messageFile ≠ none) (hspool : w.spool = some spool)
    (hopens : io.destOpens = true) :
    fileDeliveryNexthopIo io w =
      ((nexthopLoop io.reads io.counts 0 (.opened spool.content)).1,
        some (io.closed (nexthopLoop io.reads io.counts 0 (.opened spool.content)).2)) := by
  rw [fileDeliveryNexthopIo, if_pos hfile, hspool, hopens]
  rfl

/-- `fclose` loses nothing of so many bytes. -/
def FileDeliveryIo.KeepsAll (io : FileDeliveryIo) (len : Nat) : Prop :=
  ∀ kept, io.closing = some kept → len ≤ kept

/-- The file is whole exactly when everything has been taken and is kept. -/
theorem closed_eq_iff {io : FileDeliveryIo} {taken content : Bytes}
    (hle : taken.length ≤ content.length) :
    io.closed taken = content ↔ taken = content ∧ io.KeepsAll content.length := by
  unfold FileDeliveryIo.closed FileDeliveryIo.KeepsAll
  cases hclosing : io.closing with
  | none => simp
  | some kept =>
    dsimp only
    constructor
    · intro heq
      have hlength := congrArg List.length heq
      rw [List.length_take] at hlength
      rw [List.take_of_length_le (by omega)] at heq
      refine ⟨heq, ?_⟩
      intro k hk
      obtain rfl := Option.some.inj hk
      omega
    · rintro ⟨rfl, hkeeps⟩
      exact List.take_of_length_le (hkeeps kept rfl)

/-- **When the result `0` means that the spool file has been delivered.** -/
theorem fileDeliveryNexthopIo_whole_iff (io : FileDeliveryIo) {w : World M} {spool : Spool}
    (hfile : w.session.messageFile ≠ none) (hspool : w.spool = some spool) :
    ((fileDeliveryNexthopIo io w).1 = 0 →
        (fileDeliveryNexthopIo io w).2 = some spool.content) ↔
      io.destOpens = false ∨ FailureSeen io.reads io.counts 0 (.opened spool.content) ∨
        (AllTaken io.reads io.counts 0 (.start spool.content) ∧
          io.KeepsAll spool.content.length) := by
  cases hopens : io.destOpens with
  | false =>
    have hret : (fileDeliveryNexthopIo io w).1 = -1 := by
      rw [fileDeliveryNexthopIo, if_pos hfile, hspool, hopens]
      rfl
    refine iff_of_true ?_ (.inl rfl)
    rw [hret]
    intro habsurd
    cases habsurd
  | true =>
    rw [fileDeliveryNexthopIo_spool hfile hspool hopens, or_iff_right (by decide)]
    by_cases hseen : FailureSeen io.reads io.counts 0 (.opened spool.content)
    · refine iff_of_true ?_ (.inl hseen)
      rw [nexthopLoop_seen hseen]
      intro habsurd
      cases habsurd
    · obtain ⟨hret, htaken⟩ := nexthopLoop_unseen (sound_start spool.content) hseen
      have hle := nexthopLoop_length io.reads io.counts 0 (.opened spool.content)
      have hstart : (DeliveryStreams.opened spool.content).dest ++
          (DeliveryStreams.opened spool.content).src.rest = spool.content := rfl
      rw [← List.length_append, hstart] at hle
      rw [hstart] at htaken
      rw [hret, or_iff_right hseen, Option.some.injEq, closed_eq_iff hle, htaken]
      exact ⟨fun h => h rfl, fun h _ => h⟩

end

/-- A session with a message of two bytes. -/
def twoByteWorld : World Bytes where
  session := { id := ascii "1", messageFile := some (ascii "/q/1") }
  message := ⟨0, []⟩
  spool := some ⟨ascii "ab", 0⟩

/-- No call of `fwrite` is short. -/
theorem fileDeliveryNexthopIo_whole_two :
    (fileDeliveryNexthopIo ⟨true, .none, fun _ => 512, none, 0⟩ twoByteWorld).1 = 0 ∧
      (fileDeliveryNexthopIo ⟨true, .none, fun _ => 512, none, 0⟩ twoByteWorld).2 =
        some (ascii "ab") := by
  have hgoes : ¬ TurnFails .none (fun _ => 512) 0 (.opened (ascii "ab")) := by
    rintro (⟨hzero, -⟩ | ⟨hzero, -⟩)
    · exact absurd hzero (by decide)
    · exact absurd hzero (by decide)
  have hret : (fileDeliveryNexthopIo ⟨true, .none, fun _ => 512, none, 0⟩ twoByteWorld).1 = 0 := by
    rw [@fileDeliveryNexthopIo_spool Bytes _ twoByteWorld ⟨ascii "ab", 0⟩ (by decide) rfl rfl,
      nexthopLoop_turn rfl hgoes, nexthopLoop_eof rfl]
  refine ⟨hret, (fileDeliveryNexthopIo_whole_iff ⟨true, .none, fun _ => 512, none, 0⟩
    (w := twoByteWorld) (by decide) rfl).mpr (.inr (.inr ⟨?_, ?_⟩)) hret⟩
  · exact allTaken_of_le fun _ => Nat.le_refl _
  · exact fun _ h => by cases h

/-- The first `fwrite` takes one of the two bytes, and the end of the file has been found: the
result is `0`, and the file holds one byte. -/
theorem fileDeliveryNexthopIo_truncated :
    ¬ ∀ (io : FileDeliveryIo) (w : World Bytes) (spool : Spool),
      w.session.messageFile ≠ none → w.spool = some spool →
        (fileDeliveryNexthopIo io w).1 = 0 →
          (fileDeliveryNexthopIo io w).2 = some spool.content := by
  intro hall
  have hgoes : ¬ TurnFails .none (fun _ => 1) 0 (.opened (ascii "ab")) := by
    rintro (⟨hzero, -⟩ | ⟨hzero, -⟩)
    · exact absurd hzero (by decide)
    · exact absurd hzero (by decide)
  have hloop : nexthopLoop .none (fun _ => 1) 0 (.opened (ascii "ab")) = (0, ascii "a") := by
    rw [nexthopLoop_turn rfl hgoes, nexthopLoop_eof rfl]
    rfl
  have hrun : fileDeliveryNexthopIo ⟨true, .none, fun _ => 1, none, 0⟩ twoByteWorld =
      (0, some (ascii "a")) := by
    rw [@fileDeliveryNexthopIo_spool Bytes _ twoByteWorld ⟨ascii "ab", 0⟩ (by decide) rfl rfl,
      hloop]
    rfl
  have hwhole := hall ⟨true, .none, fun _ => 1, none, 0⟩ twoByteWorld ⟨ascii "ab", 0⟩
    (by decide) rfl
  rw [hrun] at hwhole
  exact absurd (hwhole rfl) (by decide)

end Spmfilter
