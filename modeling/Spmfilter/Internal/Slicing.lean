import Spmfilter.Internal.Stream
import Spmfilter.Lib.Buffer

/-!
# Reading lines into memory

`smf_internal_readline` with the block of `nbyte` bytes that it writes to.  Every
`*ptr = c` is an access that fails outside the block.

* `readlineIntoLoop_control` compares a call with `smfInternalReadline`, which keeps the
  bytes in a list, and `readlineInto_eq` adds that a block of `nbyte` bytes is enough.
* `readlinesInto_eq` does so for repeated calls.
* `readlinesInto_slices` is the independence of the slices that `read()` delivers.
-/

namespace Spmfilter

open CString Buffers

/-- What a call returns, the block after it, and where `ptr` points in it. -/
structure BlockRead where
  ret : Int
  block : Buffer
  ptr : Nat

section Into

variable {R : Type} (src : Source UInt8 R)

/-- `*ptr = 0`, and the return of `n`. -/
def terminate (n : Nat) (b : Buffer) (ptr : Nat) : Option BlockRead :=
  (b.write ptr [0]).map fun b => ⟨n, b, ptr⟩

/-- The loop of `smf_internal_readline`, with `left`, `n` and `c` as in
`smfInternalReadlineLoop`.  `none` where a byte is written outside the block. -/
def readlineIntoLoop :
    (left n : Nat) → (c : UInt8) → (b : Buffer) → (ptr : Nat) → R → Option BlockRead × R
  | 0, n, _, b, ptr, r => (terminate n b ptr, r)
  | left + 1, n, c, b, ptr, r =>
    match src.next r with
    | (.error, r') => (some ⟨-1, b, ptr⟩, r')
    | (.eof, r') =>
      match b.write ptr [c] with
      | none => (none, r')
      | some b => (if n = 1 then some ⟨0, b, ptr + 1⟩ else terminate n b (ptr + 1), r')
    | (.item x, r') =>
      match b.write ptr [x] with
      | none => (none, r')
      | some b =>
        if x = LF then (terminate n b (ptr + 1), r')
        else readlineIntoLoop left (n + 1) x b (ptr + 1) r'

/-- `smf_internal_readline(fd, b, nbyte, &rl)`. -/
def readlineInto (nbyte : Nat) (b : Buffer) (r : R) : Option BlockRead × R :=
  readlineIntoLoop src (nbyte - 1) 1 0 b 0 r

variable {src}

theorem ret_terminate {n ptr : Nat} {b : Buffer} {out : BlockRead} (h : terminate n b ptr = some out) :
    out.ret = n := by
  obtain ⟨b', -, rfl⟩ := Option.map_eq_some_iff.mp h
  rfl

/-- The block has no part in what is read and returned. -/
theorem readlineIntoLoop_control {left n ptr : Nat} {c : UInt8} {b : Buffer} {r : R} {out : BlockRead}
    (stored : Bytes) (h : (readlineIntoLoop src left n c b ptr r).1 = some out) :
    (smfInternalReadlineLoop src left n c stored r).1.ret = out.ret ∧
      (smfInternalReadlineLoop src left n c stored r).2 =
        (readlineIntoLoop src left n c b ptr r).2 := by
  induction left generalizing n c b ptr r stored with
  | zero => exact ⟨(ret_terminate h).symm, rfl⟩
  | succ left ih =>
    rw [readlineIntoLoop] at h ⊢
    rw [smfInternalReadlineLoop]
    generalize src.next r = next at h ⊢
    obtain ⟨x | _ | _, r'⟩ := next
    · dsimp only at h ⊢
      cases hwrite : b.write ptr [x] with
      | none =>
        rw [hwrite] at h
        cases h
      | some b' =>
        rw [hwrite] at h
        dsimp only at h ⊢
        split at h
        · rename_i hlf
          rw [if_pos hlf, if_pos hlf]
          exact ⟨(ret_terminate h).symm, rfl⟩
        · rename_i hlf
          rw [if_neg hlf, if_neg hlf]
          exact ih _ h
    · dsimp only at h ⊢
      cases hwrite : b.write ptr [c] with
      | none =>
        rw [hwrite] at h
        cases h
      | some b' =>
        rw [hwrite] at h
        dsimp only at h
        split at h
        · rename_i hn
          rw [if_pos hn]
          obtain rfl := Option.some.inj h
          exact ⟨rfl, rfl⟩
        · rename_i hn
          rw [if_neg hn]
          exact ⟨(ret_terminate h).symm, rfl⟩
    · obtain rfl := Option.some.inj h
      exact ⟨rfl, rfl⟩

theorem readlineInto_size_lt {nbyte : Nat} (hn : 2 ≤ nbyte) {b : Buffer} {r : R} {out : BlockRead}
    (h : (readlineInto src nbyte b r).1 = some out) (hpos : 0 < out.ret) :
    src.size (readlineInto src nbyte b r).2 < src.size r := by
  obtain ⟨hret, hstate⟩ := readlineIntoLoop_control [] h
  rw [readlineInto, ← hstate]
  exact smfInternalReadline_size_lt src hn (by rwa [smfInternalReadline, hret])

/-! ## What is in the block -/

/-- A byte of a block that begins with what has been stored. -/
theorem write_stored (stored : Bytes) (x y : UInt8) (old : Bytes) :
    (Buffer.mk (stored ++ x :: old)).write stored.length [y] = some ⟨stored ++ [y] ++ old⟩ := by
  have h := @Buffer.write_append stored old [x] [y] rfl
  rwa [List.append_assoc, List.singleton_append] at h

/-- The call has stayed in the block, and a positive result has `stored` and a NUL in it. -/
def HoldsLine (out : Option BlockRead) (stored : Bytes) : Prop :=
  ∃ filled, out = some filled ∧
    (0 < filled.ret → filled.block.cells.take (filled.ptr + 1) = stored ++ [0])

theorem holds_terminate (n : Nat) (stored : Bytes) (x : UInt8) (old : Bytes) :
    HoldsLine (terminate n ⟨stored ++ x :: old⟩ stored.length) stored := by
  have hwrite := write_stored stored x 0 old
  refine ⟨⟨n, ⟨stored ++ [0] ++ old⟩, stored.length⟩, by rw [terminate, hwrite]; rfl, fun _ => ?_⟩
  show (stored ++ [0] ++ old).take (stored.length + 1) = _
  exact List.take_left' List.length_append

/-- With room for the bytes that are left and the NUL. -/
theorem readlineIntoLoop_holds {left n : Nat} {c : UInt8} {stored old : Bytes} {r : R}
    (hroom : left + 1 ≤ old.length) :
    HoldsLine (readlineIntoLoop src left n c ⟨stored ++ old⟩ stored.length r).1
      (smfInternalReadlineLoop src left n c stored r).1.buf := by
  induction left generalizing n c stored old r with
  | zero =>
    obtain ⟨x, old, rfl⟩ := List.exists_cons_of_length_pos hroom
    exact holds_terminate n stored x old
  | succ left ih =>
    obtain ⟨x, old, rfl⟩ := List.exists_cons_of_length_pos (l := old) (by omega)
    rw [List.length_cons] at hroom
    have hlength : ∀ y : UInt8, stored.length + 1 = (stored ++ [y]).length := fun y => by
      rw [List.length_append, List.length_singleton]
    rw [readlineIntoLoop, smfInternalReadlineLoop]
    rcases src.next r with ⟨y | _ | _, r'⟩
    · dsimp only
      rw [write_stored]
      dsimp only
      split
      · obtain ⟨z, old, rfl⟩ := List.exists_cons_of_length_pos (l := old) (by omega)
        rw [hlength y]
        exact holds_terminate n (stored ++ [y]) z old
      · rw [hlength y]
        exact ih (by omega)
    · dsimp only
      rw [write_stored]
      dsimp only
      split
      · exact ⟨_, rfl, fun hpos => absurd (show (0 : Int) < 0 from hpos) (by decide)⟩
      · obtain ⟨z, old, rfl⟩ := List.exists_cons_of_length_pos (l := old) (by omega)
        rw [hlength c]
        exact holds_terminate n (stored ++ [c]) z old
    · exact ⟨_, rfl, fun hpos => absurd (show (0 : Int) < -1 from hpos) (by decide)⟩

/-- A block of `nbyte` bytes is enough for a call. -/
theorem readlineInto_holds {nbyte : Nat} (hn : 2 ≤ nbyte) {b : Buffer} (hb : b.size = nbyte)
    (r : R) :
    HoldsLine (readlineInto src nbyte b r).1 (smfInternalReadline src nbyte r).1.buf := by
  have hroom : nbyte - 1 + 1 ≤ b.cells.length := by
    rw [Buffer.size] at hb
    omega
  exact @readlineIntoLoop_holds R src (nbyte - 1) 1 0 [] b.cells r hroom

end Into

/-! ## Repeated calls -/

section Calls

variable {R : Type}

/-- The results in front of the call that returns `0` or fails, each with the bytes up to
the NUL; call number `i` gets the block `blocks i`.  `none` where one of the calls writes
outside its block. -/
def readlinesInto {nbyte : Nat} (src : Source UInt8 R) (hn : 2 ≤ nbyte) (blocks : Nat → Buffer)
    (i : Nat) (r : R) : Option (List (Int × Bytes)) :=
  match hcall : (readlineInto src nbyte (blocks i) r).1 with
  | none => none
  | some out =>
    if hpos : 0 < out.ret then
      (readlinesInto src hn blocks (i + 1) (readlineInto src nbyte (blocks i) r).2).map
        ((out.ret, out.block.cells.take (out.ptr + 1)) :: ·)
    else some []
termination_by src.size r
decreasing_by exact readlineInto_size_lt hn hcall hpos

/-- The calls stay in their blocks, and give what is collected in the lists. -/
theorem readlinesInto_eq {nbyte : Nat} {src : Source UInt8 R} (hn : 2 ≤ nbyte)
    {blocks : Nat → Buffer} (hblocks : ∀ i, (blocks i).size = nbyte) (i : Nat) (r : R) :
    readlinesInto src hn blocks i r =
      some ((readlines src hn r).map fun res => (res.ret, res.buf ++ [0])) := by
  fun_induction readlinesInto src hn blocks i r with
  | case1 i r hnone =>
    obtain ⟨out, hout, -⟩ := readlineInto_holds hn (hblocks i) r
    rw [hnone] at hout
    cases hout
  | case2 i r out hcall hpos ih =>
    obtain ⟨hret, hstate⟩ := readlineIntoLoop_control [] hcall
    obtain ⟨out', hout, htext⟩ := readlineInto_holds hn (hblocks i) r
    obtain rfl := Option.some.inj (hcall.symm.trans hout)
    have hnext : smfInternalReadline src nbyte r =
        (⟨out.ret, (smfInternalReadline src nbyte r).1.buf⟩,
          (readlineInto src nbyte (blocks i) r).2) :=
      Prod.ext (congrArg (ReadlineResult.mk · _) hret) hstate
    rw [ih, readlines_next hnext hpos, htext hpos]
    rfl
  | case3 i r out hcall hstop =>
    obtain ⟨hret, hstate⟩ := readlineIntoLoop_control [] hcall
    have hend : ¬ 0 < (smfInternalReadline src nbyte r).1.ret := by
      rw [smfInternalReadline, hret]
      exact hstop
    rw [readlines_stop rfl hend]
    rfl

/-- **The slices make no difference.**  However `read()` cuts the stream up, and whatever
blocks the caller brings, the results are the same, and no call writes outside its block. -/
theorem readlinesInto_slices {nbyte : Nat} (hn : 2 ≤ nbyte) {stream : Bytes} {sock sock' : Socket}
    (hsock : sock.wire = bytesWire stream) (hsock' : sock'.wire = bytesWire stream)
    {blocks blocks' : Nat → Buffer} (hblocks : ∀ i, (blocks i).size = nbyte)
    (hblocks' : ∀ i, (blocks' i).size = nbyte) :
    readlinesInto socketSource hn blocks 0 ({}, sock) =
        readlinesInto socketSource hn blocks' 0 ({}, sock') ∧
      (readlinesInto socketSource hn blocks 0 ({}, sock)).isSome = true := by
  rw [readlinesInto_eq hn hblocks, readlinesInto_eq hn hblocks', readlines_socket hn hsock,
    readlines_socket hn hsock']
  exact ⟨rfl, rfl⟩

/-- `ab`, a line feed and `c` in one slice, and in three with interrupted calls. -/
theorem readlinesInto_slices_sample :
    readlinesInto socketSource (show 2 ≤ 4 by decide) (fun _ => ⟨[1, 2, 3, 4]⟩) 0
          ({}, [.data [97, 98, LF, 99] (by decide) (by decide)]) =
        readlinesInto socketSource (show 2 ≤ 4 by decide) (fun _ => ⟨[0, 0, 0, 0]⟩) 0
          ({}, [.eintr, .data [97] (by decide) (by decide), .data [98, LF] (by decide) (by decide),
            .eintr, .eintr, .data [99] (by decide) (by decide)]) ∧
      (readlinesInto socketSource (show 2 ≤ 4 by decide) (fun _ => ⟨[1, 2, 3, 4]⟩) 0
          ({}, [.data [97, 98, LF, 99] (by decide) (by decide)])).isSome = true :=
  @readlinesInto_slices 4 (by decide) [97, 98, LF, 99] _ _ rfl rfl _ _ (fun _ => rfl) fun _ => rfl

end Calls

end Spmfilter
