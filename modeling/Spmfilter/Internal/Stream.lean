import Spmfilter.Internal.Readline
import Spmfilter.Lib.Stdio

/-!
# Reading a stream to its end

Calls of `smf_internal_readline` until one returns `0`.  A caller takes as many bytes of the
buffer as the call has returned.

* `readlines` are the results of the calls, and `readlines_map` carries them along a
  homomorphism of sources.
* `readlines_line`, `readlines_full` and `readlines_last` are the first call for each shape of
  the stream.
* `readlines_whole_iff` says which streams come out as they are.
-/

namespace Spmfilter

open CString Stdio

/-- The first bytes of the buffer: what has been stored, and the NUL behind it. -/
def ReadlineResult.firstBytes (res : ReadlineResult) : Bytes := (res.buf ++ [0]).take res.ret.toNat

section Calls

variable {R S : Type} {nbyte : Nat}

/-- The calls in front of the one that returns `0` or fails. -/
def readlines (src : Source UInt8 R) (hn : 2 ≤ nbyte) (r : R) : List ReadlineResult :=
  let call := smfInternalReadline src nbyte r
  if _hpos : 0 < call.1.ret then call.1 :: readlines src hn call.2 else []
termination_by src.size r
decreasing_by exact smfInternalReadline_size_lt src hn _hpos

theorem readlines_next {src : Source UInt8 R} {hn : 2 ≤ nbyte} {r r' : R} {res : ReadlineResult}
    (h : smfInternalReadline src nbyte r = (res, r')) (hpos : 0 < res.ret) :
    readlines src hn r = res :: readlines src hn r' := by
  have hcall : 0 < (smfInternalReadline src nbyte r).1.ret := by rwa [h]
  rw [readlines, dif_pos hcall, h]

theorem readlines_stop {src : Source UInt8 R} {hn : 2 ≤ nbyte} {r r' : R} {res : ReadlineResult}
    (h : smfInternalReadline src nbyte r = (res, r')) (hstop : ¬ 0 < res.ret) :
    readlines src hn r = [] := by
  have hcall : ¬ 0 < (smfInternalReadline src nbyte r).1.ret := by rwa [h]
  rw [readlines, dif_neg hcall]

/-- A homomorphism of sources keeps the results. -/
theorem readlines_map {s : Source UInt8 R} {t : Source UInt8 S} {f : R → S}
    (h : Source.Hom s t f) (hn : 2 ≤ nbyte) (r : R) :
    readlines t hn (f r) = readlines s hn r := by
  fun_induction readlines s hn r with
  | case1 r call hpos ih =>
    rw [readlines_next (smfInternalReadline_map h nbyte r) hpos]
    exact congrArg _ ih
  | case2 r call hzero =>
    exact readlines_stop (smfInternalReadline_map h nbyte r) hzero

end Calls

/-! ## The first call -/

section FirstCall

variable {nbyte : Nat} (hn : 2 ≤ nbyte)

theorem readlines_done : readlines (Source.tokens UInt8) hn (bytesWire []) = [] := by
  obtain ⟨k, rfl⟩ : ∃ k, nbyte = k + 1 := ⟨nbyte - 1, by omega⟩
  exact readlines_stop (smfInternalReadline_done (by omega)) (by decide)

/-- A line that fits. -/
theorem readlines_line {l : Bytes} (rest : Bytes) (hlf : LF ∉ l) (hlen : l.length + 1 < nbyte) :
    readlines (Source.tokens UInt8) hn (bytesWire (l ++ LF :: rest)) =
      ⟨(l ++ [LF]).length, l ++ [LF]⟩ ::
        readlines (Source.tokens UInt8) hn (bytesWire rest) := by
  obtain ⟨k, rfl⟩ : ∃ k, nbyte = k + 1 := ⟨nbyte - 1, by omega⟩
  have hsplit : bytesWire (l ++ LF :: rest) = bytesWire (l ++ [LF]) ++ bytesWire rest := by
    rw [← bytesWire_append, List.append_assoc, List.singleton_append]
  have hpos : (0 : Int) < (l ++ [LF]).length := by simp
  rw [hsplit]
  exact readlines_next (smfInternalReadline_line (bytesWire rest) hlf (by omega)) hpos

/-- The buffer is full in front of the line feed: the NUL is counted. -/
theorem readlines_full {p : Bytes} (rest : Bytes) (hlf : LF ∉ p) (hlen : p.length + 1 = nbyte) :
    readlines (Source.tokens UInt8) hn (bytesWire (p ++ rest)) =
      ⟨(p.length : Int) + 1, p⟩ :: readlines (Source.tokens UInt8) hn (bytesWire rest) := by
  subst hlen
  have hpos : (0 : Int) < p.length + 1 := by omega
  rw [bytesWire_append]
  exact readlines_next (smfInternalReadline_full (bytesWire rest) hlf rfl) hpos

/-- The stream ends inside a line: its last byte comes twice. -/
theorem readlines_last {l : Bytes} (hne : l ≠ []) (hlf : LF ∉ l) (hlen : l.length + 1 < nbyte) :
    readlines (Source.tokens UInt8) hn (bytesWire l) =
      [⟨(l.length : Int) + 1, l ++ [l.getLastD 0]⟩] := by
  obtain ⟨k, rfl⟩ : ∃ k, nbyte = k + 1 := ⟨nbyte - 1, by omega⟩
  have hpos : (0 : Int) < l.length + 1 := by omega
  rw [readlines_next (smfInternalReadline_last hne hlf (by omega)) hpos]
  exact congrArg _ (readlines_done hn)

end FirstCall

/-! ## The whole stream -/

/-- The bytes that a caller gets are those of the stream, and every call returns the number of
bytes that it has stored. -/
def CallsWhole (calls : List ReadlineResult) (stream : Bytes) : Prop :=
  calls.flatMap ReadlineResult.firstBytes = stream ∧
    ∀ res ∈ calls, res.ret = (res.buf.length : Int)

/-- Every line ends in a line feed and fits into the buffer. -/
def LinesFit (nbyte : Nat) (stream : Bytes) : Prop :=
  ∀ line ∈ lines stream, line.getLast? = some LF ∧ line.length < nbyte

instance (nbyte : Nat) (stream : Bytes) : Decidable (LinesFit nbyte stream) :=
  List.decidableBAll (fun line : Bytes => line.getLast? = some LF ∧ line.length < nbyte) _

section Whole

variable {nbyte : Nat}

theorem not_callsWhole_full {p stream : Bytes} {calls : List ReadlineResult} :
    ¬ CallsWhole (⟨(p.length : Int) + 1, p⟩ :: calls) stream := by
  rintro ⟨-, hstored⟩
  have hfirst : (p.length : Int) + 1 = p.length := hstored _ List.mem_cons_self
  omega

theorem not_callsWhole_last {l : Bytes} :
    ¬ CallsWhole [⟨(l.length : Int) + 1, l ++ [l.getLastD 0]⟩] l := by
  rintro ⟨hbytes, -⟩
  have hlength := congrArg List.length hbytes
  rw [List.flatMap_singleton, ReadlineResult.firstBytes, List.length_take, List.length_append,
    List.length_append, List.length_singleton, List.length_singleton] at hlength
  have hret : ((l.length : Int) + 1).toNat = l.length + 1 := by omega
  simp only [hret] at hlength
  omega

theorem callsWhole_line {l rest : Bytes} {calls : List ReadlineResult} :
    CallsWhole (⟨(l ++ [LF]).length, l ++ [LF]⟩ :: calls) (l ++ LF :: rest) ↔
      CallsWhole calls rest := by
  have hfirst : (⟨(l ++ [LF]).length, l ++ [LF]⟩ : ReadlineResult).firstBytes = l ++ [LF] := by
    rw [ReadlineResult.firstBytes, Int.toNat_natCast]
    exact List.take_left
  have hstream : l ++ LF :: rest = (l ++ [LF]) ++ rest := by simp
  rw [CallsWhole, CallsWhole, List.flatMap_cons, hfirst, hstream, List.append_right_inj,
    List.forall_mem_cons]
  exact and_congr_right fun _ => and_iff_right rfl

/-- The same on the plain list of bytes, by the lines of the stream. -/
theorem readlines_tokens_iff (hn : 2 ≤ nbyte) (stream : Bytes) :
    CallsWhole (readlines (Source.tokens UInt8) hn (bytesWire stream)) stream ↔
      LinesFit nbyte stream := by
  induction stream using lines_rec with
  | hnil =>
    rw [readlines_done]
    refine iff_of_true ⟨rfl, List.forall_mem_nil _⟩ (List.forall_mem_nil _)
  | hopen l hne hl =>
    have hopen : ¬ LinesFit nbyte l := by
      intro hfit
      rw [LinesFit, lines_open l hl, if_neg hne, List.forall_mem_singleton] at hfit
      exact hl (List.mem_of_getLast? hfit.1)
    refine iff_of_false ?_ hopen
    by_cases hlen : l.length + 1 < nbyte
    · rw [readlines_last hn hne hl hlen]
      exact not_callsWhole_last
    · have htake : (l.take (nbyte - 1)).length + 1 = nbyte := by
        rw [List.length_take]
        omega
      have hlf : LF ∉ l.take (nbyte - 1) := fun h => hl (List.mem_of_mem_take h)
      rw [← List.take_append_drop (nbyte - 1) l, readlines_full hn _ hlf htake]
      exact not_callsWhole_full
  | hclosed l rest hl ih =>
    have hlines : LinesFit nbyte (l ++ LF :: rest) ↔
        l.length + 1 < nbyte ∧ LinesFit nbyte rest := by
      rw [LinesFit, lines_closed l rest hl, List.forall_mem_cons, List.getLast?_concat,
        List.length_append, List.length_singleton]
      exact and_congr_left fun _ => and_iff_right rfl
    by_cases hlen : l.length + 1 < nbyte
    · rw [readlines_line hn rest hl hlen, callsWhole_line, hlines, ih]
      exact (and_iff_right hlen).symm
    · have htake : (l.take (nbyte - 1)).length + 1 = nbyte := by
        rw [List.length_take]
        omega
      have hlf : LF ∉ l.take (nbyte - 1) := fun h => hl (List.mem_of_mem_take h)
      have hsplit : l ++ LF :: rest = l.take (nbyte - 1) ++ (l.drop (nbyte - 1) ++ LF :: rest) := by
        rw [← List.append_assoc, List.take_append_drop]
      refine iff_of_false ?_ fun hfit => hlen (hlines.mp hfit).1
      rw [hsplit, readlines_full hn _ hlf htake]
      exact not_callsWhole_full

/-- A socket that delivers the stream gives the same calls as the stream itself. -/
theorem readlines_socket (hn : 2 ≤ nbyte) {sock : Socket} {stream : Bytes}
    (hsock : sock.wire = bytesWire stream) :
    readlines socketSource hn ({}, sock) =
      readlines (Source.tokens UInt8) hn (bytesWire stream) := by
  rw [← readlines_map socketSource_hom hn, ← hsock]
  rfl

/-- **Which streams come out whole**, in whatever slices the kernel delivers them. -/
theorem readlines_whole_iff (hn : 2 ≤ nbyte) {sock : Socket} {stream : Bytes}
    (hsock : sock.wire = bytesWire stream) :
    CallsWhole (readlines socketSource hn ({}, sock)) stream ↔ LinesFit nbyte stream := by
  rw [readlines_socket hn hsock]
  exact readlines_tokens_iff hn stream

/-- `ab` and a line feed in two slices. -/
theorem readlines_whole_slices :
    CallsWhole (readlines socketSource (show 2 ≤ 8 by decide)
      ({}, [.data [97] (by decide) (by decide), .eintr, .data [98, LF] (by decide) (by decide)]))
      [97, 98, LF] :=
  (readlines_whole_iff (by decide) rfl).mpr (by decide)

/-- `ab` without a line feed comes out as `abb`. -/
theorem readlines_not_whole :
    ¬ ∀ (nbyte : Nat) (hn : 2 ≤ nbyte) (sock : Socket) (stream : Bytes),
      sock.wire = bytesWire stream → CallsWhole (readlines socketSource hn ({}, sock)) stream := by
  intro hall
  have hcalls := hall 8 (by decide) [.data [97, 98] (by decide) (by decide)] [97, 98] rfl
  have hsock : Socket.wire [.data [97, 98] (by decide) (by decide)] = bytesWire [97, 98] := rfl
  rw [readlines_socket (by decide) hsock,
    readlines_last (by decide) (by decide) (by decide) (by decide)] at hcalls
  exact not_callsWhole_last hcalls

end Whole

end Spmfilter
