import Spmfilter.Internal

/-!
# What one `smf_internal_readline` does

The result of a line read depends on the bytes of the stream alone, not on how
the kernel slices them.  The stream is a list of tokens, a byte or a read error
each; `wireOf` is the stream that a `readline_t` and its socket still hold.

* `socketSource_hom` says that the socket hands out the tokens of its stream,
  and `smfInternalReadline_map` carries a line read along.
* `WireShape` splits a stream in front of a line read: it is used up, or it
  goes on with a line that fits, with a full buffer, with a last line that has
  no line feed, or with an error.  `wireShape` says that there is no other
  case.
* One lemma for each shape gives the result.
-/

namespace Spmfilter

open CString

/-- A stream of bytes.  `none` is a read error between two bytes. -/
abbrev Wire := List (Option UInt8)

/-- The tokens that a list of kernel replies delivers. -/
def Socket.wire : Socket → Wire
  | [] => []
  | .data bytes _ _ :: sock => bytes.map some ++ Socket.wire sock
  | .eintr :: sock => Socket.wire sock
  | .error :: sock => none :: Socket.wire sock

/-- The stream that a reader still holds: its buffer, then the socket. -/
def wireOf (r : ReadlineT × Socket) : Wire :=
  r.1.rest.map some ++ Socket.wire r.2

/-- A stream of plain bytes. -/
def bytesWire (bytes : Bytes) : Wire :=
  bytes.map some

@[simp] theorem bytesWire_nil : bytesWire [] = [] := rfl

@[simp] theorem bytesWire_append (a b : Bytes) :
    bytesWire (a ++ b) = bytesWire a ++ bytesWire b :=
  List.map_append

@[simp] theorem bytesWire_length (bytes : Bytes) : (bytesWire bytes).length = bytes.length :=
  List.length_map _

theorem bytesWire_cons (b : UInt8) (bytes : Bytes) :
    bytesWire (b :: bytes) = some b :: bytesWire bytes := rfl

/-- The bytes of a list of streams, one after the other. -/
theorem bytesWire_flatten_cons (line : Bytes) (lines : List Bytes) :
    bytesWire (line :: lines).flatten = bytesWire line ++ bytesWire lines.flatten := by
  rw [List.flatten_cons, bytesWire_append]

/-! ## The socket hands out its stream -/

/-- A refill delivers the next token of the socket. -/
theorem smfInternalFill_wire (sock : Socket) :
    Source.tokensNext (Socket.wire sock) =
      ((smfInternalFill sock).1, wireOf (smfInternalFill sock).2) := by
  induction sock with
  | nil => rfl
  | cons reply sock ih =>
    cases reply with
    | data bytes nonempty fits =>
      obtain ⟨b, rest, rfl⟩ := List.exists_cons_of_ne_nil nonempty
      rfl
    | eintr => rw [Socket.wire, ih, smfInternalFill]
    | error => rfl

/-- The socket gives the answers of its stream. -/
theorem socketSource_hom : Source.Hom socketSource (Source.tokens UInt8) wireOf := by
  constructor
  intro r
  obtain ⟨⟨rest⟩, sock⟩ := r
  cases rest with
  | nil => exact smfInternalFill_wire sock
  | cons b rest => rfl

section Map

variable {R S : Type} {s : Source UInt8 R} {t : Source UInt8 S} {f : R → S}

theorem smfInternalReadlineLoop_map (h : Source.Hom s t f) (left n : Nat) (c : UInt8)
    (buf : Bytes) (r : R) :
    smfInternalReadlineLoop t left n c buf (f r) =
      ((smfInternalReadlineLoop s left n c buf r).1,
        f (smfInternalReadlineLoop s left n c buf r).2) := by
  induction left generalizing n c buf r with
  | zero => rfl
  | succ left ih =>
    rw [smfInternalReadlineLoop, smfInternalReadlineLoop, h.next r]
    rcases s.next r with ⟨_ | _ | _, r'⟩
    · dsimp only
      split
      · rfl
      · exact ih _ _ _ _
    · rfl
    · rfl

/-- A homomorphism of sources commutes with reading a line. -/
theorem smfInternalReadline_map (h : Source.Hom s t f) (nbyte : Nat) (r : R) :
    smfInternalReadline t nbyte (f r) =
      ((smfInternalReadline s nbyte r).1, f (smfInternalReadline s nbyte r).2) :=
  smfInternalReadlineLoop_map h _ _ _ _ r

/-- An invariant of the single answers is an invariant of reading a line. -/
theorem smfInternalReadlineLoop_preserves {P : R → Prop} (h : Source.Preserves s P)
    (left n : Nat) (c : UInt8) (buf : Bytes) {r : R} (hr : P r) :
    P (smfInternalReadlineLoop s left n c buf r).2 := by
  induction left generalizing n c buf r with
  | zero => exact hr
  | succ left ih =>
    rw [smfInternalReadlineLoop]
    have hnext := h r hr
    rcases hs : s.next r with ⟨_ | _ | _, r'⟩ <;> rw [hs] at hnext
    · dsimp only
      split
      · exact hnext
      · exact ih _ _ _ hnext
    · exact hnext
    · exact hnext

theorem smfInternalReadline_preserves {P : R → Prop} (h : Source.Preserves s P)
    (nbyte : Nat) {r : R} (hr : P r) : P (smfInternalReadline s nbyte r).2 :=
  smfInternalReadlineLoop_preserves h _ _ _ _ hr

end Map

/-! ## The shapes of a stream -/

/-- The start of a stream, for a read of at most `k` bytes. -/
inductive WireShape (k : Nat) : Wire → Prop where
  /-- Nothing is left. -/
  | done : WireShape k []
  /-- A line that fits together with its line feed. -/
  | line (p : Bytes) (rest : Wire) (hlf : LF ∉ p) (hlen : p.length < k) :
      WireShape k (bytesWire (p ++ [LF]) ++ rest)
  /-- The buffer is full before a line feed. -/
  | full (p : Bytes) (rest : Wire) (hlf : LF ∉ p) (hlen : p.length = k) :
      WireShape k (bytesWire p ++ rest)
  /-- The stream ends inside a line. -/
  | last (p : Bytes) (hne : p ≠ []) (hlf : LF ∉ p) (hlen : p.length < k) :
      WireShape k (bytesWire p)
  /-- A read fails inside a line. -/
  | failed (p : Bytes) (rest : Wire) (hlf : LF ∉ p) (hlen : p.length < k) :
      WireShape k (bytesWire p ++ none :: rest)

/-- Every stream has one of the shapes. -/
theorem wireShape (k : Nat) (w : Wire) : WireShape k w := by
  induction k generalizing w with
  | zero => exact .full [] w (by simp) rfl
  | succ k ih =>
    match w with
    | [] => exact .done
    | none :: rest => exact .failed [] rest (by simp) (by simp)
    | some b :: w =>
      by_cases hb : b = LF
      · rw [hb]
        exact .line [] w (by simp) (by simp)
      · have hb' : LF ≠ b := fun h => hb h.symm
        cases ih w with
        | done =>
          rcases Nat.eq_zero_or_pos k with rfl | hk
          · exact .full [b] [] (by simp [hb']) rfl
          · exact .last [b] (by simp) (by simp [hb']) (by simp; omega)
        | line p rest hlf hlen =>
          exact .line (b :: p) rest (by simp [hb', hlf]) (by simp; omega)
        | full p rest hlf hlen =>
          exact .full (b :: p) rest (by simp [hb', hlf]) (by simp; omega)
        | last p hne hlf hlen =>
          exact .last (b :: p) (by simp) (by simp [hb', hlf]) (by simp; omega)
        | failed p rest hlf hlen =>
          exact .failed (b :: p) rest (by simp [hb', hlf]) (by simp; omega)

/-! ## The result for each shape -/

/-- The loop stores bytes other than a line feed one by one. -/
theorem smfInternalReadlineLoop_chars (p : Bytes) (hlf : LF ∉ p) (left n : Nat) (c : UInt8)
    (buf : Bytes) (w : Wire) :
    smfInternalReadlineLoop (Source.tokens UInt8) (left + p.length) n c buf (bytesWire p ++ w) =
      smfInternalReadlineLoop (Source.tokens UInt8) left (n + p.length) (p.getLastD c)
        (buf ++ p) w := by
  induction p generalizing n c buf with
  | nil => simp
  | cons b p ih =>
    have hb : b ≠ LF := fun h => hlf (by simp [h])
    have hp : LF ∉ p := fun h => hlf (by simp [h])
    rw [show left + (b :: p).length = left + p.length + 1 by simp; omega, bytesWire_cons,
      List.cons_append, smfInternalReadlineLoop, Source.tokens_next_some]
    dsimp only
    rw [if_neg hb, ih hp]
    simp only [List.getLastD_cons, List.length_cons, List.append_assoc, List.singleton_append]
    congr 1
    omega

section Result

variable {k : Nat}

/-- The stream is used up. -/
theorem smfInternalReadline_done (hk : 0 < k) :
    smfInternalReadline (Source.tokens UInt8) (k + 1) [] = (⟨0, [0]⟩, []) := by
  obtain ⟨k, rfl⟩ : ∃ j, k = j + 1 := ⟨k - 1, by omega⟩
  rfl

/-- A line that fits is stored with its line feed, and its length is returned. -/
theorem smfInternalReadline_line {p : Bytes} (rest : Wire) (hlf : LF ∉ p) (hlen : p.length < k) :
    smfInternalReadline (Source.tokens UInt8) (k + 1) (bytesWire (p ++ [LF]) ++ rest) =
      (⟨(p ++ [LF]).length, p ++ [LF]⟩, rest) := by
  obtain ⟨left, hk⟩ : ∃ left, k = left + 1 + p.length := ⟨k - p.length - 1, by omega⟩
  rw [smfInternalReadline, Nat.add_sub_cancel, hk, bytesWire_append, List.append_assoc,
    smfInternalReadlineLoop_chars p hlf]
  rw [show bytesWire [LF] ++ rest = some LF :: rest from rfl, smfInternalReadlineLoop,
    Source.tokens_next_some]
  simp [Nat.add_comm]

/-- A full buffer is returned with a length that counts its terminating NUL. -/
theorem smfInternalReadline_full {p : Bytes} (rest : Wire) (hlf : LF ∉ p) (hlen : p.length = k) :
    smfInternalReadline (Source.tokens UInt8) (k + 1) (bytesWire p ++ rest) =
      (⟨(p.length : Int) + 1, p⟩, rest) := by
  rw [smfInternalReadline, Nat.add_sub_cancel, ← hlen, ← Nat.zero_add p.length,
    smfInternalReadlineLoop_chars p hlf, smfInternalReadlineLoop]
  simp [Int.add_comm]

/-- A last line without a line feed is stored with its last byte doubled. -/
theorem smfInternalReadline_last {p : Bytes} (hne : p ≠ []) (hlf : LF ∉ p)
    (hlen : p.length < k) :
    smfInternalReadline (Source.tokens UInt8) (k + 1) (bytesWire p) =
      (⟨(p.length : Int) + 1, p ++ [p.getLastD 0]⟩, []) := by
  obtain ⟨left, hk⟩ : ∃ left, k = left + 1 + p.length := ⟨k - p.length - 1, by omega⟩
  have hpos : 0 < p.length := List.length_pos_of_ne_nil hne
  have hn : ¬ 1 + p.length = 1 := by omega
  rw [smfInternalReadline, Nat.add_sub_cancel, hk, ← List.append_nil (bytesWire p),
    smfInternalReadlineLoop_chars p hlf, smfInternalReadlineLoop, Source.tokens_next_nil]
  dsimp only
  rw [if_neg hn]
  simp [Int.add_comm]

end Result

end Spmfilter
