import Spmfilter.Lib.Chunks
import Spmfilter.Internal.Readline
import Spmfilter.Smtpd.Data

/-!
# The DATA loop on lines

What the loop of `smf_smtpd_process_data` makes of a message.  A message is a
list of lines, each a text and its line feed.  The reader hands a line over in
pieces of at most `MAXLINE - 1` bytes, and the loop treats every piece like a
line.

* `dataLoop_map` replaces the reader by the stream that it holds.
* `smfInternalReadline_piece` reads one piece.
* `dataLoop_pieces` runs the loop over pieces that are no dot line, and
  `dataLoop_dotPiece` stops it.
-/

namespace Spmfilter

open CString Chunks

/-! ## The DATA loop over another reader -/

section Map

variable {R S : Type} {s : Source UInt8 R} {t : Source UInt8 S} {f : R → S}

/-- A homomorphism of sources commutes with the DATA loop. -/
theorem dataLoop_map (h : Source.Hom s t f) (st : DataState) (r : R) :
    dataLoop t st (f r) =
      ⟨(dataLoop s st r).state, (dataLoop s st r).br, f (dataLoop s st r).reader⟩ := by
  fun_induction dataLoop s st r with
  | case1 st r read hret hdot =>
    have hread := smfInternalReadline_map h MAXLINE r
    rw [dataLoop_dot t st (by rw [hread]; exact hret) (by rw [hread]; exact hdot), hread]
  | case2 st r read hret hdot ih =>
    have hread := smfInternalReadline_map h MAXLINE r
    rw [dataLoop_line t st (by rw [hread]; exact hret) (by rw [hread]; simpa using hdot), hread]
    exact ih
  | case3 st r read hret =>
    have hread := smfInternalReadline_map h MAXLINE r
    rw [dataLoop_end t st (by rw [hread]; exact Int.not_lt.1 hret), hread]

/-- An invariant of the single answers is an invariant of the DATA loop. -/
theorem dataLoop_preserves {P : R → Prop} (h : Source.Preserves s P) (st : DataState) {r : R}
    (hr : P r) : P (dataLoop s st r).reader := by
  fun_induction dataLoop s st r with
  | case1 st r read hret hdot => exact smfInternalReadline_preserves h MAXLINE hr
  | case2 st r read hret hdot ih => exact ih (smfInternalReadline_preserves h MAXLINE hr)
  | case3 st r read hret => exact smfInternalReadline_preserves h MAXLINE hr

end Map

/-! ## The tests for a dot -/

theorem isDotLine_iff (buf : Bytes) :
    isDotLine buf = true ↔
      (cstr buf).take 3 = [DOT, CR, LF] ∨ (cstr buf).take 2 = [DOT, LF] := by
  rw [isDotLine, hasPrefixNoCase_eq _ (by simp [DOT, CR, LF]),
    hasPrefixNoCase_eq _ (by simp [DOT, LF]), Bool.or_eq_true, hasPrefix, hasPrefix, beq_iff_eq,
    beq_iff_eq]
  rfl

/-- A text that starts with a dot line starts with a dot. -/
theorem head?_of_isDotLine {buf : Bytes} (h : isDotLine buf = true) : buf.head? = some DOT := by
  have hcstr : (cstr buf).head? = some DOT := by
    rcases (isDotLine_iff buf).1 h with h | h
    · cases hs : cstr buf with
      | nil => rw [hs] at h; simp at h
      | cons b s => rw [hs] at h; simp at h; simp [h.1]
    · cases hs : cstr buf with
      | nil => rw [hs] at h; simp at h
      | cons b s => rw [hs] at h; simp at h; simp [h.1]
  cases buf with
  | nil => simp [cstr] at hcstr
  | cons b buf =>
    by_cases hb : b = 0
    · simp [cstr, hb] at hcstr
    · simpa [cstr, hb] using hcstr

/-- Without NUL the text is the buffer, less a dot at its front. -/
theorem dataText_of_noNul {buf : Bytes} (h : (0 : UInt8) ∉ buf) :
    dataText buf = if buf.head? = some DOT then buf.tail else buf := by
  rw [dataText, hasPrefixNoCase_eq _ (by simp [DOT]), hasPrefix, cstr_of_noNul h]
  cases buf with
  | nil => rfl
  | cons b buf =>
    by_cases hb : b = DOT
    · simp [smfSmtpdStuffing, hb]
    · simp [hb]

/-! ## Lines and pieces -/

/-- A line of a message: a text without line feed, and the line feed. -/
structure Line where
  text : Bytes
  noLf : LF ∉ text

/-- The bytes of a line. -/
def Line.bytes (line : Line) : Bytes :=
  line.text ++ [LF]

/-- The line that ends a message: a dot alone, before `LF` or `CRLF`. -/
def Line.isDot (line : Line) : Prop :=
  line.text = [DOT] ∨ line.text = [DOT, CR]

instance (line : Line) : Decidable line.isDot :=
  inferInstanceAs (Decidable (_ ∨ _))

/-- The dot line that a client sends. -/
def crlfDot : Line where
  text := [DOT, CR]
  noLf := by decide

/-- The bytes of a list of lines. -/
def linesBytes (lines : List Line) : Bytes :=
  (lines.map Line.bytes).flatten

@[simp] theorem linesBytes_nil : linesBytes [] = [] := rfl

theorem linesBytes_cons (line : Line) (lines : List Line) :
    linesBytes (line :: lines) = line.bytes ++ linesBytes lines := rfl

/-- What the reader stores at once: a line that fits, or a full buffer. -/
inductive IsPiece : Bytes → Prop where
  | line (p : Bytes) (hlf : LF ∉ p) (hlen : p.length < MAXLINE - 1) : IsPiece (p ++ [LF])
  | full (p : Bytes) (hlf : LF ∉ p) (hlen : p.length = MAXLINE - 1) : IsPiece p

/-- What the reader returns for a piece.  A full buffer counts one more. -/
def pieceRet (p : Bytes) : Nat :=
  if p.getLast? = some LF then p.length else p.length + 1

/-- The same for some pieces, added up. -/
def piecesRet : List Bytes → Nat
  | [] => 0
  | p :: ps => pieceRet p + piecesRet ps

/-- The reader takes a piece at a time. -/
theorem smfInternalReadline_piece {p : Bytes} (h : IsPiece p) (rest : Wire) :
    smfInternalReadline (Source.tokens UInt8) MAXLINE (bytesWire p ++ rest) =
      (⟨pieceRet p, p⟩, rest) := by
  cases h with
  | line p hlf hlen =>
    have hread := smfInternalReadline_line (k := MAXLINE - 1) rest hlf hlen
    rw [pieceRet, if_pos (by simp)]
    exact hread
  | full p hlf hlen =>
    have hread := smfInternalReadline_full (k := MAXLINE - 1) rest hlf hlen
    have hlast : p.getLast? ≠ some LF := fun h => hlf (List.mem_of_getLast? h)
    rw [pieceRet, if_neg hlast]
    exact hread

/-- The pieces of one line. -/
def Line.pieces (line : Line) : List Bytes :=
  chunks (MAXLINE - 2) line.bytes

/-- The pieces of a message. -/
def pieces (lines : List Line) : List Bytes :=
  lines.flatMap Line.pieces

private theorem isPiece_of_mem_aux (n : Nat) :
    ∀ text : Bytes, text.length < n → LF ∉ text →
      ∀ p ∈ chunks (MAXLINE - 2) (text ++ [LF]), IsPiece p := by
  induction n with
  | zero =>
    intro text hlen
    omega
  | succ n ih =>
    intro text hlen hlf p hp
    by_cases hfits : text.length < MAXLINE - 1
    · rw [chunks_of_length_le _ (by simp) (by simp; omega), List.mem_singleton] at hp
      rw [hp]
      exact .line text hlf hfits
    · have hmax : MAXLINE - 1 = MAXLINE - 2 + 1 := rfl
      have htake : (text.take (MAXLINE - 1)).length = MAXLINE - 2 + 1 := by
        rw [List.length_take]
        omega
      have hsplit : text ++ [LF] =
          text.take (MAXLINE - 1) ++ (text.drop (MAXLINE - 1) ++ [LF]) := by
        rw [← List.append_assoc, List.take_append_drop]
      rw [hsplit, chunks_append _ htake, List.mem_cons] at hp
      rcases hp with rfl | hp
      · exact .full _ (fun h => hlf (List.mem_of_mem_take h)) htake
      · refine ih _ ?_ (fun h => hlf (List.mem_of_mem_drop h)) p hp
        rw [List.length_drop]
        omega

theorem isPiece_of_mem_line {line : Line} {p : Bytes} (hp : p ∈ line.pieces) : IsPiece p :=
  isPiece_of_mem_aux (line.text.length + 1) line.text (by omega) line.noLf p hp

theorem isPiece_of_mem {lines : List Line} {p : Bytes} (hp : p ∈ pieces lines) : IsPiece p := by
  obtain ⟨line, _, hp⟩ := List.mem_flatMap.1 hp
  exact isPiece_of_mem_line hp

theorem pieces_flatten (lines : List Line) : (pieces lines).flatten = linesBytes lines := by
  induction lines with
  | nil => rfl
  | cons line lines ih =>
    rw [pieces, List.flatMap_cons, List.flatten_append, Line.pieces, chunks_flatten,
      linesBytes_cons, ← ih]
    rfl

theorem isPiece_ne_nil {p : Bytes} (h : IsPiece p) : p ≠ [] := by
  cases h with
  | line p => simp
  | full p hlf hlen =>
    intro hnil
    rw [hnil] at hlen
    simp [MAXLINE] at hlen

/-- The line that ends a message is one piece, and a dot line. -/
theorem Line.isDot_piece {line : Line} (h : line.isDot) :
    IsPiece line.bytes ∧ isDotLine line.bytes = true := by
  rw [Line.bytes]
  rcases h with h | h <;> rw [h]
  · exact ⟨.line [DOT] (by decide) (by decide), by decide⟩
  · exact ⟨.line [DOT, CR] (by decide) (by decide), by decide⟩

theorem isPiece_of_mem_message (lines : List Line) {dot : Line} (hdot : dot.isDot) :
    ∀ q ∈ pieces lines ++ [dot.bytes], IsPiece q := by
  intro q hq
  rcases List.mem_append.1 hq with hq | hq
  · exact isPiece_of_mem hq
  · rw [List.mem_singleton.1 hq]
    exact (Line.isDot_piece hdot).1

/-! ## The loop over pieces -/

/-- The turn of the loop for one piece. -/
def spoolPiece (st : DataState) (p : Bytes) : DataState :=
  dataLine st (pieceRet p) p

section Pieces

variable (st : DataState) (rest : Wire)

theorem pieceRet_pos {p : Bytes} (h : IsPiece p) : 0 < pieceRet p := by
  have hpos := List.length_pos_of_ne_nil (isPiece_ne_nil h)
  unfold pieceRet
  split <;> omega

/-- A piece that is a dot line stops the loop. -/
theorem dataLoop_dotPiece {p : Bytes} (h : IsPiece p) (hdot : isDotLine p = true) :
    dataLoop (Source.tokens UInt8) st (bytesWire p ++ rest) = ⟨st, pieceRet p, rest⟩ := by
  have hread := smfInternalReadline_piece h rest
  have hpos := pieceRet_pos h
  rw [dataLoop_dot _ st (by rw [hread]; exact Int.natCast_pos.2 hpos) (by rw [hread]; exact hdot),
    hread]

/-- Pieces that are no dot line are spooled. -/
theorem dataLoop_pieces (ps : List Bytes) (hps : ∀ p ∈ ps, IsPiece p)
    (hdot : ∀ p ∈ ps, isDotLine p = false) :
    dataLoop (Source.tokens UInt8) st (bytesWire ps.flatten ++ rest) =
      dataLoop (Source.tokens UInt8) (ps.foldl spoolPiece st) rest := by
  induction ps generalizing st with
  | nil => rfl
  | cons p ps ih =>
    have hp := hps p (by simp)
    have hpos := pieceRet_pos hp
    have hread := smfInternalReadline_piece hp (bytesWire ps.flatten ++ rest)
    rw [bytesWire_flatten_cons, List.append_assoc,
      dataLoop_line _ st (by rw [hread]; exact Int.natCast_pos.2 hpos)
        (by rw [hread]; exact hdot p (by simp)), hread]
    exact ih _ (fun q hq => hps q (by simp [hq])) (fun q hq => hdot q (by simp [hq]))

/-- The loop stops at the first piece that is a dot line. -/
theorem dataLoop_firstDot {before after : List Bytes} {p : Bytes}
    (hps : ∀ q ∈ before ++ p :: after, IsPiece q)
    (hbefore : ∀ q ∈ before, isDotLine q = false) (hp : isDotLine p = true) :
    dataLoop (Source.tokens UInt8) st (bytesWire (before ++ p :: after).flatten ++ rest) =
      ⟨before.foldl spoolPiece st, pieceRet p, bytesWire after.flatten ++ rest⟩ := by
  rw [List.flatten_append, List.flatten_cons, bytesWire_append, bytesWire_append,
    List.append_assoc, List.append_assoc,
    dataLoop_pieces _ _ _ (fun q hq => hps q (by simp [hq])) hbefore,
    dataLoop_dotPiece _ _ (hps p (by simp)) hp]

theorem foldl_spoolPiece_spool (ps : List Bytes) :
    (ps.foldl spoolPiece st).spool = st.spool ++ (ps.map dataText).flatten := by
  induction ps generalizing st with
  | nil => simp
  | cons p ps ih =>
    rw [List.foldl_cons, ih, List.map_cons, List.flatten_cons, ← List.append_assoc]
    rfl

theorem foldl_spoolPiece_messageSize (ps : List Bytes) :
    (ps.foldl spoolPiece st).messageSize = st.messageSize + piecesRet ps := by
  induction ps generalizing st with
  | nil => rfl
  | cons p ps ih =>
    rw [List.foldl_cons, ih, piecesRet, ← Nat.add_assoc]
    rfl

end Pieces

end Spmfilter
