import Spmfilter.Smtpd.DataLoop

/-!
# Dots at the start of a line

The DATA loop takes a dot from the front of a piece and ends the message at a
piece that is a dot line.  It does not know whether the piece is the start of a
line.

* `Line.unstuffed` is what a line stands for, and `Line.stuff` is how a client
  sends it.
* `dataLoop_respectsLines` says exactly when the loop treats the lines of a
  message as lines: no line may carry a dot at an offset where the reader cuts.
* `dataLoop_stuffed` is the round trip for lines that are not cut.
-/

namespace Spmfilter

open CString Chunks

/-- The bytes of a line without the dot at its front. -/
def Line.unstuffed (line : Line) : Bytes :=
  if line.bytes.head? = some DOT then line.bytes.tail else line.bytes

/-- A line as a client sends it: one more dot before a line that starts with
one. -/
def Line.stuff (line : Line) : Line where
  text := if line.text.head? = some DOT then DOT :: line.text else line.text
  noLf := by
    have hdot : LF ≠ DOT := by decide
    split
    · simp [hdot, line.noLf]
    · exact line.noLf

/-! ## Which pieces are dot lines -/

theorem Line.bytes_ne_nil (line : Line) : line.bytes ≠ [] := by
  simp [Line.bytes]

/-- A line that fits is one piece. -/
theorem Line.pieces_of_fits {line : Line} (h : line.bytes.length ≤ MAXLINE - 1) :
    line.pieces = [line.bytes] :=
  chunks_of_length_le _ line.bytes_ne_nil h

/-- The pieces of a line: one that starts where the line starts, and the rest. -/
theorem Line.pieces_eq (line : Line) :
    ∃ p ps, line.pieces = p :: ps ∧ p ++ ps.flatten = line.bytes ∧
      p.head? = line.bytes.head? := by
  have hflat := chunks_flatten (MAXLINE - 2) line.bytes
  obtain ⟨b, rest, hb⟩ := List.exists_cons_of_ne_nil line.bytes_ne_nil
  rw [Line.pieces, hb, chunks_cons]
  refine ⟨_, _, rfl, ?_, rfl⟩
  rw [hb, chunks_cons] at hflat
  exact hflat

/-- A line that starts with a dot line is one. -/
theorem Line.isDot_of_prefix {line : Line} {p more : Bytes} (hp : isDotLine p = true)
    (hline : p ++ more = line.bytes) : line.isDot := by
  have hstart : ∀ q : Bytes, (cstr p).take q.length = q → q <+: line.bytes := by
    intro q hq
    have h1 : q <+: cstr p := hq ▸ List.take_prefix _ _
    have h2 : cstr p <+: p := List.takeWhile_prefix _
    exact (h1.trans h2).trans ⟨more, hline⟩
  have hlf : ∀ a : Bytes, LF ∉ a → a ++ [LF] <+: line.bytes → line.text = a := by
    intro a ha ⟨t, ht⟩
    have hindex : ∀ s r : Bytes, LF ∉ s → (s ++ LF :: r).idxOf LF = s.length := by
      intro s r hs
      rw [List.idxOf_append_of_notMem hs, List.idxOf_cons_self, Nat.add_zero]
    have h1 := hindex a t ha
    have h2 := hindex line.text [] line.noLf
    have heq : a ++ LF :: t = line.text ++ [LF] := by
      rw [← Line.bytes, ← ht, List.append_assoc]
      rfl
    have hlen : a.length = line.text.length := by
      rw [← h1, heq, h2]
    exact (List.append_inj heq hlen).1.symm
  rcases (isDotLine_iff p).1 hp with h | h
  · exact Or.inr (hlf [DOT, CR] (by decide) (hstart [DOT, CR, LF] h))
  · exact Or.inl (hlf [DOT] (by decide) (hstart [DOT, LF] h))

/-- No piece behind the first starts with a dot. -/
def Line.cutsCleanly (line : Line) : Prop :=
  ∀ p ∈ line.pieces.tail, p.head? ≠ some DOT

theorem Line.cutsCleanly_iff (line : Line) :
    line.cutsCleanly ↔ ∀ j, 0 < j → line.bytes[(MAXLINE - 1) * j]? ≠ some DOT := by
  have hcut := mem_tail_chunks_iff (MAXLINE - 2) line.bytes DOT
  constructor
  · intro h j hj hdot
    obtain ⟨p, hp, hhead⟩ := hcut.2 ⟨j, hj, hdot⟩
    exact h p hp hhead
  · intro h p hp hhead
    obtain ⟨j, hj, hdot⟩ := hcut.1 ⟨p, hp, hhead⟩
    exact h j hj hdot

/-- A line that fits has no byte where the reader cuts. -/
theorem Line.cutsCleanly_of_fits {line : Line} (hfits : line.bytes.length ≤ MAXLINE - 1) :
    line.cutsCleanly := by
  apply line.cutsCleanly_iff.2
  intro j hj hget
  have hlt := (List.getElem?_eq_some_iff.1 hget).1
  have hmul : (MAXLINE - 1) * 1 ≤ (MAXLINE - 1) * j := Nat.mul_le_mul_left _ hj
  omega

/-- A line that is cut cleanly has no piece that is a dot line, unless it is one
itself. -/
theorem Line.no_dotPiece {line : Line} (hcut : line.cutsCleanly) (hdot : ¬ line.isDot)
    {p : Bytes} (hp : p ∈ line.pieces) : isDotLine p = false := by
  obtain ⟨first, ps, hpieces, hbytes, _⟩ := line.pieces_eq
  rw [Line.cutsCleanly, hpieces, List.tail_cons] at hcut
  rw [hpieces, List.mem_cons] at hp
  by_contra hne
  have htrue : isDotLine p = true := by simpa using hne
  rcases hp with rfl | hp
  · exact hdot (Line.isDot_of_prefix htrue hbytes)
  · exact hcut p hp (head?_of_isDotLine htrue)

/-! ## What is spooled for a line -/

theorem dataText_eq_self {p : Bytes} (hnul : (0 : UInt8) ∉ p) (h : p.head? ≠ some DOT) :
    dataText p = p := by
  rw [dataText_of_noNul hnul, if_neg h]

/-- The text of a piece, from its first byte. -/
theorem dataText_cons {b : UInt8} (hb : b ≠ 0) (p : Bytes) :
    dataText (b :: p) = if b = DOT then cstr p else b :: cstr p := by
  have hcstr : cstr (b :: p) = b :: cstr p := by simp [cstr, hb]
  rw [dataText, hasPrefixNoCase_eq _ (by simp [DOT]), hasPrefix, hcstr]
  by_cases hdot : b = DOT
  · simp [smfSmtpdStuffing, hdot]
  · simp [hdot]

/-- A piece that holds a NUL loses more than the dot at its front. -/
theorem dataText_length (p : Bytes) :
    (dataText p).length ≤ (if p.head? = some DOT then p.tail else p).length ∧
      ((dataText p).length = (if p.head? = some DOT then p.tail else p).length →
        (0 : UInt8) ∉ p) := by
  cases p with
  | nil => exact ⟨Nat.le_refl _, fun _ => by simp⟩
  | cons b p =>
    by_cases hb : b = 0
    · have hnil : dataText (b :: p) = [] := by rw [hb]; rfl
      rw [hnil, if_neg (by rw [hb]; simp [DOT])]
      exact ⟨Nat.zero_le _, fun h => by cases h⟩
    · have hle := cstr_length_le p
      rw [dataText_cons hb, List.head?_cons, List.tail_cons]
      by_cases hdot : b = DOT
      · rw [if_pos hdot, if_pos (congrArg some hdot)]
        refine ⟨hle, fun h => ?_⟩
        rw [List.mem_cons, not_or]
        exact ⟨Ne.symm hb, noNul_of_cstr_length h⟩
      · rw [if_neg hdot, if_neg (fun h => hdot (Option.some.inj h)), List.length_cons,
          List.length_cons]
        refine ⟨by omega, fun h => ?_⟩
        rw [List.mem_cons, not_or]
        exact ⟨Ne.symm hb, noNul_of_cstr_length (by omega)⟩

/-- Pieces lose bytes when one of them starts with a dot or holds a NUL, and only then. -/
theorem dataText_pieces (ps : List Bytes) :
    (ps.map dataText).flatten.length ≤ ps.flatten.length ∧
      ((ps.map dataText).flatten.length = ps.flatten.length →
        ∀ p ∈ ps, (0 : UInt8) ∉ p ∧ p.head? ≠ some DOT) := by
  induction ps with
  | nil => simp
  | cons p ps ih =>
    obtain ⟨hle, heq⟩ := ih
    obtain ⟨hple, hpeq⟩ := dataText_length p
    -- the text of a piece with a dot at its front is shorter
    have hshort : (if p.head? = some DOT then p.tail else p).length ≤ p.length ∧
        (p.head? = some DOT →
          (if p.head? = some DOT then p.tail else p).length < p.length) := by
      cases p with
      | nil => exact ⟨Nat.le_refl _, fun h => by cases h⟩
      | cons b p =>
        constructor
        · split <;> simp
        · intro h
          rw [if_pos h]
          simp
    rw [List.map_cons, List.flatten_cons, List.flatten_cons, List.length_append,
      List.length_append]
    refine ⟨by omega, fun hsum q hq => ?_⟩
    rcases List.mem_cons.1 hq with rfl | hq
    · refine ⟨hpeq (by omega), fun hhead => ?_⟩
      have hlt := hshort.2 hhead
      omega
    · exact heq (by omega) q hq

theorem dataText_pieces_eq (ps : List Bytes) (hnul : ∀ p ∈ ps, (0 : UInt8) ∉ p)
    (h : ∀ p ∈ ps, p.head? ≠ some DOT) : (ps.map dataText).flatten = ps.flatten := by
  congr 1
  calc ps.map dataText = ps.map id :=
        List.map_congr_left fun p hp => dataText_eq_self (hnul p hp) (h p hp)
    _ = ps := List.map_id ps

theorem Line.noNul_pieces {line : Line} :
    (∀ p ∈ line.pieces, (0 : UInt8) ∉ p) ↔ (0 : UInt8) ∉ line.text := by
  have hflat : (∃ p ∈ line.pieces, (0 : UInt8) ∈ p) ↔ (0 : UInt8) ∈ line.text := by
    have hbytes : (0 : UInt8) ∈ line.pieces.flatten ↔ (0 : UInt8) ∈ line.text := by
      rw [Line.pieces, chunks_flatten, Line.bytes]
      simp [LF]
    rw [← hbytes, List.mem_flatten]
  rw [← hflat]
  simp

/-- A line that holds no NUL and is cut cleanly is spooled without its stuffing, and any other
line loses more than that. -/
theorem Line.spooled (line : Line) :
    (line.pieces.map dataText).flatten.length ≤ line.unstuffed.length ∧
      ((line.pieces.map dataText).flatten.length = line.unstuffed.length →
        (0 : UInt8) ∉ line.text ∧ line.cutsCleanly) ∧
      ((0 : UInt8) ∉ line.text → line.cutsCleanly →
        (line.pieces.map dataText).flatten = line.unstuffed) := by
  obtain ⟨p, ps, hpieces, hbytes, hhead⟩ := line.pieces_eq
  have hne : p ≠ [] := by
    rintro rfl
    rw [List.head?_nil] at hhead
    exact line.bytes_ne_nil (List.head?_eq_none_iff.mp hhead.symm)
  have hunstuffed : line.unstuffed =
      (if p.head? = some DOT then p.tail else p) ++ ps.flatten := by
    rw [Line.unstuffed, ← hhead, ← hbytes]
    split
    · exact List.tail_append_of_ne_nil hne
    · rfl
  obtain ⟨hple, hpeq⟩ := dataText_length p
  obtain ⟨hle, heq⟩ := dataText_pieces ps
  have hcut : line.cutsCleanly ↔ ∀ q ∈ ps, q.head? ≠ some DOT := by
    rw [Line.cutsCleanly, hpieces, List.tail_cons]
  rw [← Line.noNul_pieces, hcut, hpieces, List.map_cons, List.flatten_cons, hunstuffed,
    List.length_append, List.length_append]
  refine ⟨by omega, fun hsum => ?_, fun hnul hclean => ?_⟩
  · have hrest := heq (by omega)
    refine ⟨fun q hq => ?_, fun q hq => (hrest q hq).2⟩
    rcases List.mem_cons.1 hq with rfl | hq
    · exact hpeq (by omega)
    · exact (hrest q hq).1
  · rw [dataText_of_noNul (hnul p (by simp)),
      dataText_pieces_eq ps (fun q hq => hnul q (by simp [hq])) hclean]

/-- The same for a whole message. -/
theorem lines_spooled (lines : List Line) :
    ((pieces lines).map dataText).flatten.length ≤
        ((lines.map Line.unstuffed).flatten).length ∧
      (((pieces lines).map dataText).flatten.length =
          ((lines.map Line.unstuffed).flatten).length →
        ∀ line ∈ lines, (0 : UInt8) ∉ line.text ∧ line.cutsCleanly) ∧
      ((∀ line ∈ lines, (0 : UInt8) ∉ line.text) → (∀ line ∈ lines, line.cutsCleanly) →
        ((pieces lines).map dataText).flatten = (lines.map Line.unstuffed).flatten) := by
  induction lines with
  | nil => simp [pieces]
  | cons line lines ih =>
    obtain ⟨hle, heq, hclean⟩ := line.spooled
    obtain ⟨ihle, iheq, ihclean⟩ := ih
    have hpieces : pieces (line :: lines) = line.pieces ++ pieces lines := rfl
    rw [hpieces, List.map_append, List.flatten_append, List.map_cons, List.flatten_cons,
      List.length_append, List.length_append]
    refine ⟨by omega, fun hsum l hl => ?_, fun hnul hall => ?_⟩
    · rcases List.mem_cons.1 hl with rfl | hl
      · exact heq (by omega)
      · exact iheq (by omega) l hl
    · rw [hclean (hnul line (by simp)) (hall line (by simp)),
        ihclean (fun l hl => hnul l (by simp [hl])) (fun l hl => hall l (by simp [hl]))]

/-! ## The loop on a message -/

section Loop

variable (st : DataState) {lines : List Line} {dot : Line} (rest : Wire)

/-- When every line is cut cleanly, the loop stops at the dot line that ends
the message. -/
theorem dataLoop_clean (hdots : ∀ line ∈ lines, ¬ line.isDot) (hdot : dot.isDot)
    (hcut : ∀ line ∈ lines, line.cutsCleanly) :
    dataLoop (Source.tokens UInt8) st (bytesWire (linesBytes lines ++ dot.bytes) ++ rest) =
      ⟨(pieces lines).foldl spoolPiece st, pieceRet dot.bytes, rest⟩ := by
  have hend := Line.isDot_piece hdot
  have hno : ∀ p ∈ pieces lines, isDotLine p = false := by
    intro p hp
    obtain ⟨line, hline, hp⟩ := List.mem_flatMap.1 hp
    exact Line.no_dotPiece (hcut line hline) (hdots line hline) hp
  have hps := isPiece_of_mem_message lines hdot
  have hloop := dataLoop_firstDot st rest hps hno hend.2
  rw [List.flatten_append, pieces_flatten, List.flatten_singleton] at hloop
  rw [hloop]
  rfl

/-- The loop stops at some piece of a message, the dot line that ends it at the latest. -/
theorem dataLoop_stops (lines : List Line) (hdot : dot.isDot) :
    ∃ before p after, pieces lines ++ [dot.bytes] = before ++ p :: after ∧
      (∀ q ∈ before ++ p :: after, IsPiece q) ∧ isDotLine p = true ∧
      dataLoop (Source.tokens UInt8) st (bytesWire (linesBytes lines ++ dot.bytes) ++ rest) =
        ⟨before.foldl spoolPiece st, pieceRet p, bytesWire after.flatten ++ rest⟩ := by
  have hend := Line.isDot_piece hdot
  have hps := isPiece_of_mem_message lines hdot
  obtain ⟨p, hfind⟩ : ∃ p, (pieces lines ++ [dot.bytes]).find? isDotLine = some p :=
    Option.isSome_iff_exists.1 (List.find?_isSome.2 ⟨dot.bytes, by simp, hend.2⟩)
  obtain ⟨hp, before, after, hsplit, hbefore⟩ := List.find?_eq_some_iff_append.1 hfind
  have hbytes : linesBytes lines ++ dot.bytes = (before ++ p :: after).flatten := by
    rw [← hsplit, List.flatten_append, pieces_flatten, List.flatten_singleton]
  rw [hsplit] at hps
  refine ⟨before, p, after, hsplit, hps, hp, ?_⟩
  rw [hbytes]
  exact dataLoop_firstDot st rest hps (fun q hq => by simpa using hbefore q hq) hp

/-- The loop stops in front of the rest of the stream only when no piece of the
message is a dot line. -/
theorem dataLoop_reader_rest (hdot : dot.isDot)
    (h : (dataLoop (Source.tokens UInt8) st
      (bytesWire (linesBytes lines ++ dot.bytes) ++ rest)).reader = rest) :
    dataLoop (Source.tokens UInt8) st (bytesWire (linesBytes lines ++ dot.bytes) ++ rest) =
      ⟨(pieces lines).foldl spoolPiece st, pieceRet dot.bytes, rest⟩ := by
  obtain ⟨before, p, after, hsplit, hps, _, hloop⟩ := dataLoop_stops st rest lines hdot
  rw [hloop] at h
  -- nothing is left of the message, so the dot line was its last piece
  have hnil : after = [] := by
    cases after with
    | nil => rfl
    | cons q after =>
      have hlen := congrArg List.length h
      have hpos := List.length_pos_of_ne_nil (isPiece_ne_nil (hps q (by simp)))
      rw [List.flatten_cons, List.length_append, bytesWire_length, List.length_append] at hlen
      omega
  rw [hnil] at hsplit
  obtain ⟨hlines, hpdot⟩ := List.append_inj' hsplit rfl
  rw [hloop, hnil, hlines, List.cons.inj hpdot |>.1]
  rfl

end Loop

section Socket

variable (st : DataState) {lines : List Line} {rest : Wire} {r : ReadlineT × Socket}

/-- The loop ends a message at its dot line, and takes out the dots at the
start of its lines and no others, exactly when no line has a dot at an offset
that is a multiple of `MAXLINE - 1`. -/
theorem dataLoop_respectsLines {dot : Line}
    (hwire : wireOf r = bytesWire (linesBytes lines ++ dot.bytes) ++ rest)
    (hnul : ∀ line ∈ lines, (0 : UInt8) ∉ line.text)
    (hdots : ∀ line ∈ lines, ¬ line.isDot) (hdot : dot.isDot) :
    (wireOf (dataLoop socketSource st r).reader = rest ∧
        (dataLoop socketSource st r).state.spool =
          st.spool ++ (lines.map Line.unstuffed).flatten) ↔
      ∀ line ∈ lines, ∀ j, 0 < j → line.bytes[(MAXLINE - 1) * j]? ≠ some DOT := by
  have hloop := dataLoop_map socketSource_hom st r
  rw [hwire] at hloop
  obtain ⟨_, hspooled, hclean⟩ := lines_spooled lines
  constructor
  · intro h line hline
    obtain ⟨hreader, hspool⟩ := h
    have hstop := dataLoop_reader_rest st rest hdot (by rw [hloop]; exact hreader)
    rw [hstop] at hloop
    have hstate := congrArg (fun result => result.state.spool) hloop
    dsimp only at hstate
    rw [foldl_spoolPiece_spool, hspool, List.append_cancel_left_eq] at hstate
    exact line.cutsCleanly_iff.1 (hspooled (congrArg List.length hstate) line hline).2
  · intro hoffsets
    have hcut : ∀ line ∈ lines, line.cutsCleanly :=
      fun line hline => line.cutsCleanly_iff.2 (hoffsets line hline)
    rw [dataLoop_clean st rest hdots hdot hcut] at hloop
    refine ⟨(congrArg DataLoopResult.reader hloop).symm, ?_⟩
    rw [← congrArg DataLoopResult.state hloop, foldl_spoolPiece_spool, hclean hnul hcut]

/-- A message of one line that is read in two pieces. -/
theorem dataLoop_respectsLines_long :
    ∃ r : ReadlineT × Socket,
      wireOf r = bytesWire (DOT :: List.replicate 2000 97 ++ [CR, LF] ++ [DOT, CR, LF]) ∧
        wireOf (dataLoop socketSource {} r).reader = [] ∧
        (dataLoop socketSource {} r).state.spool = List.replicate 2000 97 ++ [CR, LF] := by
  obtain ⟨p, hp, hne, hfits⟩ : ∃ p : Bytes, p = List.replicate 1000 97 ∧ p ≠ [] ∧
      p.length ≤ 1000 :=
    ⟨_, rfl, by decide, Nat.le_of_eq List.length_replicate⟩
  have hletter : ∀ b ∈ p, b = 97 := fun b hb => List.eq_of_mem_replicate (hp ▸ hb)
  have htwice : List.replicate 2000 97 = p ++ p := by
    rw [hp, List.replicate_append_replicate]
  have hfree : ∀ c : UInt8, c ≠ 97 → c ∉ p := fun c hc hmem => hc (hletter c hmem)
  have hcut : BUFSIZE = 1024 := rfl
  rw [htwice]
  let line : Line := ⟨DOT :: (p ++ p) ++ [CR], by
    simp [hfree LF (by decide), show LF ≠ DOT by decide, show LF ≠ CR by decide]⟩
  let r : ReadlineT × Socket :=
    ({}, [.data (DOT :: p) (List.cons_ne_nil _ _) (by rw [List.length_cons]; omega),
      .data p hne (by omega), .data [CR, LF, DOT, CR, LF] (by decide) (by decide)])
  have hwire : wireOf r = bytesWire (linesBytes [line] ++ crlfDot.bytes) ++ [] := by
    simp [r, line, wireOf, Socket.wire, bytesWire, linesBytes, Line.bytes, crlfDot]
  have hnul : (0 : UInt8) ∉ line.text := by
    simp [line, hfree 0 (by decide), show (0 : UInt8) ≠ DOT by decide,
      show (0 : UInt8) ≠ CR by decide]
  have hdot : ¬ line.isDot := by
    have hlength : line.text.length = 2 + (p ++ p).length := by
      simp [line]
      omega
    have hpos := List.length_pos_of_ne_nil (List.append_ne_nil_of_left_ne_nil hne p)
    rintro (h | h)
    · rw [h, List.length_singleton] at hlength
      omega
    · rw [h, List.length_cons, List.length_singleton] at hlength
      omega
  have hoffsets : ∀ j, 0 < j → line.bytes[(MAXLINE - 1) * j]? ≠ some DOT := by
    intro j hj hdot
    have hmax : MAXLINE - 1 = 1023 := rfl
    obtain ⟨k, hk⟩ : ∃ k, (MAXLINE - 1) * j = k + 1 := ⟨1023 * j - 1, by rw [hmax]; omega⟩
    rw [hk] at hdot
    have hmem : DOT ∈ p ++ p ++ [CR] ++ [LF] := List.mem_of_getElem? hdot
    simp [hfree DOT (by decide), show DOT ≠ CR by decide, show DOT ≠ LF by decide] at hmem
  obtain ⟨hreader, hspool⟩ := (@dataLoop_respectsLines {} [line] [] r crlfDot hwire
    (by simpa using hnul) (by simpa using hdot) (Or.inr rfl)).2 (by simpa using hoffsets)
  refine ⟨r, ?_, hreader, ?_⟩
  · rw [hwire]
    simp [linesBytes, Line.bytes, line, crlfDot]
  · rw [hspool]
    simp [Line.unstuffed, Line.bytes, line]

/-- A line of 1023 letters and a dot: the loop ends the message inside it and
leaves the real dot line to the command loop. -/
theorem dataLoop_endsInsideLine :
    ∃ (line : Line) (r : ReadlineT × Socket),
      line.text = List.replicate 1023 97 ++ [DOT, CR] ∧
        wireOf r = bytesWire (linesBytes [line] ++ crlfDot.bytes) ∧
        0 < (dataLoop socketSource {} r).br ∧
        wireOf (dataLoop socketSource {} r).reader = bytesWire [DOT, CR, LF] := by
  obtain ⟨p, hp, hlf, hlen, hletter⟩ : ∃ p : Bytes, p = List.replicate 1023 97 ∧ LF ∉ p ∧
      p.length = MAXLINE - 1 ∧ p.head? ≠ some DOT := by
    refine ⟨_, rfl, fun h => ?_, List.length_replicate, by decide⟩
    exact absurd (List.eq_of_mem_replicate h) (by decide)
  have hne : p ≠ [] := by
    intro hnil
    rw [hnil] at hlen
    exact absurd hlen (by decide)
  have hfits : p.length ≤ BUFSIZE := by
    rw [hlen]
    decide
  rw [← hp]
  let line : Line := ⟨p ++ [DOT, CR], by
    intro h
    rcases List.mem_append.1 h with h | h
    · exact hlf h
    · exact absurd h (by decide)⟩
  let r : ReadlineT × Socket := ({}, [.data p hne hfits,
    .data [DOT, CR, LF] (by decide) (by decide), .data [DOT, CR, LF] (by decide) (by decide)])
  have hwire : wireOf r =
      bytesWire ([p] ++ [DOT, CR, LF] :: [[DOT, CR, LF]]).flatten ++ [] := by
    simp [r, wireOf, Socket.wire, bytesWire]
  have hdotPiece : IsPiece [DOT, CR, LF] := .line [DOT, CR] (by decide) (by decide)
  have hps : ∀ q ∈ [p] ++ [DOT, CR, LF] :: [[DOT, CR, LF]], IsPiece q := by
    intro q hq
    rcases List.mem_append.1 hq with hq | hq
    · rw [List.mem_singleton.1 hq]
      exact .full p hlf hlen
    · rcases List.mem_cons.1 hq with rfl | hq
      · exact hdotPiece
      · rw [List.mem_singleton.1 hq]
        exact hdotPiece
  have hletters : ∀ q ∈ [p], isDotLine q = false := by
    intro q hq
    rw [List.mem_singleton.1 hq]
    by_contra hdot
    exact hletter (head?_of_isDotLine (by simpa using hdot))
  have hloop := dataLoop_firstDot {} [] hps hletters (by decide)
  rw [← hwire, dataLoop_map socketSource_hom] at hloop
  refine ⟨line, r, rfl, ?_, ?_, congrArg DataLoopResult.reader hloop⟩
  · rw [hwire]
    simp [linesBytes, Line.bytes, crlfDot, line]
  · have hbr := congrArg DataLoopResult.br hloop
    dsimp only at hbr
    rw [hbr]
    decide

/-! ## The round trip -/

theorem Line.stuff_bytes (line : Line) :
    line.stuff.bytes =
      if line.bytes.head? = some DOT then DOT :: line.bytes else line.bytes := by
  have hhead : line.bytes.head? = some DOT ↔ line.text.head? = some DOT := by
    rw [Line.bytes]
    cases line.text with
    | nil => decide
    | cons b text => simp
  rw [Line.bytes, Line.stuff]
  dsimp only
  by_cases h : line.text.head? = some DOT
  · rw [if_pos h, if_pos (hhead.2 h)]
    rfl
  · rw [if_neg h, if_neg (fun hb => h (hhead.1 hb))]
    rfl

theorem Line.stuff_unstuffed (line : Line) : line.stuff.unstuffed = line.bytes := by
  rw [Line.unstuffed, line.stuff_bytes]
  by_cases h : line.bytes.head? = some DOT
  · rw [if_pos h, List.head?_cons, if_pos rfl, List.tail_cons]
  · rw [if_neg h, if_neg h]

theorem Line.stuff_not_isDot (line : Line) : ¬ line.stuff.isDot := by
  have hcr : CR ≠ DOT := by decide
  intro h
  rw [Line.isDot, Line.stuff] at h
  dsimp only at h
  split at h
  · rename_i hhead
    rcases h with h | h
    · rw [(List.cons.inj h).2] at hhead
      cases hhead
    · rw [(List.cons.inj h).2] at hhead
      exact hcr (Option.some.inj hhead)
  · rename_i hhead
    rcases h with h | h
    · exact hhead (by rw [h]; rfl)
    · exact hhead (by rw [h]; rfl)

/-- Lines that fit into the buffer after stuffing come back as they were sent,
and the loop stops at the line `.` that follows them. -/
theorem dataLoop_stuffed
    (hwire : wireOf r = bytesWire (linesBytes (lines.map Line.stuff) ++ [DOT, CR, LF]) ++ rest)
    (hnul : ∀ line ∈ lines, (0 : UInt8) ∉ line.text)
    (hlen : ∀ line ∈ lines, line.stuff.bytes.length ≤ MAXLINE - 1) :
    0 < (dataLoop socketSource st r).br ∧
      wireOf (dataLoop socketSource st r).reader = rest ∧
      (dataLoop socketSource st r).state.spool = st.spool ++ linesBytes lines := by
  have hdot : crlfDot.isDot := Or.inr rfl
  have hloop := dataLoop_map socketSource_hom st r
  rw [hwire, show [DOT, CR, LF] = crlfDot.bytes from rfl] at hloop
  have hcut : ∀ line ∈ lines.map Line.stuff, line.cutsCleanly := by
    intro stuffed hmem
    obtain ⟨line, hline, rfl⟩ := List.mem_map.1 hmem
    exact Line.cutsCleanly_of_fits (hlen line hline)
  have hdots : ∀ line ∈ lines.map Line.stuff, ¬ line.isDot := by
    intro stuffed hmem
    obtain ⟨line, _, rfl⟩ := List.mem_map.1 hmem
    exact line.stuff_not_isDot
  have hnulStuffed : ∀ line ∈ lines.map Line.stuff, (0 : UInt8) ∉ line.text := by
    intro stuffed hmem
    obtain ⟨line, hline, rfl⟩ := List.mem_map.1 hmem
    have hzero : (0 : UInt8) ≠ DOT := by decide
    rw [Line.stuff]
    dsimp only
    split
    · simp [hzero, hnul line hline]
    · exact hnul line hline
  rw [dataLoop_clean st rest hdots hdot hcut] at hloop
  have hspool : ((lines.map Line.stuff).map Line.unstuffed).flatten = linesBytes lines := by
    rw [List.map_map, linesBytes]
    congr 1
    exact List.map_congr_left fun line _ => line.stuff_unstuffed
  refine ⟨?_, (congrArg DataLoopResult.reader hloop).symm, ?_⟩
  · rw [← congrArg DataLoopResult.br hloop]
    exact Int.natCast_pos.2 (pieceRet_pos (Line.isDot_piece hdot).1)
  · rw [← congrArg DataLoopResult.state hloop, foldl_spoolPiece_spool,
      (lines_spooled _).2.2 hnulStuffed hcut, hspool]

/-- A message of a dot alone and of an empty line. -/
theorem dataLoop_stuffed_dot :
    ∃ r : ReadlineT × Socket,
      wireOf r = bytesWire (ascii "..\r\n\n.\r\n") ∧
        wireOf (dataLoop socketSource {} r).reader = [] ∧
        (dataLoop socketSource {} r).state.spool = ascii ".\r\n\n" := by
  let r : ReadlineT × Socket := ({}, [.data (ascii "..\r\n\n.\r\n") (by decide) (by decide)])
  have hloop := @dataLoop_stuffed {} [crlfDot, ⟨[], by decide⟩] [] r rfl
    (by decide) (by decide)
  exact ⟨r, rfl, hloop.2⟩

end Socket

end Spmfilter
