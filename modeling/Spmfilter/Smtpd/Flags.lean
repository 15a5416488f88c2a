import Spmfilter.Message.Files
import Spmfilter.Smtpd.DotStuffing
import Spmfilter.Smtpd.Run

/-!
# Which header lines the DATA loop has seen

The flags of `smf_smtpd_process_data` and the header lines that they stand for.

`flagsAfter` computes the variables of the loop from the texts it has taken, without
running it.  `foldl_spoolPiece` shows that the loop has them at every point of a message.

* `addedFields` are the header lines that go in front of the message, and
  `completeHeaders_done` is the spool file with them.
* `addedFields_iff`: on lines that fit into the buffer a header line is added exactly when
  the message has none of that name.
* `addedFields_stuffed`: one byte less is left for a line that starts with a dot.
-/

namespace Spmfilter

open CString Chunks Stdio

/-! ## The four header lines -/

/-- The header lines that the engine wants every message to have. -/
inductive Field where
  | messageId
  | date
  | sender
  | recipients
  deriving DecidableEq

/-- How a line of this field starts, as the loop tests for it. -/
def Field.name : Field → Bytes
  | .messageId => ascii "Message-ID:"
  | .date => ascii "Date:"
  | .sender => ascii "From:"
  | .recipients => ascii "To:"

/-- The letter that it starts with. -/
def Field.initial : Field → UInt8
  | .messageId => 109
  | .date => 100
  | .sender => 102
  | .recipients => 116

theorem Field.name_cons (field : Field) :
    ∃ c lit, field.name = c :: lit ∧ tolower c = field.initial := by
  cases field
  · exact ⟨77, ascii "essage-ID:", by decide, by decide⟩
  · exact ⟨68, ascii "ate:", by decide, by decide⟩
  · exact ⟨70, ascii "rom:", by decide, by decide⟩
  · exact ⟨84, ascii "o:", by decide, by decide⟩

/-- What starts with the name starts with its first letter, in any case. -/
theorem Field.initial_of_prefix {field : Field} {text : Bytes}
    (h : hasPrefixNoCase text field.name = true) :
    ∃ b rest, text = b :: rest ∧ tolower b = field.initial := by
  obtain ⟨c, lit, hname, hc⟩ := field.name_cons
  rw [hname] at h
  cases text with
  | nil =>
    rw [hasPrefixNoCase_nil] at h
    cases h
  | cons b text =>
    rw [hasPrefixNoCase_cons, Bool.and_eq_true, beq_iff_eq, hc] at h
    exact ⟨b, text, rfl, h.1⟩

/-- The flag of the loop for this field. -/
def Field.found (st : DataState) : Field → Bool
  | .messageId => st.foundMid
  | .date => st.foundDate
  | .sender => st.foundFrom
  | .recipients => st.foundTo

/-- The fields in the order in which they are written. -/
def allFields : List Field := [.messageId, .date, .sender, .recipients]

theorem mem_allFields (field : Field) : field ∈ allFields := by
  cases field <;> decide

/-- The fields whose lines are put in front of a message. -/
def addedFields (st : DataState) : List Field :=
  allFields.filter fun field => !field.found st

theorem mem_addedFields {st : DataState} {field : Field} :
    field ∈ addedFields st ↔ field.found st = false := by
  rw [addedFields, List.mem_filter]
  simp [mem_allFields]

section

variable {M : Type} (env : DataEnv M) (session : Session) (st : DataState)

/-- The line of a field, with the line break `nl`. -/
def Field.line (nl : Bytes) : Field → Bytes
  | .messageId => ascii "Message-Id: " ++ env.messageId ++ nl
  | .date => ascii "Date: " ++ env.date ++ nl
  | .sender => ascii "From: " ++ session.envelope.sender.getD (ascii "(null)") ++ nl
  | .recipients => ascii "To: undisclosed-recipients:;" ++ nl

/-- The line break that `smf_smtpd_append_missing_headers` prints. -/
def DataState.lineBreak : Bytes := st.nl.getD (ascii "(null)")

/-- The text in front of a message: its missing lines, and a line break when nothing in the
message has looked like a header. -/
theorem missingHeaders_eq :
    missingHeaders env session st =
      (addedFields st).flatMap (Field.line env session st.lineBreak) ++
        if st.foundHeader then [] else st.lineBreak := by
  unfold missingHeaders addedFields allFields
  dsimp only
  cases hmid : st.foundMid <;> cases hdate : st.foundDate <;> cases hfrom : st.foundFrom <;>
    cases hto : st.foundTo <;>
    simp [hmid, hdate, hfrom, hto, Field.found, Field.line, DataState.lineBreak]

/-- Nothing is added when every flag is set. -/
theorem addedFields_eq_nil :
    addedFields st = [] ↔
      (st.foundMid && st.foundTo && st.foundFrom && st.foundDate) = true := by
  rw [List.eq_nil_iff_forall_not_mem]
  simp only [mem_addedFields, Bool.not_eq_false, Bool.and_eq_true]
  constructor
  · intro h
    exact ⟨⟨⟨h .messageId, h .recipients⟩, h .sender⟩, h .date⟩
  · rintro ⟨⟨⟨hmid, hto⟩, hfrom⟩, hdate⟩ field
    cases field
    · exact hmid
    · exact hdate
    · exact hfrom
    · exact hto

end

/-! ## The variables of the loop -/

/-- The tests that end the header for the loop. -/
def endsHeader (text : Bytes) : Bool :=
  hasPrefix text [LF] || hasPrefix text [CR, LF] || hasPrefix text [CR]

/-- The texts before the first that ends the header. -/
def headerTexts (texts : List Bytes) : List Bytes :=
  texts.takeWhile fun text => !endsHeader text

/-- One of the texts starts with the name of the field, in any case. -/
def Field.named (texts : List Bytes) (field : Field) : Bool :=
  texts.any fun text => hasPrefixNoCase text field.name

/-- A text that ends the header starts with no name. -/
theorem endsHeader_notNamed {text : Bytes} (h : endsHeader text = true) (field : Field) :
    hasPrefixNoCase text field.name = false := by
  have hhead : text.head? = some LF ∨ text.head? = some CR := by
    unfold endsHeader at h
    rw [Bool.or_eq_true, Bool.or_eq_true, hasPrefix_iff, hasPrefix_iff, hasPrefix_iff] at h
    rcases h with (⟨t, rfl⟩ | ⟨t, rfl⟩) | ⟨t, rfl⟩
    · exact Or.inl rfl
    · exact Or.inr rfl
    · exact Or.inr rfl
  rw [Bool.eq_false_iff]
  intro hprefix
  obtain ⟨b, rest, rfl, hb⟩ := Field.initial_of_prefix hprefix
  rcases hhead with hhead | hhead
  · obtain rfl := Option.some.inj hhead
    cases field <;> exact absurd hb (by decide)
  · obtain rfl := Option.some.inj hhead
    cases field <;> exact absurd hb (by decide)

/-- The variables of the loop after some texts. -/
structure FlagsAfter (st : DataState) (texts : List Bytes) (st' : DataState) : Prop where
  found : ∀ field : Field,
    field.found st' = (field.found st || (st.inHeader && field.named (headerTexts texts)))
  inHeader : st'.inHeader = (st.inHeader && !texts.any endsHeader)
  nl : st'.nl = st.nl.or (texts.findSome? smfInternalDetermineLinebreak)
  foundHeader : st'.foundHeader = (st.foundHeader || texts.any fun t => (strchr t 58).isSome)
  spool : st'.spool = st.spool ++ texts.flatten

theorem flagsAfter_nil (st : DataState) : FlagsAfter st [] st where
  found := by simp [headerTexts, Field.named]
  inHeader := by simp
  nl := by simp
  foundHeader := by simp
  spool := by simp

/-- One more text. -/
theorem flagsAfter_line (st : DataState) (br : Int) (buf : Bytes) :
    FlagsAfter st [dataText buf] (dataLine st br buf) where
  found := by
    intro field
    have hnamed : field.named (headerTexts [dataText buf]) =
        hasPrefixNoCase (dataText buf) field.name := by
      unfold headerTexts Field.named
      cases hends : endsHeader (dataText buf) with
      | false => simp [hends]
      | true => simp [hends, endsHeader_notNamed hends field]
    rw [hnamed]
    cases field with
    | messageId => rfl
    | date => exact congrArg (st.foundDate || ·) (Bool.and_comm _ _)
    | sender => exact congrArg (st.foundFrom || ·) (Bool.and_comm _ _)
    | recipients => exact congrArg (st.foundTo || ·) (Bool.and_comm _ _)
  inHeader := by
    rw [List.any_cons, List.any_nil, Bool.or_false]
    rfl
  nl := by
    cases hnl : st.nl <;> simp [dataLine, hnl]
  foundHeader := by
    rw [List.any_cons, List.any_nil, Bool.or_false]
    rfl
  spool := by
    rw [List.flatten_singleton]
    rfl

theorem headerTexts_append (a b : List Bytes) :
    headerTexts (a ++ b) = headerTexts a ++ if a.any endsHeader then [] else headerTexts b := by
  induction a with
  | nil => rfl
  | cons text a ih =>
    unfold headerTexts at ih ⊢
    rw [List.cons_append, List.takeWhile_cons, List.takeWhile_cons, List.any_cons, ih]
    cases endsHeader text with
    | true => rfl
    | false => rfl

/-- Some texts after others. -/
theorem FlagsAfter.append {st st' st'' : DataState} {a b : List Bytes}
    (ha : FlagsAfter st a st') (hb : FlagsAfter st' b st'') : FlagsAfter st (a ++ b) st'' where
  found := by
    intro field
    have hnamed : field.named (headerTexts (a ++ b)) =
        (field.named (headerTexts a) || (!a.any endsHeader && field.named (headerTexts b))) := by
      rw [headerTexts_append]
      unfold Field.named
      rw [List.any_append]
      cases a.any endsHeader with
      | true => rfl
      | false => rfl
    rw [hb.found, ha.found, ha.inHeader, hnamed, Bool.and_or_distrib_left, Bool.or_assoc,
      Bool.and_assoc]
  inHeader := by
    rw [hb.inHeader, ha.inHeader, List.any_append, Bool.and_assoc, Bool.not_or]
  nl := by
    rw [hb.nl, ha.nl, List.findSome?_append, Option.or_assoc]
  foundHeader := by
    rw [hb.foundHeader, ha.foundHeader, List.any_append, Bool.or_assoc]
  spool := by
    rw [hb.spool, ha.spool, List.flatten_append, List.append_assoc]

/-- The loop over pieces, from any point of a message to a later one. -/
theorem foldl_spoolPiece_flags (st : DataState) (ps : List Bytes) :
    FlagsAfter st (ps.map dataText) (ps.foldl spoolPiece st) := by
  induction ps generalizing st with
  | nil => exact flagsAfter_nil st
  | cons p ps ih => exact (flagsAfter_line st (pieceRet p) p).append (ih (spoolPiece st p))

/-! ## The spool file -/

section

variable {M : Type} (env : DataEnv M) (session : Session) (st : DataState)

/-- The line break between the added lines and a message that has nothing like a header. -/
def DataState.separator : Bytes :=
  if addedFields st = [] ∨ st.foundHeader = true then [] else st.lineBreak

/-- When no call fails, the spool file is the added lines, the separator and the message. -/
theorem completeHeaders_done (hio : env.appendIo = .done) :
    (completeHeaders env session st).spool =
      some ((addedFields st).flatMap (Field.line env session st.lineBreak) ++ st.separator ++
        st.spool) := by
  unfold completeHeaders DataState.separator
  by_cases hall : (st.foundMid && st.foundTo && st.foundFrom && st.foundDate) = true
  · have hnil := (addedFields_eq_nil st).mpr hall
    rw [if_pos hall, if_pos (Or.inl hnil), hnil]
    rfl
  · have hne : addedFields st ≠ [] := fun h => hall ((addedFields_eq_nil st).mp h)
    rw [if_neg hall, smfSmtpdAppendMissingHeaders, hio]
    dsimp only
    rw [missingHeaders_eq]
    simp [hne]

end

/-! ## On lines that fit -/

/-- A line without its stuffing is a text and its line feed. -/
theorem Line.unstuffed_eq (line : Line) :
    ∃ text, LF ∉ text ∧ text <:+ line.text ∧ line.unstuffed = text ++ [LF] := by
  unfold Line.unstuffed Line.bytes
  cases htext : line.text with
  | nil => exact ⟨[], by simp, List.suffix_refl _, rfl⟩
  | cons b text =>
    have hlf := line.noLf
    rw [htext] at hlf
    rw [List.cons_append, List.head?_cons]
    by_cases hdot : some b = some DOT
    · rw [if_pos hdot]
      exact ⟨text, fun h => hlf (List.mem_cons_of_mem b h), List.suffix_cons b text, rfl⟩
    · rw [if_neg hdot]
      exact ⟨b :: text, hlf, List.suffix_refl _, rfl⟩

/-- The lines of a message text. -/
theorem lines_unstuffed (lines : List Line) :
    Stdio.lines (lines.map Line.unstuffed).flatten = lines.map Line.unstuffed := by
  induction lines with
  | nil => rfl
  | cons line lines ih =>
    obtain ⟨text, hlf, -, htext⟩ := line.unstuffed_eq
    rw [List.map_cons, List.flatten_cons, htext, List.append_assoc, List.singleton_append,
      lines_closed text _ hlf, ih]

theorem headerLines_unstuffed (lines : List Line) :
    headerLines (lines.map Line.unstuffed).flatten =
      (lines.map Line.unstuffed).takeWhile fun line => !isEmptyLine line := by
  rw [headerLines, lines_unstuffed]

/-- The tests of the loop find the empty lines, when no line starts with a bare `CR`. -/
theorem endsHeader_unstuffed {line : Line}
    (hcr : line.unstuffed.head? = some CR → line.unstuffed = [CR, LF]) :
    endsHeader line.unstuffed = isEmptyLine line.unstuffed := by
  obtain ⟨text, hlf, -, htext⟩ := line.unstuffed_eq
  rw [htext] at hcr ⊢
  rw [isEmptyLine_append, endsHeader]
  cases text with
  | nil => rfl
  | cons b text =>
    have hb : b ≠ LF := fun h => hlf (h ▸ List.mem_cons_self)
    by_cases hbcr : b = CR
    · have htail : b :: text = [CR] := by
        have heq := hcr (by rw [hbcr]; rfl)
        exact List.append_cancel_right (heq.trans (show [CR, LF] = [CR] ++ [LF] from rfl))
      rw [htail]
      decide
    · have hne : ¬(b :: text = [] ∨ b :: text = [CR]) := by
        rintro (h | h)
        · cases h
        · exact hbcr (List.cons.inj h).1
      rw [decide_eq_false hne]
      simp [hasPrefix, hb, hbcr]

/-- A line is at most one byte longer with its stuffing. -/
theorem Line.bytes_length_le (line : Line) : line.bytes.length ≤ line.unstuffed.length + 1 := by
  unfold Line.unstuffed
  split
  · rw [List.length_tail]
    omega
  · omega

/-- A line that fits without its stuffing may be cut in front of its line feed, but not in
front of a dot. -/
theorem Line.cutsCleanly_of_unstuffed {line : Line}
    (hfits : line.unstuffed.length ≤ MAXLINE - 1) : line.cutsCleanly := by
  apply line.cutsCleanly_iff.mpr
  intro j hj hget
  have hlen := line.bytes_length_le
  have hmax : MAXLINE = 1024 := rfl
  obtain ⟨hlt, hdot⟩ := List.getElem?_eq_some_iff.mp hget
  have hlast : (MAXLINE - 1) * j = line.text.length := by
    have hbytes : line.bytes.length = line.text.length + 1 := by simp [Line.bytes]
    have hone : j = 1 := by
      by_contra hne
      have hmul : (MAXLINE - 1) * 2 ≤ (MAXLINE - 1) * j := Nat.mul_le_mul_left _ (by omega)
      omega
    rw [hone] at hlt ⊢
    omega
  have hlf : line.bytes[line.text.length]? = some LF := by
    rw [Line.bytes, List.getElem?_append_right (Nat.le_refl _), Nat.sub_self]
    rfl
  rw [hlast, hlf] at hget
  exact absurd (Option.some.inj hget) (by decide)

/-- The line feed of a line that is one byte too long is a piece of its own. -/
theorem Line.pieces_of_long {line : Line} (h : line.text.length = MAXLINE - 2 + 1) :
    line.pieces = [line.text, [LF]] := by
  rw [Line.pieces, Line.bytes, chunks_append _ h, chunks_of_length_le _ (by simp) (by decide)]

theorem Line.not_isDot_of_length {line : Line} (h : 2 < line.text.length) : ¬ line.isDot := by
  intro hdot
  rcases hdot with htext | htext
  · rw [htext] at h
    exact absurd h (by decide)
  · rw [htext] at h
    exact absurd h (by decide)

/-- A line that fits is one piece, and its text is the line without its stuffing. -/
theorem Line.texts_of_fits {line : Line} (hfits : line.bytes.length ≤ MAXLINE - 1)
    (hnul : (0 : UInt8) ∉ line.text) : line.pieces.map dataText = [line.unstuffed] := by
  have hzero : (0 : UInt8) ∉ line.bytes := by
    rw [Line.bytes, List.mem_append]
    rintro (h | h)
    · exact hnul h
    · exact absurd h (by decide)
  rw [Line.pieces_of_fits hfits, List.map_singleton, dataText_of_noNul hzero, Line.unstuffed]

/-- For the loop the header ends at the first empty line, when the lines up to there fit. -/
theorem headerTexts_pieces {lines : List Line}
    (hfits : ∀ line ∈ lines.takeWhile fun line => !isEmptyLine line.unstuffed,
      line.bytes.length ≤ MAXLINE - 1)
    (hnul : ∀ line ∈ lines, (0 : UInt8) ∉ line.text)
    (hcr : ∀ line ∈ lines, line.unstuffed.head? = some CR → line.unstuffed = [CR, LF]) :
    headerTexts ((pieces lines).map dataText) = headerLines (lines.map Line.unstuffed).flatten := by
  rw [headerLines_unstuffed]
  induction lines with
  | nil => rfl
  | cons line lines ih =>
    have hpieces : pieces (line :: lines) = line.pieces ++ pieces lines := rfl
    have hends := endsHeader_unstuffed (hcr line (by simp))
    rw [List.map_cons, List.takeWhile_cons, hpieces, List.map_append, headerTexts_append]
    cases hempty : isEmptyLine line.unstuffed with
    | true =>
      have hshort : line.bytes.length ≤ MAXLINE - 1 := by
        have hlen := line.bytes_length_le
        have hmax : MAXLINE = 1024 := rfl
        unfold isEmptyLine at hempty
        rw [Bool.or_eq_true, beq_iff_eq, beq_iff_eq] at hempty
        rcases hempty with hempty | hempty <;> rw [hempty] at hlen <;> simp at hlen <;> omega
      rw [Line.texts_of_fits hshort (hnul line (by simp))]
      simp [headerTexts, hends, hempty]
    | false =>
      rw [List.takeWhile_cons, hempty] at hfits
      rw [Line.texts_of_fits (hfits line (by simp)) (hnul line (by simp)),
        ih (fun l hl => hfits l (by simp [hl])) (fun l hl => hnul l (by simp [hl]))
          (fun l hl => hcr l (by simp [hl]))]
      simp [headerTexts, hends, hempty]

section Message

variable {lines : List Line} {dot : Line} {rest : Wire} {r : ReadlineT × Socket}

/-- The state of the loop after a message whose lines are cut cleanly. -/
theorem dataLoop_state (messageSize : Nat)
    (hwire : wireOf r = bytesWire (linesBytes lines ++ dot.bytes) ++ rest)
    (hdots : ∀ line ∈ lines, ¬ line.isDot) (hdot : dot.isDot)
    (hcut : ∀ line ∈ lines, line.cutsCleanly) :
    (dataLoop socketSource { messageSize } r).state =
      (pieces lines).foldl spoolPiece { messageSize } := by
  have hloop := dataLoop_map socketSource_hom { messageSize } r
  rw [hwire, dataLoop_clean _ rest hdots hdot hcut] at hloop
  exact (congrArg DataLoopResult.state hloop).symm

variable {M : Type} (env : DataEnv M) (session : Session) (messageSize : Nat)

/-- **A header line is added exactly when the message has none of that name** before its
first empty line.  The lines fit into the buffer without their stuffing, and up to the first
empty line also with it.  They hold no NUL and do not start with a bare `CR`. -/
theorem addedFields_iff
    (hwire : wireOf r = bytesWire (linesBytes lines ++ dot.bytes) ++ rest)
    (hdots : ∀ line ∈ lines, ¬ line.isDot) (hdot : dot.isDot)
    (hfits : ∀ line ∈ lines, line.unstuffed.length ≤ MAXLINE - 1)
    (hheader : ∀ line ∈ lines.takeWhile fun line => !isEmptyLine line.unstuffed,
      line.bytes.length ≤ MAXLINE - 1)
    (hnul : ∀ line ∈ lines, (0 : UInt8) ∉ line.text)
    (hcr : ∀ line ∈ lines, line.unstuffed.head? = some CR → line.unstuffed = [CR, LF]) :
    (env.appendIo = .done →
      (completeHeaders env session (dataLoop socketSource { messageSize } r).state).spool =
        some ((addedFields (dataLoop socketSource { messageSize } r).state).flatMap
            (Field.line env session (dataLoop socketSource { messageSize } r).state.lineBreak) ++
          (dataLoop socketSource { messageSize } r).state.separator ++
          (lines.map Line.unstuffed).flatten)) ∧
    ∀ field, field ∈ addedFields (dataLoop socketSource { messageSize } r).state ↔
      ¬ ∃ line ∈ headerLines (lines.map Line.unstuffed).flatten,
        hasPrefixNoCase line field.name = true := by
  have hcut : ∀ line ∈ lines, line.cutsCleanly := fun line hline =>
    Line.cutsCleanly_of_unstuffed (hfits line hline)
  have hflags := foldl_spoolPiece_flags { messageSize } (pieces lines)
  rw [dataLoop_state messageSize hwire hdots hdot hcut]
  constructor
  · intro hio
    rw [completeHeaders_done env session _ hio, hflags.spool, (lines_spooled lines).2.2 hnul hcut]
    rfl
  · intro field
    have hfound : field.found ((pieces lines).foldl spoolPiece { messageSize }) =
        field.named (headerLines (lines.map Line.unstuffed).flatten) := by
      rw [hflags.found, headerTexts_pieces hheader hnul hcr]
      cases field <;> exact (Bool.false_or _).trans (Bool.true_and _)
    rw [mem_addedFields, hfound, Bool.eq_false_iff, Field.named, Ne, List.any_eq_true]

end Message

/-- A header name in the body does not count. -/
theorem addedFields_iff_body :
    ∃ r : ReadlineT × Socket,
      wireOf r = bytesWire (ascii "To: a\r\n\r\nFrom: b\r\n.\r\n") ∧
        Field.sender ∈ addedFields (dataLoop socketSource { messageSize := 0 } r).state ∧
        Field.recipients ∉ addedFields (dataLoop socketSource { messageSize := 0 } r).state := by
  let lines : List Line :=
    [⟨ascii "To: a\r", by decide⟩, ⟨[CR], by decide⟩, ⟨ascii "From: b\r", by decide⟩]
  let r : ReadlineT × Socket :=
    ({}, [.data (ascii "To: a\r\n\r\nFrom: b\r\n.\r\n") (by decide) (by decide)])
  have hiff := (@addedFields_iff lines crlfDot [] r Bytes DataEnv.plain (smfSessionNew []) 0 rfl
    (by decide) (Or.inr rfl) (by decide) (by decide) (by decide) (by decide)).2
  refine ⟨r, rfl, (hiff .sender).mpr (by decide), ?_⟩
  intro hadded
  exact (hiff .recipients).mp hadded (by decide)

/-- A line of 1023 bytes that starts with a dot: with the second dot that the client sends
in front of it, the line does not fit.  Its line feed comes as a line of its own, which ends
the header for the loop, and the `Message-ID` behind it is not seen. -/
theorem addedFields_stuffed :
    ∃ (lines : List Line) (r : ReadlineT × Socket),
      wireOf r = bytesWire (linesBytes lines ++ crlfDot.bytes) ∧
        (∀ line ∈ lines, line.unstuffed.length ≤ MAXLINE - 1 ∧ (0 : UInt8) ∉ line.text ∧
          ¬ line.isDot ∧ (line.unstuffed.head? = some CR → line.unstuffed = [CR, LF])) ∧
        (∃ line ∈ headerLines (lines.map Line.unstuffed).flatten,
          hasPrefixNoCase line Field.messageId.name = true) ∧
        Field.messageId ∈ addedFields (dataLoop socketSource { messageSize := 0 } r).state := by
  obtain ⟨p, hlen, hletter⟩ : ∃ p : Bytes, p.length = 1020 ∧ ∀ b ∈ p, b = 97 :=
    ⟨List.replicate 1020 97, List.length_replicate, fun b hb => List.eq_of_mem_replicate hb⟩
  have hletters : ∀ c : UInt8, c ≠ 97 → c ∉ p := fun c hc hmem => hc (hletter c hmem)
  -- the first piece of the line, and the line as it is received
  let q : Bytes := [DOT, DOT] ++ p ++ [CR]
  have hq : ∀ c : UInt8, c ≠ 97 → c ∉ [DOT, DOT] → c ∉ [CR] → c ∉ q := by
    intro c hc hdot hcr hmem
    rcases List.mem_append.mp hmem with hmem | hmem
    · rcases List.mem_append.mp hmem with hmem | hmem
      · exact hdot hmem
      · exact hletters c hc hmem
    · exact hcr hmem
  have hqlen : q.length = MAXLINE - 2 + 1 := by
    rw [List.length_append, List.length_append, hlen]
    rfl
  let long : Line := ⟨q, hq LF (by decide) (by decide) (by decide)⟩
  let id : Line := ⟨ascii "Message-ID: <1>\r", by decide⟩
  have hpieces : long.pieces = [q, [LF]] := Line.pieces_of_long hqlen
  have hunstuffed : long.unstuffed = DOT :: (p ++ [CR] ++ [LF]) := rfl
  have hnul : ∀ line ∈ [long, id], (0 : UInt8) ∉ line.text := by
    intro line hline
    rcases List.mem_cons.mp hline with rfl | hline
    · exact hq 0 (by decide) (by decide) (by decide)
    · rw [List.mem_singleton.mp hline]
      decide
  have hdots : ∀ line ∈ [long, id], ¬ line.isDot := by
    intro line hline
    rcases List.mem_cons.mp hline with rfl | hline
    · apply Line.not_isDot_of_length
      rw [show long.text.length = MAXLINE - 2 + 1 from hqlen]
      decide
    · rw [List.mem_singleton.mp hline]
      decide
  have hshort : ∀ line ∈ [long, id], line.unstuffed.length ≤ MAXLINE - 1 := by
    intro line hline
    rcases List.mem_cons.mp hline with rfl | hline
    · rw [hunstuffed, List.length_cons, List.length_append, List.length_append, hlen]
      decide
    · rw [List.mem_singleton.mp hline]
      decide
  have hfits : long.bytes.length ≤ BUFSIZE := by
    rw [show long.bytes = q ++ [LF] from rfl, List.length_append, hqlen]
    decide
  let r : ReadlineT × Socket := ({}, [.data long.bytes long.bytes_ne_nil hfits,
    .data (id.bytes ++ crlfDot.bytes) (by decide) (by decide)])
  have hwire : wireOf r = bytesWire (linesBytes [long, id] ++ crlfDot.bytes) := by
    simp [r, wireOf, Socket.wire, bytesWire, linesBytes]
  have hwire' : wireOf r = bytesWire (linesBytes [long, id] ++ crlfDot.bytes) ++ [] := by
    rw [hwire, List.append_nil]
  have hstate := dataLoop_state 0 hwire' hdots (Or.inr rfl) fun line hline =>
    Line.cutsCleanly_of_unstuffed (hshort line hline)
  have hflags := foldl_spoolPiece_flags { messageSize := 0 } (pieces [long, id])
  have htexts : (pieces [long, id]).map dataText =
      [DOT :: (p ++ [CR]), [LF], ascii "Message-ID: <1>\r\n"] := by
    have hall : pieces [long, id] = [q, [LF], id.bytes] := by
      rw [pieces, List.flatMap_cons, hpieces, List.flatMap_singleton,
        Line.pieces_of_fits (by decide)]
      rfl
    rw [hall, List.map_cons, dataText_of_noNul (hq 0 (by decide) (by decide) (by decide))]
    rfl
  rw [htexts] at hflags
  have hopen : endsHeader (DOT :: (p ++ [CR])) = false := by
    unfold endsHeader hasPrefix
    simp [DOT, LF, CR]
  refine ⟨[long, id], r, hwire, ?_, ⟨id.unstuffed, ?_, by decide⟩, ?_⟩
  · intro line hline
    refine ⟨hshort line hline, hnul line hline, hdots line hline, ?_⟩
    rcases List.mem_cons.mp hline with rfl | hline
    · intro hcr
      cases hcr
    · rw [List.mem_singleton.mp hline]
      decide
  · have hlong : isEmptyLine long.unstuffed = false := by
      rw [hunstuffed]
      simp [isEmptyLine, DOT, LF, CR]
    rw [headerLines_unstuffed, List.map_cons, List.map_singleton,
      List.takeWhile_cons_of_pos (by simp [hlong]), List.takeWhile_cons_of_pos (by decide)]
    simp
  · rw [mem_addedFields, hstate, hflags.found, headerTexts,
      List.takeWhile_cons_of_pos (by simp [hopen]), List.takeWhile_cons_of_neg (by decide)]
    have hnot : hasPrefixNoCase (DOT :: (p ++ [CR])) Field.messageId.name = false := by
      rw [Bool.eq_false_iff]
      intro hprefix
      obtain ⟨b, rest, hb, hinitial⟩ := Field.initial_of_prefix hprefix
      rw [← (List.cons.inj hb).1] at hinitial
      exact absurd hinitial (by decide)
    simp [Field.found, Field.named, hnot]

end Spmfilter
