import Spmfilter.Smtpd.Flags

/-!
# The spool file before it is parsed

What `smf_smtpd_process_data` makes of a received message before it parses the spool file.

`Repaired` is what it should make of it: generated header lines, an empty line where the
message has no header of its own, and the received text, so that the file has the four
header lines and the body of the message.

* `loop_spools_iff` says when the loop takes the text as it was sent.
* `repairs_iff` says when the file is repaired, from the texts that the loop has taken.
  A colon anywhere in the message counts as a header, and a message without lines has
  `(null)` for its line break.
* `repaired_iff` puts the two together for every message.
-/

namespace Spmfilter

open CString Chunks Stdio

/-! ## What the file should be -/

/-- A byte of the name of a header field. -/
def isFieldChar (b : UInt8) : Bool :=
  33 ≤ b && b ≤ 126 && b != 58

/-- A line with a header field: a name and a colon. -/
def isHeaderField (line : Bytes) : Bool :=
  line.takeWhile isFieldChar != [] && (line.dropWhile isFieldChar).head? == some 58

/-- The body of a message.  When its first line is neither empty nor a header field, it is
all body. -/
def messageBody (text : Bytes) : Bytes :=
  match lines text with
  | [] => []
  | line :: _ =>
    if isEmptyLine line || isHeaderField line then (afterEmptyLine text).getD [] else text

/-- The header of a text has a line of the field. -/
def Field.inHeader (text : Bytes) (field : Field) : Prop :=
  ∃ line ∈ headerLines text, hasPrefixNoCase line field.name = true

section

variable {M : Type} (env : DataEnv M) (session : Session)

/-- What goes into the generated lines holds no line feed. -/
structure PlainFields : Prop where
  messageId : LF ∉ env.messageId
  date : LF ∉ env.date
  sender : ∀ sender, session.envelope.sender = some sender → LF ∉ sender

/-- The spool file of the message `text`, as it should be, when the loop has left `st`. -/
structure Repaired (st : DataState) (file text : Bytes) : Prop where
  received : st.spool = text
  shape : ∃ fields nl sep, List.Sublist fields allFields ∧ (nl = [CR, LF] ∨ nl = [LF]) ∧
    (sep = [] ∨ sep = nl) ∧ file = fields.flatMap (Field.line env session nl) ++ sep ++ text
  fields : ∀ field : Field, field.inHeader file
  body : (afterEmptyLine file).getD [] = messageBody text

end

/-! ## What the repair needs -/

/-- Something in the text breaks a line. -/
def breaksLine (text : Bytes) : Bool :=
  text.any fun b => b == CR || b == LF

/-- The first text that breaks a line does it with a line feed. -/
def RealBreak (texts : List Bytes) : Prop :=
  ∃ text, texts.find? breaksLine = some text ∧ LF ∈ text

/-- The message starts with a header field, or with an empty line and has a colon somewhere,
or with a line of its body and has no colon. -/
def Placed (text : Bytes) : Prop :=
  ∃ line more, lines text = line :: more ∧
    (isHeaderField line = true ∨ (isEmptyLine line = true ↔ 58 ∈ text))

/-- When the repair does what it should.  `texts` is what the loop has taken, and `text` the
same in one. -/
inductive Repairable (io : AppendIo) (texts : List Bytes) (text : Bytes) : Prop where
  /-- Nothing goes in front of the message, and nothing has to. -/
  | kept (hkept : (∀ field : Field, field.named (headerTexts texts) = true) ∨
        io ≠ .done ∧ io ≠ .rename)
      (hall : ∀ field : Field, field.inHeader text)
      (hfirst : ∃ line more, lines text = line :: more ∧ isHeaderField line = true)
  /-- The names that the loop has not seen go in front of it. -/
  | completed (hmissing : ∃ field : Field, field.named (headerTexts texts) = false)
      (hio : io = .done) (hbreak : RealBreak texts)
      (hseen : ∀ field : Field, field.named (headerTexts texts) = true → field.inHeader text)
      (hplaced : Placed text)

/-! ## The sender -/

/-- What is left of the end of a line without white space around it holds no line feed. -/
theorem strstrip_noLf {text p : Bytes} (htext : LF ∉ text) (hp : p <:+ text ++ [LF]) :
    LF ∉ smfCoreStrstrip p := by
  rw [smfCoreStrstrip]
  rcases List.suffix_concat_iff.mp ((List.dropWhile_suffix isspace).trans hp) with
    hnil | ⟨t, ht, hsuffix⟩
  · simp [hnil]
  · -- the line feed is the last byte, and the second step drops it
    rw [ht, if_neg (by simp), List.reverse_append, List.reverse_singleton, List.singleton_append,
      List.dropWhile_cons_of_pos (by decide), List.mem_reverse]
    intro hmem
    exact htext (hsuffix.subset (List.mem_reverse.mp ((List.dropWhile_suffix _).subset hmem)))

/-- The sender of a `MAIL` line holds no line feed. -/
theorem sender_noLf {text : Bytes} (htext : LF ∉ text) (jmp : Nat) :
    LF ∉ smfInternalStripEmailAddr (smfSmtpdGetReqValue (text ++ [LF]) jmp) := by
  have hstrip : ∀ addr : Bytes, LF ∉ addr → LF ∉ smfInternalStripEmailAddr addr := by
    intro addr haddr
    rw [smfInternalStripEmailAddr]
    split
    · exact haddr
    · rename_i p0 hp0
      have hsuffix : p0 <:+ addr := (List.mem_tails _ _).mp (List.mem_of_find?_eq_some hp0)
      dsimp only
      split
      · exact haddr
      · exact fun h => haddr (hsuffix.subset (List.mem_of_mem_tail (List.mem_of_mem_take h)))
  apply hstrip
  rw [smfSmtpdGetReqValue]
  apply strstrip_noLf htext
  split
  · exact (List.tail_suffix _).trans (List.drop_suffix _ _)
  · exact List.drop_suffix _ _

/-! ## The generated lines -/

section

variable {M : Type} {env : DataEnv M} {session : Session} {nl : Bytes}

/-- A generated line is its text and the line break. -/
theorem Field.line_eq (nl : Bytes) (field : Field) :
    field.line env session nl = field.line env session [] ++ nl := by
  cases field <;> simp [Field.line]

/-- A generated line starts with the name of its field and with no other. -/
theorem Field.line_named (field other : Field) :
    hasPrefixNoCase (field.line env session nl) other.name = true ↔ field = other := by
  constructor
  · intro h
    obtain ⟨b, rest, hline, hb⟩ := Field.initial_of_prefix h
    have hfirst : ∃ c more, field.line env session nl = c :: more ∧ tolower c = field.initial := by
      cases field
      · exact ⟨77, _, rfl, by decide⟩
      · exact ⟨68, _, rfl, by decide⟩
      · exact ⟨70, _, rfl, by decide⟩
      · exact ⟨84, _, rfl, by decide⟩
    obtain ⟨c, more, hcons, hc⟩ := hfirst
    rw [hcons] at hline
    rw [← (List.cons.inj hline).1, hc] at hb
    cases field <;> cases other <;> first | rfl | exact absurd hb (by decide)
  · rintro rfl
    cases field <;> rfl

theorem Field.line_noLf (hplain : PlainFields env session) (hnl : LF ∉ nl) (field : Field) :
    LF ∉ field.line env session nl := by
  have hsender : LF ∉ session.envelope.sender.getD (ascii "(null)") := by
    cases hs : session.envelope.sender with
    | none => decide
    | some sender => exact hplain.sender sender hs
  have hlit : LF ∉ ascii "Message-Id: " ∧ LF ∉ ascii "Date: " ∧ LF ∉ ascii "From: " ∧
      LF ∉ ascii "To: undisclosed-recipients:;" := by decide
  cases field <;> simp [Field.line, hlit, hplain.messageId, hplain.date, hsender, hnl]

/-- Generated lines in front of a text: its header starts with them, and its body is that of
the text. -/
theorem header_generated (hplain : PlainFields env session) (hnl : nl = [CR, LF] ∨ nl = [LF])
    (fields : List Field) (text : Bytes) :
    headerLines (fields.flatMap (Field.line env session nl) ++ text) =
        fields.map (Field.line env session nl) ++ headerLines text ∧
      afterEmptyLine (fields.flatMap (Field.line env session nl) ++ text) =
        afterEmptyLine text := by
  -- a line is closed by the line feed of its line break
  have hline : ∀ field : Field, ∃ x, LF ∉ x ∧ ¬(x = [] ∨ x = [CR]) ∧
      field.line env session nl = x ++ [LF] := by
    intro field
    have hne : ∀ cr : Bytes, ¬(field.line env session [] ++ cr = [] ∨
        field.line env session [] ++ cr = [CR]) := by
      intro cr
      cases field <;> (rintro (h | h) <;> revert h <;> simp [Field.line, ascii, CR])
    have hlf : LF ∉ field.line env session [] := Field.line_noLf hplain (by simp) field
    rcases hnl with rfl | rfl
    · refine ⟨field.line env session [] ++ [CR], ?_, hne [CR], ?_⟩
      · rw [List.mem_append]
        rintro (h | h)
        · exact hlf h
        · exact absurd h (by decide)
      · rw [Field.line_eq [CR, LF], List.append_assoc]
        rfl
    · refine ⟨field.line env session [], hlf, ?_, Field.line_eq [LF] field⟩
      have := hne []
      rwa [List.append_nil] at this
  induction fields with
  | nil => exact ⟨rfl, rfl⟩
  | cons field fields ih =>
    obtain ⟨x, hx, hxne, hxline⟩ := hline field
    rw [List.flatMap_cons, List.map_cons, hxline, List.append_assoc, List.append_assoc,
      List.singleton_append, headerLines_closed x _ hx, afterEmptyLine_closed x _ hx, if_neg hxne,
      if_neg hxne, ih.1, ih.2]
    exact ⟨rfl, rfl⟩

/-- A field is in the header when its line was generated, or when it was there before. -/
theorem inHeader_generated (hplain : PlainFields env session)
    (hnl : nl = [CR, LF] ∨ nl = [LF]) (fields : List Field) (text : Bytes) (field : Field) :
    field.inHeader (fields.flatMap (Field.line env session nl) ++ text) ↔
      field ∈ fields ∨ field.inHeader text := by
  have hmem : (∃ line ∈ fields.map (Field.line env session nl),
      hasPrefixNoCase line field.name = true) ↔ field ∈ fields := by
    simp only [List.mem_map, exists_exists_and_eq_and, Field.line_named]
    constructor
    · rintro ⟨other, hother, rfl⟩
      exact hother
    · intro h
      exact ⟨field, h, rfl⟩
  rw [Field.inHeader, (header_generated hplain hnl fields text).1, ← hmem, Field.inHeader]
  simp only [List.mem_append, or_and_right, exists_or]

/-- A line break in front of a text makes it all body. -/
theorem header_separated (hnl : nl = [CR, LF] ∨ nl = [LF]) (text : Bytes) :
    headerLines (nl ++ text) = [] ∧ afterEmptyLine (nl ++ text) = some text := by
  rcases hnl with rfl | rfl
  · rw [show [CR, LF] ++ text = [CR] ++ LF :: text from rfl, headerLines_closed _ _ (by decide),
      afterEmptyLine_closed _ _ (by decide)]
    exact ⟨rfl, rfl⟩
  · rw [show [LF] ++ text = [] ++ LF :: text from rfl, headerLines_closed _ _ (by decide),
      afterEmptyLine_closed _ _ (by decide)]
    exact ⟨rfl, rfl⟩

end

/-! ## The line break -/

/-- A real line break goes between the generated lines, or none that has a line feed. -/
theorem lineBreak_cases (texts : List Bytes) :
    let nl := (texts.findSome? smfInternalDetermineLinebreak).getD (ascii "(null)")
    (RealBreak texts ∧ (nl = [CR, LF] ∨ nl = [LF])) ∨ (¬ RealBreak texts ∧ LF ∉ nl) := by
  induction texts with
  | nil =>
    right
    refine ⟨?_, by decide⟩
    rintro ⟨text, hfind, _⟩
    cases hfind
  | cons text texts ih =>
    have hbreaks : breaksLine text = true ↔ CR ∈ text ∨ LF ∈ text := by
      simp only [breaksLine, List.any_eq_true, Bool.or_eq_true, beq_iff_eq]
      constructor
      · rintro ⟨b, hb, rfl | rfl⟩
        · exact Or.inl hb
        · exact Or.inr hb
      · rintro (h | h)
        · exact ⟨CR, h, Or.inl rfl⟩
        · exact ⟨LF, h, Or.inr rfl⟩
    rcases smfInternalDetermineLinebreak_cases text with ⟨hlf, hnl⟩ | ⟨hlf, hcr, hnl⟩ |
        ⟨hlf, hcr, hnl⟩
    · left
      refine ⟨⟨text, List.find?_cons_of_pos (hbreaks.mpr (Or.inr hlf)), hlf⟩, ?_⟩
      rcases hnl with hnl | hnl
      · exact Or.inl (by rw [List.findSome?_cons, hnl]; rfl)
      · exact Or.inr (by rw [List.findSome?_cons, hnl]; rfl)
    · right
      rw [List.findSome?_cons, hnl]
      refine ⟨?_, show LF ∉ [CR] by decide⟩
      rintro ⟨t, hfind, ht⟩
      rw [List.find?_cons_of_pos (hbreaks.mpr (Or.inl hcr))] at hfind
      obtain rfl := Option.some.inj hfind
      exact hlf ht
    · have hskip : breaksLine text = false := by
        rw [Bool.eq_false_iff, Ne, hbreaks]
        exact not_or.mpr ⟨hcr, hlf⟩
      rw [List.findSome?_cons, hnl, RealBreak, List.find?_cons_of_neg (by simp [hskip])]
      exact ih

/-! ## The first line -/

/-- The first line of a text that is not empty. -/
theorem lines_cons {text : Bytes} (hne : text ≠ []) :
    ∃ line more, lines text = line :: more ∧ line <+: text := by
  have hflat := lines_flatten text
  cases hlines : lines text with
  | nil =>
    rw [hlines] at hflat
    exact absurd hflat.symm hne
  | cons line more =>
    rw [hlines] at hflat
    exact ⟨line, more, rfl, more.flatten, hflat⟩

theorem isHeaderField_colon {line : Bytes} (h : isHeaderField line = true) : 58 ∈ line := by
  rw [isHeaderField, Bool.and_eq_true, beq_iff_eq] at h
  exact (List.dropWhile_suffix _).subset (List.mem_of_mem_head? h.2)

/-- The body of a message is what comes after its first empty line, unless the message starts
with its body. -/
theorem afterEmptyLine_isBody {text line : Bytes} {more : List Bytes}
    (hlines : lines text = line :: more) :
    (afterEmptyLine text).getD [] = messageBody text ↔
      isEmptyLine line = true ∨ isHeaderField line = true := by
  have hne : text ≠ [] := by
    rintro rfl
    cases hlines
  rw [messageBody, hlines]
  dsimp only
  rw [← Bool.or_eq_true]
  cases isEmptyLine line || isHeaderField line with
  | true => simp
  | false =>
    refine ⟨fun h => ?_, fun h => by cases h⟩
    have hlt := afterEmptyLine_length hne
    rw [h, if_neg Bool.false_ne_true] at hlt
    omega

/-- The message is its own body when it starts with it. -/
theorem text_isBody {text line : Bytes} {more : List Bytes} (hlines : lines text = line :: more) :
    text = messageBody text ↔ isEmptyLine line = false ∧ isHeaderField line = false := by
  have hne : text ≠ [] := by
    rintro rfl
    cases hlines
  rw [messageBody, hlines]
  dsimp only
  rw [← Bool.or_eq_false_iff]
  cases isEmptyLine line || isHeaderField line with
  | false => simp
  | true =>
    refine ⟨fun h => ?_, fun h => by cases h⟩
    have hlt := afterEmptyLine_length hne
    rw [if_pos rfl] at h
    rw [← h] at hlt
    omega

/-! ## The texts of the loop -/

section

variable {texts : List Bytes} {st : DataState} {messageSize : Nat}
  (hflags : FlagsAfter { messageSize } texts st)

include hflags

theorem found_iff (field : Field) : field.found st = field.named (headerTexts texts) := by
  rw [hflags.found]
  cases field <;> exact (Bool.false_or _).trans (Bool.true_and _)

theorem addedFields_texts (field : Field) :
    field ∈ addedFields st ↔ field.named (headerTexts texts) = false := by
  rw [mem_addedFields, found_iff hflags]

theorem spool_texts : st.spool = texts.flatten := by
  rw [hflags.spool]
  rfl

theorem foundHeader_iff : st.foundHeader = true ↔ 58 ∈ st.spool := by
  rw [spool_texts hflags, hflags.foundHeader, List.mem_flatten]
  simp [strchr_isSome]

theorem lineBreak_texts :
    st.lineBreak = (texts.findSome? smfInternalDetermineLinebreak).getD (ascii "(null)") := by
  rw [DataState.lineBreak, hflags.nl]
  rfl

/-- A name has a colon. -/
theorem colon_of_named {field : Field} (h : field.named (headerTexts texts) = true) :
    58 ∈ st.spool := by
  obtain ⟨text, htext, hname⟩ := List.any_eq_true.mp h
  rw [spool_texts hflags]
  refine List.mem_flatten.mpr ⟨text, (List.takeWhile_prefix _).subset htext, ?_⟩
  exact mem_of_hasPrefixNoCase (by decide) (by cases field <;> decide) hname

end

/-! ## The spool file -/

section

variable {M : Type} {env : DataEnv M} {session : Session} {st : DataState}

/-- Nothing goes in front of the message when all names are there, or when a call fails
before the spool file is removed. -/
theorem completeHeaders_kept
    (h : addedFields st = [] ∨ env.appendIo ≠ .done ∧ env.appendIo ≠ .rename) :
    (completeHeaders env session st).spool = some st.spool := by
  rw [completeHeaders]
  split
  · rfl
  · rename_i hall
    rcases h with h | ⟨hdone, hrename⟩
    · exact absurd ((addedFields_eq_nil st).mp h) hall
    · rw [smfSmtpdAppendMissingHeaders]
      cases hio : env.appendIo with
      | done => exact absurd hio hdone
      | rename => exact absurd hio hrename
      | _ => rfl

/-- The spool file is gone when its `rename` fails. -/
theorem completeHeaders_rename (hadded : addedFields st ≠ []) (hio : env.appendIo = .rename) :
    (completeHeaders env session st).spool = none := by
  rw [completeHeaders, if_neg (fun h => hadded ((addedFields_eq_nil st).mpr h)),
    smfSmtpdAppendMissingHeaders, hio]

/-- A message that is left alone has to have everything in its own header. -/
theorem repaired_kept :
    Repaired env session st st.spool st.spool ↔
      (∀ field : Field, field.inHeader st.spool) ∧
        ∃ line more, lines st.spool = line :: more ∧ isHeaderField line = true := by
  have hshape : ∃ fields nl sep, List.Sublist fields allFields ∧ (nl = [CR, LF] ∨ nl = [LF]) ∧
      (sep = [] ∨ sep = nl) ∧
      st.spool = fields.flatMap (Field.line env session nl) ++ sep ++ st.spool :=
    ⟨[], [LF], [], List.nil_sublist _, Or.inr rfl, Or.inl rfl, rfl⟩
  constructor
  · intro h
    -- its first line is one of the header
    obtain ⟨first, hfirst, _⟩ := h.fields .date
    have hne : st.spool ≠ [] := by
      intro hnil
      rw [hnil] at hfirst
      cases hfirst
    obtain ⟨line, more, hlines, _⟩ := lines_cons hne
    refine ⟨h.fields, line, more, hlines, ?_⟩
    rcases (afterEmptyLine_isBody hlines).mp h.body with hempty | hheader
    · rw [headerLines, hlines, List.takeWhile_cons, hempty] at hfirst
      cases hfirst
    · exact hheader
  · rintro ⟨hall, line, more, hlines, hheader⟩
    exact ⟨rfl, hshape, hall, (afterEmptyLine_isBody hlines).mpr (Or.inr hheader)⟩

/-- What goes in front of a message has a line feed, or it is not what it should be. -/
theorem shape_of_noLf {front text : Bytes} (hne : front ≠ []) (hlf : LF ∉ front) :
    ¬ ∃ fields nl sep, List.Sublist fields allFields ∧ (nl = [CR, LF] ∨ nl = [LF]) ∧
      (sep = [] ∨ sep = nl) ∧
      front ++ text = fields.flatMap (Field.line env session nl) ++ sep ++ text := by
  rintro ⟨fields, nl, sep, _, hnl, hsep, heq⟩
  have hnlLf : LF ∈ nl := by
    rcases hnl with rfl | rfl <;> decide
  have hfront := List.append_cancel_right heq
  apply hlf
  rw [hfront, List.mem_append]
  cases fields with
  | nil =>
    rcases hsep with rfl | rfl
    · exact absurd hfront hne
    · exact Or.inr hnlLf
  | cons field fields =>
    left
    rw [List.flatMap_cons, Field.line_eq]
    simp [hnlLf]

variable (env session) in
/-- With a real line break the generated part has the shape that it should have. -/
theorem shape_of_lineBreak (hnl : st.lineBreak = [CR, LF] ∨ st.lineBreak = [LF]) :
    ∃ fields nl sep, List.Sublist fields allFields ∧ (nl = [CR, LF] ∨ nl = [LF]) ∧
      (sep = [] ∨ sep = nl) ∧
      (addedFields st).flatMap (Field.line env session st.lineBreak) ++ st.separator ++
        st.spool = fields.flatMap (Field.line env session nl) ++ sep ++ st.spool := by
  refine ⟨addedFields st, st.lineBreak, st.separator, List.filter_sublist, hnl, ?_, rfl⟩
  rw [DataState.separator]
  split
  · exact Or.inl rfl
  · exact Or.inr rfl

/-- Without a line feed in the line break the generated lines are none. -/
theorem not_repaired_of_noLf (hplain : PlainFields env session) (hadded : addedFields st ≠ [])
    (hlf : LF ∉ st.lineBreak) :
    ¬ Repaired env session st ((addedFields st).flatMap (Field.line env session st.lineBreak) ++
        st.separator ++ st.spool) st.spool := by
  intro h
  refine absurd h.shape (shape_of_noLf ?_ ?_)
  · obtain ⟨field, hfield⟩ := List.exists_mem_of_ne_nil _ hadded
    intro hnil
    have hline := List.flatMap_eq_nil_iff.mp (List.append_eq_nil_iff.mp hnil).1 field hfield
    cases field <;> cases hline
  · rw [List.mem_append, List.mem_flatMap]
    rintro (⟨field, -, hmem⟩ | hmem)
    · exact Field.line_noLf hplain hlf field hmem
    · rw [DataState.separator] at hmem
      split at hmem
      · cases hmem
      · exact hlf hmem

section

variable {texts : List Bytes} {messageSize : Nat} {line : Bytes} {more : List Bytes}
  (hplain : PlainFields env session) (hflags : FlagsAfter { messageSize } texts st)

include hplain hflags

/-- A message with a colon: the generated lines stand directly in front of it. -/
theorem repaired_colon (hnl : st.lineBreak = [CR, LF] ∨ st.lineBreak = [LF])
    (hcolon : 58 ∈ st.spool) (hlines : lines st.spool = line :: more) :
    Repaired env session st ((addedFields st).flatMap (Field.line env session st.lineBreak) ++
        st.separator ++ st.spool) st.spool ↔
      (∀ field : Field, field.named (headerTexts texts) = true → field.inHeader st.spool) ∧
        (isEmptyLine line = true ∨ isHeaderField line = true) := by
  have hsep : st.separator = [] := by
    rw [DataState.separator, if_pos (Or.inr ((foundHeader_iff hflags).mpr hcolon))]
  have hshape := shape_of_lineBreak env session hnl
  rw [hsep, List.append_nil] at hshape ⊢
  have hbody := (header_generated hplain hnl (addedFields st) st.spool).2
  have hin := inHeader_generated hplain hnl (addedFields st) st.spool
  constructor
  · intro h
    refine ⟨fun field hnamed => ?_, ?_⟩
    · rcases (hin field).mp (h.fields field) with hmem | hheader
      · rw [addedFields_texts hflags, hnamed] at hmem
        cases hmem
      · exact hheader
    · have hplace := h.body
      rwa [hbody, afterEmptyLine_isBody hlines] at hplace
  · rintro ⟨hseen, hplace⟩
    refine ⟨rfl, hshape, fun field => (hin field).mpr ?_, ?_⟩
    · cases hnamed : field.named (headerTexts texts) with
      | true => exact Or.inr (hseen field hnamed)
      | false => exact Or.inl ((addedFields_texts hflags field).mpr hnamed)
    · rwa [hbody, afterEmptyLine_isBody hlines]

/-- A message without a colon: all lines are generated, and an empty line follows them. -/
theorem repaired_noColon (hadded : addedFields st ≠ [])
    (hnl : st.lineBreak = [CR, LF] ∨ st.lineBreak = [LF])
    (hcolon : 58 ∉ st.spool) (hlines : lines st.spool = line :: more) :
    Repaired env session st ((addedFields st).flatMap (Field.line env session st.lineBreak) ++
        st.separator ++ st.spool) st.spool ↔
      isEmptyLine line = false ∧ isHeaderField line = false := by
  have hsep : st.separator = st.lineBreak := by
    rw [DataState.separator, if_neg (not_or.mpr ⟨hadded, mt (foundHeader_iff hflags).mp hcolon⟩)]
  have hshape := shape_of_lineBreak env session hnl
  rw [hsep, List.append_assoc] at hshape ⊢
  have hbody := (header_generated hplain hnl (addedFields st) (st.lineBreak ++ st.spool)).2
  have hin := inHeader_generated hplain hnl (addedFields st) (st.lineBreak ++ st.spool)
  have hall : ∀ field : Field, field ∈ addedFields st := by
    intro field
    rw [addedFields_texts hflags, Bool.eq_false_iff]
    exact fun hnamed => hcolon (colon_of_named hflags hnamed)
  rw [(header_separated hnl st.spool).2] at hbody
  rw [← text_isBody hlines]
  constructor
  · intro h
    have hplace := h.body
    rwa [hbody] at hplace
  · intro hplace
    refine ⟨rfl, hshape, fun field => (hin field).mpr (Or.inl (hall field)), ?_⟩
    rwa [hbody]

/-- A message that gets something in front of it. -/
theorem repaired_completed (hadded : addedFields st ≠ []) :
    Repaired env session st ((addedFields st).flatMap (Field.line env session st.lineBreak) ++
        st.separator ++ st.spool) st.spool ↔
      RealBreak texts ∧
        (∀ field : Field, field.named (headerTexts texts) = true → field.inHeader st.spool) ∧
        Placed st.spool := by
  have hbreak := lineBreak_texts hflags
  rcases lineBreak_cases texts with ⟨hreal, hnl⟩ | ⟨hno, hlf⟩
  · rw [← hbreak] at hnl
    -- the break is in the message, so it has a first line
    have hne : st.spool ≠ [] := by
      obtain ⟨text, hfind, htext⟩ := hreal
      rw [spool_texts hflags]
      intro hnil
      have hflat := List.mem_flatten.mpr ⟨text, List.mem_of_find?_eq_some hfind, htext⟩
      rw [hnil] at hflat
      cases hflat
    obtain ⟨line, more, hlines, hfirst⟩ := lines_cons hne
    have hplaced : Placed st.spool ↔
        isHeaderField line = true ∨ (isEmptyLine line = true ↔ 58 ∈ st.spool) := by
      constructor
      · rintro ⟨line', more', hlines', h⟩
        rw [hlines] at hlines'
        obtain ⟨rfl, -⟩ := List.cons.inj hlines'
        exact h
      · intro h
        exact ⟨line, more, hlines, h⟩
    rw [hplaced, and_iff_right hreal]
    by_cases hcolon : 58 ∈ st.spool
    · rw [repaired_colon hplain hflags hnl hcolon hlines, iff_true_right hcolon, or_comm]
    · rw [repaired_noColon hplain hflags hadded hnl hcolon hlines, iff_false_right hcolon,
        Bool.not_eq_true]
      have hfield : isHeaderField line = false := by
        rw [Bool.eq_false_iff]
        exact fun h => hcolon (hfirst.subset (isHeaderField_colon h))
      constructor
      · intro h
        exact ⟨fun field hnamed => absurd (colon_of_named hflags hnamed) hcolon, Or.inr h.1⟩
      · rintro ⟨-, hplace⟩
        rw [hfield] at hplace ⊢
        exact ⟨hplace.elim (fun h => by cases h) id, rfl⟩
  · rw [← hbreak] at hlf
    constructor
    · intro h
      exact absurd h (not_repaired_of_noLf hplain hadded hlf)
    · rintro ⟨hreal, -⟩
      exact absurd hreal hno

end

/-- **When the spool file is repaired**, from the texts that the loop has taken. -/
theorem repairs_iff {texts : List Bytes} {messageSize : Nat} (hplain : PlainFields env session)
    (hflags : FlagsAfter { messageSize } texts st) :
    (∃ file, (completeHeaders env session st).spool = some file ∧
        Repaired env session st file st.spool) ↔
      Repairable env.appendIo texts st.spool := by
  have hnil : addedFields st = [] ↔ ∀ field : Field, field.named (headerTexts texts) = true := by
    rw [List.eq_nil_iff_forall_not_mem]
    simp only [addedFields_texts hflags, Bool.not_eq_false]
  by_cases hkept : addedFields st = [] ∨ env.appendIo ≠ .done ∧ env.appendIo ≠ .rename
  · rw [completeHeaders_kept hkept]
    simp only [Option.some.injEq, exists_eq_left']
    rw [repaired_kept]
    constructor
    · rintro ⟨hall, hfirst⟩
      exact .kept (hkept.imp_left hnil.mp) hall hfirst
    · intro h
      cases h with
      | kept _ hall hfirst => exact ⟨hall, hfirst⟩
      | completed hmissing hio =>
        obtain ⟨field, hfield⟩ := hmissing
        rcases hkept with hall | hfails
        · rw [hnil.mp hall field] at hfield
          cases hfield
        · exact absurd hio hfails.1
  · obtain ⟨hadded, hend⟩ := not_or.mp hkept
    have hnotKept : ¬ ((∀ field : Field, field.named (headerTexts texts) = true) ∨
        env.appendIo ≠ .done ∧ env.appendIo ≠ .rename) := by
      rwa [← hnil]
    by_cases hio : env.appendIo = .done
    · rw [completeHeaders_done env session st hio]
      simp only [Option.some.injEq, exists_eq_left']
      rw [repaired_completed hplain hflags hadded]
      constructor
      · rintro ⟨hbreak, hseen, hplaced⟩
        obtain ⟨field, hfield⟩ := List.exists_mem_of_ne_nil _ hadded
        exact .completed ⟨field, (addedFields_texts hflags field).mp hfield⟩ hio hbreak hseen
          hplaced
      · intro h
        cases h with
        | kept hkept => exact absurd hkept hnotKept
        | completed _ _ hbreak hseen hplaced => exact ⟨hbreak, hseen, hplaced⟩
    · have hrename : env.appendIo = .rename := by
        by_contra hne
        exact hend ⟨hio, hne⟩
      rw [completeHeaders_rename hadded hrename]
      constructor
      · rintro ⟨file, hfile, -⟩
        cases hfile
      · intro h
        cases h with
        | kept hkept => exact absurd hkept hnotKept
        | completed _ hdone => exact absurd hdone hio

end

/-! ## The loop -/

section Message

variable {lines : List Line} {dot : Line} {rest : Wire} {r : ReadlineT × Socket}

/-- A piece that is a dot line would have had a text of its own. -/
theorem dataText_dotPiece {p : Bytes} (h : isDotLine p = true) : 0 < (dataText p).length := by
  cases p with
  | nil => exact absurd (head?_of_isDotLine h) (by simp)
  | cons b p =>
    have hb : b = DOT := Option.some.inj (head?_of_isDotLine h)
    have hcstr : cstr (b :: p) = DOT :: cstr p := by
      rw [hb]
      rfl
    rw [dataText_cons (by rw [hb]; decide), if_pos hb, List.length_pos_iff]
    intro hnil
    rw [isDotLine_iff, hcstr, hnil] at h
    exact absurd h (by decide)

/-- **When the loop takes a message as it was sent**: no line holds a NUL, and none has a dot
where the reader cuts. -/
theorem loop_spools_iff (messageSize : Nat)
    (hwire : wireOf r = bytesWire (linesBytes lines ++ dot.bytes) ++ rest)
    (hdots : ∀ line ∈ lines, ¬ line.isDot) (hdot : dot.isDot) :
    (dataLoop socketSource { messageSize } r).state.spool = (lines.map Line.unstuffed).flatten ↔
      ∀ line ∈ lines, (0 : UInt8) ∉ line.text ∧
        ∀ j, 0 < j → line.bytes[(MAXLINE - 1) * j]? ≠ some DOT := by
  simp only [← Line.cutsCleanly_iff]
  obtain ⟨hle, heq, hclean⟩ := lines_spooled lines
  constructor
  · intro hspool
    apply heq
    have hloop := dataLoop_map socketSource_hom { messageSize } r
    obtain ⟨before, p, after, hsplit, _, hp, hstop⟩ :=
      dataLoop_stops { messageSize } rest lines hdot
    rw [hwire, hstop] at hloop
    have hbefore : (before.map dataText).flatten = (lines.map Line.unstuffed).flatten := by
      rw [← hspool, ← congrArg (fun result => result.state.spool) hloop]
      dsimp only
      rw [foldl_spoolPiece_spool]
      rfl
    -- a piece that ends the loop too early takes its text with it
    rcases List.append_eq_append_iff.mp hsplit with ⟨more, hmore, hrest⟩ | ⟨more, hmore, hrest⟩
    · cases more with
      | nil =>
        rw [List.append_nil] at hmore
        rw [← hmore, hbefore]
      | cons q more =>
        have hlen := congrArg List.length hrest
        simp at hlen
    · cases more with
      | nil =>
        rw [List.append_nil] at hmore
        rw [hmore, hbefore]
      | cons q more =>
        obtain ⟨rfl, -⟩ := List.cons.inj hrest
        have hpos := dataText_dotPiece hp
        rw [hmore, List.map_append, List.flatten_append, hbefore, List.map_cons,
          List.flatten_cons, List.length_append, List.length_append] at hle
        omega
  · intro h
    have hcut : ∀ line ∈ lines, line.cutsCleanly := fun line hline => (h line hline).2
    rw [dataLoop_state messageSize hwire hdots hdot hcut, foldl_spoolPiece_spool,
      hclean (fun line hline => (h line hline).1) hcut]
    rfl

section

variable {M : Type} (env : DataEnv M) (session : Session) (messageSize : Nat)
  (hwire : wireOf r = bytesWire (linesBytes lines ++ dot.bytes) ++ rest)
  (hdots : ∀ line ∈ lines, ¬ line.isDot) (hdot : dot.isDot) (hplain : PlainFields env session)

include hwire hdots hdot hplain

/-- A message that the loop takes as it was sent. -/
theorem repaired_of_spooled (hspool : (dataLoop socketSource { messageSize } r).state.spool =
      (lines.map Line.unstuffed).flatten) :
    (∃ file,
        (completeHeaders env session (dataLoop socketSource { messageSize } r).state).spool =
          some file ∧
        Repaired env session (dataLoop socketSource { messageSize } r).state file
          (lines.map Line.unstuffed).flatten) ↔
      Repairable env.appendIo ((pieces lines).map dataText)
        (lines.map Line.unstuffed).flatten := by
  have hclean := (loop_spools_iff messageSize hwire hdots hdot).mp hspool
  have hflags := foldl_spoolPiece_flags { messageSize } (pieces lines)
  rw [← dataLoop_state messageSize hwire hdots hdot fun line hline =>
    line.cutsCleanly_iff.mpr (hclean line hline).2] at hflags
  rw [← hspool]
  exact repairs_iff hplain hflags

/-- **When the spool file is repaired**, for every message: when the loop takes it as it was
sent, and then by what it has taken. -/
theorem repaired_iff :
    (∃ file,
        (completeHeaders env session (dataLoop socketSource { messageSize } r).state).spool =
          some file ∧
        Repaired env session (dataLoop socketSource { messageSize } r).state file
          (lines.map Line.unstuffed).flatten) ↔
      (∀ line ∈ lines, (0 : UInt8) ∉ line.text ∧
        ∀ j, 0 < j → line.bytes[(MAXLINE - 1) * j]? ≠ some DOT) ∧
      Repairable env.appendIo ((pieces lines).map dataText)
        (lines.map Line.unstuffed).flatten := by
  rw [← loop_spools_iff messageSize hwire hdots hdot]
  have hrepairs := repaired_of_spooled env session messageSize hwire hdots hdot hplain
  constructor
  · rintro ⟨file, hfile, hrepaired⟩
    exact ⟨hrepaired.received, (hrepairs hrepaired.received).mp ⟨file, hfile, hrepaired⟩⟩
  · rintro ⟨hspool, hrepairable⟩
    exact (hrepairs hspool).mpr hrepairable

end

/-- The texts of lines that fit. -/
theorem texts_of_fits (hfits : ∀ line ∈ lines, line.bytes.length ≤ MAXLINE - 1)
    (hnul : ∀ line ∈ lines, (0 : UInt8) ∉ line.text) :
    (pieces lines).map dataText = lines.map Line.unstuffed := by
  induction lines with
  | nil => rfl
  | cons line lines ih =>
    have hpieces : pieces (line :: lines) = line.pieces ++ pieces lines := rfl
    rw [hpieces, List.map_append, Line.texts_of_fits (hfits line (by simp)) (hnul line (by simp)),
      ih (fun l hl => hfits l (by simp [hl])) (fun l hl => hnul l (by simp [hl]))]
    rfl

/-- A session with the sender of a `MAIL` line. -/
def mailSession : Session :=
  { smfSessionNew [] with
    envelope := smfEnvelopeSetSender {}
      (smfSmtpdGetReqValue (ascii "MAIL FROM:<a@b>\r" ++ [LF]) 10) }

theorem mailSession_plain : PlainFields DataEnv.plain mailSession where
  messageId := by decide
  date := by decide
  sender := by
    intro sender hsender
    rw [← Option.some.inj hsender]
    exact sender_noLf (by decide) 10

/-- A message with a header of one field. -/
theorem repaired_iff_subject :
    ∃ (r : ReadlineT × Socket) (file : Bytes),
      wireOf r = bytesWire (ascii "Subject: a\r\n\r\nb\r\n.\r\n") ∧
        (completeHeaders DataEnv.plain mailSession
          (dataLoop socketSource { messageSize := 0 } r).state).spool = some file ∧
        Repaired DataEnv.plain mailSession (dataLoop socketSource { messageSize := 0 } r).state
          file (ascii "Subject: a\r\n\r\nb\r\n") := by
  let lines : List Line :=
    [⟨ascii "Subject: a\r", by decide⟩, ⟨[CR], by decide⟩, ⟨ascii "b\r", by decide⟩]
  let r : ReadlineT × Socket :=
    ({}, [.data (ascii "Subject: a\r\n\r\nb\r\n.\r\n") (by decide) (by decide)])
  have hfits : ∀ line ∈ lines, line.bytes.length ≤ MAXLINE - 1 := by decide
  have hnul : ∀ line ∈ lines, (0 : UInt8) ∉ line.text := by decide
  have htexts := texts_of_fits hfits hnul
  have hiff := @repaired_iff lines crlfDot [] r Bytes DataEnv.plain mailSession 0 rfl (by decide)
    (Or.inr rfl) mailSession_plain
  rw [htexts] at hiff
  obtain ⟨file, hfile, hrepaired⟩ := hiff.mpr ⟨fun line hline => ⟨hnul line hline,
    line.cutsCleanly_iff.mp (Line.cutsCleanly_of_fits (hfits line hline))⟩,
    .completed ⟨.date, by decide⟩ rfl ⟨ascii "Subject: a\r\n", by decide, by decide⟩
      (fun field hnamed => absurd hnamed (by cases field <;> decide))
      ⟨ascii "Subject: a\r\n", _, rfl, Or.inl (by decide)⟩⟩
  exact ⟨r, file, rfl, hfile, hrepaired⟩

/-- A message without a header that has a colon gets no empty line in front of it, and a
message without lines gets `(null)` for its line breaks. -/
theorem not_repaired_headerless :
    (∃ r : ReadlineT × Socket,
      wireOf r = bytesWire (ascii "Hello,\r\nsee you at 10:30\r\n.\r\n") ∧
        ¬ ∃ file, (completeHeaders DataEnv.plain mailSession
            (dataLoop socketSource { messageSize := 0 } r).state).spool = some file ∧
          Repaired DataEnv.plain mailSession (dataLoop socketSource { messageSize := 0 } r).state
            file (ascii "Hello,\r\nsee you at 10:30\r\n")) ∧
    ∃ r : ReadlineT × Socket,
      wireOf r = bytesWire (ascii ".\r\n") ∧
        ¬ ∃ file, (completeHeaders DataEnv.plain mailSession
            (dataLoop socketSource { messageSize := 0 } r).state).spool = some file ∧
          Repaired DataEnv.plain mailSession (dataLoop socketSource { messageSize := 0 } r).state
            file [] := by
  constructor
  · let lines : List Line :=
      [⟨ascii "Hello,\r", by decide⟩, ⟨ascii "see you at 10:30\r", by decide⟩]
    let r : ReadlineT × Socket :=
      ({}, [.data (ascii "Hello,\r\nsee you at 10:30\r\n.\r\n") (by decide) (by decide)])
    have hfits : ∀ line ∈ lines, line.bytes.length ≤ MAXLINE - 1 := by decide
    have hnul : ∀ line ∈ lines, (0 : UInt8) ∉ line.text := by decide
    refine ⟨r, rfl, ?_⟩
    rintro ⟨file, hfile, hrepaired⟩
    have hiff := @repaired_of_spooled lines crlfDot [] r Bytes DataEnv.plain mailSession 0 rfl
      (by decide) (Or.inr rfl) mailSession_plain hrepaired.received
    rw [texts_of_fits hfits hnul] at hiff
    cases hiff.mp ⟨file, hfile, hrepaired⟩ with
    | kept hkept =>
      rcases hkept with hkept | hkept
      · exact absurd (hkept .date) (by decide)
      · exact hkept.1 rfl
    | completed _ _ _ _ hplaced =>
      obtain ⟨line, more, hlines, hfirst⟩ := hplaced
      obtain ⟨rfl, -⟩ : ascii "Hello,\r\n" = line ∧ _ := List.cons.inj hlines
      exact absurd hfirst (by decide)
  · let r : ReadlineT × Socket := ({}, [.data (ascii ".\r\n") (by decide) (by decide)])
    refine ⟨r, rfl, ?_⟩
    rintro ⟨file, hfile, hrepaired⟩
    have hiff := @repaired_of_spooled [] crlfDot [] r Bytes DataEnv.plain mailSession 0 rfl
      (by decide) (Or.inr rfl) mailSession_plain hrepaired.received
    cases hiff.mp ⟨file, hfile, hrepaired⟩ with
    | kept hkept =>
      rcases hkept with hkept | hkept
      · exact absurd (hkept .date) (by decide)
      · exact hkept.1 rfl
    | completed _ _ hbreak =>
      obtain ⟨text, hfind, -⟩ := hbreak
      cases hfind

end Message

end Spmfilter
