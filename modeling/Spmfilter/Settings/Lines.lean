import Spmfilter.Settings.Reading

/-!
# The lines of the file

`fgets` reads at most 199 bytes of a line, and the guard against long lines compares the
string with a length that it never has.  A line that fits is handed over whole.

* `readLines_closed` and `readLines_open` say what is handed over for a line with a line feed
  and for one that ends with the file.
* `readLines_lines` is the whole file, where every line fits.
* `readLines_bounded` : no text is longer than 199 bytes or holds a NUL, and the loop never
  stops for a line that is too long.
* `handsWhole_iff` says which files are handed over line by line.
-/

namespace Spmfilter

open CString Stdio

/-! ## One line -/

/-- The texts for a line that is closed by a line feed. -/
def handedClosed (l : Bytes) : List Bytes :=
  if l = [] then []
  else if l.length = MAX_LINE - 1 then
    -- the line feed is left for the next read, which goes over a backslash
    if l.getLast? = some BACKSLASH then [l.dropLast ++ [LF]] else [l]
  else [l ++ [LF]]

/-- The texts for a line that ends with the file. -/
def handedOpen (l : Bytes) : List Bytes :=
  if l.length < 2 ∨ l.getLast? = some BACKSLASH then [] else [l]

/-- A line without its line feed that one call of `fgets` reads. -/
structure FitsLine (l : Bytes) : Prop where
  noLF : LF ∉ l
  noNul : (0 : UInt8) ∉ l
  short : l.length ≤ MAX_LINE - 1

theorem readLines_zero (line input : Bytes) : readLines ⟨line, 0⟩ input = readLines {} input := by
  rw [readLines, readLines]
  rfl

section OneLine

variable {l : Bytes}

/-- A turn of `readLines`. -/
theorem readLines_cons {r : LineBuffer} {input chunk rest : Bytes}
    (hread : fgets (MAX_LINE - r.last) input = some (chunk, rest))
    (hless : rest.length < input.length) :
    readLines r input =
      match readTurn r chunk with
      | .stops e => ([], some e)
      | .goesOn r => readLines r rest
      | .hands text => (text :: (readLines {} rest).1, (readLines {} rest).2) := by
  rw [readLines, hread]
  exact if_pos hless

/-- What a turn does with a text that fits. -/
theorem readTurn_eq {r : LineBuffer} {chunk text : Bytes}
    (htext : cstr (r.line.take r.last ++ chunk) = text) (hne : text ≠ [])
    (hshort : text.length ≤ MAX_LINE - 1) :
    readTurn r chunk =
      if text.length = 1 then .goesOn ⟨text, r.last⟩
      else if text.getLast? = some BACKSLASH then .goesOn ⟨text, text.length - 1⟩
      else .hands text := by
  have hfits : ¬ MAX_LINE + 1 < text.length := by omega
  rw [readTurn, htext]
  simp only [if_neg hne, if_neg hfits]

/-- A line with its line feed is handed over. -/
theorem readTurn_closed {r : LineBuffer} {chunk : Bytes} (hne : l ≠ []) (hnul : (0 : UInt8) ∉ l)
    (hshort : l.length + 1 ≤ MAX_LINE - 1) (htext : r.line.take r.last ++ chunk = l ++ [LF]) :
    readTurn r chunk = .hands (l ++ [LF]) := by
  have hlength : (l ++ [LF]).length = l.length + 1 := List.length_append
  have hpos := List.length_pos_of_ne_nil hne
  have hcstr : cstr (r.line.take r.last ++ chunk) = l ++ [LF] := by
    rw [htext]
    apply cstr_of_noNul
    rw [List.mem_append, List.mem_singleton]
    rintro (h | h)
    · exact hnul h
    · exact absurd h (by decide)
  rw [readTurn_eq hcstr (by simp) (by omega), if_neg (by omega), List.getLast?_append_cons]
  rfl

/-- An empty line is passed over. -/
theorem readLines_blank (rest : Bytes) : readLines {} (LF :: rest) = readLines {} rest := by
  have hread : fgets (MAX_LINE - 0) (LF :: rest) = some ([LF], rest) :=
    @fgets_line _ [] rest List.not_mem_nil (by decide)
  have hturn : readTurn {} [LF] = .goesOn ⟨[LF], 0⟩ := rfl
  rw [readLines_cons hread (Nat.lt_succ_self _), hturn]
  exact readLines_zero [LF] rest

theorem readLines_closed (hl : FitsLine l) (rest : Bytes) :
    readLines {} (l ++ LF :: rest) =
      (handedClosed l ++ (readLines {} rest).1, (readLines {} rest).2) := by
  have hless : rest.length < (l ++ LF :: rest).length := by
    rw [List.length_append, List.length_cons]
    omega
  by_cases hempty : l = []
  · subst hempty
    exact readLines_blank rest
  have hpos := List.length_pos_of_ne_nil hempty
  have hshort : l.length ≤ 199 := hl.short
  rw [handedClosed, if_neg hempty]
  by_cases hfull : l.length = MAX_LINE - 1
  · -- the line fills the buffer, and its line feed comes with the next read
    have htake : (l ++ LF :: rest).take (MAX_LINE - 0 - 1) = l := List.take_left' hfull
    have hdrop : (l ++ LF :: rest).drop (MAX_LINE - 0 - 1) = LF :: rest := List.drop_left' hfull
    have hread : fgets (MAX_LINE - 0) (l ++ LF :: rest) = some (l, LF :: rest) := by
      rw [fgets_open (by simp) (by rw [htake]; exact hl.noLF), htake, hdrop]
    have hless' : (LF :: rest).length < (l ++ LF :: rest).length := by
      rw [List.length_append]
      omega
    have hmany : ¬ l.length = 1 := by
      rw [hfull]
      decide
    have htext : cstr (([] : Bytes).take 0 ++ l) = l := cstr_of_noNul hl.noNul
    rw [if_pos hfull, readLines_cons hread hless', readTurn_eq htext hempty hl.short, if_neg hmany]
    by_cases hback : l.getLast? = some BACKSLASH
    · have hread' : fgets (MAX_LINE - (l.length - 1)) (LF :: rest) = some ([LF], rest) := by
        rw [hfull]
        exact @fgets_line _ [] rest List.not_mem_nil (by decide)
      have hfront : l.dropLast.length = 198 := by
        rw [List.length_dropLast, hfull]
        rfl
      have hturn : readTurn ⟨l, l.length - 1⟩ [LF] = .hands (l.dropLast ++ [LF]) := by
        apply readTurn_closed
        · exact List.ne_nil_of_length_pos (by omega)
        · exact fun h => hl.noNul (List.mem_of_mem_dropLast h)
        · rw [hfront]
          decide
        · rw [List.dropLast_eq_take]
      rw [if_pos hback, if_pos hback]
      show readLines ⟨l, l.length - 1⟩ (LF :: rest) = _
      rw [readLines_cons hread' (Nat.lt_succ_self _), hturn]
      rfl
    · rw [if_neg hback, if_neg hback]
      simp only [readLines_blank]
      rfl
  · have hread : fgets (MAX_LINE - 0) (l ++ LF :: rest) = some (l ++ [LF], rest) := by
      apply fgets_line hl.noLF
      show l.length + 1 < 200
      have hne : l.length ≠ 199 := hfull
      omega
    have hturn : readTurn {} (l ++ [LF]) = .hands (l ++ [LF]) := by
      apply readTurn_closed hempty hl.noNul _ rfl
      show l.length + 1 ≤ 199
      have hne : l.length ≠ 199 := hfull
      omega
    rw [if_neg hfull, readLines_cons hread hless, hturn]
    rfl

theorem readLines_nil (r : LineBuffer) : readLines r [] = ([], none) := by
  rw [readLines, fgets, if_pos rfl]

theorem readLines_open (hl : FitsLine l) : readLines {} l = (handedOpen l, none) := by
  by_cases hempty : l = []
  · subst hempty
    exact readLines_nil {}
  have hpos := List.length_pos_of_ne_nil hempty
  have htake : l.take (MAX_LINE - 0 - 1) = l := List.take_of_length_le hl.short
  have hdrop : l.drop (MAX_LINE - 0 - 1) = [] := List.drop_of_length_le hl.short
  have hread : fgets (MAX_LINE - 0) l = some (l, []) := by
    rw [fgets_open hempty (by rw [htake]; exact hl.noLF), htake, hdrop]
  have htext : cstr (([] : Bytes).take 0 ++ l) = l := cstr_of_noNul hl.noNul
  rw [readLines_cons hread (show ([] : Bytes).length < l.length from hpos),
    readTurn_eq htext hempty hl.short, handedOpen]
  by_cases hone : l.length = 1
  · rw [if_pos hone, if_pos (Or.inl (by omega))]
    exact readLines_nil _
  rw [if_neg hone]
  by_cases hback : l.getLast? = some BACKSLASH
  · rw [if_pos hback, if_pos (Or.inr hback)]
    exact readLines_nil _
  · have hneither : ¬ (l.length < 2 ∨ l.getLast? = some BACKSLASH) := by
      rw [not_or]
      exact ⟨by omega, hback⟩
    rw [if_neg hback, if_neg hneither]
    simp only [readLines_nil]

end OneLine

/-- A whole file, where every line fits. -/
theorem readLines_lines {ls : List Bytes} {tail : Bytes} (hls : ∀ l ∈ ls, FitsLine l)
    (htail : FitsLine tail) :
    readLines {} ((ls.flatMap fun l => l ++ [LF]) ++ tail) =
      (ls.flatMap handedClosed ++ handedOpen tail, none) := by
  induction ls with
  | nil => exact readLines_open htail
  | cons l ls ih =>
    rw [List.forall_mem_cons] at hls
    rw [List.flatMap_cons, List.flatMap_cons, List.append_assoc, List.append_assoc,
      List.singleton_append, readLines_closed hls.1, ih hls.2, List.append_assoc]

/-! ## All texts -/

/-- No text is longer than a read or holds a NUL, and no line is refused for its length. -/
theorem readLines_bounded {r : LineBuffer} (h : r.Sound) (input : Bytes) :
    (∀ text ∈ (readLines r input).1, (0 : UInt8) ∉ text ∧ text.length ≤ MAX_LINE - 1) ∧
      (readLines r input).2 ≠ some .tooLong := by
  induction r, input using readLines.induct with
  | case1 r input hread =>
    rw [readLines, hread]
    exact ⟨fun _ h => absurd h List.not_mem_nil, fun h => by cases h⟩
  | case2 r input chunk rest hread hless e hturn =>
    have hsound := readTurn_sound h (fgets_forward h.room hread).2
    rw [hturn] at hsound
    rw [readLines_cons hread hless, hturn, show e = .outside from hsound]
    exact ⟨fun _ h => absurd h List.not_mem_nil, fun h => by cases h⟩
  | case3 r input chunk rest hread hless r' hturn ih =>
    have hsound := readTurn_sound h (fgets_forward h.room hread).2
    rw [hturn] at hsound
    rw [readLines_cons hread hless, hturn]
    exact ih hsound
  | case4 r input chunk rest hread hless text hturn ih =>
    have hsound := readTurn_sound h (fgets_forward h.room hread).2
    rw [hturn] at hsound
    obtain ⟨hrest, hstop⟩ := ih LineBuffer.sound_empty
    rw [readLines_cons hread hless, hturn]
    exact ⟨List.forall_mem_cons.mpr ⟨⟨hsound.1, Nat.le_sub_of_add_le hsound.2⟩, hrest⟩, hstop⟩
  | case5 r input chunk rest hread hless => exact absurd (fgets_forward h.room hread).1 hless

/-! ## What the lines say -/

/-- A line feed at the end says nothing. -/
theorem lineEffect_closed (l : Bytes) : lineEffect (l ++ [LF]) = lineEffect l := by
  have hspace : ∀ c ∈ [LF], isspace c = true := forall_mem_of_all (by decide)
  have hstrip : smfCoreStrstrip (l ++ [LF]) = smfCoreStrstrip l :=
    @smfCoreStrstrip_space [] [LF] l (List.forall_mem_nil _) hspace
  simp only [lineEffect, parseLine, hstrip]

theorem hand_closed (s : Stored) (l : Bytes) : s.hand (l ++ [LF]) = s.hand l := by
  rw [Stored.hand, Stored.hand, lineEffect_closed]

theorem hand_nil (s : Stored) : s.hand [] = .ok s := rfl

/-! ## Whole lines -/

/-- A line that the loop hands over as it stands: no NUL and at most 199 bytes in front of the
line feed, and what the first read takes of it is more than one byte and does not end in a
backslash. -/
structure LineFits (line : Bytes) : Prop where
  noNul : (0 : UInt8) ∉ line
  short : (lineContent line).length ≤ MAX_LINE - 1
  whole : line = [LF] ∨ 2 ≤ line.length ∧ (line.take (MAX_LINE - 1)).getLast? ≠ some BACKSLASH

/-- Every line goes to `_parse_line` whole, and the settings are what these lines say; or the
file is refused. -/
def HandsWhole (input : Bytes) : Prop :=
  (readLines {} input).2 = some .tooLong ∨
    (readLines {} input).2 = none ∧
      (readLines {} input).1.map lineContent = ((lines input).map lineContent).filter (· ≠ []) ∧
      ∀ c, configAfter c input = ((Stored.mk none c).handAll (lines input)).map Stored.config

section WholeLines

variable {l : Bytes}

theorem LineFits.fitsLine_open (h : LineFits l) (hl : LF ∉ l) : FitsLine l := by
  have hshort := h.short
  rw [lineContent_open hl] at hshort
  exact ⟨hl, h.noNul, hshort⟩

theorem LineFits.fitsLine_closed (h : LineFits (l ++ [LF])) (hl : LF ∉ l) : FitsLine l := by
  have hshort := h.short
  rw [lineContent_closed hl] at hshort
  exact ⟨hl, fun hnul => h.noNul (List.mem_append_left _ hnul), hshort⟩

/-- An open line is handed over whole when it fits. -/
theorem handedOpen_whole_iff (hl : FitsLine l) (hne : l ≠ []) :
    (handedOpen l).map lineContent = [l] ↔ LineFits l := by
  have hpos := List.length_pos_of_ne_nil hne
  have htake : l.take (MAX_LINE - 1) = l := List.take_of_length_le hl.short
  have hcontent := lineContent_open hl.noLF
  rw [handedOpen]
  split_ifs with hdropped
  · refine iff_of_false (by simp) fun hfits => ?_
    rcases hfits.whole with rfl | ⟨hlength, hlast⟩
    · exact hl.noLF (List.mem_singleton.mpr rfl)
    · rw [htake] at hlast
      rcases hdropped with hshort | hback
      · omega
      · exact hlast hback
  · rw [not_or] at hdropped
    rw [List.map_singleton, hcontent]
    refine iff_of_true rfl ⟨hl.noNul, ?_, Or.inr ⟨by omega, ?_⟩⟩
    · rw [hcontent]
      exact hl.short
    · rw [htake]
      exact hdropped.2

/-- So is a closed line. -/
theorem handedClosed_whole_iff (hl : FitsLine l) (hne : l ≠ []) :
    (handedClosed l).map lineContent = [l] ↔ LineFits (l ++ [LF]) := by
  have hpos := List.length_pos_of_ne_nil hne
  have hlength : (l ++ [LF]).length = l.length + 1 := List.length_append
  have hnul : (0 : UInt8) ∉ l ++ [LF] := by
    rw [List.mem_append, List.mem_singleton]
    rintro (h | h)
    · exact hl.noNul h
    · exact absurd h (by decide)
  have hcontent := lineContent_closed hl.noLF
  have hshort : (lineContent (l ++ [LF])).length ≤ MAX_LINE - 1 := by
    rw [hcontent]
    exact hl.short
  rw [handedClosed, if_neg hne]
  by_cases hfull : l.length = MAX_LINE - 1
  · have htake : (l ++ [LF]).take (MAX_LINE - 1) = l := List.take_left' hfull
    rw [if_pos hfull]
    by_cases hback : l.getLast? = some BACKSLASH
    · have hcut : LF ∉ l.dropLast := fun h => hl.noLF (List.mem_of_mem_dropLast h)
      rw [if_pos hback, List.map_singleton, lineContent_closed hcut]
      refine iff_of_false (fun h => ?_) fun hfits => ?_
      · have hsame := congrArg List.length (List.singleton_inj.mp h)
        rw [List.length_dropLast] at hsame
        omega
      · rcases hfits.whole with h | ⟨-, hlast⟩
        · rw [h] at hlength
          rw [hfull] at hlength
          exact absurd hlength (by decide)
        · rw [htake] at hlast
          exact hlast hback
    · rw [if_neg hback, List.map_singleton, lineContent_open hl.noLF]
      refine iff_of_true rfl ⟨hnul, hshort, Or.inr ⟨by omega, ?_⟩⟩
      rw [htake]
      exact hback
  · have hroom : l.length + 1 ≤ MAX_LINE - 1 := by
      have hle := hl.short
      omega
    have htake : (l ++ [LF]).take (MAX_LINE - 1) = l ++ [LF] :=
      List.take_of_length_le (hlength ▸ hroom)
    rw [if_neg hfull, List.map_singleton, hcontent]
    refine iff_of_true rfl ⟨hnul, hshort, Or.inr ⟨by omega, ?_⟩⟩
    rw [htake, List.getLast?_append_cons]
    decide

/-- A text that is handed over for a line says what the line says. -/
theorem read_of_content {texts : List Bytes} (hone : texts.map lineContent = [l])
    (htexts : ∀ text ∈ texts, text = lineContent text ∨ text = lineContent text ++ [LF])
    (s : Stored) (rest : List Bytes) (e : Option ReadStop) :
    s.read (texts ++ rest, e) = (s.hand l).bind fun s => s.read (rest, e) := by
  obtain ⟨text, rfl, rfl⟩ := List.map_eq_singleton_iff.mp hone
  rw [List.singleton_append, Stored.read_cons]
  rcases htexts text (List.mem_singleton.mpr rfl) with h | h
  · rw [← h]
  · rw [← hand_closed s (lineContent text), ← h]

theorem mem_handedClosed (hl : FitsLine l) {text : Bytes} (h : text ∈ handedClosed l) :
    text = lineContent text ∨ text = lineContent text ++ [LF] := by
  have hcut : LF ∉ l.dropLast := fun h => hl.noLF (List.mem_of_mem_dropLast h)
  rw [handedClosed] at h
  split_ifs at h
  · cases h
  · rw [List.mem_singleton.mp h, lineContent_closed hcut]
    exact Or.inr rfl
  · rw [List.mem_singleton.mp h, lineContent_open hl.noLF]
    exact Or.inl rfl
  · rw [List.mem_singleton.mp h, lineContent_closed hl.noLF]
    exact Or.inr rfl

/-- A file whose lines fit is handed over line by line. -/
theorem readLines_whole {input : Bytes} (h : ∀ line ∈ lines input, LineFits line) :
    (readLines {} input).2 = none ∧
      (readLines {} input).1.map lineContent = ((lines input).map lineContent).filter (· ≠ []) ∧
      ∀ s : Stored, s.read (readLines {} input) = s.handAll (lines input) := by
  induction input using lines_rec with
  | hnil =>
    rw [readLines_nil]
    exact ⟨rfl, rfl, fun _ => rfl⟩
  | hopen l hne hl =>
    have hlines : lines l = [l] := by rw [lines_open l hl, if_neg hne]
    rw [hlines, List.forall_mem_singleton] at h
    have hfits := h.fitsLine_open hl
    have hwhole := (handedOpen_whole_iff hfits hne).mpr h
    have hcontent := lineContent_open hl
    have htexts : ∀ text ∈ handedOpen l,
        text = lineContent text ∨ text = lineContent text ++ [LF] := by
      intro text htext
      rw [handedOpen] at htext
      split_ifs at htext
      · cases htext
      · rw [List.mem_singleton.mp htext, hcontent]
        exact Or.inl rfl
    rw [readLines_open hfits, hlines, hwhole]
    refine ⟨rfl, by simp [hcontent, hne], fun s => ?_⟩
    have hread := read_of_content hwhole htexts s [] none
    rw [List.append_nil] at hread
    rw [hread]
    rfl
  | hclosed l rest hl ih =>
    rw [lines_closed l rest hl, List.forall_mem_cons] at h
    have hfits := h.1.fitsLine_closed hl
    obtain ⟨hstop, hcontents, hread⟩ := ih h.2
    rw [readLines_closed hfits, lines_closed l rest hl, List.map_append, List.map_cons,
      lineContent_closed hl, hcontents]
    have hhand : ∀ s : Stored, s.handAll ((l ++ [LF]) :: lines rest) =
        (s.hand l).bind fun s => s.handAll (lines rest) := by
      intro s
      rw [← hand_closed]
      rfl
    by_cases hne : l = []
    · subst hne
      refine ⟨hstop, rfl, fun s => ?_⟩
      rw [hhand, hand_nil]
      exact hread s
    · have hwhole := (handedClosed_whole_iff hfits hne).mpr h.1
      rw [hwhole, List.filter_cons, if_pos (by simpa using hne)]
      refine ⟨hstop, rfl, fun s => ?_⟩
      rw [read_of_content hwhole (fun _ => mem_handedClosed hfits), hhand]
      exact congrArg (s.hand l).bind (funext hread)

/-- Where the texts have the contents of the lines, the lines fit. -/
theorem lineFits_of_contents {input : Bytes}
    (hshort : ∀ line ∈ lines input, (0 : UInt8) ∉ line ∧ (lineContent line).length ≤ MAX_LINE - 1)
    (hcontents : (readLines {} input).1.map lineContent =
      ((lines input).map lineContent).filter (· ≠ [])) :
    ∀ line ∈ lines input, LineFits line := by
  induction input using lines_rec with
  | hnil => exact List.forall_mem_nil _
  | hopen l hne hl =>
    have hlines : lines l = [l] := by rw [lines_open l hl, if_neg hne]
    rw [hlines, List.forall_mem_singleton, lineContent_open hl] at hshort
    have hfits : FitsLine l := ⟨hl, hshort.1, hshort.2⟩
    rw [hlines, List.forall_mem_singleton]
    rw [readLines_open hfits, hlines] at hcontents
    apply (handedOpen_whole_iff hfits hne).mp
    simpa [lineContent_open hl, hne] using hcontents
  | hclosed l rest hl ih =>
    rw [lines_closed l rest hl, List.forall_mem_cons, lineContent_closed hl] at hshort
    have hfits : FitsLine l := ⟨hl, fun h => hshort.1.1 (List.mem_append_left _ h), hshort.1.2⟩
    rw [readLines_closed hfits, lines_closed l rest hl, List.map_append, List.map_cons,
      lineContent_closed hl] at hcontents
    rw [lines_closed l rest hl, List.forall_mem_cons]
    by_cases hne : l = []
    · subst hne
      exact ⟨⟨hshort.1.1, Nat.zero_le _, Or.inl rfl⟩, ih hshort.2 hcontents⟩
    · rw [List.filter_cons, if_pos (by simpa using hne)] at hcontents
      have hone : (handedClosed l).length = 1 := by
        rw [handedClosed, if_neg hne]
        split_ifs <;> rfl
      have hsplit : (handedClosed l).map lineContent ++ (readLines {} rest).1.map lineContent =
          [l] ++ ((lines rest).map lineContent).filter (· ≠ []) := hcontents
      obtain ⟨hfirst, hrest⟩ := List.append_inj hsplit (by rw [List.length_map, hone]; rfl)
      exact ⟨(handedClosed_whole_iff hfits hne).mp hfirst, ih hshort.2 hrest⟩

end WholeLines

/-- What is handed over for a line bounds the line. -/
theorem bounded_of_contents {input : Bytes}
    (hcontents : (readLines {} input).1.map lineContent =
      ((lines input).map lineContent).filter (· ≠ [])) :
    ∀ line ∈ lines input, (0 : UInt8) ∉ line ∧ (lineContent line).length ≤ MAX_LINE - 1 := by
  intro line hline
  have hcontent : (0 : UInt8) ∉ lineContent line ∧ (lineContent line).length ≤ MAX_LINE - 1 := by
    by_cases hempty : lineContent line = []
    · rw [hempty]
      exact ⟨List.not_mem_nil, Nat.zero_le _⟩
    · have hmem : lineContent line ∈ (readLines {} input).1.map lineContent := by
        rw [hcontents, List.mem_filter]
        exact ⟨List.mem_map_of_mem hline, by simpa using hempty⟩
      obtain ⟨text, htext, hsame⟩ := List.mem_map.mp hmem
      obtain ⟨hnul, hshort⟩ := (readLines_bounded LineBuffer.sound_empty input).1 text htext
      have hbegins : lineContent line <+: text := hsame ▸ List.takeWhile_prefix _
      exact ⟨fun h => hnul (hbegins.subset h), hbegins.length_le.trans hshort⟩
  refine ⟨fun h => ?_, hcontent.2⟩
  rcases mem_lines hline with hsame | hsame
  · exact hcontent.1 (hsame ▸ h)
  · rw [hsame, List.mem_append, List.mem_singleton] at h
    rcases h with h | h
    · exact hcontent.1 h
    · exact absurd h (by decide)

theorem HandsWhole.lineFits {input : Bytes} (h : HandsWhole input) :
    ∀ line ∈ lines input, LineFits line := by
  rcases h with hlong | ⟨-, hcontents, -⟩
  · exact absurd hlong (readLines_bounded LineBuffer.sound_empty input).2
  · exact lineFits_of_contents (bounded_of_contents hcontents) hcontents

/-- **Which files are handed over line by line.** -/
theorem handsWhole_iff (input : Bytes) :
    HandsWhole input ↔ ∀ line ∈ lines input, LineFits line := by
  constructor
  · exact HandsWhole.lineFits
  · intro hfits
    obtain ⟨hstop, hcontents, hread⟩ := readLines_whole hfits
    refine Or.inr ⟨hstop, hcontents, fun c => ?_⟩
    rw [configAfter_eq, hread]

/-- A value of 200 bytes. -/
theorem handsWhole_long : ¬ ∀ input, HandsWhole input := by
  intro hall
  have hvalue : ∀ c ∈ ascii "host = " ++ List.replicate 200 97, c ≠ LF :=
    forall_mem_of_all (by decide)
  have hline : LF ∉ ascii "host = " ++ List.replicate 200 97 := fun h => hvalue LF h rfl
  have hshort := ((hall (ascii "host = " ++ List.replicate 200 97 ++ [LF])).lineFits _ (by
    rw [lines_closed _ [] hline]
    exact List.mem_cons_self)).short
  rw [lineContent_closed hline, List.length_append, List.length_replicate] at hshort
  exact absurd hshort (by decide)

end Spmfilter
