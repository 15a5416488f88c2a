import Spmfilter.Settings.Lines
import Spmfilter.Settings.Writes

/-!
# Continuation lines

A line is broken by a backslash and a newline.  `fgets` keeps the newline, and so the string in
the buffer ends in a newline and not in the backslash: the pieces are handed over as lines of
their own.

* `BrokenLine` and `ConfigFile` are the files, in their broken and their whole form.
* `ConfigFile.readLines_broken` and `readLines_whole` are the texts that they lead to.
* `sectionsAfter_cases` : where texts lead to, from any section.
* `BrokenLine.SameWrites` : the pieces write what the whole line writes.
* `BrokenLine.Harmless` : they do to all settings what the whole line does, which is the same
  (`harmless_iff`).
* `sameSettings_iff` says which ways to break lines change nothing in any file.
-/

namespace Spmfilter

open CString Stdio

/-! ## Broken lines -/

/-- A line and the pieces that it is broken into: each of `front` is followed by a backslash
and a newline. -/
structure BrokenLine where
  front : List Bytes
  last : Bytes
  fits : FitsLine (front.flatten ++ last)
  front_fits : ∀ piece ∈ front, piece.length + 1 ≤ MAX_LINE - 1
  /-- A line that is broken is a value line. -/
  value : front ≠ [] → ∃ key val, lineEffect (front.flatten ++ last) = .assigns key val
  /-- It is not continued itself where it fills the buffer. -/
  complete : front ≠ [] → (front.flatten ++ last).length = MAX_LINE - 1 →
    (front.flatten ++ last).getLast? ≠ some BACKSLASH

namespace BrokenLine

def whole (l : BrokenLine) : Bytes := l.front.flatten ++ l.last

/-- The pieces in front of the last one, as lines. -/
def continued (l : BrokenLine) : List Bytes := l.front.map fun piece => piece ++ [BACKSLASH]

end BrokenLine

/-- A file: its lines, and what comes after the last newline. -/
structure ConfigFile where
  lines : List BrokenLine
  tail : BrokenLine

namespace ConfigFile

def broken (f : ConfigFile) : Bytes :=
  ((f.lines.flatMap fun l => l.continued ++ [l.last]) ++ f.tail.continued).flatMap
    (fun line => line ++ [LF]) ++ f.tail.last

def whole (f : ConfigFile) : Bytes :=
  (f.lines.map BrokenLine.whole).flatMap (fun line => line ++ [LF]) ++ f.tail.whole

end ConfigFile

/-- Where the loop gets through the whole form, it stores the same from the broken one. -/
def SameSettings (c : Config) (f : ConfigFile) : Prop :=
  ∀ d, configAfter c f.whole = .ok d → configAfter c f.broken = .ok d

/-! ## The texts of a file -/

theorem FitsLine.infix {s t : Bytes} (h : FitsLine t) (hst : s <:+: t) : FitsLine s where
  noLF := fun hmem => h.noLF (hst.subset hmem)
  noNul := fun hmem => h.noNul (hst.subset hmem)
  short := hst.length_le.trans h.short

namespace BrokenLine

variable (l : BrokenLine)

/-- What is handed over for the pieces. -/
def texts : List Bytes := l.continued.flatMap handedClosed ++ handedClosed l.last

/-- What is handed over for the pieces where the file ends with the last one. -/
def textsAtEnd : List Bytes := l.continued.flatMap handedClosed ++ handedOpen l.last

theorem whole_fits : FitsLine l.whole := l.fits

theorem last_fits : FitsLine l.last :=
  l.fits.infix (List.suffix_append _ _).isInfix

theorem continued_fits : ∀ line ∈ l.continued, FitsLine line := by
  intro line h
  obtain ⟨piece, hmem, rfl⟩ := List.mem_map.mp h
  have hpiece : FitsLine piece := by
    obtain ⟨before, after, hfront⟩ := List.append_of_mem hmem
    apply l.fits.infix
    rw [hfront, List.flatten_append, List.flatten_cons]
    exact ⟨before.flatten, after.flatten ++ l.last, by simp⟩
  have hback : LF ∉ [BACKSLASH] ∧ (0 : UInt8) ∉ [BACKSLASH] := by decide
  refine ⟨fun hlf => ?_, fun hnul => ?_, ?_⟩
  · exact (List.mem_append.mp hlf).elim hpiece.noLF hback.1
  · exact (List.mem_append.mp hnul).elim hpiece.noNul hback.2
  · rw [List.length_append]
    exact l.front_fits piece hmem

end BrokenLine

theorem ConfigFile.readLines_whole (f : ConfigFile) :
    readLines {} f.whole =
      ((f.lines.flatMap fun l => handedClosed l.whole) ++ handedOpen f.tail.whole, none) := by
  have hlines : ∀ line ∈ f.lines.map BrokenLine.whole, FitsLine line := by
    intro line h
    obtain ⟨l, -, rfl⟩ := List.mem_map.mp h
    exact l.fits
  rw [whole, readLines_lines hlines f.tail.whole_fits, List.flatMap_map]

theorem ConfigFile.readLines_broken (f : ConfigFile) :
    readLines {} f.broken = (f.lines.flatMap BrokenLine.texts ++ f.tail.textsAtEnd, none) := by
  have hlines : ∀ line ∈ (f.lines.flatMap fun l => l.continued ++ [l.last]) ++ f.tail.continued,
      FitsLine line := by
    intro line h
    rcases List.mem_append.mp h with h | h
    · obtain ⟨l, -, h⟩ := List.mem_flatMap.mp h
      rcases List.mem_append.mp h with h | h
      · exact l.continued_fits line h
      · rw [List.mem_singleton.mp h]
        exact l.last_fits
    · exact f.tail.continued_fits line h
  have htexts : (f.lines.flatMap fun l => l.continued ++ [l.last]).flatMap handedClosed =
      f.lines.flatMap BrokenLine.texts := by
    rw [List.flatMap_assoc]
    apply List.flatMap_congr
    intro l _
    rw [List.flatMap_append, List.flatMap_singleton, BrokenLine.texts]
  rw [broken, readLines_lines hlines f.tail.last_fits, List.flatMap_append, htexts,
    List.append_assoc, BrokenLine.textsAtEnd]

/-! ## Where texts lead to -/

theorem Stored.handAll_append (s : Stored) (texts more : List Bytes) :
    s.handAll (texts ++ more) = (s.handAll texts).bind fun s => s.handAll more :=
  List.foldlM_append

theorem configAfter_texts {c : Config} {input : Bytes} {texts : List Bytes}
    (h : readLines {} input = (texts, none)) :
    configAfter c input = ((Stored.mk none c).handAll texts).map Stored.config := by
  rw [configAfter_eq, h, Stored.read]
  cases (Stored.mk none c).handAll texts <;> rfl

theorem hand_sectionName {s t : Stored} {text : Bytes} (h : s.hand text = .ok t) :
    t.sectionName = sectionAfter s.sectionName text := by
  rw [Stored.hand] at h
  rw [sectionAfter]
  cases heffect : lineEffect text with
  | nothing =>
    rw [heffect] at h
    exact congrArg Stored.sectionName (Except.ok.inj h).symm
  | entersSection name =>
    rw [heffect] at h
    exact congrArg Stored.sectionName (Except.ok.inj h).symm
  | assigns key val =>
    rw [heffect] at h
    simp only at h ⊢
    split at h
    · cases h
    · split at h
      · rw [← Except.ok.inj h]
      · cases h

theorem handAll_sectionName {s t : Stored} {texts : List Bytes} (h : s.handAll texts = .ok t) :
    t.sectionName = sectionsAfter s.sectionName texts := by
  induction texts generalizing s with
  | nil => exact congrArg Stored.sectionName (Except.ok.inj h).symm
  | cons text texts ih =>
    obtain ⟨u, hfirst, hrest⟩ := bind_eq_ok_iff.mp h
    rw [ih hrest, hand_sectionName hfirst]
    rfl

/-- Texts lead to a section of their own, or they stay in the section. -/
theorem sectionsAfter_cases (texts : List Bytes) :
    (∃ name, ∀ sec, sectionsAfter sec texts = some name) ∨
      ∀ name, sectionsAfter (some name) texts = some name := by
  induction texts with
  | nil => exact Or.inr fun _ => rfl
  | cons text texts ih =>
    rcases ih with ⟨name, hname⟩ | hstays
    · exact Or.inl ⟨name, fun sec => hname (sectionAfter sec text)⟩
    · cases heffect : lineEffect text with
      | nothing | assigns key val =>
        refine Or.inr fun name => ?_
        have hsame : sectionAfter (some name) text = some name := by rw [sectionAfter, heffect]
        rw [sectionsAfter, List.foldl_cons, hsame]
        exact hstays name
      | entersSection name =>
        cases name with
        | some name =>
          refine Or.inl ⟨name, fun sec => ?_⟩
          have henters : sectionAfter sec text = some name := by
            rw [sectionAfter, heffect]
            rfl
          rw [sectionsAfter, List.foldl_cons, henters]
          exact hstays name
        | none =>
          refine Or.inr fun name => ?_
          have hsame : sectionAfter (some name) text = some name := by
            rw [sectionAfter, heffect]
            rfl
          rw [sectionsAfter, List.foldl_cons, hsame]
          exact hstays name

/-! ## Harmless breaks -/

/-- A line that is read whole. -/
abbrev WholeLine := { l : Bytes // FitsLine l }

/-- A section that lines lead to which leave the settings alone, or none. -/
def Reached (sec : Option Bytes) : Prop :=
  ∃ ls : List WholeLine,
    ∀ c, (Stored.mk none c).handAll (ls.flatMap fun l => handedClosed l.1) = .ok ⟨sec, c⟩

namespace BrokenLine

/-- In every section the pieces write what the whole line writes, and they stay there. -/
structure SameWrites (l : BrokenLine) : Prop where
  stays : ∀ name, Reached (some name) →
    sectionsAfter (some name) l.texts = sectionsAfter (some name) (handedClosed l.whole)
  comes : ∀ name, Reached (some name) →
    ComesTo (writes name l.texts) (writes name (handedClosed l.whole))

/-- The same at the end of a file, where the section does not matter any more. -/
def SameWritesAtEnd (l : BrokenLine) : Prop :=
  ∀ name, Reached (some name) → ComesTo (writes name l.textsAtEnd) (writes name (handedOpen l.whole))

/-- From every section and all settings the pieces lead where the whole line leads. -/
def Harmless (l : BrokenLine) : Prop :=
  ∀ sec, Reached sec → ∀ c t, c.Represented →
    (Stored.mk sec c).handAll (handedClosed l.whole) = .ok t →
      (Stored.mk sec c).handAll l.texts = .ok t

def HarmlessAtEnd (l : BrokenLine) : Prop :=
  ∀ sec, Reached sec → ∀ c t, c.Represented →
    (Stored.mk sec c).handAll (handedOpen l.whole) = .ok t →
      ∃ u, (Stored.mk sec c).handAll l.textsAtEnd = .ok u ∧ u.config = t.config

end BrokenLine

/-- The same settings are a matter of the texts. -/
theorem sameSettings_iff_texts (c : Config) (f : ConfigFile) :
    SameSettings c f ↔
      ∀ t, (Stored.mk none c).handAll
          ((f.lines.flatMap fun l => handedClosed l.whole) ++ handedOpen f.tail.whole) = .ok t →
        ∃ u, (Stored.mk none c).handAll (f.lines.flatMap BrokenLine.texts ++ f.tail.textsAtEnd) =
          .ok u ∧ u.config = t.config := by
  rw [SameSettings, configAfter_texts f.readLines_whole, configAfter_texts f.readLines_broken]
  constructor
  · intro h t ht
    exact map_eq_ok_iff.mp (h t.config (map_eq_ok_iff.mpr ⟨t, ht, rfl⟩))
  · intro h d hd
    obtain ⟨t, ht, rfl⟩ := map_eq_ok_iff.mp hd
    exact map_eq_ok_iff.mpr (h t ht)

theorem handedClosed_single {l : Bytes} (hne : l ≠ []) : ∃ text, handedClosed l = [text] := by
  rw [handedClosed, if_neg hne]
  split_ifs <;> exact ⟨_, rfl⟩

/-- The sections that a run comes to are reached. -/
theorem Reached.line {s t : Stored} {l : Bytes} (h : Reached s.sectionName) (hl : FitsLine l)
    (ht : s.handAll (handedClosed l) = .ok t) : Reached t.sectionName := by
  rw [handAll_sectionName ht]
  by_cases hne : l = []
  · subst hne
    exact h
  obtain ⟨text, htext⟩ := handedClosed_single hne
  rw [htext]
  show Reached (sectionAfter s.sectionName text)
  cases heffect : lineEffect text with
  | nothing | assigns key val =>
    rw [sectionAfter, heffect]
    exact h
  | entersSection name =>
    obtain ⟨ls, hls⟩ := h
    refine ⟨ls ++ [⟨l, hl⟩], fun c => ?_⟩
    rw [List.flatMap_append, List.flatMap_singleton, Stored.handAll_append, hls, htext]
    show (Stored.mk s.sectionName c).handAll [text] = _
    rw [Stored.handAll_cons, Stored.hand, sectionAfter, heffect]
    rfl

theorem reached_none : Reached none := ⟨[], fun _ => rfl⟩

/-- Lines with harmless breaks, one after the other. -/
theorem handAll_harmless {ls : List BrokenLine} (hls : ∀ l ∈ ls, l.Harmless) {s t : Stored}
    (hs : Reached s.sectionName) (hc : s.config.Represented)
    (ht : s.handAll (ls.flatMap fun l => handedClosed l.whole) = .ok t) :
    s.handAll (ls.flatMap BrokenLine.texts) = .ok t ∧ Reached t.sectionName ∧
      t.config.Represented := by
  induction ls generalizing s with
  | nil =>
    obtain rfl := Except.ok.inj ht
    exact ⟨rfl, hs, hc⟩
  | cons l ls ih =>
    rw [List.forall_mem_cons] at hls
    rw [List.flatMap_cons, Stored.handAll_append] at ht ⊢
    obtain ⟨u, hfirst, hrest⟩ := bind_eq_ok_iff.mp ht
    rw [hls.1 s.sectionName hs s.config u hc hfirst]
    exact ih hls.2 (hs.line l.whole_fits hfirst) (handAll_represented hc hfirst) hrest

/-- Harmless breaks change nothing. -/
theorem sameSettings_of_harmless {f : ConfigFile} (hlines : ∀ l ∈ f.lines, l.Harmless)
    (htail : f.tail.HarmlessAtEnd) {c : Config} (hc : c.Represented) : SameSettings c f := by
  rw [sameSettings_iff_texts]
  intro t ht
  rw [Stored.handAll_append] at ht ⊢
  obtain ⟨s, hbody, hrest⟩ := bind_eq_ok_iff.mp ht
  obtain ⟨hbroken, hreached, hrep⟩ := handAll_harmless hlines reached_none hc hbody
  rw [hbroken]
  exact htail s.sectionName hreached s.config t hrep hrest

/-! ## Breaks that are not harmless -/

/-- A line that is not broken. -/
def BrokenLine.unbroken (l : WholeLine) : BrokenLine where
  front := []
  last := l.1
  fits := l.2
  front_fits := List.forall_mem_nil _
  value := fun h => absurd rfl h
  complete := fun h => absurd rfl h

theorem fitsLine_nil : FitsLine [] := ⟨List.not_mem_nil, List.not_mem_nil, Nat.zero_le _⟩

/-- A file that ends with a newline. -/
def ConfigFile.closed (lines : List BrokenLine) : ConfigFile :=
  ⟨lines, .unbroken ⟨[], fitsLine_nil⟩⟩

theorem flatMap_unbroken_whole (ls : List WholeLine) :
    ((ls.map BrokenLine.unbroken).flatMap fun l => handedClosed l.whole) =
      ls.flatMap fun l => handedClosed l.1 := by
  rw [List.flatMap_map]
  rfl

theorem flatMap_unbroken_texts (ls : List WholeLine) :
    (ls.map BrokenLine.unbroken).flatMap BrokenLine.texts =
      ls.flatMap fun l => handedClosed l.1 := by
  rw [List.flatMap_map]
  rfl

/-- A broken line is handed over as one text, when it is whole. -/
theorem BrokenLine.whole_text {l : BrokenLine} (hbroken : l.front ≠ []) :
    ∃ text, handedClosed l.whole = [text] ∧ lineEffect text = lineEffect l.whole := by
  obtain ⟨key, val, hvalue⟩ := l.value hbroken
  have hne : l.whole ≠ [] := by
    intro h
    rw [show l.front.flatten ++ l.last = [] from h] at hvalue
    cases hvalue
  rw [handedClosed, if_neg hne]
  split_ifs with hfull hback
  · exact absurd hback (l.complete hbroken hfull)
  · exact ⟨_, rfl, rfl⟩
  · exact ⟨_, rfl, lineEffect_closed l.whole⟩

/-- It says a value. -/
theorem BrokenLine.whole_value {l : BrokenLine} (hbroken : l.front ≠ []) :
    ∃ text key val, handedClosed l.whole = [text] ∧ lineEffect text = .assigns key val := by
  obtain ⟨key, val, hvalue⟩ := l.value hbroken
  obtain ⟨text, htext, heffect⟩ := whole_text hbroken
  exact ⟨text, key, val, htext, heffect.trans hvalue⟩

/-! ### Numbers that tell sections apart -/

theorem store_number (c : Config) (f : NumberField) {val : Bytes} (hval : val ≠ []) {i : Int}
    (hread : f.read val = some i) :
    store c f.place.sectionName f.place.key val =
      some { c with numbers := Function.update c.numbers f i } := by
  have hbuiltin : isBuiltin f.place.sectionName = true := by cases f <;> decide
  have hstring : StringField.all.find? (·.place = f.place) = none := by cases f <;> decide
  have hnumber : NumberField.all.find? (·.place = f.place) = some f := by cases f <;> decide
  have hother : setConfigValue c f.place val = some (setOther c f.place val) := by
    rw [setConfigValue, if_neg hval]
    split
    · rename_i g hg
      exact absurd (hstring.symm.trans hg) (Option.some_ne_none g).symm
    · rfl
  rw [store, if_pos hbuiltin]
  refine hother.trans ?_
  rw [setOther, hnumber]
  simp only [hread]

theorem setOther_numbers (c : Config) {place : Place} (val : Bytes) {f : NumberField}
    (hplace : f.place ≠ place) : (setOther c place val).numbers f = c.numbers f := by
  rw [setOther]
  split
  · rename_i g hg
    have hg := List.find?_some hg
    have hother : f ≠ g := fun hfg => hplace (hfg ▸ of_decide_eq_true hg)
    split
    · exact Function.update_of_ne hother _ c.numbers
    · rfl
  · split
    · rfl
    · split_ifs <;> rfl

/-- An entry elsewhere leaves a number as it is. -/
theorem store_numbers {c d : Config} {name key val : Bytes} (h : store c name key val = some d)
    {f : NumberField} (hplace : f.place ≠ ⟨name, key⟩) : d.numbers f = c.numbers f := by
  rw [store] at h
  split_ifs at h
  · rw [setConfigValue] at h
    split at h
    · rw [← Option.some.inj h]
    · split at h
      · obtain ⟨p, -, rfl⟩ := Option.map_eq_some_iff.mp h
        rfl
      · rw [← Option.some.inj h]
        exact setOther_numbers c val hplace
  · rw [← Option.some.inj h]

/-- The line that enters the section of a number. -/
def numberSection (f : NumberField) : Bytes := BRACKET :: f.place.sectionName ++ [CLOSING]

/-- The line that sets a number to a digit. -/
def numberLine (f : NumberField) (digit : UInt8) : Bytes := f.place.key ++ [EQUALS, digit]

/-- The two numbers that are used, and the two digits. -/
def probes : List NumberField := [.maxChilds, .sqlPort]

def digits : List (UInt8 × Int) := [(49, 1), (50, 2)]

theorem probe_lines {f : NumberField} (hf : f ∈ probes) {d : UInt8 × Int} (hd : d ∈ digits) :
    FitsLine (numberSection f) ∧ FitsLine (numberLine f d.1) ∧
      handedClosed (numberSection f) = [numberSection f ++ [LF]] ∧
      handedClosed (numberLine f d.1) = [numberLine f d.1 ++ [LF]] ∧
      lineEffect (numberSection f ++ [LF]) = .entersSection (some f.place.sectionName) ∧
      lineEffect (numberLine f d.1 ++ [LF]) = .assigns f.place.key [d.1] ∧
      f.read [d.1] = some d.2 := by
  rw [probes, List.mem_cons, List.mem_singleton] at hf
  rw [digits, List.mem_cons, List.mem_singleton] at hd
  rcases hf with rfl | rfl <;> rcases hd with rfl | rfl <;>
    exact ⟨⟨by decide, by decide, by decide⟩, ⟨by decide, by decide, by decide⟩, by rfl, by rfl,
      by rfl, by rfl, by rfl⟩

/-! ### One broken line in a file -/

/-- Nothing changes in the files where `l` is the only line that is broken. -/
def BrokenLine.SameInFiles (l : BrokenLine) : Prop :=
  ∀ c ls, c.Represented → (∀ m ∈ ls, m.front = [] ∨ m = l) → SameSettings c (.closed ls)

section OneBrokenLine

variable {l : BrokenLine} {c : Config} {sec : Option Bytes}

/-- The pieces of the line do to the settings what the line does, with lines behind them. -/
theorem BrokenLine.SameInFiles.after (h : l.SameInFiles) (hc : c.Represented)
    (hsec : Reached sec) (more : List WholeLine) {t : Stored}
    (ht : (Stored.mk sec c).handAll
      (handedClosed l.whole ++ more.flatMap fun l => handedClosed l.1) = .ok t) :
    ∃ u, (Stored.mk sec c).handAll (l.texts ++ more.flatMap fun l => handedClosed l.1) = .ok u ∧
      u.config = t.config := by
  obtain ⟨ls, hls⟩ := hsec
  have hunbroken : ∀ (ls : List WholeLine), ∀ m ∈ ls.map BrokenLine.unbroken, m.front = [] := by
    intro ls m hm
    obtain ⟨w, -, rfl⟩ := List.mem_map.mp hm
    rfl
  have hfile := h c (ls.map unbroken ++ l :: more.map unbroken) hc (by
    intro m hm
    rcases List.mem_append.mp hm with hm | hm
    · exact Or.inl (hunbroken ls m hm)
    · rcases List.mem_cons.mp hm with rfl | hm
      · exact Or.inr rfl
      · exact Or.inl (hunbroken more m hm))
  have hempty : handedOpen [] = [] := rfl
  rw [sameSettings_iff_texts] at hfile
  simp only [ConfigFile.closed, List.flatMap_append, List.flatMap_cons, flatMap_unbroken_whole,
    flatMap_unbroken_texts] at hfile
  show ∃ u, _
  have hwhole : (Stored.mk none c).handAll
      (((ls.flatMap fun l => handedClosed l.1) ++
        (handedClosed l.whole ++ more.flatMap fun l => handedClosed l.1)) ++ []) = .ok t := by
    rw [List.append_nil, Stored.handAll_append, hls]
    exact ht
  obtain ⟨u, hu, hconfig⟩ := hfile t hwhole
  have hbroken : (Stored.mk none c).handAll
      (((ls.flatMap fun l => handedClosed l.1) ++
        (l.texts ++ more.flatMap fun l => handedClosed l.1)) ++ []) = .ok u := hu
  rw [List.append_nil, Stored.handAll_append, hls] at hbroken
  exact ⟨u, hbroken, hconfig⟩

/-- A value line goes through in every section, from new settings. -/
theorem BrokenLine.whole_new (hbroken : l.front ≠ []) (name : Bytes) :
    ∃ d, (Stored.mk (some name) smfSettingsNew).handAll (handedClosed l.whole) =
      .ok ⟨some name, d⟩ := by
  obtain ⟨text, key, val, htext, heffect⟩ := l.whole_value hbroken
  obtain ⟨d, hd⟩ : ∃ d, store smfSettingsNew name key val = some d := by
    rw [store_eq]
    cases entryWrite name key val with
    | none => exact ⟨_, rfl⟩
    | some w => cases w <;> exact ⟨_, rfl⟩
  refine ⟨d, ?_⟩
  rw [htext, Stored.handAll_cons, hand_assigns heffect, hd]
  rfl

theorem reached_line (l : WholeLine) {text name : Bytes} (htext : handedClosed l.1 = [text])
    (heffect : lineEffect text = .entersSection (some name)) : Reached (some name) := by
  refine ⟨[l], fun c => ?_⟩
  rw [List.flatMap_singleton, htext, Stored.handAll_cons, Stored.hand, heffect]
  rfl

/-- The section of a number can be entered. -/
theorem reached_probe {f : NumberField} (hf : f ∈ probes) : Reached (some f.place.sectionName) := by
  obtain ⟨hfits, -, htexts, -, heffect, -⟩ := probe_lines hf (show (49, 1) ∈ digits by decide)
  exact reached_line ⟨_, hfits⟩ htexts heffect

/-- In its own section the line for a number sets it. -/
theorem handAll_number {f : NumberField} (hf : f ∈ probes) {d : UInt8 × Int} (hd : d ∈ digits)
    (c : Config) :
    (Stored.mk (some f.place.sectionName) c).handAll (handedClosed (numberLine f d.1)) =
      .ok ⟨some f.place.sectionName, { c with numbers := Function.update c.numbers f d.2 }⟩ := by
  obtain ⟨-, -, -, htexts, -, heffect, hread⟩ := probe_lines hf hd
  rw [htexts, Stored.handAll_cons, hand_assigns heffect,
    store_number c f (List.cons_ne_nil d.1 []) hread]
  rfl

/-- In another section it does not. -/
theorem handAll_number_elsewhere {f : NumberField} (hf : f ∈ probes) {d : UInt8 × Int}
    (hd : d ∈ digits) {name : Bytes} (hname : f.place.sectionName ≠ name) {c : Config} {t : Stored}
    (ht : (Stored.mk (some name) c).handAll (handedClosed (numberLine f d.1)) = .ok t) :
    t.config.numbers f = c.numbers f := by
  obtain ⟨-, -, -, htexts, -, heffect, -⟩ := probe_lines hf hd
  rw [htexts, Stored.handAll_cons, hand_assigns heffect] at ht
  cases hstore : store c name f.place.key [d.1] with
  | none =>
    rw [hstore] at ht
    cases ht
  | some e =>
    rw [hstore] at ht
    obtain rfl := Except.ok.inj ht
    exact store_numbers hstore fun hplace => hname (congrArg Place.sectionName hplace)

/-- The pieces stay in the section: where they entered another one, an entry behind them would
be stored there. -/
theorem BrokenLine.SameInFiles.stays (h : l.SameInFiles) (hbroken : l.front ≠ []) (name : Bytes) :
    sectionsAfter (some name) l.texts = some name := by
  rcases sectionsAfter_cases l.texts with ⟨y, hy⟩ | hstays
  · exfalso
    obtain ⟨f, hf, hfy⟩ : ∃ f ∈ probes, f.place.sectionName ≠ y := by
      by_cases hglobal : y = ascii "global"
      · exact ⟨.sqlPort, by decide, by rw [hglobal]; decide⟩
      · exact ⟨.maxChilds, by decide, fun h => hglobal h.symm⟩
    obtain ⟨e, hwhole⟩ := whole_new hbroken f.place.sectionName
    obtain ⟨d, hd, hdiffers⟩ : ∃ d ∈ digits, d.2 ≠ e.numbers f := by
      by_cases hone : e.numbers f = 1
      · exact ⟨(50, 2), by decide, by rw [hone]; decide⟩
      · exact ⟨(49, 1), by decide, fun h => hone h.symm⟩
    have hfits := (probe_lines hf hd).2.1
    -- the line alone
    obtain ⟨⟨sec, e'⟩, hpieces, hconfig⟩ := h.after represented_new (reached_probe hf) []
      (t := ⟨some f.place.sectionName, e⟩) (by rw [List.flatMap_nil, List.append_nil, hwhole])
    obtain rfl : e' = e := hconfig
    rw [List.flatMap_nil, List.append_nil] at hpieces
    obtain rfl : sec = some y := (handAll_sectionName hpieces).trans (hy _)
    -- the line with an entry behind it
    obtain ⟨u, hu, hentry⟩ := h.after represented_new (reached_probe hf)
      [⟨numberLine f d.1, hfits⟩]
      (by rw [List.flatMap_singleton, Stored.handAll_append, hwhole]; exact handAll_number hf hd e')
    rw [List.flatMap_singleton, Stored.handAll_append, hpieces] at hu
    have hkept := handAll_number_elsewhere hf hd hfy hu
    rw [hentry] at hkept
    exact hdiffers ((Function.update_self f d.2 e'.numbers).symm.trans hkept)
  · exact hstays name

theorem BrokenLine.texts_unbroken (h : l.front = []) :
    l.texts = handedClosed l.whole ∧ l.textsAtEnd = handedOpen l.whole := by
  have hwhole : l.whole = l.last := by rw [whole, h, List.flatten_nil, List.nil_append]
  have hcontinued : l.continued = [] := by rw [continued, h, List.map_nil]
  rw [texts, textsAtEnd, hcontinued, hwhole]
  exact ⟨rfl, rfl⟩

theorem BrokenLine.harmless_unbroken (h : l.front = []) : l.Harmless ∧ l.HarmlessAtEnd := by
  obtain ⟨htexts, hatEnd⟩ := texts_unbroken h
  constructor
  · intro sec _ c t _ ht
    rw [htexts]
    exact ht
  · intro sec _ c t _ ht
    rw [hatEnd]
    exact ⟨t, ht, rfl⟩

/-- A break that changes nothing in any file is harmless. -/
theorem BrokenLine.SameInFiles.harmless (h : l.SameInFiles) : l.Harmless := by
  by_cases hbroken : l.front = []
  · exact (harmless_unbroken hbroken).1
  intro sec hsec c t hc ht
  obtain ⟨text, key, val, htext, heffect⟩ := l.whole_value hbroken
  obtain ⟨u, hu, hconfig⟩ := h.after hc hsec [] (t := t)
    (by rw [List.flatMap_nil, List.append_nil, ht])
  rw [List.flatMap_nil, List.append_nil] at hu
  cases sec with
  | none =>
    rw [htext, Stored.handAll_cons, Stored.hand, heffect] at ht
    cases ht
  | some name =>
    have hu' : u.sectionName = some name := (handAll_sectionName hu).trans (h.stays hbroken name)
    have ht' : t.sectionName = some name := by
      rw [handAll_sectionName ht, htext]
      show sectionAfter (some name) text = some name
      rw [sectionAfter, heffect]
    obtain ⟨tsec, tconfig⟩ := t
    obtain ⟨usec, uconfig⟩ := u
    obtain rfl : uconfig = tconfig := hconfig
    obtain rfl : usec = tsec := hu'.trans ht'.symm
    exact hu

/-- Nothing changes in the files that end with `l`, where no other line is broken. -/
def BrokenLine.SameAtEnd (l : BrokenLine) : Prop :=
  ∀ c ls, c.Represented → (∀ m ∈ ls, m.front = []) → SameSettings c ⟨ls, l⟩

theorem BrokenLine.SameAtEnd.harmlessAtEnd (h : l.SameAtEnd) : l.HarmlessAtEnd := by
  intro sec hsec c t hc ht
  obtain ⟨ls, hls⟩ := hsec
  have hfile := h c (ls.map unbroken) hc (by
    intro m hm
    obtain ⟨w, -, rfl⟩ := List.mem_map.mp hm
    rfl)
  rw [sameSettings_iff_texts] at hfile
  simp only [flatMap_unbroken_whole, flatMap_unbroken_texts, Stored.handAll_append, hls] at hfile
  exact hfile t ht

/-- In no other section than its own is `x` known. -/
theorem reached_custom : Reached (some (ascii "x")) ∧ isBuiltin (ascii "x") = false := by
  have hfits : FitsLine (ascii "[x]") := ⟨by decide, by decide, by decide⟩
  have heffect : lineEffect (ascii "[x]\n") = .entersSection (some (ascii "x")) := by rfl
  exact ⟨reached_line ⟨_, hfits⟩ (show handedClosed (ascii "[x]") = [ascii "[x]\n"] by rfl) heffect,
    by decide⟩

/-- Harmless breaks are those with the same writes. -/
theorem BrokenLine.harmless_iff : l.Harmless ↔ l.SameWrites := by
  by_cases hbroken : l.front = []
  · have htexts := (texts_unbroken hbroken).1
    exact iff_of_true (harmless_unbroken hbroken).1
      ⟨fun _ _ => by rw [htexts], fun _ _ => by rw [htexts]; exact Or.inl rfl⟩
  obtain ⟨text, key, val, htext, heffect⟩ := l.whole_value hbroken
  have hwhole : ∀ name, writes name (handedClosed l.whole) = (entryWrite name key val).toList := by
    intro name
    rw [htext]
    exact writes_entry heffect name
  constructor
  · intro h
    have hsame := fun name hname => (sameTexts_iff (hwhole name)).mp (h (some name) hname)
    exact ⟨fun name hname => (hsame name hname).1, fun name hname => (hsame name hname).2⟩
  · intro h sec hsec c t hc ht
    cases sec with
    | none =>
      rw [htext, Stored.handAll_cons, Stored.hand, heffect] at ht
      cases ht
    | some name =>
      exact (sameTexts_iff (hwhole name)).mpr ⟨h.stays name hsec, h.comes name hsec⟩ c t hc ht

theorem BrokenLine.harmlessAtEnd_iff : l.HarmlessAtEnd ↔ l.SameWritesAtEnd := by
  by_cases hbroken : l.front = []
  · have htexts := (texts_unbroken hbroken).2
    exact iff_of_true (harmless_unbroken hbroken).2 fun _ _ => by rw [htexts]; exact Or.inl rfl
  obtain ⟨key, val, heffect⟩ := l.value hbroken
  have hwhole : ∀ name, ∃ u : Option Write, writes name (handedOpen l.whole) = u.toList := by
    intro name
    rw [handedOpen]
    split_ifs
    · exact ⟨none, rfl⟩
    · exact ⟨_, writes_entry heffect name⟩
  constructor
  · intro h name hname
    obtain ⟨u, hu⟩ := hwhole name
    exact (sameSettings_texts_iff hu).mp (h (some name) hname)
  · intro h sec hsec c t hc ht
    cases sec with
    | some name =>
      obtain ⟨u, hu⟩ := hwhole name
      exact (sameSettings_texts_iff hu).mpr (h name hsec) c t hc ht
    | none =>
      rw [handedOpen] at ht
      split_ifs at ht with hopen
      · -- the line is not handed over
        obtain rfl := Except.ok.inj ht
        have hnothing : writes (ascii "x") l.textsAtEnd = [] := by
          have hcomes := h (ascii "x") reached_custom.1
          rw [handedOpen, if_pos hopen] at hcomes
          rcases hcomes with hsame | ⟨u, hu, -⟩
          · exact hsame
          · cases hu
        exact handAll_noWrites reached_custom.2 hnothing none c
      · rw [Stored.handAll_cons, Stored.hand, show lineEffect l.whole = _ from heffect] at ht
        cases ht

/-- Texts that say nothing can be left out. -/
theorem nothing_append {texts : List Bytes} (h : ∀ text ∈ texts, lineEffect text = .nothing)
    (more : List Bytes) :
    (∀ name, writes name (texts ++ more) = writes name more) ∧
      ∀ sec, sectionsAfter sec (texts ++ more) = sectionsAfter sec more := by
  induction texts with
  | nil => exact ⟨fun _ => rfl, fun _ => rfl⟩
  | cons text texts ih =>
    rw [List.forall_mem_cons] at h
    obtain ⟨hwrites, hsections⟩ := ih h.2
    constructor
    · intro name
      rw [List.cons_append, writes, h.1]
      exact hwrites name
    · intro sec
      rw [List.cons_append, sectionsAfter, List.foldl_cons, sectionAfter, h.1]
      exact hsections sec

/-- The writes are the same where one piece says what the line says and the others say nothing. -/
theorem BrokenLine.sameWrites_of_piece (hbroken : l.front ≠ []) {before after : List Bytes}
    {text : Bytes} (htexts : l.texts = before ++ text :: after)
    (hbefore : ∀ t ∈ before, lineEffect t = .nothing)
    (hafter : ∀ t ∈ after, lineEffect t = .nothing)
    (hmeans : lineEffect text = lineEffect l.whole) : l.SameWrites := by
  obtain ⟨wholeText, hwhole, heffect⟩ := l.whole_text hbroken
  obtain ⟨hwrites, hsections⟩ := nothing_append hbefore (text :: after)
  obtain ⟨hwrites', hsections'⟩ := nothing_append hafter []
  rw [List.append_nil] at hwrites' hsections'
  have hsame : lineEffect text = lineEffect wholeText := hmeans.trans heffect.symm
  constructor
  · intro name _
    rw [htexts, hsections, hwhole]
    show sectionsAfter (sectionAfter (some name) text) after = sectionAfter (some name) wholeText
    rw [hsections', sectionAfter, sectionAfter, hsame]
    rfl
  · intro name _
    left
    rw [htexts, hwrites, hwhole, writes, writes, hsame]
    cases lineEffect wholeText with
    | nothing | assigns key val =>
      simp only
      rw [hwrites']
    | entersSection new =>
      simp only
      rw [hwrites']

/-- `a = b # c`, broken in the comment. -/
def brokenComment : BrokenLine where
  front := [ascii "a = b #"]
  last := ascii " c"
  fits := ⟨by decide, by decide, by decide⟩
  front_fits := by decide
  value := fun _ => ⟨ascii "a", ascii "b", by rfl⟩
  complete := fun _ => by decide

example : brokenComment.SameWrites := by
  have htexts : brokenComment.texts = [] ++ ascii "a = b #\\\n" :: [ascii " c\n"] := by rfl
  have hrest : lineEffect (ascii " c\n") = .nothing := by rfl
  exact BrokenLine.sameWrites_of_piece (List.cons_ne_nil _ _) htexts (List.forall_mem_nil _)
    (List.forall_mem_singleton.mpr hrest) (by rfl)

end OneBrokenLine

/-- **Which ways to break lines change nothing.**  Lines may be broken in the ways of `inside`
where a newline follows, and in the ways of `atEnd` where the file ends. -/
theorem sameSettings_iff (inside atEnd : Set BrokenLine) :
    (∀ c f, c.Represented → (∀ l ∈ f.lines, l.front = [] ∨ l ∈ inside) →
      (f.tail.front = [] ∨ f.tail ∈ atEnd) → SameSettings c f) ↔
      (∀ l ∈ inside, l.SameWrites) ∧ ∀ l ∈ atEnd, l.SameWritesAtEnd := by
  constructor
  · intro hsame
    constructor
    · intro l hl
      rw [← BrokenLine.harmless_iff]
      apply BrokenLine.SameInFiles.harmless
      intro c ls hc hls
      refine hsame c (.closed ls) hc (fun m hm => ?_) (Or.inl rfl)
      rcases hls m hm with hm | rfl
      · exact Or.inl hm
      · exact Or.inr hl
    · intro l hl
      rw [← BrokenLine.harmlessAtEnd_iff]
      apply BrokenLine.SameAtEnd.harmlessAtEnd
      intro c ls hc hls
      exact hsame c ⟨ls, l⟩ hc (fun m hm => Or.inl (hls m hm)) (Or.inr hl)
  · rintro ⟨hinside, hatEnd⟩ c f hc hlines htail
    refine sameSettings_of_harmless (fun l hl => ?_) ?_ hc
    · rcases hlines l hl with hl | hl
      · exact (BrokenLine.harmless_unbroken hl).1
      · exact BrokenLine.harmless_iff.mpr (hinside l hl)
    · rcases htail with htail | htail
      · exact (BrokenLine.harmless_unbroken htail).2
      · exact BrokenLine.harmlessAtEnd_iff.mpr (hatEnd _ htail)

/-- `max_childs = 12`, broken between the digits. -/
def brokenNumber : BrokenLine where
  front := [ascii "max_childs = 1"]
  last := ascii "2"
  fits := ⟨by decide, by decide, by decide⟩
  front_fits := by decide
  value := fun _ => ⟨ascii "max_childs", ascii "12", by rfl⟩
  complete := fun _ => by decide

/-- The loop sets `max_childs` to 1, and the rest is a line that says nothing. -/
theorem sameSettings_broken : ¬ ∀ c f, c.Represented → SameSettings c f := by
  intro hall
  have hsame : brokenNumber.SameInFiles := fun c ls hc _ => hall c _ hc
  have hset : ∀ {text val : Bytes} {i : Int}, val ≠ [] →
      lineEffect text = .assigns (ascii "max_childs") val →
      NumberField.read .maxChilds val = some i →
      (Stored.mk (some (ascii "global")) smfSettingsNew).hand text =
        .ok ⟨some (ascii "global"), { smfSettingsNew with
          numbers := Function.update smfSettingsNew.numbers .maxChilds i }⟩ := by
    intro text val i hval heffect hread
    rw [hand_assigns heffect]
    have hstore := store_number smfSettingsNew .maxChilds hval hread
    rw [show store smfSettingsNew (ascii "global") (ascii "max_childs") val = _ from hstore]
    rfl
  have hwhole : (Stored.mk (some (ascii "global")) smfSettingsNew).handAll
      (handedClosed brokenNumber.whole) = .ok ⟨some (ascii "global"), { smfSettingsNew with
          numbers := Function.update smfSettingsNew.numbers .maxChilds 12 }⟩ := by
    have htexts : handedClosed brokenNumber.whole = [ascii "max_childs = 12\n"] := by rfl
    rw [htexts, Stored.handAll_cons,
      @hset _ (ascii "12") 12 (List.cons_ne_nil _ _) (by rfl) (by rfl)]
    rfl
  have hpieces : (Stored.mk (some (ascii "global")) smfSettingsNew).handAll brokenNumber.texts =
      .ok ⟨some (ascii "global"), { smfSettingsNew with
          numbers := Function.update smfSettingsNew.numbers .maxChilds 1 }⟩ := by
    have htexts : brokenNumber.texts = [ascii "max_childs = 1\\\n", ascii "2\n"] := by rfl
    have hrest : lineEffect (ascii "2\n") = .nothing := by rfl
    rw [htexts, Stored.handAll_cons,
      @hset _ (ascii "1\\") 1 (List.cons_ne_nil _ _) (by rfl) (by rfl)]
    rw [Except.bind, Stored.handAll_cons, Stored.hand, hrest]
    rfl
  have hreached : Reached (some (ascii "global")) :=
    @reached_probe .maxChilds (by decide)
  obtain ⟨u, hu, hconfig⟩ := hsame.after represented_new hreached []
    (by rw [List.flatMap_nil, List.append_nil, hwhole])
  rw [List.flatMap_nil, List.append_nil, hpieces] at hu
  obtain rfl := Except.ok.inj hu
  have hnumbers := congrArg (fun c : Config => c.numbers .maxChilds) hconfig
  simp at hnumbers

end Spmfilter
