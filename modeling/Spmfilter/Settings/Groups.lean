import Spmfilter.Settings.Reading

/-!
# The groups of the whole loop

`smfSettingsParseConfig` follows `groups` alone, and `readLoop` all of the settings on the memory
of the buffer.  Turn for turn they do the same to `groups`.

* `SameGroups` relates their states.
* `handLine_groups` is one line, and `readLoop_groups` a run.
* `configAfter_groups` : where both come to the end of a file they have made the same of it.
* `configAfter_render` : what is written down is read back by the whole loop.
-/

namespace Spmfilter

open CString Stdio Buffers

/-! ## One line -/

theorem setOther_groups (c : Config) (place : Place) (val : Bytes)
    (hbuiltin : isBuiltin place.sectionName = true) : (setOther c place val).groups = c.groups := by
  rw [setOther]
  split
  · split <;> rfl
  · split
    · rfl
    · rw [if_pos hbuiltin]
      split_ifs <;> rfl

/-- What an entry does to `groups`. -/
theorem store_groups {c d : Config} {name key val : Bytes} (h : store c name key val = some d) :
    d.groups = if isBuiltin name then c.groups
      else (smfDictSet (groupKey name key) val c.groups).getD c.groups := by
  rw [store] at h
  split_ifs at h ⊢ with hname
  · rw [setConfigValue] at h
    split at h
    · obtain rfl := Option.some.inj h
      rfl
    · split at h
      · obtain ⟨p, -, rfl⟩ := Option.map_eq_some_iff.mp h
        rfl
      · obtain rfl := Option.some.inj h
        exact setOther_groups c _ val hname
  · obtain rfl := Option.some.inj h
    rfl

/-- The two states agree in what both have. -/
structure SameGroups (s : ParseState) (p : Progress) : Prop where
  buffers : s.buffers = p.buffers
  cleanSection : s.cleanSection = p.cleanSection
  groups : s.groups = p.config.groups

theorem handLine_groups {s t : ParseState} {p q : Progress} {text : Bytes} (hsame : SameGroups s p)
    (h : handLine p text = .ok q) (h' : parseStatus s (parseLine text s.buffers) = some t) :
    SameGroups t q := by
  obtain ⟨hbuffers, hsection, hgroups⟩ := hsame
  rw [handLine, ← hbuffers] at h
  rcases hparse : parseLine text s.buffers with ⟨status, b⟩
  rw [hparse] at h h'
  cases status with
  | lineSection =>
    obtain rfl := Except.ok.inj h
    obtain rfl := Option.some.inj h'
    exact ⟨rfl, rfl, hgroups⟩
  | lineValue =>
    rw [← hsection] at h
    cases hname : s.cleanSection with
    | none =>
      rw [hname] at h
      cases h
    | some name =>
      rw [parseStatus, hname] at h'
      rw [hname] at h
      simp only at h
      cases hstore : store p.config name (smfCoreStrstrip b.keyBuf) (smfCoreStrstrip b.valBuf) with
      | none =>
        rw [hstore] at h
        cases h
      | some c =>
        rw [hstore] at h
        obtain rfl := Except.ok.inj h
        have hmem : isBuiltin name = true ↔ name ∈ builtinSections := List.contains_iff_mem
        have hgroups' := store_groups hstore
        by_cases hbuiltin : name ∈ builtinSections
        · rw [if_pos (hmem.mpr hbuiltin), ← hgroups] at hgroups'
          simp only [Option.bind_eq_bind, Option.bind_some, if_pos hbuiltin] at h'
          obtain rfl := Option.some.inj h'
          exact ⟨rfl, rfl, hgroups'.symm⟩
        · rw [if_neg (hbuiltin ∘ hmem.mp), ← hgroups] at hgroups'
          simp only [Option.bind_eq_bind, Option.bind_some, if_neg hbuiltin] at h'
          obtain ⟨groups, hset, ht⟩ := Option.bind_eq_some_iff.mp h'
          obtain rfl := Option.some.inj ht
          rw [hset, Option.getD_some] at hgroups'
          exact ⟨rfl, rfl, hgroups'.symm⟩
  | lineEmpty | lineComment | lineError =>
    obtain rfl := Except.ok.inj h
    obtain rfl := Option.some.inj h'
    exact ⟨rfl, hsection, hgroups⟩

/-! ## The loop -/

/-- A turn of the loop on `groups` is the turn on the string. -/
theorem parseRound_eq {r : LineBuffer} {s : ParseState} (hline : s.line = r.line)
    (hlast : s.last = r.last) (chunk : Bytes) :
    match readTurn r chunk with
    | .stops _ => True
    | .goesOn r' => parseRound s chunk = some { s with line := r'.line, last := r'.last }
    | .hands text => parseRound s chunk =
        (parseStatus s (parseLine text s.buffers)).map fun s =>
          { s with line := [], last := 0 } := by
  rw [readTurn, parseRound, hline, hlast]
  generalize cstr (r.line.take r.last ++ chunk) = text
  by_cases hempty : text = []
  · rw [if_pos hempty]
    trivial
  rw [if_neg hempty]
  by_cases hone : text.length = 1
  · rw [if_pos hone, if_pos hone, ← hlast]
  rw [if_neg hone, if_neg hone]
  by_cases hlong : MAX_LINE + 1 < text.length
  · rw [if_pos hlong]
    trivial
  rw [if_neg hlong, if_neg hlong]
  by_cases hback : text.getLast? = some BACKSLASH
  · rw [if_pos hback, if_pos hback]
  · rw [if_neg hback, if_neg hback]

theorem readLoop_groups {b : Buffer} {r : LineBuffer} {p q : Progress} {s t : ParseState}
    {input : Bytes} (hholds : Holds b r) (hline : s.line = r.line) (hlast : s.last = r.last)
    (hsame : SameGroups s p) (h : readLoop ⟨b, r.last, p⟩ input = .ok q)
    (h' : parseLoop s input = some t) : t.groups = q.config.groups := by
  induction r, input using readLines.induct generalizing b p s with
  | case1 r input hread =>
    rw [readLoop, hread] at h
    rw [parseLoop, hlast, hread] at h'
    obtain rfl := Except.ok.inj h
    obtain rfl := Option.some.inj h'
    exact hsame.groups
  | case2 r input chunk rest hread hless e hturn =>
    have hround := readRound_eq hholds (fgets_forward hholds.room hread).2 p
    rw [hturn] at hround
    rw [readLoop, hread] at h
    simp only [if_pos hless] at h
    rw [hround] at h
    cases h
  | case3 r input chunk rest hread hless r' hturn ih =>
    have hround := readRound_eq hholds (fgets_forward hholds.room hread).2 p
    have hround' := parseRound_eq hline hlast chunk
    rw [hturn] at hround hround'
    obtain ⟨b', hholds', hround⟩ := hround
    rw [readLoop, hread] at h
    rw [parseLoop, hlast, hread] at h'
    simp only [if_pos hless] at h h'
    rw [hround] at h
    rw [hround', Option.bind_some] at h'
    exact ih (s := { s with line := r'.line, last := r'.last }) hholds' rfl rfl
      ⟨hsame.buffers, hsame.cleanSection, hsame.groups⟩ h h'
  | case4 r input chunk rest hread hless text hturn ih =>
    have hround := readRound_eq hholds (fgets_forward hholds.room hread).2 p
    have hround' := parseRound_eq hline hlast chunk
    rw [hturn] at hround hround'
    obtain ⟨b', hholds', hround⟩ := hround
    rw [readLoop, hread] at h
    rw [parseLoop, hlast, hread] at h'
    simp only [if_pos hless] at h h'
    rw [hround] at h
    rw [hround'] at h'
    obtain ⟨s', hs', hrest'⟩ := Option.bind_eq_some_iff.mp h'
    obtain ⟨u, hu, rfl⟩ := Option.map_eq_some_iff.mp hs'
    obtain ⟨a, ha, hrest⟩ := bind_eq_ok_iff.mp h
    obtain ⟨p', hp', rfl⟩ := map_eq_ok_iff.mp ha
    have hnext := handLine_groups hsame hp' hu
    exact ih (s := { u with line := [], last := 0 }) hholds' rfl rfl
      ⟨hnext.buffers, hnext.cleanSection, hnext.groups⟩ hrest hrest'
  | case5 r input chunk rest hread hless =>
    exact absurd (fgets_forward hholds.room hread).1 hless

/-- **The groups of the whole loop** are those of the loop that follows them alone. -/
theorem configAfter_groups {c d : Config} {input : Bytes} {groups : Dict}
    (h : configAfter c input = .ok d) (h' : smfSettingsParseConfig c.groups input = some groups) :
    d.groups = groups := by
  obtain ⟨q, hq, rfl⟩ := map_eq_ok_iff.mp h
  obtain ⟨t, ht, rfl⟩ := Option.map_eq_some_iff.mp h'
  exact (readLoop_groups (holds_start c) rfl rfl ⟨rfl, rfl, rfl⟩ hq ht).symm

/-- Custom sections that are written down are read back by the whole loop. -/
theorem configAfter_render {sections : List CustomSection} {d : Config}
    (hfew : (sections.flatMap CustomSection.entries).length ≤ DICT_LIMIT)
    (h : configAfter smfSettingsNew (render sections) = .ok d) (groupName key : Bytes)
    (hname : COLON ∉ groupName) :
    smfSettingsGroupGet d.groups groupName key = lastEntry sections groupName key := by
  obtain ⟨groups, hgroups⟩ := parseConfig_render_some sections hfew
  rw [configAfter_groups h hgroups]
  exact groupGet_render hgroups key hname

end Spmfilter
