import Spmfilter.Dict
import Spmfilter.Lib.Scanf
import Spmfilter.Lib.Stdio

/-!
# The configuration file

`smf_settings_parse_config` reads the file line by line, and `_parse_line` takes a line
apart.  The entries of custom sections go into the dictionary `groups` under
`section:key`, and `smf_settings_group_get` reads them there.  What the built-in sections
set is left out here: `readLoop` has it, and makes the same of `groups`.

* `CustomSection` is a section that can be written down, and `render` writes it.
* `parseRound_section` and `parseRound_entry` are the two kinds of lines.
* `parse_render` is the round trip.
-/

namespace Spmfilter

open CString Stdio

/-! ## Lines -/

def MAX_LINE : Nat := 200

def HASH : UInt8 := 35
def QUOTE : UInt8 := 34
def TICK : UInt8 := 39
def COLON : UInt8 := 58
def SEMICOLON : UInt8 := 59
def EQUALS : UInt8 := 61
def BRACKET : UInt8 := 91
def BACKSLASH : UInt8 := 92
def CLOSING : UInt8 := 93

inductive LineStatus
  | lineError
  | lineEmpty
  | lineComment
  | lineSection
  | lineValue
deriving DecidableEq

/-- The buffers `section`, `key` and `val`, which keep what a line before has left. -/
structure LineBuffers where
  sectionBuf : Bytes := []
  keyBuf : Bytes := []
  valBuf : Bytes := []

/-- What `sscanf` writes to `key` and `value`. -/
def LineBuffers.assign (b : LineBuffers) (converted : List Bytes) : LineBuffers :=
  { b with
    keyBuf := converted[0]?.getD b.keyBuf
    valBuf := converted[1]?.getD b.valBuf }

/-- The formats that are tried one after the other, until one converts both. -/
def scanFirst (line : Bytes) : List (List Directive) → LineBuffers → Bool × LineBuffers
  | [], b => (false, b)
  | format :: formats, b =>
    let converted := sscanf format line
    if converted.length = 2 then (true, b.assign converted)
    else scanFirst line formats (b.assign converted)

/-- `%[^=] = `, with which all but one of the formats begin. -/
def keyFormat : List Directive := [.but EQUALS, .space, .lit EQUALS, .space]

def valueFormats : List (List Directive) :=
  [ keyFormat ++ [.lit QUOTE, .but QUOTE, .lit QUOTE],
    keyFormat ++ [.lit TICK, .but TICK, .lit TICK],
    keyFormat ++ [.but HASH] ]

def emptyFormats : List (List Directive) :=
  [ keyFormat ++ [.set fun c => c = SEMICOLON || c = HASH],
    [.but EQUALS, .space, .set (· = EQUALS)] ]

def parseLine (inputLine : Bytes) (b : LineBuffers) : LineStatus × LineBuffers :=
  let line := smfCoreStrstrip inputLine
  if line.length < 1 then (.lineEmpty, b)
  else if line.head? = some HASH ∨ line.head? = some SEMICOLON then (.lineComment, b)
  else if line.head? = some BRACKET ∧ line.getLast? = some CLOSING then
    (.lineSection, { b with
      sectionBuf := (sscanf [.lit BRACKET, .but CLOSING] line)[0]?.getD b.sectionBuf })
  else
    match scanFirst line valueFormats b with
    | (true, b) =>
      if b.valBuf = [QUOTE, QUOTE] ∨ b.valBuf = [TICK, TICK] then (.lineValue, { b with valBuf := [] })
      else (.lineValue, b)
    | (false, b) =>
      match scanFirst line emptyFormats b with
      | (true, b) => (.lineValue, { b with valBuf := [] })
      | (false, b) => (.lineError, b)

/-! ## The file -/

structure ParseState where
  groups : Dict
  /-- the buffer `line`, and where the next read goes -/
  line : Bytes := []
  last : Nat := 0
  buffers : LineBuffers := {}
  /-- `clean_section`, which is NULL before the first section -/
  cleanSection : Option Bytes := none

/-- The sections whose entries `_set_config_value` takes. -/
def builtinSections : List Bytes := [ascii "global", ascii "smtpd", ascii "sql", ascii "ldap"]

/-- The key of an entry in `groups`. -/
def groupKey (groupName key : Bytes) : Bytes := groupName ++ COLON :: key

/-- What happens with a line that `_parse_line` has taken apart. -/
def parseStatus (s : ParseState) : LineStatus × LineBuffers → Option ParseState
  | (.lineSection, b) =>
    let clean := smfCoreStrstrip b.sectionBuf
    some { s with buffers := { b with sectionBuf := clean }, cleanSection := some clean }
  | (.lineValue, b) => do
    let key := smfCoreStrstrip b.keyBuf
    let val := smfCoreStrstrip b.valBuf
    let name ← s.cleanSection
    let groups ←
      if name ∈ builtinSections then some s.groups
      else smfDictSet (groupKey name key) val s.groups
    some { s with buffers := { b with keyBuf := key, valBuf := val }, groups := groups }
  | (_, b) => some { s with buffers := b }

/-- One round of the loop over the lines.  `none` where a line is too long, an entry
stands before the first section, or `groups` cannot grow. -/
def parseRound (s : ParseState) (chunk : Bytes) : Option ParseState :=
  let line := cstr (s.line.take s.last ++ chunk)
  if line.length = 1 then some { s with line := line }
  else if MAX_LINE + 1 < line.length then none
  else if line.getLast? = some BACKSLASH then
    -- the next read goes over the backslash
    some { s with line := line, last := line.length - 1 }
  else
    (parseStatus s (parseLine line s.buffers)).map fun s => { s with line := [], last := 0 }

def parseLoop (s : ParseState) (input : Bytes) : Option ParseState :=
  match fgets (MAX_LINE - s.last) input with
  | none => some s
  | some (chunk, rest) =>
    if rest.length < input.length then (parseRound s chunk).bind fun s => parseLoop s rest
    else none
termination_by input.length

/-- `smf_settings_parse_config`: what it makes of `groups`. -/
def smfSettingsParseConfig (groups : Dict) (input : Bytes) : Option Dict :=
  (parseLoop { groups := groups } input).map ParseState.groups

def smfSettingsGroupGet (groups : Dict) (groupName key : Bytes) : Option Bytes :=
  smfDictGet (groupKey groupName key) groups

/-! ## What is written down -/

/-- Not empty, and without white space outside. -/
structure Trimmed (s : Bytes) : Prop where
  ne_nil : s ≠ []
  head : ∀ c, s.head? = some c → isspace c = false
  last : ∀ c, s.getLast? = some c → isspace c = false

theorem trimmed_of_ends {s : Bytes} (hne : s ≠ [])
    (hhead : (s.head?.all fun c => !isspace c) = true)
    (hlast : (s.getLast?.all fun c => !isspace c) = true) : Trimmed s where
  ne_nil := hne
  head := by
    intro c hc
    simpa [hc] using hhead
  last := by
    intro c hc
    simpa [hc] using hlast

structure Entry where
  key : Bytes
  value : Bytes
  key_trimmed : Trimmed key
  key_free : ∀ c ∈ key, c ≠ EQUALS ∧ c ≠ LF ∧ c ≠ 0
  key_head : key.head? ≠ some HASH ∧ key.head? ≠ some SEMICOLON ∧ key.head? ≠ some BRACKET
  value_trimmed : Trimmed value
  value_free : ∀ c ∈ value, c ≠ HASH ∧ c ≠ LF ∧ c ≠ 0
  value_head : value.head? ≠ some QUOTE ∧ value.head? ≠ some TICK
  fits : (key ++ ascii " = " ++ value ++ [LF]).length ≤ 198

structure CustomSection where
  name : Bytes
  entries : List Entry
  name_trimmed : Trimmed name
  name_free : ∀ c ∈ name, c ≠ CLOSING ∧ c ≠ COLON ∧ c ≠ LF ∧ c ≠ 0
  custom : name ∉ builtinSections
  fits : (BRACKET :: name ++ [CLOSING, LF]).length ≤ 198

def Entry.line (e : Entry) : Bytes := e.key ++ ascii " = " ++ e.value

def CustomSection.line (s : CustomSection) : Bytes := BRACKET :: s.name ++ [CLOSING]

def render (sections : List CustomSection) : Bytes :=
  sections.flatMap fun s => s.line ++ LF :: s.entries.flatMap fun e => e.line ++ [LF]

/-- The value of the last entry for `key` in any section named `groupName`. -/
def lastEntry (sections : List CustomSection) (groupName key : Bytes) : Option Bytes :=
  (((sections.filter (·.name = groupName)).flatMap CustomSection.entries).filter
    (·.key = key)).getLast?.map Entry.value

/-! ## One line -/

theorem strstrip_trimmed {s w : Bytes} (h : Trimmed s) (hw : ∀ c ∈ w, isspace c = true) :
    smfCoreStrstrip (s ++ w) = s := by
  obtain ⟨c, t, rfl⟩ := List.exists_cons_of_ne_nil h.ne_nil
  have hhead : isspace c = false := h.head c rfl
  have hdrop : (c :: t ++ w).dropWhile isspace = c :: t ++ w :=
    List.dropWhile_cons_of_neg (by rw [hhead]; exact Bool.false_ne_true)
  have hne : c :: t ++ w ≠ [] := List.cons_ne_nil _ _
  obtain ⟨front, last, hlast⟩ : ∃ front last, c :: t = front ++ [last] :=
    ⟨_, _, (List.dropLast_append_getLast (List.cons_ne_nil c t)).symm⟩
  have hspace : isspace last = false := by
    apply h.last
    rw [hlast, List.getLast?_append_cons, List.getLast?_singleton]
  rw [smfCoreStrstrip, hdrop, if_neg hne, List.reverse_append,
    List.dropWhile_append_of_pos (fun b hb => hw b (List.mem_reverse.mp hb)), hlast,
    List.reverse_append, List.reverse_singleton, List.singleton_append,
    List.dropWhile_cons_of_neg (by rw [hspace]; exact Bool.false_ne_true), List.reverse_cons,
    List.reverse_reverse]

theorem strstrip_eq_self {s : Bytes} (h : Trimmed s) : smfCoreStrstrip s = s := by
  have hstrip := strstrip_trimmed h (w := []) nofun
  rwa [List.append_nil] at hstrip

/-- What a text that is put together from trimmed ones begins and ends with. -/
theorem Trimmed.append {s t : Bytes} (hs : Trimmed s) (ht : Trimmed t) (mid : Bytes) :
    Trimmed (s ++ mid ++ t) where
  ne_nil := by simp [hs.ne_nil]
  head := by
    intro c hc
    apply hs.head
    obtain ⟨b, r, rfl⟩ := List.exists_cons_of_ne_nil hs.ne_nil
    exact hc
  last := by
    intro c hc
    apply ht.last
    rw [List.getLast?_append_of_ne_nil _ ht.ne_nil] at hc
    exact hc

theorem trimmed_singleton {c : UInt8} (h : isspace c = false) : Trimmed [c] where
  ne_nil := List.cons_ne_nil _ _
  head := fun b hb => by
    obtain rfl := Option.some.inj hb
    exact h
  last := fun b hb => by
    obtain rfl := Option.some.inj hb
    exact h

theorem CustomSection.line_trimmed (s : CustomSection) : Trimmed s.line :=
  Trimmed.append (trimmed_singleton (c := BRACKET) (by decide))
    (trimmed_singleton (c := CLOSING) (by decide)) s.name

theorem Entry.line_trimmed (e : Entry) : Trimmed e.line :=
  e.key_trimmed.append e.value_trimmed _

/-- The buffers after a section line. -/
theorem parseLine_section (s : CustomSection) (b : LineBuffers) :
    parseLine (s.line ++ [LF]) b = (.lineSection, { b with sectionBuf := s.name }) := by
  have hstrip : smfCoreStrstrip (s.line ++ [LF]) = s.line :=
    strstrip_trimmed s.line_trimmed (forall_mem_of_all (by decide))
  have hscan : sscanf [.lit BRACKET, .but CLOSING] s.line = [s.name] := by
    rw [CustomSection.line, List.cons_append, sscanf_lit, Directive.but, sscanf_set
      s.name_trimmed.ne_nil (fun c hc => decide_eq_true (s.name_free c hc).1) (by decide)]
    rfl
  have hlast : s.line.getLast? = some CLOSING := List.getLast?_append_cons _ _ _
  have hhead : s.line.head? = some BRACKET := rfl
  have hlen : ¬ s.line.length < 1 := by
    rw [CustomSection.line, List.length_append]
    show ¬ _ + 1 < 1
    omega
  rw [parseLine, hstrip]
  show (if s.line.length < 1 then _ else _) = _
  rw [if_neg hlen, hhead, if_neg (by decide), hlast, if_pos ⟨rfl, rfl⟩, hscan]
  rfl

/-- The key of an entry line is converted up to the equals sign. -/
theorem sscanf_key (e : Entry) (format : List Directive) :
    sscanf (keyFormat ++ format) e.line = (e.key ++ [32]) :: sscanf format e.value := by
  obtain ⟨c, t, hvalue⟩ := List.exists_cons_of_ne_nil e.value_trimmed.ne_nil
  have hspace : isspace c = false := e.value_trimmed.head c (by rw [hvalue]; rfl)
  have hline : e.line = (e.key ++ [32]) ++ EQUALS :: ([32] ++ c :: t) := by
    rw [Entry.line, hvalue, show ascii " = " = [32, EQUALS, 32] by decide]
    simp
  have hkey : ∀ b ∈ e.key ++ [32], decide (b ≠ EQUALS) = true := by
    intro b hb
    rcases List.mem_append.mp hb with hb | hb
    · exact decide_eq_true (e.key_free b hb).1
    · obtain rfl := List.mem_singleton.mp hb
      decide
  have hne : e.key ++ [32] ≠ [] := by simp
  rw [hline, keyFormat, Directive.but]
  show sscanf (.set _ :: .space :: .lit EQUALS :: .space :: format) _ = _
  rw [sscanf_set hne hkey (by decide)]
  have hnone : sscanf (.space :: .lit EQUALS :: .space :: format)
      ([] ++ EQUALS :: ([32] ++ c :: t)) = _ := sscanf_space nofun rfl
  rw [List.nil_append] at hnone
  rw [hnone, sscanf_lit, sscanf_space (forall_mem_of_all (by decide)) hspace, hvalue]

/-- A value that does not begin with a quote converts no quoted value. -/
theorem sscanf_quoted (e : Entry) {quote : UInt8} (hquote : e.value.head? ≠ some quote) :
    sscanf (keyFormat ++ [.lit quote, .but quote, .lit quote]) e.line = [e.key ++ [32]] := by
  obtain ⟨c, t, hvalue⟩ := List.exists_cons_of_ne_nil e.value_trimmed.ne_nil
  have hne : c ≠ quote := by
    rw [hvalue] at hquote
    exact fun h => hquote (congrArg some h)
  rw [sscanf_key, hvalue, sscanf_lit_ne hne]

theorem sscanf_plain (e : Entry) :
    sscanf (keyFormat ++ [.but HASH]) e.line = [e.key ++ [32], e.value] := by
  rw [sscanf_key, Directive.but, sscanf_set_end e.value_trimmed.ne_nil
    (fun c hc => decide_eq_true (e.value_free c hc).1)]
  rfl

/-- The buffers after an entry line: the third format converts. -/
theorem parseLine_entry (e : Entry) (b : LineBuffers) :
    parseLine (e.line ++ [LF]) b =
      (.lineValue, { b with keyBuf := e.key ++ [32], valBuf := e.value }) := by
  have hstrip : smfCoreStrstrip (e.line ++ [LF]) = e.line :=
    strstrip_trimmed e.line_trimmed (forall_mem_of_all (by decide))
  obtain ⟨c, t, hkey⟩ := List.exists_cons_of_ne_nil e.key_trimmed.ne_nil
  have hhead : e.line.head? = e.key.head? := by
    rw [Entry.line, hkey]
    rfl
  have hlen : ¬ e.line.length < 1 := by
    rw [Entry.line, hkey, List.append_assoc, List.cons_append, List.length_cons]
    omega
  obtain ⟨hhash, hsemicolon, hbracket⟩ := e.key_head
  have hscan : scanFirst e.line valueFormats b =
      (true, { b with keyBuf := e.key ++ [32], valBuf := e.value }) := by
    rw [valueFormats, scanFirst, sscanf_quoted e e.value_head.1]
    show scanFirst e.line _ _ = _
    rw [scanFirst, sscanf_quoted e e.value_head.2]
    show scanFirst e.line _ _ = _
    rw [scanFirst, sscanf_plain]
    rfl
  have hquotes : ¬ (e.value = [QUOTE, QUOTE] ∨ e.value = [TICK, TICK]) := by
    rintro (h | h)
    · exact e.value_head.1 (by rw [h]; rfl)
    · exact e.value_head.2 (by rw [h]; rfl)
  rw [parseLine, hstrip]
  show (if e.line.length < 1 then _ else _) = _
  rw [if_neg hlen, hhead, if_neg (not_or.mpr ⟨hhash, hsemicolon⟩),
    if_neg (fun hboth => hbracket hboth.1), hscan]
  exact if_neg hquotes

/-! ## One round -/

section
variable {s : ParseState}

/-- A rendered line is read whole. -/
theorem parseLoop_line {line rest : Bytes} (hlast : s.last = 0) (htrim : Trimmed line)
    (hfree : ∀ c ∈ line, c ≠ LF ∧ c ≠ 0) (hfits : line.length + 1 ≤ 198) :
    parseLoop s (line ++ LF :: rest) =
      ((parseStatus s (parseLine (line ++ [LF]) s.buffers)).map fun s =>
        { s with line := [], last := 0 }).bind fun s => parseLoop s rest := by
  have hread : fgets (MAX_LINE - s.last) (line ++ LF :: rest) = some (line ++ [LF], rest) := by
    apply fgets_line
    · exact fun h => (hfree LF h).1 rfl
    · rw [hlast]
      show line.length + 1 < 200
      omega
  have hless : rest.length < (line ++ LF :: rest).length := by
    rw [List.length_append, List.length_cons]
    omega
  have hcstr : cstr (s.line.take s.last ++ (line ++ [LF])) = line ++ [LF] := by
    rw [hlast, List.take_zero, List.nil_append]
    apply cstr_of_noNul
    intro h
    rcases List.mem_append.mp h with h | h
    · exact (hfree 0 h).2 rfl
    · exact absurd (List.mem_singleton.mp h) (by decide)
  have hpos : 0 < line.length := List.length_pos_iff.mpr htrim.ne_nil
  have hlength : (line ++ [LF]).length = line.length + 1 := List.length_append
  have hround : parseRound s (line ++ [LF]) =
      (parseStatus s (parseLine (line ++ [LF]) s.buffers)).map fun s =>
        { s with line := [], last := 0 } := by
    rw [parseRound, hcstr, hlength, if_neg (by omega), if_neg (by rw [MAX_LINE]; omega),
      if_neg (by rw [List.getLast?_append_cons]; decide)]
  rw [parseLoop, hread]
  show (if rest.length < (line ++ LF :: rest).length then _ else _) = _
  rw [if_pos hless, hround]

/-- A section line sets the name for the entries that follow. -/
theorem parseLoop_section (sec : CustomSection) (rest : Bytes) (hlast : s.last = 0) :
    ∃ t : ParseState, t.groups = s.groups ∧ t.last = 0 ∧ t.cleanSection = some sec.name ∧
      parseLoop s (sec.line ++ LF :: rest) = parseLoop t rest := by
  have hfree : ∀ c ∈ sec.line, c ≠ LF ∧ c ≠ 0 := by
    intro c hc
    rw [CustomSection.line, List.mem_append, List.mem_cons, List.mem_singleton] at hc
    rcases hc with (rfl | hc) | rfl
    · decide
    · exact (sec.name_free c hc).2.2
    · decide
  have hfits : sec.line.length + 1 ≤ 198 := by
    have hfits := sec.fits
    rw [List.length_append] at hfits
    rw [CustomSection.line, List.length_append]
    exact hfits
  rw [parseLoop_line hlast sec.line_trimmed hfree hfits, parseLine_section, parseStatus,
    strstrip_eq_self sec.name_trimmed, Option.map_some, Option.bind_some]
  refine ⟨_, ?_, ?_, ?_, rfl⟩ <;> rfl

theorem parseStatus_value {b : LineBuffers} {name : Bytes} (hname : s.cleanSection = some name)
    (hcustom : name ∉ builtinSections) :
    parseStatus s (.lineValue, b) =
      (smfDictSet (groupKey name (smfCoreStrstrip b.keyBuf)) (smfCoreStrstrip b.valBuf)
        s.groups).map fun groups =>
          { s with
            buffers := { b with
              keyBuf := smfCoreStrstrip b.keyBuf
              valBuf := smfCoreStrstrip b.valBuf }
            groups := groups } := by
  rw [parseStatus, hname]
  simp only [Option.bind_eq_bind, Option.bind_some, if_neg hcustom]
  cases smfDictSet (groupKey name (smfCoreStrstrip b.keyBuf)) (smfCoreStrstrip b.valBuf)
      s.groups <;> rfl

/-- An entry line sets its value in the dictionary. -/
theorem parseLoop_entry (e : Entry) {name : Bytes} (rest : Bytes) (hlast : s.last = 0)
    (hname : s.cleanSection = some name) (hcustom : name ∉ builtinSections) :
    ∃ t : Dict → ParseState,
      (∀ groups, (t groups).groups = groups ∧ (t groups).last = 0 ∧
        (t groups).cleanSection = some name) ∧
      parseLoop s (e.line ++ LF :: rest) =
        (smfDictSet (groupKey name e.key) e.value s.groups).bind fun groups =>
          parseLoop (t groups) rest := by
  have hfree : ∀ c ∈ e.line, c ≠ LF ∧ c ≠ 0 := by
    intro c hc
    rw [Entry.line, List.mem_append, List.mem_append] at hc
    rcases hc with (hc | hc) | hc
    · exact (e.key_free c hc).2
    · have hmid : ∀ c ∈ ascii " = ", c ≠ LF ∧ c ≠ 0 := forall_mem_of_all (by decide)
      exact hmid c hc
    · exact (e.value_free c hc).2
  have hfits : e.line.length + 1 ≤ 198 := by
    have hfits := e.fits
    rw [List.length_append] at hfits
    exact hfits
  have hkey : smfCoreStrstrip (e.key ++ [32]) = e.key :=
    strstrip_trimmed e.key_trimmed (forall_mem_of_all (by decide))
  rw [parseLoop_line hlast e.line_trimmed hfree hfits, parseLine_entry,
    parseStatus_value hname hcustom, hkey, strstrip_eq_self e.value_trimmed, Option.map_map,
    Option.bind_map]
  refine ⟨_, fun _ => ⟨?_, ?_, ?_⟩, rfl⟩
  · rfl
  · rfl
  · exact hname

end

/-! ## The whole file -/

/-- The calls that the entries of a section lead to. -/
def CustomSection.calls (s : CustomSection) : List DictCall :=
  s.entries.map fun e => .set (groupKey s.name e.key) e.value

/-- The induction over the entries of a section. -/
theorem parseLoop_entries {s : ParseState} {name : Bytes} (es : List Entry) (rest : Bytes)
    (hlast : s.last = 0) (hname : s.cleanSection = some name) (hcustom : name ∉ builtinSections) :
    ∃ t : Dict → ParseState,
      (∀ groups, (t groups).groups = groups ∧ (t groups).last = 0) ∧
      parseLoop s ((es.flatMap fun e => e.line ++ [LF]) ++ rest) =
        ((es.map fun e : Entry => DictCall.set (groupKey name e.key) e.value).foldlM
          (fun dict (call : DictCall) => call.run dict) s.groups).bind fun groups =>
            parseLoop (t groups) rest := by
  induction es generalizing s with
  | nil =>
    refine ⟨fun groups => { s with groups := groups }, fun groups => ⟨rfl, hlast⟩, rfl⟩
  | cons e es ih =>
    obtain ⟨t, ht, hfirst⟩ := parseLoop_entry e
      ((es.flatMap fun e => e.line ++ [LF]) ++ rest) hlast hname hcustom
    have htext : (e :: es).flatMap (fun e => e.line ++ [LF]) ++ rest =
        e.line ++ LF :: ((es.flatMap fun e => e.line ++ [LF]) ++ rest) := by
      rw [List.flatMap_cons, List.append_assoc, List.append_assoc, List.singleton_append]
    rw [htext, hfirst, List.map_cons, List.foldlM_cons]
    show ∃ t' : Dict → ParseState, _ ∧ _ = Option.bind (Option.bind (smfDictSet _ _ _) _) _
    cases hset : smfDictSet (groupKey name e.key) e.value s.groups with
    | none =>
      exact ⟨fun groups => ⟨groups, [], 0, {}, none⟩, fun _ => ⟨rfl, rfl⟩, rfl⟩
    | some groups =>
      obtain ⟨hgroups, hlast', hname'⟩ := ht groups
      obtain ⟨t', ht', hrest⟩ := ih hlast' hname'
      refine ⟨t', ht', ?_⟩
      rw [Option.bind_some, Option.bind_some, hrest, hgroups]

/-- The induction over the sections. -/
theorem parseLoop_render (sections : List CustomSection) {s : ParseState} (hlast : s.last = 0) :
    (parseLoop s (render sections)).map ParseState.groups =
      (sections.flatMap CustomSection.calls).foldlM (fun dict call => call.run dict) s.groups := by
  induction sections generalizing s with
  | nil =>
    rw [render, List.flatMap_nil, parseLoop, fgets, if_pos rfl]
    rfl
  | cons sec sections ih =>
    have htext : render (sec :: sections) =
        sec.line ++ LF :: ((sec.entries.flatMap fun e => e.line ++ [LF]) ++ render sections) := by
      rw [render, List.flatMap_cons, List.append_assoc, List.cons_append, render]
    obtain ⟨t, hgroups, hlast', hname, hsection⟩ := parseLoop_section sec
      ((sec.entries.flatMap fun e => e.line ++ [LF]) ++ render sections) hlast
    obtain ⟨t', ht', hentries⟩ :=
      parseLoop_entries sec.entries (render sections) hlast' hname sec.custom
    rw [htext, hsection, hentries, List.flatMap_cons, List.foldlM_append, hgroups]
    show Option.map _ (Option.bind (List.foldlM _ _ sec.calls) _) =
      Option.bind (List.foldlM _ _ sec.calls) _
    cases sec.calls.foldlM (fun dict call => call.run dict) s.groups with
    | none => rfl
    | some groups =>
      rw [Option.bind_some, Option.bind_some, ih (ht' groups).2, (ht' groups).1]

/-- The dictionary after the file is that of the entries in their order. -/
theorem parseConfig_render (sections : List CustomSection) :
    smfSettingsParseConfig smfDictNew (render sections) =
      dictAfter (sections.flatMap CustomSection.calls) :=
  parseLoop_render sections rfl

/-! ## Reading it back -/

/-- After calls of `smf_dict_set` alone a key has the value of the last one. -/
theorem lastSet_sets (l : List (Bytes × Bytes)) (key : Bytes) :
    lastSet (l.map fun b => .set b.1 b.2) key =
      (l.filter (·.1 = key)).getLast?.map Prod.snd := by
  induction l using List.reverseRecOn with
  | nil => rfl
  | append_singleton l b ih =>
    have hlast : lastSet ((l ++ [b]).map fun b => .set b.1 b.2) =
        Function.update (lastSet (l.map fun b => .set b.1 b.2)) b.1 (some b.2) := by
      rw [lastSet, List.map_append, List.foldl_append]
      rfl
    rw [hlast, List.filter_append]
    by_cases hb : b.1 = key
    · subst hb
      rw [Function.update_self, List.filter_singleton]
      simp
    · rw [Function.update_of_ne (Ne.symm hb), ih, List.filter_singleton]
      simp [hb]

/-- The key in `groups` gives back the section, which is free of colons, and the key. -/
theorem groupKey_inj {name name' key key' : Bytes} (hname : COLON ∉ name) (hname' : COLON ∉ name')
    (h : groupKey name key = groupKey name' key') : name = name' ∧ key = key' := by
  have hfree : ∀ {s : Bytes}, COLON ∉ s → ∀ c ∈ s, decide (c ≠ COLON) = true := by
    intro s hs c hc
    exact decide_eq_true fun hcolon => hs (hcolon ▸ hc)
  have htake := congrArg (List.takeWhile (· ≠ COLON)) h
  rw [groupKey, groupKey, takeWhile_append_cons (hfree hname) (by decide),
    takeWhile_append_cons (hfree hname') (by decide)] at htake
  subst htake
  exact ⟨rfl, (List.cons.inj (List.append_cancel_left h)).2⟩

/-- The keys and values that the entries of a section are set with. -/
def CustomSection.bindings (s : CustomSection) : List (Bytes × Bytes) :=
  s.entries.map fun e => (groupKey s.name e.key, e.value)

theorem calls_eq_bindings (sections : List CustomSection) :
    sections.flatMap CustomSection.calls =
      (sections.flatMap CustomSection.bindings).map fun b => .set b.1 b.2 := by
  rw [List.map_flatMap]
  apply List.flatMap_congr
  intro s _
  rw [CustomSection.calls, CustomSection.bindings, List.map_map]
  rfl

theorem CustomSection.colon_notMem (s : CustomSection) : COLON ∉ s.name :=
  fun h => (s.name_free COLON h).2.1 rfl

/-- The bindings of a key in `groups` are the entries for it. -/
theorem values_of_groupKey (sections : List CustomSection) {groupName : Bytes} (key : Bytes)
    (hname : COLON ∉ groupName) :
    ((sections.flatMap CustomSection.bindings).filter (·.1 = groupKey groupName key)).map Prod.snd =
      (((sections.filter (·.name = groupName)).flatMap CustomSection.entries).filter
        (·.key = key)).map Entry.value := by
  induction sections with
  | nil => rfl
  | cons s sections ih =>
    rw [List.flatMap_cons, List.filter_append, List.map_append, ih, CustomSection.bindings,
      List.filter_map]
    by_cases hs : s.name = groupName
    · have hsame : ((fun b : Bytes × Bytes => decide (b.1 = groupKey groupName key)) ∘
          fun e : Entry => (groupKey s.name e.key, e.value)) = fun e => decide (e.key = key) := by
        funext e
        rw [Function.comp_apply, hs, decide_eq_decide]
        constructor
        · exact fun h => (groupKey_inj hname hname h).2
        · exact fun h => congrArg (groupKey groupName) h
      rw [hsame, List.filter_cons, if_pos (decide_eq_true hs), List.flatMap_cons,
        List.filter_append, List.map_append, List.map_map]
      rfl
    · have hnone : (s.entries.filter ((fun b : Bytes × Bytes =>
          decide (b.1 = groupKey groupName key)) ∘
            fun e : Entry => (groupKey s.name e.key, e.value))) = [] := by
        rw [List.filter_eq_nil_iff]
        intro e _ he
        exact hs (groupKey_inj s.colon_notMem hname (of_decide_eq_true he)).1
      rw [hnone, List.filter_cons, if_neg (by simpa using hs), List.map_nil, List.map_nil,
        List.nil_append]

theorem length_calls (sections : List CustomSection) :
    (sections.flatMap CustomSection.calls).length =
      (sections.flatMap CustomSection.entries).length := by
  rw [List.length_flatMap, List.length_flatMap]
  congr 1
  apply List.map_congr_left
  intro s _
  exact List.length_map _

/-- The dictionary holds the entries of a file with few of them. -/
theorem parseConfig_render_some (sections : List CustomSection)
    (hfew : (sections.flatMap CustomSection.entries).length ≤ DICT_LIMIT) :
    ∃ groups, smfSettingsParseConfig smfDictNew (render sections) = some groups := by
  rw [parseConfig_render]
  obtain ⟨groups, hgroups, -⟩ := calls_eq_some (sections.flatMap CustomSection.calls)
    represents_new (by
      rw [length_calls, show smfDictNew.n = 0 from rfl, Nat.zero_add]
      exact hfew)
  exact ⟨groups, hgroups⟩

/-- Every key has the value of its last entry. -/
theorem groupGet_render {sections : List CustomSection} {groups : Dict}
    (h : smfSettingsParseConfig smfDictNew (render sections) = some groups) {groupName : Bytes}
    (key : Bytes) (hname : COLON ∉ groupName) :
    smfSettingsGroupGet groups groupName key = lastEntry sections groupName key := by
  rw [parseConfig_render] at h
  have hrep : groups.Represents (lastSet (sections.flatMap CustomSection.calls)) :=
    represents_calls represents_new h
  rw [smfSettingsGroupGet, hrep.get_eq, calls_eq_bindings, lastSet_sets, lastEntry,
    ← List.getLast?_map, ← List.getLast?_map, values_of_groupKey sections key hname]

/-- **What is written down is read back.**  A file of custom sections is taken whole as
long as the dictionary can hold its entries, and then every key has the value of its last
entry. -/
theorem parse_render (sections : List CustomSection) :
    ((sections.flatMap CustomSection.entries).length ≤ DICT_LIMIT →
      ∃ groups, smfSettingsParseConfig smfDictNew (render sections) = some groups) ∧
    ∀ groups, smfSettingsParseConfig smfDictNew (render sections) = some groups →
      ∀ groupName key, COLON ∉ groupName →
        smfSettingsGroupGet groups groupName key = lastEntry sections groupName key :=
  ⟨parseConfig_render_some sections, fun _ hgroups _ key hname =>
    groupGet_render hgroups key hname⟩

/-- A section with a value that looks like a comment. -/
def sampleSection : CustomSection where
  name := ascii "mail"
  entries :=
    [{ key := ascii "host"
       value := ascii ";a=b"
       key_trimmed := trimmed_of_ends (by decide) (by decide) (by decide)
       key_free := forall_mem_of_all (by decide)
       key_head := by decide
       value_trimmed := trimmed_of_ends (by decide) (by decide) (by decide)
       value_free := forall_mem_of_all (by decide)
       value_head := by decide
       fits := by decide }]
  name_trimmed := trimmed_of_ends (by decide) (by decide) (by decide)
  name_free := forall_mem_of_all (by decide)
  custom := by decide
  fits := by decide

theorem parse_render_sample :
    ∃ groups, smfSettingsParseConfig smfDictNew (render [sampleSection]) = some groups ∧
      smfSettingsGroupGet groups (ascii "mail") (ascii "host") = some (ascii ";a=b") ∧
      smfSettingsGroupGet groups (ascii "mail") (ascii "port") = none := by
  obtain ⟨hsome, hread⟩ := parse_render [sampleSection]
  obtain ⟨groups, hgroups⟩ := hsome (show 1 ≤ 134217728 by decide)
  refine ⟨groups, hgroups, ?_, ?_⟩
  · exact (hread groups hgroups (ascii "mail") (ascii "host") (by decide)).trans (by decide)
  · exact (hread groups hgroups (ascii "mail") (ascii "port") (by decide)).trans (by decide)

end Spmfilter
