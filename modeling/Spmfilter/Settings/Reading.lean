import Spmfilter.Lib.Buffer
import Spmfilter.Settings.Values

/-!
# The reading loop

`smf_settings_parse_config` reads the file into the buffer `line` with `fgets`, from the
offset `last` on.  Where the string in the buffer does not end in a backslash it goes to
`_parse_line`, and otherwise the next read goes over the backslash.

* `readRound` is one turn of the loop on the memory of the buffer, and `readLoop` is the loop.
* `readTurn` and `readLines` are about strings alone: which texts go to `_parse_line`, and
  where the loop stops before the end of the file.
* `lineEffect` is what a line says, and `Stored.hand` what it does to the settings.
* `readLoop_stored` : the loop hands over the texts of `readLines`, one after the other.
-/

namespace Spmfilter

open CString Stdio Buffers

/-! ## The loop -/

/-- How the loop stops before the end of the file. -/
inductive ReadStop
  /-- an access to `line` outside its bounds -/
  | outside
  /-- the return value -1 -/
  | tooLong
  /-- `fgets` has room for the NUL alone and reads nothing -/
  | noRoom
  /-- `strcmp` of the section name NULL -/
  | nullSection
  | doubleFree
deriving DecidableEq

/-- What the lines have left behind. -/
structure Progress where
  buffers : LineBuffers := {}
  /-- `clean_section`, which is NULL before the first section -/
  cleanSection : Option Bytes := none
  config : Config

/-- An entry of a section.  Where `groups` cannot grow the loop goes on without it. -/
def store (c : Config) (name key val : Bytes) : Option Config :=
  if isBuiltin name then setConfigValue c ⟨name, key⟩ val
  else some { c with groups := (smfDictSet (groupKey name key) val c.groups).getD c.groups }

/-- What is done with a line. -/
def handLine (p : Progress) (text : Bytes) : Except ReadStop Progress :=
  match parseLine text p.buffers with
  | (.lineSection, b) =>
    let clean := smfCoreStrstrip b.sectionBuf
    .ok { p with buffers := { b with sectionBuf := clean }, cleanSection := some clean }
  | (.lineValue, b) =>
    let key := smfCoreStrstrip b.keyBuf
    let val := smfCoreStrstrip b.valBuf
    match p.cleanSection with
    | none => .error .nullSection
    | some name =>
      match store p.config name key val with
      | some c => .ok { p with buffers := { b with keyBuf := key, valBuf := val }, config := c }
      | none => .error .doubleFree
  | (_, b) => .ok { p with buffers := b }

def inBounds {α : Type} : Option α → Except ReadStop α
  | some x => .ok x
  | none => .error .outside

/-- `smf_core_strstrip` in a buffer that holds the string `s`. -/
def stripBuffer (b : Buffer) (s : Bytes) : Option Buffer :=
  let keep := (smfCoreStrstrip s).length
  (b.memmove 0 (s.takeWhile isspace).length keep).bind fun b => b.write keep [0]

structure ReadState where
  line : Buffer
  last : Nat
  progress : Progress

/-- One turn of the loop, after `fgets` has read `chunk`. -/
def readRound (s : ReadState) (chunk : Bytes) : Except ReadStop ReadState := do
  let line ← inBounds (s.line.write s.last (chunk ++ [0]))
  let strlen ← inBounds (line.strlen 0)
  let len : Int := strlen - 1
  if len = 0 then
    return { s with line := line }
  else if (MAX_LINE : Int) < len then
    throw .tooLong
  else
    let c ← inBounds (line.get len)
    if c = BACKSLASH then
      return { s with line := line, last := len.toNat }
    else
      let text ← inBounds (line.read 0 strlen)
      let line ← inBounds (stripBuffer line text)
      let progress ← handLine s.progress text
      let line ← inBounds (line.write 0 (List.replicate MAX_LINE 0))
      return ⟨line, 0, progress⟩

def readLoop (s : ReadState) (input : Bytes) : Except ReadStop Progress :=
  match fgets (MAX_LINE - s.last) input with
  | none => .ok s.progress
  | some (chunk, rest) =>
    if rest.length < input.length then (readRound s chunk).bind fun s => readLoop s rest
    else .error .noRoom
termination_by input.length

/-- In front of the loop. -/
def ReadState.start (c : Config) : ReadState :=
  ⟨⟨List.replicate (MAX_LINE + 1) 0⟩, 0, { config := c }⟩

section Results

variable {ε α β : Type} {x : Except ε α}

theorem bind_eq_ok_iff {f : α → Except ε β} {b : β} :
    x.bind f = .ok b ↔ ∃ a, x = .ok a ∧ f a = .ok b := by
  constructor
  · intro h
    cases x with
    | error e => cases h
    | ok a => exact ⟨a, rfl, h⟩
  · rintro ⟨a, rfl, h⟩
    exact h

theorem map_eq_ok_iff {f : α → β} {b : β} : x.map f = .ok b ↔ ∃ a, x = .ok a ∧ f a = b := by
  constructor
  · intro h
    cases x with
    | error e => cases h
    | ok a => exact ⟨a, rfl, Except.ok.inj h⟩
  · rintro ⟨a, rfl, rfl⟩
    rfl

end Results

/-! ## The texts that are handed over -/

/-- The string in the buffer `line`, and where the next read goes. -/
structure LineBuffer where
  line : Bytes := []
  last : Nat := 0

inductive LineTurn
  | stops (e : ReadStop)
  | goesOn (r : LineBuffer)
  | hands (text : Bytes)

def readTurn (r : LineBuffer) (chunk : Bytes) : LineTurn :=
  let line := cstr (r.line.take r.last ++ chunk)
  if line = [] then .stops .outside
  else if line.length = 1 then .goesOn { r with line := line }
  else if MAX_LINE + 1 < line.length then .stops .tooLong
  else if line.getLast? = some BACKSLASH then .goesOn ⟨line, line.length - 1⟩
  else .hands line

/-- The texts that go to `_parse_line`, and why no more come. -/
def readLines (r : LineBuffer) (input : Bytes) : List Bytes × Option ReadStop :=
  match fgets (MAX_LINE - r.last) input with
  | none => ([], none)
  | some (chunk, rest) =>
    if rest.length < input.length then
      match readTurn r chunk with
      | .stops e => ([], some e)
      | .goesOn r => readLines r rest
      | .hands text => (text :: (readLines {} rest).1, (readLines {} rest).2)
    else ([], some .noRoom)
termination_by input.length

/-- The string in the buffer is a C string, `last` is inside it, and the next read has room. -/
structure LineBuffer.Sound (r : LineBuffer) : Prop where
  free : (0 : UInt8) ∉ r.line
  last_le : r.last ≤ r.line.length
  room : r.last + 2 ≤ MAX_LINE

theorem LineBuffer.sound_empty : LineBuffer.Sound {} where
  free := List.not_mem_nil
  last_le := Nat.le_refl 0
  room := by decide

section OneTurn

variable {r : LineBuffer} {chunk : Bytes}

/-- The string after a read, which is shorter than the buffer. -/
theorem LineBuffer.Sound.text_length (h : r.Sound) (hchunk : chunk.length ≤ MAX_LINE - r.last - 1) :
    cstr (r.line.take r.last ++ chunk) = r.line.take r.last ++ cstr chunk ∧
      r.last ≤ (cstr (r.line.take r.last ++ chunk)).length ∧
      (cstr (r.line.take r.last ++ chunk)).length + 1 ≤ MAX_LINE := by
  have hroom := h.room
  have hfront : (r.line.take r.last).length = r.last := List.length_take_of_le h.last_le
  have hcstr : cstr (r.line.take r.last ++ chunk) = r.line.take r.last ++ cstr chunk :=
    cstr_append (fun hmem => h.free (List.mem_of_mem_take hmem)) chunk
  have hle := cstr_length_le chunk
  rw [hcstr, List.length_append, hfront]
  exact ⟨rfl, by omega, by omega⟩

/-- What a turn leaves: the guard against long lines never stops it, and a text that is handed
over is a C string. -/
theorem readTurn_sound (h : r.Sound) (hchunk : chunk.length ≤ MAX_LINE - r.last - 1) :
    match readTurn r chunk with
    | .stops e => e = .outside
    | .goesOn r' => r'.Sound
    | .hands text => (0 : UInt8) ∉ text ∧ text.length + 1 ≤ MAX_LINE := by
  have hroom := h.room
  have hfree := cstr_noNul (r.line.take r.last ++ chunk)
  obtain ⟨-, hlast, hshort⟩ := h.text_length hchunk
  rw [readTurn]
  generalize cstr (r.line.take r.last ++ chunk) = text at *
  have hfits : ¬ MAX_LINE + 1 < text.length := by omega
  simp only [if_neg hfits]
  by_cases hempty : text = []
  · rw [if_pos hempty]
  rw [if_neg hempty]
  by_cases hone : text.length = 1
  · rw [if_pos hone]
    exact ⟨hfree, hlast, hroom⟩
  rw [if_neg hone]
  by_cases hback : text.getLast? = some BACKSLASH
  · have hroom' : text.length - 1 + 2 ≤ MAX_LINE := by omega
    rw [if_pos hback]
    exact ⟨hfree, Nat.sub_le _ _, hroom'⟩
  · rw [if_neg hback]
    exact ⟨hfree, hshort⟩

/-- There is always room for a byte, and so every turn comes forward. -/
theorem fgets_forward (hroom : r.last + 2 ≤ MAX_LINE) {input rest : Bytes}
    (h : fgets (MAX_LINE - r.last) input = some (chunk, rest)) :
    rest.length < input.length ∧ chunk.length ≤ MAX_LINE - r.last - 1 := by
  obtain ⟨rfl, hlength, hne⟩ := fgets_some h
  have hpos := List.length_pos_of_ne_nil (hne (by omega))
  rw [List.length_append]
  exact ⟨by omega, hlength⟩

end OneTurn

/-! ## What a line says -/

inductive LineEffect
  | nothing
  /-- `none` is the line `[]`, which leaves the name as it is. -/
  | entersSection (name : Option Bytes)
  | assigns (key val : Bytes)

def lineEffect (text : Bytes) : LineEffect :=
  match parseLine text {} with
  | (.lineSection, b) =>
    .entersSection (if b.sectionBuf = [] then none else some (smfCoreStrstrip b.sectionBuf))
  | (.lineValue, b) => .assigns (smfCoreStrstrip b.keyBuf) (smfCoreStrstrip b.valBuf)
  | _ => .nothing

/-- The section and the settings. -/
structure Stored where
  sectionName : Option Bytes
  config : Config

def Stored.hand (s : Stored) (text : Bytes) : Except ReadStop Stored :=
  match lineEffect text with
  | .nothing => .ok s
  | .entersSection name =>
    .ok { s with sectionName := some (name.getD (s.sectionName.getD [])) }
  | .assigns key val =>
    match s.sectionName with
    | none => .error .nullSection
    | some name =>
      match store s.config name key val with
      | some c => .ok { s with config := c }
      | none => .error .doubleFree

def Stored.handAll (s : Stored) (texts : List Bytes) : Except ReadStop Stored :=
  texts.foldlM Stored.hand s

/-- The texts one after the other, and then the end of the file or the stop. -/
def Stored.read (s : Stored) (read : List Bytes × Option ReadStop) : Except ReadStop Stored :=
  (s.handAll read.1).bind fun s =>
    match read.2 with
    | none => .ok s
    | some e => .error e

def Progress.stored (p : Progress) : Stored := ⟨p.cleanSection, p.config⟩

/-- The buffer `section` holds the name, and nothing before the first section. -/
structure Progress.Coherent (p : Progress) : Prop where
  name : p.buffers.sectionBuf = p.cleanSection.getD []
  stripped : smfCoreStrstrip p.buffers.sectionBuf = p.buffers.sectionBuf

section Buffers

variable (text line : Bytes) (b b' : LineBuffers)

/-- A line that converts both writes both buffers. -/
theorem scanFirst_buffers (formats : List (List Directive)) :
    (scanFirst line formats b).1 = (scanFirst line formats b').1 ∧
      (scanFirst line formats b).2.sectionBuf = b.sectionBuf ∧
      ((scanFirst line formats b).1 = true →
        (scanFirst line formats b).2.keyBuf = (scanFirst line formats b').2.keyBuf ∧
          (scanFirst line formats b).2.valBuf = (scanFirst line formats b').2.valBuf) := by
  induction formats generalizing b b' with
  | nil => exact ⟨rfl, rfl, fun h => absurd h Bool.false_ne_true⟩
  | cons format formats ih =>
    rw [scanFirst, scanFirst]
    by_cases hboth : (sscanf format line).length = 2
    · obtain ⟨key, val, hconverted⟩ := List.length_eq_two.mp hboth
      rw [if_pos hboth, if_pos hboth, hconverted]
      exact ⟨rfl, rfl, fun _ => ⟨rfl, rfl⟩⟩
    · rw [if_neg hboth, if_neg hboth]
      exact ih _ _

/-- What a line says does not depend on what lines before it have left in the buffers. -/
theorem parseLine_buffers :
    (parseLine text b).1 = (parseLine text b').1 ∧
      ((parseLine text b).1 = .lineValue →
        (parseLine text b).2.keyBuf = (parseLine text b').2.keyBuf ∧
          (parseLine text b).2.valBuf = (parseLine text b').2.valBuf) ∧
      ((parseLine text b).1 ≠ .lineSection → (parseLine text b).2.sectionBuf = b.sectionBuf) := by
  simp only [parseLine]
  split_ifs
  · exact ⟨rfl, fun h => (by cases h), fun _ => rfl⟩
  · exact ⟨rfl, fun h => (by cases h), fun _ => rfl⟩
  · exact ⟨rfl, fun h => (by cases h), fun h => absurd rfl h⟩
  · obtain ⟨hsame, hsection, hwritten⟩ :=
      scanFirst_buffers (smfCoreStrstrip text) b b' valueFormats
    rcases hvalue : scanFirst (smfCoreStrstrip text) valueFormats b with ⟨ok, c⟩
    rcases hvalue' : scanFirst (smfCoreStrstrip text) valueFormats b' with ⟨ok', c'⟩
    rw [hvalue, hvalue'] at hsame hwritten
    rw [hvalue] at hsection
    obtain rfl : ok = ok' := hsame
    cases ok with
    | true =>
      obtain ⟨hkey, hval⟩ := hwritten rfl
      simp only at hkey hval hsection ⊢
      rw [hval]
      split_ifs
      · exact ⟨rfl, fun _ => ⟨hkey, rfl⟩, fun _ => hsection⟩
      · exact ⟨rfl, fun _ => ⟨hkey, hval⟩, fun _ => hsection⟩
    | false =>
      obtain ⟨hsame', hsection', hwritten'⟩ :=
        scanFirst_buffers (smfCoreStrstrip text) c c' emptyFormats
      simp only at hsection ⊢
      rcases hempty : scanFirst (smfCoreStrstrip text) emptyFormats c with ⟨ok, d⟩
      rcases hempty' : scanFirst (smfCoreStrstrip text) emptyFormats c' with ⟨ok', d'⟩
      rw [hempty, hempty'] at hsame' hwritten'
      rw [hempty] at hsection'
      obtain rfl : ok = ok' := hsame'
      cases ok with
      | true => exact ⟨rfl, fun _ => ⟨(hwritten' rfl).1, rfl⟩, fun _ => hsection'.trans hsection⟩
      | false => exact ⟨rfl, fun h => (by cases h), fun _ => hsection'.trans hsection⟩

theorem parseLine_section_eq (h : (parseLine text b).1 = .lineSection) :
    (parseLine text b).2.sectionBuf =
      (sscanf [.lit BRACKET, .but CLOSING] (smfCoreStrstrip text))[0]?.getD b.sectionBuf := by
  simp only [parseLine] at h ⊢
  split_ifs at h ⊢
  · rfl
  · split at h
    · split_ifs at h
    · split at h <;> cases h

/-- A section line without a name leaves the buffer `section` as it is. -/
theorem parseLine_sectionBuf (h : (parseLine text b).1 = .lineSection) :
    (parseLine text b).2.sectionBuf =
      if (parseLine text {}).2.sectionBuf = [] then b.sectionBuf
      else (parseLine text {}).2.sectionBuf := by
  have h0 : (parseLine text {}).1 = .lineSection := (parseLine_buffers text {} b).1.trans h
  rw [parseLine_section_eq text b h, parseLine_section_eq text {} h0]
  cases hname : (sscanf [.lit BRACKET, .but CLOSING] (smfCoreStrstrip text))[0]? with
  | none => rfl
  | some name =>
    have hne : name ≠ [] := sscanf_ne_nil _ _ _ (List.mem_of_getElem? hname)
    exact (if_neg hne).symm

end Buffers

/-- What is done with a line is what it says. -/
theorem handLine_stored {p : Progress} (h : p.Coherent) (text : Bytes) :
    (handLine p text).map Progress.stored = p.stored.hand text ∧
      ∀ q, handLine p text = .ok q → q.Coherent := by
  obtain ⟨hstatus, hvalue, hkept⟩ := parseLine_buffers text p.buffers {}
  have hsection := parseLine_sectionBuf text p.buffers
  rw [handLine, Stored.hand, lineEffect]
  rcases hparse : parseLine text p.buffers with ⟨status, b⟩
  rcases hparse' : parseLine text {} with ⟨status', b'⟩
  rw [hparse, hparse'] at hstatus hvalue hsection
  rw [hparse] at hkept
  obtain rfl : status = status' := hstatus
  have hcoherent : status ≠ .lineSection → ∀ (d : LineBuffers) (c : Config),
      d.sectionBuf = b.sectionBuf →
      Progress.Coherent { p with buffers := d, config := c } := by
    intro hother d c hd
    have hsame : d.sectionBuf = p.buffers.sectionBuf := hd.trans (hkept hother)
    exact ⟨hsame.trans h.name, by rw [hsame]; exact h.stripped⟩
  cases status with
  | lineSection =>
    have hname : smfCoreStrstrip b.sectionBuf =
        (if b'.sectionBuf = [] then none else some (smfCoreStrstrip b'.sectionBuf)).getD
          (p.cleanSection.getD []) := by
      rw [hsection rfl]
      split_ifs
      · exact h.stripped.trans h.name
      · rfl
    constructor
    · show Except.ok (Stored.mk (some (smfCoreStrstrip b.sectionBuf)) p.config) = _
      rw [hname]
      rfl
    · intro q hq
      obtain rfl := Except.ok.inj hq
      exact ⟨rfl, smfCoreStrstrip_idem _⟩
  | lineValue =>
    obtain ⟨hkey, hval⟩ := hvalue rfl
    simp only [Progress.stored] at hkey hval ⊢
    rw [hkey, hval]
    cases hclean : p.cleanSection with
    | none => exact ⟨rfl, fun _ h => (by cases h)⟩
    | some name =>
      simp only
      cases store p.config name (smfCoreStrstrip b'.keyBuf) (smfCoreStrstrip b'.valBuf) with
      | none => exact ⟨rfl, fun _ h => (by cases h)⟩
      | some c =>
        rw [← hclean]
        refine ⟨rfl, fun q hq => ?_⟩
        obtain rfl := Except.ok.inj hq
        exact hcoherent (fun h => by cases h) _ c rfl
  | lineError | lineEmpty | lineComment =>
    refine ⟨rfl, fun q hq => ?_⟩
    obtain rfl := Except.ok.inj hq
    exact hcoherent (fun h => by cases h) b p.config rfl

/-! ## The memory of the buffer -/

/-- The block `b` holds the string of `r`. -/
structure Holds (b : Buffer) (r : LineBuffer) : Prop extends r.Sound where
  size : b.size = MAX_LINE + 1
  cells : ∃ back, b.cells = r.line ++ 0 :: back

theorem holds_zeros {b : Buffer} {back : Bytes} (hsize : b.size = MAX_LINE + 1)
    (hcells : b.cells = 0 :: back) : Holds b {} where
  toSound := LineBuffer.sound_empty
  size := hsize
  cells := ⟨back, hcells⟩

theorem inBounds_bind {α β : Type} (x : α) (f : α → Except ReadStop β) :
    (inBounds (some x) >>= f) = f x := rfl

section Memory

variable {b : Buffer} {r : LineBuffer} {chunk : Bytes}

/-- What `fgets` writes is in bounds, and leaves a string behind. -/
theorem Holds.write (h : Holds b r) (hchunk : chunk.length ≤ MAX_LINE - r.last - 1) :
    ∃ back, b.write r.last (chunk ++ [0]) = some ⟨cstr (r.line.take r.last ++ chunk) ++ 0 :: back⟩ ∧
      (Buffer.mk (cstr (r.line.take r.last ++ chunk) ++ 0 :: back)).size = MAX_LINE + 1 := by
  obtain ⟨back, hcells⟩ := h.cells
  have hsize := h.size
  have hroom := h.room
  have hfront : (r.line.take r.last).length = r.last := List.length_take_of_le h.last_le
  obtain ⟨old, after, hsplit, hold⟩ : ∃ old after, r.line.drop r.last ++ 0 :: back = old ++ after ∧
      old.length = (chunk ++ [(0 : UInt8)]).length := by
    refine ⟨_, _, (List.take_append_drop (chunk.length + 1) _).symm, ?_⟩
    rw [Buffer.size, hcells] at hsize
    simp only [List.length_append, List.length_cons] at hsize
    simp only [List.length_take, List.length_append, List.length_drop, List.length_cons,
      List.length_nil]
    omega
  have hb : b = ⟨r.line.take r.last ++ old ++ after⟩ := by
    have hwhole : b.cells = r.line.take r.last ++ old ++ after := by
      rw [hcells, List.append_assoc, ← hsplit, ← List.append_assoc, List.take_append_drop]
    exact congrArg Buffer.mk hwhole
  have hwrite := Buffer.write_append (r.line.take r.last) after hold
  rw [hfront, ← hb] at hwrite
  obtain ⟨back', hback⟩ := cstr_append_nul (r.line.take r.last ++ chunk) after
  refine ⟨back', ?_, ?_⟩
  · rw [hwrite, ← hback]
    simp
  · rw [← hsize, ← Buffer.size_write hwrite, ← hback]
    simp [Buffer.size]

/-- Stripping stays in bounds. -/
theorem stripBuffer_size (s back : Bytes) :
    ∃ b', stripBuffer ⟨s ++ 0 :: back⟩ s = some b' ∧
      b'.size = (Buffer.mk (s ++ 0 :: back)).size := by
  have hlength := smfCoreStrstrip_length s
  have hsize : s.length + 1 ≤ (Buffer.mk (s ++ 0 :: back)).size := by
    simp only [Buffer.size, List.length_append, List.length_cons]
    omega
  obtain ⟨kept, hread, hkept⟩ : ∃ kept, (Buffer.mk (s ++ 0 :: back)).read
      (s.takeWhile isspace).length (smfCoreStrstrip s).length = some kept ∧
        kept.length ≤ (smfCoreStrstrip s).length := by
    refine ⟨_, if_pos ⟨Int.natCast_nonneg _, ?_⟩, List.length_take_le _ _⟩
    rw [Int.toNat_natCast]
    omega
  have hfront : ((Buffer.mk (s ++ 0 :: back)).write 0 kept).isSome = true := by
    rw [Buffer.write_isSome, Int.toNat_zero]
    omega
  obtain ⟨b1, hmove⟩ := Option.isSome_iff_exists.mp hfront
  have hmemmove : (Buffer.mk (s ++ 0 :: back)).memmove 0 (s.takeWhile isspace).length
      (smfCoreStrstrip s).length = some b1 := by
    rw [Buffer.memmove, hread, Option.bind_some, hmove]
  have hnul : (b1.write (smfCoreStrstrip s).length [0]).isSome = true := by
    rw [Buffer.write_isSome, Int.toNat_natCast, Buffer.size_memmove hmemmove,
      List.length_singleton]
    omega
  obtain ⟨b2, hend⟩ := Option.isSome_iff_exists.mp hnul
  refine ⟨b2, ?_, (Buffer.size_write hend).trans (Buffer.size_memmove hmemmove)⟩
  rw [stripBuffer, hmemmove, Option.bind_some, hend]

/-- `memset` leaves the empty string behind. -/
theorem memset_holds (hsize : b.size = MAX_LINE + 1) :
    ∃ b', b.write 0 (List.replicate MAX_LINE 0) = some b' ∧ Holds b' {} := by
  have hin : (b.write 0 (List.replicate MAX_LINE 0)).isSome = true := by
    rw [Buffer.write_isSome, Int.toNat_zero, List.length_replicate]
    omega
  obtain ⟨b', hwrite⟩ := Option.isSome_iff_exists.mp hin
  have hcells : ∃ back, b'.cells = 0 :: back := by
    rw [Buffer.write] at hwrite
    split at hwrite
    · obtain rfl := Option.some.inj hwrite
      exact ⟨_, rfl⟩
    · cases hwrite
  obtain ⟨back, hcells⟩ := hcells
  exact ⟨b', hwrite, holds_zeros ((Buffer.size_write hwrite).trans hsize) hcells⟩

/-- The end of a turn that hands its text over: the buffer is cleared again. -/
theorem handRound_eq (s back : Bytes) (hsize : (Buffer.mk (s ++ 0 :: back)).size = MAX_LINE + 1)
    (p : Progress) :
    ∃ b', Holds b' {} ∧
      (do
        let line ← inBounds (stripBuffer ⟨s ++ 0 :: back⟩ s)
        let progress ← handLine p s
        let line ← inBounds (line.write 0 (List.replicate MAX_LINE 0))
        return (⟨line, 0, progress⟩ : ReadState)) =
      (handLine p s).map fun p => ⟨b', 0, p⟩ := by
  obtain ⟨stripped, hstrip, hstripped⟩ := stripBuffer_size s back
  obtain ⟨cleared, hclear, hholds⟩ := memset_holds (hstripped.trans hsize)
  refine ⟨cleared, hholds, ?_⟩
  generalize List.replicate MAX_LINE (0 : UInt8) = zeros at hclear ⊢
  rw [hstrip, inBounds_bind]
  show (handLine p s).bind _ = _
  cases handLine p s with
  | error e => rfl
  | ok q =>
    show (inBounds (stripped.write 0 zeros)).bind _ = _
    rw [hclear]
    rfl

/-- What a turn reads from the memory, where the buffer holds a string with a last character. -/
theorem readRound_text {t back : Bytes} {c : UInt8} {last : Nat} (p : Progress)
    (hwrite : b.write last (chunk ++ [0]) = some ⟨t ++ [c] ++ 0 :: back⟩)
    (hfree : (0 : UInt8) ∉ t ++ [c]) :
    readRound ⟨b, last, p⟩ chunk =
      if t.length = 0 then .ok ⟨⟨t ++ [c] ++ 0 :: back⟩, last, p⟩
      else if MAX_LINE < t.length then .error .tooLong
      else if c = BACKSLASH then .ok ⟨⟨t ++ [c] ++ 0 :: back⟩, t.length, p⟩
      else do
        let line ← inBounds (stripBuffer ⟨t ++ [c] ++ 0 :: back⟩ (t ++ [c]))
        let progress ← handLine p (t ++ [c])
        let line ← inBounds (line.write 0 (List.replicate MAX_LINE 0))
        return ⟨line, 0, progress⟩ := by
  have hstrlen : (Buffer.mk (t ++ [c] ++ 0 :: back)).strlen 0 = some (t ++ [c]).length :=
    Buffer.strlen_append [] back hfree
  have hlen : (((t ++ [c]).length : Nat) : Int) - 1 = t.length := by
    rw [List.length_append, List.length_singleton]
    omega
  have hget : (Buffer.mk (t ++ [c] ++ 0 :: back)).get t.length = some c := by
    rw [List.append_assoc]
    exact Buffer.get_append t c (0 :: back)
  have hread : (Buffer.mk (t ++ [c] ++ 0 :: back)).read 0 (t ++ [c]).length = some (t ++ [c]) :=
    Buffer.read_append [] (t ++ [c]) (0 :: back)
  rw [readRound, hwrite, inBounds_bind, hstrlen, inBounds_bind]
  simp only [hlen, hget, hread, inBounds_bind, Int.natCast_eq_zero, Int.ofNat_lt, Int.toNat_natCast]
  rfl

/-- A turn on the memory is the turn on the string. -/
theorem readRound_eq (h : Holds b r) (hchunk : chunk.length ≤ MAX_LINE - r.last - 1)
    (p : Progress) :
    match readTurn r chunk with
    | .stops e => readRound ⟨b, r.last, p⟩ chunk = .error e
    | .goesOn r' => ∃ b', Holds b' r' ∧ readRound ⟨b, r.last, p⟩ chunk = .ok ⟨b', r'.last, p⟩
    | .hands text => ∃ b', Holds b' {} ∧
        readRound ⟨b, r.last, p⟩ chunk = (handLine p text).map fun p => ⟨b', 0, p⟩ := by
  obtain ⟨back, hwrite, hsize⟩ := h.write hchunk
  have hsound := readTurn_sound h.toSound hchunk
  have hfree := cstr_noNul (r.line.take r.last ++ chunk)
  obtain ⟨-, -, hshort⟩ := h.text_length hchunk
  rw [readTurn] at hsound ⊢
  generalize cstr (r.line.take r.last ++ chunk) = s at *
  rcases List.eq_nil_or_concat s with rfl | ⟨t, c, rfl⟩
  · -- `len` is -1
    have hstrlen : (Buffer.mk ([] ++ 0 :: back)).strlen 0 = some 0 :=
      Buffer.strlen_append [] back hfree
    rw [readRound, hwrite, inBounds_bind, hstrlen, inBounds_bind]
    rfl
  rw [List.concat_eq_append] at *
  have hlength : (t ++ [c]).length = t.length + 1 := List.length_append
  have hne : t ++ [c] ≠ [] := List.append_ne_nil_of_right_ne_nil t (List.cons_ne_nil c [])
  have hlast : (t ++ [c]).getLast? = some c := List.getLast?_append_cons t c []
  have hfits : ¬ MAX_LINE + 1 < (t ++ [c]).length := by omega
  have hfits' : ¬ MAX_LINE < t.length := by omega
  rw [readRound_text p hwrite hfree]
  rw [if_neg hne] at hsound ⊢
  by_cases hone : t.length = 0
  · have hone' : (t ++ [c]).length = 1 := by omega
    rw [if_pos hone'] at hsound ⊢
    exact ⟨_, ⟨hsound, hsize, back, rfl⟩, if_pos hone⟩
  have hone' : ¬ (t ++ [c]).length = 1 := by omega
  rw [if_neg hone', if_neg hfits] at hsound ⊢
  rw [if_neg hone, if_neg hfits']
  by_cases hback : c = BACKSLASH
  · have hback' : (t ++ [c]).getLast? = some BACKSLASH := hlast.trans (congrArg some hback)
    rw [if_pos hback'] at hsound ⊢
    refine ⟨_, ⟨hsound, hsize, back, rfl⟩, ?_⟩
    rw [if_pos hback, hlength]
    rfl
  · have hback' : ¬ (t ++ [c]).getLast? = some BACKSLASH := fun h =>
      hback (Option.some.inj (hlast.symm.trans h))
    rw [if_neg hback', if_neg hback]
    exact handRound_eq (t ++ [c]) back hsize p

end Memory

/-! ## The whole file -/

theorem Stored.read_cons (s : Stored) (text : Bytes) (texts : List Bytes) (e : Option ReadStop) :
    s.read (text :: texts, e) = (s.hand text).bind fun s => s.read (texts, e) := by
  rw [read, handAll, List.foldlM_cons]
  cases s.hand text <;> rfl

/-- The loop hands over the texts of `readLines`, one after the other. -/
theorem readLoop_stored {b : Buffer} {r : LineBuffer} {p : Progress} (hholds : Holds b r)
    (hcoherent : p.Coherent) (input : Bytes) :
    (readLoop ⟨b, r.last, p⟩ input).map Progress.stored = p.stored.read (readLines r input) := by
  induction r, input using readLines.induct generalizing b p with
  | case1 r input hread =>
    rw [readLoop, readLines, hread]
    rfl
  | case2 r input chunk rest hread hless e hturn =>
    have hround := readRound_eq hholds (fgets_forward hholds.room hread).2 p
    rw [hturn] at hround
    rw [readLoop, readLines, hread]
    simp only [if_pos hless, hturn]
    rw [hround]
    rfl
  | case3 r input chunk rest hread hless r' hturn ih =>
    have hround := readRound_eq hholds (fgets_forward hholds.room hread).2 p
    rw [hturn] at hround
    obtain ⟨b', hholds', hround⟩ := hround
    rw [readLoop, readLines, hread]
    simp only [if_pos hless, hturn]
    rw [hround]
    exact ih hholds' hcoherent
  | case4 r input chunk rest hread hless text hturn ih =>
    have hround := readRound_eq hholds (fgets_forward hholds.room hread).2 p
    rw [hturn] at hround
    obtain ⟨b', hholds', hround⟩ := hround
    obtain ⟨hhand, hkept⟩ := handLine_stored hcoherent text
    rw [readLoop, readLines, hread]
    simp only [if_pos hless, hturn]
    rw [hround, Stored.read_cons, ← hhand]
    cases hline : handLine p text with
    | error e => rfl
    | ok q => exact ih hholds' (hkept q hline)
  | case5 r input chunk rest hread hless =>
    exact absurd (fgets_forward hholds.room hread).1 hless

theorem holds_start (c : Config) : Holds (ReadState.start c).line {} :=
  holds_zeros List.length_replicate List.replicate_succ

theorem coherent_start (c : Config) : (ReadState.start c).progress.Coherent where
  name := rfl
  stripped := rfl

theorem readLoop_start (c : Config) (input : Bytes) :
    (readLoop (.start c) input).map Progress.stored =
      Stored.read ⟨none, c⟩ (readLines {} input) :=
  readLoop_stored (holds_start c) (coherent_start c) input

/-- What the loop makes of the settings. -/
def configAfter (c : Config) (input : Bytes) : Except ReadStop Config :=
  (readLoop (.start c) input).map Progress.config

theorem configAfter_eq (c : Config) (input : Bytes) :
    configAfter c input = (Stored.read ⟨none, c⟩ (readLines {} input)).map Stored.config := by
  rw [← readLoop_start, configAfter]
  cases readLoop (.start c) input <;> rfl

end Spmfilter
