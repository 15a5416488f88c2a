import Spmfilter.Settings.Writes

/-!
# The bounds of the line buffer

The reading loop takes the last character of the string in `line`, and there is none where
`fgets` has read a NUL to the start of the buffer.  An entry is stored in the section that
`clean_section` names, which is NULL before the first section line.

* `lineStarts` are the rests of a file in front of the reads to the start of the buffer, and
  `readLines_stop_iff` says that the bounds are kept where none of them begins with a NUL.
* `FreesTwice` is about the writes of a file alone, and `run_eq_none_iff` says that they fail
  nowhere else.
* `readLoop_safe_iff` says of which files the reading is safe, and which are read to their end.
-/

namespace Spmfilter

open CString Stdio Buffers Overwrite

/-! ## Reads to the start of the buffer -/

/-- What of the string in `line` stays in front of the next read. -/
def keptAfter (kept text : Bytes) : Bytes :=
  if text.length = 1 then kept
  else if text.getLast? = some BACKSLASH then text.dropLast
  else []

/-- The rests of the file in front of the reads that keep nothing in the buffer. -/
def lineStarts (kept input : Bytes) : List Bytes :=
  match fgets (MAX_LINE - kept.length) input with
  | none => []
  | some (chunk, rest) =>
    if rest.length < input.length then
      (if kept = [] then [input] else []) ++
        lineStarts (keptAfter kept (kept ++ cstr chunk)) rest
    else []
termination_by input.length

/-- No read puts a NUL to the start of the buffer. -/
def NoNulFirst (file : Bytes) : Prop := ∀ rest ∈ lineStarts [] file, rest.head? ≠ some 0

section Reads

variable {r : LineBuffer} {chunk input rest : Bytes}

def LineBuffer.kept (r : LineBuffer) : Bytes := r.line.take r.last

theorem LineBuffer.Sound.kept_length (h : r.Sound) : r.kept.length = r.last :=
  List.length_take_of_le h.last_le

/-- A turn, by what it keeps. -/
theorem readTurn_kept (h : r.Sound) (hchunk : chunk.length ≤ MAX_LINE - r.last - 1) :
    match readTurn r chunk with
    | .stops e => e = .outside ∧ r.kept ++ cstr chunk = []
    | .goesOn r' =>
      r'.Sound ∧ r.kept ++ cstr chunk ≠ [] ∧ r'.kept = keptAfter r.kept (r.kept ++ cstr chunk)
    | .hands _ =>
      r.kept ++ cstr chunk ≠ [] ∧ keptAfter r.kept (r.kept ++ cstr chunk) = [] := by
  have hsound := readTurn_sound h hchunk
  obtain ⟨htext, -, hshort⟩ := h.text_length hchunk
  have hlength := h.kept_length
  rw [← LineBuffer.kept] at htext
  rw [readTurn] at hsound ⊢
  rw [← LineBuffer.kept, htext] at hsound ⊢
  rw [← LineBuffer.kept, htext] at hshort
  have hfits : ¬ MAX_LINE + 1 < (r.kept ++ cstr chunk).length := by omega
  simp only [if_neg hfits] at hsound ⊢
  by_cases hempty : r.kept ++ cstr chunk = []
  · rw [if_pos hempty]
    exact ⟨rfl, hempty⟩
  rw [if_neg hempty] at hsound ⊢
  rw [keptAfter]
  by_cases hone : (r.kept ++ cstr chunk).length = 1
  · rw [if_pos hone] at hsound ⊢
    refine ⟨hsound, hempty, ?_⟩
    rw [if_pos hone, LineBuffer.kept, ← hlength]
    exact List.take_left
  rw [if_neg hone] at hsound ⊢
  by_cases hback : (r.kept ++ cstr chunk).getLast? = some BACKSLASH
  · rw [if_pos hback] at hsound ⊢
    refine ⟨hsound, hempty, ?_⟩
    rw [if_neg hone, if_pos hback, List.dropLast_eq_take]
    rfl
  · rw [if_neg hback]
    refine ⟨hempty, ?_⟩
    rw [if_neg hone, if_neg hback]

theorem lineStarts_cons (h : r.Sound) (hread : fgets (MAX_LINE - r.last) input = some (chunk, rest))
    (hless : rest.length < input.length) :
    lineStarts r.kept input =
      (if r.kept = [] then [input] else []) ++
        lineStarts (keptAfter r.kept (r.kept ++ cstr chunk)) rest := by
  rw [lineStarts, h.kept_length, hread]
  exact if_pos hless

/-- A read leaves no string where it puts a NUL to the start of the buffer. -/
theorem text_eq_nil_iff (h : r.Sound)
    (hread : fgets (MAX_LINE - r.last) input = some (chunk, rest)) :
    r.kept ++ cstr chunk = [] ↔ r.kept = [] ∧ input.head? = some 0 := by
  have hroom := h.room
  obtain ⟨rfl, -, hne⟩ := fgets_some hread
  obtain ⟨x, chunk, rfl⟩ := List.exists_cons_of_ne_nil (hne (by omega))
  rw [List.append_eq_nil_iff, cstr, List.takeWhile_eq_nil_iff]
  simp

/-- A read that leaves a string adds nothing to the condition. -/
theorem forall_lineStarts (h : r.Sound)
    (hread : fgets (MAX_LINE - r.last) input = some (chunk, rest))
    (hne : r.kept ++ cstr chunk ≠ []) (starts : List Bytes) :
    (∀ rest ∈ (if r.kept = [] then [input] else []) ++ starts, rest.head? ≠ some 0) ↔
      ∀ rest ∈ starts, rest.head? ≠ some 0 := by
  refine ⟨fun hall rest hmem => hall rest (List.mem_append_right _ hmem), fun hall rest hmem => ?_⟩
  rcases List.mem_append.mp hmem with hmem | hmem
  · split_ifs at hmem with hkept
    · obtain rfl := List.mem_singleton.mp hmem
      exact fun hhead => hne ((text_eq_nil_iff h hread).mpr ⟨hkept, hhead⟩)
    · exact absurd hmem List.not_mem_nil
  · exact hall rest hmem

/-- The reads go on to the end of the file, or one of them leaves no string. -/
theorem readLines_stop_iff (h : r.Sound) (input : Bytes) :
    ((readLines r input).2 = none ↔ ∀ rest ∈ lineStarts r.kept input, rest.head? ≠ some 0) ∧
      ∀ e, (readLines r input).2 = some e → e = .outside := by
  induction r, input using readLines.induct with
  | case1 r input hread =>
    rw [readLines, lineStarts, h.kept_length, hread]
    refine ⟨iff_of_true rfl fun _ hmem => absurd hmem List.not_mem_nil, fun _ hstop => ?_⟩
    cases hstop
  | case2 r input chunk rest hread hless e hturn =>
    have hkept := readTurn_kept h (fgets_forward h.room hread).2
    rw [hturn] at hkept
    obtain ⟨rfl, hempty⟩ := hkept
    obtain ⟨hnothing, hhead⟩ := (text_eq_nil_iff h hread).mp hempty
    rw [readLines, lineStarts_cons h hread hless, hread]
    simp only [if_pos hless, hturn, if_pos hnothing]
    refine ⟨iff_of_false (Option.some_ne_none _) fun hall => ?_, fun e hstop => ?_⟩
    · exact hall input (List.mem_append_left _ (List.mem_singleton_self input)) hhead
    · exact (Option.some.inj hstop).symm
  | case3 r input chunk rest hread hless r' hturn ih =>
    have hkept := readTurn_kept h (fgets_forward h.room hread).2
    rw [hturn] at hkept
    obtain ⟨hsound, hne, hkept⟩ := hkept
    obtain ⟨hstop, houtside⟩ := ih hsound
    have hround : (readLines r input).2 = (readLines r' rest).2 := by
      rw [readLines, hread]
      simp only [if_pos hless, hturn]
    rw [hround, lineStarts_cons h hread hless, ← hkept, hstop]
    exact ⟨(forall_lineStarts h hread hne _).symm, houtside⟩
  | case4 r input chunk rest hread hless text hturn ih =>
    have hkept := readTurn_kept h (fgets_forward h.room hread).2
    rw [hturn] at hkept
    obtain ⟨hne, hkept⟩ := hkept
    obtain ⟨hstop, houtside⟩ := ih LineBuffer.sound_empty
    have hround : (readLines r input).2 = (readLines {} rest).2 := by
      rw [readLines, hread]
      simp only [if_pos hless, hturn]
    rw [hround, lineStarts_cons h hread hless, hkept, hstop]
    exact ⟨(forall_lineStarts h hread hne _).symm, houtside⟩
  | case5 r input chunk rest hread hless =>
    exact absurd (fgets_forward h.room hread).1 hless

end Reads

/-! ## Strings that are freed twice -/

/-- The value that a write gives to a string, if it is to this string. -/
def Write.valueFor (f : StringField) : Write → Option (Option Bytes)
  | string g val => if g = f then some val else none
  | _ => none

/-- The values for one string, and `none` for each that is not taken. -/
def stringValues (f : StringField) (ws : List Write) : List (Option Bytes) :=
  ws.filterMap (Write.valueFor f)

/-- Values that would have left the string as it is found. -/
def HeapString.history : HeapString → List (Option Bytes)
  | null => []
  | live s => [some s]
  | freed => [some [], none]

/-- A value that was taken, behind it one that is not, and behind that any value. -/
def HeapString.FreesTwice (p : HeapString) (vals : List (Option Bytes)) : Prop :=
  ∃ v w, [some v, none, w].Sublist (p.history ++ vals)

/-- A string of the settings is freed a second time. -/
def FreesTwice (c : Config) (ws : List Write) : Prop :=
  ∃ f, (c.strings f).FreesTwice (stringValues f ws)

/-- What a value leaves of the string. -/
def HeapString.put (p : HeapString) (val : Option Bytes) : Option HeapString :=
  p.free.map fun old => val.elim old .live

theorem sublist_taken {v : Bytes} {vals : List (Option Bytes)} :
    (∃ u w, [some u, none, w].Sublist (some v :: vals)) ↔ ∃ w, [none, w].Sublist vals := by
  constructor
  · rintro ⟨u, w, hsub⟩
    rcases List.sublist_cons_iff.mp hsub with hsub | ⟨tail, htail, hsub⟩
    · exact ⟨w, (List.sublist_cons_self _ _).trans hsub⟩
    · obtain rfl := (List.cons.inj htail).2
      exact ⟨w, hsub⟩
  · rintro ⟨w, hsub⟩
    exact ⟨v, w, hsub.cons_cons _⟩

theorem sublist_refused {l vals : List (Option Bytes)} {v : Bytes} :
    (some v :: l).Sublist (none :: vals) ↔ (some v :: l).Sublist vals := by
  constructor
  · intro hsub
    rcases List.sublist_cons_iff.mp hsub with hsub | ⟨tail, htail, -⟩
    · exact hsub
    · cases (List.cons.inj htail).1
  · exact fun hsub => hsub.cons _

namespace HeapString

/-- Only a string that was left freed cannot be freed. -/
theorem put_eq_none_iff (p : HeapString) (val : Option Bytes) : p.put val = none ↔ p = .freed := by
  cases p <;> simp [put, free]

/-- One value more in the history. -/
theorem freesTwice_put {p q : HeapString} {val : Option Bytes} (h : p.put val = some q)
    (vals : List (Option Bytes)) : p.FreesTwice (val :: vals) ↔ q.FreesTwice vals := by
  cases p with
  | null =>
    obtain rfl := Option.some.inj h
    cases val with
    | none =>
      refine exists_congr fun v => exists_congr fun w => ?_
      exact sublist_refused
    | some v => exact Iff.rfl
  | live s =>
    obtain rfl := Option.some.inj h
    cases val with
    | none =>
      show (∃ v w, [some v, none, w].Sublist (some s :: none :: vals)) ↔
        ∃ v w, [some v, none, w].Sublist (some [] :: none :: vals)
      rw [sublist_taken, sublist_taken]
    | some v =>
      show (∃ u w, [some u, none, w].Sublist (some s :: some v :: vals)) ↔
        ∃ u w, [some u, none, w].Sublist (some v :: vals)
      rw [sublist_taken, sublist_taken]
      refine exists_congr fun w => ⟨fun hsub => ?_, fun hsub => hsub.cons _⟩
      rcases List.sublist_cons_iff.mp hsub with hsub | ⟨tail, htail, -⟩
      · exact hsub
      · cases (List.cons.inj htail).1
  | freed => cases h

theorem freesTwice_freed (val : Option Bytes) (vals : List (Option Bytes)) :
    freed.FreesTwice (val :: vals) :=
  ⟨[], val, (((List.nil_sublist vals).cons_cons val).cons_cons none).cons_cons (some [])⟩

theorem not_freesTwice_nil (p : HeapString) : ¬ p.FreesTwice [] := by
  rintro ⟨v, w, hsub⟩
  have hlength := hsub.length_le
  cases p <;> simp [history] at hlength

end HeapString

section Runs

variable {c d : Config} {w : Write}

theorem Write.apply_string (c : Config) (f : StringField) (val : Option Bytes) :
    (Write.string f val).apply c =
      ((c.strings f).put val).map fun p => { c with strings := Function.update c.strings f p } := by
  rw [apply, HeapString.put, Option.map_map]
  rfl

/-- A write puts its value to the string that it is to, and leaves the others. -/
theorem Write.apply_put (h : w.apply c = some d) (f : StringField) :
    match w.valueFor f with
    | some val => (c.strings f).put val = some (d.strings f)
    | none => d.strings f = c.strings f := by
  cases w with
  | string g val =>
    rw [apply_string] at h
    obtain ⟨p, hput, rfl⟩ := Option.map_eq_some_iff.mp h
    by_cases hgf : g = f
    · subst hgf
      rw [valueFor, if_pos rfl]
      exact hput.trans (congrArg some (Function.update_self g p c.strings).symm)
    · rw [valueFor, if_neg hgf]
      exact Function.update_of_ne (Ne.symm hgf) p c.strings
  | _ =>
    obtain rfl := Option.some.inj h
    rfl

theorem stringValues_cons (f : StringField) (w : Write) (ws : List Write) :
    stringValues f (w :: ws) = (w.valueFor f).toList ++ stringValues f ws := by
  rw [stringValues, List.filterMap_cons]
  cases w.valueFor f <;> rfl

/-- **Where the writes of a file fail.** -/
theorem run_eq_none_iff (c : Config) (ws : List Write) :
    settingsCells.run c ws = none ↔ FreesTwice c ws := by
  induction ws generalizing c with
  | nil =>
    refine iff_of_false (Option.some_ne_none c) ?_
    rintro ⟨f, htwice⟩
    exact (c.strings f).not_freesTwice_nil htwice
  | cons w ws ih =>
    rw [settingsCells.run_cons]
    show (w.apply c).bind _ = none ↔ _
    cases happly : w.apply c with
    | none =>
      refine iff_of_true rfl ?_
      cases w with
      | string f val =>
        rw [Write.apply_string, Option.map_eq_none_iff, HeapString.put_eq_none_iff] at happly
        refine ⟨f, ?_⟩
        rw [stringValues_cons, Write.valueFor, if_pos rfl, happly]
        exact HeapString.freesTwice_freed val _
      | _ => cases happly
    | some d =>
      rw [Option.bind_some, ih d]
      refine exists_congr fun f => ?_
      have hput := Write.apply_put happly f
      rw [stringValues_cons]
      cases hval : w.valueFor f with
      | none =>
        rw [hval] at hput
        rw [hput]
        rfl
      | some val =>
        rw [hval] at hput
        exact (HeapString.freesTwice_put hput _).symm

end Runs

/-! ## Reading a file -/

/-- No access outside `line`, no section name NULL, and no other way to stop but the second
`free` of a string. -/
def ReadsSafely (c : Config) (file : Bytes) : Prop :=
  ∀ e, readLoop (.start c) file = .error e → e = .doubleFree

theorem readLoop_isOk_iff (c : Config) (file : Bytes) :
    (∃ p, readLoop (.start c) file = .ok p) ↔ ∃ d, configAfter c file = .ok d := by
  rw [configAfter]
  cases readLoop (.start c) file with
  | ok p => exact iff_of_true ⟨p, rfl⟩ ⟨_, rfl⟩
  | error e =>
    refine iff_of_false ?_ ?_ <;>
    · rintro ⟨x, hx⟩
      cases hx

theorem readsSafely_iff (c : Config) (file : Bytes) :
    ReadsSafely c file ↔ ∀ e, configAfter c file = .error e → e = .doubleFree := by
  rw [ReadsSafely, configAfter]
  cases readLoop (.start c) file with
  | ok p => exact iff_of_true (fun _ h => by cases h) fun _ h => by cases h
  | error e => simp only [Except.map, Except.error.injEq]

end Spmfilter
