import Spmfilter.Lib.Overwrite
import Spmfilter.Settings.Reading

/-!
# What entries write

An entry of the file writes to one setting, or it changes nothing: an empty value of a built-in
section, a number that is not taken, a key that is not known.

* `entryWrite` is what an entry writes, and `store_eq` says that this is what `store` does.
* `settingsCells` : the settings are cells, and each write is to one of them.
* `handAll_writes` : what the texts of a file do is a run of their writes.
* `configAfter_inSections` : reading a file is a run of its writes.
* `ComesTo` : one list of writes leaves nothing but what another one writes.
* `run_comesTo_iff` : this is so where the runs lead to the same from all settings.
-/

namespace Spmfilter

open CString Overwrite

/-! ## Writes -/

inductive Write
  /-- The old string is freed; `none` stands for a value that the setting does not take. -/
  | string (f : StringField) (val : Option Bytes)
  | number (f : NumberField) (i : Int)
  | list (f : ListField) (parts : List Bytes)
  | smtpCode (code text : Bytes)
  | group (key val : Bytes)
deriving DecidableEq

/-- What the entry `key = val` of a section writes. -/
def entryWrite (name key val : Bytes) : Option Write :=
  if isBuiltin name then
    if val = [] then none
    else
      match StringField.all.find? (·.place = ⟨name, key⟩) with
      | some f => some (.string f (if f.takes val then some val else none))
      | none =>
        match NumberField.all.find? (·.place = ⟨name, key⟩) with
        | some f => (f.read val).map (.number f)
        | none =>
          match ListField.all.find? (·.place = ⟨name, key⟩) with
          | some f => some (.list f (getList val))
          | none =>
            if name = ascii "smtpd" ∧ 250 ≤ getInteger key ∧ getInteger key < 600 then
              some (.smtpCode key val)
            else none
  else some (.group (groupKey name key) val)

/-- A dictionary that cannot grow stays as it is. -/
def dictStore (key val : Bytes) (dict : Dict) : Dict := (smfDictSet key val dict).getD dict

def Write.apply (w : Write) (c : Config) : Option Config :=
  match w with
  | string f val =>
    (c.strings f).free.map fun old =>
      { c with strings := Function.update c.strings f (val.elim old .live) }
  | number f i => some { c with numbers := Function.update c.numbers f i }
  | list f parts => some { c with lists := Function.update c.lists f parts }
  | smtpCode code text => some { c with smtpCodes := dictStore code text c.smtpCodes }
  | group key val => some { c with groups := dictStore key val c.groups }

/-- An entry is stored by its write. -/
theorem store_eq (c : Config) (name key val : Bytes) :
    store c name key val = (entryWrite name key val).elim (some c) (Write.apply · c) := by
  rw [store, entryWrite]
  by_cases hname : isBuiltin name = true
  · rw [if_pos hname, if_pos hname, setConfigValue]
    by_cases hval : val = []
    · rw [if_pos hval, if_pos hval]
      rfl
    · rw [if_neg hval, if_neg hval]
      cases StringField.all.find? (·.place = ⟨name, key⟩) with
      | some f =>
        show ((c.strings f).free.bind _).map _ = (c.strings f).free.map _
        cases (c.strings f).free with
        | none => rfl
        | some old => cases f.takes val <;> rfl
      | none =>
        show some (setOther c ⟨name, key⟩ val) = _
        rw [setOther]
        cases NumberField.all.find? (·.place = ⟨name, key⟩) with
        | some f =>
          simp only
          cases f.read val <;> rfl
        | none =>
          cases ListField.all.find? (·.place = ⟨name, key⟩) with
          | some f => rfl
          | none =>
            simp only
            by_cases hsmtpd : name = ascii "smtpd"
            · rw [if_pos hsmtpd]
              by_cases hcode : 250 ≤ getInteger key ∧ getInteger key < 600
              · rw [if_pos hcode, if_pos ⟨hsmtpd, hcode⟩]
                rfl
              · rw [if_neg hcode, if_neg fun h => hcode h.2]
                rfl
            · rw [if_neg hsmtpd, if_pos hname, if_neg fun h => hsmtpd h.1]
              rfl
  · rw [if_neg hname, if_neg hname]
    rfl

/-- What texts write, from a section on. -/
def writes (name : Bytes) : List Bytes → List Write
  | [] => []
  | text :: texts =>
    match lineEffect text with
    | .nothing => writes name texts
    | .entersSection new => writes (new.getD name) texts
    | .assigns key val => (entryWrite name key val).toList ++ writes name texts

/-! ## The settings as cells -/

inductive Cell
  | string (f : StringField)
  | number (f : NumberField)
  | list (f : ListField)
  | smtpCode (code : Bytes)
  | group (key : Bytes)
deriving DecidableEq

inductive Held
  | string (p : HeapString)
  | number (i : Int)
  | list (parts : List Bytes)
  | entry (val : Option Bytes)

def Config.held (c : Config) : Cell → Held
  | .string f => .string (c.strings f)
  | .number f => .number (c.numbers f)
  | .list f => .list (c.lists f)
  | .smtpCode code => .entry (smfDictGet code c.smtpCodes)
  | .group key => .entry (smfDictGet key c.groups)

namespace Write

def cell : Write → Cell
  | string f _ => .string f
  | number f _ => .number f
  | list f _ => .list f
  | smtpCode code _ => .smtpCode code
  | group key _ => .group key

/-- What a write leaves, where there was something to replace. -/
def value : Write → Held
  | string _ val => .string (val.elim .freed .live)
  | number _ i => .number i
  | list _ parts => .list parts
  | smtpCode _ text => .entry (some text)
  | group _ val => .entry (some val)

/-- The value is not taken. -/
def refused : Write → Bool
  | string _ none => true
  | _ => false

/-- A write is given by its cell and its value. -/
theorem eq_of_value {v w : Write} (hcell : v.cell = w.cell) (hvalue : v.value = w.value) :
    v = w := by
  cases v <;> cases w <;> cases hcell <;> try (cases hvalue; rfl)
  rename_i f val val'
  cases val <;> cases val' <;> cases hvalue <;> rfl

end Write

/-- A string that is there, or a key that is bound. -/
def Held.Filled : Held → Prop
  | string p => p ≠ .null
  | entry val => val ≠ none
  | _ => True

/-- The dictionaries of the settings are dictionaries. -/
structure Config.Represented (c : Config) : Prop where
  smtpCodes : ∃ m, c.smtpCodes.Represents m
  groups : ∃ m, c.groups.Represents m

theorem represented_new : smfSettingsNew.Represented :=
  ⟨⟨_, represents_new⟩, ⟨_, represents_new⟩⟩

section OneDict

variable {dict : Dict} {m : Bytes → Option Bytes} {key val : Bytes}

theorem dictStore_represented (h : dict.Represents m) (key val : Bytes) :
    ∃ m, (dictStore key val dict).Represents m := by
  rw [dictStore]
  cases hset : smfDictSet key val dict with
  | none => exact ⟨m, h⟩
  | some dict' => exact ⟨_, (represents_set h hset).1⟩

/-- A bound key takes every value: there is nothing to grow. -/
theorem set_of_bound (h : dict.Represents m) (hbound : smfDictGet key dict ≠ none) (val : Bytes) :
    ∃ dict', smfDictSet key val dict = some dict' := by
  cases hfind : dict.find key with
  | none =>
    rw [smfDictGet, hfind] at hbound
    exact absurd rfl hbound
  | some i =>
    obtain ⟨v, b, -, -, -, hn, -⟩ := h.found hfind
    exact ⟨_, smfDictSet_found hfind (by omega)⟩

theorem get_dictStore_self (h : dict.Represents m) (hbound : smfDictGet key dict ≠ none) :
    smfDictGet key (dictStore key val dict) = some val := by
  obtain ⟨dict', hset⟩ := set_of_bound h hbound val
  rw [dictStore, hset, Option.getD_some, (represents_set h hset).1.get_eq, Function.update_self]

theorem get_dictStore_of_ne (h : dict.Represents m) {other : Bytes} (hne : other ≠ key) :
    smfDictGet other (dictStore key val dict) = smfDictGet other dict := by
  rw [dictStore]
  cases hset : smfDictSet key val dict with
  | none => rfl
  | some dict' =>
    rw [Option.getD_some, (represents_set h hset).1.get_eq, Function.update_of_ne hne, h.get_eq]

theorem dictStore_dictStore (h : dict.Represents m) (val' : Bytes) :
    dictStore key val' (dictStore key val dict) = dictStore key val' dict := by
  cases hset : smfDictSet key val dict with
  | none => rw [show dictStore key val dict = dict by rw [dictStore, hset, Option.getD_none]]
  | some dict' =>
    have hsame : smfDictSet key val' dict' = smfDictSet key val' dict := h.set_set hset
    have hrep := (represents_set h hset).1
    have hbound : smfDictGet key dict' ≠ none := by
      rw [hrep.get_eq, Function.update_self]
      exact Option.some_ne_none val
    obtain ⟨dict'', hset'⟩ := set_of_bound hrep hbound val'
    rw [show dictStore key val dict = dict' by rw [dictStore, hset, Option.getD_some], dictStore,
      dictStore, ← hsame, hset', Option.getD_some, Option.getD_some]

end OneDict

/-! ### The laws -/

section OneWrite

variable {w : Write} {c d : Config}

theorem Write.apply_represented (hc : c.Represented) (h : w.apply c = some d) :
    d.Represented := by
  cases w with
  | string f val =>
    obtain ⟨old, -, rfl⟩ := Option.map_eq_some_iff.mp h
    exact ⟨hc.smtpCodes, hc.groups⟩
  | number f i | list f parts =>
    obtain rfl := Option.some.inj h
    exact ⟨hc.smtpCodes, hc.groups⟩
  | smtpCode code text =>
    obtain rfl := Option.some.inj h
    obtain ⟨m, hm⟩ := hc.smtpCodes
    exact ⟨dictStore_represented hm code text, hc.groups⟩
  | group key val =>
    obtain rfl := Option.some.inj h
    obtain ⟨m, hm⟩ := hc.groups
    exact ⟨hc.smtpCodes, dictStore_represented hm key val⟩

theorem Write.apply_same (hc : c.Represented) (h : w.apply c = some d)
    (hfilled : (c.held w.cell).Filled) : d.held w.cell = w.value := by
  cases w with
  | string f val =>
    have hthere : c.strings f ≠ .null := hfilled
    obtain ⟨old, hfree, rfl⟩ := Option.map_eq_some_iff.mp h
    have hold : old = .freed := by
      cases hp : c.strings f with
      | null => exact absurd hp hthere
      | live s =>
        rw [hp] at hfree
        exact (Option.some.inj hfree).symm
      | freed =>
        rw [hp] at hfree
        cases hfree
    subst hold
    exact congrArg Held.string (Function.update_self f _ c.strings)
  | number f i =>
    obtain rfl := Option.some.inj h
    exact congrArg Held.number (Function.update_self f i c.numbers)
  | list f parts =>
    obtain rfl := Option.some.inj h
    exact congrArg Held.list (Function.update_self f parts c.lists)
  | smtpCode code text =>
    obtain rfl := Option.some.inj h
    obtain ⟨m, hm⟩ := hc.smtpCodes
    exact congrArg Held.entry (get_dictStore_self hm hfilled)
  | group key val =>
    obtain rfl := Option.some.inj h
    obtain ⟨m, hm⟩ := hc.groups
    exact congrArg Held.entry (get_dictStore_self hm hfilled)

theorem Write.apply_other (hc : c.Represented) (h : w.apply c = some d) (k : Cell)
    (hne : k ≠ w.cell) : d.held k = c.held k := by
  cases w with
  | string f val =>
    obtain ⟨old, -, rfl⟩ := Option.map_eq_some_iff.mp h
    cases k with
    | string g =>
      have hgf : g ≠ f := fun hgf => hne (congrArg Cell.string hgf)
      exact congrArg Held.string (Function.update_of_ne hgf _ c.strings)
    | _ => rfl
  | number f i =>
    obtain rfl := Option.some.inj h
    cases k with
    | number g =>
      have hgf : g ≠ f := fun hgf => hne (congrArg Cell.number hgf)
      exact congrArg Held.number (Function.update_of_ne hgf i c.numbers)
    | _ => rfl
  | list f parts =>
    obtain rfl := Option.some.inj h
    cases k with
    | list g =>
      have hgf : g ≠ f := fun hgf => hne (congrArg Cell.list hgf)
      exact congrArg Held.list (Function.update_of_ne hgf parts c.lists)
    | _ => rfl
  | smtpCode code text =>
    obtain rfl := Option.some.inj h
    cases k with
    | smtpCode other =>
      obtain ⟨m, hm⟩ := hc.smtpCodes
      have hother : other ≠ code := fun hother => hne (congrArg Cell.smtpCode hother)
      exact congrArg Held.entry (get_dictStore_of_ne hm hother)
    | _ => rfl
  | group key val =>
    obtain rfl := Option.some.inj h
    cases k with
    | group other =>
      obtain ⟨m, hm⟩ := hc.groups
      have hother : other ≠ key := fun hother => hne (congrArg Cell.group hother)
      exact congrArg Held.entry (get_dictStore_of_ne hm hother)
    | _ => rfl

theorem Write.value_filled (w : Write) : w.value.Filled := by
  cases w with
  | string f val =>
    cases val with
    | none => exact fun h => by cases h
    | some v => exact fun h => by cases h
  | number f i | list f parts => trivial
  | smtpCode code text => exact Option.some_ne_none text
  | group key val => exact Option.some_ne_none val

end OneWrite

def settingsCells : Cells Config Write Cell Held where
  apply := Write.apply
  cell := Write.cell
  value := Write.value
  held := Config.held
  Sound := Config.Represented
  Filled := Held.Filled
  apply_sound := Write.apply_represented
  apply_same := Write.apply_same
  apply_other := Write.apply_other
  value_filled := Write.value_filled

/-! ## The writes of a run -/

/-- The section that a line leads to from a section. -/
def sectionAfter (sec : Option Bytes) (text : Bytes) : Option Bytes :=
  match lineEffect text with
  | .entersSection name => some (name.getD (sec.getD []))
  | _ => sec

def sectionsAfter (sec : Option Bytes) (texts : List Bytes) : Option Bytes :=
  texts.foldl sectionAfter sec

theorem hand_assigns {text key val : Bytes} (heffect : lineEffect text = .assigns key val)
    (name : Bytes) (c : Config) :
    (Stored.mk (some name) c).hand text =
      (store c name key val).elim (.error .doubleFree) fun d => .ok ⟨some name, d⟩ := by
  rw [Stored.hand, heffect]
  simp only
  cases store c name key val <;> rfl

theorem Stored.handAll_cons (s : Stored) (text : Bytes) (texts : List Bytes) :
    s.handAll (text :: texts) = (s.hand text).bind fun s => s.handAll texts := rfl

/-- In a section the writes are all that can fail. -/
theorem handAll_writes (name : Bytes) (c : Config) (texts : List Bytes) :
    (Stored.mk (some name) c).handAll texts =
      (settingsCells.run c (writes name texts)).elim (.error .doubleFree)
        fun d => .ok ⟨sectionsAfter (some name) texts, d⟩ := by
  induction texts generalizing name c with
  | nil => rfl
  | cons text texts ih =>
    have hsection : sectionsAfter (some name) (text :: texts) =
        sectionsAfter (sectionAfter (some name) text) texts := rfl
    rw [Stored.handAll_cons, hsection, writes, sectionAfter]
    cases heffect : lineEffect text with
    | nothing =>
      rw [Stored.hand, heffect]
      exact ih name c
    | entersSection new =>
      rw [Stored.hand, heffect]
      exact ih (new.getD name) c
    | assigns key val =>
      rw [hand_assigns heffect, store_eq]
      simp only
      rw [settingsCells.run_append]
      cases entryWrite name key val with
      | none => exact ih name c
      | some w =>
        rw [Option.elim_some, Option.toList_some, settingsCells.run_singleton]
        show _ = ((w.apply c).bind _).elim _ _
        cases w.apply c with
        | none => rfl
        | some d => exact ih name d

theorem handAll_eq_ok {name : Bytes} {c : Config} {texts : List Bytes} {t : Stored} :
    (Stored.mk (some name) c).handAll texts = .ok t ↔
      ∃ d, settingsCells.run c (writes name texts) = some d ∧
        ⟨sectionsAfter (some name) texts, d⟩ = t := by
  rw [handAll_writes]
  cases settingsCells.run c (writes name texts) with
  | none =>
    refine iff_of_false (fun h => by cases h) ?_
    rintro ⟨d, hd, -⟩
    cases hd
  | some d =>
    constructor
    · intro h
      exact ⟨d, rfl, Except.ok.inj h⟩
    · rintro ⟨d', hd', rfl⟩
      rw [Option.some.inj hd']
      rfl

theorem writes_entry {text key val : Bytes} (heffect : lineEffect text = .assigns key val)
    (name : Bytes) : writes name [text] = (entryWrite name key val).toList := by
  rw [writes, heffect]
  exact List.append_nil _

/-- A line keeps the dictionaries. -/
theorem hand_represented {s t : Stored} {text : Bytes} (hc : s.config.Represented)
    (h : s.hand text = .ok t) : t.config.Represented := by
  obtain ⟨sec, c⟩ := s
  cases heffect : lineEffect text with
  | nothing | entersSection name =>
    rw [Stored.hand, heffect] at h
    obtain rfl := Except.ok.inj h
    exact hc
  | assigns key val =>
    cases sec with
    | none =>
      rw [Stored.hand, heffect] at h
      cases h
    | some name =>
      rw [hand_assigns heffect, store_eq] at h
      cases hwrite : entryWrite name key val with
      | none =>
        rw [hwrite] at h
        obtain rfl := Except.ok.inj h
        exact hc
      | some w =>
        rw [hwrite, Option.elim_some] at h
        cases hd : w.apply c with
        | none =>
          rw [hd] at h
          cases h
        | some d =>
          rw [hd] at h
          obtain rfl := Except.ok.inj h
          exact Write.apply_represented hc hd

theorem handAll_represented {s t : Stored} {texts : List Bytes} (hc : s.config.Represented)
    (h : s.handAll texts = .ok t) : t.config.Represented := by
  induction texts generalizing s with
  | nil =>
    obtain rfl := Except.ok.inj h
    exact hc
  | cons text texts ih =>
    obtain ⟨u, hfirst, hrest⟩ := bind_eq_ok_iff.mp h
    exact ih (hand_represented hc hfirst) hrest

/-- Texts that write nothing in a section of its own write nothing anywhere. -/
theorem handAll_noWrites {name : Bytes} (hname : isBuiltin name = false) {texts : List Bytes}
    (h : writes name texts = []) (sec : Option Bytes) (c : Config) :
    ∃ t, (Stored.mk sec c).handAll texts = .ok t ∧ t.config = c := by
  induction texts generalizing sec with
  | nil => exact ⟨⟨sec, c⟩, rfl, rfl⟩
  | cons text texts ih =>
    rw [Stored.handAll_cons, Stored.hand]
    rw [writes] at h
    cases heffect : lineEffect text with
    | nothing =>
      rw [heffect] at h
      exact ih h sec
    | entersSection new =>
      rw [heffect] at h
      cases new with
      | none => exact ih h _
      | some new =>
        have hrun : settingsCells.run c (writes new texts) = some c := by
          rw [show writes new texts = [] from h]
          rfl
        exact ⟨_, handAll_eq_ok.mpr ⟨c, hrun, rfl⟩, rfl⟩
    | assigns key val =>
      rw [heffect] at h
      simp only at h
      rw [entryWrite, if_neg (Bool.eq_false_iff.mp hname)] at h
      cases h

/-! ## The writes of a file -/

/-- The writes of the lines of a file. -/
def fileWrites (input : Bytes) : List Write := writes [] (readLines {} input).1

/-- No entry stands in front of the first section. -/
def inSections : List Bytes → Bool
  | [] => true
  | text :: texts =>
    match lineEffect text with
    | .nothing => inSections texts
    | .entersSection _ => true
    | .assigns .. => false

theorem inSections_section {input text name : Bytes} {texts : List Bytes}
    (hread : readLines {} input = (text :: texts, none))
    (hsection : lineEffect text = .entersSection (some name)) :
    inSections (readLines {} input).1 = true := by
  rw [hread, inSections, hsection]

theorem handAll_none (c : Config) (texts : List Bytes) :
    (Stored.mk none c).handAll texts =
      if inSections texts then
        (settingsCells.run c (writes [] texts)).elim (.error .doubleFree)
          fun d => .ok ⟨sectionsAfter none texts, d⟩
      else .error .nullSection := by
  induction texts with
  | nil => rfl
  | cons text texts ih =>
    have hsection : sectionsAfter none (text :: texts) =
        sectionsAfter (sectionAfter none text) texts := rfl
    rw [Stored.handAll_cons, Stored.hand, hsection, sectionAfter, inSections, writes]
    cases lineEffect text with
    | nothing => exact ih
    | entersSection new => exact handAll_writes _ c texts
    | assigns key val => rfl

/-- Reading a file is a run of its writes, and then the end of the file or the stop. -/
theorem configAfter_inSections (c : Config) (input : Bytes) :
    configAfter c input =
      if inSections (readLines {} input).1 then
        (settingsCells.run c (fileWrites input)).elim (.error .doubleFree) fun d =>
          (readLines {} input).2.elim (.ok d) .error
      else .error .nullSection := by
  rw [configAfter_eq, Stored.read, handAll_none, ← fileWrites]
  split_ifs
  · cases settingsCells.run c (fileWrites input) with
    | none => rfl
    | some d => cases (readLines {} input).2 <;> rfl
  · rfl

/-! ## One list of writes for another -/

/-- The writes are those of `us`, or the last of them is the one write of `us` and covers the
others: they are to the same cell, and all of them are taken. -/
def ComesTo (ws us : List Write) : Prop :=
  ws = us ∨ ∃ u, us = [u] ∧ ws.getLast? = some u ∧
    ∀ w ∈ ws, w.cell = u.cell ∧ w.refused = false

/-- A write that is taken covers one to the same cell that is taken. -/
theorem Write.covers {v w : Write} (hcell : v.cell = w.cell) (hv : v.refused = false)
    (hw : w.refused = false) : settingsCells.Covers w v := by
  intro c d hc h
  cases v with
  | string f val =>
    cases w with
    | string g val' =>
      obtain rfl : f = g := Cell.string.inj hcell
      obtain ⟨old, hfree, hd⟩ := Option.map_eq_some_iff.mp h
      cases val with
      | none => cases hv
      | some a =>
        cases val' with
        | none => cases hw
        | some b =>
          refine ⟨_, congrArg (Option.map _) hfree, Eq.trans ?_ (congrArg some hd)⟩
          simp only [settingsCells, apply, Function.update_self, Function.update_idem,
            HeapString.free, Option.map_some, Option.elim_some]
    | _ => cases hcell
  | number f i =>
    cases w with
    | number g j =>
      obtain rfl : f = g := Cell.number.inj hcell
      refine ⟨_, rfl, Eq.trans ?_ h⟩
      simp only [settingsCells, apply, Function.update_idem]
    | _ => cases hcell
  | list f parts =>
    cases w with
    | list g parts' =>
      obtain rfl : f = g := Cell.list.inj hcell
      refine ⟨_, rfl, Eq.trans ?_ h⟩
      simp only [settingsCells, apply, Function.update_idem]
    | _ => cases hcell
  | smtpCode code text =>
    cases w with
    | smtpCode code' text' =>
      obtain rfl : code = code' := Cell.smtpCode.inj hcell
      obtain ⟨m, hm⟩ := hc.smtpCodes
      refine ⟨_, rfl, Eq.trans ?_ h⟩
      simp only [settingsCells, apply, dictStore_dictStore hm]
    | _ => cases hcell
  | group key val =>
    cases w with
    | group key' val' =>
      obtain rfl : key = key' := Cell.group.inj hcell
      obtain ⟨m, hm⟩ := hc.groups
      refine ⟨_, rfl, Eq.trans ?_ h⟩
      simp only [settingsCells, apply, dictStore_dictStore hm]
    | _ => cases hcell

/-! ### Settings that tell writes apart -/

def Cell.key : Cell → Bytes
  | smtpCode code => code
  | group key => key
  | _ => []

/-- Something that a cell can hold. -/
def Cell.content (x : UInt8) : Cell → Held
  | string _ => .string (.live [x])
  | number _ => .number x.toNat
  | list _ => .list [[x]]
  | smtpCode _ | group _ => .entry (some [x])

theorem Cell.content_filled (x : UInt8) (k : Cell) : (k.content x).Filled := by
  cases k with
  | string f => exact fun h => by cases h
  | number f | list f => trivial
  | smtpCode key | group key => exact Option.some_ne_none [x]

theorem Cell.content_ne (k : Cell) : k.content 0 ≠ k.content 1 := by
  intro h
  cases k <;> cases h

theorem exists_dict (key : Bytes) (x : UInt8) :
    ∃ dict, (∃ m, dict.Represents m) ∧ smfDictGet key dict = some [x] := by
  obtain ⟨dict, hset⟩ := represents_new.set_eq_some (show smfDictNew.n < DICT_LIMIT by decide)
  have hrep := (represents_set represents_new hset).1
  exact ⟨dict, ⟨_, hrep⟩, by rw [hrep.get_eq, Function.update_self]⟩

/-- Settings with something in a cell, in which every write goes through. -/
theorem exists_probe (k : Cell) (x : UInt8) :
    ∃ c : Config, c.Represented ∧ c.held k = k.content x ∧ ∀ w : Write, ∃ d, w.apply c = some d := by
  obtain ⟨dict, hrep, hget⟩ := exists_dict k.key x
  refine ⟨⟨fun _ => .live [x], fun _ => x.toNat, fun _ => [[x]], dict, dict⟩, ⟨hrep, hrep⟩, ?_, ?_⟩
  · cases k with
    | string f | number f | list f => rfl
    | smtpCode key | group key => exact congrArg Held.entry hget
  · intro w
    cases w <;> exact ⟨_, rfl⟩

section SameRuns

variable {ws : List Write} {u : Option Write}

/-- From a probe the writes on the right go through. -/
theorem run_probe {c : Config} (hc : ∀ w : Write, ∃ d, w.apply c = some d) (u : Option Write) :
    ∃ d, settingsCells.run c u.toList = some d := by
  cases u with
  | none => exact ⟨c, rfl⟩
  | some w =>
    obtain ⟨d, hd⟩ := hc w
    exact ⟨d, (settingsCells.run_singleton c w).trans hd⟩

/-- Runs that lead to the same have the same last write to each cell. -/
theorem lastTo_eq_of_run
    (h : ∀ c d, c.Represented → settingsCells.run c u.toList = some d →
      settingsCells.run c ws = some d) (k : Cell) :
    settingsCells.lastTo k ws = settingsCells.lastTo k u.toList := by
  obtain ⟨c, hc, hheld, hgoes⟩ := exists_probe k 0
  obtain ⟨c', hc', hheld', hgoes'⟩ := exists_probe k 1
  obtain ⟨d, hd⟩ := run_probe hgoes u
  obtain ⟨d', hd'⟩ := run_probe hgoes' u
  have hdiffer : c.held k ≠ c'.held k := by
    rw [hheld, hheld']
    exact k.content_ne
  have hfilled : (c.held k).Filled := hheld.symm ▸ k.content_filled 0
  have hfilled' : (c'.held k).Filled := hheld'.symm ▸ k.content_filled 1
  have hvalue := settingsCells.lastTo_value_eq hc hc' hfilled hfilled' hdiffer (h c d hc hd) hd
    (h c' d' hc' hd') hd'
  cases hlast : settingsCells.lastTo k ws with
  | none =>
    rw [hlast] at hvalue
    exact (Option.map_eq_none_iff.mp hvalue.symm).symm
  | some v =>
    rw [hlast] at hvalue
    obtain ⟨w, hw, hsame⟩ := Option.map_eq_some_iff.mp hvalue.symm
    have hcell : w.cell = v.cell :=
      (settingsCells.cell_of_lastTo hw).2.trans (settingsCells.cell_of_lastTo hlast).2.symm
    rw [hw, Write.eq_of_value hcell hsame]

theorem Write.refused_iff (w : Write) : w.refused = true ↔ ∃ f, w = .string f none := by
  constructor
  · intro h
    cases w with
    | string f val =>
      cases val with
      | none => exact ⟨f, rfl⟩
      | some v => cases h
    | _ => cases h
  · rintro ⟨f, rfl⟩
    rfl

/-- A freed string stops the next write to it. -/
theorem Write.apply_freed {w : Write} {f : StringField} (hcell : w.cell = .string f) {c : Config}
    (hfreed : c.strings f = .freed) : w.apply c = none := by
  cases w with
  | string g val =>
    obtain rfl : g = f := Cell.string.inj hcell
    rw [apply, hfreed]
    rfl
  | _ => cases hcell

/-- A value that is not taken leaves a freed string, where there was one. -/
theorem Write.apply_refused {w : Write} {f : StringField} (hcell : w.cell = .string f)
    (hw : w.refused = true) {c d : Config} (hc : c.Represented) (hthere : c.strings f ≠ .null)
    (h : w.apply c = some d) : d.strings f = .freed := by
  obtain ⟨g, rfl⟩ := w.refused_iff.mp hw
  obtain rfl : g = f := Cell.string.inj hcell
  exact Held.string.inj (apply_same hc h hthere)

/-- Behind a value that is not taken nothing more is written to the string. -/
theorem not_refused_of_run {init rest : List Write} {v w : Write} {f : StringField}
    (hv : v.cell = .string f) (hw : w.cell = .string f) {c d : Config} (hc : c.Represented)
    (hthere : c.strings f ≠ .null)
    (h : settingsCells.run c (init ++ v :: w :: rest) = some d) : v.refused = false := by
  by_contra hrefused
  rw [Bool.not_eq_false] at hrefused
  rw [settingsCells.run_append] at h
  obtain ⟨c₁, hinit, h⟩ := Option.bind_eq_some_iff.mp h
  obtain ⟨c₂, hc₂, h⟩ := Option.bind_eq_some_iff.mp h
  obtain ⟨c₃, hc₃, -⟩ := Option.bind_eq_some_iff.mp h
  have hfilled : c₁.strings f ≠ .null :=
    settingsCells.run_filled (k := .string f) hc hthere hinit
  have hfreed := Write.apply_refused hv hrefused (settingsCells.run_sound hc hinit) hfilled hc₂
  exact Option.some_ne_none c₃ (hc₃.symm.trans (Write.apply_freed hw hfreed))

/-- Where the string is NULL, a value that is not taken leaves it so, and behind one that is taken
it leaves it freed. -/
theorem run_ne_refused {v w : Write} {f : StringField} (hv : v.cell = .string f)
    (hw : w.cell = .string f) (htaken : v.refused = false) (hrefused : w.refused = true)
    (rest : List Write) :
    settingsCells.run smfSettingsNew [w] = some smfSettingsNew ∧
      settingsCells.run smfSettingsNew (v :: rest ++ [w]) ≠ some smfSettingsNew := by
  obtain ⟨g, rfl⟩ := w.refused_iff.mp hrefused
  obtain rfl : g = f := Cell.string.inj hw
  constructor
  · have hsame : Function.update smfSettingsNew.strings g .null = smfSettingsNew.strings :=
      Function.update_eq_self g smfSettingsNew.strings
    rw [settingsCells.run_singleton]
    show some { smfSettingsNew with strings := Function.update smfSettingsNew.strings g .null } = _
    rw [hsame]
  · intro h
    obtain ⟨c, hc, hrest⟩ := Option.bind_eq_some_iff.mp h
    have hlive : c.strings g ≠ .null := by
      cases v with
      | string f val =>
        obtain rfl : f = g := Cell.string.inj hv
        cases val with
        | none => cases htaken
        | some a =>
          obtain rfl := Option.some.inj hc
          show Function.update smfSettingsNew.strings f (.live a) f ≠ .null
          rw [Function.update_self]
          exact fun h => by cases h
      | _ => cases hv
    have hsound : c.Represented := settingsCells.apply_sound represented_new hc
    have hrest' : settingsCells.run c (rest ++ [.string g none]) = some smfSettingsNew := hrest
    rw [settingsCells.run_append] at hrest'
    obtain ⟨d, hd, hlast⟩ := Option.bind_eq_some_iff.mp hrest'
    rw [settingsCells.run_singleton] at hlast
    have hlast : (Write.string g none).apply d = some smfSettingsNew := hlast
    have hfilled : d.strings g ≠ .null :=
      settingsCells.run_filled (k := .string g) hsound hlive hd
    have hfreed := Write.apply_refused rfl rfl (settingsCells.run_sound hsound hd) hfilled hlast
    cases hfreed

/-- A value that is not taken cannot be covered. -/
theorem alone_of_refused {init : List Write} {v w : Write} {f : StringField}
    (hcells : ∀ x ∈ init ++ [w], x.cell = .string f) (hv : v ∈ init ++ [w])
    (hrefused : v.refused = true)
    (h : ∀ c d, c.Represented → settingsCells.run c [w] = some d →
      settingsCells.run c (init ++ [w]) = some d) : init = [] := by
  have hw : w.cell = .string f := hcells w (List.mem_append_right _ (List.mem_singleton_self w))
  -- in front of the last write all values are taken
  have htaken : ∀ u ∈ init, u.refused = false := by
    intro u hu
    obtain ⟨c, hc, hheld, hgoes⟩ := exists_probe (.string f) 0
    have hthere : c.strings f ≠ .null := by
      rw [Held.string.inj hheld]
      exact fun h => by cases h
    obtain ⟨d, hd⟩ := run_probe hgoes (some w)
    have hrun := h c d hc hd
    obtain ⟨before, after, rfl⟩ := List.append_of_mem hu
    rw [List.append_assoc, List.cons_append] at hrun
    have hcell : u.cell = .string f := hcells u (List.mem_append_left _ hu)
    cases after with
    | nil => exact not_refused_of_run hcell hw hc hthere hrun
    | cons x after =>
      have hx : x.cell = .string f := hcells x (by simp)
      exact not_refused_of_run hcell hx hc hthere hrun
  have hlast : w.refused = true := by
    rcases List.mem_append.mp hv with hv | hv
    · exact absurd hrefused (Bool.eq_false_iff.mp (htaken v hv))
    · exact List.mem_singleton.mp hv ▸ hrefused
  cases init with
  | nil => rfl
  | cons u rest =>
    have hmem : u ∈ u :: rest := List.mem_cons_self
    obtain ⟨hone, hmany⟩ := run_ne_refused (hcells u (List.mem_append_left _ hmem)) hw
      (htaken u hmem) hlast rest
    exact absurd (h _ _ represented_new hone) hmany

theorem comesTo_of_run
    (h : ∀ c d, c.Represented → settingsCells.run c u.toList = some d →
      settingsCells.run c ws = some d) : ComesTo ws u.toList := by
  have hlast := lastTo_eq_of_run h
  cases u with
  | none =>
    left
    rw [Option.toList_none, List.eq_nil_iff_forall_not_mem]
    intro w hw
    exact settingsCells.lastTo_eq_none (hlast w.cell) w hw rfl
  | some u =>
    have hcells : ∀ w ∈ ws, w.cell = u.cell := by
      intro w hw
      by_contra hne
      have hnone : settingsCells.lastTo w.cell [u] = none :=
        (settingsCells.lastTo_singleton _ u).trans (if_neg (Ne.symm hne))
      exact settingsCells.lastTo_eq_none ((hlast w.cell).trans hnone) w hw rfl
    have hfilter : ws.filter (fun w => settingsCells.cell w = u.cell) = ws :=
      List.filter_eq_self.mpr fun w hw => decide_eq_true (hcells w hw)
    have hend : ws.getLast? = some u := by
      rw [← hfilter]
      exact (hlast u.cell).trans ((settingsCells.lastTo_singleton _ u).trans (if_pos rfl))
    by_cases hall : ∀ w ∈ ws, w.refused = false
    · exact Or.inr ⟨u, rfl, hend, fun w hw => ⟨hcells w hw, hall w hw⟩⟩
    · left
      obtain ⟨v, hv, hrefused⟩ : ∃ v ∈ ws, v.refused = true := by
        by_contra hnone
        refine hall fun w hw => ?_
        exact Bool.eq_false_iff.mpr fun hrefused => hnone ⟨w, hw, hrefused⟩
      obtain ⟨f, rfl⟩ := v.refused_iff.mp hrefused
      obtain ⟨init, rfl⟩ := List.getLast?_eq_some_iff.mp hend
      have hstring : ∀ w ∈ init ++ [u], w.cell = .string f := fun w hw =>
        (hcells w hw).trans (hcells _ hv).symm
      rw [alone_of_refused hstring hv hrefused h]
      rfl

/-- **What covers what.** -/
theorem run_comesTo_iff :
    (∀ c d, c.Represented → settingsCells.run c u.toList = some d →
      settingsCells.run c ws = some d) ↔ ComesTo ws u.toList := by
  refine ⟨comesTo_of_run, fun h c d hc hd => ?_⟩
  rcases h with rfl | ⟨w, hw, hlast, hcovered⟩
  · exact hd
  · rw [hw, settingsCells.run_singleton] at hd
    obtain ⟨init, rfl⟩ := List.getLast?_eq_some_iff.mp hlast
    have htaken := (hcovered w (List.mem_append_right _ (List.mem_singleton_self w))).2
    refine settingsCells.run_covered (fun v hv => ?_) hc hd
    obtain ⟨hcell, hv⟩ := hcovered v (List.mem_append_left _ hv)
    exact Write.covers hcell hv htaken

end SameRuns

/-! ## One list of texts for another -/

section Texts

variable {name : Bytes} {texts whole : List Bytes} {u : Option Write}

theorem exists_handAll (hwhole : writes name whole = u.toList) :
    ∃ c d, Config.Represented c ∧ settingsCells.run c (writes name whole) = some d := by
  obtain ⟨c, hc, -, hgoes⟩ := exists_probe (.string .engine) 0
  obtain ⟨d, hd⟩ := run_probe hgoes u
  exact ⟨c, d, hc, hwhole ▸ hd⟩

/-- Texts do in a section what the texts of one entry do. -/
theorem sameTexts_iff (hwhole : writes name whole = u.toList) :
    (∀ c t, c.Represented → (Stored.mk (some name) c).handAll whole = .ok t →
      (Stored.mk (some name) c).handAll texts = .ok t) ↔
      sectionsAfter (some name) texts = sectionsAfter (some name) whole ∧
        ComesTo (writes name texts) (writes name whole) := by
  constructor
  · intro h
    constructor
    · obtain ⟨c, d, hc, hd⟩ := exists_handAll hwhole
      obtain ⟨d', -, hsame⟩ := handAll_eq_ok.mp (h c _ hc (handAll_eq_ok.mpr ⟨d, hd, rfl⟩))
      exact congrArg Stored.sectionName hsame
    · rw [hwhole, ← run_comesTo_iff]
      intro c d hc hd
      obtain ⟨d', hd', hsame⟩ :=
        handAll_eq_ok.mp (h c _ hc (handAll_eq_ok.mpr ⟨d, hwhole ▸ hd, rfl⟩))
      obtain rfl : d' = d := congrArg Stored.config hsame
      exact hd'
  · rintro ⟨hsection, hcomes⟩ c t hc ht
    obtain ⟨d, hd, rfl⟩ := handAll_eq_ok.mp ht
    rw [hwhole] at hcomes hd
    exact handAll_eq_ok.mpr ⟨d, run_comesTo_iff.mpr hcomes c d hc hd, by rw [hsection]⟩

/-- The same, where the section they lead to does not matter. -/
theorem sameSettings_texts_iff (hwhole : writes name whole = u.toList) :
    (∀ c t, c.Represented → (Stored.mk (some name) c).handAll whole = .ok t →
      ∃ t', (Stored.mk (some name) c).handAll texts = .ok t' ∧ t'.config = t.config) ↔
      ComesTo (writes name texts) (writes name whole) := by
  constructor
  · intro h
    rw [hwhole, ← run_comesTo_iff]
    intro c d hc hd
    obtain ⟨t, ht, hconfig⟩ := h c _ hc (handAll_eq_ok.mpr ⟨d, hwhole ▸ hd, rfl⟩)
    obtain ⟨d', hd', rfl⟩ := handAll_eq_ok.mp ht
    obtain rfl : d' = d := hconfig
    exact hd'
  · intro hcomes c t hc ht
    obtain ⟨d, hd, rfl⟩ := handAll_eq_ok.mp ht
    rw [hwhole] at hcomes hd
    exact ⟨_, handAll_eq_ok.mpr ⟨d, run_comesTo_iff.mpr hcomes c d hc hd, rfl⟩, rfl⟩

end Texts

end Spmfilter
