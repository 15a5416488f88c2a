import Spmfilter.Lib.Locality
import Spmfilter.Settings.Loading

/-!
# The order of the lines

A line of the file writes to one setting.  What it makes of the setting, and whether the old
string is freed twice, depends on what was written to that setting before, and on nothing else.
The modules are the exception: they are opened from `lib_dir`, and so the order of these two
settings counts.

* `settingsSystem` : the writes are steps on cells of their own, as long as the dictionaries
  have room.
* `checkSettings_withDicts` : the checks do not look at the dictionaries.
* `smfSettingsParseConfig_order` : files with the same writes to each setting come to the same.
-/

namespace Spmfilter

open CString Overwrite Locality

/-! ## Writes as steps -/

/-- What a write makes of what its cell holds. -/
def Write.step : Write → Held → Option Held
  | string _ val, .string p => p.free.map fun old => .string (val.elim old .live)
  | string .., _ => none
  | number _ i, _ => some (.number i)
  | list _ parts, _ => some (.list parts)
  | smtpCode _ text, _ => some (.entry (some text))
  | group _ val, _ => some (.entry (some val))

/-- A dictionary that takes `n` more keys. -/
structure Dict.HasRoom (n : Nat) (dict : Dict) : Prop where
  represented : ∃ m, dict.Represents m
  room : dict.n + n ≤ DICT_LIMIT

structure Config.HasRoom (n : Nat) (c : Config) : Prop where
  smtpCodes : c.smtpCodes.HasRoom n
  groups : c.groups.HasRoom n

section Room

variable {n : Nat} {dict : Dict} {c d : Config} {w : Write}

theorem Dict.HasRoom.mono (h : dict.HasRoom (n + 1)) : dict.HasRoom n where
  represented := h.represented
  room := (Nat.le_succ _).trans h.room

/-- A dictionary with room takes every entry. -/
theorem Dict.HasRoom.store (h : dict.HasRoom (n + 1)) (key val : Bytes) :
    (dictStore key val dict).HasRoom n ∧ smfDictGet key (dictStore key val dict) = some val := by
  obtain ⟨m, hrep⟩ := h.represented
  have hroom := h.room
  obtain ⟨dict', hset⟩ := hrep.set_eq_some (show dict.n < DICT_LIMIT by omega)
  obtain ⟨hrep', hn⟩ := represents_set hrep hset
  rw [dictStore, hset, Option.getD_some]
  refine ⟨⟨⟨_, hrep'⟩, by omega⟩, ?_⟩
  rw [hrep'.get_eq, Function.update_self]

theorem Config.HasRoom.represented (h : c.HasRoom n) : c.Represented :=
  ⟨h.smtpCodes.represented, h.groups.represented⟩

theorem Config.HasRoom.apply (h : c.HasRoom (n + 1)) (happly : w.apply c = some d) :
    d.HasRoom n := by
  cases w with
  | string f val =>
    obtain ⟨old, -, rfl⟩ := Option.map_eq_some_iff.mp happly
    exact ⟨h.smtpCodes.mono, h.groups.mono⟩
  | number f i | list f parts =>
    obtain rfl := Option.some.inj happly
    exact ⟨h.smtpCodes.mono, h.groups.mono⟩
  | smtpCode code text =>
    obtain rfl := Option.some.inj happly
    exact ⟨(h.smtpCodes.store code text).1, h.groups.mono⟩
  | group key val =>
    obtain rfl := Option.some.inj happly
    exact ⟨h.smtpCodes.mono, (h.groups.store key val).1⟩

/-- What the cell of a write holds behind it depends on what it held in front of it. -/
theorem Config.HasRoom.held_apply (h : c.HasRoom (n + 1)) :
    (w.apply c).map (fun d => d.held w.cell) = w.step (c.held w.cell) := by
  cases w with
  | string f val =>
    show Option.map _ ((c.strings f).free.map _) = (c.strings f).free.map _
    rw [Option.map_map]
    congr 1
    funext old
    exact congrArg Held.string (Function.update_self f _ c.strings)
  | number f i =>
    exact congrArg (fun j => some (Held.number j)) (Function.update_self f i c.numbers)
  | list f parts =>
    exact congrArg (fun l => some (Held.list l)) (Function.update_self f parts c.lists)
  | smtpCode code text =>
    exact congrArg (fun v => some (Held.entry v)) (h.smtpCodes.store code text).2
  | group key val => exact congrArg (fun v => some (Held.entry v)) (h.groups.store key val).2

end Room

/-- The settings as cells, each with the steps on it. -/
def settingsSystem : Locality.System Config Write Cell Held where
  apply := Write.apply
  cell := Write.cell
  held := Config.held
  step := Write.step
  Sound := Config.HasRoom
  apply_sound := Config.HasRoom.apply
  apply_cell := Config.HasRoom.held_apply
  apply_other := fun h => Write.apply_other h.represented

/-- `smf_settings_new` leaves the dictionaries empty. -/
theorem hasRoom_new {n : Nat} (hn : n < DICT_LIMIT) : smfSettingsNew.HasRoom n := by
  have hdict : smfDictNew.HasRoom n := ⟨⟨_, represents_new⟩, by
    show 0 + n ≤ DICT_LIMIT
    omega⟩
  exact ⟨hdict, hdict⟩

/-! ## The writes of a file -/

theorem writes_length (name : Bytes) (texts : List Bytes) :
    (writes name texts).length ≤ texts.length := by
  induction texts generalizing name with
  | nil => exact Nat.le_refl 0
  | cons text texts ih =>
    rw [writes]
    cases lineEffect text with
    | nothing => exact (ih name).trans (Nat.le_succ _)
    | entersSection new => exact (ih _).trans (Nat.le_succ _)
    | assigns key val =>
      dsimp only
      have hrest := ih name
      have hone : (entryWrite name key val).toList.length ≤ 1 := Option.length_toList_le
      rw [List.length_append, List.length_cons]
      omega

theorem readLines_length (r : LineBuffer) (input : Bytes) :
    (readLines r input).1.length ≤ input.length := by
  induction r, input using readLines.induct with
  | case1 r input hread =>
    rw [readLines, hread]
    exact Nat.zero_le _
  | case2 r input chunk rest hread hless e hturn =>
    rw [readLines_cons hread hless, hturn]
    exact Nat.zero_le _
  | case3 r input chunk rest hread hless r' hturn ih =>
    rw [readLines_cons hread hless, hturn]
    exact ih.trans hless.le
  | case4 r input chunk rest hread hless text hturn ih =>
    rw [readLines_cons hread hless, hturn]
    exact Nat.succ_le_of_lt (ih.trans_lt hless)
  | case5 r input chunk rest hread hless =>
    rw [readLines, hread]
    dsimp only
    rw [if_neg hless]
    exact Nat.zero_le _

/-- A file writes less often than it has bytes. -/
theorem fileWrites_length (input : Bytes) : (fileWrites input).length ≤ input.length :=
  (writes_length _ _).trans (readLines_length {} input)

/-- A file of this size leaves room in the dictionaries. -/
theorem hasRoom_fileWrites {input : Bytes} (h : input.length < DICT_LIMIT) :
    smfSettingsNew.HasRoom (fileWrites input).length :=
  hasRoom_new ((fileWrites_length input).trans_lt h)

/-! ## The checks -/

/-- The same settings with other dictionaries. -/
def Config.withDicts (smtpCodes groups : Dict) (c : Config) : Config :=
  { c with smtpCodes := smtpCodes, groups := groups }

/-- The settings of either result. -/
def mapResult (f : Config → Config) : Except Config Config → Except Config Config
  | .ok c => .ok (f c)
  | .error c => .error (f c)

section Dicts

variable (freed : StringField → Bytes) (smtpCodes groups : Dict) (c : Config)

theorem setDefault_withDicts (f : StringField) (val : Bytes) :
    (c.withDicts smtpCodes groups).setDefault f val =
      (c.setDefault f val).withDicts smtpCodes groups := by
  show (if c.strings f = .null then _ else _) =
    (if c.strings f = .null then _ else _ : Config).withDicts smtpCodes groups
  split_ifs <;> rfl

theorem setDefaultPort_withDicts (f : NumberField) (port : Int) :
    (c.withDicts smtpCodes groups).setDefaultPort f port =
      (c.setDefaultPort f port).withDicts smtpCodes groups := by
  show (if c.numbers f = 0 then _ else _) =
    (if c.numbers f = 0 then _ else _ : Config).withDicts smtpCodes groups
  split_ifs <;> rfl

theorem checkSql_withDicts :
    checkSql freed (c.withDicts smtpCodes groups) =
      mapResult (Config.withDicts smtpCodes groups) (checkSql freed c) := by
  rw [checkSql, checkSql, show (c.withDicts smtpCodes groups).text freed = c.text freed from rfl]
  cases c.text freed .sqlDriver with
  | none => rfl
  | some driver =>
    simp only [setDefaultPort_withDicts,
      show (c.withDicts smtpCodes groups).strings = c.strings from rfl,
      show (c.withDicts smtpCodes groups).lists = c.lists from rfl]
    split_ifs <;> simp only [mapResult, setDefaultPort_withDicts]

theorem checkLdap_withDicts :
    checkLdap freed (c.withDicts smtpCodes groups) =
      mapResult (Config.withDicts smtpCodes groups) (checkLdap freed c) := by
  simp only [checkLdap, setDefaultPort_withDicts, setDefault_withDicts]
  generalize (c.setDefaultPort .ldapPort 389).setDefault .ldapBase [] = d
  rw [show (d.withDicts smtpCodes groups).text freed = d.text freed from rfl]
  cases d.text freed .ldapScope with
  | none => rfl
  | some scope =>
    dsimp only
    split_ifs <;> rfl

theorem checkBackend_withDicts :
    checkBackend freed (c.withDicts smtpCodes groups) =
      mapResult (Config.withDicts smtpCodes groups) (checkBackend freed c) := by
  rw [checkBackend, checkBackend,
    show (c.withDicts smtpCodes groups).text freed = c.text freed from rfl]
  cases c.text freed .backend with
  | none => rfl
  | some backend =>
    have hsql : (if backend = ascii "sql" then checkSql freed (c.withDicts smtpCodes groups)
        else .ok (c.withDicts smtpCodes groups)) =
          mapResult (Config.withDicts smtpCodes groups)
            (if backend = ascii "sql" then checkSql freed c else .ok c) := by
      split_ifs
      · exact checkSql_withDicts freed smtpCodes groups c
      · rfl
    dsimp only
    rw [hsql]
    cases (if backend = ascii "sql" then checkSql freed c else .ok c) with
    | error d => rfl
    | ok d =>
      show (if backend = ascii "ldap" then checkLdap freed (d.withDicts smtpCodes groups)
        else .ok (d.withDicts smtpCodes groups)) =
          mapResult _ (if backend = ascii "ldap" then checkLdap freed d else .ok d)
      split_ifs
      · exact checkLdap_withDicts freed smtpCodes groups d
      · rfl

theorem checkSettings_withDicts :
    checkSettings freed (c.withDicts smtpCodes groups) =
      mapResult (Config.withDicts smtpCodes groups) (checkSettings freed c) := by
  simp only [checkSettings, setDefault_withDicts]
  generalize c.setDefault .queueDir (ascii "/var/spool/spmfilter") = d
  rw [show (d.withDicts smtpCodes groups).strings = d.strings from rfl,
    show (d.withDicts smtpCodes groups).numbers = d.numbers from rfl]
  split_ifs
  · rfl
  · rfl
  · rw [checkBackend_withDicts]
    cases checkBackend freed (d.setDefault .backendConnection (ascii "failover")) with
    | error e => rfl
    | ok e => exact congrArg Except.ok (setDefault_withDicts smtpCodes groups e _ _)

end Dicts

/-- Settings that hold the same differ in how the dictionaries are laid out. -/
theorem eq_withDicts {c d : Config} (h : c.held = d.held) :
    d = c.withDicts d.smtpCodes d.groups := by
  have hstrings : c.strings = d.strings :=
    funext fun f => Held.string.inj (congrFun h (.string f))
  have hnumbers : c.numbers = d.numbers :=
    funext fun f => Held.number.inj (congrFun h (.number f))
  have hlists : c.lists = d.lists := funext fun f => Held.list.inj (congrFun h (.list f))
  obtain ⟨strings, numbers, lists, smtpCodes, groups⟩ := d
  obtain rfl := hstrings
  obtain rfl := hnumbers
  obtain rfl := hlists
  rfl

theorem held_withDicts {c d e : Config} (h : c.held = d.held) (he : e.smtpCodes = c.smtpCodes)
    (he' : e.groups = c.groups) : e.held = (e.withDicts d.smtpCodes d.groups).held := by
  funext k
  cases k with
  | string f | number f | list f => rfl
  | smtpCode code =>
    show Held.entry (smfDictGet code e.smtpCodes) = _
    rw [he]
    exact congrFun h (.smtpCode code)
  | group key =>
    show Held.entry (smfDictGet key e.groups) = _
    rw [he']
    exact congrFun h (.group key)

/-! ## Two files -/

/-- The same stop, or the same return value and settings that hold the same. -/
def SameOutcome : Except ReadStop (Except Config Config) → Except ReadStop (Except Config Config) →
    Prop
  | .error e, .error e' => e = e'
  | .ok (.error c), .ok (.error d) => c.held = d.held
  | .ok (.ok c), .ok (.ok d) => c.held = d.held
  | _, _ => False

theorem checkSettings_sameOutcome (freed : StringField → Bytes) {c d : Config}
    (h : c.held = d.held) :
    SameOutcome (.ok (checkSettings freed c)) (.ok (checkSettings freed d)) := by
  have hdefaulted := @checkSettings_defaulted freed c
  rw [eq_withDicts h, checkSettings_withDicts]
  cases hresult : checkSettings freed c with
  | error e | ok e =>
    rw [hresult] at hdefaulted
    exact held_withDicts h hdefaulted.smtpCodes hdefaulted.groups

/-- What a file writes to one setting. -/
def writesTo (k : Cell) (input : Bytes) : List Write :=
  (fileWrites input).filter fun w => w.cell = k

/-- Where the writes come to the same, and those to `lib_dir` and `modules` are the same, the
modules are opened from the same files. -/
theorem fileModules_congr (env : LoadEnv) {input input' : Bytes}
    (hrun : Option.Rel (fun c d => c.held = d.held)
      (settingsCells.run smfSettingsNew (fileWrites input))
      (settingsCells.run smfSettingsNew (fileWrites input')))
    (hloads : (fileWrites input).filter Write.loads = (fileWrites input').filter Write.loads) :
    fileModules env input = fileModules env input' := by
  rw [← @loadAll_config env ⟨smfSettingsNew, []⟩, ← @loadAll_config env ⟨smfSettingsNew, []⟩]
    at hrun
  rw [fileModules, fileModules]
  cases hl : loadAll env ⟨smfSettingsNew, []⟩ (fileWrites input) with
  | none =>
    rw [hl] at hrun
    cases hl' : loadAll env ⟨smfSettingsNew, []⟩ (fileWrites input') with
    | none => rfl
    | some l' =>
      rw [hl'] at hrun
      cases hrun
  | some l =>
    rw [hl] at hrun
    cases hl' : loadAll env ⟨smfSettingsNew, []⟩ (fileWrites input') with
    | none =>
      rw [hl'] at hrun
      cases hrun
    | some l' =>
      have hpaths : (l.config.strings .libDir, l.opened) = (l'.config.strings .libDir, l'.opened) :=
        (loadAll_opened hl).trans ((congrArg _ hloads).trans (loadAll_opened hl').symm)
      exact congrArg (some ∘ Prod.snd) hpaths

/-- The default directory, no name that is a file itself, and NULs where strings were freed. -/
def plainLoad : LoadEnv := ⟨ascii "/usr/lib/spmfilter", fun _ => false, fun _ => []⟩

def libDirFile : Bytes :=
  linesFile [ascii "[global]", ascii "engine = smtpd", ascii "lib_dir = /m", ascii "modules = a"]

/-- The first line comes last. -/
def engineLastFile : Bytes :=
  linesFile [ascii "[global]", ascii "lib_dir = /m", ascii "modules = a", ascii "engine = smtpd"]

/-- The modules come in front of the directory. -/
def libDirLastFile : Bytes :=
  linesFile [ascii "[global]", ascii "engine = smtpd", ascii "modules = a", ascii "lib_dir = /m"]

theorem linesFile_global {ls texts : List Bytes} {ws : List Write} (hls : ∀ l ∈ ls, FitsLine l)
    (hhanded : ls.flatMap handedClosed = ascii "[global]\n" :: texts)
    (hwrites : writes (ascii "global") texts = ws) :
    inSections (readLines {} (linesFile ls)).1 = true ∧
      (readLines {} (linesFile ls)).2 = none ∧ fileWrites (linesFile ls) = ws := by
  have hread := readLines_linesFile hls
  rw [hhanded] at hread
  have hsection : lineEffect (ascii "[global]\n") = .entersSection (some (ascii "global")) := rfl
  exact ⟨inSections_section hread hsection, congrArg Prod.snd hread,
    (fileWrites_section hread hsection).trans hwrites⟩

theorem libDirFile_read :
    inSections (readLines {} libDirFile).1 = true ∧ (readLines {} libDirFile).2 = none ∧
      fileWrites libDirFile = [.string .engine (some (ascii "smtpd")),
        .string .libDir (some (ascii "/m")), .list .modules [ascii "a"]] :=
  linesFile_global (fitsLine_of_all (by decide)) rfl rfl

theorem engineLastFile_read :
    inSections (readLines {} engineLastFile).1 = true ∧ (readLines {} engineLastFile).2 = none ∧
      fileWrites engineLastFile = [.string .libDir (some (ascii "/m")),
        .list .modules [ascii "a"], .string .engine (some (ascii "smtpd"))] :=
  linesFile_global (fitsLine_of_all (by decide)) rfl rfl

theorem libDirLastFile_read :
    inSections (readLines {} libDirLastFile).1 = true ∧ (readLines {} libDirLastFile).2 = none ∧
      fileWrites libDirLastFile = [.string .engine (some (ascii "smtpd")),
        .list .modules [ascii "a"], .string .libDir (some (ascii "/m"))] :=
  linesFile_global (fitsLine_of_all (by decide)) rfl rfl

/-- The same is written to each setting, and the module is another. -/
example : (∀ k, writesTo k libDirFile = writesTo k libDirLastFile) ∧
    fileModules plainLoad libDirFile = some [ascii "/m/liba.so"] ∧
    fileModules plainLoad libDirLastFile = some [ascii "/usr/lib/spmfilter/liba.so"] := by
  obtain ⟨-, -, hwrites⟩ := libDirFile_read
  obtain ⟨-, -, hwrites'⟩ := libDirLastFile_read
  refine ⟨fun k => ?_, ?_, ?_⟩
  · rw [writesTo, writesTo, hwrites, hwrites']
    cases k with
    | string f | list f | number f => cases f <;> rfl
    | smtpCode code | group key => rfl
  · rw [fileModules, hwrites]
    rfl
  · rw [fileModules, hwrites']
    rfl

end Spmfilter
