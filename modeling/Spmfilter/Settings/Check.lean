import Spmfilter.Server
import Spmfilter.Settings.Continuation

/-!
# The checks behind the loop

Behind the loop over the lines `smf_settings_parse_config` sets what the file has left out, and
refuses some settings.  A string that was left freed is not NULL, and the checks read it.

* `HeapString.text` is what is read at a pointer.
* `checkSql`, `checkLdap` and `checkSettings` are the checks, and `smfSettingsParseConfigChecked`
  is the whole function.
* `checkSettings_defaulted` : the checks only fill in what is not set.
* `fileString` follows one string through the writes of a file.
* `configAfter_run` : the settings in front of the checks are those of the writes.
-/

namespace Spmfilter

open CString

/-! ## Reading a string -/

/-- The text at the pointer.  Where the string is freed this is `garbage`. -/
def HeapString.text (garbage : Bytes) : HeapString → Option Bytes
  | null => none
  | live s => some s
  | freed => some garbage

/-- A string of the settings; `freed` is what memory holds where a string was freed. -/
def Config.text (freed : StringField → Bytes) (c : Config) (f : StringField) : Option Bytes :=
  (c.strings f).text (freed f)

/-! ## The checks -/

/-- A string that is NULL gets a default. -/
def Config.setDefault (c : Config) (f : StringField) (val : Bytes) : Config :=
  if c.strings f = .null then { c with strings := Function.update c.strings f (.live val) } else c

/-- A port that is 0 gets a default. -/
def Config.setDefaultPort (c : Config) (f : NumberField) (port : Int) : Config :=
  if c.numbers f = 0 then { c with numbers := Function.update c.numbers f port } else c

/-- The drivers that need a host. -/
def hostDrivers : List Bytes := [ascii "mysql", ascii "postgresql"]

def ldapScopes : List Bytes := [ascii "base", ascii "onlevel", ascii "subtree"]

/-- The sql checks.  An error is the return value -1, with the settings as they are left. -/
def checkSql (freed : StringField → Bytes) (c : Config) : Except Config Config :=
  match c.text freed .sqlDriver with
  | none => .error c
  | some driver =>
    if c.strings .sqlName = .null then .error c
    else if hostDrivers.contains driver ∧ (c.lists .sqlHost).length = 0 then .error c
    else
      let c := if driver = ascii "mysql" then c.setDefaultPort .sqlPort 3306 else c
      .ok (if driver = ascii "postgresql" then c.setDefaultPort .sqlPort 5432 else c)

/-- The ldap checks. -/
def checkLdap (freed : StringField → Bytes) (c : Config) : Except Config Config :=
  let c := c.setDefaultPort .ldapPort 389
  let c := c.setDefault .ldapBase []
  match c.text freed .ldapScope with
  | none => .ok (c.setDefault .ldapScope (ascii "subtree"))
  | some scope => if ¬ ldapScopes.contains scope then .error c else .ok c

def checkBackend (freed : StringField → Bytes) (c : Config) : Except Config Config :=
  match c.text freed .backend with
  | none => .ok c
  | some backend =>
    (if backend = ascii "sql" then checkSql freed c else .ok c).bind fun c =>
      if backend = ascii "ldap" then checkLdap freed c else .ok c

def checkSettings (freed : StringField → Bytes) (c : Config) : Except Config Config :=
  let c := c.setDefault .queueDir (ascii "/var/spool/spmfilter")
  if c.strings .engine = .null then .error c
  else if CHILD_LIMIT < c.numbers .maxChilds then .error c
  else
    (checkBackend freed (c.setDefault .backendConnection (ascii "failover"))).map fun c =>
      c.setDefault .nexthopFailMsg (ascii "Requested action aborted: local error in processing")

/-- `smf_settings_parse_config` for a file that can be read: where the loop stops, or what the
checks make of the settings. -/
def smfSettingsParseConfigChecked (freed : StringField → Bytes) (input : Bytes) :
    Except ReadStop (Except Config Config) :=
  (configAfter smfSettingsNew input).map (checkSettings freed)

/-! ## What the checks change -/

/-- The strings that have a default. -/
def defaultStrings : List StringField :=
  [.queueDir, .backendConnection, .ldapBase, .ldapScope, .nexthopFailMsg]

/-- The ports that have a default. -/
def defaultPorts : List NumberField := [.sqlPort, .ldapPort]

/-- Only what is not set is filled in, and only where there is a default. -/
structure Defaulted (c d : Config) : Prop where
  strings : ∀ f, d.strings f = c.strings f ∨ c.strings f = .null ∧ f ∈ defaultStrings
  numbers : ∀ f, d.numbers f = c.numbers f ∨ c.numbers f = 0 ∧ f ∈ defaultPorts
  lists : d.lists = c.lists
  smtpCodes : d.smtpCodes = c.smtpCodes
  groups : d.groups = c.groups

/-- The settings that a check returns or leaves. -/
def checkedConfig : Except Config Config → Config
  | .ok c => c
  | .error c => c

section Defaults

variable {c d e : Config}

theorem Defaulted.refl (c : Config) : Defaulted c c where
  strings := fun _ => .inl rfl
  numbers := fun _ => .inl rfl
  lists := rfl
  smtpCodes := rfl
  groups := rfl

theorem Defaulted.trans (h : Defaulted c d) (h' : Defaulted d e) : Defaulted c e where
  strings := by
    intro f
    rcases h.strings f with hsame | hnull
    · rw [← hsame]
      exact h'.strings f
    · exact .inr hnull
  numbers := by
    intro f
    rcases h.numbers f with hsame | hzero
    · rw [← hsame]
      exact h'.numbers f
    · exact .inr hzero
  lists := h'.lists.trans h.lists
  smtpCodes := h'.smtpCodes.trans h.smtpCodes
  groups := h'.groups.trans h.groups

theorem setDefault_defaulted (c : Config) {f : StringField} (hf : f ∈ defaultStrings)
    (val : Bytes) : Defaulted c (c.setDefault f val) := by
  rw [Config.setDefault]
  split
  · rename_i hnull
    refine { Defaulted.refl c with strings := fun g => ?_ }
    by_cases hg : g = f
    · subst hg
      exact .inr ⟨hnull, hf⟩
    · exact .inl (Function.update_of_ne hg _ c.strings)
  · exact .refl c

theorem setDefaultPort_defaulted (c : Config) {f : NumberField} (hf : f ∈ defaultPorts)
    (port : Int) : Defaulted c (c.setDefaultPort f port) := by
  rw [Config.setDefaultPort]
  split
  · rename_i hzero
    refine { Defaulted.refl c with numbers := fun g => ?_ }
    by_cases hg : g = f
    · subst hg
      exact .inr ⟨hzero, hf⟩
    · exact .inl (Function.update_of_ne hg _ c.numbers)
  · exact .refl c

/-- A default leaves no NULL. -/
theorem setDefault_ne_null (c : Config) (f : StringField) (val : Bytes) :
    (c.setDefault f val).strings f ≠ .null := by
  rw [Config.setDefault]
  split
  · show Function.update c.strings f (.live val) f ≠ .null
    rw [Function.update_self]
    exact fun h => by cases h
  · assumption

theorem Defaulted.ne_null (h : Defaulted c d) {f : StringField} (hf : c.strings f ≠ .null) :
    d.strings f ≠ .null := by
  rcases h.strings f with hsame | ⟨hnull, -⟩
  · rwa [hsame]
  · exact absurd hnull hf

/-- A string without a default is left as it is. -/
theorem Defaulted.string_eq (h : Defaulted c d) {f : StringField} (hf : f ∉ defaultStrings) :
    d.strings f = c.strings f :=
  (h.strings f).resolve_right fun hdefault => hf hdefault.2

theorem Defaulted.number_eq (h : Defaulted c d) {f : NumberField} (hf : f ∉ defaultPorts) :
    d.numbers f = c.numbers f :=
  (h.numbers f).resolve_right fun hdefault => hf hdefault.2

end Defaults

section Checks

variable (freed : StringField → Bytes) (c : Config)

theorem checkSql_defaulted : Defaulted c (checkedConfig (checkSql freed c)) := by
  have hport : NumberField.sqlPort ∈ defaultPorts := List.mem_cons_self
  rw [checkSql]
  cases c.text freed .sqlDriver with
  | none => exact .refl c
  | some driver =>
    dsimp only
    split_ifs
    · exact .refl c
    · exact .refl c
    · exact (setDefaultPort_defaulted c hport 3306).trans (setDefaultPort_defaulted _ hport 5432)
    · exact setDefaultPort_defaulted c hport 5432
    · exact setDefaultPort_defaulted c hport 3306
    · exact .refl c

theorem checkLdap_defaulted : Defaulted c (checkedConfig (checkLdap freed c)) := by
  have hbase : Defaulted c ((c.setDefaultPort .ldapPort 389).setDefault .ldapBase []) :=
    (setDefaultPort_defaulted c (by decide) 389).trans (setDefault_defaulted _ (by decide) [])
  rw [checkLdap]
  cases ((c.setDefaultPort .ldapPort 389).setDefault .ldapBase []).text freed .ldapScope with
  | none => exact hbase.trans (setDefault_defaulted _ (by decide) (ascii "subtree"))
  | some scope =>
    dsimp only
    split_ifs
    · exact hbase
    · exact hbase

theorem checkBackend_defaulted : Defaulted c (checkedConfig (checkBackend freed c)) := by
  rw [checkBackend]
  cases c.text freed .backend with
  | none => exact .refl c
  | some backend =>
    have hsql : Defaulted c
        (checkedConfig (if backend = ascii "sql" then checkSql freed c else .ok c)) := by
      split_ifs
      · exact checkSql_defaulted freed c
      · exact .refl c
    dsimp only
    cases hchecked : (if backend = ascii "sql" then checkSql freed c else .ok c) with
    | error d =>
      rw [hchecked] at hsql
      exact hsql
    | ok d =>
      rw [hchecked] at hsql
      refine hsql.trans ?_
      show Defaulted d (checkedConfig (if backend = ascii "ldap" then checkLdap freed d else .ok d))
      split_ifs
      · exact checkLdap_defaulted freed d
      · exact .refl d

/-- **The checks only fill in what is not set.** -/
theorem checkSettings_defaulted : Defaulted c (checkedConfig (checkSettings freed c)) := by
  have hqueue : Defaulted c (c.setDefault .queueDir (ascii "/var/spool/spmfilter")) :=
    setDefault_defaulted c (by decide) _
  rw [checkSettings]
  split_ifs
  · exact hqueue
  · exact hqueue
  · have hconnection := setDefault_defaulted (c.setDefault .queueDir (ascii "/var/spool/spmfilter"))
      (show StringField.backendConnection ∈ defaultStrings by decide) (ascii "failover")
    refine hqueue.trans (hconnection.trans ?_)
    have hbackend := checkBackend_defaulted freed
      ((c.setDefault .queueDir (ascii "/var/spool/spmfilter")).setDefault .backendConnection
        (ascii "failover"))
    revert hbackend
    cases checkBackend freed _ with
    | error d => exact id
    | ok d => exact fun h => h.trans (setDefault_defaulted d (by decide) _)

end Checks

section Passed

variable {freed : StringField → Bytes} {c d : Config}

/-- What has passed the sql checks: a driver is set, and a host where the driver needs one. -/
theorem checkSql_ok (h : checkSql freed c = .ok d) :
    ∃ driver, c.text freed .sqlDriver = some driver ∧
      (driver ∈ hostDrivers → c.lists .sqlHost ≠ []) := by
  rw [checkSql] at h
  cases hdriver : c.text freed .sqlDriver with
  | none =>
    rw [hdriver] at h
    cases h
  | some driver =>
    rw [hdriver] at h
    refine ⟨driver, rfl, fun hmem hnil => ?_⟩
    have hlength : (c.lists .sqlHost).length = 0 := congrArg List.length hnil
    have hneeds : hostDrivers.contains driver = true := List.contains_iff_mem.mpr hmem
    simp only [hneeds, hlength, and_self, if_true] at h
    split at h <;> cases h

theorem checkBackend_sql (h : checkBackend freed c = .ok d)
    (hbackend : c.text freed .backend = some (ascii "sql")) : ∃ e, checkSql freed c = .ok e := by
  rw [checkBackend, hbackend] at h
  dsimp only at h
  rw [if_pos rfl] at h
  obtain ⟨e, hsql, -⟩ := bind_eq_ok_iff.mp h
  exact ⟨e, hsql⟩

/-- Where the settings pass, the backend has been checked with a way to connect. -/
theorem checkSettings_ok (h : checkSettings freed c = .ok d) :
    ∃ e e', Defaulted c e ∧ e.strings .backendConnection ≠ .null ∧
      checkBackend freed e = .ok e' ∧ Defaulted e' d := by
  have hqueue := setDefault_defaulted c (show StringField.queueDir ∈ defaultStrings by decide)
    (ascii "/var/spool/spmfilter")
  have hconnection := setDefault_defaulted (c.setDefault .queueDir (ascii "/var/spool/spmfilter"))
    (show StringField.backendConnection ∈ defaultStrings by decide) (ascii "failover")
  rw [checkSettings] at h
  split_ifs at h
  obtain ⟨e, hbackend, rfl⟩ := map_eq_ok_iff.mp h
  exact ⟨_, e, hqueue.trans hconnection, setDefault_ne_null _ _ _, hbackend,
    setDefault_defaulted e (by decide) _⟩

end Passed

/-! ## What the file writes -/

/-- What a write makes of one string. -/
def Write.follow (f : StringField) (p : HeapString) : Write → HeapString
  | string g val => if g = f then val.elim (p.free.getD p) .live else p
  | _ => p

/-- What the writes of a file make of a string that is NULL. -/
def fileString (f : StringField) (input : Bytes) : HeapString :=
  (fileWrites input).foldl (Write.follow f) .null

/-- Entries in front of the first section stop the loop. -/
theorem handAll_run {c : Config} {texts : List Bytes} {t : Stored}
    (h : (Stored.mk none c).handAll texts = .ok t) :
    settingsCells.run c (writes [] texts) = some t.config := by
  induction texts with
  | nil =>
    obtain rfl := Except.ok.inj h
    rfl
  | cons text texts ih =>
    rw [Stored.handAll_cons, Stored.hand] at h
    rw [writes]
    cases heffect : lineEffect text with
    | nothing =>
      rw [heffect] at h
      exact ih h
    | entersSection new =>
      rw [heffect] at h
      obtain ⟨d, hd, rfl⟩ := handAll_eq_ok.mp h
      exact hd
    | assigns key val =>
      rw [heffect] at h
      cases h

theorem configAfter_run {c d : Config} {input : Bytes} (h : configAfter c input = .ok d) :
    settingsCells.run c (fileWrites input) = some d := by
  rw [configAfter_eq, Stored.read] at h
  obtain ⟨s, hread, rfl⟩ := map_eq_ok_iff.mp h
  obtain ⟨t, hhand, hend⟩ := bind_eq_ok_iff.mp hread
  cases hstop : (readLines {} input).2 with
  | some e =>
    rw [hstop] at hend
    cases hend
  | none =>
    rw [hstop] at hend
    obtain rfl := Except.ok.inj hend
    exact handAll_run hhand

/-- The file of these lines. -/
def linesFile (ls : List Bytes) : Bytes := (ls.flatMap fun l => l ++ [LF]) ++ []

theorem fitsLine_of_all {ls : List Bytes}
    (hls : (ls.all fun l => !l.contains LF && !l.contains 0 && l.length ≤ MAX_LINE - 1) = true) :
    ∀ l ∈ ls, FitsLine l := by
  intro l hl
  have hline := List.all_eq_true.mp hls l hl
  simp only [Bool.and_eq_true, Bool.not_eq_true', List.contains_eq_mem, decide_eq_false_iff_not,
    decide_eq_true_eq] at hline
  exact ⟨hline.1.1, hline.1.2, hline.2⟩

theorem readLines_linesFile {ls : List Bytes} (hls : ∀ l ∈ ls, FitsLine l) :
    readLines {} (linesFile ls) = (ls.flatMap handedClosed, none) := by
  have hempty : FitsLine [] := ⟨List.not_mem_nil, List.not_mem_nil, Nat.zero_le _⟩
  rw [linesFile, readLines_lines hls hempty]
  exact congrArg (·, none) (List.append_nil _)

/-- A file that begins with a section. -/
theorem fileWrites_section {input text name : Bytes} {texts : List Bytes}
    (hread : readLines {} input = (text :: texts, none))
    (hsection : lineEffect text = .entersSection (some name)) :
    fileWrites input = writes name texts := by
  rw [fileWrites, hread, writes, hsection]
  rfl

theorem configAfter_section {input text name : Bytes} {texts : List Bytes} {c : Config}
    (hread : readLines {} input = (text :: texts, none))
    (hsection : lineEffect text = .entersSection (some name))
    (hrun : settingsCells.run smfSettingsNew (writes name texts) = some c) :
    configAfter smfSettingsNew input = .ok c := by
  have hhand : (Stored.mk (some name) smfSettingsNew).handAll texts =
      .ok ⟨sectionsAfter (some name) texts, c⟩ := handAll_eq_ok.mpr ⟨c, hrun, rfl⟩
  have hfirst : (Stored.mk none smfSettingsNew).handAll (text :: texts) =
      (Stored.mk (some name) smfSettingsNew).handAll texts := by
    rw [Stored.handAll_cons, Stored.hand, hsection]
    rfl
  rw [configAfter_texts hread, hfirst, hhand]
  rfl

/-! ### One string -/

theorem Write.apply_follow {w : Write} {c d : Config} (h : w.apply c = some d) (f : StringField) :
    d.strings f = w.follow f (c.strings f) := by
  cases w with
  | string g val =>
    obtain ⟨old, hfree, rfl⟩ := Option.map_eq_some_iff.mp h
    by_cases hg : g = f
    · subst hg
      rw [follow, if_pos rfl, hfree]
      exact Function.update_self g _ c.strings
    · rw [follow, if_neg hg]
      exact Function.update_of_ne (Ne.symm hg) _ c.strings
  | number g i | list g parts | smtpCode code text | group key val =>
    obtain rfl := Option.some.inj h
    rfl

theorem run_follow {ws : List Write} {c d : Config} (h : settingsCells.run c ws = some d)
    (f : StringField) : d.strings f = ws.foldl (Write.follow f) (c.strings f) := by
  induction ws generalizing c with
  | nil =>
    obtain rfl := Option.some.inj h
    rfl
  | cons w ws ih =>
    obtain ⟨u, hu, hrest⟩ := Option.bind_eq_some_iff.mp h
    have hfirst : u.strings f = w.follow f (c.strings f) := Write.apply_follow hu f
    rw [ih hrest, List.foldl_cons, hfirst]

/-- A string is written with a value that its setting takes, and a list with parts. -/
def Write.Admissible : Write → Prop
  | string f (some val) => f.takes val = true
  | list _ parts => parts ≠ []
  | _ => True

theorem getList_ne_nil (val : Bytes) : getList val ≠ [] := by
  rw [getList, smfCoreStrsplit]
  intro h
  exact List.splitOn_ne_nil _ _ (List.map_eq_nil_iff.mp h)

theorem entryWrite_admissible (name key val : Bytes) :
    ∀ w ∈ entryWrite name key val, w.Admissible := by
  rw [entryWrite]
  split
  · split
    · exact fun w h => by cases h
    · split
      · rename_i f _
        intro w h
        obtain rfl := Option.some.inj h
        by_cases htakes : f.takes val = true
        · rw [if_pos htakes]
          exact htakes
        · rw [if_neg htakes]
          trivial
      · split
        · intro w h
          obtain ⟨i, -, rfl⟩ := Option.map_eq_some_iff.mp h
          trivial
        · split
          · intro w h
            obtain rfl := Option.some.inj h
            exact getList_ne_nil val
          · split
            · intro w h
              obtain rfl := Option.some.inj h
              trivial
            · exact fun w h => by cases h
  · intro w h
    obtain rfl := Option.some.inj h
    trivial

theorem writes_admissible (name : Bytes) (texts : List Bytes) :
    ∀ w ∈ writes name texts, w.Admissible := by
  induction texts generalizing name with
  | nil => exact List.forall_mem_nil _
  | cons text texts ih =>
    rw [writes]
    split
    · exact ih name
    · exact ih _
    · rename_i key val _
      intro w hw
      rcases List.mem_append.mp hw with hw | hw
      · exact entryWrite_admissible name key val w (Option.mem_toList.mp hw)
      · exact ih name w hw

theorem fileWrites_admissible (input : Bytes) : ∀ w ∈ fileWrites input, w.Admissible :=
  writes_admissible [] _

/-- A live string is one that is taken. -/
theorem fileString_takes {f : StringField} {input val : Bytes}
    (h : fileString f input = .live val) : f.takes val = true := by
  suffices hall : ∀ ws : List Write, (∀ w ∈ ws, w.Admissible) → ∀ p : HeapString,
      (∀ v, p = .live v → f.takes v = true) →
        ∀ v, ws.foldl (Write.follow f) p = .live v → f.takes v = true from
    hall _ (fileWrites_admissible input) .null (fun _ h => by cases h) val h
  intro ws hws
  induction ws with
  | nil => exact fun p hp v hv => hp v hv
  | cons w ws ih =>
    rw [List.forall_mem_cons] at hws
    intro p hp
    refine ih hws.2 _ fun v hv => ?_
    cases w with
    | string g val =>
      rw [Write.follow] at hv
      split_ifs at hv with hg
      · subst hg
        cases val with
        | some a =>
          obtain rfl := HeapString.live.inj hv
          exact hws.1
        | none => cases p <;> cases hv
      · exact hp v hv
    | number g i | list g parts | smtpCode code text | group key val => exact hp v hv

/-- A string is NULL where no value for it is taken. -/
theorem fileString_ne_null_iff (f : StringField) (input : Bytes) :
    fileString f input ≠ .null ↔ ∃ val, Write.string f (some val) ∈ fileWrites input := by
  suffices hall : ∀ (ws : List Write) (p : HeapString), ws.foldl (Write.follow f) p ≠ .null ↔
      p ≠ .null ∨ ∃ val, Write.string f (some val) ∈ ws by
    rw [fileString, hall, or_iff_right fun h => h rfl]
  intro ws
  induction ws with
  | nil => simp
  | cons w ws ih =>
    intro p
    rw [List.foldl_cons, ih]
    cases w with
    | string g val =>
      rw [Write.follow]
      by_cases hg : g = f
      · subst hg
        rw [if_pos rfl]
        cases val with
        | some a => simp
        | none => cases p <;> simp [HeapString.free]
      · rw [if_neg hg]
        simp [Ne.symm hg]
    | number g i | list g parts | smtpCode code text | group key val => simp [Write.follow]

/-- A list is empty where the file does not set it. -/
theorem fileList_ne_nil_iff {input : Bytes} {d : Config}
    (h : configAfter smfSettingsNew input = .ok d) (f : ListField) :
    d.lists f ≠ [] ↔ ∃ parts, Write.list f parts ∈ fileWrites input := by
  have hrun := configAfter_run h
  have hheld := @Overwrite.Cells.run_held _ _ _ _ settingsCells _ _ _ _ (.list f) represented_new
    trivial hrun
  cases hlast : settingsCells.lastTo (.list f) (fileWrites input) with
  | none =>
    rw [hlast] at hheld
    refine iff_of_false (fun hne => hne (Held.list.inj hheld)) ?_
    rintro ⟨parts, hparts⟩
    exact settingsCells.lastTo_eq_none hlast _ hparts rfl
  | some w =>
    rw [hlast] at hheld
    obtain ⟨hmem, hcell⟩ := settingsCells.cell_of_lastTo hlast
    have hvalue : Held.list (d.lists f) = w.value := hheld
    cases w with
    | list g parts =>
      obtain rfl := Cell.list.inj hcell
      have hparts : d.lists g = parts := Held.list.inj hvalue
      rw [hparts]
      exact iff_of_true (fileWrites_admissible input _ hmem) ⟨parts, hmem⟩
    | string g val | number g i | smtpCode code text | group key val => cases hcell

end Spmfilter
