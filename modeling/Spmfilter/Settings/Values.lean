import Spmfilter.Settings.Parse

/-!
# The values of the settings

`_set_config_value` stores one value.  A string of the settings is freed before the new
value is looked at, and three settings take only some values: they are left with the freed
pointer where the value is none of them.

* `StringField`, `NumberField` and `ListField` are the settings, with the section and the
  key that set them.
* `setConfigValue` is the function, and `none` is a second `free` of the same string.
* `HeapString.assignAll_sound_iff` is about one setting and the values assigned to it.
* `setAll_strings` follows one setting through a sequence of assignments.
* `selections_sound_iff` says when the three settings are left as they should be.
-/

namespace Spmfilter

open CString

/-! ## Settings -/

/-- A string on the heap, or NULL. -/
inductive HeapString
  | null
  | live (s : Bytes)
  /-- The pointer is still there. -/
  | freed
deriving DecidableEq

inductive StringField
  | queueDir | engine | nexthop | backend | backendConnection
  | libDir | pidFile | bindIp | user | group
  | sqlDriver | sqlName | sqlUser | sqlPass | sqlUserQuery | sqlEncoding
  | ldapUri | ldapBinddn | ldapBindpw | ldapBase | ldapUserQuery | ldapScope
  | nexthopFailMsg
deriving DecidableEq

inductive NumberField
  | debug | moduleFail | addHeader | maxSize | tls | bindPort | listenBacklog | foreground
  | maxChilds | spareChilds | lookupPersistent | syslogFacility
  | sqlMaxConnections | sqlPort | ldapPort | ldapReferrals
  | nexthopFailCode | smtpdTimeout
deriving DecidableEq

inductive ListField
  | modules | sqlHost | ldapHost | ldapResultAttributes
deriving DecidableEq

/-- Where a setting stands in the file: its section and its key. -/
structure Place where
  sectionName : Bytes
  key : Bytes
deriving DecidableEq

def StringField.place : StringField → Place
  | queueDir => ⟨ascii "global", ascii "queue_dir"⟩
  | engine => ⟨ascii "global", ascii "engine"⟩
  | nexthop => ⟨ascii "global", ascii "nexthop"⟩
  | backend => ⟨ascii "global", ascii "backend"⟩
  | backendConnection => ⟨ascii "global", ascii "backend_connection"⟩
  | libDir => ⟨ascii "global", ascii "lib_dir"⟩
  | pidFile => ⟨ascii "global", ascii "pid_file"⟩
  | bindIp => ⟨ascii "global", ascii "bind_ip"⟩
  | user => ⟨ascii "global", ascii "user"⟩
  | group => ⟨ascii "global", ascii "group"⟩
  | sqlDriver => ⟨ascii "sql", ascii "driver"⟩
  | sqlName => ⟨ascii "sql", ascii "name"⟩
  | sqlUser => ⟨ascii "sql", ascii "user"⟩
  | sqlPass => ⟨ascii "sql", ascii "pass"⟩
  | sqlUserQuery => ⟨ascii "sql", ascii "user_query"⟩
  | sqlEncoding => ⟨ascii "sql", ascii "encoding"⟩
  | ldapUri => ⟨ascii "ldap", ascii "uri"⟩
  | ldapBinddn => ⟨ascii "ldap", ascii "binddn"⟩
  | ldapBindpw => ⟨ascii "ldap", ascii "bindpw"⟩
  | ldapBase => ⟨ascii "ldap", ascii "base"⟩
  | ldapUserQuery => ⟨ascii "ldap", ascii "user_query"⟩
  | ldapScope => ⟨ascii "ldap", ascii "scope"⟩
  | nexthopFailMsg => ⟨ascii "smtpd", ascii "nexthop_fail_msg"⟩

/-- The values that a setting takes, where it does not take every value. -/
def StringField.allowed : StringField → Option (List Bytes)
  | backend => some [ascii "sql", ascii "ldap"]
  | backendConnection => some [ascii "balance", ascii "failover"]
  | sqlDriver => some [ascii "mysql", ascii "postgresql", ascii "sqlite"]
  | _ => none

def StringField.takes (f : StringField) (val : Bytes) : Bool :=
  match f.allowed with
  | some values => values.contains val
  | none => true

def NumberField.place : NumberField → Place
  | debug => ⟨ascii "global", ascii "debug"⟩
  | moduleFail => ⟨ascii "global", ascii "module_fail"⟩
  | addHeader => ⟨ascii "global", ascii "add_header"⟩
  | maxSize => ⟨ascii "global", ascii "max_size"⟩
  | tls => ⟨ascii "global", ascii "tls_enable"⟩
  | bindPort => ⟨ascii "global", ascii "bind_port"⟩
  | listenBacklog => ⟨ascii "global", ascii "listen_backlog"⟩
  | foreground => ⟨ascii "global", ascii "foreground"⟩
  | maxChilds => ⟨ascii "global", ascii "max_childs"⟩
  | spareChilds => ⟨ascii "global", ascii "spare_childs"⟩
  | lookupPersistent => ⟨ascii "global", ascii "lookup_persistent"⟩
  | syslogFacility => ⟨ascii "global", ascii "syslog_facility"⟩
  | sqlMaxConnections => ⟨ascii "sql", ascii "max_connections"⟩
  | sqlPort => ⟨ascii "sql", ascii "port"⟩
  | ldapPort => ⟨ascii "ldap", ascii "port"⟩
  | ldapReferrals => ⟨ascii "ldap", ascii "referrals"⟩
  | nexthopFailCode => ⟨ascii "smtpd", ascii "nexthop_fail_code"⟩
  | smtpdTimeout => ⟨ascii "smtpd", ascii "smtpd_timeout"⟩

def ListField.place : ListField → Place
  | modules => ⟨ascii "global", ascii "modules"⟩
  | sqlHost => ⟨ascii "sql", ascii "host"⟩
  | ldapHost => ⟨ascii "ldap", ascii "host"⟩
  | ldapResultAttributes => ⟨ascii "ldap", ascii "result_attributes"⟩

def StringField.all : List StringField :=
  [queueDir, engine, nexthop, backend, backendConnection, libDir, pidFile, bindIp, user, group,
    sqlDriver, sqlName, sqlUser, sqlPass, sqlUserQuery, sqlEncoding,
    ldapUri, ldapBinddn, ldapBindpw, ldapBase, ldapUserQuery, ldapScope, nexthopFailMsg]

def NumberField.all : List NumberField :=
  [debug, moduleFail, addHeader, maxSize, tls, bindPort, listenBacklog, foreground, maxChilds,
    spareChilds, lookupPersistent, syslogFacility, sqlMaxConnections, sqlPort, ldapPort,
    ldapReferrals, nexthopFailCode, smtpdTimeout]

def ListField.all : List ListField := [modules, sqlHost, ldapHost, ldapResultAttributes]

/-- `SMFSettings_T`, less the fields that no value of the file sets.  Of the modules these are the
names; `Loading` has the files that they are opened from. -/
structure Config where
  strings : StringField → HeapString
  numbers : NumberField → Int
  lists : ListField → List Bytes
  smtpCodes : Dict
  groups : Dict

/-! ## Reading a value -/

/-- `_get_boolean`. -/
def getBoolean (val : Bytes) : Int :=
  if val.head? ∈ [some 121, some 89, some 49, some 116, some 84] then 1 else 0

/-- `_get_integer`: a `long` that is made an `int`. -/
def getInteger (val : Bytes) : Int := Int.bmod (strtol val) 4294967296

/-- `_get_list`, with the white space around each part stripped by the caller. -/
def getList (val : Bytes) : List Bytes :=
  (smfCoreStrsplit val (if SEMICOLON ∈ val then SEMICOLON else 44)).map smfCoreStrstrip

/-- The names of `smf_settings_set_syslog_facility` and the numbers of `syslog.h`. -/
def syslogFacilities : List (Bytes × Int) :=
  [(ascii "auth", 32), (ascii "authpriv", 80), (ascii "cron", 72), (ascii "daemon", 24),
    (ascii "ftp", 88), (ascii "kern", 0), (ascii "local0", 128), (ascii "local1", 136),
    (ascii "local2", 144), (ascii "local3", 152), (ascii "local4", 160), (ascii "local5", 168),
    (ascii "local6", 176), (ascii "local7", 184), (ascii "lpr", 48), (ascii "mail", 16),
    (ascii "news", 56), (ascii "user", 8), (ascii "uucp", 64)]

/-- What a number becomes; `none` leaves it as it is. -/
def NumberField.read (f : NumberField) (val : Bytes) : Option Int :=
  match f with
  | debug | addHeader | foreground | lookupPersistent | ldapReferrals => some (getBoolean val)
  | moduleFail => some (getInteger val) |>.filter (· ∈ [1, 2, 3])
  | tls => some (getInteger val) |>.filter (· ∈ [0, 1, 2])
  -- an `unsigned long`
  | maxSize => some (getInteger val % 18446744073709551616)
  | syslogFacility =>
    (syslogFacilities.find? fun facility => facility.1.map tolower = val.map tolower).map Prod.snd
  | _ => some (getInteger val)

/-! ## Storing a value -/

/-- `if (p != NULL) free(p)`. -/
def HeapString.free : HeapString → Option HeapString
  | null => some null
  | live _ => some freed
  | freed => none

/-- A new value for a string: the old one is freed, and the new one is copied where it is
taken. -/
def HeapString.assign (p : HeapString) (taken : Bool) (val : Bytes) : Option HeapString := do
  let old ← p.free
  return if taken then .live val else old

/-- The section is one of those that `_set_config_value` knows. -/
def isBuiltin (name : Bytes) : Bool := builtinSections.contains name

/-- What `_set_config_value` does where the value is no string of the settings. -/
def setOther (c : Config) (place : Place) (val : Bytes) : Config :=
  match NumberField.all.find? (·.place = place) with
  | some f =>
    match f.read val with
    | some i => { c with numbers := Function.update c.numbers f i }
    | none => c
  | none =>
    match ListField.all.find? (·.place = place) with
    | some f => { c with lists := Function.update c.lists f (getList val) }
    | none =>
      if place.sectionName = ascii "smtpd" then
        if 250 ≤ getInteger place.key ∧ getInteger place.key < 600 then
          { c with smtpCodes := (smfDictSet place.key val c.smtpCodes).getD c.smtpCodes }
        else c
      else if isBuiltin place.sectionName then c
      else
        let groups := smfDictSet (groupKey place.sectionName place.key) val c.groups
        { c with groups := groups.getD c.groups }

/-- `_set_config_value`. -/
def setConfigValue (c : Config) (place : Place) (val : Bytes) : Option Config :=
  if val = [] then some c
  else
    match StringField.all.find? (·.place = place) with
    | some f =>
      ((c.strings f).assign (f.takes val) val).map fun p =>
        { c with strings := Function.update c.strings f p }
    | none => some (setOther c place val)

/-- `smf_settings_new`. -/
def smfSettingsNew : Config where
  strings := fun _ => .null
  numbers
    | .moduleFail => 3
    | .addHeader => 1
    | .bindPort => 10025
    | .listenBacklog => 511
    | .maxChilds => 10
    | .spareChilds => 2
    | .syslogFacility => 16
    | .sqlMaxConnections => 3
    | .nexthopFailCode => 451
    | .smtpdTimeout => 300
    | _ => 0
  lists := fun _ => []
  smtpCodes := smfDictNew
  groups := smfDictNew

/-- One line `key = val` in a section. -/
structure Assignment where
  place : Place
  val : Bytes

def setAll (c : Config) (assignments : List Assignment) : Option Config :=
  assignments.foldlM (fun c a => setConfigValue c a.place a.val) c

/-! ## One string -/

def HeapString.assignAll (takes : Bytes → Bool) (p : HeapString) (vals : List Bytes) :
    Option HeapString :=
  vals.foldlM (fun p val => p.assign (takes val) val) p

/-- NULL, or a live copy of a value that is taken. -/
def HeapString.Sound (takes : Bytes → Bool) : HeapString → Prop
  | null => True
  | live val => takes val = true
  | freed => False

section OneString

variable {takes : Bytes → Bool}

theorem HeapString.assignAll_cons (p : HeapString) (val : Bytes) (vals : List Bytes) :
    p.assignAll takes (val :: vals) =
      (p.assign (takes val) val).bind fun p => p.assignAll takes vals := rfl

/-- From a freed string there is no way back. -/
theorem HeapString.assignAll_freed (vals : List Bytes) :
    ¬ ∃ q, HeapString.freed.assignAll takes vals = some q ∧ q.Sound takes := by
  rintro ⟨q, hq, hsound⟩
  cases vals with
  | nil =>
    obtain rfl := Option.some.inj hq
    exact hsound
  | cons val vals => cases hq

theorem HeapString.assign_null (taken : Bool) (val : Bytes) :
    HeapString.null.assign taken val = some (if taken then .live val else .null) := rfl

theorem HeapString.assign_live (taken : Bool) (old val : Bytes) :
    (HeapString.live old).assign taken val = some (if taken then .live val else .freed) := rfl

/-- A live string is kept sound by values that are taken, and by no others. -/
theorem HeapString.assignAll_live (vals : List Bytes) {old : Bytes} (hold : takes old = true) :
    (∃ q, (HeapString.live old).assignAll takes vals = some q ∧ q.Sound takes) ↔
      ∀ val ∈ vals, takes val = true := by
  induction vals generalizing old with
  | nil => exact iff_of_true ⟨_, rfl, hold⟩ nofun
  | cons val vals ih =>
    rw [assignAll_cons, assign_live, Option.bind_some, List.forall_mem_cons]
    cases hval : takes val with
    | true =>
      rw [if_pos rfl, ih hval]
      exact ⟨fun h => ⟨rfl, h⟩, fun h => h.2⟩
    | false =>
      rw [if_neg Bool.false_ne_true]
      exact iff_of_false (assignAll_freed vals) fun h => Bool.false_ne_true h.1

/-- The values that are assigned to a NULL string leave it sound when none that is not taken
comes behind one that is. -/
theorem HeapString.assignAll_sound_iff (vals : List Bytes) :
    (∃ q, HeapString.null.assignAll takes vals = some q ∧ q.Sound takes) ↔
      vals.Pairwise fun v w => takes v = true → takes w = true := by
  induction vals with
  | nil => exact iff_of_true ⟨_, rfl, trivial⟩ List.Pairwise.nil
  | cons val vals ih =>
    rw [assignAll_cons, assign_null, Option.bind_some, List.pairwise_cons]
    cases hval : takes val with
    | true =>
      rw [if_pos rfl, assignAll_live vals hval]
      have hpairs : (∀ w ∈ vals, takes w = true) →
          vals.Pairwise fun v w => takes v = true → takes w = true := fun h =>
        List.pairwise_of_forall_mem_list fun _ _ w hw _ => h w hw
      exact ⟨fun h => ⟨fun w hw _ => h w hw, hpairs h⟩, fun h w hw => h.1 w hw rfl⟩
    | false =>
      rw [if_neg Bool.false_ne_true, ih]
      exact ⟨fun h => ⟨fun _ _ hfalse => absurd hfalse Bool.false_ne_true, h⟩, fun h => h.2⟩

end OneString

/-! ## Following one string -/

theorem StringField.find_place (f : StringField) :
    StringField.all.find? (·.place = f.place) = some f := by
  cases f <;> decide

/-- The non-empty values that are assigned to a string. -/
def assigned (f : StringField) (assignments : List Assignment) : List Bytes :=
  (assignments.filter fun a => a.place = f.place ∧ a.val ≠ []).map Assignment.val

theorem setOther_strings (c : Config) (place : Place) (val : Bytes) :
    (setOther c place val).strings = c.strings := by
  rw [setOther]
  split
  · split <;> rfl
  · split
    · rfl
    · split_ifs <;> rfl

section
variable {c c' : Config} {f : StringField} {a : Assignment}

theorem assigned_self (hplace : a.place = f.place) (hval : a.val ≠ []) :
    assigned f [a] = [a.val] := by
  rw [assigned, List.filter_singleton, decide_eq_true (⟨hplace, hval⟩ : _ ∧ _)]
  rfl

theorem assigned_other (h : ¬ (a.place = f.place ∧ a.val ≠ [])) : assigned f [a] = [] := by
  rw [assigned, List.filter_singleton, decide_eq_false h]
  rfl

theorem find_eq_some_iff {place : Place} :
    StringField.all.find? (·.place = place) = some f ↔ place = f.place := by
  constructor
  · intro h
    have hplace := List.find?_some h
    exact (of_decide_eq_true hplace).symm
  · rintro rfl
    exact f.find_place

/-- An assignment does to a string what its value does, if it is for it. -/
theorem setConfigValue_strings (h : setConfigValue c a.place a.val = some c') (f : StringField) :
    (c.strings f).assignAll f.takes (assigned f [a]) = some (c'.strings f) := by
  rw [setConfigValue] at h
  split at h
  · rename_i hval
    obtain rfl := Option.some.inj h
    rw [assigned_other fun hboth => hboth.2 hval]
    rfl
  · rename_i hval
    split at h
    · rename_i g hg
      obtain ⟨p, hp, rfl⟩ := Option.map_eq_some_iff.mp h
      by_cases hfg : f = g
      · subst hfg
        rw [assigned_self (find_eq_some_iff.mp hg) hval, HeapString.assignAll_cons, hp,
          Option.bind_some]
        exact congrArg some (Function.update_self f p c.strings).symm
      · have hother : a.place ≠ f.place := fun hplace =>
          hfg (Option.some.inj ((find_eq_some_iff.mpr hplace).symm.trans hg))
        rw [assigned_other fun hboth => hother hboth.1]
        exact congrArg some (Function.update_of_ne hfg p c.strings).symm
    · rename_i hnone
      obtain rfl := Option.some.inj h
      have hother : a.place ≠ f.place := fun hplace =>
        Option.some_ne_none f ((find_eq_some_iff.mpr hplace).symm.trans hnone)
      rw [assigned_other fun hboth => hother hboth.1, setOther_strings]
      rfl

/-- It goes through where the value can be assigned to its string. -/
theorem setConfigValue_isSome
    (h : ∀ f, ((c.strings f).assignAll f.takes (assigned f [a])).isSome = true) :
    (setConfigValue c a.place a.val).isSome = true := by
  rw [setConfigValue]
  split
  · rfl
  · rename_i hval
    split
    · rename_i g hg
      have hassign := h g
      rw [assigned_self (find_eq_some_iff.mp hg) hval, HeapString.assignAll_cons] at hassign
      rw [Option.isSome_map]
      exact Option.isSome_of_isSome_bind hassign
    · rfl

end

theorem assigned_cons (f : StringField) (a : Assignment) (as : List Assignment) :
    assigned f (a :: as) = assigned f [a] ++ assigned f as := by
  rw [assigned, assigned, assigned, ← List.map_append, ← List.filter_append]
  rfl

theorem HeapString.assignAll_append (takes : Bytes → Bool) (p : HeapString)
    (vals vals' : List Bytes) :
    p.assignAll takes (vals ++ vals') =
      (p.assignAll takes vals).bind fun p => p.assignAll takes vals' :=
  List.foldlM_append

/-- A sequence of assignments does to each string what the values for it do. -/
theorem setAll_strings {c c' : Config} {as : List Assignment} (h : setAll c as = some c')
    (f : StringField) :
    (c.strings f).assignAll f.takes (assigned f as) = some (c'.strings f) := by
  induction as generalizing c with
  | nil =>
    obtain rfl := Option.some.inj h
    rfl
  | cons a as ih =>
    obtain ⟨d, hd, hrest⟩ := Option.bind_eq_some_iff.mp h
    rw [assigned_cons, HeapString.assignAll_append, setConfigValue_strings hd f,
      Option.bind_some, ih hrest]

/-- It goes through where each string goes through its values. -/
theorem setAll_isSome {c : Config} {as : List Assignment}
    (h : ∀ f, ((c.strings f).assignAll f.takes (assigned f as)).isSome = true) :
    (setAll c as).isSome = true := by
  induction as generalizing c with
  | nil => rfl
  | cons a as ih =>
    have hfirst : ∀ f, ((c.strings f).assignAll f.takes (assigned f [a])).isSome = true := by
      intro f
      have hf := h f
      rw [assigned_cons, HeapString.assignAll_append] at hf
      exact Option.isSome_of_isSome_bind hf
    obtain ⟨d, hd⟩ := Option.isSome_iff_exists.mp (setConfigValue_isSome hfirst)
    show ((setConfigValue c a.place a.val).bind fun d => setAll d as).isSome = true
    rw [hd, Option.bind_some]
    apply ih
    intro f
    have hf := h f
    rw [assigned_cons, HeapString.assignAll_append, setConfigValue_strings hd f,
      Option.bind_some] at hf
    exact hf

/-! ## The three settings with few values -/

/-- The settings whose values are checked. -/
def selections : List StringField := [.backend, .backendConnection, .sqlDriver]

/-- Each is NULL or a live copy of an allowed value. -/
def Config.SelectionsSound (c : Config) : Prop :=
  ∀ f ∈ selections, c.strings f = .null ∨
    ∃ values, f.allowed = some values ∧ ∃ val ∈ values, c.strings f = .live val

theorem sound_iff {f : StringField} (hf : f ∈ selections) (p : HeapString) :
    p.Sound f.takes ↔
      p = .null ∨ ∃ values, f.allowed = some values ∧ ∃ val ∈ values, p = .live val := by
  obtain ⟨values, hvalues⟩ : ∃ values, f.allowed = some values := by
    simp only [selections, List.mem_cons, List.not_mem_nil, or_false] at hf
    rcases hf with rfl | rfl | rfl <;> exact ⟨_, rfl⟩
  have htakes : ∀ val, f.takes val = true ↔ val ∈ values := by
    intro val
    rw [StringField.takes, hvalues]
    exact List.contains_iff_mem
  cases p with
  | null => exact iff_of_true trivial (Or.inl rfl)
  | live val =>
    rw [show (HeapString.live val).Sound f.takes ↔ f.takes val = true from Iff.rfl, htakes]
    constructor
    · exact fun h => Or.inr ⟨values, hvalues, val, h, rfl⟩
    · rintro (h | ⟨values', hvalues', val', hval', h⟩)
      · cases h
      · cases h
        rwa [Option.some.inj (hvalues.symm.trans hvalues')]
  | freed =>
    refine iff_of_false id ?_
    rintro (h | ⟨_, _, _, _, h⟩) <;> cases h

/-- **When the three settings are sound**: no value that is not allowed is assigned to one of
them behind a value that is. -/
theorem selections_sound_iff (as : List Assignment) :
    (∃ c, setAll smfSettingsNew as = some c ∧ c.SelectionsSound) ↔
      ∀ f ∈ selections,
        (assigned f as).Pairwise fun v w => f.takes v = true → f.takes w = true := by
  constructor
  · rintro ⟨c, hc, hsound⟩ f hf
    rw [← HeapString.assignAll_sound_iff]
    exact ⟨c.strings f, setAll_strings hc f, (sound_iff hf _).mpr (hsound f hf)⟩
  · intro h
    have hall : ∀ f, ∃ q, HeapString.null.assignAll f.takes (assigned f as) = some q ∧
        q.Sound f.takes := by
      intro f
      rw [HeapString.assignAll_sound_iff]
      by_cases hf : f ∈ selections
      · exact h f hf
      · -- every value is taken
        have htakes : ∀ val, f.takes val = true := by
          intro val
          cases f <;> first | rfl | exact absurd (by decide) hf
        exact List.pairwise_of_forall_mem_list fun _ _ w _ _ => htakes w
    obtain ⟨c, hc⟩ := Option.isSome_iff_exists.mp <|
      @setAll_isSome smfSettingsNew as fun f => by
        obtain ⟨q, hq, -⟩ := hall f
        exact Option.isSome_iff_exists.mpr ⟨q, hq⟩
    refine ⟨c, hc, fun f hf => (sound_iff hf _).mp ?_⟩
    obtain ⟨q, hq, hsound⟩ := hall f
    rwa [← Option.some.inj (hq.symm.trans (setAll_strings hc f))]

/-- `backend = sql`, and then `backend = mysql`. -/
theorem selections_freed :
    ¬ ∀ as : List Assignment, ∃ c, setAll smfSettingsNew as = some c ∧ c.SelectionsSound := by
  intro hall
  obtain ⟨c, hc, hsound⟩ := hall
    [⟨StringField.backend.place, ascii "sql"⟩, ⟨StringField.backend.place, ascii "mysql"⟩]
  have hbackend := (HeapString.assignAll_sound_iff _).mp
    ⟨_, setAll_strings hc .backend, (sound_iff (by decide) _).mpr (hsound .backend (by decide))⟩
  have hsecond : StringField.backend.takes (ascii "mysql") = true :=
    List.rel_of_pairwise_cons hbackend (List.mem_singleton.mpr rfl) (by decide)
  exact absurd hsecond (by decide)

end Spmfilter
