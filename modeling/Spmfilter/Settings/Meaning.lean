import Spmfilter.Settings.Order

/-!
# What a file means

`smf_settings_parse_config` without its pointers and tables: a file is a list of writes, the
last one to a setting holds, and what is not set gets a default.

* `Options` are the settings as values, and `fileOptions` those of a file.
* `Options.Accepted` says which files the checks let through, and `Options.filled` what they add.
* `Config.Shows` connects the settings in memory to their values.
* `smfSettingsParseConfig_meaning` : this is what the function comes to.
-/

namespace Spmfilter

open CString Overwrite

/-! ## Values -/

/-- The settings, with the dictionaries as functions. -/
@[ext] structure Options where
  strings : StringField → Option Bytes
  numbers : NumberField → Int
  lists : ListField → List Bytes
  smtpCodes : Bytes → Option Bytes
  groups : Bytes → Option Bytes

/-- What is set before the file is read. -/
def Options.start : Options where
  strings := fun _ => none
  numbers := smfSettingsNew.numbers
  lists := fun _ => []
  smtpCodes := fun _ => none
  groups := fun _ => none

def Options.write (o : Options) : Write → Options
  | .string f val => { o with strings := Function.update o.strings f val }
  | .number f i => { o with numbers := Function.update o.numbers f i }
  | .list f parts => { o with lists := Function.update o.lists f parts }
  | .smtpCode code text => { o with smtpCodes := Function.update o.smtpCodes code (some text) }
  | .group key val => { o with groups := Function.update o.groups key (some val) }

def fileOptions (input : Bytes) : Options := (fileWrites input).foldl Options.write .start

/-- The sql checks ask for a driver, a name, and a host where the driver needs one. -/
def Options.SqlAccepted (o : Options) : Prop :=
  ∃ driver, o.strings .sqlDriver = some driver ∧ o.strings .sqlName ≠ none ∧
    (driver ∈ hostDrivers → o.lists .sqlHost ≠ [])

def Options.LdapAccepted (o : Options) : Prop :=
  ∀ scope, o.strings .ldapScope = some scope → scope ∈ ldapScopes

/-- The files that are let through. -/
structure Options.Accepted (o : Options) : Prop where
  engine : o.strings .engine ≠ none
  childs : o.numbers .maxChilds ≤ CHILD_LIMIT
  sql : o.strings .backend = some (ascii "sql") → o.SqlAccepted
  ldap : o.strings .backend = some (ascii "ldap") → o.LdapAccepted

/-- What the checks of the backend make of a string that is not set. -/
def Options.backendString (o : Options) : StringField → Option Bytes
  | .ldapBase => if o.strings .backend = some (ascii "ldap") then some [] else none
  | .ldapScope =>
    if o.strings .backend = some (ascii "ldap") then some (ascii "subtree") else none
  | _ => none

/-- What a string is where the file does not set it. -/
def Options.defaultString (o : Options) : StringField → Option Bytes
  | .queueDir => some (ascii "/var/spool/spmfilter")
  | .backendConnection => some (ascii "failover")
  | .nexthopFailMsg => some (ascii "Requested action aborted: local error in processing")
  | f => o.backendString f

/-- The port of a driver. -/
def driverPort (driver : Option Bytes) : Int :=
  if driver = some (ascii "mysql") then 3306
  else if driver = some (ascii "postgresql") then 5432
  else 0

/-- What a port is where it is 0. -/
def Options.defaultPort (o : Options) : NumberField → Int
  | .sqlPort =>
    if o.strings .backend = some (ascii "sql") then driverPort (o.strings .sqlDriver) else 0
  | .ldapPort => if o.strings .backend = some (ascii "ldap") then 389 else 0
  | _ => 0

/-- Strings that are not set and numbers that are 0 are filled in. -/
def Options.fill (o : Options) (texts : StringField → Option Bytes) (ports : NumberField → Int) :
    Options :=
  { o with
    strings := fun f => (o.strings f).or (texts f)
    numbers := fun f => if o.numbers f = 0 then ports f else o.numbers f }

def Options.filled (o : Options) : Options := o.fill o.defaultString o.defaultPort

/-! ## Values in memory -/

def HeapString.ofOption (val : Option Bytes) : HeapString := val.elim .null .live

/-- The settings in memory are these values, and no string has been freed. -/
structure Config.Shows (c : Config) (o : Options) : Prop where
  strings : ∀ f, c.strings f = .ofOption (o.strings f)
  numbers : c.numbers = o.numbers
  lists : c.lists = o.lists
  smtpCodes : ∀ code, smfDictGet code c.smtpCodes = o.smtpCodes code
  groups : ∀ key, smfDictGet key c.groups = o.groups key

section Shows

variable {c : Config} {o : Options}

theorem HeapString.ofOption_free (val : Option Bytes) :
    ∃ old, (HeapString.ofOption val).free = some old := by
  cases val with
  | none => exact ⟨.null, rfl⟩
  | some s => exact ⟨.freed, rfl⟩

theorem HeapString.ofOption_null (val : Option Bytes) :
    HeapString.ofOption val = .null ↔ val = none := by
  cases val with
  | none => exact iff_of_true rfl rfl
  | some s => exact iff_of_false (fun h => by cases h) (fun h => by cases h)

theorem HeapString.ofOption_text (garbage : Bytes) (val : Option Bytes) :
    (HeapString.ofOption val).text garbage = val := by
  cases val <;> rfl

theorem shows_start : smfSettingsNew.Shows .start where
  strings := fun _ => rfl
  numbers := rfl
  lists := rfl
  smtpCodes := fun code => represents_new.get_eq code
  groups := fun key => represents_new.get_eq key

theorem Config.Shows.text (h : c.Shows o) (freed : StringField → Bytes) (f : StringField) :
    c.text freed f = o.strings f := by
  rw [Config.text, h.strings, HeapString.ofOption_text]

/-- A value that is taken goes where the abstract settings have it. -/
theorem Config.Shows.write (h : c.Shows o) {n : Nat} (hroom : c.HasRoom (n + 1)) {w : Write}
    (hw : w.refused = false) : ∃ d, w.apply c = some d ∧ d.Shows (o.write w) := by
  cases w with
  | string f val =>
    obtain ⟨old, hold⟩ := HeapString.ofOption_free (o.strings f)
    rw [← h.strings] at hold
    cases val with
    | none => cases hw
    | some s =>
      refine ⟨{ c with strings := Function.update c.strings f (.live s) }, ?_,
        { h with strings := fun g => ?_ }⟩
      · rw [Write.apply, hold]
        rfl
      show Function.update c.strings f (.live s) g = .ofOption (Function.update o.strings f _ g)
      by_cases hg : g = f
      · subst hg
        rw [Function.update_self, Function.update_self]
        rfl
      · rw [Function.update_of_ne hg, Function.update_of_ne hg, h.strings]
  | number f i =>
    refine ⟨_, rfl, { h with numbers := ?_ }⟩
    exact congrArg (Function.update · f i) h.numbers
  | list f parts =>
    refine ⟨_, rfl, { h with lists := ?_ }⟩
    exact congrArg (Function.update · f parts) h.lists
  | smtpCode code text =>
    refine ⟨_, rfl, { h with smtpCodes := fun other => ?_ }⟩
    show smfDictGet other (dictStore code text c.smtpCodes) = Function.update o.smtpCodes code _ _
    by_cases hother : other = code
    · subst hother
      rw [Function.update_self]
      exact (hroom.smtpCodes.store other text).2
    · obtain ⟨m, hrep⟩ := hroom.smtpCodes.represented
      rw [Function.update_of_ne hother, get_dictStore_of_ne hrep hother]
      exact h.smtpCodes other
  | group key val =>
    refine ⟨_, rfl, { h with groups := fun other => ?_ }⟩
    show smfDictGet other (dictStore key val c.groups) = Function.update o.groups key _ _
    by_cases hother : other = key
    · subst hother
      rw [Function.update_self]
      exact (hroom.groups.store other val).2
    · obtain ⟨m, hrep⟩ := hroom.groups.represented
      rw [Function.update_of_ne hother, get_dictStore_of_ne hrep hother]
      exact h.groups other

theorem Config.Shows.run {ws : List Write} (h : c.Shows o) (hroom : c.HasRoom ws.length)
    (hws : ∀ w ∈ ws, w.refused = false) :
    ∃ d, settingsCells.run c ws = some d ∧ d.Shows (ws.foldl Options.write o) := by
  induction ws generalizing c o with
  | nil => exact ⟨c, rfl, h⟩
  | cons w ws ih =>
    rw [List.forall_mem_cons] at hws
    obtain ⟨d, hd, hshows⟩ := h.write hroom hws.1
    obtain ⟨e, he, hend⟩ := ih hshows (hroom.apply hd) hws.2
    refine ⟨e, ?_, hend⟩
    rw [settingsCells.run_cons, show settingsCells.apply w c = some d from hd]
    exact he

end Shows

/-! ## Defaults -/

/-- A table with one entry. -/
def oneString (f : StringField) (val : Bytes) : StringField → Option Bytes :=
  fun g => if g = f then some val else none

def onePort (f : NumberField) (port : Int) : NumberField → Int :=
  fun g => if g = f then port else 0

section Fill

variable {c : Config} {o : Options}

theorem Options.fill_fill (o : Options) (texts texts' : StringField → Option Bytes)
    (ports ports' : NumberField → Int) :
    (o.fill texts ports).fill texts' ports' =
      o.fill (fun f => (texts f).or (texts' f)) fun f =>
        if ports f = 0 then ports' f else ports f := by
  refine Options.ext (funext fun f => Option.or_assoc) (funext fun f => ?_) rfl rfl rfl
  show (if (if o.numbers f = 0 then _ else _) = 0 then _ else _) = _
  by_cases hzero : o.numbers f = 0
  · simp [Options.fill, hzero]
  · simp [Options.fill, hzero]

theorem Options.fill_zero (o : Options) (texts : StringField → Option Bytes) :
    (o.fill texts 0).numbers = o.numbers := by
  funext g
  show (if o.numbers g = 0 then 0 else o.numbers g) = o.numbers g
  split_ifs with hzero
  · exact hzero.symm
  · rfl

/-- Tables without entries fill in nothing. -/
theorem Options.fill_none (o : Options) : o.fill (fun _ => none) 0 = o :=
  Options.ext (funext fun _ => Option.or_none) (o.fill_zero _) rfl rfl rfl

theorem Options.fill_of_none (o : Options) {texts : StringField → Option Bytes}
    (ports : NumberField → Int) {f : StringField} (hf : texts f = none) :
    (o.fill texts ports).strings f = o.strings f := by
  show (o.strings f).or (texts f) = _
  rw [hf, Option.or_none]

theorem Config.Shows.setDefault (h : c.Shows o) (f : StringField) (val : Bytes) :
    (c.setDefault f val).Shows (o.fill (oneString f val) 0) := by
  have hnull := h.strings f
  have hnumbers := o.fill_zero (oneString f val)
  rw [Config.setDefault]
  split_ifs with hset
  · rw [hset, eq_comm, HeapString.ofOption_null] at hnull
    refine { h with strings := fun g => ?_, numbers := h.numbers.trans hnumbers.symm }
    show Function.update c.strings f (.live val) g =
      .ofOption ((o.strings g).or (oneString f val g))
    by_cases hg : g = f
    · subst hg
      rw [Function.update_self, hnull, oneString, if_pos rfl]
      rfl
    · rw [Function.update_of_ne hg, oneString, if_neg hg, Option.or_none, h.strings]
  · have hsome : o.strings f ≠ none := fun hnone => hset (by rw [hnull, hnone]; rfl)
    refine { h with strings := fun g => ?_, numbers := h.numbers.trans hnumbers.symm }
    show c.strings g = .ofOption ((o.strings g).or (oneString f val g))
    by_cases hg : g = f
    · subst hg
      obtain ⟨s, hs⟩ := Option.ne_none_iff_exists'.mp hsome
      rw [h.strings, hs, Option.some_or]
    · rw [oneString, if_neg hg, Option.or_none, h.strings]

theorem Config.Shows.setDefaultPort (h : c.Shows o) (f : NumberField) (port : Int) :
    (c.setDefaultPort f port).Shows (o.fill (fun _ => none) (onePort f port)) := by
  have hstrings : ∀ g, c.strings g = .ofOption ((o.strings g).or none) := fun g => by
    rw [Option.or_none, h.strings]
  rw [Config.setDefaultPort]
  split_ifs with hzero
  · refine { h with strings := hstrings, numbers := funext fun g => ?_ }
    show Function.update c.numbers f port g =
      if o.numbers g = 0 then onePort f port g else o.numbers g
    by_cases hg : g = f
    · subst hg
      rw [Function.update_self, if_pos (h.numbers ▸ hzero), onePort, if_pos rfl]
    · rw [Function.update_of_ne hg, onePort, if_neg hg, h.numbers]
      split_ifs with hother
      · exact hother
      · rfl
  · refine { h with strings := hstrings, numbers := funext fun g => ?_ }
    show c.numbers g = if o.numbers g = 0 then onePort f port g else o.numbers g
    rw [h.numbers]
    split_ifs with hother
    · by_cases hg : g = f
      · subst hg
        exact absurd (h.numbers ▸ hother) hzero
      · rw [onePort, if_neg hg, hother]
    · rfl

end Fill

/-! ## The checks -/

section Checks

variable {c : Config} {o : Options} (freed : StringField → Bytes)

theorem onePort_zero (f : NumberField) : onePort f 0 = 0 := by
  funext g
  rw [onePort, ite_self]
  rfl

theorem checkSql_shows (h : c.Shows o) :
    ((∃ d, checkSql freed c = .ok d) ↔ o.SqlAccepted) ∧
      ∀ d, checkSql freed c = .ok d →
        d.Shows (o.fill (fun _ => none)
          (onePort .sqlPort (driverPort (o.strings .sqlDriver)))) := by
  rw [checkSql, h.text, Options.SqlAccepted]
  cases o.strings .sqlDriver with
  | none =>
    refine ⟨iff_of_false ?_ ?_, fun d hd => by cases hd⟩
    · rintro ⟨d, hd⟩
      cases hd
    · rintro ⟨_, hdriver, -, -⟩
      cases hdriver
  | some driver =>
    simp only [h.strings, HeapString.ofOption_null, h.lists, List.length_eq_zero_iff,
      List.contains_iff_mem]
    split_ifs with hname hhost hpostgresql hmysql hmysql
    · refine ⟨iff_of_false exists_false ?_, fun d hd => by cases hd⟩
      rintro ⟨_, -, hset, -⟩
      exact absurd hname hset
    · refine ⟨iff_of_false exists_false ?_, fun d hd => by cases hd⟩
      rintro ⟨_, hdriver, -, hneeds⟩
      obtain rfl := Option.some.inj hdriver
      exact absurd hhost.2 (hneeds hhost.1)
    all_goals
      refine ⟨iff_of_true ⟨_, rfl⟩ ⟨driver, rfl, hname, fun hin hnil => hhost ⟨hin, hnil⟩⟩, ?_⟩
      intro d hd
      obtain rfl := Except.ok.inj hd
      rw [driverPort]
    · exact absurd (hmysql.symm.trans hpostgresql) (by decide)
    · rw [if_neg (fun h => hmysql (Option.some.inj h)), if_pos (congrArg some hpostgresql)]
      exact h.setDefaultPort .sqlPort 5432
    · rw [if_pos (congrArg some hmysql)]
      exact h.setDefaultPort .sqlPort 3306
    · rw [if_neg (fun h => hmysql (Option.some.inj h)),
        if_neg (fun h => hpostgresql (Option.some.inj h)), onePort_zero, Options.fill_none]
      exact h

theorem checkLdap_shows (h : c.Shows o) :
    ((∃ d, checkLdap freed c = .ok d) ↔ o.LdapAccepted) ∧
      ∀ d, checkLdap freed c = .ok d →
        d.Shows (((o.fill (fun _ => none) (onePort .ldapPort 389)).fill (oneString .ldapBase [])
          0).fill (oneString .ldapScope (ascii "subtree")) 0) := by
  have hfilled := (h.setDefaultPort .ldapPort 389).setDefault .ldapBase []
  have hscope : ((o.fill (fun _ => none) (onePort .ldapPort 389)).fill (oneString .ldapBase [])
      0).strings .ldapScope = o.strings .ldapScope := by
    show ((o.strings .ldapScope).or none).or none = _
    rw [Option.or_none, Option.or_none]
  have hend := hfilled.setDefault .ldapScope (ascii "subtree")
  rw [checkLdap, Options.LdapAccepted, hfilled.text, hscope]
  cases hset : o.strings .ldapScope with
  | none =>
    refine ⟨iff_of_true ⟨_, rfl⟩ fun scope hs => (by cases hs), fun d hd => ?_⟩
    obtain rfl := Except.ok.inj hd
    exact hend
  | some scope =>
    -- a scope that is set stays as it is
    rw [Config.setDefault, if_neg] at hend
    · simp only [List.contains_iff_mem, ite_not]
      split_ifs with hin
      · refine ⟨iff_of_true ⟨_, rfl⟩ fun _ hs => Option.some.inj hs ▸ hin, fun d hd => ?_⟩
        obtain rfl := Except.ok.inj hd
        exact hend
      · exact ⟨iff_of_false exists_false fun hall => hin (hall scope rfl),
          fun d hd => by cases hd⟩
    · rw [hfilled.strings, hscope, hset]
      exact fun hnull => by cases hnull

theorem checkBackend_shows (h : c.Shows o) :
    ((∃ d, checkBackend freed c = .ok d) ↔
      (o.strings .backend = some (ascii "sql") → o.SqlAccepted) ∧
        (o.strings .backend = some (ascii "ldap") → o.LdapAccepted)) ∧
      ∀ d, checkBackend freed c = .ok d → d.Shows (o.fill o.backendString o.defaultPort) := by
  have hne : ascii "sql" ≠ ascii "ldap" := by decide
  by_cases hsql : o.strings .backend = some (ascii "sql")
  · have hstrings : o.backendString = fun _ => none := by
      funext f
      cases f <;> simp [Options.backendString, hsql, hne]
    have hports : o.defaultPort = onePort .sqlPort (driverPort (o.strings .sqlDriver)) := by
      funext f
      cases f <;> simp [Options.defaultPort, onePort, hsql, hne]
    obtain ⟨hiff, hshows⟩ := checkSql_shows freed h
    have hcheck : checkBackend freed c = checkSql freed c := by
      rw [checkBackend, h.text, hsql]
      dsimp only
      rw [if_pos rfl]
      cases checkSql freed c with
      | error d => rfl
      | ok d =>
        show (if ascii "sql" = ascii "ldap" then checkLdap freed d else .ok d) = .ok d
        exact if_neg hne
    rw [hcheck, hsql, hstrings, hports]
    refine ⟨hiff.trans ⟨fun hok => ⟨fun _ => hok, fun heq => ?_⟩, fun hok => hok.1 rfl⟩, hshows⟩
    exact absurd (Option.some.inj heq) hne
  by_cases hldap : o.strings .backend = some (ascii "ldap")
  · have hfill : ((o.fill (fun _ => none) (onePort .ldapPort 389)).fill (oneString .ldapBase [])
        0).fill (oneString .ldapScope (ascii "subtree")) 0 =
          o.fill o.backendString o.defaultPort := by
      rw [Options.fill_fill, Options.fill_fill]
      congr 1
      · funext f
        cases f <;> simp [Options.backendString, oneString, hldap]
      · funext f
        cases f <;> simp [Options.defaultPort, onePort, hldap, Ne.symm hne]
    obtain ⟨hiff, hshows⟩ := checkLdap_shows freed h
    rw [hfill] at hshows
    have hcheck : checkBackend freed c = checkLdap freed c := by
      rw [checkBackend, h.text, hldap]
      dsimp only
      rw [if_neg (Ne.symm hne)]
      show (if ascii "ldap" = ascii "ldap" then checkLdap freed c else .ok c) = _
      rw [if_pos rfl]
    rw [hcheck, hldap]
    refine ⟨hiff.trans ⟨fun hok => ⟨fun heq => ?_, fun _ => hok⟩, fun hok => hok.2 rfl⟩, hshows⟩
    exact absurd (Option.some.inj heq).symm hne
  · have hstrings : o.backendString = fun _ => none := by
      funext f
      cases f <;> simp [Options.backendString, hldap]
    have hports : o.defaultPort = 0 := by
      funext f
      cases f <;> simp [Options.defaultPort, hsql, hldap]
    have hcheck : checkBackend freed c = .ok c := by
      rw [checkBackend, h.text]
      cases hbackend : o.strings .backend with
      | none => rfl
      | some backend =>
        rw [hbackend] at hsql hldap
        dsimp only
        rw [if_neg fun heq => hsql (congrArg some heq)]
        exact if_neg fun heq => hldap (congrArg some heq)
    rw [hcheck, hstrings, hports, Options.fill_none]
    refine ⟨iff_of_true ⟨c, rfl⟩ ⟨fun heq => absurd heq hsql, fun heq => absurd heq hldap⟩, ?_⟩
    intro d hd
    obtain rfl := Except.ok.inj hd
    exact h

theorem checkSettings_shows (h : c.Shows o) :
    ((∃ d, checkSettings freed c = .ok d) ↔ o.Accepted) ∧
      ∀ d, checkSettings freed c = .ok d → d.Shows o.filled := by
  have hqueue := h.setDefault .queueDir (ascii "/var/spool/spmfilter")
  have hconn := hqueue.setDefault .backendConnection (ascii "failover")
  generalize hq : o.fill (oneString .queueDir (ascii "/var/spool/spmfilter")) 0 = q at hqueue hconn
  generalize hp : q.fill (oneString .backendConnection (ascii "failover")) 0 = p at hconn
  have hstrings : ∀ f, f ≠ .queueDir → f ≠ .backendConnection → p.strings f = o.strings f := by
    intro f hf hf'
    rw [← hp, q.fill_of_none _ (if_neg hf'), ← hq, o.fill_of_none _ (if_neg hf)]
  have hlists : p.lists = o.lists := by
    rw [← hp, ← hq]
    rfl
  have hfilled : (p.fill p.backendString p.defaultPort).fill (oneString .nexthopFailMsg
      (ascii "Requested action aborted: local error in processing")) 0 = o.filled := by
    have hbackend := hstrings .backend (by decide) (by decide)
    have hdriver := hstrings .sqlDriver (by decide) (by decide)
    have htexts : p.backendString = o.backendString := by
      funext f
      cases f <;> simp only [Options.backendString, hbackend]
    have hports : p.defaultPort = o.defaultPort := by
      funext f
      cases f <;> simp only [Options.defaultPort, hbackend, hdriver]
    rw [htexts, hports, ← hp, ← hq, Options.fill_fill, Options.fill_fill, Options.fill_fill,
      Options.filled]
    congr 1
    · funext f
      cases f <;> simp [Options.defaultString, Options.backendString, oneString]
    · funext f
      by_cases hport : o.defaultPort f = 0 <;> simp [hport]
  obtain ⟨hiff, hshows⟩ := checkBackend_shows freed hconn
  have hsql : p.SqlAccepted ↔ o.SqlAccepted := by
    rw [Options.SqlAccepted, Options.SqlAccepted, hstrings .sqlDriver (by decide) (by decide),
      hstrings .sqlName (by decide) (by decide), hlists]
  have hldap : p.LdapAccepted ↔ o.LdapAccepted := by
    rw [Options.LdapAccepted, Options.LdapAccepted, hstrings .ldapScope (by decide) (by decide)]
  rw [hsql, hldap, hstrings .backend (by decide) (by decide)] at hiff
  have hengine : q.strings .engine = o.strings .engine := by
    rw [← hq, o.fill_of_none _ rfl]
  have hnumbers : q.numbers = o.numbers := hq ▸ o.fill_zero _
  simp only [checkSettings, hqueue.strings, HeapString.ofOption_null, hqueue.numbers, hengine,
    hnumbers]
  split_ifs with hset hmany
  · exact ⟨iff_of_false exists_false fun hok => hok.engine hset, fun d hd => by cases hd⟩
  · exact ⟨iff_of_false exists_false fun hok => absurd hmany (not_lt.mpr hok.childs),
      fun d hd => by cases hd⟩
  · constructor
    · constructor
      · rintro ⟨d, hd⟩
        obtain ⟨e, he, -⟩ := map_eq_ok_iff.mp hd
        obtain ⟨hsql, hldap⟩ := hiff.mp ⟨e, he⟩
        exact ⟨hset, not_lt.mp hmany, hsql, hldap⟩
      · intro hok
        obtain ⟨e, he⟩ := hiff.mpr ⟨hok.sql, hok.ldap⟩
        exact ⟨_, map_eq_ok_iff.mpr ⟨e, he, rfl⟩⟩
    · intro d hd
      obtain ⟨e, he, rfl⟩ := map_eq_ok_iff.mp hd
      exact hfilled ▸ (hshows e he).setDefault _ _

end Checks

/-- **What a file means.**  A file that is read to its end, with no entry in front of the first
section and no value that a setting does not take, is let through exactly when its options are
accepted, and then the settings are its options with the defaults filled in. -/
theorem smfSettingsParseConfig_meaning (freed : StringField → Bytes) {input : Bytes}
    (hsize : input.length < DICT_LIMIT) (hsections : inSections (readLines {} input).1 = true)
    (hstop : (readLines {} input).2 = none) (htaken : ∀ w ∈ fileWrites input, w.refused = false) :
    ∃ r, smfSettingsParseConfigChecked freed input = .ok r ∧
      ((∃ d, r = .ok d) ↔ (fileOptions input).Accepted) ∧
        ∀ d, r = .ok d → d.Shows (fileOptions input).filled := by
  obtain ⟨c, hrun, hshows⟩ := shows_start.run (hasRoom_fileWrites hsize) htaken
  refine ⟨checkSettings freed c, ?_, checkSettings_shows freed hshows⟩
  rw [smfSettingsParseConfigChecked, configAfter_inSections, if_pos hsections, hrun, hstop]
  rfl

/-- The engine is set twice. -/
def twiceFile : Bytes :=
  linesFile [ascii "[global]", ascii "engine = pipe", ascii "backend = ldap", ascii "[ldap]",
    ascii "host = a, b", ascii "[global]", ascii "engine = smtpd"]

theorem smfSettingsParseConfig_meaning_twice :
    ∃ r, smfSettingsParseConfigChecked (fun _ => []) twiceFile = .ok r ∧
      ((∃ d, r = .ok d) ↔ (fileOptions twiceFile).Accepted) ∧
        ∀ d, r = .ok d → d.Shows (fileOptions twiceFile).filled := by
  have hread : readLines {} twiceFile = (_, none) :=
    readLines_linesFile (fitsLine_of_all (by decide))
  have hwrites : fileWrites twiceFile =
      [.string .engine (some (ascii "pipe")), .string .backend (some (ascii "ldap")),
        .list .ldapHost [ascii "a", ascii "b"], .string .engine (some (ascii "smtpd"))] :=
    (@fileWrites_section _ _ (ascii "global") _ hread rfl).trans rfl
  refine smfSettingsParseConfig_meaning _ (by decide)
    (@inSections_section _ _ (ascii "global") _ hread rfl) (congrArg Prod.snd hread) ?_
  rw [hwrites]
  decide

end Spmfilter
