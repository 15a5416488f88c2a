import Spmfilter.Lookup.Target
import Spmfilter.Settings.Check

/-!
# Configured backends

The lookups take their hosts as `smf_settings_parse_config` has left them.  It refuses a mysql
or postgresql backend without a host, and asks for no host or URI of an ldap backend.

* `FindsTarget` : a target can be built for the backend that is set.
* `HostsGiven` is about what the lines of a file write.
* `findsTarget_iff` : when a file that is accepted leads to a target.
-/

namespace Spmfilter

open CString

/-! ## Settings of the lookups -/

section
variable (freed : StringField → Bytes) (c : Config)

/-- The settings that `smf_lookup_sql_get_dsn` reads. -/
def Config.sqlSettings : SqlSettings where
  backendConnection := c.text freed .backendConnection
  driver := c.text freed .sqlDriver
  hosts := c.lists .sqlHost
  port := c.numbers .sqlPort
  name := c.text freed .sqlName
  user := c.text freed .sqlUser
  pass := c.text freed .sqlPass
  encoding := c.text freed .sqlEncoding

/-- The settings that `smf_lookup_ldap_get_uri` reads. -/
def Config.ldapSettings : LdapSettings where
  backendConnection := c.text freed .backendConnection
  uri := c.text freed .ldapUri
  hosts := c.lists .ldapHost
  port := c.numbers .ldapPort
  base := c.text freed .ldapBase
  binddn := c.text freed .ldapBinddn
  bindpw := c.text freed .ldapBindpw

end

/-- With an sql backend and with an ldap backend a host is found.  What memory holds where a
string was freed may have changed behind the checks, from `freed` to `freed'`. -/
structure FindsTarget (freed freed' : StringField → Bytes) (c : Config) : Prop where
  sql : c.text freed .backend = some (ascii "sql") →
    ∀ env, FindsHost (smfLookupSqlGetDsn env (c.sqlSettings freed') none)
  ldap : c.text freed .backend = some (ascii "ldap") →
    ∀ env, FindsHost (smfLookupLdapGetUri env (c.ldapSettings freed') none)

/-- A line sets the list. -/
def SetsList (f : ListField) (input : Bytes) : Prop :=
  ∃ parts, Write.list f parts ∈ fileWrites input

/-- A line sets the string to a value that is taken. -/
def SetsString (f : StringField) (input : Bytes) : Prop :=
  ∃ val, Write.string f (some val) ∈ fileWrites input

/-- The file names an ldap host or URI for an ldap backend.  Where it leaves the driver of an sql
backend freed, the checks still see a driver that needs a host, or none is needed in the end, or
the file names a host. -/
structure HostsGiven (freed freed' : StringField → Bytes) (input : Bytes) : Prop where
  sql : (fileString .backend input).text (freed .backend) = some (ascii "sql") →
    fileString .sqlDriver input = .freed →
      freed .sqlDriver ∈ hostDrivers ∨
        sameIgnoringCase (freed' .sqlDriver) (ascii "sqlite") = true ∨ SetsList .sqlHost input
  ldap : (fileString .backend input).text (freed .backend) = some (ascii "ldap") →
    SetsString .ldapUri input ∨ SetsList .ldapHost input

/-! ## What is accepted -/

/-- The settings in front of the checks and behind them. -/
structure Accepted (freed : StringField → Bytes) (input : Bytes) (c d : Config) : Prop where
  read : configAfter smfSettingsNew input = .ok c
  checked : checkSettings freed c = .ok d

theorem accepted_of_parse {freed : StringField → Bytes} {input : Bytes} {d : Config}
    (h : smfSettingsParseConfigChecked freed input = .ok (.ok d)) :
    ∃ c, Accepted freed input c d := by
  obtain ⟨c, hread, hchecked⟩ := map_eq_ok_iff.mp h
  exact ⟨c, hread, hchecked⟩

theorem text_ne_none {garbage : Bytes} {p : HeapString} : p.text garbage ≠ none ↔ p ≠ .null := by
  cases p <;> simp [HeapString.text]

/-- A driver that the file can set needs a host, or it is sqlite. -/
theorem driver_cases {val : Bytes} (h : StringField.takes .sqlDriver val = true) :
    val ∈ hostDrivers ∨ sameIgnoringCase val (ascii "sqlite") = true := by
  have htakes : val ∈ [ascii "mysql", ascii "postgresql", ascii "sqlite"] :=
    List.contains_iff_mem.mp h
  simp only [List.mem_cons, List.not_mem_nil, or_false] at htakes
  rcases htakes with rfl | rfl | rfl
  · exact .inl (by decide)
  · exact .inl (by decide)
  · exact .inr (by decide)

namespace Accepted

variable {freed freed' : StringField → Bytes} {input : Bytes} {c d : Config}

theorem defaulted (h : Accepted freed input c d) : Defaulted c d := by
  have hdefaulted := checkSettings_defaulted freed c
  rw [h.checked] at hdefaulted
  exact hdefaulted

theorem string_eq (h : Accepted freed input c d) {f : StringField} (hf : f ∉ defaultStrings) :
    d.strings f = fileString f input :=
  (h.defaulted.string_eq hf).trans (run_follow (configAfter_run h.read) f)

theorem list_ne_nil_iff (h : Accepted freed input c d) (f : ListField) :
    d.lists f ≠ [] ↔ SetsList f input := by
  rw [h.defaulted.lists]
  exact fileList_ne_nil_iff h.read f

theorem text_eq (h : Accepted freed input c d) {f : StringField} (hf : f ∉ defaultStrings)
    (freed' : StringField → Bytes) : d.text freed' f = (fileString f input).text (freed' f) := by
  rw [Config.text, h.string_eq hf]

/-- The backend has been checked in settings that differ from the last ones in defaults alone. -/
theorem backend_checked (h : Accepted freed input c d) :
    ∃ e e', Defaulted e d ∧ e.strings .backendConnection ≠ .null ∧
      checkBackend freed e = .ok e' := by
  obtain ⟨e, e', -, hconnection, hbackend, hlast⟩ := checkSettings_ok h.checked
  have hdefaulted := checkBackend_defaulted freed e
  rw [hbackend] at hdefaulted
  exact ⟨e, e', hdefaulted.trans hlast, hconnection, hbackend⟩

theorem connection_ne_none (h : Accepted freed input c d) (freed' : StringField → Bytes) :
    d.text freed' .backendConnection ≠ none := by
  obtain ⟨e, -, hdefaulted, hconnection, -⟩ := h.backend_checked
  exact text_ne_none.mpr (hdefaulted.ne_null hconnection)

theorem sql_checked (h : Accepted freed input c d)
    (hbackend : d.text freed .backend = some (ascii "sql")) :
    ∃ driver, d.text freed .sqlDriver = some driver ∧
      (driver ∈ hostDrivers → d.lists .sqlHost ≠ []) := by
  obtain ⟨e, e', hdefaulted, -, hchecked⟩ := h.backend_checked
  have htext : ∀ f ∉ defaultStrings, d.text freed f = e.text freed f := by
    intro f hf
    rw [Config.text, Config.text, hdefaulted.string_eq hf]
  rw [htext .backend (by decide)] at hbackend
  obtain ⟨e'', hsql⟩ := checkBackend_sql hchecked hbackend
  rw [htext .sqlDriver (by decide), hdefaulted.lists]
  exact checkSql_ok hsql

/-- The driver as it is when the host is chosen decides, with the list that the file has set. -/
theorem findsSql_iff (h : Accepted freed input c d)
    (hbackend : d.text freed .backend = some (ascii "sql")) (env : TargetEnv) :
    FindsHost (smfLookupSqlGetDsn env (d.sqlSettings freed') none) ↔
      (fileString .sqlDriver input = .freed →
        freed .sqlDriver ∈ hostDrivers ∨
          sameIgnoringCase (freed' .sqlDriver) (ascii "sqlite") = true ∨
            SetsList .sqlHost input) := by
  have hhosts := h.list_ne_nil_iff .sqlHost
  have hconnection : (d.sqlSettings freed').backendConnection ≠ none := h.connection_ne_none freed'
  obtain ⟨driver, hdriver, hchecked⟩ := h.sql_checked hbackend
  rw [h.text_eq (by decide)] at hdriver
  have hlater : (d.sqlSettings freed').driver =
      (fileString .sqlDriver input).text (freed' .sqlDriver) := h.text_eq (by decide) freed'
  cases hp : fileString .sqlDriver input with
  | null =>
    rw [hp] at hdriver
    cases hdriver
  | live val =>
    rw [hp] at hdriver hlater
    obtain rfl : val = driver := Option.some.inj hdriver
    rw [smfLookupSqlGetDsn_finds_iff env hlater hconnection]
    refine iff_of_true ?_ fun hfreed => by cases hfreed
    rcases driver_cases (fileString_takes hp) with hneeds | hsqlite
    · exact .inr (hchecked hneeds)
    · exact .inl hsqlite
  | freed =>
    rw [hp] at hdriver hlater
    obtain rfl : freed .sqlDriver = driver := Option.some.inj hdriver
    rw [smfLookupSqlGetDsn_finds_iff env hlater hconnection]
    show _ ∨ d.lists .sqlHost ≠ [] ↔ _
    constructor
    · rintro (hsqlite | hne) -
      · exact .inr (.inl hsqlite)
      · exact .inr (.inr (hhosts.mp hne))
    · intro hgiven
      rcases hgiven rfl with hneeds | hsqlite | hset
      · exact .inr (hchecked hneeds)
      · exact .inl hsqlite
      · exact .inr (hhosts.mpr hset)

/-- For ldap the file alone decides. -/
theorem findsLdap_iff (h : Accepted freed input c d) (env : TargetEnv) :
    FindsHost (smfLookupLdapGetUri env (d.ldapSettings freed') none) ↔
      SetsString .ldapUri input ∨ SetsList .ldapHost input := by
  have hconnection : (d.ldapSettings freed').backendConnection ≠ none := h.connection_ne_none freed'
  have huri : d.text freed' .ldapUri ≠ none ↔ SetsString .ldapUri input := by
    rw [h.text_eq (by decide), text_ne_none]
    exact fileString_ne_null_iff .ldapUri input
  rw [smfLookupLdapGetUri_finds_iff env hconnection]
  exact or_congr huri (h.list_ne_nil_iff .ldapHost)

end Accepted

/-- **When what is accepted can be used.** -/
theorem findsTarget_iff {freed freed' : StringField → Bytes} {input : Bytes} {d : Config}
    (h : smfSettingsParseConfigChecked freed input = .ok (.ok d)) :
    FindsTarget freed freed' d ↔ HostsGiven freed freed' input := by
  obtain ⟨c, hacc⟩ := accepted_of_parse h
  have hbackend : d.text freed .backend = (fileString .backend input).text (freed .backend) :=
    hacc.text_eq (by decide) freed
  constructor
  · intro hfinds
    constructor
    · intro hsql
      rw [← hbackend] at hsql
      exact (hacc.findsSql_iff hsql ⟨0, none⟩).mp (hfinds.sql hsql _)
    · intro hldap
      rw [← hbackend] at hldap
      exact (hacc.findsLdap_iff ⟨0, none⟩).mp (hfinds.ldap hldap _)
  · intro hgiven
    constructor
    · intro hsql env
      exact (hacc.findsSql_iff hsql env).mpr (hgiven.sql (hbackend ▸ hsql))
    · intro hldap env
      exact (hacc.findsLdap_iff env).mpr (hgiven.ldap (hbackend ▸ hldap))

/-- An ldap backend with no host and no URI. -/
def bareLdapFile : Bytes :=
  linesFile [ascii "[global]", ascii "engine = smtpd", ascii "backend = ldap"]

/-- An ldap backend with a URI. -/
def uriFile : Bytes :=
  linesFile [ascii "[global]", ascii "engine = smtpd", ascii "backend = ldap", ascii "[ldap]",
    ascii "uri = ldaps://a"]

theorem findsTarget_uri :
    ∃ d, smfSettingsParseConfigChecked (fun _ => []) uriFile = .ok (.ok d) ∧
      FindsTarget (fun _ => []) (fun _ => []) d := by
  have hread : readLines {} uriFile = (_, none) :=
    readLines_linesFile (fitsLine_of_all (by decide))
  have hwrites : fileWrites uriFile =
      [.string .engine (some (ascii "smtpd")), .string .backend (some (ascii "ldap")),
        .string .ldapUri (some (ascii "ldaps://a"))] :=
    (@fileWrites_section _ _ (ascii "global") _ hread rfl).trans rfl
  have hparse : ∃ d, smfSettingsParseConfigChecked (fun _ => []) uriFile = .ok (.ok d) := by
    rw [smfSettingsParseConfigChecked, @configAfter_section _ _ (ascii "global") _ _ hread rfl rfl]
    exact ⟨_, rfl⟩
  obtain ⟨d, hd⟩ := hparse
  refine ⟨d, hd, (findsTarget_iff hd).mpr ⟨fun hsql => ?_, fun _ => .inl ⟨ascii "ldaps://a", ?_⟩⟩⟩
  · rw [fileString, hwrites] at hsql
    exact absurd hsql (by decide)
  · rw [hwrites]
    decide

/-- The head of the list of hosts is NULL. -/
theorem not_findsTarget :
    ¬ ∀ (freed freed' : StringField → Bytes) (input : Bytes) (d : Config),
      smfSettingsParseConfigChecked freed input = .ok (.ok d) → FindsTarget freed freed' d := by
  intro hall
  have hread : readLines {} bareLdapFile = (_, none) :=
    readLines_linesFile (fitsLine_of_all (by decide))
  have hparse : ∃ d, smfSettingsParseConfigChecked (fun _ => []) bareLdapFile = .ok (.ok d) ∧
      d.text (fun _ => []) .backend = some (ascii "ldap") ∧
      smfLookupLdapGetUri ⟨0, none⟩ (d.ldapSettings fun _ => []) none = .error .nullHead := by
    rw [smfSettingsParseConfigChecked, @configAfter_section _ _ (ascii "global") _ _ hread rfl rfl]
    exact ⟨_, rfl, rfl, rfl⟩
  obtain ⟨d, hd, hbackend, hnull⟩ := hparse
  have hfinds := (hall (fun _ => []) (fun _ => []) bareLdapFile d hd).ldap hbackend ⟨0, none⟩
  rw [hnull] at hfinds
  exact not_findsHost_nullHead hfinds

end Spmfilter
