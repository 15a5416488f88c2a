import Spmfilter.Lookup.Hosts

/-!
# Connection targets

`smf_lookup_sql_get_dsn` and `smf_lookup_ldap_get_uri` write the target of a connection.
Without a host of the caller they choose one, by `backend_connection`.

* `SqlSettings` and `LdapSettings` are the settings that the two read.
* `smfLookupSqlGetDsn` also expands the name of a sqlite database in the settings.
* `smfLookupSqlGetDsn_finds_iff` and `smfLookupLdapGetUri_finds_iff` say when the choice of a
  host finds one.
-/

namespace Spmfilter

open CString

/-- `strcasecmp(a, b) == 0`. -/
def sameIgnoringCase (a b : Bytes) : Bool := a.map tolower == b.map tolower

/-- The settings that `smf_lookup_sql_get_dsn` reads. -/
structure SqlSettings where
  backendConnection : Option Bytes
  driver : Option Bytes
  hosts : List Bytes
  port : Int
  name : Option Bytes
  user : Option Bytes
  pass : Option Bytes
  encoding : Option Bytes

/-- The settings that `smf_lookup_ldap_get_uri` and `smf_lookup_ldap_bind` read. -/
structure LdapSettings where
  backendConnection : Option Bytes
  uri : Option Bytes
  hosts : List Bytes
  port : Int
  base : Option Bytes
  binddn : Option Bytes
  bindpw : Option Bytes

/-- What is outside of the settings. -/
structure TargetEnv where
  /-- The result of `rand()`. -/
  rand : Nat
  /-- `getenv("HOME")`. -/
  home : Option Bytes

/-- What `"%s"` prints. -/
def printString (s : Option Bytes) : Bytes := s.getD (ascii "(null)")

/-- `smf_list_data(smf_list_head(hosts))`. -/
def headHost {α : Type} (hosts : List α) : Except TargetFault α :=
  match hosts with
  | [] => .error .nullHead
  | e :: _ => .ok e

/-! ## SQL -/

/-- The host that `smf_lookup_sql_get_dsn` chooses itself. -/
def chooseSqlHost (env : TargetEnv) (s : SqlSettings) (driver : Bytes) :
    Except TargetFault Bytes :=
  match s.backendConnection with
  | none => .error .nullString
  | some connection =>
    if sameIgnoringCase connection (ascii "balance") ∧
        ¬ sameIgnoringCase driver (ascii "sqlite") then
      (smfLookupSqlGetRandHost env.rand s.hosts).map printString
    else if ¬ sameIgnoringCase driver (ascii "sqlite") then headHost s.hosts
    else .ok []

/-- The name of the database after `~` has been expanded, which is stored. -/
def SqlSettings.expandName (env : TargetEnv) (s : SqlSettings) (driver : Bytes) : SqlSettings :=
  match s.name with
  | some (126 :: path) =>
    if sameIgnoringCase driver (ascii "sqlite") then
      { s with name := some (printString env.home ++ path) }
    else s
  | _ => s

/-- The text behind the host. -/
def dsnTail (s : SqlSettings) (driver : Bytes) : Bytes :=
  -- `sql_port` is printed as an unsigned number
  (if s.port = 0 then [] else ascii ":" ++ formatInt (s.port % 4294967296)) ++
    (match s.name with
      | none => []
      | some name =>
        if sameIgnoringCase driver (ascii "sqlite") then name else ascii "/" ++ name) ++
    if s.user.getD [] = [] then []
    else
      ascii "?user=" ++ s.user.getD [] ++
        (if s.pass.getD [] = [] then [] else ascii "&password=" ++ s.pass.getD []) ++
        if sameIgnoringCase driver (ascii "mysql") ∧ s.encoding.getD [] ≠ [] then
          ascii "&charset=" ++ s.encoding.getD []
        else []

/-- `smf_lookup_sql_get_dsn`: the text, which is NULL without a driver, and the settings. -/
def smfLookupSqlGetDsn (env : TargetEnv) (s : SqlSettings) (host : Option Bytes) :
    Except TargetFault (Option Bytes × SqlSettings) :=
  match s.driver with
  | none => .ok (none, s)
  | some driver =>
    (host.elim (chooseSqlHost env s driver) .ok).map fun chosen =>
      let s' := s.expandName env driver
      (some (driver ++ ascii "://" ++ chosen ++ dsnTail s' driver), s')

/-! ## LDAP -/

/-- `"ldap://%s:%d"`. -/
def ldapUri (host : Bytes) (port : Int) : Bytes :=
  ascii "ldap://" ++ host ++ ascii ":" ++ formatInt port

/-- `smf_lookup_ldap_get_uri`. -/
def smfLookupLdapGetUri (env : TargetEnv) (s : LdapSettings) (host : Option Bytes) :
    Except TargetFault Bytes :=
  match host with
  | some host => .ok (ldapUri host s.port)
  | none =>
    match s.uri with
    | some uri => .ok uri
    | none =>
      match s.backendConnection with
      | none => .error .nullString
      | some connection =>
        if sameIgnoringCase connection (ascii "balance") then
          (smfLookupLdapGetRandHost env.rand s.hosts).map fun host =>
            ldapUri (printString host) s.port
        else (headHost s.hosts).map fun host => ldapUri host s.port

/-! ## Whether a host is found -/

/-- The head of a list is there when its data is taken, and no remainder of a division by zero
is computed. -/
def FindsHost {α : Type} (result : Except TargetFault α) : Prop :=
  result ≠ .error .modZero ∧ result ≠ .error .nullHead

section

variable {α β : Type}

theorem findsHost_ok (a : α) : FindsHost (.ok a : Except TargetFault α) := by
  constructor
  · intro h
    cases h
  · intro h
    cases h

theorem findsHost_map {f : α → β} {result : Except TargetFault α} :
    FindsHost (result.map f) ↔ FindsHost result := by
  cases result with
  | ok a => exact iff_of_true (findsHost_ok _) (findsHost_ok _)
  | error e =>
    show FindsHost (.error e) ↔ FindsHost (.error e)
    rw [FindsHost, FindsHost]
    simp

theorem not_findsHost_modZero : ¬ FindsHost (.error .modZero : Except TargetFault α) := fun h =>
  h.1 rfl

theorem not_findsHost_nullHead : ¬ FindsHost (.error .nullHead : Except TargetFault α) := fun h =>
  h.2 rfl

/-- Where no string is missing, there is a result where a host is found. -/
theorem isOk_iff_finds {result : Except TargetFault α} (h : result ≠ .error .nullString) :
    result.toOption ≠ none ↔ FindsHost result := by
  cases result with
  | ok a => exact iff_of_true (Option.some_ne_none a) (findsHost_ok a)
  | error e =>
    cases e with
    | modZero => exact iff_of_false (fun hne => hne rfl) not_findsHost_modZero
    | nullHead => exact iff_of_false (fun hne => hne rfl) not_findsHost_nullHead
    | nullString => exact absurd rfl h

theorem ok_ne_nullString (a : α) : (.ok a : Except TargetFault α) ≠ .error .nullString := by
  intro h
  cases h

theorem map_ne_nullString {f : α → β} {result : Except TargetFault α}
    (h : result ≠ .error .nullString) : result.map f ≠ .error .nullString := by
  cases result with
  | ok a => exact ok_ne_nullString (f a)
  | error e =>
    intro hmap
    exact h (congrArg Except.error (Except.error.inj hmap))

theorem getRandHost_ne_nullString (rand : Nat) (hosts : List α) :
    getRandHost rand hosts ≠ .error .nullString := by
  cases hosts with
  | nil =>
    intro h
    cases h
  | cons a l =>
    rw [getRandHost_cons]
    exact ok_ne_nullString _

theorem headHost_ne_nullString (hosts : List α) : headHost hosts ≠ .error .nullString := by
  cases hosts with
  | nil =>
    intro h
    cases h
  | cons a l => exact ok_ne_nullString a

/-- A random host is found in every list but the empty one. -/
theorem getRandHost_finds_iff (rand : Nat) (hosts : List α) :
    FindsHost (getRandHost rand hosts) ↔ hosts ≠ [] := by
  cases hosts with
  | nil => exact iff_of_false not_findsHost_modZero fun h => h rfl
  | cons a l =>
    rw [getRandHost_cons]
    exact iff_of_true (findsHost_ok _) (List.cons_ne_nil a l)

/-- And so is the first one. -/
theorem headHost_finds_iff (hosts : List α) : FindsHost (headHost hosts) ↔ hosts ≠ [] := by
  cases hosts with
  | nil => exact iff_of_false not_findsHost_nullHead fun h => h rfl
  | cons a l => exact iff_of_true (findsHost_ok _) (List.cons_ne_nil a l)

end

/-- The list of hosts may be empty for a sqlite database only. -/
theorem chooseSqlHost_finds_iff (env : TargetEnv) {s : SqlSettings} (driver : Bytes)
    (hconnection : s.backendConnection ≠ none) :
    FindsHost (chooseSqlHost env s driver) ↔
      sameIgnoringCase driver (ascii "sqlite") = true ∨ s.hosts ≠ [] := by
  obtain ⟨connection, hconnection⟩ := Option.ne_none_iff_exists'.mp hconnection
  rw [chooseSqlHost, hconnection]
  dsimp only
  by_cases hsqlite : sameIgnoringCase driver (ascii "sqlite") = true
  · rw [if_neg fun h => h.2 hsqlite, if_neg (not_not_intro hsqlite)]
    exact iff_of_true (findsHost_ok _) (.inl hsqlite)
  · rw [or_iff_right hsqlite]
    split
    · exact findsHost_map.trans (getRandHost_finds_iff env.rand s.hosts)
    · exact headHost_finds_iff s.hosts

theorem smfLookupSqlGetDsn_finds_iff (env : TargetEnv) {s : SqlSettings} {driver : Bytes}
    (hdriver : s.driver = some driver) (hconnection : s.backendConnection ≠ none) :
    FindsHost (smfLookupSqlGetDsn env s none) ↔
      sameIgnoringCase driver (ascii "sqlite") = true ∨ s.hosts ≠ [] := by
  rw [smfLookupSqlGetDsn, hdriver]
  exact findsHost_map.trans (chooseSqlHost_finds_iff env driver hconnection)

theorem smfLookupLdapGetUri_finds_iff (env : TargetEnv) {s : LdapSettings}
    (hconnection : s.backendConnection ≠ none) :
    FindsHost (smfLookupLdapGetUri env s none) ↔ s.uri ≠ none ∨ s.hosts ≠ [] := by
  obtain ⟨connection, hconnection⟩ := Option.ne_none_iff_exists'.mp hconnection
  rw [smfLookupLdapGetUri, hconnection]
  cases huri : s.uri with
  | some uri => exact iff_of_true (findsHost_ok _) (.inl (Option.some_ne_none uri))
  | none =>
    rw [or_iff_right fun h => h rfl]
    dsimp only
    split
    · exact findsHost_map.trans (getRandHost_finds_iff env.rand s.hosts)
    · exact findsHost_map.trans (headHost_finds_iff s.hosts)

/-- A target is written exactly where one is found. -/
theorem smfLookupLdapGetUri_isOk_iff (env : TargetEnv) {s : LdapSettings}
    (hconnection : s.backendConnection ≠ none) :
    (smfLookupLdapGetUri env s none).toOption ≠ none ↔ s.uri ≠ none ∨ s.hosts ≠ [] := by
  rw [← smfLookupLdapGetUri_finds_iff env hconnection]
  apply isOk_iff_finds
  obtain ⟨connection, hconnection⟩ := Option.ne_none_iff_exists'.mp hconnection
  rw [smfLookupLdapGetUri, hconnection]
  cases s.uri with
  | some uri => exact ok_ne_nullString uri
  | none =>
    dsimp only
    split
    · exact map_ne_nullString (getRandHost_ne_nullString env.rand s.hosts)
    · exact map_ne_nullString (headHost_ne_nullString s.hosts)

end Spmfilter
