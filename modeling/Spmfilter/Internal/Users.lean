import Spmfilter.Lookup
import Spmfilter.Modules

/-!
# Local users

`smf_internal_fetch_user_data` asks the lookup backend for every recipient and for the
sender, and `smf_session_is_local` tells who has been found.  The record that goes with
an address is chosen by `smf_internal_get_user_result`.

* `isLocal_iff_found`: the answer is right for an address unless a lookup for it
  succeeds without a record.
* `getUserResult_iff`: the record is right unless an attribute merely contains the
  address, or no attribute does and the last record is taken for it.
-/

namespace Spmfilter

open CString

/-! ## The record of an address -/

/-- Which lookup backends are compiled in. -/
structure Build where
  haveLdap : Bool
  haveZdb : Bool

def smfInternalUserMatch (resultAttributes : List Bytes) (d : Dict) (addr : Bytes) : Bool :=
  (smfDictGetKeys d).any fun attr => resultAttributes.any fun lookupAttr =>
    lookupAttr == attr &&
      match smfDictGet attr d with
      | some value => (strstr value addr).isSome
      | none => false

/-- `smf_internal_copy_user_data`.  The result of `smf_dict_set` is not looked at. -/
def smfInternalCopyUserData (origin : Option Dict) : Dict :=
  match origin with
  | none => smfDictNew
  | some origin =>
    (smfDictGetKeys origin).foldl (fun d k =>
      match smfDictGet k origin with
      | some v => (smfDictSet k v d).getD d
      | none => d) smfDictNew

/-- The loop of `smf_internal_get_user_result`.  `d` is the entry it looked at last. -/
def userResultLoop (resultAttributes : List Bytes) (addr : Bytes) :
    Option Dict → List Dict → Option Dict
  | d, [] => d
  | _, e :: es =>
    if smfInternalUserMatch resultAttributes e addr then some e
    else userResultLoop resultAttributes addr (some e) es

def smfInternalGetUserResult (build : Build) (settings : Settings) (result : List Dict)
    (addr : Bytes) : Dict :=
  smfInternalCopyUserData <|
    if build.haveLdap then userResultLoop settings.ldapResultAttributes addr none result
    else if build.haveZdb then result.head?
    else none

/-! ## Fetching -/

/-- The lookup of `smf_internal_query_user`; `none` is NULL. -/
def userLookup (build : Build) (settings : Settings) (dir : Directory) (i : Nat)
    (addr : Bytes) : Except Int (Option (List Row)) :=
  if build.haveLdap ∧ settings.backend = some (ascii "ldap") then
    match smfCoreExpandString (settings.ldapUserQuery.getD []) addr with
    | .ok (query, _) => .ok (smfLookupLdapQuery settings dir i query)
    | .error _ => .error (-1)
  else if build.haveZdb ∧ settings.backend = some (ascii "sql") then
    match smfCoreExpandString (settings.sqlUserQuery.getD []) addr with
    | .ok (query, _) => .ok (smfLookupSqlQuery dir i query)
    | .error _ => .error (-1)
  else .ok none

def Dict.bindings (d : Dict) : List (Bytes × Bytes) :=
  (smfDictGetKeys d).filterMap fun k => (smfDictGet k d).map fun v => (k, v)

def smfInternalQueryUser (build : Build) (settings : Settings) (dir : Directory) (i : Nat)
    (addr : Bytes) (session : Session) : Int × Session :=
  if addr = [] then (0, session)
  else
    match userLookup build settings dir i addr with
    | .error ret => (ret, session)
    | .ok none => (0, session)
    | .ok (some result) =>
      let data := smfInternalGetUserResult build settings (result.map Row.dict) addr
      (0, { session with localUsers := session.localUsers ++ [⟨addr, data.bindings⟩] })

/-- The calls of `smf_internal_query_user`, whose result is only logged. -/
def queryUsers (build : Build) (settings : Settings) (dir : Directory) :
    Nat → List Bytes → Session → Session
  | _, [], session => session
  | i, addr :: addrs, session =>
    queryUsers build settings dir (i + 1) addrs
      (smfInternalQueryUser build settings dir i addr session).2

/-- Whom `smf_internal_fetch_user_data` asks for. -/
def Session.addresses (session : Session) : List Bytes :=
  session.envelope.recipients ++ session.envelope.sender.toList

/-- `smf_internal_fetch_user_data`, lookup by lookup. -/
def smfInternalFetchUserDataFrom (build : Build) (settings : Settings) (dir : Directory)
    (session : Session) : Session :=
  if settings.backend = none then session
  else if settings.backend = some (ascii "ldap") ∧ settings.ldapUserQuery = none then session
  else if settings.backend = some (ascii "sql") ∧ settings.sqlUserQuery = none then session
  else queryUsers build settings dir 0 session.addresses session

def smfSessionIsLocal (session : Session) (user : Bytes) : Int :=
  if session.localUsers.any fun d => d.email == user then 1 else 0

/-! ## Who is local -/

/-- The `i`th address is `a` and its lookup gives a list of records. -/
def Listed (build : Build) (settings : Settings) (dir : Directory) (addrs : List Bytes)
    (a : Bytes) (i : Nat) (rows : List Row) : Prop :=
  addrs[i]? = some a ∧ userLookup build settings dir i a = .ok (some rows)

/-- `a` is a non-empty recipient or sender address whose lookup succeeded and returned at
least one record. -/
def Found (build : Build) (settings : Settings) (dir : Directory) (addrs : List Bytes)
    (a : Bytes) : Prop :=
  a ≠ [] ∧ ∃ i rows, Listed build settings dir addrs a i rows ∧ rows ≠ []

section
variable {build : Build} {settings : Settings} {dir : Directory}

theorem isLocal_eq_one {session : Session} {user : Bytes} :
    smfSessionIsLocal session user = 1 ↔ ∃ d ∈ session.localUsers, d.email = user := by
  rw [smfSessionIsLocal]
  split
  · rename_i hany
    obtain ⟨d, hd, hemail⟩ := List.any_eq_true.mp hany
    exact iff_of_true rfl ⟨d, hd, beq_iff_eq.mp hemail⟩
  · rename_i hany
    refine iff_of_false (by decide) ?_
    rintro ⟨d, hd, hemail⟩
    exact hany (List.any_eq_true.mpr ⟨d, hd, beq_iff_eq.mpr hemail⟩)

/-- The record that one call appends, if it does. -/
def userRecord (build : Build) (settings : Settings) (dir : Directory) (i : Nat)
    (addr : Bytes) : Option UserData :=
  if addr = [] then none
  else
    match userLookup build settings dir i addr with
    | .ok (some result) =>
      some ⟨addr,
        (smfInternalGetUserResult build settings (result.map Row.dict) addr).bindings⟩
    | _ => none

theorem queryUser_eq (i : Nat) (addr : Bytes) (session : Session) :
    (smfInternalQueryUser build settings dir i addr session).2 =
      { session with
        localUsers := session.localUsers ++ (userRecord build settings dir i addr).toList } := by
  have hsame : session = { session with localUsers := session.localUsers ++ [] } := by
    rw [List.append_nil]
  rw [smfInternalQueryUser, userRecord]
  by_cases hempty : addr = []
  · rw [if_pos hempty, if_pos hempty]
    exact hsame
  · rw [if_neg hempty, if_neg hempty]
    cases userLookup build settings dir i addr with
    | error ret => exact hsame
    | ok result =>
      cases result with
      | none => exact hsame
      | some rows => rfl

theorem userRecord_email {i : Nat} {addr a : Bytes} :
    (∃ d ∈ userRecord build settings dir i addr, d.email = a) ↔
      addr = a ∧ a ≠ [] ∧ ∃ rows, userLookup build settings dir i a = .ok (some rows) := by
  rw [userRecord]
  split
  · rename_i hempty
    refine iff_of_false nofun ?_
    rintro ⟨rfl, hne, -⟩
    exact hne hempty
  · rename_i hne
    split
    · rename_i rows hlookup
      constructor
      · rintro ⟨d, hd, rfl⟩
        obtain rfl := Option.some.inj hd
        exact ⟨rfl, hne, rows, hlookup⟩
      · rintro ⟨rfl, -, -⟩
        exact ⟨_, rfl, rfl⟩
    · rename_i hlookup
      refine iff_of_false nofun ?_
      rintro ⟨rfl, -, rows, hrows⟩
      exact hlookup rows hrows

/-- One call lists its address where there is a list of records, and nobody else. -/
theorem queryUser_listed (i : Nat) (addr a : Bytes) (session : Session) :
    (∃ d ∈ (smfInternalQueryUser build settings dir i addr session).2.localUsers, d.email = a) ↔
      (∃ d ∈ session.localUsers, d.email = a) ∨
        (addr = a ∧ a ≠ [] ∧ ∃ rows, userLookup build settings dir i a = .ok (some rows)) := by
  rw [queryUser_eq, ← userRecord_email]
  simp only [List.mem_append, Option.mem_toList, Option.mem_def, or_and_right, exists_or]

/-- The induction over the addresses. -/
theorem queryUsers_listed (k : Nat) (addrs : List Bytes) (a : Bytes) (session : Session) :
    (∃ d ∈ (queryUsers build settings dir k addrs session).localUsers, d.email = a) ↔
      (∃ d ∈ session.localUsers, d.email = a) ∨
        (a ≠ [] ∧ ∃ i rows, addrs[i]? = some a ∧
          userLookup build settings dir (k + i) a = .ok (some rows)) := by
  induction addrs generalizing k session with
  | nil => simp [queryUsers]
  | cons addr addrs ih =>
    rw [queryUsers, ih, queryUser_listed, or_assoc]
    apply or_congr_right
    constructor
    · rintro (⟨rfl, hne, rows, hrows⟩ | ⟨hne, i, rows, hi, hrows⟩)
      · exact ⟨hne, 0, rows, rfl, hrows⟩
      · refine ⟨hne, i + 1, rows, hi, ?_⟩
        rw [← hrows]
        congr 1
        omega
    · rintro ⟨hne, i, rows, hi, hrows⟩
      cases i with
      | zero => exact Or.inl ⟨Option.some.inj hi, hne, rows, hrows⟩
      | succ i =>
        refine Or.inr ⟨hne, i, rows, hi, ?_⟩
        rw [← hrows]
        congr 1
        omega

/-- The lookup backend is one of the two, and has its user query. -/
def Settings.LookupReady (settings : Settings) : Prop :=
  settings.backend = some (ascii "ldap") ∧ settings.ldapUserQuery ≠ none ∨
    settings.backend = some (ascii "sql") ∧ settings.sqlUserQuery ≠ none

theorem Settings.LookupReady.fetch_eq (h : settings.LookupReady) (session : Session) :
    smfInternalFetchUserDataFrom build settings dir session =
      queryUsers build settings dir 0 session.addresses session := by
  have hdiffer : ascii "ldap" ≠ ascii "sql" := by decide
  rw [smfInternalFetchUserDataFrom]
  rcases h with ⟨hbackend, hquery⟩ | ⟨hbackend, hquery⟩
  · have hnot : ¬ (some (ascii "ldap") = some (ascii "sql") ∧ settings.sqlUserQuery = none) :=
      fun hboth => hdiffer (Option.some.inj hboth.1)
    rw [hbackend, if_neg (Option.some_ne_none _), if_neg fun hboth => hquery hboth.2, if_neg hnot]
  · have hnot : ¬ (some (ascii "sql") = some (ascii "ldap") ∧ settings.ldapUserQuery = none) :=
      fun hboth => hdiffer (Option.some.inj hboth.1).symm
    rw [hbackend, if_neg (Option.some_ne_none _), if_neg hnot, if_neg fun hboth => hquery hboth.2]

/-- Where the answers stay the same, the session is the one that `smf_modules_process`
goes on with. -/
theorem fetchUserDataFrom_eq (hzdb : ∀ i q, dir.zdb i q = dir.zdb 0 q)
    (hldap : ∀ i q, dir.ldap i q = dir.ldap 0 q) (session : Session) :
    smfInternalFetchUserDataFrom build settings dir session =
      smfInternalFetchUserData settings (userRecord build settings dir 0) session := by
  have hlookup : ∀ i addr, userLookup build settings dir i addr =
      userLookup build settings dir 0 addr := by
    intro i addr
    simp only [userLookup, smfLookupLdapQuery, smfLookupSqlQuery, hzdb i, hldap i]
  have hqueries : ∀ addrs i session, queryUsers build settings dir i addrs session =
      { session with
        localUsers := session.localUsers ++ addrs.filterMap (userRecord build settings dir 0) } := by
    intro addrs
    induction addrs with
    | nil =>
      intro i session
      rw [queryUsers, List.filterMap_nil, List.append_nil]
    | cons addr addrs ih =>
      intro i session
      have hrecord : userRecord build settings dir i addr =
          userRecord build settings dir 0 addr := by
        rw [userRecord, hlookup, userRecord]
      rw [queryUsers, ih, queryUser_eq, hrecord]
      cases hfound : userRecord build settings dir 0 addr with
      | none => rw [List.filterMap_cons_none hfound, Option.toList_none, List.append_nil]
      | some d =>
        rw [List.filterMap_cons_some hfound, Option.toList_some, List.append_assoc,
          List.singleton_append]
  rw [smfInternalFetchUserDataFrom, hqueries, smfInternalFetchUserData, Session.addresses]

/-- An LDAP lookup never gives an empty list. -/
theorem ldap_listed_ne_nil (hbackend : settings.backend = some (ascii "ldap"))
    {addrs : List Bytes} {a : Bytes} {i : Nat} :
    ¬ Listed build settings dir addrs a i [] := by
  have hdiffer : ascii "ldap" ≠ ascii "sql" := by decide
  rintro ⟨-, hrows⟩
  rw [userLookup, hbackend] at hrows
  split at hrows
  · split at hrows
    · exact smfLookupLdapQuery_ne_nil _ _ _ _ (Except.ok.inj hrows)
    · cases hrows
  · rw [if_neg fun hboth => hdiffer (Option.some.inj hboth.2)] at hrows
    cases hrows

/-- Local are those whose lookup has given a list, however short. -/
theorem isLocal_fetch {session : Session} (hempty : session.localUsers = [])
    (hready : settings.LookupReady) {a : Bytes} :
    smfSessionIsLocal (smfInternalFetchUserDataFrom build settings dir session) a = 1 ↔
      a ≠ [] ∧ ∃ i rows, Listed build settings dir session.addresses a i rows := by
  rw [isLocal_eq_one, hready.fetch_eq, queryUsers_listed, hempty]
  simp only [List.not_mem_nil, false_and, exists_false, false_or, Nat.zero_add, Listed]

end

/-- **Who is local.**  The answer for an address is right exactly when no lookup for it
succeeds without a record, or another one finds a record. -/
theorem isLocal_iff_found (build : Build) (settings : Settings) (dir : Directory)
    (session : Session) (hempty : session.localUsers = []) (hready : settings.LookupReady)
    (a : Bytes) :
    (smfSessionIsLocal (smfInternalFetchUserDataFrom build settings dir session) a = 1 ↔
        Found build settings dir session.addresses a) ↔
      a = [] ∨ Found build settings dir session.addresses a ∨
        ∀ i, ¬ Listed build settings dir session.addresses a i [] := by
  rw [isLocal_fetch hempty hready]
  constructor
  · intro h
    by_cases ha : a = []
    · exact Or.inl ha
    · right
      by_cases hfound : Found build settings dir session.addresses a
      · exact Or.inl hfound
      · right
        intro i hlisted
        exact hfound (h.mp ⟨ha, i, [], hlisted⟩)
  · intro h
    constructor
    · rintro ⟨ha, i, rows, hlisted⟩
      rcases h with h | h | h
      · exact absurd h ha
      · exact h
      · refine ⟨ha, i, rows, hlisted, ?_⟩
        rintro rfl
        exact h i hlisted
    · rintro ⟨ha, i, rows, hlisted, -⟩
      exact ⟨ha, i, rows, hlisted⟩

section
variable (answer : Option (List Row))

/-- Every query gets the same answer. -/
def steadyDirectory : Directory where
  zdb := fun _ _ => answer
  ldap := fun _ _ => answer
  printf := .verbatim

def sqlSettings : Settings where
  backend := some (ascii "sql")
  sqlUserQuery := some (ascii "%s")

def oneRecipient : Session where
  id := []
  envelope := { recipients := [ascii "a@b"] }

theorem userLookup_steady :
    userLookup ⟨false, true⟩ sqlSettings (steadyDirectory answer) 0 (ascii "a@b") = .ok answer := by
  rfl

theorem sqlSettings_ready : sqlSettings.LookupReady := Or.inr ⟨rfl, nofun⟩

end

/-- One recipient, whom the database does not answer for. -/
theorem isLocal_iff_found_failing :
    smfSessionIsLocal (smfInternalFetchUserDataFrom ⟨false, true⟩ sqlSettings
        (steadyDirectory none) oneRecipient) (ascii "a@b") = 1 ↔
      Found ⟨false, true⟩ sqlSettings (steadyDirectory none) oneRecipient.addresses
        (ascii "a@b") := by
  refine (isLocal_iff_found ⟨false, true⟩ sqlSettings (steadyDirectory none) oneRecipient rfl
    sqlSettings_ready (ascii "a@b")).mpr (Or.inr (Or.inr ?_))
  rintro i ⟨hi, hrows⟩
  cases i with
  | zero =>
    rw [userLookup_steady] at hrows
    cases hrows
  | succ i => cases hi

/-- The SQL query for the recipient succeeds with no row, and the recipient is local. -/
theorem isLocal_of_no_row :
    ¬ ∀ (build : Build) (settings : Settings) (dir : Directory) (session : Session),
      session.localUsers = [] → settings.LookupReady → ∀ a,
        (smfSessionIsLocal (smfInternalFetchUserDataFrom build settings dir session) a = 1 ↔
          Found build settings dir session.addresses a) := by
  intro h
  have hlocal := (h ⟨false, true⟩ sqlSettings (steadyDirectory (some [])) oneRecipient rfl
    sqlSettings_ready (ascii "a@b")).mp
      ((isLocal_fetch rfl sqlSettings_ready).mpr
        ⟨by decide, 0, [], rfl, userLookup_steady (some [])⟩)
  obtain ⟨-, i, rows, ⟨hi, hrows⟩, hne⟩ := hlocal
  cases i with
  | zero =>
    rw [userLookup_steady] at hrows
    exact hne (Option.some.inj (Except.ok.inj hrows)).symm
  | succ i => cases hi

/-! ## Whose record it is -/

section
variable {m m0 : Bytes → Option Bytes} {d origin : Dict}

/-- The induction over the keys that are copied. -/
theorem copy_keys (h : origin.Represents m) {ks : List Bytes} (hnodup : ks.Nodup)
    (hbound : ∀ k ∈ ks, m k ≠ none) (hd : d.Represents m0)
    (hroom : d.n + ks.length ≤ DICT_LIMIT) :
    (ks.foldl (fun d k =>
      match smfDictGet k origin with
      | some v => (smfDictSet k v d).getD d
      | none => d) d).Represents fun k => if k ∈ ks then m k else m0 k := by
  induction ks generalizing d m0 with
  | nil => simpa using hd
  | cons k ks ih =>
    rw [List.length_cons] at hroom
    obtain ⟨hk, hnodup⟩ := List.nodup_cons.mp hnodup
    obtain ⟨v, hv⟩ := Option.ne_none_iff_exists'.mp (hbound k List.mem_cons_self)
    obtain ⟨d', hset⟩ : ∃ d', smfDictSet k v d = some d' := hd.set_eq_some (by omega)
    obtain ⟨hd', hn⟩ := represents_set hd hset
    rw [List.foldl_cons, h.get_eq, hv]
    show (ks.foldl _ ((smfDictSet k v d).getD d)).Represents _
    rw [hset, Option.getD_some]
    have hrest := ih hnodup (fun x hx => hbound x (List.mem_cons_of_mem _ hx)) hd' (by omega)
    have hmaps : (fun x => if x ∈ ks then m x else Function.update m0 k (some v) x) =
        fun x => if x ∈ k :: ks then m x else m0 x := by
      funext x
      by_cases hx : x = k
      · subst hx
        rw [if_neg hk, Function.update_self, if_pos List.mem_cons_self, hv]
      · rw [Function.update_of_ne hx]
        simp only [List.mem_cons, hx, false_or]
    rwa [← hmaps]

/-- The copy is the same finite map. -/
theorem copy_represents (h : origin.Represents m) :
    (smfInternalCopyUserData (some origin)).Represents m := by
  obtain ⟨hnodup, hkeys⟩ := h.getKeys
  have hroom : smfDictNew.n + (smfDictGetKeys origin).length ≤ DICT_LIMIT := by
    rw [h.length_getKeys, show smfDictNew.n = 0 from rfl, Nat.zero_add]
    exact h.n_le
  have hcopy := copy_keys h hnodup (fun k hk => (hkeys k).mp hk) represents_new hroom
  have hmap : (fun k => if k ∈ smfDictGetKeys origin then m k else none) = m := by
    funext k
    split
    · rfl
    · rename_i hk
      by_contra hne
      exact hk ((hkeys k).mpr (Ne.symm hne))
  rwa [hmap] at hcopy

end

/-- A result attribute has `addr` among its values, which are separated by commas. -/
def hasAddress (resultAttributes : List Bytes) (d : Dict) (addr : Bytes) : Bool :=
  resultAttributes.any fun attr =>
    match smfDictGet attr d with
    | some value => (value.splitOn 44).contains addr
    | none => false

section
variable {attrs : List Bytes} {addr : Bytes} {d : Dict}

theorem userMatch_iff {m : Bytes → Option Bytes} (h : d.Represents m) :
    smfInternalUserMatch attrs d addr = true ↔
      ∃ attr ∈ attrs, ∃ value, smfDictGet attr d = some value ∧ addr <:+: value := by
  simp only [smfInternalUserMatch, List.any_eq_true, Bool.and_eq_true, beq_iff_eq]
  constructor
  · rintro ⟨attr, -, lookupAttr, hattr, rfl, hmatch⟩
    split at hmatch
    · rename_i value hvalue
      exact ⟨_, hattr, value, hvalue, strstr_isSome.mp hmatch⟩
    · cases hmatch
  · rintro ⟨attr, hattr, value, hvalue, hinfix⟩
    refine ⟨attr, (h.getKeys.2 attr).mpr ?_, attr, hattr, rfl, ?_⟩
    · rw [← h.get_eq, hvalue]
      exact Option.some_ne_none value
    · rw [hvalue]
      exact strstr_isSome.mpr hinfix

/-- An entry with the address among its values is one that the code takes. -/
theorem userMatch_of_hasAddress {m : Bytes → Option Bytes} (h : d.Represents m)
    (haddr : hasAddress attrs d addr = true) : smfInternalUserMatch attrs d addr = true := by
  rw [userMatch_iff h]
  obtain ⟨attr, hattr, hvalue⟩ := List.any_eq_true.mp haddr
  split at hvalue
  · rename_i value hget
    exact ⟨attr, hattr, value, hget, infix_of_mem_splitOn (by simpa using hvalue)⟩
  · cases hvalue

/-- An entry that the code takes has a value. -/
theorem value_of_userMatch {m : Bytes → Option Bytes} (h : d.Represents m)
    (hmatch : smfInternalUserMatch attrs d addr = true) :
    ∃ attr value, smfDictGet attr d = some value := by
  obtain ⟨attr, -, value, hvalue, -⟩ := (userMatch_iff h).mp hmatch
  exact ⟨attr, value, hvalue⟩

/-- Where the code takes no entry, none has the address. -/
theorem find_hasAddress_none {ds : List Dict} (hrep : ∀ d ∈ ds, ∃ m, d.Represents m)
    (hnear : (ds.find? fun d => smfInternalUserMatch attrs d addr) = none) :
    (ds.find? fun d => hasAddress attrs d addr) = none := by
  rw [List.find?_eq_none] at hnear ⊢
  intro d hd haddr
  obtain ⟨m, hm⟩ := hrep d hd
  exact hnear d hd (userMatch_of_hasAddress hm haddr)

/-- The loop stops at the first entry that matches, and otherwise at the last one. -/
theorem userResultLoop_eq (d : Option Dict) (es : List Dict) :
    userResultLoop attrs addr d es =
      ((es.find? fun e => smfInternalUserMatch attrs e addr).or es.getLast?).or d := by
  induction es generalizing d with
  | nil => rfl
  | cons e es ih =>
    rw [userResultLoop]
    cases hmatch : smfInternalUserMatch attrs e addr with
    | true =>
      rw [if_pos rfl, List.find?_cons, hmatch]
      rfl
    | false =>
      rw [if_neg Bool.false_ne_true, List.find?_cons, hmatch, ih]
      cases es.find? fun e => smfInternalUserMatch attrs e addr with
      | some e' => rfl
      | none =>
        rw [Option.none_or, Option.none_or, List.getLast?_cons]
        cases es.getLast? <;> rfl

/-- A dictionary without keys has no values. -/
theorem Dict.Represents.getKeys_eq_nil {m : Bytes → Option Bytes} (h : d.Represents m) :
    smfDictGetKeys d = [] ↔ ∀ k, smfDictGet k d = none := by
  rw [List.eq_nil_iff_forall_not_mem]
  apply forall_congr'
  intro k
  rw [h.getKeys.2, h.get_eq, not_not]

theorem smfDictGet_new (k : Bytes) : smfDictGet k smfDictNew = none :=
  represents_new.get_eq k

end

/-- **Whose record it is.**  The copy is that of the first entry with the address among its
values, and empty without one, exactly when the first entry that merely contains the
address has the same content, or no entry contains it and the last one is empty. -/
theorem getUserResult_iff (haveZdb : Bool) (settings : Settings) (rows : List Row)
    (addr : Bytes) :
    (∀ k, smfDictGet k
          (smfInternalGetUserResult ⟨true, haveZdb⟩ settings (rows.map Row.dict) addr) =
        ((rows.map Row.dict).find? fun d =>
          hasAddress settings.ldapResultAttributes d addr).bind (smfDictGet k)) ↔
      match (rows.map Row.dict).find? fun d =>
        smfInternalUserMatch settings.ldapResultAttributes d addr with
      | some near => ∃ d, ((rows.map Row.dict).find? fun d =>
          hasAddress settings.ldapResultAttributes d addr) = some d ∧
            ∀ k, smfDictGet k near = smfDictGet k d
      | none => ∀ d, (rows.map Row.dict).getLast? = some d → smfDictGetKeys d = [] := by
  have hrep : ∀ d ∈ rows.map Row.dict, ∃ m, d.Represents m := by
    intro d hd
    obtain ⟨row, -, rfl⟩ := List.mem_map.mp hd
    exact ⟨_, row.represents⟩
  have hcopy : ∀ d ∈ rows.map Row.dict, ∀ k,
      smfDictGet k (smfInternalCopyUserData (some d)) = smfDictGet k d := by
    intro d hd k
    obtain ⟨m, hm⟩ := hrep d hd
    rw [(copy_represents hm).get_eq, hm.get_eq]
  have hresult : smfInternalGetUserResult ⟨true, haveZdb⟩ settings (rows.map Row.dict) addr =
      smfInternalCopyUserData (userResultLoop settings.ldapResultAttributes addr none
        (rows.map Row.dict)) := rfl
  rw [hresult, userResultLoop_eq, Option.or_none]
  cases hnear : (rows.map Row.dict).find? fun d =>
      smfInternalUserMatch settings.ldapResultAttributes d addr with
  | some near =>
    have hmem := List.mem_of_find?_eq_some hnear
    rw [Option.some_or]
    simp only [hcopy near hmem]
    cases (rows.map Row.dict).find? fun d => hasAddress settings.ldapResultAttributes d addr with
    | some d =>
      constructor
      · exact fun h => ⟨d, rfl, h⟩
      · rintro ⟨d', hd, h⟩
        obtain rfl := Option.some.inj hd
        exact h
    | none =>
      -- a near match has a value
      refine iff_of_false ?_ nofun
      intro h
      obtain ⟨m, hm⟩ := hrep near hmem
      obtain ⟨attr, value, hvalue⟩ := value_of_userMatch hm (by simpa using List.find?_some hnear)
      rw [h attr] at hvalue
      cases hvalue
  | none =>
    rw [find_hasAddress_none hrep hnear, Option.none_or]
    cases hlast : (rows.map Row.dict).getLast? with
    | none =>
      refine iff_of_true (fun k => ?_) nofun
      exact smfDictGet_new k
    | some d =>
      have hmem := List.mem_of_getLast? hlast
      obtain ⟨m, hm⟩ := hrep d hmem
      simp only [hcopy d hmem, Option.some.injEq, forall_eq']
      exact hm.getKeys_eq_nil.symm

/-- A row of two columns. -/
def mailRow (mail uid : Bytes) : Row where
  columns := [(ascii "mail", mail), (ascii "uid", uid)]
  fits := dictOf_isSome (show 2 ≤ 134217728 by decide)

theorem get_mailRow (mail uid : Bytes) :
    smfDictGet (ascii "mail") (mailRow mail uid).dict = some mail ∧
      smfDictGet (ascii "uid") (mailRow mail uid).dict = some uid := by
  have hdiffer : ascii "mail" ≠ ascii "uid" := by decide
  have hset : lastSet ((mailRow mail uid).columns.map fun c => .set c.1 c.2) =
      Function.update (Function.update (fun _ => none) (ascii "mail") (some mail)) (ascii "uid")
        (some uid) := rfl
  rw [(mailRow mail uid).represents.get_eq, (mailRow mail uid).represents.get_eq, hset,
    Function.update_of_ne hdiffer, Function.update_self, Function.update_self]
  exact ⟨rfl, rfl⟩

/-- The record of another user is copied, whose address ends in the one looked up. -/
theorem getUserResult_other :
    ¬ ∀ (haveZdb : Bool) (settings : Settings) (rows : List Row) (addr k : Bytes),
      smfDictGet k
          (smfInternalGetUserResult ⟨true, haveZdb⟩ settings (rows.map Row.dict) addr) =
        ((rows.map Row.dict).find? fun d =>
          hasAddress settings.ldapResultAttributes d addr).bind (smfDictGet k) := by
  intro h
  obtain ⟨near, hnear⟩ : ∃ row, row = mailRow (ascii "xa@b") (ascii "1") := ⟨_, rfl⟩
  obtain ⟨exact, hexact⟩ : ∃ row, row = mailRow (ascii "a@b") (ascii "2") := ⟨_, rfl⟩
  obtain ⟨settings, hattrs⟩ : ∃ settings : Settings,
    settings.ldapResultAttributes = [ascii "mail"] := ⟨{ ldapResultAttributes := _ }, rfl⟩
  obtain ⟨rows, hrows⟩ : ∃ rows, rows = [near, exact] := ⟨_, rfl⟩
  have hiff := (getUserResult_iff true settings rows (ascii "a@b")).mp (h true settings rows _)
  have hinfix : ascii "a@b" <:+: ascii "xa@b" := ⟨ascii "x", [], by decide⟩
  have hmatch : smfInternalUserMatch [ascii "mail"] near.dict (ascii "a@b") = true := by
    rw [hnear, userMatch_iff (mailRow _ _).represents]
    exact ⟨_, List.mem_singleton_self _, _, (get_mailRow _ _).1, hinfix⟩
  have hmiss : hasAddress [ascii "mail"] near.dict (ascii "a@b") = false := by
    rw [hasAddress, List.any_cons, hnear, (get_mailRow _ _).1]
    decide
  have hhit : hasAddress [ascii "mail"] exact.dict (ascii "a@b") = true := by
    rw [hasAddress, List.any_cons, hexact, (get_mailRow _ _).1]
    decide
  rw [hrows, hattrs] at hiff
  simp only [List.map_cons, List.find?_cons, hmatch, hmiss, hhit] at hiff
  obtain ⟨d, hd, hsame⟩ := hiff
  obtain rfl := Option.some.inj hd
  have huid := hsame (ascii "uid")
  rw [hnear, hexact, (get_mailRow _ _).2, (get_mailRow _ _).2] at huid
  exact absurd huid (by decide)

end Spmfilter
