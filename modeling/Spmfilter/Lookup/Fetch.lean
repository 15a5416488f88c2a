import Spmfilter.Lookup.Process

/-!
# Fetching users from LDAP

What `smf_internal_fetch_user_data` adds to a session when the directory can be reached.

* `connect_refines` connects `LdapProcess.connect` to `smfLookupLdapConnect`.
* `query_working` is one query over a connection that works.
* `fetchUsers_users` says which users are found, and what their records hold.
-/

namespace Spmfilter

open CString Handles

/-- The attempts from number `n` on. -/
def LdapIo.shift (io : LdapIo) (n : Nat) : LdapIo where
  initializes := fun attempt => io.initializes (n + attempt)
  binds := fun attempt => io.binds (n + attempt)

namespace LdapProcess

/-! ## Connecting -/

/-- The two models return the same, and hold the same handle. -/
def Agrees (n : Nat) (out : Option Int × LdapProcess) (out' : Option (Int × LdapState)) : Prop :=
  out.1 = out'.map Prod.fst ∧
    ∀ ret st', out' = some (ret, st') →
      out.2.lookupConnection = st'.lookupConnection.map (n + ·)

section Refines

variable {lib : LdapLibrary} {p : LdapProcess} {st : LdapState} {n k : Nat}

theorem disconnect_searches (p : LdapProcess) : p.disconnect.searches = p.searches := by
  rw [disconnect, drop]
  cases p.lookupConnection <;> rfl

theorem initLd_fields (lib : LdapLibrary) (p : LdapProcess) :
    (p.initLd lib).settings = p.settings ∧ (p.initLd lib).attempts = p.attempts + 1 ∧
      (p.initLd lib).searches = p.searches ∧
      (p.initLd lib).lookupConnection =
        if lib.io.initializes p.attempts then some p.attempts else none := by
  have hsettings := (disconnect_follows p).settings
  have hsearches := disconnect_searches p
  rw [initLd_eq]
  split_ifs
  · exact ⟨hsettings, rfl, hsearches, rfl⟩
  · exact ⟨hsettings, rfl, hsearches, disconnect_connection p⟩

theorem bind_fields (lib : LdapLibrary) (p : LdapProcess) :
    (p.bind lib).2.settings = p.settings ∧ (p.bind lib).2.attempts = p.attempts ∧
      (p.bind lib).2.searches = p.searches ∧
      (p.bind lib).2.lookupConnection = p.lookupConnection := by
  rw [LdapProcess.bind]
  cases hconn : p.lookupConnection with
  | none => exact ⟨rfl, rfl, rfl, hconn⟩
  | some ld =>
    dsimp only
    split_ifs <;> exact ⟨rfl, rfl, rfl, hconn⟩

/-- The handle that an initialisation leaves, in both models. -/
theorem initLd_connection (st : LdapState) (hattempts : p.attempts = n + k) :
    (p.initLd lib).lookupConnection =
      (smfLookupLdapInitLd (lib.io.shift n) k st).lookupConnection.map (n + ·) := by
  rw [(initLd_fields lib p).2.2.2, hattempts]
  show (if lib.io.initializes (n + k) then _ else _) =
    Option.map _ (if lib.io.initializes (n + k) then _ else _)
  split_ifs <;> rfl

theorem bind_result (st : LdapState) (hsettings : p.settings = st.settings)
    (hattempts : p.attempts = n + k) :
    ((p.initLd lib).bind lib).1 =
      smfLookupLdapBind (lib.io.shift n) k (smfLookupLdapInitLd (lib.io.shift n) k st) := by
  have hconn : (p.initLd lib).lookupConnection =
      (smfLookupLdapInitLd (lib.io.shift n) k st).lookupConnection.map (n + ·) :=
    initLd_connection st hattempts
  rw [LdapProcess.bind, smfLookupLdapBind, hconn, (initLd_fields lib p).1, hsettings,
    smfLookupLdapInitLd]
  dsimp only
  cases hinit : (lib.io.shift n).initializes k with
  | false => rfl
  | true =>
    rw [if_pos rfl, Option.map_some]
    dsimp only
    have hbinds : (lib.io.shift n).binds k = lib.io.binds (n + k) := rfl
    rw [hbinds]
    split_ifs <;> rfl

/-- One attempt of both. -/
theorem attempt_agrees (hsettings : p.settings = st.settings) (hattempts : p.attempts = n + k)
    {next : LdapProcess → Option Int × LdapProcess} {rest : Option (Int × LdapState)}
    (hnext : ∀ q : LdapProcess, q.settings = st.settings → q.attempts = n + (k + 1) →
      q.lookupConnection =
        (smfLookupLdapInitLd (lib.io.shift n) k st).lookupConnection.map (n + ·) →
      Agrees n (next q) rest) :
    Agrees n (p.attempt lib next)
      ((smfLookupLdapBind (lib.io.shift n) k
        (smfLookupLdapInitLd (lib.io.shift n) k st)).bind fun ret =>
          if ret = 0 then some (0, smfLookupLdapInitLd (lib.io.shift n) k st) else rest) := by
  obtain ⟨hset, hatt, -, -⟩ := initLd_fields lib p
  obtain ⟨hset', hatt', -, hconn'⟩ := bind_fields lib (p.initLd lib)
  have hconn := hconn'.trans (initLd_connection st hattempts)
  rw [← bind_result st hsettings hattempts, attempt]
  rcases hrun : (p.initLd lib).bind lib with ⟨_ | ret, q⟩
  · exact ⟨rfl, fun ret st' h => by cases h⟩
  rw [hrun] at hset' hatt' hconn
  dsimp only at hset' hatt' hconn ⊢
  rw [Option.bind_some]
  split_ifs
  · refine ⟨rfl, fun ret st' h => ?_⟩
    obtain ⟨-, rfl⟩ := Prod.mk.inj (Option.some.inj h)
    exact hconn
  · refine hnext q (hset'.trans (hset.trans hsettings)) ?_ hconn
    rw [hatt', hatt, hattempts, Nat.add_assoc]

theorem hostLoop_agrees (hosts : List Bytes) (hsettings : p.settings = st.settings)
    (hattempts : p.attempts = n + k)
    (hconn : p.lookupConnection = st.lookupConnection.map (n + ·)) :
    Agrees n (p.hostLoop lib hosts)
      (bindLoop (lib.io.shift n) lib.targets k st hosts) := by
  induction hosts generalizing p st k with
  | nil =>
    refine ⟨rfl, fun ret st' h => ?_⟩
    obtain ⟨-, rfl⟩ := Prod.mk.inj (Option.some.inj h)
    exact hconn
  | cons host hosts ih =>
    exact attempt_agrees hsettings hattempts fun q hset hatt hq => ih hset hatt hq

/-- **`smf_lookup_ldap_connect` in a process** returns what it returns on its own, and leaves the
same handle. -/
theorem connect_refines (hsettings : p.settings = st.settings)
    (hconnection : st.settings.backendConnection ≠ none) :
    Agrees p.attempts (p.connect lib)
      (smfLookupLdapConnect (lib.io.shift p.attempts) lib.targets st) := by
  rw [connect, hsettings, if_neg hconnection, smfLookupLdapConnect, if_neg hconnection]
  cases smfLookupLdapGetUri lib.targets st.settings none with
  | error e => exact ⟨rfl, fun ret st' h => by cases h⟩
  | ok uri =>
    exact attempt_agrees hsettings rfl fun q hset hatt hq =>
      hostLoop_agrees st.settings.hosts hset hatt hq

end Refines

/-! ## A connection that works -/

/-- The directory can be reached: there is a target, and every attempt initialises and binds. -/
structure Working (lib : LdapLibrary) (s : LdapSettings) : Prop where
  connection : s.backendConnection ≠ none
  target : s.uri ≠ none ∨ s.hosts ≠ []
  binds : ∀ n, AttemptBinds lib.io s n

section Working

variable {lib : LdapLibrary} {p : LdapProcess} {build : Build} {settings : Settings}

theorem connect_working (h : Working lib p.settings) :
    ∃ q, p.connect lib = (some 0, q) ∧ q.settings = p.settings ∧ q.searches = p.searches ∧
      q.lookupConnection = some p.attempts := by
  have huri := (smfLookupLdapGetUri_isOk_iff lib.targets h.connection).mpr h.target
  obtain ⟨hinit, hbind⟩ := h.binds p.attempts
  have hbound : ((p.initLd lib).bind lib).1 = some 0 := by
    rw [@bind_result lib p p.attempts 0 ⟨p.settings, none⟩ rfl rfl]
    exact bind_init_binds ⟨hinit, hbind⟩
  obtain ⟨hset, -, hsearches, hconn⟩ := initLd_fields lib p
  obtain ⟨hset', -, hsearches', hconn'⟩ := bind_fields lib (p.initLd lib)
  refine ⟨((p.initLd lib).bind lib).2, ?_, hset'.trans hset, hsearches'.trans hsearches, ?_⟩
  · rw [connect, if_neg h.connection]
    cases hok : smfLookupLdapGetUri lib.targets p.settings none with
    | error e =>
      rw [hok] at huri
      exact absurd rfl huri
    | ok uri =>
      dsimp only
      rw [attempt]
      rcases hrun : (p.initLd lib).bind lib with ⟨_ | ret, q⟩
      · rw [hrun] at hbound
        cases hbound
      · rw [hrun] at hbound
        obtain rfl := Option.some.inj hbound
        rfl
  · rw [hconn', hconn, hinit]
    rfl

theorem getConnection_working (h : Working lib p.settings) :
    ∃ ld q, p.getConnection lib = (some (some ld), q) ∧ q.settings = p.settings ∧
      q.searches = p.searches := by
  rw [getConnection]
  cases hconn : p.lookupConnection with
  | some ld => exact ⟨ld, p, rfl, rfl, rfl⟩
  | none =>
    obtain ⟨q, hconnect, hset, hsearches, hq⟩ := connect_working h
    rw [hconnect]
    dsimp only
    rw [if_neg (not_not_intro rfl), hq]
    exact ⟨_, q, rfl, hset, hsearches⟩

theorem release_fields (p : LdapProcess) :
    p.release.settings = p.settings ∧ p.release.searches = p.searches := by
  rw [release]
  split_ifs
  · exact ⟨(disconnect_follows p).settings, disconnect_searches p⟩
  · exact ⟨rfl, rfl⟩

/-- A query over a connection that works gives the entries of its search. -/
theorem query_working (h : Working lib p.settings) {text : Bytes} (htext : text ≠ []) :
    ∃ q, p.query lib text = (some
        (if lib.answers p.searches text = [] then none
        else some ((lib.answers p.searches text).map entryDict)), q) ∧
      q.settings = p.settings ∧ q.searches = p.searches + 1 := by
  obtain ⟨ld, q, hget, hset, hsearches⟩ := getConnection_working h
  rw [LdapProcess.query, if_neg (h.binds 0).2.1.1, hget]
  dsimp only
  rw [if_neg htext, hsearches]
  split_ifs
  · refine ⟨_, rfl, ?_⟩
    obtain ⟨hset', hsearches'⟩ := release_fields
      { q.call [.search ld text] with searches := p.searches + 1 }
    exact ⟨hset'.trans hset, hsearches'⟩
  · refine ⟨_, rfl, ?_⟩
    obtain ⟨hset', hsearches'⟩ := release_fields
      (({ q.call [.search ld text] with searches := p.searches + 1 } : LdapProcess).call
        ((lib.answers p.searches text).map fun _ => .read ld))
    exact ⟨hset'.trans hset, hsearches'⟩

/-- An empty query makes no search. -/
theorem query_empty (h : Working lib p.settings) :
    ∃ q, p.query lib [] = (some none, q) ∧ q.settings = p.settings ∧ q.searches = p.searches := by
  obtain ⟨ld, q, hget, hset, hsearches⟩ := getConnection_working h
  rw [LdapProcess.query, if_neg (h.binds 0).2.1.1, hget]
  exact ⟨q, rfl, hset, hsearches⟩

/-- The query of the abstract directory, whose rows are the entries of the search. -/
theorem query_lookup (h : Working lib p.settings) (hbase : settings.ldapBase ≠ none)
    {dir : Directory} {i : Nat} {text : Bytes}
    (hdir : dir.ldap i text = some ((lib.answers p.searches text).map LdapEntry.row)) :
    (p.query lib text).1 =
      some ((smfLookupLdapQuery settings dir i text).map fun rows => rows.map Row.dict) := by
  rw [smfLookupLdapQuery, if_neg hbase]
  by_cases htext : text = []
  · obtain ⟨q, hrun, -⟩ := query_empty h
    rw [if_pos htext, htext, hrun]
    rfl
  · obtain ⟨q, hrun, -⟩ := query_working h htext
    rw [if_neg htext, hrun, hdir, Option.bind_some]
    by_cases hentries : lib.answers p.searches text = []
    · rw [if_pos hentries, if_pos (List.map_eq_nil_iff.mpr hentries)]
      rfl
    · rw [if_neg hentries, if_neg (mt List.map_eq_nil_iff.mp hentries), Option.map_some,
        List.map_map]
      refine congrArg (fun dicts => some (some dicts)) ?_
      exact List.map_congr_left fun entry _ => entryDict_eq entry

/-! ## The users of a session -/

/-- The query for an address, if one is made. -/
def userQuery (settings : Settings) (addr : Bytes) : Option Bytes :=
  if addr = [] then none
  else
    match smfCoreExpandString (settings.ldapUserQuery.getD []) addr with
    | .ok (text, _) => if text = [] then none else some text
    | .error _ => none

/-- The addresses that are asked for, each with its query. -/
def asked (settings : Settings) (addrs : List Bytes) : List (Bytes × Bytes) :=
  addrs.filterMap fun addr => (userQuery settings addr).map fun text => (addr, text)

/-- The addresses that the directory has entries for.  The answers are numbered from `n` on. -/
def found (lib : LdapLibrary) (n : Nat) (asked : List (Bytes × Bytes)) :
    List (Bytes × List LdapEntry) :=
  (asked.mapIdx fun i a => (a.1, lib.answers (n + i) a.2)).filter fun f => f.2 ≠ []

/-- What is stored for an address. -/
def userEntry (build : Build) (settings : Settings) (f : Bytes × List LdapEntry) : UserData :=
  ⟨f.1, (smfInternalGetUserResult build settings (f.2.map entryDict) f.1).bindings⟩

theorem found_cons (lib : LdapLibrary) (n : Nat) (a : Bytes × Bytes)
    (asked : List (Bytes × Bytes)) :
    found lib n (a :: asked) =
      (if lib.answers n a.2 = [] then [] else [(a.1, lib.answers n a.2)]) ++
        found lib (n + 1) asked := by
  rw [found, List.mapIdx_cons, found]
  simp only [Nat.add_zero, Nat.add_assoc, Nat.add_comm 1]
  split_ifs with hnone
  · rw [List.filter_cons_of_neg (by simpa using hnone)]
    rfl
  · rw [List.filter_cons_of_pos (by simpa using hnone)]
    rfl

theorem found_ne_nil {lib : LdapLibrary} {n : Nat} {addrs : List Bytes}
    {f : Bytes × List LdapEntry} (hf : f ∈ found lib n (asked settings addrs)) : f.1 ≠ [] := by
  obtain ⟨i, hi, rfl⟩ := List.mem_mapIdx.mp (List.mem_filter.mp hf).1
  obtain ⟨addr, -, hasked⟩ := List.mem_filterMap.mp (List.getElem_mem hi)
  obtain ⟨text, hquery, hpair⟩ := Option.map_eq_some_iff.mp hasked
  rw [← hpair]
  intro (hnil : addr = [])
  rw [userQuery, if_pos hnil] at hquery
  cases hquery

theorem found_append (lib : LdapLibrary) (n : Nat) (front back : List (Bytes × Bytes)) :
    found lib n (front ++ back) = found lib n front ++ found lib (n + front.length) back := by
  induction front generalizing n with
  | nil => rfl
  | cons a front ih =>
    rw [List.cons_append, found_cons, found_cons, ih, List.append_assoc, List.length_cons,
      Nat.add_right_comm, Nat.add_assoc]

/-- The session after some users have been found. -/
def withUsers (build : Build) (settings : Settings) (session : Session)
    (users : List (Bytes × List LdapEntry)) : Session :=
  { session with localUsers := session.localUsers ++ users.map (userEntry build settings) }

theorem withUsers_nil (session : Session) : withUsers build settings session [] = session := by
  rw [withUsers, List.map_nil, List.append_nil]

theorem withUsers_append (session : Session) (front back : List (Bytes × List LdapEntry)) :
    withUsers build settings (withUsers build settings session front) back =
      withUsers build settings session (front ++ back) := by
  rw [withUsers, withUsers, withUsers, List.map_append, List.append_assoc]

/-- One address. -/
theorem queryUser_found (build : Build) (settings : Settings) (h : Working lib p.settings)
    (session : Session) (addr : Bytes) :
    ∃ q, p.queryUser lib build settings session addr =
        (some (withUsers build settings session
          (found lib p.searches (asked settings [addr]))), q) ∧
      q.settings = p.settings ∧ q.searches = p.searches + (asked settings [addr]).length := by
  have hnone : userQuery settings addr = none → asked settings [addr] = [] := by
    intro hquery
    rw [asked, List.filterMap_cons, hquery]
    rfl
  have hnobody : ∀ out : Option Session × LdapProcess,
      userQuery settings addr = none → (∃ q, out = (some session, q) ∧ q.settings = p.settings ∧
        q.searches = p.searches) →
      ∃ q, out = (some (withUsers build settings session
          (found lib p.searches (asked settings [addr]))), q) ∧
        q.settings = p.settings ∧ q.searches = p.searches + (asked settings [addr]).length := by
    rintro out hquery ⟨q, rfl, hset, hsearches⟩
    rw [hnone hquery]
    exact ⟨q, by rw [found, List.mapIdx_nil, List.filter_nil, withUsers_nil], hset, hsearches⟩
  rw [queryUser]
  by_cases haddr : addr = []
  · rw [if_pos haddr]
    exact hnobody _ (if_pos haddr) ⟨p, rfl, rfl, rfl⟩
  rw [if_neg haddr]
  cases hexpand : smfCoreExpandString (settings.ldapUserQuery.getD []) addr with
  | error e =>
    refine hnobody _ ?_ ⟨p, rfl, rfl, rfl⟩
    rw [userQuery, if_neg haddr, hexpand]
  | ok out =>
    obtain ⟨text, rep⟩ := out
    have hquery : userQuery settings addr = if text = [] then none else some text := by
      rw [userQuery, if_neg haddr, hexpand]
    dsimp only
    by_cases htext : text = []
    · obtain ⟨q, hrun, hset, hsearches⟩ := query_empty h
      rw [htext, hrun]
      exact hnobody _ (hquery.trans (if_pos htext)) ⟨q, rfl, hset, hsearches⟩
    · obtain ⟨q, hrun, hset, hsearches⟩ := query_working h htext
      have hasked : asked settings [addr] = [(addr, text)] := by
        rw [asked, List.filterMap_cons, hquery, if_neg htext]
        rfl
      rw [hrun, hasked, found_cons]
      refine ⟨q, ?_, hset, hsearches⟩
      by_cases hentries : lib.answers p.searches text = []
      · rw [if_pos hentries, if_pos hentries]
        exact Prod.ext (congrArg some (withUsers_nil session).symm) rfl
      · rw [if_neg hentries, if_neg hentries]
        rfl

/-- The induction over the addresses. -/
theorem queryUsers_found (build : Build) (settings : Settings) (h : Working lib p.settings)
    (session : Session) (addrs : List Bytes) :
    ∃ q, p.queryUsers lib build settings session addrs =
      (some (withUsers build settings session
        (found lib p.searches (asked settings addrs))), q) := by
  induction addrs generalizing p session with
  | nil => exact ⟨p, Prod.ext (congrArg some (withUsers_nil session).symm) rfl⟩
  | cons addr addrs ih =>
    obtain ⟨q, hrun, hset, hsearches⟩ := queryUser_found build settings h session addr
    obtain ⟨q', hrest⟩ := @ih q (hset ▸ h) (withUsers build settings session
      (found lib p.searches (asked settings [addr])))
    have hasked : asked settings (addr :: addrs) = asked settings [addr] ++ asked settings addrs :=
      List.filterMap_append (l := [addr])
    refine ⟨q', ?_⟩
    rw [queryUsers, hrun, hasked, found_append, ← hsearches, ← withUsers_append]
    exact hrest

/-- **The users that are fetched from LDAP.**  When the directory can be reached, the session gets
a record for each address, in order, that there is a query for and entries to.  The record of an
address without a comma holds what the first entry holds that has the address in a value of a
result attribute, or else the last entry. -/
theorem fetchUsers_users (h : Working lib p.settings) (hldap : build.haveLdap = true)
    (hquery : settings.ldapUserQuery ≠ none) (session : Session) :
    ∃ users q, p.fetchUsers lib build settings session =
        (some { session with localUsers := session.localUsers ++ users }, q) ∧
      List.Forall₂ (fun f user => user.email = f.1 ∧
          (44 ∉ f.1 → ∀ k v, (k, v) ∈ user.data ↔
            ∃ entry, chosenEntry settings.ldapResultAttributes f.1 f.2 = some entry ∧
              (entry.values k).map joined = some v))
        (found lib p.searches (asked settings session.addresses)) users := by
  obtain ⟨q, hrun⟩ := queryUsers_found build settings h session session.addresses
  refine ⟨_, q, (if_neg hquery).trans hrun, ?_⟩
  rw [List.forall₂_map_right_iff, List.forall₂_same]
  intro f hf
  refine ⟨rfl, fun hcomma k v => ?_⟩
  obtain ⟨haveLdap, haveZdb⟩ := build
  obtain rfl : haveLdap = true := hldap
  exact userResult_entries (found_ne_nil hf) hcomma haveZdb settings f.2 k v

end Working

/-! Two entries, of which the second has the address. -/

def mailEntry (mail uid : Bytes) : LdapEntry where
  attributes := [⟨ascii "mail", [ascii "x@b", mail]⟩, ⟨ascii "uid", [uid]⟩]
  few := show 2 ≤ 134217728 by decide

def twoEntries : LdapLibrary where
  io := ⟨fun _ => true, fun _ => true⟩
  targets := ⟨0, none⟩
  answers := fun _ _ => [mailEntry (ascii "c@d") (ascii "1"), mailEntry (ascii "a@b") (ascii "2")]

def mailSettings : Settings where
  backend := some (ascii "ldap")
  ldapUserQuery := some (ascii "(mail=%s)")
  ldapResultAttributes := [ascii "mail"]

theorem fetchUsers_users_second :
    ∃ users q, LdapProcess.fetchUsers twoEntries ⟨true, false⟩ mailSettings
        { settings := twoServers.settings, persistent := 0 } oneRecipient =
        (some { oneRecipient with localUsers := oneRecipient.localUsers ++ users }, q) ∧
      List.Forall₂ (fun f user => user.email = f.1 ∧
          (44 ∉ f.1 → ∀ k v, (k, v) ∈ user.data ↔
            ∃ entry, chosenEntry mailSettings.ldapResultAttributes f.1 f.2 = some entry ∧
              (entry.values k).map joined = some v))
        (found twoEntries 0 (asked mailSettings oneRecipient.addresses)) users :=
  fetchUsers_users ⟨by decide, .inr (by decide),
    fun _ => ⟨rfl, ⟨by decide, by decide, by decide⟩, rfl⟩⟩ rfl (by decide) oneRecipient

end LdapProcess

end Spmfilter
