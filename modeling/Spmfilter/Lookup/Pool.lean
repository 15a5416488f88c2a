import Spmfilter.Lookup.Target

/-!
# The connection pool

`smf_lookup_sql_connect` starts a pool for one target after the other, and
`settings->lookup_connection` refers to the pool that has been started last.

* `ZdbPool` is a pool of libzdb with the connections that are checked out of it, and `Zdb`
  says what the calls for a target meet.
* `smfLookupSqlStartPool_eq` says what one attempt leaves.
* `sqlTargets` are the targets in the order in which they are tried.
* `smfLookupSqlConnect_first` : the pool is the one of the first target that is reachable.
-/

namespace Spmfilter

open CString

/-! ## libzdb -/

/-- A pool that has been started. -/
structure ZdbPool where
  /-- Pools are told apart by the order in which they have been created. -/
  number : Nat
  url : Bytes
  /-- The connections that are checked out. -/
  active : List Nat
  /-- How many connections have been checked out so far. -/
  handed : Nat
  fresh : ∀ c ∈ active, c < handed

def ZdbPool.new (number : Nat) (url : Bytes) : ZdbPool :=
  ⟨number, url, [], 0, List.forall_mem_nil _⟩

/-- `ConnectionPool_getConnection`, where there is one. -/
def ZdbPool.getConnection (pool : ZdbPool) : Nat × ZdbPool :=
  (pool.handed,
    { pool with
      active := pool.handed :: pool.active
      handed := pool.handed + 1
      fresh := List.forall_mem_cons.mpr
        ⟨Nat.lt_succ_self _, fun c hc => Nat.lt_succ_of_lt (pool.fresh c hc)⟩ })

/-- `Connection_close`.  It does nothing to a connection that is back in the pool. -/
def ZdbPool.close (pool : ZdbPool) (c : Nat) : ZdbPool :=
  { pool with
    active := pool.active.erase c
    fresh := fun d hd => pool.fresh d (List.mem_of_mem_erase hd) }

/-- A connection that is checked out and closed again. -/
theorem ZdbPool.close_active (pool : ZdbPool) :
    (pool.getConnection.2.close pool.getConnection.1).active = pool.active :=
  List.erase_cons_head pool.handed pool.active

/-- libzdb and the servers, by the URL of a target. -/
structure Zdb where
  /-- `ConnectionPool_new` creates a pool. -/
  creates : Bytes → Bool
  /-- The new pool has a connection. -/
  connects : Bytes → Bool
  /-- `Connection_ping` of it succeeds. -/
  pings : Bytes → Bool

/-- A connection can be obtained and answers. -/
def Zdb.reachable (zdb : Zdb) (url : Bytes) : Bool := zdb.connects url && zdb.pings url

/-! ## The functions -/

/-- The settings of the lookups, and libzdb behind them. -/
structure LookupState where
  settings : SqlSettings
  /-- `settings->lookup_connection`. -/
  lookupConnection : Option ZdbPool := none
  /-- The numbers of the pools that have not been freed. -/
  pools : List Nat := []
  /-- How many pools have been created. -/
  created : Nat := 0

/-- `smf_lookup_sql_disconnect`. -/
def smfLookupSqlDisconnect (st : LookupState) : LookupState :=
  match st.lookupConnection with
  | none => st
  | some pool => { st with lookupConnection := none, pools := st.pools.erase pool.number }

/-- A new pool in `lookup_connection`. -/
def LookupState.open (st : LookupState) (dsn : Bytes) : LookupState :=
  { st with
    lookupConnection := some (.new st.created dsn)
    pools := st.created :: st.pools
    created := st.created + 1 }

/-- `smf_lookup_sql_start_pool`; `none` is a failed assertion. -/
def smfLookupSqlStartPool (zdb : Zdb) (st : LookupState) (dsn : Option Bytes) :
    Option (Int × LookupState) :=
  match dsn with
  | none => none
  | some dsn =>
    let st := smfLookupSqlDisconnect st
    -- without a pool `smf_lookup_sql_disconnect` stops the pool NULL
    if zdb.creates dsn = false then none
    else
      if zdb.connects dsn = false then some (-1, smfLookupSqlDisconnect (st.open dsn))
      else if zdb.pings dsn = false then some (-1, smfLookupSqlDisconnect (st.open dsn))
      else
        let got := (ZdbPool.new st.created dsn).getConnection
        some (0, { st.open dsn with lookupConnection := some (got.2.close got.1) })

/-- The loop of `smf_lookup_sql_connect` over the rest of `sql_host`. -/
def failoverLoop (zdb : Zdb) (env : TargetEnv) (st : LookupState) :
    List Bytes → Option (Int × LookupState)
  | [] => some (-1, st)
  | host :: hosts => do
    let (dsn, settings) ← (smfLookupSqlGetDsn env st.settings (some host)).toOption
    let (ret, st) ← smfLookupSqlStartPool zdb { st with settings := settings } dsn
    if ret = 0 then some (0, st) else failoverLoop zdb env st hosts

/-- `smf_lookup_sql_connect`. -/
def smfLookupSqlConnect (zdb : Zdb) (env : TargetEnv) (st : LookupState) :
    Option (Int × LookupState) := do
  let (dsn, settings) ← (smfLookupSqlGetDsn env st.settings none).toOption
  let (ret, st) ← smfLookupSqlStartPool zdb { st with settings := settings } dsn
  if ret = 0 then some (0, st) else failoverLoop zdb env st st.settings.hosts

/-! ## Targets -/

/-- The target with this host. -/
def SqlSettings.target (env : TargetEnv) (s : SqlSettings) (driver host : Bytes) : Bytes :=
  driver ++ ascii "://" ++ host ++ dsnTail (s.expandName env driver) driver

section

variable {env : TargetEnv} {s : SqlSettings} {driver : Bytes}

@[simp] theorem expandName_driver : (s.expandName env driver).driver = s.driver := by
  unfold SqlSettings.expandName
  split
  · split <;> rfl
  · rfl

@[simp] theorem expandName_hosts : (s.expandName env driver).hosts = s.hosts := by
  unfold SqlSettings.expandName
  split
  · split <;> rfl
  · rfl

theorem getDsn_host (hdriver : s.driver = some driver) (host : Bytes) :
    smfLookupSqlGetDsn env s (some host) =
      .ok (some (s.target env driver host), s.expandName env driver) := by
  rw [smfLookupSqlGetDsn, hdriver]
  rfl

theorem getDsn_choose (hdriver : s.driver = some driver) {host : Bytes}
    (hchoose : chooseSqlHost env s driver = .ok host) :
    smfLookupSqlGetDsn env s none =
      .ok (some (s.target env driver host), s.expandName env driver) := by
  rw [smfLookupSqlGetDsn, hdriver]
  show (chooseSqlHost env s driver).map _ = _
  rw [hchoose]
  rfl

end

/-- The targets of these hosts, each with the name of the database as the target before it has
left it. -/
def hostTargets (env : TargetEnv) (driver : Bytes) (s : SqlSettings) : List Bytes → List Bytes
  | [] => []
  | host :: hosts =>
    s.target env driver host :: hostTargets env driver (s.expandName env driver) hosts

/-- The initial choice, and then the list of hosts. -/
def sqlTargets (env : TargetEnv) (s : SqlSettings) (driver initial : Bytes) : List Bytes :=
  s.target env driver initial :: hostTargets env driver (s.expandName env driver) s.hosts

/-! ## One attempt -/

section

variable {zdb : Zdb} {st : LookupState}

/-- The pools that have not been freed are that of `lookup_connection` and these. -/
def LookupState.Owns (st : LookupState) (others : List Nat) : Prop :=
  st.pools = (st.lookupConnection.map ZdbPool.number).toList ++ others

theorem disconnect_lookupConnection : (smfLookupSqlDisconnect st).lookupConnection = none := by
  unfold smfLookupSqlDisconnect
  cases hconnection : st.lookupConnection with
  | none => exact hconnection
  | some pool => rfl

theorem disconnect_settings : (smfLookupSqlDisconnect st).settings = st.settings := by
  unfold smfLookupSqlDisconnect
  cases st.lookupConnection with
  | none => rfl
  | some pool => rfl

/-- The pool of `lookup_connection` is taken down, and no other one. -/
theorem LookupState.Owns.disconnect {others : List Nat} (h : st.Owns others) :
    (smfLookupSqlDisconnect st).pools = others := by
  unfold LookupState.Owns at h
  unfold smfLookupSqlDisconnect
  cases hconnection : st.lookupConnection with
  | none =>
    rw [hconnection] at h
    exact h
  | some pool =>
    rw [hconnection] at h
    show st.pools.erase pool.number = others
    rw [h]
    exact List.erase_cons_head pool.number others

theorem LookupState.Owns.disconnected {others : List Nat} (h : st.Owns others) :
    (smfLookupSqlDisconnect st).Owns others := by
  rw [LookupState.Owns, disconnect_lookupConnection, h.disconnect]
  rfl

/-- A new pool is one more. -/
theorem LookupState.Owns.opened {others : List Nat} (h : st.Owns others) (dsn : Bytes) :
    ((smfLookupSqlDisconnect st).open dsn).Owns others :=
  congrArg (_ :: ·) h.disconnect

/-- What one attempt leaves: the pool before it is taken down, and its own as well when the
target is not reachable. -/
structure Attempt (zdb : Zdb) (st : LookupState) (dsn : Bytes) (ret : Int) (st' : LookupState) :
    Prop where
  ret : ret = if zdb.reachable dsn then 0 else -1
  connection : st'.lookupConnection.map ZdbPool.url =
    if zdb.reachable dsn then some dsn else none
  owns : ∀ others, st.Owns others → st'.Owns others
  settings : st'.settings = st.settings

/-- An attempt that closes its pool again. -/
theorem attempt_fails {dsn : Bytes} (hreach : zdb.reachable dsn = false) :
    Attempt zdb st dsn (-1) (smfLookupSqlDisconnect ((smfLookupSqlDisconnect st).open dsn)) where
  ret := by rw [hreach]; rfl
  connection := by rw [hreach, disconnect_lookupConnection]; rfl
  owns := fun _ h => (h.opened dsn).disconnected
  settings := disconnect_settings.trans disconnect_settings

theorem smfLookupSqlStartPool_attempt (hcreates : ∀ dsn, zdb.creates dsn = true)
    (st : LookupState) (dsn : Bytes) :
    ∃ ret st', smfLookupSqlStartPool zdb st (some dsn) = some (ret, st') ∧
      Attempt zdb st dsn ret st' := by
  rw [smfLookupSqlStartPool, if_neg (by rw [hcreates]; decide)]
  dsimp only
  cases hconnects : zdb.connects dsn with
  | false =>
    rw [if_pos rfl]
    exact ⟨_, _, rfl, attempt_fails (by rw [Zdb.reachable, hconnects, Bool.false_and])⟩
  | true =>
    rw [if_neg (by decide)]
    cases hpings : zdb.pings dsn with
    | false =>
      rw [if_pos rfl]
      exact ⟨_, _, rfl, attempt_fails (by rw [Zdb.reachable, hpings, Bool.and_false])⟩
    | true =>
      have hreach : zdb.reachable dsn = true := by rw [Zdb.reachable, hconnects, hpings]; rfl
      rw [if_neg (by decide)]
      refine ⟨_, _, rfl, ?_⟩
      exact
        { ret := by rw [hreach]; rfl
          connection := by rw [hreach]; rfl
          owns := fun _ h => h.opened dsn
          settings := disconnect_settings }

/-! ## All attempts -/

/-- The pool is the one of the first of these targets that is reachable, and no other pool has
been left. -/
structure FirstReachable (zdb : Zdb) (targets : List Bytes) (st : LookupState) (ret : Int)
    (st' : LookupState) : Prop where
  ret : ret = if targets.any zdb.reachable then 0 else -1
  connection : st'.lookupConnection.map ZdbPool.url = targets.find? zdb.reachable
  owns : ∀ others, st.Owns others → st'.Owns others

variable {dsn : Bytes} {targets : List Bytes} {ret : Int} {st' : LookupState}

/-- The first target is reachable. -/
theorem Attempt.first (h : Attempt zdb st dsn ret st') (hreach : zdb.reachable dsn = true) :
    FirstReachable zdb (dsn :: targets) st ret st' where
  ret := by rw [h.ret, List.any_cons, hreach, Bool.true_or]
  connection := by rw [h.connection, List.find?_cons, hreach]; rfl
  owns := h.owns

/-- The first target is not reachable. -/
theorem Attempt.next {ret' : Int} {st'' : LookupState} (h : Attempt zdb st dsn ret st')
    (hreach : zdb.reachable dsn = false) (hrest : FirstReachable zdb targets st' ret' st'') :
    FirstReachable zdb (dsn :: targets) st ret' st'' where
  ret := by rw [hrest.ret, List.any_cons, hreach, Bool.false_or]
  connection := by rw [hrest.connection, List.find?_cons, hreach]
  owns := fun others howns => hrest.owns others (h.owns others howns)

/-- No target is left. -/
theorem firstReachable_nil (hnone : st.lookupConnection = none) :
    FirstReachable zdb [] st (-1) st where
  ret := rfl
  connection := by rw [hnone]; rfl
  owns := fun _ h => h

variable {env : TargetEnv} {driver : Bytes} {rest : Option (Int × LookupState)}

/-- With other settings the pools are the same. -/
theorem FirstReachable.of_settings {s : SqlSettings}
    (h : FirstReachable zdb targets { st with settings := s } ret st') :
    FirstReachable zdb targets st ret st' :=
  ⟨h.ret, h.connection, h.owns⟩

theorem Attempt.lookupConnection_none (h : Attempt zdb st dsn ret st')
    (hreach : zdb.reachable dsn = false) : st'.lookupConnection = none := by
  have hconnection := h.connection
  rw [hreach] at hconnection
  exact Option.map_eq_none_iff.mp hconnection

/-- An attempt, and the rest when it has failed. -/
theorem Attempt.failover (h : Attempt zdb st dsn ret st')
    (hrest : st'.lookupConnection = none → ∃ ret' st'',
      rest = some (ret', st'') ∧ FirstReachable zdb targets st' ret' st'') :
    ∃ ret' st'', (if ret = 0 then some (0, st') else rest) = some (ret', st'') ∧
      FirstReachable zdb (dsn :: targets) st ret' st'' := by
  have hret := h.ret
  cases hreach : zdb.reachable dsn with
  | true =>
    obtain rfl : ret = 0 := by rw [hret, hreach]; rfl
    exact ⟨0, st', if_pos rfl, h.first hreach⟩
  | false =>
    have hne : ret ≠ 0 := by
      rw [hret, hreach]
      decide
    obtain ⟨ret', st'', hrun, hfirst⟩ := hrest (h.lookupConnection_none hreach)
    exact ⟨ret', st'', (if_neg hne).trans hrun, h.next hreach hfirst⟩

/-- The loop tries one host after the other. -/
theorem failoverLoop_first (env : TargetEnv) (hcreates : ∀ dsn, zdb.creates dsn = true)
    (hdriver : st.settings.driver = some driver) (hnone : st.lookupConnection = none)
    (hosts : List Bytes) :
    ∃ ret st', failoverLoop zdb env st hosts = some (ret, st') ∧
      FirstReachable zdb (hostTargets env driver st.settings hosts) st ret st' := by
  induction hosts generalizing st with
  | nil => exact ⟨_, _, rfl, firstReachable_nil hnone⟩
  | cons host hosts ih =>
    obtain ⟨ret, st₁, hrun, hattempt⟩ := smfLookupSqlStartPool_attempt hcreates
      { st with settings := st.settings.expandName env driver }
      (st.settings.target env driver host)
    have hloop : failoverLoop zdb env st (host :: hosts) =
        if ret = 0 then some (0, st₁) else failoverLoop zdb env st₁ hosts := by
      rw [failoverLoop, getDsn_host hdriver host]
      show (smfLookupSqlStartPool zdb _ _).bind _ = _
      rw [hrun]
      rfl
    have hsettings : st₁.settings = st.settings.expandName env driver := hattempt.settings
    have hdriver₁ : st₁.settings.driver = some driver := by
      rw [hsettings, expandName_driver, hdriver]
    have hrest := fun hnone₁ => ih hdriver₁ hnone₁
    rw [hsettings] at hrest
    obtain ⟨ret', st₂, hall, hfirst⟩ := hattempt.failover hrest
    exact ⟨ret', st₂, hloop.trans hall, hfirst.of_settings⟩

/-- The initial choice is tried first. -/
theorem smfLookupSqlConnect_firstReachable (hcreates : ∀ dsn, zdb.creates dsn = true)
    (hdriver : st.settings.driver = some driver) {initial : Bytes}
    (hinitial : chooseSqlHost env st.settings driver = .ok initial) :
    ∃ ret st', smfLookupSqlConnect zdb env st = some (ret, st') ∧
      FirstReachable zdb (sqlTargets env st.settings driver initial) st ret st' := by
  obtain ⟨ret, st₁, hrun, hattempt⟩ := smfLookupSqlStartPool_attempt hcreates
    { st with settings := st.settings.expandName env driver }
    (st.settings.target env driver initial)
  have hconnect : smfLookupSqlConnect zdb env st =
      if ret = 0 then some (0, st₁) else failoverLoop zdb env st₁ st₁.settings.hosts := by
    rw [smfLookupSqlConnect, getDsn_choose hdriver hinitial]
    show (smfLookupSqlStartPool zdb _ _).bind _ = _
    rw [hrun]
    rfl
  have hsettings : st₁.settings = st.settings.expandName env driver := hattempt.settings
  have hdriver₁ : st₁.settings.driver = some driver := by
    rw [hsettings, expandName_driver, hdriver]
  have hrest := fun hnone₁ => failoverLoop_first env hcreates hdriver₁ hnone₁
    st₁.settings.hosts
  obtain ⟨ret', st₂, hall, hfirst⟩ := hattempt.failover hrest
  rw [hsettings, expandName_hosts] at hfirst
  exact ⟨ret', st₂, hconnect.trans hall, hfirst.of_settings⟩

/-- **The first target that is reachable**, in the order of the initial choice and the list of
hosts: the result is `0` when there is one, and `lookup_connection` refers to its pool. -/
theorem smfLookupSqlConnect_first (hcreates : ∀ dsn, zdb.creates dsn = true)
    (hdriver : st.settings.driver = some driver) {initial : Bytes}
    (hinitial : chooseSqlHost env st.settings driver = .ok initial) :
    ∃ ret st', smfLookupSqlConnect zdb env st = some (ret, st') ∧
      (ret = 0 ∨ ret = -1) ∧
      (ret = 0 ↔ ∃ t ∈ sqlTargets env st.settings driver initial, zdb.reachable t = true) ∧
      st'.lookupConnection.map ZdbPool.url =
        (sqlTargets env st.settings driver initial).find? zdb.reachable ∧
      (ret = -1 → st'.lookupConnection = none) ∧
      ∀ others, st.Owns others → st'.Owns others := by
  obtain ⟨ret, st', hrun, hfirst⟩ := smfLookupSqlConnect_firstReachable hcreates hdriver hinitial
  have hret := hfirst.ret
  have hconnection := hfirst.connection
  refine ⟨ret, st', hrun, ?_, ?_, hconnection, ?_, hfirst.owns⟩
  · rw [hret]
    split
    · exact .inl rfl
    · exact .inr rfl
  · rw [hret, ← List.any_eq_true]
    cases (sqlTargets env st.settings driver initial).any zdb.reachable with
    | true => exact iff_of_true rfl rfl
    | false => exact iff_of_false (by decide) (by decide)
  · intro hfails
    rw [← Option.map_eq_none_iff (f := ZdbPool.url), hconnection, List.find?_eq_none]
    intro t ht hreach
    have hany := List.any_eq_true.mpr ⟨t, ht, hreach⟩
    rw [hret, hany] at hfails
    cases hfails

end

/-- A database on two hosts. -/
def twoHosts : SqlSettings where
  backendConnection := some (ascii "failover")
  driver := some (ascii "mysql")
  hosts := [ascii "a", ascii "b"]
  port := 3306
  name := some (ascii "mail")
  user := none
  pass := none
  encoding := none

/-- Only the second host answers. -/
def secondHostUp : Zdb where
  creates := fun _ => true
  connects := fun _ => true
  pings := fun url => url == ascii "mysql://b:3306/mail"

theorem smfLookupSqlConnect_second :
    ∃ ret st', smfLookupSqlConnect secondHostUp ⟨0, none⟩ { settings := twoHosts } =
        some (ret, st') ∧
      ret = 0 ∧ st'.lookupConnection.map ZdbPool.url = some (ascii "mysql://b:3306/mail") := by
  obtain ⟨ret, st', hrun, -, hret, hconnection, -⟩ :=
    @smfLookupSqlConnect_first secondHostUp { settings := twoHosts } ⟨0, none⟩ (ascii "mysql")
      (fun _ => rfl) rfl (ascii "a") (by decide)
  refine ⟨ret, st', hrun, hret.mpr ?_, hconnection.trans ?_⟩
  · exact ⟨ascii "mysql://b:3306/mail", by decide, by decide⟩
  · decide

end Spmfilter
