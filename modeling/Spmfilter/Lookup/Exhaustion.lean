import Spmfilter.Lib.Permits
import Spmfilter.Lookup.Query

/-!
# The queries of a process

A process makes one query after another, and the pool has `sql_max_connections`.  What a query
leaves checked out is missing in the queries behind it.

* `SqlCall.event` says what a query does with a connection, and the pool is a number of permits.
* `smfLookupSqlQueryIo_permits` is one query, and `sqlQueries_permits` all of them.
* `sqlQueries_exhausts` : when a process ends at `assert(c)`.
-/

namespace Spmfilter

open CString

/-! ## Getting a connection -/

section

variable {tries : Nat → Option Bool} {pool : ZdbPool}

instance (tries : Nat → Option Bool) (i left : Nat) : Decidable (Answers tries i left) :=
  inferInstanceAs (Decidable (∃ j, j < left ∧ tries (i + j) = some true))

/-- There is no result where no try gives a connection that answers, and the last one gives
none at all. -/
theorem sqlGetConnectionLoop_eq_none (left i : Nat) (c₀ : Option Nat) :
    (sqlGetConnectionLoop tries (left + 1) i c₀ pool).1 = none ↔
      ¬ Answers tries i (left + 1) ∧ tries (i + left) = none := by
  induction left generalizing i c₀ pool with
  | zero =>
    have hnever : ¬ Answers tries (i + 1) 0 := by
      rintro ⟨j, hj, -⟩
      exact Nat.not_lt_zero j hj
    rw [answers_succ, sqlGetConnectionLoop]
    cases tries i with
    | none => simp [sqlGetConnectionLoop, hnever]
    | some answers => cases answers <;> simp [sqlGetConnectionLoop]
  | succ left ih =>
    have hlast : i + (left + 1) = i + 1 + left := by omega
    rw [answers_succ, sqlGetConnectionLoop, hlast]
    cases tries i with
    | none => simp [ih]
    | some answers => cases answers <;> simp [ih]

theorem sqlGetConnection_eq_none :
    sqlGetConnection tries pool = none ↔
      ¬ Answers tries 0 SQL_TRIES ∧ tries (SQL_TRIES - 1) = none :=
  Option.map_eq_none_iff.trans (sqlGetConnectionLoop_eq_none 29 0 none)

end

/-! ## One query -/

/-- One query of a process, and what it meets. -/
structure SqlCall where
  io : SqlQueryIo
  zdb : Zdb
  env : TargetEnv
  q : Bytes

/-- A pool with `max` connections gives none out where they are all checked out. -/
def SqlQueryIo.within (io : SqlQueryIo) (max : Nat) (st : LookupState) : SqlQueryIo :=
  { io with tries := fun i => if st.checkedOut.length < max then io.tries i else none }

/-- The query, on a pool with `max` connections; `none` is a failed assertion. -/
def SqlCall.make (persistent : Int) (max : Nat) (st : LookupState) (call : SqlCall) :
    Option LookupState :=
  (smfLookupSqlQueryIo (call.io.within max st) call.zdb call.env persistent st call.q).map
    Prod.snd

/-- The queries of a process. -/
def sqlQueries (persistent : Int) (max : Nat) (st : LookupState) (calls : List SqlCall) :
    Option LookupState :=
  calls.foldlM (SqlCall.make persistent max) st

section

variable {io : SqlQueryIo} {persistent : Int} {st st' : LookupState} {pool : ZdbPool} {c max : Nat}
  {query : Bytes} {result : Option (List Row)}

theorem queryFails_iff :
    QueryFails io query ↔ (io.execute query).bind (appendRows io.appendFails 0 []) = none := by
  unfold QueryFails
  cases io.execute query with
  | none => simp
  | some rows => simp [appendRows_eq_none_iff]

instance (io : SqlQueryIo) (query : Bytes) : Decidable (QueryFails io query) :=
  decidable_of_iff _ queryFails_iff.symm

/-- What the part behind the connect does with a connection. -/
def SqlQueryIo.event (io : SqlQueryIo) (persistent : Int) (query : Bytes) : Permits.Event :=
  if ¬ Answers io.tries 0 SQL_TRIES ∧ io.tries (SQL_TRIES - 1) = none then .fails
  else if QueryFails io query then
    -- a connection that does not answer has been closed, and is used all the same
    if Answers io.tries 0 SQL_TRIES then .keeps else .returns
  else if persistent ≠ 1 then .renews
  else .returns

/-- What a query leaves checked out. -/
theorem runQuery_left (io : SqlQueryIo) (persistent : Int) (st : LookupState) (c : Nat)
    (pool : ZdbPool) (query : Bytes) :
    (runQuery io persistent st c pool query).2.checkedOut =
      if QueryFails io query then pool.active
      else if persistent ≠ 1 then [] else pool.active.erase c := by
  have hfails := @queryFails_iff io query
  unfold runQuery
  cases hexecute : io.execute query with
  | none => exact (if_pos (hfails.mpr (by rw [hexecute]; rfl))).symm
  | some rows =>
    rw [hexecute] at hfails
    dsimp only [Option.bind_some] at hfails ⊢
    cases happend : appendRows io.appendFails 0 [] rows with
    | none => exact (if_pos (hfails.mpr happend)).symm
    | some result =>
      have hdone : ¬ QueryFails io query := by
        rw [hfails, happend]
        exact Option.some_ne_none result
      rw [if_neg hdone]
      by_cases hpersistent : persistent ≠ 1
      · rw [if_pos hpersistent]
        dsimp only
        rw [if_pos hpersistent]
        exact checkedOut_disconnect
      · rw [if_neg hpersistent]
        dsimp only
        rw [if_neg hpersistent]
        rfl

/-- The settings stay as they are. -/
theorem queryConnected_settings (h : queryConnected io persistent st query = some (result, st')) :
    st'.settings = st.settings := by
  unfold queryConnected at h
  cases hconnection : st.lookupConnection with
  | none =>
    rw [hconnection] at h
    cases h
  | some pool =>
    rw [hconnection] at h
    dsimp only at h
    by_cases hlist : io.listFails = true
    · rw [if_pos hlist] at h
      obtain ⟨-, rfl⟩ := Prod.mk.inj (Option.some.inj h)
      rfl
    · rw [if_neg hlist] at h
      obtain ⟨⟨c, pool'⟩, -, hrun⟩ := Option.map_eq_some_iff.mp h
      obtain rfl : (runQuery io persistent st c pool' query).2 = st' := congrArg Prod.snd hrun
      unfold runQuery
      cases io.execute query with
      | none => rfl
      | some rows =>
        dsimp only
        cases appendRows io.appendFails 0 [] rows with
        | none => rfl
        | some result =>
          dsimp only
          split
          · exact disconnect_settings
          · rfl

/-- Where all connections are checked out, no try gives one. -/
theorem sqlGetConnection_exhausted (hmax : max ≤ st.checkedOut.length) :
    sqlGetConnection (io.within max st).tries pool = none := by
  have hnone : ∀ i, (io.within max st).tries i = none := fun i => if_neg (Nat.not_lt_of_le hmax)
  rw [sqlGetConnection_eq_none]
  refine ⟨?_, hnone _⟩
  rintro ⟨j, -, hj⟩
  rw [hnone] at hj
  cases hj

/-- The part behind the connect, on a connection that has been got. -/
theorem runQuery_permits {pool' : ZdbPool}
    (hgot : sqlGetConnection io.tries pool = some (c, pool')) :
    (runQuery io persistent st c pool' query).2.checkedOut.length =
      Permits.after pool.active.length (io.event persistent query) := by
  have hsome : ¬ (¬ Answers io.tries 0 SQL_TRIES ∧ io.tries (SQL_TRIES - 1) = none) := by
    rw [← @sqlGetConnection_eq_none io.tries pool, hgot]
    exact Option.some_ne_none _
  rw [runQuery_left, SqlQueryIo.event, if_neg hsome]
  rcases sqlGetConnection_active hgot with ⟨hanswers, hactive⟩ | ⟨hnot, hactive, hback⟩
  · by_cases hfails : QueryFails io query
    · rw [if_pos hfails, if_pos hfails, if_pos hanswers, hactive]
      rfl
    · rw [if_neg hfails, if_neg hfails, hactive, List.erase_cons_head]
      split <;> rfl
  · by_cases hfails : QueryFails io query
    · rw [if_pos hfails, if_pos hfails, if_neg hnot, hactive]
      rfl
    · rw [if_neg hfails, if_neg hfails, hactive, List.erase_of_not_mem hback]
      split <;> rfl

theorem event_eq_fails :
    io.event persistent query = .fails ↔ sqlGetConnection io.tries pool = none := by
  rw [sqlGetConnection_eq_none, SqlQueryIo.event]
  split_ifs with hnone <;> simp [hnone]

theorem event_ne_skips : io.event persistent query ≠ .skips := by
  unfold SqlQueryIo.event
  split_ifs <;> simp

/-- The part behind the connect takes a permit. -/
theorem queryConnected_permits (hconnection : st'.lookupConnection = some pool)
    (hlist : io.listFails = false) (hout : st'.checkedOut.length = st.checkedOut.length) :
    (queryConnected (io.within max st) persistent st' query).map
        (fun got => got.2.checkedOut.length) =
      Permits.step max st.checkedOut.length (io.event persistent query) := by
  have hpool : st'.checkedOut = pool.active := by rw [LookupState.checkedOut, hconnection]; rfl
  have hlist' : ¬ (io.within max st).listFails = true := Bool.eq_false_iff.mp hlist
  have hrefused : Permits.Refused max st.checkedOut.length (io.event persistent query) ↔
      sqlGetConnection io.tries pool = none ∨ max ≤ st.checkedOut.length := by
    rw [Permits.refused_iff, event_eq_fails, and_iff_right event_ne_skips]
  rw [queryConnected, hconnection]
  dsimp only
  rw [if_neg hlist', Permits.step]
  by_cases hmax : max ≤ st.checkedOut.length
  · rw [sqlGetConnection_exhausted hmax, if_pos (hrefused.mpr (.inr hmax))]
    rfl
  · have hwithin : io.within max st = io := by
      unfold SqlQueryIo.within
      simp only [if_pos (Nat.lt_of_not_le hmax)]
    rw [hwithin]
    cases hgot : sqlGetConnection io.tries pool with
    | none =>
      rw [if_pos (hrefused.mpr (.inl hgot))]
      rfl
    | some got =>
      have hgiven : ¬ Permits.Refused max st.checkedOut.length (io.event persistent query) := by
        rw [hrefused, hgot]
        simp [hmax]
      rw [if_neg hgiven, ← hout, hpool]
      exact congrArg some (runQuery_permits hgot)

end

/-! ## All queries -/

/-- The query behind its printing. -/
def SqlCall.query (call : SqlCall) : Bytes := smfCoreStrstrip (call.io.printf.expand call.q)

/-- What a query does with a connection of the pool. -/
def SqlCall.event (persistent : Int) (call : SqlCall) : Permits.Event :=
  if call.io.printFails = true ∨ call.query = [] ∨ call.io.listFails = true then .skips
  else call.io.event persistent call.query

/-- Every server answers when a pool is started, and a host is chosen. -/
structure SqlCall.Up (s : SqlSettings) (driver : Bytes) (call : SqlCall) : Prop where
  creates : ∀ dsn, call.zdb.creates dsn = true
  reachable : ∀ dsn, call.zdb.reachable dsn = true
  chooses : ∃ host, chooseSqlHost call.env s driver = .ok host

/-- The hosts are those of `s`, whatever the name of the database has become. -/
structure LookupState.Chooses (s : SqlSettings) (driver : Bytes) (st : LookupState) : Prop where
  driver : st.settings.driver = some driver
  hosts : st.settings.hosts = s.hosts
  connection : st.settings.backendConnection = s.backendConnection

section

variable {s : SqlSettings} {driver : Bytes} {st st' : LookupState} {call : SqlCall}
  {persistent : Int} {max : Nat}

theorem expandName_backendConnection (env : TargetEnv) (s : SqlSettings) (driver : Bytes) :
    (s.expandName env driver).backendConnection = s.backendConnection := by
  unfold SqlSettings.expandName
  split
  · split <;> rfl
  · rfl

theorem LookupState.Chooses.of_settings (h : st.Chooses s driver)
    (hsettings : st'.settings = st.settings) : st'.Chooses s driver := by
  obtain ⟨hdriver, hhosts, hconnection⟩ := h
  exact ⟨hsettings ▸ hdriver, hsettings ▸ hhosts, hsettings ▸ hconnection⟩

theorem LookupState.Chooses.host (h : st.Chooses s driver) (env : TargetEnv) :
    chooseSqlHost env st.settings driver = chooseSqlHost env s driver := by
  unfold chooseSqlHost
  rw [h.connection, h.hosts]

/-- The first attempt starts a pool. -/
theorem SqlCall.Up.connect (hup : call.Up s driver) (hst : st.Chooses s driver) :
    ∃ st', smfLookupSqlConnect call.zdb call.env st = some (0, st') ∧
      st'.lookupConnection ≠ none ∧ st'.Chooses s driver := by
  obtain ⟨host, hhost⟩ := hup.chooses
  rw [← hst.host] at hhost
  obtain ⟨ret, st', hstart, hattempt⟩ := smfLookupSqlStartPool_attempt hup.creates
    { st with settings := st.settings.expandName call.env driver }
    (st.settings.target call.env driver host)
  have hret := hattempt.ret
  have hconnection := hattempt.connection
  rw [if_pos (hup.reachable _)] at hret hconnection
  subst hret
  have hsettings : st'.settings = st.settings.expandName call.env driver := hattempt.settings
  refine ⟨st', ?_, ?_, ?_⟩
  · rw [smfLookupSqlConnect, getDsn_choose hst.driver hhost]
    show (smfLookupSqlStartPool call.zdb _ _).bind _ = _
    rw [hstart]
    rfl
  · intro hnone
    rw [hnone] at hconnection
    cases hconnection
  · exact
      { driver := by rw [hsettings, expandName_driver, hst.driver]
        hosts := by rw [hsettings, expandName_hosts, hst.hosts]
        connection := by rw [hsettings, expandName_backendConnection, hst.connection] }

/-- A query that goes on comes to the part behind the connect. -/
theorem SqlCall.Up.connected (hup : call.Up s driver) (hst : st.Chooses s driver) (io : SqlQueryIo)
    (hprint : ¬ (io.printFails = true ∨ smfCoreStrstrip (io.printf.expand call.q) = [])) :
    ∃ st' pool, smfLookupSqlQueryIo io call.zdb call.env persistent st call.q =
        queryConnected io persistent st' (smfCoreStrstrip (io.printf.expand call.q)) ∧
      st'.lookupConnection = some pool ∧ st'.checkedOut.length = st.checkedOut.length ∧
      st'.Chooses s driver := by
  rw [smfLookupSqlQueryIo, if_neg hprint]
  cases hconnection : st.lookupConnection with
  | some pool => exact ⟨st, pool, rfl, hconnection, rfl, hst⟩
  | none =>
    obtain ⟨st', hconnect, hpool, hst'⟩ := hup.connect hst
    obtain ⟨pool, hpool⟩ := Option.ne_none_iff_exists'.mp hpool
    have hout : st.checkedOut = [] := by rw [LookupState.checkedOut, hconnection]; rfl
    refine ⟨st', pool, ?_, hpool, ?_, hst'⟩
    · dsimp only
      rw [hconnect]
      rfl
    · rw [smfLookupSqlConnect_checkedOut hconnect, hout]

/-- **One query** does to the connections what its event does to permits. -/
theorem smfLookupSqlQueryIo_permits (hup : call.Up s driver) (hst : st.Chooses s driver) :
    (call.make persistent max st).map (fun st' => st'.checkedOut.length) =
        Permits.step max st.checkedOut.length (call.event persistent) ∧
      ∀ st', call.make persistent max st = some st' → st'.Chooses s driver := by
  unfold SqlCall.make SqlCall.event
  by_cases hprint : call.io.printFails = true ∨ call.query = []
  · have hrun : smfLookupSqlQueryIo (call.io.within max st) call.zdb call.env persistent st call.q =
        some (none, st) := if_pos hprint
    rw [hrun, if_pos (hprint.imp_right Or.inl)]
    refine ⟨rfl, ?_⟩
    rintro st' ⟨⟩
    exact hst
  · obtain ⟨st₁, pool, hrun, hpool, hout, hst₁⟩ :=
      @SqlCall.Up.connected s driver st call persistent hup hst (call.io.within max st) hprint
    rw [hrun]
    constructor
    · by_cases hlist : call.io.listFails = true
      · rw [if_pos (.inr (.inr hlist)), queryConnected, hpool]
        dsimp only
        rw [if_pos (show (call.io.within max st).listFails = true from hlist)]
        exact congrArg some hout
      · rw [if_neg (by rw [← or_assoc]; exact not_or.mpr ⟨hprint, hlist⟩), Option.map_map]
        exact queryConnected_permits hpool (Bool.eq_false_iff.mpr hlist) hout
    · intro st' hmade
      obtain ⟨⟨result, st₂⟩, hquery, rfl⟩ := Option.map_eq_some_iff.mp hmade
      exact hst₁.of_settings (queryConnected_settings hquery)

/-- The connections that the queries have not returned. -/
def keptConnections (persistent : Int) (calls : List SqlCall) : Nat :=
  Permits.held 0 (calls.map (SqlCall.event persistent))

variable {calls : List SqlCall}

/-- **All queries** do what their events do. -/
theorem sqlQueries_permits (hst : st.Chooses s driver) (hup : ∀ call ∈ calls, call.Up s driver) :
    (sqlQueries persistent max st calls).map (fun st' => st'.checkedOut.length) =
      Permits.run max st.checkedOut.length (calls.map (SqlCall.event persistent)) :=
  Permits.run_map
    (fun _ hst call hcall => (smfLookupSqlQueryIo_permits (hup call hcall) hst).1)
    (fun _ hst call hcall => (smfLookupSqlQueryIo_permits (hup call hcall) hst).2) hst

/-- With `lookup_persistent` the pool is never stopped. -/
theorem event_persistent : call.event 1 ≠ .renews := by
  unfold SqlCall.event SqlQueryIo.event
  split_ifs <;> simp_all

theorem keptConnections_persistent :
    keptConnections 1 calls = calls.countP fun call => call.event 1 = .keeps := by
  have hnever : Permits.Event.renews ∉ calls.map (SqlCall.event 1) := by
    intro hmem
    obtain ⟨call, -, hrenews⟩ := List.mem_map.mp hmem
    exact event_persistent hrenews
  rw [keptConnections, Permits.held_eq_count hnever, Nat.zero_add, List.count, List.countP_map]
  rfl

/-- **When a process ends at `assert(c)`**: at the first query that needs a connection after as
many have been kept as the pool has, or that none of the tries gives one.  Until then what is
checked out is what the queries have kept; with `lookup_persistent` that is one for each query
that has failed on a connection that answers. -/
theorem sqlQueries_exhausts (hdriver : st.settings.driver = some driver)
    (hnone : st.lookupConnection = none) (hup : ∀ call ∈ calls, call.Up st.settings driver) :
    (∀ st', sqlQueries persistent max st calls = some st' →
      st'.checkedOut.length = keptConnections persistent calls ∧
        keptConnections persistent calls ≤ max) ∧
    (sqlQueries persistent max st calls = none ↔ ∃ before call later,
      calls = before ++ call :: later ∧
        Permits.Refused max (keptConnections persistent before) (call.event persistent)) ∧
    (persistent = 1 → keptConnections persistent calls =
      calls.countP fun call => call.event persistent = .keeps) := by
  have hout : st.checkedOut.length = 0 := by rw [LookupState.checkedOut, hnone]; rfl
  have hruns := @sqlQueries_permits st.settings driver st persistent max calls
    ⟨hdriver, rfl, rfl⟩ hup
  rw [hout] at hruns
  refine ⟨?_, ?_, ?_⟩
  · intro st' hst'
    rw [hst'] at hruns
    obtain ⟨hkept, hmax⟩ := Permits.run_eq_some (Nat.zero_le max) hruns.symm
    exact ⟨hkept, hkept.symm.trans_le hmax⟩
  · rw [← Option.map_eq_none_iff, hruns, Permits.run_eq_none_iff]
    constructor
    · rintro ⟨before, e, later, hes, href⟩
      obtain ⟨calls₁, calls₂, rfl, rfl, htail⟩ := List.map_eq_append_iff.mp hes
      obtain ⟨call, rest, rfl, rfl, -⟩ := List.map_eq_cons_iff.mp htail
      exact ⟨calls₁, call, rest, rfl, href⟩
    · rintro ⟨before, call, later, rfl, href⟩
      exact ⟨_, _, _, List.map_append, href⟩
  · rintro rfl
    exact keptConnections_persistent

end

/-- A query without a row, on servers that all answer. -/
def emptyCall : SqlCall where
  io := emptyQueryIo
  zdb := ⟨fun _ => true, fun _ => true, fun _ => true⟩
  env := ⟨0, none⟩
  q := ascii "q"

/-- A query that throws. -/
def throwingCall : SqlCall :=
  { emptyCall with io := { emptyQueryIo with execute := fun _ => none } }

/-- The third query ends the process, after two that have thrown on a pool of two connections. -/
theorem sqlQueries_exhausts_third :
    sqlQueries 1 2 { settings := twoHosts } [throwingCall, throwingCall, emptyCall] = none := by
  have hup : ∀ io, SqlCall.Up twoHosts (ascii "mysql") { emptyCall with io := io } := fun io =>
    ⟨fun _ => rfl, fun _ => rfl, ascii "a", rfl⟩
  refine (sqlQueries_exhausts rfl rfl ?_).2.1.mpr
    ⟨[throwingCall, throwingCall], emptyCall, [], rfl, by decide⟩
  exact List.forall_mem_cons.mpr ⟨hup _, List.forall_mem_cons.mpr ⟨hup _,
    List.forall_mem_singleton.mpr (hup _)⟩⟩

end Spmfilter
