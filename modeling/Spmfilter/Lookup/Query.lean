import Spmfilter.Lookup
import Spmfilter.Lookup.Pool

/-!
# Connections of a query

`smf_lookup_sql_query` with the pool: which connections it checks out, and which it returns.

* `sqlGetConnection` is `smf_lookup_sql_get_connection`, with the result of each try.
* `smfLookupSqlQueryIo` is the query function on the state of the lookups.
* `sqlGetConnection_active` says which connection is checked out after the tries.
* `smfLookupSqlQueryIo_balanced_iff` says after which queries one connection more is.
-/

namespace Spmfilter

open CString

/-- What the calls of one query meet. -/
structure SqlQueryIo where
  /-- `vasprintf` fails. -/
  printFails : Bool
  /-- `smf_list_new` fails. -/
  listFails : Bool
  /-- A try to get a connection: `none` without one, and else the result of the ping. -/
  tries : Nat → Option Bool
  /-- `Connection_executeQuery`: `none` is an `SQLException`. -/
  execute : Bytes → Option (List Row)
  /-- `smf_list_append` fails for the row. -/
  appendFails : Nat → Bool
  /-- The query is used as a format. -/
  printf : Vasprintf

/-- The loop of `smf_lookup_sql_get_connection`, with the tries that are left and the
connection `c`. -/
def sqlGetConnectionLoop (tries : Nat → Option Bool) :
    (left i : Nat) → (c : Option Nat) → ZdbPool → Option Nat × ZdbPool
  | 0, _, c, pool => (c, pool)
  | left + 1, i, _, pool =>
    match tries i with
    | none => sqlGetConnectionLoop tries left (i + 1) none pool
    | some true => (some pool.getConnection.1, pool.getConnection.2)
    | some false =>
      sqlGetConnectionLoop tries left (i + 1) (some pool.getConnection.1)
        (pool.getConnection.2.close pool.getConnection.1)

/-- How often it is tried. -/
def SQL_TRIES : Nat := 30

/-- `smf_lookup_sql_get_connection`; `none` is the failed assertion. -/
def sqlGetConnection (tries : Nat → Option Bool) (pool : ZdbPool) : Option (Nat × ZdbPool) :=
  let got := sqlGetConnectionLoop tries SQL_TRIES 0 none pool
  got.1.map fun c => (c, got.2)

/-- The loop over the rows; `none` where one cannot be appended. -/
def appendRows (fails : Nat → Bool) : (i : Nat) → (result rows : List Row) → Option (List Row)
  | _, result, [] => some result
  | i, result, row :: rows =>
    if fails i = true then none else appendRows fails (i + 1) (result ++ [row]) rows

/-- `lookup_connection` with its pool, after a connection has been looked for. -/
def LookupState.withPool (st : LookupState) (pool : ZdbPool) : LookupState :=
  { st with lookupConnection := some pool }

/-- The part of `smf_lookup_sql_query` behind `smf_lookup_sql_get_connection`. -/
def runQuery (io : SqlQueryIo) (persistent : Int) (st : LookupState) (c : Nat) (pool : ZdbPool)
    (query : Bytes) : Option (List Row) × LookupState :=
  match io.execute query with
  | none => (none, st.withPool pool)
  | some rows =>
    match appendRows io.appendFails 0 [] rows with
    | none => (none, st.withPool pool)
    | some result =>
      let st := st.withPool (pool.close c)
      (some result, if persistent ≠ 1 then smfLookupSqlDisconnect st else st)

/-- The part behind the connect. -/
def queryConnected (io : SqlQueryIo) (persistent : Int) (st : LookupState) (query : Bytes) :
    Option (Option (List Row) × LookupState) :=
  match st.lookupConnection with
  | none => none
  | some pool =>
    if io.listFails = true then some (none, st)
    else
      (sqlGetConnection io.tries pool).map fun got =>
        runQuery io persistent st got.1 got.2 query

/-- `smf_lookup_sql_query` with the setting `lookup_persistent`; `none` is a failed assertion. -/
def smfLookupSqlQueryIo (io : SqlQueryIo) (zdb : Zdb) (env : TargetEnv) (persistent : Int)
    (st : LookupState) (q : Bytes) : Option (Option (List Row) × LookupState) :=
  let query := smfCoreStrstrip (io.printf.expand q)
  if io.printFails = true ∨ query = [] then some (none, st)
  else
    match st.lookupConnection with
    -- a pool in `lookup_connection` is never NULL
    | some _ => queryConnected io persistent st query
    | none => do
      let (ret, st) ← smfLookupSqlConnect zdb env st
      if ret ≠ 0 then some (none, st) else queryConnected io persistent st query

/-- The connections that are checked out. -/
def LookupState.checkedOut (st : LookupState) : List Nat :=
  st.lookupConnection.elim [] ZdbPool.active

/-! ## Getting a connection -/

section

variable {tries : Nat → Option Bool} {pool pool' : ZdbPool} {c : Nat}

/-- One of the next tries gives a connection that answers. -/
def Answers (tries : Nat → Option Bool) (i left : Nat) : Prop :=
  ∃ j < left, tries (i + j) = some true

theorem answers_succ {i left : Nat} :
    Answers tries i (left + 1) ↔ tries i = some true ∨ Answers tries (i + 1) left := by
  unfold Answers
  simp only [Nat.add_right_comm i 1]
  exact Nat.exists_lt_succ_left

/-- A connection that answers is checked out.  One that does not is back in the pool, also when
it is the result. -/
theorem sqlGetConnectionLoop_active (left i : Nat) (c₀ : Option Nat)
    (hc₀ : ∀ c ∈ c₀, c ∉ pool.active)
    (h : sqlGetConnectionLoop tries left i c₀ pool = (some c, pool')) :
    (Answers tries i left ∧ pool'.active = c :: pool.active) ∨
      (¬ Answers tries i left ∧ pool'.active = pool.active ∧ c ∉ pool.active) := by
  induction left generalizing i c₀ pool with
  | zero =>
    obtain ⟨hc, rfl⟩ := Prod.mk.inj h
    refine .inr ⟨?_, rfl, hc₀ c hc⟩
    rintro ⟨j, hj, -⟩
    omega
  | succ left ih =>
    rw [answers_succ]
    rw [sqlGetConnectionLoop] at h
    cases htry : tries i with
    | none =>
      rw [htry] at h
      have hrest := ih (i + 1) none (fun c hc => by cases hc) h
      simpa using hrest
    | some answers =>
      rw [htry] at h
      cases answers with
      | true =>
        obtain ⟨hc, rfl⟩ := Prod.mk.inj h
        obtain rfl := Option.some.inj hc
        exact .inl ⟨.inl rfl, rfl⟩
      | false =>
        have hclosed := pool.close_active
        have hback : pool.getConnection.1 ∉ pool.active := fun hmem =>
          absurd (pool.fresh _ hmem) (Nat.lt_irrefl _)
        have hrest := ih (i + 1) (some pool.getConnection.1)
          (fun c hc => by
            obtain rfl := Option.some.inj hc
            rwa [hclosed]) h
        rw [hclosed] at hrest
        simpa using hrest

theorem sqlGetConnection_active (h : sqlGetConnection tries pool = some (c, pool')) :
    (Answers tries 0 SQL_TRIES ∧ pool'.active = c :: pool.active) ∨
      (¬ Answers tries 0 SQL_TRIES ∧ pool'.active = pool.active ∧ c ∉ pool.active) := by
  obtain ⟨c', hc', hgot⟩ := Option.map_eq_some_iff.mp h
  obtain ⟨rfl, hpool⟩ := Prod.mk.inj hgot
  exact sqlGetConnectionLoop_active SQL_TRIES 0 none (fun c hc => by cases hc)
    (Prod.ext hc' hpool)

end

/-! ## Connecting -/

section

variable {zdb : Zdb} {env : TargetEnv} {st st' : LookupState} {dsn : Option Bytes} {ret : Int}

theorem checkedOut_disconnect : (smfLookupSqlDisconnect st).checkedOut = [] := by
  rw [LookupState.checkedOut, disconnect_lookupConnection]
  rfl

/-- The connection that is tried in a new pool goes back to it. -/
theorem smfLookupSqlStartPool_checkedOut
    (h : smfLookupSqlStartPool zdb st dsn = some (ret, st')) : st'.checkedOut = [] := by
  unfold smfLookupSqlStartPool at h
  split at h
  · cases h
  · dsimp only at h
    split_ifs at h
    · obtain ⟨-, rfl⟩ := Prod.mk.inj (Option.some.inj h)
      exact checkedOut_disconnect
    · obtain ⟨-, rfl⟩ := Prod.mk.inj (Option.some.inj h)
      exact checkedOut_disconnect
    · obtain ⟨-, rfl⟩ := Prod.mk.inj (Option.some.inj h)
      exact ZdbPool.close_active _

theorem failoverLoop_checkedOut {hosts : List Bytes} (hst : st.checkedOut = [])
    (h : failoverLoop zdb env st hosts = some (ret, st')) : st'.checkedOut = [] := by
  induction hosts generalizing st with
  | nil =>
    obtain ⟨-, rfl⟩ := Prod.mk.inj (Option.some.inj h)
    exact hst
  | cons host hosts ih =>
    obtain ⟨⟨dsn, settings⟩, -, hattempt⟩ := Option.bind_eq_some_iff.mp h
    obtain ⟨⟨ret₁, st₁⟩, hstart, hrest⟩ := Option.bind_eq_some_iff.mp hattempt
    have hst₁ := smfLookupSqlStartPool_checkedOut hstart
    dsimp only at hrest
    split at hrest
    · obtain ⟨-, rfl⟩ := Prod.mk.inj (Option.some.inj hrest)
      exact hst₁
    · exact ih hst₁ hrest

theorem smfLookupSqlConnect_checkedOut (h : smfLookupSqlConnect zdb env st = some (ret, st')) :
    st'.checkedOut = [] := by
  obtain ⟨⟨dsn, settings⟩, -, hattempt⟩ := Option.bind_eq_some_iff.mp h
  obtain ⟨⟨ret₁, st₁⟩, hstart, hrest⟩ := Option.bind_eq_some_iff.mp hattempt
  have hst₁ := smfLookupSqlStartPool_checkedOut hstart
  dsimp only at hrest
  split at hrest
  · obtain ⟨-, rfl⟩ := Prod.mk.inj (Option.some.inj hrest)
    exact hst₁
  · exact failoverLoop_checkedOut hst₁ hrest

end

/-! ## The query -/

section

variable {io : SqlQueryIo} {st st' : LookupState} {query : Bytes} {result : Option (List Row)}

theorem appendRows_eq_none_iff {fails : Nat → Bool} (i : Nat) (result rows : List Row) :
    appendRows fails i result rows = none ↔ ∃ j < rows.length, fails (i + j) = true := by
  induction rows generalizing i result with
  | nil =>
    refine iff_of_false (Option.some_ne_none result) ?_
    rintro ⟨j, hj, -⟩
    exact Nat.not_lt_zero j hj
  | cons row rows ih =>
    rw [appendRows]
    by_cases hfails : fails i = true
    · rw [if_pos hfails]
      exact iff_of_true rfl ⟨0, Nat.zero_lt_succ _, hfails⟩
    · rw [if_neg hfails, ih, List.length_cons]
      simp only [Nat.add_right_comm i 1]
      exact (or_iff_right hfails).symm.trans
        (@Nat.exists_lt_succ_left _ fun j => fails (i + j) = true).symm

/-- The query throws, or one of its rows cannot be appended. -/
def QueryFails (io : SqlQueryIo) (query : Bytes) : Prop :=
  io.execute query = none ∨
    ∃ rows, io.execute query = some rows ∧ ∃ i < rows.length, io.appendFails i = true

/-- A query that fails leaves its connection checked out, and one that does not returns it. -/
theorem runQuery_checkedOut (io : SqlQueryIo) (st : LookupState) (c : Nat) (pool : ZdbPool)
    (query : Bytes) :
    (QueryFails io query ∧ (runQuery io 1 st c pool query).2.checkedOut = pool.active) ∨
      (¬ QueryFails io query ∧
        (runQuery io 1 st c pool query).2.checkedOut = pool.active.erase c) := by
  unfold runQuery
  cases hexecute : io.execute query with
  | none => exact .inl ⟨.inl hexecute, rfl⟩
  | some rows =>
    have hfails : QueryFails io query ↔ appendRows io.appendFails 0 [] rows = none := by
      rw [appendRows_eq_none_iff, QueryFails, hexecute]
      simp
    dsimp only
    rw [hfails]
    cases happend : appendRows io.appendFails 0 [] rows with
    | none => exact .inl ⟨rfl, rfl⟩
    | some result => exact .inr ⟨Option.some_ne_none result, rfl⟩

/-- The query comes to `smf_lookup_sql_get_connection`. -/
def ReachesQuery (io : SqlQueryIo) (zdb : Zdb) (env : TargetEnv) (st : LookupState) (q : Bytes) :
    Prop :=
  io.printFails = false ∧ smfCoreStrstrip (io.printf.expand q) ≠ [] ∧
    (st.lookupConnection = none → ∃ st', smfLookupSqlConnect zdb env st = some (0, st')) ∧
    io.listFails = false

/-- Behind the connect, a connection that answers is left checked out by a query that fails. -/
theorem queryConnected_balanced_iff
    (h : queryConnected io 1 st query = some (result, st')) :
    st'.checkedOut.length = st.checkedOut.length ↔
      ¬(io.listFails = false ∧ Answers io.tries 0 SQL_TRIES ∧ QueryFails io query) := by
  unfold queryConnected at h
  split at h
  · cases h
  · rename_i pool hpool
    have hout : st.checkedOut = pool.active := by rw [LookupState.checkedOut, hpool]; rfl
    cases hlist : io.listFails with
    | true =>
      rw [if_pos hlist] at h
      obtain ⟨-, rfl⟩ := Prod.mk.inj (Option.some.inj h)
      exact iff_of_true rfl fun hall => by cases hall.1
    | false =>
      rw [if_neg (by rw [hlist]; decide)] at h
      obtain ⟨⟨c, pool'⟩, hgot, hrun⟩ := Option.map_eq_some_iff.mp h
      have hst : st' = (runQuery io 1 st c pool' query).2 := congrArg Prod.snd hrun.symm
      rw [hst, hout, and_iff_right rfl]
      rcases sqlGetConnection_active hgot with ⟨hanswers, hactive⟩ | ⟨hnot, hactive, hback⟩
      · rw [and_iff_right hanswers]
        rcases runQuery_checkedOut io st c pool' query with ⟨hfails, hleft⟩ | ⟨hdone, hleft⟩
        · rw [hleft, hactive, List.length_cons]
          exact iff_of_false (by omega) (not_not_intro hfails)
        · rw [hleft, hactive, List.erase_cons_head]
          exact iff_of_true rfl hdone
      · refine iff_of_true ?_ fun hall => hnot hall.1
        rcases runQuery_checkedOut io st c pool' query with ⟨-, hleft⟩ | ⟨-, hleft⟩
        · rw [hleft, hactive]
        · rw [hleft, hactive, List.erase_of_not_mem hback]

variable {zdb : Zdb} {env : TargetEnv} {q : Bytes}

/-- The directory of `smfLookupSqlQuery` answers what such a run returns. -/
theorem smfLookupSqlQueryIo_lookup {persistent : Int} {dir : Directory} {i : Nat}
    (h : smfLookupSqlQueryIo io zdb env persistent st q = some (result, st'))
    (hprintf : dir.printf = io.printf)
    (hzdb : dir.zdb i (smfCoreStrstrip (io.printf.expand q)) = result) :
    smfLookupSqlQuery dir i q = result := by
  rw [smfLookupSqlQuery, hprintf, hzdb]
  split
  · rename_i hempty
    rw [smfLookupSqlQueryIo, if_pos (.inr hempty)] at h
    exact (Prod.mk.inj (Option.some.inj h)).1
  · rfl

/-- **Which queries leave a connection checked out**: those that are made on a connection that
answers, and that throw or cannot append a row. -/
theorem smfLookupSqlQueryIo_balanced_iff
    (h : smfLookupSqlQueryIo io zdb env 1 st q = some (result, st')) :
    st'.checkedOut.length = st.checkedOut.length ↔
      ¬(ReachesQuery io zdb env st q ∧ Answers io.tries 0 SQL_TRIES ∧
        QueryFails io (smfCoreStrstrip (io.printf.expand q))) := by
  unfold smfLookupSqlQueryIo at h
  unfold ReachesQuery
  generalize smfCoreStrstrip (io.printf.expand q) = query at h ⊢
  dsimp only at h
  by_cases hearly : io.printFails = true ∨ query = []
  · rw [if_pos hearly] at h
    obtain ⟨-, rfl⟩ := Prod.mk.inj (Option.some.inj h)
    refine iff_of_true rfl ?_
    rintro ⟨⟨hprint, hquery, -⟩, -⟩
    rcases hearly with hfails | hempty
    · rw [hprint] at hfails
      cases hfails
    · exact hquery hempty
  · rw [if_neg hearly] at h
    have hprint : io.printFails = false := Bool.eq_false_iff.mpr fun hfails => hearly (.inl hfails)
    have hquery : query ≠ [] := fun hempty => hearly (.inr hempty)
    rw [and_iff_right hprint, and_iff_right hquery, and_assoc]
    cases hconnection : st.lookupConnection with
    | some pool =>
      rw [hconnection] at h
      rw [queryConnected_balanced_iff h, and_iff_right fun hnone => by cases hnone]
    | none =>
      rw [hconnection] at h
      obtain ⟨⟨ret, st₁⟩, hconnect, hrest⟩ := Option.bind_eq_some_iff.mp h
      have hout : st.checkedOut = [] := by rw [LookupState.checkedOut, hconnection]; rfl
      have hout₁ := smfLookupSqlConnect_checkedOut hconnect
      dsimp only at hrest
      rw [hout, ← hout₁]
      by_cases hret : ret = 0
      · rw [if_neg (not_not_intro hret)] at hrest
        rw [queryConnected_balanced_iff hrest, and_iff_right fun _ => ⟨st₁, hret ▸ hconnect⟩]
      · rw [if_pos hret] at hrest
        obtain ⟨-, rfl⟩ := Prod.mk.inj (Option.some.inj hrest)
        refine iff_of_true rfl ?_
        rintro ⟨hconnects, -⟩
        obtain ⟨st₂, hzero⟩ := hconnects rfl
        rw [hconnect] at hzero
        exact hret (Prod.mk.inj (Option.some.inj hzero)).1

end

/-- A pool from which nothing has been checked out. -/
def idlePool : LookupState where
  settings := twoHosts
  lookupConnection := some (.new 0 (ascii "mysql://b:3306/mail"))
  pools := [0]
  created := 1

/-- A query without a row on the first connection. -/
def emptyQueryIo : SqlQueryIo where
  printFails := false
  listFails := false
  tries := fun _ => some true
  execute := fun _ => some []
  appendFails := fun _ => false
  printf := .verbatim

/-- A query that finds no row returns its connection. -/
theorem smfLookupSqlQueryIo_balanced_empty :
    ∃ st', smfLookupSqlQueryIo emptyQueryIo secondHostUp ⟨0, none⟩ 1 idlePool (ascii "q") =
        some (some [], st') ∧ st'.checkedOut.length = idlePool.checkedOut.length := by
  refine ⟨_, rfl, (@smfLookupSqlQueryIo_balanced_iff emptyQueryIo idlePool _ _ secondHostUp
    ⟨0, none⟩ (ascii "q") rfl).mpr ?_⟩
  rintro ⟨-, -, hfails | ⟨rows, hrows, i, hi, -⟩⟩
  · cases hfails
  · obtain rfl := Option.some.inj hrows
    exact Nat.not_lt_zero i hi

/-- A query that throws does not. -/
theorem smfLookupSqlQueryIo_not_balanced :
    ¬ ∀ (io : SqlQueryIo) (zdb : Zdb) (env : TargetEnv) (st st' : LookupState) (q : Bytes)
        (result : Option (List Row)),
      smfLookupSqlQueryIo io zdb env 1 st q = some (result, st') →
        st'.checkedOut.length = st.checkedOut.length := by
  intro hall
  have hthrown := hall { emptyQueryIo with execute := fun _ => none } secondHostUp ⟨0, none⟩
    idlePool _ (ascii "q") none rfl
  exact absurd hthrown (by decide)

end Spmfilter
