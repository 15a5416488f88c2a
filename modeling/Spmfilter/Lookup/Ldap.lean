import Spmfilter.Lookup.Target

/-!
# Connecting to LDAP

`smf_lookup_ldap_connect` initialises and binds one target after the other, all through
`settings->lookup_connection`.

* `smfLookupLdapInitLd` sets `lookup_connection`, and `smfLookupLdapBind` asserts that it is
  set.
* `bindLoop_right_iff` is about the loop over the hosts from any attempt on.
* `smfLookupLdapConnect_right_iff` says which patterns of failures the function handles, and
  `smfLookupLdapGetConnection_stale` what follows one that it does not.
-/

namespace Spmfilter

open CString

/-- What the calls of libldap for each attempt meet, the initial target being number `0`. -/
structure LdapIo where
  /-- `ldap_initialize` succeeds. -/
  initializes : Nat → Bool
  /-- `ldap_sasl_bind_s` succeeds. -/
  binds : Nat → Bool

structure LdapState where
  settings : LdapSettings
  /-- `settings->lookup_connection`: the attempt that it has been initialised in. -/
  lookupConnection : Option Nat := none

/-- `smf_lookup_ldap_init_ld`.  A handle that is there has been unbound. -/
def smfLookupLdapInitLd (io : LdapIo) (attempt : Nat) (st : LdapState) : LdapState :=
  { st with lookupConnection := if io.initializes attempt then some attempt else none }

/-- `smf_lookup_ldap_bind`; `none` is the failed assertion. -/
def smfLookupLdapBind (io : LdapIo) (attempt : Nat) (st : LdapState) : Option Int :=
  match st.lookupConnection with
  | none => none
  | some _ =>
    if st.settings.base = none then some (-1)
    else if st.settings.binddn = none then some (-1)
    else if st.settings.bindpw = none then some (-1)
    else if io.binds attempt then some 0
    else some (-1)

/-- The loop of `smf_lookup_ldap_connect` over the rest of `ldap_host`. -/
def bindLoop (io : LdapIo) (env : TargetEnv) :
    (attempt : Nat) → LdapState → List Bytes → Option (Int × LdapState)
  | _, st, [] => some (-1, st)
  | attempt, st, host :: hosts => do
    let _uri ← (smfLookupLdapGetUri env st.settings (some host)).toOption
    let st := smfLookupLdapInitLd io attempt st
    let ret ← smfLookupLdapBind io attempt st
    if ret = 0 then some (0, st) else bindLoop io env (attempt + 1) st hosts

/-- `smf_lookup_ldap_connect`; `none` is a failed assertion, or a host that is looked for in an
empty list. -/
def smfLookupLdapConnect (io : LdapIo) (env : TargetEnv) (st : LdapState) :
    Option (Int × LdapState) :=
  if st.settings.backendConnection = none then some (-1, st)
  else do
    let _uri ← (smfLookupLdapGetUri env st.settings none).toOption
    let st := smfLookupLdapInitLd io 0 st
    let ret ← smfLookupLdapBind io 0 st
    if ret = 0 then some (0, st) else bindLoop io env 1 st st.settings.hosts

/-- `smf_lookup_ldap_get_connection`: the handle, or NULL. -/
def smfLookupLdapGetConnection (io : LdapIo) (env : TargetEnv) (st : LdapState) :
    Option (Option Nat × LdapState) :=
  match st.lookupConnection with
  | some ld => some (some ld, st)
  | none =>
    (smfLookupLdapConnect io env st).map fun out =>
      if out.1 ≠ 0 then (none, out.2) else (out.2.lookupConnection, out.2)

/-! ## One attempt -/

section

variable {io : LdapIo} {env : TargetEnv} {st : LdapState} {attempt : Nat}

/-- The settings that `smf_lookup_ldap_bind` needs are there. -/
def LdapSettings.Bindable (s : LdapSettings) : Prop :=
  s.base ≠ none ∧ s.binddn ≠ none ∧ s.bindpw ≠ none

/-- The target of the attempt initialises and binds. -/
def AttemptBinds (io : LdapIo) (s : LdapSettings) (attempt : Nat) : Prop :=
  io.initializes attempt = true ∧ s.Bindable ∧ io.binds attempt = true

/-- A handle that has not been initialised is not bound. -/
theorem bind_init_fails (h : io.initializes attempt = false) :
    smfLookupLdapBind io attempt (smfLookupLdapInitLd io attempt st) = none := by
  rw [smfLookupLdapBind, smfLookupLdapInitLd, h]
  rfl

theorem bind_init_binds (h : AttemptBinds io st.settings attempt) :
    smfLookupLdapBind io attempt (smfLookupLdapInitLd io attempt st) = some 0 := by
  obtain ⟨hinit, ⟨hbase, hdn, hpw⟩, hbind⟩ := h
  rw [smfLookupLdapBind, smfLookupLdapInitLd, hinit, hbind]
  dsimp only
  rw [if_neg hbase, if_neg hdn, if_neg hpw]
  rfl

theorem bind_init_refused (hinit : io.initializes attempt = true)
    (h : ¬ AttemptBinds io st.settings attempt) :
    smfLookupLdapBind io attempt (smfLookupLdapInitLd io attempt st) = some (-1) := by
  rw [smfLookupLdapBind, smfLookupLdapInitLd, hinit]
  dsimp only
  by_cases hbase : st.settings.base = none
  · rw [if_pos hbase]
    rfl
  by_cases hdn : st.settings.binddn = none
  · rw [if_neg hbase, if_pos hdn]
    rfl
  by_cases hpw : st.settings.bindpw = none
  · rw [if_neg hbase, if_neg hdn, if_pos hpw]
    rfl
  have hbind : ¬ io.binds attempt = true := fun hbind => h ⟨hinit, ⟨hbase, hdn, hpw⟩, hbind⟩
  rw [if_neg hbase, if_neg hdn, if_neg hpw, if_neg hbind]
  rfl

/-! ## All attempts -/

/-- An attempt among the next ones binds, and all before it initialise. -/
def BindsInTime (io : LdapIo) (s : LdapSettings) (attempt attempts : Nat) : Prop :=
  ∃ k < attempts, AttemptBinds io s (attempt + k) ∧
    ∀ j < k, io.initializes (attempt + j) = true

theorem bindsInTime_succ {s : LdapSettings} {attempts : Nat} :
    BindsInTime io s attempt (attempts + 1) ↔
      AttemptBinds io s attempt ∨
        io.initializes attempt = true ∧ BindsInTime io s (attempt + 1) attempts := by
  have hnone : ∀ j < 0, io.initializes (attempt + j) = true := by simp
  unfold BindsInTime
  rw [Nat.exists_lt_succ_left, and_iff_left hnone]
  simp only [Nat.forall_lt_succ_left, Nat.add_right_comm attempt 1, ← Nat.add_assoc, Nat.add_zero,
    ← exists_and_left, and_left_comm]

/-- The function returns.  It returns `0` exactly when the target of one of the attempts
initialises and binds, and `-1` only with `lookup_connection` NULL. -/
def ConnectsRight (io : LdapIo) (s : LdapSettings) (attempt attempts : Nat)
    (out : Option (Int × LdapState)) : Prop :=
  ∃ ret st', out = some (ret, st') ∧ (ret = 0 ∨ ret = -1) ∧
    (ret = 0 ↔ ∃ k < attempts, AttemptBinds io s (attempt + k)) ∧
    (ret = -1 → st'.lookupConnection = none)

theorem not_connectsRight_none {s : LdapSettings} {attempts : Nat} :
    ¬ ConnectsRight io s attempt attempts none := by
  rintro ⟨ret, st', hrun, -⟩
  cases hrun

/-- An attempt that is refused decides nothing. -/
theorem connectsRight_refused {s : LdapSettings} {attempts : Nat} {out : Option (Int × LdapState)}
    (h : ¬ AttemptBinds io s attempt) :
    ConnectsRight io s attempt (attempts + 1) out ↔
      ConnectsRight io s (attempt + 1) attempts out := by
  have hexists : (∃ k < attempts + 1, AttemptBinds io s (attempt + k)) ↔
      ∃ k < attempts, AttemptBinds io s (attempt + 1 + k) := by
    simp only [Nat.add_right_comm attempt 1]
    exact Nat.exists_lt_succ_left.trans (or_iff_right h)
  rw [ConnectsRight, ConnectsRight, hexists]

/-- An attempt, and the rest when it is refused. -/
theorem connectsRight_attempt_iff {attempts : Nat} {rest : Option (Int × LdapState)}
    (hrest : (smfLookupLdapInitLd io attempt st).lookupConnection ≠ none →
      (ConnectsRight io st.settings (attempt + 1) attempts rest ↔
        BindsInTime io st.settings (attempt + 1) attempts)) :
    ConnectsRight io st.settings attempt (attempts + 1)
        ((smfLookupLdapBind io attempt (smfLookupLdapInitLd io attempt st)).bind fun ret =>
          if ret = 0 then some (0, smfLookupLdapInitLd io attempt st) else rest) ↔
      BindsInTime io st.settings attempt (attempts + 1) := by
  rw [bindsInTime_succ]
  cases hinit : io.initializes attempt with
  | false =>
    have hnot : ¬ AttemptBinds io st.settings attempt := fun hbinds => by
      rw [AttemptBinds, hinit] at hbinds
      cases hbinds.1
    rw [bind_init_fails hinit, Option.bind_none, or_iff_right hnot]
    exact iff_of_false not_connectsRight_none fun hlater => by cases hlater.1
  | true =>
    by_cases hbinds : AttemptBinds io st.settings attempt
    · rw [bind_init_binds hbinds, Option.bind_some, if_pos rfl]
      refine iff_of_true ⟨0, _, rfl, .inl rfl, iff_of_true rfl ⟨0, Nat.succ_pos _, hbinds⟩, ?_⟩
        (.inl hbinds)
      intro h
      cases h
    · have hset : (smfLookupLdapInitLd io attempt st).lookupConnection ≠ none := by
        rw [smfLookupLdapInitLd, hinit]
        exact Option.some_ne_none attempt
      rw [bind_init_refused hinit hbinds, Option.bind_some, if_neg (by decide),
        connectsRight_refused hbinds, hrest hset, or_iff_right hbinds, and_iff_right rfl]

/-- The loop, after an attempt that has left a handle. -/
theorem bindLoop_right_iff (io : LdapIo) (env : TargetEnv) (hosts : List Bytes)
    (hset : st.lookupConnection ≠ none) :
    ConnectsRight io st.settings attempt hosts.length (bindLoop io env attempt st hosts) ↔
      BindsInTime io st.settings attempt hosts.length := by
  induction hosts generalizing attempt st with
  | nil =>
    refine iff_of_false ?_ ?_
    · rintro ⟨ret, st', hrun, -, -, hnull⟩
      obtain ⟨rfl, rfl⟩ := Prod.mk.inj (Option.some.inj hrun)
      exact hset (hnull rfl)
    · rintro ⟨k, hk, -⟩
      exact Nat.not_lt_zero k hk
  | cons host hosts ih =>
    have hsettings : (smfLookupLdapInitLd io attempt st).settings = st.settings := rfl
    have hattempt := connectsRight_attempt_iff fun hset' => hsettings ▸ ih hset'
    exact hattempt

/-- **Which patterns of failures are handled**: those where some attempt initialises and binds,
and all before it initialise. -/
theorem smfLookupLdapConnect_right_iff (io : LdapIo) (env : TargetEnv)
    (hconnection : st.settings.backendConnection ≠ none) :
    ConnectsRight io st.settings 0 (st.settings.hosts.length + 1)
        (smfLookupLdapConnect io env st) ↔
      (st.settings.uri ≠ none ∨ st.settings.hosts ≠ []) ∧
        BindsInTime io st.settings 0 (st.settings.hosts.length + 1) := by
  have huri := smfLookupLdapGetUri_isOk_iff env hconnection
  rw [smfLookupLdapConnect, if_neg hconnection, ← huri]
  cases (smfLookupLdapGetUri env st.settings none).toOption with
  | none => exact iff_of_false not_connectsRight_none fun h => h.1 rfl
  | some uri =>
    rw [and_iff_right (Option.some_ne_none uri)]
    have hsettings : (smfLookupLdapInitLd io 0 st).settings = st.settings := rfl
    exact connectsRight_attempt_iff fun hset =>
      hsettings ▸ bindLoop_right_iff io env st.settings.hosts hset

/-! ## After a failure -/

theorem bind_init_set {ret : Int}
    (h : smfLookupLdapBind io attempt (smfLookupLdapInitLd io attempt st) = some ret) :
    (smfLookupLdapInitLd io attempt st).lookupConnection ≠ none := by
  intro hnone
  rw [smfLookupLdapBind, hnone] at h
  cases h

theorem bindLoop_set {st' : LdapState} {ret : Int} (hosts : List Bytes)
    (hset : st.lookupConnection ≠ none)
    (h : bindLoop io env attempt st hosts = some (ret, st')) : st'.lookupConnection ≠ none := by
  induction hosts generalizing attempt st with
  | nil =>
    obtain ⟨-, rfl⟩ := Prod.mk.inj (Option.some.inj h)
    exact hset
  | cons host hosts ih =>
    obtain ⟨bound, hbound, hrest⟩ := Option.bind_eq_some_iff.mp h
    have hset' := bind_init_set hbound
    split at hrest
    · obtain ⟨-, rfl⟩ := Prod.mk.inj (Option.some.inj hrest)
      exact hset'
    · exact ih hset' hrest

/-- Whatever the function returns, a handle is left, and the next query takes it without an
attempt. -/
theorem smfLookupLdapGetConnection_stale {st' : LdapState} {ret : Int}
    (hconnection : st.settings.backendConnection ≠ none)
    (h : smfLookupLdapConnect io env st = some (ret, st')) (next : LdapIo) :
    ∃ ld, smfLookupLdapGetConnection next env st' = some (some ld, st') := by
  rw [smfLookupLdapConnect, if_neg hconnection] at h
  obtain ⟨uri, -, hattempt⟩ := Option.bind_eq_some_iff.mp h
  obtain ⟨bound, hbound, hrest⟩ := Option.bind_eq_some_iff.mp hattempt
  have hset := bind_init_set hbound
  have hset' : st'.lookupConnection ≠ none := by
    split at hrest
    · obtain ⟨-, rfl⟩ := Prod.mk.inj (Option.some.inj hrest)
      exact hset
    · exact bindLoop_set _ hset hrest
  obtain ⟨ld, hld⟩ := Option.ne_none_iff_exists'.mp hset'
  exact ⟨ld, by rw [smfLookupLdapGetConnection, hld]⟩

end

/-- Two servers of one directory. -/
def twoServers : LdapState where
  settings :=
    { backendConnection := some (ascii "failover")
      uri := none
      hosts := [ascii "a", ascii "b"]
      port := 389
      base := some (ascii "dc=example")
      binddn := some (ascii "cn=reader")
      bindpw := some (ascii "secret") }

/-- The first server, as the initial choice and as a host, refuses the bind. -/
theorem smfLookupLdapConnect_right_second :
    ConnectsRight ⟨fun _ => true, fun attempt => attempt == 2⟩ twoServers.settings 0 3
      (smfLookupLdapConnect ⟨fun _ => true, fun attempt => attempt == 2⟩ ⟨0, none⟩ twoServers) := by
  refine (smfLookupLdapConnect_right_iff _ ⟨0, none⟩ (by decide)).mpr ⟨.inr (by decide), 2, ?_⟩
  exact ⟨by decide, ⟨rfl, ⟨by decide, by decide, by decide⟩, rfl⟩, fun _ _ => rfl⟩

/-- No server is initialised: the bind asserts a handle. -/
theorem smfLookupLdapConnect_not_right :
    ¬ ∀ (io : LdapIo) (env : TargetEnv) (st : LdapState),
      st.settings.backendConnection ≠ none →
        ConnectsRight io st.settings 0 (st.settings.hosts.length + 1)
          (smfLookupLdapConnect io env st) := by
  intro hall
  have hright := hall ⟨fun _ => false, fun _ => true⟩ ⟨0, none⟩ twoServers (by decide)
  exact not_connectsRight_none hright

end Spmfilter
