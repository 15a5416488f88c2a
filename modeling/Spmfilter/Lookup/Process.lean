import Mathlib.Data.Finset.Option
import Spmfilter.Lib.Handles
import Spmfilter.Lookup.Entries
import Spmfilter.Lookup.Ldap

/-!
# The LDAP connection of a process

All lookups of a process go through `settings->lookup_connection`.  Where the lookups are
persistent, `main` connects in front of the engine and disconnects behind it, and otherwise every
query connects and disconnects for itself.  The children of the SMTP engine have the connection of
their parent and do not come back to `main`.

* `LdapProcess` is the connection with the calls of libldap so far.  A failed assertion ends the
  process, and then there is no result.
* `Sound` is the invariant: the calls keep to the handles that are open, and none is open but the
  one in `lookup_connection`.
* `EngineProcess` is the part that a process has in an engine, and `main` is the whole process.
* `process_handles` is about the handles of such a process.
-/

namespace Spmfilter

open CString Handles

/-! ## The calls -/

/-- What libldap does in a process.  A handle is named by the attempt that has initialised it. -/
structure LdapLibrary where
  io : LdapIo
  targets : TargetEnv
  /-- The entries that a search finds. -/
  answers : Nat → Bytes → List LdapEntry

/-- The calls of libldap that give, use or take back a handle. -/
inductive LdapCall
  | init (ld : Option Nat)
  | setOption (ld : Nat)
  | bind (ld : Nat) (binds : Bool)
  | search (ld : Nat) (query : Bytes)
  /-- the calls that take an entry apart -/
  | read (ld : Nat)
  | unbind (ld : Nat)
deriving DecidableEq

def LdapCall.op : LdapCall → Option (Op Nat)
  | init ld => ld.map .opens
  | setOption ld | bind ld _ | search ld _ | read ld => some (.uses ld)
  | unbind ld => some (.closes ld)

structure LdapProcess where
  settings : LdapSettings
  /-- `lookup_persistent` -/
  persistent : Int
  lookupConnection : Option Nat := none
  attempts : Nat := 0
  searches : Nat := 0
  calls : List LdapCall := []

namespace LdapProcess

def call (p : LdapProcess) (calls : List LdapCall) : LdapProcess :=
  { p with calls := p.calls ++ calls }

/-- The old handle is unbound, and `lookup_connection` is set. -/
def drop (p : LdapProcess) (new : Option Nat) : LdapProcess :=
  match p.lookupConnection with
  | some ld => { p.call [.unbind ld] with lookupConnection := new }
  | none => { p with lookupConnection := new }

variable (lib : LdapLibrary)

/-- `smf_lookup_ldap_init_ld`. -/
def initLd (p : LdapProcess) : LdapProcess :=
  let p' := { p.drop none with attempts := p.attempts + 1 }
  if lib.io.initializes p.attempts then
    { p'.call [.init (some p.attempts), .setOption p.attempts, .setOption p.attempts] with
      lookupConnection := some p.attempts }
  else p'.call [.init none]

/-- `smf_lookup_ldap_bind`. -/
def bind (p : LdapProcess) : Option Int × LdapProcess :=
  match p.lookupConnection with
  | none => (none, p)
  | some ld =>
    if p.settings.base = none then (some (-1), p)
    else if p.settings.binddn = none then (some (-1), p)
    else if p.settings.bindpw = none then (some (-1), p)
    else (some (if lib.io.binds ld then 0 else -1), p.call [.bind ld (lib.io.binds ld)])

/-- One target, and what follows where it is refused. -/
def attempt (p : LdapProcess) (next : LdapProcess → Option Int × LdapProcess) :
    Option Int × LdapProcess :=
  match (p.initLd lib).bind lib with
  | (none, p) => (none, p)
  | (some ret, p) => if ret = 0 then (some 0, p) else next p

/-- The loop of `smf_lookup_ldap_connect` over the rest of `ldap_host`. -/
def hostLoop : List Bytes → LdapProcess → Option Int × LdapProcess
  | [], p => (some (-1), p)
  | _ :: hosts, p => p.attempt lib (hostLoop hosts)

/-- `smf_lookup_ldap_connect`. -/
def connect (p : LdapProcess) : Option Int × LdapProcess :=
  if p.settings.backendConnection = none then (some (-1), p)
  else
    match smfLookupLdapGetUri lib.targets p.settings none with
    | .error _ => (none, p)
    | .ok _ => p.attempt lib (hostLoop lib p.settings.hosts)

/-- `smf_lookup_ldap_disconnect`. -/
def disconnect (p : LdapProcess) : LdapProcess := p.drop none

/-- `smf_lookup_ldap_get_connection`. -/
def getConnection (p : LdapProcess) : Option (Option Nat) × LdapProcess :=
  match p.lookupConnection with
  | some ld => (some (some ld), p)
  | none =>
    match p.connect lib with
    | (none, p) => (none, p)
    | (some ret, p) => (some (if ret ≠ 0 then none else p.lookupConnection), p)

/-- The end of a search, also of one without a result. -/
def release (p : LdapProcess) : LdapProcess := if p.persistent ≠ 1 then p.disconnect else p

/-- `smf_lookup_ldap_query`. -/
def query (p : LdapProcess) (query : Bytes) : Option (Option (List Dict)) × LdapProcess :=
  if p.settings.base = none then (some none, p)
  else
    match p.getConnection lib with
    | (none, p) => (none, p)
    | (some none, p) => (some none, p)
    | (some (some ld), p) =>
      if query = [] then (some none, p)
      else
        let entries := lib.answers p.searches query
        let p := { p.call [.search ld query] with searches := p.searches + 1 }
        if entries = [] then (some none, p.release)
        else
          (some (some (entries.map entryDict)), (p.call (entries.map fun _ => .read ld)).release)

end LdapProcess

/-! ## A process -/

/-- How a process ends. -/
inductive MainEnd
  /-- a failed assertion -/
  | aborted
  /-- `main` returns -1 in front of the engine -/
  | refused
  | returned
  /-- `exit` inside the engine -/
  | exited
deriving DecidableEq

/-- The part of a process in the engine. -/
inductive EngineProcess
  /-- `load` of the pipe engine, which has one message. -/
  | pipe (session : Session)
  /-- The parent of the SMTP engine looks no one up.  Its `load` comes back when it is told to
  stop; it calls `exit` where it cannot be set up or has sent itself to the background. -/
  | parent (comesBack : Bool)
  /-- A child of the SMTP engine is a copy of its parent.  It works on the messages of its one
  client and calls `exit`, also when it is told to stop. -/
  | child (sessions : List Session)

namespace LdapProcess

variable (lib : LdapLibrary)

/-- `smf_internal_query_user` for an address whose query has been expanded. -/
def queryUser (build : Build) (settings : Settings) (p : LdapProcess) (session : Session)
    (addr : Bytes) : Option Session × LdapProcess :=
  if addr = [] then (some session, p)
  else
    match smfCoreExpandString (settings.ldapUserQuery.getD []) addr with
    | .error _ => (some session, p)
    | .ok (text, _) =>
      match p.query lib text with
      | (none, p) => (none, p)
      | (some none, p) => (some session, p)
      | (some (some result), p) =>
        let data := smfInternalGetUserResult build settings result addr
        (some { session with localUsers := session.localUsers ++ [⟨addr, data.bindings⟩] }, p)

/-- The calls of `smf_internal_query_user`, whose result is only logged. -/
def queryUsers (build : Build) (settings : Settings) :
    LdapProcess → Session → List Bytes → Option Session × LdapProcess
  | p, session, [] => (some session, p)
  | p, session, addr :: addrs =>
    match p.queryUser lib build settings session addr with
    | (none, p) => (none, p)
    | (some session, p) => p.queryUsers build settings session addrs

/-- `smf_internal_fetch_user_data`, with LDAP for the backend. -/
def fetchUsers (build : Build) (settings : Settings) (p : LdapProcess) (session : Session) :
    Option Session × LdapProcess :=
  if settings.ldapUserQuery = none then (some session, p)
  else p.queryUsers lib build settings session session.addresses

/-- Messages, one after the other. -/
def messages (build : Build) (settings : Settings) :
    LdapProcess → List Session → Option (List Session) × LdapProcess
  | p, [] => (some [], p)
  | p, session :: sessions =>
    match p.fetchUsers lib build settings session with
    | (none, p) => (none, p)
    | (some session, p) =>
      match p.messages build settings sessions with
      | (none, p) => (none, p)
      | (some sessions, p) => (some (session :: sessions), p)

/-- `load` of the engine, and whether it comes back. -/
def load (build : Build) (settings : Settings) (part : EngineProcess) (p : LdapProcess) :
    Option Bool × LdapProcess :=
  match part with
  | .pipe session =>
    let out := p.fetchUsers lib build settings session
    (out.1.map fun _ => true, out.2)
  | .parent comesBack => (some comesBack, p)
  | .child sessions =>
    let out := p.messages lib build settings sessions
    (out.1.map fun _ => false, out.2)

/-- The end of `main`. -/
def finish (p : LdapProcess) : LdapProcess := if p.persistent = 1 then p.disconnect else p

/-- `main`.  `queueDir` says whether the checks of the queue directory succeed. -/
def main (build : Build) (settings : Settings) (queueDir : Bool) (p : LdapProcess)
    (part : EngineProcess) : MainEnd × LdapProcess :=
  match if p.persistent = 1 then p.connect lib else (some 0, p) with
  | (none, p) => (.aborted, p)
  | (some ret, p) =>
    if ret ≠ 0 then (.refused, p)
    else if queueDir = false then (.refused, p)
    else
      match p.load lib build settings part with
      | (none, p) => (.aborted, p)
      | (some true, p) => (.returned, p.finish)
      | (some false, p) => (.exited, p)

/-! ## The handles -/

/-- What the calls do with the handles. -/
def ops (p : LdapProcess) : List (Op Nat) := p.calls.filterMap LdapCall.op

/-- The calls keep to the handles that are open, and every handle is a new one. -/
structure Sound (p : LdapProcess) : Prop where
  ledger : run ∅ p.ops = some p.lookupConnection.toFinset
  fresh : ∀ ld, .opens ld ∈ p.ops → ld < p.attempts
  once : ∀ ld, p.ops.count (.opens ld) ≤ 1

/-- The process has gone on from `p` to `p'`. -/
structure Follows (p p' : LdapProcess) : Prop where
  settings : p'.settings = p.settings
  persistent : p'.persistent = p.persistent
  calls : p.calls <+: p'.calls
  sound : p.Sound → p'.Sound

variable {lib} {p p' p'' : LdapProcess} {ld : Nat}

theorem Follows.refl (p : LdapProcess) : p.Follows p := ⟨rfl, rfl, List.prefix_refl _, id⟩

theorem Follows.trans (h : p.Follows p') (h' : p'.Follows p'') : p.Follows p'' where
  settings := h'.settings.trans h.settings
  persistent := h'.persistent.trans h.persistent
  calls := h.calls.trans h'.calls
  sound := h'.sound ∘ h.sound

theorem ops_call (p : LdapProcess) (calls : List LdapCall) :
    (p.call calls).ops = p.ops ++ calls.filterMap LdapCall.op :=
  List.filterMap_append

/-- A handle that is open is used. -/
theorem call_follows (hld : p.lookupConnection = some ld) (calls : List LdapCall)
    (huses : ∀ c ∈ calls, c.op = some (.uses ld)) : p.Follows (p.call calls) := by
  have hops : ∀ op ∈ calls.filterMap LdapCall.op, op = .uses ld := by
    intro op hop
    obtain ⟨c, hc, hcop⟩ := List.mem_filterMap.mp hop
    exact Option.some.inj (hcop.symm.trans (huses c hc))
  have hnone : ∀ h, .opens h ∉ calls.filterMap LdapCall.op := by
    intro h hmem
    cases hops _ hmem
  refine ⟨rfl, rfl, List.prefix_append _ _, fun hp => ⟨?_, ?_, ?_⟩⟩
  · rw [ops_call]
    refine run_trans hp.ledger (run_uses ?_ _ hops)
    rw [hld]
    exact Finset.mem_singleton_self ld
  · intro h hmem
    rw [ops_call, List.mem_append] at hmem
    exact hp.fresh h (hmem.resolve_right (hnone h))
  · intro h
    rw [ops_call, List.count_append, List.count_eq_zero_of_not_mem (hnone h)]
    exact hp.once h

/-- The handle is unbound, if there is one. -/
theorem disconnect_follows (p : LdapProcess) : p.Follows p.disconnect := by
  rw [disconnect, drop]
  cases hconn : p.lookupConnection with
  | none =>
    refine ⟨rfl, rfl, List.prefix_refl _, fun hp => ⟨?_, hp.fresh, hp.once⟩⟩
    have hledger := hp.ledger
    rwa [hconn] at hledger
  | some ld =>
    have hops : (p.call [.unbind ld]).ops = p.ops ++ [.closes ld] := ops_call p _
    refine ⟨rfl, rfl, List.prefix_append _ _, fun hp => ⟨?_, ?_, ?_⟩⟩
    · show run ∅ (p.call [.unbind ld]).ops = _
      rw [hops]
      refine run_trans hp.ledger ?_
      rw [hconn, Option.toFinset_some, run_closes (Finset.mem_singleton_self ld)]
      exact congrArg some (Finset.erase_singleton ld)
    · intro h hmem
      have hmem' : .opens h ∈ p.ops ++ [.closes ld] := hops ▸ hmem
      rw [List.mem_append] at hmem'
      exact hp.fresh h (hmem'.resolve_right (by simp))
    · intro h
      show (p.call [.unbind ld]).ops.count _ ≤ 1
      rw [hops, List.count_append]
      simpa using hp.once h

@[simp] theorem disconnect_connection (p : LdapProcess) :
    p.disconnect.lookupConnection = none := by
  rw [disconnect, drop]
  cases p.lookupConnection <;> rfl

theorem disconnect_attempts (p : LdapProcess) : p.disconnect.attempts = p.attempts := by
  rw [disconnect, drop]
  cases p.lookupConnection <;> rfl

/-- A handle is initialised where none is open. -/
theorem init_sound {q : LdapProcess} (hq : q.Sound) (hnone : q.lookupConnection = none) :
    ({ ({ q with attempts := q.attempts + 1 } : LdapProcess).call
      [.init (some q.attempts), .setOption q.attempts, .setOption q.attempts] with
        lookupConnection := some q.attempts } : LdapProcess).Sound := by
  have hnew : q.ops.count (.opens q.attempts) = 0 := by
    rw [List.count_eq_zero]
    exact fun hmem => Nat.lt_irrefl _ (hq.fresh _ hmem)
  have hops : ∀ calls, (({ q with attempts := q.attempts + 1 } : LdapProcess).call calls).ops =
      q.ops ++ calls.filterMap LdapCall.op := fun calls => List.filterMap_append
  refine ⟨?_, ?_, ?_⟩
  · show run ∅ (LdapProcess.ops (call _ _)) = _
    rw [hops]
    have hledger := hq.ledger
    rw [hnone] at hledger
    refine run_trans hledger ?_
    show run ∅ ([.opens q.attempts] ++ [.uses q.attempts, .uses q.attempts]) = _
    refine run_trans (run_opens (Finset.notMem_empty _)) ?_
    exact run_uses (Finset.mem_insert_self _ _) _ (by simp)
  · intro h hmem
    change .opens h ∈ LdapProcess.ops (call _ _) at hmem
    rw [hops] at hmem
    rcases List.mem_append.mp hmem with hold | hnew
    · exact Nat.lt_succ_of_lt (hq.fresh h hold)
    · obtain rfl : h = q.attempts := by simpa [LdapCall.op] using hnew
      exact Nat.lt_succ_self _
  · intro h
    show (LdapProcess.ops (call _ _)).count _ ≤ 1
    rw [hops, List.count_append]
    show q.ops.count (.opens h) + [Op.opens q.attempts, .uses q.attempts, .uses q.attempts].count _
      ≤ 1
    by_cases hh : h = q.attempts
    · rw [hh, hnew]
      simp
    · have hne : q.attempts ≠ h := Ne.symm hh
      simpa [List.count_cons, hne] using hq.once h

theorem initLd_eq (lib : LdapLibrary) (p : LdapProcess) :
    p.initLd lib =
      if lib.io.initializes p.attempts then
        { ({ p.disconnect with attempts := p.attempts + 1 } : LdapProcess).call
          [.init (some p.attempts), .setOption p.attempts, .setOption p.attempts] with
            lookupConnection := some p.attempts }
      else ({ p.disconnect with attempts := p.attempts + 1 } : LdapProcess).call [.init none] :=
  rfl

theorem initLd_follows (lib : LdapLibrary) (p : LdapProcess) : p.Follows (p.initLd lib) := by
  have hclosed := disconnect_follows p
  have hattempts := disconnect_attempts p
  rw [initLd_eq]
  split_ifs
  · refine ⟨hclosed.settings, hclosed.persistent,
      hclosed.calls.trans (List.prefix_append _ _), fun hp => ?_⟩
    have hsound := init_sound (hclosed.sound hp) (disconnect_connection p)
    rwa [hattempts] at hsound
  · have hops : (({ p.disconnect with attempts := p.attempts + 1 } : LdapProcess).call
        [.init none]).ops = p.disconnect.ops := by
      show List.filterMap LdapCall.op (_ ++ [.init none]) = _
      rw [List.filterMap_append]
      exact List.append_nil _
    refine ⟨hclosed.settings, hclosed.persistent,
      hclosed.calls.trans (List.prefix_append _ _), fun hp => ?_⟩
    have hsound := hclosed.sound hp
    refine ⟨?_, fun h hmem => ?_, fun h => ?_⟩
    · rw [hops]
      exact hsound.ledger
    · rw [hops] at hmem
      have hlt := hsound.fresh h hmem
      rw [hattempts] at hlt
      exact Nat.lt_succ_of_lt hlt
    · rw [hops]
      exact hsound.once h

theorem bind_follows (lib : LdapLibrary) (p : LdapProcess) : p.Follows (p.bind lib).2 := by
  rw [bind]
  cases hconn : p.lookupConnection with
  | none => exact .refl p
  | some ld =>
    have hcall := call_follows hconn [.bind ld (lib.io.binds ld)]
      (by simp [LdapCall.op])
    dsimp only
    split_ifs
    · exact .refl p
    · exact .refl p
    · exact .refl p
    · exact hcall
    · exact hcall

/-- What an initialisation and a bind keep is kept by the attempts of a connect. -/
theorem connect_invariant {Inv : LdapProcess → Prop} (hinit : ∀ p, Inv p → Inv (p.initLd lib))
    (hbind : ∀ p, Inv p → Inv (p.bind lib).2) (hp : Inv p) : Inv (p.connect lib).2 := by
  have hattempt : ∀ (next : LdapProcess → Option Int × LdapProcess) (p : LdapProcess),
      (∀ p, Inv p → Inv (next p).2) → Inv p → Inv (p.attempt lib next).2 := by
    intro next p hnext hp
    have hbound := hbind _ (hinit p hp)
    rw [attempt]
    rcases hrun : (p.initLd lib).bind lib with ⟨_ | ret, q⟩ <;> rw [hrun] at hbound
    · exact hbound
    · dsimp only
      split_ifs
      · exact hbound
      · exact hnext q hbound
  have hloop : ∀ hosts p, Inv p → Inv (hostLoop lib hosts p).2 := by
    intro hosts
    induction hosts with
    | nil => exact fun p hp => hp
    | cons host hosts ih => exact fun p hp => hattempt _ p ih hp
  rw [connect]
  split_ifs
  · exact hp
  · cases smfLookupLdapGetUri lib.targets p.settings none with
    | error e => exact hp
    | ok uri => exact hattempt _ p (hloop p.settings.hosts) hp

theorem getConnection_invariant {Inv : LdapProcess → Prop}
    (hinit : ∀ p, Inv p → Inv (p.initLd lib)) (hbind : ∀ p, Inv p → Inv (p.bind lib).2)
    (hp : Inv p) : Inv (p.getConnection lib).2 := by
  have hconnect := connect_invariant hinit hbind hp
  rw [getConnection]
  cases p.lookupConnection with
  | some ld => exact hp
  | none => rcases h : p.connect lib with ⟨_ | ret, q⟩ <;> rw [h] at hconnect <;> exact hconnect

theorem connect_follows (lib : LdapLibrary) (p : LdapProcess) : p.Follows (p.connect lib).2 :=
  connect_invariant (fun q hq => hq.trans (initLd_follows lib q))
    (fun q hq => hq.trans (bind_follows lib q)) (.refl p)

theorem getConnection_follows (lib : LdapLibrary) (p : LdapProcess) :
    p.Follows (p.getConnection lib).2 :=
  getConnection_invariant (fun q hq => hq.trans (initLd_follows lib q))
    (fun q hq => hq.trans (bind_follows lib q)) (.refl p)

/-- The handle that is returned is the one in `lookup_connection`. -/
theorem getConnection_some {p' : LdapProcess} (h : p.getConnection lib = (some (some ld), p')) :
    p'.lookupConnection = some ld := by
  rw [getConnection] at h
  cases hconn : p.lookupConnection with
  | some ld' =>
    rw [hconn] at h
    obtain ⟨hld, rfl⟩ := Prod.mk.inj h
    rw [hconn, Option.some.inj hld]
  | none =>
    rw [hconn] at h
    rcases hconnect : p.connect lib with ⟨_ | ret, q⟩
    · rw [hconnect] at h
      cases h
    · rw [hconnect] at h
      obtain ⟨hld, rfl⟩ := Prod.mk.inj h
      have hld := Option.some.inj hld
      split_ifs at hld
      exact hld

theorem release_follows (p : LdapProcess) : p.Follows p.release := by
  rw [release]
  split_ifs
  · exact disconnect_follows p
  · exact .refl p

/-! ### A query -/

/-- What a query does behind `smf_lookup_ldap_get_connection`. -/
def searched (lib : LdapLibrary) (query : Bytes) (ld : Nat) (p : LdapProcess) : LdapProcess :=
  ({ p.call (.search ld query :: (lib.answers p.searches query).map fun _ => .read ld) with
    searches := p.searches + 1 } : LdapProcess).release

theorem searched_persistent (h : p.persistent = 1) (query : Bytes) (ld : Nat) :
    p.searched lib query ld =
      { p.call (.search ld query :: (lib.answers p.searches query).map fun _ => .read ld) with
        searches := p.searches + 1 } :=
  if_neg (not_not_intro h)

theorem searched_transient (lib : LdapLibrary) (h : p.persistent ≠ 1)
    (hconn : p.lookupConnection = some ld) (query : Bytes) :
    (p.searched lib query ld).lookupConnection = none ∧
      (p.searched lib query ld).calls = p.calls ++
        (.search ld query :: (lib.answers p.searches query).map fun _ => .read ld) ++
          [.unbind ld] := by
  have hrelease : p.searched lib query ld = disconnect _ := if_pos h
  rw [hrelease]
  refine ⟨disconnect_connection _, ?_⟩
  rw [disconnect, drop]
  show LdapProcess.calls (match p.lookupConnection with | some ld => _ | none => _) = _
  rw [hconn]
  rfl

/-- A query ends in front of its search, or it searches with the handle that it has got. -/
theorem query_cases (lib : LdapLibrary) (p : LdapProcess) (query : Bytes) :
    (p.query lib query).2 = p ∨ (p.query lib query).2 = (p.getConnection lib).2 ∨
      ∃ ld q, p.getConnection lib = (some (some ld), q) ∧ q.lookupConnection = some ld ∧
        (p.query lib query).2 = q.searched lib query ld := by
  rw [LdapProcess.query]
  by_cases hbase : p.settings.base = none
  · rw [if_pos hbase]
    exact .inl rfl
  rw [if_neg hbase]
  rcases hget : p.getConnection lib with ⟨_ | _ | ld, q⟩
  · exact .inr (.inl rfl)
  · exact .inr (.inl rfl)
  by_cases hempty : query = []
  · exact .inr (.inl (by dsimp only; rw [if_pos hempty]))
  refine .inr (.inr ⟨ld, q, rfl, getConnection_some hget, ?_⟩)
  dsimp only
  rw [if_neg hempty]
  by_cases hentries : lib.answers q.searches query = []
  · rw [if_pos hentries, searched, hentries]
    rfl
  · rw [if_neg hentries]
    show release _ = release _
    rw [call, call, call, List.append_assoc]
    rfl

theorem searched_follows (hconn : p.lookupConnection = some ld) (query : Bytes) :
    p.Follows (p.searched lib query ld) := by
  have hcall := call_follows hconn
    (.search ld query :: (lib.answers p.searches query).map fun _ => .read ld)
    (by simp [LdapCall.op])
  have hsearch : p.Follows
      { p.call (.search ld query :: (lib.answers p.searches query).map fun _ => .read ld) with
        searches := p.searches + 1 } :=
    ⟨hcall.settings, hcall.persistent, hcall.calls, fun hp =>
      ⟨(hcall.sound hp).ledger, (hcall.sound hp).fresh, (hcall.sound hp).once⟩⟩
  exact hsearch.trans (release_follows _)

theorem query_follows (lib : LdapLibrary) (p : LdapProcess) (query : Bytes) :
    p.Follows (p.query lib query).2 := by
  rcases query_cases lib p query with h | h | ⟨ld, q, hget, hconn, h⟩
  · rw [h]
    exact .refl p
  · rw [h]
    exact getConnection_follows lib p
  · have hq := getConnection_follows lib p
    rw [hget] at hq
    rw [h]
    exact hq.trans (searched_follows hconn query)

/-! ### What is searched -/

/-- Every search has been made in `p`. -/
def Quiet (p p' : LdapProcess) : Prop :=
  ∀ ld query, .search ld query ∈ p'.calls → .search ld query ∈ p.calls

theorem Quiet.call (h : p.Quiet p') (calls : List LdapCall)
    (hcalls : ∀ ld query, .search ld query ∉ calls) : p.Quiet (p'.call calls) := by
  intro ld query hmem
  exact h ld query ((List.mem_append.mp hmem).resolve_right (hcalls ld query))

theorem Quiet.initLd (h : p.Quiet p') : p.Quiet (p'.initLd lib) := by
  have hclosed : p.Quiet p'.disconnect := by
    rw [disconnect, drop]
    cases p'.lookupConnection with
    | none => exact h
    | some ld => exact h.call [.unbind ld] (by simp)
  rw [initLd_eq]
  split_ifs
  · exact hclosed.call [.init _, .setOption _, .setOption _] (by simp)
  · exact hclosed.call [.init none] (by simp)

theorem Quiet.bind (h : p.Quiet p') : p.Quiet (p'.bind lib).2 := by
  rw [LdapProcess.bind]
  cases p'.lookupConnection with
  | none => exact h
  | some ld =>
    dsimp only
    split_ifs
    · exact h
    · exact h
    · exact h
    all_goals exact h.call [.bind ld _] (by simp)

/-- Connecting makes no search. -/
theorem connect_quiet (lib : LdapLibrary) (p : LdapProcess) : p.Quiet (p.connect lib).2 :=
  connect_invariant (fun _ hq => hq.initLd) (fun _ hq => hq.bind) fun _ _ hmem => hmem

theorem getConnection_quiet (lib : LdapLibrary) (p : LdapProcess) :
    p.Quiet (p.getConnection lib).2 :=
  getConnection_invariant (fun _ hq => hq.initLd) (fun _ hq => hq.bind) fun _ _ hmem => hmem

/-- The handle in `lookup_connection` has been bound. -/
def Bound (p : LdapProcess) : Prop :=
  ∃ ld, p.lookupConnection = some ld ∧ .bind ld true ∈ p.calls

theorem bind_bound (h : (p.bind lib).1 = some 0) : (p.bind lib).2.Bound := by
  rw [LdapProcess.bind] at h ⊢
  cases hconn : p.lookupConnection with
  | none =>
    rw [hconn] at h
    cases h
  | some ld =>
    rw [hconn] at h
    dsimp only at h ⊢
    split_ifs at h with hbase hdn hpw hbinds
    · exact absurd (Option.some.inj h) (by decide)
    · exact absurd (Option.some.inj h) (by decide)
    · exact absurd (Option.some.inj h) (by decide)
    · rw [if_neg hbase, if_neg hdn, if_neg hpw, hbinds]
      exact ⟨ld, hconn, List.mem_append_right _ (List.mem_singleton_self _)⟩
    · exact absurd (Option.some.inj h) (by decide)

/-- A connect that succeeds has bound the handle that it leaves. -/
theorem connect_bound (h : (p.connect lib).1 = some 0) : (p.connect lib).2.Bound := by
  have hattempt : ∀ (next : LdapProcess → Option Int × LdapProcess) (p : LdapProcess),
      (∀ p, (next p).1 = some 0 → (next p).2.Bound) → (p.attempt lib next).1 = some 0 →
        (p.attempt lib next).2.Bound := by
    intro next p hnext h
    rw [attempt] at h ⊢
    rcases hrun : (p.initLd lib).bind lib with ⟨_ | ret, q⟩
    · rw [hrun] at h
      cases h
    · rw [hrun] at h
      dsimp only at h ⊢
      split_ifs at h ⊢ with hret
      · have hbound : ((p.initLd lib).bind lib).2.Bound := bind_bound (by rw [hrun, hret])
        rwa [hrun] at hbound
      · exact hnext q h
  have hloop : ∀ hosts p, (hostLoop lib hosts p).1 = some 0 → (hostLoop lib hosts p).2.Bound := by
    intro hosts
    induction hosts with
    | nil => exact fun p h => absurd (Option.some.inj h) (by decide)
    | cons host hosts ih => exact fun p h => hattempt _ p ih h
  rw [connect] at h ⊢
  split_ifs at h ⊢
  · exact absurd (Option.some.inj h) (by decide)
  · cases huri : smfLookupLdapGetUri lib.targets p.settings none with
    | error e =>
      rw [huri] at h
      cases h
    | ok uri =>
      rw [huri] at h
      exact hattempt _ p (hloop p.settings.hosts) h

/-! ### A run of queries -/

section Invariant

variable {Inv : LdapProcess → Prop} {build : Build} {settings : Settings}

theorem queryUser_invariant (hquery : ∀ p query, Inv p → Inv (p.query lib query).2)
    (hp : Inv p) (session : Session) (addr : Bytes) :
    Inv (p.queryUser lib build settings session addr).2 := by
  rw [queryUser]
  split_ifs
  · exact hp
  · cases smfCoreExpandString (settings.ldapUserQuery.getD []) addr with
    | error e => exact hp
    | ok out =>
      obtain ⟨text, rep⟩ := out
      have hnext := hquery p text hp
      dsimp only
      rcases hrun : p.query lib text with ⟨_ | _ | result, q⟩ <;> rw [hrun] at hnext <;>
        exact hnext

/-- What every query keeps is kept by a message. -/
theorem fetchUsers_invariant (hquery : ∀ p query, Inv p → Inv (p.query lib query).2)
    (hp : Inv p) (session : Session) : Inv (p.fetchUsers lib build settings session).2 := by
  have husers : ∀ (addrs : List Bytes) (p : LdapProcess) (session : Session), Inv p →
      Inv (p.queryUsers lib build settings session addrs).2 := by
    intro addrs
    induction addrs with
    | nil => exact fun p session hp => hp
    | cons addr addrs ih =>
      intro p session hp
      have hnext : Inv (p.queryUser lib build settings session addr).2 :=
        queryUser_invariant hquery hp session addr
      rw [queryUsers]
      rcases hrun : p.queryUser lib build settings session addr with ⟨_ | session', q⟩
      · rwa [hrun] at hnext
      · rw [hrun] at hnext
        exact ih q session' hnext
  rw [fetchUsers]
  split_ifs
  · exact hp
  · exact husers session.addresses p session hp

/-- And so by the engine. -/
theorem load_invariant (Inv : LdapProcess → Prop)
    (hquery : ∀ p query, Inv p → Inv (p.query lib query).2)
    (hp : Inv p) (part : EngineProcess) : Inv (p.load lib build settings part).2 := by
  cases part with
  | pipe session => exact fetchUsers_invariant hquery hp session
  | parent comesBack => exact hp
  | child sessions =>
    show Inv (p.messages lib build settings sessions).2
    induction sessions generalizing p with
    | nil => exact hp
    | cons session sessions ih =>
      have hfetch : Inv (p.fetchUsers lib build settings session).2 :=
        fetchUsers_invariant hquery hp session
      rw [messages]
      rcases hrun : p.fetchUsers lib build settings session with ⟨_ | session', q⟩
      · rwa [hrun] at hfetch
      · rw [hrun] at hfetch
        have hrest := ih hfetch
        dsimp only
        rcases hmore : q.messages lib build settings sessions with ⟨_ | sessions', q'⟩ <;>
          rw [hmore] at hrest <;> exact hrest

end Invariant

/-! ### Whole processes -/

/-- One handle stays open, and all searches are made with it. -/
structure Steady (ld : Nat) (p : LdapProcess) : Prop where
  persistent : p.persistent = 1
  conn : p.lookupConnection = some ld
  searches : ∀ l query, .search l query ∈ p.calls → l = ld

theorem Steady.query (h : p.Steady ld) (query : Bytes) : (p.query lib query).2.Steady ld := by
  have hget : p.getConnection lib = (some (some ld), p) := by
    rw [getConnection, h.conn]
  rcases query_cases lib p query with hsame | hsame | ⟨l, q, hl, -, hsame⟩
  · rwa [hsame]
  · rwa [hsame, hget]
  · obtain ⟨hld, rfl⟩ := Prod.mk.inj (hget.symm.trans hl)
    obtain rfl := Option.some.inj (Option.some.inj hld)
    rw [hsame, searched_persistent h.persistent]
    refine ⟨h.persistent, h.conn, fun l' text hmem => ?_⟩
    rcases List.mem_append.mp hmem with hold | hnew
    · exact h.searches l' text hold
    · simp only [List.mem_cons, List.mem_map, reduceCtorEq, and_false, exists_false, or_false,
        LdapCall.search.injEq] at hnew
      exact hnew.1

/-- Every handle that a search was made with is unbound. -/
structure Released (p : LdapProcess) : Prop where
  transient : p.persistent ≠ 1
  searches : ∀ ld query, .search ld query ∈ p.calls → .unbind ld ∈ p.calls

theorem Released.query (h : p.Released) (query : Bytes) : (p.query lib query).2.Released := by
  have hget := getConnection_follows lib p
  have hquiet := getConnection_quiet lib p
  have hkept : ((p.getConnection lib).2).Released :=
    ⟨hget.persistent ▸ h.transient, fun ld text hmem =>
      hget.calls.subset (h.searches ld text (hquiet ld text hmem))⟩
  rcases query_cases lib p query with hsame | hsame | ⟨ld, q, hl, hconn, hsame⟩
  · rwa [hsame]
  · rwa [hsame]
  · rw [hl] at hkept
    have hunbinds := (searched_transient lib hkept.transient hconn query).2
    rw [hsame]
    refine ⟨(searched_follows hconn query).persistent ▸ hkept.transient, fun l text hmem => ?_⟩
    rw [hunbinds, List.append_assoc, List.mem_append] at hmem
    rw [hunbinds, List.append_assoc]
    rcases hmem with hold | hnew
    · exact List.mem_append_left _ (hkept.searches l text hold)
    · obtain rfl : l = ld := by
        simp only [List.mem_append, List.mem_cons, List.mem_map, reduceCtorEq, and_false,
          exists_false, or_false, LdapCall.search.injEq, List.not_mem_nil] at hnew
        exact hnew.1
      exact List.mem_append_right _ (List.mem_append_right _ (List.mem_singleton_self _))

section Main

variable {build : Build} {settings : Settings} {queueDir : Bool} {part : EngineProcess}

theorem finish_follows (p : LdapProcess) : p.Follows p.finish := by
  rw [finish]
  split_ifs
  · exact disconnect_follows p
  · exact .refl p

/-- Whichever way a process ends, it has come there from the connect, from the engine or from the
disconnect. -/
theorem main_follows (p : LdapProcess) :
    p.Follows (p.main lib build settings queueDir part).2 := by
  have hstart : p.Follows (if p.persistent = 1 then p.connect lib else (some 0, p)).2 := by
    split_ifs
    · exact connect_follows lib p
    · exact .refl p
  rw [main]
  rcases hrun : (if p.persistent = 1 then p.connect lib else (some 0, p)) with ⟨_ | ret, q⟩
  · rwa [hrun] at hstart
  rw [hrun] at hstart
  dsimp only
  split_ifs
  · exact hstart
  · exact hstart
  · have hload : p.Follows (q.load lib build settings part).2 :=
      load_invariant p.Follows (fun p' query h => h.trans (query_follows lib p' query)) hstart part
    rcases hmore : q.load lib build settings part with ⟨_ | _ | _, q'⟩ <;> rw [hmore] at hload
    · exact hload
    · exact hload
    · exact hload.trans (finish_follows q')

/-- A process with a persistent connection gets to the engine with a handle that it has bound, and
keeps it there. -/
theorem main_steady {p : LdapProcess} (hpersistent : p.persistent = 1)
    (hnone : ∀ l query, .search l query ∉ p.calls)
    (h : (p.main lib build settings queueDir part).1 ∈ [MainEnd.returned, .exited]) :
    ∃ q ld, q.Steady ld ∧ .bind ld true ∈ q.calls ∧
      (p.main lib build settings queueDir part = (.returned, q.disconnect) ∨
        p.main lib build settings queueDir part = (.exited, q)) := by
  have hconnect := connect_follows lib p
  have hquiet := connect_quiet lib p
  rw [main, if_pos hpersistent] at h ⊢
  rcases hrun : p.connect lib with ⟨_ | ret, q⟩
  · rw [hrun] at h
    simp at h
  rw [hrun] at h hconnect hquiet
  dsimp only at h ⊢
  split_ifs at h ⊢ with hret hdir
  · simp at h
  · simp at h
  obtain ⟨ld, hconn, hbind⟩ : q.Bound := by
    have hbound : (p.connect lib).2.Bound := connect_bound (by rw [hrun, not_not.mp hret])
    rwa [hrun] at hbound
  have hsteady : q.Steady ld :=
    ⟨hconnect.persistent.trans hpersistent, hconn, fun l query hmem =>
      absurd (hquiet l query hmem) (hnone l query)⟩
  have hload : q.Follows (q.load lib build settings part).2 ∧
      (q.load lib build settings part).2.Steady ld :=
    load_invariant (fun p' => q.Follows p' ∧ p'.Steady ld)
      (fun p' query hp' => ⟨hp'.1.trans (query_follows lib p' query), hp'.2.query query⟩)
      ⟨.refl q, hsteady⟩ part
  rcases hmore : q.load lib build settings part with ⟨_ | _ | _, q'⟩ <;>
    rw [hmore] at h hload <;> obtain ⟨hfollows, hsteady'⟩ := hload
  · simp at h
  · exact ⟨q', ld, hsteady', hfollows.calls.subset hbind, .inr rfl⟩
  · refine ⟨q', ld, hsteady', hfollows.calls.subset hbind, .inl ?_⟩
    exact congrArg (Prod.mk _) (if_pos hsteady'.persistent)

theorem Steady.disconnect_calls {q : LdapProcess} (h : q.Steady ld) :
    q.disconnect.calls = q.calls ++ [.unbind ld] := by
  rw [disconnect, drop, h.conn]
  rfl

/-- What is left of a persistent connection. -/
theorem main_persistent {p : LdapProcess} (hpersistent : p.persistent = 1)
    (hnone : ∀ l query, .search l query ∉ p.calls)
    (h : (p.main lib build settings queueDir part).1 ∈ [MainEnd.returned, .exited]) :
    let out := p.main lib build settings queueDir part
    ∃ ld, .bind ld true ∈ out.2.calls ∧
      (∀ l query, .search l query ∈ out.2.calls → l = ld) ∧
      out.2.lookupConnection = if out.1 = .exited then some ld else none := by
  obtain ⟨q, ld, hsteady, hbind, hend⟩ := main_steady hpersistent hnone h
  refine ⟨ld, ?_⟩
  rcases hend with hend | hend <;> rw [hend]
  · rw [hsteady.disconnect_calls]
    refine ⟨List.mem_append_left _ hbind, fun l query hmem => ?_, disconnect_connection q⟩
    exact hsteady.searches l query ((List.mem_append.mp hmem).resolve_right (by simp))
  · exact ⟨hbind, hsteady.searches, hsteady.conn⟩

/-- A process without one. -/
theorem main_transient {p : LdapProcess} (hp : p.Released) :
    (p.main lib build settings queueDir part).2.Released := by
  have hload : (p.load lib build settings part).2.Released :=
    load_invariant Released (fun p' query h => h.query query) hp part
  rw [main, if_neg hp.transient]
  dsimp only
  split_ifs with hret hdir
  · exact hp
  · exact hp
  · rcases hmore : p.load lib build settings part with ⟨_ | _ | _, q⟩ <;> rw [hmore] at hload
    · exact hload
    · exact hload
    · show q.finish.Released
      rwa [show q.finish = q from if_neg hload.transient]

end Main

end LdapProcess

end Spmfilter
