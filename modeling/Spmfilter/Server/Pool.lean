import Spmfilter.Server
import Spmfilter.Lib.Transition

/-!
# The parent, its children and the counters

The protocol between `smf_server.c` and `smf_smtpd_handle_client`.  The parent
forks a child and adds it to the counters, waits for a child and takes it off
them.  A child signals the parent that it has a client, takes itself off
`num_spare`, and enters itself among the active children.  The steps of the
parent and of the children interleave freely.

`census` is the pool the counters speak about: the children that run or have
exited, and the one that `waitpid` has returned last.

* `PoolStep` says what a step can do to the census and the counters, and
  `Pool.step_sound` that a step does nothing else.
-/

namespace Spmfilter

open Slots Transition

/-! ## Children -/

/-- How far a child has come. -/
inductive Phase
  /-- in `accept` -/
  | idle
  /-- has a client and has sent SIGUSR1 -/
  | signalled
  /-- has called `smf_server_decrement_spare` -/
  | counted
  /-- has called `smf_server_add_active` -/
  | active
  /-- has exited, while it served a client or before -/
  | exited (served : Bool)
deriving DecidableEq

/-- `num_spare` has room for it until it takes itself off. -/
def Phase.spare : Phase → Bool
  | .idle | .signalled | .exited false => true
  | _ => false

/-- It has entered itself among the active children. -/
def Phase.served : Phase → Bool
  | .active | .exited true => true
  | _ => false

def Phase.hasExited : Phase → Bool
  | .exited _ => true
  | _ => false

structure Child where
  pid : Int
  phase : Phase
deriving DecidableEq

/-- A child that `waitpid` has returned. -/
structure Reaped where
  pid : Int
  served : Bool
deriving DecidableEq

def Reaped.child (r : Reaped) : Child := ⟨r.pid, .exited r.served⟩

/-- What a child does, in the order of `smf_smtpd_handle_client`. -/
inductive ChildAct
  | signal
  | decrementSpare
  | addActive
  | exit
deriving DecidableEq

/-- A child serves one client and exits, or exits before it has counted one. -/
def ChildAct.move : ChildAct → Phase → Option Phase
  | .signal, .idle => some .signalled
  | .decrementSpare, .signalled => some .counted
  | .addActive, .counted => some .active
  | .exit, .idle | .exit, .signalled => some (.exited false)
  | .exit, .active => some (.exited true)
  | _, _ => none

/-- What a child's step does to the counters. -/
def ChildAct.count (pid : Int) : ChildAct → ServerCounters → ServerCounters
  | .decrementSpare => smfServerDecrementSpare
  | .addActive => smfServerAddActive pid
  | .signal | .exit => id

/-- The child `pid` takes its next step. -/
def advance (pid : Int) (a : ChildAct) : List Child → Option (List Child)
  | [] => none
  | c :: cs =>
    if c.pid = pid then (a.move c.phase).map fun phase => ⟨pid, phase⟩ :: cs
    else (advance pid a cs).map (c :: ·)

/-! ## The pool -/

structure Pool where
  counters : ServerCounters
  /-- the children that run, and those that have exited and wait for `waitpid` -/
  children : List Child := []
  /-- the parent is in `smf_server_fork` and has yet to add this child -/
  forked : Option Int := none
  /-- `waitpid` has returned this child, which is still on the counters -/
  waited : Option Reaped := none
deriving DecidableEq

def Pool.init (w : ServerSettings) : Pool where
  counters := smfServerInitIpc w

inductive PoolAct
  | fork (pid : Int)
  | addChild
  | waitpid (r : Reaped)
  | removeActive
  | child (a : ChildAct) (pid : Int)

/-- Every fork succeeds, and gives a pid that no child has. -/
def Pool.step : PoolAct → Pool → Option Pool
  | .fork pid, p =>
    if p.forked = none ∧ p.waited = none ∧ 0 < pid ∧ pid ∉ p.children.map Child.pid then
      some { p with children := ⟨pid, .idle⟩ :: p.children, forked := some pid }
    else none
  | .addChild, p =>
    p.forked.map fun pid =>
      { p with counters := smfServerAddChild pid p.counters, forked := none }
  | .waitpid r, p =>
    if p.forked = none ∧ p.waited = none ∧ r.child ∈ p.children then
      some { p with children := p.children.erase r.child, waited := some r }
    else none
  | .removeActive, p =>
    if p.forked = none then
      p.waited.map fun r =>
        { p with counters := smfServerRemoveActive r.pid p.counters, waited := none }
    else none
  | .child a pid, p =>
    (advance pid a p.children).map fun children =>
      { p with children := children, counters := a.count pid p.counters }

/-- The children that have not exited. -/
def Pool.live (p : Pool) : List Child := p.children.filter fun c => !c.phase.hasExited

/-! ## The census -/

/-- The children the counters have to answer for. -/
def Pool.census (p : Pool) : Multiset Child :=
  (p.children : Multiset Child) + (p.waited.toList.map Reaped.child : List Child)

theorem Pool.census_of_none {p : Pool} (h : p.waited = none) : p.census = p.children := by
  rw [Pool.census, h]
  exact Multiset.add_zero _

theorem Pool.census_of_some {p : Pool} {r : Reaped} (h : p.waited = some r) :
    p.census = r.child ::ₘ p.children := by
  rw [Pool.census, h]
  exact Multiset.add_comm _ _

/-- The child that is forked and not yet added. -/
def Pool.pending (p : Pool) : Multiset Int := (p.forked.toList : List Int)

/-- What a step can do to the census and the counters. -/
inductive PoolStep (p q : Pool) : PoolAct → Prop
  | fork {pid : Int} (hpid : 0 < pid) (fresh : ∀ c ∈ p.census, c.pid ≠ pid)
      (hp : p.forked = none) (hq : q.forked = some pid) (hwaited : q.waited = none)
      (hcensus : q.census = ⟨pid, .idle⟩ ::ₘ p.census) (hcounters : q.counters = p.counters) :
      PoolStep p q (.fork pid)
  | addChild {pid : Int} (hp : p.forked = some pid) (hq : q.forked = none)
      (hcensus : q.census = p.census)
      (hcounters : q.counters = smfServerAddChild pid p.counters) : PoolStep p q .addChild
  | waitpid {r : Reaped} (hforked : q.forked = p.forked) (hcensus : q.census = p.census)
      (hcounters : q.counters = p.counters) : PoolStep p q (.waitpid r)
  | removeActive {r : Reaped} (hp : p.forked = none) (hq : q.forked = none)
      (hcensus : p.census = r.child ::ₘ q.census)
      (hcounters : q.counters = smfServerRemoveActive r.pid p.counters) :
      PoolStep p q .removeActive
  | child {a : ChildAct} {pid : Int} {phase phase' : Phase} (others : Multiset Child)
      (hmove : a.move phase = some phase') (hforked : q.forked = p.forked)
      (hbefore : p.census = ⟨pid, phase⟩ ::ₘ others)
      (hafter : q.census = ⟨pid, phase'⟩ ::ₘ others)
      (hcounters : q.counters = a.count pid p.counters) : PoolStep p q (.child a pid)

theorem advance_eq_some {pid : Int} {a : ChildAct} {cs cs' : List Child}
    (h : advance pid a cs = some cs') :
    ∃ phase phase' others, a.move phase = some phase' ∧
      (cs : Multiset Child) = ⟨pid, phase⟩ ::ₘ others ∧
      (cs' : Multiset Child) = ⟨pid, phase'⟩ ::ₘ others := by
  induction cs generalizing cs' with
  | nil => cases h
  | cons c cs ih =>
    rw [advance] at h
    split at h
    · rename_i hpid
      obtain ⟨phase', hmove, rfl⟩ := Option.map_eq_some_iff.mp h
      refine ⟨c.phase, phase', cs, hmove, ?_, rfl⟩
      rw [← hpid]
      rfl
    · obtain ⟨cs1, hadv, rfl⟩ := Option.map_eq_some_iff.mp h
      obtain ⟨phase, phase', others, hmove, hbefore, hafter⟩ := ih hadv
      refine ⟨phase, phase', c ::ₘ others, hmove, ?_, ?_⟩
      · rw [← Multiset.cons_coe, hbefore, Multiset.cons_swap]
      · rw [← Multiset.cons_coe, hafter, Multiset.cons_swap]

/-- A step does nothing but what `PoolStep` says. -/
theorem Pool.step_sound {a : PoolAct} {p q : Pool} (h : p.step a = some q) : PoolStep p q a := by
  cases a with
  | fork pid =>
    rw [Pool.step] at h
    split at h
    · rename_i hguard
      obtain ⟨hforked, hwaited, hpid, hfresh⟩ := hguard
      obtain rfl := Option.some.inj h
      refine .fork hpid ?_ hforked rfl hwaited ?_ rfl
      · intro c hc hcpid
        rw [Pool.census_of_none hwaited] at hc
        exact hfresh (List.mem_map.mpr ⟨c, hc, hcpid⟩)
      · rw [Pool.census_of_none hwaited]
        exact Pool.census_of_none hwaited
    · cases h
  | addChild =>
    obtain ⟨pid, hforked, rfl⟩ := Option.map_eq_some_iff.mp h
    exact .addChild hforked rfl rfl rfl
  | waitpid r =>
    rw [Pool.step] at h
    split at h
    · rename_i hguard
      obtain ⟨-, hwaited, hmem⟩ := hguard
      obtain rfl := Option.some.inj h
      refine .waitpid rfl ?_ rfl
      rw [Pool.census_of_none hwaited, Pool.census_of_some rfl, ← Multiset.coe_erase,
        Multiset.cons_erase (Multiset.mem_coe.mpr hmem)]
    · cases h
  | removeActive =>
    rw [Pool.step] at h
    split at h
    · rename_i hforked
      obtain ⟨r, hwaited, rfl⟩ := Option.map_eq_some_iff.mp h
      refine .removeActive (r := r) hforked hforked ?_ rfl
      rw [Pool.census_of_some hwaited, Pool.census_of_none rfl]
    · cases h
  | child a pid =>
    obtain ⟨cs, hadv, rfl⟩ := Option.map_eq_some_iff.mp h
    obtain ⟨phase, phase', others, hmove, hbefore, hafter⟩ := advance_eq_some hadv
    refine .child (others + (p.waited.toList.map Reaped.child : List Child)) hmove rfl ?_ ?_ rfl
    · rw [Pool.census, hbefore, Multiset.cons_add]
    · rw [Pool.census, hafter, Multiset.cons_add]

end Spmfilter
