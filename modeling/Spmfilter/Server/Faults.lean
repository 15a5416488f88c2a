import Spmfilter.Server.Counters

/-!
# Failed forks and killed children

The protocol of `Server.Pool` with the two faults that leave their mark on the
counters.  `fork` may fail, and then `smf_server_fork` hands its `-1` to
`_smf_server_add_child` all the same.  A child may die in any phase, by itself or
killed; a child that dies inside a locked section keeps the semaphore, and nobody
is reaped after it.

* `FaultyStep` says what a step can do, in terms of the census.
* `FaultyStep.drift` is the step lemma: a failed fork adds one to both counters
  for good, and a child that is reaped off its spare place a second time takes one
  from `num_spare`.
* `drift_of_events` adds these up over a run, and `accounts_iff_faultless` reads
  the sum once every dead child is reaped.
-/

namespace Spmfilter

open Slots Transition

/-! ## The pool with faults -/

structure FaultyPool where
  counters : ServerCounters
  /-- the children that are alive -/
  children : List Child := []
  /-- the children that wait for `waitpid`, in the phase they died in -/
  dead : List Child := []
  /-- the parent is in `smf_server_fork`, with the result of its `fork` -/
  forked : Option Int := none
  /-- `waitpid` has returned this child, which is still on the counters -/
  waited : Option Child := none
deriving DecidableEq

def FaultyPool.init (w : ServerSettings) : FaultyPool where
  counters := smfServerInitIpc w

inductive FaultyAct
  | fork (pid : Int)
  | forkFails
  | addChild
  | child (a : ChildAct) (pid : Int)
  | die (c : Child)
  | waitpid (c : Child)
  | removeActive
deriving DecidableEq

def FaultyPool.step : FaultyAct → FaultyPool → Option FaultyPool
  | .fork pid, p =>
    if p.forked = none ∧ p.waited = none ∧ 0 < pid ∧
        pid ∉ (p.children ++ p.dead).map Child.pid then
      some { p with children := ⟨pid, .idle⟩ :: p.children, forked := some pid }
    else none
  | .forkFails, p =>
    if p.forked = none ∧ p.waited = none then some { p with forked := some (-1) } else none
  | .addChild, p =>
    p.forked.map fun pid =>
      { p with counters := smfServerAddChild pid p.counters, forked := none }
  | .child a pid, p =>
    -- to exit is to die
    if a = .exit then none
    else (advance pid a p.children).map fun children =>
      { p with children := children, counters := a.count pid p.counters }
  | .die c, p =>
    if c ∈ p.children then
      some { p with children := p.children.erase c, dead := c :: p.dead }
    else none
  | .waitpid c, p =>
    if p.forked = none ∧ p.waited = none ∧ c ∈ p.dead then
      some { p with dead := p.dead.erase c, waited := some c }
    else none
  | .removeActive, p =>
    if p.forked = none then
      p.waited.map fun c =>
        { p with counters := smfServerRemoveActive c.pid p.counters, waited := none }
    else none

/-- The pool the counters have to answer for: everybody who has not been taken off
them. -/
def FaultyPool.book (p : FaultyPool) : Pool where
  counters := p.counters
  children := p.children ++ p.dead ++ p.waited.toList
  forked := p.forked

/-- Every fork has returned and every dead child is reaped. -/
structure FaultyPool.Quiescent (p : FaultyPool) : Prop where
  returned : p.forked = none
  removed : p.waited = none
  reaped : p.dead = []

/-- `num_procs` is the number of live children and `num_spare` the number of idle
ones.  A child is idle until it takes itself off `num_spare`. -/
def FaultyPool.Accounts (p : FaultyPool) : Prop :=
  p.counters.numProcs = p.children.length ∧
    p.counters.numSpare = p.children.countP fun c => c.phase = .idle ∨ c.phase = .signalled

/-- `_smf_server_remove_active` takes a second place off `num_spare`: the child had
taken itself off, and died before `smf_server_add_active` or found no free slot
there. -/
def FaultyPool.overdrawn : FaultyAct → FaultyPool → Nat
  | .removeActive, p =>
    match p.waited with
    | some c => if c.phase.spare = false ∧ c.pid ∉ p.counters.childsActive then 1 else 0
    | none => 0
  | _, _ => 0

/-! ## What a step can do -/

/-- What a step can do to the book. -/
inductive FaultyStep (p q : FaultyPool) : FaultyAct → Prop
  | fork {pid : Int} (hpid : 0 < pid) (fresh : ∀ c ∈ p.book.census, c.pid ≠ pid)
      (hp : p.forked = none) (hq : q.forked = some pid)
      (hcensus : q.book.census = ⟨pid, .idle⟩ ::ₘ p.book.census)
      (hcounters : q.counters = p.counters) : FaultyStep p q (.fork pid)
  | forkFails (hp : p.forked = none) (hq : q.forked = some (-1))
      (hcensus : q.book.census = p.book.census) (hcounters : q.counters = p.counters) :
      FaultyStep p q .forkFails
  | addChild {pid : Int} (hp : p.forked = some pid) (hq : q.forked = none)
      (hcensus : q.book.census = p.book.census)
      (hcounters : q.counters = smfServerAddChild pid p.counters) : FaultyStep p q .addChild
  | child {a : ChildAct} {pid : Int} {phase phase' : Phase} (others : Multiset Child)
      (hstays : a ≠ .exit) (hmove : a.move phase = some phase') (hforked : q.forked = p.forked)
      (hbefore : p.book.census = ⟨pid, phase⟩ ::ₘ others)
      (hafter : q.book.census = ⟨pid, phase'⟩ ::ₘ others)
      (hcounters : q.counters = a.count pid p.counters) : FaultyStep p q (.child a pid)
  | die {c : Child} (hforked : q.forked = p.forked) (hcensus : q.book.census = p.book.census)
      (hcounters : q.counters = p.counters) : FaultyStep p q (.die c)
  | waitpid {c : Child} (hforked : q.forked = p.forked)
      (hcensus : q.book.census = p.book.census) (hcounters : q.counters = p.counters) :
      FaultyStep p q (.waitpid c)
  | removeActive {c : Child} (hp : p.forked = none) (hq : q.forked = none)
      (hwaited : p.waited = some c) (hcensus : p.book.census = c ::ₘ q.book.census)
      (hcounters : q.counters = smfServerRemoveActive c.pid p.counters) :
      FaultyStep p q .removeActive

theorem FaultyPool.census_book (p : FaultyPool) :
    p.book.census = (p.children : Multiset Child) + p.dead + (p.waited.toList : List Child) :=
  Pool.census_of_none rfl

/-- A step does nothing but what `FaultyStep` says. -/
theorem FaultyPool.step_sound {a : FaultyAct} {p q : FaultyPool} (h : p.step a = some q) :
    FaultyStep p q a := by
  cases a with
  | fork pid =>
    rw [FaultyPool.step] at h
    split at h
    · rename_i hguard
      obtain ⟨hforked, hwaited, hpid, hfresh⟩ := hguard
      obtain rfl := Option.some.inj h
      refine .fork hpid ?_ hforked rfl ?_ rfl
      · intro c hc hcpid
        rw [FaultyPool.census_book, hwaited] at hc
        refine hfresh (List.mem_map.mpr ⟨c, ?_, hcpid⟩)
        simpa using hc
      · rw [FaultyPool.census_book, FaultyPool.census_book, ← Multiset.cons_coe,
          Multiset.cons_add, Multiset.cons_add]
    · cases h
  | forkFails =>
    rw [FaultyPool.step] at h
    split at h
    · rename_i hguard
      obtain rfl := Option.some.inj h
      exact .forkFails hguard.1 rfl rfl rfl
    · cases h
  | addChild =>
    obtain ⟨pid, hforked, rfl⟩ := Option.map_eq_some_iff.mp h
    exact .addChild hforked rfl rfl rfl
  | child a pid =>
    rw [FaultyPool.step] at h
    split at h
    · cases h
    · rename_i hstays
      obtain ⟨cs, hadv, rfl⟩ := Option.map_eq_some_iff.mp h
      obtain ⟨phase, phase', others, hmove, hbefore, hafter⟩ := advance_eq_some hadv
      refine .child (others + p.dead + (p.waited.toList : List Child)) hstays hmove rfl ?_ ?_ rfl
      · rw [FaultyPool.census_book, hbefore, Multiset.cons_add, Multiset.cons_add]
      · rw [FaultyPool.census_book, hafter, Multiset.cons_add, Multiset.cons_add]
  | die c =>
    rw [FaultyPool.step] at h
    split at h
    · rename_i hmem
      obtain rfl := Option.some.inj h
      refine .die rfl ?_ rfl
      rw [FaultyPool.census_book, FaultyPool.census_book, ← Multiset.coe_erase,
        ← Multiset.cons_coe, Multiset.add_cons, ← Multiset.cons_add,
        Multiset.cons_erase (Multiset.mem_coe.mpr hmem)]
    · cases h
  | waitpid c =>
    rw [FaultyPool.step] at h
    split at h
    · rename_i hguard
      obtain ⟨-, hwaited, hmem⟩ := hguard
      obtain rfl := Option.some.inj h
      refine .waitpid rfl ?_ rfl
      rw [FaultyPool.census_book, FaultyPool.census_book, hwaited, ← Multiset.coe_erase]
      show (p.children : Multiset Child) + (p.dead : Multiset Child).erase c + {c} = _
      rw [Multiset.add_assoc, Multiset.add_comm _ {c}, Multiset.singleton_add,
        Multiset.cons_erase (Multiset.mem_coe.mpr hmem)]
      exact (Multiset.add_zero _).symm
    · cases h
  | removeActive =>
    rw [FaultyPool.step] at h
    split at h
    · rename_i hforked
      obtain ⟨c, hwaited, rfl⟩ := Option.map_eq_some_iff.mp h
      refine .removeActive hforked hforked hwaited ?_ rfl
      rw [FaultyPool.census_book, FaultyPool.census_book, hwaited]
      show _ + {c} = c ::ₘ (_ + 0)
      rw [Multiset.add_zero, Multiset.add_comm, Multiset.singleton_add]
    · cases h

/-! ## What holds in every run -/

/-- Everybody on the book has a pid of his own, and only those who have entered
themselves are among the active ones. -/
structure FaultyPool.Sound (p : FaultyPool) : Prop where
  nodup : p.book.pids.Nodup
  pid_pos : ∀ pid ∈ p.book.pids, 0 < pid
  unexited : ∀ c ∈ p.book.census, c.phase.hasExited = false
  active : held 0 p.counters.childsActive ≤ p.book.served

section
variable {p q : FaultyPool}

theorem FaultyPool.sound_init (w : ServerSettings) : (FaultyPool.init w).Sound where
  nodup := Multiset.nodup_zero
  pid_pos := fun _ h => absurd h (Multiset.notMem_zero _)
  unexited := fun _ h => absurd h (Multiset.notMem_zero _)
  active := (Pool.counted_init w).active

/-- A step that leaves the book and the active children as they are. -/
theorem FaultyPool.Sound.congr (h : p.Sound) (hcensus : q.book.census = p.book.census)
    (hactive : q.counters.childsActive = p.counters.childsActive) : q.Sound := by
  constructor
  case nodup =>
    rw [Pool.pids_congr hcensus]
    exact h.nodup
  case pid_pos =>
    rw [Pool.pids_congr hcensus]
    exact h.pid_pos
  case unexited =>
    rw [hcensus]
    exact h.unexited
  case active =>
    rw [hactive, Pool.served_congr hcensus]
    exact h.active

theorem FaultyPool.Sound.fork (h : p.Sound) {pid : Int} (hpid : 0 < pid)
    (fresh : ∀ c ∈ p.book.census, c.pid ≠ pid)
    (hcensus : q.book.census = ⟨pid, .idle⟩ ::ₘ p.book.census)
    (hcounters : q.counters = p.counters) : q.Sound := by
  have hpids : q.book.pids = pid ::ₘ p.book.pids := Pool.pids_cons hcensus
  have hserved : q.book.served = p.book.served := Pool.served_cons_neg hcensus rfl
  constructor
  case nodup =>
    rw [hpids, Multiset.nodup_cons]
    refine ⟨fun hmem => ?_, h.nodup⟩
    obtain ⟨c, hc, hcpid⟩ := Multiset.mem_map.mp hmem
    exact fresh c hc hcpid
  case pid_pos =>
    intro x hx
    rw [hpids, Multiset.mem_cons] at hx
    rcases hx with rfl | hx
    · exact hpid
    · exact h.pid_pos x hx
  case unexited =>
    intro c hc
    rw [hcensus, Multiset.mem_cons] at hc
    rcases hc with rfl | hc
    · rfl
    · exact h.unexited c hc
  case active =>
    rw [hcounters, hserved]
    exact h.active

theorem ChildAct.move_unexited {a : ChildAct} {phase phase' : Phase}
    (h : a.move phase = some phase') (hstays : a ≠ .exit) : phase'.hasExited = false := by
  cases a <;> cases phase <;> simp [ChildAct.move] at h <;> subst h <;> first | rfl | simp at hstays

theorem FaultyPool.Sound.child (h : p.Sound) {a : ChildAct} {pid : Int} {phase phase' : Phase}
    {others : Multiset Child} (hstays : a ≠ .exit) (hmove : a.move phase = some phase')
    (hbefore : p.book.census = ⟨pid, phase⟩ ::ₘ others)
    (hafter : q.book.census = ⟨pid, phase'⟩ ::ₘ others)
    (hcounters : q.counters = a.count pid p.counters) : q.Sound := by
  have hpids : q.book.pids = p.book.pids := by
    rw [Pool.pids_cons hafter, Pool.pids_cons hbefore]
  have hpid : 0 < pid := h.pid_pos pid (Pool.pids_cons hbefore ▸ Multiset.mem_cons_self _ _)
  constructor
  case nodup =>
    rw [hpids]
    exact h.nodup
  case pid_pos =>
    rw [hpids]
    exact h.pid_pos
  case unexited =>
    intro c hc
    rw [hafter, Multiset.mem_cons] at hc
    rcases hc with rfl | hc
    · exact ChildAct.move_unexited hmove hstays
    · exact h.unexited c (hbefore ▸ Multiset.mem_cons_of_mem hc)
  case active =>
    rw [hcounters, ChildAct.count_childsActive, Pool.served_move hmove hbefore hafter]
    split
    · exact le_trans (held_put_le hpid.ne') (Multiset.cons_le_cons pid h.active)
    · exact h.active

theorem FaultyPool.Sound.removeActive (h : p.Sound) {c : Child}
    (hcensus : p.book.census = c ::ₘ q.book.census)
    (hcounters : q.counters = smfServerRemoveActive c.pid p.counters) : q.Sound := by
  have hpids : p.book.pids = c.pid ::ₘ q.book.pids := Pool.pids_cons hcensus
  have hpid : 0 < c.pid := h.pid_pos _ (hpids ▸ Multiset.mem_cons_self _ _)
  constructor
  case nodup =>
    have hnodup := h.nodup
    rw [hpids] at hnodup
    exact (Multiset.nodup_cons.mp hnodup).2
  case pid_pos =>
    intro x hx
    exact h.pid_pos x (hpids ▸ Multiset.mem_cons_of_mem hx)
  case unexited =>
    intro x hx
    exact h.unexited x (hcensus ▸ Multiset.mem_cons_of_mem hx)
  case active =>
    rw [hcounters, childsActive_removeActive, held_remove hpid.ne',
      ← Pool.served_erase h.nodup hcensus]
    exact Multiset.erase_le_erase _ h.active

theorem FaultyStep.sound {a : FaultyAct} (hstep : FaultyStep p q a) (h : p.Sound) : q.Sound := by
  cases hstep with
  | fork hpid fresh hp hq hcensus hcounters => exact h.fork hpid fresh hcensus hcounters
  | forkFails hp hq hcensus hcounters => exact h.congr hcensus (by rw [hcounters])
  | addChild hp hq hcensus hcounters =>
    refine h.congr hcensus ?_
    rw [hcounters]
    rfl
  | child others hstays hmove hforked hbefore hafter hcounters =>
    exact h.child hstays hmove hbefore hafter hcounters
  | die hforked hcensus hcounters => exact h.congr hcensus (by rw [hcounters])
  | waitpid hforked hcensus hcounters => exact h.congr hcensus (by rw [hcounters])
  | removeActive hp hq hwaited hcensus hcounters => exact h.removeActive hcensus hcounters

end

/-! ## The drift of the counters -/

/-- How far `num_procs` is above the children on the book. -/
def FaultyPool.procsDrift (p : FaultyPool) : Int :=
  p.counters.numProcs + p.book.pending.card - p.book.census.card

/-- How far `num_spare` is above the children that have not taken themselves off. -/
def FaultyPool.spareDrift (p : FaultyPool) : Int :=
  p.counters.numSpare + p.book.pending.card - p.book.spare

section
variable {p q : FaultyPool}

theorem FaultyPool.card_pending_of_none (h : p.forked = none) : p.book.pending.card = 0 := by
  rw [Pool.pending_of_none (p := p.book) h, Multiset.card_zero]

theorem FaultyPool.card_pending_of_some {pid : Int} (h : p.forked = some pid) :
    p.book.pending.card = 1 := by
  rw [Pool.pending_of_some (p := p.book) h, Multiset.card_singleton]

/-- Where neither the counters nor the book change, nor who is being forked. -/
theorem FaultyPool.drift_congr (hforked : q.forked = p.forked)
    (hcensus : q.book.census = p.book.census) (hcounters : q.counters = p.counters) :
    q.procsDrift = p.procsDrift ∧ q.spareDrift = p.spareDrift := by
  have hpending : q.book.pending = p.book.pending := Pool.pending_congr hforked
  constructor
  · rw [FaultyPool.procsDrift, hcounters, hpending, hcensus, FaultyPool.procsDrift]
  · rw [FaultyPool.spareDrift, hcounters, hpending, Pool.spare_congr hcensus,
      FaultyPool.spareDrift]

/-- A child among the active ones has taken itself off `num_spare`. -/
theorem FaultyPool.Sound.spare_of_active (h : p.Sound) {c : Child} {others : Multiset Child}
    (hcensus : p.book.census = c ::ₘ others) (hmem : c.pid ∈ p.counters.childsActive) :
    c.phase.spare = false := by
  have hpid : 0 < c.pid := h.pid_pos _ (Pool.pids_cons hcensus ▸ Multiset.mem_cons_self _ _)
  have hserved : c.pid ∈ p.book.served :=
    Multiset.mem_of_le h.active (mem_held.mpr ⟨hmem, hpid.ne'⟩)
  rw [Pool.mem_served_iff h.nodup hcensus] at hserved
  cases hphase : c.phase with
  | active => rfl
  | exited served =>
    rw [hphase] at hserved
    cases served with
    | true => rfl
    | false => cases hserved
  | idle => rw [hphase] at hserved; cases hserved
  | signalled => rw [hphase] at hserved; cases hserved
  | counted => rfl

/-- Taking a child off the counters moves `num_spare` against the spare children only
where it is taken off a second time. -/
theorem FaultyPool.Sound.removeActive_spare (h : p.Sound) {c : Child}
    (hwaited : p.waited = some c) (hcensus : p.book.census = c ::ₘ q.book.census) :
    (smfServerRemoveActive c.pid p.counters).numSpare - q.book.spare =
      p.counters.numSpare - p.book.spare - (p.overdrawn .removeActive : Nat) := by
  have hspare : p.book.spare = q.book.spare + c.phase.spare.toNat := Pool.spare_cons hcensus
  have hover : FaultyPool.overdrawn .removeActive p =
      if c.phase.spare = false ∧ c.pid ∉ p.counters.childsActive then 1 else 0 := by
    rw [FaultyPool.overdrawn, hwaited]
  rw [numSpare_removeActive, hover, hspare]
  by_cases hmem : c.pid ∈ p.counters.childsActive
  · rw [if_pos hmem, if_neg (fun hboth => hboth.2 hmem), h.spare_of_active hcensus hmem,
      Bool.toNat_false]
    omega
  · rw [if_neg hmem]
    cases hphase : c.phase.spare with
    | true =>
      rw [if_neg (fun hboth => Bool.false_ne_true hboth.1.symm), Bool.toNat_true]
      omega
    | false =>
      rw [if_pos ⟨rfl, hmem⟩, Bool.toNat_false]
      omega

/-- Both counters gain one for a failed fork, and `num_spare` loses one where a child
is taken off it a second time. -/
theorem FaultyStep.drift {a : FaultyAct} (hstep : FaultyStep p q a) (h : p.Sound) :
    q.procsDrift = p.procsDrift + (if a = .forkFails then 1 else 0 : Nat) ∧
      q.spareDrift = p.spareDrift + (if a = .forkFails then 1 else 0 : Nat)
        - (p.overdrawn a : Nat) := by
  cases hstep with
  | @fork pid hpid fresh hp hq hcensus hcounters =>
    have hover : p.overdrawn (.fork pid) = 0 := rfl
    have hspare : q.book.spare = p.book.spare + 1 := Pool.spare_cons hcensus
    have hbefore := FaultyPool.card_pending_of_none hp
    have hafter := FaultyPool.card_pending_of_some hq
    rw [FaultyPool.procsDrift, FaultyPool.spareDrift, hcounters, hcensus, hspare, hafter,
      Multiset.card_cons, FaultyPool.procsDrift, FaultyPool.spareDrift, hbefore,
      if_neg nofun, hover]
    omega
  | forkFails hp hq hcensus hcounters =>
    have hover : p.overdrawn .forkFails = 0 := rfl
    have hbefore := FaultyPool.card_pending_of_none hp
    have hafter := FaultyPool.card_pending_of_some hq
    rw [FaultyPool.procsDrift, FaultyPool.spareDrift, hcounters, hcensus,
      Pool.spare_congr hcensus, hafter, FaultyPool.procsDrift, FaultyPool.spareDrift, hbefore,
      if_pos rfl, hover]
    omega
  | addChild hp hq hcensus hcounters =>
    have hover : p.overdrawn .addChild = 0 := rfl
    have hbefore := FaultyPool.card_pending_of_some hp
    have hafter := FaultyPool.card_pending_of_none hq
    rw [FaultyPool.procsDrift, FaultyPool.spareDrift, hcounters, hcensus,
      Pool.spare_congr hcensus, hafter, FaultyPool.procsDrift, FaultyPool.spareDrift, hbefore,
      if_neg nofun, hover]
    show p.counters.numProcs + 1 + _ - _ = _ ∧ p.counters.numSpare + 1 + _ - _ = _
    omega
  | @child act pid phase phase' others hstays hmove hforked hbefore hafter hcounters =>
    have hover : p.overdrawn (.child act pid) = 0 := rfl
    have hmoved := Pool.numSpare_move hmove hbefore hafter p.counters
    have hpending : q.book.pending = p.book.pending := Pool.pending_congr hforked
    rw [FaultyPool.procsDrift, FaultyPool.spareDrift, hcounters, hpending, hafter,
      ChildAct.count_numProcs, FaultyPool.procsDrift, FaultyPool.spareDrift, hbefore,
      Multiset.card_cons, Multiset.card_cons, if_neg nofun, hover]
    omega
  | @die c hforked hcensus hcounters =>
    have hover : p.overdrawn (.die c) = 0 := rfl
    obtain ⟨hprocs, hspare⟩ := FaultyPool.drift_congr hforked hcensus hcounters
    rw [hprocs, hspare, if_neg nofun, hover]
    omega
  | @waitpid c hforked hcensus hcounters =>
    have hover : p.overdrawn (.waitpid c) = 0 := rfl
    obtain ⟨hprocs, hspare⟩ := FaultyPool.drift_congr hforked hcensus hcounters
    rw [hprocs, hspare, if_neg nofun, hover]
    omega
  | removeActive hp hq hwaited hcensus hcounters =>
    have htaken := h.removeActive_spare hwaited hcensus
    rw [FaultyPool.procsDrift, FaultyPool.spareDrift, hcounters, numProcs_removeActive,
      FaultyPool.card_pending_of_none hq, FaultyPool.procsDrift, FaultyPool.spareDrift,
      FaultyPool.card_pending_of_none hp, hcensus, Multiset.card_cons, if_neg nofun]
    omega

/-- The drift of a run: one for each failed fork, less one for each child that was
taken off `num_spare` twice. -/
theorem drift_of_events {l : List FaultyAct} (h : p.Sound)
    (hrun : events FaultyPool.step (fun _ _ => True) p l = some q) :
    q.Sound ∧ q.procsDrift = p.procsDrift + l.count .forkFails ∧
      q.spareDrift = p.spareDrift + l.count .forkFails
        - tally FaultyPool.step FaultyPool.overdrawn p l := by
  induction l generalizing p with
  | nil =>
    obtain rfl : p = q := Option.some.inj hrun
    refine ⟨h, ?_, ?_⟩
    · rw [List.count_nil]
      omega
    · rw [List.count_nil, tally]
      omega
  | cons a l ih =>
    obtain ⟨p1, hfirst, hrest, htally⟩ := events_cons hrun
    have hstep := FaultyPool.step_sound hfirst
    obtain ⟨hprocs, hspare⟩ := hstep.drift h
    obtain ⟨hsound, hprocsRest, hspareRest⟩ := ih (hstep.sound h) hrest
    refine ⟨hsound, ?_, ?_⟩
    · rw [hprocsRest, hprocs, List.count_cons, beq_eq_decide]
      simp only [decide_eq_true_eq]
      omega
    · rw [hspareRest, hspare, List.count_cons, beq_eq_decide, htally]
      simp only [decide_eq_true_eq]
      omega

end

/-! ## Quiescence -/

section
variable {p : FaultyPool}

theorem FaultyPool.Quiescent.census_eq (h : p.Quiescent) : p.book.census = p.children := by
  rw [FaultyPool.census_book, h.reaped, h.removed]
  show (p.children : Multiset Child) + 0 + 0 = _
  rw [Multiset.add_zero, Multiset.add_zero]

/-- Once everybody dead is reaped, the drift is what the counters are off by. -/
theorem FaultyPool.Quiescent.accounts_iff (h : p.Quiescent) (hsound : p.Sound) :
    p.Accounts ↔ p.procsDrift = 0 ∧ p.spareDrift = 0 := by
  have hidle : p.children.countP (fun c => c.phase = .idle ∨ c.phase = .signalled) =
      p.book.spare := by
    rw [Pool.spare, h.census_eq, Multiset.coe_countP]
    apply List.countP_congr
    intro c hc
    have hlive := hsound.unexited c (h.census_eq ▸ Multiset.mem_coe.mpr hc)
    rw [decide_eq_true_eq, decide_eq_true_eq]
    cases hphase : c.phase with
    | exited served =>
      rw [hphase] at hlive
      cases hlive
    | idle => decide
    | signalled => decide
    | counted => decide
    | active => decide
  rw [FaultyPool.Accounts, hidle, FaultyPool.procsDrift, FaultyPool.spareDrift,
    FaultyPool.card_pending_of_none h.returned, h.census_eq, Multiset.coe_card]
  omega

end

/-- **The counters survive exactly the runs without such a fault.** -/
theorem accounts_iff_faultless (w : ServerSettings) (l : List FaultyAct) {p : FaultyPool}
    (hrun : events FaultyPool.step (fun _ _ => True) (.init w) l = some p)
    (hquiet : p.Quiescent) :
    p.Accounts ↔ .forkFails ∉ l ∧
      tally FaultyPool.step FaultyPool.overdrawn (.init w) l = 0 := by
  obtain ⟨hsound, hprocs, hspare⟩ := drift_of_events (FaultyPool.sound_init w) hrun
  have hprocs0 : (FaultyPool.init w).procsDrift = 0 := rfl
  have hspare0 : (FaultyPool.init w).spareDrift = 0 := rfl
  rw [hquiet.accounts_iff hsound, hprocs, hspare, hprocs0, hspare0, ← List.count_eq_zero]
  omega

/-- Of two children one is killed while it waits for a client, and the other serves
one. -/
theorem accounts_iff_faultless_served :
    ∃ p : FaultyPool, p.children = [⟨7, .active⟩] ∧ p.Quiescent ∧ (p.Accounts ↔ True) := by
  let l : List FaultyAct := [.fork 7, .addChild, .fork 8, .addChild, .child .signal 7,
    .child .decrementSpare 7, .die ⟨8, .idle⟩, .child .addActive 7, .waitpid ⟨8, .idle⟩,
    .removeActive]
  let p : FaultyPool :=
    { counters := ⟨1, 0, [7, 0, 0, 0, 0, 0, 0, 0, 0, 0], [7, 0, 0, 0, 0, 0, 0, 0, 0, 0]⟩
      children := [⟨7, .active⟩] }
  have hquiet : p.Quiescent := ⟨rfl, rfl, rfl⟩
  have h := accounts_iff_faultless {} l (p := p) rfl hquiet
  exact ⟨p, rfl, hquiet, h.trans (iff_true_intro (by decide))⟩

/-- A child is killed between `smf_server_decrement_spare` and `smf_server_add_active`,
and nobody is left to make up for the place it takes from `num_spare`. -/
theorem killed_unaccounted :
    ¬ ∀ (w : ServerSettings) (l : List FaultyAct) (p : FaultyPool),
      events FaultyPool.step (fun _ _ => True) (.init w) l = some p → p.Quiescent →
        p.Accounts := by
  intro h
  have haccounts := h {} [.fork 7, .addChild, .child .signal 7, .child .decrementSpare 7,
    .die ⟨7, .counted⟩, .waitpid ⟨7, .counted⟩, .removeActive]
    { counters := ⟨0, -1, List.replicate 10 0, List.replicate 10 0⟩ } rfl ⟨rfl, rfl, rfl⟩
  exact absurd haccounts.2 (by decide)

/-- A failed fork stays on both counters, with a slot of its own. -/
example : events FaultyPool.step (fun _ _ => True) (.init {}) [.forkFails, .addChild] =
    some { counters := ⟨1, 1, List.replicate 10 0, -1 :: List.replicate 9 0⟩ } := by rfl

end Spmfilter
