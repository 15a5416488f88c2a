import Spmfilter.Server.Counters

/-!
# The main loop of the prefork server

`smf_server_loop` with its children.  The parent forks the first children, then
waits for a child or a signal, takes the child it got off the counters, and
forks as long as the refill condition holds.  A handled signal only interrupts
`waitpid`: a signal that is delivered before the parent sleeps leaves no trace.

* `LoopStep` says what a step can do, and `Loop.step_sound` that a step does
  nothing else.
* `Reachable.counted` and `Reachable.outside` hold in every reachable state.
* `reachable_preforked`: some run forks the first children and nothing else
  happens.
-/

namespace Spmfilter

open Slots Transition

/-- Where the parent is in `smf_server_loop`. -/
inductive Pc
  /-- in the first loop, with so many children left to fork -/
  | prefork (left : Nat)
  /-- about to call `waitpid` -/
  | call
  /-- asleep in `waitpid` -/
  | blocked
  /-- back from `waitpid` -/
  | returned
  /-- at `num_procs < max_childs` -/
  | refill
  /-- at `num_spare < spare_childs` -/
  | compare
  /-- at `num_procs < num_spare` -/
  | recompare
  /-- out of the loop -/
  | stopped
deriving DecidableEq

structure Loop where
  pool : Pool
  pc : Pc
  /-- SIGUSR1 is pending -/
  usr1 : Bool := false
  /-- SIGCHLD is pending -/
  chld : Bool := false
  daemonExit : Bool := false
deriving DecidableEq

def Loop.init (w : ServerSettings) : Loop where
  pool := Pool.init w
  pc := .prefork w.initialForks

/-- Where `smf_server_fork` returns to, if the parent calls it here. -/
def Loop.forks (w : ServerSettings) (s : Loop) : Option Pc :=
  match s.pc with
  | .prefork (left + 1) => some (.prefork left)
  | .compare => if s.pool.counters.numSpare < w.spareChilds then some .refill else none
  | .recompare =>
    if s.pool.counters.numProcs < s.pool.counters.numSpare then some .refill else none
  | _ => none

/-- Where the parent goes, if it goes on here without touching the pool. -/
def Loop.jumps (w : ServerSettings) (s : Loop) : Option Pc :=
  match s.pc with
  | .prefork 0 => some .call
  | .call =>
    -- without children `waitpid` fails at once, and an exited child is returned at once
    if s.pool.children = [] then some .returned
    else if s.pool.children.all fun c => !c.phase.hasExited then some .blocked
    else none
  | .returned =>
    if s.daemonExit then some .stopped
    else if s.pool.waited = none then some .refill
    else none
  | .refill => if s.pool.counters.numProcs < w.maxChilds then some .compare else some .call
  | .compare => if s.pool.counters.numSpare < w.spareChilds then none else some .recompare
  | .recompare =>
    if s.pool.counters.numProcs < s.pool.counters.numSpare then none else some .call
  | .prefork (_ + 1) | .blocked | .stopped => none

/-- A signal handler has run. -/
def Loop.interrupt (s : Loop) : Loop :=
  { s with pc := if s.pc = .blocked then .returned else s.pc }

inductive LoopAct
  | fork (pid : Int)
  | addChild
  | jump
  | waitpid (r : Reaped)
  | removeActive
  | child (a : ChildAct) (pid : Int)
  | usr1
  | chld
  | term

/-- A step of the parent, a step of a child, or the delivery of a signal.  A child
that has a client signals the parent, and its exit raises SIGCHLD. -/
def Loop.step (w : ServerSettings) : LoopAct → Loop → Option Loop
  | .fork pid, s =>
    (s.forks w).bind fun pc =>
      (s.pool.step (.fork pid)).map fun pool => { s with pool := pool, pc := pc }
  | .addChild, s => (s.pool.step .addChild).map fun pool => { s with pool := pool }
  | .jump, s =>
    if s.pool.forked = none then (s.jumps w).map fun pc => { s with pc := pc } else none
  | .waitpid r, s =>
    if s.pc = .call ∨ s.pc = .blocked then
      (s.pool.step (.waitpid r)).map fun pool => { s with pool := pool, pc := .returned }
    else none
  | .removeActive, s =>
    if s.pc = .returned ∧ s.daemonExit = false then
      (s.pool.step .removeActive).map fun pool => { s with pool := pool, pc := .refill }
    else none
  | .child a pid, s =>
    (s.pool.step (.child a pid)).map fun pool =>
      { s with
        pool := pool
        usr1 := s.usr1 || a = .signal
        chld := s.chld || a = .exit }
  | .usr1, s => if s.usr1 then some { s.interrupt with usr1 := false } else none
  | .chld, s => if s.chld then some { s.interrupt with chld := false } else none
  | .term, s => some { s.interrupt with daemonExit := true }

/-- The states `smf_server_loop` can get into. -/
def Reachable (w : ServerSettings) (s : Loop) : Prop := Runs (Loop.step w) (Loop.init w) s

/-! ## What a step can do -/

/-- Where the parent calls `smf_server_fork`. -/
inductive Forks (w : ServerSettings) (s : Loop) : Pc → Prop
  | prefork {left : Nat} (hpc : s.pc = .prefork (left + 1)) : Forks w s (.prefork left)
  | spare (hpc : s.pc = .compare) (h : s.pool.counters.numSpare < w.spareChilds) :
      Forks w s .refill
  | procs (hpc : s.pc = .recompare)
      (h : s.pool.counters.numProcs < s.pool.counters.numSpare) : Forks w s .refill

theorem Loop.forks_sound {w : ServerSettings} {s : Loop} {pc : Pc} (h : s.forks w = some pc) :
    Forks w s pc := by
  unfold Loop.forks at h
  split at h
  · rename_i left hpc
    obtain rfl := Option.some.inj h
    exact .prefork hpc
  · rename_i hpc
    split at h
    · rename_i hless
      obtain rfl := Option.some.inj h
      exact .spare hpc hless
    · cases h
  · rename_i hpc
    split at h
    · rename_i hless
      obtain rfl := Option.some.inj h
      exact .procs hpc hless
    · cases h
  · cases h

/-- The ways the parent goes on without touching the pool. -/
inductive Jumps (w : ServerSettings) (s : Loop) : Pc → Prop
  | preforked (hpc : s.pc = .prefork 0) : Jumps w s .call
  | noChild (hpc : s.pc = .call) : Jumps w s .returned
  | sleep (hpc : s.pc = .call) : Jumps w s .blocked
  | leave (hpc : s.pc = .returned) : Jumps w s .stopped
  | nobody (hpc : s.pc = .returned) : Jumps w s .refill
  | room (hpc : s.pc = .refill) (h : s.pool.counters.numProcs < w.maxChilds) :
      Jumps w s .compare
  | full (hpc : s.pc = .refill) (h : ¬ s.pool.counters.numProcs < w.maxChilds) :
      Jumps w s .call
  | enough (hpc : s.pc = .compare) (h : ¬ s.pool.counters.numSpare < w.spareChilds) :
      Jumps w s .recompare
  | done (hpc : s.pc = .recompare) : Jumps w s .call

theorem Loop.jumps_sound {w : ServerSettings} {s : Loop} {pc : Pc} (h : s.jumps w = some pc) :
    Jumps w s pc := by
  unfold Loop.jumps at h
  cases hpc : s.pc with
  | prefork left =>
    cases left with
    | zero =>
      rw [hpc] at h
      obtain rfl := Option.some.inj h
      exact .preforked hpc
    | succ left =>
      rw [hpc] at h
      cases h
  | call =>
    simp only [hpc] at h
    split at h
    · obtain rfl := Option.some.inj h
      exact .noChild hpc
    · split at h
      · obtain rfl := Option.some.inj h
        exact .sleep hpc
      · cases h
  | blocked =>
    rw [hpc] at h
    cases h
  | returned =>
    simp only [hpc] at h
    split at h
    · obtain rfl := Option.some.inj h
      exact .leave hpc
    · split at h
      · obtain rfl := Option.some.inj h
        exact .nobody hpc
      · cases h
  | refill =>
    simp only [hpc] at h
    split at h
    · rename_i hless
      obtain rfl := Option.some.inj h
      exact .room hpc hless
    · rename_i hless
      obtain rfl := Option.some.inj h
      exact .full hpc hless
  | compare =>
    simp only [hpc] at h
    split at h
    · cases h
    · rename_i hless
      obtain rfl := Option.some.inj h
      exact .enough hpc hless
  | recompare =>
    simp only [hpc] at h
    split at h
    · cases h
    · obtain rfl := Option.some.inj h
      exact .done hpc
  | stopped =>
    rw [hpc] at h
    cases h

inductive LoopStep (w : ServerSettings) (s : Loop) : Loop → Prop
  | fork {pid : Int} {pool : Pool} {pc : Pc} (hforks : Forks w s pc)
      (hpool : PoolStep s.pool pool (.fork pid)) :
      LoopStep w s { s with pool := pool, pc := pc }
  | addChild {pool : Pool} (hpool : PoolStep s.pool pool .addChild) :
      LoopStep w s { s with pool := pool }
  | jump {pc : Pc} (hforked : s.pool.forked = none) (hjumps : Jumps w s pc) :
      LoopStep w s { s with pc := pc }
  | waitpid {r : Reaped} {pool : Pool} (hpc : s.pc = .call ∨ s.pc = .blocked)
      (hpool : PoolStep s.pool pool (.waitpid r)) :
      LoopStep w s { s with pool := pool, pc := .returned }
  | removeActive {pool : Pool} (hpc : s.pc = .returned)
      (hpool : PoolStep s.pool pool .removeActive) :
      LoopStep w s { s with pool := pool, pc := .refill }
  | child {a : ChildAct} {pid : Int} {pool : Pool}
      (hpool : PoolStep s.pool pool (.child a pid)) :
      LoopStep w s
        { s with
          pool := pool
          usr1 := s.usr1 || a = .signal
          chld := s.chld || a = .exit }
  | usr1 (h : s.usr1 = true) : LoopStep w s { s.interrupt with usr1 := false }
  | chld (h : s.chld = true) : LoopStep w s { s.interrupt with chld := false }
  | term : LoopStep w s { s.interrupt with daemonExit := true }

/-- A step does nothing but what `LoopStep` says. -/
theorem Loop.step_sound {w : ServerSettings} {s t : Loop} (h : Step (Loop.step w) s t) :
    LoopStep w s t := by
  obtain ⟨a, h⟩ := h
  cases a with
  | fork pid =>
    obtain ⟨pc, hpc, h⟩ := Option.bind_eq_some_iff.mp h
    obtain ⟨pool, hpool, rfl⟩ := Option.map_eq_some_iff.mp h
    exact .fork (Loop.forks_sound hpc) (Pool.step_sound hpool)
  | addChild =>
    obtain ⟨pool, hpool, rfl⟩ := Option.map_eq_some_iff.mp h
    exact .addChild (Pool.step_sound hpool)
  | jump =>
    rw [Loop.step] at h
    split at h
    · rename_i hforked
      obtain ⟨pc, hpc, rfl⟩ := Option.map_eq_some_iff.mp h
      exact .jump hforked (Loop.jumps_sound hpc)
    · cases h
  | waitpid r =>
    rw [Loop.step] at h
    split at h
    · rename_i hpc
      obtain ⟨pool, hpool, rfl⟩ := Option.map_eq_some_iff.mp h
      exact .waitpid hpc (Pool.step_sound hpool)
    · cases h
  | removeActive =>
    rw [Loop.step] at h
    split at h
    · rename_i hpc
      obtain ⟨pool, hpool, rfl⟩ := Option.map_eq_some_iff.mp h
      exact .removeActive hpc.1 (Pool.step_sound hpool)
    · cases h
  | child a pid =>
    obtain ⟨pool, hpool, rfl⟩ := Option.map_eq_some_iff.mp h
    exact .child (Pool.step_sound hpool)
  | usr1 =>
    rw [Loop.step] at h
    split at h
    · rename_i husr1
      obtain rfl := Option.some.inj h
      exact .usr1 husr1
    · cases h
  | chld =>
    rw [Loop.step] at h
    split at h
    · rename_i hchld
      obtain rfl := Option.some.inj h
      exact .chld hchld
    · cases h
  | term =>
    obtain rfl := Option.some.inj h
    exact .term

/-- A handled signal wakes a sleeping parent and moves it nowhere else. -/
theorem Loop.interrupt_pc (s : Loop) :
    s.interrupt.pc = s.pc ∨ s.pc = .blocked ∧ s.interrupt.pc = .returned := by
  by_cases h : s.pc = .blocked
  · exact Or.inr ⟨h, if_pos h⟩
  · exact Or.inl (if_neg h)

/-- A step of the loop is a step of the pool or leaves the pool alone. -/
theorem LoopStep.pool {w : ServerSettings} {s t : Loop} (h : LoopStep w s t) :
    t.pool = s.pool ∨ ∃ a, PoolStep s.pool t.pool a := by
  cases h with
  | fork hforks hpool => exact Or.inr ⟨_, hpool⟩
  | addChild hpool => exact Or.inr ⟨_, hpool⟩
  | jump hforked hjumps => exact Or.inl rfl
  | waitpid hpc hpool => exact Or.inr ⟨_, hpool⟩
  | removeActive hpc hpool => exact Or.inr ⟨_, hpool⟩
  | child hpool => exact Or.inr ⟨_, hpool⟩
  | usr1 h => exact Or.inl rfl
  | chld h => exact Or.inl rfl
  | term => exact Or.inl rfl

/-- The counters never show more than there is. -/
theorem LoopStep.counted {w : ServerSettings} {s t : Loop} (h : LoopStep w s t)
    (hs : s.pool.Counted) : t.pool.Counted := by
  rcases h.pool with hsame | ⟨a, hpool⟩
  · rw [hsame]
    exact hs
  · exact hpool.counted hs

theorem Reachable.counted {w : ServerSettings} {s : Loop} (h : Reachable w s) :
    s.pool.Counted :=
  Runs.invariant (I := fun s => s.pool.Counted)
    (fun _ _ hs hstep => (Loop.step_sound hstep).counted hs) (Pool.counted_init w) h

/-- The two loops call `smf_server_fork` on their way to these places. -/
def Pc.forking : Pc → Bool
  | .prefork _ | .refill => true
  | _ => false

/-- Elsewhere the parent is outside `smf_server_fork`. -/
structure Loop.Outside (s : Loop) : Prop where
  forked_none : s.pc.forking = false → s.pool.forked = none

theorem Loop.Outside.interrupt {s : Loop} (h : s.Outside) : s.interrupt.Outside := by
  constructor
  intro hpc
  rcases s.interrupt_pc with hsame | ⟨hblocked, -⟩
  · exact h.forked_none (hsame ▸ hpc)
  · exact h.forked_none (by rw [hblocked]; rfl)

theorem LoopStep.outside {w : ServerSettings} {s t : Loop} (hstep : LoopStep w s t)
    (h : s.Outside) : t.Outside := by
  cases hstep with
  | fork hforks hpool => cases hforks <;> exact ⟨fun hpc => nomatch hpc⟩
  | addChild hpool =>
    cases hpool with
    | addChild hp hq hcensus hcounters => exact ⟨fun _ => hq⟩
  | jump hforked hjumps => exact ⟨fun _ => hforked⟩
  | waitpid hpc hpool =>
    cases hpool with
    | waitpid hforked hcensus hcounters =>
      constructor
      intro _
      refine hforked.trans (h.forked_none ?_)
      rcases hpc with hpc | hpc <;> rw [hpc] <;> rfl
  | removeActive hpc hpool =>
    cases hpool with
    | removeActive hp hq hcensus hcounters => exact ⟨fun _ => hq⟩
  | child hpool =>
    cases hpool with
    | child others hmove hforked hbefore hafter hcounters =>
      exact ⟨fun hpc => hforked.trans (h.forked_none hpc)⟩
  | usr1 husr1 => exact ⟨h.interrupt.forked_none⟩
  | chld hchld => exact ⟨h.interrupt.forked_none⟩
  | term => exact ⟨h.interrupt.forked_none⟩

theorem Reachable.outside {w : ServerSettings} {s : Loop} (h : Reachable w s) : s.Outside :=
  Runs.invariant (fun _ _ hs hstep => (Loop.step_sound hstep).outside hs) ⟨fun _ => rfl⟩ h

section
variable {w : ServerSettings} {s : Loop} {pool : Pool} {pc : Pc}

theorem Loop.step_fork {pid : Int} (hpc : s.forks w = some pc)
    (hpool : s.pool.step (.fork pid) = some pool) :
    Loop.step w (.fork pid) s = some { s with pool := pool, pc := pc } := by
  rw [Loop.step, hpc, Option.bind_some, hpool, Option.map_some]

theorem Loop.step_jump (hforked : s.pool.forked = none) (hpc : s.jumps w = some pc) :
    Loop.step w .jump s = some { s with pc := pc } := by
  rw [Loop.step, if_pos hforked, hpc, Option.map_some]

theorem Loop.step_child {a : ChildAct} {pid : Int}
    (hpool : s.pool.step (.child a pid) = some pool) :
    Loop.step w (.child a pid) s = some
      { s with
        pool := pool
        usr1 := s.usr1 || a = .signal
        chld := s.chld || a = .exit } := by
  rw [Loop.step, hpool, Option.map_some]

end

/-! ## The first forks -/

/-- The pool after `k` forks, before any child has done anything. -/
def preforked (w : ServerSettings) : Nat → Pool
  | 0 => Pool.init w
  | k + 1 =>
    { counters := smfServerAddChild (k + 1) (preforked w k).counters
      children := ⟨k + 1, .idle⟩ :: (preforked w k).children }

section
variable (w : ServerSettings) (k : Nat)

theorem preforked_forked : (preforked w k).forked = none := by
  cases k <;> rfl

theorem preforked_waited : (preforked w k).waited = none := by
  cases k <;> rfl

theorem preforked_numProcs : (preforked w k).counters.numProcs = k := by
  induction k with
  | zero => rfl
  | succ k ih =>
    show (preforked w k).counters.numProcs + 1 = _
    omega

theorem preforked_numSpare : (preforked w k).counters.numSpare = k := by
  induction k with
  | zero => rfl
  | succ k ih =>
    show (preforked w k).counters.numSpare + 1 = _
    omega

theorem preforked_length : (preforked w k).children.length = k := by
  induction k with
  | zero => rfl
  | succ k ih =>
    show (preforked w k).children.length + 1 = _
    omega

theorem preforked_children : ∀ c ∈ (preforked w k).children, c.phase = .idle ∧ c.pid ≤ k := by
  induction k with
  | zero => exact fun _ h => nomatch h
  | succ k ih =>
    intro c hc
    rcases List.mem_cons.mp hc with rfl | hc
    · exact ⟨rfl, le_refl _⟩
    · have hle := (ih c hc).2
      exact ⟨(ih c hc).1, by omega⟩

theorem preforked_live : (preforked w k).live = (preforked w k).children := by
  rw [Pool.live, List.filter_eq_self]
  intro c hc
  rw [(preforked_children w k c hc).1]
  rfl

/-- Some run forks and adds the first `k` children while nothing else happens. -/
theorem reachable_preforked (left : Nat) (h : k + left = w.initialForks) :
    Reachable w { pool := preforked w k, pc := .prefork left } := by
  induction k generalizing left with
  | zero =>
    obtain rfl : left = w.initialForks := by omega
    exact Runs.refl _
  | succ k ih =>
    have hfresh : (k : Int) + 1 ∉ (preforked w k).children.map Child.pid := by
      intro hmem
      obtain ⟨c, hc, hpid⟩ := List.mem_map.mp hmem
      have hle := (preforked_children w k c hc).2
      omega
    have hfork : (preforked w k).step (.fork (k + 1)) = some
        { counters := (preforked w k).counters
          children := ⟨k + 1, .idle⟩ :: (preforked w k).children
          forked := some (k + 1) } := by
      have hpos : (0 : Int) < k + 1 := by omega
      rw [Pool.step,
        if_pos ⟨preforked_forked w k, preforked_waited w k, hpos, hfresh⟩,
        preforked_waited]
    have hprev := ih (left + 1) (by omega)
    exact (hprev.tail (Loop.step_fork rfl hfork)).tail (a := .addChild) rfl

end

end Spmfilter
