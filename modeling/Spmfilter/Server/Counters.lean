import Spmfilter.Server.Pool

/-!
# The counters against the census

* `Pool.Counted` holds in every run: `num_procs` counts the census, `num_spare`
  is never more than the children that may be idle, and no pid is among the
  active ones that has not been put there.
* `Pool.Exact` holds in every run in which there is a slot for every child: the
  counters are a function of the census.
* `numSpare_le_numProcs` is what the refill loop relies on.
-/

namespace Spmfilter

open Slots Transition

/-- The pids in the census. -/
def Pool.pids (p : Pool) : Multiset Int := p.census.map Child.pid

/-- The pids of the children that have entered themselves among the active ones. -/
def Pool.served (p : Pool) : Multiset Int :=
  (p.census.filter fun c => c.phase.served).map Child.pid

/-- How many children in the census have not taken themselves off `num_spare`. -/
def Pool.spare (p : Pool) : Nat := p.census.countP fun c => c.phase.spare

/-- What holds of the counters in every run. -/
structure Pool.Counted (p : Pool) : Prop where
  nodup : p.pids.Nodup
  pid_pos : ∀ pid ∈ p.pids, 0 < pid
  forked_pos : ∀ pid, p.forked = some pid → 0 < pid
  procs : p.counters.numProcs + p.pending.card = p.census.card
  spare : p.counters.numSpare + p.pending.card ≤ p.spare
  active : held 0 p.counters.childsActive ≤ p.served

/-- What holds of the counters when there is a slot for every child.  `n` is the
length of both arrays. -/
structure Pool.Exact (n : Nat) (p : Pool) : Prop where
  length_childs : p.counters.childs.length = n
  length_active : p.counters.childsActive.length = n
  spare : p.counters.numSpare + p.pending.card = p.spare
  childs : held 0 p.counters.childs + p.pending = p.pids
  active : held 0 p.counters.childsActive = p.served

/-! ## The steps of a child -/

theorem Reaped.served_child (r : Reaped) : r.child.phase.served = r.served := by
  obtain ⟨pid, served⟩ := r
  cases served <;> rfl

theorem Reaped.spare_child (r : Reaped) : r.child.phase.spare = !r.served := by
  obtain ⟨pid, served⟩ := r
  cases served <;> rfl

/-- Only `smf_server_decrement_spare` ends a child's time as a spare one. -/
theorem ChildAct.move_spare {a : ChildAct} {phase phase' : Phase}
    (h : a.move phase = some phase') :
    phase.spare.toNat = phase'.spare.toNat + if a = .decrementSpare then 1 else 0 := by
  cases a <;> cases phase <;> simp [ChildAct.move] at h <;> subst h <;> rfl

/-- Only `smf_server_add_active` makes a child an active one. -/
theorem ChildAct.move_served {a : ChildAct} {phase phase' : Phase}
    (h : a.move phase = some phase') :
    if a = .addActive then phase.served = false ∧ phase'.served = true
    else phase'.served = phase.served := by
  cases a <;> cases phase <;> simp [ChildAct.move] at h <;> subst h <;> simp [Phase.served]

theorem ChildAct.count_numProcs (a : ChildAct) (pid : Int) (c : ServerCounters) :
    (a.count pid c).numProcs = c.numProcs := by
  cases a <;> rfl

theorem ChildAct.count_childs (a : ChildAct) (pid : Int) (c : ServerCounters) :
    (a.count pid c).childs = c.childs := by
  cases a <;> rfl

theorem ChildAct.count_numSpare (a : ChildAct) (pid : Int) (c : ServerCounters) :
    (a.count pid c).numSpare =
      c.numSpare - (if a = .decrementSpare then 1 else 0 : Int) := by
  cases a <;> simp [ChildAct.count, smfServerDecrementSpare, smfServerAddActive]

theorem ChildAct.count_childsActive (a : ChildAct) (pid : Int) (c : ServerCounters) :
    (a.count pid c).childsActive =
      if a = .addActive then put 0 pid c.childsActive else c.childsActive := by
  cases a <;> rfl

/-! ## The steps of the pool -/

section
variable {p q : Pool} {c : Child} {r : Reaped} {others : Multiset Child}

theorem Pool.pids_cons (h : p.census = c ::ₘ others) :
    p.pids = c.pid ::ₘ others.map Child.pid := by
  rw [Pool.pids, h, Multiset.map_cons]

theorem Pool.spare_cons (h : p.census = c ::ₘ others) :
    p.spare = others.countP (fun c => c.phase.spare) + c.phase.spare.toNat := by
  rw [Pool.spare, h, Multiset.countP_cons]
  cases c.phase.spare <;> rfl

theorem Pool.served_cons_pos (h : p.census = c ::ₘ others) (hc : c.phase.served = true) :
    p.served = c.pid ::ₘ (others.filter fun c => c.phase.served).map Child.pid := by
  rw [Pool.served, h,
    Multiset.filter_cons_of_pos (p := fun c : Child => c.phase.served = true) _ hc,
    Multiset.map_cons]

theorem Pool.served_cons_neg (h : p.census = c ::ₘ others) (hc : c.phase.served = false) :
    p.served = (others.filter fun c => c.phase.served).map Child.pid := by
  rw [Pool.served, h, Multiset.filter_cons_of_neg _ (by rw [hc]; exact Bool.false_ne_true)]

theorem Pool.pids_congr (h : q.census = p.census) : q.pids = p.pids := by
  rw [Pool.pids, h, Pool.pids]

theorem Pool.spare_congr (h : q.census = p.census) : q.spare = p.spare := by
  rw [Pool.spare, h, Pool.spare]

theorem Pool.served_congr (h : q.census = p.census) : q.served = p.served := by
  rw [Pool.served, h, Pool.served]

theorem Pool.pending_congr (h : q.forked = p.forked) : q.pending = p.pending := by
  rw [Pool.pending, h, Pool.pending]

theorem Pool.pending_of_none (h : p.forked = none) : p.pending = 0 := by
  rw [Pool.pending, h]
  rfl

theorem Pool.pending_of_some {pid : Int} (h : p.forked = some pid) : p.pending = {pid} := by
  rw [Pool.pending, h]
  rfl

/-- A child's move changes `num_spare` by what it does to the spare children. -/
theorem Pool.numSpare_move {a : ChildAct} {pid : Int} {phase phase' : Phase}
    (hmove : a.move phase = some phase') (hbefore : p.census = ⟨pid, phase⟩ ::ₘ others)
    (hafter : q.census = ⟨pid, phase'⟩ ::ₘ others) (counters : ServerCounters) :
    (a.count pid counters).numSpare + p.spare = counters.numSpare + q.spare := by
  have hspare : p.spare = q.spare + if a = .decrementSpare then 1 else 0 := by
    rw [Pool.spare_cons hbefore, Pool.spare_cons hafter, ChildAct.move_spare hmove, Nat.add_assoc]
  rw [ChildAct.count_numSpare]
  split
  · rename_i ha
    rw [if_pos ha] at hspare
    omega
  · rename_i ha
    rw [if_neg ha] at hspare
    omega

/-- A child's move changes the served pids by what it does to `childs_active`. -/
theorem Pool.served_move {a : ChildAct} {pid : Int} {phase phase' : Phase}
    (hmove : a.move phase = some phase') (hbefore : p.census = ⟨pid, phase⟩ ::ₘ others)
    (hafter : q.census = ⟨pid, phase'⟩ ::ₘ others) :
    q.served = if a = .addActive then pid ::ₘ p.served else p.served := by
  have hserved := ChildAct.move_served hmove
  split
  · rename_i ha
    rw [if_pos ha] at hserved
    rw [Pool.served_cons_pos hafter hserved.2, Pool.served_cons_neg hbefore hserved.1]
  · rename_i ha
    rw [if_neg ha] at hserved
    cases hphase : phase.served with
    | true =>
      rw [Pool.served_cons_pos hafter (hserved.trans hphase), Pool.served_cons_pos hbefore hphase]
    | false =>
      rw [Pool.served_cons_neg hafter (hserved.trans hphase), Pool.served_cons_neg hbefore hphase]

/-- The pid of a reaped child is among the served ones if it was served, and
not at all otherwise. -/
theorem Pool.mem_served_iff (hnodup : p.pids.Nodup) (h : p.census = c ::ₘ others) :
    c.pid ∈ p.served ↔ c.phase.served = true := by
  cases hc : c.phase.served with
  | true =>
    rw [Pool.served_cons_pos h hc]
    simp
  | false =>
    rw [Pool.pids_cons h] at hnodup
    rw [Pool.served_cons_neg h hc]
    have hout : c.pid ∉ others.map Child.pid := (Multiset.nodup_cons.mp hnodup).1
    have hle : (others.filter fun c => c.phase.served).map Child.pid ≤ others.map Child.pid :=
      Multiset.map_le_map (Multiset.filter_le _ _)
    simp [Multiset.notMem_mono (Multiset.subset_of_le hle) hout]

/-- Taking a child off the census takes its pid off the served ones. -/
theorem Pool.served_erase (hnodup : p.pids.Nodup) (h : p.census = c ::ₘ q.census) :
    p.served.erase c.pid = q.served := by
  cases hc : c.phase.served with
  | true =>
    rw [Pool.served_cons_pos h hc, Multiset.erase_cons_head]
    rfl
  | false =>
    have hout : c.pid ∉ p.served := by
      rw [Pool.mem_served_iff hnodup h, hc]
      exact Bool.false_ne_true
    rw [Multiset.erase_of_notMem hout, Pool.served_cons_neg h hc]
    rfl

end

/-! ## What a step does to the counts -/

section
variable {p q : Pool}

/-- A fork leaves the counters to `_smf_server_add_child`. -/
theorem PoolStep.fork_counts {pid : Int} (h : PoolStep p q (.fork pid)) :
    q.counters = p.counters ∧ p.pending.card = 0 ∧ q.pending.card = 1 := by
  cases h with
  | fork hpid fresh hp hq hwaited hcensus hcounters =>
    rw [Pool.pending_of_none hp, Pool.pending_of_some hq]
    exact ⟨hcounters, rfl, rfl⟩

theorem PoolStep.addChild_counts (h : PoolStep p q .addChild) :
    q.counters.numProcs = p.counters.numProcs + 1 ∧
      q.counters.numSpare = p.counters.numSpare + 1 ∧
      p.pending.card = 1 ∧ q.pending.card = 0 := by
  cases h with
  | addChild hp hq hcensus hcounters =>
    rw [Pool.pending_of_some hp, Pool.pending_of_none hq, hcounters]
    exact ⟨rfl, rfl, rfl, rfl⟩

/-- A child never touches `num_procs`, and `num_spare` only where it takes itself
off. -/
theorem PoolStep.child_counts {a : ChildAct} {pid : Int} (h : PoolStep p q (.child a pid)) :
    q.counters.numProcs = p.counters.numProcs ∧
      (a ≠ .decrementSpare → q.counters.numSpare = p.counters.numSpare) ∧
      q.pending.card = p.pending.card := by
  cases h with
  | child others hmove hforked hbefore hafter hcounters =>
    rw [hcounters, ChildAct.count_numProcs, Pool.pending_congr hforked]
    refine ⟨rfl, ?_, rfl⟩
    intro ha
    rw [ChildAct.count_numSpare, if_neg ha, Int.sub_zero]

end

/-! ## Every run -/

section
variable {p q : Pool} {others : Multiset Child}

theorem Pool.counted_init (w : ServerSettings) : (Pool.init w).Counted where
  nodup := Multiset.nodup_zero
  pid_pos := fun _ h => absurd h (Multiset.notMem_zero _)
  forked_pos := fun _ h => nomatch h
  procs := rfl
  spare := le_refl _
  active := by
    show held 0 (List.replicate _ 0) ≤ _
    rw [held_replicate]
    exact Multiset.zero_le _

theorem Pool.exact_init (w : ServerSettings) : (Pool.init w).Exact w.maxChilds.toNat where
  length_childs := List.length_replicate
  length_active := List.length_replicate
  spare := rfl
  childs := by
    show held 0 (List.replicate _ 0) + 0 = 0
    rw [held_replicate, Multiset.add_zero]
  active := by
    show held 0 (List.replicate _ 0) = 0
    rw [held_replicate]

theorem Pool.Counted.waitpid (h : p.Counted) (hforked : q.forked = p.forked)
    (hcensus : q.census = p.census) (hcounters : q.counters = p.counters) : q.Counted := by
  have hpending := Pool.pending_congr hforked
  constructor
  case nodup =>
    rw [Pool.pids_congr hcensus]
    exact h.nodup
  case pid_pos =>
    rw [Pool.pids_congr hcensus]
    exact h.pid_pos
  case forked_pos =>
    rw [hforked]
    exact h.forked_pos
  case procs =>
    rw [hcounters, hpending, hcensus]
    exact h.procs
  case spare =>
    rw [hcounters, hpending, Pool.spare_congr hcensus]
    exact h.spare
  case active =>
    rw [hcounters, Pool.served_congr hcensus]
    exact h.active

theorem Pool.Counted.fork (h : p.Counted) {pid : Int} (hpid : 0 < pid)
    (fresh : ∀ c ∈ p.census, c.pid ≠ pid) (hp : p.forked = none) (hq : q.forked = some pid)
    (hcensus : q.census = ⟨pid, .idle⟩ ::ₘ p.census) (hcounters : q.counters = p.counters) :
    q.Counted := by
  have hpids : q.pids = pid ::ₘ p.pids := Pool.pids_cons hcensus
  have hout : pid ∉ p.pids := by
    intro hmem
    obtain ⟨c, hc, hcpid⟩ := Multiset.mem_map.mp hmem
    exact fresh c hc hcpid
  have hspare : q.spare = p.spare + 1 := Pool.spare_cons hcensus
  have hserved : q.served = p.served := Pool.served_cons_neg hcensus rfl
  have hprocs := h.procs
  have hle := h.spare
  rw [Pool.pending_of_none hp, Multiset.card_zero] at hprocs hle
  constructor
  case nodup =>
    rw [hpids]
    exact Multiset.nodup_cons.mpr ⟨hout, h.nodup⟩
  case pid_pos =>
    intro x hx
    rw [hpids, Multiset.mem_cons] at hx
    rcases hx with rfl | hx
    · exact hpid
    · exact h.pid_pos x hx
  case forked_pos =>
    intro x hx
    rw [hq] at hx
    exact Option.some.inj hx ▸ hpid
  case procs =>
    rw [hcounters, hcensus, Pool.pending_of_some hq, Multiset.card_singleton, Multiset.card_cons]
    omega
  case spare =>
    rw [hcounters, hspare, Pool.pending_of_some hq, Multiset.card_singleton]
    omega
  case active =>
    rw [hcounters, hserved]
    exact h.active

theorem Pool.Counted.addChild (h : p.Counted) {pid : Int} (hp : p.forked = some pid)
    (hq : q.forked = none) (hcensus : q.census = p.census)
    (hcounters : q.counters = smfServerAddChild pid p.counters) : q.Counted := by
  have hprocs := h.procs
  have hle := h.spare
  rw [Pool.pending_of_some hp, Multiset.card_singleton] at hprocs hle
  constructor
  case nodup =>
    rw [Pool.pids_congr hcensus]
    exact h.nodup
  case pid_pos =>
    rw [Pool.pids_congr hcensus]
    exact h.pid_pos
  case forked_pos =>
    intro x hx
    rw [hq] at hx
    cases hx
  case procs =>
    rw [hcounters, hcensus, Pool.pending_of_none hq, Multiset.card_zero]
    show p.counters.numProcs + 1 + _ = _
    omega
  case spare =>
    rw [hcounters, Pool.spare_congr hcensus, Pool.pending_of_none hq, Multiset.card_zero]
    show p.counters.numSpare + 1 + _ ≤ _
    omega
  case active =>
    rw [hcounters, Pool.served_congr hcensus]
    exact h.active

theorem Pool.Counted.removeActive (h : p.Counted) {r : Reaped} (hp : p.forked = none)
    (hq : q.forked = none) (hcensus : p.census = r.child ::ₘ q.census)
    (hcounters : q.counters = smfServerRemoveActive r.pid p.counters) : q.Counted := by
  have hpids : p.pids = r.pid ::ₘ q.pids := Pool.pids_cons hcensus
  have hspare : p.spare = q.spare + r.child.phase.spare.toNat := Pool.spare_cons hcensus
  have hpid : 0 < r.pid := h.pid_pos _ (hpids ▸ Multiset.mem_cons_self _ _)
  have hnodup := h.nodup
  have hprocs := h.procs
  have hle := h.spare
  rw [Pool.pending_of_none hp, Multiset.card_zero] at hprocs hle
  constructor
  case nodup =>
    rw [hpids] at hnodup
    exact (Multiset.nodup_cons.mp hnodup).2
  case pid_pos =>
    intro x hx
    exact h.pid_pos x (hpids ▸ Multiset.mem_cons_of_mem hx)
  case forked_pos =>
    intro x hx
    rw [hq] at hx
    cases hx
  case procs =>
    rw [hcounters, numProcs_removeActive, Pool.pending_of_none hq, Multiset.card_zero]
    rw [hcensus, Multiset.card_cons] at hprocs
    omega
  case spare =>
    rw [hcounters, numSpare_removeActive, Pool.pending_of_none hq, Multiset.card_zero]
    split
    · rename_i hmem
      -- the pid is among the active ones, so the child was served
      have hheld : r.pid ∈ p.served :=
        Multiset.mem_of_le h.active (mem_held.mpr ⟨hmem, hpid.ne'⟩)
      have hserved := (Pool.mem_served_iff hnodup hcensus).mp hheld
      rw [Reaped.served_child] at hserved
      rw [Reaped.spare_child, hserved, Bool.not_true, Bool.toNat_false] at hspare
      omega
    · have hbit : r.child.phase.spare.toNat ≤ 1 := Bool.toNat_le _
      omega
  case active =>
    rw [hcounters, childsActive_removeActive, held_remove hpid.ne',
      ← Pool.served_erase hnodup hcensus]
    exact Multiset.erase_le_erase _ h.active

theorem Pool.Counted.child (h : p.Counted) {a : ChildAct} {pid : Int} {phase phase' : Phase}
    (hmove : a.move phase = some phase') (hforked : q.forked = p.forked)
    (hbefore : p.census = ⟨pid, phase⟩ ::ₘ others) (hafter : q.census = ⟨pid, phase'⟩ ::ₘ others)
    (hcounters : q.counters = a.count pid p.counters) : q.Counted := by
  have hpids : q.pids = p.pids := by rw [Pool.pids_cons hafter, Pool.pids_cons hbefore]
  have hpid : 0 < pid := h.pid_pos pid (Pool.pids_cons hbefore ▸ Multiset.mem_cons_self _ _)
  have hpending := Pool.pending_congr hforked
  have hprocs := h.procs
  have hle := h.spare
  constructor
  case nodup =>
    rw [hpids]
    exact h.nodup
  case pid_pos =>
    rw [hpids]
    exact h.pid_pos
  case forked_pos =>
    rw [hforked]
    exact h.forked_pos
  case procs =>
    rw [hcounters, ChildAct.count_numProcs, hpending, hprocs, hbefore, hafter,
      Multiset.card_cons, Multiset.card_cons]
  case spare =>
    have hmoved := Pool.numSpare_move hmove hbefore hafter p.counters
    rw [hcounters, hpending]
    omega
  case active =>
    rw [hcounters, ChildAct.count_childsActive, Pool.served_move hmove hbefore hafter]
    split
    · exact le_trans (held_put_le hpid.ne') (Multiset.cons_le_cons pid h.active)
    · exact h.active

theorem PoolStep.counted {a : PoolAct} (hstep : PoolStep p q a) (h : p.Counted) : q.Counted := by
  cases hstep with
  | fork hpid fresh hp hq hwaited hcensus hcounters =>
    exact h.fork hpid fresh hp hq hcensus hcounters
  | addChild hp hq hcensus hcounters => exact h.addChild hp hq hcensus hcounters
  | waitpid hforked hcensus hcounters => exact h.waitpid hforked hcensus hcounters
  | removeActive hp hq hcensus hcounters => exact h.removeActive hp hq hcensus hcounters
  | child others hmove hforked hbefore hafter hcounters =>
    exact h.child hmove hforked hbefore hafter hcounters

/-- `num_spare` is never above `num_procs`. -/
theorem Pool.Counted.numSpare_le_numProcs (h : p.Counted) :
    p.counters.numSpare ≤ p.counters.numProcs := by
  have hle : p.spare ≤ p.census.card := Multiset.countP_le_card _ _
  have hprocs := h.procs
  have hspare := h.spare
  omega

end

/-! ## Runs with a slot for every child -/

section
variable {n : Nat} {p q : Pool} {others : Multiset Child}

theorem Pool.Exact.waitpid (h : p.Exact n) (hforked : q.forked = p.forked)
    (hcensus : q.census = p.census) (hcounters : q.counters = p.counters) : q.Exact n := by
  have hpending := Pool.pending_congr hforked
  constructor
  case length_childs =>
    rw [hcounters]
    exact h.length_childs
  case length_active =>
    rw [hcounters]
    exact h.length_active
  case spare =>
    rw [hcounters, hpending, Pool.spare_congr hcensus]
    exact h.spare
  case childs =>
    rw [hcounters, hpending, Pool.pids_congr hcensus]
    exact h.childs
  case active =>
    rw [hcounters, Pool.served_congr hcensus]
    exact h.active

theorem Pool.Exact.fork (h : p.Exact n) {pid : Int} (hp : p.forked = none)
    (hq : q.forked = some pid) (hcensus : q.census = ⟨pid, .idle⟩ ::ₘ p.census)
    (hcounters : q.counters = p.counters) : q.Exact n := by
  have hpids : q.pids = pid ::ₘ p.pids := Pool.pids_cons hcensus
  have hspare : q.spare = p.spare + 1 := Pool.spare_cons hcensus
  have hserved : q.served = p.served := Pool.served_cons_neg hcensus rfl
  have heq := h.spare
  have hchilds := h.childs
  rw [Pool.pending_of_none hp] at heq hchilds
  constructor
  case length_childs =>
    rw [hcounters]
    exact h.length_childs
  case length_active =>
    rw [hcounters]
    exact h.length_active
  case spare =>
    rw [hcounters, hspare, Pool.pending_of_some hq, Multiset.card_singleton]
    rw [Multiset.card_zero] at heq
    omega
  case childs =>
    rw [hcounters, hpids, Pool.pending_of_some hq, ← hchilds, Multiset.add_zero,
      Multiset.add_comm, Multiset.singleton_add]
  case active =>
    rw [hcounters, hserved]
    exact h.active

theorem Pool.Exact.addChild (h : p.Exact n) {pid : Int} (hpid : 0 < pid)
    (hp : p.forked = some pid) (hq : q.forked = none) (hcensus : q.census = p.census)
    (hcounters : q.counters = smfServerAddChild pid p.counters) (hfits : p.census.card ≤ n) :
    q.Exact n := by
  have heq := h.spare
  have hchilds := h.childs
  rw [Pool.pending_of_some hp] at heq hchilds
  have hfree : 0 ∈ p.counters.childs := by
    have hcard : (held 0 p.counters.childs).card + 1 = p.census.card := by
      rw [← Multiset.card_map Child.pid p.census, ← Pool.pids, ← hchilds, Multiset.card_add,
        Multiset.card_singleton]
    apply free_mem_of_card_lt
    rw [h.length_childs]
    omega
  constructor
  case length_childs =>
    rw [hcounters]
    exact length_put.trans h.length_childs
  case length_active =>
    rw [hcounters]
    exact h.length_active
  case spare =>
    rw [hcounters, Pool.spare_congr hcensus, Pool.pending_of_none hq, Multiset.card_zero]
    rw [Multiset.card_singleton] at heq
    show p.counters.numSpare + 1 + _ = _
    omega
  case childs =>
    rw [hcounters, Pool.pids_congr hcensus, Pool.pending_of_none hq, ← hchilds]
    show held 0 (put 0 pid p.counters.childs) + 0 = _
    rw [held_put hpid.ne' hfree, Multiset.add_zero, Multiset.add_comm, Multiset.singleton_add]
  case active =>
    rw [hcounters, Pool.served_congr hcensus]
    exact h.active

theorem Pool.Exact.removeActive (h : p.Exact n) (hcounted : p.Counted) {r : Reaped}
    (hp : p.forked = none) (hq : q.forked = none) (hcensus : p.census = r.child ::ₘ q.census)
    (hcounters : q.counters = smfServerRemoveActive r.pid p.counters) : q.Exact n := by
  have hpids : p.pids = r.pid ::ₘ q.pids := Pool.pids_cons hcensus
  have hspare : p.spare = q.spare + r.child.phase.spare.toNat := Pool.spare_cons hcensus
  have hpid : 0 < r.pid := hcounted.pid_pos _ (hpids ▸ Multiset.mem_cons_self _ _)
  have hserved := Pool.mem_served_iff hcounted.nodup hcensus
  have heq := h.spare
  have hchilds := h.childs
  rw [Pool.pending_of_none hp] at heq hchilds
  constructor
  case length_childs =>
    rw [hcounters, childs_removeActive, length_remove]
    exact h.length_childs
  case length_active =>
    rw [hcounters, childsActive_removeActive, length_remove]
    exact h.length_active
  case spare =>
    rw [hcounters, numSpare_removeActive, Pool.pending_of_none hq, Multiset.card_zero]
    rw [Multiset.card_zero] at heq
    have hactive : r.pid ∈ p.counters.childsActive ↔ r.served = true := by
      rw [← h.active, mem_held, Reaped.served_child] at hserved
      rw [← hserved]
      exact (and_iff_left hpid.ne').symm
    split
    · rename_i hmem
      rw [Reaped.spare_child, hactive.mp hmem, Bool.not_true, Bool.toNat_false] at hspare
      omega
    · rename_i hmem
      have hlost : r.served = false := Bool.eq_false_of_not_eq_true (mt hactive.mpr hmem)
      rw [Reaped.spare_child, hlost, Bool.not_false, Bool.toNat_true] at hspare
      omega
  case childs =>
    rw [hcounters, childs_removeActive, Pool.pending_of_none hq, held_remove hpid.ne',
      Multiset.add_zero]
    rw [Multiset.add_zero, hpids] at hchilds
    rw [hchilds, Multiset.erase_cons_head]
  case active =>
    rw [hcounters, childsActive_removeActive, held_remove hpid.ne', h.active]
    exact Pool.served_erase hcounted.nodup hcensus

theorem Pool.Exact.child (h : p.Exact n) {a : ChildAct} {pid : Int} (hpid : 0 < pid)
    {phase phase' : Phase} (hmove : a.move phase = some phase') (hforked : q.forked = p.forked)
    (hbefore : p.census = ⟨pid, phase⟩ ::ₘ others) (hafter : q.census = ⟨pid, phase'⟩ ::ₘ others)
    (hcounters : q.counters = a.count pid p.counters) (hfits : p.census.card ≤ n) :
    q.Exact n := by
  have hpids : q.pids = p.pids := by rw [Pool.pids_cons hafter, Pool.pids_cons hbefore]
  have hpending := Pool.pending_congr hforked
  constructor
  case length_childs =>
    rw [hcounters, ChildAct.count_childs]
    exact h.length_childs
  case length_active =>
    rw [hcounters, ChildAct.count_childsActive]
    split
    · exact length_put.trans h.length_active
    · exact h.length_active
  case spare =>
    have hmoved := Pool.numSpare_move hmove hbefore hafter p.counters
    have heq := h.spare
    rw [hcounters, hpending]
    omega
  case childs =>
    rw [hcounters, ChildAct.count_childs, hpending, hpids]
    exact h.childs
  case active =>
    rw [hcounters, ChildAct.count_childsActive, Pool.served_move hmove hbefore hafter]
    split
    · rename_i ha
      -- the child itself is not served yet, so there is a slot left
      have hnew := ChildAct.move_served hmove
      rw [if_pos ha] at hnew
      have hcard : p.served.card < p.census.card := by
        rw [Pool.served_cons_neg hbefore hnew.1, Multiset.card_map, hbefore, Multiset.card_cons]
        exact Nat.lt_succ_of_le (Multiset.card_le_card (Multiset.filter_le _ _))
      have hfree : 0 ∈ p.counters.childsActive := by
        apply free_mem_of_card_lt
        rw [h.active, h.length_active]
        omega
      rw [held_put hpid.ne' hfree, h.active]
    · exact h.active

/-- With a slot for every child, every step keeps the counters exact. -/
theorem PoolStep.exact {a : PoolAct} (hstep : PoolStep p q a) (hcounted : p.Counted) (h : p.Exact n)
    (hfits : p.census.card ≤ n) : q.Exact n := by
  cases hstep with
  | fork hpid fresh hp hq hwaited hcensus hcounters => exact h.fork hp hq hcensus hcounters
  | addChild hp hq hcensus hcounters =>
    exact h.addChild (hcounted.forked_pos _ hp) hp hq hcensus hcounters hfits
  | waitpid hforked hcensus hcounters => exact h.waitpid hforked hcensus hcounters
  | removeActive hp hq hcensus hcounters =>
    exact h.removeActive hcounted hp hq hcensus hcounters
  | child others hmove hforked hbefore hafter hcounters =>
    have hpid := hcounted.pid_pos _ (Pool.pids_cons hbefore ▸ Multiset.mem_cons_self _ _)
    exact h.child hpid hmove hforked hbefore hafter hcounters hfits

end

end Spmfilter
