import Spmfilter.Server.Loop

/-!
# `max_childs` as a bound

The refill loop compares `num_procs` with `max_childs` before each fork.  The
first loop does not: it forks `spare_childs` children whatever `max_childs` is.

* `Loop.Roomy`: with room for the first children there is room all along.
* `bounded_iff`: the bound and the slots of the shutdown loop hold in every run
  exactly when the first children fit.
* `bounded_not_two`: two children where one is allowed.
-/

namespace Spmfilter

open Slots Transition

/-- No more than `max_childs` children are alive, and outside `smf_server_fork`
the shutdown loop sends SIGTERM to all of them. -/
structure Loop.Bounded (w : ServerSettings) (s : Loop) : Prop where
  limit : (s.pool.live.length : Int) ≤ w.maxChilds
  targeted : s.pool.forked = none →
    ∀ c ∈ s.pool.live, c.pid ∈ shutdownTargets s.pool.counters

/-- The forks the first loop still has to do. -/
def Pc.left : Pc → Nat
  | .prefork left => left
  | _ => 0

/-- There is a slot for every child, also for those that the first loop will
fork, and for one more where the parent may fork next. -/
structure Loop.Roomy (w : ServerSettings) (s : Loop) : Prop where
  fits : s.pool.census.card + s.pc.left ≤ w.maxChilds.toNat
  room : s.pc = .compare ∨ s.pc = .recompare → s.pool.counters.numProcs < w.maxChilds

section
variable {w : ServerSettings} {s t : Loop}

/-- Where the parent compares, there is room for one more child. -/
theorem Loop.Roomy.card_lt (h : s.Roomy w) (hcounted : s.pool.Counted) (houtside : s.Outside)
    (hpc : s.pc = .compare ∨ s.pc = .recompare) :
    s.pool.census.card < w.maxChilds.toNat := by
  have hless := h.room hpc
  have hforked := houtside.forked_none (by rcases hpc with hpc | hpc <;> rw [hpc] <;> rfl)
  have hprocs := hcounted.procs
  rw [Pool.pending_of_none hforked, Multiset.card_zero] at hprocs
  omega

/-- A signal does not change how much room there is. -/
theorem Loop.Roomy.interrupt (h : s.Roomy w) : s.interrupt.Roomy w := by
  rcases s.interrupt_pc with hsame | ⟨hblocked, hwoken⟩
  · constructor
    · rw [hsame]
      exact h.fits
    · rw [hsame]
      exact h.room
  · constructor
    · have hfits := h.fits
      rw [hblocked] at hfits
      rw [hwoken]
      exact hfits
    · rw [hwoken]
      exact fun hpc => absurd hpc (by decide)

/-- Where the parent may fork there is a slot for the child. -/
theorem Loop.Roomy.forks (h : s.Roomy w) (hcounted : s.pool.Counted) (houtside : s.Outside)
    {pc : Pc} (hforks : Forks w s pc) : s.pool.census.card + 1 + pc.left ≤ w.maxChilds.toNat := by
  cases hforks with
  | @prefork left hpc =>
    have hfits := h.fits
    rw [hpc] at hfits
    show s.pool.census.card + 1 + left ≤ _
    simp only [Pc.left] at hfits
    omega
  | spare hpc _ => exact h.card_lt hcounted houtside (Or.inl hpc)
  | procs hpc _ => exact h.card_lt hcounted houtside (Or.inr hpc)

theorem LoopStep.roomy (hstep : LoopStep w s t) (hcounted : s.pool.Counted)
    (houtside : s.Outside) (h : s.Roomy w) : t.Roomy w := by
  have hfits := h.fits
  cases hstep with
  | @fork pid pool pc hforks hpool =>
    constructor
    · cases hpool with
      | fork hpid fresh hp hq hwaited hcensus hcounters =>
        show pool.census.card + pc.left ≤ _
        rw [hcensus, Multiset.card_cons]
        exact h.forks hcounted houtside hforks
    · intro hcompare
      cases hforks <;> exact absurd hcompare (by simp)
  | @addChild pool hpool =>
    cases hpool with
    | addChild hp hq hcensus hcounters =>
      constructor
      · show pool.census.card + s.pc.left ≤ _
        rw [hcensus]
        exact hfits
      · intro hcompare
        have hnone : s.pool.forked = none :=
          houtside.forked_none (by rcases hcompare with hpc | hpc <;> rw [hpc] <;> rfl)
        rw [hp] at hnone
        cases hnone
  | @jump pc hforked hjumps =>
    constructor
    · have hzero : pc.left = 0 := by cases hjumps <;> rfl
      show s.pool.census.card + pc.left ≤ _
      omega
    · intro hcompare
      cases hjumps with
      | room _ hless => exact hless
      | enough hpc _ => exact h.room (Or.inl hpc)
      | _ => exact absurd hcompare (by simp)
  | @waitpid r pool hpc hpool =>
    cases hpool with
    | waitpid hforked hcensus hcounters =>
      constructor
      · show pool.census.card + 0 ≤ _
        rw [hcensus]
        omega
      · exact fun hcompare => absurd hcompare (by simp)
  | @removeActive pool hpc hpool =>
    cases hpool with
    | removeActive hp hq hcensus hcounters =>
      constructor
      · rw [hcensus, Multiset.card_cons] at hfits
        show pool.census.card + 0 ≤ _
        omega
      · exact fun hcompare => absurd hcompare (by simp)
  | @child a pid pool hpool =>
    cases hpool with
    | child others hmove hforked hbefore hafter hcounters =>
      constructor
      · rw [hbefore, Multiset.card_cons] at hfits
        show pool.census.card + s.pc.left ≤ _
        rw [hafter, Multiset.card_cons]
        exact hfits
      · intro hcompare
        show pool.counters.numProcs < _
        rw [hcounters, ChildAct.count_numProcs]
        exact h.room hcompare
  | usr1 husr1 => exact ⟨h.interrupt.fits, h.interrupt.room⟩
  | chld hchld => exact ⟨h.interrupt.fits, h.interrupt.room⟩
  | term => exact ⟨h.interrupt.fits, h.interrupt.room⟩

/-- If the first children fit, there is room in every reachable state. -/
theorem Reachable.roomy (h : Reachable w s) (hfits : w.initialForks ≤ w.maxChilds.toNat) :
    s.pool.Counted ∧ s.pool.Exact w.maxChilds.toNat ∧ s.Roomy w := by
  suffices hall : s.Outside ∧ s.pool.Counted ∧ s.pool.Exact w.maxChilds.toNat ∧ s.Roomy w from
    hall.2
  refine Runs.invariant (I := fun s => s.Outside ∧ s.pool.Counted ∧
    s.pool.Exact w.maxChilds.toNat ∧ s.Roomy w) ?_ ?_ h
  · intro s t hs hstep
    obtain ⟨houtside, hcounted, hexact, hroomy⟩ := hs
    have hloop := Loop.step_sound hstep
    refine ⟨hloop.outside houtside, hloop.counted hcounted, ?_,
      hloop.roomy hcounted houtside hroomy⟩
    rcases hloop.pool with hsame | ⟨a, hpool⟩
    · rw [hsame]
      exact hexact
    · exact hpool.exact hcounted hexact (le_trans (Nat.le_add_right _ _) hroomy.fits)
  · refine ⟨⟨fun _ => rfl⟩, Pool.counted_init w, Pool.exact_init w, ?_, ?_⟩
    · show 0 + w.initialForks ≤ _
      omega
    · exact fun hcompare => absurd hcompare (by simp [Loop.init])

end

theorem Pool.live_length_le (p : Pool) : p.live.length ≤ p.census.card := by
  have hle : p.live.length ≤ p.children.length := List.length_filter_le _ _
  have hcard : p.census.card = p.children.length + p.waited.toList.length := by
    rw [Pool.census, Multiset.card_add, Multiset.coe_card, Multiset.coe_card, List.length_map]
  omega

/-- With exact counters and outside `smf_server_fork`, every child alive is among
those that the shutdown loop sends SIGTERM to. -/
theorem Pool.Exact.targeted {n : Nat} {p : Pool} (h : p.Exact n) (hcounted : p.Counted)
    (hforked : p.forked = none) : ∀ c ∈ p.live, c.pid ∈ shutdownTargets p.counters := by
  intro c hc
  have hchilds := h.childs
  rw [Pool.pending_of_none hforked, Multiset.add_zero] at hchilds
  have hmem : c.pid ∈ p.pids := by
    apply Multiset.mem_map_of_mem
    rw [Pool.census, Multiset.mem_add]
    exact Or.inl (List.mem_of_mem_filter hc)
  rw [mem_shutdownTargets (hcounted.pid_pos _ hmem), hchilds]
  exact hmem

/-- **The limit holds in every run exactly when the first children fit.** -/
theorem bounded_iff (w : ServerSettings) :
    (∀ s, Reachable w s → s.Bounded w) ↔ (w.initialForks : Int) ≤ w.maxChilds := by
  constructor
  · intro h
    have hbounded := h _ (reachable_preforked w w.initialForks 0 rfl)
    have hlimit := hbounded.limit
    rw [preforked_live, preforked_length] at hlimit
    exact hlimit
  · intro hfits s hs
    obtain ⟨hcounted, hexact, hroomy⟩ := hs.roomy (w := w) (by omega)
    constructor
    · have hlive := Pool.live_length_le s.pool
      have hroom := hroomy.fits
      omega
    · exact hexact.targeted hcounted

/-- Two spare children are forked where one child is allowed, and the second
finds no slot. -/
theorem bounded_not_two :
    ¬ ∀ (w : ServerSettings) (s : Loop), Reachable w s → s.Bounded w := by
  intro h
  have hbounded := h { maxChilds := 1, spareChilds := 2 } _
    (reachable_preforked _ 2 0 rfl)
  exact absurd hbounded.limit (by decide)

end Spmfilter
