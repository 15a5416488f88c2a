import Spmfilter.Server.Counters

/-!
# The counters tell the truth

A run of the protocol in which never more than `max_childs` children are alive
or unreaped: once nobody is between two updates, the counters show exactly the
children that are alive.

* `fits_invariant` carries the two invariants of `Server.Counters` along such a
  run.
* `accounts_of_settled` reads them in a settled state.
* `reaped_unaccounted`: between `waitpid` and `_smf_server_remove_active` the
  reaped child is still on the counters.
-/

namespace Spmfilter

open Slots Transition

/-- At most `max_childs` children are alive or unreaped after the step. -/
def Pool.Fits (w : ServerSettings) (_ p : Pool) : Prop :=
  (p.children.length : Int) ≤ w.maxChilds

instance (w : ServerSettings) (p q : Pool) : Decidable (Pool.Fits w p q) :=
  inferInstanceAs (Decidable ((q.children.length : Int) ≤ w.maxChilds))

/-- The parent is outside `smf_server_fork`, no child is between its two updates
and no exited child is unreaped. -/
structure Pool.Settled (p : Pool) : Prop where
  outside : p.forked = none
  updated : ∀ c ∈ p.children, c.phase ≠ .counted
  reaped : ∀ c ∈ p.children, c.phase.hasExited = false

/-- The counters show the children that are alive.  A child is idle until its
first update and serves a client after its second. -/
structure Pool.Accounts (p : Pool) : Prop where
  procs : p.counters.numProcs = p.live.length
  spare : p.counters.numSpare =
    p.live.countP fun c => c.phase = .idle ∨ c.phase = .signalled
  childs : held 0 p.counters.childs = p.live.map Child.pid
  once : (p.live.map Child.pid).Nodup
  active : held 0 p.counters.childsActive =
    (p.live.filter fun c => c.phase = .active).map Child.pid

section
variable {w : ServerSettings} {p q : Pool}

/-- Only a fork adds to the census, and it finds nobody waited for. -/
theorem PoolStep.card_census {a : PoolAct} (hstep : PoolStep p q a) :
    q.waited = none ∨ q.census.card ≤ p.census.card := by
  cases hstep with
  | fork hpid fresh hp hq hwaited hcensus hcounters => exact Or.inl hwaited
  | addChild hp hq hcensus hcounters => exact Or.inr (le_of_eq (by rw [hcensus]))
  | waitpid hforked hcensus hcounters => exact Or.inr (le_of_eq (by rw [hcensus]))
  | removeActive hp hq hcensus hcounters =>
    right
    rw [hcensus, Multiset.card_cons]
    omega
  | child others hmove hforked hbefore hafter hcounters =>
    right
    rw [hbefore, hafter, Multiset.card_cons, Multiset.card_cons]

theorem fits_invariant (h : RunsIn Pool.step (Pool.Fits w) (Pool.init w) p) :
    p.Counted ∧ p.Exact w.maxChilds.toNat ∧ p.census.card ≤ w.maxChilds.toNat := by
  refine RunsIn.invariant (I := fun p => p.Counted ∧ p.Exact w.maxChilds.toNat ∧
    p.census.card ≤ w.maxChilds.toNat) ?_ ?_ h
  · intro p q hp hstep hfits
    obtain ⟨hcounted, hexact, hcard⟩ := hp
    obtain ⟨a, ha⟩ := hstep
    have hpool := Pool.step_sound ha
    refine ⟨hpool.counted hcounted, hpool.exact hcounted hexact hcard, ?_⟩
    rcases hpool.card_census with hwaited | hle
    · unfold Pool.Fits at hfits
      rw [Pool.census_of_none hwaited, Multiset.coe_card]
      omega
    · exact le_trans hle hcard
  · exact ⟨Pool.counted_init w, Pool.exact_init w, Nat.zero_le _⟩

/-- In a settled state every child is alive. -/
theorem Pool.Settled.live_eq (h : p.Settled) : p.live = p.children := by
  rw [Pool.live, List.filter_eq_self]
  intro c hc
  rw [h.reaped c hc]
  rfl

/-- A child that is alive and not between its updates is idle if it counts as a
spare one, and serves a client if it counts as an active one. -/
theorem Phase.settled {phase : Phase} (hcounted : phase ≠ .counted)
    (hexited : phase.hasExited = false) :
    (phase.spare = true ↔ phase = .idle ∨ phase = .signalled) ∧
      (phase.served = true ↔ phase = .active) := by
  cases phase with
  | idle => decide
  | signalled => decide
  | counted => exact absurd rfl hcounted
  | active => decide
  | exited served => cases hexited

/-- Exact counters tell the truth once the pool has settled and nobody is waited
for. -/
theorem Pool.Exact.accounts {n : Nat} (hexact : p.Exact n) (hcounted : p.Counted)
    (hsettled : p.Settled) (hwaited : p.waited = none) : p.Accounts := by
  have hlive := hsettled.live_eq
  have hcensus := Pool.census_of_none hwaited
  have hpending := Pool.pending_of_none hsettled.outside
  have hprocs := hcounted.procs
  have hspare := hexact.spare
  have hchilds := hexact.childs
  have hnodup := hcounted.nodup
  have hflags : ∀ c ∈ p.children, _ := fun c hc =>
    Phase.settled (hsettled.updated c hc) (hsettled.reaped c hc)
  rw [hpending, Multiset.card_zero] at hprocs hspare
  rw [Pool.pids, hcensus] at hnodup
  constructor
  case procs =>
    rw [hcensus, Multiset.coe_card] at hprocs
    rw [hlive]
    omega
  case spare =>
    rw [Pool.spare, hcensus, Multiset.coe_countP] at hspare
    have hidle : p.children.countP (fun c => c.phase.spare) =
        p.children.countP fun c => c.phase = .idle ∨ c.phase = .signalled := by
      apply List.countP_congr
      intro c hc
      rw [decide_eq_true_eq]
      exact (hflags c hc).1
    rw [hlive, ← hidle]
    simp only [Bool.decide_eq_true] at hspare
    omega
  case childs =>
    rw [hpending, Multiset.add_zero, Pool.pids, hcensus] at hchilds
    rw [hlive, hchilds]
    rfl
  case once =>
    rw [hlive]
    exact hnodup
  case active =>
    have hserving : p.children.filter (fun c => c.phase.served) =
        p.children.filter fun c => c.phase = .active := by
      apply List.filter_congr
      intro c hc
      rw [Bool.eq_iff_iff, decide_eq_true_eq]
      exact (hflags c hc).2
    rw [hexact.active, Pool.served, hcensus, hlive, ← hserving]
    simp

end

/-- **The counters tell the truth.** -/
theorem accounts_of_settled (w : ServerSettings) {p : Pool}
    (h : RunsIn Pool.step (Pool.Fits w) (Pool.init w) p) (hsettled : p.Settled)
    (hwaited : p.waited = none) : p.Accounts := by
  obtain ⟨hcounted, hexact, -⟩ := fits_invariant h
  exact hexact.accounts hcounted hsettled hwaited

/-- Two children, one of which serves a client while the other has exited and
was removed. -/
theorem accounts_of_settled_twoChildren :
    ∃ p : Pool, p.live = [⟨7, .active⟩] ∧ p.Accounts := by
  have hrun : RunsIn Pool.step (Pool.Fits {}) (Pool.init {})
      { counters := ⟨1, 0, [7, 0, 0, 0, 0, 0, 0, 0, 0, 0], [7, 0, 0, 0, 0, 0, 0, 0, 0, 0]⟩
        children := [⟨7, .active⟩] } :=
    RunsIn.of_events (l := [.fork 7, .child .signal 7, .child .decrementSpare 7, .addChild,
      .fork 8, .addChild, .child .exit 8, .child .addActive 7, .waitpid ⟨8, false⟩,
      .removeActive]) rfl
  exact ⟨_, rfl, accounts_of_settled {} hrun ⟨rfl, by decide, by decide⟩ rfl⟩

/-- Between `waitpid` and `_smf_server_remove_active` nobody is unreaped, and the
counters still show the child that `waitpid` has returned. -/
theorem reaped_unaccounted :
    ¬ ∀ (w : ServerSettings) (p : Pool),
      RunsIn Pool.step (Pool.Fits w) (Pool.init w) p → p.Settled → p.Accounts := by
  intro h
  have hrun : RunsIn Pool.step (Pool.Fits {}) (Pool.init {})
      { counters := ⟨1, 1, List.replicate 10 0, 7 :: List.replicate 9 0⟩
        waited := some ⟨7, false⟩ } :=
    RunsIn.of_events (l := [.fork 7, .addChild, .child .exit 7, .waitpid ⟨7, false⟩]) rfl
  have haccounts := h {} _ hrun ⟨rfl, by decide, by decide⟩
  exact absurd haccounts.procs (by decide)

end Spmfilter
