import Spmfilter.Server.Loop

/-!
# What a pass of the refill loop leaves

* `Loop.Filled` and `Reachable.filled`: whenever the parent is through with a
  pass of the refill loop, `num_procs` is at least the smaller of `max_childs`
  and `spare_childs`.
* `childful_iff`: with `spare_childs = 0` the pass may leave no child at all, and
  only then.
-/

namespace Spmfilter

open Slots Transition

/-- The parent is past the test of `num_spare` and will sleep without another. -/
def Pc.settled : Pc → Bool
  | .recompare | .call | .blocked => true
  | _ => false

/-- After the first loop and after every pass of the refill loop there are enough
children. -/
structure Loop.Filled (w : ServerSettings) (s : Loop) : Prop where
  prefork : ∀ left, s.pc = .prefork left →
    w.spareChilds ≤ s.pool.counters.numProcs + s.pool.pending.card + left
  settled : s.pc.settled = true → min w.maxChilds w.spareChilds ≤ s.pool.counters.numProcs

theorem ServerSettings.spareChilds_le_initialForks (w : ServerSettings) :
    w.spareChilds ≤ w.initialForks := by
  unfold ServerSettings.initialForks
  split <;> omega

section
variable {w : ServerSettings} {s t : Loop}

theorem Loop.Filled.interrupt (h : s.Filled w) : s.interrupt.Filled w := by
  rcases s.interrupt_pc with hsame | ⟨-, hwoken⟩
  · constructor
    · rw [hsame]
      exact h.prefork
    · rw [hsame]
      exact h.settled
  · constructor
    · rw [hwoken]
      exact fun left hpc => nomatch hpc
    · rw [hwoken]
      exact fun hpc => nomatch hpc

theorem LoopStep.filled (hstep : LoopStep w s t) (hcounted : s.pool.Counted) (h : s.Filled w) :
    t.Filled w := by
  cases hstep with
  | @fork pid pool pc hforks hpool =>
    obtain ⟨hcounters, hbefore, hafter⟩ := hpool.fork_counts
    cases hforks with
    | @prefork left hpc =>
      refine ⟨?_, fun hsettled => (nomatch hsettled)⟩
      intro left' hleft
      obtain rfl := Pc.prefork.inj hleft
      have hold := h.prefork _ hpc
      show _ ≤ pool.counters.numProcs + pool.pending.card + left
      rw [hcounters]
      omega
    | _ => exact ⟨fun _ hpc => (nomatch hpc), fun hsettled => (nomatch hsettled)⟩
  | @addChild pool hpool =>
    obtain ⟨hprocs, -, hbefore, hafter⟩ := hpool.addChild_counts
    refine ⟨?_, ?_⟩
    · intro left hpc
      have hold := h.prefork left hpc
      show _ ≤ pool.counters.numProcs + pool.pending.card + left
      omega
    · intro hsettled
      have hold := h.settled hsettled
      show _ ≤ pool.counters.numProcs
      omega
  | @jump pc hforked hjumps =>
    have hle := hcounted.numSpare_le_numProcs
    cases hjumps with
    | preforked hpc =>
      have hold := h.prefork 0 hpc
      rw [Pool.pending_of_none hforked, Multiset.card_zero] at hold
      refine ⟨fun _ hpc => (nomatch hpc), fun _ => ?_⟩
      show min w.maxChilds w.spareChilds ≤ s.pool.counters.numProcs
      omega
    | sleep hpc =>
      refine ⟨fun _ hpc => (nomatch hpc), fun _ => h.settled ?_⟩
      rw [hpc]
      rfl
    | full hpc hfull =>
      refine ⟨fun _ hpc => (nomatch hpc), fun _ => ?_⟩
      show min w.maxChilds w.spareChilds ≤ s.pool.counters.numProcs
      omega
    | enough hpc henough =>
      refine ⟨fun _ hpc => (nomatch hpc), fun _ => ?_⟩
      show min w.maxChilds w.spareChilds ≤ s.pool.counters.numProcs
      omega
    | done hpc =>
      refine ⟨fun _ hpc => (nomatch hpc), fun _ => h.settled ?_⟩
      rw [hpc]
      rfl
    | _ => exact ⟨fun _ hpc => (nomatch hpc), fun hsettled => (nomatch hsettled)⟩
  | waitpid hpc hpool => exact ⟨fun _ hpc => (nomatch hpc), fun hsettled => (nomatch hsettled)⟩
  | removeActive hpc hpool =>
    exact ⟨fun _ hpc => (nomatch hpc), fun hsettled => (nomatch hsettled)⟩
  | @child a pid pool hpool =>
    obtain ⟨hprocs, -, hpending⟩ := hpool.child_counts
    refine ⟨?_, ?_⟩
    · intro left hpc
      show _ ≤ pool.counters.numProcs + pool.pending.card + left
      rw [hprocs, hpending]
      exact h.prefork left hpc
    · intro hsettled
      show _ ≤ pool.counters.numProcs
      rw [hprocs]
      exact h.settled hsettled
  | usr1 husr1 => exact ⟨h.interrupt.prefork, h.interrupt.settled⟩
  | chld hchld => exact ⟨h.interrupt.prefork, h.interrupt.settled⟩
  | term => exact ⟨h.interrupt.prefork, h.interrupt.settled⟩

theorem Reachable.filled (h : Reachable w s) : s.Filled w := by
  have hboth : s.pool.Counted ∧ s.Filled w := by
    refine Runs.invariant (I := fun s => s.pool.Counted ∧ s.Filled w) ?_ ?_ h
    · intro s t hs hstep
      have hloop := Loop.step_sound hstep
      exact ⟨hloop.counted hs.1, hloop.filled hs.1 hs.2⟩
    · refine ⟨Pool.counted_init w, ?_, fun hsettled => (nomatch hsettled)⟩
      intro left hpc
      have hforks := w.spareChilds_le_initialForks
      obtain rfl := Pc.prefork.inj hpc
      show _ ≤ (0 : Int) + (0 : Nat) + _
      omega
  exact hboth.2

end

/-- With `spare_childs = 0` the only child may exit, and the refill loop forks no
other: it compares two counters that are both zero. -/
theorem reachable_childless {w : ServerSettings} (hmax : 1 ≤ w.maxChilds)
    (hspare : w.spareChilds = 0) :
    ∃ s, Reachable w s ∧ s.pc = .call ∧ s.daemonExit = false ∧
      s.pool.counters.numProcs = 0 := by
  let exited : Pool :=
    { counters := (preforked w 1).counters
      children := [⟨1, .exited false⟩] }
  let removed : Pool := { counters := smfServerRemoveActive 1 (preforked w 1).counters }
  have hprocs : removed.counters.numProcs = 0 := by
    show (smfServerRemoveActive 1 (preforked w 1).counters).numProcs = 0
    rw [numProcs_removeActive, preforked_numProcs]
    rfl
  have hzero : removed.counters.numSpare = 0 := by
    have hout : 1 ∉ (preforked w 1).counters.childsActive := by
      intro hmem
      exact absurd (List.eq_of_mem_replicate hmem) (by decide)
    show (smfServerRemoveActive 1 (preforked w 1).counters).numSpare = 0
    rw [numSpare_removeActive, if_neg hout, preforked_numSpare]
    rfl
  have hforked : Reachable w { pool := preforked w 1, pc := .prefork 0 } := by
    apply reachable_preforked w 1 0
    rw [ServerSettings.initialForks, if_pos hspare]
  have hcall : Reachable w { pool := preforked w 1, pc := .call } :=
    hforked.tail (Loop.step_jump rfl rfl)
  have hexit : Reachable w { pool := exited, pc := .call, chld := true } :=
    hcall.tail (a := .child .exit 1) (Loop.step_child rfl)
  have hwait : Reachable w
      { pool := { counters := (preforked w 1).counters, waited := some ⟨1, false⟩ }
        pc := .returned
        chld := true } :=
    hexit.tail (a := .waitpid ⟨1, false⟩) rfl
  have hremove : Reachable w { pool := removed, pc := .refill, chld := true } :=
    hwait.tail (a := .removeActive) rfl
  have hcompare : Reachable w { pool := removed, pc := .compare, chld := true } := by
    refine hremove.tail (Loop.step_jump rfl (if_pos ?_))
    rw [hprocs]
    omega
  have hrecompare : Reachable w { pool := removed, pc := .recompare, chld := true } := by
    refine hcompare.tail (Loop.step_jump rfl (if_neg ?_))
    rw [hzero]
    omega
  have hagain : Reachable w { pool := removed, pc := .call, chld := true } := by
    refine hrecompare.tail (Loop.step_jump rfl (if_neg ?_))
    rw [hprocs, hzero]
    omega
  exact ⟨_, hagain, rfl, rfl, hprocs⟩

/-- **There is a child after every pass exactly when there are to be spare ones.** -/
theorem childful_iff (w : ServerSettings) (hmax : 1 ≤ w.maxChilds) (hspare : 0 ≤ w.spareChilds) :
    (∀ s, Reachable w s → s.pc = .call → s.daemonExit = false →
      1 ≤ s.pool.counters.numProcs) ↔ 1 ≤ w.spareChilds := by
  constructor
  · intro h
    by_contra hnot
    obtain ⟨s, hs, hpc, hexit, hprocs⟩ := reachable_childless hmax (by omega)
    have hone := h s hs hpc hexit
    omega
  · intro hpos s hs hpc hexit
    have hfilled := hs.filled.settled (by rw [hpc]; rfl)
    omega

/-- With ten children allowed and two to spare there is always one. -/
theorem childful_iff_defaults :
    (∀ s, Reachable {} s → s.pc = .call → s.daemonExit = false →
      1 ≤ s.pool.counters.numProcs) ↔ (1 : Int) ≤ 2 :=
  childful_iff {} (by decide) (by decide)

/-- One child is forked, exits while idle and is not replaced. -/
theorem childful_not_zero :
    ¬ ∀ (w : ServerSettings), 1 ≤ w.maxChilds → 0 ≤ w.spareChilds →
      ∀ s, Reachable w s → s.pc = .call → s.daemonExit = false →
        1 ≤ s.pool.counters.numProcs := by
  intro h
  have hrun : Reachable { spareChilds := 0 }
      { pool := { counters := ⟨0, 0, List.replicate 10 0, List.replicate 10 0⟩ }
        pc := .call
        chld := true } :=
    Runs.of_events (l := [.fork 7, .addChild, .jump, .child .exit 7, .waitpid ⟨7, false⟩,
      .removeActive, .jump, .jump, .jump]) rfl
  exact absurd (h { spareChilds := 0 } (by decide) (by decide) _ hrun rfl rfl) (by decide)

end Spmfilter
