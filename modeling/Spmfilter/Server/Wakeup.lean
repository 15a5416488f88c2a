import Spmfilter.Server.Capacity
import Spmfilter.Server.Refill

/-!
# Wake-ups by SIGUSR1

A child sends SIGUSR1 and then takes itself off `num_spare`.  The parent may
handle the signal, look at `num_spare` and sleep again before the child gets to
its update; or it may handle the signal between its look and its sleep.  Either
way nobody forks the spare child that is now missing.

* `Loop.Awake` and `timely_stocked`: no wake-up is lost in a run in which every
  SIGUSR1 is handled after the update it announces and before another look.
* `reachable_starved`: with `1 ≤ spare_childs < max_childs` a wake-up can be lost.
* `stocked_iff`: it can be lost for no other settings.
-/

namespace Spmfilter

open Slots Transition

/-- The parent sleeps in `waitpid`, no signal to it is in flight, no exited child is
unreaped, and every child is idle or registered as active. -/
structure Loop.Quiet (s : Loop) : Prop where
  blocked : s.pc = .blocked
  usr1 : s.usr1 = false
  chld : s.chld = false
  children : ∀ c ∈ s.pool.children, c.phase = .idle ∨ c.phase = .active

/-- There are enough spare children, or no more children are allowed. -/
def Loop.Stocked (w : ServerSettings) (s : Loop) : Prop :=
  w.spareChilds ≤ s.pool.counters.numSpare ∨ w.maxChilds ≤ s.pool.counters.numProcs

/-- The parent will look at `num_spare` before it sleeps again, if it does not see
that no more children are allowed. -/
def Pc.looksAgain : Pc → Bool
  | .prefork _ | .recompare | .call => false
  | _ => true

/-- If the step handles SIGUSR1, then every child that has sent one has made its
update, and the parent is going to look at it. -/
def Timely (s t : Loop) : Prop :=
  s.usr1 = true → t.usr1 = false →
    s.pc.looksAgain = true ∧ ∀ c ∈ s.pool.children, c.phase ≠ .signalled

/-! ## Timely runs -/

/-- A child that has yet to take itself off `num_spare` keeps its signal pending,
and a pending signal stands for what is missing. -/
structure Loop.Awake (w : ServerSettings) (s : Loop) : Prop where
  pending : ∀ c ∈ s.pool.census, c.phase = .signalled → s.usr1 = true
  prefork : ∀ left, s.pc = .prefork left → s.usr1 = true ∨
    w.spareChilds ≤ s.pool.counters.numSpare + s.pool.pending.card + left
  settled : s.pc.settled = true → s.usr1 = true ∨ s.Stocked w

section
variable {w : ServerSettings} {s t : Loop}

/-- A handled signal other than SIGUSR1. -/
theorem Loop.Awake.interrupt (h : s.Awake w) : s.interrupt.Awake w := by
  refine ⟨h.pending, ?_, ?_⟩
  · intro left hpc
    rcases s.interrupt_pc with hsame | ⟨-, hwoken⟩
    · exact h.prefork left (hsame ▸ hpc)
    · rw [hwoken] at hpc
      cases hpc
  · intro hsettled
    rcases s.interrupt_pc with hsame | ⟨-, hwoken⟩
    · exact h.settled (hsame ▸ hsettled)
    · rw [hwoken] at hsettled
      cases hsettled

/-- A child in the census that has signalled is among the children. -/
theorem Pool.mem_children_of_signalled {p : Pool} {c : Child} (hc : c ∈ p.census)
    (hsignalled : c.phase = .signalled) : c ∈ p.children := by
  rw [Pool.census, Multiset.mem_add] at hc
  rcases hc with hchild | hwaited
  · exact hchild
  · obtain ⟨r, -, rfl⟩ := List.mem_map.mp hwaited
    cases hsignalled

/-- Where the parent looks again it has not looked yet. -/
theorem Pc.settled_of_looksAgain {pc : Pc} (h : pc.looksAgain = true) (hpc : pc ≠ .blocked) :
    pc.settled = false ∧ ∀ left, pc ≠ .prefork left := by
  cases pc with
  | prefork left => cases h
  | call => cases h
  | blocked => exact absurd rfl hpc
  | recompare => cases h
  | _ => exact ⟨rfl, fun _ hleft => nomatch hleft⟩

/-- A timely SIGUSR1. -/
theorem Loop.Awake.usr1 (hlooks : s.pc.looksAgain = true)
    (hnone : ∀ c ∈ s.pool.children, c.phase ≠ .signalled) :
    Loop.Awake w { s.interrupt with usr1 := false } := by
  have hpc : s.interrupt.pc.settled = false ∧ ∀ left, s.interrupt.pc ≠ .prefork left := by
    by_cases hblocked : s.pc = .blocked
    · have hwoken : s.interrupt.pc = .returned := if_pos hblocked
      rw [hwoken]
      exact ⟨rfl, fun _ hleft => nomatch hleft⟩
    · have hsame : s.interrupt.pc = s.pc := if_neg hblocked
      rw [hsame]
      exact Pc.settled_of_looksAgain hlooks hblocked
  refine ⟨?_, ?_, ?_⟩
  · intro c hc hsignalled
    exact absurd hsignalled (hnone c (Pool.mem_children_of_signalled hc hsignalled))
  · exact fun left hprefork => absurd hprefork (hpc.2 left)
  · intro hsettled
    exact absurd (hpc.1.symm.trans hsettled) Bool.false_ne_true

theorem ChildAct.signalled_of_decrement {phase phase' : Phase}
    (h : ChildAct.move .decrementSpare phase = some phase') : phase = .signalled := by
  cases phase with
  | signalled => rfl
  | _ => cases h

theorem ChildAct.eq_signal {a : ChildAct} {phase : Phase}
    (h : a.move phase = some .signalled) : a = .signal := by
  cases a with
  | signal => rfl
  | _ => cases phase <;> cases h

/-- What a child does is announced: while its signal is pending nothing is missed. -/
theorem Loop.Awake.child (h : s.Awake w) {a : ChildAct} {pid : Int} {pool : Pool}
    (hpool : PoolStep s.pool pool (.child a pid)) :
    Loop.Awake w
      { s with
        pool := pool
        usr1 := s.usr1 || a = .signal
        chld := s.chld || a = .exit } := by
  obtain ⟨hprocs, hsame, hpending⟩ := hpool.child_counts
  cases hpool with
  | @child _ _ phase phase' others hmove hforked hbefore hafter hcounters =>
    have hmem : (⟨pid, phase⟩ : Child) ∈ s.pool.census :=
      hbefore ▸ Multiset.mem_cons_self _ _
    by_cases hsent : (s.usr1 || decide (a = .signal)) = true
    · exact ⟨fun _ _ _ => hsent, fun _ _ => Or.inl hsent, fun _ => Or.inl hsent⟩
    · rw [Bool.or_eq_true, decide_eq_true_eq, not_or] at hsent
      obtain ⟨husr1, hact⟩ := hsent
      -- without a pending signal no child is about to take itself off
      have hnone : ∀ c ∈ s.pool.census, c.phase ≠ .signalled :=
        fun c hc hsignalled => husr1 (h.pending c hc hsignalled)
      have hnot : a ≠ .decrementSpare := by
        intro ha
        rw [ha] at hmove
        exact hnone _ hmem (ChildAct.signalled_of_decrement hmove)
      have hspare := hsame hnot
      refine ⟨?_, ?_, ?_⟩
      · intro c hc hsignalled
        rw [hafter, Multiset.mem_cons] at hc
        rcases hc with rfl | hc
        · rw [show phase' = .signalled from hsignalled] at hmove
          exact absurd (ChildAct.eq_signal hmove) hact
        · exact absurd hsignalled (hnone c (hbefore ▸ Multiset.mem_cons_of_mem hc))
      · intro left hpc
        right
        show _ ≤ pool.counters.numSpare + pool.pending.card + left
        rw [hspare, hpending]
        exact (h.prefork left hpc).resolve_left husr1
      · intro hsettled
        right
        show _ ≤ pool.counters.numSpare ∨ _ ≤ pool.counters.numProcs
        rw [hspare, hprocs]
        exact (h.settled hsettled).resolve_left husr1

theorem LoopStep.awake (hstep : LoopStep w s t) (htimely : Timely s t) (h : s.Awake w) :
    t.Awake w := by
  cases hstep with
  | @fork pid pool pc hforks hpool =>
    obtain ⟨hsame, hzero, hone⟩ := hpool.fork_counts
    cases hpool with
    | fork hpid fresh hp hq hwaited hcensus hcounters =>
      have hpending : ∀ c ∈ pool.census, c.phase = .signalled → s.usr1 = true := by
        intro c hc hsignalled
        rw [hcensus, Multiset.mem_cons] at hc
        rcases hc with rfl | hc
        · cases hsignalled
        · exact h.pending c hc hsignalled
      cases hforks with
      | @prefork left hpc =>
        refine ⟨hpending, ?_, fun hsettled => (nomatch hsettled)⟩
        intro left' hleft
        obtain rfl := Pc.prefork.inj hleft
        rcases h.prefork _ hpc with husr1 | hold
        · exact Or.inl husr1
        · right
          show _ ≤ pool.counters.numSpare + pool.pending.card + left
          rw [hsame]
          omega
      | _ => exact ⟨hpending, fun _ hpc => (nomatch hpc), fun hsettled => (nomatch hsettled)⟩
  | @addChild pool hpool =>
    obtain ⟨hprocs, hspare, hone, hzero⟩ := hpool.addChild_counts
    cases hpool with
    | addChild hp hq hcensus hcounters =>
      refine ⟨fun c hc => h.pending c (hcensus ▸ hc), ?_, ?_⟩
      · intro left hpc
        rcases h.prefork left hpc with husr1 | hold
        · exact Or.inl husr1
        · right
          show _ ≤ pool.counters.numSpare + pool.pending.card + left
          omega
      · intro hsettled
        rcases h.settled hsettled with husr1 | hspares | hfull
        · exact Or.inl husr1
        · right
          left
          show _ ≤ pool.counters.numSpare
          omega
        · right
          right
          show _ ≤ pool.counters.numProcs
          omega
  | @jump pc hforked hjumps =>
    refine ⟨h.pending, ?_, ?_⟩
    · intro left hpc
      cases hjumps <;> cases hpc
    · intro hsettled
      cases hjumps with
      | preforked hpc =>
        rcases h.prefork 0 hpc with husr1 | hold
        · exact Or.inl husr1
        · right
          left
          rw [Pool.pending_of_none hforked, Multiset.card_zero] at hold
          show _ ≤ s.pool.counters.numSpare
          omega
      | sleep hpc => exact h.settled (by rw [hpc]; rfl)
      | full hpc hfull => exact Or.inr (Or.inr (Int.not_lt.mp hfull))
      | enough hpc henough => exact Or.inr (Or.inl (Int.not_lt.mp henough))
      | done hpc => exact h.settled (by rw [hpc]; rfl)
      | _ => cases hsettled
  | @waitpid r pool hpc hpool =>
    cases hpool with
    | waitpid hforked hcensus hcounters =>
      exact ⟨fun c hc => h.pending c (hcensus ▸ hc), fun _ hpc => (nomatch hpc),
        fun hsettled => (nomatch hsettled)⟩
  | @removeActive pool hpc hpool =>
    cases hpool with
    | removeActive hp hq hcensus hcounters =>
      exact ⟨fun c hc => h.pending c (hcensus ▸ Multiset.mem_cons_of_mem hc),
        fun _ hpc => (nomatch hpc), fun hsettled => (nomatch hsettled)⟩
  | child hpool => exact h.child hpool
  | usr1 husr1 =>
    obtain ⟨hlooks, hnone⟩ := htimely husr1 rfl
    exact Loop.Awake.usr1 hlooks hnone
  | chld hchld => exact ⟨h.interrupt.pending, h.interrupt.prefork, h.interrupt.settled⟩
  | term => exact ⟨h.interrupt.pending, h.interrupt.prefork, h.interrupt.settled⟩

/-- No wake-up is lost in a timely run. -/
theorem timely_awake (h : RunsIn (Loop.step w) Timely (Loop.init w) s) : s.Awake w := by
  refine RunsIn.invariant
    (fun _ _ hs hstep htimely => (Loop.step_sound hstep).awake htimely hs) ?_ h
  refine ⟨fun c hc => absurd hc (Multiset.notMem_zero c), ?_, fun hsettled => (nomatch hsettled)⟩
  intro left hpc
  right
  obtain rfl := Pc.prefork.inj hpc
  have hforks := w.spareChilds_le_initialForks
  show _ ≤ (0 : Int) + (0 : Nat) + _
  omega

end

/-! ## A lost wake-up -/

/-- `k + 1` children, of which the last one forked is in `phase`. -/
def crowd (w : ServerSettings) (k : Nat) (phase : Phase) (c : ServerCounters) : Pool where
  counters := c
  children := ⟨k + 1, phase⟩ :: (preforked w k).children

theorem crowd_steps {w : ServerSettings} {k : Nat} {a : ChildAct} {phase phase' : Phase}
    {c : ServerCounters} (hmove : a.move phase = some phase') :
    (crowd w k phase c).step (.child a (k + 1)) = some (crowd w k phase' (a.count (k + 1) c)) := by
  have hadvance : advance (k + 1) a (crowd w k phase c).children =
      some (crowd w k phase' c).children := by
    rw [crowd, advance, if_pos rfl, hmove]
    rfl
  rw [Pool.step, hadvance]
  rfl

/-- With nobody to reap the parent goes to sleep. -/
theorem crowd_sleeps {w : ServerSettings} {k : Nat} {phase : Phase} {c : ServerCounters}
    (hphase : phase.hasExited = false) :
    Loop.jumps w { pool := crowd w k phase c, pc := .call } = some .blocked := by
  have hall : (crowd w k phase c).children.all (fun c => !c.phase.hasExited) = true := by
    rw [List.all_eq_true]
    intro child hchild
    rcases List.mem_cons.mp hchild with rfl | hchild
    · rw [hphase]
      rfl
    · rw [(preforked_children w k child hchild).1]
      rfl
  have hsome : (crowd w k phase c).children ≠ [] := List.cons_ne_nil _ _
  simp only [Loop.jumps, if_neg hsome, if_pos hall]

/-- The parent handles SIGUSR1 and looks at `num_spare`; then the child takes itself
off it. -/
theorem reachable_starved {w : ServerSettings} (hpos : 1 ≤ w.spareChilds)
    (hroom : w.spareChilds < w.maxChilds) :
    ∃ s, Reachable w s ∧ s.Quiet ∧ ¬ s.Stocked w := by
  obtain ⟨k, hk⟩ : ∃ k : Nat, w.spareChilds = (k + 1 : Nat) :=
    ⟨(w.spareChilds - 1).toNat, by omega⟩
  let c := (preforked w (k + 1)).counters
  have hprocs : c.numProcs = (k + 1 : Nat) := preforked_numProcs w (k + 1)
  have hspare : c.numSpare = (k + 1 : Nat) := preforked_numSpare w (k + 1)
  have hforked : Reachable w { pool := crowd w k .idle c, pc := .prefork 0 } := by
    apply reachable_preforked w (k + 1) 0
    unfold ServerSettings.initialForks
    split <;> omega
  have hcall : Reachable w { pool := crowd w k .idle c, pc := .call } :=
    hforked.tail (Loop.step_jump rfl rfl)
  have hsleep : Reachable w { pool := crowd w k .idle c, pc := .blocked } :=
    hcall.tail (Loop.step_jump rfl (crowd_sleeps rfl))
  have hsignal : Reachable w { pool := crowd w k .signalled c, pc := .blocked, usr1 := true } :=
    hsleep.tail (a := .child .signal (k + 1)) (Loop.step_child (crowd_steps rfl))
  have hwoken : Reachable w { pool := crowd w k .signalled c, pc := .returned } :=
    hsignal.tail (a := .usr1) rfl
  have hrefill : Reachable w { pool := crowd w k .signalled c, pc := .refill } :=
    hwoken.tail (Loop.step_jump rfl rfl)
  have hcompare : Reachable w { pool := crowd w k .signalled c, pc := .compare } := by
    refine hrefill.tail (Loop.step_jump rfl (if_pos ?_))
    show c.numProcs < w.maxChilds
    omega
  have hrecompare : Reachable w { pool := crowd w k .signalled c, pc := .recompare } := by
    refine hcompare.tail (Loop.step_jump rfl (if_neg ?_))
    show ¬ c.numSpare < w.spareChilds
    omega
  have hagain : Reachable w { pool := crowd w k .signalled c, pc := .call } := by
    refine hrecompare.tail (Loop.step_jump rfl (if_neg ?_))
    show ¬ c.numProcs < c.numSpare
    omega
  have hasleep : Reachable w { pool := crowd w k .signalled c, pc := .blocked } :=
    hagain.tail (Loop.step_jump rfl (crowd_sleeps rfl))
  have hcounted : Reachable w
      { pool := crowd w k .counted (smfServerDecrementSpare c), pc := .blocked } :=
    hasleep.tail (a := .child .decrementSpare (k + 1)) (Loop.step_child (crowd_steps rfl))
  have hactive : Reachable w
      { pool := crowd w k .active (smfServerAddActive (k + 1) (smfServerDecrementSpare c))
        pc := .blocked } :=
    hcounted.tail (a := .child .addActive (k + 1)) (Loop.step_child (crowd_steps rfl))
  refine ⟨_, hactive, ⟨rfl, rfl, rfl, ?_⟩, ?_⟩
  · intro child hchild
    rcases List.mem_cons.mp hchild with rfl | hchild
    · exact Or.inr rfl
    · exact Or.inl (preforked_children w k child hchild).1
  · intro hstocked
    have hmissing : w.spareChilds ≤ c.numSpare - 1 ∨ w.maxChilds ≤ c.numProcs := hstocked
    omega

/-- **A wake-up can be lost exactly when there are spare children to keep and room
for more.**  In a timely run none is lost. -/
theorem stocked_iff (w : ServerSettings) :
    ((∀ s, Reachable w s → s.Quiet → s.Stocked w) ↔
        w.spareChilds ≤ 0 ∨ w.maxChilds ≤ w.spareChilds) ∧
      ∀ s, RunsIn (Loop.step w) Timely (Loop.init w) s → s.Quiet → s.Stocked w := by
  refine ⟨⟨?_, ?_⟩, ?_⟩
  · intro h
    by_contra hnot
    obtain ⟨s, hs, hquiet, hstarved⟩ := reachable_starved (w := w) (by omega) (by omega)
    exact hstarved (h s hs hquiet)
  · intro hsettings s hs hquiet
    by_cases hroom : w.maxChilds ≤ w.spareChilds
    · right
      have hfilled := hs.filled.settled (by rw [hquiet.blocked]; rfl)
      omega
    · left
      have hfits : w.initialForks ≤ w.maxChilds.toNat := by
        unfold ServerSettings.initialForks
        split <;> omega
      obtain ⟨-, hexact, -⟩ := hs.roomy hfits
      have hspare := hexact.spare
      have hforked := hs.outside.forked_none (by rw [hquiet.blocked]; rfl)
      rw [Pool.pending_of_none hforked, Multiset.card_zero] at hspare
      omega
  · intro s hs hquiet
    have hawake := (timely_awake hs).settled (by rw [hquiet.blocked]; rfl)
    rw [hquiet.usr1] at hawake
    exact hawake.resolve_left Bool.false_ne_true

/-- Child 8 gets a client while the parent sleeps.  The parent handles the signal,
sees two spare children, and sleeps again; then child 8 takes itself off. -/
theorem stocked_not_default :
    ¬ ∀ (w : ServerSettings) (s : Loop), Reachable w s → s.Quiet → s.Stocked w := by
  intro h
  have hrun : Reachable {}
      { pool :=
          { counters := ⟨2, 1, 8 :: List.replicate 9 0, 7 :: 8 :: List.replicate 8 0⟩
            children := [⟨8, .active⟩, ⟨7, .idle⟩] }
        pc := .blocked } :=
    Runs.of_events (l := [.fork 7, .addChild, .fork 8, .addChild, .jump, .jump,
      .child .signal 8, .usr1, .jump, .jump, .jump, .jump, .jump,
      .child .decrementSpare 8, .child .addActive 8]) rfl
  rcases h {} _ hrun ⟨rfl, rfl, rfl, by decide⟩ with hspare | hprocs
  · exact absurd hspare (by decide)
  · exact absurd hprocs (by decide)

end Spmfilter
