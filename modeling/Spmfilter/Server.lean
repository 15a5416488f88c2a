import Spmfilter.Lib.Slots

/-!
# The counters of the prefork server

`smf_server.c` keeps the counters of the pool in shared memory: how many child
processes there are, how many of them wait for a client, and two arrays of
`max_childs` slots, one for the pids of all children and one for those that
serve a client.  Every function below runs under the semaphore.

* `numProcs_*`, `numSpare_*`, `held_*`: what each function does to the counters,
  with the arrays read as multisets of pids.
-/

namespace Spmfilter

open Slots

/-! ## Settings -/

def CHILD_LIMIT : Int := 1024

/-- The two settings the server reads, with the defaults of `smf_settings_new`.
`smf_settings_parse_config` rejects a `max_childs` above `CHILD_LIMIT` and nothing
else. -/
structure ServerSettings where
  maxChilds : Int := 10
  spareChilds : Int := 2
  accepted : ¬ CHILD_LIMIT < maxChilds := by decide

/-- How many children `smf_server_loop` forks before its first `waitpid`. -/
def ServerSettings.initialForks (w : ServerSettings) : Nat :=
  if w.spareChilds = 0 then 1 else w.spareChilds.toNat

/-! ## Counters -/

/-- `SMFServerCounters_T`.  Both arrays have `max_childs` slots in use, and a
slot with `0` in it is free. -/
structure ServerCounters where
  numProcs : Int
  numSpare : Int
  childsActive : List Int
  childs : List Int
deriving DecidableEq

def smfServerInitIpc (w : ServerSettings) : ServerCounters where
  numProcs := 0
  numSpare := 0
  childsActive := List.replicate w.maxChilds.toNat 0
  childs := List.replicate w.maxChilds.toNat 0

def smfServerAddChild (pid : Int) (c : ServerCounters) : ServerCounters :=
  { c with
    numProcs := c.numProcs + 1
    numSpare := c.numSpare + 1
    childs := put 0 pid c.childs }

def smfServerDecrementSpare (c : ServerCounters) : ServerCounters :=
  { c with numSpare := c.numSpare - 1 }

def smfServerAddActive (pid : Int) (c : ServerCounters) : ServerCounters :=
  { c with childsActive := put 0 pid c.childsActive }

def smfServerRemoveActive (pid : Int) (c : ServerCounters) : ServerCounters :=
  let taken :=
    { c with
      numProcs := c.numProcs - 1
      childsActive := remove 0 pid c.childsActive
      childs := remove 0 pid c.childs }
  -- a child that is not among the active ones counts as a lost spare child
  if pid ∈ c.childsActive then taken else smfServerDecrementSpare taken

/-- The pids `smf_server_loop` sends SIGTERM to when it shuts down. -/
def shutdownTargets (c : ServerCounters) : List Int := c.childs.filter (0 < ·)

/-! ## What the functions do to the counters -/

section
variable (pid : Int) (c : ServerCounters)

theorem numProcs_removeActive :
    (smfServerRemoveActive pid c).numProcs = c.numProcs - 1 := by
  unfold smfServerRemoveActive
  split <;> rfl

theorem numSpare_removeActive :
    (smfServerRemoveActive pid c).numSpare =
      if pid ∈ c.childsActive then c.numSpare else c.numSpare - 1 := by
  unfold smfServerRemoveActive
  split <;> rfl

theorem childs_removeActive :
    (smfServerRemoveActive pid c).childs = remove 0 pid c.childs := by
  unfold smfServerRemoveActive
  split <;> rfl

theorem childsActive_removeActive :
    (smfServerRemoveActive pid c).childsActive = remove 0 pid c.childsActive := by
  unfold smfServerRemoveActive
  split <;> rfl

end

theorem mem_shutdownTargets {pid : Int} {c : ServerCounters} (hpid : 0 < pid) :
    pid ∈ shutdownTargets c ↔ pid ∈ held 0 c.childs := by
  rw [shutdownTargets, List.mem_filter, mem_held, decide_eq_true_eq,
    and_iff_left hpid, and_iff_left hpid.ne']

end Spmfilter
