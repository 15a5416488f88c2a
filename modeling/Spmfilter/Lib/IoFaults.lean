import Spmfilter.Lib.Stdio

/-!
# Reading and writing that fails

The calls of `Stdio` where any call may fail.  Nothing here names a program.

* `ReadFaults` says which calls of a read function meet an error, and after how many
  bytes.  An error does not set the end-of-file flag.
* `WriteCounts` says how many bytes each call of `fwrite` takes.  Fewer than it is given
  is an error.
* `blocks` and `fileAfter` are what some calls of `fread` deliver and where they leave the
  file.
* `writeCalls` and `writeBlocks` write with another call for what a call has left over,
  and give up at a call that takes nothing.
* `Ends` is what a loop that may go on for ever does when it does not.
-/

namespace Stdio

open CString

/-! ## Reading -/

/-- How the calls of a read function go: without an error, or with one after so many
bytes. -/
abbrev ReadFaults := Nat → Option Nat

/-- No call fails. -/
def ReadFaults.none : ReadFaults := fun _ => Option.none

/-- Call number `call`, an `fread` of up to `n` bytes.  With an error it delivers fewer. -/
def freadCall (faults : ReadFaults) (call n : Nat) (f : InFile) : Bytes × InFile :=
  match faults call with
  | .none => fread n f
  | some m => (f.rest.take (min m (n - 1)), ⟨f.rest.drop (min m (n - 1)), f.eof⟩)

/-- Call number `call`, a `getline`.  With an error it gives no line. -/
def getlineCall (faults : ReadFaults) (call : Nat) (f : InFile) : Option Bytes × InFile :=
  match faults call with
  | .none => getline f
  | some _ => (.none, f)

/-- What `k` calls of `fread` deliver, from call number `call` on. -/
def blocks (faults : ReadFaults) (n : Nat) : (call k : Nat) → InFile → List Bytes
  | _, 0, _ => []
  | call, k + 1, f =>
    (freadCall faults call n f).1 :: blocks faults n (call + 1) k (freadCall faults call n f).2

/-- Where they leave the file. -/
def fileAfter (faults : ReadFaults) (n : Nat) : (call k : Nat) → InFile → InFile
  | _, 0, f => f
  | call, k + 1, f => fileAfter faults n (call + 1) k (freadCall faults call n f).2

/-- The block that call number `j` of them delivers. -/
def blockAt (faults : ReadFaults) (n call : Nat) (f : InFile) (j : Nat) : Bytes :=
  (freadCall faults (call + j) n (fileAfter faults n call j f)).1

/-- The calls of `fread` from number `call` on come to the end of the file. -/
def ReachesEnd (faults : ReadFaults) (n call : Nat) (f : InFile) : Prop :=
  ∃ k, (fileAfter faults n call k f).eof = true

/-- The end of the file has been found only where nothing is left of it. -/
def InFile.Sound (f : InFile) : Prop :=
  f.eof = true → f.rest = []

section

variable {faults : ReadFaults} {n call : Nat} {f : InFile}

theorem freadCall_append : (freadCall faults call n f).1 ++ (freadCall faults call n f).2.rest =
    f.rest := by
  unfold freadCall
  cases faults call with
  | none => exact List.take_append_drop n f.rest
  | some m => exact List.take_append_drop _ f.rest

theorem freadCall_length_le (hn : 0 < n) : (freadCall faults call n f).1.length ≤ n := by
  unfold freadCall
  cases faults call with
  | none => exact List.length_take_le n f.rest
  | some m =>
    refine (List.length_take_le _ f.rest).trans ?_
    omega

/-- A call of `fread` comes nearer to the end of the file, unless an error leaves it nothing. -/
theorem freadCall_size (hopen : f.eof = false) (hn : 0 < n)
    (h : ¬((freadCall faults call n f).1.length = 0 ∧ (faults call).isSome = true)) :
    (freadCall faults call n f).2.size < f.size := by
  have hlength : (freadCall faults call n f).1.length + (freadCall faults call n f).2.rest.length =
      f.rest.length := by rw [← List.length_append, freadCall_append]
  unfold freadCall at h hlength ⊢
  cases hfault : faults call with
  | none => exact fread_size hopen hn
  | some m =>
    rw [hfault] at h hlength
    have hne : (f.rest.take (min m (n - 1))).length ≠ 0 := fun hzero => h ⟨hzero, rfl⟩
    show InFile.size ⟨f.rest.drop (min m (n - 1)), f.eof⟩ < f.size
    unfold InFile.size
    rw [hopen, if_neg (by decide), if_neg (by decide)]
    show (f.rest.drop (min m (n - 1))).length + 1 < f.rest.length + 1
    have hsum : (f.rest.take (min m (n - 1))).length + (f.rest.drop (min m (n - 1))).length =
        f.rest.length := hlength
    omega

theorem fileAfter_succ (j : Nat) : fileAfter faults n call (j + 1) f =
    fileAfter faults n (call + 1) j (freadCall faults call n f).2 := rfl

theorem blockAt_zero : blockAt faults n call f 0 = (freadCall faults call n f).1 := rfl

theorem blockAt_succ (j : Nat) : blockAt faults n call f (j + 1) =
    blockAt faults n (call + 1) (freadCall faults call n f).2 j := by
  unfold blockAt
  rw [fileAfter_succ, ← Nat.add_assoc, Nat.add_right_comm]

theorem InFile.Sound.freadCall (h : f.Sound) : (freadCall faults call n f).2.Sound := by
  unfold Stdio.freadCall
  cases faults call with
  | none =>
    intro heof
    show f.rest.drop n = []
    have hor : (f.eof || decide (f.rest.length < n)) = true := heof
    rw [Bool.or_eq_true, decide_eq_true_eq] at hor
    rcases hor with hor | hlt
    · rw [h hor, List.drop_nil]
    · exact List.drop_of_length_le (by omega)
  | some m =>
    intro heof
    show f.rest.drop _ = []
    rw [h heof, List.drop_nil]

theorem sound_start (content : Bytes) : (InFile.start content).Sound := by
  intro heof
  cases heof

theorem InFile.Sound.fileAfter (h : f.Sound) (k : Nat) :
    (fileAfter faults n call k f).Sound := by
  induction k generalizing call f with
  | zero => exact h
  | succ k ih => exact ih h.freadCall

end

/-! ## Writing -/

/-- How many bytes each call of `fwrite` takes, when it is given enough. -/
abbrev WriteCounts := Nat → Nat

/-- The number of the call after `n` bytes have been written, the first call being number
`call`; `none` when a call takes nothing. -/
def writeCalls (counts : WriteCounts) (call n : Nat) : Option Nat :=
  if 0 < n then
    if counts call = 0 then none else writeCalls counts (call + 1) (n - min (counts call) n)
  else some call
termination_by n
decreasing_by omega

/-- The same for some blocks, one after the other. -/
def writeBlocks (counts : WriteCounts) (call : Nat) (bs : List Bytes) : Option Nat :=
  bs.foldlM (fun call b => writeCalls counts call b.length) call

theorem writeBlocks_cons (counts : WriteCounts) (call : Nat) (b : Bytes) (bs : List Bytes) :
    writeBlocks counts call (b :: bs) =
      (writeCalls counts call b.length).bind fun call => writeBlocks counts call bs := rfl

/-- Each block is taken by one call, whole. -/
def TakesWhole (counts : WriteCounts) (call : Nat) (bs : List Bytes) : Prop :=
  ∀ (j : Nat) (b : Bytes), bs[j]? = some b → b.length ≤ counts (call + j)

theorem takesWhole_nil (counts : WriteCounts) (call : Nat) : TakesWhole counts call [] := by
  intro j b h
  simp at h

theorem takesWhole_cons {counts : WriteCounts} {call : Nat} {b : Bytes} {bs : List Bytes} :
    TakesWhole counts call (b :: bs) ↔
      b.length ≤ counts call ∧ TakesWhole counts (call + 1) bs := by
  constructor
  · intro h
    refine ⟨h 0 b rfl, ?_⟩
    intro j c hj
    rw [Nat.add_assoc, Nat.add_comm 1 j]
    exact h (j + 1) c hj
  · rintro ⟨hb, hbs⟩ j c hj
    cases j with
    | zero =>
      obtain rfl := Option.some.inj hj
      exact hb
    | succ j =>
      have hc := hbs j c hj
      rw [Nat.add_assoc, Nat.add_comm 1 j] at hc
      exact hc

/-! ## Loops that may not end -/

section

variable {α : Type} {run next : Nat → Option α} {Q : α → Prop} {a : α}

/-- A loop, given as a function of the number of turns that it may take, ends with a
result for which `Q` holds. -/
def Ends (run : Nat → Option α) (Q : α → Prop) : Prop :=
  ∃ fuel a, run fuel = some a ∧ Q a

/-- A turn after which the loop goes on. -/
theorem ends_turn (hzero : run 0 = none) (hturn : ∀ fuel, run (fuel + 1) = next fuel) :
    Ends run Q ↔ Ends next Q := by
  constructor
  · rintro ⟨fuel, a, hrun, ha⟩
    cases fuel with
    | zero =>
      rw [hzero] at hrun
      cases hrun
    | succ fuel =>
      rw [hturn] at hrun
      exact ⟨fuel, a, hrun, ha⟩
  · rintro ⟨fuel, a, hrun, ha⟩
    exact ⟨fuel + 1, a, (hturn fuel).trans hrun, ha⟩

/-- A turn that is the last one. -/
theorem ends_last (hzero : run 0 = none) (hlast : ∀ fuel, run (fuel + 1) = some a) :
    Ends run Q ↔ Q a := by
  constructor
  · rintro ⟨fuel, b, hrun, hb⟩
    cases fuel with
    | zero =>
      rw [hzero] at hrun
      cases hrun
    | succ fuel =>
      rw [hlast] at hrun
      obtain rfl := Option.some.inj hrun
      exact hb
  · intro ha
    exact ⟨1, a, hlast 0, ha⟩

/-- When more turns do not change a result, there is only one. -/
theorem run_unique {b : α} (hmore : ∀ fuel a, run fuel = some a → run (fuel + 1) = some a)
    {m n : Nat} (ha : run m = some a) (hb : run n = some b) : a = b := by
  have hlater : ∀ {fuel a}, run fuel = some a → ∀ k, run (fuel + k) = some a := by
    intro fuel a hrun k
    induction k with
    | zero => exact hrun
    | succ k ih => exact hmore (fuel + k) a ih
  have hboth := hlater ha n
  rw [Nat.add_comm, hlater hb m] at hboth
  exact (Option.some.inj hboth).symm

/-- A result of such a loop, when it ends. -/
theorem Ends.of_run (h : Ends run Q)
    (hmore : ∀ fuel a, run fuel = some a → run (fuel + 1) = some a) {fuel : Nat}
    (hrun : run fuel = some a) : Q a := by
  obtain ⟨n, b, hb, hQ⟩ := h
  rw [run_unique hmore hrun hb]
  exact hQ

end

end Stdio
