import Mathlib.Data.List.Nodup
import Mathlib.Data.List.Perm.Subperm
import Spmfilter.Modules

/-!
# The dirty test

The loops at the start of `smf_modules_flush_dirty`, which decide whether the
spool file is written again.  They walk over the headers of the message, look for
each name in the list of the initial headers, and compare the values.

* `dirtyTest_eq`: the loops compute `headersDirty`.
* `headersDirty_iff`: on lists with different names the test is exact.  It looks in one
  direction only, and the sizes make up for the other one.
* `flush_skipped_iff`: the flush leaves the spool file alone exactly then.
-/

namespace Spmfilter

open CString

/-! ## The loops -/

/-- One turn of the loop over the values of a header.  `smf_header_get_value` is NULL
where there is no value. -/
def valueTurn (hMsg hInit : Header) (dirty : Bool) (i : Nat) : Bool :=
  match hMsg.values[i]?, hInit.values[i]? with
  | some value1, some value2 => if value1 ≠ value2 then true else dirty
  | _, _ => dirty

/-- The loop over the initial headers: `found` and `dirty`. -/
def initLoop (hMsg : Header) (dirty : Bool) : List Header → Bool × Bool
  | [] => (false, dirty)
  | hInit :: init =>
    if hMsg.name = hInit.name then
      if hMsg.values.length ≠ hInit.values.length then (true, true)
      else (true, (List.range hMsg.values.length).foldl (valueTurn hMsg hInit) dirty)
    else initLoop hMsg dirty init

/-- The loop over the headers of the message. -/
def msgLoop (init : List Header) (dirty : Bool) : List Header → Bool
  | [] => dirty
  | hMsg :: msg =>
    let scan := initLoop hMsg dirty init
    if scan.1 = false then true else msgLoop init scan.2 msg

/-- The dirty test of `smf_modules_flush_dirty`. -/
def dirtyTest (msg init : List Header) : Bool :=
  if msg.length ≠ init.length then true else msgLoop init false msg

/-- The loop over the values notes whether two of them differ. -/
theorem foldl_valueTurn (hMsg hInit : Header) (dirty : Bool)
    (hlen : hMsg.values.length = hInit.values.length) :
    (List.range hMsg.values.length).foldl (valueTurn hMsg hInit) dirty =
      (dirty || (hMsg.values.zip hInit.values).any fun v => v.1 != v.2) := by
  obtain ⟨name, xs⟩ := hMsg
  obtain ⟨name', ys⟩ := hInit
  dsimp only at hlen ⊢
  -- on the values, from the first one on; the positions move with them
  induction xs generalizing dirty ys with
  | nil => simp
  | cons x xs ih =>
    cases ys with
    | nil => simp at hlen
    | cons y ys =>
      have htail : ∀ d i, valueTurn ⟨name, x :: xs⟩ ⟨name', y :: ys⟩ d (i + 1) =
          valueTurn ⟨name, xs⟩ ⟨name', ys⟩ d i := fun _ _ => rfl
      have hhead : valueTurn ⟨name, x :: xs⟩ ⟨name', y :: ys⟩ dirty 0 = (dirty || x != y) := by
        by_cases hxy : x = y <;> simp [valueTurn, hxy]
      rw [List.length_cons, List.range_succ_eq_map, List.foldl_cons, List.foldl_map, hhead]
      simp only [Nat.succ_eq_add_one, htail]
      rw [ih _ ys (by simpa using hlen), List.zip_cons_cons, List.any_cons, Bool.or_assoc]

/-- The loop over the initial headers looks the name up and compares. -/
theorem initLoop_eq (hMsg : Header) (dirty : Bool) (init : List Header) :
    initLoop hMsg dirty init =
      if (init.find? fun i => i.name == hMsg.name).isSome then
        (true, dirty || headerChanged init hMsg)
      else (false, dirty) := by
  induction init with
  | nil => rfl
  | cons i init ih =>
    rw [initLoop]
    by_cases hname : hMsg.name = i.name
    · have hfind : ((i :: init).find? fun i => i.name == hMsg.name) = some i := by
        rw [List.find?_cons_of_pos (by simp [hname])]
      rw [if_pos hname, hfind, headerChanged, hfind]
      by_cases hlen : hMsg.values.length = i.values.length
      · rw [if_neg (by simp [hlen]), foldl_valueTurn _ _ _ hlen]
        simp [hlen]
      · rw [if_pos hlen]
        simp [hlen]
    · have hfind : ((i :: init).find? fun i => i.name == hMsg.name) =
          init.find? fun i => i.name == hMsg.name := by
        rw [List.find?_cons_of_neg (by simpa using fun h => hname h.symm)]
      rw [if_neg hname, ih, headerChanged, headerChanged, hfind]

theorem msgLoop_eq (init : List Header) (dirty : Bool) (msg : List Header) :
    msgLoop init dirty msg = (dirty || msg.any (headerChanged init)) := by
  induction msg generalizing dirty with
  | nil => simp [msgLoop]
  | cons h msg ih =>
    rw [msgLoop, initLoop_eq, List.any_cons]
    cases hfind : init.find? fun i => i.name == h.name with
    | none => simp [headerChanged, hfind]
    | some i =>
      show (if true = false then true else msgLoop init (dirty || headerChanged init h) msg) = _
      rw [if_neg (by decide), ih, Bool.or_assoc]

/-- The loops compute the test that the flush is described with. -/
theorem dirtyTest_eq (msg init : List Header) : dirtyTest msg init = headersDirty msg init := by
  unfold dirtyTest headersDirty
  by_cases hlen : msg.length = init.length
  · rw [if_neg (by simp [hlen]), msgLoop_eq]
    simp [hlen]
  · rw [if_pos hlen]
    simp [hlen]

/-! ## What the test tells -/

/-- Two lists hold the same names, and each name with the same sequence of values. -/
structure SameHeaders (msg init : List Header) : Prop where
  names : ∀ name, name ∈ msg.map Header.name ↔ name ∈ init.map Header.name
  values : ∀ h ∈ msg, ∀ i ∈ init, h.name = i.name → h.values = i.values

/-- Lists of one length are equal when no two values at one position differ. -/
theorem zip_any_ne {xs ys : List Bytes} (hlen : xs.length = ys.length) :
    ((xs.zip ys).any fun v => v.1 != v.2) = false ↔ xs = ys := by
  induction xs generalizing ys with
  | nil =>
    cases ys with
    | nil => simp
    | cons y ys => simp at hlen
  | cons x xs ih =>
    cases ys with
    | nil => simp at hlen
    | cons y ys =>
      have htail : xs.length = ys.length := by simpa using hlen
      rw [List.zip_cons_cons, List.any_cons, Bool.or_eq_false_iff, ih htail, List.cons.injEq]
      simp

/-- A header is unchanged when the first initial header of its name has its values. -/
theorem headerChanged_eq_false (init : List Header) (h : Header) :
    headerChanged init h = false ↔
      ∃ i, (init.find? fun i => i.name == h.name) = some i ∧ h.values = i.values := by
  unfold headerChanged
  cases hfind : init.find? fun i => i.name == h.name with
  | none => simp
  | some i =>
    by_cases hlen : h.values.length = i.values.length
    · simp only [hlen, bne_self_eq_false, Bool.false_or, zip_any_ne hlen, Option.some.injEq,
        exists_eq_left']
    · have hne : h.values ≠ i.values := fun heq => hlen (by rw [heq])
      simp [hlen, hne]

variable {msg init : List Header}

/-- The counting argument: as many different names, all of them in the initial list,
leave no initial name out. -/
theorem names_of_subset (hmsg : (msg.map Header.name).Nodup) (hlen : msg.length = init.length)
    (hsub : ∀ h ∈ msg, h.name ∈ init.map Header.name) :
    ∀ name, name ∈ msg.map Header.name ↔ name ∈ init.map Header.name := by
  have hsubset : msg.map Header.name ⊆ init.map Header.name := by
    intro name hname
    obtain ⟨h, hh, rfl⟩ := List.mem_map.mp hname
    exact hsub h hh
  have hperm : (msg.map Header.name).Perm (init.map Header.name) := by
    apply (List.subperm_of_subset hmsg hsubset).perm_of_length_le
    rw [List.length_map, List.length_map, hlen]
  intro name
  exact hperm.mem_iff

/-- The test is exact on lists with different names. -/
theorem headersDirty_iff (hmsg : (msg.map Header.name).Nodup)
    (hinit : (init.map Header.name).Nodup) :
    headersDirty msg init = false ↔ SameHeaders msg init := by
  unfold headersDirty
  rw [Bool.or_eq_false_iff, bne_eq_false_iff_eq, List.any_eq_false]
  constructor
  · rintro ⟨hlen, hall⟩
    have hfound : ∀ h ∈ msg, ∃ i, (init.find? fun i => i.name == h.name) = some i ∧
        h.values = i.values := by
      intro h hh
      exact (headerChanged_eq_false init h).mp (by simpa using hall h hh)
    refine ⟨names_of_subset hmsg hlen ?_, ?_⟩
    · intro h hh
      obtain ⟨i, hi, -⟩ := hfound h hh
      have hname : i.name = h.name := by simpa using List.find?_some hi
      exact List.mem_map.mpr ⟨i, List.mem_of_find?_eq_some hi, hname⟩
    · intro h hh i hi hname
      obtain ⟨j, hj, hvalues⟩ := hfound h hh
      have hjname : j.name = h.name := by simpa using List.find?_some hj
      -- the header that was found is the only one of its name
      have hij : j = i := by
        apply List.inj_on_of_nodup_map hinit (List.mem_of_find?_eq_some hj) hi
        rw [hjname, hname]
      rw [hvalues, hij]
  · intro hsame
    have hperm : (msg.map Header.name).Perm (init.map Header.name) :=
      (List.perm_ext_iff_of_nodup hmsg hinit).mpr hsame.names
    refine ⟨by simpa using hperm.length_eq, ?_⟩
    intro h hh
    have hname : h.name ∈ init.map Header.name :=
      (hsame.names h.name).mp (List.mem_map_of_mem hh)
    obtain ⟨i, hi, hin⟩ := List.mem_map.mp hname
    have hsome : (init.find? fun i => i.name == h.name).isSome := by
      rw [List.find?_isSome]
      exact ⟨i, hi, by simpa using hin⟩
    obtain ⟨j, hj⟩ := Option.isSome_iff_exists.mp hsome
    have hjname : j.name = h.name := by simpa using List.find?_some hj
    have hclean := (headerChanged_eq_false init h).mpr
      ⟨j, hj, hsame.values h hh j (List.mem_of_find?_eq_some hj) hjname.symm⟩
    simp [hclean]

/-! ## The flush -/

section

variable {M : Type} (cmime : Cmime M) (io : FlushIo) (tmp : Bytes) (init : List Header)
  (w : World M)

/-- A flush that is dirty fails or acts on files. -/
theorem smfModulesFlushDirty_eq_skip :
    smfModulesFlushDirty cmime io tmp init w = ⟨0, w, []⟩ ↔
      headersDirty (cmime.headers w.message.msg) init = false := by
  unfold smfModulesFlushDirty
  constructor
  · intro h
    by_contra hdirty
    rw [if_neg hdirty] at h
    have hret := congrArg Outcome.ret h
    have hevents := congrArg Outcome.events h
    cases io <;> cases hspool : w.spool <;> rw [hspool] at hret hevents <;>
      simp at hret hevents
  · intro hclean
    rw [if_pos hclean]

/-- **The spool file is not written again exactly when the message has the names of the
initial headers, each with the same sequence of values.** -/
theorem flush_skipped_iff (hmsg : ((cmime.headers w.message.msg).map Header.name).Nodup)
    (hinit : (init.map Header.name).Nodup) :
    (dirtyTest (cmime.headers w.message.msg) init = false ↔
      SameHeaders (cmime.headers w.message.msg) init) ∧
    (smfModulesFlushDirty cmime io tmp init w = ⟨0, w, []⟩ ↔
      SameHeaders (cmime.headers w.message.msg) init) := by
  rw [dirtyTest_eq, smfModulesFlushDirty_eq_skip, headersDirty_iff hmsg hinit]
  exact ⟨Iff.rfl, Iff.rfl⟩

end

/-- A message with two headers. -/
def swappedWorld : World Bytes where
  session := { id := ascii "1", messageFile := some (ascii "/q/1") }
  message := ⟨0, ascii "B: 2\nA: 1\n\nbody\n"⟩
  spool := some ⟨ascii "A: 1\nB: 2\n\nbody\n", 0⟩

/-- The order of the headers does not count. -/
theorem flush_skipped_iff_swapped :
    smfModulesFlushDirty plainCmime .done (ascii "/q/tmp")
      [⟨ascii "A", [ascii "1"]⟩, ⟨ascii "B", [ascii "2"]⟩] swappedWorld =
        ⟨0, swappedWorld, []⟩ := by
  have hheaders : plainCmime.headers swappedWorld.message.msg =
      [⟨ascii "B", [ascii "2"]⟩, ⟨ascii "A", [ascii "1"]⟩] := by decide
  have hiff := flush_skipped_iff plainCmime .done (ascii "/q/tmp")
    [⟨ascii "A", [ascii "1"]⟩, ⟨ascii "B", [ascii "2"]⟩] swappedWorld
    (by rw [hheaders]; decide) (by decide)
  apply hiff.2.mpr
  rw [hheaders]
  constructor
  · intro name
    exact (List.Perm.swap _ _ []).mem_iff
  · decide

end Spmfilter
