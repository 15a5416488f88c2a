import Spmfilter.Dict.Memory

/-!
# Runs of calls on a dictionary on the heap

* `Sound.set` and `Sound.remove` do to the view what `smfDictSet` and `smfDictRemove` do, and
  `Sound.set_isSome_iff` says when `smf_dict_set` goes well.
* `Sound.call` is the step lemma, and `Ready` what holds in front of every call of a run.
* `dict_memory` puts together what holds from `smf_dict_new` to `smf_dict_free`.
-/

namespace Spmfilter

open CString Heaps Slots

namespace DictMemory

/-! ## One call -/

section Step

variable {m m' : DictMemory} {others : Set Nat} {arg val : Nat} {key s : Bytes}
  {f : Bytes → Option Bytes}

theorem Becomes.trans {m'' : DictMemory} {d d' : Dict} (h : m.Becomes others m' d)
    (h' : m'.Becomes others m'' d') : m.Becomes others m'' d' where
  sound := h'.sound
  view := h'.view
  kept := fun p hp => (h'.kept p hp).trans (h.kept p hp)

theorem Sound.set_eq (hm : m.Sound others) (hkey : stringAt m.heap arg = some key) :
    m.set arg val =
      match if 0 < m.view.n then m.view.find key else none with
      | some i => m.overwrite i val
      | none => m.grown.bind fun m => m.addKey key arg val := by
  have hsearch : m.present key = some (if 0 < m.view.n then m.view.find key else none) := by
    rw [present, hm.find_eq key]
    show (if 0 < m.n then _ else _) = some (if 0 < m.n then _ else _)
    split_ifs <;> rfl
  rw [DictMemory.set, hkey]
  show (m.present key).bind _ = _
  rw [hsearch, Option.bind_some]
  cases (if 0 < m.view.n then m.view.find key else none) <;> rfl

theorem Sound.get_eq (hm : m.Sound others) (hkey : stringAt m.heap arg = some key) :
    m.get arg = some ((m.view.find key).bind fun i => m.slots[i]?.bind PtrSlot.val) := by
  rw [get, hkey]
  show Option.bind (m.find key) _ = _
  rw [hm.find_eq, Option.bind_some]
  cases hfind : m.view.find key with
  | none => rfl
  | some i =>
    obtain ⟨k, v, hash, hslot⟩ := hm.found hfind
    dsimp only
    rw [Option.bind_some, hslot]
    rfl

/-- The pointer that `smf_dict_get` returns points to what the dictionary says. -/
theorem Sound.get_text (hm : m.Sound others) (hkey : stringAt m.heap arg = some key) :
    ∃ p, m.get arg = some p ∧ p.bind (stringAt m.heap) = smfDictGet key m.view ∧
      ∀ v, p = some v → v ∈ pointers m.slots := by
  refine ⟨_, hm.get_eq hkey, ?_, ?_⟩
  · rw [smfDictGet]
    cases hfind : m.view.find key with
    | none => rfl
    | some i =>
      obtain ⟨k, v, hash, hslot⟩ := hm.found hfind
      show (m.slots[i]?.bind PtrSlot.val).bind _ = (m.view.slots[i]?).bind Slot.val
      rw [view, List.getElem?_map, hslot]
      rfl
  · intro v hv
    obtain ⟨i, -, hslot⟩ := Option.bind_eq_some_iff.mp hv
    obtain ⟨slot, hslot, hval⟩ := Option.bind_eq_some_iff.mp hslot
    refine Multiset.mem_coe.mpr (List.mem_flatMap.mpr ⟨slot, List.mem_of_getElem? hslot, ?_⟩)
    rw [PtrSlot.pointers, hval]
    exact List.mem_append_right _ (List.mem_singleton_self v)

/-- A slot that says nothing is free. -/
theorem Sound.slot_free (hm : m.Sound others) {i : Nat} (h : m.view.slots[i]? = some .free) :
    m.slots[i]? = some .free := by
  rw [view, List.getElem?_map] at h
  obtain ⟨slot, hslot, hview⟩ := Option.map_eq_some_iff.mp h
  have hmem := List.mem_of_getElem? hslot
  rcases hm.filled slot hmem with rfl | ⟨k, v, hash, rfl⟩
  · exact hslot
  · obtain ⟨s, hs⟩ := hm.strings k
      (Multiset.mem_coe.mpr (List.mem_flatMap.mpr ⟨_, hmem, List.mem_cons_self⟩))
    have hnone : (some k).bind (stringAt m.heap) = none := congrArg Slot.key hview
    rw [Option.bind_some, hs] at hnone
    cases hnone

/-- **One `smf_dict_set`** that is in order. -/
theorem Sound.set (hm : m.Sound others) (hrep : m.view.Represents f) (hn : m.n < DICT_LIMIT)
    (hkey : stringAt m.heap arg = some key) (hs : stringAt m.heap val = some s)
    (hget : m.get arg ≠ some (some val)) :
    ∃ m' d, m.set arg val = some m' ∧ smfDictSet key s m.view = some d ∧
      m.Becomes others m' d := by
  rw [hm.set_eq hkey]
  cases hsearch : if 0 < m.view.n then m.view.find key else none with
  | some i =>
    obtain ⟨hpos, hfind⟩ := Option.ite_none_right_eq_some.mp hsearch
    obtain ⟨k, v, hash, hslot⟩ := hm.found hfind
    have hne : val ≠ v := by
      rintro rfl
      refine hget ?_
      rw [hm.get_eq hkey, hfind, Option.bind_some, hslot]
      rfl
    obtain ⟨m', hover, hbecomes⟩ := hm.overwrite hslot hs hne
    exact ⟨m', _, hover, smfDictSet_found hfind hpos, hbecomes⟩
  | none =>
    obtain ⟨slots, hgrown⟩ := @Dict.grown_eq_some m.view hn
    obtain ⟨i, hprobe, hfree⟩ := hrep.freeSlot_eq_some hgrown
    obtain ⟨m₁, hgrow, hbecomes, -, hsame⟩ := hm.grown hgrown
    have hkey₁ := (hsame arg (lt_of_stringAt hkey)).trans hkey
    have hs₁ := (hsame val (lt_of_stringAt hs)).trans hs
    have hprobe₁ : freeSlot m₁.view.n m₁.view.slots = some i := by
      rw [hbecomes.view]
      exact hprobe
    have hslot₁ := hbecomes.sound.slot_free (i := i) (by rw [hbecomes.view]; exact hfree)
    obtain ⟨m', hadd, hbecomes'⟩ := hbecomes.sound.addKey hprobe₁ hslot₁ hkey₁ hs₁
    refine ⟨m', _, ?_, smfDictSet_missing hsearch hgrown hprobe, ?_⟩
    · dsimp only
      rw [hgrow]
      exact hadd
    · rw [hbecomes.view] at hbecomes'
      exact hbecomes.trans hbecomes'

/-- A value that is no string, or the one that is freed for it. -/
theorem Sound.set_none (hm : m.Sound others) (hrep : m.view.Represents f) (hn : m.n < DICT_LIMIT)
    (hkey : stringAt m.heap arg = some key) (hlt : val < m.heap.next)
    (h : stringAt m.heap val = none ∨ m.get arg = some (some val)) : m.set arg val = none := by
  rw [hm.set_eq hkey]
  cases hsearch : if 0 < m.view.n then m.view.find key else none with
  | some i =>
    obtain ⟨-, hfind⟩ := Option.ite_none_right_eq_some.mp hsearch
    obtain ⟨k, v, hash, hslot⟩ := hm.found hfind
    obtain ⟨hall, -⟩ := hm.split hslot
    have hown : v ∈ pointers m.slots + m.cells := by
      rw [hall]
      exact Multiset.mem_cons_of_mem (Multiset.mem_cons_self v _)
    obtain ⟨heap, hfree, -, hblock, -⟩ := hm.owns.free hown
    have hgone : stringAt heap val = none := by
      rw [hm.get_eq hkey, hfind, Option.bind_some, hslot] at h
      rcases h with hnone | hval
      · rw [stringAt, hblock]
        split_ifs
        · rfl
        · exact hnone
      · obtain rfl : v = val := Option.some.inj (Option.some.inj hval)
        rw [stringAt, hblock, if_pos rfl]
    dsimp only
    rw [DictMemory.overwrite, hslot]
    show (m.heap.free v).bind _ = _
    rw [hfree, Option.bind_some, strdup_none hgone]
    rfl
  | none =>
    have hnone : stringAt m.heap val = none := by
      rcases h with hnone | hval
      · exact hnone
      · -- the value is one of the strings of the slots, but the key is not bound
        obtain ⟨p, hp, htext, hmem⟩ := hm.get_text hkey
        obtain rfl : p = some val := Option.some.inj (hp.symm.trans hval)
        rwa [hrep.get_eq, hrep.unbound hsearch] at htext
    obtain ⟨slots, hgrown⟩ := @Dict.grown_eq_some m.view hn
    obtain ⟨i, hprobe, hfree⟩ := hrep.freeSlot_eq_some hgrown
    obtain ⟨m₁, hgrow, hbecomes, hnext, hsame⟩ := hm.grown hgrown
    have hkey₁ := (hsame arg (lt_of_stringAt hkey)).trans hkey
    have hprobe₁ : freeSlot m₁.view.n m₁.view.slots = some i := by
      rw [hbecomes.view]
      exact hprobe
    have hgone : stringAt (m₁.heap.alloc (.string key)) val = none := by
      rw [stringAt_congr (Heap.alloc_block_old (Nat.lt_of_lt_of_le hlt hnext) _), hsame val hlt,
        hnone]
    dsimp only
    rw [hgrow, Option.bind_some, DictMemory.addKey, hbecomes.sound.freeSlot_eq, hprobe₁,
      strdup_some hkey₁]
    show (strdup (m₁.heap.alloc (.string key)) val).bind _ = _
    rw [strdup_none hgone]
    rfl

/-- **When `smf_dict_set` goes well.** -/
theorem Sound.set_isSome_iff (hm : m.Sound others) (hrep : m.view.Represents f)
    (hn : m.n < DICT_LIMIT) (hlt : val < m.heap.next) :
    (m.set arg val).isSome = true ↔ m.Admits (.set arg val) := by
  show _ ↔ (stringAt m.heap arg).isSome = true ∧ (stringAt m.heap val).isSome = true ∧ _
  cases hkey : stringAt m.heap arg with
  | none =>
    rw [DictMemory.set, hkey]
    exact iff_of_false Bool.false_ne_true fun h => Bool.false_ne_true h.1
  | some key =>
    rw [Option.isSome_some, and_iff_right rfl]
    cases hs : stringAt m.heap val with
    | none =>
      rw [hm.set_none hrep hn hkey hlt (.inl hs)]
      exact iff_of_false Bool.false_ne_true fun h => Bool.false_ne_true h.1
    | some s =>
      rw [Option.isSome_some, and_iff_right rfl]
      by_cases hget : m.get arg = some (some val)
      · rw [hm.set_none hrep hn hkey hlt (.inr hget)]
        exact iff_of_false Bool.false_ne_true fun h => h hget
      · obtain ⟨m', d, hset, -⟩ := hm.set hrep hn hkey hs hget
        rw [hset]
        exact iff_of_true rfl hget

/-- **One `smf_dict_remove`.** -/
theorem Sound.remove (hm : m.Sound others) (hkey : stringAt m.heap arg = some key) :
    ∃ m', m.remove arg = some m' ∧ m.Becomes others m' (smfDictRemove key m.view) := by
  have hremove : m.remove arg =
      match m.view.find key with
      | some i => m.clear i
      | none => some m := by
    rw [DictMemory.remove, hkey]
    show (m.find key).bind _ = _
    rw [hm.find_eq]
    cases m.view.find key <;> rfl
  rw [hremove, smfDictRemove]
  cases hfind : m.view.find key with
  | none => exact ⟨m, rfl, hm, rfl, fun _ _ => rfl⟩
  | some i =>
    obtain ⟨k, v, hash, hslot⟩ := hm.found hfind
    exact hm.clear hslot

theorem Sound.congr (hm : m.Sound others) {heap : Heap DictBlock} {others' : Set Nat}
    (howns : heap.Owns (pointers m.slots + m.cells) others')
    (hkept : ∀ p ∈ pointers m.slots + m.cells, heap.block p = m.heap.block p) :
    ({ m with heap := heap } : DictMemory).Sound others' ∧
      ({ m with heap := heap } : DictMemory).view = m.view := by
  have hslots : ∀ p ∈ pointers m.slots, heap.block p = m.heap.block p :=
    fun p hp => hkept p (Multiset.mem_add.mpr (.inl hp))
  refine ⟨⟨howns, fun p hp => ?_, fun p hp => ?_, hm.filled⟩, ?_⟩
  · obtain ⟨s, hs⟩ := hm.strings p hp
    exact ⟨s, (stringAt_congr (hslots p hp)).trans hs⟩
  · exact (hkept p (Multiset.mem_add.mpr (.inr hp))).trans (hm.arrays p hp)
  · exact congrArg (Dict.mk m.n) (map_viewSlot_congr hslots)

/-- The changes of one call, on the view. -/
def runEffects (d : Dict) (effects : List DictCall) : Option Dict :=
  effects.foldlM (fun d call => call.run d) d

/-- The step lemma. -/
theorem Sound.call (hm : m.Sound others) (hrep : m.view.Represents f) (hn : m.n < DICT_LIMIT)
    {c : PtrCall} (hc : m.Admits c) :
    ∃ m', m.call c = some m' ∧ m'.Sound (m.callers others c) ∧
      runEffects m.view (m.effect c).toList = some m'.view := by
  cases c with
  | set arg val =>
    obtain ⟨hkey, hs, hget⟩ := hc
    obtain ⟨key, hkey⟩ := Option.isSome_iff_exists.mp hkey
    obtain ⟨s, hs⟩ := Option.isSome_iff_exists.mp hs
    obtain ⟨m', d, hset, hd, hbecomes⟩ := hm.set hrep hn hkey hs hget
    refine ⟨m', hset, hbecomes.sound, ?_⟩
    have heffect : m.effect (.set arg val) = some (.set key s) := by
      rw [effect, hkey, hs]
      rfl
    rw [heffect, hbecomes.view]
    show (smfDictSet key s m.view).bind _ = _
    rw [hd]
    rfl
  | remove arg =>
    obtain ⟨key, hkey⟩ := Option.isSome_iff_exists.mp hc
    obtain ⟨m', hremove, hbecomes⟩ := hm.remove hkey
    refine ⟨m', hremove, hbecomes.sound, ?_⟩
    have heffect : m.effect (.remove arg) = some (.remove key) := by
      rw [effect, hkey]
      rfl
    rw [heffect, hbecomes.view]
    rfl
  | newString s =>
    obtain ⟨hsound, hview⟩ := hm.congr (hm.owns.alloc_others (.string s)) fun p hp =>
      Heap.alloc_block_old ((hm.owns.live p).mpr (.inl hp)).lt _
    exact ⟨_, rfl, hsound, congrArg some hview.symm⟩
  | drop p =>
    obtain ⟨hlive, hnot⟩ := hc
    have hnot' : p ∉ pointers m.slots + m.cells := by
      rw [← coe_owned]
      exact hnot
    have hother := ((hm.owns.live p).mp hlive).resolve_left hnot'
    obtain ⟨heap, hfree, -, hblock, howns⟩ := hm.owns.free_others hother
    obtain ⟨hsound, hview⟩ := hm.congr howns fun q hq => by
      rw [hblock, if_neg]
      rintro rfl
      exact hnot' hq
    refine ⟨{ m with heap := heap }, ?_, hsound, congrArg some hview.symm⟩
    rw [DictMemory.call, hfree]
    rfl

end Step

/-! ## Runs -/

section Runs

variable {m : DictMemory} {others : Set Nat} {f : Bytes → Option Bytes}

/-- A call binds at most one more key. -/
theorem runEffects_n_le {effect : Option DictCall} {d d' : Dict} (hrep : d.Represents f)
    (h : runEffects d effect.toList = some d') : d'.n ≤ d.n + 1 := by
  cases effect with
  | none =>
    obtain rfl : d = d' := Option.some.inj h
    exact Nat.le_succ _
  | some call =>
    have hrun : (call.run d).bind some = some d' := h
    rw [Option.bind_fun_some] at hrun
    exact (represents_call hrep hrun).2

/-- What holds of the dictionary in front of `k` calls. -/
structure Ready (k : Nat) (m : DictMemory) (others : Set Nat) : Prop where
  sound : m.Sound others
  represents : ∃ f, m.view.Represents f
  room : m.n + k < DICT_LIMIT

theorem Ready.call {k : Nat} (hm : Ready (k + 1) m others) {c : PtrCall} (hc : m.Admits c) :
    ∃ m', m.call c = some m' ∧ Ready k m' (m.callers others c) ∧
      (m.effect c).toList.foldlM (fun d call => call.run d) m.view = some m'.view := by
  obtain ⟨hsound, ⟨f, hrep⟩, hroom⟩ := hm
  obtain ⟨m', hcall, hsound', hview⟩ := hsound.call hrep (by omega) hc
  have hn : m'.n ≤ m.n + 1 := runEffects_n_le hrep hview
  exact ⟨m', hcall, ⟨hsound', ⟨_, represents_calls hrep hview⟩, by omega⟩, hview⟩

/-- `smf_dict_free` leaves the blocks of the others, as they are. -/
theorem Sound.free (hm : m.Sound others) :
    ∃ heap, m.free = some heap ∧ (∀ p, heap.Live p ↔ p ∈ others) ∧
      ∀ p ∈ others, heap.block p = m.heap.block p := by
  have howns := hm.owns
  rw [← coe_owned] at howns
  exact howns.freeAll

theorem sound_new (heap : Heap DictBlock) : (new heap).Sound {p | heap.Live p} := by
  have hstart : heap.Owns 0 {p | heap.Live p} :=
    ⟨Multiset.nodup_zero, fun p => (or_iff_right (Multiset.notMem_zero p)).symm,
      fun p hp => absurd hp (Multiset.notMem_zero p)⟩
  have hnone : pointers (new heap).slots = 0 := pointers_append_free [] 128
  have howns := (((hstart.alloc (.object .cells)).alloc (.object .cells)).alloc
    (.object .cells)).alloc (.object .cells)
  refine ⟨?_, ?_, ?_, ?_⟩
  · rw [pointers_add_cells, hnone]
    have hswap : ∀ a b c d : Nat, d ::ₘ c ::ₘ b ::ₘ a ::ₘ 0 = b ::ₘ c ::ₘ d ::ₘ a ::ₘ 0 := by
      intro a b c d
      rw [Multiset.cons_swap c b, Multiset.cons_swap d b, Multiset.cons_swap d c]
    exact hswap _ _ _ _ ▸ howns
  · intro p hp
    rw [hnone] at hp
    exact absurd hp (Multiset.notMem_zero p)
  · intro p hp
    have hblock : ∀ p, p = heap.next ∨ p = heap.next + 1 ∨ p = heap.next + 2 ∨
        p = heap.next + 3 → (new heap).heap.block p = some (.object .cells) := by
      intro p hp
      show (if p = heap.next + 3 then _ else if p = heap.next + 2 then _ else
        if p = heap.next + 1 then _ else if p = heap.next then _ else _) = _
      split_ifs
      · rfl
      · rfl
      · rfl
      · rfl
      · omega
    refine hblock p ?_
    rcases mem_cells.mp hp with rfl | rfl | rfl | rfl
    · exact .inr (.inl rfl)
    · exact .inr (.inr (.inl rfl))
    · exact .inr (.inr (.inr rfl))
    · exact .inl rfl
  · intro slot hslot
    exact .inl (List.eq_of_mem_replicate hslot)

theorem represents_view_new (heap : Heap DictBlock) : (new heap).view = smfDictNew := by
  refine congrArg (Dict.mk 0) ?_
  rw [new, List.map_replicate]
  rfl

/-- **A dictionary on the heap**, from `smf_dict_new` over fewer than `2 ^ 26` calls that are in
order to `smf_dict_free`.  No call reads or frees a block that is not there, and the dictionary
says what it should say.  After every such run `smf_dict_set` goes well unless it is given the
value that it is about to free, or what is no string; `smf_dict_get` points to the value that was
set last; and `smf_dict_free` leaves the blocks of the caller and no others. -/
theorem dict_memory {heap : Heap DictBlock} {cs : List PtrCall} (hfew : cs.length < 67108864)
    (hcs : (new heap).AdmitsAll cs) :
    ∃ m, (new heap).calls cs = some m ∧ dictAfter ((new heap).effects cs) = some m.view ∧
      (∀ key val, val < m.heap.next →
        ((m.set key val).isSome = true ↔ m.Admits (.set key val))) ∧
      (∀ key k, stringAt m.heap key = some k →
        ∃ p, m.get key = some p ∧
          p.bind (stringAt m.heap) = lastSet ((new heap).effects cs) k) ∧
      ∃ heap', m.free = some heap' ∧
        (∀ p, heap'.Live p ↔ p ∈ (new heap).callersAfter {p | heap.Live p} cs) ∧
        ∀ p, heap'.Live p → heap'.block p = m.heap.block p := by
  have hnew := represents_view_new heap
  have hstart : (new heap).view.Represents fun _ => none := hnew ▸ represents_new
  have hlimit : (new heap).n + cs.length < DICT_LIMIT := by
    show 0 + cs.length < 134217728
    omega
  obtain ⟨m, hcalls, ⟨hm, -, hroom⟩, hview⟩ := interface.calls_run view
    (fun d call => call.run d) Ready (fun _ _ _ _ hm hc => hm.call hc)
    ⟨sound_new heap, ⟨_, hstart⟩, hlimit⟩ hcs
  have hrep := represents_calls hstart hview
  rw [hnew] at hview
  obtain ⟨heap', hfree, hlive, hkept⟩ := hm.free
  refine ⟨m, hcalls, hview, fun key val => hm.set_isSome_iff hrep hroom, fun key k hk => ?_,
    heap', hfree, hlive, fun p hp => hkept p ((hlive p).mp hp)⟩
  obtain ⟨p, hget, htext, -⟩ := hm.get_text hk
  refine ⟨p, hget, htext.trans ?_⟩
  exact hrep.get_eq k

end Runs

/-- A key is set twice, and then the caller drops the first value. -/
def setTwice : List PtrCall :=
  [.newString (ascii "a"), .newString (ascii "1"), .newString (ascii "2"), .set 4 5, .set 4 6,
    .drop 5]

theorem dict_memory_test :
    ∃ m, (new .empty).calls setTwice = some m ∧
      dictAfter ((new .empty).effects setTwice) = some m.view ∧
      (∀ key val, val < m.heap.next →
        ((m.set key val).isSome = true ↔ m.Admits (.set key val))) ∧
      (∀ key k, stringAt m.heap key = some k →
        ∃ p, m.get key = some p ∧
          p.bind (stringAt m.heap) = lastSet ((new .empty).effects setTwice) k) ∧
      ∃ heap', m.free = some heap' ∧
        (∀ p, heap'.Live p ↔ p ∈ (new .empty).callersAfter
          {p | (Heap.empty : Heap DictBlock).Live p} setTwice) ∧
        ∀ p, heap'.Live p → heap'.block p = m.heap.block p :=
  dict_memory (by decide) (by decide +kernel)

end DictMemory

end Spmfilter
