import Spmfilter.Core
import Spmfilter.Lib.Strsep

/-!
# Splitting a string

`smf_core_strsplit` as the code runs it: `strsep` cuts a copy of the string up, and each
piece is copied into an array of pointers, which grows by one slot for every piece and one
for the NULL at the end.

* `strsplitLoop_eq` follows the block: what is cut off, what is left, and the array so far.
* `smfCoreStrsplitArray_eq` identifies the array with the list `smfCoreStrsplit`.
* `strsplit_splits_iff` is the law of splitting and joining.
-/

namespace Spmfilter

open CString Buffers Buffer

/-- A slot of the array: not assigned yet, NULL, or a string. -/
inductive Pointer where
  | unset
  | null
  | str (s : Bytes)
deriving DecidableEq

/-- `realloc` of an array of `Pointer`s to `n` slots. -/
def reallocSlots (sl : List Pointer) (n : Nat) : List Pointer :=
  sl.take n ++ List.replicate (n - sl.length) .unset

/-- `strsep` comes nearer to the end of the block, or there is nothing left to do. -/
theorem strsep_measure {sep : Bytes} {b b' : Buffer} {tmp : Nat} {cp : Option Nat}
    (h : strsep sep b tmp = some (b', cp)) :
    (cp.elim 0 fun next => b'.size - next + 1) < (some tmp).elim 0 fun tmp => b.size - tmp + 1 := by
  cases cp with
  | none => exact Nat.succ_pos _
  | some next =>
    obtain ⟨hsize, hlt, hle⟩ := strsep_size h
    show b'.size - next + 1 < b.size - tmp + 1
    omega

/-- The loop of `smf_core_strsplit`.  `none` where a read or a write leaves the block, and
where `count + 2` leaves an `int`. -/
def strsplitLoop (sep : Bytes) (b : Buffer) (cp : Option Nat) (sl : List Pointer) (count : Nat) :
    Option (List Pointer × Nat) :=
  match cp with
  | none => some (sl, count)
  | some tmp =>
    match _hcut : strsep sep b tmp with
    | none => none
    | some (b, cp) =>
      if INT_MAX < count + 2 then none
      else
        match b.strdup tmp with
        | none => none
        | some piece =>
          strsplitLoop sep b cp ((reallocSlots sl (count + 2)).set count (.str piece)) (count + 1)
termination_by cp.elim 0 fun tmp => b.size - tmp + 1
decreasing_by exact strsep_measure _hcut

/-- `smf_core_strsplit`: the array and `*nelems`. -/
def smfCoreStrsplitArray (s sep : Bytes) : Option (List Pointer × Nat) := do
  let (sl, count) ← strsplitLoop sep (.ofStr s) (some 0) [] 0
  some (sl.set count .null, count)

/-! ## The pieces -/

/-- One round of the loop. -/
theorem strsplitLoop_step {sep piece : Bytes} {b b' : Buffer} {tmp count : Nat} {cp : Option Nat}
    {sl : List Pointer} (hcut : strsep sep b tmp = some (b', cp))
    (hpiece : b'.strdup tmp = some piece) :
    strsplitLoop sep b (some tmp) sl count =
      if INT_MAX < count + 2 then none
      else
        strsplitLoop sep b' cp ((reallocSlots sl (count + 2)).set count (.str piece)) (count + 1) := by
  rw [strsplitLoop]
  split
  · rename_i hnone
    rw [hcut] at hnone
    cases hnone
  · rename_i b₀ cp₀ hsome
    rw [hcut] at hsome
    obtain ⟨rfl, rfl⟩ := Prod.mk.inj (Option.some.inj hsome)
    rw [hpiece]

section
variable {s front rest : Bytes} {c : UInt8} {pieces : List Bytes}

/-- A slot for one more piece, and one for the NULL. -/
theorem set_reallocSlots (piece : Bytes) {tail : List Pointer} (htail : tail.length ≤ 1) :
    (reallocSlots (pieces.map .str ++ tail) (pieces.length + 2)).set pieces.length (.str piece) =
      (pieces ++ [piece]).map .str ++ [.unset] := by
  have hset : ∀ x y : Pointer, (pieces.map Pointer.str ++ [x, y]).set pieces.length (.str piece) =
      (pieces ++ [piece]).map .str ++ [y] := by
    intro x y
    rw [List.set_append_right _ _ (List.length_map _).le, List.length_map, Nat.sub_self,
      List.set_cons_zero, List.map_append, List.append_assoc]
    rfl
  have hlength : (pieces.map Pointer.str ++ tail).length = pieces.length + tail.length := by
    rw [List.length_append, List.length_map]
  rw [reallocSlots, hlength, List.take_of_length_le (by omega)]
  match tail, htail with
  | [], _ =>
    have htwo : pieces.length + 2 - (pieces.length + ([] : List Pointer).length) = 2 := by
      rw [List.length_nil]
      omega
    rw [htwo, List.append_nil]
    exact hset .unset .unset
  | [x], _ =>
    have hone : pieces.length + 2 - (pieces.length + [x].length) = 1 := by
      rw [List.length_singleton]
      omega
    rw [hone, List.append_assoc]
    exact hset x .unset

theorem forall_notMem_singleton (hc : c ∉ front) : ∀ d ∈ front, d ∉ [c] := by
  intro d hd
  rw [List.mem_singleton]
  rintro rfl
  exact hc hd

/-- A round that finds the separator. -/
theorem strsplitLoop_cut {tok : Bytes} (hs : (0 : UInt8) ∉ tok ++ c :: rest) (hno : c ∉ tok)
    {tail : List Pointer} (htail : tail.length ≤ 1) :
    strsplitLoop [c] ⟨front ++ (tok ++ c :: rest) ++ [0]⟩ (some front.length)
        (pieces.map .str ++ tail) pieces.length =
      if INT_MAX < pieces.length + 2 then none
      else
        strsplitLoop [c] ⟨front ++ tok ++ [0] ++ rest ++ [0]⟩ (some (front ++ tok ++ [0]).length)
          ((pieces ++ [tok]).map .str ++ [.unset]) (pieces ++ [tok]).length := by
  have htokNul : (0 : UInt8) ∉ tok := fun h => hs (List.mem_append_left _ h)
  have hblock : front ++ tok ++ 0 :: (rest ++ [0]) = front ++ tok ++ [0] ++ rest ++ [0] := by
    simp only [List.append_assoc, List.cons_append, List.nil_append]
  have hnext : (front ++ tok ++ [0]).length = front.length + tok.length + 1 := by
    simp only [List.length_append, List.length_singleton]
  have hcount : (pieces ++ [tok]).length = pieces.length + 1 := List.length_append
  rw [strsplitLoop_step
      (strsep_found hs (forall_notMem_singleton hno) (List.mem_singleton_self c))
      (strdup_append htokNul),
    set_reallocSlots tok htail, hblock, ← hnext, ← hcount]

/-- The round that does not find it. -/
theorem strsplitLoop_last (hs : (0 : UInt8) ∉ rest) (hc : c ∉ rest) {tail : List Pointer}
    (htail : tail.length ≤ 1) :
    strsplitLoop [c] ⟨front ++ rest ++ [0]⟩ (some front.length) (pieces.map .str ++ tail)
        pieces.length =
      if INT_MAX < pieces.length + 2 then none
      else some ((pieces ++ [rest]).map .str ++ [.unset], pieces.length + 1) := by
  rw [strsplitLoop_step (strsep_last hs (forall_notMem_singleton hc)) (strdup_append hs),
    set_reallocSlots rest htail, strsplitLoop]

/-- The pieces are those of `splitOn`. -/
theorem strsplitLoop_eq (hs : (0 : UInt8) ∉ rest) {tail : List Pointer} (htail : tail.length ≤ 1) :
    strsplitLoop [c] ⟨front ++ rest ++ [0]⟩ (some front.length) (pieces.map .str ++ tail)
        pieces.length =
      if pieces.length + (rest.splitOn c).length + 1 ≤ INT_MAX then
        some ((pieces ++ rest.splitOn c).map .str ++ [.unset],
          pieces.length + (rest.splitOn c).length)
      else none := by
  -- on the rest of the string; `front` has gone by, and `pieces` are in the array
  induction hn : rest.length using Nat.strongRecOn generalizing front rest pieces tail with
  | ind n ih =>
    by_cases hc : c ∈ rest
    · obtain ⟨tok, s, rfl, hno⟩ := List.eq_append_cons_of_mem hc
      have hlen : s.length < n := by
        rw [← hn, List.length_append, List.length_cons]
        omega
      have hsNul : (0 : UInt8) ∉ s :=
        fun h => hs (List.mem_append_right _ (List.mem_cons_of_mem _ h))
      have hrest : strsplitLoop [c] ⟨front ++ tok ++ [0] ++ s ++ [0]⟩
          (some (front ++ tok ++ [0]).length) ((pieces ++ [tok]).map .str ++ [.unset])
          (pieces ++ [tok]).length = _ := ih s.length hlen hsNul (Nat.le_refl 1) rfl
      have hpieces : pieces ++ tok :: s.splitOn c = pieces ++ [tok] ++ s.splitOn c := by
        rw [List.append_assoc, List.singleton_append]
      have hcount : (pieces ++ [tok]).length = pieces.length + 1 := List.length_append
      have hpos := List.length_pos_iff.mpr (List.splitOn_ne_nil c s)
      rw [strsplitLoop_cut hs hno htail, hrest, List.splitOn_append_cons_self_of_not_mem hno,
        List.length_cons, hcount, hpieces]
      split
      · rw [if_neg (by omega)]
      · simp only [Nat.add_right_comm, Nat.add_assoc, Nat.add_left_comm]
    · rw [strsplitLoop_last hs hc htail, List.splitOn_eq_singleton hc, List.length_singleton]
      split
      · rw [if_neg (by omega)]
      · rw [if_pos (by omega)]

/-- The array is the list of the pieces and a NULL. -/
theorem smfCoreStrsplitArray_eq (hs : (0 : UInt8) ∉ s) :
    smfCoreStrsplitArray s [c] =
      if (smfCoreStrsplit s c).length + 1 ≤ INT_MAX then
        some ((smfCoreStrsplit s c).map .str ++ [.null], (smfCoreStrsplit s c).length)
      else none := by
  have hloop : strsplitLoop [c] (.ofStr s) (some 0) [] 0 =
      if (s.splitOn c).length + 1 ≤ INT_MAX then
        some ((s.splitOn c).map .str ++ [.unset], (s.splitOn c).length)
      else none := by
    have h := @strsplitLoop_eq [] s c [] hs [] (Nat.zero_le 1)
    simpa [Buffer.ofStr] using h
  rw [smfCoreStrsplitArray, smfCoreStrsplit, hloop]
  split
  · rw [Option.bind_eq_bind, Option.bind_some]
    have hset : ((s.splitOn c).map Pointer.str ++ [Pointer.unset]).set (s.splitOn c).length .null =
        (s.splitOn c).map .str ++ [.null] := by
      rw [List.set_append_right _ _ (List.length_map _).le, List.length_map, Nat.sub_self,
        List.set_cons_zero]
    exact congrArg (fun sl => some (sl, (s.splitOn c).length)) hset
  · rfl

/-! ## Splitting and joining -/

/-- The array holds pieces without the separator, one more than there are separators, and
a NULL; the pieces joined again are the string. -/
def Splits (s : Bytes) (c : UInt8) (result : Option (List Pointer × Nat)) : Prop :=
  ∃ pieces : List Bytes, result = some (pieces.map .str ++ [.null], pieces.length) ∧
    pieces.length = s.count c + 1 ∧ (∀ piece ∈ pieces, c ∉ piece) ∧ [c].intercalate pieces = s

/-- Splitting and joining are inverse as long as the number of pieces fits into an `int`. -/
theorem strsplit_splits_iff (hs : (0 : UInt8) ∉ s) :
    Splits s c (smfCoreStrsplitArray s [c]) ↔ s.count c + 2 ≤ INT_MAX := by
  have hlength : (smfCoreStrsplit s c).length = s.count c + 1 := length_splitOn s c
  rw [Splits, smfCoreStrsplitArray_eq hs]
  constructor
  · rintro ⟨pieces, heq, -⟩
    split at heq
    · omega
    · cases heq
  · intro hcount
    rw [if_pos (by omega)]
    exact ⟨smfCoreStrsplit s c, rfl, hlength, fun piece => notMem_of_mem_splitOn,
      List.intercalate_splitOn c⟩

theorem strsplit_splits_sample :
    Splits (ascii ",a,,b") 44 (smfCoreStrsplitArray (ascii ",a,,b") [44]) ↔
      (ascii ",a,,b").count 44 + 2 ≤ INT_MAX :=
  strsplit_splits_iff (by decide)

/-- A text with so many separators that the number of pieces does not fit into an `int`. -/
theorem strsplit_overflows :
    ¬ Splits (List.replicate 2147483646 44) 44
      (smfCoreStrsplitArray (List.replicate 2147483646 44) [44]) := by
  have hs : (0 : UInt8) ∉ List.replicate 2147483646 (44 : UInt8) := by
    rw [List.mem_replicate]
    rintro ⟨-, h⟩
    exact absurd h (by decide)
  have hlength : (smfCoreStrsplit (List.replicate 2147483646 44) 44).length = 2147483647 := by
    rw [smfCoreStrsplit, length_splitOn, List.count_replicate_self]
  rw [Splits, smfCoreStrsplitArray_eq hs, if_neg (by rw [hlength]; decide)]
  rintro ⟨pieces, heq, -⟩
  cases heq

end

end Spmfilter
