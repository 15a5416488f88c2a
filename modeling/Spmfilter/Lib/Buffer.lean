import Spmfilter.Lib.CString

/-!
# Byte buffers

A block of memory with the accesses that C code makes to it.  An index is an `Int`, as the
code computes it, and an access outside the block gives `none`.

* `Buffer.get` and `Buffer.write` are the two accesses.
* `Buffer.strlen`, `Buffer.memmove` and `Buffer.realloc` are made of them.
* `Buffer.ofStr s` is the block that just holds the string `s`: its bytes and a NUL.
-/

namespace Buffers

open CString

structure Buffer where
  cells : Bytes

namespace Buffer

def size (b : Buffer) : Nat := b.cells.length

def get (b : Buffer) (i : Int) : Option UInt8 :=
  if 0 ≤ i then b.cells[i.toNat]? else none

/-- `memcpy(b + i, bytes, n)`, where `bytes` are `n` bytes of some other block. -/
def write (b : Buffer) (i : Int) (bytes : Bytes) : Option Buffer :=
  if 0 ≤ i ∧ i.toNat + bytes.length ≤ b.size then
    some ⟨b.cells.take i.toNat ++ bytes ++ b.cells.drop (i.toNat + bytes.length)⟩
  else none

/-- `n` bytes from `i` on. -/
def read (b : Buffer) (i : Int) (n : Nat) : Option Bytes :=
  if 0 ≤ i ∧ i.toNat + n ≤ b.size then some ((b.cells.drop i.toNat).take n) else none

/-- `strlen(b + i)`: it reads up to a NUL. -/
def strlen (b : Buffer) (i : Int) : Option Nat :=
  if 0 ≤ i ∧ (0 : UInt8) ∈ b.cells.drop i.toNat then some (cstr (b.cells.drop i.toNat)).length
  else none

/-- `memmove(b + dst, b + src, n)`. -/
def memmove (b : Buffer) (dst src : Int) (n : Nat) : Option Buffer :=
  (b.read src n).bind fun bytes => b.write dst bytes

/-- `malloc`.  The `i`th byte holds `fresh i`. -/
def malloc (fresh : Nat → UInt8) (n : Nat) : Buffer := ⟨(List.range n).map fresh⟩

/-- `realloc`, with `fresh` for the new bytes. -/
def realloc (fresh : Nat → UInt8) (b : Buffer) (n : Nat) : Buffer :=
  ⟨b.cells.take n ++ (List.range' b.size (n - b.size)).map fresh⟩

/-- The block that just holds a string. -/
def ofStr (s : Bytes) : Buffer := ⟨s ++ [0]⟩

@[simp] theorem size_ofStr (s : Bytes) : (ofStr s).size = s.length + 1 :=
  List.length_append

theorem size_write {b b' : Buffer} {i : Int} {bytes : Bytes} (h : b.write i bytes = some b') :
    b'.size = b.size := by
  rw [write] at h
  split at h
  · rename_i hin
    obtain rfl := Option.some.inj h
    simp only [size, List.length_append, List.length_take, List.length_drop] at hin ⊢
    omega
  · cases h

theorem size_memmove {b b' : Buffer} {dst src : Int} {n : Nat}
    (h : b.memmove dst src n = some b') : b'.size = b.size := by
  obtain ⟨bytes, -, hwrite⟩ := Option.bind_eq_some_iff.mp h
  exact size_write hwrite

@[simp] theorem size_realloc (fresh : Nat → UInt8) (b : Buffer) (n : Nat) :
    (b.realloc fresh n).size = n := by
  simp only [realloc, size, List.length_append, List.length_take, List.length_map,
    List.length_range']
  omega

/-- A byte that is read lies in the block. -/
theorem lt_size_of_get {b : Buffer} {i : Int} {c : UInt8} (h : b.get i = some c) :
    0 ≤ i ∧ i.toNat < b.size := by
  rw [get] at h
  split at h
  · rename_i hi
    exact ⟨hi, (List.getElem?_eq_some_iff.mp h).1⟩
  · cases h

/-- A string that stays in the block keeps its NUL. -/
theorem realloc_ofStr_grow (fresh : Nat → UInt8) {s : Bytes} {n : Nat} (h : s.length < n) :
    ∃ new : Bytes, new.length = n - (s.length + 1) ∧
      (ofStr s).realloc fresh n = ⟨s ++ 0 :: new⟩ := by
  refine ⟨(List.range' (s.length + 1) (n - (s.length + 1))).map fresh, by simp, ?_⟩
  rw [realloc, size_ofStr, ofStr, List.take_of_length_le (by simp; omega), List.append_assoc]
  rfl

/-- A string that does not is left without it. -/
theorem realloc_ofStr_shrink (fresh : Nat → UInt8) {s : Bytes} {n : Nat} (h : n ≤ s.length) :
    (ofStr s).realloc fresh n = ⟨s.take n⟩ := by
  rw [realloc, size_ofStr, ofStr, List.take_append_of_le_length h,
    Nat.sub_eq_zero_of_le (by omega)]
  simp

theorem write_isSome {b : Buffer} {i : Int} {bytes : Bytes} :
    (b.write i bytes).isSome = true ↔ 0 ≤ i ∧ i.toNat + bytes.length ≤ b.size := by
  rw [write]
  split
  · rename_i hin
    exact iff_of_true rfl hin
  · rename_i hin
    exact iff_of_false nofun hin

theorem write_nil {b : Buffer} {i : Nat} (h : i ≤ b.size) : b.write i [] = some b := by
  rw [write, if_pos ⟨Int.natCast_nonneg i, by simpa using h⟩, Int.toNat_natCast]
  simp

/-- Two writes in a row are one. -/
theorem write_write (b : Buffer) (i : Nat) (xs ys : Bytes) :
    ((b.write i xs).bind fun b => b.write (i + xs.length : Nat) ys) = b.write i (xs ++ ys) := by
  have hlength : (xs ++ ys).length = xs.length + ys.length := List.length_append
  by_cases hxs : i + xs.length ≤ b.size
  · have hwrite : b.write i xs =
        some ⟨b.cells.take i ++ xs ++ b.cells.drop (i + xs.length)⟩ :=
      if_pos ⟨Int.natCast_nonneg i, hxs⟩
    have hsize := size_write hwrite
    rw [hwrite, Option.bind_some, write, write, hsize, hlength, Int.toNat_natCast,
      Int.toNat_natCast]
    by_cases hys : i + xs.length + ys.length ≤ b.size
    · have hfront : (b.cells.take i ++ xs).length = i + xs.length := by
        rw [size] at hxs
        rw [List.length_append, List.length_take_of_le (by omega)]
      have htake : (b.cells.take i ++ xs ++ b.cells.drop (i + xs.length)).take (i + xs.length) =
          b.cells.take i ++ xs := List.take_left' hfront
      have hdrop : (b.cells.take i ++ xs ++ b.cells.drop (i + xs.length)).drop
          (i + xs.length + ys.length) = b.cells.drop (i + xs.length + ys.length) := by
        rw [← List.drop_drop, List.drop_left' hfront, List.drop_drop]
      rw [if_pos ⟨Int.natCast_nonneg _, hys⟩, if_pos ⟨Int.natCast_nonneg _, by omega⟩, htake, hdrop,
        Nat.add_assoc, List.append_assoc _ xs]
    · rw [if_neg fun h => hys h.2, if_neg fun h => hys (by omega)]
  · have hnone : b.write i xs = none := if_neg fun h => hxs (by simpa using h.2)
    have hall : b.write i (xs ++ ys) = none :=
      if_neg fun h => hxs (by have := h.2; simp only [Int.toNat_natCast, hlength] at this; omega)
    rw [hnone, hall, Option.bind_none]

/-! ## Accesses at the seam of two parts -/

theorem get_append (front : Bytes) (c : UInt8) (back : Bytes) :
    (Buffer.mk (front ++ c :: back)).get front.length = some c := by
  rw [get, if_pos (Int.natCast_nonneg _), Int.toNat_natCast,
    List.getElem?_append_right (Nat.le_refl _), Nat.sub_self]
  rfl

theorem read_append (front mid back : Bytes) :
    (Buffer.mk (front ++ mid ++ back)).read front.length mid.length = some mid := by
  have hin : 0 ≤ (front.length : Int) ∧ (front.length : Int).toNat + mid.length ≤
      (Buffer.mk (front ++ mid ++ back)).size := by
    simp only [size, List.length_append]
    omega
  rw [read, if_pos hin, Int.toNat_natCast, List.append_assoc, List.drop_left, List.take_left]

theorem write_append (front back : Bytes) {old bytes : Bytes} (h : old.length = bytes.length) :
    (Buffer.mk (front ++ old ++ back)).write front.length bytes =
      some ⟨front ++ bytes ++ back⟩ := by
  have hin : 0 ≤ (front.length : Int) ∧ (front.length : Int).toNat + bytes.length ≤
      (Buffer.mk (front ++ old ++ back)).size := by
    simp only [size, List.length_append]
    omega
  have htake : (front ++ old ++ back).take front.length = front := by
    rw [List.append_assoc, List.take_left]
  have hdrop : (front ++ old ++ back).drop (front.length + bytes.length) = back := by
    rw [← h, ← List.length_append, List.drop_left]
  rw [write, if_pos hin, Int.toNat_natCast, htake, hdrop]

theorem strlen_append (front back : Bytes) {s : Bytes} (hs : (0 : UInt8) ∉ s) :
    (Buffer.mk (front ++ s ++ 0 :: back)).strlen front.length = some s.length := by
  have hdrop : (front ++ s ++ 0 :: back).drop front.length = s ++ 0 :: back := by
    rw [List.append_assoc, List.drop_left]
  have hcstr : cstr (s ++ 0 :: back) = s := by
    rw [cstr_append hs, cstr, List.takeWhile_cons_of_neg (by simp), List.append_nil]
  rw [strlen, Int.toNat_natCast, hdrop, hcstr, if_pos ⟨Int.natCast_nonneg _, by simp⟩]

/-- `strlen` runs out of the block where no NUL is left. -/
theorem strlen_eq_none {b : Buffer} {i : Int} (h : (0 : UInt8) ∉ b.cells.drop i.toNat) :
    b.strlen i = none := by
  rw [strlen, if_neg fun hin => h hin.2]

end Buffer

end Buffers
