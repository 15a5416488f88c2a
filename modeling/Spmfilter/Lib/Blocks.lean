import Spmfilter.Lib.Chunks

/-!
# Streams that are taken in blocks

A stream of symbols of which every `k + 1` in a row make a block, and a state that each whole
block changes.  Symbols that do not make a block yet are held back.

* `feed` takes one symbol, `absorb` a stretch of them: where the stretch is cut does not
  matter (`absorb_append`).
* `absorb_short` and `absorb_full` are the two ways in which a stretch ends.
* `absorb_blocks` is a stretch of whole blocks: they are compressed one after the other.
-/

namespace Blocks

open Chunks

variable {σ α : Type} {k : Nat} {compress : σ → List α → σ}

/-- One symbol, where the symbols `st.2` are held back. -/
def feed (k : Nat) (compress : σ → List α → σ) (st : σ × List α) (x : α) : σ × List α :=
  if st.2.length = k then (compress st.1 (st.2 ++ [x]), []) else (st.1, st.2 ++ [x])

/-- A stretch of symbols. -/
def absorb (k : Nat) (compress : σ → List α → σ) (st : σ × List α) (xs : List α) : σ × List α :=
  xs.foldl (feed k compress) st

@[simp] theorem absorb_nil (st : σ × List α) : absorb k compress st [] = st := rfl

theorem absorb_append (st : σ × List α) (xs ys : List α) :
    absorb k compress st (xs ++ ys) = absorb k compress (absorb k compress st xs) ys :=
  List.foldl_append

/-- A stretch that does not make a block is held back. -/
theorem absorb_short {s : σ} {held xs : List α} (h : held.length + xs.length ≤ k) :
    absorb k compress (s, held) xs = (s, held ++ xs) := by
  induction xs generalizing held with
  | nil => simp
  | cons x xs ih =>
    rw [List.length_cons] at h
    have hfeed : feed k compress (s, held) x = (s, held ++ [x]) := if_neg (by simp; omega)
    have hlen : (held ++ [x]).length + xs.length ≤ k := by simp; omega
    calc absorb k compress (s, held) (x :: xs)
        = absorb k compress (feed k compress (s, held) x) xs := rfl
      _ = (s, held ++ [x] ++ xs) := by rw [hfeed, ih hlen]
      _ = (s, held ++ x :: xs) := by rw [List.append_assoc]; rfl

/-- A stretch that just makes a block. -/
theorem absorb_full {s : σ} {held xs : List α} (h : held.length + xs.length = k + 1)
    (hne : xs ≠ []) : absorb k compress (s, held) xs = (compress s (held ++ xs), []) := by
  obtain ⟨front, x, rfl⟩ := List.eq_nil_or_concat xs |>.resolve_left hne
  rw [List.concat_eq_append] at h ⊢
  rw [List.length_append, List.length_singleton] at h
  have hlen : (held ++ front).length = k := by rw [List.length_append]; omega
  rw [absorb_append, absorb_short (s := s) (by omega : held.length + front.length ≤ k)]
  calc absorb k compress (s, held ++ front) [x]
      = feed k compress (s, held ++ front) x := rfl
    _ = (compress s (held ++ front ++ [x]), []) := if_pos hlen
    _ = (compress s (held ++ (front ++ [x])), []) := by rw [List.append_assoc]

/-- A whole block with nothing held back. -/
theorem absorb_block {s : σ} {block : List α} (h : block.length = k + 1) :
    absorb k compress (s, []) block = (compress s block, []) := by
  rw [absorb_full (by simpa using h) (by rintro rfl; cases h), List.nil_append]

/-- A block and what follows it. -/
theorem absorb_block_append {s : σ} {block : List α} (h : block.length = k + 1) (rest : List α) :
    absorb k compress (s, []) (block ++ rest) = absorb k compress (compress s block, []) rest := by
  rw [absorb_append, absorb_block h]

/-- Whole blocks are compressed one after the other. -/
theorem absorb_blocks (s : σ) {xs : List α} (h : (k + 1) ∣ xs.length) :
    absorb k compress (s, []) xs = ((chunks k xs).foldl compress s, []) := by
  obtain ⟨n, hn⟩ := h
  induction n generalizing s xs with
  | zero =>
    obtain rfl : xs = [] := List.length_eq_zero_iff.mp hn
    simp
  | succ n ih =>
    have hsplit : xs = xs.take (k + 1) ++ xs.drop (k + 1) := (List.take_append_drop _ _).symm
    have hfirst : (xs.take (k + 1)).length = k + 1 := by
      rw [List.length_take, hn]; exact Nat.min_eq_left (Nat.le_mul_of_pos_right _ (by omega))
    have hrest : (xs.drop (k + 1)).length = (k + 1) * n := by
      rw [List.length_drop, hn, Nat.mul_succ]; omega
    rw [hsplit, absorb_block_append hfirst, ih _ hrest, chunks_append k hfirst]
    rfl

end Blocks
