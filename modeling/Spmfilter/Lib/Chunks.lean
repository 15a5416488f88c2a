import Mathlib.Data.List.Basic

/-!
# Chunks of a list

`chunks k l` cuts a list into chunks of `k + 1` elements; the last one may be
shorter.

* `chunks_flatten` puts the list together again.
* `chunks_append` cuts off one full chunk, and `chunks_of_length_le` is the
  last one.
* `chunks_head?` says where in the list each chunk starts.
-/

namespace Chunks

variable {α : Type} (k : Nat)

/-- Cut a list into chunks of `k + 1` elements. -/
def chunks : List α → List (List α)
  | [] => []
  | a :: l => (a :: l.take k) :: chunks (l.drop k)
termination_by l => l.length
decreasing_by rw [List.length_drop, List.length_cons]; omega

@[simp] theorem chunks_nil : chunks k ([] : List α) = [] := by
  rw [chunks]

theorem chunks_cons (a : α) (l : List α) :
    chunks k (a :: l) = (a :: l.take k) :: chunks k (l.drop k) := by
  rw [chunks]

theorem chunks_flatten (l : List α) : (chunks k l).flatten = l := by
  fun_induction chunks k l with
  | case1 => rfl
  | case2 a l ih =>
    rw [List.flatten_cons, ih, List.cons_append, List.take_append_drop]

theorem chunks_append {a : List α} (ha : a.length = k + 1) (b : List α) :
    chunks k (a ++ b) = a :: chunks k b := by
  obtain ⟨x, a, rfl⟩ := List.exists_cons_of_length_eq_add_one ha
  have hlen : a.length = k := by simpa using ha
  rw [List.cons_append, chunks_cons, ← hlen, List.take_left, List.drop_left]

theorem chunks_of_length_le {l : List α} (hne : l ≠ []) (hlen : l.length ≤ k + 1) :
    chunks k l = [l] := by
  obtain ⟨x, l, rfl⟩ := List.exists_cons_of_ne_nil hne
  have hle : l.length ≤ k := by simpa using hlen
  rw [chunks_cons, List.take_of_length_le hle, List.drop_of_length_le hle, chunks_nil]

/-- The chunk at position `j` starts at the offset `(k + 1) * j`. -/
theorem chunks_head? (l : List α) (j : Nat) :
    (chunks k l)[j]?.bind List.head? = l[(k + 1) * j]? := by
  induction j generalizing l with
  | zero =>
    cases l with
    | nil => simp
    | cons a l => simp [chunks_cons]
  | succ j ih =>
    cases l with
    | nil => simp
    | cons a l =>
      rw [chunks_cons, List.getElem?_cons_succ, ih, List.getElem?_drop, Nat.mul_succ,
        ← Nat.add_assoc, List.getElem?_cons_succ, Nat.add_comm]

/-- A chunk behind the first starts with `x` exactly when `x` stands at the
start of a chunk behind the first. -/
theorem mem_tail_chunks_iff (l : List α) (x : α) :
    (∃ c ∈ (chunks k l).tail, c.head? = some x) ↔ ∃ j, 0 < j ∧ l[(k + 1) * j]? = some x := by
  constructor
  · intro h
    obtain ⟨c, hc, hx⟩ := h
    obtain ⟨j, hj⟩ := List.mem_iff_getElem?.1 hc
    rw [List.getElem?_tail] at hj
    refine ⟨j + 1, by omega, ?_⟩
    rw [← chunks_head?, hj]
    exact hx
  · intro h
    obtain ⟨j, hj, hx⟩ := h
    obtain ⟨j, rfl⟩ : ∃ i, j = i + 1 := ⟨j - 1, by omega⟩
    rw [← chunks_head?] at hx
    obtain ⟨c, hc, hhead⟩ := Option.bind_eq_some_iff.1 hx
    refine ⟨c, ?_, hhead⟩
    apply List.mem_iff_getElem?.2
    exact ⟨j, by rw [List.getElem?_tail]; exact hc⟩

end Chunks
