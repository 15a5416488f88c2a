import Spmfilter.Lib.Buffer

/-!
# Cutting a string in place

`strsep`, which writes a NUL over the separator and leaves the rest of the string behind
it, and `strdup`, which copies what is in front.  Nothing here names a program.

* `strsep_found` and `strsep_last` are the two ways a call goes.
* `strsep_size` bounds the walk through the block.
* `length_splitOn` and `notMem_of_mem_splitOn` describe the pieces of a list.
-/

/-- One piece more than there are separators. -/
theorem length_splitOn {α : Type} [BEq α] [LawfulBEq α] (s : List α) (c : α) :
    (s.splitOn c).length = s.count c + 1 := by
  induction s with
  | nil => rw [List.splitOn_nil, List.count_nil, List.length_singleton]
  | cons d s ih =>
    rw [List.splitOn_cons_eq_if_modifyHead, List.count_cons]
    split
    · rw [List.length_cons, ih]
    · rw [List.length_modifyHead, ih, Nat.add_zero]

theorem notMem_of_mem_splitOn {α : Type} [BEq α] [LawfulBEq α] {s piece : List α} {c : α}
    (h : piece ∈ s.splitOn c) : c ∉ piece := by
  induction hn : s.length using Nat.strongRecOn generalizing s with
  | ind n ih =>
    by_cases hc : c ∈ s
    · obtain ⟨tok, rest, rfl, hno⟩ := List.eq_append_cons_of_mem hc
      rw [List.splitOn_append_cons_self_of_not_mem hno] at h
      rcases List.mem_cons.mp h with rfl | h
      · exact hno
      · refine ih rest.length ?_ h rfl
        rw [← hn, List.length_append, List.length_cons]
        omega
    · rw [List.splitOn_eq_singleton hc, List.mem_singleton] at h
      rwa [h]

namespace Buffers

open CString

namespace Buffer

/-- `strdup(b + i)`. -/
def strdup (b : Buffer) (i : Int) : Option Bytes :=
  (b.strlen i).bind (b.read i)

/-- `strcspn`: the bytes in front of the first one of `sep`. -/
def strcspn (s sep : Bytes) : Nat :=
  (s.takeWhile fun c => !sep.contains c).length

/-- `strsep(&cp, sep)` where `cp` is `b + start`: the block, and the new `cp`. -/
def strsep (sep : Bytes) (b : Buffer) (start : Nat) : Option (Buffer × Option Nat) := do
  let s ← b.strdup start
  let stop := start + strcspn s sep
  if strcspn s sep < s.length then
    let b ← b.write stop [0]
    some (b, some (stop + 1))
  else some (b, none)

section
variable {b b' : Buffer} {sep front tok back : Bytes} {start : Nat}

theorem strdup_append (hs : (0 : UInt8) ∉ tok) :
    (Buffer.mk (front ++ tok ++ 0 :: back)).strdup front.length = some tok := by
  rw [strdup, strlen_append front back hs, Option.bind_some, read_append]

theorem strcspn_append (htok : ∀ c ∈ tok, c ∉ sep) (hback : ∀ c ∈ back.head?, c ∈ sep) :
    strcspn (tok ++ back) sep = tok.length := by
  have hno : ∀ c ∈ tok, (!sep.contains c) = true := by
    intro c hc
    simpa using htok c hc
  rw [strcspn, List.takeWhile_append_of_pos hno]
  cases back with
  | nil => rw [List.takeWhile_nil, List.append_nil]
  | cons c back =>
    rw [List.takeWhile_cons_of_neg (by simpa using hback c rfl), List.append_nil]

/-- A separator becomes the end of what is in front of it. -/
theorem strsep_found {c : UInt8} {s : Bytes} (hs : (0 : UInt8) ∉ tok ++ c :: s)
    (htok : ∀ c ∈ tok, c ∉ sep) (hc : c ∈ sep) :
    strsep sep ⟨front ++ (tok ++ c :: s) ++ 0 :: back⟩ front.length =
      some (⟨front ++ tok ++ 0 :: (s ++ 0 :: back)⟩, some (front.length + tok.length + 1)) := by
  have hcspn : strcspn (tok ++ c :: s) sep = tok.length := by
    refine strcspn_append htok fun d hd => ?_
    obtain rfl : c = d := Option.some.inj hd
    exact hc
  have hwrite := @write_append (front ++ tok) (s ++ 0 :: back) [c] [0] rfl
  have hblock : front ++ (tok ++ c :: s) ++ 0 :: back = front ++ tok ++ [c] ++ (s ++ 0 :: back) := by
    simp only [List.append_assoc, List.cons_append, List.nil_append]
  rw [strsep, strdup_append hs, Option.bind_eq_bind, Option.bind_some, hcspn,
    if_pos (by rw [List.length_append, List.length_cons]; omega), hblock,
    ← List.length_append, hwrite, Option.bind_eq_bind, Option.bind_some]
  simp only [List.append_assoc, List.cons_append, List.nil_append]

/-- What is behind the last separator is the last piece. -/
theorem strsep_last (hs : (0 : UInt8) ∉ tok) (htok : ∀ c ∈ tok, c ∉ sep) :
    strsep sep ⟨front ++ tok ++ 0 :: back⟩ front.length =
      some (⟨front ++ tok ++ 0 :: back⟩, none) := by
  have hcspn : strcspn tok sep = tok.length := by
    have h := @strcspn_append sep tok [] htok nofun
    rwa [List.append_nil] at h
  rw [strsep, strdup_append hs, Option.bind_eq_bind, Option.bind_some, hcspn,
    if_neg (Nat.lt_irrefl _)]

/-- The walk goes forward inside the block, which keeps its size. -/
theorem strsep_size {next : Nat} (h : strsep sep b start = some (b', some next)) :
    b'.size = b.size ∧ start < next ∧ next ≤ b.size := by
  obtain ⟨s, -, hrest⟩ := Option.bind_eq_some_iff.mp h
  split at hrest
  · obtain ⟨d, hwrite, heq⟩ := Option.bind_eq_some_iff.mp hrest
    obtain ⟨rfl, hnext⟩ := Prod.mk.inj (Option.some.inj heq)
    obtain rfl := Option.some.inj hnext
    have hin := write_isSome.mp (by rw [hwrite]; rfl : (b.write _ _).isSome = true)
    rw [List.length_singleton] at hin
    refine ⟨size_write hwrite, ?_, ?_⟩ <;> omega
  · cases hrest

end

end Buffer

end Buffers
