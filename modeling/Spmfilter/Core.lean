import Spmfilter.Lib.CString

/-!
# Core helpers

Three functions of `smf_core.c`.  `smf_core_strstrip` trims a string in place: it
looks for the first byte that is not white space, and only when there is one does
it look for the end.  `smf_core_expand_string` puts an address, or a part of it,
into a query.
-/

namespace Spmfilter

open CString

/-- The largest `int`. -/
def INT_MAX : Nat := 2147483647

/-- `smf_core_strstrip`: the string without its outer white space.  When every
byte is white space, `end - start` is zero and the result is empty. -/
def smfCoreStrstrip (s : Bytes) : Bytes :=
  let tail := s.dropWhile isspace
  if tail = [] then [] else (tail.reverse.dropWhile isspace).reverse

/-- `smf_core_strsplit`, for a separator of one byte. -/
def smfCoreStrsplit (s : Bytes) (sep : UInt8) : List Bytes := s.splitOn sep

/-- Only white space is cut off. -/
theorem smfCoreStrstrip_sandwich (s : Bytes) :
    ∃ before after : Bytes, s = before ++ smfCoreStrstrip s ++ after ∧
      (∀ c ∈ before, isspace c = true) ∧ ∀ c ∈ after, isspace c = true := by
  have hfront : ∀ c ∈ s.takeWhile isspace, isspace c = true := fun c hc =>
    List.mem_takeWhile_imp hc
  rw [smfCoreStrstrip]
  split
  · rename_i hempty
    refine ⟨s.takeWhile isspace, [], ?_, hfront, nofun⟩
    have hsplit := List.takeWhile_append_dropWhile (p := isspace) (l := s)
    rw [hempty, List.append_nil] at hsplit
    rw [hsplit, List.append_nil, List.append_nil]
  · refine ⟨s.takeWhile isspace,
      ((s.dropWhile isspace).reverse.takeWhile isspace).reverse, ?_, hfront, ?_⟩
    · rw [List.append_assoc, ← List.reverse_append, List.takeWhile_append_dropWhile,
        List.reverse_reverse, List.takeWhile_append_dropWhile]
    · intro c hc
      exact List.mem_takeWhile_imp (List.mem_reverse.mp hc)

/-- What is kept ends inside the string. -/
theorem smfCoreStrstrip_length (s : Bytes) :
    (s.takeWhile isspace).length + (smfCoreStrstrip s).length ≤ s.length := by
  have hlength := congrArg List.length (List.takeWhile_append_dropWhile (p := isspace) (l := s))
  rw [List.length_append] at hlength
  have hkeep : (smfCoreStrstrip s).length ≤ (s.dropWhile isspace).length := by
    rw [smfCoreStrstrip]
    split
    · exact Nat.zero_le _
    · rw [List.length_reverse]
      exact (List.length_dropWhile_le _ _).trans (List.length_reverse).le
  omega

/-- White space on either side makes no difference. -/
theorem smfCoreStrstrip_space {before after : Bytes} (s : Bytes)
    (hbefore : ∀ c ∈ before, isspace c = true) (hafter : ∀ c ∈ after, isspace c = true) :
    smfCoreStrstrip (before ++ s ++ after) = smfCoreStrstrip s := by
  have hdrop : (before ++ s ++ after).dropWhile isspace =
      if (s.dropWhile isspace).isEmpty then [] else s.dropWhile isspace ++ after := by
    rw [List.append_assoc, List.dropWhile_append_of_pos hbefore, List.dropWhile_append,
      List.dropWhile_eq_nil_iff.mpr hafter]
  rw [smfCoreStrstrip, smfCoreStrstrip, hdrop]
  by_cases hempty : s.dropWhile isspace = []
  · rw [hempty]
    rfl
  · have hrev : ∀ c ∈ after.reverse, isspace c = true := fun c hc =>
      hafter c (List.mem_reverse.mp hc)
    have hnonempty : ¬ (s.dropWhile isspace).isEmpty = true := fun h =>
      hempty (List.isEmpty_iff.mp h)
    have hmore : s.dropWhile isspace ++ after ≠ [] := fun h =>
      hempty (List.append_eq_nil_iff.mp h).1
    rw [if_neg hnonempty, if_neg hmore, if_neg hempty, List.reverse_append,
      List.dropWhile_append_of_pos hrev]

theorem smfCoreStrstrip_idem (s : Bytes) :
    smfCoreStrstrip (smfCoreStrstrip s) = smfCoreStrstrip s := by
  obtain ⟨before, after, hs, hbefore, hafter⟩ := smfCoreStrstrip_sandwich s
  have hspace := smfCoreStrstrip_space (smfCoreStrstrip s) hbefore hafter
  rw [← hs] at hspace
  exact hspace.symm

def AT : UInt8 := 64

/-- What `smf_core_expand_string` puts in the place of `%` and `option`. -/
def expandOption (addr : Bytes) (parts : List Bytes) (option : UInt8) : Except Int Bytes :=
  if option = 115 then .ok addr
  else if option = 117 then
    -- without a part the two characters stay
    .ok (parts[0]?.getD [PERCENT, option])
  else if option = 100 then
    match parts[1]? with
    | some domain => .ok domain
    | none => .error (-1)
  else .error (-2)

/-- The loop of `smf_core_expand_string`: the text and the number of replacements. -/
def expandLoop (addr : Bytes) (parts : List Bytes) : Bytes → Except Int (Bytes × Nat)
  | [] => .ok ([], 0)
  | c :: rest =>
    if c = PERCENT then
      match rest with
      | [] => .error (-2)
      | option :: rest => do
        let insert ← expandOption addr parts option
        let (text, replaced) ← expandLoop addr parts rest
        return (insert ++ text, replaced + 1)
    else do
      let (text, replaced) ← expandLoop addr parts rest
      return (c :: text, replaced)

/-- `smf_core_expand_string`: `%s` is the address, `%u` what stands before its `@` and
`%d` what stands behind. -/
def smfCoreExpandString (format addr : Bytes) : Except Int (Bytes × Nat) :=
  expandLoop addr (smfCoreStrsplit addr AT) format

example : smfCoreStrstrip (ascii " \tfoo bar\r\n") = ascii "foo bar" := by decide

end Spmfilter
