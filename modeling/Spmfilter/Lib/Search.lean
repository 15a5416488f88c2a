import Spmfilter.Lib.CString

/-!
# Where a search stops

`strchr` and `strcasestr` take the first suffix with a property.  Nothing here names a
program.

* `find?_tails` describes a first suffix by what stands in front of it.
* `strchr_eq_some` and `strcasestr_eq_some` are its two cases, and `strchr_append` is the
  search for a byte in a text that is put together.
* `strcasestr_field` splits a search at a byte that `needle` does not have.
-/

namespace CString

/-- The first suffix with a property: no longer one has it. -/
theorem find?_tails {α : Type} {P : List α → Bool} {s t : List α} :
    s.tails.find? P = some t ↔
      ∃ front, s = front ++ t ∧ P t = true ∧
        ∀ u v, front = u ++ v → v ≠ [] → P (v ++ t) = false := by
  induction s with
  | nil =>
    rw [show ([] : List α).tails = [[]] from rfl, List.find?_singleton]
    constructor
    · intro h
      split at h
      · rename_i hP
        obtain rfl := Option.some.inj h
        exact ⟨[], rfl, hP, fun u v huv hv => absurd (List.append_eq_nil_iff.mp huv.symm).2 hv⟩
      · cases h
    · rintro ⟨front, hs, hP, -⟩
      obtain ⟨rfl, rfl⟩ := List.append_eq_nil_iff.mp hs.symm
      rw [if_pos hP]
  | cons a s ih =>
    rw [List.tails_cons, List.find?_cons]
    constructor
    · intro h
      split at h
      · rename_i hP
        obtain rfl := Option.some.inj h
        exact ⟨[], rfl, hP, fun u v huv hv => absurd (List.append_eq_nil_iff.mp huv.symm).2 hv⟩
      · rename_i hno
        obtain ⟨front, rfl, hP, hfirst⟩ := ih.mp h
        refine ⟨a :: front, rfl, hP, fun u v huv hv => ?_⟩
        cases u with
        | nil =>
          obtain rfl : a :: front = v := huv
          exact hno
        | cons b u => exact hfirst u v (List.cons.inj huv).2 hv
    · rintro ⟨front, hs, hP, hfirst⟩
      cases front with
      | nil =>
        obtain rfl : a :: s = t := hs
        rw [hP]
      | cons b front =>
        obtain ⟨rfl, hrest⟩ := List.cons.inj hs
        have hno : P (a :: s) = false := hs ▸ hfirst [] (a :: front) rfl (List.cons_ne_nil a front)
        rw [hno]
        exact ih.mpr ⟨front, hrest, hP, fun u v huv hv => hfirst (a :: u) v (by rw [huv]; rfl) hv⟩

section
variable {s t front needle : Bytes} {c : UInt8}

/-- `strchr` stops at the first `c`. -/
theorem strchr_eq_some :
    strchr s c = some t ↔ ∃ front rest, s = front ++ t ∧ t = c :: rest ∧ c ∉ front := by
  rw [strchr, find?_tails]
  constructor
  · rintro ⟨front, rfl, hhead, hfirst⟩
    obtain ⟨rest, rfl⟩ := List.head?_eq_some_iff.mp (eq_of_beq hhead)
    refine ⟨front, rest, rfl, rfl, fun hmem => ?_⟩
    obtain ⟨u, v, rfl⟩ := List.append_of_mem hmem
    have hno := hfirst u (c :: v) rfl (List.cons_ne_nil c v)
    exact absurd (beq_self_eq_true (some c)) (Bool.eq_false_iff.mp hno)
  · rintro ⟨front, rest, rfl, rfl, hc⟩
    refine ⟨front, rfl, beq_self_eq_true _, fun u v huv hv => ?_⟩
    obtain ⟨b, v, rfl⟩ := List.exists_cons_of_ne_nil hv
    refine beq_eq_false_iff_ne.mpr fun heq => hc ?_
    rw [huv, ← Option.some.inj heq]
    exact List.mem_append_right u List.mem_cons_self

theorem strchr_append (hc : c ∉ front) : strchr (front ++ c :: t) c = some (c :: t) :=
  strchr_eq_some.mpr ⟨front, t, rfl, rfl, hc⟩

theorem strchr_eq_none : strchr s c = none ↔ c ∉ s := by
  rw [← Option.not_isSome_iff_eq_none, strchr_isSome]

/-- `strcasestr` stops at the first place where the text goes on with `needle`. -/
theorem strcasestr_eq_some :
    strcasestr s needle = some t ↔
      ∃ front, s = front ++ t ∧ hasPrefixNoCase t needle = true ∧
        ∀ u v, front = u ++ v → v ≠ [] → hasPrefixNoCase (v ++ t) needle = false :=
  find?_tails

theorem strcasestr_cons (b : UInt8) (s needle : Bytes) :
    strcasestr (b :: s) needle =
      if hasPrefixNoCase (b :: s) needle = true then some (b :: s) else strcasestr s needle := by
  rw [strcasestr, List.tails_cons, List.find?_cons]
  split
  · rename_i h
    rw [if_pos h]
  · rename_i h
    rw [if_neg (by rw [h]; decide)]
    rfl

theorem strcasestr_nil (hne : needle ≠ []) : strcasestr [] needle = none := by
  obtain ⟨b, needle, rfl⟩ := List.exists_cons_of_ne_nil hne
  rfl

/-- What is found stands in the text. -/
theorem length_le_of_strcasestr (h : (strcasestr s needle).isSome = true) :
    needle.length ≤ s.length := by
  obtain ⟨t, ht⟩ := Option.isSome_iff_exists.mp h
  obtain ⟨front, rfl, hstart, -⟩ := strcasestr_eq_some.mp ht
  rw [hasPrefixNoCase, beq_iff_eq] at hstart
  have hlen := congrArg List.length hstart
  rw [List.length_map, List.length_map, List.length_take] at hlen
  rw [List.length_append]
  omega

/-- A prefix is found. -/
theorem strcasestr_start (h : hasPrefixNoCase s needle = true) :
    strcasestr s needle = some s := by
  rw [strcasestr_eq_some]
  exact ⟨[], rfl, h, fun u v huv hv => absurd (List.append_eq_nil_iff.mp huv.symm).2 hv⟩

/-- A prefix ends in front of a byte that it does not have. -/
theorem hasPrefixNoCase_field (hc : tolower c ∉ needle.map tolower) (x rest : Bytes) :
    hasPrefixNoCase (x ++ c :: rest) needle = hasPrefixNoCase x needle := by
  induction needle generalizing x with
  | nil => rfl
  | cons b needle ih =>
    rw [List.map_cons, List.mem_cons, not_or] at hc
    cases x with
    | nil =>
      rw [List.nil_append, hasPrefixNoCase_cons, hasPrefixNoCase_nil, beq_eq_false_iff_ne.mpr hc.1,
        Bool.false_and]
    | cons a x => rw [List.cons_append, hasPrefixNoCase_cons, hasPrefixNoCase_cons, ih hc.2]

/-- What is found lies in front of such a byte or behind it. -/
theorem strcasestr_field (hc : tolower c ∉ needle.map tolower) (hne : needle ≠ [])
    (x rest : Bytes) :
    strcasestr (x ++ c :: rest) needle =
      ((strcasestr x needle).map (· ++ c :: rest)).or (strcasestr rest needle) := by
  induction x with
  | nil =>
    have hno : hasPrefixNoCase (c :: rest) needle = false := by
      obtain ⟨b, needle, rfl⟩ := List.exists_cons_of_ne_nil hne
      exact hasPrefixNoCase_field hc [] rest
    rw [List.nil_append, strcasestr_cons, if_neg (by rw [hno]; decide), strcasestr_nil hne]
    rfl
  | cons b x ih =>
    rw [List.cons_append, strcasestr_cons, strcasestr_cons, ← List.cons_append,
      hasPrefixNoCase_field hc (b :: x) rest]
    split
    · rfl
    · exact ih

end

end CString
