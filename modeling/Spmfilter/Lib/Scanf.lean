import Spmfilter.Lib.CString

/-!
# Scanning with a format

`sscanf` for the formats that are made of white space, literal characters and
conversions `%[...]`.  Nothing here names a program.

* `sscanf` gives the converted texts in their order.  It stops at the first
  directive that does not match, and its result in C is how many there are.
* `sscanf_set` and `sscanf_space` step over a text that is known.
* `takeWhile_append_cons` and `dropWhile_append_cons` cut a text at its first
  separator.
-/

namespace CString

/-- A directive of a format. -/
inductive Directive
  /-- white space: any amount of it, or none -/
  | space
  /-- a character that has to come next -/
  | lit (c : UInt8)
  /-- `%[...]`: at least one character of a set -/
  | set (p : UInt8 → Bool)

/-- `%[^c]`. -/
def Directive.but (c : UInt8) : Directive := .set (· ≠ c)

def sscanf : List Directive → Bytes → List Bytes
  | [], _ => []
  | .space :: format, s => sscanf format (s.dropWhile isspace)
  | .lit c :: format, s =>
    match s with
    | [] => []
    | b :: s => if b = c then sscanf format s else []
  | .set p :: format, s =>
    if s.takeWhile p = [] then [] else s.takeWhile p :: sscanf format (s.dropWhile p)

/-- No text that is converted is empty. -/
theorem sscanf_ne_nil (format : List Directive) (s : Bytes) : ∀ t ∈ sscanf format s, t ≠ [] := by
  induction format generalizing s with
  | nil =>
    intro t ht
    cases ht
  | cons directive format ih =>
    cases directive with
    | space => exact ih _
    | lit c =>
      cases s with
      | nil =>
        intro t ht
        cases ht
      | cons b s =>
        rw [sscanf]
        split_ifs
        · exact ih s
        · nofun
    | set p =>
      rw [sscanf]
      split_ifs with hempty
      · nofun
      · intro t ht
        rcases List.mem_cons.mp ht with rfl | ht
        · exact hempty
        · exact ih _ t ht

section
variable {p : UInt8 → Bool} {s rest : Bytes} {c : UInt8} {format : List Directive}

/-- What comes before the first character outside of a set. -/
theorem takeWhile_append_cons (hs : ∀ b ∈ s, p b = true) (hc : p c = false) :
    (s ++ c :: rest).takeWhile p = s := by
  rw [List.takeWhile_append_of_pos hs, List.takeWhile_cons, hc]
  exact List.append_nil s

theorem dropWhile_append_cons (hs : ∀ b ∈ s, p b = true) (hc : p c = false) :
    (s ++ c :: rest).dropWhile p = c :: rest := by
  rw [List.dropWhile_append_of_pos hs, List.dropWhile_cons, hc]
  rfl

/-- A conversion up to a character outside of its set. -/
theorem sscanf_set (hne : s ≠ []) (hs : ∀ b ∈ s, p b = true) (hc : p c = false) :
    sscanf (.set p :: format) (s ++ c :: rest) = s :: sscanf format (c :: rest) := by
  rw [sscanf, takeWhile_append_cons hs hc, dropWhile_append_cons hs hc, if_neg hne]

/-- A conversion to the end. -/
theorem sscanf_set_end (hne : s ≠ []) (hs : ∀ b ∈ s, p b = true) :
    sscanf (.set p :: format) s = s :: sscanf format [] := by
  rw [sscanf, List.takeWhile_eq_self_iff.mpr hs, List.dropWhile_eq_nil_iff.mpr hs, if_neg hne]

theorem sscanf_space (hs : ∀ b ∈ s, isspace b = true) (hc : isspace c = false) :
    sscanf (.space :: format) (s ++ c :: rest) = sscanf format (c :: rest) := by
  rw [sscanf, dropWhile_append_cons hs hc]

theorem sscanf_lit : sscanf (.lit c :: format) (c :: rest) = sscanf format rest := by
  rw [sscanf]
  exact if_pos rfl

theorem sscanf_lit_ne {b : UInt8} (h : b ≠ c) : sscanf (.lit c :: format) (b :: rest) = [] := by
  rw [sscanf]
  exact if_neg h

end

end CString
