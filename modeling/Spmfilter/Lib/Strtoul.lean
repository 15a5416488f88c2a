import Spmfilter.Lib.CString

/-!
# Unsigned numbers

`strtoul` in base ten.  Nothing here names a program.

* A `Numeral` is a text that is read to its end: white space, a sign and digits.
* `strtoul_numeral` gives the value of one, and `numeral_of_strtoul` shows that no other
  text is read to its end.
* `Numeral.unique` makes the sign and the number functions of the text.
-/

namespace CString

/-- The largest `unsigned long`, of 64 bits. -/
def ULONG_MAX : Nat := 18446744073709551615

def MINUS : UInt8 := 45
def PLUS : UInt8 := 43

def isdigit (c : UInt8) : Bool := 48 ≤ c && c ≤ 57

/-- What `strtoul` makes of the digits of a number: too large a number gives `ULONG_MAX`,
and a negative one wraps around. -/
def ulongValue (negative : Bool) (n : Nat) : Nat :=
  if ULONG_MAX < n then ULONG_MAX
  else if negative then (ULONG_MAX + 1 - n) % (ULONG_MAX + 1) else n

/-- A text without its sign. -/
def skipSign (s : Bytes) : Bytes :=
  if s.head? = some MINUS ∨ s.head? = some PLUS then s.tail else s

/-- `strtoul(s, &endptr, 10)`: the value, and the text from `endptr` on. -/
def strtoul (s : Bytes) : Nat × Bytes :=
  let t := s.dropWhile isspace
  let digits := (skipSign t).takeWhile isdigit
  if digits = [] then (0, s)
  else
    (ulongValue (t.head? = some MINUS) (leadingNumber 10 digits),
      (skipSign t).dropWhile isdigit)

/-- `s` is white space, `sign` and digits of the number `n`. -/
def Numeral (s sign : Bytes) (n : Nat) : Prop :=
  ∃ white digits, s = white ++ (sign ++ digits) ∧ (∀ b ∈ white, isspace b = true) ∧
    (sign = [] ∨ sign = [PLUS] ∨ sign = [MINUS]) ∧
    digits ≠ [] ∧ (∀ b ∈ digits, isdigit b = true) ∧ leadingNumber 10 digits = n

theorem isdigit_ne {c : UInt8} (h : isdigit c = true) :
    isspace c = false ∧ c ≠ MINUS ∧ c ≠ PLUS := by
  have hlo : 48 ≤ c.toNat := by
    rw [isdigit, Bool.and_eq_true, decide_eq_true_eq, decide_eq_true_eq] at h
    exact UInt8.le_iff_toNat_le.mp h.1
  refine ⟨?_, ?_, ?_⟩
  · rw [Bool.eq_false_iff]
    intro hspace
    rw [isspace, Bool.or_eq_true, beq_iff_eq, Bool.and_eq_true, decide_eq_true_eq,
      decide_eq_true_eq] at hspace
    rcases hspace with rfl | ⟨-, hhi⟩
    · exact absurd hlo (by decide)
    · have hhi := UInt8.le_iff_toNat_le.mp hhi
      have hcr : (13 : UInt8).toNat = 13 := rfl
      omega
  · rintro rfl
    exact absurd hlo (by decide)
  · rintro rfl
    exact absurd hlo (by decide)

/-- White space stops in front of a sign or a digit. -/
theorem dropWhile_white {white t : Bytes} (hwhite : ∀ b ∈ white, isspace b = true)
    (ht : ∀ c ∈ t.head?, isspace c = false) : (white ++ t).dropWhile isspace = t := by
  rw [List.dropWhile_append_of_pos hwhite]
  cases t with
  | nil => rfl
  | cons c t => rw [List.dropWhile_cons_of_neg (by rw [ht c rfl]; decide)]

section
variable {s sign white digits : Bytes} {n : Nat}

/-- What `strtoul` finds behind the white space of a numeral. -/
theorem dropWhile_numeral (hwhite : ∀ b ∈ white, isspace b = true)
    (hsign : sign = [] ∨ sign = [PLUS] ∨ sign = [MINUS])
    (hdigits : ∀ b ∈ digits, isdigit b = true) :
    (white ++ (sign ++ digits)).dropWhile isspace = sign ++ digits := by
  refine dropWhile_white hwhite fun c hc => ?_
  rcases hsign with rfl | rfl | rfl
  · exact (isdigit_ne (hdigits c (List.mem_of_mem_head? hc))).1
  · obtain rfl := Option.some.inj hc
    decide
  · obtain rfl := Option.some.inj hc
    decide

/-- The sign of a numeral can be seen on its first character. -/
theorem head_numeral (hsign : sign = [] ∨ sign = [PLUS] ∨ sign = [MINUS]) (hne : digits ≠ [])
    (hdigits : ∀ b ∈ digits, isdigit b = true) :
    skipSign (sign ++ digits) = digits ∧
      ((sign ++ digits).head? = some MINUS ↔ sign = [MINUS]) ∧
      ((sign ++ digits).head? = some PLUS ↔ sign = [PLUS]) := by
  obtain ⟨d, rest, rfl⟩ := List.exists_cons_of_ne_nil hne
  obtain ⟨-, hminus, hplus⟩ := isdigit_ne (hdigits d List.mem_cons_self)
  rcases hsign with rfl | rfl | rfl
  · refine ⟨?_, ?_, ?_⟩
    · rw [List.nil_append, skipSign, List.head?_cons, if_neg]
      rintro (h | h)
      · exact hminus (Option.some.inj h)
      · exact hplus (Option.some.inj h)
    · exact iff_of_false (fun h => hminus (Option.some.inj h)) (List.cons_ne_nil _ _).symm
    · exact iff_of_false (fun h => hplus (Option.some.inj h)) (List.cons_ne_nil _ _).symm
  · exact ⟨rfl, iff_of_false (by simp [PLUS, MINUS]) (by decide), iff_of_true rfl rfl⟩
  · exact ⟨rfl, iff_of_true rfl rfl, iff_of_false (by simp [PLUS, MINUS]) (by decide)⟩

/-- A text is a numeral in one way at most. -/
theorem Numeral.unique {sign' : Bytes} {n' : Nat} (h : Numeral s sign n)
    (h' : Numeral s sign' n') : sign = sign' ∧ n = n' := by
  obtain ⟨white, digits, rfl, hwhite, hsign, hne, hdigits, rfl⟩ := h
  obtain ⟨white', digits', heq, hwhite', hsign', hne', hdigits', rfl⟩ := h'
  have hrest := congrArg (List.dropWhile isspace) heq
  rw [dropWhile_numeral hwhite hsign hdigits,
    dropWhile_numeral hwhite' hsign' hdigits'] at hrest
  obtain ⟨hskip, hminus, hplus⟩ := head_numeral hsign hne hdigits
  obtain ⟨hskip', hminus', hplus'⟩ := head_numeral hsign' hne' hdigits'
  rw [hrest, hskip'] at hskip
  rw [hrest, hminus'] at hminus
  rw [hrest, hplus'] at hplus
  refine ⟨?_, by rw [hskip]⟩
  rcases hsign' with rfl | rfl | rfl
  · rcases hsign with rfl | rfl | rfl
    · rfl
    · exact (hplus.mpr rfl).symm
    · exact (hminus.mpr rfl).symm
  · exact hplus.mp rfl
  · exact hminus.mp rfl

/-- `strtoul` reads a numeral to its end. -/
theorem strtoul_numeral (h : Numeral s sign n) :
    strtoul s = (ulongValue (sign = [MINUS]) n, []) ∧ s ≠ [] := by
  obtain ⟨white, digits, rfl, hwhite, hsign, hne, hdigits, rfl⟩ := h
  obtain ⟨hskip, hminus, -⟩ := head_numeral hsign hne hdigits
  have htake : digits.takeWhile isdigit = digits := List.takeWhile_eq_self_iff.mpr hdigits
  have hdrop : digits.dropWhile isdigit = [] := List.dropWhile_eq_nil_iff.mpr hdigits
  constructor
  · simp only [strtoul, dropWhile_numeral hwhite hsign hdigits, hskip, htake, hdrop, hminus,
      if_neg hne]
  · exact fun hnil => hne (List.append_eq_nil_iff.mp (List.append_eq_nil_iff.mp hnil).2).2

/-- The sign that a text begins with. -/
theorem skipSign_eq (t : Bytes) :
    ∃ sign, (sign = [] ∨ sign = [PLUS] ∨ sign = [MINUS]) ∧ t = sign ++ skipSign t := by
  unfold skipSign
  split
  · rename_i h
    cases t with
    | nil => exact ⟨[], Or.inl rfl, rfl⟩
    | cons c t =>
      rcases h with h | h
      · exact ⟨[MINUS], Or.inr (Or.inr rfl), by rw [← Option.some.inj h]; rfl⟩
      · exact ⟨[PLUS], Or.inr (Or.inl rfl), by rw [← Option.some.inj h]; rfl⟩
  · exact ⟨[], Or.inl rfl, rfl⟩

/-- Only numerals are read to their end. -/
theorem numeral_of_strtoul (hmoved : (strtoul s).2 ≠ s) (hend : (strtoul s).2 = []) :
    ∃ sign n, Numeral s sign n := by
  simp only [strtoul] at hmoved hend
  split at hmoved
  · exact absurd rfl hmoved
  · rename_i hne
    rw [if_neg hne] at hend
    obtain ⟨sign, hsign, ht⟩ := skipSign_eq (s.dropWhile isspace)
    have hdigits := List.dropWhile_eq_nil_iff.mp hend
    rw [List.takeWhile_eq_self_iff.mpr hdigits] at hne
    refine ⟨sign, _, s.takeWhile isspace, skipSign (s.dropWhile isspace), ?_,
      fun b hb => List.mem_takeWhile_imp hb, hsign, hne, hdigits, rfl⟩
    rw [← ht, List.takeWhile_append_dropWhile]

end

end CString
