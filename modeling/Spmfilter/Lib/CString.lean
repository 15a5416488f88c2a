import Mathlib.Data.List.Infix
import Mathlib.Data.List.TakeWhile

/-!
# Byte strings of the C library

A C string is a list of bytes without its terminating NUL.  This module holds
the few functions of `string.h`, `ctype.h` and `stdio.h` that mail code calls
on such strings, in the "C" locale.  Nothing here names a program.

* `cstr` is the string that a buffer holds: the bytes before the first NUL, and `CStr` is the
  type of such strings.
* `hasPrefixNoCase` is the test `strncasecmp(s, lit, strlen(lit)) == 0`.
* `strchr`, `strstr` and `strcasestr` return the suffix that starts at the
  match, as the C functions return a pointer to it.
* `Vasprintf` is a formatted print with no further arguments.  It copies
  literal text, and what it makes of a conversion without an argument is left
  open.  `Vasprintf.Interprets` says that it takes every percent sign for a
  conversion, and `interprets_iff` which formats such a print leaves alone.
-/

namespace CString

/-- A sequence of bytes. -/
abbrev Bytes := List UInt8

/-- The bytes of an ASCII literal. -/
def ascii (s : String) : Bytes :=
  s.toList.map fun c => UInt8.ofNat c.toNat

/-- The line feed. -/
def LF : UInt8 := 10

/-- The carriage return. -/
def CR : UInt8 := 13

/-- The full stop. -/
def DOT : UInt8 := 46

/-- The percent sign, which starts a conversion in a format. -/
def PERCENT : UInt8 := 37

/-! ## Up to a byte -/

section

variable {c : UInt8} {s : Bytes}

theorem forall_ne_of_notMem (h : c ∉ s) : ∀ b ∈ s, decide (b ≠ c) = true := by
  intro b hb
  exact decide_eq_true fun heq => h (heq ▸ hb)

theorem takeWhile_ne_eq_self_iff : s.takeWhile (· ≠ c) = s ↔ c ∉ s := by
  rw [List.takeWhile_eq_self_iff]
  exact ⟨fun h hc => absurd rfl (of_decide_eq_true (h c hc)), forall_ne_of_notMem⟩

theorem takeWhile_ne_append (h : c ∉ s) (rest : Bytes) :
    (s ++ c :: rest).takeWhile (· ≠ c) = s := by
  rw [List.takeWhile_append_of_pos (forall_ne_of_notMem h), List.takeWhile_cons_of_neg (by simp),
    List.append_nil]

theorem dropWhile_ne_append (h : c ∉ s) (rest : Bytes) :
    (s ++ c :: rest).dropWhile (· ≠ c) = c :: rest := by
  rw [List.dropWhile_append_of_pos (forall_ne_of_notMem h), List.dropWhile_cons_of_neg (by simp)]

end

/-! ## Strings in a buffer -/

/-- The string a buffer holds: every byte before the first NUL. -/
def cstr (buf : Bytes) : Bytes :=
  buf.takeWhile fun b => b ≠ 0

/-- A buffer without NUL is its own string. -/
theorem cstr_of_noNul {buf : Bytes} (h : (0 : UInt8) ∉ buf) : cstr buf = buf := by
  exact takeWhile_ne_eq_self_iff.mpr h

theorem cstr_noNul (buf : Bytes) : (0 : UInt8) ∉ cstr buf := by
  intro h
  simpa using List.mem_takeWhile_imp h

theorem cstr_length_le (buf : Bytes) : (cstr buf).length ≤ buf.length :=
  (List.takeWhile_prefix _).length_le

/-- A text that is not cut short holds no NUL. -/
theorem noNul_of_cstr_length {buf : Bytes} (h : (cstr buf).length = buf.length) :
    (0 : UInt8) ∉ buf := by
  have hwhole : cstr buf = buf := (List.takeWhile_prefix _).eq_of_length h
  rw [← hwhole]
  exact cstr_noNul buf

theorem cstr_append {s : Bytes} (hs : (0 : UInt8) ∉ s) (rest : Bytes) :
    cstr (s ++ rest) = s ++ cstr rest := by
  rw [cstr, List.takeWhile_append_of_pos (forall_ne_of_notMem hs)]
  rfl

/-- What is behind the string in a buffer begins with a NUL. -/
theorem cstr_append_nul (buf rest : Bytes) :
    ∃ back : Bytes, buf ++ 0 :: rest = cstr buf ++ 0 :: back := by
  have hsplit := List.takeWhile_append_dropWhile (p := fun b : UInt8 => decide (b ≠ 0)) (l := buf)
  cases hdrop : buf.dropWhile fun b : UInt8 => decide (b ≠ 0) with
  | nil =>
    rw [hdrop, List.append_nil] at hsplit
    exact ⟨rest, by rw [cstr, hsplit]⟩
  | cons c after =>
    have hc : c = 0 := by
      have hhead := List.head?_dropWhile_not (fun b : UInt8 => decide (b ≠ 0)) buf
      rw [hdrop] at hhead
      simpa using hhead
    refine ⟨after ++ 0 :: rest, ?_⟩
    rw [hdrop, hc] at hsplit
    rw [cstr, ← List.cons_append, ← List.append_assoc, hsplit]

/-- A C string. -/
abbrev CStr := { s : Bytes // (0 : UInt8) ∉ s }

/-- `tolower` in the "C" locale. -/
def tolower (b : UInt8) : UInt8 :=
  if 65 ≤ b ∧ b ≤ 90 then b + 32 else b

theorem length_of_map_tolower {s t : Bytes} (h : s.map tolower = t) : s.length = t.length := by
  rw [← h, List.length_map]

/-- `isspace` in the "C" locale: the space and the bytes from tab to carriage
return. -/
def isspace (b : UInt8) : Bool :=
  b == 32 || (9 ≤ b && b ≤ 13)

/-- `strncasecmp(s, lit, strlen(lit)) == 0`. -/
def hasPrefixNoCase (s lit : Bytes) : Bool :=
  (s.take lit.length).map tolower == lit.map tolower

/-- `strncmp(s, lit, strlen(lit)) == 0`. -/
def hasPrefix (s lit : Bytes) : Bool :=
  s.take lit.length == lit

theorem hasPrefixNoCase_cons (b c : UInt8) (s lit : Bytes) :
    hasPrefixNoCase (b :: s) (c :: lit) = (tolower b == tolower c && hasPrefixNoCase s lit) := by
  rw [hasPrefixNoCase, hasPrefixNoCase, List.length_cons, List.take_succ_cons, List.map_cons,
    List.map_cons, List.cons_beq_cons]

theorem hasPrefixNoCase_nil (c : UInt8) (lit : Bytes) :
    hasPrefixNoCase [] (c :: lit) = false := rfl

/-- Only letters are changed by `tolower`, and they stay letters. -/
theorem tolower_eq_iff {b c : UInt8} (hc : c < 65) : tolower b = c ↔ b = c := by
  unfold tolower
  split_ifs with hb
  · have hlow : 97 ≤ (b + 32).toNat := by
      have h1 := UInt8.le_iff_toNat_le.1 hb.1
      have h2 := UInt8.le_iff_toNat_le.1 hb.2
      rw [UInt8.toNat_add]
      simp at h1 h2 ⊢
      omega
    have hclow : c.toNat < 65 := UInt8.lt_iff_toNat_lt.1 hc
    constructor
    · intro h
      rw [h] at hlow
      omega
    · intro h
      have h1 := UInt8.le_iff_toNat_le.1 hb.1
      rw [h] at h1
      simp at h1
      omega
  · exact Iff.rfl

theorem map_tolower_eq_iff (s : Bytes) {lit : Bytes} (hlit : ∀ c ∈ lit, c < 65) :
    s.map tolower = lit.map tolower ↔ s = lit := by
  induction s generalizing lit with
  | nil => cases lit <;> simp
  | cons b s ih =>
    cases lit with
    | nil => simp
    | cons c lit =>
      have hc : tolower c = c := (tolower_eq_iff (hlit c (by simp))).2 rfl
      rw [List.map_cons, List.map_cons, List.cons.injEq, List.cons.injEq, hc,
        tolower_eq_iff (hlit c (by simp)), ih (fun a ha => hlit a (by simp [ha]))]

/-- On texts without letters the two prefix tests agree. -/
theorem hasPrefixNoCase_eq (s : Bytes) {lit : Bytes} (hlit : ∀ c ∈ lit, c < 65) :
    hasPrefixNoCase s lit = hasPrefix s lit := by
  rw [Bool.eq_iff_iff, hasPrefixNoCase, hasPrefix, beq_iff_eq, beq_iff_eq]
  exact map_tolower_eq_iff _ hlit

/-- A check of every byte. -/
theorem forall_mem_of_all {P : UInt8 → Prop} [DecidablePred P] {s : Bytes}
    (h : (s.all fun b => decide (P b)) = true) : ∀ b ∈ s, P b := by
  intro b hb
  exact of_decide_eq_true (List.all_eq_true.mp h b hb)

/-- `strchr`: the suffix from the first `c` on. -/
def strchr (s : Bytes) (c : UInt8) : Option Bytes :=
  s.tails.find? fun t => t.head? == some c

/-- There is such a suffix where `c` is in `s`. -/
theorem strchr_isSome {s : Bytes} {c : UInt8} : (strchr s c).isSome = true ↔ c ∈ s := by
  rw [strchr, List.find?_isSome]
  constructor
  · rintro ⟨t, ht, hhead⟩
    exact ((List.mem_tails _ _).mp ht).subset (List.mem_of_mem_head? (by simpa using hhead))
  · intro hmem
    obtain ⟨before, after, rfl⟩ := List.append_of_mem hmem
    exact ⟨c :: after, (List.mem_tails _ _).mpr (List.suffix_append _ _), by simp⟩

/-- A byte of `lit` that has no case is in every text that starts with `lit`. -/
theorem mem_of_hasPrefixNoCase {s lit : Bytes} {c : UInt8} (hc : c < 65) (hlit : c ∈ lit)
    (h : hasPrefixNoCase s lit = true) : c ∈ s := by
  rw [hasPrefixNoCase, beq_iff_eq] at h
  have hlower : tolower c = c := (tolower_eq_iff hc).mpr rfl
  have hmem : c ∈ (s.take lit.length).map tolower := by
    rw [h, ← hlower]
    exact List.mem_map_of_mem hlit
  obtain ⟨b, hb, hbc⟩ := List.mem_map.mp hmem
  rw [← (tolower_eq_iff hc).mp hbc]
  exact List.mem_of_mem_take hb

/-- `strstr`: the first suffix that starts with `needle`. -/
def strstr (s needle : Bytes) : Option Bytes :=
  s.tails.find? fun t => hasPrefix t needle

theorem hasPrefix_iff {s lit : Bytes} : hasPrefix s lit = true ↔ lit <+: s := by
  rw [hasPrefix, beq_iff_eq, List.prefix_iff_eq_take, eq_comm]

/-- There is a match where `needle` stands in `s`. -/
theorem strstr_isSome {s needle : Bytes} : (strstr s needle).isSome = true ↔ needle <:+: s := by
  rw [strstr, List.find?_isSome, List.infix_iff_prefix_suffix]
  constructor
  · rintro ⟨t, ht, hprefix⟩
    exact ⟨t, hasPrefix_iff.mp hprefix, (List.mem_tails t s).mp ht⟩
  · rintro ⟨t, hprefix, hsuffix⟩
    exact ⟨t, (List.mem_tails t s).mpr hsuffix, hasPrefix_iff.mpr hprefix⟩

/-- A part of a split string stands in it. -/
theorem infix_of_mem_splitOn {s x : Bytes} {sep : UInt8} (h : x ∈ s.splitOn sep) : x <:+: s := by
  suffices hall : ∀ x ∈ s.splitOn sep, x <:+: s ∧ (x ∈ (s.splitOn sep).head? → x <+: s) from
    (hall x h).1
  clear h x
  induction s with
  | nil =>
    intro x hx
    rw [List.splitOn_nil, List.mem_singleton] at hx
    subst hx
    exact ⟨List.infix_refl _, fun _ => List.prefix_refl _⟩
  | cons c s ih =>
    obtain ⟨part, parts, hparts⟩ := List.exists_cons_of_ne_nil (List.splitOn_ne_nil sep s)
    rw [hparts] at ih
    have hrest : ∀ x ∈ parts, x <:+: c :: s := fun x hx =>
      (ih x (List.mem_cons_of_mem _ hx)).1.trans (List.suffix_cons c s).isInfix
    have hpart : part <+: s := (ih part List.mem_cons_self).2 rfl
    intro x hx
    rw [List.splitOn_cons_eq_if_modifyHead, hparts] at hx ⊢
    split at hx
    · rename_i hsep
      rw [if_pos hsep]
      rcases List.mem_cons.mp hx with rfl | hx
      · exact ⟨List.nil_infix, fun _ => List.nil_prefix⟩
      · refine ⟨?_, fun hhead => ?_⟩
        · rcases List.mem_cons.mp hx with rfl | hx
          · exact hpart.isInfix.trans (List.suffix_cons c s).isInfix
          · exact hrest x hx
        · obtain rfl : [] = x := Option.some.inj hhead
          exact List.nil_prefix
    · rename_i hsep
      rw [if_neg hsep]
      have hhead : c :: part <+: c :: s := (List.cons_prefix_cons).mpr ⟨rfl, hpart⟩
      rcases List.mem_cons.mp hx with rfl | hx
      · exact ⟨hhead.isInfix, fun _ => hhead⟩
      · refine ⟨hrest x hx, fun hx' => ?_⟩
        obtain rfl : c :: part = x := Option.some.inj hx'
        exact hhead

/-- The first part of a split string ends before the first separator, and the others are split
from what stands behind it. -/
theorem splitOn_eq (s : Bytes) (sep : UInt8) :
    s.splitOn sep = s.takeWhile (· ≠ sep) ::
      if sep ∈ s then ((s.dropWhile (· ≠ sep)).drop 1).splitOn sep else [] := by
  induction s with
  | nil => rw [List.splitOn_nil, if_neg List.not_mem_nil, List.takeWhile_nil]
  | cons c s ih =>
    rw [List.splitOn_cons_eq_if_modifyHead]
    by_cases hc : c = sep
    · subst hc
      rw [beq_self_eq_true, if_pos rfl, if_pos List.mem_cons_self,
        List.takeWhile_cons_of_neg (by simp), List.dropWhile_cons_of_neg (by simp)]
      rfl
    · have hmem : sep ∈ c :: s ↔ sep ∈ s := by simp [Ne.symm hc]
      rw [if_neg (by simpa using hc), List.takeWhile_cons_of_pos (by simpa using hc),
        List.dropWhile_cons_of_pos (by simpa using hc), ih, List.modifyHead_cons]
      simp only [hmem]

/-- `strcasestr`: the first suffix that starts with `needle`, ignoring case. -/
def strcasestr (s needle : Bytes) : Option Bytes :=
  s.tails.find? fun t => hasPrefixNoCase t needle

/-- `"%d"` of a signed integer. -/
def formatInt (i : Int) : Bytes :=
  ascii (toString i)

/-- A decimal number is written with digits and a minus sign. -/
theorem mem_formatInt {i : Int} {b : UInt8} (h : b ∈ formatInt i) :
    b = 45 ∨ ∃ c : Char, c.isDigit ∧ b = UInt8.ofNat c.toNat := by
  have hdigits : ∀ n : Nat, b ∈ ascii (Nat.repr n) →
      ∃ c : Char, c.isDigit ∧ b = UInt8.ofNat c.toNat := by
    intro n hn
    rw [ascii, Nat.toList_repr] at hn
    obtain ⟨c, hc, rfl⟩ := List.mem_map.1 hn
    exact ⟨c, Nat.isDigit_of_mem_toDigits (by omega) (by omega) hc, rfl⟩
  cases i with
  | ofNat n => exact Or.inr (hdigits n h)
  | negSucc n =>
    have hsplit : formatInt (Int.negSucc n) = 45 :: ascii (Nat.repr (n + 1)) := by
      rw [formatInt, show toString (Int.negSucc n) = "-" ++ Nat.repr (n + 1) from rfl,
        ascii, ascii, String.toList_append, List.map_append]
      rfl
    rw [hsplit, List.mem_cons] at h
    rcases h with h | h
    · exact Or.inl h
    · exact Or.inr (hdigits _ h)

theorem percent_notMem_formatInt (i : Int) : PERCENT ∉ formatInt i := by
  intro h
  rcases mem_formatInt h with h | ⟨c, hdigit, hc⟩
  · exact absurd h (by decide)
  · have hbounds : 48 ≤ c.toNat ∧ c.toNat ≤ 57 := by
      rw [Char.isDigit, Bool.and_eq_true, decide_eq_true_eq, decide_eq_true_eq] at hdigit
      exact ⟨UInt32.le_iff_toNat_le.1 hdigit.1, UInt32.le_iff_toNat_le.1 hdigit.2⟩
    have hval := congrArg UInt8.toNat hc
    rw [UInt8.toNat_ofNat', Nat.mod_eq_of_lt (by omega)] at hval
    have hpercent : PERCENT.toNat = 37 := rfl
    omega

/-- The value of a digit, where letters go on from ten. -/
def digitValue (c : UInt8) : Option Nat :=
  if 48 ≤ c ∧ c ≤ 57 then some (c.toNat - 48)
  else if 97 ≤ c ∧ c ≤ 122 then some (c.toNat - 87)
  else if 65 ≤ c ∧ c ≤ 90 then some (c.toNat - 55)
  else none

/-- The number at the front of a text. -/
def leadingNumber (base : Nat) (s : Bytes) : Nat :=
  ((s.map digitValue).takeWhile fun d => d.any (· < base)).foldl (fun n d => n * base + d.getD 0) 0

/-- A number with its prefix: `0x` for base 16 in front of a digit, and `0` for base 8. -/
def prefixedNumber (s : Bytes) : Nat :=
  match s with
  | zero :: x :: rest =>
    if zero = 48 then
      if (x = 120 ∨ x = 88) ∧ (rest.head?.bind digitValue).any (· < 16) then
        leadingNumber 16 rest
      else leadingNumber 8 (x :: rest)
    else leadingNumber 10 s
  | _ => leadingNumber 10 s

/-- `strtol(s, NULL, 0)`, with a `long` of 64 bits. -/
def strtol (s : Bytes) : Int :=
  let s := s.dropWhile isspace
  if s.head? = some 45 then -(min (prefixedNumber s.tail) 9223372036854775808 : Nat)
  else
    let s := if s.head? = some 43 then s.tail else s
    (min (prefixedNumber s) 9223372036854775807 : Nat)

/-- The signed 32-bit reading of an unsigned long, which is what `"%i"` prints
of it. -/
def truncInt (n : Nat) : Int :=
  Int.bmod n 4294967296

theorem truncInt_eq_iff {n : Nat} : truncInt n = n ↔ n < 2147483648 := by
  unfold truncInt
  constructor
  · intro heq
    have hlt := @Int.bmod_lt (n : Int) 4294967296 (by decide)
    omega
  · intro hlt
    exact Int.bmod_eq_of_le (by omega) (by omega)

/-- A formatted print that gets no arguments after the format.  Literal text up
to the first percent sign is copied; `expand` is free to do anything with the
rest, because the C standard does not say what a conversion without its
argument prints. -/
structure Vasprintf where
  /-- The text that is printed. -/
  expand : Bytes → Bytes
  /-- Text before the first conversion is copied. -/
  literal : ∀ text rest, PERCENT ∉ text → expand (text ++ rest) = text ++ expand rest
  /-- The empty format prints nothing. -/
  empty : expand [] = []

/-- The print that copies every format, conversions included. -/
def Vasprintf.verbatim : Vasprintf where
  expand := id
  literal := fun _ _ _ => rfl
  empty := rfl

namespace Vasprintf

/-- A format without a conversion is printed as it is. -/
theorem expand_of_noPercent (p : Vasprintf) {s : Bytes} (h : PERCENT ∉ s) : p.expand s = s := by
  have hlit := p.literal s [] h
  rwa [List.append_nil, p.empty, List.append_nil] at hlit

/-- Every percent sign starts a conversion, and that of two of them prints one. -/
def Interprets (p : Vasprintf) : Prop :=
  ∀ rest, p.expand (PERCENT :: PERCENT :: rest) = PERCENT :: p.expand rest

/-- The text with a percent sign for every doubled one and without the other conversions. -/
def dropConversions : Bytes → Bytes
  | [] => []
  | c :: rest =>
    if c = PERCENT then
      match rest with
      | [] => []
      | d :: rest => if d = PERCENT then PERCENT :: dropConversions rest else dropConversions rest
    else c :: dropConversions rest

theorem dropConversions_cons {c : UInt8} (hc : c ≠ PERCENT) (rest : Bytes) :
    dropConversions (c :: rest) = c :: dropConversions rest := by
  rw [dropConversions.eq_def]
  exact if_neg hc

/-- A print that finds nothing to print where an argument is missing. -/
def dropping : Vasprintf where
  expand := dropConversions
  literal := by
    intro text rest h
    induction text with
    | nil => rfl
    | cons c text ih =>
      have hc : c ≠ PERCENT := fun hc => h (hc ▸ List.mem_cons_self)
      rw [List.cons_append, dropConversions_cons hc,
        ih fun hmem => h (List.mem_cons_of_mem c hmem), List.cons_append]
  empty := rfl

theorem dropping_interprets : dropping.Interprets := fun _ => rfl

theorem count_dropConversions (s : Bytes) :
    (dropConversions s).count PERCENT ≤ s.count PERCENT ∧
      (PERCENT ∈ s → (dropConversions s).count PERCENT < s.count PERCENT) := by
  fun_induction dropConversions s with
  | case1 => exact ⟨Nat.le_refl _, nofun⟩
  | case2 => decide
  | case3 rest ih =>
    rw [List.count_cons_self, List.count_cons_self, List.count_cons_self]
    omega
  | case4 d rest hd ih =>
    rw [List.count_cons_self, List.count_cons_of_ne hd]
    omega
  | case5 c rest hc ih =>
    rw [List.count_cons_of_ne hc, List.count_cons_of_ne hc, List.mem_cons]
    refine ⟨ih.1, fun h => ih.2 ?_⟩
    rcases h with h | h
    · exact absurd h.symm hc
    · exact h

/-- Which formats keep their percent signs in every print. -/
theorem interprets_iff {s : Bytes} :
    (∀ p : Vasprintf, p.Interprets → (p.expand s).count PERCENT = s.count PERCENT) ↔
      PERCENT ∉ s := by
  constructor
  · intro h hmem
    have hcount := h dropping dropping_interprets
    have hlt := (count_dropConversions s).2 hmem
    exact absurd hcount (Nat.ne_of_lt hlt)
  · intro h p _
    rw [p.expand_of_noPercent h]

end Vasprintf

end CString
