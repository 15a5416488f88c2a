import Spmfilter.Core
import Spmfilter.Lib.Search

/-!
# Email addresses

`smf_email_address.c`, over the address parser of libcmime.  Two functions look at the
email of an address, which may be in angle brackets: one asks whether it is empty, and the
other brings it down to the plain email.

* `isEmptyLoop_iff` and `strstrip_eq_nil_iff` say what either scan comes to.
* `isEmpty_agrees_iff` compares the two.
-/

namespace Spmfilter

open CString

def LANGLE : UInt8 := 60
def RANGLE : UInt8 := 62

/-- The fields of `SMFEmailAddress_T` that are looked at. -/
structure EmailAddress where
  name : Option Bytes
  email : Bytes
deriving DecidableEq

/-- The loop of `smf_email_address_is_empty`. -/
def isEmptyLoop : Bytes → Int
  | [] => 1
  | c :: p => if c = RANGLE then 1 else if isspace c then isEmptyLoop p else 0

/-- `smf_email_address_is_empty`. -/
def smfEmailAddressIsEmpty (ea : EmailAddress) : Int :=
  match strchr ea.email 60 with
  | some p => isEmptyLoop p.tail
  | none => isEmptyLoop ea.email

/-- The text in front of the first `>`. -/
def cutBracket (email : Bytes) : Bytes :=
  match strchr email 62 with
  | some rest => email.take (email.length - rest.length)
  | none => email

/-- `smf_email_address_get_simplified`, with `parse` for `cmime_address_parse_string`. -/
def smfEmailAddressGetSimplified (parse : Bytes → EmailAddress) (ea : EmailAddress) :
    EmailAddress :=
  let result := parse ea.email
  let email :=
    if result.email.head? = some LANGLE then cutBracket result.email.tail else result.email
  { result with email := smfCoreStrstrip email }

/-- The email of a parsed string is its part from the first `<` on, or all of it. -/
def ParsesEmail (parse : Bytes → EmailAddress) : Prop :=
  ∀ s, (parse s).email = (strchr s 60).getD s

/-! ## What the scans come to -/

theorem isEmptyLoop_iff (p : Bytes) :
    isEmptyLoop p = 1 ↔ ∀ c ∈ p.takeWhile (· ≠ RANGLE), isspace c = true := by
  induction p with
  | nil => exact iff_of_true rfl (List.forall_mem_nil _)
  | cons c p ih =>
    rw [isEmptyLoop]
    split
    · rename_i hclose
      rw [List.takeWhile_cons_of_neg (by simpa using hclose)]
      exact iff_of_true rfl (List.forall_mem_nil _)
    · rename_i hclose
      rw [List.takeWhile_cons_of_pos (by simpa using hclose), List.forall_mem_cons]
      split
      · rename_i hspace
        rw [ih]
        exact (and_iff_right hspace).symm
      · rename_i hspace
        exact iff_of_false (by decide) fun h => hspace h.1

theorem strstrip_eq_nil_iff (s : Bytes) :
    smfCoreStrstrip s = [] ↔ ∀ c ∈ s, isspace c = true := by
  obtain ⟨before, after, hs, hbefore, hafter⟩ := smfCoreStrstrip_sandwich s
  constructor
  · intro hnil c hc
    rw [hs, hnil, List.append_nil] at hc
    exact (List.mem_append.mp hc).elim (hbefore c) (hafter c)
  · intro hall
    rw [smfCoreStrstrip, if_pos (List.dropWhile_eq_nil_iff.mpr hall)]

theorem cutBracket_eq (email : Bytes) : cutBracket email = email.takeWhile (· ≠ RANGLE) := by
  rw [cutBracket]
  cases hclose : strchr email 62 with
  | none =>
    have hno : RANGLE ∉ email := strchr_eq_none.mp hclose
    exact (takeWhile_ne_eq_self_iff.mpr hno).symm
  | some t =>
    obtain ⟨front, rest, rfl, rfl, hno⟩ := strchr_eq_some.mp hclose
    have hfront : RANGLE ∉ front := hno
    show (front ++ RANGLE :: rest).take ((front ++ RANGLE :: rest).length -
      (RANGLE :: rest).length) = (front ++ RANGLE :: rest).takeWhile (· ≠ RANGLE)
    rw [takeWhile_ne_append hfront, List.length_append, Nat.add_sub_cancel, List.take_left]

section
variable {parse : Bytes → EmailAddress} {ea : EmailAddress}

/-! ## The comparison -/

/-- Both functions say the same of `ea`. -/
def EmptyAgrees (parse : Bytes → EmailAddress) (ea : EmailAddress) : Prop :=
  smfEmailAddressIsEmpty ea = 1 ↔ (smfEmailAddressGetSimplified parse ea).email = []

/-- A `>` with nothing but white space in front of it, and no `<` anywhere. -/
def StrayBracket (email : Bytes) : Prop :=
  LANGLE ∉ email ∧ RANGLE ∈ email ∧ ∀ c ∈ email.takeWhile (· ≠ RANGLE), isspace c = true

/-- With an opening bracket both look at the same text. -/
theorem isEmpty_agrees_angle (hparse : ParsesEmail parse) (h : LANGLE ∈ ea.email) :
    EmptyAgrees parse ea := by
  obtain ⟨t, hopen⟩ := Option.isSome_iff_exists.mp (strchr_isSome.mpr h)
  obtain ⟨front, rest, -, rfl, -⟩ := strchr_eq_some.mp hopen
  have hopen : strchr ea.email 60 = some (LANGLE :: rest) := hopen
  have hemail : (parse ea.email).email = LANGLE :: rest := by
    rw [hparse, hopen]
    rfl
  rw [EmptyAgrees, smfEmailAddressIsEmpty, hopen, smfEmailAddressGetSimplified]
  simp only [hemail, List.head?_cons, if_true, List.tail_cons]
  rw [isEmptyLoop_iff, strstrip_eq_nil_iff, cutBracket_eq]

/-- Without one, only the first scan stops at a closing bracket. -/
theorem isEmpty_agrees_plain (hparse : ParsesEmail parse) (h : LANGLE ∉ ea.email) :
    EmptyAgrees parse ea ↔
      ((∀ c ∈ ea.email.takeWhile (· ≠ RANGLE), isspace c = true) ↔
        ∀ c ∈ ea.email, isspace c = true) := by
  have hopen : strchr ea.email 60 = none := strchr_eq_none.mpr h
  have hemail : (parse ea.email).email = ea.email := by
    rw [hparse, hopen]
    rfl
  have hhead : ea.email.head? ≠ some LANGLE := fun hhead => h (List.mem_of_mem_head? hhead)
  rw [EmptyAgrees, smfEmailAddressIsEmpty, hopen, smfEmailAddressGetSimplified]
  simp only [hemail, if_neg hhead]
  rw [isEmptyLoop_iff, strstrip_eq_nil_iff]

/-- The two agree on every address but those with a stray bracket. -/
theorem isEmpty_agrees_iff (hparse : ParsesEmail parse) :
    EmptyAgrees parse ea ↔ ¬ StrayBracket ea.email := by
  by_cases hopen : LANGLE ∈ ea.email
  · exact iff_of_true (isEmpty_agrees_angle hparse hopen) fun hstray => hstray.1 hopen
  · rw [isEmpty_agrees_plain hparse hopen]
    by_cases hclose : RANGLE ∈ ea.email
    · have hnot : ¬ ∀ c ∈ ea.email, isspace c = true := fun hall =>
        absurd (hall RANGLE hclose) (by decide)
      constructor
      · rintro hiff ⟨-, -, hfront⟩
        exact hnot (hiff.mp hfront)
      · intro hstray
        exact iff_of_false (fun hfront => hstray ⟨hopen, hclose, hfront⟩) hnot
    · have hwhole : ea.email.takeWhile (· ≠ RANGLE) = ea.email :=
        takeWhile_ne_eq_self_iff.mpr hclose
      rw [hwhole]
      exact iff_of_true Iff.rfl fun hstray => hclose hstray.2.1

/-- A parser that keeps no names. -/
def parseEmail (s : Bytes) : EmailAddress := ⟨none, (strchr s 60).getD s⟩

theorem isEmpty_agrees_sample :
    EmptyAgrees parseEmail ⟨none, ascii "Foo  <  >"⟩ ↔ ¬ StrayBracket (ascii "Foo  <  >") :=
  isEmpty_agrees_iff fun _ => rfl

/-- A single `>` is an empty address, and the simplified one is `>`. -/
theorem isEmpty_stray :
    smfEmailAddressIsEmpty ⟨none, ascii ">"⟩ = 1 ∧
      smfEmailAddressGetSimplified parseEmail ⟨none, ascii ">"⟩ = ⟨none, ascii ">"⟩ ∧
      ¬ EmptyAgrees parseEmail ⟨none, ascii ">"⟩ := by
  have hempty : smfEmailAddressIsEmpty ⟨none, ascii ">"⟩ = 1 := by decide
  have hsimple : smfEmailAddressGetSimplified parseEmail ⟨none, ascii ">"⟩ = ⟨none, ascii ">"⟩ := by
    decide
  refine ⟨hempty, hsimple, fun hagrees => ?_⟩
  have hnil := hagrees.mp hempty
  rw [hsimple] at hnil
  exact List.cons_ne_nil _ _ hnil

end

end Spmfilter
