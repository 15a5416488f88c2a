import Spmfilter.Dict
import Spmfilter.Lib.Strtoul

/-!
# Numbers in a dictionary

`smf_dict_get_ulong`: it looks at where `strtoul` stopped, and at neither the sign nor the
size of the number.

* `smfDictGetUlong_eq` tells the numerals from all other texts.
* `getUlong_meets_iff` says for which dictionaries the call keeps the header's promise.
-/

namespace Spmfilter

open CString

/-- `smf_dict_get_ulong`: the value returned, and what is stored in `success`. -/
def smfDictGetUlong (dict : Dict) (key : Bytes) : Nat × Int :=
  match smfDictGet key dict with
  | none => (ULONG_MAX, 0)
  | some value =>
    let (lval, endptr) := strtoul value
    -- `endptr` points into `value`, so it is `value` where the whole text is left.
    if endptr = value ∨ endptr ≠ [] then (ULONG_MAX, 0) else (lval, 1)

section
variable {dict : Dict} {key value sign : Bytes} {n : Nat}

/-- A numeral counts as converted, whatever its sign and its size. -/
theorem smfDictGetUlong_eq (hget : smfDictGet key dict = some value)
    (h : Numeral value sign n) :
    smfDictGetUlong dict key = (ulongValue (sign = [MINUS]) n, 1) := by
  obtain ⟨hread, hne⟩ := strtoul_numeral h
  simp only [smfDictGetUlong, hget, hread]
  rw [if_neg]
  rintro (hnil | hend)
  · exact hne hnil.symm
  · exact hend rfl

/-- Nothing else does. -/
theorem smfDictGetUlong_fails
    (h : ∀ value, smfDictGet key dict = some value → ∀ sign n, ¬ Numeral value sign n) :
    smfDictGetUlong dict key = (ULONG_MAX, 0) := by
  unfold smfDictGetUlong
  cases hget : smfDictGet key dict with
  | none => rfl
  | some value =>
    show (if (strtoul value).2 = value ∨ (strtoul value).2 ≠ [] then (ULONG_MAX, (0 : Int))
      else ((strtoul value).1, 1)) = _
    refine if_pos ?_
    by_contra hno
    rw [not_or, not_not] at hno
    obtain ⟨sign, n, hnum⟩ := numeral_of_strtoul hno.1 hno.2
    exact h value hget sign n hnum

/-! ## What the header promises -/

/-- `key` is bound to the text of an `unsigned long`. -/
def HoldsUlong (dict : Dict) (key : Bytes) (n : Nat) : Prop :=
  ∃ value sign, smfDictGet key dict = some value ∧ Numeral value sign n ∧ sign ≠ [MINUS] ∧
    n ≤ ULONG_MAX

/-- `key` is bound to a negative or to a too large number. -/
def HoldsOther (dict : Dict) (key : Bytes) : Prop :=
  ∃ value sign n, smfDictGet key dict = some value ∧ Numeral value sign n ∧
    (sign = [MINUS] ∨ ULONG_MAX < n)

/-- The number that is held comes with success 1, and without one there is success 0 and
`(unsigned long)-1`. -/
def MeetsUlong (dict : Dict) (key : Bytes) (result : Nat × Int) : Prop :=
  (result.2 = 1 ↔ ∃ n, HoldsUlong dict key n) ∧
    (∀ n, HoldsUlong dict key n → result.1 = n) ∧
    ((¬ ∃ n, HoldsUlong dict key n) → result = (ULONG_MAX, 0))

theorem not_holdsUlong (h : HoldsOther dict key) : ¬ ∃ n, HoldsUlong dict key n := by
  rintro ⟨m, value', sign', hget', hnum', hsign', hsmall⟩
  obtain ⟨value, sign, n, hget, hnum, hother⟩ := h
  obtain rfl := Option.some.inj (hget.symm.trans hget')
  obtain ⟨rfl, rfl⟩ := hnum.unique hnum'
  rcases hother with hminus | hlarge
  · exact hsign' hminus
  · omega

/-- The header's promise is kept for every binding but a negative or too large number. -/
theorem getUlong_meets_iff :
    MeetsUlong dict key (smfDictGetUlong dict key) ↔ ¬ HoldsOther dict key := by
  constructor
  · rintro ⟨-, -, hfail⟩ hother
    have hzero := hfail (not_holdsUlong hother)
    obtain ⟨value, sign, n, hget, hnum, -⟩ := hother
    rw [smfDictGetUlong_eq hget hnum] at hzero
    exact absurd (Prod.mk.inj hzero).2 (by decide)
  · intro hother
    by_cases hheld : ∃ n, HoldsUlong dict key n
    · obtain ⟨n, hn⟩ := hheld
      obtain ⟨value, sign, hget, hnum, hsign, hsmall⟩ := id hn
      have hvalue : ulongValue (sign = [MINUS]) n = n := by
        rw [ulongValue, if_neg (by omega), decide_eq_false hsign]
        rfl
      rw [smfDictGetUlong_eq hget hnum, hvalue]
      refine ⟨iff_of_true rfl ⟨n, hn⟩, ?_, fun hno => absurd ⟨n, hn⟩ hno⟩
      rintro m ⟨value', sign', hget', hnum', -, -⟩
      obtain rfl := Option.some.inj (hget.symm.trans hget')
      exact (hnum.unique hnum').2
    · have hfail : smfDictGetUlong dict key = (ULONG_MAX, 0) := by
        refine smfDictGetUlong_fails fun value hget sign n hnum => ?_
        by_cases hsign : sign = [MINUS]
        · exact hother ⟨value, sign, n, hget, hnum, Or.inl hsign⟩
        · by_cases hsmall : n ≤ ULONG_MAX
          · exact hheld ⟨n, value, sign, hget, hnum, hsign, hsmall⟩
          · exact hother ⟨value, sign, n, hget, hnum, Or.inr (by omega)⟩
      rw [hfail]
      exact ⟨iff_of_false (by decide) hheld, fun n hn => absurd ⟨n, hn⟩ hheld, fun _ => rfl⟩

end

/-- A dictionary with `-1` under a key, which is converted. -/
theorem getUlong_minus_one :
    ∃ dict, smfDictSet (ascii "uid") (ascii "-1") smfDictNew = some dict ∧
      smfDictGetUlong dict (ascii "uid") = (18446744073709551615, 1) ∧
      ¬ MeetsUlong dict (ascii "uid") (smfDictGetUlong dict (ascii "uid")) := by
  obtain ⟨dict, hset⟩ : ∃ dict, smfDictSet (ascii "uid") (ascii "-1") smfDictNew = some dict :=
    represents_new.set_eq_some (show smfDictNew.n < DICT_LIMIT by decide)
  have hget : smfDictGet (ascii "uid") dict = some (ascii "-1") := by
    rw [(represents_set represents_new hset).1.get_eq, Function.update_self]
  have hnum : Numeral (ascii "-1") [MINUS] 1 :=
    ⟨[], ascii "1", rfl, List.forall_mem_nil _, Or.inr (Or.inr rfl), List.cons_ne_nil _ _,
      forall_mem_of_all (by decide), by decide⟩
  have hread : smfDictGetUlong dict (ascii "uid") = (18446744073709551615, 1) := by
    rw [smfDictGetUlong_eq hget hnum]
    rfl
  refine ⟨dict, hset, hread, fun hmeets => ?_⟩
  have hzero := hmeets.2.2 (not_holdsUlong ⟨_, _, 1, hget, hnum, Or.inl rfl⟩)
  rw [hread] at hzero
  exact absurd (Prod.mk.inj hzero).2 (by decide)

end Spmfilter
