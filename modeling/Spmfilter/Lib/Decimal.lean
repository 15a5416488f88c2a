import Mathlib.Algebra.Group.Nat.Defs
import Spmfilter.Lib.CString

/-!
# Decimal numbers

A number written down in decimal, and read by `strtol` again.  Nothing here names a program.

* `decimal_eq` takes the last digit off the end, and the lemmas about `decimal` follow it.
* `leadingNumber_decimal` reads the digits, and `strtol_decimal` the number with the prefix
  and the range of `strtol`.
-/

namespace CString

/-- A number without leading zeros. -/
def decimal (n : Nat) : Bytes := ascii (Nat.repr n)

/-- The digit of a number below ten. -/
def digit (d : Nat) : UInt8 := UInt8.ofNat (48 + d)

theorem ofNat_digitChar {d : Nat} (h : d < 10) : UInt8.ofNat (Nat.digitChar d).toNat = digit d := by
  have hall : ∀ d < 10, UInt8.ofNat (Nat.digitChar d).toNat = digit d := by decide
  exact hall d h

/-- The last digit comes off the end. -/
theorem decimal_eq (n : Nat) :
    decimal n = (if n < 10 then [] else decimal (n / 10)) ++ [digit (n % 10)] := by
  have hlast : n % 10 < 10 := Nat.mod_lt n (by decide)
  unfold decimal ascii
  rw [Nat.toList_repr, Nat.toList_repr, Nat.toDigits_eq_if (by decide)]
  split
  · rename_i hlt
    rw [List.map_singleton, ofNat_digitChar hlt, Nat.mod_eq_of_lt hlt, List.nil_append]
  · rw [List.map_append, List.map_singleton, ofNat_digitChar hlast]

theorem toNat_digit {d : Nat} (h : d < 10) : (digit d).toNat = 48 + d := by
  rw [digit, UInt8.toNat_ofNat']
  omega

theorem digitValue_digit {d : Nat} (h : d < 10) : digitValue (digit d) = some d := by
  have hall : ∀ d < 10, digitValue (digit d) = some d := by decide
  exact hall d h

/-- A decimal number is made of digits. -/
theorem mem_decimal {n : Nat} {b : UInt8} (h : b ∈ decimal n) : ∃ d < 10, b = digit d := by
  induction n using Nat.strongRecOn with
  | ind n ih =>
    rw [decimal_eq, List.mem_append, List.mem_singleton] at h
    rcases h with h | h
    · split at h
      · cases h
      · exact ih (n / 10) (by omega) h
    · exact ⟨n % 10, Nat.mod_lt n (by decide), h⟩

theorem decimal_ne_nil (n : Nat) : decimal n ≠ [] := by
  rw [decimal_eq]
  exact List.append_ne_nil_of_right_ne_nil _ (List.cons_ne_nil _ _)

/-- Only zero begins with a zero. -/
theorem head_decimal {n : Nat} (hpos : 0 < n) : (decimal n).head? ≠ some (digit 0) := by
  induction n using Nat.strongRecOn with
  | ind n ih =>
    rw [decimal_eq]
    split
    · rename_i hlt
      rw [List.nil_append, List.head?_cons, Nat.mod_eq_of_lt hlt]
      intro hzero
      have hnat := congrArg UInt8.toNat (Option.some.inj hzero)
      rw [toNat_digit hlt, toNat_digit (by decide)] at hnat
      omega
    · rename_i hge
      rw [List.head?_append_of_ne_nil _ (decimal_ne_nil _)]
      exact ih (n / 10) (by omega) (by omega)

theorem length_decimal_le {n k : Nat} (hk : 0 < k) (h : n < 10 ^ k) : (decimal n).length ≤ k := by
  induction k generalizing n with
  | zero => omega
  | succ k ih =>
    rw [decimal_eq, List.length_append, List.length_singleton]
    split
    · simp
    · have hpos : 0 < k := by
        rcases Nat.eq_zero_or_pos k with rfl | hpos
        · rw [Nat.zero_add, Nat.pow_one] at h
          omega
        · exact hpos
      have hlen := ih hpos (n := n / 10) (by rw [Nat.pow_succ] at h; omega)
      omega

/-! ## Reading it back -/

/-- Another digit. -/
theorem leadingNumber_digit {s : Bytes} (hs : ∀ b ∈ s, ∃ d < 10, b = digit d) {d : Nat}
    (hd : d < 10) : leadingNumber 10 (s ++ [digit d]) = leadingNumber 10 s * 10 + d := by
  have hall : ∀ t : Bytes, (∀ b ∈ t, ∃ d < 10, b = digit d) →
      (t.map digitValue).takeWhile (fun d => d.any (· < 10)) = t.map digitValue := by
    intro t ht
    refine List.takeWhile_eq_self_iff.mpr fun v hv => ?_
    obtain ⟨b, hb, rfl⟩ := List.mem_map.mp hv
    obtain ⟨e, he, rfl⟩ := ht b hb
    rw [digitValue_digit he]
    exact decide_eq_true he
  have hboth : ∀ b ∈ s ++ [digit d], ∃ d < 10, b = digit d := by
    intro b hb
    rcases List.mem_append.mp hb with hb | hb
    · exact hs b hb
    · exact ⟨d, hd, List.mem_singleton.mp hb⟩
  rw [leadingNumber, hall _ hboth, leadingNumber, hall _ hs, List.map_append, List.foldl_append,
    List.map_singleton, digitValue_digit hd]
  rfl

theorem leadingNumber_decimal (n : Nat) : leadingNumber 10 (decimal n) = n := by
  induction n using Nat.strongRecOn with
  | ind n ih =>
    have hlast : n % 10 < 10 := Nat.mod_lt n (by decide)
    rw [decimal_eq]
    split
    · rw [leadingNumber_digit (List.forall_mem_nil _) hlast]
      show 0 * 10 + n % 10 = n
      omega
    · rw [leadingNumber_digit (fun b => mem_decimal) hlast, ih (n / 10) (by omega)]
      omega

/-- No prefix is seen in front of it. -/
theorem prefixedNumber_decimal (n : Nat) : prefixedNumber (decimal n) = n := by
  rcases Nat.eq_zero_or_pos n with rfl | hpos
  · decide
  · have hhead := head_decimal hpos
    have hread := leadingNumber_decimal n
    generalize decimal n = s at hhead hread ⊢
    match s with
    | [] => exact hread
    | [_] => exact hread
    | zero :: x :: rest =>
      have hzero : zero ≠ 48 := fun h => hhead (congrArg some h)
      rw [prefixedNumber, if_neg hzero]
      exact hread

/-- `strtol` reads the numbers that a `long` can hold. -/
theorem strtol_decimal {n : Nat} (h : n < 9223372036854775808) : strtol (decimal n) = n := by
  have hread := prefixedNumber_decimal n
  obtain ⟨c, t, hs⟩ := List.exists_cons_of_ne_nil (decimal_ne_nil n)
  obtain ⟨d, hd, hc⟩ := mem_decimal (n := n) (b := c) (hs ▸ List.mem_cons_self)
  have hplain : ∀ d < 10, isspace (digit d) = false ∧ digit d ≠ 45 ∧ digit d ≠ 43 := by decide
  obtain ⟨hspace, hminus, hplus⟩ := hplain d hd
  rw [← hc] at hspace hminus hplus
  rw [hs] at hread ⊢
  rw [strtol, List.dropWhile_cons_of_neg (by rw [hspace]; decide), List.head?_cons,
    if_neg fun heq => hminus (Option.some.inj heq), if_neg fun heq => hplus (Option.some.inj heq)]
  show ((min (prefixedNumber (c :: t)) 9223372036854775807 : Nat) : Int) = n
  rw [hread, Nat.min_eq_left (by omega)]

end CString
