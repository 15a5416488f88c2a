import Spmfilter.Lib.CString

/-!
# Choosing a host

`smf_lookup_sql_get_rand_host` and `smf_lookup_ldap_get_rand_host` are the same walk through
two lists.  It compares a count that begins with `1` to a position that begins with `0`, and
stops where they differ.

* `randHostLoop` is the walk, and `getRandHost` the function with the result of `rand()`.
* `getRandHost_cons` says which host it is, and `getRandHost_reaches_iff` which hosts there
  is a result for.
* `getRandHost_position_iff` compares it with the host at the position that is drawn.
-/

namespace Spmfilter

open CString

/-- Where the choice of a target goes wrong. -/
inductive TargetFault
  /-- `rand() % 0` -/
  | modZero
  /-- `smf_list_data` of the head NULL -/
  | nullHead
  /-- `strcasecmp` of NULL -/
  | nullString
deriving DecidableEq

section

variable {α : Type}

/-- The loop of `smf_lookup_sql_get_rand_host`; `none` is NULL. -/
def randHostLoop (random : Nat) : (count : Nat) → List α → Option α
  | _, [] => none
  | count, e :: elems =>
    if count + 1 ≠ random then some e else randHostLoop random (count + 1) elems

/-- The function on a list of hosts. -/
def getRandHost (rand : Nat) (hosts : List α) : Except TargetFault (Option α) :=
  if hosts.length = 0 then .error .modZero
  else .ok (randHostLoop (rand % hosts.length) 0 hosts)

def smfLookupSqlGetRandHost (rand : Nat) (sqlHost : List α) : Except TargetFault (Option α) :=
  getRandHost rand sqlHost

def smfLookupLdapGetRandHost (rand : Nat) (ldapHost : List α) : Except TargetFault (Option α) :=
  getRandHost rand ldapHost

/-! ## Which host it is -/

/-- The second count differs from the position when the first does not. -/
theorem randHostLoop_cons (random : Nat) (a : α) (l : List α) :
    randHostLoop random 0 (a :: l) = if random = 1 then l.head? else some a := by
  rw [randHostLoop, Nat.zero_add]
  by_cases hone : random = 1
  · rw [if_neg (not_not_intro hone.symm), if_pos hone]
    cases l with
    | nil => rfl
    | cons b l =>
      have hnext : 1 + 1 ≠ random := by omega
      rw [randHostLoop, if_pos hnext]
      rfl
  · rw [if_pos (Ne.symm hone), if_neg hone]

theorem getRandHost_cons (rand : Nat) (a : α) (l : List α) :
    getRandHost rand (a :: l) =
      .ok (if rand % (a :: l).length = 1 then l.head? else some a) := by
  rw [getRandHost, if_neg (by simp), randHostLoop_cons]

/-- The result is never NULL. -/
theorem getRandHost_isSome {hosts : List α} (hne : hosts ≠ []) (rand : Nat) :
    ∃ host ∈ hosts, getRandHost rand hosts = .ok (some host) := by
  cases hosts with
  | nil => exact absurd rfl hne
  | cons a l =>
    rw [getRandHost_cons]
    by_cases hone : rand % (a :: l).length = 1
    · cases l with
      | nil =>
        rw [List.length_singleton, Nat.mod_one] at hone
        cases hone
      | cons b l =>
        rw [if_pos hone]
        exact ⟨b, by simp, rfl⟩
    · rw [if_neg hone]
      exact ⟨a, List.mem_cons_self, rfl⟩

/-- A position below two is met, and any other gives the first host. -/
theorem getRandHost_position {hosts : List α} (hne : hosts ≠ []) (rand : Nat) :
    getRandHost rand hosts =
      .ok hosts[if rand % hosts.length < 2 then rand % hosts.length else 0]? := by
  cases hosts with
  | nil => exact absurd rfl hne
  | cons a l =>
    rw [getRandHost_cons]
    generalize rand % (a :: l).length = position
    by_cases hone : position = 1
    · subst hone
      rw [if_pos rfl, if_pos (by omega), List.getElem?_cons_succ, List.head?_eq_getElem?]
    · rw [if_neg hone]
      split
      · rename_i htwo
        obtain rfl : position = 0 := by omega
        rfl
      · rfl

/-- Only the first two hosts of the list are ever chosen. -/
theorem getRandHost_reaches_iff {hosts : List α} (hne : hosts ≠ []) (host : α) :
    (∃ rand, getRandHost rand hosts = .ok (some host)) ↔ host ∈ hosts.take 2 := by
  have htake : host ∈ hosts.take 2 ↔ ∃ i < 2, hosts[i]? = some host := by
    rw [List.mem_iff_getElem?]
    refine exists_congr fun i => ?_
    rw [List.getElem?_take]
    split
    · rename_i hlt
      exact (and_iff_right hlt).symm
    · rename_i hge
      exact iff_of_false (fun h => by cases h) fun h => hge h.1
  rw [htake]
  constructor
  · rintro ⟨rand, hrand⟩
    rw [getRandHost_position hne, Except.ok.injEq] at hrand
    refine ⟨_, ?_, hrand⟩
    split
    · assumption
    · exact Nat.zero_lt_two
  · rintro ⟨i, htwo, hi⟩
    have hlt : i < hosts.length := (List.getElem?_eq_some_iff.mp hi).1
    refine ⟨i, ?_⟩
    rw [getRandHost_position hne, Nat.mod_eq_of_lt hlt, if_pos htwo, hi]

/-- **When the host at the drawn position is chosen**: the position is below two, or the
first host stands there again. -/
theorem getRandHost_position_iff {hosts : List α} (hne : hosts ≠ []) (rand : Nat) :
    (smfLookupSqlGetRandHost rand hosts = .ok hosts[rand % hosts.length]? ∧
        smfLookupLdapGetRandHost rand hosts = .ok hosts[rand % hosts.length]?) ↔
      rand % hosts.length < 2 ∨ hosts[rand % hosts.length]? = hosts[0]? := by
  rw [smfLookupSqlGetRandHost, smfLookupLdapGetRandHost, and_self_iff,
    getRandHost_position hne, Except.ok.injEq]
  by_cases htwo : rand % hosts.length < 2
  · rw [if_pos htwo]
    exact iff_of_true rfl (.inl htwo)
  · rw [if_neg htwo, or_iff_right htwo]
    exact eq_comm

end

/-- The second of three hosts. -/
theorem getRandHost_position_second :
    smfLookupSqlGetRandHost 4 [ascii "a", ascii "b", ascii "c"] = .ok (some (ascii "b")) ∧
      smfLookupLdapGetRandHost 4 [ascii "a", ascii "b", ascii "c"] = .ok (some (ascii "b")) :=
  (getRandHost_position_iff (List.cons_ne_nil _ _) 4).mpr (.inl (by decide))

/-- The third of three hosts is not chosen. -/
theorem getRandHost_not_third :
    ¬ ∀ (hosts : List Bytes) (rand : Nat), hosts ≠ [] →
      smfLookupSqlGetRandHost rand hosts = .ok hosts[rand % hosts.length]? ∧
        smfLookupLdapGetRandHost rand hosts = .ok hosts[rand % hosts.length]? := by
  intro hall
  have hthird := (hall [ascii "a", ascii "b", ascii "c"] 2 (by decide)).1
  exact absurd hthird (by decide)

end Spmfilter
