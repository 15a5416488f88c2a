import Spmfilter.Internal.Users

/-!
# Entries of the directory

`smf_lookup_ldap_query` makes a dictionary of each entry: the values of an attribute are joined
with commas, and the record of a user is looked for in the joined strings.

* `entryDict` is the dictionary of an entry, and `entryDict_get` what it holds.
* `infix_intercalate_iff` : joining adds no place where an address without a comma could stand.
* `userResult_entries` says whose record a user gets, in the terms of the directory.
-/

namespace Spmfilter

open CString

/-- One attribute of an entry.  A value may hold NUL bytes. -/
structure LdapAttribute where
  attr : Bytes
  values : List Bytes

/-- An entry of the result. -/
structure LdapEntry where
  attributes : List LdapAttribute
  /-- A message of the protocol has no room for more. -/
  few : attributes.length ≤ DICT_LIMIT

/-- `smf_core_strcat_printf`, with what the format has printed. -/
def smfCoreStrcatPrintf (s tmp : Bytes) : Bytes := s ++ tmp

/-- The loop over the values: `"%s"` for the first of them, and then `",%s"`. -/
def valuesLoop : Nat → Bytes → List Bytes → Bytes
  | _, data, [] => data
  | i, data, value :: values =>
    let data :=
      if i = 0 then smfCoreStrcatPrintf data (cstr value)
      else smfCoreStrcatPrintf data (44 :: cstr value)
    valuesLoop (i + 1) data values

/-- The loop over the attributes.  The result of `smf_dict_set` is not looked at. -/
def entryDict (entry : LdapEntry) : Dict :=
  entry.attributes.foldl
    (fun d a => (smfDictSet a.attr (valuesLoop 0 [] a.values) d).getD d) smfDictNew

/-! ## What a dictionary holds -/

/-- The values of an attribute as one string. -/
def joined (values : List Bytes) : Bytes := [44].intercalate (values.map cstr)

/-- The values of an attribute; where it stands twice those that stand last. -/
def LdapEntry.values (entry : LdapEntry) (attr : Bytes) : Option (List Bytes) :=
  (entry.attributes.filter fun a => a.attr = attr).getLast?.map LdapAttribute.values

/-- The same entry as a row. -/
def LdapEntry.row (entry : LdapEntry) : Row where
  columns := entry.attributes.map fun a => (a.attr, joined a.values)
  fits := dictOf_isSome (by rw [List.length_map]; exact entry.few)

theorem valuesLoop_succ (i : Nat) (data : Bytes) (values : List Bytes) :
    valuesLoop (i + 1) data values = data ++ values.flatMap fun value => 44 :: cstr value := by
  induction values generalizing i data with
  | nil => exact (List.append_nil data).symm
  | cons value values ih =>
    rw [valuesLoop, if_neg (Nat.succ_ne_zero i), ih, smfCoreStrcatPrintf, List.flatMap_cons,
      List.append_assoc]

theorem intercalate_eq_append (sep : UInt8) (part : Bytes) (parts : List Bytes) :
    [sep].intercalate (part :: parts) = part ++ parts.flatMap fun p => sep :: p := by
  induction parts generalizing part with
  | nil => rw [List.intercalate_singleton, List.flatMap_nil, List.append_nil]
  | cons next parts ih =>
    rw [List.intercalate_cons_cons, ih, List.flatMap_cons]
    simp

theorem valuesLoop_eq (values : List Bytes) : valuesLoop 0 [] values = joined values := by
  cases values with
  | nil => rfl
  | cons value values =>
    rw [valuesLoop, if_pos rfl, valuesLoop_succ, joined, List.map_cons, intercalate_eq_append,
      List.flatMap_map]
    rfl

/-- No `smf_dict_set` fails. -/
theorem foldl_dictSet {d d' : Dict} (columns : List (Bytes × Bytes))
    (h : (columns.map fun c => DictCall.set c.1 c.2).foldlM (fun d call => call.run d) d =
      some d') :
    columns.foldl (fun d c => (smfDictSet c.1 c.2 d).getD d) d = d' := by
  induction columns generalizing d with
  | nil => exact Option.some.inj h
  | cons c columns ih =>
    obtain ⟨d₁, hset, hrest⟩ := Option.bind_eq_some_iff.mp h
    rw [List.foldl_cons, show smfDictSet c.1 c.2 d = some d₁ from hset, Option.getD_some]
    exact ih hrest

theorem entryDict_eq (entry : LdapEntry) : entryDict entry = entry.row.dict := by
  have hcolumns : entryDict entry =
      entry.row.columns.foldl (fun d c => (smfDictSet c.1 c.2 d).getD d) smfDictNew := by
    rw [entryDict, LdapEntry.row, List.foldl_map]
    simp only [valuesLoop_eq]
  rw [hcolumns]
  exact foldl_dictSet _ (Option.some_get entry.row.fits).symm

theorem lastSet_columns (attributes : List LdapAttribute) (m : Bytes → Option Bytes)
    (k : Bytes) :
    (attributes.map fun a => DictCall.set a.attr (joined a.values)).foldl
        (fun m call => call.effect m) m k =
      (((attributes.filter fun a => a.attr = k).getLast?.map LdapAttribute.values).map
        joined).or (m k) := by
  induction attributes generalizing m with
  | nil => rfl
  | cons a attributes ih =>
    rw [List.map_cons, List.foldl_cons, ih]
    by_cases ha : a.attr = k
    · rw [List.filter_cons_of_pos (by simpa using ha), List.getLast?_cons]
      cases (attributes.filter fun a => a.attr = k).getLast? with
      | none =>
        subst ha
        exact Function.update_self _ _ m
      | some b => rfl
    · have hother : (DictCall.set a.attr (joined a.values)).effect m k = m k :=
        Function.update_of_ne (Ne.symm ha) _ m
      rw [List.filter_cons_of_neg (by simpa using ha), hother]

/-- **What the dictionary of an entry holds.** -/
theorem entryDict_get (entry : LdapEntry) (k : Bytes) :
    smfDictGet k (entryDict entry) = (entry.values k).map joined := by
  rw [entryDict_eq, entry.row.represents.get_eq, lastSet, LdapEntry.row, List.map_map]
  exact (lastSet_columns entry.attributes (fun _ => none) k).trans (Option.or_none)

/-! ## Searching in joined strings -/

/-- A word that does not hold the separator stands on one side of it. -/
theorem infix_append_cons_iff {w front back : Bytes} {sep : UInt8} (hsep : sep ∉ w) :
    w <:+: front ++ sep :: back ↔ w <:+: front ∨ w <:+: back := by
  constructor
  · rintro ⟨pre, post, h⟩
    rcases List.append_eq_append_iff.mp h with ⟨gap, hfront, hpost⟩ | ⟨gap, hword, hback⟩
    · exact .inl ⟨pre, gap, hfront.symm⟩
    · cases gap with
      | nil =>
        rw [List.append_nil] at hword
        exact .inl ⟨pre, [], by rw [List.append_nil, hword]⟩
      | cons c gap =>
        obtain ⟨rfl, hrest⟩ := List.cons.inj hback
        rcases List.append_eq_append_iff.mp hword with ⟨more, hpre, hw⟩ | ⟨more, hpre, hw⟩
        · -- the separator would stand in the word
          exact absurd (hw ▸ List.mem_append_right _ List.mem_cons_self) hsep
        · cases more with
          | nil =>
            rw [List.nil_append] at hw
            exact absurd (hw ▸ List.mem_cons_self) hsep
          | cons c more =>
            obtain ⟨-, hgap⟩ := List.cons.inj hw
            refine .inr ⟨more, post, ?_⟩
            rw [hrest, hgap]
            rfl
  · rintro (h | h)
    · exact h.trans (List.prefix_append _ _).isInfix
    · exact h.trans ((List.suffix_cons _ _).trans (List.suffix_append _ _)).isInfix

theorem infix_intercalate_iff {w : Bytes} {sep : UInt8} (hne : w ≠ []) (hsep : sep ∉ w)
    (parts : List Bytes) :
    w <:+: [sep].intercalate parts ↔ ∃ part ∈ parts, w <:+: part := by
  cases parts with
  | nil =>
    refine iff_of_false (fun h => hne (List.infix_nil.mp h)) ?_
    rintro ⟨part, hpart, -⟩
    exact List.not_mem_nil hpart
  | cons part parts =>
    rw [intercalate_eq_append, List.exists_mem_cons_iff]
    induction parts generalizing part with
    | nil => simp
    | cons next parts ih =>
      rw [List.flatMap_cons, List.cons_append, infix_append_cons_iff hsep, ih next,
        List.exists_mem_cons_iff]

/-! ## Whose record it is -/

/-- A value of one of the attributes contains the address. -/
def LdapEntry.holds (attrs : List Bytes) (addr : Bytes) (entry : LdapEntry) : Bool :=
  attrs.any fun attr => ((entry.values attr).getD []).any fun value =>
    (strstr (cstr value) addr).isSome

/-- The entry whose record the address gets. -/
def chosenEntry (attrs : List Bytes) (addr : Bytes) (entries : List LdapEntry) :
    Option LdapEntry :=
  (entries.find? fun entry => entry.holds attrs addr).or entries.getLast?

/-- The bindings of a dictionary. -/
theorem mem_bindings {d : Dict} {m : Bytes → Option Bytes} (h : d.Represents m) {k v : Bytes} :
    (k, v) ∈ d.bindings ↔ m k = some v := by
  rw [Dict.bindings, List.mem_filterMap]
  constructor
  · rintro ⟨k', -, hpair⟩
    obtain ⟨v', hget, hpair⟩ := Option.map_eq_some_iff.mp hpair
    obtain ⟨rfl, rfl⟩ := Prod.mk.inj hpair
    rwa [← h.get_eq]
  · intro hm
    refine ⟨k, (h.getKeys.2 k).mpr ?_, ?_⟩
    · rw [hm]
      exact Option.some_ne_none v
    · rw [h.get_eq, hm]
      rfl

theorem entryDict_represents (entry : LdapEntry) : ∃ m, (entryDict entry).Represents m :=
  entryDict_eq entry ▸ ⟨_, entry.row.represents⟩

/-- A match in the joined values is one in a value. -/
theorem userMatch_entryDict {attrs : List Bytes} {addr : Bytes} (hne : addr ≠ [])
    (hcomma : 44 ∉ addr) (entry : LdapEntry) :
    smfInternalUserMatch attrs (entryDict entry) addr = entry.holds attrs addr := by
  obtain ⟨m, hm⟩ := entryDict_represents entry
  rw [Bool.eq_iff_iff, userMatch_iff hm, LdapEntry.holds, List.any_eq_true]
  refine exists_congr fun attr => and_congr_right fun _ => ?_
  rw [entryDict_get]
  cases entry.values attr with
  | none => simp
  | some values =>
    simp only [Option.map_some, Option.some.injEq, exists_eq_left', Option.getD_some,
      List.any_eq_true, strstr_isSome, joined]
    rw [infix_intercalate_iff hne hcomma]
    simp only [List.mem_map, exists_exists_and_eq_and]

/-- The record is a copy of the entry that is chosen. -/
theorem userResult_eq {addr : Bytes} (hne : addr ≠ []) (hcomma : 44 ∉ addr) (haveZdb : Bool)
    (settings : Settings) (entries : List LdapEntry) :
    smfInternalGetUserResult ⟨true, haveZdb⟩ settings (entries.map entryDict) addr =
      smfInternalCopyUserData
        ((chosenEntry settings.ldapResultAttributes addr entries).map entryDict) := by
  have hsame : (fun d => smfInternalUserMatch settings.ldapResultAttributes d addr) ∘ entryDict =
      fun entry => entry.holds settings.ldapResultAttributes addr :=
    funext fun entry => userMatch_entryDict hne hcomma entry
  show smfInternalCopyUserData (userResultLoop _ addr none _) = _
  rw [userResultLoop_eq, Option.or_none, chosenEntry, List.find?_map, List.getLast?_map, hsame,
    Option.map_or]

/-- **Whose record a user gets.**  The record holds what the first entry with the address in a
value of a result attribute holds, or else the last entry. -/
theorem userResult_entries {addr : Bytes} (hne : addr ≠ []) (hcomma : 44 ∉ addr) (haveZdb : Bool)
    (settings : Settings) (entries : List LdapEntry) (k v : Bytes) :
    (k, v) ∈ (smfInternalGetUserResult ⟨true, haveZdb⟩ settings (entries.map entryDict)
        addr).bindings ↔
      ∃ entry, chosenEntry settings.ldapResultAttributes addr entries = some entry ∧
        (entry.values k).map joined = some v := by
  rw [userResult_eq hne hcomma]
  cases chosenEntry settings.ldapResultAttributes addr entries with
  | none =>
    show (k, v) ∈ smfDictNew.bindings ↔ _
    rw [mem_bindings represents_new]
    exact iff_of_false nofun (by rintro ⟨entry, h, -⟩; cases h)
  | some entry =>
    obtain ⟨m, hm⟩ := entryDict_represents entry
    have hcopy := copy_represents hm
    rw [Option.map_some, mem_bindings hcopy, ← hm.get_eq, entryDict_get]
    simp only [Option.some.injEq, exists_eq_left']

end Spmfilter
