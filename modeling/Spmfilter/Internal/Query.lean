import Spmfilter.Core.Expand
import Spmfilter.Internal.Users

/-!
# The SQL text of a user query

`smf_internal_query_user` expands the user query with an address, and
`smf_lookup_sql_query` takes the expanded query for a format again before it is executed.

* `sqlText` is what `Connection_executeQuery` gets, and `queryUserText` what it gets from
  `smf_internal_query_user`.
* `marked` is the expanded query with its origins: which bytes the address has put there.
* `queryUser_verbatim_iff` says when the expanded query is executed as it is.
-/

namespace Spmfilter

open CString

/-! ## What is executed -/

/-- `Connection_executeQuery` is not called for an empty text. -/
def executed (query : Bytes) : Option Bytes := if query = [] then none else some query

/-- The text that `smf_lookup_sql_query` executes for the format `q`. -/
def sqlText (printf : Vasprintf) (q : Bytes) : Option Bytes :=
  executed (smfCoreStrstrip (printf.expand q))

/-- The text that `smf_internal_query_user` has executed for an address. -/
def queryUserText (build : Build) (settings : Settings) (printf : Vasprintf) (addr : Bytes) :
    Option Bytes :=
  if addr = [] then none
  else if build.haveLdap ∧ settings.backend = some (ascii "ldap") then none
  else if build.haveZdb ∧ settings.backend = some (ascii "sql") then
    match smfCoreExpandString (settings.sqlUserQuery.getD []) addr with
    | .ok (query, _) => sqlText printf query
    | .error _ => none
  else none

theorem smfLookupSqlQuery_eq (dir : Directory) (i : Nat) (q : Bytes) :
    smfLookupSqlQuery dir i q = (sqlText dir.printf q).bind (dir.zdb i) := by
  rw [smfLookupSqlQuery, sqlText, executed]
  split <;> rfl

section
variable {build : Build} {settings : Settings} {addr query text : Bytes} {replaced : Nat}

theorem queryUserText_eq (hbuild : build.haveZdb = true)
    (hbackend : settings.backend = some (ascii "sql")) (hquery : settings.sqlUserQuery = some query)
    (haddr : addr ≠ []) (hexpand : smfCoreExpandString query addr = .ok (text, replaced))
    (printf : Vasprintf) :
    queryUserText build settings printf addr = sqlText printf text := by
  have hdiffer : some (ascii "sql") ≠ some (ascii "ldap") := by decide
  rw [queryUserText, if_neg haddr, hbackend, if_neg fun h => hdiffer h.2, if_pos ⟨hbuild, rfl⟩,
    hquery, Option.getD_some, hexpand]

/-- The database is asked for that text and for nothing else. -/
theorem userLookup_sql (hbuild : build.haveZdb = true)
    (hbackend : settings.backend = some (ascii "sql")) (hquery : settings.sqlUserQuery = some query)
    (haddr : addr ≠ []) (hexpand : smfCoreExpandString query addr = .ok (text, replaced))
    (dir : Directory) (i : Nat) :
    userLookup build settings dir i addr =
      .ok ((queryUserText build settings dir.printf addr).bind (dir.zdb i)) := by
  have hdiffer : some (ascii "sql") ≠ some (ascii "ldap") := by decide
  rw [queryUserText_eq hbuild hbackend hquery haddr hexpand, userLookup, hbackend,
    if_neg fun h => hdiffer h.2, if_pos ⟨hbuild, rfl⟩, hquery, Option.getD_some, hexpand,
    ← smfLookupSqlQuery_eq]

end

/-! ## Where the bytes of a query come from -/

/-- The expanded query, with a mark on the bytes of the address. -/
def marked (query addr : Bytes) : List (UInt8 × Bool) :=
  (formatParts query).flatMap fun part => (part.text addr).map fun c => (c, part.isDirective)

/-- A conversion has a byte of the address in it: the percent sign or what stands behind. -/
def ConvertsAddress (argument : List (UInt8 × Bool)) : Prop :=
  ∃ before mark after, argument = before ++ (PERCENT, mark) :: after ∧
    (mark = true ∨ ∃ c, after.head? = some (c, true))

theorem map_fst_marked (query addr : Bytes) :
    (marked query addr).map Prod.fst = expanded query addr := by
  rw [marked, expanded, List.map_flatMap]
  congr 1
  funext part
  rw [List.map_map]
  exact List.map_id _

/-- No percent sign of the query is left. -/
theorem char_ne_percent {query : Bytes} {c : UInt8} (h : .char c ∈ formatParts query) :
    c ≠ PERCENT := by
  fun_induction formatParts query with
  | case1 => cases h
  | case2 => simp at h
  | case3 option rest ih =>
    rcases List.mem_cons.mp h with h | h
    · cases h
    · exact ih h
  | case4 d rest hd ih =>
    rcases List.mem_cons.mp h with h | h
    · obtain rfl := FormatPart.char.inj h
      exact hd
    · exact ih h

/-- The directives insert no percent sign. -/
def NoPercentInserted (query addr : Bytes) : Prop :=
  ∀ part ∈ formatParts query, part.isDirective = true → PERCENT ∉ part.text addr

theorem percent_expanded_iff (query addr : Bytes) :
    PERCENT ∉ expanded query addr ↔ NoPercentInserted query addr := by
  rw [expanded, List.mem_flatMap]
  constructor
  · intro h part hpart _ hmem
    exact h ⟨part, hpart, hmem⟩
  · rintro h ⟨part, hpart, hmem⟩
    cases part with
    | char c => exact char_ne_percent hpart (List.mem_singleton.mp hmem).symm
    | directive option => exact h _ hpart rfl hmem
    | cut => cases hmem

/-- An inserted percent sign is converted, and without one there is nothing to convert. -/
theorem convertsAddress_iff (query addr : Bytes) :
    ¬ ConvertsAddress (marked query addr) ↔ NoPercentInserted query addr := by
  constructor
  · intro h part hpart hdirective hmem
    have hmarked : (PERCENT, true) ∈ marked query addr := by
      rw [marked, List.mem_flatMap]
      exact ⟨part, hpart, List.mem_map.mpr ⟨PERCENT, hmem, by rw [hdirective]⟩⟩
    obtain ⟨before, after, hsplit⟩ := List.append_of_mem hmarked
    exact h ⟨before, true, after, hsplit, Or.inl rfl⟩
  · rintro h ⟨before, mark, after, hsplit, -⟩
    refine (percent_expanded_iff query addr).mpr h ?_
    rw [← map_fst_marked, hsplit]
    simp

/-! ## The query that is executed -/

theorem count_strstrip (s : Bytes) : (smfCoreStrstrip s).count PERCENT = s.count PERCENT := by
  obtain ⟨before, after, hsplit, hbefore, hafter⟩ := smfCoreStrstrip_sandwich s
  have hspace : ∀ w : Bytes, (∀ c ∈ w, isspace c = true) → w.count PERCENT = 0 := by
    intro w hw
    rw [List.count_eq_zero]
    exact fun hmem => absurd (hw PERCENT hmem) (by decide)
  conv_rhs => rw [hsplit]
  rw [List.count_append, List.count_append, hspace before hbefore, hspace after hafter,
    Nat.zero_add, Nat.add_zero]

theorem executed_inj {s t : Bytes} : executed s = executed t ↔ s = t := by
  rw [executed, executed]
  split
  · rename_i hs
    split
    · rename_i ht
      exact iff_of_true rfl (hs.trans ht.symm)
    · rename_i ht
      exact iff_of_false nofun fun h => ht (h ▸ hs)
  · rename_i hs
    split
    · rename_i ht
      exact iff_of_false nofun fun h => hs (h ▸ ht)
    · exact Option.some_inj

/-- Which queries every print leaves alone. -/
theorem sqlText_iff (text : Bytes) :
    (∀ p : Vasprintf, p.Interprets → sqlText p text = executed (smfCoreStrstrip text)) ↔
      PERCENT ∉ text := by
  rw [← Vasprintf.interprets_iff]
  constructor
  · intro h p hp
    have hstrip := executed_inj.mp (h p hp)
    rw [← count_strstrip, hstrip, count_strstrip]
  · intro h p _
    rw [sqlText, p.expand_of_noPercent (Vasprintf.interprets_iff.mp h)]

theorem expanded_of_expand {query addr text : Bytes} {replaced : Nat}
    (h : smfCoreExpandString query addr = .ok (text, replaced)) : text = expanded query addr := by
  rw [smfCoreExpandString, expandLoop_eq] at h
  split at h
  · cases h
  · exact (congrArg Prod.fst (Except.ok.inj h)).symm

/-- **When the expanded query is executed as it is**: every print that interprets percent signs
leaves it alone, and no conversion touches the address, exactly when no directive inserts a
percent sign. -/
theorem queryUser_verbatim_iff {build : Build} {settings : Settings} {addr query text : Bytes}
    {replaced : Nat} (hbuild : build.haveZdb = true)
    (hbackend : settings.backend = some (ascii "sql")) (hquery : settings.sqlUserQuery = some query)
    (haddr : addr ≠ []) (hexpand : smfCoreExpandString query addr = .ok (text, replaced)) :
    ((∀ p : Vasprintf, p.Interprets →
        queryUserText build settings p addr = executed (smfCoreStrstrip text)) ∧
      ¬ ConvertsAddress (marked query addr)) ↔
      NoPercentInserted query addr := by
  have htext : (∀ p : Vasprintf, p.Interprets →
      queryUserText build settings p addr = executed (smfCoreStrstrip text)) ↔
        NoPercentInserted query addr := by
    simp only [queryUserText_eq hbuild hbackend hquery haddr hexpand]
    rw [sqlText_iff, expanded_of_expand hexpand, percent_expanded_iff]
  rw [htext, convertsAddress_iff, and_self_iff]

/-- A usual address in a usual query. -/
theorem queryUser_verbatim_plain :
    (∀ p : Vasprintf, p.Interprets →
        queryUserText ⟨false, true⟩ sqlSettings p (ascii "a@b") =
          executed (smfCoreStrstrip (ascii "a@b"))) ∧
      ¬ ConvertsAddress (marked (ascii "%s") (ascii "a@b")) :=
  (queryUser_verbatim_iff rfl rfl rfl (by decide)
    (show smfCoreExpandString (ascii "%s") (ascii "a@b") = .ok (ascii "a@b", 1) from rfl)).mpr (by
      intro part hpart _
      obtain rfl := List.mem_singleton.mp hpart
      decide)

/-- A percent sign in the local part is gone in the query that is executed. -/
theorem queryUser_converted :
    ¬ ∀ (build : Build) (settings : Settings) (addr query text : Bytes) (replaced : Nat),
      build.haveZdb = true → settings.backend = some (ascii "sql") →
      settings.sqlUserQuery = some query → addr ≠ [] →
      smfCoreExpandString query addr = .ok (text, replaced) →
      (∀ p : Vasprintf, p.Interprets →
        queryUserText build settings p addr = executed (smfCoreStrstrip text)) ∧
      ¬ ConvertsAddress (marked query addr) := by
  intro hall
  have hexpand : smfCoreExpandString (ascii "%s") (ascii "a%%b@c") = .ok (ascii "a%%b@c", 1) := rfl
  have hquery : sqlSettings.sqlUserQuery = some (ascii "%s") := rfl
  have haddr : ascii "a%%b@c" ≠ [] := by decide
  refine (sqlText_iff (ascii "a%%b@c")).mp (fun p hp => ?_) (by decide)
  rw [← queryUserText_eq (show (Build.mk false true).haveZdb = true from rfl) rfl hquery haddr
    hexpand]
  exact (hall ⟨false, true⟩ sqlSettings _ _ _ 1 rfl rfl hquery haddr hexpand).1 p hp

end Spmfilter
