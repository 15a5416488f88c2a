import Spmfilter.Dict
import Spmfilter.Session
import Spmfilter.Settings

/-!
# Lookups

`smf_lookup_sql_query` and `smf_lookup_ldap_query`.  libzdb, libldap and the servers
behind them are the parameter `Directory`, which answers every query afresh.  A record
is a dictionary that the query function fills from the columns of a row, or from the
attributes of an entry.
-/

namespace Spmfilter

open CString

/-- The dictionary that is filled with columns or attributes. -/
def dictOf (columns : List (Bytes × Bytes)) : Option Dict :=
  dictAfter (columns.map fun c => .set c.1 c.2)

/-- One row or entry.  The values of an attribute are joined with commas already. -/
structure Row where
  columns : List (Bytes × Bytes)
  /-- No array of the dictionary outgrows an `int`. -/
  fits : (dictOf columns).isSome = true

def Row.dict (row : Row) : Dict := (dictOf row.columns).get row.fits

/-- What the library functions give for the `i`th query: `none` without a connection
or after an exception. -/
structure Directory where
  zdb : Nat → Bytes → Option (List Row)
  ldap : Nat → Bytes → Option (List Row)
  /-- The query is used as a format. -/
  printf : Vasprintf

/-- `smf_lookup_sql_query`.  A query that finds no row gives an empty list. -/
def smfLookupSqlQuery (dir : Directory) (i : Nat) (q : Bytes) : Option (List Row) :=
  let query := smfCoreStrstrip (dir.printf.expand q)
  if query = [] then none else dir.zdb i query

/-- `smf_lookup_ldap_query`.  The result code of the search is logged and not used; a
search without an entry gives NULL. -/
def smfLookupLdapQuery (settings : Settings) (dir : Directory) (i : Nat) (query : Bytes) :
    Option (List Row) :=
  if settings.ldapBase = none then none
  else if query = [] then none
  else (dir.ldap i query).bind fun entries => if entries = [] then none else some entries

theorem smfLookupLdapQuery_ne_nil (settings : Settings) (dir : Directory) (i : Nat)
    (query : Bytes) : smfLookupLdapQuery settings dir i query ≠ some [] := by
  rw [smfLookupLdapQuery]
  split
  · exact nofun
  · split
    · exact nofun
    · intro h
      obtain ⟨entries, -, hentries⟩ := Option.bind_eq_some_iff.mp h
      split at hentries
      · cases hentries
      · rename_i hne
        exact hne (Option.some.inj hentries)

/-- A row of a usual length fits. -/
theorem dictOf_isSome {columns : List (Bytes × Bytes)} (h : columns.length ≤ DICT_LIMIT) :
    (dictOf columns).isSome = true := by
  have hroom : smfDictNew.n + (columns.map fun c => DictCall.set c.1 c.2).length ≤ DICT_LIMIT := by
    rw [List.length_map, show smfDictNew.n = 0 from rfl, Nat.zero_add]
    exact h
  obtain ⟨d, hd, -⟩ := calls_eq_some _ represents_new hroom
  exact Option.isSome_iff_exists.mpr ⟨d, hd⟩

/-- The dictionary of a row is a finite map. -/
theorem Row.represents (row : Row) :
    row.dict.Represents (lastSet (row.columns.map fun c => .set c.1 c.2)) :=
  represents_calls represents_new (Option.some_get row.fits).symm

end Spmfilter
