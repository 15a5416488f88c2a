import Spmfilter.Lib.CString

/-!
# Settings

The fields of `SMFSettings_T` that the SMTP engine, the module queue and the lookups
read,
with the defaults of `smf_settings_new` and `smf_settings_parse_config`.

`smtpCodes` is the dictionary of reply texts, a finite map from the decimal
code to its text.
-/

namespace Spmfilter

open CString

/-- `SMFSettings_T`.  `modules` is the list of the module names. -/
structure Settings where
  queueDir : Bytes := ascii "/var/spool/spmfilter"
  modules : List Bytes := []
  moduleFail : Int := 3
  nexthop : Option Bytes := none
  nexthopFailCode : Int := 451
  nexthopFailMsg : Bytes := ascii "Requested action aborted: local error in processing"
  addHeader : Bool := false
  maxSize : Nat := 0
  smtpCodes : List (Bytes × Bytes) := []
  backend : Option Bytes := none
  ldapUserQuery : Option Bytes := none
  sqlUserQuery : Option Bytes := none
  ldapBase : Option Bytes := none
  ldapResultAttributes : List Bytes := []

end Spmfilter
