import Spmfilter.Lib.Decimal
import Spmfilter.Settings.Check
import Spmfilter.Smtpd.Data

/-!
# The size limit of the file

`_get_integer` reads a `long` and makes it an `int`, and `max_size` is an `unsigned long`.  A
number from 2147483648 on comes out as another one.

* `lineEffect_entry` is what a line `key = value` says.
* `SetsMaxSize` : the last line for `max_size` is the decimal number `n`.
* `toNat_getInteger_iff` : which numbers are stored as they are.
* `enforcesLimit_iff` : which limits are enforced.
-/

namespace Spmfilter

open CString

/-- `smf_settings_get_max_size`. -/
def smfSettingsGetMaxSize (c : Config) : Nat := (c.numbers .maxSize).toNat

/-- `max_size = N`. -/
def maxSizeLine (n : Nat) : Bytes := ascii "max_size = " ++ decimal n

/-- A line in `global` sets `max_size` to `n`, and no line behind it sets it again. -/
def SetsMaxSize (input : Bytes) (n : Nat) : Prop :=
  ∃ before text after, (readLines {} input).1 = before ++ text :: after ∧
    (text = maxSizeLine n ∨ text = maxSizeLine n ++ [LF]) ∧
    sectionsAfter none before = some (ascii "global") ∧
    ∀ w ∈ writes (ascii "global") after, w.cell ≠ .number .maxSize

/-- The limit is `n`: a message is refused where it is longer, and none where `n` is 0. -/
structure EnforcesLimit (c : Config) (n : Nat) : Prop where
  limit : smfSettingsGetMaxSize c = n
  enforced : ∀ (s : Settings) (messageSize : Nat),
    sizeExceeded { s with maxSize := smfSettingsGetMaxSize c } messageSize = true ↔
      n < messageSize ∧ n ≠ 0

/-! ## The line -/

/-- What an entry line says. -/
theorem lineEffect_entry (e : Entry) : lineEffect e.line = .assigns e.key e.value := by
  have hkey : smfCoreStrstrip (e.key ++ [32]) = e.key :=
    strstrip_trimmed e.key_trimmed (forall_mem_of_all (by decide))
  rw [← lineEffect_closed, lineEffect, parseLine_entry]
  dsimp only
  rw [hkey, strstrip_eq_self e.value_trimmed]

/-- The digits have no meaning for the parser. -/
theorem plain_of_mem_decimal {n : Nat} {b : UInt8} (h : b ∈ decimal n) :
    isspace b = false ∧ b ≠ HASH ∧ b ≠ LF ∧ b ≠ 0 ∧ b ≠ QUOTE ∧ b ≠ TICK := by
  have hall : ∀ d < 10, isspace (digit d) = false ∧ digit d ≠ HASH ∧ digit d ≠ LF ∧ digit d ≠ 0 ∧
      digit d ≠ QUOTE ∧ digit d ≠ TICK := by decide
  obtain ⟨d, hd, rfl⟩ := mem_decimal h
  exact hall d hd

/-- `max_size = N` as an entry. -/
def maxSizeEntry (n : Nat) (hn : n < 9223372036854775808) : Entry where
  key := ascii "max_size"
  value := decimal n
  key_trimmed := trimmed_of_ends (by decide) (by decide) (by decide)
  key_free := forall_mem_of_all (by decide)
  key_head := by decide
  value_trimmed :=
    { ne_nil := decimal_ne_nil n
      head := fun _ h => (plain_of_mem_decimal (List.mem_of_head? h)).1
      last := fun _ h => (plain_of_mem_decimal (List.mem_of_getLast? h)).1 }
  value_free := by
    intro b hb
    obtain ⟨-, hhash, hlf, hnul, -, -⟩ := plain_of_mem_decimal hb
    exact ⟨hhash, hlf, hnul⟩
  value_head := by
    constructor
    · exact fun h => (plain_of_mem_decimal (List.mem_of_head? h)).2.2.2.2.1 rfl
    · exact fun h => (plain_of_mem_decimal (List.mem_of_head? h)).2.2.2.2.2 rfl
  fits := by
    have hlen : (decimal n).length ≤ 19 := length_decimal_le (by decide) (by omega)
    have hkey : (ascii "max_size" ++ ascii " = ").length = 11 := by decide
    rw [List.length_append, List.length_append, hkey, List.length_singleton]
    omega

theorem lineEffect_maxSize {n : Nat} (hn : n < 9223372036854775808) {text : Bytes}
    (htext : text = maxSizeLine n ∨ text = maxSizeLine n ++ [LF]) :
    lineEffect text = .assigns (ascii "max_size") (decimal n) := by
  have hline : lineEffect (maxSizeLine n) = .assigns (ascii "max_size") (decimal n) :=
    lineEffect_entry (maxSizeEntry n hn)
  rcases htext with rfl | rfl
  · exact hline
  · rw [lineEffect_closed, hline]

/-- What it writes. -/
theorem entryWrite_maxSize (n : Nat) :
    entryWrite (ascii "global") (ascii "max_size") (decimal n) =
      some (.number .maxSize (getInteger (decimal n) % 18446744073709551616)) := by
  have hstring : StringField.all.find? (·.place = ⟨ascii "global", ascii "max_size"⟩) = none := by
    decide
  have hnumber : NumberField.all.find? (·.place = ⟨ascii "global", ascii "max_size"⟩) =
      some .maxSize := by decide
  rw [entryWrite, if_pos (by decide), if_neg (decimal_ne_nil n), hstring, hnumber]
  rfl

/-! ## The file -/

theorem writes_append (sec : Option Bytes) (texts more : List Bytes) :
    writes (sec.getD []) (texts ++ more) =
      writes (sec.getD []) texts ++ writes ((sectionsAfter sec texts).getD []) more := by
  induction texts generalizing sec with
  | nil => rfl
  | cons text texts ih =>
    have hsections : sectionsAfter sec (text :: texts) =
        sectionsAfter (sectionAfter sec text) texts := rfl
    rw [List.cons_append, writes, writes, hsections, sectionAfter]
    cases lineEffect text with
    | nothing => exact ih sec
    | entersSection new => exact ih (some (new.getD (sec.getD [])))
    | assigns key val =>
      dsimp only
      rw [ih sec, List.append_assoc]

theorem writes_assigns {text key val name : Bytes} {w : Write}
    (heffect : lineEffect text = .assigns key val) (hwrite : entryWrite name key val = some w)
    (texts : List Bytes) : writes name (text :: texts) = w :: writes name texts := by
  rw [writes, heffect]
  show (entryWrite name key val).toList ++ writes name texts = _
  rw [hwrite]
  rfl

/-- The number that is stored. -/
theorem SetsMaxSize.numbers_eq {input : Bytes} {n : Nat} {c : Config} (h : SetsMaxSize input n)
    (hn : n < 9223372036854775808) (hread : configAfter smfSettingsNew input = .ok c) :
    c.numbers .maxSize = getInteger (decimal n) % 18446744073709551616 := by
  obtain ⟨before, text, after, htexts, htext, hsection, hrest⟩ := h
  have hwrites : fileWrites input = writes [] before ++
      .number .maxSize (getInteger (decimal n) % 18446744073709551616) ::
        writes (ascii "global") after := by
    have happend := writes_append none before (text :: after)
    rw [hsection, Option.getD_some, Option.getD_none,
      writes_assigns (lineEffect_maxSize hn htext) (entryWrite_maxSize n)] at happend
    rw [fileWrites, htexts]
    exact happend
  have hlast : settingsCells.lastTo (.number .maxSize) (fileWrites input) =
      some (.number .maxSize (getInteger (decimal n) % 18446744073709551616)) := by
    rw [hwrites]
    exact @Overwrite.Cells.lastTo_append_cons _ _ _ _ settingsCells _ (writes [] before) _
      (.number .maxSize (getInteger (decimal n) % 18446744073709551616)) hrest
  have hheld := @Overwrite.Cells.run_held _ _ _ _ settingsCells _ _ _ _ (.number .maxSize)
    represented_new trivial (configAfter_run hread)
  rw [hlast] at hheld
  exact Held.number.inj hheld

/-- Which numbers come through `long`, `int` and `unsigned long`. -/
theorem toNat_getInteger_iff {n : Nat} (hn : n < 9223372036854775808) :
    (getInteger (decimal n) % 18446744073709551616).toNat = n ↔ n < 2147483648 := by
  rw [getInteger, strtol_decimal hn]
  have hlow := @Int.le_bmod (n : Int) 4294967296 (by decide)
  have hhigh := @Int.bmod_lt (n : Int) 4294967296 (by decide)
  have hmod := Int.bmod_emod (x := n) (m := 4294967296)
  constructor
  · intro heq
    omega
  · intro hlt
    rw [Int.bmod_eq_of_le (by omega) (by omega)]
    omega

/-- The size check goes by the limit that is stored. -/
theorem enforcesLimit_of_limit {c : Config} {n : Nat} (h : smfSettingsGetMaxSize c = n) :
    EnforcesLimit c n where
  limit := h
  enforced := by
    intro s messageSize
    rw [h, sizeExceeded]
    simp

/-- The limit of the settings behind the checks, which leave it alone. -/
theorem SetsMaxSize.limit_eq {freed : StringField → Bytes} {input : Bytes} {n : Nat}
    {r : Except Config Config} (h : SetsMaxSize input n) (hn : n < 9223372036854775808)
    (hparse : smfSettingsParseConfigChecked freed input = .ok r) :
    smfSettingsGetMaxSize (checkedConfig r) =
      (getInteger (decimal n) % 18446744073709551616).toNat := by
  obtain ⟨c, hread, rfl⟩ := map_eq_ok_iff.mp hparse
  rw [smfSettingsGetMaxSize, (checkSettings_defaulted freed c).number_eq (by decide),
    h.numbers_eq hn hread]

/-! ## Files with a limit -/

def limitFile (n : Nat) : Bytes := linesFile [ascii "[global]", maxSizeLine n]

theorem length_maxSizeLine {n : Nat} (hn : n < 9223372036854775808) :
    (maxSizeLine n).length ≤ 30 := by
  have hlen : (decimal n).length ≤ 19 := length_decimal_le (by decide) (by omega)
  have hkey : (ascii "max_size = ").length = 11 := by decide
  rw [maxSizeLine, List.length_append, hkey]
  omega

theorem maxSizeLine_fits {n : Nat} (hn : n < 9223372036854775808) : FitsLine (maxSizeLine n) where
  noLF := by
    rw [maxSizeLine, List.mem_append]
    rintro (h | h)
    · exact absurd h (by decide)
    · exact (plain_of_mem_decimal h).2.2.1 rfl
  noNul := by
    rw [maxSizeLine, List.mem_append]
    rintro (h | h)
    · exact absurd h (by decide)
    · exact (plain_of_mem_decimal h).2.2.2.1 rfl
  short := (length_maxSizeLine hn).trans (by decide)

theorem limitFile_lines {n : Nat} (hn : n < 9223372036854775808) :
    readLines {} (limitFile n) = ([ascii "[global]\n", maxSizeLine n ++ [LF]], none) := by
  have hlines : ∀ l ∈ [ascii "[global]", maxSizeLine n], FitsLine l :=
    List.forall_mem_cons.mpr ⟨⟨by decide, by decide, by decide⟩,
      List.forall_mem_singleton.mpr (maxSizeLine_fits hn)⟩
  have hhanded : handedClosed (maxSizeLine n) = [maxSizeLine n ++ [LF]] := by
    have hlength := length_maxSizeLine hn
    have hne : maxSizeLine n ≠ [] := List.append_ne_nil_of_right_ne_nil _ (decimal_ne_nil n)
    have hshort : ¬ (maxSizeLine n).length = MAX_LINE - 1 := by
      rw [MAX_LINE]
      omega
    rw [handedClosed, if_neg hne, if_neg hshort]
  rw [limitFile, readLines_linesFile hlines, List.flatMap_cons, List.flatMap_singleton, hhanded]
  rfl

theorem limitFile_sets {n : Nat} (hn : n < 9223372036854775808) : SetsMaxSize (limitFile n) n := by
  refine ⟨[ascii "[global]\n"], maxSizeLine n ++ [LF], [], ?_, .inr rfl, rfl, ?_⟩
  · rw [limitFile_lines hn]
    rfl
  · exact List.forall_mem_nil _

theorem limitFile_parse {n : Nat} (hn : n < 9223372036854775808) (freed : StringField → Bytes) :
    ∃ r, smfSettingsParseConfigChecked freed (limitFile n) = .ok r := by
  have hwrites := writes_assigns (lineEffect_maxSize hn (.inr rfl)) (entryWrite_maxSize n) []
  have hread := @configAfter_section _ _ (ascii "global") _ _ (limitFile_lines hn) rfl (by
    rw [hwrites]
    rfl)
  rw [smfSettingsParseConfigChecked, hread]
  exact ⟨_, rfl⟩

/-- **Which limits are enforced.** -/
theorem enforcesLimit_iff {freed : StringField → Bytes} {input : Bytes} {n : Nat}
    {r : Except Config Config} (hn : n < 9223372036854775808) (hset : SetsMaxSize input n)
    (hparse : smfSettingsParseConfigChecked freed input = .ok r) :
    EnforcesLimit (checkedConfig r) n ↔ n < 2147483648 := by
  rw [← toNat_getInteger_iff hn, ← hset.limit_eq hn hparse]
  constructor
  · exact fun h => h.limit
  · exact enforcesLimit_of_limit

theorem enforcesLimit_seven :
    ∃ r, smfSettingsParseConfigChecked (fun _ => []) (limitFile 7) = .ok r ∧
      EnforcesLimit (checkedConfig r) 7 := by
  obtain ⟨r, hr⟩ := limitFile_parse (show 7 < 9223372036854775808 by decide) fun _ => []
  exact ⟨r, hr, (enforcesLimit_iff (by decide) (limitFile_sets (by decide)) hr).mpr (by decide)⟩

/-- `max_size = 2147483648` is a negative `int`, and no message is ever too long. -/
theorem not_enforcesLimit :
    ¬ ∀ (freed : StringField → Bytes) (input : Bytes) (n : Nat) (r : Except Config Config),
      n < 9223372036854775808 → SetsMaxSize input n →
        smfSettingsParseConfigChecked freed input = .ok r → EnforcesLimit (checkedConfig r) n := by
  intro hall
  have hn : 2147483648 < 9223372036854775808 := by decide
  have hset := limitFile_sets hn
  obtain ⟨r, hr⟩ := limitFile_parse hn fun _ => []
  have hlimit := (hall _ _ _ r hn hset hr).limit
  rw [hset.limit_eq hn hr, toNat_getInteger_iff hn] at hlimit
  exact absurd hlimit (by decide)

end Spmfilter
