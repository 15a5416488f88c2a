import Spmfilter.Core

/-!
# Expanding a query

`smf_core_expand_string` copies the format to `out` and then replaces the directives in
`out`, with the cursor `offs` on the text that it edits.  This module follows the loop on
the string that `out` holds.

* `expandInPlaceLoop` is the loop, and `smfCoreExpandStringInPlace` the function.
* `FormatPart` takes a format apart, and `expanded` puts it together with an address.
* `expandInPlaceLoop_eq` says that the loop only ever looks at what is left of the format.
* `expandInPlace_eq` is what the function does, and `expandInPlace_userDomain_iff` when
  `%u@%d` is the address again.
-/

namespace Spmfilter

open CString

/-! ## The loop -/

/-- `out[offs]`, which is NUL behind the last byte. -/
def charAt (out : Bytes) (offs : Int) : UInt8 := out[offs.toNat]?.getD 0

/-- The string `insert` of the `switch`; `none` is NULL. -/
def insertFor (addr : Bytes) (parts : List Bytes) (option : UInt8) : Except Int (Option Bytes) :=
  if option = 115 then .ok (some addr)
  else if option = 117 then .ok parts[0]?
  else if option = 100 then
    if parts.length < 2 then .error (-1) else .ok parts[1]?
  else .error (-2)

/-- The string with `insert` in the place of the two option characters at `offs`. -/
def spliceAt (out : Bytes) (offs : Int) (insert : Bytes) : Bytes :=
  out.take offs.toNat ++ insert ++ out.drop (offs.toNat + 2)

/-- `offs += insert_len - 1`.  One less for an empty insertion. -/
def cursorAfter (offs : Int) (insertLen : Nat) : Int := offs + (insertLen - 1)

theorem lt_length_of_charAt {out : Bytes} {offs : Int} (h : charAt out offs ≠ 0) :
    offs.toNat < out.length := by
  by_contra hge
  exact h (by rw [charAt, List.getElem?_eq_none (by omega)]; rfl)

theorem insertFor_ne_zero {addr : Bytes} {parts : List Bytes} {option : UInt8}
    {insert : Option Bytes} (h : insertFor addr parts option = .ok insert) : option ≠ 0 := by
  rintro rfl
  cases h

/-- The `while` loop.  `repMade` counts the directives. -/
def expandInPlaceLoop (addr : Bytes) (parts : List Bytes) (out : Bytes) (offs : Int)
    (repMade : Nat) : Except Int (Bytes × Nat) :=
  if hend : charAt out offs = 0 then .ok (out, repMade)
  else if charAt out offs = PERCENT then
    match hinsert : insertFor addr parts (charAt out (offs + 1)) with
    | .error code => .error code
    | .ok (some insert) =>
      expandInPlaceLoop addr parts (spliceAt out offs insert)
        (cursorAfter offs insert.length + 1) (repMade + 1)
    | .ok none => expandInPlaceLoop addr parts out (offs + 1 + 1) (repMade + 1)
  else expandInPlaceLoop addr parts out (offs + 1) repMade
termination_by (out.length - offs).toNat
decreasing_by
  · have hlt := lt_length_of_charAt hend
    have hnext := lt_length_of_charAt (insertFor_ne_zero hinsert)
    simp only [spliceAt, cursorAfter, List.length_append, List.length_take, List.length_drop]
    omega
  · have hlt := lt_length_of_charAt hend
    omega
  · have hlt := lt_length_of_charAt hend
    omega

/-- `smf_core_expand_string`: the result and `*buf`, which held `buf` before. -/
def smfCoreExpandStringInPlace (format addr : Bytes) (buf : Option Bytes) : Int × Option Bytes :=
  match expandInPlaceLoop addr (smfCoreStrsplit addr AT) format 0 0 with
  | .error code => (code, buf)
  | .ok (out, repMade) => (repMade, some out)

/-! ## What a format says -/

inductive FormatPart
  | char (c : UInt8)
  | directive (option : UInt8)
  /-- a percent sign at the end of the format -/
  | cut

def formatParts : Bytes → List FormatPart
  | [] => []
  | c :: rest =>
    if c = PERCENT then
      match rest with
      | [] => [.cut]
      | option :: rest => .directive option :: formatParts rest
    else .char c :: formatParts rest

/-- The text of an address before its first `@`. -/
def localPart (addr : Bytes) : Bytes := addr.takeWhile (· ≠ AT)

/-- The text between the first and the second `@`, or the end. -/
def domainPart (addr : Bytes) : Bytes :=
  ((addr.dropWhile (· ≠ AT)).drop 1).takeWhile (· ≠ AT)

/-- What is wrong with a part of the format. -/
def FormatPart.fault (addr : Bytes) : FormatPart → Option Int
  | .char _ => none
  | .directive option =>
    if option = 115 ∨ option = 117 then none
    else if option = 100 then if AT ∈ addr then none else some (-1)
    else some (-2)
  | .cut => some (-2)

def FormatPart.text (addr : Bytes) : FormatPart → Bytes
  | .char c => [c]
  | .directive option =>
    if option = 115 then addr else if option = 117 then localPart addr else domainPart addr
  | .cut => []

def FormatPart.isDirective : FormatPart → Bool
  | .directive _ => true
  | _ => false

/-- The format with its directives replaced. -/
def expanded (format addr : Bytes) : Bytes := (formatParts format).flatMap (FormatPart.text addr)

@[simp] theorem formatParts_nil : formatParts [] = [] := rfl

theorem formatParts_char {c : UInt8} (hc : c ≠ PERCENT) (rest : Bytes) :
    formatParts (c :: rest) = .char c :: formatParts rest := by
  rw [formatParts.eq_def]
  exact if_neg hc

@[simp] theorem formatParts_directive (option : UInt8) (rest : Bytes) :
    formatParts (PERCENT :: option :: rest) = .directive option :: formatParts rest := rfl

theorem countP_directive (option : UInt8) (parts : List FormatPart) :
    (FormatPart.directive option :: parts).countP FormatPart.isDirective =
      parts.countP FormatPart.isDirective + 1 :=
  List.countP_cons_of_pos rfl

@[simp] theorem formatParts_cut : formatParts [PERCENT] = [.cut] := rfl

/-! ## The parts of an address -/

theorem smfCoreStrsplit_zero (addr : Bytes) :
    (smfCoreStrsplit addr AT)[0]? = some (localPart addr) := by
  rw [smfCoreStrsplit, splitOn_eq]
  rfl

theorem smfCoreStrsplit_one (addr : Bytes) :
    (smfCoreStrsplit addr AT)[1]? = if AT ∈ addr then some (domainPart addr) else none := by
  rw [smfCoreStrsplit, splitOn_eq, List.getElem?_cons_succ]
  split
  · rw [splitOn_eq]
    rfl
  · rfl

theorem smfCoreStrsplit_length_lt (addr : Bytes) :
    (smfCoreStrsplit addr AT).length < 2 ↔ AT ∉ addr := by
  have hone := smfCoreStrsplit_one addr
  by_cases hat : AT ∈ addr
  · rw [if_pos hat] at hone
    have hlt := (List.getElem?_eq_some_iff.mp hone).1
    exact ⟨fun h => by omega, fun h => absurd hat h⟩
  · rw [if_neg hat] at hone
    have hge := List.getElem?_eq_none_iff.mp hone
    exact ⟨fun _ => hat, fun _ => by omega⟩

/-- What stands in the place of a directive. -/
theorem insertFor_eq (addr : Bytes) (option : UInt8) :
    insertFor addr (smfCoreStrsplit addr AT) option =
      match (FormatPart.directive option).fault addr with
      | some code => .error code
      | none => .ok (some ((FormatPart.directive option).text addr)) := by
  rw [insertFor, FormatPart.fault, FormatPart.text, smfCoreStrsplit_zero, smfCoreStrsplit_one]
  by_cases hs : option = 115
  · rw [if_pos hs, if_pos (Or.inl hs), if_pos hs]
  · by_cases hu : option = 117
    · rw [if_neg hs, if_pos hu, if_pos (Or.inr hu), if_neg hs, if_pos hu]
    · rw [if_neg hs, if_neg hu, if_neg (not_or.mpr ⟨hs, hu⟩), if_neg hs, if_neg hu]
      by_cases hd : option = 100
      · rw [if_pos hd, if_pos hd]
        by_cases hat : AT ∈ addr
        · rw [if_neg ((smfCoreStrsplit_length_lt addr).not.mpr (not_not.mpr hat)), if_pos hat,
            if_pos hat]
        · rw [if_pos ((smfCoreStrsplit_length_lt addr).mpr hat), if_neg hat]
      · rw [if_neg hd, if_neg hd]

/-! ## What the loop does -/

theorem charAt_end (done : Bytes) : charAt done done.length = 0 := by
  rw [charAt, Int.toNat_natCast, List.getElem?_eq_none (Nat.le_refl _)]
  rfl

theorem charAt_append (done : Bytes) (c : UInt8) (rest : Bytes) :
    charAt (done ++ c :: rest) done.length = c := by
  rw [charAt, Int.toNat_natCast, List.getElem?_append_right (Nat.le_refl _), Nat.sub_self]
  rfl

theorem charAt_option (done : Bytes) (c option : UInt8) (rest : Bytes) :
    charAt (done ++ c :: option :: rest) (done.length + 1) = option := by
  have hnext := charAt_append (done ++ [c]) option rest
  rwa [List.append_assoc, List.length_append, Int.natCast_add] at hnext

theorem spliceAt_append (done : Bytes) (a b : UInt8) (rest insert : Bytes) :
    spliceAt (done ++ a :: b :: rest) done.length insert = done ++ insert ++ rest := by
  rw [spliceAt, Int.toNat_natCast, List.take_left, ← List.drop_drop, List.drop_left]
  rfl

/-- The cursor is behind the inserted text, however short it is. -/
theorem cursorAfter_length (done insert : Bytes) :
    cursorAfter done.length insert.length + 1 = (done ++ insert).length := by
  rw [cursorAfter, List.length_append, Int.natCast_add]
  omega

/-- In the types of the C code `insert_len - 1` wraps around for an empty insertion, and the
`int` comes out right all the same. -/
theorem cursorAfter_int {offs : BitVec 32} {insertLen : BitVec 64} (h : 0 ≤ offs.toInt)
    (hfits : offs.toInt + insertLen.toNat ≤ INT_MAX) :
    ((offs.signExtend 64 + (insertLen - 1#64)).setWidth 32).toInt =
      cursorAfter offs.toInt insertLen.toNat := by
  have hmsb : offs.msb = false := by
    rw [BitVec.msb_eq_toInt]
    exact decide_eq_false (by omega)
  have hoffs : offs.toInt = offs.toNat := BitVec.toInt_eq_toNat_of_msb hmsb
  have hmax : (INT_MAX : Int) = 2147483647 := rfl
  rw [BitVec.signExtend_eq_setWidth_of_msb_false hmsb, BitVec.toInt_setWidth, BitVec.toNat_add,
    BitVec.toNat_sub, BitVec.toNat_setWidth, BitVec.toNat_ofNat, cursorAfter, hoffs, Int.bmod_def]
  omega

theorem loop_char {addr : Bytes} {parts : List Bytes} {out : Bytes} {offs : Int} {repMade : Nat}
    (hzero : charAt out offs ≠ 0) (hpercent : charAt out offs ≠ PERCENT) :
    expandInPlaceLoop addr parts out offs repMade =
      expandInPlaceLoop addr parts out (offs + 1) repMade := by
  rw [expandInPlaceLoop, dif_neg hzero, if_neg hpercent]

theorem loop_error {addr : Bytes} {parts : List Bytes} {out : Bytes} {offs : Int} {repMade : Nat}
    {code : Int} (hpercent : charAt out offs = PERCENT)
    (hinsert : insertFor addr parts (charAt out (offs + 1)) = .error code) :
    expandInPlaceLoop addr parts out offs repMade = .error code := by
  rw [expandInPlaceLoop, dif_neg (by rw [hpercent]; decide), if_pos hpercent]
  split
  · rename_i code' h
    rw [hinsert] at h
    cases h
    rfl
  · rename_i h
    rw [hinsert] at h
    cases h
  · rename_i h
    rw [hinsert] at h
    cases h

theorem loop_insert {addr : Bytes} {parts : List Bytes} {out : Bytes} {offs : Int} {repMade : Nat}
    {insert : Bytes} (hpercent : charAt out offs = PERCENT)
    (hinsert : insertFor addr parts (charAt out (offs + 1)) = .ok (some insert)) :
    expandInPlaceLoop addr parts out offs repMade =
      expandInPlaceLoop addr parts (spliceAt out offs insert)
        (cursorAfter offs insert.length + 1) (repMade + 1) := by
  rw [expandInPlaceLoop, dif_neg (by rw [hpercent]; decide), if_pos hpercent]
  split
  · rename_i h
    rw [hinsert] at h
    cases h
  · rename_i insert' h
    rw [hinsert] at h
    cases h
    rfl
  · rename_i h
    rw [hinsert] at h
    cases h

/-- With `done` behind the cursor and `rest` in front of it, only `rest` is looked at. -/
theorem expandInPlaceLoop_eq (addr : Bytes) {rest : Bytes} (hrest : (0 : UInt8) ∉ rest)
    (done : Bytes) (repMade : Nat) :
    expandInPlaceLoop addr (smfCoreStrsplit addr AT) (done ++ rest) done.length repMade =
      match (formatParts rest).findSome? (FormatPart.fault addr) with
      | some code => .error code
      | none => .ok (done ++ expanded rest addr,
          repMade + (formatParts rest).countP FormatPart.isDirective) := by
  fun_induction formatParts rest generalizing done repMade with
  | case1 =>
    rw [expandInPlaceLoop, List.append_nil, dif_pos (charAt_end done)]
    simp [expanded]
  | case2 =>
    -- the byte behind the percent sign is the terminating NUL
    have hnext : charAt (done ++ [PERCENT]) (done.length + 1) = 0 := by
      have hend := charAt_end (done ++ [PERCENT])
      rwa [List.length_append, Int.natCast_add] at hend
    rw [loop_error (charAt_append done PERCENT []) (by rw [hnext]; rfl)]
    rfl
  | case3 option rest ih =>
    have hpercent := charAt_append done PERCENT (option :: rest)
    have hinsert := insertFor_eq addr option
    rw [List.findSome?_cons]
    cases hfault : (FormatPart.directive option).fault addr with
    | some code =>
      rw [hfault] at hinsert
      rw [loop_error hpercent (by rwa [charAt_option])]
    | none =>
      rw [hfault] at hinsert
      have hrest' : (0 : UInt8) ∉ rest := fun h =>
        hrest (List.mem_cons_of_mem _ (List.mem_cons_of_mem _ h))
      rw [loop_insert hpercent (by rwa [charAt_option]), spliceAt_append, cursorAfter_length,
        ih hrest']
      simp only [expanded, formatParts_directive, List.flatMap_cons, List.append_assoc,
        countP_directive, Nat.add_assoc, Nat.add_comm 1]
  | case4 c rest hc ih =>
    have hzero : c ≠ 0 := fun h => hrest (h ▸ List.mem_cons_self)
    rw [loop_char (by rwa [charAt_append]) (by rwa [charAt_append])]
    have hcursor : (done.length : Int) + 1 = (done ++ [c]).length := by
      rw [List.length_append, Int.natCast_add]
      rfl
    have ih := ih (fun h => hrest (List.mem_cons_of_mem c h)) (done ++ [c]) repMade
    rw [← hcursor, List.append_assoc, List.singleton_append] at ih
    rw [ih, List.findSome?_cons]
    simp only [FormatPart.fault, expanded, formatParts_char hc, List.flatMap_cons,
      FormatPart.text, List.append_assoc]
    rfl

/-! ## The function -/

/-- **What the function does**: the first fault of the format gives the result and leaves `*buf`
alone, and without one the directives are counted and replaced. -/
theorem expandInPlace_eq (format addr : CStr) (buf : Option Bytes) :
    smfCoreExpandStringInPlace format addr buf =
      match (formatParts format).findSome? (FormatPart.fault addr) with
      | some code => (code, buf)
      | none =>
        ((formatParts format).countP FormatPart.isDirective, some (expanded format addr)) := by
  have hloop := expandInPlaceLoop_eq addr format.2 [] 0
  rw [List.nil_append] at hloop
  rw [smfCoreExpandStringInPlace, show (0 : Int) = ([] : Bytes).length from rfl, hloop]
  cases (formatParts format).findSome? (FormatPart.fault addr) with
  | some code => rfl
  | none => simp

theorem expandOption_insertFor (addr : Bytes) (parts : List Bytes) (option : UInt8) :
    expandOption addr parts option =
      (insertFor addr parts option).map (·.getD [PERCENT, option]) := by
  rw [expandOption, insertFor]
  split_ifs with hs hu hd hlen
  · rfl
  · rfl
  · rw [List.getElem?_eq_none (by omega)]
    rfl
  · rw [List.getElem?_eq_getElem (by omega)]
    rfl
  · rfl

/-- The loop that reads the format instead of editing it. -/
theorem expandLoop_eq (addr rest : Bytes) :
    expandLoop addr (smfCoreStrsplit addr AT) rest =
      match (formatParts rest).findSome? (FormatPart.fault addr) with
      | some code => .error code
      | none => .ok (expanded rest addr, (formatParts rest).countP FormatPart.isDirective) := by
  fun_induction formatParts rest with
  | case1 => rfl
  | case2 => rfl
  | case3 option rest ih =>
    rw [expandLoop, if_pos rfl, expandOption_insertFor, insertFor_eq, ih, List.findSome?_cons,
      countP_directive]
    cases (FormatPart.directive option).fault addr with
    | some code => rfl
    | none => cases (formatParts rest).findSome? (FormatPart.fault addr) <;> rfl
  | case4 c rest hc ih =>
    rw [expandLoop.eq_def]
    simp only [if_neg hc]
    rw [ih, List.findSome?_cons]
    simp only [FormatPart.fault, expanded, formatParts_char hc]
    cases (formatParts rest).findSome? (FormatPart.fault addr) <;> rfl

/-- In place or not, the function does the same. -/
theorem expandInPlace_model (format addr : CStr) (buf : Option Bytes) :
    smfCoreExpandStringInPlace format addr buf =
      match smfCoreExpandString format addr with
      | .error code => (code, buf)
      | .ok (text, replaced) => (replaced, some text) := by
  have hloop := expandInPlaceLoop_eq addr format.2 [] 0
  rw [List.nil_append] at hloop
  rw [smfCoreExpandString, smfCoreExpandStringInPlace, expandLoop_eq,
    show (0 : Int) = ([] : Bytes).length from rfl, hloop]
  cases (formatParts format).findSome? (FormatPart.fault addr) with
  | some code => rfl
  | none => simp

/-! ## The two parts of an address -/

/-- The parts are the address again when there is one `@`: `domainPart` stops at a second. -/
theorem parts_eq_iff {addr : Bytes} (hat : AT ∈ addr) :
    localPart addr ++ AT :: domainPart addr = addr ↔ addr.count AT = 1 := by
  obtain ⟨user, rest, haddr, huser⟩ := List.eq_append_cons_of_mem hat
  have hlocal : localPart addr = user := by
    rw [localPart, haddr, takeWhile_ne_append huser]
  have hdomain : domainPart addr = rest.takeWhile (· ≠ AT) := by
    rw [domainPart, haddr, dropWhile_ne_append huser]
    rfl
  have hcount : addr.count AT = rest.count AT + 1 := by
    rw [haddr, List.count_append, List.count_cons_self, List.count_eq_zero.mpr huser,
      Nat.zero_add]
  calc localPart addr ++ AT :: domainPart addr = addr
      ↔ rest.takeWhile (· ≠ AT) = rest := by rw [hlocal, hdomain, haddr]; simp
    _ ↔ AT ∉ rest := takeWhile_ne_eq_self_iff
    _ ↔ addr.count AT = 1 := by
      rw [hcount, ← List.count_eq_zero]
      omega

def userDomain : CStr := ⟨ascii "%u@%d", by decide⟩

theorem expanded_userDomain (addr : Bytes) :
    expanded userDomain addr = localPart addr ++ AT :: domainPart addr := by
  have hparts : formatParts userDomain = [.directive 117, .char AT, .directive 100] := rfl
  rw [expanded, hparts]
  simp [FormatPart.text]

/-- **When the parts lose nothing**: `%u@%d` is the address again when it has no second `@`. -/
theorem expandInPlace_userDomain_iff (addr : CStr) (buf : Option Bytes) (hat : AT ∈ addr.1) :
    (smfCoreExpandStringInPlace (ascii "%u@%d") addr buf).2 = some addr.1 ↔
      addr.1.count AT = 1 := by
  have hparts : formatParts userDomain = [.directive 117, .char AT, .directive 100] := rfl
  have hfault : (formatParts userDomain).findSome? (FormatPart.fault addr) = none := by
    rw [hparts]
    simp [FormatPart.fault, hat]
  rw [show ascii "%u@%d" = userDomain.1 from rfl, expandInPlace_model, smfCoreExpandString,
    expandLoop_eq, hfault, Option.some_inj, expanded_userDomain]
  exact parts_eq_iff hat

/-- A usual address. -/
theorem expandInPlace_userDomain_one :
    (smfCoreExpandStringInPlace (ascii "%u@%d") (ascii "joe@example.org") none).2 =
      some (ascii "joe@example.org") :=
  (expandInPlace_userDomain_iff ⟨ascii "joe@example.org", by decide⟩ none (by decide)).mpr
    (by decide)

/-- A quoted `@` in the local part cuts the address short. -/
theorem expandInPlace_userDomain_quoted :
    ¬ ∀ (addr : CStr) (buf : Option Bytes), AT ∈ addr.1 →
      (smfCoreExpandStringInPlace (ascii "%u@%d") addr buf).2 = some addr.1 := by
  intro hall
  have hquoted := hall ⟨ascii "\"a@b\"@c", by decide⟩ none (by decide)
  rw [show ascii "%u@%d" = userDomain.1 from rfl, expandInPlace_model] at hquoted
  exact absurd hquoted (by decide)

end Spmfilter
