import Spmfilter.Core.Expand
import Spmfilter.Lib.Buffer

/-!
# The buffer of an expanded query

`smf_core_expand_string` gives its buffer the size of the text after each replacement, and it
does so before it moves the tail of the text.  Here the loop runs on the block of memory
itself.

* `expandBufferLoop` is the loop, and `none` is an access outside the block.
* `spliceBuffer_wide` and `spliceBuffer_narrow` are the two kinds of replacement: the tail is
  moved where the text does not shrink, and it is lost where it does.
* `expandBufferLoop_eq` compares the loop with the one on strings.
* `expandBuffer_safe_iff` says when the function stays in its buffer.
-/

namespace Spmfilter

open CString Buffers

/-! ## The function -/

/-- The replacement: `realloc`, `memmove` and `memcpy`. -/
def spliceBuffer (fresh : Nat → UInt8) (out : Buffer) (offs : Int) (insert : Bytes) :
    Option Buffer := do
  let out := out.realloc fresh (out.size + insert.length - 2)
  let tail ← out.strlen (offs + 2)
  let out ← out.memmove (offs + insert.length) (offs + 2) (tail + 1)
  out.write offs insert

theorem size_spliceBuffer {fresh : Nat → UInt8} {out out' : Buffer} {offs : Int} {insert : Bytes}
    (h : spliceBuffer fresh out offs insert = some out') :
    out'.size = out.size + insert.length - 2 := by
  rw [spliceBuffer] at h
  obtain ⟨tail, -, h⟩ := Option.bind_eq_some_iff.mp h
  obtain ⟨moved, hmoved, h⟩ := Option.bind_eq_some_iff.mp h
  rw [Buffer.size_write h, Buffer.size_memmove hmoved, Buffer.size_realloc]

/-- The `while` loop.  `out_size` is the size of `out`. -/
def expandBufferLoop (fresh : Nat → UInt8) (addr : Bytes) (parts : List Bytes) (out : Buffer)
    (offs : Int) (repMade : Nat) : Option (Except Int (Buffer × Nat)) :=
  match hc : out.get offs with
  | none => none
  | some c =>
    if c = 0 then some (.ok (out, repMade))
    else if c = PERCENT then
      match out.get (offs + 1) with
      | none => none
      | some option =>
        match insertFor addr parts option with
        | .error code => some (.error code)
        | .ok (some insert) =>
          match hout : spliceBuffer fresh out offs insert with
          | none => none
          | some out' =>
            expandBufferLoop fresh addr parts out' (cursorAfter offs insert.length + 1)
              (repMade + 1)
        | .ok none => expandBufferLoop fresh addr parts out (offs + 1 + 1) (repMade + 1)
    else expandBufferLoop fresh addr parts out (offs + 1) repMade
termination_by (out.size - offs).toNat
decreasing_by
  · have hin := Buffer.lt_size_of_get hc
    rw [size_spliceBuffer hout, cursorAfter]
    omega
  · have hin := Buffer.lt_size_of_get hc
    omega
  · have hin := Buffer.lt_size_of_get hc
    omega

/-- `smf_core_expand_string` on its buffer.  `malloc` gives `out_size` bytes, and `strncpy`
copies the format and the NUL to them. -/
def smfCoreExpandStringBuffer (fresh : Nat → UInt8) (format addr : Bytes) (buf : Option Buffer) :
    Option (Int × Option Buffer) := do
  let outSize := format.length + 1
  let out ← (Buffer.malloc fresh outSize).write 0 (format ++ [0])
  let out ← out.write (outSize - 1) [0]
  match ← expandBufferLoop fresh addr (smfCoreStrsplit addr AT) out 0 0 with
  | .error code => return (code, buf)
  | .ok (out, repMade) => return (repMade, some out)

/-! ## One replacement -/

variable {fresh : Nat → UInt8}

/-- An insertion of two bytes or more leaves room for the tail. -/
theorem spliceBuffer_wide {done rest insert : Bytes} {a b : UInt8} (hrest : (0 : UInt8) ∉ rest)
    (hwide : 2 ≤ insert.length) :
    spliceBuffer fresh (.ofStr (done ++ a :: b :: rest)) done.length insert =
      some (.ofStr (done ++ insert ++ rest)) := by
  have hsize : (Buffer.ofStr (done ++ a :: b :: rest)).size + insert.length - 2 =
      done.length + insert.length + (rest.length + 1) := by
    rw [Buffer.size_ofStr, List.length_append, List.length_cons, List.length_cons]
    omega
  obtain ⟨new, hnew, hgrown⟩ := Buffer.realloc_ofStr_grow fresh (s := done ++ a :: b :: rest)
    (n := done.length + insert.length + (rest.length + 1)) (by simp; omega)
  have hseam : (done.length : Int) + 2 = (done ++ [a, b]).length := by simp
  -- the tail, which `strlen` measures up to its NUL
  have hstrlen : (Buffer.mk (done ++ a :: b :: rest ++ 0 :: new)).strlen (done.length + 2) =
      some rest.length := by
    rw [hseam, ← Buffer.strlen_append (done ++ [a, b]) new hrest]
    simp
  have hread : (Buffer.mk (done ++ a :: b :: rest ++ 0 :: new)).read (done.length + 2)
      (rest.length + 1) = some (rest ++ [0]) := by
    have hmid := Buffer.read_append (done ++ [a, b]) (rest ++ [0]) new
    rw [hseam]
    simpa using hmid
  -- the bytes that the insertion takes, and those that the tail takes
  obtain ⟨gap, room, hgap, hroom, hcells⟩ : ∃ gap room : Bytes, gap.length = insert.length ∧
      room.length = (rest ++ [0]).length ∧
        done ++ a :: b :: rest ++ 0 :: new = done ++ gap ++ room := by
    refine ⟨(a :: b :: rest ++ 0 :: new).take insert.length,
      (a :: b :: rest ++ 0 :: new).drop insert.length, ?_, ?_, ?_⟩
    · simp at hnew ⊢
      omega
    · simp at hnew ⊢
      omega
    · rw [List.append_assoc done, List.append_assoc done, List.take_append_drop]
  have hmove : (Buffer.mk (done ++ a :: b :: rest ++ 0 :: new)).memmove
      (done.length + insert.length) (done.length + 2) (rest.length + 1) =
        some ⟨done ++ gap ++ (rest ++ [0])⟩ := by
    have hwrite := Buffer.write_append (done ++ gap) [] hroom
    rw [List.append_nil, List.append_nil, List.length_append, hgap, Int.natCast_add] at hwrite
    rw [Buffer.memmove, hread, Option.bind_some, hcells, hwrite]
  have hinsert := Buffer.write_append done (rest ++ [0]) hgap
  rw [spliceBuffer, hsize, hgrown, hstrlen]
  show (Buffer.memmove _ _ _ _).bind _ = _
  rw [hmove, Option.bind_some, hinsert, Buffer.ofStr, List.append_assoc _ rest]

/-- A shorter one has cut the NUL off before `strlen` looks for it. -/
theorem spliceBuffer_narrow {done rest insert : Bytes} {a b : UInt8} (hrest : (0 : UInt8) ∉ rest)
    (hnarrow : insert.length < 2) :
    spliceBuffer fresh (.ofStr (done ++ a :: b :: rest)) done.length insert = none := by
  have hsize : (Buffer.ofStr (done ++ a :: b :: rest)).size + insert.length - 2 ≤
      (done ++ a :: b :: rest).length := by
    rw [Buffer.size_ofStr]
    omega
  have hlost : ((Buffer.ofStr (done ++ a :: b :: rest)).realloc fresh
      ((Buffer.ofStr (done ++ a :: b :: rest)).size + insert.length - 2)).strlen
        (done.length + 2) = none := by
    rw [Buffer.realloc_ofStr_shrink fresh hsize]
    apply Buffer.strlen_eq_none
    intro hmem
    have hseam : ((done.length : Int) + 2).toNat = (done ++ [a, b]).length := by simp; omega
    have hdrop : (done ++ a :: b :: rest).drop (done ++ [a, b]).length = rest := by
      rw [show done ++ a :: b :: rest = done ++ [a, b] ++ rest by simp, List.drop_left]
    rw [hseam, List.drop_take, hdrop] at hmem
    exact hrest (List.mem_of_mem_take hmem)
  rw [spliceBuffer, hlost]
  rfl

/-! ## The loop -/

/-- A directive that inserts two bytes or more. -/
def FormatPart.wide (addr : Bytes) : FormatPart → Bool
  | .directive option => decide (2 ≤ ((FormatPart.directive option).text addr).length)
  | _ => true

/-- Every directive in front of the first fault is wide. -/
def wideParts (addr : Bytes) (parts : List FormatPart) : Bool :=
  (parts.takeWhile fun part => (part.fault addr).isNone).all (FormatPart.wide addr)

theorem get_ofStr (done rest : Bytes) :
    (Buffer.ofStr (done ++ rest)).get done.length = some (charAt (done ++ rest) done.length) := by
  cases rest with
  | nil =>
    rw [List.append_nil, charAt_end, Buffer.ofStr]
    exact Buffer.get_append done 0 []
  | cons c rest =>
    rw [charAt_append, Buffer.ofStr, List.append_assoc]
    exact Buffer.get_append done c (rest ++ [0])

/-- The byte behind the one at the cursor. -/
theorem get_ofStr_next {done rest : Bytes} (c : UInt8) :
    (Buffer.ofStr (done ++ c :: rest)).get (done.length + 1) =
      some (charAt (done ++ c :: rest) (done.length + 1)) := by
  have hnext := get_ofStr (done ++ [c]) rest
  rwa [List.append_assoc, List.length_append, Int.natCast_add] at hnext

theorem wideParts_char (addr : Bytes) (c : UInt8) (parts : List FormatPart) :
    wideParts addr (.char c :: parts) = wideParts addr parts := rfl

theorem wideParts_fault {addr : Bytes} {part : FormatPart} {code : Int}
    (h : part.fault addr = some code) (parts : List FormatPart) :
    wideParts addr (part :: parts) = true := by
  rw [wideParts, List.takeWhile_cons_of_neg (by simp [h]), List.all_nil]

theorem wideParts_cons {addr : Bytes} {part : FormatPart} (h : part.fault addr = none)
    (parts : List FormatPart) :
    wideParts addr (part :: parts) = (part.wide addr && wideParts addr parts) := by
  rw [wideParts, List.takeWhile_cons_of_pos (by simp [h]), List.all_cons]
  rfl

section Turns

variable {addr : Bytes} {parts : List Bytes} {out : Buffer} {offs : Int} {repMade : Nat}

/-- A turn of the loop, by the byte at the cursor. -/
theorem bufferLoop_turn {c : UInt8} (hc : out.get offs = some c) :
    expandBufferLoop fresh addr parts out offs repMade =
      if c = 0 then some (.ok (out, repMade))
      else if c = PERCENT then
        match out.get (offs + 1) with
        | none => none
        | some option =>
          match insertFor addr parts option with
          | .error code => some (.error code)
          | .ok (some insert) =>
            (spliceBuffer fresh out offs insert).bind fun out' =>
              expandBufferLoop fresh addr parts out' (cursorAfter offs insert.length + 1)
                (repMade + 1)
          | .ok none => expandBufferLoop fresh addr parts out (offs + 1 + 1) (repMade + 1)
      else expandBufferLoop fresh addr parts out (offs + 1) repMade := by
  rw [expandBufferLoop]
  split
  · rename_i h
    rw [hc] at h
    cases h
  · rename_i c' h
    obtain rfl := Option.some.inj (hc.symm.trans h)
    congr 2
    split
    · rfl
    · split
      · rfl
      · split
        · rename_i hout
          rw [hout, Option.bind_none]
        · rename_i hout
          rw [hout, Option.bind_some]
      · rfl

theorem bufferLoop_end (hc : out.get offs = some 0) :
    expandBufferLoop fresh addr parts out offs repMade = some (.ok (out, repMade)) := by
  rw [bufferLoop_turn hc, if_pos rfl]

theorem bufferLoop_char {c : UInt8} (hc : out.get offs = some c) (hzero : c ≠ 0)
    (hpercent : c ≠ PERCENT) :
    expandBufferLoop fresh addr parts out offs repMade =
      expandBufferLoop fresh addr parts out (offs + 1) repMade := by
  rw [bufferLoop_turn hc, if_neg hzero, if_neg hpercent]

theorem bufferLoop_error {option : UInt8} {code : Int} (hc : out.get offs = some PERCENT)
    (hoption : out.get (offs + 1) = some option)
    (hinsert : insertFor addr parts option = .error code) :
    expandBufferLoop fresh addr parts out offs repMade = some (.error code) := by
  rw [bufferLoop_turn hc, if_neg (by decide), if_pos rfl]
  simp only [hoption, hinsert]

theorem bufferLoop_insert {option : UInt8} {insert : Bytes} (hc : out.get offs = some PERCENT)
    (hoption : out.get (offs + 1) = some option)
    (hinsert : insertFor addr parts option = .ok (some insert)) :
    expandBufferLoop fresh addr parts out offs repMade =
      (spliceBuffer fresh out offs insert).bind fun out' =>
        expandBufferLoop fresh addr parts out' (cursorAfter offs insert.length + 1)
          (repMade + 1) := by
  rw [bufferLoop_turn hc, if_neg (by decide), if_pos rfl]
  simp only [hoption, hinsert]

end Turns

/-- What a loop on strings does, with the string in a block of its own. -/
def inBuffer : Except Int (Bytes × Nat) → Except Int (Buffer × Nat)
  | .error code => .error code
  | .ok (out, repMade) => .ok (.ofStr out, repMade)

/-- While the directives are wide, the block just holds the string that the loop is on, and the
first one that is not takes the loop out of it. -/
theorem expandBufferLoop_eq (fresh : Nat → UInt8) (addr : Bytes) {rest : Bytes}
    (hrest : (0 : UInt8) ∉ rest) (done : Bytes) (repMade : Nat) :
    expandBufferLoop fresh addr (smfCoreStrsplit addr AT) (.ofStr (done ++ rest)) done.length
        repMade =
      if wideParts addr (formatParts rest) then
        some (inBuffer (expandInPlaceLoop addr (smfCoreStrsplit addr AT) (done ++ rest)
          done.length repMade))
      else none := by
  fun_induction formatParts rest generalizing done repMade with
  | case1 =>
    rw [bufferLoop_end ((get_ofStr _ _).trans (by rw [List.append_nil, charAt_end])),
      expandInPlaceLoop, List.append_nil, dif_pos (charAt_end done)]
    rfl
  | case2 =>
    have hpercent := charAt_append done PERCENT []
    have hnext : charAt (done ++ [PERCENT]) (done.length + 1) = 0 := by
      have hend := charAt_end (done ++ [PERCENT])
      rwa [List.length_append, Int.natCast_add] at hend
    have hcut : insertFor addr (smfCoreStrsplit addr AT) 0 = .error (-2) := rfl
    rw [bufferLoop_error ((get_ofStr _ _).trans (congrArg some hpercent))
        ((get_ofStr_next PERCENT).trans (congrArg some hnext)) hcut,
      loop_error hpercent (by rw [hnext]; rfl)]
    rfl
  | case3 option rest ih =>
    have hpercent := charAt_append done PERCENT (option :: rest)
    have hoption := charAt_option done PERCENT option rest
    have hget := (get_ofStr _ _).trans (congrArg some hpercent)
    have hnext := (get_ofStr_next PERCENT).trans (congrArg some hoption)
    have hinsert := insertFor_eq addr option
    cases hfault : (FormatPart.directive option).fault addr with
    | some code =>
      rw [hfault] at hinsert
      rw [bufferLoop_error hget hnext hinsert, loop_error hpercent (by rwa [hoption]),
        wideParts_fault hfault]
      rfl
    | none =>
      rw [hfault] at hinsert
      have hrest' : (0 : UInt8) ∉ rest := fun h =>
        hrest (List.mem_cons_of_mem _ (List.mem_cons_of_mem _ h))
      rw [bufferLoop_insert hget hnext hinsert, loop_insert hpercent (by rwa [hoption]),
        wideParts_cons hfault]
      by_cases hwide : 2 ≤ ((FormatPart.directive option).text addr).length
      · rw [spliceBuffer_wide hrest' hwide, Option.bind_some, cursorAfter_length,
          spliceAt_append, ih hrest', show (FormatPart.directive option).wide addr = true from
            decide_eq_true hwide, Bool.true_and]
      · rw [spliceBuffer_narrow hrest' (by omega), Option.bind_none,
          show (FormatPart.directive option).wide addr = false from decide_eq_false hwide,
          Bool.false_and]
        rfl
  | case4 c rest hc ih =>
    have hchar := charAt_append done c rest
    have hzero : c ≠ 0 := fun h => hrest (h ▸ List.mem_cons_self)
    have ih := ih (fun h => hrest (List.mem_cons_of_mem c h)) (done ++ [c]) repMade
    rw [List.append_assoc, List.length_append, Int.natCast_add] at ih
    rw [bufferLoop_char ((get_ofStr _ _).trans (congrArg some hchar)) hzero hc,
      loop_char (by rwa [hchar]) (by rwa [hchar]), wideParts_char]
    exact ih

/-! ## The function stays in its buffer -/

/-- The format is copied to a block that just holds it. -/
theorem smfCoreExpandStringBuffer_eq (fresh : Nat → UInt8) (format addr : Bytes)
    (buf : Option Buffer) :
    smfCoreExpandStringBuffer fresh format addr buf =
      (expandBufferLoop fresh addr (smfCoreStrsplit addr AT) (.ofStr format) 0 0).map fun
        | .error code => (code, buf)
        | .ok (out, repMade) => ((repMade : Int), some out) := by
  have hcopy : (Buffer.malloc fresh (format.length + 1)).write 0 (format ++ [0]) =
      some (.ofStr format) := by
    have hlength : (Buffer.malloc fresh (format.length + 1)).cells.length =
        (format ++ [0]).length := by simp [Buffer.malloc]
    have hwrite := Buffer.write_append [] [] hlength
    rwa [List.append_nil, List.nil_append, List.append_nil, List.nil_append] at hwrite
  have hend : (Buffer.ofStr format).write ((format.length + 1 : Nat) - 1) [0] =
      some (.ofStr format) := by
    have hwrite := Buffer.write_append format [] (rfl : ([0] : Bytes).length = ([0] : Bytes).length)
    rw [List.append_nil] at hwrite
    rwa [Int.natCast_add, Int.natCast_one, Int.add_sub_cancel]
  rw [smfCoreExpandStringBuffer]
  show ((Buffer.malloc fresh (format.length + 1)).write 0 (format ++ [0])).bind _ = _
  rw [hcopy, Option.bind_some]
  show ((Buffer.ofStr format).write ((format.length + 1 : Nat) - 1) [0]).bind _ = _
  rw [hend, Option.bind_some]
  cases expandBufferLoop fresh addr (smfCoreStrsplit addr AT) (.ofStr format) 0 0 with
  | none => rfl
  | some result => cases result <;> rfl

/-- The loop from its start. -/
theorem expandBufferLoop_start (fresh : Nat → UInt8) (format addr : CStr) :
    expandBufferLoop fresh addr (smfCoreStrsplit addr AT) (.ofStr format) 0 0 =
      if wideParts addr (formatParts format) then
        some (inBuffer (expandInPlaceLoop addr (smfCoreStrsplit addr AT) format 0 0))
      else none :=
  expandBufferLoop_eq fresh addr format.2 [] 0

/-- The function on its buffer and the function on strings. -/
theorem expandBuffer_inPlace (fresh : Nat → UInt8) (format addr : CStr) (buf : Option Bytes) :
    smfCoreExpandStringBuffer fresh format addr (buf.map .ofStr) =
      if wideParts addr (formatParts format) then
        some ((smfCoreExpandStringInPlace format addr buf).map id (·.map .ofStr))
      else none := by
  rw [smfCoreExpandStringBuffer_eq, smfCoreExpandStringInPlace, expandBufferLoop_start]
  split
  · cases expandInPlaceLoop addr (smfCoreStrsplit addr AT) format 0 0 <;> rfl
  · rfl

theorem wideParts_iff {addr : Bytes} {parts : List FormatPart} :
    wideParts addr parts = true ↔
      ∀ part ∈ parts.takeWhile fun part => (part.fault addr).isNone,
        part.isDirective → 2 ≤ (part.text addr).length := by
  rw [wideParts, List.all_eq_true]
  apply forall₂_congr
  intro part _
  cases part with
  | char c => simp [FormatPart.wide, FormatPart.isDirective]
  | directive option => simp [FormatPart.wide, FormatPart.isDirective]
  | cut => simp [FormatPart.wide, FormatPart.isDirective]

/-- **When the function stays in its buffer**: every directive in front of the first fault
inserts two bytes or more. -/
theorem expandBuffer_safe_iff (fresh : Nat → UInt8) (format addr : CStr) (buf : Option Buffer) :
    (smfCoreExpandStringBuffer fresh format addr buf).isSome = true ↔
      ∀ part ∈ (formatParts format).takeWhile fun part => (part.fault addr).isNone,
        part.isDirective → 2 ≤ (part.text addr).length := by
  rw [← wideParts_iff, smfCoreExpandStringBuffer_eq, Option.isSome_map, expandBufferLoop_start]
  split
  · rename_i hwide
    simp [hwide]
  · rename_i hwide
    simp [hwide]

/-- A local part of one letter: the buffer shrinks under the text. -/
theorem expandBuffer_overrun :
    ¬ ∀ (fresh : Nat → UInt8) (format addr : CStr) (buf : Option Buffer),
      (smfCoreExpandStringBuffer fresh format addr buf).isSome = true := by
  intro hall
  have hsafe := hall (fun _ => 0) ⟨ascii "%u", by decide⟩ ⟨ascii "a@example.org", by decide⟩ none
  rw [show (none : Option Buffer) = (none : Option Bytes).map .ofStr from rfl,
    expandBuffer_inPlace, if_neg (by decide)] at hsafe
  cases hsafe

end Spmfilter
