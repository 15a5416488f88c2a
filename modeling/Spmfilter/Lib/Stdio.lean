import Mathlib.Data.List.Basic
import Spmfilter.Lib.CString

/-!
# Files and lines

Reading and writing of files as the C library does it, and texts as lines.
Nothing here names a program.

* `WriteSchedule` says how many bytes each write call takes.  A short write
  takes fewer than it is given, and no call takes nothing.
* `InFile` is a file that is read from its start, with the end-of-file flag.
  `getline` and `fread` are the two calls on it; both set the flag only when
  they ask for more than is left.
* `freadShort` is an `fread` that may give fewer bytes than are left.
* `fgets` reads a line into a buffer, as far as it fits.
* `lines` cuts a text after each line feed, and `afterEmptyLine` is what comes
  after the first line that is a line end alone.
* `skipTo` finds the same place byte by byte.
-/

namespace Stdio

open CString

/-! ## Writing -/

/-- How many bytes the calls of a write function take, one after the other. -/
structure WriteSchedule where
  count : Nat → Nat
  pos : ∀ i, 0 < count i

/-- What call number `call` takes of `n` bytes. -/
def WriteSchedule.taken (sched : WriteSchedule) (call n : Nat) : Nat :=
  min (sched.count call) n

theorem WriteSchedule.taken_le (sched : WriteSchedule) (call n : Nat) :
    sched.taken call n ≤ n :=
  Nat.min_le_right _ _

theorem WriteSchedule.taken_pos (sched : WriteSchedule) (call : Nat) {n : Nat} (h : 0 < n) :
    0 < sched.taken call n := by
  have hpos := sched.pos call
  unfold WriteSchedule.taken
  omega

/-- Every call takes one byte. -/
def WriteSchedule.bytewise : WriteSchedule where
  count := fun _ => 1
  pos := by
    intro _
    omega

/-! ## Reading -/

/-- A file that is being read. -/
structure InFile where
  rest : Bytes
  eof : Bool

/-- `fopen(path, "r")` of a file with this content. -/
def InFile.start (content : Bytes) : InFile :=
  ⟨content, false⟩

/-- `getline`: the next line with its line feed, or `none` at the end of the
file. -/
def getline (f : InFile) : Option Bytes × InFile :=
  match f.rest, f.rest.dropWhile (fun b => b ≠ LF) with
  | [], _ => (none, ⟨[], true⟩)
  | b :: rest, [] => (some (b :: rest), ⟨[], true⟩)
  | b :: rest, lf :: after =>
    (some ((b :: rest).takeWhile (fun b => b ≠ LF) ++ [lf]), ⟨after, f.eof⟩)

/-- `fread` of up to `n` bytes. -/
def fread (n : Nat) (f : InFile) : Bytes × InFile :=
  (f.rest.take n, ⟨f.rest.drop n, f.eof || decide (f.rest.length < n)⟩)

/-- `fgets` into a buffer of `n` bytes: the next bytes up to a line feed, and at most
`n - 1`; `none` at the end of the file. -/
def fgets (n : Nat) (input : Bytes) : Option (Bytes × Bytes) :=
  if input = [] then none
  else
    let line :=
      match (input.take (n - 1)).dropWhile (· ≠ LF) with
      | [] => input.take (n - 1)
      | lf :: _ => (input.take (n - 1)).takeWhile (· ≠ LF) ++ [lf]
    some (line, input.drop line.length)

/-- A line that fits into the buffer is read whole. -/
theorem fgets_line {n : Nat} {line rest : Bytes} (hline : LF ∉ line) (hfits : line.length + 1 < n) :
    fgets n (line ++ LF :: rest) = some (line ++ [LF], rest) := by
  have hne : line ++ LF :: rest ≠ [] := by simp
  have htake : (line ++ LF :: rest).take (n - 1) =
      line ++ LF :: rest.take (n - 1 - line.length - 1) := by
    rw [List.take_append, List.take_of_length_le (by omega)]
    obtain ⟨k, hk⟩ : ∃ k, n - 1 - line.length = k + 1 := ⟨n - 1 - line.length - 1, by omega⟩
    rw [hk, List.take_succ_cons, Nat.add_sub_cancel]
  have hrest : (line ++ LF :: rest).drop (line ++ [LF]).length = rest := by
    rw [show line ++ LF :: rest = line ++ [LF] ++ rest by simp, List.drop_left]
  rw [fgets, if_neg hne, htake, dropWhile_ne_append hline, takeWhile_ne_append hline]
  show some (line ++ [LF], (line ++ LF :: rest).drop (line ++ [LF]).length) = _
  rw [hrest]

/-- Where no line feed comes in time, as much is read as fits. -/
theorem fgets_open {n : Nat} {input : Bytes} (hne : input ≠ []) (hopen : LF ∉ input.take (n - 1)) :
    fgets n input = some (input.take (n - 1), input.drop (n - 1)) := by
  have hdrop : (input.take (n - 1)).dropWhile (· ≠ LF) = [] := by
    exact List.dropWhile_eq_nil_iff.mpr (forall_ne_of_notMem hopen)
  have hrest : input.drop (input.take (n - 1)).length = input.drop (n - 1) := by
    rw [List.length_take]
    rcases Nat.le_total (n - 1) input.length with hle | hle
    · rw [Nat.min_eq_left hle]
    · rw [Nat.min_eq_right hle, List.drop_length, List.drop_of_length_le hle]
  rw [fgets, if_neg hne, hdrop]
  show some (input.take (n - 1), input.drop (input.take (n - 1)).length) = _
  rw [hrest]

/-- What a call reads: the next bytes, and at least one where there is room for it. -/
theorem fgets_some {n : Nat} {input chunk rest : Bytes} (h : fgets n input = some (chunk, rest)) :
    input = chunk ++ rest ∧ chunk.length ≤ n - 1 ∧ (2 ≤ n → chunk ≠ []) := by
  by_cases hne : input = []
  · rw [fgets, if_pos hne] at h
    cases h
  by_cases hopen : LF ∈ input.take (n - 1)
  · obtain ⟨line, after, hline, htake⟩ := List.eq_append_cons_of_mem hopen
    have hsplit : input = line ++ LF :: (after ++ input.drop (n - 1)) := by
      rw [← List.cons_append, ← List.append_assoc, ← hline, List.take_append_drop]
    have hlength : (input.take (n - 1)).length = line.length + (after.length + 1) := by
      rw [hline, List.length_append, List.length_cons]
    have hfits : line.length + 1 < n := by
      rw [List.length_take] at hlength
      omega
    rw [hsplit, fgets_line htake hfits, Option.some.injEq, Prod.mk.injEq] at h
    obtain ⟨rfl, rfl⟩ := h
    refine ⟨hsplit.trans (by simp), ?_, fun _ => by simp⟩
    rw [List.length_append, List.length_singleton]
    omega
  · rw [fgets_open hne hopen, Option.some.injEq, Prod.mk.injEq] at h
    obtain ⟨rfl, rfl⟩ := h
    refine ⟨(List.take_append_drop _ _).symm, List.length_take_le _ _, fun hroom hnil => ?_⟩
    rcases List.take_eq_nil_iff.mp hnil with hzero | hnil
    · omega
    · exact hne hnil

/-! ## Lines -/

/-- The lines of a text, each with its line feed. -/
def lines : Bytes → List Bytes
  | [] => []
  | b :: rest =>
    if b = LF then [LF] :: lines rest
    else
      match lines rest with
      | [] => [[b]]
      | line :: more => (b :: line) :: more

/-- A line that is a line end alone. -/
def isEmptyLine (line : Bytes) : Bool :=
  line == [LF] || line == [CR, LF]

/-- What comes after the first empty line of a text, when it has one. -/
def afterEmptyLine (text : Bytes) : Option Bytes :=
  match (lines text).dropWhile (fun line => !isEmptyLine line) with
  | [] => none
  | _ :: more => some more.flatten

/-- What comes after the first empty line, byte by byte.  `line` is the part of
the current line that has gone by. -/
def skipTo (line : Bytes) : Bytes → Option Bytes
  | [] => none
  | b :: rest =>
    if b = LF then
      if line = [] ∨ line = [CR] then some rest else skipTo [] rest
    else skipTo (line ++ [b]) rest

/-- The unfinished line at the end of a text. -/
def lastLine (line : Bytes) : Bytes → Bytes
  | [] => line
  | b :: rest => if b = LF then lastLine [] rest else lastLine (line ++ [b]) rest

theorem lines_flatten (text : Bytes) : (lines text).flatten = text := by
  induction text with
  | nil => rfl
  | cons b rest ih =>
    unfold lines
    split
    · rename_i hb
      rw [List.flatten_cons, ih, hb]
      rfl
    · split
      · rename_i hnil
        rw [hnil] at ih
        rw [← ih]
        rfl
      · rename_i line more hcons
        rw [hcons] at ih
        rw [← ih]
        rfl

theorem lines_open (line : Bytes) (hline : LF ∉ line) :
    lines line = if line = [] then [] else [line] := by
  induction line with
  | nil => rfl
  | cons b rest ih =>
    obtain ⟨hb, hrest⟩ := List.ne_and_not_mem_of_not_mem_cons hline
    rw [lines, if_neg (fun h => hb h.symm), ih hrest]
    cases rest <;> rfl

theorem lines_closed (line rest : Bytes) (hline : LF ∉ line) :
    lines (line ++ LF :: rest) = (line ++ [LF]) :: lines rest := by
  induction line with
  | nil => rfl
  | cons b line ih =>
    obtain ⟨hb, hrest⟩ := List.ne_and_not_mem_of_not_mem_cons hline
    rw [List.cons_append, lines, if_neg (fun h => hb h.symm), ih hrest]
    rfl

/-- The lines of a text, one after the other: a text is empty, a line that does not end, or a
line and the text behind it. -/
theorem lines_rec {P : Bytes → Prop} (hnil : P []) (hopen : ∀ line, line ≠ [] → LF ∉ line → P line)
    (hclosed : ∀ line rest, LF ∉ line → P rest → P (line ++ LF :: rest)) (text : Bytes) :
    P text := by
  induction hn : text.length using Nat.strong_induction_on generalizing text with
  | h n ih =>
    by_cases hmem : LF ∈ text
    · obtain ⟨line, rest, rfl, hline⟩ := List.eq_append_cons_of_mem hmem
      refine hclosed line rest hline (ih rest.length ?_ rest rfl)
      rw [← hn, List.length_append, List.length_cons]
      omega
    · rcases eq_or_ne text [] with rfl | hne
      · exact hnil
      · exact hopen text hne hmem

/-- The part of a line in front of its line feed. -/
def lineContent (line : Bytes) : Bytes := line.takeWhile (· ≠ LF)

theorem lineContent_open {line : Bytes} (hline : LF ∉ line) : lineContent line = line :=
  takeWhile_ne_eq_self_iff.mpr hline

theorem lineContent_closed {line : Bytes} (hline : LF ∉ line) :
    lineContent (line ++ [LF]) = line :=
  takeWhile_ne_append hline []

/-- A line of a text holds its line feed at the end, if at all. -/
theorem mem_lines {text line : Bytes} (h : line ∈ lines text) :
    line = lineContent line ∨ line = lineContent line ++ [LF] := by
  induction text using lines_rec with
  | hnil => cases h
  | hopen l hne hl =>
    rw [lines_open l hl, if_neg hne, List.mem_singleton] at h
    rw [h, lineContent_open hl]
    exact Or.inl rfl
  | hclosed l rest hl ih =>
    rw [lines_closed l rest hl, List.mem_cons] at h
    rcases h with rfl | h
    · rw [lineContent_closed hl]
      exact Or.inr rfl
    · exact ih h

/-- A line with its line feed is empty when there is nothing or a carriage
return in front of the line feed. -/
theorem isEmptyLine_append (line : Bytes) :
    isEmptyLine (line ++ [LF]) = decide (line = [] ∨ line = [CR]) := by
  have hcr : line ++ [LF] = [CR, LF] ↔ line = [CR] := by
    rw [show ([CR, LF] : Bytes) = [CR] ++ [LF] from rfl]
    exact List.append_left_inj [LF]
  have hlf : line ++ [LF] = [LF] ↔ line = [] := by
    simp
  unfold isEmptyLine
  rw [Bool.eq_iff_iff, Bool.or_eq_true, beq_iff_eq, beq_iff_eq, decide_eq_true_eq, hcr, hlf]

/-- Byte by byte and line by line lead to the same place. -/
theorem skipTo_eq (line text : Bytes) (hline : LF ∉ line) :
    skipTo line text = afterEmptyLine (line ++ text) := by
  induction text generalizing line with
  | nil =>
    have hopen : isEmptyLine line = false := by
      unfold isEmptyLine
      rw [Bool.or_eq_false_iff, beq_eq_false_iff_ne, beq_eq_false_iff_ne]
      constructor
      · intro h
        rw [h] at hline
        exact hline (by simp)
      · intro h
        rw [h] at hline
        exact hline (by simp)
    rw [List.append_nil, skipTo, afterEmptyLine, lines_open line hline]
    split_ifs
    · rfl
    · simp [hopen]
  | cons b rest ih =>
    rw [skipTo]
    by_cases hb : b = LF
    · rw [if_pos hb, hb, afterEmptyLine, lines_closed line rest hline,
        List.dropWhile_cons, isEmptyLine_append]
      by_cases hempty : line = [] ∨ line = [CR]
      · rw [if_pos hempty, decide_eq_true hempty]
        simp [lines_flatten]
      · rw [if_neg hempty, decide_eq_false hempty, ih [] (by simp)]
        rfl
    · have hline' : LF ∉ line ++ [b] := by
        intro h
        rcases List.mem_append.1 h with h | h
        · exact hline h
        · exact hb (List.mem_singleton.1 h).symm
      rw [if_neg hb, ih _ hline', List.append_assoc]
      rfl

/-- A text that ends before its first line does. -/
theorem skipTo_open (line text : Bytes) (htext : LF ∉ text) : skipTo line text = none := by
  induction text generalizing line with
  | nil => rfl
  | cons b text ih =>
    obtain ⟨hb, hrest⟩ := List.ne_and_not_mem_of_not_mem_cons htext
    rw [skipTo, if_neg (fun h => hb h.symm)]
    exact ih _ hrest

/-- A text with a first line. -/
theorem skipTo_closed (before line rest : Bytes) (hline : LF ∉ line) :
    skipTo before (line ++ LF :: rest) =
      if before ++ line = [] ∨ before ++ line = [CR] then some rest else skipTo [] rest := by
  induction line generalizing before with
  | nil =>
    rw [List.nil_append, List.append_nil, skipTo, if_pos rfl]
  | cons b line ih =>
    obtain ⟨hb, hrest⟩ := List.ne_and_not_mem_of_not_mem_cons hline
    rw [List.cons_append, skipTo, if_neg (fun h => hb h.symm), ih _ hrest, List.append_assoc]
    rfl

/-- Without a line feed there is no empty line. -/
theorem afterEmptyLine_open {text : Bytes} (htext : LF ∉ text) : afterEmptyLine text = none := by
  rw [← List.nil_append text, ← skipTo_eq [] text (by simp), skipTo_open [] text htext]

/-- The first line of a text is empty, or the rest decides. -/
theorem afterEmptyLine_closed (line rest : Bytes) (hline : LF ∉ line) :
    afterEmptyLine (line ++ LF :: rest) =
      if line = [] ∨ line = [CR] then some rest else afterEmptyLine rest := by
  have hrest : skipTo [] rest = afterEmptyLine rest := skipTo_eq [] rest (by simp)
  rw [← hrest, ← List.nil_append (line ++ LF :: rest), ← skipTo_eq [] _ (by simp),
    skipTo_closed [] line rest hline]
  rfl

/-- A text after another one. -/
theorem skipTo_append (line a b : Bytes) :
    skipTo line (a ++ b) =
      match skipTo line a with
      | some rest => some (rest ++ b)
      | none => skipTo (lastLine line a) b := by
  induction a generalizing line with
  | nil => rfl
  | cons c a ih =>
    rw [List.cons_append, skipTo, skipTo, lastLine]
    split_ifs
    · rfl
    · exact ih []
    · exact ih _

/-- What comes after the empty line is shorter than the text. -/
theorem skipTo_length {line text rest : Bytes} (h : skipTo line text = some rest) :
    rest.length < text.length := by
  induction text generalizing line with
  | nil => cases h
  | cons b text ih =>
    rw [skipTo] at h
    rw [List.length_cons]
    split_ifs at h
    · rw [← Option.some.inj h]
      omega
    · have := ih h
      omega
    · have := ih h
      omega

theorem afterEmptyLine_length {text : Bytes} (hne : text ≠ []) :
    ((afterEmptyLine text).getD []).length < text.length := by
  cases hafter : afterEmptyLine text with
  | none => exact List.length_pos_of_ne_nil hne
  | some rest =>
    rw [← List.nil_append text, ← skipTo_eq [] text (by simp)] at hafter
    exact skipTo_length hafter

/-! ## The calls on a file and the lines of its content -/

/-- Where `getline` leaves the file. -/
theorem getline_cases (f : InFile) :
    f.rest = [] ∧ (getline f).1 = none ∨
      (f.rest ≠ [] ∧ LF ∉ f.rest ∧ getline f = (some f.rest, ⟨[], true⟩)) ∨
      ∃ line rest, LF ∉ line ∧ f.rest = line ++ LF :: rest ∧
        getline f = (some (line ++ [LF]), ⟨rest, f.eof⟩) := by
  have hsplit := List.takeWhile_append_dropWhile (p := fun b => decide (b ≠ LF)) (l := f.rest)
  have htake : LF ∉ f.rest.takeWhile (fun b => b ≠ LF) := by
    intro h
    have hlf := List.mem_takeWhile_imp h
    simp at hlf
  cases hrest : f.rest with
  | nil =>
    left
    refine ⟨rfl, ?_⟩
    unfold getline
    rw [hrest]
  | cons b rest =>
    right
    cases hdrop : f.rest.dropWhile (fun b => b ≠ LF) with
    | nil =>
      left
      rw [hdrop, List.append_nil] at hsplit
      refine ⟨by simp, ?_, ?_⟩
      · rw [← hrest, ← hsplit]
        exact htake
      · unfold getline
        rw [hdrop, hrest]
    | cons lf after =>
      right
      have hlf : lf = LF := by
        have hhead := List.head?_dropWhile_not (fun b => decide (b ≠ LF)) f.rest
        rw [hdrop] at hhead
        simpa using hhead
      refine ⟨f.rest.takeWhile (fun b => b ≠ LF), after, htake, ?_, ?_⟩
      · rw [hdrop, hlf, hrest] at hsplit
        rw [hrest]
        exact hsplit.symm
      · unfold getline
        rw [hdrop, hrest, hlf]

/-- What is left to do on a file: its bytes, and the call that finds its end. -/
def InFile.size (f : InFile) : Nat :=
  if f.eof then 0 else f.rest.length + 1

theorem getline_size {f f' : InFile} {line : Bytes} (hopen : f.eof = false)
    (h : getline f = (some line, f')) : f'.size < f.size := by
  unfold InFile.size
  rw [hopen]
  rcases getline_cases f with ⟨_, hnone⟩ | ⟨_, _, hlast⟩ | ⟨line', rest, _, hrest, hline⟩
  · rw [h] at hnone
    cases hnone
  · rw [h] at hlast
    rw [(Prod.mk.inj hlast).2]
    simp
  · rw [h] at hline
    rw [(Prod.mk.inj hline).2, hrest, hopen]
    show rest.length + 1 < (line' ++ LF :: rest).length + 1
    rw [List.length_append, List.length_cons]
    omega

theorem fread_size {f : InFile} {n : Nat} (hopen : f.eof = false) (hn : 0 < n) :
    (fread n f).2.size < f.size := by
  unfold InFile.size fread
  rw [hopen]
  by_cases hlt : f.rest.length < n
  · simp [hlt]
  · have hdrop : (f.rest.drop n).length = f.rest.length - n := List.length_drop
    have heof : decide (f.rest.length < n) = false := decide_eq_false hlt
    rw [heof]
    show (f.rest.drop n).length + 1 < f.rest.length + 1
    omega

/-! ## Short reads -/

/-- How many bytes the calls of `fread` ask the file for, one after the other. -/
abbrev ReadSchedule := WriteSchedule

/-- Call number `call`, an `fread` of up to `n` bytes that may give fewer before the end of
the file. -/
def freadShort (sched : ReadSchedule) (call n : Nat) (f : InFile) : Bytes × InFile :=
  fread (sched.taken call n) f

section

variable {sched : ReadSchedule} {call n : Nat} {f : InFile}

theorem freadShort_size (hopen : f.eof = false) (hn : 0 < n) :
    (freadShort sched call n f).2.size < f.size :=
  fread_size hopen (sched.taken_pos call hn)

theorem freadShort_append :
    (freadShort sched call n f).1 ++ (freadShort sched call n f).2.rest = f.rest :=
  List.take_append_drop _ f.rest

/-- The end of the file is found only where the call has given all that was left. -/
theorem freadShort_eof (hopen : f.eof = false) (heof : (freadShort sched call n f).2.eof = true) :
    (freadShort sched call n f).1 = f.rest := by
  have hlt : (f.eof || decide (f.rest.length < sched.taken call n)) = true := heof
  rw [hopen, Bool.false_or, decide_eq_true_eq] at hlt
  exact List.take_of_length_le (Nat.le_of_lt hlt)

end

end Stdio
