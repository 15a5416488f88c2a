import Spmfilter.Lib.CString

/-!
# Files by name

A directory as a function from names to contents.  Nothing here names a program.

`replaceFile` puts a new file in the place of an old one in two steps: the old one is
removed, and the new one gets its name.  A failure between the steps loses the old file.

`KeepsFile` is what a program that ends with `replaceFile` should do: when it fails, the old
file is still there.  `keepsFile_iff` says that only a failure between the steps breaks it.
-/

namespace Stdio

open CString

/-- The content of each file. -/
abbrev Files := Bytes → Option Bytes

/-- A file with this content is written. -/
def Files.write (files : Files) (name content : Bytes) : Files := fun n =>
  if n = name then some content else files n

/-- `unlink`. -/
def Files.remove (files : Files) (name : Bytes) : Files := fun n =>
  if n = name then none else files n

/-- `rename`. -/
def Files.move (files : Files) (old new : Bytes) : Files := fun n =>
  if n = old then none else if n = new then files old else files n

section

variable {files : Files} {name other content : Bytes}

@[simp] theorem Files.write_same : files.write name content name = some content :=
  if_pos rfl

theorem Files.write_other (h : other ≠ name) : files.write name content other = files other :=
  if_neg h

@[simp] theorem Files.remove_same : files.remove name name = none :=
  if_pos rfl

theorem Files.remove_other (h : other ≠ name) : files.remove name other = files other :=
  if_neg h

/-- A new file gets a name of its own. -/
theorem Files.ne_of_fresh (hother : files other = some content) (hfresh : files name = none) :
    other ≠ name := by
  rintro rfl
  rw [hother] at hfresh
  cases hfresh

/-- A new file leaves the others alone. -/
theorem Files.write_fresh (hother : files other = some content) (hfresh : files name = none)
    (new : Bytes) : files.write name new other = some content :=
  (Files.write_other (Files.ne_of_fresh hother hfresh)).trans hother

theorem Files.move_new {old new : Bytes} (h : new ≠ old) : files.move old new new = files old := by
  rw [Files.move, if_neg h, if_pos rfl]

end

/-- `unlink(path)`, then `rename(tmp, path)`; the flags say which of them fails. -/
def replaceFile (unlinkFails renameFails : Bool) (tmp path : Bytes) (files : Files) :
    Int × Files :=
  if unlinkFails = true then (-1, files)
  else if renameFails = true then (-1, files.remove path)
  else (0, (files.remove path).move tmp path)

section

variable {unlinkFails renameFails : Bool} {tmp path old : Bytes} {files : Files}

/-- The file that is replaced stays when a failure is reported, unless it has already been
removed. -/
theorem replaceFile_keeps_iff (hold : files path = some old) :
    ((replaceFile unlinkFails renameFails tmp path files).1 = -1 →
        (replaceFile unlinkFails renameFails tmp path files).2 path = some old) ↔
      ¬(unlinkFails = false ∧ renameFails = true) := by
  unfold replaceFile
  cases unlinkFails with
  | true => simp [hold]
  | false =>
    cases renameFails with
    | true => simp
    | false => simp

/-- Without a failure the new file has the name. -/
theorem replaceFile_done (h : path ≠ tmp) :
    (replaceFile false false tmp path files).2 path = files tmp := by
  show (files.remove path).move tmp path path = files tmp
  rw [Files.move_new h, Files.remove_other h.symm]

/-- A program, given as a function of the number of turns that its loops may take, leaves
the file as it was when it returns `-1`. -/
def KeepsFile (run : Nat → Option (Int × Files)) (path old : Bytes) : Prop :=
  ∀ fuel ret files, run fuel = some (ret, files) → ret = -1 → files path = some old

/-- A program that leaves the file alone, or comes to `replaceFile` under the condition
`P`. -/
theorem keepsFile_iff {run : Nat → Option (Int × Files)} {P : Prop}
    (hcases : ∀ fuel out, run fuel = some out → out.2 path = some old ∨
      P ∧ ∃ files, files path = some old ∧
        out = replaceFile unlinkFails renameFails tmp path files)
    (hreaches : P → ∃ fuel files, files path = some old ∧
      run fuel = some (replaceFile unlinkFails renameFails tmp path files)) :
    KeepsFile run path old ↔ ¬(P ∧ unlinkFails = false ∧ renameFails = true) := by
  constructor
  · rintro hkeeps ⟨hp, hlost⟩
    obtain ⟨fuel, files, hold, hrun⟩ := hreaches hp
    exact (replaceFile_keeps_iff hold).mp (hkeeps fuel _ _ hrun) hlost
  · intro hnot fuel ret files' hrun hret
    rcases hcases fuel _ hrun with hleft | ⟨hp, files, hold, hout⟩
    · exact hleft
    · have hsafe : (replaceFile unlinkFails renameFails tmp path files).1 = -1 →
          (replaceFile unlinkFails renameFails tmp path files).2 path = some old :=
        (replaceFile_keeps_iff hold).mpr fun h => hnot ⟨hp, h⟩
      rw [← hout] at hsafe
      exact hsafe hret

end

end Stdio
