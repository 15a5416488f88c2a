import Spmfilter.Lib.CString
import Spmfilter.Lib.Source

/-!
# Reading lines from a socket

`smf_internal.c` reads a socket through a buffer of its own.
`smf_internal_readcbuf` hands out one byte and refills the buffer when it is
empty; `smf_internal_readline` collects bytes up to a line feed or until the
caller's buffer is full.

The kernel is the list of replies that `read()` will give.  When the list is
used up, `read()` returns `0`, the end of the stream.

`smf_internal_readline` only asks for the next byte, so it is written over any
`Source`.  On the socket the source is `socketSource`.

* A line that fits is stored with its line feed, and its length is returned.
* When the buffer is full before a line feed, `nbyte - 1` bytes are stored and
  `nbyte` is returned.
* At the end of the stream inside a line the byte before it is stored a second
  time, because `*ptr++ = c` runs before the result is looked at, and it is
  counted.
-/

namespace Spmfilter

open CString

/-- `MAXLINE` of `smf_internal.h`. -/
def MAXLINE : Nat := 1024

/-- `BUFSIZE` of `smf_internal.h`, the size of the buffer in `readline_t`. -/
def BUFSIZE : Nat := 1024

/-- What one `read(fd, rl->buf, sizeof(rl->buf))` can give: between `1` and
`BUFSIZE` bytes, `EINTR`, or another error. -/
inductive ReadResult where
  | data (bytes : Bytes) (nonempty : bytes ≠ []) (fits : bytes.length ≤ BUFSIZE)
  | eintr
  | error

/-- The replies that the kernel still has to give on a socket. -/
abbrev Socket := List ReadResult

/-- `readline_t`: `rest` is the `count` bytes from `current` on.  After an error
`count` is `-1`, which every later test treats as an empty buffer. -/
structure ReadlineT where
  rest : Bytes := []

/-- The refill loop of `smf_internal_readcbuf`, entered with an empty buffer. -/
def smfInternalFill : Socket → Next UInt8 × ReadlineT × Socket
  | [] => (.eof, {}, [])
  | .eintr :: sock => smfInternalFill sock
  | .error :: sock => (.error, {}, sock)
  | .data bytes nonempty _ :: sock =>
    (.item (bytes.head nonempty), { rest := bytes.tail }, sock)

/-- `smf_internal_readcbuf`: one byte, the end of the stream (`0`), or an error
(`-1`). -/
def smfInternalReadcbuf : ReadlineT × Socket → Next UInt8 × ReadlineT × Socket
  | ({ rest := b :: rest }, sock) => (.item b, { rest }, sock)
  | ({ rest := [] }, sock) => smfInternalFill sock

/-- The bytes that a list of replies holds, with one unit for each reply. -/
def Socket.size : Socket → Nat
  | [] => 0
  | .data bytes _ _ :: sock => bytes.length + 1 + Socket.size sock
  | _ :: sock => 1 + Socket.size sock

/-- A refill uses up at least one reply for every byte that it hands out. -/
theorem smfInternalFill_size (sock : Socket) :
    (smfInternalFill sock).2.1.rest.length + Socket.size (smfInternalFill sock).2.2
        ≤ Socket.size sock ∧
      ∀ b, (smfInternalFill sock).1 = .item b →
        (smfInternalFill sock).2.1.rest.length + Socket.size (smfInternalFill sock).2.2
          < Socket.size sock := by
  induction sock with
  | nil => simp [smfInternalFill, Socket.size]
  | cons reply sock ih =>
    cases reply with
    | data bytes nonempty fits =>
      simp only [smfInternalFill, Socket.size, List.length_tail]
      exact ⟨by omega, fun _ _ => by omega⟩
    | eintr =>
      simp only [smfInternalFill, Socket.size]
      exact ⟨by omega, fun b hb => by have := ih.2 b hb; omega⟩
    | error =>
      simp [smfInternalFill, Socket.size]

/-- The socket behind a `readline_t` as a source of bytes. -/
def socketSource : Source UInt8 (ReadlineT × Socket) where
  next := smfInternalReadcbuf
  size := fun r => r.1.rest.length + Socket.size r.2
  size_item := by
    intro r b r' h
    obtain ⟨⟨_ | ⟨c, rest⟩⟩, sock⟩ := r
    · have hs := (smfInternalFill_size sock).2 b (by rw [smfInternalReadcbuf] at h; rw [h])
      rw [smfInternalReadcbuf] at h
      rw [h] at hs
      simpa using hs
    · rw [smfInternalReadcbuf, Prod.mk.injEq] at h
      rw [← h.2]
      simp
  size_le := by
    intro r
    obtain ⟨⟨_ | ⟨c, rest⟩⟩, sock⟩ := r
    · have hs := (smfInternalFill_size sock).1
      simpa [smfInternalReadcbuf] using hs
    · simp [smfInternalReadcbuf]

/-- What `smf_internal_readline` returns and the bytes it has stored in front of
the terminating NUL. -/
structure ReadlineResult where
  ret : Int
  buf : Bytes

section Readline

variable {R : Type} (src : Source UInt8 R)

/-- The loop of `smf_internal_readline`.  `left` is `nbyte - n`, and `c` is the
byte that the last turn left in the variable `c`. -/
def smfInternalReadlineLoop :
    (left n : Nat) → (c : UInt8) → (buf : Bytes) → R → ReadlineResult × R
  | 0, n, _, buf, r => (⟨n, buf⟩, r)
  | left + 1, n, c, buf, r =>
    match src.next r with
    | (.error, r') => (⟨-1, buf⟩, r')
    | (.eof, r') =>
      -- `c` is stored once more before the loop is left
      (⟨if n = 1 then 0 else n, buf ++ [c]⟩, r')
    | (.item b, r') =>
      if b = LF then (⟨n, buf ++ [b]⟩, r')
      else smfInternalReadlineLoop left (n + 1) b (buf ++ [b]) r'

/-- `smf_internal_readline`.  On the first turn `c` is not yet set; a stream
that ends there returns `0`, and the caller does not look at the buffer. -/
def smfInternalReadline (nbyte : Nat) (r : R) : ReadlineResult × R :=
  smfInternalReadlineLoop src (nbyte - 1) 1 0 [] r

/-- The loop never makes the source larger, and a positive result has taken an
item from it. -/
theorem smfInternalReadlineLoop_size (left n : Nat) (c : UInt8) (buf : Bytes) (r : R) :
    src.size (smfInternalReadlineLoop src left n c buf r).2 ≤ src.size r ∧
      (n = 1 → 0 < left → 0 < (smfInternalReadlineLoop src left n c buf r).1.ret →
        src.size (smfInternalReadlineLoop src left n c buf r).2 < src.size r) := by
  induction left generalizing n c buf r with
  | zero => simp [smfInternalReadlineLoop]
  | succ left ih =>
    rw [smfInternalReadlineLoop]
    have hle := src.size_le r
    rcases hnext : src.next r with ⟨_ | _ | _, r'⟩
    · rename_i b
      have hlt := src.size_item r b r' hnext
      dsimp only
      split
      · exact ⟨Nat.le_of_lt hlt, fun _ _ _ => hlt⟩
      · have hrec := (ih (n + 1) b (buf ++ [b]) r').1
        exact ⟨by omega, fun _ _ _ => by omega⟩
    · rw [hnext] at hle
      refine ⟨hle, fun hn _ hpos => ?_⟩
      simp [hn] at hpos
    · rw [hnext] at hle
      refine ⟨hle, fun _ _ hpos => ?_⟩
      simp at hpos

/-- Reading a line never makes the source larger. -/
theorem smfInternalReadline_size_le (nbyte : Nat) (r : R) :
    src.size (smfInternalReadline src nbyte r).2 ≤ src.size r :=
  (smfInternalReadlineLoop_size src (nbyte - 1) 1 0 [] r).1

/-- A line of positive length makes the source smaller. -/
theorem smfInternalReadline_size_lt {nbyte : Nat} (hn : 2 ≤ nbyte) {r : R}
    (h : 0 < (smfInternalReadline src nbyte r).1.ret) :
    src.size (smfInternalReadline src nbyte r).2 < src.size r :=
  (smfInternalReadlineLoop_size src (nbyte - 1) 1 0 [] r).2 rfl (by omega) h

end Readline

/-- `smf_internal_strip_email_addr`: the text between the first `<` and the
first `>` after it, or the whole string when one of them is missing. -/
def smfInternalStripEmailAddr (addr : Bytes) : Bytes :=
  match strchr addr 60 with
  | none => addr
  | some p0 =>
    let p1 := p0.tail
    match strchr p1 62 with
    | none => addr
    | some p2 => p1.take (p1.length - p2.length)

example : smfInternalStripEmailAddr (ascii "Foo <foo@bar> x") = ascii "foo@bar" := by decide

/-- `smf_internal_determine_linebreak`. -/
def smfInternalDetermineLinebreak (s : Bytes) : Option Bytes :=
  if (strstr s [CR, LF]).isSome then some [CR, LF]
  else if (strstr s [LF]).isSome then some [LF]
  else if (strstr s [CR]).isSome then some [CR]
  else none

/-- What the line break of a text tells about it. -/
theorem smfInternalDetermineLinebreak_cases (s : Bytes) :
    (LF ∈ s ∧ (smfInternalDetermineLinebreak s = some [CR, LF] ∨
        smfInternalDetermineLinebreak s = some [LF])) ∨
      (LF ∉ s ∧ CR ∈ s ∧ smfInternalDetermineLinebreak s = some [CR]) ∨
      (LF ∉ s ∧ CR ∉ s ∧ smfInternalDetermineLinebreak s = none) := by
  have hcrlf : [CR, LF] <:+: s → LF ∈ s := fun h => h.subset (by simp)
  simp only [smfInternalDetermineLinebreak, strstr_isSome, List.singleton_infix_iff]
  by_cases hlf : LF ∈ s
  · by_cases h : [CR, LF] <:+: s <;> simp [hlf, h]
  · by_cases hcr : CR ∈ s <;> simp [hlf, hcr, mt hcrlf hlf]

end Spmfilter
